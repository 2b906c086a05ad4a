import Quecto.Admission.Pacing
import Quecto.Admission.Fairness
import Quecto.Authority.Orphaning
import Quecto.Authority.Cancellation
import Quecto.LineIo.Frame
import Quecto.Board.Text.Stable
import Quecto.Board.Links
import Quecto.Workflow.Engine
import Quecto.Sessions.Synchronize
import Quecto.Sessions.Durable
import Quecto.Agents.Unhidden
import Quecto.Anthropic.Paired
import Quecto.Feed.Delivery
import Quecto.Context.FirstRung
import Quecto.Context.CutStub
import Quecto.Context.Calibration
import Quecto.ToolPolicy.NetworkDestination
import Quecto.Environments.Exclusion
import Quecto.Replication.CatchUp
import Quecto.Swarm.Coherence
import Quecto.Redaction.Secrets
import Quecto.Shared.HtmlText
import Quecto.Providers.Retry
