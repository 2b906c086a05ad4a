/-
  Board/Claims.lean --- tasks, their runs and the versions of their plans, why the board's
  rules refuse, and claims: they last two hours, the holder renews, and anyone takes over an
  expired claim on a task that may hold one.

  Source: `domain/project_board/services/{claims,runs,plans}.rs` and
  `entities/{task,run,change}.rs`.
-/
import Quecto.Board.Plan

namespace Quecto.Board

open Foundation Descriptions

def maxTitleChars : Nat := 256

def maxDescriptionChars : Nat := 65536

def maxDependencies : Nat := 64

def maxPrs : Nat := 16

def maxSupersededBy : Nat := 16

def maxReferences : Nat := 64

def maxReasonChars : Nat := 1000

def maxTextBytes : Nat := 320 * 1024

structure TaskFields where
  id : Slug
  title : Text
  kind : TaskKind
  description : Text
  descriptionForm : DescriptionForm
  status : TaskStatus
  parent : Option Slug
  dependsOn : List Slug
  acceptedPlan : Option Nat
  claim : Option Claim
  prs : List Nat
  githubIssue : Option IssueNumber
  resolution : Option Resolution
  supersededBy : List Slug
  references : List Reference
  created : Timestamp
  updated : Timestamp
  reason : Option Text
  deriving DecidableEq

namespace TaskFields

variable (task : TaskFields)

def hasSettledOutcomes : Bool :=
  task.descriptionForm == .sectioned &&
    (task.status == .done ||
      task.status == .archived &&
        (task.resolution == some .completed || task.resolution == some .doneWithoutRun))

def textBytes : Nat :=
  let references := (task.references.map fun reference => utf8Len reference.shown).sum
  let reason := task.reason.elim 0 utf8Len
  utf8Len task.title + utf8Len task.description + references + reason

def resolutionByStatus : Option String :=
  match task.resolution, task.status with
  | some .completed, .done | some .doneWithoutRun, .done => none
  | some _, .archived => none
  | _, .done => some "a done task is completed, or done without a run"
  | none, _ => none
  | some _, _ => some "only a done or archived task is resolved"

def resolutionBySuccessor : Option String :=
  let named := !task.supersededBy.isEmpty || !task.references.isEmpty
  match task.resolution with
  | some .superseded | some .duplicate =>
    if named then none
    else some "a superseded or duplicate task names what took it over: a task or a reference"
  | some .completed | some .doneWithoutRun | some .notPlanned =>
    if task.supersededBy.isEmpty then none
    else some "a task superseded by others is unresolved, superseded or duplicate"
  | none => none

def resolutionHolds : Except SchemaError Unit :=
  let status := task.status.asStr
  match task.resolutionByStatus.or task.resolutionBySuccessor with
  | none => .ok ()
  | some why => .error ⟨"resolution", s!"{why} (status {status})"⟩

/-- The task's issue and pull requests are told apart, its resolution holds, and
what superseded it and what it references are each named once. -/
def validateClosure : Except SchemaError Unit :=
  let issue := task.githubIssue.map (·.get)
  let own := fun reference : Reference => match reference.points with
    | .own number => some number.get == issue || task.prs.contains number.get
    | .elsewhere _ | .page => false
  inOrder [
    match task.prs.findIdx? fun pr => some pr == issue with
    | none => .ok ()
    | some index =>
      .error ⟨s!"prs/{index}", "is the task's own issue: the host numbers issues and pull " ++
        "requests from one sequence"⟩,
    task.resolutionHolds,
    distinct "superseded_by" task.supersededBy maxSupersededBy,
    match task.supersededBy.findIdx? (· == task.id) with
    | none => .ok ()
    | some index => .error ⟨s!"superseded_by/{index}", "a task is not superseded by itself"⟩,
    distinct "references" (task.references.map (·.key)) maxReferences,
    match task.references.findIdx? own with
    | none => .ok ()
    | some index => .error ⟨s!"references/{index}", "is the task's own issue or pull request"⟩]

def reasonKept : Except SchemaError Unit :=
  let doneWithoutRun := task.resolution == some .doneWithoutRun
  let status := task.status.asStr
  match task.reason, task.status, doneWithoutRun with
  | some _, .ready, false => .ok ()
  | some _, .done, true | some _, .archived, true => .ok ()
  | none, _, false => .ok ()
  | none, _, true => .error ⟨"reason", "a task done without a run says why"⟩
  | some _, _, _ =>
    .error ⟨"reason", s!"is kept only by a ready task or one done without a run (status {status})"⟩

section

variable [Unicode]

def reasonHolds (task : TaskFields) : Except SchemaError Unit :=
  inOrder [
    match task.reason with
    | some reason => line "reason" reason maxReasonChars
    | none => .ok (),
    task.reasonKept]

def validateClaim (task : TaskFields) : Except SchemaError Unit :=
  let status := task.status.asStr
  match task.claim, task.status.mayHoldClaim, task.status.requiresClaim with
  | some claim, true, _ => do
    claim.validate "claim"
    require (decide (task.created ≤ claim.since ∧ claim.since ≤ task.updated))
      ⟨"claim/since", "must be from when the task was created to when it was updated"⟩
  | none, _, false => .ok ()
  | _, _, _ => .error ⟨"claim", s!"does not match status {status}"⟩

variable [Descriptions]

def validateForm (task : TaskFields) : Except SchemaError Unit :=
  match task.descriptionForm, (read task.description).isSome with
  | .legacy, _ | .sectioned, true => .ok ()
  | .sectioned, false => .error ⟨"description", "is kept in its sections, so must be in them"⟩

def validateExceptions (task : TaskFields) : Except SchemaError Unit :=
  match (read task.description).any excepted, task.status with
  | false, _ | true, .done | true, .archived => .ok ()
  | true, _ => .error ⟨"status", "outcome exceptions require Done or Archived"⟩

def validate (task : TaskFields) : Except SchemaError Unit :=
  let text := task.textBytes
  inOrder [
    require (decide (task.created ≤ task.updated)) ⟨"updated", "must not be before created"⟩,
    line "title" task.title maxTitleChars,
    markdown "description" task.description maxDescriptionChars,
    task.validateForm,
    task.validateExceptions,
    require (task.parent != some task.id) ⟨"parent", "a task is not its own parent"⟩,
    distinct "depends_on" task.dependsOn maxDependencies,
    match task.dependsOn.findIdx? (· == task.id) with
    | some index => .error ⟨s!"depends_on/{index}", "a task does not depend on itself"⟩
    | none => .ok (),
    require (task.acceptedPlan.all fun version => decide (1 ≤ version ∧ version ≤ maxPlanVersion))
      ⟨"accepted_plan", s!"must be a plan version from 1 to {maxPlanVersion}"⟩,
    task.validateClaim,
    distinct "prs" task.prs maxPrs,
    match task.prs.findIdx? (· == 0) with
    | some index => .error ⟨s!"prs/{index}", "a pull request number starts at 1"⟩
    | none => .ok (),
    task.validateClosure,
    task.reasonHolds,
    require (decide (text ≤ maxTextBytes))
      ⟨"text", s!"the task's text is {text} bytes; the most is {maxTextBytes}"⟩]

/-- The task with its outcomes settled.  `validate` has read its sections, so the
`expect` of the source finds them. -/
def settled (task : TaskFields) : TaskFields :=
  match read task.description with
  | some description =>
    { task with description := Descriptions.markdown (Descriptions.settle description) }
  | none => task

end

end TaskFields

open TaskFields

section

variable [Unicode] [Descriptions]

abbrev Task := Validated validate

namespace Task

def new (fields : TaskFields) : Except SchemaError Task := do
  let task ← Validated.new validate fields
  if fields.hasSettledOutcomes then Validated.new validate fields.settled else pure task

lemma fields_of_new {fields : TaskFields} {task : Task} (h : new fields = .ok task) :
    ∃ description, task.fields = { fields with description := description } := by
  obtain ⟨plain, hplain, h⟩ := bind_eq_ok.mp h
  split at h
  · rw [Validated.fields_of_new h, settled]
    split
    · exact ⟨_, rfl⟩
    · exact ⟨fields.description, rfl⟩
  · rw [← pure_eq_ok.mp h, Validated.fields_of_new hplain]
    exact ⟨fields.description, rfl⟩

/-! ## What the schema says of a task's status -/

variable (task : Task)

lemma validateClaim_ok : task.fields.validateClaim = .ok () :=
  inOrder_eq_ok.mp task.valid _ (by simp)

variable {task}

lemma mayHoldClaim_of_claim {claim : Claim} (h : task.fields.claim = some claim) :
    task.fields.status.mayHoldClaim = true := by
  have hvalid := task.validateClaim_ok
  rw [validateClaim, h] at hvalid
  split at hvalid
  · assumption
  · rename_i hnone _
    cases hnone
  · cases hvalid

end Task

end

def maxRunNumber : Nat := 999

def maxRunTextBytes : Nat := 256 * 1024

structure RunItem where
  id : Slug
  state : ItemState
  owner : Option Text
  evidence : List Text
  deriving DecidableEq

structure RunFields where
  task : Slug
  number : Nat
  planVersion : Nat
  started : Timestamp
  ended : Option Timestamp
  outcome : Option RunOutcome
  cost : Option Nat
  items : List RunItem
  deriving DecidableEq

def RunFields.textBytes (run : RunFields) : Nat :=
  (run.items.map fun item => item.owner.elim 0 utf8Len + (item.evidence.map utf8Len).sum).sum

section

variable [Unicode]

def RunItem.validate (item : RunItem) (field : String) : Except SchemaError Unit :=
  inOrder [
    match item.owner with
    | some owner => line s!"{field}/owner" owner maxOwnerChars
    | none => .ok (),
    lines s!"{field}/evidence" item.evidence maxPerItem]

def RunFields.validateEnd (run : RunFields) : Except SchemaError Bool :=
  let disagree : SchemaError :=
    ⟨"ended", "an ended run has an outcome and ends no earlier than it starts"⟩
  match run.ended, run.outcome with
  | none, none => .ok false
  | some ended, some _ => if run.started ≤ ended then .ok true else .error disagree
  | _, _ => .error disagree

def RunFields.validateReport (run : RunFields) (ended : Bool) : Except SchemaError Unit :=
  match ended, run.cost.isSome, run.items.isEmpty with
  | true, _, _ | false, false, true => .ok ()
  | false, true, _ => .error ⟨"cost", "a run reports its cost when it folds back"⟩
  | false, false, false => .error ⟨"items", "a run reports its task items when it folds back"⟩

def RunFields.validate (run : RunFields) : Except SchemaError Unit :=
  let text := run.textBytes
  inOrder [require (decide (1 ≤ run.number ∧ run.number ≤ maxRunNumber))
      ⟨"number", s!"must be 1 to {maxRunNumber}"⟩,
    require (decide (1 ≤ run.planVersion ∧ run.planVersion ≤ maxPlanVersion))
      ⟨"plan_version", s!"must be 1 to {maxPlanVersion}"⟩,
    run.validateEnd >>= run.validateReport,
    require (run.cost.all fun tokens => decide (tokens ≤ maxBudgetTokens))
      ⟨"cost", s!"must be at most {maxBudgetTokens}"⟩,
    distinct "items" (run.items.map (·.id)) maxItems,
    inOrder (run.items.mapIdx fun index item => item.validate s!"items/{index}"),
    require (decide (text ≤ maxRunTextBytes))
      ⟨"text", s!"the run's text is {text} bytes; the most is {maxRunTextBytes}"⟩]

abbrev Run := Validated RunFields.validate

namespace Run

def new (fields : RunFields) : Except SchemaError Run := Validated.new RunFields.validate fields

def isOpen (run : Run) : Bool := run.fields.ended.isNone

/-- The run ran `plan`: an accepted plan (or one superseded since), of the same
task and version, and every item it reports is one of the plan's. -/
def ran (run : Run) (plan : Plan) : Except SchemaError Unit :=
  let state := plan.fields.state.asStr
  inOrder [
    match plan.fields.state with
    | .accepted | .superseded => .ok ()
    | .draft | .discarded => .error ⟨"plan", s!"a {state} plan never ran"⟩,
    match plan.fields.task == run.fields.task, plan.fields.version == run.fields.planVersion with
    | true, true => .ok ()
    | false, _ => .error ⟨"task", "is not the plan's task"⟩
    | true, false => .error ⟨"plan_version", "is not the plan's version"⟩,
    match run.fields.items.findIdx? fun item => (plan.fields.item item.id).isNone with
    | some index => .error ⟨s!"items/{index}/id", "is not a task item of the plan"⟩
    | none => .ok ()]

end Run

end

def maxChangeNumber : Nat := 999

structure ChangeFields where
  task : Slug
  number : Nat
  headRepo : RepoName
  branch : BranchName
  pr : Option Nat
  merged : Option CommitId
  linkedBy : Identity
  unlinked : Option (Identity × Timestamp)
  created : Timestamp
  updated : Timestamp
  deriving DecidableEq

section

variable [Unicode]

def ChangeFields.validate (change : ChangeFields) : Except SchemaError Unit :=
  inOrder [
    require (decide (change.created ≤ change.updated)) ⟨"updated", "must not be before created"⟩,
    require (decide (1 ≤ change.number ∧ change.number ≤ maxChangeNumber))
      ⟨"number", s!"must be 1 to {maxChangeNumber}"⟩,
    require (change.pr.all fun pr => decide (1 ≤ pr)) ⟨"pr", "a pull request number starts at 1"⟩,
    change.linkedBy.validate "linked_by",
    match change.unlinked, change.merged with
    | none, _ => .ok ()
    | some _, some _ => .error ⟨"unlinked", "a merged change stays linked"⟩
    | some (identity, moment), none => do
      identity.validate "unlinked/by"
      require (decide (change.created ≤ moment ∧ moment ≤ change.updated))
        ⟨"unlinked/at", "must be from when the change was linked to when it was updated"⟩]

abbrev Change := Validated ChangeFields.validate

namespace Change

def new (fields : ChangeFields) : Except SchemaError Change :=
  Validated.new ChangeFields.validate fields

def isLinked (change : Change) : Bool := change.fields.unlinked.isNone

def isOpen (change : Change) : Bool := change.isLinked && change.fields.merged.isNone

def head (change : Change) : Text × BranchName := (change.fields.headRepo.key, change.fields.branch)

end Change

end

inductive SwarmReport where
  | kept | noneKept
  deriving DecidableEq

inductive BoardRuleError where
  | notAllowed (source target : TaskStatus)
  | useLifecycle (source target : TaskStatus) (action : LifecycleAction)
  | reasonRequired (source target : TaskStatus)
  | notHolderExpired
  | notHolder
  | noClaim
  | claimLive
  | claimExpired
  | runOpen (number : Nat)
  | runEnded (number : Nat)
  | planNotDraft (state : PlanState)
  | notThisTasks
  | taskFinished (status : TaskStatus)
  | unknownPlanVersion (version : Nat)
  | planChanged (version : Nat) (updated : Timestamp)
  | acceptedPlanChanged (accepted : Option Nat)
  | planAhead (version : Nat) (updated : Timestamp)
  | taskClockAhead (created reached : Timestamp)
  | plansInconsistent (why : String)
  | runsInconsistent (why : String)
  | planNotAccepted (version : Nat)
  | noAcceptedPlan
  | changeAlreadyLinked (task : Slug) (change : Option Nat)
  | noSuchChange (number : Nat)
  | noSuchRun (number : Nat)
  | itemsNotDone (run : Nat) (items : List Slug) (report : SwarmReport)
  | notPushed (run revisions : Nat)
  | changeAhead (change : Nat) (updated : Timestamp)
  | changesLinked (numbers : List Nat)
  | prUnread (pr : Nat)
  | prNotOpen (pr : Nat)
  | prHeadMismatch (pr : Nat)
  | changeUnlinked (number : Nat)
  | changeMerged (number : Nat)
  | noChanges
  | changesUnmerged (numbers : List Nat)
  | changesInconsistent (why : String)
  | notTakeable (status : TaskStatus)
  | alreadyHolder
  | noPrs
  | prsUnmerged (prs : List Nat)
  | prsLinked (prs : List Nat)
  | prsOpen (prs : List Nat)
  | prNotLinked (pr : Nat)
  | prAlreadyLinked (pr : Nat)
  | superseded (tasks : List Slug)
  | dependencyNotDone (undone missing : List Slug)
  | childrenActive (children : List Slug)
  | notDraft (status : TaskStatus)
  | noEdit
  | invalid (error : SchemaError)
  | invalidPlan (error : SchemaError)

abbrev Ruled (α : Type) : Type := Except (Stop BoardRuleError) α

def orInvalid {α : Type} (x : Except SchemaError α) : Ruled α :=
  x.mapError fun error => .refused (.invalid error)

def orInvalidPlan {α : Type} (x : Except SchemaError α) : Ruled α :=
  x.mapError fun error => .refused (.invalidPlan error)

def allow (holds : Bool) (error : BoardRuleError) : Ruled Unit := require holds (.refused error)

def stampSlackSeconds : Nat := 30

def clockAheadSeconds : Nat := 60

def afterLast (updated now : Timestamp) : Timestamp := max now updated

def isLive (claim : Claim) (now : Timestamp) : Bool := decide (now < claim.expires)

def withinSlack (updated : Timestamp) (latest : Option Timestamp) : Bool :=
  match latest with
  | none => true
  | some latest =>
    let bound := match latest.plusSeconds stampSlackSeconds with
      | .ok bound => bound
      | .error _ => latest
    decide (updated ≤ bound)

section Claims

variable [Unicode] [Descriptions] (task : Task)

def stamp (now : Timestamp) : Timestamp := afterLast task.fields.updated now

def notBefore (stamps : List Timestamp) (now : Timestamp) : Timestamp :=
  max now (stamps.foldl max task.fields.updated)

def claimStart (now : Timestamp) : Timestamp := max now task.fields.created

def heldBy (actor : Identity) : Ruled Claim :=
  match task.fields.claim with
  | some claim => if claim.holder.is actor then .ok claim else refuse .notHolder
  | none => refuse .noClaim

def heldOrLapsedBy (actor : Identity) (now : Timestamp) : Ruled Claim :=
  match heldBy task actor with
  | .error (.refused .notHolder) =>
    if task.fields.claim.any fun claim => !isLive claim now then refuse .notHolderExpired
    else refuse .notHolder
  | held => held

def heldLiveBy (actor : Identity) (now : Timestamp) : Ruled Claim := do
  let claim ← heldOrLapsedBy task actor now
  if isLive claim now then pure claim else refuse .claimExpired

def heldLiveIfClaimed (actor : Identity) (now : Timestamp) : Ruled Unit :=
  match task.fields.claim with
  | some _ => heldLiveBy task actor now >>= fun _ => .ok ()
  | none => .ok ()

/-- Whether `task` may be claimed at `now`: created no more than a minute ahead of
the clock.  A clock at the end of time bounds nothing it could spell past. -/
def claimableAt (now : Timestamp) : Ruled Unit :=
  let created := task.fields.created
  let within := match now.plusSeconds clockAheadSeconds with
    | .ok bound => decide (created ≤ bound)
    | .error _ => true
  let reached := match created.minusSeconds clockAheadSeconds with
    | .ok earlier => earlier
    | .error _ => created
  allow within (.taskClockAhead created reached)

def speltExpiry (moment : Except SchemaError Timestamp) : Ruled Timestamp :=
  orInvalid (moment.mapError (·.at "claim/expires"))

def newClaim (holder : Identity) (task : Task) (now : Timestamp) : Ruled Claim := do
  claimableAt task now
  let since := claimStart task now
  let expires ← speltExpiry (now.plusSeconds claimTtlSeconds)
  let message := "a claim ends after it starts, within two hours of its start: " ++
    "its task was created within the clock bound"
  insist (decide (since < expires)) message
  let cap ← speltExpiry (since.plusSeconds claimTtlSeconds)
  insist (decide (expires ≤ cap)) message
  pure { holder := holder, since := since, expires := expires }

def settle (next : TaskFields) (stamped : Timestamp) : Ruled Task :=
  orInvalid (Task.new { next with updated := stamped })

/-- The holder's claim runs again from now.  A renewal from a clock slower than the
one that took the claim never shortens it, nor moves its start back. -/
def renew (holder : Identity) (now : Timestamp) : Ruled Task := do
  let claim ← heldOrLapsedBy task holder now
  let stamped := stamp task now
  let fresh ← newClaim holder task now
  let renewed : Claim :=
    { holder := claim.holder
      since := max fresh.since claim.since
      expires := max fresh.expires claim.expires }
  insist (decide (renewed.since < renewed.expires ∧ claim.expires ≤ renewed.expires))
    "a renewal never shortens the claim"
  settle { task.fields with claim := some renewed } stamped

def takeableClaim : Ruled Claim :=
  match task.fields.claim, task.fields.status.mayHoldClaim with
  | some claim, true => .ok claim
  | none, true => refuse .noClaim
  | _, false => refuse (.notTakeable task.fields.status)

def takeOver (taker : Identity) (now : Timestamp) : Ruled Task := do
  let claim ← takeableClaim task
  allow (!claim.holder.is taker) .alreadyHolder
  claimableAt task now
  allow (!isLive claim now) .claimLive
  let fresh ← newClaim taker task now
  settle { task.fields with claim := some fresh } (stamp task now)

/-! ## What a settled task keeps -/

def SettledAs (next : TaskFields) (task : Task) : Prop :=
  ∃ description updated, task.fields = { next with description := description, updated := updated }

lemma settle_eq_ok {next : TaskFields} {stamped : Timestamp} {task : Task}
    (h : settle next stamped = .ok task) : SettledAs next task := by
  obtain ⟨description, hfields⟩ := Task.fields_of_new (mapError_eq_ok.mp h)
  exact ⟨description, stamped, hfields⟩

namespace SettledAs

variable {next : TaskFields} {task : Task} (h : SettledAs next task)
include h

lemma id : task.fields.id = next.id := by
  obtain ⟨_, _, h⟩ := h
  rw [h]

lemma status : task.fields.status = next.status := by
  obtain ⟨_, _, h⟩ := h
  rw [h]

lemma resolution : task.fields.resolution = next.resolution := by
  obtain ⟨_, _, h⟩ := h
  rw [h]

lemma prs : task.fields.prs = next.prs := by
  obtain ⟨_, _, h⟩ := h
  rw [h]

end SettledAs

/-! ## What the claim rules write -/

variable {task next : Task} {actor : Identity} {now : Timestamp}

lemma renew_eq_ok (h : renew task actor now = .ok next) :
    ∃ claim, SettledAs { task.fields with claim := claim } next := by
  simp only [renew, bind_eq_ok] at h
  obtain ⟨_, -, _, -, _, -, h⟩ := h
  exact ⟨_, settle_eq_ok h⟩

lemma takeOver_eq_ok (h : takeOver task actor now = .ok next) :
    ∃ claim, SettledAs { task.fields with claim := claim } next := by
  simp only [takeOver, bind_eq_ok] at h
  obtain ⟨_, -, _, -, _, -, _, -, _, -, h⟩ := h
  exact ⟨_, settle_eq_ok h⟩

/-! ## Who holds a live claim -/

variable {claim : Claim}

lemma heldBy_eq_ok (h : heldBy task actor = .ok claim) :
    task.fields.claim = some claim ∧ claim.holder.is actor = true := by
  unfold heldBy at h
  split at h
  · split at h
    · rename_i held hclaim his
      cases h
      exact ⟨hclaim, his⟩
    · cases h
  · cases h

lemma heldOrLapsedBy_eq_ok (h : heldOrLapsedBy task actor now = .ok claim) :
    heldBy task actor = .ok claim := by
  unfold heldOrLapsedBy at h
  split at h
  · split at h
    · cases h
    · cases h
  · exact h

lemma heldLiveBy_eq_ok (h : heldLiveBy task actor now = .ok claim) :
    task.fields.claim = some claim := by
  obtain ⟨held, hheld, h⟩ := bind_eq_ok.mp h
  have hclaim := (heldBy_eq_ok (heldOrLapsedBy_eq_ok hheld)).1
  split at h
  · rw [hclaim, pure_eq_ok.mp h]
  · cases h

variable (hclaim : task.fields.claim = some claim) (hother : claim.holder.is actor = false)
include hclaim hother

lemma heldBy_refused : heldBy task actor = refuse .notHolder := by
  rw [heldBy, hclaim]
  simp [hother]

lemma heldOrLapsedBy_refused : Refused (heldOrLapsedBy task actor now) := by
  rw [heldOrLapsedBy, heldBy_refused hclaim hother]
  simp only [refuse]
  split <;> exact .refuse _

lemma heldLiveBy_refused : Refused (heldLiveBy task actor now) :=
  (heldOrLapsedBy_refused hclaim hother).bind _

lemma heldLiveIfClaimed_refused : Refused (heldLiveIfClaimed task actor now) := by
  rw [heldLiveIfClaimed, hclaim]
  exact (heldLiveBy_refused hclaim hother).bind _

end Claims

end Quecto.Board

namespace Quecto.Board.Runs

open Foundation

/-- Whether a run going holds its task back from moving to `target`: the statuses
that hold no claim, which a task leaves its holder for. -/
def holdsMovesTo : TaskStatus → Bool
  | .draft | .ready | .done | .archived => true
  | .claimed | .inProgress | .review | .blocked => false

inductive HeldEnd where
  | succeeded | stopped | failed
  deriving DecidableEq

def HeldEnd.outcome : HeldEnd → RunOutcome
  | succeeded => .succeeded
  | stopped => .stopped
  | failed => .failed

structure Reported where
  items : List RunItem
  cost : Option Nat
  report : SwarmReport
  unpushed : Nat

section Runs

variable [Unicode] [Descriptions] (task : Task)

def ofTask (runs : List Run) : Ruled Unit :=
  allow (runs.all fun run => run.fields.task == task.fields.id) .notThisTasks

def openOf (runs : List Run) : Ruled (Option Run) := do
  ofTask task runs
  match runs.filter Run.isOpen with
  | [] => .ok none
  | [run] => .ok (some run)
  | going =>
    let numbers := ", ".intercalate (going.map fun run => toString run.fields.number)
    refuse (.runsInconsistent s!"runs {numbers} are all going; a task has one at a time")

def noneGoing (runs : List Run) : Ruled Unit := do
  let going ← openOf task runs
  match going with
  | none => .ok ()
  | some run => refuse (.runOpen run.fields.number)

def mayMoveWith (runs : List Run) (target : TaskStatus) : Ruled Unit := do
  let going ← openOf task runs
  match going, holdsMovesTo target with
  | none, _ | some _, false => .ok ()
  | some run, true => refuse (.runOpen run.fields.number)

def ended (run : Run) (outcome : RunOutcome) (cost : Option Nat) (items : List RunItem)
    (now : Timestamp) : Ruled Run := do
  allow run.isOpen (.runEnded run.fields.number)
  orInvalid (Run.new
    { run.fields with
      ended := some (max now run.fields.started)
      outcome := some outcome
      cost := cost
      items := items })

def lostAt (run : Run) (now : Timestamp) : Ruled Run := ended run .lost none [] now

/-- A new run of `task`'s accepted `plan`, begun by the holder of a live claim and
numbered after every run in `runs`. -/
def beginRun (runs : List Run) (plan : Plan) (actor : Identity) (now : Timestamp) : Ruled Run := do
  let _ ← heldLiveBy task actor now
  noneGoing task runs
  allow (plan.fields.task == task.fields.id) .notThisTasks
  allow (plan.fields.state == .accepted && task.fields.acceptedPlan == some plan.fields.version)
    (.planNotAccepted plan.fields.version)
  let last := lastNumber (runs.map (·.fields.number))
  allow (decide (last < maxRunNumber))
    (.invalid ⟨"number", s!"the task has reached {maxRunNumber} runs"⟩)
  orInvalid (Run.new
    { task := task.fields.id
      number := last + 1
      planVersion := plan.fields.version
      started := stamp task now
      ended := none
      outcome := none
      cost := none
      items := [] })

def runAndPlan (runs : List Run) (plans : List Plan) (number : Nat) : Ruled (Run × Plan) := do
  let run ← okOr (runs.find? fun run => run.fields.number == number)
    (.refused (.noSuchRun number))
  let version := run.fields.planVersion
  let plan ← okOr (plans.find? fun plan => plan.fields.version == version)
    (.refused (.unknownPlanVersion version))
  pure (run, plan)

def foldBack (run : Run) (plan : Plan) (outcome : RunOutcome) (cost : Option Nat)
    (items : List RunItem) (now : Timestamp) : Ruled Run := do
  orInvalid (run.ran plan)
  let folded ← ended run outcome cost items now
  orInvalid (folded.ran plan)
  pure folded

def endLost (run : Run) (plan : Plan) (reported : Reported) (actor : Identity)
    (now : Timestamp) : Ruled Run := do
  heldLiveIfClaimed task actor now
  ofTask task [run]
  foldBack run plan .lost reported.cost reported.items (stamp task now)

def undoneItems (plan : Plan) (items : List RunItem) : List Slug :=
  (plan.fields.items.map (·.id)).filter fun id =>
    !items.any fun item => item.id == id && item.state == .done

/-- A run ends as succeeded only when every task item of its plan is reported done
and every revision its evidence names is on the remote. -/
def judgeEnd (held : HeldEnd) (plan : Plan) (folded : Run) (reported : Reported) : Ruled Unit :=
  match held with
  | .succeeded => do
    let undone := undoneItems plan folded.fields.items
    allow undone.isEmpty (.itemsNotDone folded.fields.number undone reported.report)
    allow (reported.unpushed == 0) (.notPushed folded.fields.number reported.unpushed)
  | .stopped | .failed => .ok ()

def endHeld (run : Run) (plan : Plan) (held : HeldEnd) (reported : Reported)
    (actor : Identity) (now : Timestamp) : Ruled Run := do
  let _ ← heldLiveBy task actor now
  ofTask task [run]
  let folded ← foldBack run plan held.outcome reported.cost reported.items (stamp task now)
  judgeEnd held plan folded reported
  pure folded

/-! ## What the rules say of the runs -/

variable {task : Task} {runs : List Run} {run next : Run}

def Idle (runs : List Run) : Prop := ∀ run ∈ runs, run.isOpen = false

omit [Descriptions] in
lemma idle_of_filter (h : runs.filter Run.isOpen = []) : Idle runs := by
  intro run hrun
  exact Bool.eq_false_iff.mpr (List.filter_eq_nil_iff.mp h run hrun)

lemma openOf_none (h : openOf task runs = .ok none) : Idle runs := by
  obtain ⟨_, _, h⟩ := bind_eq_ok.mp h
  split at h
  · exact idle_of_filter (by assumption)
  · cases h
  · cases h

lemma openOf_some (h : openOf task runs = .ok (some run)) : run ∈ runs ∧ run.isOpen = true := by
  obtain ⟨_, _, h⟩ := bind_eq_ok.mp h
  split at h
  · cases h
  · rename_i only honly
    cases h
    exact List.mem_filter.mp (honly ▸ List.mem_cons_self)
  · cases h

lemma noneGoing_eq_ok (h : noneGoing task runs = .ok ()) : Idle runs := by
  obtain ⟨going, hgoing, h⟩ := bind_eq_ok.mp h
  cases going with
  | none => exact openOf_none hgoing
  | some run => cases h

lemma mayMoveWith_eq_ok {target : TaskStatus} (h : mayMoveWith task runs target = .ok ())
    (hholds : holdsMovesTo target = true) : Idle runs := by
  obtain ⟨going, hgoing, h⟩ := bind_eq_ok.mp h
  rw [hholds] at h
  cases going with
  | none => exact openOf_none hgoing
  | some run => cases h

structure EndedAs (run next : Run) : Prop where
  wasOpen : run.isOpen = true
  closed : next.isOpen = false
  task : next.fields.task = run.fields.task
  number : next.fields.number = run.fields.number

variable {outcome : RunOutcome} {cost : Option Nat} {items : List RunItem} {now : Timestamp}
  {plan : Plan} {actor : Identity}

omit [Descriptions] in
lemma ended_eq_ok (h : ended run outcome cost items now = .ok next) : EndedAs run next := by
  obtain ⟨_, hopen, h⟩ := bind_eq_ok.mp h
  have hfields := Validated.fields_of_new (mapError_eq_ok.mp h)
  constructor
  · exact require_eq_ok.mp hopen
  · rw [Run.isOpen, hfields]
    rfl
  · rw [hfields]
  · rw [hfields]

omit [Descriptions] in
lemma foldBack_eq_ok (h : foldBack run plan outcome cost items now = .ok next) :
    EndedAs run next := by
  simp only [foldBack, bind_eq_ok] at h
  obtain ⟨_, -, folded, hended, _, -, h⟩ := h
  exact pure_eq_ok.mp h ▸ ended_eq_ok hended

lemma endLost_eq_ok {reported : Reported}
    (h : endLost task run plan reported actor now = .ok next) : EndedAs run next := by
  simp only [endLost, bind_eq_ok] at h
  obtain ⟨_, -, _, -, h⟩ := h
  exact foldBack_eq_ok h

lemma endHeld_eq_ok {held : HeldEnd} {reported : Reported}
    (h : endHeld task run plan held reported actor now = .ok next) : EndedAs run next := by
  simp only [endHeld, bind_eq_ok] at h
  obtain ⟨_, -, _, -, folded, hfold, _, -, h⟩ := h
  exact pure_eq_ok.mp h ▸ foldBack_eq_ok hfold

omit [Descriptions] in
lemma runAndPlan_eq_ok {plans : List Plan} {number : Nat}
    (h : runAndPlan runs plans number = .ok (run, plan)) : run ∈ runs := by
  simp only [runAndPlan, bind_eq_ok] at h
  obtain ⟨found, hfound, _, -, h⟩ := h
  cases pure_eq_ok.mp h
  exact List.mem_of_find?_eq_some (okOr_eq_ok.mp hfound)

lemma beginRun_eq_ok (h : beginRun task runs plan actor now = .ok next) :
    Idle runs ∧ next.isOpen = true ∧ next.fields.task = task.fields.id ∧
      ∀ run ∈ runs, run.fields.number < next.fields.number := by
  simp only [beginRun, bind_eq_ok] at h
  obtain ⟨_, -, _, hidle, _, -, _, -, _, -, h⟩ := h
  have hfields := Validated.fields_of_new (mapError_eq_ok.mp h)
  refine ⟨noneGoing_eq_ok hidle, ?_, ?_, ?_⟩
  · rw [Run.isOpen, hfields]
    rfl
  · rw [hfields]
  intro run hrun
  rw [hfields]
  exact Nat.lt_succ_of_le (le_lastNumber (List.mem_map_of_mem hrun))

end Runs

end Quecto.Board.Runs

namespace Quecto.Board.Plans

open Foundation
open Runs

section Plans

variable [Unicode] [Descriptions]

/-! ## Drafts -/

structure DraftEdit where
  title : Option Text
  description : Option Text
  parent : Option (Option Slug)
  dependsOn : Option (List Slug)
  entry : Entry

def entered (fields : TaskFields) (edit : DraftEdit) : Ruled Unit :=
  inOrder [
    match edit.title.filter (· != fields.title) with
    | some title => orInvalid (edit.entry.title "title" title)
    | none => .ok (),
    match edit.description.filter (· != fields.description) with
    | some description => orInvalid (edit.entry.description description)
    | none => .ok ()]

def edited (fields : TaskFields) (edit : DraftEdit) : TaskFields :=
  let changed := edit.description.filter (· != fields.description)
  { fields with
    title := edit.title.getD fields.title
    description := changed.getD fields.description
    descriptionForm := changed.elim fields.descriptionForm edit.entry.form
    parent := edit.parent.getD fields.parent
    dependsOn := edit.dependsOn.getD fields.dependsOn }

variable (task : Task)

def editDraft (edit : DraftEdit) (now : Timestamp) : Ruled Task := do
  allow (task.fields.status == .draft) (.notDraft task.fields.status)
  entered task.fields edit
  allow (edited task.fields edit != task.fields) .noEdit
  settle (edited task.fields edit) (stamp task now)

/-! ## Acceptance -/

structure Moment where
  now : Timestamp
  latest : Option Timestamp

def Moment.mayBuildOn (moment : Moment) (plan : Plan) : Ruled Unit :=
  allow (withinSlack plan.fields.updated moment.latest)
    (.planAhead plan.fields.version plan.fields.updated)

inductive PlanRead where
  | unpinned
  | unchanged
  | changed
  | stamped (updated : Timestamp)

structure AsRead where
  read : PlanRead
  accepted : Option Nat

structure Accepted where
  task : Task
  plan : Plan
  superseded : Option Plan

def openToPlans : Ruled Unit :=
  match task.fields.status with
  | .draft | .ready | .claimed | .inProgress | .review | .blocked => .ok ()
  | .done | .archived => refuse (.taskFinished task.fields.status)

def ofTask (versions : List Plan) : Ruled Unit :=
  allow (versions.all fun plan => plan.fields.task == task.fields.id) .notThisTasks

def disagreement (accepted : List Nat) (named : Option Nat) : String :=
  let listed := ", ".intercalate (accepted.map toString)
  let accepted := match accepted with
    | [] => "no version is accepted"
    | [_] => s!"version {listed} is accepted"
    | _ => s!"versions {listed} are accepted"
  let named := match named with
    | some version => s!"the task names version {version}"
    | none => "the task names none"
  s!"{accepted}; {named}"

/-- The task's plans agree with each other and with the task: no version is listed
twice, at most one is accepted, and it is the one the task names. -/
def consistent (versions : List Plan) : Ruled Unit := do
  ofTask task versions
  allow (decide (versions.map (·.fields.version)).Nodup)
    (.plansInconsistent "a version is listed twice")
  let accepted :=
    (versions.filter fun plan => plan.fields.state == .accepted).map (·.fields.version)
  allow (accepted == task.fields.acceptedPlan.toList)
    (.plansInconsistent (disagreement accepted task.fields.acceptedPlan))

def asRead (plan : Plan) (read : PlanRead) : Ruled Unit :=
  let unchanged := match read with
    | .unpinned | .unchanged => true
    | .changed => false
    | .stamped expected => expected == plan.fields.updated
  allow unchanged (.planChanged plan.fields.version plan.fields.updated)

def asAccepted (expected : Option Nat) : Ruled Unit :=
  allow (task.fields.acceptedPlan == expected) (.acceptedPlanChanged task.fields.acceptedPlan)

def asExpected (plan : Plan) (expected : Option AsRead) : Ruled Unit :=
  match expected with
  | some read => asRead plan read.read >>= fun _ => asAccepted task read.accepted
  | none => .ok ()

def draft (plan : Plan) : Ruled Unit :=
  allow (plan.fields.state == .draft) (.planNotDraft plan.fields.state)

def decides (actor : Identity) (now : Timestamp) : Ruled Unit :=
  heldLiveIfClaimed task actor now

def stampsOf (versions : List Plan) (moment : Moment) : List Timestamp :=
  (versions.map (·.fields.updated)).filter fun updated => withinSlack updated moment.latest

def superseded (before : Option Plan) (stamped : Timestamp) : Ruled (Option Plan) :=
  match before with
  | none => .ok none
  | some before => some <$> orInvalidPlan (Validated.new PlanFields.validate
      { before.fields with state := .superseded, updated := stamped })

/-- Version `version` of the task's plan accepted by `actor`: the task names it, and
the version accepted before is superseded. -/
def accept (versions : List Plan) (runs : List Run) (version : Nat)
    (expected : Option AsRead) (actor : Identity) (moment : Moment) : Ruled Accepted := do
  openToPlans task
  consistent task versions
  let chosen ← okOr (versions.find? fun plan => plan.fields.version == version)
    (.refused (.unknownPlanVersion version))
  draft chosen
  asExpected task chosen expected
  decides task actor moment.now
  noneGoing task runs
  let before := versions.find? fun plan => plan.fields.state == .accepted
  inOrder ((chosen :: before.toList).map moment.mayBuildOn)
  -- One stamp, no earlier than the task's and both plans' last changes, nor any of
  -- the task's plans within the bound.
  let built := (chosen :: before.toList).foldl
    (fun built plan => afterLast plan.fields.updated built) (stamp task moment.now)
  let stamped := notBefore task (stampsOf versions moment) built
  let named ← settle { task.fields with acceptedPlan := some version } stamped
  let plan ← orInvalidPlan (Validated.new PlanFields.validate
    { chosen.fields with
      state := .accepted
      accepted := some (actor, stamped)
      updated := stamped })
  let superseded ← superseded before stamped
  let kept := versions.filter fun plan =>
    plan.fields.version != version && plan.fields.state != .accepted
  let acceptedNow := ((kept ++ plan :: superseded.toList).filter fun plan =>
    plan.fields.state == .accepted).map (·.fields.version)
  insist (acceptedNow == [version] && named.fields.acceptedPlan == some version)
    "an acceptance leaves the task naming its one accepted plan"
  pure { task := named, plan := plan, superseded := superseded }

/-! ## What the rules write -/

variable {task next : Task} {now : Timestamp}

lemma editDraft_eq_ok {edit : DraftEdit} (h : editDraft task edit now = .ok next) :
    task.fields.status = .draft ∧ ∃ fields : TaskFields, SettledAs fields next ∧
      fields.id = task.fields.id ∧ fields.status = task.fields.status ∧
      fields.resolution = task.fields.resolution ∧ fields.prs = task.fields.prs := by
  simp only [editDraft, bind_eq_ok] at h
  obtain ⟨_, hdraft, _, -, _, -, h⟩ := h
  exact ⟨beq_iff_eq.mp (require_eq_ok.mp hdraft), _, settle_eq_ok h, rfl, rfl, rfl, rfl⟩

variable {versions : List Plan} {runs : List Run} {version : Nat} {expected : Option AsRead}
  {actor : Identity} {moment : Moment}

lemma accept_eq_ok {accepted : Accepted}
    (h : accept task versions runs version expected actor moment = .ok accepted) :
    decides task actor moment.now = .ok () ∧
      SettledAs { task.fields with acceptedPlan := some version } accepted.task := by
  simp only [accept, bind_eq_ok] at h
  obtain ⟨_, -, _, -, _, -, _, -, _, -, _, hdecides, _, -, _, -, named, hnamed, _, -, _, -, _,
    -, h⟩ := h
  rw [← pure_eq_ok.mp h]
  exact ⟨hdecides, settle_eq_ok hnamed⟩

end Plans

end Quecto.Board.Plans
