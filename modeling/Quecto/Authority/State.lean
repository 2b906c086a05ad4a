/-
  Authority/State.lean --- the admission authority, its durability sequences and the
  session policy of the running broker.

  Source: `application/admission/services/inference_authority.rs`,
  `application/admission/dto/broker.rs`, `application/admission/use_cases/` and the ports
  of `ports/inference_authority_ports.rs`; the serialized service between the
  authority and the policy (`services/inference_admission.rs`) forwards every
  call unchanged, so the authority holds the policy itself.
-/
import Quecto.Admission.Run
import Quecto.Foundation.Fallible
import Mathlib.Data.Nat.Bitwise

namespace Quecto.Authority

class AdmissionSecretSource (S : Type) where
  mint : S → String × S

def asBytes (s : String) : List UInt8 := s.toByteArray.data.toList

/-- The accumulated difference of two byte strings: every pair of bytes is looked
at, whatever the earlier ones said. -/
def byteDiff (a b : List UInt8) : Nat :=
  (List.zip a b).foldl (fun diff e => diff ||| (e.1 ^^^ e.2).toNat) (a.length ^^^ b.length)

def constantTimeEq (a b : String) : Bool := byteDiff (asBytes a) (asBytes b) == 0

lemma asBytes_inj {a b : String} (h : asBytes a = asBytes b) : a = b := by
  apply String.toByteArray_inj.mp
  apply ByteArray.ext
  exact Array.toList_inj.mp h

lemma foldl_or_eq_zero (l : List (UInt8 × UInt8)) (diff : Nat) :
    l.foldl (fun diff e => diff ||| (e.1 ^^^ e.2).toNat) diff = 0 ↔
      diff = 0 ∧ ∀ e ∈ l, e.1 = e.2 := by
  induction l generalizing diff with
  | nil => simp
  | cons e l ih =>
    have hbyte : (e.1 ^^^ e.2).toNat = 0 ↔ e.1 = e.2 := by
      rw [← UInt8.toNat_zero, UInt8.toNat_inj, UInt8.xor_eq_zero_iff]
    rw [List.foldl_cons, ih, Nat.or_eq_zero_iff, hbyte, List.forall_mem_cons, and_assoc]

lemma byteDiff_eq_zero {a b : List UInt8} : byteDiff a b = 0 ↔ a = b := by
  rw [byteDiff, foldl_or_eq_zero, Nat.xor_eq_zero_iff]
  constructor
  · rintro ⟨hlength, hbytes⟩
    apply List.ext_getElem hlength
    intro i ha hb
    apply hbytes (a[i], b[i])
    rw [List.mem_iff_getElem]
    exact ⟨i, by simpa [hlength] using hb, by simp⟩
  · rintro rfl
    refine ⟨rfl, ?_⟩
    intro e he
    obtain ⟨i, hi, rfl⟩ := List.mem_iff_getElem.mp he
    simp

lemma constantTimeEq_iff {a b : String} : constantTimeEq a b = true ↔ a = b := by
  rw [constantTimeEq, beq_iff_eq, byteDiff_eq_zero]
  constructor
  · exact asBytes_inj
  · rintro rfl
    rfl

open Foundation Admission

/-! ## Vocabulary -/

structure Credential where
  scope : ScopeId
  token : String
  deriving Inhabited

inductive AuthorityError where
  | unauthorized
  | admission (error : AdmissionError)
  | journalUnavailable
  | heldByUncertainLease (hold : UncertainHold)
  deriving DecidableEq, Inhabited

structure AuthorityStatus where
  epoch : Nat
  journalHealthy : Bool
  liveScopes : Nat
  groups : OrdMap GroupId GroupSnapshot

structure Issued where
  token : String
  root : ScopeId
  parent : Option ScopeId
  deriving Inhabited

structure AdmissionAuthority (S : Type) where
  service : AdmissionPolicy
  secrets : S
  issued : OrdMap ScopeId Issued
  detached : OrdMap ScopeId Unit
  groups : List GroupId
  journalHealthy : Bool
  durableOutstanding : Nat

abbrev Outcome (S α : Type) : Type := Except AuthorityError α × AdmissionAuthority S

def mustStop : RequestState → Bool
  | .active _ _ required => required
  | _ => false

namespace AdmissionAuthority

variable {S : Type}

/-! ## Construction -/

def compose (service : AdmissionPolicy) (secrets : S) (groups : List GroupId) :
    AdmissionAuthority S :=
  { service := service, secrets := secrets, issued := ∅, detached := ∅, groups := groups,
    journalHealthy := true, durableOutstanding := 0 }

def new (epoch : Nat) (config : AdmissionConfig) (secrets : S) :
    Except AuthorityError (AdmissionAuthority S) :=
  match AdmissionPolicy.new epoch config with
  | .error e => .error (.admission e)
  | .ok service => .ok (compose service secrets config.groups.keys)

def restore (config : AdmissionConfig) (ledger : AdmissionLedger) (secrets : S) (now : Nat) :
    Except AuthorityError (AdmissionAuthority S) :=
  match AdmissionPolicy.restore config ledger now with
  | .error e => .error (.admission e)
  | .ok service => .ok (compose service secrets config.groups.keys)

/-! ## Capabilities -/

def lift {α : Type} (a : AdmissionAuthority S) (answer : Answer α) : Outcome S α :=
  (answer.1.mapError .admission, { a with service := answer.2 })

variable (a : AdmissionAuthority S)

def authenticate (credential : Credential) : Except AuthorityError Unit :=
  match a.issued[credential.scope]? with
  | some issued =>
      if constantTimeEq issued.token credential.token then .ok () else .error .unauthorized
  | none => .error .unauthorized

lemma authenticate_ok_iff {a : AdmissionAuthority S} {credential : Credential} :
    a.authenticate credential = .ok () ↔
      ∃ issued, a.issued[credential.scope]? = some issued ∧ issued.token = credential.token := by
  unfold authenticate
  cases a.issued[credential.scope]? with
  | none => simp
  | some issued =>
    simp only [Option.some.injEq, exists_eq_left', ← constantTimeEq_iff]
    split <;> simp_all

def guarded {α : Type} (a : AdmissionAuthority S) (credential : Credential)
    (operation : Outcome S α) : Outcome S α :=
  match a.authenticate credential with
  | .error e => (.error e, a)
  | .ok _ => operation

def issue [AdmissionSecretSource S] (a : AdmissionAuthority S) (scope root : ScopeId)
    (parent : Option ScopeId) : Credential × AdmissionAuthority S :=
  let minted := AdmissionSecretSource.mint a.secrets
  (⟨scope, minted.1⟩,
    { a with
      secrets := minted.2
      issued := a.issued.insert scope { token := minted.1, root := root, parent := parent } })

def issueOn [AdmissionSecretSource S] (registered : Outcome S ScopeId)
    (root : ScopeId → ScopeId) (parent : Option ScopeId) : Outcome S Credential :=
  andThen registered fun scope a => (a.issue scope (root scope) parent).map .ok id

def registerRoot [AdmissionSecretSource S] (a : AdmissionAuthority S) (workload : WorkloadClass) :
    Outcome S Credential :=
  issueOn (a.lift (a.service.registerRoot workload)) id none

def registerChild [AdmissionSecretSource S] (a : AdmissionAuthority S) (parent : Credential) :
    Outcome S Credential :=
  a.guarded parent <|
    let root := (a.issued[parent.scope]?).elim parent.scope (·.root)
    issueOn (a.lift (a.service.registerChild parent.scope)) (fun _ => root) (some parent.scope)

def verify (credential : Credential) : Except AuthorityError Nat :=
  match a.authenticate credential with
  | .error e => .error e
  | .ok _ => (a.service.highWater credential.scope).mapError .admission

def revoke (scope : ScopeId) : AdmissionAuthority S :=
  { a with issued := a.issued.erase scope, detached := a.detached.erase scope }

def release (scope : ScopeId) : Outcome S Unit :=
  andThen (a.lift (a.service.retire scope)) fun _ a => (.ok (), a.revoke scope)

def retire (credential : Credential) : Outcome S Unit :=
  a.guarded credential (a.release credential.scope)

def retireChild (parent : Credential) (child : ScopeId) : Outcome S Unit :=
  a.guarded parent <|
    if (a.issued[child]?).any fun issued => issued.parent == some parent.scope then a.release child
    else (.error .unauthorized, a)

def attach (scope : ScopeId) : AdmissionAuthority S :=
  { a with detached := a.detached.erase scope }

def releaseDetached (acc : Nat × AdmissionAuthority S) (scope : ScopeId) :
    Nat × AdmissionAuthority S :=
  let a := acc.2
  match a.service.retire scope with
  | (.ok _, service) =>
      (acc.1 + 1, { a with service := service, issued := a.issued.erase scope })
  | (.error .unknownScope, service) | (.error .staleEpoch, service) =>
      (acc.1, { a with service := service, issued := a.issued.erase scope })
  | (.error _, service) =>
      (acc.1, { a with service := service, detached := a.detached.insert scope () })

def releaseIdleDetached : Nat × AdmissionAuthority S :=
  a.detached.keys.foldl releaseDetached (0, { a with detached := ∅ })

/-- Transport loss without retirement: the capability stays valid so the same
client can reconnect and verify its outstanding work. -/
def disconnect (scope : ScopeId) (now : Nat) : Outcome S AbandonReport :=
  andThen (a.lift (a.service.abandon scope now)) fun report a =>
    (.ok report, if 0 < report.active then { a with detached := a.detached.insert scope () } else a)

/-! ## Client operations -/

def acquire (credential : Credential) (sequence : Nat) (name : String)
    (now : Nat) : Outcome S RequestState :=
  a.guarded credential (a.lift (a.service.enqueue credential.scope sequence name now))

def cancel (a : AdmissionAuthority S) (credential : Credential) (sequence now : Nat) :
    Outcome S RequestState :=
  a.guarded credential (a.lift (a.service.cancel credential.scope sequence now))

def feedback (a : AdmissionAuthority S) (credential : Credential) (sequence report : Nat)
    (feedback : ThrottleFeedback) (now : Nat) : Outcome S Unit :=
  a.guarded credential
    (a.lift (a.service.reportFeedback credential.scope sequence report feedback now))

def status (a : AdmissionAuthority S) (credential : Credential) (sequence now : Nat) :
    Outcome S RequestState :=
  a.guarded credential (a.lift (a.service.status credential.scope sequence now))

def completeUnpersisted (credential : Credential) (sequence : Nat)
    (feedback : Feedback) (now : Nat) : Outcome S RequestState :=
  a.guarded credential (a.lift (a.service.complete credential.scope sequence feedback now))

/-! ## Owner-side reads -/

def observe (id : RequestId) (now : Nat) : Outcome S RequestState :=
  a.lift (a.service.status id.scope id.sequence now)

def held (a : AdmissionAuthority S) (id : RequestId) (now : Nat) :
    Outcome S (Option UncertainHold) :=
  a.lift (a.service.held id.scope id.sequence now)

def nextWake (a : AdmissionAuthority S) (now : Nat) : Outcome S (Option Nat) :=
  a.lift (a.service.nextWake now)

def ledger (a : AdmissionAuthority S) (now : Nat) : Outcome S AdmissionLedger :=
  a.lift (a.service.ledger now)

def snapshot (a : AdmissionAuthority S) (group : GroupId) (now : Nat) : Outcome S GroupSnapshot :=
  a.lift (a.service.snapshot group now)

def checkpointDue (now : Nat) : Outcome S Bool :=
  (a.ledger now).map
    (fun answer => answer.map fun l => decide (l.outstanding.length < a.durableOutstanding)) id

def dueAmong (epoch now : Nat) :
    List OutstandingAttempt → AdmissionAuthority S → Outcome S (List RequestId)
  | [], a => (.ok [], a)
  | attempt :: rest, a =>
      let named : RequestId := ⟨⟨epoch, attempt.scope⟩, attempt.sequence⟩
      if a.issued.contains named.scope then
        andThen (a.observe named now) fun state a =>
          let due := dueAmong epoch now rest a
          (due.1.map fun ids => if mustStop state then named :: ids else ids, due.2)
      else dueAmong epoch now rest a

def cancellationDue (now : Nat) : Outcome S (List RequestId) :=
  andThen (a.ledger now) fun ledger a => dueAmong ledger.epoch now ledger.outstanding a

def anyQueued (now : Nat) : List GroupId → AdmissionAuthority S → Bool × AdmissionAuthority S
  | [], a => (false, a)
  | group :: rest, a =>
      match a.snapshot group now with
      | (.ok snapshot, a) => if 0 < snapshot.queued then (true, a) else anyQueued now rest a
      | (.error _, a) => (true, a)

def holdsAnything (now : Nat) : Bool × AdmissionAuthority S :=
  let roots := a.issued.toList.any fun e => e.2.parent.isNone
  let read := a.ledger now
  let outstanding :=
    match read.1 with
    | .ok ledger => !ledger.outstanding.isEmpty
    | .error _ => true
  let queued := anyQueued now a.groups read.2
  (roots || outstanding || queued.1, queued.2)

def snapshots (now : Nat) :
    List GroupId → AdmissionAuthority S → OrdMap GroupId GroupSnapshot × AdmissionAuthority S
  | [], a => (∅, a)
  | group :: rest, a =>
      match a.snapshot group now with
      | (.ok snapshot, a) => (snapshots now rest a).map (·.insert group snapshot) id
      | (.error _, a) => snapshots now rest a

def inspect (now : Nat) : AuthorityStatus × AdmissionAuthority S :=
  let read := snapshots now a.groups a
  let ledger := read.2.ledger now
  ({ epoch :=
       match ledger.1 with
       | .ok ledger => ledger.epoch
       | .error _ => 0
     journalHealthy := a.journalHealthy
     liveScopes := a.issued.size
     groups := read.1 }, ledger.2)

/-! ## Grants -/

abbrev Selection : Type := List RequestId × Option AdmissionError

def grantsOf (group : GroupId) (now : Nat) : Nat → AdmissionPolicy → Selection × AdmissionPolicy
  | 0, p => (([], none), p)
  | fuel + 1, p =>
      match p.next group now with
      | (.ok (some granted), p) =>
          let rest := grantsOf group now fuel p
          ((granted :: rest.1.1, rest.1.2), rest.2)
      | (.ok none, p) => (([], none), p)
      | (.error e, p) => (([], some e), p)

/-- One group of the selection.  A policy cannot grant more often than it has
requests, so the loop is never cut short (`grantsOf_uncut`). -/
def selectFrom (now : Nat) (acc : Selection × AdmissionPolicy) (group : GroupId) :
    Selection × AdmissionPolicy :=
  let more := grantsOf group now (acc.2.requests.size + 1) acc.2
  ((acc.1.1 ++ more.1.1, acc.1.2.or more.1.2), more.2)

def selectGrants (now : Nat) : Selection × AdmissionAuthority S :=
  let selected := a.groups.foldl (selectFrom now) (([], none), a.service)
  (selected.1, { a with service := selected.2 })

def withdrawGrants (now : Nat) : List RequestId → AdmissionAuthority S → Outcome S Unit
  | [], a => (.ok (), a)
  | granted :: rest, a =>
      andThen (a.lift (a.service.withdraw granted.scope granted.sequence now)) fun _ a =>
        withdrawGrants now rest a

/-! ## The successor epoch -/

def successorLedger (now : Nat) : Outcome S AdmissionLedger :=
  andThen (a.ledger now) fun probe a =>
    match checkedAdd probe.epoch 1 with
    | none => (.error (.admission .scopeLimit), a)
    | some epoch => (.ok { probe with epoch := epoch, outstanding := [] }, a)

def adoptSuccessor (now : Nat) : Outcome S Nat :=
  andThen (a.lift (a.service.reset now)) fun epoch a =>
    (.ok epoch, { a with issued := ∅, detached := ∅ })

end AdmissionAuthority

/-! ## The journal -/

inductive JournalError where
  | unavailable (message : String)
  deriving DecidableEq, Inhabited

structure Journal where
  stored : Except JournalError (Option AdmissionLedger)
  outcomes : Nat → Except JournalError Unit
  writes : Nat

def Journal.persist (j : Journal) (ledger : AdmissionLedger) : Except JournalError Unit × Journal :=
  match j.outcomes j.writes with
  | .ok _ => (.ok (), { j with stored := .ok (some ledger), writes := j.writes + 1 })
  | .error e => (.error e, { j with writes := j.writes + 1 })

structure Broker (S : Type) where
  authority : AdmissionAuthority S
  journal : Journal

abbrev Turned (S α : Type) : Type := Except AuthorityError α × Broker S

namespace Broker

variable {S : Type}

def on {α : Type} (b : Broker S) (outcome : Outcome S α) : Turned S α :=
  (outcome.1, { b with authority := outcome.2 })

/-! ## The write every durability use case shares -/

def persist (b : Broker S) (ledger : AdmissionLedger) : Turned S Unit :=
  match b.journal.persist ledger with
  | (.ok _, journal) =>
      (.ok (),
        { journal := journal
          authority :=
            { b.authority with
              journalHealthy := true, durableOutstanding := ledger.outstanding.length } })
  | (.error _, journal) =>
      (.error .journalUnavailable,
        { journal := journal, authority := { b.authority with journalHealthy := false } })

variable (b : Broker S)

def persistCurrent (now : Nat) : Turned S Unit :=
  andThen (b.on (b.authority.ledger now)) fun ledger b => b.persist ledger

/-! ## Dispatch -/

def dispatchHealthy (now : Nat) : Turned S (List RequestId) :=
  let selected := b.authority.selectGrants now
  let b := { b with authority := selected.2 }
  let grants := selected.1.1
  if grants.isEmpty then
    -- a lease that cleared on time left no write of its own
    andThen (b.on (b.authority.checkpointDue now)) fun due b =>
    andThen (if due then b.persistCurrent now else (.ok (), b)) fun _ b =>
      (selected.1.2.elim (.ok grants) fun e => .error (.admission e), b)
  else
    match b.persistCurrent now with
    | (.ok _, b) => (.ok grants, b)
    | (.error _, b) =>
      andThen (b.on (b.authority.withdrawGrants now grants)) fun _ b =>
        (.error .journalUnavailable, b)

/-- `DispatchAdmissions::execute`: every grant the policy allows, each durable
before it is visible.  While the journal is known unhealthy a probe write
precedes any selection. -/
def dispatch (now : Nat) : Turned S (List RequestId) :=
  if b.authority.journalHealthy then b.dispatchHealthy now
  else andThen (b.persistCurrent now) fun _ b => b.dispatchHealthy now

def checkpoint (now : Nat) : Turned S Unit := b.persistCurrent now

/-! ## Completion and reset -/

def complete (credential : Credential) (sequence : Nat) (feedback : Feedback)
    (now : Nat) : Turned S RequestState :=
  andThen (b.on (b.authority.completeUnpersisted credential sequence feedback now)) fun state b =>
  andThen (b.persistCurrent now) fun _ b => (.ok state, b)

def advance (now : Nat) : Turned S Nat :=
  andThen (b.on (b.authority.successorLedger now)) fun successor b =>
  andThen (b.persist successor) fun _ b => b.on (b.authority.adoptSuccessor now)

/-! ## Sessions -/

/-- `BindScope::execute`: answers the next sequence the owner may use.  A binding
that supersedes another live connection disconnects the scope first. -/
def bind (credential : Credential) (supersedes : Bool) (now : Nat) : Turned S Nat :=
  match b.authority.verify credential with
  | .error e => (.error e, b)
  | .ok highWater =>
    let next := saturatingAdd highWater 1
    if supersedes then
      andThen (b.on (b.authority.disconnect credential.scope now)) fun _ b =>
        (.ok next, { b with authority := b.authority.attach credential.scope })
    else (.ok next, { b with authority := b.authority.attach credential.scope })

def disconnect (b : Broker S) (scope : ScopeId) (now : Nat) : Turned S AbandonReport :=
  andThen (b.on (b.authority.disconnect scope now)) fun report b =>
    if report.active = 0 then
      andThen (b.on (b.authority.release scope)) fun _ b => (.ok report, b)
    else (.ok report, b)

end Broker

/-! ## Settling a turn -/

structure Settlement where
  dispatchFailure : Option AuthorityError
  answers : List (RequestId × Except AuthorityError RequestState)
  cancellationDue : List RequestId
  nextWake : Except AuthorityError (Option Nat)
  journalHealthy : Bool
  holding : Bool

def dispatchFailure {α : Type} : Except AuthorityError α → Option AuthorityError
  | .ok _ => none
  | .error (.admission _) => none
  | .error failure => some failure

namespace AdmissionAuthority

variable {S : Type}

/-- The answer to one waiting request, if it is no longer queued.  A waiter that
observes `cancelled` while the journal is unhealthy was withdrawn by dispatch; one
whose wait expired behind uncertain leases is told so. -/
def answerOf (a : AdmissionAuthority S) (waiter : RequestId) (journalHealthy : Bool) (now : Nat) :
    Option (Except AuthorityError RequestState) × AdmissionAuthority S :=
  match a.observe waiter now with
  | (.ok (.queued _), a) => (none, a)
  | (.ok (.terminal .cancelled), a) =>
      (some (if journalHealthy then .ok (.terminal .cancelled) else .error .journalUnavailable), a)
  | (.ok (.terminal .timedOut), a) =>
      match a.held waiter now with
      | (.ok (some hold), a) => (some (.error (.heldByUncertainLease hold)), a)
      | (_, a) => (some (.ok (.terminal .timedOut)), a)
  | (observed, a) => (some observed, a)

def answersTo (journalHealthy : Bool) (now : Nat) : List RequestId → AdmissionAuthority S →
      List (RequestId × Except AuthorityError RequestState) × AdmissionAuthority S
  | [], a => ([], a)
  | waiter :: rest, a =>
      let answer := a.answerOf waiter journalHealthy now
      let others := answersTo journalHealthy now rest answer.2
      ((answer.1.map fun state => (waiter, state)).toList ++ others.1, others.2)

def report (a : AdmissionAuthority S) (failure : Option AuthorityError)
    (waiting : List RequestId) (now : Nat) : Settlement × AdmissionAuthority S :=
  let a := a.releaseIdleDetached.2
  let answers := answersTo a.journalHealthy now waiting a
  let due := answers.2.cancellationDue now
  let wake := due.2.nextWake now
  let holding := wake.2.holdsAnything now
  ({ dispatchFailure := failure
     answers := answers.1
     cancellationDue := match due.1 with
       | .ok ids => ids
       | .error _ => []
     nextWake := wake.1
     journalHealthy := a.journalHealthy
     holding := holding.1 }, holding.2)

end AdmissionAuthority

def Broker.settle {S : Type} (b : Broker S) (waiting : List RequestId) (now : Nat) :
    Settlement × Broker S :=
  let dispatched := b.dispatch now
  let settled := dispatched.2.authority.report (dispatchFailure dispatched.1) waiting now
  (settled.1, { dispatched.2 with authority := settled.2 })

/-! ## Start -/

structure AuthorityStart where
  policy : AdmissionConfig
  previouslyOperated : Bool
  acceptMissingLedger : Bool

inductive RestoreError where
  | unreadable (error : JournalError)
  | missingLedger
  | incompatible (error : AuthorityError)
  | notDurable (error : AuthorityError)
  deriving DecidableEq, Inhabited

def firstEpoch : Nat := 1

def startingAuthority {S : Type} (stored : Except JournalError (Option AdmissionLedger))
    (start : AuthorityStart) (secrets : S) (now : Nat) :
    Except RestoreError (AdmissionAuthority S) :=
  match stored with
  | .error e => .error (.unreadable e)
  | .ok (some ledger) =>
      (AdmissionAuthority.restore start.policy ledger secrets now).mapError .incompatible
  | .ok none =>
      if !start.previouslyOperated || start.acceptMissingLedger then
        (AdmissionAuthority.new firstEpoch start.policy secrets).mapError .incompatible
      else .error .missingLedger

def restoreAuthority {S : Type} (journal : Journal) (start : AuthorityStart) (secrets : S)
    (now : Nat) : Except RestoreError (AdmissionAuthority S) × Journal :=
  match startingAuthority journal.stored start secrets now with
  | .error e => (.error e, journal)
  | .ok authority =>
    match (Broker.mk authority journal).persistCurrent now with
    | (.error e, b) => (.error (.notDurable e), b.journal)
    | (.ok _, b) => (.ok b.authority, b.journal)

end Quecto.Authority
