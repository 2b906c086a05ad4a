/-
  Authority/Refinement.lean --- the broker as a machine, and a turn of it as a run of the
  policy.
-/
import Quecto.Authority.Acts

namespace Quecto.Authority

open Foundation Admission AdmissionPolicy

inductive Turn where
  | registerRoot (workload : WorkloadClass)
  | registerChild (parent : Credential)
  | retire (credential : Credential)
  | retireChild (parent : Credential) (child : ScopeId)
  | acquire (credential : Credential) (sequence : Nat) (name : String) (now : Nat)
  | cancel (credential : Credential) (sequence now : Nat)
  | feedback (credential : Credential) (sequence report : Nat) (feedback : ThrottleFeedback)
      (now : Nat)
  | status (credential : Credential) (sequence now : Nat)
  | observe (request : RequestId) (now : Nat)
  | inspect (now : Nat)
  | bind (credential : Credential) (supersedes : Bool) (now : Nat)
  | disconnect (scope : ScopeId) (now : Nat)
  | dispatch (now : Nat)
  | checkpoint (now : Nat)
  | settle (waiting : List RequestId) (now : Nat)
  | complete (credential : Credential) (sequence : Nat) (feedback : Feedback) (now : Nat)
  | advance (now : Nat)

inductive Event (S : Type) where
  | start (start : AuthorityStart) (secrets : S) (now : Nat)
  | turn (turn : Turn)

inductive TurnReply where
  | started (answer : Except RestoreError Unit)
  | issued (answer : Except AuthorityError Credential)
  | done (answer : Except AuthorityError Unit)
  | state (answer : Except AuthorityError RequestState)
  | status (status : AuthorityStatus)
  | bound (answer : Except AuthorityError Nat)
  | abandoned (answer : Except AuthorityError AbandonReport)
  | dispatched (answer : Except AuthorityError (List RequestId))
  | settled (settlement : Settlement)
  | completed (answer : Except AuthorityError RequestState)
  | advanced (answer : Except AuthorityError Nat)
  | absent

structure System (S : Type) where
  journal : Journal
  authority : Option (AdmissionAuthority S)

namespace Broker

variable {S : Type} [AdmissionSecretSource S]

def turn (b : Broker S) : Turn → TurnReply × Broker S
  | .registerRoot workload => (b.on (b.authority.registerRoot workload)).map .issued id
  | .registerChild parent => (b.on (b.authority.registerChild parent)).map .issued id
  | .retire credential => (b.on (b.authority.retire credential)).map .done id
  | .retireChild parent child => (b.on (b.authority.retireChild parent child)).map .done id
  | .acquire credential sequence name now =>
      (b.on (b.authority.acquire credential sequence name now)).map .state id
  | .cancel credential sequence now =>
      (b.on (b.authority.cancel credential sequence now)).map .state id
  | .feedback credential sequence report feedback now =>
      (b.on (b.authority.feedback credential sequence report feedback now)).map .done id
  | .status credential sequence now =>
      (b.on (b.authority.status credential sequence now)).map .state id
  | .observe request now => (b.on (b.authority.observe request now)).map .state id
  | .inspect now => (b.authority.inspect now).map .status fun a => { b with authority := a }
  | .bind credential supersedes now => (b.bind credential supersedes now).map .bound id
  | .disconnect scope now => (b.disconnect scope now).map .abandoned id
  | .dispatch now => (b.dispatch now).map .dispatched id
  | .checkpoint now => (b.checkpoint now).map .done id
  | .settle waiting now => (b.settle waiting now).map .settled id
  | .complete credential sequence feedback now =>
      (b.complete credential sequence feedback now).map .completed id
  | .advance now => (b.advance now).map .advanced id

end Broker

namespace System

variable {S : Type} [AdmissionSecretSource S]

def stopped (journal : Journal) : System S := { journal := journal, authority := none }

def running (b : Broker S) : System S := { journal := b.journal, authority := some b.authority }

def step (s : System S) : Event S → TurnReply × System S
  | .start start secrets now =>
    match restoreAuthority s.journal start secrets now with
    | (.ok authority, journal) => (.started (.ok ()), running ⟨authority, journal⟩)
    | (.error e, journal) => (.started (.error e), stopped journal)
  | .turn turn =>
    match s.authority with
    | none => (.absent, s)
    | some authority => ((Broker.mk authority s.journal).turn turn).map id running

def Reachable (s : System S) : Prop := ∃ journal events, exec step (stopped journal) events = s

lemma Reachable.exec {s : System S} (h : s.Reachable) (events : List (Event S)) :
    (exec step s events).Reachable := by
  obtain ⟨journal, before, rfl⟩ := h
  exact ⟨journal, before ++ events, exec_append step (stopped journal) before events⟩

end System

/-! ## A sample deployment -/

structure SampleSecrets where
  minted : Nat

instance : AdmissionSecretSource SampleSecrets where
  mint s := ("secret-" ++ toString s.minted, ⟨s.minted + 1⟩)

def sampleJournal : Journal := { stored := .ok none, outcomes := fun _ => .ok (), writes := 0 }

def sampleScope : ScopeId := ⟨firstEpoch, 1⟩

def sampleSystem : System SampleSecrets :=
  exec System.step (System.stopped sampleJournal)
    [.start ⟨sampleConfig, false, false⟩ ⟨0⟩ 1, .turn (.registerRoot .interactive),
      .turn (.acquire ⟨sampleScope, "secret-0"⟩ 1 "model" 5)]

lemma sampleSystem_reachable : sampleSystem.Reachable := ⟨sampleJournal, _, rfl⟩

def sampleAuthority : AdmissionAuthority SampleSecrets :=
  sampleSystem.authority.get (by decide +kernel)

lemma sampleSystem_runs : sampleSystem.authority = some sampleAuthority :=
  (Option.some_get _).symm

def TurnReply.grants : TurnReply → Option (List RequestId)
  | .dispatched (.ok ids) => some ids
  | _ => none

lemma TurnReply.grants_eq_some {reply : TurnReply} {ids : List RequestId} :
    reply.grants = some ids ↔ reply = .dispatched (.ok ids) := by
  constructor
  · intro h
    unfold TurnReply.grants at h
    split at h
    · rw [Option.some.inj h]
    · simp at h
  · rintro rfl
    rfl

def TurnReply.epoch : TurnReply → Option Nat
  | .advanced (.ok epoch) => some epoch
  | _ => none

lemma TurnReply.epoch_eq_some {reply : TurnReply} {epoch : Nat} :
    reply.epoch = some epoch ↔ reply = .advanced (.ok epoch) := by
  constructor
  · intro h
    unfold TurnReply.epoch at h
    split at h
    · rw [Option.some.inj h]
    · simp at h
  · rintro rfl
    rfl

/-! ## The use cases -/

open AdmissionAuthority

/-- What a dispatch may ask of the policy. -/
def Dispatches (now : Nat) (op : Operation) : Prop :=
  Draws now op ∨ Withdraws now op ∨ Reads now op

namespace Broker

variable {S : Type}

def Serves (allowed : Operation → Prop) (b b' : Broker S) : Prop :=
  Follows allowed b.authority b'.authority

/-- A turn that moves the authority and writes nothing. -/
structure Idles (allowed : Operation → Prop) (b b' : Broker S) : Prop where
  moves : Moves allowed b.authority b'.authority
  journal : b'.journal = b.journal

variable {allowed : Operation → Prop} {b b' : Broker S}

lemma Serves.trans {b'' : Broker S} (h : Serves allowed b b') (h' : Serves allowed b' b'') :
    Serves allowed b b'' :=
  Follows.trans h h'

lemma Serves.mono {allowed' : Operation → Prop} (h : Serves allowed b b')
    (hle : ∀ op, allowed op → allowed' op) : Serves allowed' b b' :=
  Follows.mono h hle

lemma serves_on {α : Type} {outcome : Outcome S α} (h : Acts allowed b.authority outcome.2) :
    Serves allowed b (b.on outcome).2 :=
  h.follows

variable (b : Broker S)

lemma serves_persist (ledger : AdmissionLedger) : Serves allowed b (b.persist ledger).2 := by
  unfold persist
  split <;> exact ⟨.refl _, rfl⟩

variable (now : Nat)

lemma serves_persistCurrent : Serves (Reads now) b (b.persistCurrent now).2 := by
  have hledger := serves_on (acts_ledger b.authority now)
  apply andThen_leaves hledger
  intro ledger _
  exact hledger.trans (serves_persist _ ledger)

lemma serves_dispatchHealthy : Serves (Dispatches now) b (b.dispatchHealthy now).2 := by
  have hread : ∀ {c c' : Broker S}, Serves (Reads now) c c' → Serves (Dispatches now) c c' :=
    fun h => h.mono fun _ hop => .inr (.inr hop)
  have hselect : Serves (Dispatches now) b
      { b with authority := (b.authority.selectGrants now).2 } :=
    (acts_selectGrants b.authority now).follows.mono fun _ h => .inl h
  unfold dispatchHealthy
  generalize b.authority.selectGrants now = selected at hselect
  dsimp only
  split
  · have hdue := hselect.trans (hread (serves_on (acts_checkpointDue selected.2 now)))
    apply andThen_leaves hdue
    intro due _
    have hwrite : ∀ c : Broker S, Serves (Dispatches now) c
        (if due = true then c.persistCurrent now else (.ok (), c)).2 := by
      intro c
      split
      · exact hread (serves_persistCurrent c now)
      · exact ⟨.refl _, rfl⟩
    apply andThen_leaves (hdue.trans (hwrite _))
    intro _ _
    exact hdue.trans (hwrite _)
  · have hwrite := hselect.trans (hread (serves_persistCurrent _ now))
    split
    · rename_i b' heq
      rw [heq] at hwrite
      exact hwrite
    rename_i e b' heq
    rw [heq] at hwrite
    have hwithdraw := hwrite.trans ((serves_on (acts_withdrawGrants now selected.1.1
      b'.authority)).mono fun _ h => .inr (.inl h))
    apply andThen_leaves hwithdraw
    intro _ _
    exact hwithdraw

lemma serves_dispatch : Serves (Dispatches now) b (b.dispatch now).2 := by
  have hwrite : Serves (Dispatches now) b (b.persistCurrent now).2 :=
    (serves_persistCurrent b now).mono fun _ hop => .inr (.inr hop)
  unfold dispatch
  split
  · exact serves_dispatchHealthy b now
  apply andThen_leaves hwrite
  intro _ _
  exact hwrite.trans (serves_dispatchHealthy _ now)

lemma serves_complete (credential : Credential) (sequence : Nat) (feedback : Feedback) (now : Nat) :
    Serves (fun op => op = .complete credential.scope sequence feedback now ∨ Reads now op) b
      (b.complete credential sequence feedback now).2 := by
  have hcomplete :
      Serves (fun op => op = .complete credential.scope sequence feedback now ∨ Reads now op) b
        (b.on (b.authority.completeUnpersisted credential sequence feedback now)).2 :=
    (acts_completeUnpersisted b.authority credential sequence now feedback).follows.mono
      fun _ h => .inl h
  apply andThen_leaves hcomplete
  intro state _
  have hwrite := hcomplete.trans ((serves_persistCurrent _ now).mono fun _ h => .inr h)
  apply andThen_leaves hwrite
  intro _ _
  exact hwrite

lemma idles_bind (credential : Credential) (supersedes : Bool) (now : Nat) :
    Idles (· = .abandon credential.scope now) b (b.bind credential supersedes now).2 ∧
      (b.bind credential supersedes now).2.authority.issued = b.authority.issued := by
  have hdisconnect := acts_disconnect b.authority credential.scope now
  unfold bind
  split
  · exact ⟨⟨.refl _, rfl⟩, rfl⟩
  split
  · generalize b.authority.disconnect credential.scope now = left at hdisconnect
    cases left with
    | mk result a' =>
      cases result with
      | error e => exact ⟨⟨hdisconnect.toMoves, rfl⟩, hdisconnect.issued⟩
      | ok report =>
        exact ⟨⟨⟨hdisconnect.evolves, hdisconnect.health, hdisconnect.durable⟩, rfl⟩,
          hdisconnect.issued⟩
  · exact ⟨⟨⟨.refl _, rfl, rfl⟩, rfl⟩, rfl⟩

variable {b now} in
lemma disconnect_leaves {P : Broker S → Prop} {scope : ScopeId}
    (hleft : P (b.on (b.authority.disconnect scope now)).2)
    (hreleased : P ((b.on (b.authority.disconnect scope now)).2.on
      ((b.authority.disconnect scope now).2.release scope)).2) : P (b.disconnect scope now).2 := by
  apply andThen_leaves hleft
  intro report _
  split
  · apply andThen_leaves hreleased
    intro _ _
    exact hreleased
  · exact hleft

lemma idles_disconnect (scope : ScopeId) (now : Nat) :
    Idles (fun op => op = .abandon scope now ∨ op = .retire scope) b
      (b.disconnect scope now).2 := by
  have hleft : Idles (fun op => op = .abandon scope now ∨ op = .retire scope) b
      (b.on (b.authority.disconnect scope now)).2 :=
    ⟨(acts_disconnect b.authority scope now).toMoves.mono fun _ h => .inl h, rfl⟩
  exact disconnect_leaves hleft
    ⟨hleft.moves.trans ((moves_release _ scope).mono fun _ h => .inr h), rfl⟩

lemma evolves_advance : Evolves (fun op => op = .reset now ∨ Reads now op) b.authority.service
      (b.advance now).2.authority.service := by
  let P : Broker S → Prop := fun b' =>
    Evolves (fun op => op = .reset now ∨ Reads now op) b.authority.service
      b'.authority.service
  have hsuccessor : P (b.on (b.authority.successorLedger now)).2 :=
    (acts_successorLedger b.authority now).evolves.mono fun _ h => .inr h
  refine andThen_leaves (P := P) hsuccessor ?_
  intro successor _
  have hpersist := hsuccessor.trans (serves_persist _ successor).evolves
  refine andThen_leaves (P := P) hpersist ?_
  intro _ _
  exact hpersist.trans ((moves_adoptSuccessor _ now).evolves.mono fun _ h => .inl h)

end Broker

/-! ## Turns -/

def Turn.issues : Turn → Operation → Prop
  | .registerRoot workload, op => op = .registerRoot workload
  | .registerChild parent, op => op = .registerChild parent.scope
  | .retire credential, op => op = .retire credential.scope
  | .retireChild _ child, op => op = .retire child
  | .acquire credential sequence name now, op => op = .enqueue credential.scope sequence name now
  | .cancel credential sequence now, op => op = .cancel credential.scope sequence now
  | .feedback credential sequence report advice now, op =>
      op = .reportFeedback credential.scope sequence report advice now
  | .status _ _ now, op => Reads now op
  | .observe _ now, op => Reads now op
  | .inspect now, op => Reads now op
  | .bind credential _ now, op => op = .abandon credential.scope now
  | .disconnect scope now, op => op = .abandon scope now ∨ op = .retire scope
  | .dispatch now, op => Dispatches now op
  | .checkpoint now, op => Reads now op
  | .settle _ now, op => Dispatches now op ∨ Retires op
  | .complete credential sequence outcome now, op =>
      op = .complete credential.scope sequence outcome now ∨ Reads now op
  | .advance now, op => op = .reset now ∨ Reads now op

def Turn.writes : Turn → Bool
  | .dispatch _ | .checkpoint _ | .settle _ _ | .complete _ _ _ _ | .advance _ => true
  | _ => false

namespace Broker

variable {S : Type} [AdmissionSecretSource S] (b : Broker S)

lemma idles_turn {turn : Turn} (h : turn.writes = false) : Idles turn.issues b (b.turn turn).2 := by
  cases turn with
  | registerRoot workload => exact ⟨moves_registerRoot b.authority workload, rfl⟩
  | registerChild parent => exact ⟨moves_registerChild b.authority parent, rfl⟩
  | retire credential => exact ⟨moves_retire b.authority credential, rfl⟩
  | retireChild parent child => exact ⟨moves_retireChild b.authority parent child, rfl⟩
  | acquire credential sequence name now =>
    exact ⟨(acts_acquire b.authority credential sequence now name).toMoves, rfl⟩
  | cancel credential sequence now =>
    exact ⟨(acts_cancel b.authority credential sequence now).toMoves, rfl⟩
  | feedback credential sequence report feedback now =>
    exact ⟨(acts_feedback b.authority credential sequence now report feedback).toMoves, rfl⟩
  | status credential sequence now =>
    exact ⟨(acts_status b.authority credential sequence now).toMoves, rfl⟩
  | observe request now => exact ⟨(acts_observe b.authority now request).toMoves, rfl⟩
  | inspect now => exact ⟨(acts_inspect b.authority now).toMoves, rfl⟩
  | bind credential supersedes now => exact (b.idles_bind credential supersedes now).1
  | disconnect scope now => exact b.idles_disconnect scope now
  | _ => simp [Turn.writes] at h

lemma turn_refines (turn : Turn) :
    Evolves turn.issues b.authority.service (b.turn turn).2.authority.service := by
  cases hwrites : turn.writes with
  | false => exact (b.idles_turn hwrites).moves.evolves
  | true =>
    cases turn with
    | dispatch now => exact (b.serves_dispatch now).evolves
    | checkpoint now => exact (b.serves_persistCurrent now).evolves
    | settle waiting now =>
      have hdispatch := (b.serves_dispatch now).evolves
      have hreport := (moves_report (b.dispatch now).2.authority
        (dispatchFailure (b.dispatch now).1) waiting now).evolves
      refine (hdispatch.mono fun _ h => .inl h).trans (hreport.mono ?_)
      rintro op (hread | hretire)
      · exact .inl (.inr (.inr hread))
      · exact .inr hretire
    | complete credential sequence feedback now =>
      exact (b.serves_complete credential sequence feedback now).evolves
    | advance now => exact b.evolves_advance now
    | _ => simp [Turn.writes] at hwrites

end Broker

/-! ## Runs -/

section

variable {S : Type} {stored : Except JournalError (Option AdmissionLedger)}
  {start : AuthorityStart} {secrets : S} {now : Nat} {a : AdmissionAuthority S}

lemma startingAuthority_cases (h : startingAuthority stored start secrets now = .ok a) :
    ∃ service, a = compose service secrets start.policy.groups.keys ∧
      (AdmissionPolicy.new firstEpoch start.policy = .ok service ∨
        ∃ ledger, stored = .ok (some ledger) ∧
          AdmissionPolicy.restore start.policy ledger now = .ok service) := by
  unfold startingAuthority at h
  split at h
  · simp at h
  · rename_i ledger
    unfold AdmissionAuthority.restore at h
    split at h
    · simp [Except.mapError] at h
    · rename_i service hservice
      exact ⟨service, (Except.ok.inj h).symm, .inr ⟨ledger, rfl, hservice⟩⟩
  · split at h
    · unfold AdmissionAuthority.new at h
      split at h
      · simp [Except.mapError] at h
      · rename_i service hservice
        exact ⟨service, (Except.ok.inj h).symm, .inl hservice⟩
    · simp at h

lemma initial_of_starting (h : startingAuthority stored start secrets now = .ok a) :
    a.service.Initial := by
  obtain ⟨service, rfl, hnew | ⟨ledger, _, hrestore⟩⟩ := startingAuthority_cases h
  · exact .inl ⟨_, _, hnew⟩
  · exact .inr ⟨_, _, _, hrestore⟩

lemma restoreAuthority_ok {journal journal' : Journal}
    (h : restoreAuthority journal start secrets now = (.ok a, journal')) :
    ∃ a₀, startingAuthority journal.stored start secrets now = .ok a₀ ∧
      (Broker.mk a₀ journal).persistCurrent now = (.ok (), ⟨a, journal'⟩) := by
  unfold restoreAuthority at h
  split at h
  · simp at h
  rename_i a₀ hstarting
  refine ⟨a₀, hstarting, ?_⟩
  split at h
  · simp at h
  rename_i b hpersist
  obtain ⟨hauthority, hjournal⟩ := Prod.mk.inj h
  rw [hpersist, ← Except.ok.inj hauthority, ← hjournal]

end

namespace System

variable {S : Type} [AdmissionSecretSource S] {s : System S} {a : AdmissionAuthority S}

/-- What every start establishes and every turn keeps holds of a running broker. -/
lemma reachable_induction {I : Broker S → Prop}
    (starts : ∀ journal start secrets now a journal',
      restoreAuthority journal start secrets now = (.ok a, journal') → I ⟨a, journal'⟩)
    (turns : ∀ b turn, I b → I (b.turn turn).2) (h : s.Reachable) (ha : s.authority = some a) :
    I ⟨a, s.journal⟩ := by
  obtain ⟨journal, events, rfl⟩ := h
  let J : System S → Prop := fun s => ∀ a, s.authority = some a → I ⟨a, s.journal⟩
  have hkept : ∀ s event, J s → J (step s event).2 := by
    intro s event hs a ha
    cases event with
    | start start secrets now =>
      unfold step at ha ⊢
      dsimp only at ha ⊢
      split at ha
      · rename_i a₀ journal' hrestore
        cases ha
        exact starts _ _ _ _ _ _ hrestore
      · simp [stopped] at ha
    | turn turn =>
      unfold step at ha ⊢
      dsimp only at ha ⊢
      split at ha
      · rename_i hnone
        rw [hnone] at ha
        simp at ha
      rename_i a₀ hsome
      cases ha
      exact turns _ turn (hs a₀ hsome)
  have hinit : J (stopped journal) := by
    intro a ha
    simp [stopped] at ha
  exact exec_invariant hkept hinit events a ha

lemma Reachable.service (h : s.Reachable) (ha : s.authority = some a) : a.service.Reachable := by
  refine reachable_induction (I := fun b => b.authority.service.Reachable) ?_ ?_ h ha
  · intro journal start secrets now a journal' hrestore
    obtain ⟨a₀, hstarting, hpersist⟩ := restoreAuthority_ok hrestore
    have hevolves := (Broker.serves_persistCurrent ⟨a₀, journal⟩ now).evolves
    rw [hpersist] at hevolves
    exact hevolves.reachable ⟨a₀.service, [], initial_of_starting hstarting, rfl⟩
  · intro b turn hb
    exact (b.turn_refines turn).reachable hb

end System

end Quecto.Authority
