/-
  Authority/Acts.lean --- the authority evolves the policy it holds, and withdrawing a
  selection of grants undoes it.
-/
import Quecto.Authority.State
import Quecto.Admission.Holding
import Quecto.Admission.Lease
import Quecto.Admission.Settled

namespace Quecto.Authority

open Foundation Admission List AdmissionPolicy

namespace AdmissionAuthority

variable {S : Type}

/-- The policy takes only `allowed` operations, and the journal's standing is left alone. -/
structure Moves (allowed : Operation → Prop) (a a' : AdmissionAuthority S) : Prop where
  evolves : Evolves allowed a.service a'.service
  health : a'.journalHealthy = a.journalHealthy
  durable : a'.durableOutstanding = a.durableOutstanding

/-- A move that leaves every capability as it was. -/
structure Acts (allowed : Operation → Prop) (a a' : AdmissionAuthority S) : Prop
    extends Moves allowed a a' where
  issued : a'.issued = a.issued

structure Follows (allowed : Operation → Prop) (a a' : AdmissionAuthority S) : Prop where
  evolves : Evolves allowed a.service a'.service
  issued : a'.issued = a.issued

section

variable {allowed allowed' : Operation → Prop} {a a' a'' : AdmissionAuthority S}

lemma Moves.refl (a : AdmissionAuthority S) : Moves allowed a a := ⟨.refl _, rfl, rfl⟩

lemma Moves.trans (h : Moves allowed a a') (h' : Moves allowed a' a'') : Moves allowed a a'' :=
  ⟨h.evolves.trans h'.evolves, h'.health.trans h.health, h'.durable.trans h.durable⟩

lemma Moves.mono (h : Moves allowed a a') (hle : ∀ op, allowed op → allowed' op) :
    Moves allowed' a a' :=
  ⟨h.evolves.mono hle, h.health, h.durable⟩

lemma Acts.refl (a : AdmissionAuthority S) : Acts allowed a a := ⟨.refl a, rfl⟩

lemma Acts.trans (h : Acts allowed a a') (h' : Acts allowed a' a'') : Acts allowed a a'' :=
  ⟨h.toMoves.trans h'.toMoves, h'.issued.trans h.issued⟩

lemma Acts.follows (h : Acts allowed a a') : Follows allowed a a' := ⟨h.evolves, h.issued⟩

lemma Follows.trans (h : Follows allowed a a') (h' : Follows allowed a' a'') :
    Follows allowed a a'' :=
  ⟨h.evolves.trans h'.evolves, h'.issued.trans h.issued⟩

lemma Follows.mono (h : Follows allowed a a') (hle : ∀ op, allowed op → allowed' op) :
    Follows allowed' a a' :=
  ⟨h.evolves.mono hle, h.issued⟩

end

/-- An operation that only reads the clock. -/
def Reads (now : Nat) (op : Operation) : Prop := op.readTime = some now

abbrev Retires (op : Operation) : Prop := ∃ scope, op = .retire scope

abbrev Draws (now : Nat) (op : Operation) : Prop := ∃ group, op = .next group now

abbrev Withdraws (now : Nat) (op : Operation) : Prop :=
  ∃ scope sequence, op = .withdraw scope sequence now

/-! ## One operation of the policy -/

variable {α : Type} {allowed : Operation → Prop} {a : AdmissionAuthority S}
  {operation : Outcome S α}

lemma acts_lift (a : AdmissionAuthority S) {answer : Answer α} (op : Operation)
    (hop : allowed op) (h : answer.2 = (a.service.step op).2) :
    Acts allowed a (a.lift answer).2 where
  evolves := by
    show Evolves allowed a.service answer.2
    rw [h]
    exact .single a.service op hop
  health := rfl
  durable := rfl
  issued := rfl

lemma acts_guarded (credential : Credential) (h : Acts allowed a operation.2) :
    Acts allowed a (a.guarded credential operation).2 := by
  unfold guarded
  split
  · exact .refl a
  · exact h

lemma moves_guarded (credential : Credential) (h : Moves allowed a operation.2) :
    Moves allowed a (a.guarded credential operation).2 := by
  unfold guarded
  split
  · exact .refl a
  · exact h

section

variable (a : AdmissionAuthority S) (credential : Credential) (sequence now : Nat)

lemma acts_acquire (name : String) : Acts (· = .enqueue credential.scope sequence name now) a
      (a.acquire credential sequence name now).2 :=
  acts_guarded credential (acts_lift a _ rfl rfl)

lemma acts_cancel :
    Acts (· = .cancel credential.scope sequence now) a (a.cancel credential sequence now).2 :=
  acts_guarded credential (acts_lift a _ rfl rfl)

lemma acts_feedback (report : Nat) (feedback : ThrottleFeedback) :
    Acts (· = .reportFeedback credential.scope sequence report feedback now) a
      (a.feedback credential sequence report feedback now).2 :=
  acts_guarded credential (acts_lift a _ rfl rfl)

lemma acts_status : Acts (Reads now) a (a.status credential sequence now).2 :=
  acts_guarded credential (acts_lift a (.status credential.scope sequence now) rfl rfl)

lemma acts_completeUnpersisted (feedback : Feedback) :
    Acts (· = .complete credential.scope sequence feedback now) a
      (a.completeUnpersisted credential sequence feedback now).2 :=
  acts_guarded credential (acts_lift a _ rfl rfl)

lemma acts_observe (request : RequestId) : Acts (Reads now) a (a.observe request now).2 :=
  acts_lift a (.status request.scope request.sequence now) rfl rfl

lemma acts_held (request : RequestId) : Acts (Reads now) a (a.held request now).2 :=
  acts_lift a (.held request.scope request.sequence now) rfl rfl

lemma acts_nextWake : Acts (Reads now) a (a.nextWake now).2 := acts_lift a (.nextWake now) rfl rfl

lemma acts_ledger : Acts (Reads now) a (a.ledger now).2 := acts_lift a (.ledger now) rfl rfl

lemma acts_snapshot (group : GroupId) : Acts (Reads now) a (a.snapshot group now).2 :=
  acts_lift a (.snapshot group now) rfl rfl

end

/-! ## Reads made of reads -/

lemma acts_checkpointDue (a : AdmissionAuthority S) (now : Nat) :
    Acts (Reads now) a (a.checkpointDue now).2 :=
  acts_ledger a now

lemma acts_dueAmong (epoch now : Nat) (attempts : List OutstandingAttempt) :
    ∀ a : AdmissionAuthority S, Acts (Reads now) a (dueAmong epoch now attempts a).2 := by
  induction attempts with
  | nil => exact Acts.refl
  | cons attempt attempts ih =>
    intro a
    unfold dueAmong
    dsimp only
    split
    · have hobserve := acts_observe a now ⟨⟨epoch, attempt.scope⟩, attempt.sequence⟩
      apply andThen_leaves hobserve
      intro _ _
      exact hobserve.trans (ih _)
    · exact ih a

lemma acts_cancellationDue (a : AdmissionAuthority S) (now : Nat) :
    Acts (Reads now) a (a.cancellationDue now).2 := by
  have hledger := acts_ledger a now
  apply andThen_leaves hledger
  intro _ _
  exact hledger.trans (acts_dueAmong _ now _ _)

lemma acts_anyQueued (now : Nat) (groups : List GroupId) :
    ∀ a : AdmissionAuthority S, Acts (Reads now) a (anyQueued now groups a).2 := by
  induction groups with
  | nil => exact Acts.refl
  | cons group groups ih =>
    intro a
    have hsnapshot := acts_snapshot a now group
    unfold anyQueued
    split
    · rename_i snapshot a' heq
      rw [heq] at hsnapshot
      split
      · exact hsnapshot
      · exact hsnapshot.trans (ih a')
    · rename_i e a' heq
      rw [heq] at hsnapshot
      exact hsnapshot

lemma acts_holdsAnything (a : AdmissionAuthority S) (now : Nat) :
    Acts (Reads now) a (a.holdsAnything now).2 :=
  (acts_ledger a now).trans (acts_anyQueued now a.groups (a.ledger now).2)

lemma acts_snapshots (now : Nat) (groups : List GroupId) :
    ∀ a : AdmissionAuthority S, Acts (Reads now) a (snapshots now groups a).2 := by
  induction groups with
  | nil => exact Acts.refl
  | cons group groups ih =>
    intro a
    have hsnapshot := acts_snapshot a now group
    unfold snapshots
    split
    · rename_i snapshot a' heq
      rw [heq] at hsnapshot
      exact hsnapshot.trans (ih a')
    rename_i e a' heq
    rw [heq] at hsnapshot
    exact hsnapshot.trans (ih a')

lemma acts_inspect (a : AdmissionAuthority S) (now : Nat) : Acts (Reads now) a (a.inspect now).2 :=
  (acts_snapshots now a.groups a).trans (acts_ledger (snapshots now a.groups a).2 now)

lemma acts_answerOf (a : AdmissionAuthority S) (waiter : RequestId) (journalHealthy : Bool)
    (now : Nat) : Acts (Reads now) a (a.answerOf waiter journalHealthy now).2 := by
  have hobserve := acts_observe a now waiter
  unfold answerOf
  split
  · rename_i a' heq
    rw [heq] at hobserve
    exact hobserve
  · rename_i a' heq
    rw [heq] at hobserve
    exact hobserve
  · rename_i a' heq
    rw [heq] at hobserve
    have hheld := hobserve.trans (acts_held a' now waiter)
    split
    · rename_i a'' heq'
      rw [heq'] at hheld
      exact hheld
    rename_i a'' _ heq'
    rw [heq'] at hheld
    exact hheld
  · rename_i observed a' _ _ _ heq
    rw [heq] at hobserve
    exact hobserve

lemma acts_answersTo (journalHealthy : Bool) (now : Nat) (waiting : List RequestId) :
    ∀ a : AdmissionAuthority S, Acts (Reads now) a (answersTo journalHealthy now waiting a).2 := by
  induction waiting with
  | nil => exact Acts.refl
  | cons waiter waiting ih =>
    intro a
    exact (acts_answerOf a waiter journalHealthy now).trans (ih _)

/-! ## Capabilities -/

section

variable [AdmissionSecretSource S] (a : AdmissionAuthority S)

lemma moves_issueOn {registered : Outcome S ScopeId}
    (root : ScopeId → ScopeId) (parent : Option ScopeId) (h : Moves allowed a registered.2) :
    Moves allowed a (issueOn registered root parent).2 := by
  apply andThen_leaves h
  intro _ _
  exact ⟨h.evolves, h.health, h.durable⟩

lemma moves_registerRoot (workload : WorkloadClass) :
    Moves (· = .registerRoot workload) a (a.registerRoot workload).2 := by
  have hregister : Acts (· = .registerRoot workload) a
      (a.lift (a.service.registerRoot workload)).2 :=
    acts_lift a _ rfl rfl
  exact moves_issueOn a _ _ hregister.toMoves

lemma moves_registerChild (parent : Credential) :
    Moves (· = .registerChild parent.scope) a (a.registerChild parent).2 := by
  have hregister : Acts (· = .registerChild parent.scope) a
      (a.lift (a.service.registerChild parent.scope)).2 :=
    acts_lift a _ rfl rfl
  apply moves_guarded
  exact moves_issueOn a _ _ hregister.toMoves

end

section

variable (a : AdmissionAuthority S)

lemma moves_release (scope : ScopeId) : Moves (· = .retire scope) a (a.release scope).2 := by
  have hretire : Acts (· = .retire scope) a (a.lift (a.service.retire scope)).2 :=
    acts_lift a _ rfl rfl
  apply andThen_leaves hretire.toMoves
  intro _ _
  exact ⟨hretire.evolves, hretire.health, hretire.durable⟩

lemma moves_retire (credential : Credential) :
    Moves (· = .retire credential.scope) a (a.retire credential).2 :=
  moves_guarded credential (moves_release a credential.scope)

lemma moves_retireChild (parent : Credential) (child : ScopeId) :
    Moves (· = .retire child) a (a.retireChild parent child).2 := by
  apply moves_guarded
  split
  · exact moves_release a child
  · exact .refl a

lemma moves_releaseDetached (acc : Nat × AdmissionAuthority S) (scope : ScopeId) :
    Moves Retires acc.2 (releaseDetached acc scope).2 := by
  have hretire : Evolves Retires acc.2.service
      (acc.2.service.retire scope).2 :=
    .single acc.2.service (.retire scope) ⟨scope, rfl⟩
  unfold releaseDetached
  dsimp only
  split
  all_goals
    rename_i heq
    rw [heq] at hretire
    exact ⟨hretire, rfl, rfl⟩

lemma moves_releaseIdleDetached :
    Moves Retires a a.releaseIdleDetached.2 := by
  have hfold : ∀ (scopes : List ScopeId) (acc : Nat × AdmissionAuthority S),
      Moves Retires acc.2
        (scopes.foldl releaseDetached acc).2 := by
    intro scopes
    induction scopes with
    | nil => intro acc; exact .refl acc.2
    | cons scope scopes ih => intro acc; exact (moves_releaseDetached acc scope).trans (ih _)
  have hall := hfold a.detached.keys (0, { a with detached := ∅ })
  exact ⟨hall.evolves, hall.health, hall.durable⟩

lemma acts_disconnect (scope : ScopeId) (now : Nat) :
    Acts (· = .abandon scope now) a (a.disconnect scope now).2 := by
  have habandon : Acts (· = .abandon scope now) a (a.lift (a.service.abandon scope now)).2 :=
    acts_lift a _ rfl rfl
  apply andThen_leaves habandon
  intro report _
  split
  · exact ⟨⟨habandon.evolves, habandon.health, habandon.durable⟩, habandon.issued⟩
  · exact habandon

end

/-! ## Grants and the successor epoch -/

lemma evolves_grantsOf (group : GroupId) (now fuel : Nat) :
    ∀ p : AdmissionPolicy, Evolves (Draws now) p
      (grantsOf group now fuel p).2 := by
  induction fuel with
  | zero => exact Evolves.refl
  | succ fuel ih =>
    intro p
    have hnext : Evolves (Draws now) p
        (p.next group now).2 :=
      .single p (.next group now) ⟨group, rfl⟩
    unfold grantsOf
    split
    all_goals
      rename_i heq
      rw [heq] at hnext
    · exact hnext.trans (ih _)
    · exact hnext
    · exact hnext

lemma acts_selectGrants (a : AdmissionAuthority S) (now : Nat) :
    Acts (Draws now) a (a.selectGrants now).2 := by
  have hfold : ∀ (groups : List GroupId) (acc : Selection × AdmissionPolicy),
      Evolves (Draws now) acc.2
        (groups.foldl (selectFrom now) acc).2 := by
    intro groups
    induction groups with
    | nil => intro acc; exact .refl acc.2
    | cons group groups ih =>
      intro acc
      exact (evolves_grantsOf group now _ acc.2).trans (ih (selectFrom now acc group))
  exact ⟨⟨hfold a.groups (([], none), a.service), rfl, rfl⟩, rfl⟩

lemma acts_withdrawGrants (now : Nat) (grants : List RequestId) : ∀ a : AdmissionAuthority S,
      Acts (Withdraws now) a
        (withdrawGrants now grants a).2 := by
  induction grants with
  | nil => exact Acts.refl
  | cons granted grants ih =>
    intro a
    have hwithdraw : Acts (Withdraws now) a
        (a.lift (a.service.withdraw granted.scope granted.sequence now)).2 :=
      acts_lift a (.withdraw granted.scope granted.sequence now) ⟨_, _, rfl⟩ rfl
    apply andThen_leaves hwithdraw
    intro _ _
    exact hwithdraw.trans (ih _)

section

variable (a) (now : Nat)

lemma acts_successorLedger : Acts (Reads now) a (a.successorLedger now).2 := by
  have hledger := acts_ledger a now
  apply andThen_leaves hledger
  intro probe _
  split <;> exact hledger

lemma moves_adoptSuccessor : Moves (· = .reset now) a (a.adoptSuccessor now).2 := by
  have hreset : Acts (· = .reset now) a (a.lift (a.service.reset now)).2 := acts_lift a _ rfl rfl
  apply andThen_leaves hreset.toMoves
  intro _ _
  exact ⟨hreset.evolves, hreset.health, hreset.durable⟩

end

variable (a) (failure : Option AuthorityError) (waiting : List RequestId) (now : Nat)

lemma acts_report : Acts (Reads now) a.releaseIdleDetached.2 (a.report failure waiting now).2 := by
  apply Acts.trans _ (acts_holdsAnything _ now)
  apply Acts.trans _ (acts_nextWake _ now)
  apply Acts.trans _ (acts_cancellationDue _ now)
  exact acts_answersTo _ now waiting _

lemma moves_report : Moves (fun op => Reads now op ∨ Retires op) a
      (a.report failure waiting now).2 := by
  have hrelease : Moves (fun op => Reads now op ∨ Retires op) a
      a.releaseIdleDetached.2 :=
    (moves_releaseIdleDetached a).mono fun _ h => .inr h
  exact hrelease.trans ((acts_report a failure waiting now).toMoves.mono fun _ h => .inl h)

end AdmissionAuthority

open Foundation Admission AdmissionPolicy

/-- The requests `ids` were granted at `now`, one after another, and `q` is left. -/
structure Selects (p : AdmissionPolicy) (now : Nat) (ids : List RequestId) (q : AdmissionPolicy) :
    Prop where
  wf : q.Wf
  config : q.config = p.config
  epoch : q.epoch = p.epoch
  nodup : ids.Nodup
  granted : ∀ id ∈ ids, q.IsActive id
  active : ∀ (gid : GroupId) (id : RequestId), q.ActiveIn gid id → p.ActiveIn gid id ∨ id ∈ ids
  orphans : OrphansLeave p q
  spent : ∀ id, p.Spent id → q.Spent id ∧ id ∉ ids
  holds : ∀ id, p.Holds now id → q.Holds now id
  settled : ids ≠ [] ∨ p.Settled now → q.Settled now
  clock : p.now ≤ now → q.now ≤ now

/-! ## Selections compose -/

variable {id : RequestId}

lemma holds_of_settled {q : AdmissionPolicy} {now : Nat} (wf : q.Wf) (h : q.Settled now)
    (hactive : q.IsActive id) : q.Holds now id := by
  obtain ⟨r, hr, hr_active⟩ := hactive
  refine ⟨r, hr, hr_active, ?_⟩
  cases hends : r.endsBy (q.sinceOf id r) now with
  | false => rfl
  | true =>
    have hmem := (wf.mem_elapsedLeases_iff now hr).mpr ⟨hr_active, hends⟩
    rw [h.leases] at hmem
    simp at hmem

namespace Selects

variable {p q r : AdmissionPolicy} {now : Nat} {ids ids' : List RequestId}

lemma none (wf : q.Wf) (hcalm : Calm p q) (holds : ∀ id, p.Holds now id → q.Holds now id)
    (settled : p.Settled now → q.Settled now) (clock : p.now ≤ now → q.now ≤ now) :
    Selects p now [] q where
  wf := wf
  config := hcalm.config
  epoch := hcalm.epoch
  nodup := .nil
  granted := by simp
  active := fun _ _ h => .inl (hcalm.activeIn h)
  orphans := hcalm.orphansLeave
  spent := fun _ h => ⟨hcalm.spent h, by simp⟩
  holds := holds
  settled := by simpa using settled
  clock := clock

lemma refl (wf : p.Wf) : Selects p now [] p :=
  .none wf (.refl p) (fun _ h => h) (fun h => h) (fun h => h)

lemma one {gid : GroupId} (wf : p.Wf) (observed : p.tick now = .ok q)
    (grants : q.Grants gid id now) : Selects p now [id] (q.afterGrant gid id now) := by
  obtain ⟨wfq, hcalm⟩ := wf_of_tick wf observed
  obtain ⟨r₀, hr₀, _⟩ := grants.queued
  have hid : (q.afterGrant gid id now).requests[id]? =
      some { r₀ with state := .active now (now + (q.policyAt gid).attemptTimeoutMs) false } := by
    rw [afterGrant_requests, if_pos rfl, hr₀]
    rfl
  constructor
  · exact grants.wf wfq
  · exact hcalm.config
  · exact hcalm.epoch
  · exact nodup_singleton id
  · intro a ha
    obtain rfl := mem_singleton.mp ha
    exact ⟨_, hid, rfl⟩
  · rintro a id' ⟨r', hr', hgroup, hactive⟩
    rcases afterGrant_lookup grants hr' with ⟨rfl, _⟩ | ⟨_, hr⟩
    · exact .inr mem_cons_self
    · exact .inl (hcalm.activeIn ⟨r', hr, hgroup, hactive⟩)
  · exact hcalm.orphansLeave.trans (orphansLeave_afterGrant q gid id now)
  · intro a ha
    have haq := hcalm.spent ha
    refine ⟨grants.spent haq, ?_⟩
    intro hmem
    exact grants.ne_of_spent haq (mem_singleton.mp hmem)
  · intro a ha
    exact (ha.tick wf observed).afterGrant grants
  · intro _
    exact (settled_of_tick wf observed).afterGrant wfq grants
  · intro _
    exact le_of_eq (observed_tick wf observed).clock

lemma trans (h : Selects p now ids q) (h' : Selects q now ids' r) :
    Selects p now (ids ++ ids') r where
  wf := h'.wf
  config := h'.config.trans h.config
  epoch := h'.epoch.trans h.epoch
  nodup := by
    apply nodup_append.mpr
    refine ⟨h.nodup, h'.nodup, ?_⟩
    intro id hid id' hid' heq
    have hspent := spent_of_isActive h.wf (h.granted id hid)
    exact (h'.spent id hspent).2 (heq ▸ hid')
  granted := by
    intro id hid
    rcases mem_append.mp hid with hid | hid
    · have hsettled := h.settled (.inl (ne_nil_of_mem hid))
      exact (h'.holds id (holds_of_settled h.wf hsettled (h.granted id hid))).isActive
    · exact h'.granted id hid
  active := by
    intro gid id hactive
    rcases h'.active gid id hactive with hactive | hid
    · rcases h.active gid id hactive with hactive | hid
      · exact .inl hactive
      · exact .inr (mem_append_left _ hid)
    · exact .inr (mem_append_right _ hid)
  orphans := h.orphans.trans h'.orphans
  spent := by
    intro id hspent
    obtain ⟨hspent, hid⟩ := h.spent id hspent
    obtain ⟨hspent, hid'⟩ := h'.spent id hspent
    refine ⟨hspent, ?_⟩
    intro hmem
    rcases mem_append.mp hmem with hmem | hmem
    · exact hid hmem
    · exact hid' hmem
  holds := fun id hholds => h'.holds id (h.holds id hholds)
  settled := by
    rintro (hne | hsettled)
    · cases ids with
      | nil => exact h'.settled (.inl hne)
      | cons id ids => exact h'.settled (.inr (h.settled (.inl (cons_ne_nil id ids))))
    · exact h'.settled (.inr (h.settled (.inr hsettled)))
  clock := fun later => h'.clock (h.clock later)

end Selects

/-! ## The loops of a selection -/

lemma selects_next {p : AdmissionPolicy} (wf : p.Wf) (gid : GroupId) (now : Nat) :
    (∃ id, (p.next gid now).1 = .ok (some id) ∧ Selects p now [id] (p.next gid now).2) ∨
      (∀ id, (p.next gid now).1 ≠ .ok (some id)) ∧ Selects p now [] (p.next gid now).2 := by
  rcases next_cases p gid now with ⟨q, id, observed, grants, result⟩ | ⟨hnone, hquiets⟩
  · rw [result]
    exact .inl ⟨id, rfl, .one wf observed grants⟩
  obtain ⟨wfq, hcalm⟩ := Quiets.wf_calm wf hquiets
  refine .inr ⟨hnone, .none wfq hcalm ?_ ?_ ?_⟩
  · intro id hholds
    show (p.step (.next gid now)).2.Holds now id
    exact step_holds wf rfl hholds
  · intro hsettled
    exact settled_next wf (le_of_eq hsettled.clock) gid
  · intro later
    exact le_of_eq (settled_next wf later gid).clock

namespace AdmissionAuthority

lemma selects_grantsOf (gid : GroupId) (now fuel : Nat) : ∀ {p : AdmissionPolicy}, p.Wf →
      Selects p now (grantsOf gid now fuel p).1.1 (grantsOf gid now fuel p).2 := by
  induction fuel with
  | zero =>
    intro p wf
    exact .refl wf
  | succ fuel ih =>
    intro p wf
    have hnext := selects_next wf gid now
    unfold grantsOf
    split
    · rename_i granted q heq
      rw [heq] at hnext
      rcases hnext with ⟨id, hid, hselects⟩ | ⟨hnone, _⟩
      · obtain rfl : granted = id := by simpa using hid
        exact hselects.trans (ih hselects.wf)
      · exact absurd rfl (hnone granted)
    · rename_i q heq
      rw [heq] at hnext
      rcases hnext with ⟨id, hid, _⟩ | ⟨_, hselects⟩
      · simp at hid
      · exact hselects
    · rename_i e q heq
      rw [heq] at hnext
      rcases hnext with ⟨id, hid, _⟩ | ⟨_, hselects⟩
      · simp at hid
      · exact hselects

lemma live_of_grant {p q : AdmissionPolicy} {gid : GroupId} {a : RequestId} {now : Nat}
    (wf : p.Wf) (observed : p.tick now = .ok q) (grants : q.Grants gid id now)
    (h : a = id ∨ ∃ r', (q.afterGrant gid id now).live[a]? = some r') :
    ∃ r, p.live[a]? = some r := by
  have hlive : ∃ r, q.live[a]? = some r := by
    obtain ⟨r₀, hr₀, -, hqueued⟩ := grants.queued
    have hgranted := live_eq_some.mpr ⟨hr₀, RequestState.not_isTerminal_of_isQueued hqueued⟩
    obtain rfl | ⟨r', hr'⟩ := h
    · exact ⟨r₀, hgranted⟩
    obtain ⟨hlookup, hterminal⟩ := live_eq_some.mp hr'
    obtain ⟨rfl, -⟩ | ⟨-, hr⟩ := afterGrant_lookup grants hlookup
    · exact ⟨r₀, hgranted⟩
    · exact ⟨r', live_eq_some.mpr ⟨hr, hterminal⟩⟩
  obtain ⟨r', hr'⟩ := hlive
  rw [(observed_tick wf observed).live a] at hr'
  obtain ⟨r, hr, -⟩ := Option.bind_eq_some_iff.mp hr'
  exact ⟨r, hr⟩

/-- A selection grants only requests that were live before it. -/
lemma grantsOf_live (gid : GroupId) (now fuel : Nat) : ∀ {p : AdmissionPolicy}, p.Wf →
      ∀ id ∈ (grantsOf gid now fuel p).1.1, ∃ r, p.live[id]? = some r := by
  induction fuel with
  | zero =>
    intro p _
    exact forall_mem_nil _
  | succ fuel ih =>
    intro p wf id hid
    obtain ⟨q, granted, observed, grants, result⟩ | ⟨hnone, -⟩ := next_cases p gid now
    · simp only [grantsOf, result, mem_cons] at hid
      refine live_of_grant wf observed grants (hid.imp_right ?_)
      exact ih (grants.wf (wf_of_tick wf observed).1) id
    · unfold grantsOf at hid
      split at hid
      · rename_i heq
        exact absurd (congrArg Prod.fst heq) (hnone _)
      all_goals exact absurd hid not_mem_nil

lemma length_grantsOf_le (gid : GroupId) (now fuel : Nat) {p : AdmissionPolicy} (wf : p.Wf) :
    (grantsOf gid now fuel p).1.1.length ≤ p.requests.size := by
  rw [← Std.ExtTreeMap.length_keys]
  refine ((selects_grantsOf gid now fuel wf).nodup.subperm ?_).length_le
  intro id hid
  obtain ⟨r, hr⟩ := grantsOf_live gid now fuel wf id hid
  exact Std.ExtTreeMap.mem_keys.mpr (OrdMap.mem_iff.mpr ⟨r, (live_eq_some.mp hr).1⟩)

lemma grantsOf_add (gid : GroupId) (now more : Nat) : ∀ {fuel : Nat} {p : AdmissionPolicy},
      (grantsOf gid now fuel p).1.1.length < fuel →
        grantsOf gid now (fuel + more) p = grantsOf gid now fuel p := by
  intro fuel
  induction fuel with
  | zero =>
    intro p h
    exact absurd h (Nat.not_lt_zero _)
  | succ fuel ih =>
    intro p h
    rw [Nat.succ_add]
    unfold grantsOf at h ⊢
    split
    · rename_i granted q heq
      simp only [heq, length_cons, Nat.add_lt_add_iff_right] at h
      rw [ih h]
    all_goals rfl

/-- The fuel of a selection is never what ends it. -/
lemma grantsOf_uncut (gid : GroupId) (now more : Nat) {p : AdmissionPolicy} (wf : p.Wf) :
    grantsOf gid now (p.requests.size + 1 + more) p = grantsOf gid now (p.requests.size + 1) p :=
  grantsOf_add gid now more (Nat.lt_succ_of_le (length_grantsOf_le gid now _ wf))

lemma selects_selectFrom (now : Nat) (groups : List GroupId) :
    ∀ {p : AdmissionPolicy} {acc : Selection × AdmissionPolicy}, Selects p now acc.1.1 acc.2 →
      Selects p now (groups.foldl (selectFrom now) acc).1.1
        (groups.foldl (selectFrom now) acc).2 := by
  induction groups with
  | nil =>
    intro p acc h
    exact h
  | cons gid groups ih =>
    intro p acc h
    exact ih (h.trans (selects_grantsOf gid now _ h.wf))

lemma selects_selectGrants {S : Type} (a : AdmissionAuthority S) (now : Nat) (wf : a.service.Wf) :
    Selects a.service now (a.selectGrants now).1.1 (a.selectGrants now).2.service :=
  selects_selectFrom now a.groups (.refl wf)

/-! ## Withdrawing what was selected -/

variable {S : Type}

lemma withdraw_settled {q : AdmissionPolicy} {now : Nat} (wf : q.Wf) (h : q.Settled now)
    (hactive : q.IsActive id) :
    q.withdraw id.scope id.sequence now = (.ok (), q.terminal id .cancelled none) := by
  obtain ⟨r, hr, hr_active⟩ := hactive
  obtain ⟨s, hs, hle⟩ := wf.scope_of_live hr (RequestState.not_isTerminal_of_isActive hr_active)
  unfold withdraw
  rw [h.enter hs]
  dsimp only
  rw [request_of_scope hs hr]
  dsimp only
  rw [if_pos hr_active]

lemma calm_withdrawGrants (now : Nat) (ids : List RequestId) (a : AdmissionAuthority S)
    (wf : a.service.Wf) : Calm a.service (withdrawGrants now ids a).2.service := by
  apply (acts_withdrawGrants now ids a).evolves.calm _ wf
  rintro op ⟨scope, sequence, rfl⟩
  rfl

lemma withdrawGrants_spec (now : Nat) (ids : List RequestId) :
    ∀ {a : AdmissionAuthority S}, a.service.Wf → a.service.Settled now → ids.Nodup →
      (∀ id ∈ ids, a.service.IsActive id) → (withdrawGrants now ids a).1 = .ok () ∧
        (∀ id ∈ ids, ¬ (withdrawGrants now ids a).2.service.IsActive id) ∧
        ∀ id, id ∉ ids → a.service.Holds now id →
          (withdrawGrants now ids a).2.service.Holds now id := by
  induction ids with
  | nil =>
    intro a _ _ _ _
    exact ⟨rfl, by simp, fun _ _ h => h⟩
  | cons id ids ih =>
    intro a wf hsettled hnodup hactive
    obtain ⟨hid, hnodup⟩ := nodup_cons.mp hnodup
    have hwithdraw := withdraw_settled wf hsettled (hactive id mem_cons_self)
    let a' : AdmissionAuthority S :=
      { a with service := a.service.terminal id .cancelled none }
    have hstep : withdrawGrants now (id :: ids) a = withdrawGrants now ids a' := by
      show andThen (a.lift (a.service.withdraw id.scope id.sequence now)) _ = _
      rw [hwithdraw]
      rfl
    have hrest : ∀ other ∈ ids, a'.service.IsActive other := by
      intro other hother
      have hne : other ≠ id := by
        rintro rfl
        exact hid hother
      have hholds := holds_of_settled wf hsettled (hactive other (mem_cons_of_mem _ hother))
      exact (hholds.terminal wf hne _ _).isActive
    obtain ⟨hok, hgone, hkept⟩ := ih (a := a') (wf.finish id _ _)
      (hsettled.terminal id _ _) hnodup hrest
    rw [hstep]
    refine ⟨hok, ?_, ?_⟩
    · intro other hother
      rcases mem_cons.mp hother with rfl | hother
      · apply (calm_withdrawGrants now ids a' (wf.finish other _ _)).notActive
        rintro ⟨r, hr, hr_active⟩
        rcases terminal_lookup hr with ⟨_, hstate, _⟩ | ⟨hne, _⟩
        · rw [hstate] at hr_active
          simp [RequestState.isActive] at hr_active
        · exact hne rfl
      · exact hgone other hother
    · intro other hother hholds
      have hne : other ≠ id := fun heq => hother (heq ▸ mem_cons_self)
      apply hkept other (fun hmem => hother (mem_cons_of_mem _ hmem))
      exact hholds.terminal wf hne _ _

end AdmissionAuthority

end Quecto.Authority
