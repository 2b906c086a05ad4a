/-
  Authority/Orphaning.lean --- a grant that was answered is durable until it ends, and an
  operator reset and the ledger it makes durable.
-/
import Quecto.Authority.Durability
import Quecto.Admission.RoundTrip

namespace Quecto.Authority

open Foundation Admission AdmissionPolicy AdmissionAuthority TurnReply List

def Turn.time : Turn → Option Nat
  | .registerRoot _ | .registerChild _ | .retire _ | .retireChild _ _ => none
  | .acquire _ _ _ now | .cancel _ _ now | .feedback _ _ _ _ now | .status _ _ now => some now
  | .observe _ now | .inspect now | .bind _ _ now | .disconnect _ now => some now
  | .dispatch now | .checkpoint now | .settle _ now | .complete _ _ _ now | .advance now =>
      some now

variable {S : Type}

inductive EndedBy (id : RequestId) (a : AdmissionAuthority S) (turn : Turn) (reply : TurnReply) :
    Prop
  | completed (credential : Credential) (feedback : Feedback) (now : Nat) (issued : Issued)
      (input : turn = .complete credential id.sequence feedback now)
      (owner : credential.scope = id.scope)
      (authentic : a.issued[id.scope]? = some issued ∧ issued.token = credential.token)
      (output : (∃ state, reply = .completed (.ok state)) ∨
        reply = .completed (.error .journalUnavailable))
  | cleared (now : Nat) (time : turn.time = some now) (lease : a.service.LeaseEnds now id)
  | reset (now epoch : Nat) (input : turn = .advance now) (output : reply = .advanced (.ok epoch))

namespace Broker

/-! ## One turn -/

variable {b : Broker S} {turn : Turn} {id : RequestId} {now : Nat}

lemma endedBy_of_spares [AdmissionSecretSource S] (hb : Durable b)
    (hactive : b.authority.service.IsActive id)
    (hended : ¬ (b.turn turn).2.authority.service.IsActive id) (htime : turn.time = some now)
    (hspares : ∀ op, turn.issues op → op.Spares now id) :
    EndedBy id b.authority turn (b.turn turn).1 := by
  rcases hactive.holds_or_leaseEnds now with hholds | hlease
  · exact absurd ((b.turn_refines turn).holds hspares hb.reachable.wf hholds).isActive hended
  · exact .cleared now htime hlease

lemma isActive_of_timeless [AdmissionSecretSource S] (hb : Durable b)
    (hactive : b.authority.service.IsActive id) (hspares : ∀ op, turn.issues op → op.Spares 0 id) :
    (b.turn turn).2.authority.service.IsActive id :=
  ((b.turn_refines turn).holds hspares hb.reachable.wf (.of_isActive hactive)).isActive

lemma disconnect_service (a : AdmissionAuthority S) (scope : ScopeId) (now : Nat) :
    (a.disconnect scope now).2.service = (a.service.abandon scope now).2 := by
  unfold AdmissionAuthority.disconnect AdmissionAuthority.lift
  generalize a.service.abandon scope now = answer
  obtain ⟨result, p⟩ := answer
  cases result with
  | error e => rfl
  | ok report =>
    show (if 0 < report.active then _ else _ : AdmissionAuthority S).service = p
    split <;> rfl

lemma isActive_disconnect (wf : b.authority.service.Wf) (h : b.authority.service.Holds now id)
    (scope : ScopeId) : (b.disconnect scope now).2.authority.service.IsActive id := by
  have hleft : (b.authority.disconnect scope now).2.service.IsActive id := by
    rw [disconnect_service]
    exact isActive_abandon wf h scope
  refine disconnect_leaves (P := fun b' => b'.authority.service.IsActive id) hleft ?_
  have hwf := (b.authority.acts_disconnect scope now).evolves.wf wf
  -- a scope with active work is not released, whatever its leases are
  refine Holds.isActive ((moves_release _ scope).evolves.holds ?_ hwf
    (.of_isActive hleft))
  rintro op rfl
  trivial

lemma isActive_bind (wf : b.authority.service.Wf) (h : b.authority.service.Holds now id)
    (credential : Credential) (supersedes : Bool) :
    (b.bind credential supersedes now).2.authority.service.IsActive id := by
  let P : Broker S → Prop := fun b' => b'.authority.service.IsActive id
  have hleft : P (b.on (b.authority.disconnect credential.scope now)).2 := by
    show (b.authority.disconnect credential.scope now).2.service.IsActive id
    rw [disconnect_service]
    exact isActive_abandon wf h credential.scope
  unfold bind
  split
  · exact h.isActive
  split
  · refine andThen_leaves (P := P) hleft ?_
    intro _ _
    exact hleft
  · exact h.isActive

lemma isActive_settle (hb : Durable b) (h : b.authority.service.Holds now id)
    (waiting : List RequestId) : (b.settle waiting now).2.authority.service.IsActive id := by
  have hdispatched := dispatched_dispatch hb now
  have hreport := (moves_report (b.dispatch now).2.authority
    (dispatchFailure (b.dispatch now).1) waiting now).evolves
  refine Holds.isActive (hreport.holds ?_ hdispatched.durable.reachable.wf
    (hdispatched.holds id h))
  rintro op (hread | ⟨scope, rfl⟩)
  · exact Operation.spares_of_read hread id
  · trivial

lemma completed_of_holds (hb : Durable b) {credential : Credential}
    (howner : credential.scope = id.scope) (feedback : Feedback)
    (h : b.authority.service.Holds now id)
    (hended : ¬ (b.complete credential id.sequence feedback now).2.authority.service.IsActive id) :
    (∃ issued, b.authority.issued[id.scope]? = some issued ∧ issued.token = credential.token) ∧
      ((∃ state, (b.complete credential id.sequence feedback now).1 = .ok state) ∨
        (b.complete credential id.sequence feedback now).1 = .error .journalUnavailable) := by
  have wf := hb.reachable.wf
  have hanswer := complete_of_holds wf h feedback
  have hclock : ∀ state, (b.authority.service.complete id.scope id.sequence feedback now).1 =
      .ok state → _ := fun _ => complete_clock wf
  have hauthentic : b.authority.authenticate credential = .ok () ↔ _ :=
    authenticate_ok_iff
  unfold complete completeUnpersisted guarded at hended ⊢
  rw [howner] at hended hauthentic ⊢
  generalize b.authority.service.complete id.scope id.sequence feedback now = answer
    at hanswer hclock hended ⊢
  obtain ⟨result, q⟩ := answer
  split
  · rename_i e hauth
    rw [hauth] at hended
    exact absurd h.isActive hended
  rename_i hauth
  rw [hauth] at hended
  refine ⟨hauthentic.mp hauth, ?_⟩
  cases result with
  | error e =>
    rcases hanswer with hok | rfl
    · simp at hok
    · exact absurd h.isActive hended
  | ok state =>
    let c : Broker S := { b with authority := { b.authority with service := q } }
    show (∃ state', (andThen (c.persistCurrent now) fun _ b => (.ok state, b)).1 = .ok state') ∨
      (andThen (c.persistCurrent now) fun _ b => (.ok state, b)).1 = .error .journalUnavailable
    rcases c.persistCurrent_cases now with
      ⟨e, htick, _⟩ | ⟨_, _, _, ⟨_, heq⟩ | ⟨_, heq⟩⟩
    · rw [tick_ok_iff.mpr ⟨le_of_eq (hclock state rfl), rfl⟩] at htick
      simp at htick
    · rw [heq]
      exact .inl ⟨state, rfl⟩
    · rw [heq]
      exact .inr rfl

lemma isActive_advance (hb : Durable b) (h : b.authority.service.Holds now id)
    (hended : ¬ (b.advance now).2.authority.service.IsActive id) :
    ∃ epoch, (b.advance now).1 = .ok epoch := by
  have wf := hb.reachable.wf
  rcases advance_cases wf now with
    ⟨e, q, hq, heq⟩ | ⟨q, journal, htick, ⟨_, heq⟩ | ⟨_, heq⟩⟩
  · rw [heq] at hended
    rcases hq with rfl | htick
    · exact absurd h.isActive hended
    · exact absurd (h.tick wf htick).isActive hended
  · rw [heq] at hended
    exact absurd (h.tick wf htick).isActive hended
  · rw [heq]
    exact ⟨_, rfl⟩

lemma endedBy_turn [AdmissionSecretSource S] (hb : Durable b) (turn : Turn)
    (hactive : b.authority.service.IsActive id)
    (hended : ¬ (b.turn turn).2.authority.service.IsActive id) :
    EndedBy id b.authority turn (b.turn turn).1 := by
  have wf := hb.reachable.wf
  have hcleared : ∀ now, turn.time = some now →
      (b.authority.service.Holds now id → EndedBy id b.authority turn (b.turn turn).1) →
      EndedBy id b.authority turn (b.turn turn).1 := by
    intro now htime hholds
    rcases hactive.holds_or_leaseEnds now with h | hlease
    · exact hholds h
    · exact .cleared now htime hlease
  cases turn with
  | registerRoot workload | registerChild parent | retire credential | retireChild parent child =>
    refine absurd (isActive_of_timeless hb hactive ?_) hended
    rintro op rfl
    trivial
  | acquire credential sequence name now | cancel credential sequence now
  | feedback credential sequence report feedback now =>
    refine endedBy_of_spares hb hactive hended rfl ?_
    rintro op rfl
    rfl
  | status credential sequence now | observe request now | inspect now | checkpoint now =>
    exact endedBy_of_spares hb hactive hended rfl fun _ h => Operation.spares_of_read h id
  | bind credential supersedes now =>
    apply hcleared now rfl
    intro h
    exact absurd (isActive_bind wf h credential supersedes) hended
  | disconnect scope now =>
    apply hcleared now rfl
    intro h
    exact absurd (isActive_disconnect wf h scope) hended
  | dispatch now =>
    apply hcleared now rfl
    intro h
    exact absurd ((dispatched_dispatch hb now).holds id h).isActive hended
  | settle waiting now =>
    apply hcleared now rfl
    intro h
    exact absurd (isActive_settle hb h waiting) hended
  | complete credential sequence feedback now =>
    apply hcleared now rfl
    intro h
    by_cases hid : id = ⟨credential.scope, sequence⟩
    · subst hid
      obtain ⟨⟨issued, hissued⟩, houtput⟩ := completed_of_holds hb rfl feedback h hended
      refine .completed credential feedback now issued rfl rfl hissued ?_
      rcases houtput with ⟨state, hok⟩ | herror
      · exact .inl ⟨state, congrArg completed hok⟩
      · exact .inr (congrArg completed herror)
    · refine absurd (Holds.isActive ((b.serves_complete credential sequence feedback
        now).evolves.holds ?_ wf h)) hended
      rintro op (rfl | hread)
      · exact ⟨rfl, hid⟩
      · exact Operation.spares_of_read hread id
  | advance now =>
    apply hcleared now rfl
    intro h
    obtain ⟨epoch, hok⟩ := isActive_advance hb h hended
    exact .reset now epoch rfl (congrArg advanced hok)

end Broker

open Broker

/-! ## Runs -/

abbrev SystemMoment (S : Type) : Type := Moment (System S) (Event S) TurnReply

def EndsAt (id : RequestId) (m : SystemMoment S) : Prop :=
  ∃ b turn b', m.before = System.running b ∧ m.input = .turn turn ∧ m.after = System.running b' ∧
    b.authority.service.IsActive id ∧ ¬ b'.authority.service.IsActive id ∧
    EndedBy id b.authority turn m.output

lemma endsAt_or_active [AdmissionSecretSource S] (later : List Turn) :
    ∀ {b : Broker S} {id : RequestId}, b.Durable → b.authority.service.IsActive id →
      (∃ m ∈ moments System.step (System.running b) (later.map Event.turn), EndsAt id m) ∨
        ∃ b', exec System.step (System.running b) (later.map Event.turn) = System.running b' ∧
          b'.Durable ∧ b'.authority.service.IsActive id := by
  induction later with
  | nil =>
    intro b id hb hactive
    exact .inr ⟨b, rfl, hb, hactive⟩
  | cons turn later ih =>
    intro b id hb hactive
    by_cases hafter : (b.turn turn).2.authority.service.IsActive id
    · rcases ih (durable_turn turn hb) hafter with ⟨m, hm, hends⟩ | hactive
      · exact .inl ⟨m, mem_cons_of_mem _ hm, hends⟩
      · exact .inr hactive
    refine .inl ⟨_, mem_cons_self, b, turn, (b.turn turn).2, rfl, rfl, rfl, hactive, hafter, ?_⟩
    exact endedBy_turn hb turn hactive hafter

/-! ## What the ledger names is restored -/

def Orphans (ledger : AdmissionLedger) (gid : GroupId) (id : RequestId) : Prop :=
  ∀ config now restored, AdmissionPolicy.restore config ledger now = .ok restored →
    ∃ g o, restored.groups[gid]? = some g ∧ o ∈ g.orphans ∧ o.attempt.name = id.attemptIn gid

def Restorable (config : AdmissionConfig) (ledger : AdmissionLedger) : Prop :=
  ∀ now, (∀ (gid : GroupId) (durable : LedgerGroup), ledger.groups[gid]? = some durable →
      now + durable.cooldownRemainingMs ≤ u64Max ∧ now + durable.pacingRemainingMs ≤ u64Max) →
    ∃ restored, AdmissionPolicy.restore config ledger now = .ok restored

variable {ledger : AdmissionLedger} {id : RequestId}

lemma orphans_of_mem {gid : GroupId} (h : id.attemptIn gid ∈ ledger.attempts) :
    Orphans ledger gid id := by
  intro config now restored hrestore
  have hrestored := restored_of_restore hrestore
  obtain ⟨o, ho, hname⟩ := mem_map.mp h
  have hgroup : o.group = gid := congrArg AttemptName.group hname
  have hknown : gid ∈ restored.groups := by
    rw [hrestored.wf.groups, hrestored.configured, ← hgroup]
    exact hrestored.held o ho
  obtain ⟨g, hg⟩ := OrdMap.mem_iff.mp hknown
  refine ⟨g, orphanOf ((config.groups[gid]?).getD default) now o, hg, ?_, hname⟩
  rw [hrestored.orphans gid g hg]
  apply mem_map_of_mem
  exact mem_filter.mpr ⟨ho, beq_iff_eq.mpr hgroup⟩

lemma Carries.restorable {a : AdmissionAuthority S} (h : Carries ledger a) (wf : a.service.Wf) :
    Restorable a.service.config ledger := by
  intro now hfits
  apply restore_ok wf.valid _ h.held
  intro gid durable hdurable
  exact ⟨h.timed gid (OrdMap.mem_iff.mpr ⟨durable, hdurable⟩), hfits gid durable hdurable⟩

lemma Broker.Durable.orphaned {b : Broker S} (hb : b.Durable)
    (hactive : b.authority.service.IsActive id) :
    ∃ gid ledger, b.journal.stored = .ok (some ledger) ∧ Orphans ledger gid id ∧
      Restorable b.authority.service.config ledger := by
  obtain ⟨ledger, hledger, hcarries⟩ := hb.carried
  obtain ⟨r, hr, hr_active⟩ := hactive
  have hmem : id.attemptIn r.group ∈ b.authority.service.attempts :=
    mem_append_left _ (mem_activeAttempts.mpr ⟨r.group, id, ⟨r, hr, rfl, hr_active⟩, rfl⟩)
  exact ⟨r.group, ledger, hledger, orphans_of_mem (hcarries.covers.subset hmem),
    hcarries.restorable hb.reachable.wf⟩

/-! ## The durability of grants -/

def Turn.executed : Turn → TurnReply → Bool
  | .dispatch _, .dispatched (.ok _) => true
  | .complete _ _ _ _, .completed (.ok _) => true
  | .advance _, .advanced (.ok _) => true
  | _, _ => false

namespace System

def held (s : System S) : Option (Nat × Multiset AttemptName) :=
  s.authority.map fun a => (a.service.epoch, ↑a.service.attempts)

def recorded (s : System S) : Option (Nat × Multiset AttemptName) :=
  match s.journal.stored with
  | .ok (some ledger) => some (ledger.epoch, ↑ledger.attempts)
  | _ => none

def Balanced (s : System S) : Prop := ∃ account, s.held = some account ∧ s.recorded = some account

variable {b : Broker S}

lemma covered_of_durable (hb : b.Durable) :
    ∃ epoch attempts names, (running b).held = some (epoch, attempts) ∧
      (running b).recorded = some (epoch, names) ∧ attempts ≤ names := by
  obtain ⟨ledger, hledger, hcarries⟩ := hb.carried
  refine ⟨ledger.epoch, ↑b.authority.service.attempts, ↑ledger.attempts, ?_, ?_, ?_⟩
  · rw [hcarries.epoch]
    rfl
  · unfold recorded running
    rw [hledger]
  · exact Multiset.coe_le.mpr hcarries.covers.subperm

lemma balanced_of_exact (hb : b.Durable) (hexact : b.Exact) : (running b).Balanced := by
  obtain ⟨ledger, hledger, hcarries⟩ := hb.carried
  obtain ⟨ledger', hledger', heq⟩ := hexact
  have hsame : ledger = ledger' := by
    rw [hledger] at hledger'
    exact Option.some.inj (Except.ok.inj hledger')
  subst hsame
  refine ⟨(ledger.epoch, ↑ledger.attempts), ?_, ?_⟩
  · rw [hcarries.epoch, ← heq]
    rfl
  · unfold recorded running
    rw [hledger]

lemma balanced_of_executed [AdmissionSecretSource S] (hb : b.Durable) {turn : Turn}
    (h : turn.executed (b.turn turn).1 = true) : (running (b.turn turn).2).Balanced := by
  apply balanced_of_exact (durable_turn turn hb)
  cases turn with
  | dispatch now =>
    have hexact := (dispatched_dispatch hb now).exact
    have hreply : Turn.executed (.dispatch now) (.dispatched (b.dispatch now).1) = true := h
    cases hresult : (b.dispatch now).1 with
    | error e => simp [hresult, Turn.executed] at hreply
    | ok ids => exact hexact ids hresult
  | complete credential sequence feedback now =>
    have hexact := (durable_complete hb credential sequence feedback now).2
    have hreply : Turn.executed (.complete credential sequence feedback now)
      (.completed (b.complete credential sequence feedback now).1) = true := h
    cases hresult : (b.complete credential sequence feedback now).1 with
    | error e => simp [hresult, Turn.executed] at hreply
    | ok state => exact hexact state hresult
  | advance now =>
    have hexact := (durable_advance hb now).2
    have hreply : Turn.executed (.advance now) (.advanced (b.advance now).1) = true := h
    cases hresult : (b.advance now).1 with
    | error e => simp [hresult, Turn.executed] at hreply
    | ok epoch => exact hexact epoch hresult
  | _ => simp [Turn.executed] at h

/-- Durability of grants.  Between turns the stored ledger names, with
multiplicity, every attempt a running authority holds.  So a grant that a dispatch
answered with ends at some later turn, or the stored ledger turns it into an
orphan.  And a dispatch, a completion or a reset that succeeds, or a dispatch in
time that ends with a healthy journal, leaves the two the same. -/
theorem grants_are_durable [AdmissionSecretSource S] {s : System S} (reached : s.Reachable)
    {a : AdmissionAuthority S} (runs : s.authority = some a) :
    (∃ epoch attempts names, s.held = some (epoch, attempts) ∧
      s.recorded = some (epoch, names) ∧ attempts ≤ names) ∧ (∀ (now : Nat) (ids : List RequestId),
      (s.step (.turn (.dispatch now))).1 = .dispatched (.ok ids) → ∀ id ∈ ids, ∀ later : List Turn,
        (∃ m ∈ moments step (s.step (.turn (.dispatch now))).2 (later.map Event.turn),
          EndsAt id m) ∨ ∃ b gid ledger,
          exec step (s.step (.turn (.dispatch now))).2 (later.map Event.turn) = running b ∧
          b.journal.stored = .ok (some ledger) ∧ Orphans ledger gid id ∧
          Restorable b.authority.service.config ledger) ∧
    (∀ turn : Turn, turn.executed (s.step (.turn turn)).1 = true →
      (s.step (.turn turn)).2.Balanced) ∧ (∀ now : Nat, a.service.now ≤ now →
      (s.step (.turn (.dispatch now))).2.authority.map (·.journalHealthy) = some true →
      (s.step (.turn (.dispatch now))).2.Balanced) := by
  obtain ⟨journal, authority⟩ := s
  obtain rfl : authority = some a := runs
  have hb : Durable ⟨a, journal⟩ := reached.durable rfl
  refine ⟨covered_of_durable hb, ?_, ?_, ?_⟩
  · intro now ids hreply id hid later
    have hactive := (dispatched_dispatch hb now).granted ids
      (dispatched.inj hreply) id hid
    rcases endsAt_or_active later (durable_turn (.dispatch now) hb) hactive with
      hends | ⟨b, hexec, hdurable, hactive⟩
    · exact .inl hends
    · obtain ⟨gid, ledger, hledger, horphans, hrestorable⟩ := hdurable.orphaned hactive
      exact .inr ⟨b, gid, ledger, hexec, hledger, horphans, hrestorable⟩
  · intro turn hexecuted
    exact balanced_of_executed hb hexecuted
  · intro now later hhealthy
    have hdispatched := dispatched_dispatch hb now
    exact balanced_of_exact hdispatched.durable
      (hdispatched.healthy later (Option.some.inj hhealthy))

/-- The sample system is about to grant; its grant is made durable. -/
theorem grants_are_durable_sample :
    sampleSystem.Reachable ∧ sampleSystem.authority = some sampleAuthority ∧
      (sampleSystem.step (.turn (.dispatch 6))).1 = .dispatched (.ok [⟨sampleScope, 1⟩]) ∧
      ∃ b gid ledger, (sampleSystem.step (.turn (.dispatch 6))).2 = running b ∧
        b.journal.stored = .ok (some ledger) ∧ Orphans ledger gid ⟨sampleScope, 1⟩ ∧
        Restorable b.authority.service.config ledger := by
  have hreply : (sampleSystem.step (.turn (.dispatch 6))).1 =
      .dispatched (.ok [⟨sampleScope, 1⟩]) :=
    grants_eq_some.mp (by decide +kernel)
  refine ⟨sampleSystem_reachable, sampleSystem_runs, hreply, ?_⟩
  have hdurable := (grants_are_durable sampleSystem_reachable sampleSystem_runs).2.1 6 _ hreply
    ⟨sampleScope, 1⟩ mem_cons_self []
  rcases hdurable with ⟨m, hm, _⟩ | hlasts
  · simp at hm
  · exact hlasts

/-- A completion that is refused still observes the time, and so clears a lease
that ran out: the journal is healthy, nothing is held, and the stored ledger names
an attempt.  So does a dispatch whose clock has run backwards since. -/
theorem execute_leaves_unbalanced :
    let owner : Credential := ⟨sampleScope, "secret-0"⟩
    let lost := exec step sampleSystem [.turn (.dispatch 6), .turn (.disconnect sampleScope 7)]
    let refused := (lost.step (.turn (.complete owner 2 .success 70000))).2
    let backwards := (refused.step (.turn (.dispatch 6))).2
    refused.authority.map (·.journalHealthy) = some true ∧
      refused.held = some (1, 0) ∧ refused.recorded = some (1, {⟨sampleGroup, 1, 1⟩}) ∧
      backwards.authority.map (·.journalHealthy) = some true ∧
      backwards.held = some (1, 0) ∧ backwards.recorded = some (1, {⟨sampleGroup, 1, 1⟩}) := by
  decide +kernel

end System

end Quecto.Authority

namespace Quecto.Admission

open Foundation

namespace AdmissionPolicy

/-! ## The successor ledger and the policy a reset leaves -/

variable {q p : AdmissionPolicy} {now : Nat}

lemma Settled.relinquish (h : q.Settled now) (epoch : Nat) : (q.relinquish epoch).Settled now where
  clock := h.clock
  leases := by
    apply List.eq_nil_iff_forall_not_mem.mpr
    intro a ha
    obtain ⟨gid, g, since, hg, hs, _⟩ := mem_elapsedLeases.mp ha
    rw [relinquish_lookup] at hg
    obtain ⟨g₀, _, rfl⟩ := Option.map_eq_some_iff.mp hg
    simp [Group.relinquished] at hs
  orphans := by
    intro gid g hg o ho
    rw [relinquish_orphans hg] at ho
    simp at ho
  requests := by
    intro id r hr
    simp [AdmissionPolicy.relinquish] at hr

lemma Settled.ledger (h : q.Settled now) : (q.ledger now).1 = .ok (q.accounts now) := by
  unfold AdmissionPolicy.ledger
  rw [h.tick]

lemma outstanding_eq_nil_iff : (p.accounts now).outstanding = [] ↔ p.attempts = [] := by
  rw [← accounts_attempts p now, AdmissionLedger.attempts, List.map_eq_nil_iff]

def successor (q : AdmissionPolicy) (now : Nat) : AdmissionLedger :=
  { q.accounts now with epoch := q.epoch + 1, outstanding := [] }

lemma ledgerGroup_relinquished_iff {g : Group} :
    ledgerGroup now g = ledgerGroup now g.relinquished ↔ g.unavailable = false := by
  simp [ledgerGroup, Group.relinquished]

lemma successor_groups_iff :
    (q.successor now).groups = ((q.relinquish (q.epoch + 1)).accounts now).groups ↔
      ∀ (gid : GroupId) (g : Group), q.groups[gid]? = some g → g.unavailable = false := by
  have hlookup : ∀ (p : AdmissionPolicy) (gid : GroupId),
      (p.groups.map fun _ g => ledgerGroup now g)[gid]? = p.groups[gid]?.map (ledgerGroup now) :=
    fun p gid => Std.ExtTreeMap.getElem?_map
  constructor
  · intro h gid g hg
    have hsame := congrArg (fun m : OrdMap GroupId LedgerGroup => m[gid]?) h
    dsimp only [successor, accounts] at hsame
    rw [hlookup, hlookup, relinquish_lookup, hg] at hsame
    exact ledgerGroup_relinquished_iff.mp (Option.some.inj hsame)
  · intro h
    apply Std.ExtTreeMap.ext_getElem?
    intro gid
    dsimp only [successor, accounts]
    rw [hlookup, hlookup, relinquish_lookup]
    cases hg : q.groups[gid]? with
    | none => rfl
    | some g => exact congrArg some (ledgerGroup_relinquished_iff.mpr (h gid g hg))

lemma successor_eq_iff : q.successor now = (q.relinquish (q.epoch + 1)).accounts now ↔
      ∀ (gid : GroupId) (g : Group), q.groups[gid]? = some g → g.unavailable = false := by
  rw [← successor_groups_iff]
  have hidle : ((q.relinquish (q.epoch + 1)).accounts now).outstanding = [] :=
    outstanding_eq_nil_iff.mpr (relinquish_attempts q _)
  constructor
  · exact fun h => congrArg AdmissionLedger.groups h
  intro h
  calc q.successor now
      = ⟨q.epoch + 1, [], (q.successor now).groups⟩ := rfl
    _ = ⟨q.epoch + 1, ((q.relinquish (q.epoch + 1)).accounts now).outstanding,
          ((q.relinquish (q.epoch + 1)).accounts now).groups⟩ := by rw [h, hidle]
    _ = (q.relinquish (q.epoch + 1)).accounts now := rfl

lemma unavailable_of_tick (wf : p.Wf) (h : p.tick now = .ok q) :
    (∀ (gid : GroupId) (g : Group), q.groups[gid]? = some g → g.unavailable = false) ↔
      ∀ (gid : GroupId) (g : Group), p.groups[gid]? = some g → g.unavailable = false := by
  have hgroups := (observed_tick wf h).groups
  constructor
  · intro hq gid g hg
    exact hq gid (p.observedGroup now g) (by rw [hgroups, hg]; rfl)
  intro hp gid g hg
  rw [hgroups] at hg
  obtain ⟨g₀, hg₀, rfl⟩ := Option.map_eq_some_iff.mp hg
  exact hp gid g₀ hg₀

/-! ## Restoring a ledger that names no attempt -/

section

variable {config : AdmissionConfig} {ledger : AdmissionLedger} {now : Nat} {p : AdmissionPolicy}

variable (h : p.Restored config ledger now) (hidle : ledger.outstanding = [])
include h hidle

lemma Restored.settled : p.Settled now := by
  refine h.settled_of_ahead ?_
  intro gid g hg o ho
  rw [h.orphans gid g hg, hidle] at ho
  simp [orphansIn] at ho

lemma Restored.accounts (hall : ∀ gid : GroupId, gid ∈ config.groups → gid ∈ ledger.groups) :
    p.accounts now = ledger := by
  have hattempts : p.attempts = [] := by
    have hperm := h.attempts_perm
    rw [AdmissionLedger.attempts, hidle] at hperm
    exact hperm.eq_nil
  calc p.accounts now
      = ⟨p.epoch, (p.accounts now).outstanding, (p.accounts now).groups⟩ := rfl
    _ = ⟨ledger.epoch, ledger.outstanding, ledger.groups⟩ := by
        rw [h.epoch, outstanding_eq_nil_iff.mpr hattempts, hidle, h.accounts_groups hall]

end

end AdmissionPolicy

end Quecto.Admission

namespace Quecto.Authority

open Foundation Admission AdmissionPolicy

variable {S : Type}

lemma AdmissionAuthority.ledger_of_settled {a : AdmissionAuthority S} {now : Nat}
    (h : a.service.Settled now) : (a.ledger now).1 = .ok (a.service.accounts now) := by
  unfold AdmissionAuthority.ledger AdmissionAuthority.lift
  rw [h.ledger]
  rfl

lemma Broker.persistCurrent_of_settled {b : Broker S} {now : Nat}
    (h : b.authority.service.Settled now) (hwrite : b.journal.outcomes b.journal.writes = .ok ()) :
    ∃ a journal, b.persistCurrent now = (.ok (), ⟨a, journal⟩) ∧
      a.service = b.authority.service := by
  unfold persistCurrent AdmissionAuthority.ledger AdmissionPolicy.ledger
  rw [h.tick]
  unfold AdmissionAuthority.lift on persist Journal.persist
  dsimp only [Except.mapError, andThen_ok]
  rw [hwrite]
  exact ⟨_, _, rfl, rfl⟩

namespace System

variable [AdmissionSecretSource S]

/-- Every restart under `config` whose first write succeeds, and at which the
remaining times of `ledger` still fit, runs an authority that accounts for it. -/
def Resumes (s : System S) (config : AdmissionConfig) (ledger : AdmissionLedger) : Prop :=
  ∀ (start : AuthorityStart) (secrets : S) (time : Nat), start.policy = config →
    s.journal.outcomes s.journal.writes = .ok () →
    (∀ (gid : GroupId) (durable : LedgerGroup), ledger.groups[gid]? = some durable →
      time + durable.cooldownRemainingMs ≤ u64Max ∧ time + durable.pacingRemainingMs ≤ u64Max) →
    ∃ journal a, s.step (.start start secrets time) = (.started (.ok ()), ⟨journal, some a⟩) ∧
      (a.ledger time).1 = .ok ledger

lemma resumes_of_stored {s : System S} {config : AdmissionConfig} {ledger : AdmissionLedger}
    (hvalid : config.validate = .ok ()) (hstored : s.journal.stored = .ok (some ledger))
    (hidle : ledger.outstanding = [])
    (hgroups : ∀ gid : GroupId, gid ∈ ledger.groups ↔ gid ∈ config.groups) :
    s.Resumes config ledger := by
  intro start secrets time hconfig hwrite hfits
  obtain ⟨service, hrestore⟩ := restore_ok hvalid
    (fun gid durable hd => ⟨(hgroups gid).mp (OrdMap.mem_iff.mpr ⟨durable, hd⟩),
      hfits gid durable hd⟩)
    (by rw [hidle]; simp)
  have hrestored := restored_of_restore hrestore
  have hsettled := hrestored.settled hidle
  let a₀ := AdmissionAuthority.compose service secrets config.groups.keys
  have hstarting : startingAuthority s.journal.stored start secrets time = .ok a₀ := by
    unfold startingAuthority AdmissionAuthority.restore
    rw [hstored, hconfig]
    dsimp only
    rw [hrestore]
    rfl
  obtain ⟨a, journal, hpersist, hservice⟩ :=
    Broker.persistCurrent_of_settled (b := ⟨a₀, s.journal⟩) hsettled hwrite
  refine ⟨journal, a, ?_, ?_⟩
  · unfold step restoreAuthority
    dsimp only
    rw [hstarting]
    dsimp only
    rw [hpersist]
    rfl
  · have hsame : a.service = service := hservice
    rw [← hsame] at hsettled hrestored
    rw [AdmissionAuthority.ledger_of_settled hsettled,
      hrestored.accounts hidle fun gid hgid => (hgroups gid).mpr hgid]

/-- For every reachable authority, a reset that succeeds makes durable the ledger
that every restart resumes, and it is the ledger of the authority the reset left
exactly when no group was unavailable before it. -/
theorem reset_agrees_iff {s s' : System S} (reached : s.Reachable) {a : AdmissionAuthority S}
    (runs : s.authority = some a) {now epoch : Nat}
    (resets : s.step (.turn (.advance now)) = (.advanced (.ok epoch), s')) :
    ∃ a' durable current, s'.authority = some a' ∧
      s'.journal.stored = .ok (some durable) ∧ (a'.ledger now).1 = .ok current ∧
      s'.Resumes a.service.config durable ∧
      (durable = current ↔ ∀ (gid : GroupId) (g : Group), a.service.groups[gid]? = some g →
          g.unavailable = false) := by
  have wf : a.service.Wf := (reached.service runs).wf
  unfold step at resets
  rw [runs] at resets
  dsimp only [Broker.turn] at resets
  rcases Broker.advance_cases (b := ⟨a, s.journal⟩) wf now with
    ⟨e, q, _, heq⟩ | ⟨q, journal, htick, ⟨_, heq⟩ | ⟨hstored, heq⟩⟩
  · rw [heq] at resets
    simp [Prod.map] at resets
  · rw [heq] at resets
    simp [Prod.map] at resets
  rw [heq] at resets
  obtain ⟨_, hs'⟩ := Prod.mk.inj resets
  have wfq := (wf_of_tick wf htick).1
  have hconfig := (wf_of_tick wf htick).2.config
  have hsettled := (settled_of_tick wf htick).relinquish (q.epoch + 1)
  rw [← hs']
  refine ⟨_, q.successor now, _, rfl, hstored, AdmissionAuthority.ledger_of_settled hsettled,
    ?_, ?_⟩
  · apply resumes_of_stored wf.valid hstored rfl
    intro gid
    have hkeys : gid ∈ (q.successor now).groups ↔ gid ∈ q.groups := Std.ExtTreeMap.mem_map
    rw [hkeys, wfq.groups gid, hconfig]
  · rw [← unavailable_of_tick wf htick]
    exact successor_eq_iff

theorem reset_agrees_sample :
    ∃ a' durable, (sampleSystem.step (.turn (.advance 8))).2.authority = some a' ∧
      (sampleSystem.step (.turn (.advance 8))).2.journal.stored = .ok (some durable) ∧
      (a'.ledger 8).1 = .ok durable := by
  have hreply := TurnReply.epoch_eq_some.mp
    (show (sampleSystem.step (.turn (.advance 8))).1.epoch = some 2 by decide +kernel)
  obtain ⟨a', durable, current, hauthority, hstored, hcurrent, _, hiff⟩ :=
    reset_agrees_iff sampleSystem_reachable sampleSystem_runs (Prod.ext hreply rfl)
  have hopen : ∀ e ∈ sampleAuthority.service.groups.toList, e.2.unavailable = false := by
    decide +kernel
  have hagree := hiff.mpr fun gid g hg => hopen (gid, g) (OrdMap.mem_toList_iff.mpr hg)
  rw [← hagree] at hcurrent
  exact ⟨a', durable, hauthority, hstored, hcurrent⟩

def exhaustedSystem : System SampleSecrets :=
  exec System.step sampleSystem
    [.turn (.dispatch 6), .turn (.feedback ⟨sampleScope, "secret-0"⟩ 1 1 (.until 1000) 7)]

def resetSystem : System SampleSecrets := (exhaustedSystem.step (.turn (.advance 8))).2

def sampleUnavailable (ledger : AdmissionLedger) : Option Bool :=
  (ledger.groups[sampleGroup]?).map (·.unavailable)

/-- The reset succeeds and the running authority is available again, but the
ledger it made durable still says otherwise, and so does the authority a restart
runs. -/
theorem reset_leaves_unavailable : exhaustedSystem.Reachable ∧
      (exhaustedSystem.step (.turn (.advance 8))).1.epoch = some 2 ∧
      resetSystem.journal.stored.toOption.join.bind sampleUnavailable = some true ∧
      (resetSystem.authority.bind fun a => (a.ledger 8).1.toOption.bind sampleUnavailable) =
        some false ∧ ((resetSystem.step (.start ⟨sampleConfig, true, false⟩ ⟨0⟩ 8)).2.authority.bind
        fun a => (a.ledger 8).1.toOption.bind sampleUnavailable) = some true := by
  refine ⟨sampleSystem_reachable.exec _, ?_⟩
  decide +kernel

end System

end Quecto.Authority
