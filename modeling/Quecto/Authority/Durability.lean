/-
  Authority/Durability.lean --- what the authority holds is in the durable ledger.
-/
import Quecto.Authority.Refinement

namespace Quecto.Authority

open Foundation Admission AdmissionPolicy AdmissionPolicy

variable {S : Type}

/-! ## The invariant -/

structure Carries (ledger : AdmissionLedger) (a : AdmissionAuthority S) : Prop where
  epoch : ledger.epoch = a.service.epoch
  count : a.durableOutstanding = ledger.outstanding.length
  covers : a.service.attempts.Sublist ledger.attempts
  timed : ∀ gid : GroupId, gid ∈ ledger.groups → gid ∈ a.service.config.groups
  held : ∀ o ∈ ledger.outstanding, o.group ∈ a.service.config.groups

namespace Broker

structure Durable (b : Broker S) : Prop where
  reachable : b.authority.service.Reachable
  carried : ∃ ledger, b.journal.stored = .ok (some ledger) ∧ Carries ledger b.authority

def Exact (b : Broker S) : Prop :=
  ∃ ledger, b.journal.stored = .ok (some ledger) ∧ b.authority.service.attempts = ledger.attempts

end Broker

open Broker

lemma Carries.exact {ledger : AdmissionLedger} {a : AdmissionAuthority S} (h : Carries ledger a)
    (now : Nat) (hcount : ¬ (a.service.accounts now).outstanding.length < a.durableOutstanding) :
    a.service.attempts = ledger.attempts := by
  apply h.covers.eq_of_length_le
  rw [← accounts_attempts a.service now]
  simp only [AdmissionLedger.attempts, List.length_map]
  rw [← h.count]
  exact Nat.le_of_not_lt hcount

variable {ledger : AdmissionLedger} {a a' : AdmissionAuthority S}

lemma Carries.leave (h : Carries ledger a) (hconfig : a'.service.config = a.service.config)
    (hepoch : a'.service.epoch = a.service.epoch)
    (hactive : ∀ (gid : GroupId) (id : RequestId), a'.service.ActiveIn gid id →
      a.service.ActiveIn gid id)
    (horphans : OrphansLeave a.service a'.service)
    (hdurable : a'.durableOutstanding = a.durableOutstanding) : Carries ledger a' where
  epoch := by rw [hepoch, h.epoch]
  count := by rw [hdurable, h.count]
  covers := (attempts_sublist hactive horphans).trans h.covers
  timed := by rw [hconfig]; exact h.timed
  held := by rw [hconfig]; exact h.held

lemma Carries.calm (h : Carries ledger a) (hcalm : Calm a.service a'.service)
    (hdurable : a'.durableOutstanding = a.durableOutstanding) : Carries ledger a' :=
  h.leave hcalm.config hcalm.epoch (fun _ _ => hcalm.activeIn) hcalm.orphansLeave hdurable

lemma carries_accounts {now : Nat} (h : a.service.Reachable)
    (hcount : a.durableOutstanding = (a.service.accounts now).outstanding.length) :
    Carries (a.service.accounts now) a where
  epoch := rfl
  count := hcount
  covers := by rw [accounts_attempts]
  timed := by
    intro gid hgid
    have hgroups : gid ∈ a.service.groups.map fun _ g => ledgerGroup now g := hgid
    rw [Std.ExtTreeMap.mem_map] at hgroups
    exact (h.wf.groups gid).mp hgroups
  held := by
    intro o ho
    apply h.attempts_known o.name
    rw [← accounts_attempts a.service now]
    exact List.mem_map_of_mem ho

namespace Broker

/-! ## The write every use case shares -/

lemma persist_cases (b : Broker S) (ledger : AdmissionLedger) : ∃ journal,
      (journal.stored = .ok (some ledger) ∧ b.persist ledger = (.ok (),
          { journal := journal
            authority :=
              { b.authority with
                journalHealthy := true
                durableOutstanding := ledger.outstanding.length } })) ∨
      (journal.stored = b.journal.stored ∧ b.persist ledger = (.error .journalUnavailable,
          { journal := journal
            authority := { b.authority with journalHealthy := false } })) := by
  refine ⟨(b.journal.persist ledger).2, ?_⟩
  unfold persist Journal.persist
  cases b.journal.outcomes b.journal.writes with
  | ok _ => exact .inl ⟨rfl, rfl⟩
  | error e => exact .inr ⟨rfl, rfl⟩

lemma persistCurrent_cases (b : Broker S) (now : Nat) :
    (∃ e, b.authority.service.tick now = .error e ∧
        b.persistCurrent now = (.error (.admission e), b)) ∨
      ∃ q journal, b.authority.service.tick now = .ok q ∧
        (journal.stored = .ok (some (q.accounts now)) ∧ b.persistCurrent now = (.ok (),
            { journal := journal
              authority :=
                { b.authority with
                  service := q, journalHealthy := true
                  durableOutstanding := (q.accounts now).outstanding.length } }) ∨
        journal.stored = b.journal.stored ∧ b.persistCurrent now = (.error .journalUnavailable,
            { journal := journal
              authority := { b.authority with service := q, journalHealthy := false } })) := by
  unfold persistCurrent AdmissionAuthority.ledger ledger
  cases htick : b.authority.service.tick now with
  | error e => exact .inl ⟨e, rfl, rfl⟩
  | ok q =>
    obtain ⟨journal, hwrite⟩ :=
      persist_cases { b with authority := { b.authority with service := q } } (q.accounts now)
    exact .inr ⟨q, journal, rfl, hwrite⟩

variable {b b' : Broker S} {now : Nat} {e : AuthorityError}
  {answer : Except AuthorityError (List RequestId)} {a : AdmissionAuthority S} {journal : Journal}
  {op : Operation}

lemma reachable_persistCurrent (h : b.authority.service.Reachable) (now : Nat) :
    (b.persistCurrent now).2.authority.service.Reachable :=
  (b.serves_persistCurrent now).evolves.reachable h

lemma persistCurrent_ok (h : b.authority.service.Reachable)
    (hok : (b.persistCurrent now).1 = .ok ()) :
    Durable (b.persistCurrent now).2 ∧ Exact (b.persistCurrent now).2 := by
  have hreachable := reachable_persistCurrent h now
  rcases b.persistCurrent_cases now with ⟨e, _, heq⟩ | ⟨q, journal, _, ⟨hstored, heq⟩ | ⟨_, heq⟩⟩
  · rw [heq] at hok
    simp at hok
  · rw [heq] at hreachable ⊢
    exact ⟨⟨hreachable, _, hstored, carries_accounts hreachable rfl⟩,
      _, hstored, (accounts_attempts q now).symm⟩
  · rw [heq] at hok
    simp at hok

lemma persistCurrent_error (wf : b.authority.service.Wf)
    (herror : (b.persistCurrent now).1 = .error e) :
    (b.persistCurrent now).2.journal.stored = b.journal.stored ∧
      Calm b.authority.service (b.persistCurrent now).2.authority.service ∧
      (b.persistCurrent now).2.authority.durableOutstanding = b.authority.durableOutstanding ∧
      (b.authority.service.now ≤ now →
        (b.persistCurrent now).2.authority.journalHealthy = false) := by
  rcases b.persistCurrent_cases now with
    ⟨e, htick, heq⟩ | ⟨q, journal, htick, ⟨_, heq⟩ | ⟨hstored, heq⟩⟩
  · rw [heq]
    refine ⟨rfl, .refl _, rfl, ?_⟩
    intro later
    rw [tick_ok_iff.mpr ⟨later, rfl⟩] at htick
    simp at htick
  · rw [heq] at herror
    simp at herror
  · rw [heq]
    exact ⟨hstored, (wf_of_tick wf htick).2, rfl, fun _ => rfl⟩

lemma durable_persistCurrent (hb : Durable b) (now : Nat) : Durable (b.persistCurrent now).2 := by
  cases hresult : (b.persistCurrent now).1 with
  | ok _ => exact (persistCurrent_ok hb.reachable hresult).1
  | error e =>
    obtain ⟨hstored, hcalm, hdurable, _⟩ := persistCurrent_error hb.reachable.wf hresult
    obtain ⟨ledger, hledger, hcarries⟩ := hb.carried
    exact ⟨reachable_persistCurrent hb.reachable now, ledger, hstored.trans hledger,
      hcarries.calm hcalm hdurable⟩

/-! ## Dispatch -/

structure Dispatched (b : Broker S) (now : Nat) (turned : Turned S (List RequestId)) : Prop where
  durable : Durable turned.2
  exact : ∀ ids, turned.1 = .ok ids → Exact turned.2
  granted : ∀ ids, turned.1 = .ok ids → ∀ id ∈ ids, turned.2.authority.service.IsActive id
  healthy : b.authority.service.now ≤ now → turned.2.authority.journalHealthy = true →
    Exact turned.2
  holds : ∀ id, b.authority.service.Holds now id → turned.2.authority.service.Holds now id

lemma holds_persistCurrent (wf : b.authority.service.Wf) {id : RequestId}
    (h : b.authority.service.Holds now id) :
    (b.persistCurrent now).2.authority.service.Holds now id :=
  (b.serves_persistCurrent now).evolves.holds (fun _ hop => Operation.spares_of_read hop id) wf h

lemma checkpointDue_cases (a : AdmissionAuthority S) (now : Nat) :
    (∃ e, a.service.tick now = .error e ∧ a.checkpointDue now = (.error (.admission e), a)) ∨
      ∃ q, a.service.tick now = .ok q ∧ a.checkpointDue now =
          (.ok (decide ((q.accounts now).outstanding.length < a.durableOutstanding)),
            { a with service := q }) := by
  unfold AdmissionAuthority.checkpointDue AdmissionAuthority.ledger ledger
  cases htick : a.service.tick now with
  | error e => exact .inl ⟨e, rfl, rfl⟩
  | ok q => exact .inr ⟨q, rfl, rfl⟩

lemma Dispatched.of_exact (hb : Durable b') (hexact : Exact b')
    (hanswer : ∀ ids, answer = .ok ids → ∀ id ∈ ids, b'.authority.service.IsActive id)
    (hholds : ∀ id, b.authority.service.Holds now id → b'.authority.service.Holds now id) :
    Dispatched b now (answer, b') where
  durable := hb
  exact := fun _ _ => hexact
  granted := hanswer
  healthy := fun _ _ => hexact
  holds := hholds

lemma Dispatched.of_error (hb : Durable b')
    (hhealth : b.authority.service.now ≤ now → b'.authority.journalHealthy = false)
    (hholds : ∀ id, b.authority.service.Holds now id → b'.authority.service.Holds now id) :
    Dispatched b now (.error e, b') where
  durable := hb
  exact := by simp
  granted := by simp
  healthy := by
    intro later hhealthy
    rw [hhealth later] at hhealthy
    simp at hhealthy
  holds := hholds

lemma dispatched_checkpoint (hb : Durable b')
    (later : b.authority.service.now ≤ now → b'.authority.service.now ≤ now)
    (hholds : ∀ id, b.authority.service.Holds now id → b'.authority.service.Holds now id)
    (hanswer : ∀ ids, answer = .ok ids → ids = []) : Dispatched b now
      (andThen (b'.on (b'.authority.checkpointDue now)) fun due b =>
        andThen (if due then b.persistCurrent now else (.ok (), b)) fun _ b => (answer, b)) := by
  have wf := hb.reachable.wf
  have hgranted : ∀ (c : Broker S) (ids : List RequestId), answer = .ok ids →
      ∀ id ∈ ids, c.authority.service.IsActive id := by
    intro c ids hids id hid
    rw [hanswer ids hids] at hid
    simp at hid
  rcases checkpointDue_cases b'.authority now with ⟨e, htick, heq⟩ | ⟨q, htick, heq⟩
  · rw [heq]
    refine .of_error hb (fun hlater => ?_) hholds
    rw [tick_ok_iff.mpr ⟨later hlater, rfl⟩] at htick
    simp at htick
  rw [heq]
  have hobserved := observed_tick wf htick
  let c : Broker S := { b' with authority := { b'.authority with service := q } }
  have hc : Durable c := by
    obtain ⟨ledger, hledger, hcarries⟩ := hb.carried
    refine ⟨?_, ledger, hledger, hcarries.calm (wf_of_tick wf htick).2 rfl⟩
    have hread := (AdmissionAuthority.acts_checkpointDue b'.authority now).evolves
    rw [heq] at hread
    exact hread.reachable hb.reachable
  have hcholds : ∀ id, b.authority.service.Holds now id → c.authority.service.Holds now id :=
    fun id h => (hholds id h).tick wf htick
  show Dispatched b now (andThen (if decide ((q.accounts now).outstanding.length <
    b'.authority.durableOutstanding) = true then c.persistCurrent now else (.ok (), c)) _)
  split
  · have hwritten := fun id h => holds_persistCurrent hc.reachable.wf (hcholds id h)
    have hdurable := durable_persistCurrent hc now
    have hok : (c.persistCurrent now).1 = .ok () → _ := persistCurrent_ok hc.reachable
    have herror : ∀ e, (c.persistCurrent now).1 = .error e → _ :=
      fun e => persistCurrent_error hc.reachable.wf
    generalize c.persistCurrent now = written at hwritten hdurable hok herror
    obtain ⟨result, c'⟩ := written
    cases result with
    | error e =>
      exact .of_error hdurable (fun _ => (herror e rfl).2.2.2 (le_of_eq hobserved.clock)) hwritten
    | ok _ => exact .of_exact hdurable (hok rfl).2 (hgranted c') hwritten
  · rename_i hdue
    obtain ⟨ledger, hledger, hcarries⟩ := hc.carried
    have hexact := hcarries.exact now (by simpa using hdue)
    exact .of_exact hc ⟨ledger, hledger, hexact⟩ (hgranted c) hcholds

lemma dispatched_withdraw {grants : List RequestId} (hb : Durable b)
    (hreachable : a.service.Reachable) (hstored : journal.stored = b.journal.stored)
    (hselects : Selects b.authority.service now grants a.service)
    (hsettled : a.service.Settled now) (hhealth : a.journalHealthy = false)
    (hdurable : a.durableOutstanding = b.authority.durableOutstanding) : Dispatched b now
      (andThen ((mk a journal).on (a.withdrawGrants now grants)) fun _ b =>
        (.error .journalUnavailable, b)) := by
  have hacts := AdmissionAuthority.acts_withdrawGrants now grants a
  have hcalm := AdmissionAuthority.calm_withdrawGrants now grants a hselects.wf
  obtain ⟨hok, hgone, hkept⟩ := AdmissionAuthority.withdrawGrants_spec now grants hselects.wf
    hsettled hselects.nodup hselects.granted
  generalize AdmissionAuthority.withdrawGrants now grants a = withdrawn
    at hacts hcalm hok hgone hkept
  obtain ⟨result, w⟩ := withdrawn
  obtain rfl : result = .ok () := hok
  obtain ⟨ledger, hledger, hcarries⟩ := hb.carried
  have hactive : ∀ (gid : GroupId) (id : RequestId), w.service.ActiveIn gid id →
      b.authority.service.ActiveIn gid id := by
    intro gid id h
    rcases hselects.active gid id (hcalm.activeIn h) with hbefore | hid
    · exact hbefore
    · obtain ⟨r, hr, _, hr_active⟩ := h
      exact absurd ⟨r, hr, hr_active⟩ (hgone id hid)
  apply Dispatched.of_error
  · refine ⟨hacts.evolves.reachable hreachable, ledger, hstored.trans hledger, ?_⟩
    exact hcarries.leave (hcalm.config.trans hselects.config) (hcalm.epoch.trans hselects.epoch)
      hactive (hselects.orphans.trans hcalm.orphansLeave) (hacts.durable.trans hdurable)
  · intro _
    exact hacts.health.trans hhealth
  intro id hholds
  have hspent := spent_of_isActive hb.reachable.wf hholds.isActive
  exact hkept id (hselects.spent id hspent).2 (hselects.holds id hholds)

lemma dispatched_dispatchHealthy (hb : Durable b) (now : Nat) :
    Dispatched b now (b.dispatchHealthy now) := by
  have wf := hb.reachable.wf
  have hselects := b.authority.selects_selectGrants now wf
  have hacts := b.authority.acts_selectGrants now
  obtain ⟨ledger, hledger, hcarries⟩ := hb.carried
  unfold dispatchHealthy
  generalize b.authority.selectGrants now = selected at hselects hacts
  obtain ⟨⟨grants, error⟩, a⟩ := selected
  have hreachable : a.service.Reachable := hacts.evolves.reachable hb.reachable
  dsimp only at hselects ⊢
  split
  · rename_i hempty
    obtain rfl := List.isEmpty_iff.mp hempty
    have hactive : ∀ (gid : GroupId) (id : RequestId), a.service.ActiveIn gid id →
        b.authority.service.ActiveIn gid id := by
      intro gid id h
      simpa using hselects.active gid id h
    apply dispatched_checkpoint
    · exact ⟨hreachable, ledger, hledger, hcarries.leave hselects.config hselects.epoch hactive
        hselects.orphans hacts.durable⟩
    · exact hselects.clock
    · exact hselects.holds
    intro ids hids
    cases error with
    | none => exact (Except.ok.inj hids).symm
    | some e => simp at hids
  · rename_i hnonempty
    have hsettled : a.service.Settled now := by
      apply hselects.settled
      left
      intro hnil
      exact hnonempty (List.isEmpty_iff.mpr hnil)
    have hok : ((mk a b.journal).persistCurrent now).1 = .ok () → _ :=
      persistCurrent_ok hreachable
    rcases (mk a b.journal).persistCurrent_cases now with
      ⟨e, htick, _⟩ | ⟨q, journal, htick, hwrite⟩
    · rw [hsettled.tick] at htick
      simp at htick
    rw [hsettled.tick] at htick
    obtain rfl := Except.ok.inj htick
    rcases hwrite with ⟨_, heq⟩ | ⟨hstored, heq⟩
    · rw [heq] at hok ⊢
      obtain ⟨hdurable, hexact⟩ := hok rfl
      refine .of_exact hdurable hexact ?_ hselects.holds
      intro ids hids
      rw [← Except.ok.inj hids]
      exact hselects.granted
    · rw [heq]
      exact dispatched_withdraw hb hreachable hstored hselects hsettled rfl hacts.durable

lemma dispatched_dispatch (hb : Durable b) (now : Nat) : Dispatched b now (b.dispatch now) := by
  unfold dispatch
  split
  · exact dispatched_dispatchHealthy hb now
  have wf := hb.reachable.wf
  have hdurable := durable_persistCurrent hb now
  rcases b.persistCurrent_cases now with
    ⟨e, htick, heq⟩ | ⟨q, journal, htick, ⟨_, heq⟩ | ⟨_, heq⟩⟩
  · rw [heq]
    refine .of_error hb (fun later => ?_) fun _ h => h
    rw [tick_ok_iff.mpr ⟨later, rfl⟩] at htick
    simp at htick
  · rw [heq] at hdurable ⊢
    -- the probe was written, so the journal counts as healthy from here on
    have hrest := dispatched_dispatchHealthy hdurable now
    exact ⟨hrest.durable, hrest.exact, hrest.granted,
      fun _ => hrest.healthy (le_of_eq (observed_tick wf htick).clock),
      fun id h => hrest.holds id (h.tick wf htick)⟩
  · rw [heq] at hdurable ⊢
    exact .of_error hdurable (fun _ => rfl) fun _ h => h.tick wf htick

/-! ## Completion and reset -/

lemma durable_complete (hb : Durable b) (credential : Credential) (sequence : Nat)
    (feedback : Feedback) (now : Nat) : Durable (b.complete credential sequence feedback now).2 ∧
      ∀ state, (b.complete credential sequence feedback now).1 = .ok state →
        Exact (b.complete credential sequence feedback now).2 := by
  have hacts := b.authority.acts_completeUnpersisted credential sequence now feedback
  have hcompleted : Durable
      (b.on (b.authority.completeUnpersisted credential sequence feedback now)).2 := by
    obtain ⟨ledger, hledger, hcarries⟩ := hb.carried
    refine ⟨hacts.evolves.reachable hb.reachable, ledger, hledger, ?_⟩
    refine hcarries.calm (hacts.evolves.calm ?_ hb.reachable.wf) hacts.durable
    rintro op rfl
    rfl
  unfold complete
  generalize b.on (b.authority.completeUnpersisted credential sequence feedback now) = completed
    at hcompleted
  obtain ⟨result, c⟩ := completed
  cases result with
  | error e => exact ⟨hcompleted, by simp⟩
  | ok state =>
    have hdurable := durable_persistCurrent hcompleted now
    have hok : (c.persistCurrent now).1 = .ok () → _ := persistCurrent_ok hcompleted.reachable
    rw [andThen_ok]
    generalize c.persistCurrent now = written at hdurable hok
    obtain ⟨written, c'⟩ := written
    cases written with
    | error e => exact ⟨hdurable, by simp⟩
    | ok _ => exact ⟨hdurable, fun _ _ => (hok rfl).2⟩

lemma successorLedger_cases (a : AdmissionAuthority S) (now : Nat) :
    (∃ e q, (q = a.service ∨ a.service.tick now = .ok q) ∧
        a.successorLedger now = (.error (.admission e), { a with service := q })) ∨
      ∃ q, a.service.tick now = .ok q ∧ q.epoch + 1 ≤ u64Max ∧ a.successorLedger now =
          (.ok { q.accounts now with epoch := q.epoch + 1, outstanding := [] },
            { a with service := q }) := by
  unfold AdmissionAuthority.successorLedger AdmissionAuthority.ledger ledger
  cases htick : a.service.tick now with
  | error e => exact .inl ⟨e, a.service, .inl rfl, rfl⟩
  | ok q =>
    dsimp only [AdmissionAuthority.lift, Except.mapError, andThen_ok]
    cases hepoch : checkedAdd (q.accounts now).epoch 1 with
    | none => exact .inl ⟨.scopeLimit, q, .inr rfl, rfl⟩
    | some epoch =>
      obtain ⟨rfl, hfits⟩ := checkedAdd_eq_some.mp hepoch
      exact .inr ⟨q, rfl, hfits, rfl⟩

lemma adoptSuccessor_settled (hsettled : a.service.Settled now)
    (hfits : a.service.epoch + 1 ≤ u64Max) : a.adoptSuccessor now = (.ok (a.service.epoch + 1),
      { a with
        service := a.service.relinquish (a.service.epoch + 1), issued := ∅, detached := ∅ }) := by
  unfold AdmissionAuthority.adoptSuccessor reset
  rw [hsettled.tick]
  dsimp only
  rw [checkedAdd_eq_some.mpr ⟨rfl, hfits⟩]
  rfl

lemma advance_cases (wf : b.authority.service.Wf) (now : Nat) :
    (∃ e q, (q = b.authority.service ∨ b.authority.service.tick now = .ok q) ∧ b.advance now =
          (.error (.admission e), { b with authority := { b.authority with service := q } })) ∨
      ∃ q journal, b.authority.service.tick now = .ok q ∧ (journal.stored = b.journal.stored ∧
          b.advance now = (.error .journalUnavailable,
            { journal := journal
              authority := { b.authority with service := q, journalHealthy := false } }) ∨
        journal.stored =
            .ok (some { q.accounts now with epoch := q.epoch + 1, outstanding := [] }) ∧
          b.advance now = (.ok (q.epoch + 1),
            { journal := journal
              authority :=
                { b.authority with
                  service := q.relinquish (q.epoch + 1), issued := ∅, detached := ∅
                  journalHealthy := true, durableOutstanding := 0 } })) := by
  unfold advance
  rcases successorLedger_cases b.authority now with ⟨e, q, hq, heq⟩ | ⟨q, htick, hfits, heq⟩
  · rw [heq]
    exact .inl ⟨e, q, hq, rfl⟩
  rw [heq]
  have hsettled := settled_of_tick wf htick
  dsimp only [on, andThen_ok]
  rcases persist_cases { b with authority := { b.authority with service := q } }
      { q.accounts now with epoch := q.epoch + 1, outstanding := [] } with
    ⟨journal, ⟨hstored, hpersist⟩ | ⟨hstored, hpersist⟩⟩
  · rw [hpersist, andThen_ok]
    rw [adoptSuccessor_settled hsettled hfits]
    exact .inr ⟨q, journal, htick, .inr ⟨hstored, rfl⟩⟩
  · rw [hpersist]
    exact .inr ⟨q, journal, htick, .inl ⟨hstored, rfl⟩⟩

lemma durable_advance (hb : Durable b) (now : Nat) : Durable (b.advance now).2 ∧
      ∀ epoch, (b.advance now).1 = .ok epoch → Exact (b.advance now).2 := by
  have wf := hb.reachable.wf
  have hreachable := (b.evolves_advance now).reachable hb.reachable
  obtain ⟨ledger, hledger, hcarries⟩ := hb.carried
  rcases advance_cases wf now with
    ⟨e, q, hq, heq⟩ | ⟨q, journal, htick, ⟨hstored, heq⟩ | ⟨hstored, heq⟩⟩
  · rw [heq] at hreachable ⊢
    have hcalm : Calm b.authority.service q := by
      rcases hq with rfl | htick
      · exact .refl _
      · exact (wf_of_tick wf htick).2
    exact ⟨⟨hreachable, ledger, hledger, hcarries.calm hcalm rfl⟩, by simp⟩
  · rw [heq] at hreachable ⊢
    exact ⟨⟨hreachable, ledger, hstored.trans hledger,
      hcarries.calm (wf_of_tick wf htick).2 rfl⟩, by simp⟩
  · rw [heq] at hreachable ⊢
    have wfq := (wf_of_tick wf htick).1
    refine ⟨⟨hreachable, _, hstored, ?_⟩, fun _ _ => ⟨_, hstored, relinquish_attempts q _⟩⟩
    constructor
    · rfl
    · rfl
    · rw [relinquish_attempts]
      exact List.nil_sublist _
    · intro gid hgid
      have hgroups : gid ∈ q.groups.map fun _ g => ledgerGroup now g := hgid
      rw [Std.ExtTreeMap.mem_map] at hgroups
      exact (wfq.groups gid).mp hgroups
    · intro o ho
      simp at ho

/-! ## Turns and runs -/

lemma Durable.moves {allowed : Operation → Prop} (hb : Durable b) (h : Idles allowed b b')
    (hquiet : ∀ op, allowed op → op.isQuiet = true) : Durable b' := by
  obtain ⟨ledger, hledger, hcarries⟩ := hb.carried
  refine ⟨h.moves.evolves.reachable hb.reachable, ledger, ?_, ?_⟩
  · rw [h.journal, hledger]
  · exact hcarries.calm (h.moves.evolves.calm hquiet hb.reachable.wf) h.moves.durable

lemma isQuiet_of_read (h : AdmissionAuthority.Reads now op) : op.isQuiet = true := by
  cases op <;> simp_all [AdmissionAuthority.Reads, Operation.readTime, Operation.isQuiet]

lemma isQuiet_of_issues {turn : Turn} (hwrites : turn.writes = false) (h : turn.issues op) :
    op.isQuiet = true := by
  cases turn with
  | status credential sequence now | observe request now | inspect now => exact isQuiet_of_read h
  | disconnect scope now => rcases h with rfl | rfl <;> rfl
  | dispatch _ | checkpoint _ | settle _ _ | complete _ _ _ _ | advance _ =>
    simp [Turn.writes] at hwrites
  | _ => rw [h]; rfl

lemma durable_turn [AdmissionSecretSource S] (turn : Turn) (hb : Durable b) :
    Durable (b.turn turn).2 := by
  cases hwrites : turn.writes with
  | false => exact hb.moves (b.idles_turn hwrites) fun _ h => isQuiet_of_issues hwrites h
  | true =>
    cases turn with
    | dispatch now => exact (dispatched_dispatch hb now).durable
    | checkpoint now => exact durable_persistCurrent hb now
    | settle waiting now =>
      have hreport := AdmissionAuthority.moves_report (b.dispatch now).2.authority
        (dispatchFailure (b.dispatch now).1) waiting now
      refine (dispatched_dispatch hb now).durable.moves ⟨hreport, rfl⟩ ?_
      rintro op (hread | ⟨scope, rfl⟩)
      · exact isQuiet_of_read hread
      · rfl
    | complete credential sequence feedback now =>
      exact (durable_complete hb credential sequence feedback now).1
    | advance now => exact (durable_advance hb now).1
    | _ => simp [Turn.writes] at hwrites

lemma durable_start {journal' : Journal} {start : AuthorityStart} {secrets : S}
    (h : restoreAuthority journal start secrets now = (.ok a, journal')) :
    Durable ⟨a, journal'⟩ ∧ Exact ⟨a, journal'⟩ := by
  obtain ⟨a₀, hstarting, hpersist⟩ := restoreAuthority_ok h
  have hreachable : a₀.service.Reachable := ⟨a₀.service, [], initial_of_starting hstarting, rfl⟩
  have hok : ((mk a₀ journal).persistCurrent now).1 = .ok () → _ :=
    persistCurrent_ok hreachable
  rw [hpersist] at hok
  exact hok rfl

end Broker

lemma System.Reachable.durable [AdmissionSecretSource S] {s : System S} (h : s.Reachable)
    (ha : s.authority = some a) : Durable ⟨a, s.journal⟩ := by
  refine System.reachable_induction (I := Durable) ?_ ?_ h ha
  · intro journal start secrets now a journal' hrestore
    exact (durable_start hrestore).1
  · intro b turn hb
    exact durable_turn turn hb

/-- Whatever its clients do and however often it restarts, a broker runs no more attempts of
a group than the group allows, and none while one of an earlier process may still run. -/
theorem clients_share_capacity [AdmissionSecretSource S] {s : System S} (reached : s.Reachable)
    {a : AdmissionAuthority S} (runs : s.authority = some a) {gid : GroupId} {policy : GroupPolicy}
    (hpolicy : a.service.config.groups[gid]? = some policy) :
    a.service.activeCount gid ≤ policy.capacity ∧
      a.service.classActive gid .background ≤ policy.capacity - policy.reserve ∧
      ((a.service.groupAt gid).orphans ≠ [] → a.service.activeCount gid = 0) := by
  have hservice := reached.service runs
  have hfits := hservice.withinCapacity gid
  rw [show a.service.policyAt gid = policy by rw [policyAt, hpolicy]; rfl] at hfits
  rw [activeCount_eq]
  refine ⟨hfits.total, hfits.opened, fun horphans => ?_⟩
  cases hg : a.service.groups[gid]? with
  | none =>
    rw [groupAt, hg] at horphans
    exact absurd rfl horphans
  | some g =>
    have hapart := hservice.apart gid g hg (groupAt_of_some hg ▸ horphans)
    rw [hapart, hapart]

/-- An attempt takes the whole capacity of its group; after a restart it is an orphan there,
and nothing else runs. -/
theorem clients_share_capacity_sample :
    let granted := exec System.step sampleSystem [.turn (.dispatch 6)]
    let resumed := exec System.step granted [.start ⟨sampleConfig, true, false⟩ ⟨7⟩ 10]
    ∃ a b, granted.authority = some a ∧ a.service.activeCount sampleGroup = 1 ∧
      a.service.activeCount sampleGroup ≤ sampleGroupPolicy.capacity ∧
      resumed.authority = some b ∧ (b.service.groupAt sampleGroup).orphans ≠ [] ∧
      b.service.activeCount sampleGroup = 0 := by
  intro granted resumed
  have hgranted : granted.Reachable := sampleSystem_reachable.exec _
  have hresumed : resumed.Reachable := hgranted.exec _
  have horphans : ((resumed.authority.get (by decide +kernel)).service.groupAt
      sampleGroup).orphans ≠ [] := by decide +kernel
  refine ⟨_, _, (Option.some_get (by decide +kernel)).symm, by decide +kernel, ?_,
    (Option.some_get (by decide +kernel)).symm, horphans, ?_⟩
  · exact (clients_share_capacity hgranted (Option.some_get _).symm (by decide +kernel)).1
  · exact (clients_share_capacity hresumed (Option.some_get _).symm
      (show _ = some sampleGroupPolicy by decide +kernel)).2.2 horphans

end Quecto.Authority
