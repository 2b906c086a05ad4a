/-
  Admission/RoundTrip.lean --- a restart from the ledger.
-/
import Quecto.Admission.Lease
import Quecto.Admission.Settled

namespace Quecto.Admission

open Foundation List OrdMap

/-- Every sum a restart at `now` makes of the ledger's times fits. -/
structure AdmissionLedger.ResumesAt (ledger : AdmissionLedger) (now : Nat) : Prop where
  timings : ∀ (gid : GroupId) (durable : LedgerGroup), ledger.groups[gid]? = some durable →
    now + durable.cooldownRemainingMs ≤ u64Max ∧ now + durable.pacingRemainingMs ≤ u64Max
  leases : ∀ o ∈ ledger.outstanding, ∀ remaining, o.releaseRemainingMs = some remaining →
    now + remaining ≤ u64Max

/-- Equal ledgers, but for the order of their attempts. -/
structure AdmissionLedger.Same (l l' : AdmissionLedger) : Prop where
  epoch : l.epoch = l'.epoch
  groups : l.groups = l'.groups
  outstanding : l.outstanding.Perm l'.outstanding

namespace AdmissionPolicy

/-- No release instant saturates. -/
def LeasesFit (p : AdmissionPolicy) (now : Nat) : Prop :=
  ∀ (id : RequestId) (r : Request) (granted deadline : Nat) (required : Bool),
    p.requests[id]? = some r → r.state = .active granted deadline required →
      max deadline ((p.sinceOf id r).getD now) + uncertainLeaseMarginMs ≤ u64Max

/-- The later of an attempt's grant and its owner's loss.  An owner still there is lost to
the restart itself, and the owner of an orphan was lost when the run began. -/
inductive HeldSince (p : AdmissionPolicy) (start now : Nat) : OutstandingAttempt → Nat → Prop
  | active (o : OutstandingAttempt) (id : RequestId) (r : Request) (granted deadline : Nat)
      (required : Bool) (found : p.requests[id]? = some r)
      (state : r.state = .active granted deadline required) (name : o.name = id.attemptIn r.group) :
      HeldSince p start now o (max granted ((p.sinceOf id r).getD now))
  | orphan (o : OutstandingAttempt) (g : Group) (held : Orphan)
      (found : p.groups[o.group]? = some g) (orphaned : held ∈ g.orphans)
      (name : held.attempt.name = o.name) : HeldSince p start now o start

variable {p : AdmissionPolicy} {start now : Nat} {o : OutstandingAttempt} {id : RequestId}
  {r : Request}

lemma HeldSince.configured {lost : Nat} (h : p.HeldSince start now o lost) (wf : p.Wf) :
    o.group ∈ p.config.groups := by
  rw [← wf.groups]
  cases h with
  | active id r granted deadline required found state name =>
    have hgroup : o.group = r.group := congrArg AttemptName.group name
    rw [hgroup]
    exact wf.grouped id r found
  | orphan g held found orphaned name => exact mem_iff.mpr ⟨g, found⟩

/-! ## What a ledger names -/

lemma mem_outstanding : o ∈ (p.accounts now).outstanding ↔
      (∃ (id : RequestId) (r : Request), p.requests[id]? = some r ∧
        p.outstandingOf now id r = some o) ∨
      ∃ (gid : GroupId) (g : Group), p.groups[gid]? = some g ∧
        ∃ held ∈ g.orphans, orphanOutstanding now held = o := by
  simp only [accounts, mem_append, mem_filterMap, mem_flatMap, mem_map, Prod.exists, mem_toList_iff]

lemma outstandingOf_eq_some (h : p.outstandingOf now id r = some o) :
    ∃ granted deadline required, r.state = .active granted deadline required ∧
      o.name = id.attemptIn r.group ∧
      o.releaseRemainingMs = some (leaseRelease deadline ((p.sinceOf id r).getD now) - now) := by
  unfold outstandingOf at h
  cases hstate : r.state with
  | queued deadline | terminal outcome =>
    rw [hstate] at h
    cases h
  | active granted deadline required =>
    rw [hstate] at h
    rw [← Option.some.inj h]
    exact ⟨granted, deadline, required, rfl, rfl, rfl⟩

lemma Settled.lt_leaseRelease (h : p.Settled now) (wf : p.Wf) {granted deadline since : Nat}
    {required : Bool} (hr : p.requests[id]? = some r)
    (hstate : r.state = .active granted deadline required) (hsince : p.sinceOf id r = some since) :
    now < leaseRelease deadline since := by
  obtain ⟨g, hg⟩ := mem_iff.mp (wf.grouped id r hr)
  rw [sinceOf, groupAt_of_some hg] at hsince
  by_contra hle
  have helapsed : p.leaseElapsed now id since = true := by
    rw [leaseElapsed, leaseEnd_of_active hr hstate, Option.any_some]
    exact decide_eq_true (Nat.le_of_not_lt hle)
  have hmem := mem_elapsedLeases.mpr ⟨r.group, g, since, hg, hsince, helapsed⟩
  rw [h.leases] at hmem
  cases hmem

/-- What remains of each lease the ledger names. -/
lemma Leased.outstanding (h : p.Leased start) (wf : p.Wf) (hsettled : p.Settled now)
    (hfits : p.LeasesFit now) (ho : o ∈ (p.accounts now).outstanding) :
    ∃ remaining lost, o.releaseRemainingMs = some remaining ∧ 1 ≤ remaining ∧
      p.HeldSince start now o lost ∧ lost ≤ now ∧
      now + remaining ≤ lost + (p.policyAt o.group).attemptTimeoutMs + uncertainLeaseMarginMs := by
  have hclock := hsettled.clock
  obtain ⟨id, r, hr, hnamed⟩ | ⟨gid, g, hg, held, hheld, rfl⟩ := mem_outstanding.mp ho
  · obtain ⟨granted, deadline, required, hstate, hname, hremaining⟩ := outstandingOf_eq_some hnamed
    obtain ⟨hgranted, hdeadline⟩ := h.granted id r granted deadline required hr hstate
    have hfit := hfits id r granted deadline required hr hstate
    have hgroup : o.group = r.group := congrArg AttemptName.group hname
    have hlost : (p.sinceOf id r).getD now ≤ now := by
      cases hsince : p.sinceOf id r with
      | none => exact Nat.le_refl now
      | some since =>
        obtain ⟨g, hg⟩ := mem_iff.mp (wf.grouped id r hr)
        rw [sinceOf, groupAt_of_some hg] at hsince
        rw [← hclock]
        exact h.lost r.group g id since hg hsince
    have hahead : now < leaseRelease deadline ((p.sinceOf id r).getD now) := by
      cases hsince : p.sinceOf id r with
      | none =>
        rw [hsince] at hfit
        simp only [Option.getD_none, leaseRelease, saturatingAdd, uncertainLeaseMarginMs] at hfit ⊢
        omega
      | some since => exact hsettled.lt_leaseRelease wf hr hstate hsince
    have hrelease : leaseRelease deadline ((p.sinceOf id r).getD now) =
        max deadline ((p.sinceOf id r).getD now) + uncertainLeaseMarginMs := Nat.min_eq_left hfit
    refine ⟨_, _, hremaining, by omega, .active o id r granted deadline required hr hstate hname,
      by omega, ?_⟩
    rw [hgroup]
    omega
  · have hahead := hsettled.orphans gid g hg held hheld
    obtain ⟨hgroup, hbound⟩ := h.orphans gid g hg held hheld
    have hstarted := h.started
    refine ⟨held.releaseAt - now, start, rfl, by omega,
      .orphan _ g held (by rw [← hg, ← hgroup]; rfl) hheld rfl, by omega, ?_⟩
    show now + (held.releaseAt - now) ≤
      start + (p.policyAt held.attempt.group).attemptTimeoutMs + uncertainLeaseMarginMs
    rw [hgroup]
    omega

/-! ## What a restored policy names -/

section Restored

variable {config : AdmissionConfig} {ledger : AdmissionLedger} {now : Nat} {p : AdmissionPolicy}
  {o : OutstandingAttempt}

lemma orphanOf_releaseAt {policy : GroupPolicy} {remaining : Nat}
    (hremaining : o.releaseRemainingMs = some remaining) (hfits : now + remaining ≤ u64Max)
    (hbound : remaining ≤ policy.attemptTimeoutMs + uncertainLeaseMarginMs) :
    (orphanOf policy now o).releaseAt = now + remaining := by
  simp only [orphanOf, hremaining, Option.elim_some, saturatingAdd]
  omega

/-- What a restart needs of a ledger: everything it names is configured, every lease has
time to run within the bound, and every sum fits. -/
structure Restartable (config : AdmissionConfig) (ledger : AdmissionLedger) (now : Nat) : Prop where
  groups : ∀ gid : GroupId, gid ∈ ledger.groups ↔ gid ∈ config.groups
  outstanding : ∀ o ∈ ledger.outstanding, o.group ∈ config.groups ∧
    ∃ remaining, o.releaseRemainingMs = some remaining ∧ 1 ≤ remaining ∧
      remaining ≤ ((config.groups[o.group]?).getD default).attemptTimeoutMs + uncertainLeaseMarginMs
  resumes : ledger.ResumesAt now

variable (h : p.Restored config ledger now)
include h

lemma Restored.orphan (hledger : Restartable config ledger now) (ho : o ∈ ledger.outstanding) :
    ∃ g, p.groups[o.group]? = some g ∧ ∃ held ∈ g.orphans, held.attempt = o ∧
      ∀ remaining, o.releaseRemainingMs = some remaining → held.releaseAt = now + remaining := by
  obtain ⟨hgroup, remaining, hremaining, -, hbound⟩ := hledger.outstanding o ho
  rw [← h.configured, ← h.wf.groups] at hgroup
  obtain ⟨g, hg⟩ := mem_iff.mp hgroup
  refine ⟨g, hg, orphanOf ((config.groups[o.group]?).getD default) now o, ?_, rfl, ?_⟩
  · rw [h.orphans o.group g hg]
    exact mem_map_of_mem (mem_filter.mpr ⟨ho, beq_self_eq_true _⟩)
  intro remaining' hremaining'
  rw [hremaining, Option.some.injEq] at hremaining'
  subst hremaining'
  exact orphanOf_releaseAt hremaining (hledger.resumes.leases o ho remaining hremaining) hbound

lemma Restored.attempt (hledger : Restartable config ledger now) {gid : GroupId} {g : Group}
    (hg : p.groups[gid]? = some g) {held : Orphan} (hheld : held ∈ g.orphans) :
    held.attempt ∈ ledger.outstanding ∧ ∃ remaining, 1 ≤ remaining ∧
      held.attempt.releaseRemainingMs = some remaining ∧ held.releaseAt = now + remaining := by
  rw [h.orphans gid g hg] at hheld
  obtain ⟨o, ho, rfl⟩ := mem_map.mp hheld
  obtain ⟨ho, hgroup⟩ := mem_filter.mp ho
  obtain ⟨-, remaining, hremaining, hpositive, hbound⟩ := hledger.outstanding o ho
  rw [beq_iff_eq.mp hgroup] at hbound
  exact ⟨ho, remaining, hpositive, hremaining,
    orphanOf_releaseAt hremaining (hledger.resumes.leases o ho remaining hremaining) hbound⟩

lemma Restored.settled_of_ahead (hahead : ∀ (gid : GroupId) (g : Group), p.groups[gid]? = some g →
      ∀ o ∈ g.orphans, now < o.releaseAt) : p.Settled now where
  clock := h.clock
  leases := by
    apply eq_nil_iff_forall_not_mem.mpr
    intro id hid
    obtain ⟨gid, g, since, hg, hs, -⟩ := mem_elapsedLeases.mp hid
    -- a lease belongs to a request, and a restored policy has none
    rw [h.wf.certain_of_empty h.requests hg id] at hs
    cases hs
  orphans := hahead
  requests := by
    intro id r hr
    rw [h.requests] at hr
    simp at hr

lemma Restored.settled_of_restartable (hledger : Restartable config ledger now) :
    p.Settled now := by
  refine h.settled_of_ahead ?_
  intro gid g hg held hheld
  obtain ⟨-, remaining, hpositive, -, hrelease⟩ := h.attempt hledger hg hheld
  omega

lemma Restored.accounts_groups (hall : ∀ gid : GroupId, gid ∈ config.groups → gid ∈ ledger.groups) :
    (p.accounts now).groups = ledger.groups := by
  apply Std.ExtTreeMap.ext_getElem?
  intro gid
  simp only [accounts, Std.ExtTreeMap.getElem?_map]
  cases hg : p.groups[gid]? with
  | none =>
    cases hdurable : ledger.groups[gid]? with
    | none => rfl
    | some durable =>
      have hmem : gid ∈ p.groups := by
        rw [h.wf.groups, h.configured]
        exact h.timed gid (mem_iff.mpr ⟨durable, hdurable⟩)
      obtain ⟨g, hsome⟩ := mem_iff.mp hmem
      rw [hg] at hsome
      cases hsome
  | some g =>
    have hconfig : gid ∈ config.groups := by
      rw [← h.configured, ← h.wf.groups]
      exact mem_iff.mpr ⟨g, hg⟩
    obtain ⟨durable, hdurable⟩ := mem_iff.mp (hall gid hconfig)
    obtain ⟨hcooldown, hpacing, havailable⟩ := h.resumed gid g durable hg hdurable
    rw [hdurable, Option.map_some, ledgerGroup, hcooldown, hpacing, havailable,
      Nat.add_sub_cancel_left, Nat.add_sub_cancel_left]

lemma Restored.accounts_outstanding (hledger : Restartable config ledger now) :
    (p.accounts now).outstanding.Perm ledger.outstanding := by
  have hrequests : p.requests.toList = [] := by
    rw [h.requests]
    rfl
  have horphans : (p.groups.toList.flatMap fun e => e.2.orphans.map (orphanOutstanding now)) =
      p.groups.collect fun gid _ => ledger.outstanding.filter fun o => o.group == gid := by
    apply flatMap_congr
    intro e he
    rw [h.orphans e.1 e.2 (mem_toList_iff.mp he), orphansIn, map_map]
    refine (map_congr_left ?_).trans (map_id _)
    intro o ho
    -- an attempt of the ledger comes back with the time it had
    obtain ⟨ho, hgroup⟩ := mem_filter.mp ho
    obtain ⟨-, remaining, hremaining, -, hbound⟩ := hledger.outstanding o ho
    rw [beq_iff_eq.mp hgroup] at hbound
    have hrelease := orphanOf_releaseAt hremaining
      (hledger.resumes.leases o ho remaining hremaining) hbound
    rw [Function.comp_apply, orphanOutstanding, hrelease, Nat.add_sub_cancel_left, ← hremaining]
    rfl
  rw [accounts, hrequests, horphans]
  apply collect_partition
  intro o ho
  rw [h.wf.groups, h.configured]
  exact h.held o ho

end Restored

/-! ## The round trip -/

/-- A restart from the ledger of a run loses nothing.  The restored policy writes the same
ledger; what remains of each lease is at least an instant and at most the attempt timeout and
the margin from the later of its grant and its owner's loss; and until that much time has
passed on the new clock, nothing but a reset releases the attempt. -/
theorem restart_round_trip {p : AdmissionPolicy} (hinitial : p.Initial) (ops : List Operation)
    {now restart : Nat} {ledger : AdmissionLedger} {q : AdmissionPolicy}
    (hledger : (exec step p ops).ledger now = (.ok ledger, q)) (hfits : q.LeasesFit now)
    (hresumes : ledger.ResumesAt restart) :
    ∃ restored, restore (exec step p ops).config ledger restart = .ok restored ∧
      (∃ again, restored.ledger restart = (.ok again, restored) ∧ again.Same ledger) ∧
      ∀ o ∈ ledger.outstanding, ∃ remaining lost,
        o.releaseRemainingMs = some remaining ∧ 1 ≤ remaining ∧
        q.HeldSince p.now now o lost ∧ lost ≤ now ∧
        now + remaining ≤ lost + (q.policyAt o.group).attemptTimeoutMs + uncertainLeaseMarginMs ∧
        ∀ later, (∀ m ∈ moments step restored later, isReset m.input m.output = false) →
          (exec step restored later).now < restart + remaining →
          ∃ g, (exec step restored later).groups[o.group]? = some g ∧
            ∃ held ∈ g.orphans, held.attempt = o := by
  obtain ⟨htick, rfl⟩ : (exec step p ops).tick now = .ok q ∧ q.accounts now = ledger := by
    unfold AdmissionPolicy.ledger at hledger
    cases htick : (exec step p ops).tick now with
    | error e =>
      rw [htick] at hledger
      cases hledger
    | ok q' =>
      rw [htick] at hledger
      obtain ⟨haccounts, rfl⟩ := Prod.mk.inj hledger
      exact ⟨rfl, Except.ok.inj haccounts⟩
  have wfp : (exec step p ops).Wf := exec_invariant step_wf hinitial.wf ops
  obtain ⟨wf, hcalm⟩ := wf_of_tick wfp htick
  have hsettled := settled_of_tick wfp htick
  have hleased := (exec_leased hinitial ops).tick wfp htick
  rw [← hcalm.config]
  have hrestartable : Restartable q.config (q.accounts now) restart := by
    refine ⟨?_, ?_, hresumes⟩
    · intro gid
      rw [← wf.groups]
      exact Std.ExtTreeMap.mem_map
    intro o ho
    obtain ⟨remaining, lost, hremaining, hpositive, hheld, hlost, hbound⟩ :=
      hleased.outstanding wf hsettled hfits ho
    rw [policyAt] at hbound
    exact ⟨hheld.configured wf, remaining, hremaining, hpositive, by omega⟩
  obtain ⟨restored, hrestore⟩ : ∃ restored,
      restore q.config (q.accounts now) restart = .ok restored := by
    refine restore_ok wf.valid ?_ fun o ho => (hrestartable.outstanding o ho).1
    intro gid durable hdurable
    exact ⟨(hrestartable.groups gid).mp (mem_iff.mpr ⟨durable, hdurable⟩),
      hresumes.timings gid durable hdurable⟩
  have hrestored := restored_of_restore hrestore
  refine ⟨restored, hrestore, ⟨restored.accounts restart, ?_, hrestored.epoch,
    hrestored.accounts_groups fun gid => (hrestartable.groups gid).mpr,
    hrestored.accounts_outstanding hrestartable⟩, ?_⟩
  · rw [AdmissionPolicy.ledger, (hrestored.settled_of_restartable hrestartable).tick]
  intro o ho
  obtain ⟨remaining, lost, hremaining, hpositive, hheld, hlost, hbound⟩ :=
    hleased.outstanding wf hsettled hfits ho
  refine ⟨remaining, lost, hremaining, hpositive, hheld, hlost, hbound, ?_⟩
  intro later hkept hbefore
  obtain ⟨g, hg, held, hmem, rfl, hrelease⟩ := hrestored.orphan hrestartable ho
  have hlasts := (exec_lasts hrestored.wf later hkept).groups held.attempt.group
  obtain ⟨g', hg', hgroup⟩ := exists_of_rel_left hlasts hg
  refine ⟨g', hg', held, hgroup.orphans held hmem ?_, rfl⟩
  rw [hrelease remaining hremaining]
  exact hbefore

def sampleObserved : AdmissionPolicy := (exec step samplePolicy sampleRun).advance 10

/-- The attempt of the sample deployment has its timeout and its margin left, less what has
passed, and a restart at 3 writes that down again. -/
theorem restart_round_trip_sample :
    (sampleObserved.accounts 10).outstanding = [⟨sampleGroup, 1, 1, some 60996⟩] ∧ ∃ restored again,
        restore (exec step samplePolicy sampleRun).config (sampleObserved.accounts 10) 3 =
          .ok restored ∧
        restored.ledger 3 = (.ok again, restored) ∧ again.Same (sampleObserved.accounts 10) := by
  have htick : (exec step samplePolicy sampleRun).tick 10 = .ok sampleObserved :=
    tick_ok_iff.mpr ⟨by decide +kernel, rfl⟩
  have hledger : (exec step samplePolicy sampleRun).ledger 10 =
      (.ok (sampleObserved.accounts 10), sampleObserved) := by
    rw [AdmissionPolicy.ledger, htick]
  have hfits : sampleObserved.LeasesFit 10 := by
    intro id r granted deadline required hr hstate
    have hall : sampleObserved.requests.toList.all (fun e =>
        decide (e.2.state.isActive = true →
          e.2.state = .active 6 1006 false ∧ sampleObserved.sinceOf e.1 e.2 = none)) = true := by
      decide +kernel
    obtain ⟨hactive, hsince⟩ := of_decide_eq_true
      (all_eq_true.mp hall (id, r) (mem_toList_iff.mpr hr)) (by rw [hstate]; rfl)
    cases hstate.symm.trans hactive
    rw [hsince]
    decide
  have hresumes : (sampleObserved.accounts 10).ResumesAt 3 := by
    constructor
    · intro gid durable hdurable
      have hall : (sampleObserved.accounts 10).groups.toList.all (fun e =>
          decide (3 + e.2.cooldownRemainingMs ≤ u64Max ∧ 3 + e.2.pacingRemainingMs ≤ u64Max)) =
            true := by decide +kernel
      exact of_decide_eq_true (all_eq_true.mp hall (gid, durable)
        (mem_toList_iff.mpr hdurable))
    · intro o ho remaining hremaining
      have hall : (sampleObserved.accounts 10).outstanding.all (fun o =>
          decide (3 + o.releaseRemainingMs.getD 0 ≤ u64Max)) = true := by decide +kernel
      have hone := of_decide_eq_true (all_eq_true.mp hall o ho)
      rw [hremaining] at hone
      exact hone
  obtain ⟨restored, hrestored, ⟨again, hagain, hsame⟩, -⟩ :=
    restart_round_trip samplePolicy_initial sampleRun hledger hfits hresumes
  exact ⟨by decide +kernel, restored, again, hrestored, hagain, hsame⟩

end AdmissionPolicy

open AdmissionPolicy

end Quecto.Admission
