/-
  Admission/Occupancy.lean --- a group is never over-occupied.
-/
import Quecto.Admission.Observation

namespace Quecto.Admission

open Foundation OrdMap

/-! ## The bounds -/

/-- The bounds a group's policy puts on its active background and interactive
attempts: the slots in all, the shared slots for background, and the shared
slots for everything that is not in the reserve. -/
structure GroupPolicy.Fits (policy : GroupPolicy) (background interactive : Nat) : Prop where
  total : background + interactive ≤ policy.capacity
  opened : background ≤ policy.capacity - policy.reserve
  shared : background + (interactive - policy.reserve) ≤ policy.capacity - policy.reserve

variable {policy : GroupPolicy} {b i : Nat}

lemma GroupPolicy.Fits.mono {b' i' : Nat} (h : policy.Fits b i) (hb : b' ≤ b) (hi : i' ≤ i) :
    policy.Fits b' i' := by
  obtain ⟨h₁, h₂, h₃⟩ := h
  exact ⟨by omega, by omega, by omega⟩

lemma GroupPolicy.fits_zero (policy : GroupPolicy) : policy.Fits 0 0 :=
  ⟨by omega, by omega, by omega⟩

lemma GroupPolicy.fits_succ_background (hroom : b + i < policy.capacity)
    (hshared : b + (i - policy.reserve) < policy.capacity - policy.reserve) :
    policy.Fits (b + 1) i :=
  ⟨by omega, by omega, by omega⟩

lemma GroupPolicy.Fits.succ_interactive (h : policy.Fits b i) (hroom : b + i < policy.capacity) :
    policy.Fits b (i + 1) := by
  obtain ⟨h₁, h₂, h₃⟩ := h
  exact ⟨by omega, by omega, by omega⟩

namespace AdmissionPolicy

/-! ## The counters -/

lemma activeCount_eq (p : AdmissionPolicy) (gid : GroupId) :
    p.activeCount gid = p.classActive gid .background + p.classActive gid .interactive := by
  refine count_add_count fun id r _ => ?_
  cases p.classAt id.scope <;> simp

lemma sharedActive_eq (q : AdmissionPolicy) (gid : GroupId) :
    q.sharedActive gid (q.activeCount gid) = q.classActive gid .background +
        (q.classActive gid .interactive - (q.policyAt gid).reserve) := by
  have hinteractive : q.activeCount gid - q.classActive gid .background =
      q.classActive gid .interactive := by
    rw [activeCount_eq]
    omega
  unfold sharedActive
  dsimp only
  rw [hinteractive]

variable {p p' q : AdmissionPolicy} {gid : GroupId} {id : RequestId} {now : Nat}

lemma classActive_test {workload : WorkloadClass} {r : Request} :
    (r.group == gid && r.state.isActive && decide (p.classAt id.scope = workload)) = true ↔
      r.group = gid ∧ r.state.isActive = true ∧ p.classAt id.scope = workload := by
  simp only [Bool.and_eq_true, beq_iff_eq, decide_eq_true_eq, and_assoc]

lemma Calm.classAt (h : Calm p p') {scope : ScopeId} {s : Scope} (hs : p.scopes[scope]? = some s) :
    p'.classAt scope = p.classAt scope := by
  obtain ⟨s', hs', _, hclass, _⟩ := h.scopes scope s hs
  rw [AdmissionPolicy.classAt, AdmissionPolicy.classAt, hs, hs']
  exact hclass

lemma Calm.classActive_le (wf : p.Wf) (h : Calm p p') (gid : GroupId) (workload : WorkloadClass) :
    p'.classActive gid workload ≤ p.classActive gid workload := by
  refine count_le_count fun id r' hr' htest => ?_
  obtain ⟨hgroup, hactive, hclass⟩ := classActive_test.mp htest
  obtain ⟨r, hr, hmarked⟩ := h.active id r' hr' hactive
  obtain ⟨s, hs, _⟩ := wf.owner id r hr
  refine ⟨r, hr, classActive_test.mpr ⟨?_, ?_, ?_⟩⟩
  · rw [← hmarked.group]; exact hgroup
  · rw [← hmarked.state.isActive_eq]; exact hactive
  · rw [← h.classAt hs]; exact hclass

lemma Grants.classActive_le (h : q.Grants gid id now) (gid' : GroupId) (workload : WorkloadClass) :
    (q.afterGrant gid id now).classActive gid' workload ≤ q.classActive gid' workload +
      if gid' = gid ∧ workload = q.classAt id.scope then 1 else 0 := by
  split
  · refine count_le_count_succ id fun a r' hne hr' htest => ?_
    rcases afterGrant_lookup h hr' with ⟨heq, _⟩ | ⟨_, hr⟩
    · exact absurd heq hne
    · exact ⟨r', hr, htest⟩
  rename_i hother
  rw [Nat.add_zero]
  refine count_le_count fun a r' hr' htest => ?_
  rcases afterGrant_lookup h hr' with ⟨rfl, hgroup, _⟩ | ⟨_, hr⟩
  · obtain ⟨hgroup', _, hclass⟩ := classActive_test.mp htest
    exact absurd ⟨by rw [← hgroup', hgroup], hclass.symm⟩ hother
  · exact ⟨r', hr, htest⟩

/-- Background work is granted only while a shared slot is free. -/
lemma Grants.shared (h : q.Grants gid id now) (hclass : q.classAt id.scope = .background) :
    q.classActive gid .background + (q.classActive gid .interactive - (q.policyAt gid).reserve) <
      (q.policyAt gid).capacity - (q.policyAt gid).reserve := by
  rcases select_eq_some h.selected with hbackground | ⟨hinteractive, _⟩
  · rw [← sharedActive_eq]
    exact (backgroundCandidate_eq_some hbackground).1
  · cases (classAt_of_candidate hinteractive).symm.trans hclass

/-! ## The invariant -/

/-- Every group holds what its policy allows. -/
def WithinCapacity (p : AdmissionPolicy) : Prop :=
  ∀ gid, (p.policyAt gid).Fits (p.classActive gid .background) (p.classActive gid .interactive)

lemma withinCapacity_of_empty (h : p.requests = ∅) : p.WithinCapacity := by
  have hzero : ∀ gid workload, p.classActive gid workload = 0 := by
    intro gid workload
    unfold classActive
    rw [h]
    rfl
  intro gid
  rw [hzero, hzero]
  exact GroupPolicy.fits_zero _

lemma Calm.withinCapacity (wf : p.Wf) (h : Calm p p') (hp : p.WithinCapacity) :
    p'.WithinCapacity := by
  intro gid
  have hpolicy : p'.policyAt gid = p.policyAt gid := by
    rw [policyAt, policyAt, h.config]
  rw [hpolicy]
  exact (hp gid).mono (h.classActive_le wf gid _) (h.classActive_le wf gid _)

lemma Grants.withinCapacity (h : q.Grants gid id now) (hq : q.WithinCapacity) :
    (q.afterGrant gid id now).WithinCapacity := by
  intro gid'
  have hbound := h.classActive_le gid'
  have hfits := hq gid'
  by_cases hgid : gid' = gid
  · subst hgid
    have hroom := h.room
    rw [activeCount_eq] at hroom
    have hb := hbound .background
    have hi := hbound .interactive
    cases hclass : q.classAt id.scope with
    | background =>
      simp only [hclass, true_and, reduceCtorEq, and_false, ite_true, ite_false] at hb hi
      exact (GroupPolicy.fits_succ_background hroom (h.shared hclass)).mono hb hi
    | interactive =>
      simp only [hclass, true_and, reduceCtorEq, and_false, ite_true, ite_false] at hb hi
      exact (hfits.succ_interactive hroom).mono hb hi
  · refine hfits.mono ?_ ?_
    · simpa [hgid] using hbound .background
    · simpa [hgid] using hbound .interactive

lemma step_withinCapacity (p : AdmissionPolicy) (op : Operation)
    (h : p.Wf ∧ p.WithinCapacity) : (p.step op).2.Wf ∧ (p.step op).2.WithinCapacity :=
  ⟨step_wf p op h.1, step_keeps h.1 op (fun _ hcalm => hcalm.withinCapacity h.1 h.2)
    (fun _ hq grants => grants.withinCapacity hq) fun _ _ => withinCapacity_of_empty rfl⟩

lemma Initial.requests (h : p.Initial) : p.requests = ∅ := by
  rcases h with ⟨epoch, config, h⟩ | ⟨config, ledger, now, h⟩
  · exact (fresh_of_new h).requests
  · exact (restored_of_restore h).requests

lemma Reachable.withinCapacity (h : p.Reachable) : p.WithinCapacity := by
  obtain ⟨start, ops, hstart, rfl⟩ := h
  exact (exec_invariant step_withinCapacity
    ⟨hstart.wf, withinCapacity_of_empty hstart.requests⟩ ops).2

/-! ## No grant over uncertain occupancy -/

lemma next_certain (wf : p.Wf) (h : (p.next gid now).1 = .ok (some id)) :
    ((p.next gid now).2.groupAt gid).uncertain = ∅ ∧ ((p.next gid now).2.groupAt gid).orphans = [] ∧
      (∀ (a : RequestId) (since : Nat), (p.groupAt gid).uncertain[a]? = some since →
        p.leaseElapsed now a since = true) ∧ ∀ o ∈ (p.groupAt gid).orphans, o.releaseAt ≤ now := by
  rcases next_cases p gid now with ⟨q, id', hq, hgrants, hresult⟩ | ⟨hnone, _⟩
  · obtain ⟨g, hg⟩ := mem_iff.mp hgrants.known
    have hobs := observed_tick wf hq
    have hgroup := hobs.groups gid
    rw [hg] at hgroup
    obtain ⟨g₀, hg₀, hgg⟩ := Option.map_eq_some_iff.mp hgroup.symm
    have hcertain := hgrants.certain
    have hunorphaned := hgrants.unorphaned
    rw [groupAt_of_some hg] at hcertain hunorphaned
    rw [hresult, hgrants.groupAt, Group.granted_uncertain, Group.granted_orphans,
      groupAt_of_some hg, groupAt_of_some hg₀]
    refine ⟨hcertain, hunorphaned, ?_, ?_⟩
    · intro a since hs
      have hnone : (g.uncertain)[a]? = none := by rw [hcertain]; simp
      rw [← hgg, observedGroup, getElem?_filter_eq, hs] at hnone
      simpa [Option.filter_some] using hnone
    intro o ho
    rw [← hgg, observedGroup, List.filter_eq_nil_iff] at hunorphaned
    simpa using hunorphaned o ho
  · exact absurd h (hnone id)

/-- Occupancy of every reachable policy: each group holds at most its capacity,
background at most the shared slots, and background together with the
interactive attempts beyond the reserve at most the shared slots.  A grant is
never made while a lease of the group is uncertain or an orphan is held. -/
theorem occupancy_bounded {p : AdmissionPolicy} (hp : p.Reachable) {gid : GroupId}
    {policy : GroupPolicy} (hpolicy : p.config.groups[gid]? = some policy) :
    p.activeCount gid ≤ policy.capacity ∧
      p.classActive gid .background ≤ policy.capacity - policy.reserve ∧
      p.classActive gid .background + (p.classActive gid .interactive - policy.reserve) ≤
        policy.capacity - policy.reserve ∧
      ∀ (now : Nat) (id : RequestId), (p.next gid now).1 = .ok (some id) →
        ((p.next gid now).2.groupAt gid).uncertain = ∅ ∧
          ((p.next gid now).2.groupAt gid).orphans = [] ∧
          (∀ (a : RequestId) (since : Nat), (p.groupAt gid).uncertain[a]? = some since →
            p.leaseElapsed now a since = true) ∧
          ∀ o ∈ (p.groupAt gid).orphans, o.releaseAt ≤ now := by
  have hfits := hp.withinCapacity gid
  rw [show p.policyAt gid = policy by rw [policyAt, hpolicy]; rfl] at hfits
  refine ⟨?_, hfits.opened, hfits.shared, fun now id h => next_certain hp.wf h⟩
  rw [activeCount_eq]
  exact hfits.total

/-- The one slot of the sample deployment is taken, and not twice. -/
theorem occupancy_bounded_sample : (exec step samplePolicy sampleRun).activeCount sampleGroup = 1 ∧
      (exec step samplePolicy sampleRun).activeCount sampleGroup ≤ 1 ∧
      (exec step samplePolicy sampleRun).classActive sampleGroup .background ≤ 1 - 0 := by
  have h := @occupancy_bounded _ (samplePolicy_reaches sampleRun) sampleGroup sampleGroupPolicy
    (by decide +kernel)
  exact ⟨by decide +kernel, h.1, h.2.1⟩

end AdmissionPolicy

end Quecto.Admission
