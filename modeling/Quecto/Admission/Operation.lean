/-
  Admission/Operation.lean --- every operation is quiet, a grant or a reset.
-/
import Quecto.Admission.Invariant

namespace Quecto.Admission

open Foundation OrdMap

namespace AdmissionPolicy

variable {a id : RequestId} {p q : AdmissionPolicy} {gid : GroupId} {g : Group} {now : Nat}

lemma foldl_terminal_lookup (outcome : TerminalOutcome) (l : List RequestId)
    (p : AdmissionPolicy) {r : Request}
    (h : (l.foldl (fun p id => p.terminal id outcome none) p).requests[a]? = some r) :
    r.state.isTerminal = true ∨ (a ∉ l ∧ p.requests[a]? = some r) := by
  induction l generalizing p with
  | nil => exact Or.inr ⟨by simp, h⟩
  | cons id l ih =>
    rcases ih (p.terminal id outcome none) h with hterm | ⟨hnot, hr⟩
    · exact Or.inl hterm
    rcases terminal_lookup hr with ⟨_, hstate, _⟩ | ⟨hne, hr⟩
    · exact Or.inl (by rw [hstate]; rfl)
    · exact Or.inr ⟨by simp [hne, hnot], hr⟩

/-- Abandoning a scope is quiet: each entry listed is still there when its turn comes. -/
lemma quiets_abandon_foldl (now : Nat) (l : List (RequestId × Request)) :
    ∀ acc : AbandonReport × AdmissionPolicy, acc.2.Wf → l.Pairwise (fun a b => a.1 < b.1) →
      (∀ e ∈ l, e.2.state.isTerminal = false → acc.2.requests[e.1]? = some e.2) →
      Quiets acc.2 (l.foldl (abandonOne now) acc).2 := by
  induction l with
  | nil => intro acc _ _ _; exact .refl
  | cons e l ih =>
    intro acc wf hsorted hlisted
    rw [List.foldl_cons]
    have hne : ∀ e' ∈ l, e'.1 ≠ e.1 := fun e' he' =>
      ne_of_gt (List.rel_of_pairwise_cons hsorted he')
    have hrest : ∀ e' ∈ l, e'.2.state.isTerminal = false → acc.2.requests[e'.1]? = some e'.2 :=
      fun e' he' => hlisted e' (List.mem_cons_of_mem _ he')
    cases hstate : e.2.state with
    | queued deadline =>
      have hstep : (abandonOne now acc e).2 = acc.2.terminal e.1 .cancelled none := by
        simp [abandonOne, hstate]
      have hquiet : Quiet acc.2 (abandonOne now acc e).2 := by
        rw [hstep]; exact .finish _ _ _ _
      refine .head hquiet (ih _ (hquiet.wf wf) hsorted.of_cons ?_)
      intro e' he' hlive
      have hr := hrest e' he' hlive
      rw [hstep]
      exact terminal_keeps (hne e' he') (wf.not_mem_terminals hr hlive) hr
    | active started deadline required =>
      have hstep : (abandonOne now acc e).2 = acc.2.withGroup e.2.group fun g =>
          { g with uncertain := g.uncertain.insertIfNew e.1 now } := by
        simp [abandonOne, hstate]
      have hr : acc.2.requests[e.1]? = some e.2 :=
        hlisted e List.mem_cons_self (by rw [hstate]; rfl)
      have hquiet : Quiet acc.2 (abandonOne now acc e).2 := by
        rw [hstep]
        refine quiet_withGroup _ _ fun g =>
          { Group.Quieter.refl (acc.2.ActiveIn e.2.group) g with uncertain := ?_ }
        intro id since hs
        rw [getElem?_insertIfNew_eq] at hs
        split at hs
        · rename_i heq
          subst heq
          exact Or.inr ⟨e.2, hr, rfl, by rw [hstate]; rfl⟩
        · exact Or.inl hs
      refine .head hquiet (ih _ (hquiet.wf wf) hsorted.of_cons ?_)
      intro e' he' hlive
      rw [hstep]
      exact hrest e' he' hlive
    | terminal outcome =>
      have hstep : abandonOne now acc e = acc := by simp [abandonOne, hstate]
      rw [hstep]
      exact ih acc wf hsorted.of_cons hrest

/-! ## Grants -/

/-- When `next` grants the request `id` in the group, and nothing stands in the way. -/
structure Grants (q : AdmissionPolicy) (gid : GroupId) (id : RequestId) (now : Nat) : Prop where
  known : gid ∈ q.groups
  available : (q.groupAt gid).unavailable = false
  certain : (q.groupAt gid).uncertain = ∅
  unorphaned : (q.groupAt gid).orphans = []
  room : q.activeCount gid < (q.policyAt gid).capacity
  paced : (q.groupAt gid).nextStart ≤ now
  cooled : (q.groupAt gid).cooldown ≤ now
  selected : select (q.groupAt gid) (q.candidate gid .interactive)
    (q.backgroundCandidate gid (q.activeCount gid)) = some id
  intervalFits : now + (q.policyAt gid).minIntervalMs ≤ u64Max
  timeoutFits : now + (q.policyAt gid).attemptTimeoutMs ≤ u64Max

/-- The policy a grant leaves. -/
def afterGrant (q : AdmissionPolicy) (gid : GroupId) (id : RequestId) (now : Nat) :
    AdmissionPolicy :=
  q.grant gid (q.activeCount gid) (q.backgroundCandidate gid (q.activeCount gid)).isSome id now
    (now + (q.policyAt gid).minIntervalMs) (now + (q.policyAt gid).attemptTimeoutMs)

lemma groupAt_of_some (h : p.groups[gid]? = some g) : p.groupAt gid = g := by
  rw [groupAt, h]
  rfl

/-- What `next` does once the clock is observed. -/
def serve (q : AdmissionPolicy) (gid : GroupId) (now : Nat) : Answer (Option RequestId) :=
  match q.groups[gid]? with
  | none => (.error .unknownGroup, q)
  | some g =>
    let active := g.orphans.length + q.activeCount gid
    if g.unavailable then (.error .unavailable, q)
    else if 0 < g.uncertain.size + g.orphans.length then (.error .quarantined, q)
    else if (q.policyAt gid).capacity ≤ active ∨ now < g.nextStart ∨ now < g.cooldown then
      (.ok none, q)
    else
      match select g (q.candidate gid .interactive) (q.backgroundCandidate gid active) with
      | none => (.ok none, q)
      | some selected =>
        match checkedAdd now (q.policyAt gid).minIntervalMs,
            checkedAdd now (q.policyAt gid).attemptTimeoutMs with
        | some nextStart, some deadline =>
            (.ok (some selected),
              q.grant gid active (q.backgroundCandidate gid active).isSome selected now nextStart
                deadline)
        | _, _ => (.error .unavailable, q.markUnavailable gid)

lemma next_eq (p : AdmissionPolicy) (gid : GroupId) (now : Nat) : p.next gid now =
      match p.tick now with
      | .error e => (.error e, p)
      | .ok q => q.serve gid now := by
  unfold next snapshot serve
  cases p.tick now with
  | error e => rfl
  | ok q =>
    dsimp only
    cases hg : q.groups[gid]? with
    | none => rfl
    | some g =>
      obtain rfl : q.groupAt gid = g := groupAt_of_some hg
      rfl

lemma Grants.serve_eq (h : q.Grants gid id now) :
    q.serve gid now = (.ok (some id), q.afterGrant gid id now) := by
  obtain ⟨g, hg⟩ := mem_iff.mp h.known
  obtain ⟨_, havailable, hcertain, hunorphaned, hroom, hpaced, hcooled, hselected, hinterval,
    htimeout⟩ := h
  rw [groupAt_of_some hg] at havailable hcertain hunorphaned hpaced hcooled hselected
  have hactive : g.orphans.length + q.activeCount gid = q.activeCount gid := by
    rw [hunorphaned]; simp
  have hnone : ¬ 0 < g.uncertain.size + g.orphans.length := by
    rw [hcertain, hunorphaned]; simp
  unfold serve
  rw [hg]
  dsimp only
  rw [if_neg (by rw [havailable]; simp), if_neg hnone, hactive, if_neg (by omega), hselected]
  rw [checkedAdd_eq_some.mpr ⟨rfl, hinterval⟩, checkedAdd_eq_some.mpr ⟨rfl, htimeout⟩]
  rfl

/-- `serve` grants, or it leaves the policy as it is, or it marks the group unavailable. -/
lemma serve_cases (q : AdmissionPolicy) (gid : GroupId) (now : Nat) :
    (∃ id, q.Grants gid id now ∧ q.serve gid now = (.ok (some id), q.afterGrant gid id now)) ∨
      ((∀ id, (q.serve gid now).1 ≠ .ok (some id)) ∧
        (((q.serve gid now).1 = .error .unavailable → (q.groupAt gid).unavailable = true) ∧
            (q.serve gid now).2 = q ∨
          gid ∈ q.groups ∧ (q.serve gid now).2 = q.markUnavailable gid)) := by
  unfold serve
  cases hg : q.groups[gid]? with
  | none => exact Or.inr ⟨by simp, Or.inl ⟨by simp, rfl⟩⟩
  | some g =>
    have hga := groupAt_of_some hg
    have hmem : gid ∈ q.groups := mem_iff.mpr ⟨g, hg⟩
    dsimp only
    by_cases hun : g.unavailable = true
    · rw [if_pos hun, hga]
      exact Or.inr ⟨by simp, Or.inl ⟨fun _ => hun, rfl⟩⟩
    rw [if_neg hun]
    by_cases hcert : 0 < g.uncertain.size + g.orphans.length
    · rw [if_pos hcert]
      exact Or.inr ⟨by simp, Or.inl ⟨by simp, rfl⟩⟩
    rw [if_neg hcert]
    have horphans : g.orphans = [] := List.length_eq_zero_iff.mp (by omega)
    have hactive : g.orphans.length + q.activeCount gid = q.activeCount gid := by
      rw [horphans]; simp
    rw [hactive]
    by_cases hroom : (q.policyAt gid).capacity ≤ q.activeCount gid ∨ now < g.nextStart ∨
        now < g.cooldown
    · rw [if_pos hroom]
      exact Or.inr ⟨by simp, Or.inl ⟨by simp, rfl⟩⟩
    rw [if_neg hroom]
    simp only [not_or, not_le, not_lt] at hroom
    cases hsel : select g (q.candidate gid .interactive)
        (q.backgroundCandidate gid (q.activeCount gid)) with
    | none => exact Or.inr ⟨by simp, Or.inl ⟨by simp, rfl⟩⟩
    | some id =>
      cases hint : checkedAdd now (q.policyAt gid).minIntervalMs with
      | none => exact Or.inr ⟨by simp, Or.inr ⟨hmem, rfl⟩⟩
      | some nextStart =>
        cases htime : checkedAdd now (q.policyAt gid).attemptTimeoutMs with
        | none => exact Or.inr ⟨by simp, Or.inr ⟨hmem, rfl⟩⟩
        | some deadline =>
          obtain ⟨rfl, hintFits⟩ := checkedAdd_eq_some.mp hint
          obtain ⟨rfl, htimeFits⟩ := checkedAdd_eq_some.mp htime
          refine Or.inl ⟨id, ?_, rfl⟩
          exact
            { known := hmem
              available := by rw [hga]; simpa using hun
              certain := by rw [hga]; exact eq_empty_of_size (by omega)
              unorphaned := by rw [hga]; exact horphans
              room := hroom.1
              paced := by rw [hga]; exact hroom.2.1
              cooled := by rw [hga]; exact hroom.2.2
              selected := by rw [hga]; exact hsel
              intervalFits := hintFits
              timeoutFits := htimeFits }

lemma next_cases (p : AdmissionPolicy) (gid : GroupId) (now : Nat) :
    (∃ q id, p.tick now = .ok q ∧ q.Grants gid id now ∧
        p.next gid now = (.ok (some id), q.afterGrant gid id now)) ∨
      ((∀ id, (p.next gid now).1 ≠ .ok (some id)) ∧ Quiets p (p.next gid now).2) := by
  rw [next_eq]
  cases htick : p.tick now with
  | error e => exact Or.inr ⟨by simp, .refl⟩
  | ok q =>
    rcases serve_cases q gid now with ⟨id, hgrants, hresult⟩ | ⟨hnone, ⟨_, hleaves⟩ | ⟨_, hleaves⟩⟩
    · exact Or.inl ⟨q, id, rfl, hgrants, hresult⟩
    · exact Or.inr ⟨hnone, by rw [hleaves]; exact quiets_tick htick⟩
    · refine Or.inr ⟨hnone, ?_⟩
      rw [hleaves]
      exact (quiets_tick htick).tail (quiet_markUnavailable q gid)

lemma select_eq_some {interactive background : Option RequestId}
    (h : select g interactive background = some id) : background = some id ∨ interactive = some id ∧
      (background.isSome → g.interactiveStreak < 3 ∧ g.contestedPacingStreak < 3) := by
  cases background with
  | none => exact .inr ⟨by cases interactive <;> exact h, by simp⟩
  | some b =>
    cases interactive with
    | none => exact .inl h
    | some i =>
      have hid := Option.some.inj h
      split at hid
      · exact .inl (congrArg some hid)
      · exact .inr ⟨congrArg some hid, fun _ => by omega⟩

lemma backgroundCandidate_eq_some {active : Nat} (h : q.backgroundCandidate gid active = some id) :
    q.sharedActive gid active < (q.policyAt gid).capacity - (q.policyAt gid).reserve ∧
      q.candidate gid .background = some id := by
  unfold backgroundCandidate at h
  dsimp only at h
  split at h
  · rename_i hfree
    exact ⟨hfree.1, h⟩
  · cases h

lemma classAt_of_candidate {workload : WorkloadClass} (h : q.candidate gid workload = some id) :
    q.classAt id.scope = workload := by
  obtain ⟨r, _, hwaiting⟩ := (chosen_of_candidate h).waits
  exact (isWaiting_iff.mp hwaiting).2.1

/-- Whichever candidate is selected was chosen in its own class. -/
lemma chosen_of_select {active : Nat}
    (h : select g (q.candidate gid .interactive) (q.backgroundCandidate gid active) = some id) :
    q.Chosen gid (q.classAt id.scope) id := by
  have hclass : ∀ workload, q.candidate gid workload = some id →
      q.Chosen gid (q.classAt id.scope) id := by
    intro workload hcandidate
    rw [classAt_of_candidate hcandidate]
    exact chosen_of_candidate hcandidate
  rcases select_eq_some h with hbackground | ⟨hinteractive, _⟩
  · exact hclass _ (backgroundCandidate_eq_some hbackground).2
  · exact hclass _ hinteractive

lemma Grants.chosen (h : q.Grants gid id now) : q.Chosen gid (q.classAt id.scope) id :=
  chosen_of_select h.selected

section

variable (q : AdmissionPolicy) (gid : GroupId) (id : RequestId) (now : Nat)

@[simp] lemma afterGrant_scopes : (q.afterGrant gid id now).scopes = q.scopes := rfl

lemma afterGrant_requests (a : RequestId) : (q.afterGrant gid id now).requests[a]? =
      if id = a then
        q.requests[a]?.map fun r =>
          { r with state := .active now (now + (q.policyAt gid).attemptTimeoutMs) false }
      else q.requests[a]? :=
  getElem?_modify_eq _ _ _ _

lemma afterGrant_groups (a : GroupId) : (q.afterGrant gid id now).groups[a]? =
      if gid = a then
        q.groups[a]?.map fun g =>
          g.granted (q.classAt id.scope) (q.rootAt id.scope) id.scope
            (now + (q.policyAt gid).minIntervalMs)
            (q.backgroundCandidate gid (q.activeCount gid)).isSome
            (q.usesShared gid (q.activeCount gid) (q.classAt id.scope))
      else q.groups[a]? :=
  getElem?_modify_eq _ _ _ _

lemma afterGrant_groupAt_ne {a : GroupId} (hne : gid ≠ a) :
    (q.afterGrant gid id now).groupAt a = q.groupAt a := by
  rw [groupAt, groupAt, afterGrant_groups, if_neg hne]

lemma afterGrant_group_kept {a : GroupId} {g' : Group}
    (h : (q.afterGrant gid id now).groups[a]? = some g') :
    ∃ g, q.groups[a]? = some g ∧ g'.uncertain = g.uncertain ∧ g'.orphans = g.orphans ∧
      g'.cooldown = g.cooldown ∧ g'.unavailable = g.unavailable := by
  rw [afterGrant_groups] at h
  cases hg : q.groups[a]? with
  | none => rw [hg] at h; split at h <;> simp at h
  | some g =>
    rw [hg] at h
    split at h
    · rw [← Option.some.inj h]
      exact ⟨g, rfl, rfl, rfl, rfl, rfl⟩
    · exact ⟨g, rfl, by rw [Option.some.inj h]; simp⟩

end

lemma Grants.groupAt (h : q.Grants gid id now) : (q.afterGrant gid id now).groupAt gid =
      (q.groupAt gid).granted (q.classAt id.scope) (q.rootAt id.scope) id.scope
        (now + (q.policyAt gid).minIntervalMs)
        (q.backgroundCandidate gid (q.activeCount gid)).isSome
        (q.usesShared gid (q.activeCount gid) (q.classAt id.scope)) := by
  obtain ⟨g, hg⟩ := mem_iff.mp h.known
  rw [AdmissionPolicy.groupAt, afterGrant_groups, if_pos rfl, hg, groupAt_of_some hg]
  rfl

lemma Grants.queued (h : q.Grants gid id now) :
    ∃ r, q.requests[id]? = some r ∧ r.group = gid ∧ r.state.isQueued = true := by
  obtain ⟨r, hr, hw⟩ := h.chosen.waits
  obtain ⟨hgroup, _, hq⟩ := isWaiting_iff.mp hw
  exact ⟨r, hr, hgroup, hq⟩

lemma afterGrant_lookup (h : q.Grants gid id now) {r' : Request}
    (hr' : (q.afterGrant gid id now).requests[a]? = some r') : (a = id ∧ r'.group = gid ∧
        r'.state = .active now (now + (q.policyAt gid).attemptTimeoutMs) false) ∨
      (a ≠ id ∧ q.requests[a]? = some r') := by
  rw [afterGrant_requests] at hr'
  split at hr'
  · rename_i heq
    subst heq
    obtain ⟨r, hr, hgroup, _⟩ := h.queued
    rw [hr] at hr'
    have hr'' := Option.some.inj hr'
    exact Or.inl ⟨rfl, by rw [← hr'']; exact hgroup, by rw [← hr'']⟩
  · rename_i hne
    exact Or.inr ⟨fun e => hne e.symm, hr'⟩

lemma afterGrant_queued (h : q.Grants gid id now) {r : Request}
    (hr : (q.afterGrant gid id now).requests[a]? = some r) (hqueued : r.state.isQueued = true) :
    a ≠ id ∧ q.requests[a]? = some r := by
  rcases afterGrant_lookup h hr with ⟨_, _, hstate⟩ | hkept
  · rw [hstate] at hqueued
    cases hqueued
  · exact hkept

lemma Grants.wf (wf : q.Wf) (h : q.Grants gid id now) : (q.afterGrant gid id now).Wf := by
  obtain ⟨r₀, hr₀, hgroup₀, hqueued⟩ := h.queued
  have hlive := RequestState.not_isTerminal_of_isQueued hqueued
  have hmem : ∀ a : GroupId, a ∈ (q.afterGrant gid id now).groups ↔ a ∈ q.groups := by
    intro a
    rw [mem_iff, mem_iff, afterGrant_groups]
    split <;> simp
  constructor
  · exact wf.valid
  · intro a
    rw [hmem]
    exact wf.groups a
  · exact wf.scopes
  · intro a r hr
    rcases afterGrant_lookup h hr with ⟨rfl, _, _⟩ | ⟨_, hr⟩
    · obtain ⟨s, hs, hle⟩ := wf.scope_of_live hr₀ hlive
      obtain ⟨_, hs, hretired⟩ := scope_ok_iff.mp hs
      refine ⟨s, hs, hle, fun hret => ?_⟩
      rw [hretired] at hret
      simp at hret
    · exact wf.owner a r hr
  · intro a r hr
    rw [hmem]
    rcases afterGrant_lookup h hr with ⟨_, hgroup, _⟩ | ⟨_, hr⟩
    · rw [hgroup, ← hgroup₀]
      exact wf.grouped id r₀ hr₀
    · exact wf.grouped a r hr
  · intro a ha
    refine ⟨(wf.terminals a ha).1, ?_⟩
    intro r hr
    rcases afterGrant_lookup h hr with ⟨rfl, _, _⟩ | ⟨_, hr⟩
    · exact absurd ha (wf.not_mem_terminals hr₀ hlive)
    · exact (wf.terminals a ha).2 r hr
  · -- a lease of a group is the lease of another request, which stays active
    intro gid' g' a since hg' hs
    obtain ⟨g, hg, huncertain, _⟩ := afterGrant_group_kept q gid id now hg'
    rw [huncertain] at hs
    obtain ⟨r, hr, hgroup, hactive⟩ := wf.uncertain gid' g a since hg hs
    have hne := active_ne_queued hr hactive hr₀ hqueued
    exact ⟨r, by rw [afterGrant_requests, if_neg hne.symm]; exact hr, hgroup, hactive⟩

/-! ## Reset -/

lemma reset_cases (p : AdmissionPolicy) (now : Nat) :
    (∃ q, p.tick now = .ok q ∧ q.epoch + 1 ≤ u64Max ∧
        p.reset now = (.ok (q.epoch + 1), q.relinquish (q.epoch + 1))) ∨
      ((∀ epoch, (p.reset now).1 ≠ .ok epoch) ∧
        ((p.reset now).2 = p ∨ p.tick now = .ok (p.reset now).2)) := by
  unfold reset
  cases htick : p.tick now with
  | error e => exact Or.inr ⟨by simp, Or.inl rfl⟩
  | ok q =>
    dsimp only
    cases hepoch : checkedAdd q.epoch 1 with
    | none => exact Or.inr ⟨by simp, Or.inr rfl⟩
    | some epoch =>
      obtain ⟨rfl, hfits⟩ := checkedAdd_eq_some.mp hepoch
      exact Or.inl ⟨q, rfl, hfits, rfl⟩

lemma relinquish_lookup (q : AdmissionPolicy) (epoch : Nat) (gid : GroupId) :
    (q.relinquish epoch).groups[gid]? = q.groups[gid]?.map Group.relinquished :=
  Std.ExtTreeMap.getElem?_map

lemma Wf.relinquish (wf : q.Wf) (epoch : Nat) : (q.relinquish epoch).Wf := by
  constructor
  · exact wf.valid
  · intro gid
    show gid ∈ q.groups.map _ ↔ gid ∈ q.config.groups
    rw [Std.ExtTreeMap.mem_map]
    exact wf.groups gid
  · intro id s hs
    simp [AdmissionPolicy.relinquish] at hs
  · intro id r hr
    simp [AdmissionPolicy.relinquish] at hr
  · intro id r hr
    simp [AdmissionPolicy.relinquish] at hr
  · intro id hid
    simp [AdmissionPolicy.relinquish] at hid
  intro gid g id since hg hs
  rw [relinquish_lookup] at hg
  obtain ⟨g₀, _, rfl⟩ := Option.map_eq_some_iff.mp hg
  simp [Group.relinquished] at hs

end AdmissionPolicy

end Quecto.Admission
