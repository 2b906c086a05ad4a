/-
  Admission/Settled.lean --- observing twice at one instant, and sleeping until `nextWake`.
-/
import Quecto.Admission.Polling

namespace Quecto.Admission

open Foundation List OrdMap RequestState Request

/-- An observation at `now` leaves the request as it is. -/
def Request.Rests (r : Request) (now : Nat) : Prop :=
  r.waitElapsed now = false ∧ r.flagOverdue now = r

variable {r : Request}

lemma Request.rests_of_terminal (h : r.state.isTerminal = true) (now : Nat) :
    r.Rests now := by
  unfold Rests waitElapsed Request.flagOverdue
  cases hstate : r.state <;> simp_all [isTerminal]

lemma Request.rests_flagOverdue {since : Option Nat} {now : Nat}
    (h : r.endsBy since now = false) : (r.flagOverdue now).Rests now := by
  refine ⟨?_, flagOverdue_flagOverdue r (le_refl now)⟩
  unfold waitElapsed Request.flagOverdue
  unfold endsBy at h
  cases hstate : r.state <;> simp_all

namespace AdmissionPolicy

/-- A policy with nothing left to do at `now`. -/
structure Settled (q : AdmissionPolicy) (now : Nat) : Prop where
  clock : q.now = now
  leases : q.elapsedLeases now = []
  orphans : ∀ (gid : GroupId) (g : Group), q.groups[gid]? = some g →
    ∀ o ∈ g.orphans, now < o.releaseAt
  requests : ∀ (id : RequestId) (r : Request), q.requests[id]? = some r → r.Rests now

/-! ## A settled policy is observed for free -/

namespace Settled

variable {q : AdmissionPolicy} {now : Nat} (h : q.Settled now)
include h

lemma dropElapsedOrphans : q.dropElapsedOrphans now = q := by
  have hgroups : (q.groups.map fun _ g =>
      { g with orphans := g.orphans.filter fun o => decide (now < o.releaseAt) }) = q.groups := by
    refine map_eq_self fun gid g hg => ?_
    have hkept : g.orphans.filter (fun o => decide (now < o.releaseAt)) = g.orphans :=
      filter_eq_self.mpr fun o ho => by simpa using h.orphans gid g hg o ho
    rw [hkept]
  unfold AdmissionPolicy.dropElapsedOrphans
  rw [hgroups]

lemma flagOverdue : q.flagOverdue now = q := by
  have hrequests : (q.requests.map fun _ r => r.flagOverdue now) = q.requests :=
    map_eq_self fun id r hr => (h.requests id r hr).2
  unfold AdmissionPolicy.flagOverdue
  rw [hrequests]

lemma advance : q.advance now = q := by
  have hclock : q.atTime now = q := by
    unfold AdmissionPolicy.atTime
    rw [← h.clock]
  have hwaits : q.elapsedWaits now = [] := by
    apply eq_nil_iff_forall_not_mem.mpr
    intro id hid
    obtain ⟨r, hr, hw⟩ := mem_keysWith.mp hid
    rw [(h.requests id r hr).1] at hw
    simp at hw
  unfold AdmissionPolicy.advance
  rw [hclock, clearElapsedLeases, h.leases, foldl_nil, h.dropElapsedOrphans, expireWaits,
    hwaits, foldl_nil, h.flagOverdue]

lemma tick : q.tick now = .ok q := tick_ok_iff.mpr ⟨le_of_eq h.clock, h.advance.symm⟩

lemma enter {scope : ScopeId} {s : Scope} (hs : q.scope scope = .ok s) :
    q.enter scope now = .ok q := by
  unfold AdmissionPolicy.enter
  rw [hs]
  exact h.tick

end Settled

/-! ## Observations settle -/

variable {p q : AdmissionPolicy} {now : Nat}

lemma Observed.orphan_held (hq : p.Observed now q) {gid : GroupId} {g : Group}
    (hg : q.groups[gid]? = some g) {o : Orphan} (ho : o ∈ g.orphans) : now < o.releaseAt := by
  rw [hq.groups gid] at hg
  obtain ⟨g₀, _, rfl⟩ := Option.map_eq_some_iff.mp hg
  simpa using (mem_filter.mp ho).2

/-- A policy just observed is settled. -/
lemma Observed.settled (wf : p.Wf) (h : p.Observed now q) : q.Settled now where
  clock := h.clock
  leases := by
    apply eq_nil_iff_forall_not_mem.mpr
    intro a ha
    obtain ⟨gid, g, since, hg, hs, helapsed⟩ := mem_elapsedLeases.mp ha
    rw [h.groups gid] at hg
    obtain ⟨g₀, hg₀, rfl⟩ := Option.map_eq_some_iff.mp hg
    unfold AdmissionPolicy.observedGroup at hs
    rw [getElem?_filter_eq, Option.filter_eq_some_iff] at hs
    obtain ⟨hs, hkept⟩ := hs
    have hkept : p.leaseElapsed now a since = false := by simpa using hkept
    rw [h.leaseElapsed wf hg₀ hs hkept, hkept] at helapsed
    simp at helapsed
  orphans := fun _ _ hg _ ho => h.orphan_held hg ho
  requests := by
    intro id r hr
    cases hterm : r.state.isTerminal with
    | true => exact rests_of_terminal hterm now
    | false =>
      have hlive : q.live[id]? = some r := live_eq_some.mpr ⟨hr, hterm⟩
      rw [h.live id] at hlive
      obtain ⟨r₀, _, hbind⟩ := Option.bind_eq_some_iff.mp hlive
      split at hbind
      · simp at hbind
      rename_i hkept
      rw [← Option.some.inj hbind]
      exact rests_flagOverdue (by simpa using hkept)

lemma settled_of_tick (wf : p.Wf) (h : p.tick now = .ok q) : q.Settled now :=
  (observed_tick wf h).settled wf

/-! ## Changes within a turn -/

namespace Settled

variable {q : AdmissionPolicy} {now : Nat}

/-- A change that adds no lease and no orphan, and no request that is due, stays settled. -/
lemma of_lookup {q' : AdmissionPolicy} (h : q.Settled now) (hnow : q'.now = q.now)
    (hgroups : ∀ (gid : GroupId) (g' : Group), q'.groups[gid]? = some g' →
      ∃ g, q.groups[gid]? = some g ∧ g'.orphans = g.orphans ∧ ∀ (a : RequestId) (since : Nat),
        g'.uncertain[a]? = some since → g.uncertain[a]? = some since)
    (hrequests : ∀ (a : RequestId) (r' : Request), q'.requests[a]? = some r' →
      q.requests[a]? = some r' ∨ r'.Rests now ∧ (r'.state.isActive = true →
        ∀ (gid : GroupId) (g : Group), q.groups[gid]? = some g → g.uncertain[a]? = none)) :
    q'.Settled now where
  clock := hnow.trans h.clock
  leases := by
    apply eq_nil_iff_forall_not_mem.mpr
    intro a ha
    obtain ⟨gid, g', since, hg', hs', helapsed⟩ := mem_elapsedLeases.mp ha
    obtain ⟨g, hg, -, hs⟩ := hgroups gid g' hg'
    have hbefore : a ∉ q.elapsedLeases now := by rw [h.leases]; simp
    apply hbefore
    refine mem_elapsedLeases.mpr ⟨gid, g, since, hg, hs a since hs', ?_⟩
    unfold leaseElapsed leaseEnd at helapsed ⊢
    cases hr' : q'.requests[a]? with
    | none => rw [hr'] at helapsed; simp at helapsed
    | some r' =>
      rw [hr'] at helapsed
      rcases hrequests a r' hr' with hr | ⟨-, hnone⟩
      · rw [hr]
        exact helapsed
      cases hactive : r'.state.isActive with
      | false => cases hstate : r'.state <;> simp_all [isActive]
      | true => cases (hnone hactive gid g hg).symm.trans (hs a since hs')
  orphans := by
    intro gid g' hg' o ho
    obtain ⟨g, hg, horphans, -⟩ := hgroups gid g' hg'
    rw [horphans] at ho
    exact h.orphans gid g hg o ho
  requests := by
    intro a r' hr'
    rcases hrequests a r' hr' with hr | ⟨hrests, -⟩
    · exact h.requests a r' hr
    · exact hrests

lemma terminal (h : q.Settled now) (id : RequestId) (outcome : TerminalOutcome)
    (feedback : Option Feedback) : (q.terminal id outcome feedback).Settled now := by
  refine h.of_lookup (terminal_now ..) ?_ ?_
  · intro gid g' hg'
    cases hid : q.requests[id]? with
    | none =>
      rw [terminal_of_absent hid] at hg'
      exact ⟨g', hg', rfl, fun _ _ hs => hs⟩
    | some r =>
      rw [terminal_groups hid] at hg'
      obtain ⟨g, hg, ⟨_, rfl⟩ | ⟨_, rfl⟩⟩ := of_modify hg'
      · exact ⟨g, hg, rfl, fun _ _ hs => (of_erase hs).2⟩
      · exact ⟨g, hg, rfl, fun _ _ hs => hs⟩
  · intro a r' hr'
    rcases terminal_lookup hr' with ⟨_, hstate, _⟩ | ⟨_, hr⟩
    · refine .inr ⟨rests_of_terminal (by rw [hstate]; rfl) now, fun hactive => ?_⟩
      rw [hstate] at hactive
      simp [isActive] at hactive
    · exact .inl hr

lemma markUnavailable (h : q.Settled now) (gid : GroupId) :
    (q.markUnavailable gid).Settled now := by
  refine h.of_lookup rfl (fun a g' hg' => ?_) fun _ _ hr' => .inl hr'
  obtain ⟨g, hg, ⟨_, rfl⟩ | ⟨_, rfl⟩⟩ := of_modify hg' <;>
    exact ⟨g, hg, rfl, fun _ _ hs => hs⟩

lemma afterGrant (wf : q.Wf) (h : q.Settled now) {gid : GroupId} {id : RequestId}
    (hgrants : q.Grants gid id now) : (q.afterGrant gid id now).Settled now := by
  refine h.of_lookup rfl ?_ ?_
  · intro a g' hg'
    obtain ⟨g, hg, huncertain, horphans, -⟩ := afterGrant_group_kept q gid id now hg'
    exact ⟨g, hg, horphans, fun _ _ hs => huncertain ▸ hs⟩
  intro a r' hr'
  rcases afterGrant_lookup hgrants hr' with ⟨rfl, _, hstate⟩ | ⟨_, hr⟩
  swap
  · exact .inl hr
  refine .inr ⟨⟨?_, ?_⟩, ?_⟩
  · unfold waitElapsed
    rw [hstate]
  · have hpolicy : 0 < (q.policyAt gid).attemptTimeoutMs := by
      obtain ⟨policy, hp⟩ := mem_iff.mp ((wf.groups gid).mp hgrants.known)
      unfold policyAt
      rw [hp]
      exact (AdmissionConfig.group_bounds wf.valid hp).2.2.2.1
    unfold Request.flagOverdue
    rw [hstate]
    have hahead : decide (now + (q.policyAt gid).attemptTimeoutMs ≤ now) = false := by
      simp only [decide_eq_false_iff_not]
      omega
    dsimp only
    rw [hahead, Bool.or_false, ← hstate]
  · -- the granted request was queued, so it holds no lease
    intro _ gid' g hg
    obtain ⟨r, hr, _, hqueued⟩ := hgrants.queued
    cases hs : g.uncertain[a]? with
    | none => rfl
    | some since =>
      obtain ⟨r₁, hr₁, _, hactive⟩ := wf.uncertain gid' g a since hg hs
      exact absurd rfl (active_ne_queued hr₁ hactive hr hqueued)

lemma serve (wf : q.Wf) (h : q.Settled now) (gid : GroupId) : (q.serve gid now).2.Settled now := by
  rcases serve_cases q gid now with ⟨id, hgrants, hresult⟩ | ⟨_, ⟨_, hleaves⟩ | ⟨_, hleaves⟩⟩
  · rw [hresult]
    exact h.afterGrant wf hgrants
  · rw [hleaves]
    exact h
  · rw [hleaves]
    exact h.markUnavailable gid

end Settled

lemma settled_next (wf : p.Wf) (later : p.now ≤ now) (gid : GroupId) :
    (p.next gid now).2.Settled now := by
  have htick : p.tick now = .ok (p.advance now) := tick_ok_iff.mpr ⟨later, rfl⟩
  rw [next_eq, htick]
  exact (settled_of_tick wf htick).serve (wf_of_tick wf htick).1 gid

/-! ## The earliest instant -/

variable {now : Nat} {wake : Option Nat} {p q : AdmissionPolicy} {gid : GroupId} {instant : Nat}

lemma consider_le (h : now < instant) (wake : Option Nat) :
    ∃ w, consider now wake instant = some w ∧ w ≤ instant ∧ ∀ v, wake = some v → w ≤ v := by
  unfold consider
  rw [if_pos h]
  cases wake with
  | none => exact ⟨instant, rfl, le_refl _, by simp⟩
  | some v =>
    refine ⟨min v instant, rfl, Nat.min_le_right _ _, ?_⟩
    intro v' hv'
    rw [← Option.some.inj hv']
    exact Nat.min_le_left _ _

lemma consider_keeps (now instant : Nat) {w : Nat} (h : wake = some w) :
    ∃ w', consider now wake instant = some w' ∧ w' ≤ w := by
  by_cases hlater : now < instant
  · obtain ⟨w', hw', _, hle⟩ := consider_le hlater wake
    exact ⟨w', hw', hle w h⟩
  unfold consider
  rw [if_neg hlater]
  exact ⟨w, h, le_refl _⟩

lemma foldl_consider_le (instants : List Nat) : ∀ {wake : Option Nat},
      (∀ w, wake = some w → ∃ w', instants.foldl (consider now) wake = some w' ∧ w' ≤ w) ∧
        ∀ instant ∈ instants, now < instant →
          ∃ w', instants.foldl (consider now) wake = some w' ∧ w' ≤ instant := by
  induction instants with
  | nil =>
    exact ⟨fun w hw => ⟨w, hw, le_refl _⟩, by simp⟩
  | cons i instants ih =>
    intro wake
    obtain ⟨hkept, hfound⟩ := @ih (consider now wake i)
    constructor
    · intro w hw
      obtain ⟨w₁, hw₁, hle₁⟩ := consider_keeps now i hw
      obtain ⟨w₂, hw₂, hle₂⟩ := hkept w₁ hw₁
      exact ⟨w₂, hw₂, le_trans hle₂ hle₁⟩
    intro instant hmem hlater
    rcases mem_cons.mp hmem with rfl | hmem
    · obtain ⟨w₁, hw₁, hle₁, _⟩ := consider_le hlater wake
      obtain ⟨w₂, hw₂, hle₂⟩ := hkept w₁ hw₁
      exact ⟨w₂, hw₂, le_trans hle₂ hle₁⟩
    · exact hfound instant hmem hlater

/-- The instants a policy asks to be woken at. -/
def instants (q : AdmissionPolicy) : List Nat :=
  q.groups.toList.flatMap fun e => q.groupInstants e.1 e.2

/-- No instant passes between `now` and `t`. -/
def Asleep (q : AdmissionPolicy) (now t : Nat) : Prop :=
  ∀ instant ∈ q.instants, now < instant → t < instant

lemma asleep_of_nextWake {t : Nat} (hq : p.tick now = .ok q)
    (hwake : (p.nextWake now).1 = .ok wake) (hbefore : ∀ w, wake = some w → t < w) :
    q.Asleep now t := by
  intro instant hmem hlater
  have hfold : q.instants.foldl (consider now) none = wake := by
    unfold nextWake at hwake
    rw [hq] at hwake
    exact Except.ok.inj hwake
  obtain ⟨w, hw, hle⟩ := foldl_consider_le q.instants |>.2 instant hmem hlater
  rw [hfold] at hw
  exact lt_of_lt_of_le (hbefore w hw) hle

/-! ## What is among the instants -/

variable {a : RequestId}

section

variable {q : AdmissionPolicy} {gid : GroupId} {g : Group}

lemma mem_instants (hg : q.groups[gid]? = some g)
    (h : instant ∈ q.groupInstants gid g) : instant ∈ q.instants :=
  mem_flatMap.mpr ⟨(gid, g), mem_toList_iff.mpr hg, h⟩

lemma mem_instants_orphan (hg : q.groups[gid]? = some g) {o : Orphan} (ho : o ∈ g.orphans) :
    o.releaseAt ∈ q.instants := by
  refine mem_instants hg ?_
  unfold groupInstants
  rw [mem_append, mem_append]
  exact Or.inl (Or.inl (mem_map.mpr ⟨o, ho, rfl⟩))

lemma mem_instants_request
    (hr : q.requests[a]? = some r) (hg : q.groups[r.group]? = some g)
    (h : requestInstant g a r = some instant) : instant ∈ q.instants := by
  refine mem_instants hg ?_
  unfold groupInstants
  rw [mem_append, mem_append]
  refine Or.inl (Or.inr (mem_filterMap.mpr ⟨(a, r), ?_, h⟩))
  exact mem_filter.mpr ⟨mem_toList_iff.mpr hr, by simp⟩

lemma mem_instants_start (hg : q.groups[gid]? = some g) (hqueued : 0 < q.queuedCount gid)
    (hopen : q.blocked gid g = false) : max g.nextStart g.cooldown ∈ q.instants := by
  refine mem_instants hg ?_
  unfold groupInstants
  simp [hqueued, hopen]

end

/-! ## Nothing changes while asleep -/

lemma Observed.not_ended (wf : p.Wf) (hq : p.Observed now q)
    (hl : q.live[a]? = some r) : r.endsBy (q.sinceOf a r) now = false := by
  rw [hq.live a] at hl
  obtain ⟨r₀, hl₀, hr⟩ := Option.bind_eq_some_iff.mp hl
  split at hr
  · simp at hr
  rename_i he
  have he : r₀.endsBy (p.sinceOf a r₀) now = false := by simpa using he
  rw [← Option.some.inj hr, hq.sinceOf wf hl₀ he, (r₀.marked_flagOverdue now).endsBy]
  exact he

section Sleep

variable {p q q' : AdmissionPolicy} {now t : Nat}

lemma Asleep.not_ended (wf : p.Wf) (hq : p.Observed now q) (hasleep : q.Asleep now t)
    (hl : q.live[a]? = some r) :
    r.endsBy (q.sinceOf a r) t = false := by
  have hr := (live_eq_some.mp hl).1
  have hnow := hq.not_ended wf hl
  obtain ⟨g, hg⟩ := mem_iff.mp (hq.wf.grouped a r hr)
  have hsince : q.sinceOf a r = g.uncertain[a]? := by rw [sinceOf, groupAt_of_some hg]
  rw [hsince] at hnow ⊢
  cases hstate : r.state with
  | queued deadline =>
    have hlater : now < deadline := by
      simpa [endsBy, hstate] using hnow
    have hbefore := hasleep deadline
      (mem_instants_request hr hg (by simp only [requestInstant, hstate])) hlater
    simpa [endsBy, hstate] using hbefore
  | terminal outcome =>
    have := (live_eq_some.mp hl).2
    rw [hstate] at this
    simp [isTerminal] at this
  | active started deadline required =>
    rw [endsBy_active hstate] at hnow ⊢
    cases hs : g.uncertain[a]? with
    | none => rfl
    | some since =>
      rw [hs, Option.any_some, decide_eq_false_iff_not] at hnow
      rw [Option.any_some, decide_eq_false_iff_not]
      have hbefore := hasleep (leaseRelease deadline since)
        (mem_instants_request hr hg (by simp only [requestInstant, hstate, hs])) (not_le.mp hnow)
      exact not_le.mpr hbefore

/-- Sleeping changes nothing that a grant reads. -/
lemma Asleep.alike (wf : p.Wf) (hq : p.Observed now q) (hasleep : q.Asleep now t)
    (hq' : q.Observed t q') : Alike q q' := by
  have hlive : ∀ a : RequestId, q'.live[a]? = q.live[a]?.map fun r => r.flagOverdue t := by
    intro a
    rw [hq'.live a]
    cases hl : q.live[a]? with
    | none => rfl
    | some r =>
      rw [Option.bind_some, hasleep.not_ended wf hq hl]
      rfl
  have hmarked : ∀ {T : Request → Prop}, (∀ r : Request, T (r.flagOverdue t) ↔ T r) →
      ∀ a : RequestId, (∃ r, q'.live[a]? = some r ∧ T r) ↔ ∃ r, q.live[a]? = some r ∧ T r := by
    intro T hT a
    rw [hlive a]
    constructor
    · rintro ⟨r', hr', h⟩
      obtain ⟨r, hr, rfl⟩ := Option.map_eq_some_iff.mp hr'
      exact ⟨r, hr, (hT r).mp h⟩
    · rintro ⟨r, hr, h⟩
      exact ⟨_, by rw [hr]; rfl, (hT r).mpr h⟩
  refine ⟨hq'.config, hq'.scopes, ?_, fun gid a => ?_, fun gid a => ?_⟩
  · refine Std.ExtTreeMap.ext_getElem? fun gid => ?_
    rw [hq'.groups gid]
    cases hg : q.groups[gid]? with
    | none => rfl
    | some g =>
      have horphans : (g.orphans.filter fun o => decide (t < o.releaseAt)) = g.orphans := by
        refine filter_eq_self.mpr fun o ho => ?_
        exact decide_eq_true (hasleep _ (mem_instants_orphan hg ho) (hq.orphan_held hg ho))
      have huncertain : (g.uncertain.filter fun a since => !q.leaseElapsed t a since) =
          g.uncertain := by
        refine Std.ExtTreeMap.ext_getElem? fun a => ?_
        rw [getElem?_filter_eq]
        cases hs : g.uncertain[a]? with
        | none => rfl
        | some since =>
          obtain ⟨r, hr, _, hactive⟩ := hq.wf.uncertain gid g a since hg hs
          obtain ⟨_, _, hsince⟩ := hq.wf.sinceOf_eq hg hs hr
          have hkept := hasleep.not_ended wf hq
            (live_eq_some.mpr ⟨hr, not_isTerminal_of_isActive hactive⟩)
          rw [hsince, ← leaseElapsed_of_active _ _ hr hactive] at hkept
          simp [Option.filter_some, hkept]
      rw [Option.map_some, observedGroup, horphans, huncertain]
  · rw [queuedIn_iff_live, queuedIn_iff_live]
    refine hmarked (T := fun r => r.group = gid ∧ r.state.isQueued = true) (fun r => ?_) a
    rw [(r.marked_flagOverdue t).group, (r.marked_flagOverdue t).state.isQueued_eq]
  · rw [activeIn_iff_live, activeIn_iff_live]
    refine hmarked (T := fun r => r.group = gid ∧ r.state.isActive = true) (fun r => ?_) a
    rw [(r.marked_flagOverdue t).group, (r.marked_flagOverdue t).state.isActive_eq]

/-- What is granted after the sleep could have been granted before it. -/
lemma Grants.earlier (hasleep : q.Asleep now t) (halike : Alike q q')
    {id : RequestId} (h : q'.Grants gid id t) (hle : now ≤ t) : q.Grants gid id now := by
  obtain ⟨g, hg⟩ := mem_iff.mp (show gid ∈ q.groups by rw [← halike.groups]; exact h.known)
  have hgroup : q'.groupAt gid = g := by rw [halike.groupAt, groupAt_of_some hg]
  obtain ⟨r, hr, hrgroup, hrq⟩ := (halike.queued gid id).mp h.queued
  obtain ⟨_, havailable, hcertain, hunorphaned, hroom, hpaced, hcooled, hselected, hinterval,
    htimeout⟩ := h
  rw [hgroup] at havailable hcertain hunorphaned hpaced hcooled
  rw [halike.policyAt] at hroom hinterval htimeout
  rw [halike.activeCount] at hroom hselected
  rw [halike.candidate, halike.backgroundCandidate, halike.groupAt] at hselected
  -- the group asks to be woken when pacing and cooldown are over
  have hqueued : 0 < q.queuedCount gid := by
    rw [Nat.pos_iff_ne_zero]
    intro hzero
    have := count_eq_zero_iff.mp hzero id r hr
    simp [hrgroup, hrq] at this
  have hopen : q.blocked gid g = false := by
    unfold blocked
    simp only [Bool.or_eq_false_iff, decide_eq_false_iff_not, not_le, Bool.not_eq_false']
    refine ⟨⟨⟨havailable, ?_⟩, ?_⟩, ?_⟩
    · rw [hcertain]; rfl
    · rw [hunorphaned]; rfl
    · rw [hunorphaned]
      simpa using hroom
  have hstart := hasleep _ (mem_instants_start hg hqueued hopen)
  have hreached : max g.nextStart g.cooldown ≤ now := by
    omega
  obtain rfl := groupAt_of_some hg
  exact ⟨mem_iff.mpr ⟨_, hg⟩, havailable, hcertain, hunorphaned, hroom,
    le_trans (le_max_left _ _) hreached, le_trans (le_max_right _ _) hreached, hselected,
    by omega, by omega⟩

end Sleep

/-- If nothing is granted now, nothing is granted and no wait expires before the
wake, or ever when there is none: neither in the policy that asked for the wake
and slept, nor in the policy before it asked. -/
theorem sleeping_loses_nothing {p : AdmissionPolicy} (hp : p.Reachable) {now : Nat}
    (hidle : ∀ gid id, (p.next gid now).1 ≠ .ok (some id)) {wake : Option Nat}
    (hwake : (p.nextWake now).1 = .ok wake) {t : Nat} (hle : now ≤ t)
    (hbefore : ∀ w, wake = some w → t < w) :
    (∀ gid id, ((p.nextWake now).2.next gid t).1 ≠ .ok (some id)) ∧
      (∀ gid id, (p.next gid t).1 ≠ .ok (some id)) ∧
      ∀ (id : RequestId) (r : Request), (p.nextWake now).2.requests[id]? = some r →
        r.state.isQueued = true → ((p.nextWake now).2.observe t).requests[id]? = some r := by
  have wf := hp.wf
  cases htick : p.tick now with
  | error e =>
    unfold nextWake at hwake
    rw [htick] at hwake
    simp at hwake
  | ok q =>
    have hq := observed_tick wf htick
    have hpolicy : (p.nextWake now).2 = q := by
      unfold nextWake
      rw [htick]
    have hasleep := asleep_of_nextWake htick hwake hbefore
    have hq' := observed_advance hq.wf t
    have halike := hasleep.alike wf hq hq'
    have htick' : q.tick t = .ok (q.advance t) := tick_ok_iff.mpr ⟨by rw [hq.clock]; exact hle, rfl⟩
    have hnone : ∀ gid id, ((q.advance t).serve gid t).1 ≠ .ok (some id) := by
      intro gid id hserve
      rcases serve_cases (q.advance t) gid t with ⟨id', hgrants, _⟩ | ⟨hnot, _⟩
      · have hearlier := hgrants.earlier hasleep halike hle
        refine hidle gid id' ?_
        rw [next_eq, htick]
        exact congrArg Prod.fst hearlier.serve_eq
      · exact hnot id hserve
    rw [hpolicy]
    refine ⟨fun gid id => ?_, fun gid id => ?_, fun id r hr hqueued => ?_⟩
    · rw [next_eq, htick']
      exact hnone gid id
    · have hclock := (tick_ok_iff.mp htick).1
      have htick'' : p.tick t = .ok (p.advance t) := tick_ok_iff.mpr ⟨le_trans hclock hle, rfl⟩
      have hagree := hq.twice wf hle hq' (observed_advance wf t)
      rw [next_eq, htick'']
      rw [← (hagree.serve gid t).1]
      exact hnone gid id
    · have hl := live_eq_some.mpr ⟨hr, not_isTerminal_of_isQueued hqueued⟩
      have hlater : (q.advance t).live[id]? = some (r.flagOverdue t) := by
        rw [hq'.live id, hl, Option.bind_some, hasleep.not_ended wf hq hl]
        rfl
      have hsame : r.flagOverdue t = r := by
        cases hstate : r.state <;> simp_all [Request.flagOverdue, isQueued]
      rw [observe_eq (by rw [hq.clock]; exact hle)]
      rw [hsame] at hlater
      exact (live_eq_some.mp hlater).1

lemma not_grants_of_unknown (wf : p.Wf) (h : gid ∉ p.config.groups) (id : RequestId) :
    (p.next gid now).1 ≠ .ok (some id) := by
  rcases next_cases p gid now with ⟨q, id', hq, hgrants, _⟩ | ⟨hnone, _⟩
  · obtain ⟨wfq, hcalm⟩ := wf_of_tick wf hq
    exact absurd (by rw [← hcalm.config]; exact (wfq.groups gid).mp hgrants.known) h
  · exact hnone id

/-- The slot of the sample deployment is taken and a wait expires at 1005: until
then there is nothing to do. -/
theorem sleeping_loses_nothing_sample :
    ((exec step samplePolicy sampleRun).nextWake 10).1 = .ok (some 1005) ∧
      ∀ gid id, (((exec step samplePolicy sampleRun).nextWake 10).2.next gid 1004).1 ≠
        .ok (some id) := by
  have hwake : ((exec step samplePolicy sampleRun).nextWake 10).1 = .ok (some 1005) := by
    exact congrArg Except.ok (by decide +kernel)
  refine ⟨hwake, (sleeping_loses_nothing (samplePolicy_reaches sampleRun) ?_ hwake
    (by decide : 10 ≤ 1004) (by simp)).1⟩
  intro gid id
  by_cases hgid : gid = sampleGroup
  · subst hgid
    have hnone : ((exec step samplePolicy sampleRun).next sampleGroup 10).1.toOption =
        some none := by decide +kernel
    intro h
    rw [h] at hnone
    simp [Except.toOption] at hnone
  · refine not_grants_of_unknown (samplePolicy_reaches sampleRun).wf ?_ id
    have hkeys : (exec step samplePolicy sampleRun).config.groups.keys = [sampleGroup] := by
      decide +kernel
    rw [← Std.ExtTreeMap.mem_keys, hkeys]
    simpa using hgid

end AdmissionPolicy

end Quecto.Admission
