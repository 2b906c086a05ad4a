/-
  Admission/Observation.lean --- what an observation does.
-/
import Quecto.Admission.Run

namespace Quecto.Admission

open Foundation OrdMap RequestState Std.ExtTreeMap Request

namespace AdmissionPolicy

/-! ## Requests that have not ended -/

/-- The requests that have not ended. -/
def live (p : AdmissionPolicy) : OrdMap RequestId Request :=
  p.requests.filter fun _ r => !r.state.isTerminal

variable {p : AdmissionPolicy} {id : RequestId}

lemma live_eq_some {r : Request} :
    p.live[id]? = some r ↔ p.requests[id]? = some r ∧ r.state.isTerminal = false := by
  rw [live]
  simp

lemma live_eq_none :
    p.live[id]? = none ↔ ∀ r, p.requests[id]? = some r → r.state.isTerminal = true := by
  rw [live]
  simp

/-- Since when the lease of a request is uncertain. -/
def sinceOf (p : AdmissionPolicy) (id : RequestId) (r : Request) : Option Nat :=
  (p.groupAt r.group).uncertain[id]?

end AdmissionPolicy

/-- Whether an observation at `now` ends the request: its wait has elapsed, or its
uncertain lease has. -/
def Request.endsBy (r : Request) (since : Option Nat) (now : Nat) : Bool :=
  match r.state with
  | .queued deadline => decide (deadline ≤ now)
  | .active _ deadline _ => since.any fun s => decide (leaseRelease deadline s ≤ now)
  | .terminal _ => true

lemma Request.endsBy_active {r : Request} {started deadline : Nat} {required : Bool}
    (h : r.state = .active started deadline required) (since : Option Nat) (now : Nat) :
    r.endsBy since now = since.any fun s => decide (leaseRelease deadline s ≤ now) := by
  unfold Request.endsBy
  rw [h]

lemma Request.endsBy_queued {r : Request} (h : r.state.isQueued = true)
    (since since' : Option Nat) (now : Nat) : r.endsBy since now = r.endsBy since' now := by
  unfold Request.endsBy
  cases hstate : r.state <;> simp_all [isQueued]

lemma Request.Marked.endsBy {r r' : Request} (h : r.Marked r') (since : Option Nat) (now : Nat) :
    r'.endsBy since now = r.endsBy since now := by
  obtain ⟨_, hstate⟩ := h
  unfold Request.endsBy
  generalize r.state = s, r'.state = s' at hstate
  cases hstate <;> rfl

/-- The group without the leases of `ids`. -/
def Group.without (g : Group) (ids : List RequestId) : Group :=
  { g with uncertain := g.uncertain.filter fun a _ => decide (a ∉ ids) }

namespace Group

variable {g : Group} {ids : List RequestId}

lemma without_uncertain (a : RequestId) :
    (g.without ids).uncertain[a]? = if a ∈ ids then none else g.uncertain[a]? := by
  rw [without, getElem?_filter_eq]
  split <;> cases g.uncertain[a]? <;> simp_all

lemma without_eq {leases : OrdMap RequestId Nat}
    (h : ∀ a, leases[a]? = if a ∈ ids then none else g.uncertain[a]?) :
    g.without ids = { g with uncertain := leases } := by
  have hleases : leases = (g.without ids).uncertain := by
    refine ext_getElem? fun a => ?_
    rw [h a, without_uncertain]
  rw [hleases]
  rfl

end Group

namespace AdmissionPolicy

/-- The same configuration, epoch and scopes. -/
structure Keeps (p p' : AdmissionPolicy) : Prop where
  config : p'.config = p.config
  epoch : p'.epoch = p.epoch
  nextSerial : p'.nextSerial = p.nextSerial
  scopes : p'.scopes = p.scopes

namespace Keeps

variable {p q r : AdmissionPolicy}

lemma symm (h : Keeps p q) : Keeps q p :=
  ⟨h.config.symm, h.epoch.symm, h.nextSerial.symm, h.scopes.symm⟩

lemma trans (h : Keeps p q) (h' : Keeps q r) : Keeps p r :=
  ⟨h'.config.trans h.config, h'.epoch.trans h.epoch, h'.nextSerial.trans h.nextSerial,
    h'.scopes.trans h.scopes⟩

end Keeps

/-! ## Ending requests -/

/-- `p'` is `p` after the requests `ids` ended: they are no longer live, their leases are
gone from every group, and nothing else moved. -/
structure Ended (p : AdmissionPolicy) (ids : List RequestId) (p' : AdmissionPolicy) : Prop
    extends Keeps p p' where
  wf : p'.Wf
  now : p'.now = p.now
  live : ∀ a, p'.live[a]? = if a ∈ ids then none else p.live[a]?
  groups : ∀ gid : GroupId, p'.groups[gid]? = p.groups[gid]?.map (·.without ids)

variable {p q q' : AdmissionPolicy} {gid : GroupId} {g : Group} {id a : RequestId} {now : Nat}
  {r : Request} {ids ids' : List RequestId}

lemma Ended.refl (wf : p.Wf) : p.Ended [] p where
  toKeeps := ⟨rfl, rfl, rfl, rfl⟩
  wf := wf
  now := rfl
  live := by simp
  groups := fun gid => by
    cases p.groups[gid]? with
    | none => rfl
    | some g => exact congrArg some (Group.without_eq (by simp)).symm

lemma Ended.trans (h : p.Ended ids q) (h' : q.Ended ids' q') : p.Ended (ids ++ ids') q' where
  toKeeps := h.toKeeps.trans h'.toKeeps
  wf := h'.wf
  now := h'.now.trans h.now
  live := fun a => by
    rw [h'.live a, h.live a]
    by_cases ha : a ∈ ids <;> simp [ha]
  groups := fun gid => by
    rw [h'.groups gid, h.groups gid, Option.map_map]
    congr 1
    funext g
    refine (Group.without_eq (g := g) fun a => ?_).symm
    show ((g.without ids).without ids').uncertain[a]? = _
    rw [Group.without_uncertain, Group.without_uncertain]
    by_cases ha : a ∈ ids <;> simp [ha]

/-- A request that is not of the group holds no lease there. -/
lemma Wf.without_other (wf : p.Wf) (hg : p.groups[gid]? = some g)
    (h : ∀ r, p.requests[id]? = some r → r.group ≠ gid) : g.without [id] = g := by
  refine Group.without_eq fun a => ?_
  split
  · rename_i ha
    cases hs : g.uncertain[a]? with
    | none => rfl
    | some since =>
      obtain ⟨r, hr, hgroup, _⟩ := wf.uncertain gid g a since hg hs
      exact absurd hgroup (h r (List.mem_singleton.mp ha ▸ hr))
  · rfl

lemma ended_terminal (wf : p.Wf) (id : RequestId) (outcome : TerminalOutcome)
    (feedback : Option Feedback) : p.Ended [id] (p.terminal id outcome feedback) where
  toKeeps := ⟨terminal_config, terminal_epoch, terminal_nextSerial, terminal_scopes⟩
  wf := wf.finish id outcome feedback
  now := terminal_now
  live := fun a => by
    simp only [List.mem_singleton]
    by_cases ha : a = id
    · rw [if_pos ha, live_eq_none]
      intro r hr
      rcases terminal_lookup hr with ⟨_, hstate, _⟩ | ⟨hne, _⟩
      · rw [hstate]; rfl
      · exact absurd ha hne
    · rw [if_neg ha]
      cases hl : p.live[a]? with
      | some r =>
        obtain ⟨hr, hlive⟩ := live_eq_some.mp hl
        exact live_eq_some.mpr ⟨terminal_keeps ha (wf.not_mem_terminals hr hlive) hr, hlive⟩
      | none =>
        refine live_eq_none.mpr fun r hr => ?_
        rcases terminal_lookup hr with ⟨heq, _, _⟩ | ⟨_, hr⟩
        · exact absurd heq ha
        · exact live_eq_none.mp hl r hr
  groups := fun gid => by
    cases hid : p.requests[id]? with
    | none =>
      rw [terminal_of_absent hid]
      cases hg : p.groups[gid]? with
      | none => rfl
      | some g => rw [Option.map_some, wf.without_other hg (by simp [hid])]
    | some r =>
      rw [terminal_groups hid, getElem?_modify_eq]
      cases hg : p.groups[gid]? with
      | none => split <;> rfl
      | some g =>
        split
        · refine congrArg some (Group.without_eq fun a => ?_).symm
          simp [getElem?_erase_eq, eq_comm]
        · rename_i hne
          rw [Option.map_some, wf.without_other hg (by simpa [hid] using hne)]

/-- Marking an ended request changes nothing that counts. -/
lemma Ended.withRequest (h : p.Ended ids q) (hid : id ∈ ids) {f : Request → Request}
    (hf : ∀ r, Marked r (f r)) : p.Ended ids (q.withRequest id f) where
  toKeeps := ⟨h.config, h.epoch, h.nextSerial, h.scopes⟩
  wf := (quiet_withRequest q id hf).wf h.wf
  now := h.now
  live := fun a => by
    rw [← h.live a]
    by_cases ha : id = a
    · subst ha
      have hnone : q.live[id]? = none := by rw [h.live id, if_pos hid]
      rw [hnone, live_eq_none, withRequest_requests, if_pos rfl]
      intro r' hr'
      obtain ⟨r, hr, rfl⟩ := Option.map_eq_some_iff.mp hr'
      rw [(hf r).state.isTerminal_eq]
      exact live_eq_none.mp hnone r hr
    · rw [AdmissionPolicy.live, AdmissionPolicy.live, getElem?_filter_eq,
        getElem?_filter_eq, withRequest_requests, if_neg ha]
  groups := h.groups

lemma ended_clearLease (wf : p.Wf) (id : RequestId) : p.Ended [id] (p.clearLease id) :=
  (ended_terminal wf id _ _).withRequest List.mem_cons_self fun _ => ⟨rfl, .refl _⟩

lemma ended_expireWait (wf : p.Wf) (id : RequestId) : p.Ended [id] (p.expireWait id) :=
  (ended_terminal wf id _ _).withRequest List.mem_cons_self fun _ => ⟨rfl, .refl _⟩

lemma ended_foldl {f : AdmissionPolicy → RequestId → AdmissionPolicy}
    (hf : ∀ {p : AdmissionPolicy}, p.Wf → ∀ id, p.Ended [id] (f p id)) (ids : List RequestId)
    {p : AdmissionPolicy} (wf : p.Wf) : p.Ended ids (ids.foldl f p) := by
  induction ids generalizing p with
  | nil => exact .refl wf
  | cons id ids ih => exact (hf wf id).trans (ih (hf wf id).wf)

/-! ## The whole observation -/

lemma Wf.atTime (wf : p.Wf) (now : Nat) : (p.atTime now).Wf :=
  ⟨wf.valid, wf.groups, wf.scopes, wf.owner, wf.grouped, wf.terminals, wf.uncertain⟩

lemma mem_elapsedLeases : a ∈ p.elapsedLeases now ↔ ∃ (gid : GroupId) (g : Group) (since : Nat),
      p.groups[gid]? = some g ∧ g.uncertain[a]? = some since ∧
        p.leaseElapsed now a since = true := by
  simp only [elapsedLeases, List.mem_flatMap, Prod.exists, mem_toList_iff, mem_keysWith]
  constructor
  · rintro ⟨gid, g, hg, since, hs, he⟩
    exact ⟨gid, g, since, hg, hs, he⟩
  · rintro ⟨gid, g, since, hg, hs, he⟩
    exact ⟨gid, g, hg, since, hs, he⟩

lemma Wf.sinceOf_eq (wf : p.Wf) {since : Nat} (hg : p.groups[gid]? = some g)
    (hs : g.uncertain[a]? = some since) (hr : p.requests[a]? = some r) :
    r.group = gid ∧ r.state.isActive = true ∧ p.sinceOf a r = some since := by
  obtain ⟨r', hr', hgroup, hactive⟩ := wf.uncertain gid g a since hg hs
  obtain rfl := Option.some.inj (hr.symm.trans hr')
  refine ⟨hgroup, hactive, ?_⟩
  rw [sinceOf, hgroup, groupAt_of_some hg]
  exact hs

lemma leaseEnd_of_active {started deadline : Nat} {required : Bool}
    (hr : p.requests[a]? = some r) (h : r.state = .active started deadline required) (since : Nat) :
    p.leaseEnd a since = some (leaseRelease deadline since) := by
  unfold leaseEnd
  rw [hr, Option.map_some, h]

lemma leaseElapsed_of_active (now since : Nat) (hr : p.requests[a]? = some r)
    (hactive : r.state.isActive = true) :
    p.leaseElapsed now a since = r.endsBy (some since) now := by
  obtain ⟨started, deadline, required, hstate⟩ := exists_of_isActive hactive
  unfold leaseElapsed
  rw [leaseEnd_of_active hr hstate, endsBy_active hstate, Option.any_some, Option.any_some]

/-- An active request is among the elapsed leases just when the observation ends it. -/
lemma Wf.mem_elapsedLeases_iff (wf : p.Wf) (now : Nat) (hr : p.requests[a]? = some r) :
    a ∈ p.elapsedLeases now ↔ r.state.isActive = true ∧ r.endsBy (p.sinceOf a r) now = true := by
  rw [mem_elapsedLeases]
  constructor
  · rintro ⟨gid, g, since, hg, hs, he⟩
    obtain ⟨_, hactive, hsince⟩ := wf.sinceOf_eq hg hs hr
    rw [leaseElapsed_of_active now since hr hactive] at he
    exact ⟨hactive, by rw [hsince]; exact he⟩
  rintro ⟨hactive, he⟩
  obtain ⟨g, hg⟩ := mem_iff.mp (wf.grouped a r hr)
  cases hs : g.uncertain[a]? with
  | some since =>
    obtain ⟨_, _, hsince⟩ := wf.sinceOf_eq hg hs hr
    rw [hsince] at he
    exact ⟨r.group, g, since, hg, hs, by rw [leaseElapsed_of_active now since hr hactive]; exact he⟩
  | none =>
    have hnone : p.sinceOf a r = none := by rw [sinceOf, groupAt_of_some hg]; exact hs
    unfold Request.endsBy at he
    cases hstate : r.state <;> simp_all [isActive]

lemma mem_elapsedWaits : a ∈ p.elapsedWaits now ↔
      ∃ r, p.live[a]? = some r ∧ r.state.isQueued = true ∧ r.endsBy none now = true := by
  rw [elapsedWaits, mem_keysWith]
  constructor
  · rintro ⟨r, hr, hw⟩
    unfold waitElapsed at hw
    refine ⟨r, live_eq_some.mpr ⟨hr, ?_⟩, ?_, ?_⟩ <;>
      cases hstate : r.state <;>
      simp_all [isTerminal, isQueued, Request.endsBy]
  · rintro ⟨r, hr, hq, he⟩
    refine ⟨r, (live_eq_some.mp hr).1, ?_⟩
    unfold waitElapsed
    unfold Request.endsBy at he
    cases hstate : r.state <;> simp_all [isQueued]

lemma flagOverdue_live (p : AdmissionPolicy) (now : Nat) (a : RequestId) :
    (p.flagOverdue now).live[a]? = p.live[a]?.map fun r => r.flagOverdue now := by
  rw [live, live, getElem?_filter_eq, getElem?_filter_eq]
  unfold flagOverdue
  rw [getElem?_map]
  cases p.requests[a]? with
  | none => rfl
  | some r =>
    have hsame := (r.marked_flagOverdue now).state.isTerminal_eq
    simp only [Option.map_some, Option.filter_some, hsame]
    split <;> rfl

/-- A group after an observation at `now`: the elapsed leases and orphans are gone. -/
def observedGroup (p : AdmissionPolicy) (now : Nat) (g : Group) : Group :=
  { g with
    uncertain := g.uncertain.filter fun a since => !p.leaseElapsed now a since
    orphans := g.orphans.filter fun o => decide (now < o.releaseAt) }

/-- All that an observation at `now` does.  What is due ends, an overdue attempt is flagged,
and nothing else moves but the clock. -/
structure Observed (p : AdmissionPolicy) (now : Nat) (q : AdmissionPolicy) : Prop
    extends Keeps p q where
  wf : q.Wf
  clock : q.now = now
  live : ∀ a : RequestId, q.live[a]? = p.live[a]?.bind fun r =>
    if r.endsBy (p.sinceOf a r) now then none else some (r.flagOverdue now)
  groups : ∀ gid : GroupId, q.groups[gid]? = p.groups[gid]?.map (p.observedGroup now)

section

variable {p q q' : AdmissionPolicy} {now : Nat}

lemma Ended.not_mem_elapsedWaits (hlapsed : p.Ended ids q) (now : Nat)
    (hr : p.requests[a]? = some r)
    (h : r.state.isQueued = true → r.endsBy none now = false) : a ∉ q.elapsedWaits now := by
  intro hmem
  obtain ⟨r', hr', hq, he⟩ := mem_elapsedWaits.mp hmem
  rw [hlapsed.live a] at hr'
  split at hr'
  · simp at hr'
  · obtain rfl := Option.some.inj (hr.symm.trans (live_eq_some.mp hr').1)
    cases (h hq).symm.trans he

variable (wf : p.Wf) (hlapsed : p.Ended (p.elapsedLeases now) q)
  (hexpired : (q.dropElapsedOrphans now).Ended (q.elapsedWaits now) q')
include wf hlapsed hexpired

lemma lapsed_expired_live (a : RequestId) : q'.live[a]? = p.live[a]?.bind fun r =>
      if r.endsBy (p.sinceOf a r) now then none else some r := by
  have hdropped : (q.dropElapsedOrphans now).live = q.live := rfl
  rw [hexpired.live a, hdropped]
  cases hl : p.live[a]? with
  | none =>
    have hnone : q.live[a]? = none := by
      rw [hlapsed.live a]
      split
      · rfl
      · exact hl
    rw [hnone]
    simp
  | some r =>
    obtain ⟨hr, hterm⟩ := live_eq_some.mp hl
    have helapsed := wf.mem_elapsedLeases_iff now hr
    rw [Option.bind_some]
    by_cases hq : r.state.isQueued = true
    · have hnot : a ∉ p.elapsedLeases now := by
        intro hmem
        exact active_ne_queued hr (helapsed.mp hmem).1 hr hq rfl
      have hkept : q.live[a]? = some r := by
        rw [hlapsed.live a, if_neg hnot]
        exact hl
      by_cases he : r.endsBy (p.sinceOf a r) now = true
      · have hwait := mem_elapsedWaits.mpr ⟨r, hkept, hq, by
          rw [endsBy_queued hq none (p.sinceOf a r)]; exact he⟩
        rw [if_pos hwait, if_pos he]
      have hwait := hlapsed.not_mem_elapsedWaits now hr fun _ => by
        rw [endsBy_queued hq none (p.sinceOf a r)]
        simpa using he
      rw [if_neg hwait, hkept, if_neg he]
    · -- the request is active: no wait of it can expire
      have hactive : r.state.isActive = true := by
        cases hstate : r.state <;>
          simp_all [isQueued, isTerminal, isActive]
      have hwait := hlapsed.not_mem_elapsedWaits now hr fun h => absurd h hq
      rw [if_neg hwait, hlapsed.live a, hl]
      by_cases he : r.endsBy (p.sinceOf a r) now = true
      · rw [if_pos (helapsed.mpr ⟨hactive, he⟩), if_pos he]
      · rw [if_neg fun hmem => he (helapsed.mp hmem).2, if_neg he]

lemma lapsed_expired_groups (gid : GroupId) :
    q'.groups[gid]? = p.groups[gid]?.map (p.observedGroup now) := by
  rw [hexpired.groups gid, dropElapsedOrphans, getElem?_map, hlapsed.groups gid]
  cases hg : p.groups[gid]? with
  | none => rfl
  | some g =>
    rw [Option.map_some, Option.map_some, Option.map_some, Option.map_some, observedGroup]
    refine congrArg some (Group.without_eq fun a => ?_)
    rw [getElem?_filter_eq, Group.without_uncertain]
    cases hs : g.uncertain[a]? with
    | none => simp
    | some since =>
        -- a lease belongs to an active request, which is not waiting
        obtain ⟨r, hr, _, hactive⟩ := wf.uncertain gid g a since hg hs
        obtain ⟨_, _, hsince⟩ := wf.sinceOf_eq hg hs hr
        have hwait := hlapsed.not_mem_elapsedWaits now hr fun h =>
          absurd rfl (active_ne_queued hr hactive hr h)
        have helapsed := wf.mem_elapsedLeases_iff now hr
        rw [hsince] at helapsed
        have hlease := leaseElapsed_of_active now since hr hactive
        by_cases he : r.endsBy (some since) now = true
        · have hmem := helapsed.mpr ⟨hactive, he⟩
          simp [Option.filter_some, hlease, hmem, he]
        · have hnot : a ∉ p.elapsedLeases now := fun hmem => he (helapsed.mp hmem).2
          simp [Option.filter_some, hlease, hnot, he, hwait]
end

lemma observed_advance (wf : p.Wf) (now : Nat) : p.Observed now (p.advance now) := by
  have wfn := wf.atTime now
  have hlapsed := ended_foldl ended_clearLease ((p.atTime now).elapsedLeases now) wfn
  unfold advance clearElapsedLeases
  generalize ((p.atTime now).elapsedLeases now).foldl clearLease (p.atTime now) = q at hlapsed ⊢
  have hexpired : (q.dropElapsedOrphans now).Ended (q.elapsedWaits now)
      ((q.dropElapsedOrphans now).expireWaits now) :=
    ended_foldl ended_expireWait _ ((quiet_dropElapsedOrphans q now).wf hlapsed.wf)
  generalize (q.dropElapsedOrphans now).expireWaits now = q' at hexpired ⊢
  have hgroups := lapsed_expired_groups wfn hlapsed hexpired
  exact
    { toKeeps := ⟨hexpired.config.trans hlapsed.config, hexpired.epoch.trans hlapsed.epoch,
        hexpired.nextSerial.trans hlapsed.nextSerial, hexpired.scopes.trans hlapsed.scopes⟩
      wf := (quiet_flagOverdue q' now).wf hexpired.wf
      clock := hexpired.now.trans hlapsed.now
      live := fun a => by
        have hl : q'.live[a]? = p.live[a]?.bind fun r =>
            if r.endsBy (p.sinceOf a r) now then none else some r :=
          lapsed_expired_live wfn hlapsed hexpired a
        rw [flagOverdue_live, hl]
        cases p.live[a]? with
        | none => rfl
        | some r =>
          dsimp only [Option.bind_some]
          split <;> rfl
      groups := hgroups }

lemma tick_ok_iff : p.tick now = .ok q ↔ p.now ≤ now ∧ q = p.advance now := by
  unfold tick
  split
  · simp only [reduceCtorEq, false_iff]
    omega
  rename_i h
  simp only [Except.ok.injEq]
  constructor
  · rintro rfl
    exact ⟨not_lt.mp h, rfl⟩
  · rintro ⟨_, rfl⟩
    rfl

lemma observed_tick (wf : p.Wf) (h : p.tick now = .ok q) : p.Observed now q := by
  rw [(tick_ok_iff.mp h).2]
  exact observed_advance wf now

/-- The policy after an observation, or as it was when the clock went back. -/
def observe (p : AdmissionPolicy) (now : Nat) : AdmissionPolicy :=
  match p.tick now with
  | .ok q => q
  | .error _ => p

lemma observe_eq (h : p.now ≤ now) : p.observe now = p.advance now := by
  unfold observe
  rw [tick_ok_iff.mpr ⟨h, rfl⟩]

end AdmissionPolicy

end Quecto.Admission
