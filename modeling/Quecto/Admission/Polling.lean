/-
  Admission/Polling.lean --- observation is free.
-/
import Quecto.Admission.Observation

namespace Quecto.Admission

open Foundation Std.ExtTreeMap OrdMap Request Operation RequestState

variable {now : Nat}

namespace AdmissionPolicy

def QueuedIn (p : AdmissionPolicy) (gid : GroupId) (id : RequestId) : Prop :=
  ∃ r, p.requests[id]? = some r ∧ r.group = gid ∧ r.state.isQueued = true

lemma exists_live_iff {p : AdmissionPolicy} {id : RequestId} {T : Request → Prop}
    (hT : ∀ r, T r → r.state.isTerminal = false) :
    (∃ r, p.requests[id]? = some r ∧ T r) ↔ ∃ r, p.live[id]? = some r ∧ T r := by
  constructor
  · rintro ⟨r, hr, h⟩
    exact ⟨r, live_eq_some.mpr ⟨hr, hT r h⟩, h⟩
  · rintro ⟨r, hr, h⟩
    exact ⟨r, (live_eq_some.mp hr).1, h⟩

lemma queuedIn_iff_live {p : AdmissionPolicy} {gid : GroupId} {id : RequestId} :
    p.QueuedIn gid id ↔ ∃ r, p.live[id]? = some r ∧ r.group = gid ∧ r.state.isQueued = true := by
  exact exists_live_iff fun _ h => not_isTerminal_of_isQueued h.2

lemma activeIn_iff_live {p : AdmissionPolicy} {gid : GroupId} {id : RequestId} :
    p.ActiveIn gid id ↔ ∃ r, p.live[id]? = some r ∧ r.group = gid ∧ r.state.isActive = true := by
  exact exists_live_iff fun _ h => not_isTerminal_of_isActive h.2

/-- Two policies that grant alike: what a grant reads of them is the same. -/
structure Alike (p p' : AdmissionPolicy) : Prop where
  config : p'.config = p.config
  scopes : p'.scopes = p.scopes
  groups : p'.groups = p.groups
  queued : ∀ gid id, p'.QueuedIn gid id ↔ p.QueuedIn gid id
  active : ∀ gid id, p'.ActiveIn gid id ↔ p.ActiveIn gid id

namespace Alike

variable {p p' : AdmissionPolicy}

lemma groupAt (h : Alike p p') (gid : GroupId) : p'.groupAt gid = p.groupAt gid := by
  rw [AdmissionPolicy.groupAt, AdmissionPolicy.groupAt, h.groups]

lemma policyAt (h : Alike p p') (gid : GroupId) : p'.policyAt gid = p.policyAt gid := by
  rw [AdmissionPolicy.policyAt, AdmissionPolicy.policyAt, h.config]

lemma classAt (h : Alike p p') (scope : ScopeId) : p'.classAt scope = p.classAt scope :=
  classAt_congr h.scopes scope

lemma rootAt (h : Alike p p') (scope : ScopeId) : p'.rootAt scope = p.rootAt scope :=
  rootAt_congr h.scopes scope

variable (h : Alike p p') (gid : GroupId)
include h

lemma activeCount : p'.activeCount gid = p.activeCount gid := by
  refine count_congr fun id => ?_
  simp only [Bool.and_eq_true, beq_iff_eq]
  exact h.active gid id

lemma classActive (workload : WorkloadClass) :
    p'.classActive gid workload = p.classActive gid workload := by
  refine count_congr fun id => ?_
  have key : ∀ q : AdmissionPolicy, (∃ r, q.requests[id]? = some r ∧
      (r.group == gid && r.state.isActive && decide (q.classAt id.scope = workload)) = true) ↔
      q.ActiveIn gid id ∧ q.classAt id.scope = workload := by
    intro q
    simp only [Bool.and_eq_true, beq_iff_eq, decide_eq_true_eq]
    constructor
    · rintro ⟨r, hr, ⟨hgroup, ha⟩, hclass⟩
      exact ⟨⟨r, hr, hgroup, ha⟩, hclass⟩
    · rintro ⟨⟨r, hr, hgroup, ha⟩, hclass⟩
      exact ⟨r, hr, ⟨hgroup, ha⟩, hclass⟩
  rw [key p', key p, h.active, h.classAt]

lemma waits (workload : WorkloadClass) (id : RequestId) :
    p'.Waits gid workload id ↔ p.Waits gid workload id := by
  have key : ∀ q : AdmissionPolicy, q.Waits gid workload id ↔
      q.QueuedIn gid id ∧ q.classAt id.scope = workload := by
    intro q
    constructor
    · rintro ⟨r, hr, hw⟩
      obtain ⟨hgroup, hclass, hq⟩ := isWaiting_iff.mp hw
      exact ⟨⟨r, hr, hgroup, hq⟩, hclass⟩
    · rintro ⟨⟨r, hr, hgroup, hq⟩, hclass⟩
      exact ⟨r, hr, isWaiting_iff.mpr ⟨hgroup, hclass, hq⟩⟩
  rw [key p', key p, h.queued, h.classAt]

lemma candidate (workload : WorkloadClass) :
    p'.candidate gid workload = p.candidate gid workload := by
  have hadd : p'.addHead = p.addHead := by
    funext heads rid
    rw [addHead, addHead, h.rootAt]
  have hwaiting : p'.requests.keysWith (p'.isWaiting gid workload) =
      p.requests.keysWith (p.isWaiting gid workload) :=
    keysWith_congr (h.waits gid workload)
  unfold AdmissionPolicy.candidate heads
  rw [hwaiting, hadd, h.groupAt]

lemma backgroundCandidate (active : Nat) :
    p'.backgroundCandidate gid active = p.backgroundCandidate gid active := by
  unfold AdmissionPolicy.backgroundCandidate sharedActive
  rw [h.policyAt, h.classActive, h.candidate]

lemma usesShared (active : Nat) (workload : WorkloadClass) :
    p'.usesShared gid active workload = p.usesShared gid active workload := by
  unfold AdmissionPolicy.usesShared
  rw [h.policyAt, h.classActive]

end Alike

/-! ## Agreement -/

/-- Two policies that differ at most in ended requests. -/
structure Agree (p p' : AdmissionPolicy) : Prop extends Keeps p p' where
  clock : p'.now = p.now
  groups : p'.groups = p.groups
  live : p'.live = p.live

namespace Agree

variable {p p' : AdmissionPolicy}

lemma alike (h : Agree p p') : Alike p p' where
  config := h.config
  scopes := h.scopes
  groups := h.groups
  queued := fun gid id => by
    rw [queuedIn_iff_live, queuedIn_iff_live, h.live]
  active := fun gid id => by
    rw [activeIn_iff_live, activeIn_iff_live, h.live]

lemma withGroup (h : Agree p p') (gid : GroupId) (f : Group → Group) :
    Agree (p.withGroup gid f) (p'.withGroup gid f) := by
  refine { h with groups := ?_ }
  rw [AdmissionPolicy.withGroup, AdmissionPolicy.withGroup, h.groups]

variable {id : RequestId} {r : Request}

lemma withRequest (h : Agree p p') {f : Request → Request} (hr : p.live[id]? = some r)
    (hf : (f r).state.isTerminal = false) : Agree (p.withRequest id f) (p'.withRequest id f) := by
  have key : ∀ {q : AdmissionPolicy}, q.live[id]? = some r → ∀ a : RequestId,
      (q.withRequest id f).live[a]? = if id = a then some (f r) else q.live[a]? := by
    intro q hq a
    by_cases ha : id = a
    · subst ha
      rw [if_pos rfl]
      refine live_eq_some.mpr ⟨?_, hf⟩
      rw [withRequest_requests, if_pos rfl, (live_eq_some.mp hq).1]
      rfl
    · rw [AdmissionPolicy.live, AdmissionPolicy.live, getElem?_filter_eq,
        getElem?_filter_eq, withRequest_requests, if_neg ha, if_neg ha]
  refine { h with live := ext_getElem? fun a => ?_ }
  rw [key hr a, key (by rw [h.live]; exact hr) a, h.live]

/-! ## Decisions -/

lemma grant (h : Agree p p') {gid : GroupId} {active : Nat} {contested : Bool}
    {nextStart deadline : Nat} (hr : p.live[id]? = some r) :
    Agree (p.grant gid active contested id now nextStart deadline)
      (p'.grant gid active contested id now nextStart deadline) := by
  unfold AdmissionPolicy.grant
  dsimp only
  rw [h.alike.classAt, h.alike.rootAt, h.alike.usesShared]
  exact (h.withGroup gid _).withRequest hr rfl

lemma serve (h : Agree p p') (gid : GroupId) (now : Nat) :
    (p'.serve gid now).1 = (p.serve gid now).1 ∧
      Agree (p.serve gid now).2 (p'.serve gid now).2 := by
  unfold AdmissionPolicy.serve
  rw [h.groups]
  cases hg : p.groups[gid]? with
  | none => exact ⟨rfl, h⟩
  | some g =>
    dsimp only
    rw [h.alike.policyAt, h.alike.activeCount, h.alike.candidate, h.alike.backgroundCandidate]
    split
    · exact ⟨rfl, h⟩
    split
    · exact ⟨rfl, h⟩
    split
    · exact ⟨rfl, h⟩
    split
    · exact ⟨rfl, h⟩
    rename_i id hselect
    obtain ⟨r, hr, hw⟩ := (chosen_of_select hselect).waits
    have hlive := not_isTerminal_of_isQueued (isWaiting_iff.mp hw).2.2
    split
    · exact ⟨rfl, h.grant (live_eq_some.mpr ⟨hr, hlive⟩)⟩
    · exact ⟨rfl, h.withGroup gid _⟩

end Agree

/-! ## Observations -/

lemma leaseEnd_live (p : AdmissionPolicy) (a : RequestId) (since : Nat) : p.leaseEnd a since =
      p.live[a]?.bind fun r =>
        match r.state with
        | .active _ deadline _ => some (leaseRelease deadline since)
        | _ => none := by
  cases hl : p.live[a]? with
  | some r =>
    unfold leaseEnd
    rw [(live_eq_some.mp hl).1, Option.map_some, Option.bind_some]
    cases r.state <;> rfl
  | none =>
    unfold leaseEnd
    cases hr : p.requests[a]? with
    | none => rfl
    | some r =>
      have hterm := live_eq_none.mp hl r hr
      cases hstate : r.state with
      | terminal outcome => simp [hstate]
      | queued _ | active _ _ _ => rw [hstate] at hterm; cases hterm

variable {p p' : AdmissionPolicy}

lemma Agree.observedGroup (h : Agree p p') (now : Nat) :
    p'.observedGroup now = p.observedGroup now := by
  have helapsed : p'.leaseElapsed now = p.leaseElapsed now := by
    funext a since
    unfold leaseElapsed
    rw [leaseEnd_live, leaseEnd_live, h.live]
  unfold AdmissionPolicy.observedGroup
  rw [helapsed]

lemma Agree.sinceOf (h : Agree p p') (a : RequestId) (r : Request) :
    p'.sinceOf a r = p.sinceOf a r := by
  unfold AdmissionPolicy.sinceOf
  rw [h.alike.groupAt]

lemma Agree.observed {q q' : AdmissionPolicy} (h : Agree p p')
    (hq : p.Observed now q) (hq' : p'.Observed now q') : Agree q q' where
  toKeeps := hq.toKeeps.symm.trans (h.toKeeps.trans hq'.toKeeps)
  clock := by rw [hq'.clock, hq.clock]
  groups := ext_getElem? fun gid => by
    rw [hq'.groups gid, hq.groups gid, h.groups, h.observedGroup]
  live := ext_getElem? fun a => by
    rw [hq'.live a, hq.live a, h.live]
    simp only [h.sinceOf]

end AdmissionPolicy

lemma Request.flagOverdue_flagOverdue (r : Request) {t₁ t₂ : Nat} (hle : t₁ ≤ t₂) :
    (r.flagOverdue t₁).flagOverdue t₂ = r.flagOverdue t₂ := by
  cases hstate : r.state with
  | queued deadline | terminal outcome => simp [flagOverdue, hstate]
  | active started deadline required =>
    have himp : (decide (deadline ≤ t₁) || decide (deadline ≤ t₂)) = decide (deadline ≤ t₂) := by
      by_cases h₁ : deadline ≤ t₁
      · have h₂ : deadline ≤ t₂ := le_trans h₁ hle
        simp [h₁, h₂]
      · simp [h₁]
    simp only [flagOverdue, hstate, Bool.or_assoc, himp]

lemma Request.endsBy_mono {r : Request} {since : Option Nat} {t₁ t₂ : Nat} (hle : t₁ ≤ t₂)
    (h : r.endsBy since t₁ = true) : r.endsBy since t₂ = true := by
  cases hstate : r.state with
  | queued deadline =>
    simp only [endsBy, hstate, decide_eq_true_eq] at h ⊢
    omega
  | active started deadline required =>
    rw [endsBy_active hstate] at h ⊢
    cases since with
    | none => simp at h
    | some s =>
      rw [Option.any_some, decide_eq_true_eq] at h ⊢
      exact le_trans h hle
  | terminal outcome => simp only [endsBy, hstate]

namespace AdmissionPolicy

variable {p q : AdmissionPolicy} {t₁ t₂ : Nat} {gid : GroupId} {g : Group} {a : RequestId}

lemma Observed.leaseElapsed (wf : p.Wf) (hq : p.Observed t₁ q) {since : Nat}
    (hg : p.groups[gid]? = some g) (hs : g.uncertain[a]? = some since)
    (hkept : p.leaseElapsed t₁ a since = false) :
    q.leaseElapsed t₂ a since = p.leaseElapsed t₂ a since := by
  obtain ⟨r, hr, _, hactive⟩ := wf.uncertain gid g a since hg hs
  obtain ⟨_, _, hsince⟩ := wf.sinceOf_eq hg hs hr
  have hlive : q.live[a]? = some (r.flagOverdue t₁) := by
    rw [hq.live a, live_eq_some.mpr ⟨hr, not_isTerminal_of_isActive hactive⟩,
      Option.bind_some, hsince, ← leaseElapsed_of_active _ _ hr hactive, hkept]
    rfl
  have hactive' : (r.flagOverdue t₁).state.isActive = true := by
    rw [(r.marked_flagOverdue t₁).state.isActive_eq]
    exact hactive
  rw [leaseElapsed_of_active _ _ (live_eq_some.mp hlive).1 hactive',
    leaseElapsed_of_active _ _ hr hactive, (r.marked_flagOverdue t₁).endsBy]

lemma Observed.sinceOf (wf : p.Wf) (hq : p.Observed now q) {r : Request}
    (hl : p.live[a]? = some r) (hkept : r.endsBy (p.sinceOf a r) now = false) :
    q.sinceOf a (r.flagOverdue now) = p.sinceOf a r := by
  have hr := (live_eq_some.mp hl).1
  obtain ⟨g, hg⟩ := mem_iff.mp (wf.grouped a r hr)
  have hq' : q.groups[r.group]? = some (p.observedGroup now g) := by
    rw [hq.groups, hg]
    rfl
  unfold AdmissionPolicy.sinceOf
  rw [(r.marked_flagOverdue now).group, groupAt_of_some hq', groupAt_of_some hg,
    AdmissionPolicy.observedGroup, getElem?_filter_eq]
  cases hs : g.uncertain[a]? with
  | none => rfl
  | some since =>
    obtain ⟨_, hactive, hsince⟩ := wf.sinceOf_eq hg hs hr
    rw [hsince, ← leaseElapsed_of_active _ _ hr hactive] at hkept
    simp [Option.filter_some, hkept]

lemma Observed.observedGroup (wf : p.Wf) (hq : p.Observed t₁ q) (hle : t₁ ≤ t₂)
    (hg : p.groups[gid]? = some g) :
    q.observedGroup t₂ (p.observedGroup t₁ g) = p.observedGroup t₂ g := by
  have horphans : ((g.orphans.filter fun o => decide (t₁ < o.releaseAt)).filter
        fun o => decide (t₂ < o.releaseAt)) =
      g.orphans.filter fun o => decide (t₂ < o.releaseAt) := by
    rw [List.filter_filter]
    refine List.filter_congr fun o _ => ?_
    rw [← Bool.decide_and]
    exact decide_eq_decide.mpr ⟨fun h => h.1, fun h => ⟨h, lt_of_le_of_lt hle h⟩⟩
  have huncertain : ((g.uncertain.filter fun a since => !p.leaseElapsed t₁ a since).filter
        fun a since => !q.leaseElapsed t₂ a since) =
      g.uncertain.filter fun a since => !p.leaseElapsed t₂ a since := by
    refine ext_getElem? fun a => ?_
    rw [getElem?_filter_eq, getElem?_filter_eq, getElem?_filter_eq]
    cases hs : g.uncertain[a]? with
    | none => rfl
    | some since =>
      obtain ⟨r, hr, _, hactive⟩ := wf.uncertain gid g a since hg hs
      cases hkept : p.leaseElapsed t₁ a since with
      | true =>
        have hlater : p.leaseElapsed t₂ a since = true := by
          rw [leaseElapsed_of_active _ _ hr hactive] at hkept ⊢
          exact endsBy_mono hle hkept
        simp [Option.filter_some, hkept, hlater]
      | false =>
        simp [Option.filter_some, hkept, hq.leaseElapsed wf hg hs hkept]
  unfold AdmissionPolicy.observedGroup
  rw [horphans, huncertain]

/-- An observation in between leaves what the later one would leave alone. -/
lemma Observed.twice {q' q'' : AdmissionPolicy} (wf : p.Wf) (hle : t₁ ≤ t₂)
    (hq : p.Observed t₁ q) (hq' : q.Observed t₂ q') (hq'' : p.Observed t₂ q'') : Agree q'' q' where
  toKeeps := hq''.toKeeps.symm.trans (hq.toKeeps.trans hq'.toKeeps)
  clock := by rw [hq'.clock, hq''.clock]
  groups := ext_getElem? fun gid => by
    rw [hq'.groups gid, hq.groups gid, hq''.groups gid]
    cases hg : p.groups[gid]? with
    | none => rfl
    | some g => simp only [Option.map_some, hq.observedGroup wf hle hg]
  live := ext_getElem? fun a => by
    rw [hq'.live a, hq.live a, hq''.live a]
    cases hl : p.live[a]? with
    | none => rfl
    | some r =>
      rw [Option.bind_some, Option.bind_some]
      by_cases he : r.endsBy (p.sinceOf a r) t₁ = true
      · rw [if_pos he, if_pos (endsBy_mono hle he)]
        rfl
      · rw [if_neg he, Option.bind_some, (r.marked_flagOverdue t₁).endsBy,
          flagOverdue_flagOverdue r hle, hq.sinceOf wf hl (by simpa using he)]

/-! ## Reads -/

/-- A read leaves the policy as it is, or observes. -/
lemma read_leaves (p : AdmissionPolicy) {op : Operation}
    (h : op.readTime = some now) : (p.step op).2 = p ∨ p.tick now = .ok (p.step op).2 := by
  have hmakes := step_makes p op
  generalize (p.step op).2 = p' at hmakes ⊢
  have htime : op.time = some now := by
    cases op <;> simp_all [readTime, time]
  cases hmakes with
  | same => exact Or.inl rfl
  | ticked time observed => exact Or.inr (Option.some.inj (time.symm.trans htime) ▸ observed)
  | registered untimed => simp [htime] at untimed
  | _ => simp_all [readTime]

variable {p p' : AdmissionPolicy}

section

variable (wf : p.Wf) (wf' : p'.Wf) (h : Agree p p')
include wf wf' h

lemma Agree.tick (now : Nat) : (∃ e, p.tick now = .error e ∧ p'.tick now = .error e) ∨
      ∃ q q', p.tick now = .ok q ∧ p'.tick now = .ok q' ∧ Agree q q' := by
  unfold AdmissionPolicy.tick
  rw [h.clock]
  split
  · exact Or.inl ⟨_, rfl, rfl⟩
  · exact Or.inr ⟨_, _, rfl, rfl, h.observed (observed_advance wf now) (observed_advance wf' now)⟩

lemma Agree.next (gid : GroupId) (now : Nat) :
    (p'.next gid now).1 = (p.next gid now).1 ∧ Agree (p.next gid now).2 (p'.next gid now).2 := by
  rw [next_eq, next_eq]
  rcases h.tick wf wf' now with ⟨e, hp, hp'⟩ | ⟨q, q', hp, hp', hqq⟩
  · rw [hp, hp']
    exact ⟨rfl, h⟩
  · rw [hp, hp']
    exact hqq.serve gid now

lemma Agree.dispatch (gids : List GroupId) (now : Nat) :
    outputs step p' (gids.map (.next · now)) = outputs step p (gids.map (.next · now)) := by
  induction gids generalizing p p' with
  | nil => rfl
  | cons gid gids ih =>
    obtain ⟨hreply, hagree⟩ := h.next wf wf' gid now
    have hrest := ih (step_wf p (.next gid now) wf) (step_wf p' (.next gid now) wf') hagree
    simp only [outputs, List.map_cons, moments_cons] at hrest ⊢
    congr 1
    exact congrArg Reply.granted hreply

end

/-- Reading the policy at `t₁` changes nothing a later observation sees and no
grant made then: the live requests, every group with its leases, orphans and
timing, and the answers of any sequence of `next` at `t₂` are the same. -/
theorem reads_change_no_grant {p : AdmissionPolicy} (hp : p.Reachable) {t₁ t₂ : Nat}
    (hle : t₁ ≤ t₂) {read : Operation} (hread : read.readTime = some t₁) :
    ((p.step read).2.observe t₂).live = (p.observe t₂).live ∧
      ((p.step read).2.observe t₂).groups = (p.observe t₂).groups ∧
      ∀ gids : List GroupId, outputs step ((p.step read).2.observe t₂) (gids.map (.next · t₂)) =
          outputs step (p.observe t₂) (gids.map (.next · t₂)) := by
  have wf := hp.wf
  rcases p.read_leaves hread with hsame | hq
  · rw [hsame]
    exact ⟨rfl, rfl, fun _ => rfl⟩
  have hobs := observed_tick wf hq
  have hclock : p.now ≤ t₁ := (tick_ok_iff.mp hq).1
  have hfirst : (p.step read).2.observe t₂ = (p.step read).2.advance t₂ :=
    observe_eq (by rw [hobs.clock]; exact hle)
  have hsecond : p.observe t₂ = p.advance t₂ := observe_eq (le_trans hclock hle)
  have hlate := observed_advance hobs.wf t₂
  have halone := observed_advance wf t₂
  have hagree := hobs.twice wf hle hlate halone
  rw [hfirst, hsecond]
  exact ⟨hagree.live, hagree.groups, fun gids => hagree.dispatch halone.wf hlate.wf gids t₂⟩

/-- A snapshot at 1005, when the background wait expires, before a dispatch at
1007, when the attempt is overdue. -/
theorem reads_change_no_grant_sample :
    (((exec step samplePolicy sampleRun).step (.snapshot sampleGroup 1005)).2.observe 1007).live =
        ((exec step samplePolicy sampleRun).observe 1007).live ∧
      (((exec step samplePolicy sampleRun).step
          (.snapshot sampleGroup 1005)).2.observe 1007).groups =
        ((exec step samplePolicy sampleRun).observe 1007).groups ∧
      ∀ gids : List GroupId, outputs step
            (((exec step samplePolicy sampleRun).step (.snapshot sampleGroup 1005)).2.observe 1007)
            (gids.map (.next · 1007)) =
          outputs step ((exec step samplePolicy sampleRun).observe 1007)
            (gids.map (.next · 1007)) :=
  reads_change_no_grant (samplePolicy_reaches sampleRun) (by decide) rfl

end AdmissionPolicy

/-- The operations that neither register nor retire a scope. -/
def Operation.keepsScopes : Operation → Bool
  | .registerRoot _ => false
  | .registerChild _ => false
  | .retire _ => false
  | .reset _ => false
  | _ => true

namespace AdmissionPolicy

/-- `p'` comes from `p` by allowed operations. -/
def Evolves (allowed : Operation → Prop) (p p' : AdmissionPolicy) : Prop :=
  ∃ ops : List Operation, (∀ op ∈ ops, allowed op) ∧ exec step p ops = p'

namespace Evolves

variable {allowed allowed' : Operation → Prop} {p p' p'' : AdmissionPolicy}

lemma refl (p : AdmissionPolicy) : Evolves allowed p p := ⟨[], by simp, rfl⟩

lemma single (p : AdmissionPolicy) (op : Operation) (h : allowed op) :
    Evolves allowed p (p.step op).2 :=
  ⟨[op], by simpa using h, rfl⟩

lemma trans (h : Evolves allowed p p') (h' : Evolves allowed p' p'') : Evolves allowed p p'' := by
  obtain ⟨ops, hops, rfl⟩ := h
  obtain ⟨ops', hops', rfl⟩ := h'
  refine ⟨ops ++ ops', ?_, exec_append step p ops ops'⟩
  intro op hop
  rcases List.mem_append.mp hop with hop | hop
  · exact hops op hop
  · exact hops' op hop

lemma mono (h : Evolves allowed p p') (hle : ∀ op, allowed op → allowed' op) :
    Evolves allowed' p p' := by
  obtain ⟨ops, hops, hexec⟩ := h
  exact ⟨ops, fun op hop => hle op (hops op hop), hexec⟩

variable {I : AdmissionPolicy → Prop} (h : Evolves allowed p p')
include h

lemma keeps (kept : ∀ q op, allowed op → I q → I (q.step op).2) (hp : I p) : I p' := by
  obtain ⟨ops, hops, rfl⟩ := h
  induction ops generalizing p with
  | nil => exact hp
  | cons op ops ih =>
    apply ih
    · exact kept p op (hops op List.mem_cons_self) hp
    · intro op' hop'
      exact hops op' (List.mem_cons_of_mem _ hop')

lemma wf (hp : p.Wf) : p'.Wf := h.keeps (fun q op _ => step_wf q op) hp

lemma reachable (hp : p.Reachable) : p'.Reachable := by
  obtain ⟨ops, _, rfl⟩ := h
  obtain ⟨start, before, hstart, rfl⟩ := hp
  exact ⟨start, before ++ ops, hstart, exec_append step start before ops⟩

lemma keeps_wf (kept : ∀ q op, allowed op → q.Wf → I q → I (q.step op).2) (wf : p.Wf) (hp : I p) :
    I p' := by
  have hboth : p'.Wf ∧ I p' := by
    apply h.keeps (I := fun q => q.Wf ∧ I q)
    · rintro q op hop ⟨wfq, hq⟩
      exact ⟨step_wf q op wfq, kept q op hop wfq hq⟩
    · exact ⟨wf, hp⟩
  exact hboth.2

end Evolves

/-! ## Calm runs -/

variable {p p' : AdmissionPolicy} {op : Operation} {allowed : Operation → Prop}

lemma step_calm (wf : p.Wf) (hquiet : op.isQuiet = true) : Calm p (p.step op).2 := by
  cases step_cases wf op with
  | grants gid id now q input
  | resets now q input => rw [input] at hquiet; simp [isQuiet] at hquiet
  | quiet quiets => exact (Quiets.wf_calm wf quiets).2

lemma Evolves.calm (h : Evolves allowed p p') (hquiet : ∀ op, allowed op → op.isQuiet = true)
    (wf : p.Wf) : Calm p p' := by
  refine h.keeps_wf ?_ wf (Calm.refl p)
  intro q op hop wfq hcalm
  exact hcalm.trans (step_calm wfq (hquiet op hop))

/-! ## Runs that keep the scopes -/

/-- The same scopes are registered, and the same are retired. -/
def SameScopes (p p' : AdmissionPolicy) : Prop :=
  p'.epoch = p.epoch ∧
    ∀ id : ScopeId, p'.scopes[id]?.map Scope.retired = p.scopes[id]?.map Scope.retired

namespace SameScopes

variable {p p' p'' : AdmissionPolicy}

lemma of_eq (hepoch : p'.epoch = p.epoch) (hscopes : p'.scopes = p.scopes) : SameScopes p p' :=
  ⟨hepoch, fun id => by rw [hscopes]⟩

lemma refl (p : AdmissionPolicy) : SameScopes p p := of_eq rfl rfl

lemma trans (h : SameScopes p p') (h' : SameScopes p' p'') : SameScopes p p'' :=
  ⟨h'.1.trans h.1, fun id => (h'.2 id).trans (h.2 id)⟩

lemma tick (wf : p.Wf) (h : p.tick now = .ok p') : SameScopes p p' :=
  of_eq (observed_tick wf h).epoch (observed_tick wf h).scopes

lemma terminal (p : AdmissionPolicy) (id : RequestId) (outcome : TerminalOutcome)
    (feedback : Option Feedback) : SameScopes p (p.terminal id outcome feedback) :=
  of_eq terminal_epoch terminal_scopes

lemma scope_ok_iff (h : SameScopes p p') (id : ScopeId) :
    (∃ s, p'.scope id = .ok s) ↔ ∃ s, p.scope id = .ok s := by
  have key : ∀ q : AdmissionPolicy, (∃ s, q.scope id = .ok s) ↔
      id.epoch = q.epoch ∧ q.scopes[id]?.map Scope.retired = some false := by
    intro q
    simp only [AdmissionPolicy.scope_ok_iff, Option.map_eq_some_iff]
    constructor
    · rintro ⟨s, hepoch, hs, hretired⟩
      exact ⟨hepoch, s, hs, hretired⟩
    · rintro ⟨hepoch, s, hs, hretired⟩
      exact ⟨s, hepoch, hs, hretired⟩
  rw [key p', key p, h.1, h.2 id]

end SameScopes

lemma sameScopes_abandonOne (now : Nat) (acc : AbandonReport × AdmissionPolicy)
    (e : RequestId × Request) : SameScopes acc.2 (abandonOne now acc e).2 := by
  unfold abandonOne
  split
  · exact .terminal acc.2 _ _ _
  · exact .refl acc.2
  · exact .refl acc.2

lemma sameScopes_abandon (now : Nat) (l : List (RequestId × Request))
    (acc : AbandonReport × AdmissionPolicy) :
    SameScopes acc.2 (l.foldl (abandonOne now) acc).2 := by
  induction l generalizing acc with
  | nil => exact .refl acc.2
  | cons e l ih => exact (sameScopes_abandonOne now acc e).trans (ih _)

lemma step_sameScopes (wf : p.Wf) (h : op.keepsScopes = true) : SameScopes p (p.step op).2 := by
  have hmakes := step_makes p op
  generalize (p.step op).2 = p' at hmakes ⊢
  cases hmakes with
  | same => exact .refl p
  | ticked _ observed => exact .tick wf observed
  | registered untimed => cases op <;> simp_all [time, keepsScopes]
  | enqueued _ observed =>
    refine (SameScopes.tick wf observed).trans ⟨rfl, fun id => ?_⟩
    rw [getElem?_modify_eq]
    split
    · rw [Option.map_map]
      rfl
    · rfl
  | dropped observed | withdrawn observed =>
    exact (SameScopes.tick wf observed).trans (.terminal _ _ _ _)
  | completed gid maximum receiptReported observed =>
    exact (SameScopes.tick wf observed).trans (.terminal (withGroup _ gid _) _ _ _)
  | abandoned scope observed =>
    exact (SameScopes.tick wf observed).trans (sameScopes_abandon _ _ (_, _))
  | barred _ _ _ observed | required observed | reported _ _ observed | granted observed _ =>
    exact (SameScopes.tick wf observed).trans (.of_eq rfl rfl)
  | retired | relinquished => cases h

lemma Evolves.sameScopes (h : Evolves allowed p p')
    (hkeeps : ∀ op, allowed op → op.keepsScopes = true) (wf : p.Wf) : SameScopes p p' := by
  refine h.keeps_wf ?_ wf (SameScopes.refl p)
  intro q op hop wfq hsame
  exact hsame.trans (step_sameScopes wfq (hkeeps op hop))

end AdmissionPolicy

end Quecto.Admission
