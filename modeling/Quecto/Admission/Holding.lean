/-
  Admission/Holding.lean --- a request is granted at most once, and how an attempt ends.
-/
import Quecto.Admission.Polling

namespace Quecto.Admission

open Foundation RequestState List

namespace AdmissionPolicy

/-! ## Spent and gone -/

/-- The request can never be granted again. -/
def Spent (p : AdmissionPolicy) (id : RequestId) : Prop :=
  p.Fenced id ∧ ∀ r, p.requests[id]? = some r → r.state.isQueued = false

/-- The request can never be live again. -/
def Gone (p : AdmissionPolicy) (id : RequestId) : Prop :=
  p.Fenced id ∧ p.live[id]? = none

def IsActive (p : AdmissionPolicy) (id : RequestId) : Prop :=
  ∃ r, p.requests[id]? = some r ∧ r.state.isActive = true

variable {p p' q : AdmissionPolicy} {id a : RequestId} {gid : GroupId} {now : Nat}

lemma isActive_iff_any :
    ((p.requests[id]?).any fun r => r.state.isActive) = true ↔ p.IsActive id := by
  unfold IsActive
  cases p.requests[id]? <;> simp

instance (p : AdmissionPolicy) (id : RequestId) : Decidable (p.IsActive id) :=
  decidable_of_iff _ isActive_iff_any

lemma gone_iff : p.Gone id ↔ p.Spent id ∧ ¬ p.IsActive id := by
  have hstates : ∀ s : RequestState,
      s.isTerminal = true ↔ s.isQueued = false ∧ ¬ s.isActive = true := by
    intro s
    cases s <;> simp [isTerminal, isQueued, isActive]
  rw [Gone, live_eq_none]
  constructor
  · rintro ⟨hfenced, hterm⟩
    refine ⟨⟨hfenced, fun r hr => ((hstates _).mp (hterm r hr)).1⟩, ?_⟩
    rintro ⟨r, hr, hactive⟩
    exact ((hstates _).mp (hterm r hr)).2 hactive
  · rintro ⟨⟨hfenced, hqueued⟩, hactive⟩
    exact ⟨hfenced, fun r hr => (hstates _).mpr ⟨hqueued r hr, fun ha => hactive ⟨r, hr, ha⟩⟩⟩

lemma spent_of_isActive (wf : p.Wf) (h : p.IsActive id) : p.Spent id := by
  obtain ⟨r, hr, hactive⟩ := h
  refine ⟨wf.fenced hr, fun r' hr' => ?_⟩
  cases hstate : r.state <;> simp_all [isActive, isQueued]

lemma gone_of_terminal (wf : p.Wf) {r : Request} (hr : p.requests[id]? = some r)
    (hterm : r.state.isTerminal = true) : p.Gone id := by
  refine ⟨wf.fenced hr, live_eq_none.mpr fun r' hr' => ?_⟩
  rw [hr] at hr'
  rw [← Option.some.inj hr']
  exact hterm

/-! ## What a step keeps -/

lemma Calm.spent (h : Calm p p') (hs : p.Spent id) : p'.Spent id := by
  obtain ⟨hfenced, hqueued⟩ := hs
  refine ⟨h.fenced hfenced, fun r' hr' => ?_⟩
  cases hq : r'.state.isQueued with
  | false => rfl
  | true =>
    rcases h.queued id r' hr' hq with ⟨r, hr, hmarked⟩ | hfresh
    · have := hqueued r hr
      rw [← hmarked.state.isQueued_eq, hq] at this
      simp at this
    · exact absurd hfenced hfresh

lemma Calm.notActive (h : Calm p p') (ha : ¬ p.IsActive id) : ¬ p'.IsActive id := by
  rintro ⟨r', hr', hactive⟩
  obtain ⟨r, hr, hmarked⟩ := h.active id r' hr' hactive
  exact ha ⟨r, hr, by rw [← hmarked.state.isActive_eq]; exact hactive⟩

section

variable (h : q.Grants gid id now) (hs : q.Spent a)
include h hs

lemma Grants.ne_of_spent : a ≠ id := by
  rintro rfl
  obtain ⟨r, hr, _, hqueued⟩ := h.queued
  rw [hs.2 r hr] at hqueued
  simp at hqueued

lemma Grants.spent : (q.afterGrant gid id now).Spent a := by
  refine ⟨hs.1, fun r' hr' => ?_⟩
  rcases afterGrant_lookup h hr' with ⟨heq, _⟩ | ⟨_, hr⟩
  · exact absurd heq (h.ne_of_spent hs)
  · exact hs.2 r' hr

lemma Grants.notActive (ha : ¬ q.IsActive a) : ¬ (q.afterGrant gid id now).IsActive a := by
  rintro ⟨r', hr', hactive⟩
  rcases afterGrant_lookup h hr' with ⟨heq, _⟩ | ⟨_, hr⟩
  · exact h.ne_of_spent hs heq
  · exact ha ⟨r', hr, hactive⟩

end

lemma Grants.spends (wf : q.Wf) (h : q.Grants gid id now) : (q.afterGrant gid id now).Spent id := by
  obtain ⟨r, hr, _, _⟩ := h.queued
  refine ⟨wf.fenced hr, fun r' hr' => ?_⟩
  rcases afterGrant_lookup h hr' with ⟨_, _, hstate⟩ | ⟨hne, _⟩
  · rw [hstate]; rfl
  · exact absurd rfl hne

lemma gone_relinquish (wf : q.Wf) (h : q.Fenced id) : (q.relinquish (q.epoch + 1)).Gone id := by
  refine ⟨Or.inl ?_, live_eq_none.mpr fun r hr => by simp [relinquish] at hr⟩
  show id.scope.epoch < q.epoch + 1
  rcases h with h | ⟨s, hs, _⟩
  · omega
  · have := (wf.scopes _ _ hs).1
    omega

lemma step_spent (op : Operation) (wf : p.Wf) (hs : p.Spent id) : (p.step op).2.Spent id :=
  step_keeps wf op (fun _ hcalm => hcalm.spent hs) (fun _ hq grants => grants.spent hq)
    fun wfq hq => (gone_iff.mp (gone_relinquish wfq hq.1)).1

lemma step_gone (op : Operation) (wf : p.Wf) (hg : p.Gone id) : (p.step op).2.Gone id := by
  refine step_keeps wf op ?_ ?_ fun wfq hq => gone_relinquish wfq (gone_iff.mp hq).1.1
  · intro q _ hcalm
    obtain ⟨hs, ha⟩ := gone_iff.mp hg
    exact gone_iff.mpr ⟨hcalm.spent hs, hcalm.notActive ha⟩
  intro q gid a now _ hq grants
  obtain ⟨hs, ha⟩ := gone_iff.mp hq
  exact gone_iff.mpr ⟨grants.spent hs, grants.notActive hs ha⟩

/-! ## What a run keeps -/

variable (ops : List Operation)

lemma run_spent (wf : p.Wf) (hs : p.Spent id) : (exec step p ops).Spent id :=
  exec_keeps step_wf (fun _ op => step_spent op) wf hs ops

lemma run_gone (wf : p.Wf) (hg : p.Gone id) : (exec step p ops).Gone id :=
  exec_keeps step_wf (fun _ op => step_gone op) wf hg ops

lemma run_wf (wf : p.Wf) : (exec step p ops).Wf := exec_invariant step_wf wf ops

lemma run_grants_nodup (wf : p.Wf) (ops : List Operation) :
    ((grants (moments step p ops)).map (·.id)).Nodup := by
  rw [grants, Nodup, pairwise_map, pairwise_filterMap]
  -- a grant promises that its request stays spent
  refine moments_pairwise
    (fun m s => ∀ grant ∈ grantOf m.input m.output, s.Spent grant.id) step_wf ?_ ?_ ?_ wf ops
  · intro p op wf grant hgrant
    obtain ⟨q, observed, grants, result⟩ := grantOf_cases wf op hgrant
    rw [result]
    exact grants.spends (wf_of_tick wf observed).1
  · intro m p op wf hpromise grant hgrant
    exact step_spent op wf (hpromise grant hgrant)
  intro m p op wf hpromise grant hgrant grant' hgrant'
  obtain ⟨q, observed, grants, _⟩ := grantOf_cases wf op hgrant'
  exact grants.ne_of_spent ((wf_of_tick wf observed).2.spent (hpromise grant hgrant))

/-- No replay, along every run of the policy.  No request is granted twice.  A
request that was active and no longer is stays neither queued nor active, and so
does one that has a terminal record at some point, whether or not the record is
still there. -/
theorem granted_at_most_once {start : AdmissionPolicy} {epoch : Nat} {config : AdmissionConfig}
    (hstart : AdmissionPolicy.new epoch config = .ok start) (ops : List Operation) :
    ((grants (moments step start ops)).map (·.id)).Nodup ∧
      (∀ (ops₁ ops₂ ops₃ : List Operation) (id : RequestId), ops = ops₁ ++ ops₂ ++ ops₃ →
        (exec step start ops₁).IsActive id → ¬ (exec step start (ops₁ ++ ops₂)).IsActive id →
          (exec step start ops).live[id]? = none) ∧
      ∀ (ops₁ ops₂ : List Operation) (id : RequestId) (r : Request), ops = ops₁ ++ ops₂ →
        (exec step start ops₁).requests[id]? = some r → r.state.isTerminal = true →
          (exec step start ops).live[id]? = none := by
  have wf := wf_of_new hstart
  refine ⟨run_grants_nodup wf ops, ?_, ?_⟩
  · intro ops₁ ops₂ ops₃ id hops hactive hleft
    have hspent := run_spent ops₂ (run_wf ops₁ wf) (spent_of_isActive (run_wf ops₁ wf) hactive)
    rw [← exec_append] at hspent
    have hgone := run_gone ops₃ (run_wf (ops₁ ++ ops₂) wf) (gone_iff.mpr ⟨hspent, hleft⟩)
    rw [← exec_append, ← hops] at hgone
    exact hgone.2
  · intro ops₁ ops₂ id r hops hr hterm
    have hgone := run_gone ops₂ (run_wf ops₁ wf) (gone_of_terminal (run_wf ops₁ wf) hr hterm)
    rw [← exec_append, ← hops] at hgone
    exact hgone.2

/-- The slot of the sample deployment is granted, completed and granted again:
two grants, and the first request does not come back. -/
theorem granted_at_most_once_sample : (grants (moments step samplePolicy
        (sampleRun ++ [.complete ⟨1, 1⟩ 1 .success 7] ++ [.next sampleGroup 8]))).length = 2 ∧
      (exec step samplePolicy
        (sampleRun ++ [.complete ⟨1, 1⟩ 1 .success 7] ++ [.next sampleGroup 8])).live[
          (⟨⟨1, 1⟩, 1⟩ : RequestId)]? = none := by
  have h := granted_at_most_once samplePolicy_new
    (sampleRun ++ [.complete ⟨1, 1⟩ 1 .success 7] ++ [.next sampleGroup 8])
  exact ⟨by decide +kernel, h.2.1 sampleRun _ _ _ rfl (by decide +kernel) (by decide +kernel)⟩

end AdmissionPolicy

/-- The operations at `now` that end no attempt of `id`. -/
def Operation.Spares (now : Nat) (id : RequestId) : Operation → Prop
  | .registerRoot _ | .registerChild _ | .retire _ => True
  | .enqueue _ _ _ time | .cancel _ _ time | .reportFeedback _ _ _ _ time => time = now
  | .next _ time => time = now
  | .status _ _ time | .held _ _ time | .snapshot _ time | .nextWake time | .ledger time =>
      time = now
  | .complete scope sequence _ time | .withdraw scope sequence time =>
      time = now ∧ id ≠ ⟨scope, sequence⟩
  | .abandon _ _ | .reset _ => False

variable {op : Operation}

lemma Operation.spares_of_read {now : Nat} (h : op.readTime = some now)
    (id : RequestId) : op.Spares now id := by
  cases op <;> simp_all [Operation.readTime, Operation.Spares]

namespace AdmissionPolicy

/-- The attempt is under way, and an observation at `now` does not end it. -/
def Holds (p : AdmissionPolicy) (now : Nat) (id : RequestId) : Prop :=
  ∃ r, p.requests[id]? = some r ∧ r.state.isActive = true ∧ r.endsBy (p.sinceOf id r) now = false

/-- The attempt's owner is lost and its lease has run out. -/
def LeaseEnds (p : AdmissionPolicy) (now : Nat) (id : RequestId) : Prop :=
  ∃ r started deadline required since, p.requests[id]? = some r ∧
    r.state = .active started deadline required ∧
    (p.groupAt r.group).uncertain[id]? = some since ∧ leaseRelease deadline since ≤ now

variable {p p' : AdmissionPolicy} {id : RequestId} {now : Nat}

lemma IsActive.holds_or_leaseEnds (h : p.IsActive id) (now : Nat) :
    p.Holds now id ∨ p.LeaseEnds now id := by
  obtain ⟨r, hr, hactive⟩ := h
  cases hends : r.endsBy (p.sinceOf id r) now with
  | false => exact .inl ⟨r, hr, hactive, hends⟩
  | true =>
    obtain ⟨started, deadline, required, hstate⟩ := exists_of_isActive hactive
    rw [Request.endsBy_active hstate, Option.any_eq_true] at hends
    obtain ⟨since, hsince, hrelease⟩ := hends
    exact .inr ⟨r, started, deadline, required, since, hr, hstate, hsince,
      of_decide_eq_true hrelease⟩

/-- An attempt under way stays so. -/
def KeepsActive (p p' : AdmissionPolicy) (id : RequestId) : Prop :=
  ∀ r, p.requests[id]? = some r → r.state.isActive = true →
    ∃ r', p'.requests[id]? = some r' ∧ r.Marked r'

lemma keepsActive_of_eq (h : p'.requests[id]? = p.requests[id]?) : KeepsActive p p' id :=
  fun r hr _ => ⟨r, by rw [h]; exact hr, .refl r⟩

namespace Holds

variable {p p' : AdmissionPolicy} {now : Nat} {id : RequestId}

lemma isActive (h : p.Holds now id) : p.IsActive id := by
  obtain ⟨r, hr, hactive, _⟩ := h
  exact ⟨r, hr, hactive⟩

lemma of_isActive (h : p.IsActive id) : p.Holds 0 id := by
  obtain ⟨r, hr, hactive⟩ := h
  refine ⟨r, hr, hactive, ?_⟩
  obtain ⟨started, deadline, required, hstate⟩ := exists_of_isActive hactive
  rw [Request.endsBy_active hstate]
  cases p.sinceOf id r with
  | none => rfl
  | some since => simp [leaseRelease, saturatingAdd, uncertainLeaseMarginMs, u64Max]

lemma transfer (h : p.Holds now id) (hactive : KeepsActive p p' id)
    (hlease : ∀ gid, (p'.groupAt gid).uncertain[id]? = (p.groupAt gid).uncertain[id]?) :
    p'.Holds now id := by
  obtain ⟨r, hr, hr_active, hends⟩ := h
  obtain ⟨r', hr', hmarked⟩ := hactive r hr hr_active
  refine ⟨r', hr', by rw [hmarked.state.isActive_eq]; exact hr_active, ?_⟩
  have hsince : p'.sinceOf id r' = p.sinceOf id r := by
    unfold sinceOf
    rw [hlease, hmarked.group]
  rw [hmarked.endsBy, hsince]
  exact hends

variable {q : AdmissionPolicy}

lemma tick (wf : p.Wf) (h : p.Holds now id) (htick : p.tick now = .ok q) : q.Holds now id := by
  obtain ⟨r, hr, hactive, hends⟩ := h
  have hobserved := observed_tick wf htick
  have hmarked := r.marked_flagOverdue now
  have hlive : p.live[id]? = some r :=
    live_eq_some.mpr ⟨hr, not_isTerminal_of_isActive hactive⟩
  have hkept : q.live[id]? = some (r.flagOverdue now) := by
    rw [hobserved.live id, hlive, Option.bind_some, if_neg (by rw [hends]; simp)]
  refine ⟨_, (live_eq_some.mp hkept).1, by rw [hmarked.state.isActive_eq]; exact hactive, ?_⟩
  rw [hmarked.endsBy, hobserved.sinceOf wf hlive hends]
  exact hends

/-! ## Elementary changes -/

lemma withGroup (h : p.Holds now id) (gid : GroupId) {f : Group → Group}
    (hf : ∀ g, (f g).uncertain = g.uncertain) : (p.withGroup gid f).Holds now id := by
  refine h.transfer (keepsActive_of_eq rfl) ?_
  intro a
  unfold groupAt
  rw [withGroup_groups]
  split
  · cases p.groups[a]? with
    | none => rfl
    | some g => exact congrArg (fun m : OrdMap RequestId Nat => m[id]?) (hf g)
  · rfl

lemma withRequest (h : p.Holds now id) (other : RequestId) {f : Request → Request}
    (hf : ∀ r, Request.Marked r (f r)) : (p.withRequest other f).Holds now id := by
  refine h.transfer ?_ fun _ => rfl
  intro r hr _
  rw [withRequest_requests, hr]
  split
  · exact ⟨f r, rfl, hf r⟩
  · exact ⟨r, rfl, .refl r⟩

lemma terminal (wf : p.Wf) (h : p.Holds now id) {other : RequestId} (hne : id ≠ other)
    (outcome : TerminalOutcome) (feedback : Option Feedback) :
    (p.terminal other outcome feedback).Holds now id := by
  apply h.transfer
  · intro r hr hactive
    have hlive := wf.not_mem_terminals hr (not_isTerminal_of_isActive hactive)
    exact ⟨r, terminal_keeps hne hlive hr, .refl r⟩
  intro gid
  have hgroups := (ended_terminal wf other outcome feedback).groups gid
  unfold groupAt
  rw [hgroups]
  cases p.groups[gid]? with
  | none => rfl
  | some g =>
    show (g.without [other]).uncertain[id]? = g.uncertain[id]?
    rw [Group.without_uncertain, if_neg (by simpa using hne)]

lemma cancelled (wf : p.Wf) (h : p.Holds now id) (ids : List RequestId) (hids : id ∉ ids) :
    (ids.foldl (fun p id => p.terminal id .cancelled none) p).Holds now id := by
  induction ids generalizing p with
  | nil => exact h
  | cons other ids ih =>
    apply ih (wf.finish other _ _)
    · exact h.terminal wf (fun e => hids (e ▸ mem_cons_self)) _ _
    · exact fun hmem => hids (mem_cons_of_mem _ hmem)

lemma afterGrant (h : p.Holds now id) {gid : GroupId} {granted : RequestId}
    (hgrants : p.Grants gid granted now) : (p.afterGrant gid granted now).Holds now id := by
  apply h.transfer
  · intro r hr hactive
    obtain ⟨r₀, hr₀, _, hqueued⟩ := hgrants.queued
    have hne := active_ne_queued hr hactive hr₀ hqueued
    exact ⟨r, by rw [afterGrant_requests, if_neg hne.symm]; exact hr, .refl r⟩
  intro a
  by_cases ha : gid = a
  · subst ha
    rw [hgrants.groupAt, Group.granted_uncertain]
  · rw [afterGrant_groupAt_ne p gid granted now ha]

end Holds

/-! ## Operations -/

section

variable {p : AdmissionPolicy} {now : Nat} {id : RequestId} {scope : ScopeId} {sequence : Nat}

lemma complete_of_holds (wf : p.Wf) (h : p.Holds now id) (feedback : Feedback) :
    (p.complete id.scope id.sequence feedback now).1 = .ok (.terminal .finished) ∨
      (p.complete id.scope id.sequence feedback now).2 = p := by
  unfold complete
  split
  · exact .inr rfl
  rename_i q hq
  obtain ⟨r, hr, hactive, _⟩ := h.tick wf (tick_of_enter hq)
  have wfq := (Quiets.wf_calm wf (quiets_enter hq)).1
  obtain ⟨s, hs, _⟩ := wfq.scope_of_live hr (not_isTerminal_of_isActive hactive)
  rw [request_of_scope hs hr]
  obtain ⟨started, deadline, required, hstate⟩ := exists_of_isActive hactive
  dsimp only
  rw [hstate]
  exact .inl rfl

lemma complete_clock {feedback : Feedback} {state : RequestState} (wf : p.Wf)
    (h : (p.complete scope sequence feedback now).1 = .ok state) :
    (p.complete scope sequence feedback now).2.now = now := by
  unfold complete at h ⊢
  split
  · rename_i e he
    rw [he] at h
    simp at h
  rename_i q hq
  have hclock : q.now = now := (observed_tick wf (tick_of_enter hq)).clock
  split
  · exact hclock
  split
  · split
    · exact hclock
    · split <;> exact hclock
  · exact hclock
  · rw [terminal_now]
    exact hclock

lemma abandonOne_isActive (acc : AbandonReport × AdmissionPolicy) (e : RequestId × Request)
    (hne : e.2.state.isQueued = true → id ≠ e.1) (hactive : acc.2.IsActive id)
    (hlive : id ∉ acc.2.terminals) :
    (abandonOne now acc e).2.IsActive id ∧ id ∉ (abandonOne now acc e).2.terminals := by
  unfold abandonOne
  cases hstate : e.2.state with
  | queued deadline =>
    have hne : id ≠ e.1 := hne (by rw [hstate]; rfl)
    obtain ⟨r, hr, hr_active⟩ := hactive
    refine ⟨⟨r, terminal_keeps hne hlive hr, hr_active⟩, ?_⟩
    intro hmem
    rcases mem_terminals_terminal hmem with hmem | ⟨heq, _⟩
    · exact hlive hmem
    · exact hne heq
  | active started deadline required | terminal outcome => exact ⟨hactive, hlive⟩

lemma isActive_abandon (wf : p.Wf) (h : p.Holds now id) (scope : ScopeId) :
    (p.abandon scope now).2.IsActive id := by
  unfold abandon
  split
  · exact h.isActive
  rename_i q hq
  have wfq := (Quiets.wf_calm wf (quiets_enter hq)).1
  obtain ⟨r, hr, hactive, _⟩ := h.tick wf (tick_of_enter hq)
  have hlive := wfq.not_mem_terminals hr (not_isTerminal_of_isActive hactive)
  have hlisted : ∀ e ∈ q.requests.toList.filter fun e => e.1.scope == scope,
      e.2.state.isQueued = true → id ≠ e.1 := by
    intro e he hqueued
    exact active_ne_queued hr hactive (OrdMap.mem_toList_iff.mp (mem_of_mem_filter he)) hqueued
  have hfold : ∀ (l : List (RequestId × Request)) (acc : AbandonReport × AdmissionPolicy),
      (∀ e ∈ l, e.2.state.isQueued = true → id ≠ e.1) → acc.2.IsActive id →
        id ∉ acc.2.terminals → (l.foldl (abandonOne now) acc).2.IsActive id := by
    intro l
    induction l with
    | nil => intro acc _ hactive _; exact hactive
    | cons e l ih =>
      intro acc hl hactive hlive
      obtain ⟨hactive', hlive'⟩ := abandonOne_isActive acc e (hl e mem_cons_self) hactive hlive
      exact ih _ (fun e' he' => hl e' (mem_cons_of_mem _ he')) hactive' hlive'
  exact hfold _ _ hlisted ⟨r, hr, hactive⟩ hlive

end

/-! ## Runs -/

lemma Holds.not_queued (h : p.Holds now id) {other : RequestId} {r : Request}
    (hr : p.requests[other]? = some r) (hqueued : r.state.isQueued = true) : id ≠ other := by
  obtain ⟨r', hr', hactive, _⟩ := h
  exact active_ne_queued hr' hactive hr hqueued

lemma Spares.time {now time : Nat} (hop : op.Spares now id)
    (htime : op.time = some time) : time = now := by
  cases op <;> simp_all [Operation.Spares, Operation.time]

/-- Only its own completion or withdrawal, a loss of its owner or a reset ends an attempt. -/
lemma step_holds (wf : p.Wf) (hop : op.Spares now id) (h : p.Holds now id) :
    (p.step op).2.Holds now id := by
  have hmakes := step_makes p op
  generalize (p.step op).2 = p' at hmakes ⊢
  have hwf : ∀ {q}, p.tick now = .ok q → q.Wf := fun hq => (wf_of_tick wf hq).1
  cases hmakes with
  | same => exact h
  | ticked time observed =>
    obtain rfl := Spares.time hop time
    exact h.tick wf observed
  | registered => exact h.transfer (keepsActive_of_eq rfl) fun _ => rfl
  | retired _ cancelled =>
    subst cancelled
    refine (h.cancelled wf _ fun hmem => ?_).transfer (keepsActive_of_eq rfl) fun _ => rfl
    obtain ⟨r, hr, hq⟩ := OrdMap.mem_keysWith.mp hmem
    exact h.not_queued hr (Bool.and_eq_true_iff.mp hq).2 rfl
  | enqueued _ observed _ unused =>
    obtain rfl := Spares.time hop rfl
    refine (h.tick wf observed).transfer (fun r hr _ => ⟨r, ?_, .refl r⟩) fun _ => rfl
    rw [OrdMap.getElem?_insert_eq, if_neg]
    · exact hr
    rintro rfl
    rw [unused] at hr
    cases hr
  | barred gid time _ observed =>
    obtain rfl := Spares.time hop time
    exact (h.tick wf observed).withGroup gid fun _ => rfl
  | dropped observed found queued =>
    obtain rfl := Spares.time hop rfl
    have hq := h.tick wf observed
    exact hq.terminal (hwf observed) (hq.not_queued found queued) _ _
  | required observed =>
    obtain rfl := Spares.time hop rfl
    exact (h.tick wf observed).withRequest _ fun r => r.marked_requireCancellation
  | reported gid maximum observed =>
    obtain rfl := Spares.time hop rfl
    exact ((h.tick wf observed).withGroup _ fun g =>
      (g.advised_reported _ _ _).kept.2).withRequest _
      fun _ => ⟨rfl, .refl _⟩
  | completed gid maximum receiptReported observed =>
    obtain ⟨rfl, hne⟩ := hop
    refine ((h.tick wf observed).withGroup _
      fun g => (g.advised_completed _ _ _ _).kept.2).terminal ?_ hne _ _
    exact (quiet_withGroup _ gid fun g => (g.advised_completed _ _ _ _).quieter _).wf (hwf observed)
  | withdrawn observed =>
    obtain ⟨rfl, hne⟩ := hop
    exact (h.tick wf observed).terminal (hwf observed) hne _ _
  | granted observed grants =>
    obtain rfl := Spares.time hop rfl
    exact (h.tick wf observed).afterGrant grants
  | abandoned | relinquished => exact hop.elim

lemma Evolves.holds {allowed : Operation → Prop} (h : Evolves allowed p p')
    (hspares : ∀ op, allowed op → op.Spares now id) (wf : p.Wf) (hp : p.Holds now id) :
    p'.Holds now id := by
  refine h.keeps_wf (I := fun q => q.Holds now id) ?_ wf hp
  intro q op hop wfq hq
  exact step_holds wfq (hspares op hop) hq

end AdmissionPolicy

end Quecto.Admission
