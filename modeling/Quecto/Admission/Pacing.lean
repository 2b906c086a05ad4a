/-
  Admission/Pacing.lean --- pacing and cooldown are never shortened.
-/
import Quecto.Admission.Observation

namespace Quecto.Admission

open Foundation

structure Group.Later (reset : Bool) (g g' : Group) : Prop where
  nextStart : g.nextStart ≤ g'.nextStart
  cooldown : g.cooldown ≤ g'.cooldown
  unavailable : reset = false → g.unavailable = true → g'.unavailable = true

namespace Group.Later

lemma refl (reset : Bool) (g : Group) : Group.Later reset g g :=
  ⟨le_refl _, le_refl _, fun _ h => h⟩

lemma trans {reset : Bool} {g g' g'' : Group} (h : Group.Later false g g')
    (h' : Group.Later reset g' g'') : Group.Later reset g g'' :=
  ⟨le_trans h.nextStart h'.nextStart, le_trans h.cooldown h'.cooldown,
    fun hr hu => h'.unavailable hr (h.unavailable rfl hu)⟩

end Group.Later

/-! ## What feedback does to a group -/

section

variable {g : Group} {maximum now : Nat} {deadline jitter delayMs : Nat} {receiptReported : Bool}

lemma Group.reported_until_within (h : deadline - now ≤ maximum) :
    deadline ≤ (g.reported maximum (.until deadline) now).cooldown := by
  simp only [Group.reported, if_pos h]
  exact le_max_right _ _

lemma Group.reported_until_beyond (h : maximum < deadline - now) :
    (g.reported maximum (.until deadline) now).unavailable = true := by
  simp only [Group.reported, if_neg (not_le.mpr h)]

lemma Group.reported_noHint_fits (h : now + (g.fallback.throttle jitter).1 ≤ u64Max) :
    now + (g.fallback.throttle jitter).1 ≤ (g.reported maximum (.noHint jitter) now).cooldown := by
  simp only [Group.reported, checkedAdd, if_pos h]
  exact le_max_right _ _

lemma Group.reported_noHint_overflows (h : u64Max < now + (g.fallback.throttle jitter).1) :
    (g.reported maximum (.noHint jitter) now).unavailable = true := by
  simp only [Group.reported, checkedAdd, if_neg (not_le.mpr h)]

lemma Group.completed_throttle_within (hwithin : delayMs ≤ maximum)
    (hfits : now + delayMs ≤ u64Max) :
    now + delayMs ≤ (g.completed maximum receiptReported (.throttle delayMs) now).cooldown := by
  simp only [Group.completed, checkedAdd, if_pos hfits, if_pos hwithin]
  exact le_max_right _ _

lemma Group.completed_throttle_beyond (h : maximum < delayMs ∨ u64Max < now + delayMs) :
    (g.completed maximum receiptReported (.throttle delayMs) now).unavailable = true := by
  by_cases hfits : now + delayMs ≤ u64Max
  · have hbeyond : ¬ delayMs ≤ maximum := by omega
    simp only [Group.completed, checkedAdd, if_pos hfits, if_neg hbeyond]
  · simp only [Group.completed, checkedAdd, if_neg hfits]

end

namespace AdmissionPolicy

/-! ## What a step keeps -/

variable {p q : AdmissionPolicy} {gid : GroupId} {id scope : ScopeId}
  {now sequence deadline : Nat} {r : Request} {op : Operation}

lemma Calm.later {p' : AdmissionPolicy} (h : Calm p p') (gid : GroupId) :
    Group.Later false (p.groupAt gid) (p'.groupAt gid) :=
  ⟨le_of_eq (h.groupAt gid).nextStart.symm, (h.groupAt gid).cooldown,
    fun _ => (h.groupAt gid).unavailable⟩

lemma Grants.later {id : RequestId} (h : q.Grants gid id now) (gid' : GroupId) :
    Group.Later false (q.groupAt gid') ((q.afterGrant gid id now).groupAt gid') := by
  by_cases hgid : gid = gid'
  · subst hgid
    rw [h.groupAt]
    have hpaced := h.paced
    refine ⟨?_, le_refl _, fun _ hbarred => hbarred⟩
    rw [Group.granted_nextStart]
    omega
  · rw [afterGrant_groupAt_ne q gid id now hgid]
    exact .refl _ _

lemma later_relinquish (q : AdmissionPolicy) (epoch : Nat) (gid : GroupId) :
    Group.Later true (q.groupAt gid) ((q.relinquish epoch).groupAt gid) := by
  unfold groupAt
  rw [relinquish_lookup]
  cases q.groups[gid]? with
  | none => exact .refl _ _
  | some g => exact ⟨le_refl _, le_refl _, by simp⟩

lemma step_later (wf : p.Wf) (op : Operation) (gid : GroupId) :
    Group.Later (isReset op (p.step op).1) (p.groupAt gid) ((p.step op).2.groupAt gid) := by
  cases step_cases wf op with
  | grants gid' id now q input observed grants result =>
    rw [result, input]
    exact ((wf_of_tick wf observed).2.later gid).trans (grants.later gid)
  | resets now q input observed _ result =>
    rw [result, input]
    exact ((wf_of_tick wf observed).2.later gid).trans (later_relinquish q _ gid)
  | quiet quiets _ noReset =>
    rw [noReset]
    exact (Quiets.wf_calm wf quiets).2.later gid

lemma step_config (wf : p.Wf) (op : Operation) : (p.step op).2.config = p.config :=
  step_keeps (I := (·.config = p.config)) wf op (fun _ hcalm => hcalm.config)
    (fun _ hq _ => hq) fun _ hq => hq

/-! ## Deadlines -/

/-- A request of the scope is active when the operation is served, at `now` and in `q`. -/
structure Serves (p : AdmissionPolicy) (scope : ScopeId) (sequence now : Nat) (q : AdmissionPolicy)
    (r : Request) : Prop where
  entered : p.enter scope now = .ok q
  found : q.request scope sequence = .ok r
  active : r.state.isActive = true

/-- It has not had this report, nor a later one. -/
structure Accepts (p : AdmissionPolicy) (scope : ScopeId) (sequence report now : Nat)
    (q : AdmissionPolicy) (r : Request) : Prop extends p.Serves scope sequence now q r where
  newer : ∀ last ∈ r.lastReport, last.1 < report

/-- The operation put a deadline on the group: an accepted report, or an accepted
completion, of an active request.  A repeated report and a repeated or late
completion are acknowledged without effect. -/
inductive Establishes (p : AdmissionPolicy) : Operation → GroupId → Nat → Prop
  | hinted {scope sequence report deadline now q r} (h : p.Accepts scope sequence report now q r)
      (within : deadline - now ≤ (q.policyAt r.group).maxCooldownMs) :
      Establishes p (.reportFeedback scope sequence report (.until deadline) now) r.group deadline
  | unhinted {scope sequence report jitter now q r} (h : p.Accepts scope sequence report now q r)
      (fits : now + ((q.groupAt r.group).fallback.throttle jitter).1 ≤ u64Max) :
      Establishes p (.reportFeedback scope sequence report (.noHint jitter) now) r.group
        (now + ((q.groupAt r.group).fallback.throttle jitter).1)
  | completed {scope sequence delayMs now q r} (h : p.Serves scope sequence now q r)
      (within : delayMs ≤ (q.policyAt r.group).maxCooldownMs) (fits : now + delayMs ≤ u64Max) :
      Establishes p (.complete scope sequence (.throttle delayMs) now) r.group (now + delayMs)

/-- The operation made the group unavailable, or found it so: advice beyond the
maximum, or an addition that overflows. -/
inductive Exhausts (p : AdmissionPolicy) : Operation → GroupId → Prop
  | hinted {scope sequence report deadline now q r} (h : p.Accepts scope sequence report now q r)
      (beyond : (q.policyAt r.group).maxCooldownMs < deadline - now) :
      Exhausts p (.reportFeedback scope sequence report (.until deadline) now) r.group
  | unhinted {scope sequence report jitter now q r} (h : p.Accepts scope sequence report now q r)
      (overflow : u64Max < now + ((q.groupAt r.group).fallback.throttle jitter).1) :
      Exhausts p (.reportFeedback scope sequence report (.noHint jitter) now) r.group
  | refused {scope sequence report now q r} (h : p.Accepts scope sequence report now q r) :
      Exhausts p (.reportFeedback scope sequence report .unavailable now) r.group
  | completed {scope sequence delayMs now q r} (h : p.Serves scope sequence now q r)
      (beyond : (q.policyAt r.group).maxCooldownMs < delayMs ∨ u64Max < now + delayMs) :
      Exhausts p (.complete scope sequence (.throttle delayMs) now) r.group
  | enqueued {scope : ScopeId} {sequence now : Nat} {name : String} {gid : GroupId}
      (named : p.config.aliases[name]? = some gid)
      (reply : (p.enqueue scope sequence name now).1 = .error .unavailable) :
      Exhausts p (.enqueue scope sequence name now) gid
  | next {gid : GroupId} {now : Nat} (reply : (p.next gid now).1 = .error .unavailable) :
      Exhausts p (.next gid now) gid

lemma groupAt_withGroup {g : Group} (h : p.groups[gid]? = some g) (f : Group → Group) :
    (p.withGroup gid f).groupAt gid = f g := by
  refine groupAt_of_some ?_
  rw [withGroup, OrdMap.getElem?_modify_eq, if_pos rfl, h]
  rfl

lemma Serves.exists_group (wf : p.Wf) (h : p.Serves scope sequence now q r) :
    ∃ g, q.groups[r.group]? = some g :=
  OrdMap.mem_iff.mp
    ((Quiets.wf_calm wf (quiets_enter h.entered)).1.grouped _ r (request_ok h.found))

lemma Accepts.groupAt {report : Nat} (wf : p.Wf) (h : p.Accepts scope sequence report now q r)
    {feedback : ThrottleFeedback} :
    (p.step (.reportFeedback scope sequence report feedback now)).2.groupAt r.group =
      (q.groupAt r.group).reported (q.policyAt r.group).maxCooldownMs feedback now := by
  obtain ⟨g, hg⟩ := h.exists_group wf
  have haccept : ∀ answer : Answer Unit, answer = (.ok (), (q.withGroup r.group fun g =>
          g.reported (q.policyAt r.group).maxCooldownMs feedback now).withRequest
        ⟨scope, sequence⟩ fun r => { r with lastReport := some (report, feedback) }) →
      answer.2.groupAt r.group =
        (q.groupAt r.group).reported (q.policyAt r.group).maxCooldownMs feedback now := by
    rintro _ rfl
    rw [groupAt_of_some hg]
    exact groupAt_withGroup hg _
  refine haccept (p.reportFeedback scope sequence report feedback now) ?_
  unfold reportFeedback
  rw [h.entered]
  dsimp only
  rw [h.found]
  dsimp only
  rw [if_pos h.active]
  split
  · rfl
  rename_i last fingerprint hlast
  have hlt : last < report := h.newer (last, fingerprint) hlast
  rw [if_neg (by omega), if_neg (by omega)]

lemma Serves.groupAt_complete (wf : p.Wf) (h : p.Serves scope sequence now q r)
    {feedback : Feedback} : Group.Later false
      ((q.groupAt r.group).completed (q.policyAt r.group).maxCooldownMs r.lastReport.isSome
        feedback now) ((p.complete scope sequence feedback now).2.groupAt r.group) := by
  obtain ⟨g, hg⟩ := h.exists_group wf
  unfold complete
  rw [h.entered]
  dsimp only
  rw [h.found]
  dsimp only
  obtain ⟨started, deadline, required, hstate⟩ := RequestState.exists_of_isActive h.active
  rw [hstate]
  have hcalm := calm_finish (q.withGroup r.group fun g =>
    g.completed (q.policyAt r.group).maxCooldownMs r.lastReport.isSome feedback now)
    ⟨scope, sequence⟩ .finished (some feedback)
  have hlater := hcalm.later r.group
  rw [groupAt_withGroup hg] at hlater
  rw [groupAt_of_some hg]
  exact hlater

lemma Establishes.cooldown (wf : p.Wf) (h : p.Establishes op gid deadline) :
    deadline ≤ ((p.step op).2.groupAt gid).cooldown := by
  cases h with
  | hinted h within =>
    rw [h.groupAt wf]
    exact Group.reported_until_within within
  | unhinted h fits =>
    rw [h.groupAt wf]
    exact Group.reported_noHint_fits fits
  | completed h within fits =>
    exact le_trans (Group.completed_throttle_within within fits) (h.groupAt_complete wf).cooldown

lemma markUnavailable_unavailable (h : gid ∈ p.groups) :
    ((p.markUnavailable gid).groupAt gid).unavailable = true := by
  obtain ⟨g, hg⟩ := OrdMap.mem_iff.mp h
  rw [markUnavailable, groupAt_withGroup hg]

lemma scope_ne_unavailable : p.scope id ≠ .error .unavailable := by
  unfold AdmissionPolicy.scope
  split
  · simp
  split
  · split <;> simp
  · simp

lemma tick_ne_unavailable : p.tick now ≠ .error .unavailable := by
  unfold tick
  split <;> simp

lemma enter_ne_unavailable : p.enter id now ≠ .error .unavailable := by
  unfold enter
  split
  · rename_i e he
    intro heq
    exact scope_ne_unavailable (Except.error.inj heq ▸ he)
  · exact tick_ne_unavailable

lemma enqueue_unavailable (wf : p.Wf) {name : String} (named : p.config.aliases[name]? = some gid) :
    (p.enqueue scope sequence name now).1 = .error .unavailable →
      ((p.enqueue scope sequence name now).2.groupAt gid).unavailable = true := by
  unfold enqueue
  split
  · rename_i e he
    exact fun reply => absurd (Except.error.inj reply ▸ he) enter_ne_unavailable
  rename_i q hq
  obtain ⟨wfq, hcalm⟩ := Quiets.wf_calm wf (quiets_enter hq)
  rw [← hcalm.config] at named
  have hmem := (wfq.groups gid).mpr (AdmissionConfig.mem_groups_of_alias wfq.valid named)
  rw [named]
  dsimp only
  split
  · split <;> exact fun reply => by cases reply
  split
  · rename_i e he
    exact fun reply => absurd (Except.error.inj reply ▸ he) scope_ne_unavailable
  split
  · exact fun reply => by cases reply
  split
  · exact fun _ => ‹_›
  split
  · exact fun reply => by cases reply
  split
  · exact fun _ => markUnavailable_unavailable hmem
  · exact fun reply => by cases reply

lemma next_unavailable (reply : (p.next gid now).1 = .error .unavailable) :
    ((p.next gid now).2.groupAt gid).unavailable = true := by
  rw [next_eq] at reply ⊢
  cases hq : p.tick now with
  | error e =>
    rw [hq] at reply
    exact absurd (Except.error.inj reply ▸ hq) tick_ne_unavailable
  | ok q =>
    rw [hq] at reply
    rcases serve_cases q gid now with ⟨id, _, hgrants⟩ | ⟨_, ⟨hun, hsame⟩ | ⟨hmem, hmarked⟩⟩
    · cases (congrArg Prod.fst hgrants).symm.trans reply
    · rw [hsame]
      exact hun reply
    · rw [hmarked]
      exact markUnavailable_unavailable hmem

lemma Exhausts.unavailable (wf : p.Wf) (h : p.Exhausts op gid) :
    ((p.step op).2.groupAt gid).unavailable = true := by
  cases h with
  | hinted h beyond =>
    rw [h.groupAt wf]
    exact Group.reported_until_beyond beyond
  | unhinted h overflow =>
    rw [h.groupAt wf]
    exact Group.reported_noHint_overflows overflow
  | refused h =>
    rw [h.groupAt wf]
    rfl
  | completed h beyond =>
    exact (h.groupAt_complete wf).unavailable rfl (Group.completed_throttle_beyond beyond)
  | enqueued named reply => exact enqueue_unavailable wf named reply
  | next reply => exact next_unavailable reply

/-! ## Whole runs -/

lemma run_later (wf : p.Wf) (ops : List Operation) (gid : GroupId) :
    (p.groupAt gid).nextStart ≤ ((exec step p ops).groupAt gid).nextStart ∧
      (p.groupAt gid).cooldown ≤ ((exec step p ops).groupAt gid).cooldown := by
  refine exec_keeps (J := fun q => (p.groupAt gid).nextStart ≤ (q.groupAt gid).nextStart ∧
    (p.groupAt gid).cooldown ≤ (q.groupAt gid).cooldown) step_wf ?_ wf ⟨le_refl _, le_refl _⟩ ops
  intro q op wfq hq
  have hlater := step_later wfq op gid
  exact ⟨le_trans hq.1 hlater.nextStart, le_trans hq.2 hlater.cooldown⟩

lemma grant_waits (wf : p.Wf) (op : Operation) {grant : Grant}
    (h : grantOf op (p.step op).1 = some grant) : (p.groupAt grant.group).nextStart ≤ grant.time ∧
      (p.groupAt grant.group).cooldown ≤ grant.time ∧
      (p.groupAt grant.group).unavailable = false := by
  obtain ⟨q, observed, grants, _⟩ := grantOf_cases wf op h
  have hlater := (wf_of_tick wf observed).2.later grant.group
  refine ⟨le_trans hlater.nextStart grants.paced, le_trans hlater.cooldown grants.cooled, ?_⟩
  cases hun : (p.groupAt grant.group).unavailable with
  | false => rfl
  | true =>
    have := hlater.unavailable rfl hun
    rw [grants.available] at this
    simp at this

lemma run_grants_cooled (wf : p.Wf) (h : deadline ≤ (p.groupAt gid).cooldown)
    (ops : List Operation) :
    ∀ grant ∈ grants (moments step p ops), grant.group = gid → deadline ≤ grant.time := by
  intro grant hgrant hgid
  obtain ⟨m, hm, hgrantOf⟩ := List.mem_filterMap.mp hgrant
  refine moments_forall (I := Wf) (J := fun q => deadline ≤ (q.groupAt gid).cooldown)
    (R := fun m => ∀ grant ∈ grantOf m.input m.output, grant.group = gid → deadline ≤ grant.time)
    step_wf ?_ ?_ wf h ops m hm grant hgrantOf hgid
  · intro q op wfq hq
    exact le_trans hq (step_later wfq op gid).cooldown
  intro q op wfq hq grant hgrant hgid
  subst hgid
  exact le_trans hq (grant_waits wfq op hgrant).2.1

lemma run_grants_unavailable (wf : p.Wf) (h : (p.groupAt gid).unavailable = true)
    (ops : List Operation) (hreset : ∀ m ∈ moments step p ops, isReset m.input m.output = false) :
    ∀ grant ∈ grants (moments step p ops), grant.group ≠ gid := by
  induction ops generalizing p with
  | nil => intro grant hgrant; simp [grants] at hgrant
  | cons op ops ih =>
    intro grant hgrant
    have hnoReset := hreset (momentAt step p op) List.mem_cons_self
    obtain ⟨m, hm, hgrantOf⟩ := List.mem_filterMap.mp hgrant
    rcases List.mem_cons.mp hm with rfl | hm
    · rintro rfl
      have := (grant_waits wf op hgrantOf).2.2
      rw [h] at this
      simp at this
    exact ih (step_wf p op wf) ((step_later wf op gid).unavailable hnoReset h)
      (fun m hm => hreset m (List.mem_cons_of_mem _ hm)) grant
      (List.mem_filterMap.mpr ⟨m, hm, hgrantOf⟩)

lemma run_grants_paced (wf : p.Wf) (ops : List Operation) (gid : GroupId) :
    (grants (moments step p ops)).Pairwise fun a b =>
      a.group = gid → b.group = gid → a.time + (p.policyAt gid).minIntervalMs ≤ b.time := by
  rw [grants, List.pairwise_filterMap]
  -- a grant promises that its group starts nothing before its interval is over
  refine moments_pairwise
    (fun m q => ∀ a ∈ grantOf m.input m.output, a.group = gid →
      a.time + (p.policyAt gid).minIntervalMs ≤ (q.groupAt gid).nextStart)
    (I := fun q => q.Wf ∧ q.config = p.config)
    (fun q op h => ⟨step_wf q op h.1, (step_config h.1 op).trans h.2⟩) ?_ ?_ ?_ ⟨wf, rfl⟩ ops
  · rintro q op ⟨wfq, hconfig⟩ a ha rfl
    obtain ⟨q', observed, grants, result⟩ := grantOf_cases wfq op ha
    rw [result, grants.groupAt, Group.granted_nextStart, policyAt, policyAt,
      (wf_of_tick wfq observed).2.config, hconfig]
  · rintro m q op ⟨wfq, _⟩ hpromise a ha hgid
    exact le_trans (hpromise a ha hgid) (step_later wfq op gid).nextStart
  · rintro m q op ⟨wfq, _⟩ hpromise a ha b hb hgid rfl
    exact le_trans (hpromise a ha hgid) (grant_waits wfq op hb).1

/-- Pacing and cooldown along every run, resets included.  The two deadlines of a
group never move earlier; its grants are at least the interval apart; none comes
before a deadline that an accepted report or completion established; and once
advice went beyond the maximum or an addition overflowed, none comes before a
reset. -/
theorem deadlines_never_shortened {start : AdmissionPolicy} (hstart : start.Initial)
    (ops : List Operation) (gid : GroupId) :
    (∀ ops₁ ops₂, ops = ops₁ ++ ops₂ → ((exec step start ops₁).groupAt gid).nextStart ≤
            ((exec step start ops).groupAt gid).nextStart ∧
          ((exec step start ops₁).groupAt gid).cooldown ≤
            ((exec step start ops).groupAt gid).cooldown) ∧
      ((grants (moments step start ops)).Pairwise fun a b =>
        a.group = gid → b.group = gid → a.time + (start.policyAt gid).minIntervalMs ≤ b.time) ∧
      (∀ ops₁ op ops₂ deadline, ops = ops₁ ++ op :: ops₂ →
        (exec step start ops₁).Establishes op gid deadline →
          ∀ grant ∈ grants (moments step (exec step start (ops₁ ++ [op])) ops₂),
            grant.group = gid → deadline ≤ grant.time) ∧
      ∀ ops₁ op ops₂, ops = ops₁ ++ op :: ops₂ → (exec step start ops₁).Exhausts op gid →
        (∀ m ∈ moments step (exec step start (ops₁ ++ [op])) ops₂,
          isReset m.input m.output = false) →
          ∀ grant ∈ grants (moments step (exec step start (ops₁ ++ [op])) ops₂),
            grant.group ≠ gid := by
  have wf := hstart.wf
  have hwf : ∀ ops, (exec step start ops).Wf := exec_invariant step_wf wf
  have hsnoc : ∀ ops₁ op, exec step start (ops₁ ++ [op]) = ((exec step start ops₁).step op).2 :=
    fun ops₁ op => exec_append step start ops₁ [op]
  refine ⟨?_, run_grants_paced wf ops gid, ?_, ?_⟩
  · rintro ops₁ ops₂ rfl
    rw [exec_append]
    exact run_later (hwf ops₁) ops₂ gid
  · rintro ops₁ op ops₂ deadline _ hestablishes
    refine run_grants_cooled (hwf _) ?_ ops₂
    rw [hsnoc]
    exact hestablishes.cooldown (hwf ops₁)
  rintro ops₁ op ops₂ _ hexhausts hreset
  refine run_grants_unavailable (hwf _) ?_ ops₂ hreset
  rw [hsnoc]
  exact hexhausts.unavailable (hwf ops₁)

def sampleReport : Operation := .reportFeedback ⟨1, 1⟩ 1 1 (.until 50) 10

lemma sampleReport_establishes :
    (exec step samplePolicy sampleRun).Establishes sampleReport sampleGroup 50 := by
  have hq := okValue_spec ((exec step samplePolicy sampleRun).enter ⟨1, 1⟩ 10) (by decide +kernel)
  have hr := okValue_spec ((okValue _ (by decide +kernel : ((exec step samplePolicy
    sampleRun).enter ⟨1, 1⟩ 10).isOk = true)).request ⟨1, 1⟩ 1) (by decide +kernel)
  exact .hinted ⟨⟨hq, hr, by decide +kernel⟩, by decide +kernel⟩ (by decide +kernel)

/-- After it the slot is freed at 11, and the next grant is made at 50. -/
theorem deadlines_never_shortened_sample :
    (grants (moments step (exec step samplePolicy (sampleRun ++ [sampleReport]))
        [.complete ⟨1, 1⟩ 1 .success 11, .next sampleGroup 20, .next sampleGroup 50])).length = 1 ∧
      ∀ grant ∈ grants (moments step (exec step samplePolicy (sampleRun ++ [sampleReport]))
          [.complete ⟨1, 1⟩ 1 .success 11, .next sampleGroup 20, .next sampleGroup 50]),
        grant.group = sampleGroup → 50 ≤ grant.time := by
  have h := deadlines_never_shortened samplePolicy_initial
    (sampleRun ++ sampleReport ::
      [.complete ⟨1, 1⟩ 1 .success 11, .next sampleGroup 20, .next sampleGroup 50]) sampleGroup
  exact ⟨by decide +kernel, h.2.2.1 sampleRun sampleReport _ 50 rfl sampleReport_establishes⟩

end AdmissionPolicy

end Quecto.Admission
