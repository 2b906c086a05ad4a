/-
  Admission/Run.lean --- runs of the admission policy.
-/
import Quecto.Admission.Restart

namespace Quecto.Admission

open Foundation

/-! ## The machine -/

inductive Operation where
  | registerRoot (workload : WorkloadClass)
  | registerChild (parent : ScopeId)
  | retire (scope : ScopeId)
  | enqueue (scope : ScopeId) (sequence : Nat) (name : String) (now : Nat)
  | cancel (scope : ScopeId) (sequence now : Nat)
  | reportFeedback (scope : ScopeId) (sequence report : Nat) (feedback : ThrottleFeedback)
      (now : Nat)
  | complete (scope : ScopeId) (sequence : Nat) (feedback : Feedback) (now : Nat)
  | abandon (scope : ScopeId) (now : Nat)
  | withdraw (scope : ScopeId) (sequence now : Nat)
  | next (group : GroupId) (now : Nat)
  | status (scope : ScopeId) (sequence now : Nat)
  | held (scope : ScopeId) (sequence now : Nat)
  | snapshot (group : GroupId) (now : Nat)
  | nextWake (now : Nat)
  | ledger (now : Nat)
  | reset (now : Nat)

inductive Reply where
  | registered (answer : Except AdmissionError ScopeId)
  | done (answer : Except AdmissionError Unit)
  | state (answer : Except AdmissionError RequestState)
  | abandoned (answer : Except AdmissionError AbandonReport)
  | granted (answer : Except AdmissionError (Option RequestId))
  | hold (answer : Except AdmissionError (Option UncertainHold))
  | snapshot (answer : Except AdmissionError GroupSnapshot)
  | wake (answer : Except AdmissionError (Option Nat))
  | ledger (answer : Except AdmissionError AdmissionLedger)
  | epoch (answer : Except AdmissionError Nat)

namespace AdmissionPolicy

def step (p : AdmissionPolicy) : Operation → Reply × AdmissionPolicy
  | .registerRoot workload => (p.registerRoot workload).map .registered id
  | .registerChild parent => (p.registerChild parent).map .registered id
  | .retire scope => (p.retire scope).map .done id
  | .enqueue scope sequence name now => (p.enqueue scope sequence name now).map .state id
  | .cancel scope sequence now => (p.cancel scope sequence now).map .state id
  | .reportFeedback scope sequence report feedback now =>
      (p.reportFeedback scope sequence report feedback now).map .done id
  | .complete scope sequence feedback now =>
      (p.complete scope sequence feedback now).map .state id
  | .abandon scope now => (p.abandon scope now).map .abandoned id
  | .withdraw scope sequence now => (p.withdraw scope sequence now).map .done id
  | .next group now => (p.next group now).map .granted id
  | .status scope sequence now => (p.status scope sequence now).map .state id
  | .held scope sequence now => (p.held scope sequence now).map .hold id
  | .snapshot group now => (p.snapshot group now).map .snapshot id
  | .nextWake now => (p.nextWake now).map .wake id
  | .ledger now => (p.ledger now).map .ledger id
  | .reset now => (p.reset now).map .epoch id

def Initial (p : AdmissionPolicy) : Prop :=
  (∃ epoch config, AdmissionPolicy.new epoch config = .ok p) ∨
    ∃ config ledger now, AdmissionPolicy.restore config ledger now = .ok p

def Reachable (p : AdmissionPolicy) : Prop :=
  ∃ start ops, Initial start ∧ exec step start ops = p

end AdmissionPolicy

open AdmissionPolicy

abbrev PolicyMoment : Type := Moment AdmissionPolicy Operation Reply

structure Grant where
  group : GroupId
  id : RequestId
  time : Nat
  deriving DecidableEq

def grantOf : Operation → Reply → Option Grant
  | .next group now, .granted (.ok (some id)) => some ⟨group, id, now⟩
  | _, _ => none

def grants (ms : List PolicyMoment) : List Grant :=
  ms.filterMap fun m => grantOf m.input m.output

def isReset : Operation → Reply → Bool
  | .reset _, .epoch (.ok _) => true
  | _, _ => false

def Operation.isQuiet : Operation → Bool
  | .next _ _ => false
  | .reset _ => false
  | _ => true

def Operation.time : Operation → Option Nat
  | .registerRoot _ | .registerChild _ | .retire _ => none
  | .enqueue _ _ _ now | .cancel _ _ now | .reportFeedback _ _ _ _ now | .complete _ _ _ now
  | .abandon _ now | .withdraw _ _ now | .next _ now | .status _ _ now | .held _ _ now
  | .snapshot _ now | .nextWake now | .ledger now | .reset now => some now

def Operation.readTime : Operation → Option Nat
  | .status _ _ now => some now
  | .held _ _ now => some now
  | .snapshot _ now => some now
  | .nextWake now => some now
  | .ledger now => some now
  | _ => none

namespace AdmissionPolicy

/-- What an operation makes of a policy: nothing, what its observation of the clock leaves,
or one change of that. -/
inductive Makes (p : AdmissionPolicy) : Operation → AdmissionPolicy → Prop
  | same (op : Operation) : Makes p op p
  | ticked {op : Operation} {now q} (time : op.time = some now) (observed : p.tick now = .ok q) :
      Makes p op q
  | registered {op : Operation} (untimed : op.time = none) (root : Option ScopeId)
      (workload : WorkloadClass) : Makes p op (p.registered root workload)
  | retired {scope q}
      (idle : (p.requests.count fun id r => id.scope == scope && r.state.isActive) = 0)
      (cancelled : (p.requests.keysWith fun id r => id.scope == scope && r.state.isQueued).foldl
        (fun p id => p.terminal id .cancelled none) p = q) :
      Makes p (.retire scope) (q.retired scope)
  | enqueued {scope sequence now q} {name : String} {s : Scope} {group : GroupId} (deadline : Nat)
      (observed : p.tick now = .ok q) (named : q.config.aliases[name]? = some group)
      (unused : q.requests[(⟨scope, sequence⟩ : RequestId)]? = none) (known : q.scope scope = .ok s)
      (fresh : s.highWater < sequence) :
      Makes p (.enqueue scope sequence name now) (q.enqueued scope sequence group deadline)
  | barred {op : Operation} {now q} (gid : GroupId) (time : op.time = some now)
      (unread : op.readTime = none) (observed : p.tick now = .ok q) :
      Makes p op (q.markUnavailable gid)
  | dropped {scope sequence now q} {r : Request} (observed : p.tick now = .ok q)
      (found : q.requests[(⟨scope, sequence⟩ : RequestId)]? = some r)
      (queued : r.state.isQueued = true) :
      Makes p (.cancel scope sequence now) (q.terminal ⟨scope, sequence⟩ .cancelled none)
  | required {scope sequence now q} (observed : p.tick now = .ok q) :
      Makes p (.cancel scope sequence now)
        (q.withRequest ⟨scope, sequence⟩ Request.requireCancellation)
  | reported {scope sequence report feedback now q} (gid : GroupId) (maximum : Nat)
      (observed : p.tick now = .ok q) :
      Makes p (.reportFeedback scope sequence report feedback now)
        ((q.withGroup gid fun g => g.reported maximum feedback now).withRequest ⟨scope, sequence⟩
          fun r => { r with lastReport := some (report, feedback) })
  | completed {scope sequence feedback now q} (gid : GroupId) (maximum : Nat)
      (receiptReported : Bool) (observed : p.tick now = .ok q) :
      Makes p (.complete scope sequence feedback now)
        ((q.withGroup gid fun g => g.completed maximum receiptReported feedback now).terminal
          ⟨scope, sequence⟩ .finished (some feedback))
  | withdrawn {scope sequence now q} (observed : p.tick now = .ok q) :
      Makes p (.withdraw scope sequence now) (q.terminal ⟨scope, sequence⟩ .cancelled none)
  | abandoned (scope : ScopeId) {now q} (observed : p.tick now = .ok q) :
      Makes p (.abandon scope now)
        ((q.requests.toList.filter fun e => e.1.scope == scope).foldl (abandonOne now)
          ({ cancelled := 0, uncertain := 0, active := 0 }, q)).2
  | granted {gid id now q} (observed : p.tick now = .ok q) (grants : q.Grants gid id now) :
      Makes p (.next gid now) (q.afterGrant gid id now)
  | relinquished {now q} (observed : p.tick now = .ok q)
      (answer : (p.reset now).1 = .ok (q.epoch + 1)) :
      Makes p (.reset now) (q.relinquish (q.epoch + 1))

lemma tick_of_enter {p q : AdmissionPolicy} {scope : ScopeId} {now : Nat}
    (h : p.enter scope now = .ok q) : p.tick now = .ok q := by
  unfold enter at h
  split at h
  · cases h
  · exact h

variable (p : AdmissionPolicy) (scope : ScopeId) (sequence : Nat)

lemma makes_register (root : Option ScopeId) (workload : WorkloadClass) {op : Operation}
    (untimed : op.time = none) : Makes p op (p.register root workload).2 := by
  unfold register
  dsimp only
  split
  · exact .same op
  split
  · exact .same op
  rename_i serial hserial
  obtain ⟨rfl, _⟩ := checkedAdd_eq_some.mp hserial
  exact .registered untimed root workload

lemma makes_enqueue (name : String) (now : Nat) :
    Makes p (.enqueue scope sequence name now) (p.enqueue scope sequence name now).2 := by
  unfold enqueue
  split
  · exact .same _
  rename_i q hq
  have hticked : Makes p (.enqueue scope sequence name now) q := .ticked rfl (tick_of_enter hq)
  split
  · exact hticked
  rename_i group hgroup
  dsimp only
  split
  · exact hticked
  rename_i hunused
  split
  · exact hticked
  rename_i s hs
  split
  · exact hticked
  rename_i hfresh
  split
  · exact hticked
  split
  · exact hticked
  split
  · exact .barred group rfl rfl (tick_of_enter hq)
  · exact .enqueued _ (tick_of_enter hq) hgroup hunused hs (not_le.mp hfresh)

lemma makes_reportFeedback (report : Nat) (feedback : ThrottleFeedback) (now : Nat) :
    Makes p (.reportFeedback scope sequence report feedback now)
      (p.reportFeedback scope sequence report feedback now).2 := by
  unfold reportFeedback
  split
  · exact .same _
  rename_i q hq
  have hticked : Makes p (.reportFeedback scope sequence report feedback now) q :=
    .ticked rfl (tick_of_enter hq)
  split
  · exact hticked
  dsimp only
  split
  · split
    · exact .reported _ _ (tick_of_enter hq)
    · exact hticked
  split
  · exact hticked
  · split
    · exact hticked
    · split
      · exact .reported _ _ (tick_of_enter hq)
      · exact hticked

lemma makes_cancel (now : Nat) :
    Makes p (.cancel scope sequence now) (p.cancel scope sequence now).2 := by
  unfold cancel
  split
  · exact .same _
  rename_i q hq
  split
  · exact .ticked rfl (tick_of_enter hq)
  rename_i r hr
  split
  · rename_i deadline hstate
    exact .dropped (tick_of_enter hq) (request_ok hr) (by rw [hstate]; rfl)
  · exact .required (tick_of_enter hq)
  · exact .ticked rfl (tick_of_enter hq)

lemma makes_complete (feedback : Feedback) (now : Nat) :
    Makes p (.complete scope sequence feedback now) (p.complete scope sequence feedback now).2 := by
  unfold complete
  split
  · exact .same _
  rename_i q hq
  have hticked : Makes p (.complete scope sequence feedback now) q := .ticked rfl (tick_of_enter hq)
  split
  · exact hticked
  split
  · split
    · exact hticked
    · split <;> exact hticked
  · exact hticked
  · exact .completed _ _ _ (tick_of_enter hq)

lemma makes_next (gid : GroupId) (now : Nat) : Makes p (.next gid now) (p.next gid now).2 := by
  rw [next_eq]
  cases htick : p.tick now with
  | error e => exact .same _
  | ok q =>
    rcases serve_cases q gid now with ⟨id, hgrants, hresult⟩ | ⟨_, ⟨_, hleaves⟩ | ⟨_, hleaves⟩⟩
    · dsimp only
      rw [hresult]
      exact .granted htick hgrants
    · rw [hleaves]
      exact .ticked rfl htick
    · rw [hleaves]
      exact .barred gid rfl rfl htick

lemma step_makes (op : Operation) : Makes p op (p.step op).2 := by
  -- A read answers from what its observation of the clock leaves.
  cases op with
  | registerRoot workload => exact makes_register p none workload rfl
  | registerChild parent =>
    show Makes p _ (p.registerChild parent).2
    unfold registerChild
    split
    · exact .same _
    · exact makes_register p _ _ rfl
  | retire scope =>
    show Makes p _ (p.retire scope).2
    unfold retire
    split
    · exact .same _
    split
    · exact .same _
    · exact .retired (by omega) rfl
  | enqueue scope sequence name now => exact makes_enqueue p scope sequence name now
  | cancel scope sequence now => exact makes_cancel p scope sequence now
  | reportFeedback scope sequence report feedback now =>
    exact makes_reportFeedback p scope sequence report feedback now
  | complete scope sequence feedback now => exact makes_complete p scope sequence feedback now
  | abandon scope now =>
    show Makes p _ (p.abandon scope now).2
    unfold abandon
    split
    · exact .same _
    · exact .abandoned scope (tick_of_enter ‹_›)
  | withdraw scope sequence now =>
    show Makes p _ (p.withdraw scope sequence now).2
    unfold withdraw
    split
    · exact .same _
    rename_i q hq
    split
    · exact .ticked rfl (tick_of_enter hq)
    split
    · exact .withdrawn (tick_of_enter hq)
    · exact .ticked rfl (tick_of_enter hq)
  | next group now => exact makes_next p group now
  | status scope sequence now =>
    show Makes p _ (p.status scope sequence now).2
    unfold status
    split
    · exact .same _
    · split <;> exact .ticked rfl (tick_of_enter ‹_›)
  | held scope sequence now =>
    show Makes p _ (p.held scope sequence now).2
    unfold held
    split
    · exact .same _
    · split <;> exact .ticked rfl (tick_of_enter ‹_›)
  | snapshot group now =>
    show Makes p _ (p.snapshot group now).2
    unfold snapshot
    split
    · exact .same _
    · split <;> exact .ticked rfl ‹_›
  | nextWake now =>
    show Makes p _ (p.nextWake now).2
    unfold nextWake
    split
    · exact .same _
    · exact .ticked rfl ‹_›
  | ledger now =>
    show Makes p _ (p.ledger now).2
    unfold ledger
    split
    · exact .same _
    · exact .ticked rfl ‹_›
  | reset now =>
    rcases reset_cases p now with ⟨q, hq, _, hresult⟩ | ⟨_, hsame | hticked⟩
    · show Makes p _ (p.reset now).2
      rw [hresult]
      exact .relinquished hq (by rw [hresult])
    · show Makes p _ (p.reset now).2
      rw [hsame]
      exact .same _
    · exact .ticked rfl hticked

lemma quiets_retire {p q : AdmissionPolicy} {scope : ScopeId}
    (hidle : (p.requests.count fun id r => id.scope == scope && r.state.isActive) = 0)
    (hcancelled : (p.requests.keysWith fun id r => id.scope == scope && r.state.isQueued).foldl
      (fun p id => p.terminal id .cancelled none) p = q) :
    Quiets p (q.retired scope) := by
  subst hcancelled
  refine (quiets_foldl (fun p id => .single (.finish p id _ _)) _ p).tail (.retire _ scope ?_)
  intro id r hr hscope
  rcases foldl_terminal_lookup .cancelled _ p hr with hterm | ⟨hnot, hr⟩
  · exact hterm
  have hactive := OrdMap.count_eq_zero_iff.mp hidle id r hr
  have hqueued : ¬ (r.state.isQueued = true) := by
    intro hq
    exact hnot (OrdMap.mem_keysWith.mpr ⟨r, hr, by simp [hscope, hq]⟩)
  cases hs : r.state <;> simp_all [RequestState.isActive, RequestState.isQueued,
    RequestState.isTerminal]

lemma Makes.quiets {p p' : AdmissionPolicy} {op : Operation} (h : Makes p op p') (wf : p.Wf)
    (hquiet : op.isQuiet = true) : Quiets p p' := by
  cases h with
  | same => exact .refl
  | ticked _ observed => exact quiets_tick observed
  | registered _ root workload => exact .single (.register p root workload)
  | retired idle cancelled => exact quiets_retire idle cancelled
  | enqueued deadline observed named _ known fresh =>
    have wfq := (Quiets.wf_calm wf (quiets_tick observed)).1
    have hmem := (wfq.groups _).mpr (AdmissionConfig.mem_groups_of_alias wfq.valid named)
    exact (quiets_tick observed).tail (.enqueue _ deadline known fresh hmem)
  | barred gid _ _ observed => exact (quiets_tick observed).tail (quiet_markUnavailable _ gid)
  | dropped observed | withdrawn observed =>
    exact (quiets_tick observed).tail (.finish _ _ _ _)
  | required observed =>
    exact (quiets_tick observed).tail (quiet_withRequest _ _ fun r => r.marked_requireCancellation)
  | reported gid maximum observed =>
    exact ((quiets_tick observed).tail
      (quiet_withGroup _ _ fun g => (g.advised_reported _ _ _).quieter _)).tail
        (quiet_withRequest _ _ fun _ => ⟨rfl, .refl _⟩)
  | completed gid maximum receiptReported observed =>
    exact ((quiets_tick observed).tail
      (quiet_withGroup _ _ fun g => (g.advised_completed _ _ _ _).quieter _)).tail (.finish _ _ _ _)
  | abandoned scope observed =>
    have hpq := quiets_tick observed
    exact hpq.trans (quiets_abandon_foldl _ _ (_, _) (Quiets.wf_calm wf hpq).1
      ((OrdMap.toList_pairwise_lt _).filter _)
      fun e he _ => OrdMap.mem_toList_iff.mp (List.mem_of_mem_filter he))
  | granted _ _ | relinquished _ _ => cases hquiet

/-! ## What a step does -/

inductive StepCase (p : AdmissionPolicy) (op : Operation) : Prop
  | grants (gid : GroupId) (id : RequestId) (now : Nat) (q : AdmissionPolicy)
      (input : op = .next gid now) (observed : p.tick now = .ok q) (grants : q.Grants gid id now)
      (result : p.step op = (.granted (.ok (some id)), q.afterGrant gid id now))
  | resets (now : Nat) (q : AdmissionPolicy) (input : op = .reset now)
      (observed : p.tick now = .ok q) (fits : q.epoch + 1 ≤ u64Max)
      (result : p.step op = (.epoch (.ok (q.epoch + 1)), q.relinquish (q.epoch + 1)))
  | quiet (quiets : Quiets p (p.step op).2) (noGrant : grantOf op (p.step op).1 = none)
      (noReset : isReset op (p.step op).1 = false)

lemma step_cases {p : AdmissionPolicy} (wf : p.Wf) (op : Operation) : p.StepCase op := by
  cases op with
  | next group now =>
    rcases next_cases p group now with ⟨q, id, hq, hg, hresult⟩ | ⟨hnone, hquiet⟩
    · exact .grants group id now q rfl hq hg (by simp [step, hresult])
    refine .quiet hquiet ?_ rfl
    show grantOf (.next group now) (.granted (p.next group now).1) = none
    cases hr : (p.next group now).1 with
    | error e => rfl
    | ok answer =>
      cases answer with
      | none => rfl
      | some id => exact absurd hr (hnone id)
  | reset now =>
    rcases reset_cases p now with ⟨q, hq, hfits, hresult⟩ | ⟨hnone, hleaves⟩
    · exact .resets now q rfl hq hfits (by simp [step, hresult])
    refine .quiet ?_ rfl ?_
    · show Quiets p (p.reset now).2
      rcases hleaves with hsame | hticked
      · rw [hsame]
      · exact quiets_tick hticked
    show isReset (.reset now) (.epoch (p.reset now).1) = false
    cases hr : (p.reset now).1 with
    | error e => rfl
    | ok epoch => exact absurd hr (hnone epoch)
  | _ => exact .quiet ((step_makes p _).quiets wf rfl) rfl rfl

lemma grantOf_cases {p : AdmissionPolicy} (wf : p.Wf) (op : Operation) {grant : Grant}
    (h : grantOf op (p.step op).1 = some grant) :
    ∃ q, p.tick grant.time = .ok q ∧ q.Grants grant.group grant.id grant.time ∧
      (p.step op).2 = q.afterGrant grant.group grant.id grant.time := by
  cases step_cases wf op with
  | grants gid id now q input observed grants result =>
    rw [input] at h result
    rw [result] at h
    have hgrant := Option.some.inj h
    rw [← hgrant, input, result]
    exact ⟨q, observed, grants, rfl⟩
  | resets now q input _ _ result =>
    rw [input] at h
    simp [grantOf] at h
  | quiet _ noGrant _ =>
    rw [noGrant] at h
    simp at h

/-! ## Reachable policies are well-formed -/

lemma wf_of_tick {p q : AdmissionPolicy} (wf : p.Wf) {now : Nat} (h : p.tick now = .ok q) :
    q.Wf ∧ Calm p q :=
  Quiets.wf_calm wf (quiets_tick h)

/-- What every calm change, every grant and every reset keep, a step keeps. -/
lemma step_keeps {p : AdmissionPolicy} {I : AdmissionPolicy → Prop} (wf : p.Wf) (op : Operation)
    (calm : ∀ {q}, q.Wf → Calm p q → I q)
    (grant : ∀ {q gid id now}, q.Wf → I q → q.Grants gid id now → I (q.afterGrant gid id now))
    (reset : ∀ {q}, q.Wf → I q → I (q.relinquish (q.epoch + 1))) : I (p.step op).2 := by
  cases step_cases wf op with
  | grants gid id now q _ observed grants result =>
    rw [result]
    obtain ⟨wfq, hcalm⟩ := wf_of_tick wf observed
    exact grant wfq (calm wfq hcalm) grants
  | resets now q _ observed _ result =>
    rw [result]
    obtain ⟨wfq, hcalm⟩ := wf_of_tick wf observed
    exact reset wfq (calm wfq hcalm)
  | quiet quiets _ _ =>
    obtain ⟨wfq, hcalm⟩ := Quiets.wf_calm wf quiets
    exact calm wfq hcalm

lemma step_wf (op : Operation) (wf : p.Wf) : (p.step op).2.Wf :=
  step_keeps wf op (fun wfq _ => wfq) (fun wfq _ grants => grants.wf wfq)
    fun wfq _ => wfq.relinquish _

lemma Initial.wf {p : AdmissionPolicy} (h : p.Initial) : p.Wf := by
  rcases h with ⟨epoch, config, h⟩ | ⟨config, ledger, now, h⟩
  · exact wf_of_new h
  · exact (restored_of_restore h).wf

lemma Reachable.wf {p : AdmissionPolicy} (h : p.Reachable) : p.Wf := by
  obtain ⟨start, ops, hstart, rfl⟩ := h
  exact exec_invariant step_wf hstart.wf ops

end AdmissionPolicy

/-! ## A sample deployment -/

def okValue {ε α : Type} : (e : Except ε α) → e.isOk = true → α
  | .ok a, _ => a

lemma okValue_spec {ε α : Type} (e : Except ε α) (h : e.isOk = true) : e = .ok (okValue e h) := by
  cases e with
  | error e => simp [Except.isOk, Except.toBool] at h
  | ok a => rfl

def sampleGroup : GroupId := ⟨"provider"⟩

def sampleGroupPolicy : GroupPolicy :=
  { capacity := 1, reserve := 0, minIntervalMs := 1, queueCapacity := 8, queueTimeoutMs := 1000,
    attemptTimeoutMs := 1000, fallbackBaseMs := 10, maxCooldownMs := 100 }

def sampleConfig : AdmissionConfig :=
  { groups := (∅ : OrdMap GroupId GroupPolicy).insert sampleGroup sampleGroupPolicy
    aliases := (∅ : OrdMap String GroupId).insert "model" sampleGroup
    maxScopes := 8
    terminalCapacity := 4 }

def samplePolicy : AdmissionPolicy :=
  okValue (new 1 sampleConfig) (by decide +kernel)

lemma samplePolicy_new : new 1 sampleConfig = .ok samplePolicy := okValue_spec _ _

lemma samplePolicy_initial : samplePolicy.Initial := Or.inl ⟨1, sampleConfig, samplePolicy_new⟩

def sampleRun : List Operation :=
  [.registerRoot .interactive, .registerRoot .background,
    .enqueue ⟨1, 1⟩ 1 "model" 5, .enqueue ⟨1, 2⟩ 1 "model" 5, .next sampleGroup 6]

lemma samplePolicy_reaches (ops : List Operation) : (exec step samplePolicy ops).Reachable :=
  ⟨samplePolicy, ops, samplePolicy_initial, rfl⟩

end Quecto.Admission
