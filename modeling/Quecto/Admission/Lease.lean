/-
  Admission/Lease.lean --- the attempts a policy holds and its ledger names, and how long
  each holds its group.
-/
import Quecto.Admission.Polling
import Quecto.Admission.Occupancy

namespace Quecto.Admission

open Foundation List OrdMap Request

/-- What a ledger calls an attempt. -/
structure AttemptName where
  group : GroupId
  scope : Nat
  sequence : Nat
  deriving DecidableEq, Inhabited

def OutstandingAttempt.name (o : OutstandingAttempt) : AttemptName :=
  { group := o.group, scope := o.scope, sequence := o.sequence }

def AdmissionLedger.attempts (l : AdmissionLedger) : List AttemptName :=
  l.outstanding.map OutstandingAttempt.name

def RequestId.attemptIn (id : RequestId) (gid : GroupId) : AttemptName :=
  { group := gid, scope := id.scope.serial, sequence := id.sequence }

def Request.attempt (id : RequestId) (r : Request) : List AttemptName :=
  if r.state.isActive then [id.attemptIn r.group] else []

lemma Request.attempt_ne_nil {id : RequestId} {r : Request} :
    attempt id r ≠ [] ↔ r.state.isActive = true := by
  unfold attempt
  split <;> simp_all

def Group.orphaned (g : Group) : List AttemptName := g.orphans.map (·.attempt.name)

namespace AdmissionPolicy

/-- The attempts under way. -/
def activeAttempts (p : AdmissionPolicy) : List AttemptName :=
  p.requests.collect attempt

def orphanedAttempts (p : AdmissionPolicy) : List AttemptName :=
  p.groups.collect fun _ => Group.orphaned

def attempts (p : AdmissionPolicy) : List AttemptName :=
  p.activeAttempts ++ p.orphanedAttempts

lemma accounts_attempts (p : AdmissionPolicy) (now : Nat) :
    (p.accounts now).attempts = p.attempts := by
  have hactive : ∀ (id : RequestId) (r : Request),
      (p.outstandingOf now id r).toList.map OutstandingAttempt.name = attempt id r := by
    intro id r
    unfold outstandingOf attempt
    cases r.state <;> rfl
  unfold AdmissionLedger.attempts accounts attempts activeAttempts orphanedAttempts collect
  rw [map_append, filterMap_eq_flatMap_toList, map_flatMap, map_flatMap]
  congr 1
  · simp only [hactive]
  · simp only [map_map]
    rfl

variable {p p' : AdmissionPolicy} {config : AdmissionConfig} {ledger : AdmissionLedger}
  {now : Nat}

lemma mem_activeAttempts {name : AttemptName} :
    name ∈ p.activeAttempts ↔ ∃ gid id, p.ActiveIn gid id ∧ name = id.attemptIn gid := by
  unfold activeAttempts ActiveIn
  rw [mem_collect]
  constructor
  · rintro ⟨id, r, hr, hname⟩
    unfold attempt at hname
    split at hname
    · rename_i hactive
      exact ⟨r.group, id, ⟨r, hr, rfl, hactive⟩, by simpa using hname⟩
    · simp at hname
  · rintro ⟨gid, id, ⟨r, hr, rfl, hactive⟩, rfl⟩
    refine ⟨id, r, hr, ?_⟩
    unfold attempt
    rw [if_pos hactive]
    exact mem_singleton.mpr rfl

/-! ## Attempts only leave -/

/-- No group gets an orphan. -/
def OrphansLeave (p p' : AdmissionPolicy) : Prop :=
  ∀ (gid : GroupId) (g' : Group), p'.groups[gid]? = some g' →
    ∃ g, p.groups[gid]? = some g ∧ g'.orphans.Sublist g.orphans

lemma OrphansLeave.trans {q r : AdmissionPolicy} (h : OrphansLeave p q) (h' : OrphansLeave q r) :
    OrphansLeave p r := by
  intro gid g'' hg''
  obtain ⟨g', hg', hsub'⟩ := h' gid g'' hg''
  obtain ⟨g, hg, hsub⟩ := h gid g' hg'
  exact ⟨g, hg, hsub'.trans hsub⟩

lemma Calm.orphansLeave (h : Calm p p') : OrphansLeave p p' := by
  intro gid g' hg'
  obtain ⟨g, hg, hquieter⟩ := exists_of_rel_right (h.groups gid) hg'
  exact ⟨g, hg, hquieter.orphans⟩

lemma orphansLeave_afterGrant (q : AdmissionPolicy) (gid : GroupId) (id : RequestId)
    (now : Nat) : OrphansLeave q (q.afterGrant gid id now) := by
  intro a g' hg'
  obtain ⟨g, hg, _, horphans, _⟩ := afterGrant_group_kept q gid id now hg'
  exact ⟨g, hg, by rw [horphans]⟩

lemma attempts_sublist
    (hactive : ∀ (gid : GroupId) (id : RequestId), p'.ActiveIn gid id → p.ActiveIn gid id)
    (horphans : OrphansLeave p p') : p'.attempts.Sublist p.attempts := by
  apply List.Sublist.append
  · apply collect_sublist
    intro id r' hr' hne
    have hactive' := attempt_ne_nil.mp hne
    obtain ⟨r, hr, hgroup, hr_active⟩ := hactive r'.group id ⟨r', hr', rfl, hactive'⟩
    refine ⟨r, hr, ?_⟩
    unfold attempt
    rw [if_pos hactive', if_pos hr_active, hgroup]
  · apply collect_sublist
    intro gid g' hg' _
    obtain ⟨g, hg, hsub⟩ := horphans gid g' hg'
    exact ⟨g, hg, hsub.map _⟩

lemma relinquish_orphans {epoch : Nat} {gid : GroupId} {g : Group}
    (h : (p.relinquish epoch).groups[gid]? = some g) : g.orphans = [] := by
  rw [relinquish_lookup] at h
  obtain ⟨g₀, _, rfl⟩ := Option.map_eq_some_iff.mp h
  rfl

lemma relinquish_attempts (p : AdmissionPolicy) (epoch : Nat) :
    (p.relinquish epoch).attempts = [] := by
  apply eq_nil_iff_forall_not_mem.mpr
  intro name hname
  rcases mem_append.mp hname with hname | hname
  · obtain ⟨id, r, hr, _⟩ := mem_collect.mp hname
    simp [AdmissionPolicy.relinquish] at hr
  · obtain ⟨gid, g, hg, hname⟩ := mem_collect.mp hname
    simp [Group.orphaned, relinquish_orphans hg] at hname

/-! ## Restarts -/

lemma Restored.orphaned_perm (h : p.Restored config ledger now) :
    p.orphanedAttempts.Perm ledger.attempts := by
  have hgroups : p.orphanedAttempts = p.groups.collect fun gid _ =>
      ledger.attempts.filter fun name => name.group == gid := by
    apply collect_congr
    intro gid g hg
    rw [Group.orphaned, h.orphans gid g hg, orphansIn, AdmissionLedger.attempts, filter_map,
      map_map]
    rfl
  rw [hgroups]
  apply collect_partition
  intro name hname
  obtain ⟨o, ho, rfl⟩ := mem_map.mp hname
  rw [h.wf.groups, h.configured]
  exact h.held o ho

lemma Restored.attempts_perm (h : p.Restored config ledger now) :
    p.attempts.Perm ledger.attempts := by
  have hactive : p.activeAttempts = [] := by
    apply eq_nil_iff_forall_not_mem.mpr
    intro name hname
    obtain ⟨id, r, hr, _⟩ := mem_collect.mp hname
    rw [h.requests] at hr
    simp at hr
  rw [attempts, hactive]
  exact h.orphaned_perm

end AdmissionPolicy

/-! ## What lasts -/

/-- An orphan leaves its group only once its lease is over, and a lease that became uncertain
did so by `now`. -/
structure Group.Lasts (now : Nat) (g g' : Group) : Prop where
  orphans : ∀ o ∈ g.orphans, now < o.releaseAt → o ∈ g'.orphans
  uncertain : ∀ (id : RequestId) (since : Nat), g'.uncertain[id]? = some since →
    g.uncertain[id]? = some since ∨ since ≤ now

namespace Group.Lasts

variable {now : Nat} {g g' g'' : Group}

lemma of_eq (horphans : g'.orphans = g.orphans) (huncertain : g'.uncertain = g.uncertain) :
    Group.Lasts now g g' where
  orphans := by
    intro o ho _
    rw [horphans]
    exact ho
  uncertain := by
    intro id since hs
    rw [huncertain] at hs
    exact .inl hs

lemma trans {later : Nat} (hle : now ≤ later) (h : Group.Lasts now g g')
    (h' : Group.Lasts later g' g'') : Group.Lasts later g g'' where
  orphans := by
    intro o ho hahead
    exact h'.orphans o (h.orphans o ho (Nat.lt_of_le_of_lt hle hahead)) hahead
  uncertain := by
    intro id since hs
    obtain hs | hlost := h'.uncertain id since hs
    · obtain hs | hlost := h.uncertain id since hs
      · exact .inl hs
      · exact .inr (Nat.le_trans hlost hle)
    · exact .inr hlost

end Group.Lasts

namespace AdmissionPolicy

structure Lasts (p p' : AdmissionPolicy) : Prop where
  now : p.now ≤ p'.now
  groups : ∀ gid : GroupId, Option.Rel (Group.Lasts p'.now) p.groups[gid]? p'.groups[gid]?

namespace Lasts

variable {p p' p'' : AdmissionPolicy}

lemma of_groups (hnow : p.now ≤ p'.now) (hgroups : p'.groups = p.groups) : Lasts p p' where
  now := hnow
  groups := by
    intro gid
    rw [hgroups]
    exact rel_refl (fun _ => .of_eq rfl rfl) _

lemma refl (p : AdmissionPolicy) : Lasts p p := of_groups (Nat.le_refl _) rfl

lemma trans (h : Lasts p p') (h' : Lasts p' p'') : Lasts p p'' where
  now := Nat.le_trans h.now h'.now
  groups gid := rel_trans (h.groups gid) (h'.groups gid)
    fun _ _ _ hlasts hlasts' => hlasts.trans h'.now hlasts'

lemma withGroup (p : AdmissionPolicy) (gid : GroupId) {f : Group → Group}
    (hf : ∀ g, Group.Lasts p.now g (f g)) : Lasts p (p.withGroup gid f) where
  now := Nat.le_refl _
  groups _ := rel_modify (fun _ => .of_eq rfl rfl) p.groups fun _ => hf

lemma terminal (p : AdmissionPolicy) (id : RequestId) (outcome : TerminalOutcome)
    (feedback : Option Feedback) : Lasts p (p.terminal id outcome feedback) := by
  cases hr : p.requests[id]? with
  | none =>
    rw [terminal_of_absent hr]
    exact .refl p
  | some r =>
    have hleft := withGroup p r.group (f := fun g => { g with uncertain := g.uncertain.erase id })
      fun g => by
        refine ⟨fun o ho _ => ho, ?_⟩
        exact fun a since hs => .inl (of_erase hs).2
    refine hleft.trans (of_groups (Nat.le_of_eq ?_) ?_)
    · rw [terminal_now]
      rfl
    · rw [terminal_groups hr]
      rfl

lemma tick {now : Nat} (wf : p.Wf) (h : p.tick now = .ok p') : Lasts p p' := by
  have hobserved := observed_tick wf h
  constructor
  · rw [hobserved.clock]
    exact (tick_ok_iff.mp h).1
  intro gid
  rw [hobserved.groups gid, hobserved.clock]
  cases p.groups[gid]? with
  | none => exact .none
  | some g =>
    refine .some ⟨?_, ?_⟩
    · intro o ho hahead
      exact mem_filter.mpr ⟨ho, decide_eq_true hahead⟩
    intro id since hs
    unfold AdmissionPolicy.observedGroup at hs
    rw [getElem?_filter_eq, Option.filter_eq_some_iff] at hs
    exact .inl hs.1

lemma afterGrant (q : AdmissionPolicy) (gid : GroupId) (id : RequestId) (now : Nat) :
    Lasts q (q.afterGrant gid id now) where
  now := Nat.le_refl _
  groups := by
    intro a
    rw [afterGrant_groups]
    cases q.groups[a]? with
    | none => split <;> exact .none
    | some g =>
      split
      · exact .some (.of_eq (Group.granted_orphans _ _ _ _ _ _ _)
          (Group.granted_uncertain _ _ _ _ _ _ _))
      · exact .some (.of_eq rfl rfl)

lemma foldl {α : Type} {f : AdmissionPolicy → α → AdmissionPolicy}
    (hf : ∀ p a, Lasts p (f p a)) (l : List α) (p : AdmissionPolicy) : Lasts p (l.foldl f p) := by
  induction l generalizing p with
  | nil => exact .refl p
  | cons a l ih => exact (hf p a).trans (ih (f p a))

end Lasts

/-! ## Every operation but a reset -/

variable {p q : AdmissionPolicy} {gid : GroupId} {start now : Nat}

lemma lasts_abandonOne (acc : AbandonReport × AdmissionPolicy) (e : RequestId × Request)
    (hnow : now ≤ acc.2.now) : Lasts acc.2 (abandonOne now acc e).2 := by
  unfold abandonOne
  split
  · exact .terminal acc.2 _ _ _
  · refine .withGroup acc.2 _ fun g => ⟨fun o ho _ => ho, ?_⟩
    intro id since hs
    rw [getElem?_insertIfNew_eq] at hs
    split at hs
    · cases hg : g.uncertain[id]? with
      | none =>
        rw [hg] at hs
        exact .inr (Option.some.inj hs ▸ hnow)
      | some held =>
        rw [hg] at hs
        exact .inl hs
    · exact .inl hs
  · exact .refl acc.2

lemma lasts_abandon (l : List (RequestId × Request)) (acc : AbandonReport × AdmissionPolicy)
    (hnow : now ≤ acc.2.now) : Lasts acc.2 (l.foldl (abandonOne now) acc).2 := by
  induction l generalizing acc with
  | nil => exact .refl acc.2
  | cons e l ih =>
    have hone := lasts_abandonOne acc e hnow
    exact hone.trans (ih _ (Nat.le_trans hnow hone.now))

/-- Every operation but a reset lets leases last. -/
lemma step_lasts (wf : p.Wf) {op : Operation} (h : isReset op (p.step op).1 = false) :
    Lasts p (p.step op).2 := by
  have hmakes := step_makes p op
  generalize hstep : (p.step op).2 = p' at hmakes ⊢
  cases hmakes with
  | same => exact .refl p
  | ticked _ observed => exact .tick wf observed
  | registered => exact .of_groups (Nat.le_refl _) rfl
  | retired _ cancelled =>
    subst cancelled
    exact (Lasts.foldl (fun q id => .terminal q id .cancelled none) _ p).trans
      (.of_groups (Nat.le_refl _) rfl)
  | enqueued _ observed | required observed =>
    exact (Lasts.tick wf observed).trans (.of_groups (Nat.le_refl _) rfl)
  | barred gid _ _ observed =>
    exact (Lasts.tick wf observed).trans (.withGroup _ gid fun _ => .of_eq rfl rfl)
  | dropped observed | withdrawn observed =>
    exact (Lasts.tick wf observed).trans (.terminal _ _ _ _)
  | reported gid maximum observed =>
    refine (Lasts.tick wf observed).trans (.trans (.withGroup _ gid fun g => ?_)
      (.of_groups (Nat.le_refl _) rfl))
    exact .of_eq (g.advised_reported _ _ _).kept.1 (g.advised_reported _ _ _).kept.2
  | completed gid maximum receiptReported observed =>
    refine (Lasts.tick wf observed).trans
      (.trans (.withGroup _ gid fun g => ?_) (.terminal _ _ _ _))
    exact .of_eq (g.advised_completed _ _ _ _).kept.1 (g.advised_completed _ _ _ _).kept.2
  | abandoned scope observed =>
    exact (Lasts.tick wf observed).trans
      (lasts_abandon _ (_, _) (Nat.le_of_eq (observed_tick wf observed).clock.symm))
  | granted observed grants => exact (Lasts.tick wf observed).trans (.afterGrant _ _ _ _)
  | relinquished observed answer =>
    simp [step, isReset, answer] at h

lemma exec_lasts (wf : p.Wf) (ops : List Operation)
    (h : ∀ m ∈ moments step p ops, isReset m.input m.output = false) :
    Lasts p (exec step p ops) := by
  induction ops generalizing p with
  | nil => exact .refl p
  | cons op ops ih =>
    have hstep := step_lasts wf (h _ mem_cons_self)
    exact hstep.trans (ih (step_wf p op wf) fun m hm => h m (mem_cons_of_mem _ hm))

/-! ## The leases of a run -/

/-- The leases of a policy whose run began at `start`: a deadline is the attempt timeout
after the grant, and an orphan stands with its group and was lost by the time the run
began. -/
structure Leased (start : Nat) (p : AdmissionPolicy) : Prop where
  started : start ≤ p.now
  granted : ∀ (id : RequestId) (r : Request) (granted deadline : Nat) (required : Bool),
    p.requests[id]? = some r → r.state = .active granted deadline required →
      granted ≤ p.now ∧ deadline = granted + (p.policyAt r.group).attemptTimeoutMs
  lost : ∀ (gid : GroupId) (g : Group) (id : RequestId) (since : Nat),
    p.groups[gid]? = some g → g.uncertain[id]? = some since → since ≤ p.now
  orphans : ∀ (gid : GroupId) (g : Group), p.groups[gid]? = some g → ∀ o ∈ g.orphans,
    o.attempt.group = gid ∧
      o.releaseAt ≤ start + (p.policyAt gid).attemptTimeoutMs + uncertainLeaseMarginMs

lemma Wf.certain_of_empty (wf : p.Wf) (hempty : p.requests = ∅) {g : Group}
    (hg : p.groups[gid]? = some g) (id : RequestId) : g.uncertain[id]? = none := by
  cases hs : g.uncertain[id]? with
  | none => rfl
  | some since =>
    obtain ⟨r, hr, -⟩ := wf.uncertain gid g id since hg hs
    rw [hempty] at hr
    simp at hr

lemma orphanOf_releaseAt_le (policy : GroupPolicy) (now : Nat) (attempt : OutstandingAttempt) :
    (orphanOf policy now attempt).releaseAt ≤
      now + policy.attemptTimeoutMs + uncertainLeaseMarginMs := by
  obtain ⟨bound, hbound⟩ : ∃ bound,
      bound = saturatingAdd policy.attemptTimeoutMs uncertainLeaseMarginMs := ⟨_, rfl⟩
  have hle : bound ≤ policy.attemptTimeoutMs + uncertainLeaseMarginMs :=
    hbound ▸ Nat.min_le_left _ _
  have hremaining : (attempt.releaseRemainingMs.elim bound fun r => min r bound) ≤ bound := by
    cases attempt.releaseRemainingMs with
    | none => exact Nat.le_refl bound
    | some remaining => exact Nat.min_le_right remaining bound
  calc (orphanOf policy now attempt).releaseAt
      = saturatingAdd now (attempt.releaseRemainingMs.elim bound fun r => min r bound) := by
        rw [hbound, orphanOf]
    _ ≤ now + (attempt.releaseRemainingMs.elim bound fun r => min r bound) := Nat.min_le_left _ _
    _ ≤ now + (policy.attemptTimeoutMs + uncertainLeaseMarginMs) :=
        Nat.add_le_add_left (Nat.le_trans hremaining hle) now
    _ = now + policy.attemptTimeoutMs + uncertainLeaseMarginMs := (Nat.add_assoc _ _ _).symm

lemma Initial.leased (h : p.Initial) : p.Leased p.now where
  started := Nat.le_refl _
  granted := by
    intro id r granted deadline required hr
    rw [h.requests] at hr
    simp at hr
  lost := by
    intro gid g id since hg hs
    rw [h.wf.certain_of_empty h.requests hg id] at hs
    cases hs
  orphans := by
    intro gid g hg o ho
    obtain ⟨epoch, config, hnew⟩ | ⟨config, ledger, now, hrestore⟩ := h
    · rw [((fresh_of_new hnew).groups gid g hg).orphans] at ho
      cases ho
    have hrestored := restored_of_restore hrestore
    rw [hrestored.orphans gid g hg] at ho
    obtain ⟨attempt, hattempt, rfl⟩ := mem_map.mp ho
    rw [hrestored.clock, policyAt, hrestored.configured]
    exact ⟨beq_iff_eq.mp (mem_filter.mp hattempt).2, orphanOf_releaseAt_le _ now attempt⟩

lemma Leased.of_calm {p' : AdmissionPolicy} (h : p.Leased start) (hcalm : Calm p p')
    (hlasts : Lasts p p') : p'.Leased start where
  started := Nat.le_trans h.started hcalm.now
  granted := by
    intro id r' granted deadline required hr' hstate
    have hactive : r'.state.isActive = true := by
      rw [hstate]
      rfl
    obtain ⟨r, hr, hmarked⟩ := hcalm.active id r' hr' hactive
    obtain ⟨required₀, hstate₀⟩ : ∃ required₀, r.state = .active granted deadline required₀ := by
      have hsame := hmarked.state
      rw [hstate] at hsame
      generalize r.state = s at hsame
      cases hsame with
      | active _ _ _ => exact ⟨_, rfl⟩
    obtain ⟨hgranted, hdeadline⟩ := h.granted id r granted deadline required₀ hr hstate₀
    refine ⟨Nat.le_trans hgranted hcalm.now, ?_⟩
    rw [hdeadline, hmarked.group, policyAt, policyAt, hcalm.config]
  lost := by
    intro gid g' id since hg' hs
    obtain ⟨g, hg, hgroup⟩ := exists_of_rel_right (hlasts.groups gid) hg'
    obtain hs | hlost := hgroup.uncertain id since hs
    · exact Nat.le_trans (h.lost gid g id since hg hs) hcalm.now
    · exact hlost
  orphans := by
    intro gid g' hg' o ho
    obtain ⟨g, hg, hsub⟩ := hcalm.orphansLeave gid g' hg'
    rw [policyAt, hcalm.config]
    exact h.orphans gid g hg o (hsub.subset ho)

lemma Leased.tick (h : p.Leased start) (wf : p.Wf) (htick : p.tick now = .ok q) : q.Leased start :=
  h.of_calm (wf_of_tick wf htick).2 (.tick wf htick)

lemma Leased.afterGrant (h : q.Leased start) (hclock : q.now = now) {id : RequestId}
    (hgrants : q.Grants gid id now) : (q.afterGrant gid id now).Leased start where
  started := h.started
  granted := by
    intro a r' granted deadline required hr' hstate
    obtain ⟨rfl, hgroup, hactive⟩ | ⟨-, hr⟩ := afterGrant_lookup hgrants hr'
    · rw [hstate] at hactive
      obtain ⟨rfl, rfl, -⟩ := RequestState.active.inj hactive
      refine ⟨Nat.le_of_eq hclock.symm, ?_⟩
      rw [hgroup]
      rfl
    · exact h.granted a r' granted deadline required hr hstate
  lost := by
    intro a g' b since hg' hs
    obtain ⟨g, hg, huncertain, -⟩ := afterGrant_group_kept q gid id now hg'
    rw [huncertain] at hs
    exact h.lost a g b since hg hs
  orphans := by
    intro a g' hg' o ho
    obtain ⟨g, hg, -, horphans, -⟩ := afterGrant_group_kept q gid id now hg'
    rw [horphans] at ho
    exact h.orphans a g hg o ho

lemma Leased.relinquish (h : q.Leased start) (epoch : Nat) : (q.relinquish epoch).Leased start where
  started := h.started
  granted := by
    intro id r granted deadline required hr
    simp [AdmissionPolicy.relinquish] at hr
  lost := by
    intro gid g id since hg hs
    rw [relinquish_lookup] at hg
    obtain ⟨g₀, -, rfl⟩ := Option.map_eq_some_iff.mp hg
    simp [Group.relinquished] at hs
  orphans := by
    intro gid g hg o ho
    rw [relinquish_orphans hg] at ho
    cases ho

lemma step_leased (p : AdmissionPolicy) (op : Operation) (wf : p.Wf) (h : p.Leased start) :
    (p.step op).2.Leased start := by
  cases step_cases wf op with
  | grants gid id now q _ observed grants result =>
    rw [result]
    exact (h.tick wf observed).afterGrant (observed_tick wf observed).clock grants
  | resets now q _ observed _ result =>
    rw [result]
    exact (h.tick wf observed).relinquish _
  | quiet quiets _ noReset =>
    exact h.of_calm (Quiets.wf_calm wf quiets).2 (step_lasts wf noReset)

lemma exec_leased (h : p.Initial) (ops : List Operation) : (exec step p ops).Leased p.now :=
  exec_keeps step_wf step_leased h.wf h.leased ops

lemma Reachable.attempts_known (h : p.Reachable) :
    ∀ name ∈ p.attempts, name.group ∈ p.config.groups := by
  have wf := h.wf
  obtain ⟨start, ops, hstart, rfl⟩ := h
  have hleased := exec_leased hstart ops
  intro name hname
  rw [← wf.groups]
  rcases mem_append.mp hname with hname | hname
  · obtain ⟨gid, id, ⟨r, hr, rfl, _⟩, rfl⟩ := mem_activeAttempts.mp hname
    exact wf.grouped id r hr
  obtain ⟨gid, g, hg, hname⟩ := mem_collect.mp hname
  obtain ⟨o, ho, rfl⟩ := mem_map.mp hname
  show o.attempt.group ∈ _
  rw [(hleased.orphans gid g hg o ho).1]
  exact mem_iff.mpr ⟨g, hg⟩

/-- A client that is lost blocks its group for a bounded time: a whole attempt timeout and
the margin after any state a run reaches, the group holds nothing uncertain. -/
theorem quarantine_ends (hp : p.Reachable) {gid : GroupId} {now : Nat}
    (hlate : p.now + (p.policyAt gid).attemptTimeoutMs + uncertainLeaseMarginMs ≤ now) :
    ∃ q, p.tick now = .ok q ∧ (q.groupAt gid).uncertain = ∅ ∧ (q.groupAt gid).orphans = [] := by
  have wf := hp.wf
  obtain ⟨start, ops, hstart, rfl⟩ := hp
  have hleased := exec_leased hstart ops
  have hstarted := hleased.started
  generalize exec step start ops = p at *
  refine ⟨p.advance now, tick_ok_iff.mpr ⟨by omega, rfl⟩, ?_⟩
  rw [groupAt, (observed_advance wf now).groups gid]
  cases hg : p.groups[gid]? with
  | none => exact ⟨rfl, rfl⟩
  | some g =>
    refine ⟨Std.ExtTreeMap.ext_getElem? fun id => ?_, filter_eq_nil_iff.mpr fun o ho => ?_⟩
    · simp only [Option.map_some, Option.getD_some, observedGroup, getElem?_filter_eq]
      cases hs : g.uncertain[id]? with
      | none => simp
      | some since =>
        -- The attempt was granted and its owner lost by the time of `p`.
        obtain ⟨r, hr, rfl, hactive⟩ := wf.uncertain gid g id since hg hs
        obtain ⟨granted, deadline, _, hstate⟩ := RequestState.exists_of_isActive hactive
        obtain ⟨_, rfl⟩ := hleased.granted id r granted deadline _ hr hstate
        have := hleased.lost _ g id since hg hs
        have helapsed : p.leaseElapsed now id since = true := by
          rw [leaseElapsed, leaseEnd_of_active hr hstate, Option.any_some, decide_eq_true_iff,
            leaseRelease, saturatingAdd]
          omega
        simp [helapsed]
    · obtain ⟨-, hbound⟩ := hleased.orphans gid g hg o ho
      simp only [decide_eq_true_iff]
      omega

/-- The client of the sample's only slot vanishes at 7. -/
theorem quarantine_ends_sample :
    let lost := exec step samplePolicy (sampleRun ++ [.abandon ⟨1, 1⟩ 7])
    (lost.groupAt sampleGroup).uncertain.isEmpty = false ∧
      ∃ q, lost.tick 61007 = .ok q ∧ (q.groupAt sampleGroup).uncertain = ∅ ∧
        (q.groupAt sampleGroup).orphans = [] :=
  ⟨by decide +kernel, quarantine_ends (samplePolicy_reaches _) (by decide +kernel)⟩

/-! ## Inherited attempts -/

/-- A group that holds orphans has no attempt under way. -/
def Apart (p : AdmissionPolicy) : Prop :=
  ∀ (gid : GroupId) (g : Group), p.groups[gid]? = some g → g.orphans ≠ [] →
    ∀ workload, p.classActive gid workload = 0

lemma step_apart (p : AdmissionPolicy) (op : Operation) (wf : p.Wf) (hp : p.Apart) :
    (p.step op).2.Apart := by
  refine step_keeps wf op ?_ ?_ fun _ _ gid g hg ho => absurd (relinquish_orphans hg) ho
  · intro q _ hcalm gid g' hg' ho workload
    obtain ⟨g, hg, hsub⟩ := hcalm.orphansLeave gid g' hg'
    have hnone := hp gid g hg (fun h => ho (sublist_nil.mp (h ▸ hsub))) workload
    exact Nat.le_zero.mp (hnone ▸ hcalm.classActive_le wf gid workload)
  · intro q gid id now _ hq grants gid' g' hg' ho workload
    obtain ⟨g, hg, hsub⟩ := orphansLeave_afterGrant q gid id now gid' g' hg'
    have hheld : g.orphans ≠ [] := fun h => ho (sublist_nil.mp (h ▸ hsub))
    have hother : gid' ≠ gid := by
      rintro rfl
      exact hheld (groupAt_of_some hg ▸ grants.unorphaned)
    simpa [hother, hq gid' g hg hheld workload] using grants.classActive_le gid' workload

lemma Reachable.apart (hp : p.Reachable) : p.Apart := by
  obtain ⟨start, ops, hstart, rfl⟩ := hp
  refine exec_keeps step_wf step_apart hstart.wf (fun gid _ _ _ workload => ?_) ops
  rw [classActive, hstart.requests]
  rfl

end AdmissionPolicy

end Quecto.Admission
