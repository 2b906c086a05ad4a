/-
  Admission/Fairness.lean --- roots, scopes and requests take turns, and background work
  is served.
-/
import Quecto.Admission.Occupancy

namespace Quecto.Admission

open Foundation List

variable {p' : AdmissionPolicy}

namespace AdmissionPolicy

/-! ## Who is served -/

def rootKey (workload : WorkloadClass) (p : AdmissionPolicy) (id : RequestId) : Option ScopeId :=
  if p.classAt id.scope = workload then some (p.rootAt id.scope) else none

def scopeKey (workload : WorkloadClass) (root : ScopeId) (p : AdmissionPolicy)
    (id : RequestId) : Option ScopeId :=
  if p.classAt id.scope = workload ∧ p.rootAt id.scope = root then some id.scope else none

/-- Whom an operation serves in the group, as `key` names requests. -/
def served (gid : GroupId) (key : AdmissionPolicy → RequestId → Option ScopeId)
    (p : AdmissionPolicy) (op : Operation) : Option ScopeId :=
  match grantOf op (p.step op).1 with
  | none => none
  | some grant => if grant.group = gid then key (p.step op).2 grant.id else none

/-- The policy a `next` decides in: the clock is observed first. -/
def decidedIn (p : AdmissionPolicy) : Operation → AdmissionPolicy
  | .next _ now => p.observe now
  | _ => p

/-! ## Lines -/

/-- A line of a group: a cursor, those who wait and whom a request stands for, such that
every grant of the group serves the line in turn. -/
structure Line (gid : GroupId) where
  cursor : Group → Option ScopeId
  waiting : AdmissionPolicy → Set ScopeId
  key : AdmissionPolicy → RequestId → Option ScopeId
  still : ∀ {g g' : Group}, g'.lastRoot = g.lastRoot → g'.lastAgent = g.lastAgent →
    cursor g' = cursor g
  scopes : ∀ {p p' : AdmissionPolicy}, p'.scopes = p.scopes → key p' = key p
  moves : ∀ {q : AdmissionPolicy} {id : RequestId} {now : Nat}, q.Grants gid id now →
    cursor ((q.afterGrant gid id now).groupAt gid) = (key q id).or (cursor (q.groupAt gid))
  inTurn : ∀ {q : AdmissionPolicy} {id : RequestId} {now : Nat} {x : ScopeId},
    q.Grants gid id now → key q id = some x → IsNext (waiting q) (cursor (q.groupAt gid)) x
  granted : ∀ {q : AdmissionPolicy} {gid' : GroupId} {id : RequestId} {now : Nat},
    q.Grants gid' id now → waiting (q.afterGrant gid' id now) ⊆ waiting q
  relinquished : ∀ (q : AdmissionPolicy) (epoch : Nat), waiting (q.relinquish epoch) = ∅

variable {q p : AdmissionPolicy} {gid gid' : GroupId} {id a : RequestId} {now n : Nat}
  {workload : WorkloadClass} {scope : ScopeId}

lemma waits_of_afterGrant (h : q.Grants gid id now)
    (hw : (q.afterGrant gid id now).Waits gid' workload a) : q.Waits gid' workload a := by
  obtain ⟨r', hr', hwaiting⟩ := hw
  obtain ⟨hgroup, hclass, hqueued⟩ := isWaiting_iff.mp hwaiting
  exact ⟨r', (afterGrant_queued h hr' hqueued).2, isWaiting_iff.mpr ⟨hgroup, hclass, hqueued⟩⟩

lemma not_waits_relinquish {epoch : Nat} : ¬ (q.relinquish epoch).Waits gid workload a := by
  rintro ⟨r, hr, _⟩
  simp [relinquish] at hr

/-- The roots that wait in a class. -/
def rootLine (gid : GroupId) (workload : WorkloadClass) : Line gid where
  cursor := fun g => g.lastRoot workload
  waiting := fun p => p.waitingRoots gid workload
  key := rootKey workload
  still := fun hroot _ => congrFun hroot workload
  scopes := fun h => by
    funext id
    rw [rootKey, rootKey, classAt_congr h, rootAt_congr h]
  moves := fun {q id now} h => by
    rw [h.groupAt, Group.granted_lastRoot]
    unfold rootKey
    by_cases hclass : q.classAt id.scope = workload
    · subst hclass
      simp
    · rw [if_neg hclass, Option.none_or, Function.update_of_ne (Ne.symm hclass)]
  inTurn := fun {q id now x} h hkey => by
    unfold rootKey at hkey
    split at hkey
    · rename_i hclass
      subst hclass
      rw [← Option.some.inj hkey]
      exact h.chosen.root
    · simp at hkey
  granted := fun {q gid' id now} h root => by
    rintro ⟨a, hw, hroot⟩
    exact ⟨a, waits_of_afterGrant h hw, hroot⟩
  relinquished := fun q epoch => by
    refine Set.eq_empty_iff_forall_notMem.mpr fun root => ?_
    rintro ⟨a, hw, _⟩
    exact not_waits_relinquish hw

/-- The scopes of one root that wait in a class. -/
def scopeLine (gid : GroupId) (workload : WorkloadClass) (root : ScopeId) : Line gid where
  cursor := fun g => g.lastAgentOf workload root
  waiting := fun p => p.waitingScopes gid workload root
  key := scopeKey workload root
  still := fun _ hagent => by simp only [Group.lastAgentOf, hagent]
  scopes := fun h => by
    funext id
    rw [scopeKey, scopeKey, classAt_congr h, rootAt_congr h]
  moves := fun {q id now} h => by
    rw [h.groupAt, Group.lastAgentOf, Group.granted_lastAgent, OrdMap.getElem?_insert_eq]
    unfold scopeKey
    by_cases hkey : q.classAt id.scope = workload ∧ q.rootAt id.scope = root
    · rw [if_pos hkey, hkey.1, hkey.2, if_pos rfl]
      rfl
    rw [if_neg hkey, if_neg ?_]
    · rfl
    intro heq
    refine hkey ?_
    have heq := toLex.injective heq
    rw [Prod.mk.injEq] at heq
    refine ⟨?_, heq.2⟩
    have hindex := heq.1
    cases hc : q.classAt id.scope <;> cases workload <;> simp_all [classIndex]
  inTurn := fun {q id now x} h hkey => by
    unfold scopeKey at hkey
    split at hkey
    · rename_i hboth
      obtain ⟨hclass, hroot⟩ := hboth
      subst hclass
      subst hroot
      rw [← Option.some.inj hkey]
      exact h.chosen.scope
    · simp at hkey
  granted := fun {q gid' id now} h scope => by
    rintro ⟨hroot, a, hw, hscope⟩
    exact ⟨hroot, a, waits_of_afterGrant h hw, hscope⟩
  relinquished := fun q epoch => by
    refine Set.eq_empty_iff_forall_notMem.mpr fun scope => ?_
    rintro ⟨_, a, hw, _⟩
    exact not_waits_relinquish hw

namespace Line

variable {gid : GroupId} (line : Line gid) {p : AdmissionPolicy}

lemma cursor_calm (h : Calm p p') :
    line.cursor (p'.groupAt gid) = line.cursor (p.groupAt gid) :=
  line.still (h.groupAt gid).lastRoot (h.groupAt gid).lastAgent

variable {b a : ScopeId}

lemma takesTurn_of_grant {op : Operation} (hcalm : Calm p q) (hgrants : q.Grants gid' id now)
    (hgrantOf : grantOf op (p.step op).1 = some ⟨gid', id, now⟩)
    (hafter : (p.step op).2 = q.afterGrant gid' id now) (hb : b ∈ line.waiting q) :
    TakesTurn step (fun p => line.cursor (p.groupAt gid)) (served gid line.key) b p op := by
  have hserved : served gid line.key p op = if gid' = gid then line.key q id else none := by
    unfold served
    rw [hgrantOf, hafter, line.scopes (afterGrant_scopes q gid' id now)]
  unfold TakesTurn
  rw [hserved, hafter]
  dsimp only
  by_cases hgid : gid' = gid
  · subst hgid
    rw [if_pos rfl, line.moves hgrants, line.cursor_calm hcalm]
    cases hkey : line.key q id with
    | none => exact Or.inl ⟨rfl, rfl⟩
    | some x =>
      refine Or.inr ⟨line.waiting q, x, rfl, rfl, hb, ?_⟩
      rw [← line.cursor_calm hcalm]
      exact line.inTurn hgrants hkey
  · rw [if_neg hgid, afterGrant_groupAt_ne q gid' id now hgid]
    exact Or.inl ⟨rfl, line.cursor_calm hcalm⟩

/-- Every step takes a turn with regard to whoever waits after it. -/
lemma takesTurn_of_waiting (wf : p.Wf) (op : Operation) (hb : b ∈ line.waiting (p.step op).2) :
    TakesTurn step (fun p => line.cursor (p.groupAt gid)) (served gid line.key) b p op := by
  cases step_cases wf op with
  | grants gid' id now q input observed grants result =>
    rw [result] at hb
    exact line.takesTurn_of_grant (wf_of_tick wf observed).2 grants
      (by rw [result, input]; rfl) (by rw [result]) (line.granted grants hb)
  | resets now q _ _ _ result =>
    rw [result, line.relinquished] at hb
    exact absurd hb (Set.notMem_empty b)
  | quiet quiets noGrant _ =>
    refine Or.inl ⟨?_, line.cursor_calm (Quiets.wf_calm wf quiets).2⟩
    unfold served
    rw [noGrant]

lemma grant_of_served (wf : p.Wf) (op : Operation) (ha : served gid line.key p op = some a) :
    ∃ id now q, Calm p q ∧ q.Grants gid id now ∧ grantOf op (p.step op).1 = some ⟨gid, id, now⟩ ∧
      (p.step op).2 = q.afterGrant gid id now ∧ p.decidedIn op = q ∧ line.key q id = some a := by
  unfold served at ha
  cases step_cases wf op with
  | grants gid' id now q input observed grants result =>
    have hgrantOf : grantOf op (p.step op).1 = some ⟨gid', id, now⟩ := by
      rw [result, input]
      rfl
    rw [hgrantOf, result] at ha
    dsimp only at ha
    split at ha
    · rename_i hgid
      subst hgid
      refine ⟨id, now, q, (wf_of_tick wf observed).2, grants, hgrantOf, by rw [result], ?_, ?_⟩
      · rw [input, decidedIn, observe, observed]
      · rw [line.scopes (afterGrant_scopes q gid' id now)] at ha
        exact ha
    · simp at ha
  | resets now q input _ _ result =>
    rw [result] at ha
    simp [grantOf] at ha
  | quiet _ noGrant _ =>
    rw [noGrant] at ha
    simp at ha

/-- Whoever waits between two turns of another is served in between. -/
lemma served_in_between (wf : p.Wf) {first last : Operation} {mid : List Operation} (hne : a ≠ b)
    (hfirst : served gid line.key p first = some a)
    (hlast : served gid line.key (exec step p (first :: mid)) last = some a)
    (hwaits : ∀ before, before <+: mid → b ∈ line.waiting (exec step p (first :: before)))
    (hclosing : b ∈ line.waiting ((exec step p (first :: mid)).decidedIn last)) :
    ∃ before op, before ++ [op] <+: mid ∧
      served gid line.key (exec step p (first :: before)) op = some b := by
  have hwf : ∀ ops, (exec step (p.step first).2 ops).Wf :=
    exec_invariant step_wf (step_wf p first wf)
  have hcursor : line.cursor ((p.step first).2.groupAt gid) = some a := by
    obtain ⟨id, now, q, _, hgrants, _, hafter, _, hkey⟩ := line.grant_of_served wf first hfirst
    rw [hafter, line.moves hgrants, hkey]
    rfl
  refine served_between (fun p => line.cursor (p.groupAt gid)) hne hcursor ?_ ?_ hlast
  · intro before op hpre
    refine line.takesTurn_of_waiting (hwf before) op ?_
    have hafter := hwaits (before ++ [op]) hpre
    rw [exec_cons, exec_append] at hafter
    exact hafter
  · obtain ⟨id, now, q, hcalm, hgrants, hgrantOf, hafter, hdecided, _⟩ :=
      line.grant_of_served (hwf mid) last hlast
    rw [exec_cons, hdecided] at hclosing
    exact line.takesTurn_of_grant hcalm hgrants hgrantOf hafter hclosing

end Line

/-! ## The order within a scope -/

/-- Everything of the scope that still waits in the group comes after `n`, and
nothing up to `n` can be enqueued any more. -/
def Past (p : AdmissionPolicy) (gid : GroupId) (scope : ScopeId) (n : Nat) : Prop :=
  p.Fenced ⟨scope, n⟩ ∧ ∀ (id : RequestId) (r : Request), p.requests[id]? = some r →
    id.scope = scope → r.group = gid → r.state.isQueued = true → n < id.sequence

lemma Calm.past (h : Calm p p') (hp : p.Past gid scope n) :
    p'.Past gid scope n := by
  obtain ⟨hfenced, hlater⟩ := hp
  refine ⟨h.fenced hfenced, fun id r' hr' hscope hgroup hqueued => ?_⟩
  rcases h.queued id r' hr' hqueued with ⟨r, hr, hmarked⟩ | hfresh
  · exact hlater id r hr hscope (by rw [← hmarked.group]; exact hgroup)
      (by rw [← hmarked.state.isQueued_eq]; exact hqueued)
  -- a request that was never fenced is above the mark that fences `n`
  by_contra hle
  refine hfresh ?_
  rcases hfenced with hold | ⟨s, hs, hmark⟩
  · exact Or.inl (by rw [hscope]; exact hold)
  · dsimp only at hs hmark
    exact Or.inr ⟨s, by rw [hscope]; exact hs, by omega⟩

lemma Grants.past (h : q.Grants gid' id now) (hq : q.Past gid scope n) :
    (q.afterGrant gid' id now).Past gid scope n := by
  refine ⟨hq.1, fun a r' hr' hscope hgroup hqueued => ?_⟩
  exact hq.2 a r' (afterGrant_queued h hr' hqueued).2 hscope hgroup hqueued

lemma Grants.past_self (wf : q.Wf) (h : q.Grants gid id now) :
    (q.afterGrant gid id now).Past gid id.scope id.sequence := by
  obtain ⟨r, hr, _, _⟩ := h.queued
  refine ⟨wf.fenced hr, fun a r' hr' hscope hgroup hqueued => ?_⟩
  obtain ⟨hne, hr'⟩ := afterGrant_queued h hr' hqueued
  have hle := h.chosen.first a
    ⟨r', hr', isWaiting_iff.mpr ⟨hgroup, by rw [hscope], hqueued⟩⟩ hscope
  refine lt_of_le_of_ne hle fun heq => hne ?_
  cases a
  cases id
  simp_all

lemma past_relinquish (wf : q.Wf) (h : q.Past gid scope n) :
    (q.relinquish (q.epoch + 1)).Past gid scope n := by
  refine ⟨Or.inl ?_, fun id r hr => by simp [relinquish] at hr⟩
  show scope.epoch < q.epoch + 1
  rcases h.1 with hold | ⟨s, hs, _⟩
  · dsimp only at hold
    omega
  have := (wf.scopes _ _ hs).1
  dsimp only at this
  omega

lemma step_past (wf : p.Wf) (op : Operation) (h : p.Past gid scope n) :
    (p.step op).2.Past gid scope n :=
  step_keeps wf op (fun _ hcalm => hcalm.past h) (fun _ hq grants => grants.past hq)
    fun wfq hq => past_relinquish wfq hq

lemma run_grants_in_order (wf : p.Wf) (ops : List Operation) :
    (grants (moments step p ops)).Pairwise fun a b =>
      a.group = b.group → a.id.scope = b.id.scope → a.id.sequence < b.id.sequence := by
  rw [grants, pairwise_filterMap]
  refine moments_pairwise
    (fun m q => ∀ a ∈ grantOf m.input m.output, q.Past a.group a.id.scope a.id.sequence)
    step_wf ?_ ?_ ?_ wf ops
  · intro q op wfq a ha
    obtain ⟨q', observed, grants, result⟩ := grantOf_cases wfq op ha
    rw [result]
    exact grants.past_self (wf_of_tick wfq observed).1
  · intro m q op wfq hpromise a ha
    exact step_past wfq op (hpromise a ha)
  intro m q op wfq hpromise a ha b hb hgroup hscope
  obtain ⟨q', observed, grants, _⟩ := grantOf_cases wfq op hb
  obtain ⟨r, hr, hrgroup, hqueued⟩ := grants.queued
  exact ((wf_of_tick wfq observed).2.past (hpromise a ha)).2 b.id r hr hscope.symm
    (hrgroup.trans hgroup.symm) hqueued

/-- Fairness between roots, between the scopes of a root, and within a scope, for
one group and class of any run.  Between two grants to one root, another root
that waits throughout is granted; the same for two scopes of one root; and the
grants of one scope come in increasing sequence order. -/
theorem turns_are_taken {p : AdmissionPolicy} (hp : p.Reachable) (gid : GroupId)
    (workload : WorkloadClass) :
    (∀ (first last : Operation) (mid : List Operation) (a b : ScopeId), a ≠ b →
        served gid (rootKey workload) p first = some a →
        served gid (rootKey workload) (exec step p (first :: mid)) last = some a →
        (∀ before, before <+: mid → b ∈ (exec step p (first :: before)).waitingRoots gid workload) →
        b ∈ ((exec step p (first :: mid)).decidedIn last).waitingRoots gid workload →
          ∃ before op, before ++ [op] <+: mid ∧
            served gid (rootKey workload) (exec step p (first :: before)) op = some b) ∧
      (∀ (root : ScopeId) (first last : Operation) (mid : List Operation) (a b : ScopeId), a ≠ b →
        served gid (scopeKey workload root) p first = some a →
        served gid (scopeKey workload root) (exec step p (first :: mid)) last = some a →
        (∀ before, before <+: mid →
          b ∈ (exec step p (first :: before)).waitingScopes gid workload root) →
        b ∈ ((exec step p (first :: mid)).decidedIn last).waitingScopes gid workload root →
          ∃ before op, before ++ [op] <+: mid ∧
            served gid (scopeKey workload root) (exec step p (first :: before)) op = some b) ∧
      ∀ ops, (grants (moments step p ops)).Pairwise fun a b =>
        a.group = gid → b.group = gid → a.id.scope = b.id.scope →
          a.id.sequence < b.id.sequence := by
  refine ⟨?_, ?_, ?_⟩
  · intro first last mid a b hne hfirst hlast hwaits hclosing
    exact (rootLine gid workload).served_in_between hp.wf hne hfirst hlast hwaits hclosing
  · intro root first last mid a b hne hfirst hlast hwaits hclosing
    exact (scopeLine gid workload root).served_in_between hp.wf hne hfirst hlast hwaits hclosing
  intro ops
  refine (run_grants_in_order hp.wf ops).imp ?_
  intro a b h ha hb hscope
  exact h (ha.trans hb.symm) hscope

def sampleLine : List Operation :=
  [.registerRoot .interactive, .registerRoot .interactive,
    .enqueue ⟨1, 1⟩ 1 "model" 1, .enqueue ⟨1, 1⟩ 2 "model" 1,
    .enqueue ⟨1, 2⟩ 1 "model" 1, .enqueue ⟨1, 2⟩ 2 "model" 1]

/-- Between the grants to the first root at 1 and at 3, the second is granted. -/
theorem turns_are_taken_sample : ∃ before op, before ++ [op] <+:
        [.complete ⟨1, 1⟩ 1 .success 2, .next sampleGroup 2, .complete ⟨1, 2⟩ 1 .success 3] ∧
      served sampleGroup (rootKey .interactive)
        (exec step (exec step samplePolicy sampleLine) (.next sampleGroup 1 :: before)) op =
          some ⟨1, 2⟩ := by
  refine (turns_are_taken (samplePolicy_reaches sampleLine) sampleGroup .interactive).1
    (.next sampleGroup 1) (.next sampleGroup 3) _ ⟨1, 1⟩ ⟨1, 2⟩ (by decide) (by decide +kernel)
    (by decide +kernel) ?_ (by decide +kernel)
  have hwaits : ∀ before ∈ List.inits
      [.complete ⟨1, 1⟩ 1 .success 2, .next sampleGroup 2, .complete ⟨1, 2⟩ 1 .success 3],
      (⟨1, 2⟩ : ScopeId) ∈ (exec step (exec step samplePolicy sampleLine)
        (.next sampleGroup 1 :: before)).waitingRoots sampleGroup .interactive := by
    decide +kernel
  exact fun before hpre => hwaits before ((mem_inits _ _).mpr hpre)

end AdmissionPolicy

/-! ## Events of a group -/

/-- What happened to a group: a grant, with its class, whether background was
eligible and whether it took a shared slot; or a new epoch. -/
inductive GroupEvent where
  | granted (workload : WorkloadClass) (eligible shared : Bool)
  | reset
  deriving DecidableEq

def GroupEvent.isGrant : GroupEvent → Bool
  | .granted _ _ _ => true
  | .reset => false

/-! ## The automaton of the two streaks -/

structure Streaks where
  interactive : Nat
  contested : Nat
  deriving DecidableEq

namespace Streaks

/-- The streaks after an event, as `granted` and a reset leave them. -/
def after (s : Streaks) : GroupEvent → Streaks
  | .reset => ⟨0, 0⟩
  | .granted workload eligible shared =>
      let contested :=
        if eligible then
          match workload with
          | .interactive => min (s.contested + 1) 3
          | .background => 0
        else s.contested
      if shared then
        { contested := 0
          interactive :=
            match workload with
            | .interactive => min (s.interactive + 1) 3
            | .background => 0 }
      else { s with contested := contested }

/-- Over eligible background, an interactive grant needs both streaks short. -/
def Allows (s : Streaks) : GroupEvent → Prop
  | .granted .interactive true _ => s.interactive < 3 ∧ s.contested < 3
  | _ => True

def Admits : Streaks → List GroupEvent → Prop
  | _, [] => True
  | s, e :: rest => s.Allows e ∧ (s.after e).Admits rest

lemma Admits.append {s : Streaks} {l l' : List GroupEvent} (h : s.Admits (l ++ l')) :
    s.Admits l ∧ (l.foldl after s).Admits l' := by
  induction l generalizing s with
  | nil => exact ⟨trivial, h⟩
  | cons e l ih =>
    obtain ⟨hallows, hrest⟩ := h
    obtain ⟨hl, hl'⟩ := ih hrest
    exact ⟨⟨hallows, hl⟩, hl'⟩

lemma Admits.window {s : Streaks} {l window : List GroupEvent} (h : s.Admits l)
    (hw : window <:+: l) : ∃ s' : Streaks, s'.Admits window := by
  obtain ⟨before, rest, rfl⟩ := hw
  exact ⟨_, h.append.1.append.2⟩

variable {window : List GroupEvent}

lemma Admits.contested_le : ∀ {s : Streaks}, s.Admits window →
      (∀ e ∈ window, ∃ shared, e = .granted .interactive true shared) →
        window.length ≤ 3 * (3 - s.interactive) - s.contested := by
  induction window with
  | nil => intro s _ _; simp
  | cons e rest ih =>
    intro s h hall
    obtain ⟨shared, rfl⟩ := hall e mem_cons_self
    obtain ⟨⟨hi, hc⟩, hrest⟩ := h
    have hle := ih hrest fun e he => hall e (mem_cons_of_mem _ he)
    rw [length_cons]
    cases shared with
    | true =>
      simp only [after, if_true] at hle
      omega
    | false =>
      simp only [after, if_true, Bool.false_eq_true, if_false] at hle
      omega

lemma Admits.shared_le : ∀ {s : Streaks}, s.Admits window →
      (∀ e ∈ window, ∃ eligible shared, e = .granted .interactive eligible shared) →
        window.countP (· == .granted .interactive true true) ≤ 3 - s.interactive := by
  induction window with
  | nil => intro s _ _; simp
  | cons e rest ih =>
    intro s h hall
    obtain ⟨eligible, shared, rfl⟩ := hall e mem_cons_self
    obtain ⟨hallows, hrest⟩ := h
    have hle := ih hrest fun e he => hall e (mem_cons_of_mem _ he)
    rw [countP_cons]
    cases shared with
    | false =>
      have hsame : (s.after (.granted .interactive eligible false)).interactive =
          s.interactive := rfl
      rw [hsame] at hle
      simpa using hle
    | true =>
      have hspent : (s.after (.granted .interactive eligible true)).interactive =
          min (s.interactive + 1) 3 := rfl
      cases eligible with
      | false =>
        simp only [beq_iff_eq, GroupEvent.granted.injEq, Bool.false_eq_true, false_and, and_false,
          if_false]
        omega
      | true =>
        have hi : s.interactive < 3 := hallows.1
        simp only [beq_self_eq_true, if_true]
        omega

end Streaks

namespace AdmissionPolicy

/-! ## The events of a run -/

/-- A background request waits and a shared slot is free. -/
def backgroundEligible (q : AdmissionPolicy) (gid : GroupId) : Bool :=
  decide (0 < q.requests.count (q.isWaiting gid .background)) &&
    decide (q.classActive gid .background +
        (q.classActive gid .interactive - (q.policyAt gid).reserve) <
      (q.policyAt gid).capacity - (q.policyAt gid).reserve)

lemma backgroundCandidate_isSome (q : AdmissionPolicy) (gid : GroupId) :
    (q.backgroundCandidate gid (q.activeCount gid)).isSome = q.backgroundEligible gid := by
  have hwaits : (q.candidate gid .background).isSome =
      decide (0 < q.requests.count (q.isWaiting gid .background)) := by
    rw [Bool.eq_iff_iff, Option.isSome_iff_exists, candidate_isSome_iff, decide_eq_true_eq,
      Nat.pos_iff_ne_zero, ne_eq, OrdMap.count_eq_zero_iff]
    simp only [not_forall, Bool.not_eq_false]
    constructor
    · rintro ⟨id, r, hr, hw⟩
      exact ⟨id, r, hr, hw⟩
    · rintro ⟨id, r, hr, hw⟩
      exact ⟨id, r, hr, hw⟩
  unfold backgroundCandidate backgroundEligible
  dsimp only
  rw [sharedActive_eq, ← hwaits]
  split
  · rename_i hfree
    simp [hfree.1]
  have hshared : ¬ q.classActive gid .background +
      (q.classActive gid .interactive - (q.policyAt gid).reserve) <
      (q.policyAt gid).capacity - (q.policyAt gid).reserve := by omega
  simp [hshared]

end AdmissionPolicy

def eventOf (gid : GroupId) (m : PolicyMoment) : Option GroupEvent :=
  if isReset m.input m.output then some .reset
  else
    match grantOf m.input m.output with
    | none => none
    | some grant =>
        if grant.group = gid then
          match m.before.tick grant.time with
          | .error _ => none
          | .ok q =>
              let workload := q.classAt grant.id.scope
              some (.granted workload (q.backgroundEligible gid)
                (q.usesShared gid (q.activeCount gid) workload))
        else none

def timeline (gid : GroupId) (ms : List PolicyMoment) : List GroupEvent :=
  ms.filterMap (eventOf gid)

namespace AdmissionPolicy

/-! ## The policy runs the automaton -/

def streaksAt (p : AdmissionPolicy) (gid : GroupId) : Streaks :=
  ⟨(p.groupAt gid).interactiveStreak, (p.groupAt gid).contestedPacingStreak⟩

variable {p q : AdmissionPolicy} {gid : GroupId} {id : RequestId} {now : Nat}

lemma Calm.streaksAt (h : Calm p p') (gid : GroupId) :
    p'.streaksAt gid = p.streaksAt gid := by
  have hgroup := h.groupAt gid
  rw [AdmissionPolicy.streaksAt, hgroup.interactiveStreak, hgroup.contestedPacingStreak]
  rfl

lemma streaksAt_relinquish (q : AdmissionPolicy) (epoch : Nat) (gid : GroupId) :
    (q.relinquish epoch).streaksAt gid = ⟨0, 0⟩ := by
  unfold streaksAt groupAt
  rw [relinquish_lookup]
  cases q.groups[gid]? <;> rfl

lemma Grants.streaksAt (h : q.Grants gid id now) :
    (q.afterGrant gid id now).streaksAt gid = (q.streaksAt gid).after
      (.granted (q.classAt id.scope) (q.backgroundEligible gid)
        (q.usesShared gid (q.activeCount gid) (q.classAt id.scope))) := by
  unfold AdmissionPolicy.streaksAt
  rw [h.groupAt, backgroundCandidate_isSome]
  cases q.backgroundEligible gid <;>
    cases q.usesShared gid (q.activeCount gid) (q.classAt id.scope) <;> rfl

lemma Grants.allows (h : q.Grants gid id now) (shared : Bool) : (q.streaksAt gid).Allows
      (.granted (q.classAt id.scope) (q.backgroundEligible gid) shared) := by
  cases hclass : q.classAt id.scope with
  | background => trivial
  | interactive =>
    cases heligible : q.backgroundEligible gid with
    | false => trivial
    | true =>
      rw [← backgroundCandidate_isSome] at heligible
      rcases select_eq_some h.selected with hbackground | ⟨_, hshort⟩
      · cases (classAt_of_candidate (backgroundCandidate_eq_some hbackground).2).symm.trans hclass
      · exact hshort heligible

/-- A step is an event that the streaks allow, or it leaves them alone. -/
lemma step_streaks (wf : p.Wf) (op : Operation) (gid : GroupId) :
    (eventOf gid (momentAt step p op) = none ∧ (p.step op).2.streaksAt gid = p.streaksAt gid) ∨
      ∃ e, eventOf gid (momentAt step p op) = some e ∧ (p.streaksAt gid).Allows e ∧
        (p.step op).2.streaksAt gid = (p.streaksAt gid).after e := by
  cases step_cases wf op with
  | grants gid' id now q input observed grants result =>
    have hcalm := (wf_of_tick wf observed).2
    rw [result]
    have hevent : eventOf gid (momentAt step p op) =
        if gid' = gid then
          some (.granted (q.classAt id.scope) (q.backgroundEligible gid)
            (q.usesShared gid (q.activeCount gid) (q.classAt id.scope)))
        else none := by
      subst input
      simp only [eventOf, momentAt, result, isReset, grantOf, observed, Bool.false_eq_true,
        if_false]
    rw [hevent]
    by_cases hgid : gid' = gid
    · subst hgid
      refine Or.inr ⟨_, if_pos rfl, ?_, ?_⟩
      · rw [← hcalm.streaksAt gid']
        exact grants.allows _
      · rw [grants.streaksAt, hcalm.streaksAt]
    · refine Or.inl ⟨if_neg hgid, ?_⟩
      rw [← hcalm.streaksAt gid]
      unfold streaksAt
      rw [afterGrant_groupAt_ne q gid' id now hgid]
  | resets now q input observed _ result =>
    refine Or.inr ⟨.reset, ?_, trivial, ?_⟩
    · subst input
      simp [eventOf, momentAt, result, isReset]
    · rw [result]
      exact streaksAt_relinquish q _ gid
  | quiet quiets noGrant noReset =>
    refine Or.inl ⟨?_, (Quiets.wf_calm wf quiets).2.streaksAt gid⟩
    simp only [eventOf, momentAt, noGrant, noReset, Bool.false_eq_true, if_false]

lemma run_admits (wf : p.Wf) (ops : List Operation) (gid : GroupId) :
    (p.streaksAt gid).Admits (timeline gid (moments step p ops)) := by
  induction ops generalizing p with
  | nil => trivial
  | cons op ops ih =>
    have hrest := ih (step_wf p op wf)
    rw [moments_cons, timeline]
    rcases step_streaks wf op gid with ⟨hnone, hsame⟩ | ⟨e, hsome, hallows, hafter⟩
    · rw [filterMap_cons_none hnone, ← hsame]
      exact hrest
    rw [filterMap_cons_some hsome]
    refine ⟨hallows, ?_⟩
    rw [← hafter]
    exact hrest

/-- Class fairness within one epoch.  Of ten consecutive grants of a group made
while background was eligible, with no reset among them, one goes to background;
and in a stretch of interactive grants with no reset among them, at most three
made while background was eligible used a shared slot. -/
theorem background_served {start : AdmissionPolicy} (hstart : start.Initial)
    (ops : List Operation) (gid : GroupId) {window : List GroupEvent}
    (hwindow : window <:+: timeline gid (moments step start ops)) :
    (10 ≤ window.length → (∀ e ∈ window, ∃ workload shared, e = .granted workload true shared) →
          ∃ shared, .granted .background true shared ∈ window) ∧
      ((∀ e ∈ window, ∃ eligible shared, e = .granted .interactive eligible shared) →
        window.countP (· == .granted .interactive true true) ≤ 3) := by
  obtain ⟨s, hs⟩ := (run_admits hstart.wf ops gid).window hwindow
  refine ⟨fun hlength hall => ?_, fun hall => ?_⟩
  · by_contra hnone
    have hle := hs.contested_le fun e he => by
      obtain ⟨workload, shared, rfl⟩ := hall e he
      cases workload with
      | interactive => exact ⟨shared, rfl⟩
      | background => exact absurd ⟨shared, he⟩ hnone
    omega
  · have := hs.shared_le hall
    omega

def sampleContest : List Operation :=
  [.registerRoot .background, .registerRoot .interactive,
    .enqueue ⟨1, 1⟩ 1 "model" 1, .next sampleGroup 1, .complete ⟨1, 1⟩ 1 .success 2,
    .enqueue ⟨1, 1⟩ 2 "model" 2,
    .enqueue ⟨1, 2⟩ 1 "model" 2, .next sampleGroup 2, .complete ⟨1, 2⟩ 1 .success 3,
    .enqueue ⟨1, 2⟩ 2 "model" 3, .next sampleGroup 3, .complete ⟨1, 2⟩ 2 .success 4,
    .enqueue ⟨1, 2⟩ 3 "model" 4, .next sampleGroup 4, .complete ⟨1, 2⟩ 3 .success 5]

/-- Three background requests wait while ten grants are made, an interactive request
arriving before each of them. -/
def longContest : List Operation :=
  let granted := [(2, 1), (2, 2), (2, 3), (1, 1), (2, 4), (2, 5), (2, 6), (1, 2), (2, 7), (2, 8)]
  [.registerRoot .background, .registerRoot .interactive] ++
    [1, 2, 3].map (.enqueue ⟨1, 1⟩ · "model" 1) ++
    granted.zipIdx.flatMap fun ((serial, sequence), i) =>
      [.enqueue ⟨1, 2⟩ (i + 1) "model" (i + 1), .next sampleGroup (i + 2),
        .complete ⟨1, serial⟩ sequence .success (i + 2)]

/-- Background is served among the ten grants of the long contest, and the three
shared turns of the short one are spent. -/
theorem background_served_sample :
    let long := timeline sampleGroup (moments step samplePolicy longContest)
    let short := (timeline sampleGroup (moments step samplePolicy sampleContest)).tail
    (long.length = 10 ∧ ∃ shared, .granted .background true shared ∈ long) ∧
      short = replicate 3 (.granted .interactive true true) ∧
      short.countP (· == .granted .interactive true true) ≤ 3 := by
  intro long short
  have hlength : long.length = 10 := by decide +kernel
  have heligible : ∀ e ∈ long, ∃ workload shared, e = .granted workload true shared := by
    have hgrants : ∀ e ∈ long, e = .granted .interactive true true ∨
        e = .granted .background true true := by decide +kernel
    intro e he
    rcases hgrants e he with rfl | rfl <;> exact ⟨_, _, rfl⟩
  have hshort : short = replicate 3 (.granted .interactive true true) := by decide +kernel
  refine ⟨⟨hlength, (background_served samplePolicy_initial longContest sampleGroup
    infix_rfl).1 hlength.ge heligible⟩, hshort, ?_⟩
  apply (background_served samplePolicy_initial sampleContest sampleGroup
    (tail_suffix _).isInfix).2
  intro e (he : e ∈ short)
  exact ⟨true, true, eq_of_mem_replicate (hshort ▸ he)⟩

/-- A reset after the contest: the streaks start again, and a fourth shared grant
is made over eligible background before background is served. -/
def resetContest : List Operation :=
  sampleContest ++ [.reset 5, .registerRoot .background, .registerRoot .interactive,
      .enqueue ⟨2, 3⟩ 1 "model" 5, .enqueue ⟨2, 4⟩ 1 "model" 5,
      .next sampleGroup 5, .complete ⟨2, 4⟩ 1 .success 6, .next sampleGroup 6]

/-- Across a reset the bound on shared grants between two background grants does
not hold. -/
theorem shared_grants_unbounded_across_reset :
    ¬ ∀ (start : AdmissionPolicy) (ops : List Operation) (gid : GroupId)
        (window : List GroupEvent), start.Initial →
      (.granted .background true true :: window ++ [.granted .background true true]) <:+:
          (timeline gid (moments step start ops)).filter GroupEvent.isGrant →
        (∀ e ∈ window, ∃ eligible shared, e = .granted .interactive eligible shared) →
          window.countP (· == .granted .interactive true true) ≤ 3 := by
  intro h
  have hgrants : (timeline sampleGroup (moments step samplePolicy resetContest)).filter
      GroupEvent.isGrant = .granted .background true true ::
        List.replicate 4 (.granted .interactive true true) ++ [.granted .background true true] := by
    decide +kernel
  have hle := h samplePolicy resetContest sampleGroup
    (List.replicate 4 (.granted .interactive true true)) samplePolicy_initial
    (hgrants ▸ infix_rfl)
    fun e he => ⟨true, true, eq_of_mem_replicate he⟩
  exact absurd hle (by decide)

end AdmissionPolicy

end Quecto.Admission
