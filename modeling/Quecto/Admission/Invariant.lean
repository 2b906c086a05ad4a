/-
  Admission/Invariant.lean --- what an operation can do to a policy, what every reachable
  policy satisfies, and what quiet changes leave alone.
-/
import Quecto.Admission.Policy

namespace Quecto.Admission

open Foundation OrdMap

/-! ## Changes of one record -/

/-- Equal states, but the cancellation flag may have been raised. -/
inductive RequestState.SameButFlag : RequestState → RequestState → Prop
  | queued (deadline : Nat) : SameButFlag (.queued deadline) (.queued deadline)
  | active (started deadline : Nat) {required required' : Bool}
      (raised : required = true → required' = true) :
      SameButFlag (.active started deadline required) (.active started deadline required')
  | terminal (outcome : TerminalOutcome) : SameButFlag (.terminal outcome) (.terminal outcome)

namespace RequestState.SameButFlag

lemma refl (s : RequestState) : SameButFlag s s := by
  cases s with
  | queued deadline => exact .queued deadline
  | active started deadline required => exact .active started deadline id
  | terminal outcome => exact .terminal outcome

variable {s s' : RequestState} (h : SameButFlag s s')
include h

lemma trans {s'' : RequestState} (h' : SameButFlag s' s'') : SameButFlag s s'' := by
  cases h with
  | queued deadline => exact h'
  | active started deadline raised =>
    cases h' with
    | active _ _ raised' => exact .active started deadline fun hr => raised' (raised hr)
  | terminal outcome => exact h'

lemma isQueued_eq : s'.isQueued = s.isQueued := by
  cases h <;> rfl

lemma isActive_eq : s'.isActive = s.isActive := by
  cases h <;> rfl

lemma isTerminal_eq : s'.isTerminal = s.isTerminal := by
  cases h <;> rfl

end RequestState.SameButFlag

variable {s : RequestState}

lemma RequestState.not_isTerminal_of_isActive (h : s.isActive = true) : s.isTerminal = false := by
  cases s <;> simp_all [RequestState.isActive, RequestState.isTerminal]

lemma RequestState.not_isTerminal_of_isQueued (h : s.isQueued = true) : s.isTerminal = false := by
  cases s <;> simp_all [RequestState.isQueued, RequestState.isTerminal]

lemma RequestState.not_isActive_of_isQueued (h : s.isQueued = true) : s.isActive = false := by
  cases s <;> simp_all [RequestState.isQueued, RequestState.isActive]

lemma RequestState.exists_of_isActive (h : s.isActive = true) :
    ∃ started deadline required, s = .active started deadline required := by
  cases s with
  | active started deadline required => exact ⟨started, deadline, required, rfl⟩
  | queued _ | terminal _ => cases h

/-- The request is the same but for marks that no grant reads. -/
structure Request.Marked (r r' : Request) : Prop where
  group : r'.group = r.group
  state : RequestState.SameButFlag r.state r'.state

variable (Uncertain : RequestId → Prop) (g : Group) (r : Request)

lemma Request.Marked.refl : r.Marked r := ⟨rfl, .refl _⟩

lemma Request.Marked.trans {r r' r'' : Request} (h : r.Marked r') (h' : r'.Marked r'') :
    r.Marked r'' :=
  ⟨h'.group.trans h.group, h.state.trans h'.state⟩

lemma Request.marked_flagOverdue (now : Nat) : r.Marked (r.flagOverdue now) := by
  unfold Request.flagOverdue
  split
  · rename_i started deadline required hstate
    refine ⟨rfl, ?_⟩
    rw [hstate]
    refine .active started deadline ?_
    intro h
    simp [h]
  · exact .refl r

lemma Request.marked_requireCancellation : r.Marked r.requireCancellation := by
  unfold Request.requireCancellation
  split
  · rename_i started deadline required hstate
    refine ⟨rfl, ?_⟩
    rw [hstate]
    exact .active started deadline fun _ => rfl
  · exact .refl r

/-- What may happen to a group's record between grants: deadlines only move
later, an unavailable group stays so, streaks and cursors stand still, orphans
only leave, and a new uncertain lease satisfies `Uncertain`. -/
structure Group.Quieter (Uncertain : RequestId → Prop) (g g' : Group) : Prop where
  nextStart : g'.nextStart = g.nextStart
  cooldown : g.cooldown ≤ g'.cooldown
  unavailable : g.unavailable = true → g'.unavailable = true
  interactiveStreak : g'.interactiveStreak = g.interactiveStreak
  contestedPacingStreak : g'.contestedPacingStreak = g.contestedPacingStreak
  lastRoot : g'.lastRoot = g.lastRoot
  lastAgent : g'.lastAgent = g.lastAgent
  orphans : g'.orphans.Sublist g.orphans
  uncertain : ∀ id since, g'.uncertain[id]? = some since →
    g.uncertain[id]? = some since ∨ Uncertain id

lemma Group.Quieter.refl : Group.Quieter Uncertain g g where
  nextStart := rfl
  cooldown := le_refl _
  unavailable := id
  interactiveStreak := rfl
  contestedPacingStreak := rfl
  lastRoot := rfl
  lastAgent := rfl
  orphans := .refl _
  uncertain := fun _ _ h => Or.inl h

lemma Group.Advised.quieter {g g' : Group} (h : g.Advised g') : Group.Quieter Uncertain g g' := by
  obtain ⟨fallback, cooldown, unavailable, rfl, hcooldown, hunavailable⟩ := h
  exact { Group.Quieter.refl Uncertain g with cooldown := hcooldown, unavailable := hunavailable }

/-! ## Quiet changes -/

namespace AdmissionPolicy

/-- The request is being attempted in the group. -/
def ActiveIn (p : AdmissionPolicy) (gid : GroupId) (id : RequestId) : Prop :=
  ∃ r, p.requests[id]? = some r ∧ r.group = gid ∧ r.state.isActive = true

lemma active_ne_queued {p : AdmissionPolicy} {a b : RequestId} {r r' : Request}
    (hr : p.requests[a]? = some r) (hactive : r.state.isActive = true)
    (hr' : p.requests[b]? = some r') (hqueued : r'.state.isQueued = true) : a ≠ b := by
  rintro rfl
  obtain rfl := Option.some.inj (hr.symm.trans hr')
  cases (RequestState.not_isActive_of_isQueued hqueued).symm.trans hactive

/-- The policy with the next scope. -/
abbrev registered (p : AdmissionPolicy) (root : Option ScopeId) (workload : WorkloadClass) :
    AdmissionPolicy :=
  { p with
    nextSerial := p.nextSerial + 1
    scopes := p.scopes.insert ⟨p.epoch, p.nextSerial + 1⟩
      { root := root.getD ⟨p.epoch, p.nextSerial + 1⟩, workloadClass := workload,
        highWater := 0, retired := false } }

abbrev retired (p : AdmissionPolicy) (scope : ScopeId) : AdmissionPolicy :=
  { p with scopes := p.scopes.modify scope fun s => { s with retired := true } }

/-- The policy with a new request in the queue of its group. -/
abbrev enqueued (p : AdmissionPolicy) (scope : ScopeId) (sequence : Nat) (group : GroupId)
    (deadline : Nat) : AdmissionPolicy :=
  { p with
    requests := p.requests.insert ⟨scope, sequence⟩
      { group := group, state := .queued deadline, feedback := none, lastReport := none,
        leaseCleared := false, held := none }
    scopes := p.scopes.modify scope fun s => { s with highWater := sequence } }

/-- The changes that grant nothing. -/
inductive Quiet : AdmissionPolicy → AdmissionPolicy → Prop
  | clock (p : AdmissionPolicy) {now : Nat} (later : p.now ≤ now) : Quiet p (p.atTime now)
  | finish (p : AdmissionPolicy) (id : RequestId) (outcome : TerminalOutcome)
      (feedback : Option Feedback) : Quiet p (p.terminal id outcome feedback)
  | mark (p : AdmissionPolicy) {requests : OrdMap RequestId Request}
      (same : ∀ id : RequestId, Option.Rel Request.Marked p.requests[id]? requests[id]?) :
      Quiet p { p with requests := requests }
  | regroup (p : AdmissionPolicy) {groups : OrdMap GroupId Group}
      (same : ∀ gid : GroupId,
        Option.Rel (Group.Quieter (p.ActiveIn gid)) p.groups[gid]? groups[gid]?) :
      Quiet p { p with groups := groups }
  | register (p : AdmissionPolicy) (root : Option ScopeId) (workload : WorkloadClass) :
      Quiet p (p.registered root workload)
  | retire (p : AdmissionPolicy) (scope : ScopeId)
      (idle : ∀ (id : RequestId) (r : Request), p.requests[id]? = some r →
        id.scope = scope → r.state.isTerminal = true) : Quiet p (p.retired scope)
  | enqueue (p : AdmissionPolicy) {scope : ScopeId} {s : Scope} {sequence : Nat}
      {group : GroupId} (deadline : Nat) (known : p.scope scope = .ok s)
      (fresh : s.highWater < sequence) (grouped : group ∈ p.groups) :
      Quiet p (p.enqueued scope sequence group deadline)

abbrev Quiets : AdmissionPolicy → AdmissionPolicy → Prop := Relation.ReflTransGen Quiet

/-! ## The parts of `tick` -/

section

variable (p : AdmissionPolicy)

lemma quiet_withRequest (id : RequestId) {f : Request → Request}
    (hf : ∀ r, Request.Marked r (f r)) : Quiet p (p.withRequest id f) := by
  exact .mark p fun _ => rel_modify .refl _ fun _ => hf

lemma quiet_withGroup (gid : GroupId) {f : Group → Group}
    (hf : ∀ g, Group.Quieter (p.ActiveIn gid) g (f g)) : Quiet p (p.withGroup gid f) := by
  exact .regroup p fun _ => rel_modify (.refl _) _ fun h => h ▸ hf

lemma quiet_markUnavailable (gid : GroupId) : Quiet p (p.markUnavailable gid) :=
  quiet_withGroup p gid fun g => { Group.Quieter.refl _ g with unavailable := fun _ => rfl }

lemma quiet_flagOverdue (now : Nat) : Quiet p (p.flagOverdue now) := by
  refine .mark p fun a => ?_
  rw [Std.ExtTreeMap.getElem?_map]
  cases p.requests[a]? with
  | none => exact .none
  | some r => exact .some (r.marked_flagOverdue now)

lemma quiet_dropElapsedOrphans (now : Nat) : Quiet p (p.dropElapsedOrphans now) := by
  refine .regroup p fun a => ?_
  rw [Std.ExtTreeMap.getElem?_map]
  cases p.groups[a]? with
  | none => exact .none
  | some g =>
    exact .some { Group.Quieter.refl (p.ActiveIn a) g with orphans := List.filter_sublist }

lemma quiets_clearLease (id : RequestId) : Quiets p (p.clearLease id) :=
  .tail (.single (.finish p id _ _)) (quiet_withRequest _ id fun _ => ⟨rfl, .refl _⟩)

lemma quiets_expireWait (id : RequestId) : Quiets p (p.expireWait id) :=
  .tail (.single (.finish p id _ _)) (quiet_withRequest _ id fun _ => ⟨rfl, .refl _⟩)

end

lemma quiets_foldl {α : Type} {f : AdmissionPolicy → α → AdmissionPolicy}
    (hf : ∀ p a, Quiets p (f p a)) (l : List α) (p : AdmissionPolicy) : Quiets p (l.foldl f p) := by
  induction l generalizing p with
  | nil => exact .refl
  | cons a l ih => exact (hf p a).trans (ih (f p a))

variable {now : Nat} {p q : AdmissionPolicy}

lemma quiets_advance (p : AdmissionPolicy) (later : p.now ≤ now) : Quiets p (p.advance now) := by
  have hclock : Quiets p (p.atTime now) := .single (.clock p later)
  have hclear := quiets_foldl quiets_clearLease ((p.atTime now).elapsedLeases now) (p.atTime now)
  have hwaits := quiets_foldl quiets_expireWait
    (((p.atTime now).clearElapsedLeases now).elapsedWaits now)
    ((p.atTime now).clearElapsedLeases now)
  exact ((hclock.trans hclear).tail (quiet_dropElapsedOrphans _ now)).trans
    (hwaits.tail (quiet_flagOverdue _ now))

lemma quiets_tick (h : p.tick now = .ok q) : Quiets p q := by
  unfold tick at h
  split at h
  · simp at h
  rename_i hnow
  have hq : p.advance now = q := by simpa using h
  exact hq ▸ quiets_advance p (not_lt.mp hnow)

lemma quiets_enter {scope : ScopeId} (h : p.enter scope now = .ok q) : Quiets p q := by
  unfold enter at h
  split at h
  · simp at h
  · exact quiets_tick h

/-! ## Fences -/

/-- No request under this identity can be enqueued any more: its epoch is over,
or its scope has already accepted that sequence or a later one. -/
def Fenced (p : AdmissionPolicy) (id : RequestId) : Prop :=
  id.scope.epoch < p.epoch ∨ ∃ s, p.scopes[id.scope]? = some s ∧ id.sequence ≤ s.highWater

variable {p p' : AdmissionPolicy} {s : Scope} {r : Request} {scope : ScopeId} {sequence : Nat}

lemma scope_ok_iff {id : ScopeId} :
    p.scope id = .ok s ↔ id.epoch = p.epoch ∧ p.scopes[id]? = some s ∧ s.retired = false := by
  constructor
  · intro h
    unfold scope at h
    split at h
    · simp at h
    rename_i hepoch
    split at h
    · rename_i s' hs
      split at h
      · simp at h
      rename_i hretired
      have hss : s' = s := by simpa using h
      subst hss
      exact ⟨not_not.mp hepoch, hs, by simpa using hretired⟩
    · simp at h
  · rintro ⟨hepoch, hs, hretired⟩
    unfold scope
    rw [if_neg (not_not.mpr hepoch), hs]
    simp [hretired]

lemma request_of_scope {id : RequestId} (hs : p.scope id.scope = .ok s)
    (hr : p.requests[id]? = some r) : p.request id.scope id.sequence = .ok r := by
  unfold request
  rw [hs]
  rw [hr]

lemma request_ok (h : p.request scope sequence = .ok r) :
    p.requests[(⟨scope, sequence⟩ : RequestId)]? = some r := by
  unfold request at h
  split at h
  · simp at h
  split at h
  · rename_i hr
    simpa [hr] using h
  · simp at h

/-! ## Well-formed policies -/

/-- The scope of the request has accepted it, and is open until the request has ended. -/
def Owns (p : AdmissionPolicy) (id : RequestId) (r : Request) : Prop :=
  ∃ s, p.scopes[id.scope]? = some s ∧ id.sequence ≤ s.highWater ∧
    (s.retired = true → r.state.isTerminal = true)

/-- What every reachable policy satisfies. -/
structure Wf (p : AdmissionPolicy) : Prop where
  valid : p.config.validate = .ok ()
  groups : ∀ gid : GroupId, gid ∈ p.groups ↔ gid ∈ p.config.groups
  scopes : ∀ (id : ScopeId) (s : Scope), p.scopes[id]? = some s →
    id.epoch = p.epoch ∧ id.serial ≤ p.nextSerial
  owner : ∀ (id : RequestId) (r : Request), p.requests[id]? = some r → p.Owns id r
  grouped : ∀ (id : RequestId) (r : Request), p.requests[id]? = some r → r.group ∈ p.groups
  terminals : ∀ id ∈ p.terminals, p.Fenced id ∧
    ∀ r, p.requests[id]? = some r → r.state.isTerminal = true
  uncertain : ∀ (gid : GroupId) (g : Group) (id : RequestId) (since : Nat),
    p.groups[gid]? = some g → g.uncertain[id]? = some since → p.ActiveIn gid id

namespace Wf

variable {p : AdmissionPolicy} {id : RequestId} {r : Request}
  (wf : p.Wf) (h : p.requests[id]? = some r)
include wf h

lemma fenced : p.Fenced id := by
  obtain ⟨s, hs, hle, _⟩ := wf.owner id r h
  exact Or.inr ⟨s, hs, hle⟩

lemma not_mem_terminals (hlive : r.state.isTerminal = false) : id ∉ p.terminals := by
  intro hmem
  have := (wf.terminals id hmem).2 r h
  rw [hlive] at this
  simp at this

lemma scope_of_live (hlive : r.state.isTerminal = false) :
    ∃ s, p.scope id.scope = .ok s ∧ id.sequence ≤ s.highWater := by
  obtain ⟨s, hs, hle, hretired⟩ := wf.owner id r h
  refine ⟨s, scope_ok_iff.mpr ⟨(wf.scopes _ _ hs).1, hs, ?_⟩, hle⟩
  cases hr : s.retired with
  | false => rfl
  | true =>
    have := hretired hr
    rw [hlive] at this
    simp at this

end Wf

/-! ## The frame of a quiet change -/

/-- What quiet changes leave alone: no grant is made, no fence is lifted, no group gets
sooner free. -/
structure Calm (p p' : AdmissionPolicy) : Prop where
  config : p'.config = p.config
  epoch : p'.epoch = p.epoch
  now : p.now ≤ p'.now
  scopes : ∀ (id : ScopeId) (s : Scope), p.scopes[id]? = some s →
    ∃ s', p'.scopes[id]? = some s' ∧ s'.root = s.root ∧
      s'.workloadClass = s.workloadClass ∧ s.highWater ≤ s'.highWater
  groups : ∀ gid : GroupId,
    Option.Rel (Group.Quieter (p.ActiveIn gid)) p.groups[gid]? p'.groups[gid]?
  active : ∀ (id : RequestId) (r' : Request), p'.requests[id]? = some r' →
    r'.state.isActive = true → ∃ r, p.requests[id]? = some r ∧ r.Marked r'
  queued : ∀ (id : RequestId) (r' : Request), p'.requests[id]? = some r' →
    r'.state.isQueued = true → (∃ r, p.requests[id]? = some r ∧ r.Marked r') ∨ ¬ p.Fenced id

namespace Calm

variable {p q r : AdmissionPolicy} {id : RequestId} {gid : GroupId}

lemma fenced (h : Calm p q) (hf : p.Fenced id) : q.Fenced id := by
  rcases hf with hf | ⟨s, hs, hle⟩
  · exact Or.inl (h.epoch ▸ hf)
  · obtain ⟨s', hs', _, _, hw⟩ := h.scopes _ s hs
    exact Or.inr ⟨s', hs', le_trans hle hw⟩

lemma groupAt (h : Calm p q) (gid : GroupId) :
    Group.Quieter (p.ActiveIn gid) (p.groupAt gid) (q.groupAt gid) := by
  have hrel := h.groups gid
  unfold AdmissionPolicy.groupAt
  generalize p.groups[gid]? = x, q.groups[gid]? = x' at hrel
  cases hrel with
  | none => exact .refl _ _
  | some hquieter => exact hquieter

lemma activeIn (h : Calm p q) (ha : q.ActiveIn gid id) : p.ActiveIn gid id := by
  obtain ⟨r', hr', hg, hs⟩ := ha
  obtain ⟨r, hr, hm⟩ := h.active id r' hr' hs
  exact ⟨r, hr, by rw [← hm.group]; exact hg, by rw [← hm.state.isActive_eq]; exact hs⟩

lemma refl (p : AdmissionPolicy) : Calm p p where
  config := rfl
  epoch := rfl
  now := le_refl _
  scopes := fun _ s hs => ⟨s, hs, rfl, rfl, le_refl _⟩
  groups := fun _ => rel_refl (.refl _) _
  active := fun _ r' hr' _ => ⟨r', hr', .refl r'⟩
  queued := fun _ r' hr' _ => Or.inl ⟨r', hr', .refl r'⟩

lemma quieter_trans (h : Calm p q) {g g' g'' : Group} (h₁ : Group.Quieter (p.ActiveIn gid) g g')
    (h₂ : Group.Quieter (q.ActiveIn gid) g' g'') : Group.Quieter (p.ActiveIn gid) g g'' where
  nextStart := h₂.nextStart.trans h₁.nextStart
  cooldown := le_trans h₁.cooldown h₂.cooldown
  unavailable := fun hu => h₂.unavailable (h₁.unavailable hu)
  interactiveStreak := h₂.interactiveStreak.trans h₁.interactiveStreak
  contestedPacingStreak := h₂.contestedPacingStreak.trans h₁.contestedPacingStreak
  lastRoot := h₂.lastRoot.trans h₁.lastRoot
  lastAgent := h₂.lastAgent.trans h₁.lastAgent
  orphans := h₂.orphans.trans h₁.orphans
  uncertain := fun id since hs => by
    rcases h₂.uncertain id since hs with hs | ha
    · exact h₁.uncertain id since hs
    · exact Or.inr (h.activeIn ha)

lemma trans (h₁ : Calm p q) (h₂ : Calm q r) : Calm p r where
  config := h₂.config.trans h₁.config
  epoch := h₂.epoch.trans h₁.epoch
  now := le_trans h₁.now h₂.now
  scopes := fun id s hs => by
    obtain ⟨s', hs', hr, hw, hle⟩ := h₁.scopes id s hs
    obtain ⟨s'', hs'', hr', hw', hle'⟩ := h₂.scopes id s' hs'
    exact ⟨s'', hs'', hr'.trans hr, hw'.trans hw, le_trans hle hle'⟩
  groups := fun gid =>
    rel_trans (h₁.groups gid) (h₂.groups gid) fun _ _ _ => h₁.quieter_trans
  active := fun id r'' hr'' ha => by
    obtain ⟨r', hr', hm'⟩ := h₂.active id r'' hr'' ha
    obtain ⟨r, hr, hm⟩ := h₁.active id r' hr' (by rw [← hm'.state.isActive_eq]; exact ha)
    exact ⟨r, hr, hm.trans hm'⟩
  queued := fun id r'' hr'' hq => by
    rcases h₂.queued id r'' hr'' hq with ⟨r', hr', hm'⟩ | hf
    · rcases h₁.queued id r' hr' (by rw [← hm'.state.isQueued_eq]; exact hq) with
        ⟨r, hr, hm⟩ | hf
      · exact Or.inl ⟨r, hr, hm.trans hm'⟩
      · exact Or.inr hf
    · exact Or.inr fun hfp => hf (h₁.fenced hfp)

end Calm

/-! ## Quiet changes are calm -/

lemma calm_finish (p : AdmissionPolicy) (id : RequestId) (outcome : TerminalOutcome)
    (feedback : Option Feedback) : Calm p (p.terminal id outcome feedback) where
  config := terminal_config
  epoch := terminal_epoch
  now := le_of_eq terminal_now.symm
  scopes := fun _ s hs => ⟨s, by rw [terminal_scopes]; exact hs, rfl, rfl, le_refl _⟩
  groups := fun gid => by
    cases hid : p.requests[id]? with
    | none =>
      rw [terminal_of_absent hid]
      exact (Calm.refl p).groups gid
    | some r =>
      rw [terminal_groups hid]
      exact rel_modify (.refl _) _ fun _ g =>
        { Group.Quieter.refl (p.ActiveIn gid) g with
          uncertain := fun _ _ ha => Or.inl (of_erase ha).2 }
  active := fun a r' hr' ha => by
    rcases terminal_lookup hr' with ⟨_, hstate, _⟩ | ⟨_, hr⟩
    · rw [hstate] at ha
      simp [RequestState.isActive] at ha
    · exact ⟨r', hr, .refl r'⟩
  queued := fun a r' hr' hq => by
    rcases terminal_lookup hr' with ⟨_, hstate, _⟩ | ⟨_, hr⟩
    · rw [hstate] at hq
      simp [RequestState.isQueued] at hq
    · exact Or.inl ⟨r', hr, .refl r'⟩

lemma Wf.fresh_serial (wf : p.Wf) : p.scopes[(⟨p.epoch, p.nextSerial + 1⟩ : ScopeId)]? = none := by
  cases h : p.scopes[(⟨p.epoch, p.nextSerial + 1⟩ : ScopeId)]? with
  | none => rfl
  | some s =>
    have := (wf.scopes _ _ h).2
    dsimp only at this
    omega

lemma not_fenced_of_fresh (known : p.scope scope = .ok s) (fresh : s.highWater < sequence) :
    ¬ p.Fenced ⟨scope, sequence⟩ := by
  obtain ⟨hepoch, hs, _⟩ := scope_ok_iff.mp known
  rintro (h | ⟨s', hs', hle⟩)
  · dsimp only at h
    omega
  dsimp only at hs' hle
  rw [hs] at hs'
  have : s = s' := by simpa using hs'
  subst this
  omega

lemma Quiet.calm (wf : p.Wf) (h : Quiet p p') : Calm p p' := by
  cases h with
  | clock later => exact { Calm.refl p with now := later }
  | finish id outcome feedback => exact calm_finish p id outcome feedback
  | mark same =>
    refine { Calm.refl p with active := ?_, queued := ?_ }
    · exact fun id _ hr' _ => exists_of_rel_right (same id) hr'
    · exact fun id _ hr' _ => Or.inl (exists_of_rel_right (same id) hr')
  | regroup same => exact { Calm.refl p with groups := same }
  | register root workload =>
    refine { Calm.refl p with scopes := ?_ }
    intro id s hs
    refine ⟨s, ?_, rfl, rfl, le_refl _⟩
    have hne : (⟨p.epoch, p.nextSerial + 1⟩ : ScopeId) ≠ id := by
      rintro rfl
      rw [wf.fresh_serial] at hs
      simp at hs
    rw [getElem?_insert_eq, if_neg hne]
    exact hs
  | retire scope idle =>
    refine { Calm.refl p with scopes := ?_ }
    intro id s hs
    rw [getElem?_modify_eq, hs]
    split
    · exact ⟨_, rfl, rfl, rfl, le_refl _⟩
    · exact ⟨s, rfl, rfl, rfl, le_refl _⟩
  | @enqueue scope s sequence group deadline known fresh grouped =>
    refine { Calm.refl p with scopes := ?_, active := ?_, queued := ?_ }
    · intro id s' hs'
      rw [getElem?_modify_eq, hs']
      split
      · rename_i heq
        subst heq
        obtain rfl := Option.some.inj ((scope_ok_iff.mp known).2.1.symm.trans hs')
        exact ⟨_, rfl, rfl, rfl, le_of_lt fresh⟩
      · exact ⟨s', rfl, rfl, rfl, le_refl _⟩
    · intro id r' hr' ha
      rcases of_insert hr' with ⟨_, rfl⟩ | ⟨_, hr⟩
      · cases ha
      · exact ⟨r', hr, .refl r'⟩
    · intro id r' hr' _
      rcases of_insert hr' with ⟨rfl, _⟩ | ⟨_, hr⟩
      · exact Or.inr (not_fenced_of_fresh known fresh)
      · exact Or.inl ⟨r', hr, .refl r'⟩

/-! ## Quiet changes keep a policy well-formed -/

lemma Wf.of_calm (wf : p.Wf) (hc : Calm p p')
    (hscopes : ∀ (id : ScopeId) (s : Scope), p'.scopes[id]? = some s →
      id.epoch = p'.epoch ∧ id.serial ≤ p'.nextSerial)
    (howned : ∀ (id : RequestId) (r : Request), p'.requests[id]? = some r →
      r.group ∈ p.groups ∧ p'.Owns id r)
    (hterminals : ∀ id ∈ p'.terminals, p'.Fenced id ∧
      ∀ r, p'.requests[id]? = some r → r.state.isTerminal = true)
    (hkept : ∀ (gid : GroupId) (g' : Group) (id : RequestId) (since : Nat),
      p'.groups[gid]? = some g' → g'.uncertain[id]? = some since → p.ActiveIn gid id →
        p'.ActiveIn gid id) : p'.Wf where
  valid := by rw [hc.config]; exact wf.valid
  groups := fun gid => by
    rw [mem_iff_of_rel (hc.groups gid), hc.config]
    exact wf.groups gid
  scopes := hscopes
  owner := fun id r hr => (howned id r hr).2
  grouped := fun id r hr => (mem_iff_of_rel (hc.groups r.group)).mpr (howned id r hr).1
  terminals := hterminals
  uncertain := fun gid g' id since hg' hs => by
    refine hkept gid g' id since hg' hs ?_
    obtain ⟨g, hg, hq⟩ := exists_of_rel_right (hc.groups gid) hg'
    rcases hq.uncertain id since hs with hs | ha
    · exact wf.uncertain gid g id since hg hs
    · exact ha

lemma Wf.owned (wf : p.Wf) (id : RequestId) (r : Request) (hr : p.requests[id]? = some r) :
    r.group ∈ p.groups ∧ p.Owns id r :=
  ⟨wf.grouped id r hr, wf.owner id r hr⟩

lemma Wf.finish (wf : p.Wf) (id : RequestId) (outcome : TerminalOutcome)
    (feedback : Option Feedback) : (p.terminal id outcome feedback).Wf := by
  refine wf.of_calm (calm_finish p id outcome feedback) ?_ ?_ ?_ ?_
  · intro a s hs
    rw [terminal_scopes] at hs
    rw [terminal_epoch, terminal_nextSerial]
    exact wf.scopes a s hs
  · intro a r' hr'
    rw [Owns, terminal_scopes]
    rcases terminal_lookup hr' with ⟨rfl, hstate, r, hr, hgroup⟩ | ⟨_, hr⟩
    · obtain ⟨hg, s, hs, hle, _⟩ := wf.owned a r hr
      exact ⟨by rw [hgroup]; exact hg, s, hs, hle, fun _ => by rw [hstate]; rfl⟩
    · exact wf.owned a r' hr
  · intro a ha
    rcases mem_terminals_terminal ha with hmem | ⟨rfl, r, hr⟩
    · refine ⟨(calm_finish p id outcome feedback).fenced (wf.terminals a hmem).1, ?_⟩
      intro r' hr'
      rcases terminal_lookup hr' with ⟨_, hstate, _⟩ | ⟨_, hr⟩
      · rw [hstate]; rfl
      · exact (wf.terminals a hmem).2 r' hr
    · refine ⟨(calm_finish p a outcome feedback).fenced (wf.fenced hr), ?_⟩
      intro r' hr'
      rcases terminal_lookup hr' with ⟨_, hstate, _⟩ | ⟨hne, _⟩
      · rw [hstate]; rfl
      · exact absurd rfl hne
  · -- the ended request has no lease left, and the others are not evicted
    rintro gid g' a since hg' hs ⟨r, hr, hgroup, hactive⟩
    have hne : a ≠ id := by
      rintro rfl
      rw [terminal_groups hr] at hg'
      obtain ⟨g, _, ⟨_, rfl⟩ | ⟨hne, _⟩⟩ := of_modify hg'
      · exact (of_erase hs).1 rfl
      · exact hne hgroup
    have hlive := wf.not_mem_terminals hr (RequestState.not_isTerminal_of_isActive hactive)
    exact ⟨r, terminal_keeps hne hlive hr, hgroup, hactive⟩

lemma Quiet.wf (wf : p.Wf) (h : Quiet p p') : p'.Wf := by
  have hc := h.calm wf
  cases h with
  | clock later =>
    exact wf.of_calm hc wf.scopes wf.owned wf.terminals fun _ _ _ _ _ _ ha => ha
  | finish id outcome feedback => exact wf.finish id outcome feedback
  | mark same =>
    refine wf.of_calm hc wf.scopes ?_ ?_ ?_
    · intro id r' hr'
      obtain ⟨r, hr, hm⟩ := exists_of_rel_right (same id) hr'
      obtain ⟨hg, s, hs, hle, hret⟩ := wf.owned id r hr
      exact ⟨by rw [hm.group]; exact hg, s, hs, hle,
        fun hs' => by rw [hm.state.isTerminal_eq]; exact hret hs'⟩
    · intro id hid
      refine ⟨(wf.terminals id hid).1, ?_⟩
      intro r' hr'
      obtain ⟨r, hr, hm⟩ := exists_of_rel_right (same id) hr'
      rw [hm.state.isTerminal_eq]
      exact (wf.terminals id hid).2 r hr
    · rintro gid g' id since _ _ ⟨r, hr, hgroup, hactive⟩
      obtain ⟨r', hr', hm⟩ := exists_of_rel_left (same id) hr
      exact ⟨r', hr', hm.group.trans hgroup, by rw [hm.state.isActive_eq]; exact hactive⟩
  | regroup same =>
    exact wf.of_calm hc wf.scopes wf.owned wf.terminals fun _ _ _ _ _ _ ha => ha
  | register root workload =>
    refine wf.of_calm hc ?_ ?_ ?_ fun _ _ _ _ _ _ ha => ha
    · intro id s hs
      rcases of_insert hs with ⟨rfl, _⟩ | ⟨_, hs⟩
      · exact ⟨rfl, le_refl _⟩
      · obtain ⟨hepoch, hle⟩ := wf.scopes id s hs
        exact ⟨hepoch, le_trans hle (Nat.le_succ _)⟩
    · intro id r hr
      obtain ⟨hg, s, hs, hle, hret⟩ := wf.owned id r hr
      have hne : (⟨p.epoch, p.nextSerial + 1⟩ : ScopeId) ≠ id.scope := by
        intro heq
        rw [← heq, wf.fresh_serial] at hs
        simp at hs
      refine ⟨hg, s, ?_, hle, hret⟩
      rw [getElem?_insert_eq, if_neg hne]
      exact hs
    · intro id hid
      exact ⟨hc.fenced (wf.terminals id hid).1, (wf.terminals id hid).2⟩
  | retire scope idle =>
    refine wf.of_calm hc ?_ ?_ ?_ fun _ _ _ _ _ _ ha => ha
    · intro id s hs
      obtain ⟨s₀, hold, _⟩ := of_modify hs
      exact wf.scopes id s₀ hold
    · intro id r hr
      obtain ⟨hg, s, hs, hle, hret⟩ := wf.owned id r hr
      rw [Owns, getElem?_modify_eq, hs]
      split
      · rename_i heq
        exact ⟨hg, _, rfl, hle, fun _ => idle id r hr heq.symm⟩
      · exact ⟨hg, s, rfl, hle, hret⟩
    · intro id hid
      exact ⟨hc.fenced (wf.terminals id hid).1, (wf.terminals id hid).2⟩
  | @enqueue scope s sequence group deadline known fresh grouped =>
    have hfresh := not_fenced_of_fresh known fresh
    refine wf.of_calm hc ?_ ?_ ?_ ?_
    · intro id s' hs'
      obtain ⟨s₀, hold, _⟩ := of_modify hs'
      exact wf.scopes id s₀ hold
    · intro id r hr
      rw [Owns, getElem?_modify_eq]
      obtain ⟨_, hs, hlive⟩ := scope_ok_iff.mp known
      rcases of_insert hr with ⟨rfl, rfl⟩ | ⟨_, hr⟩
      · rw [if_pos rfl, hs]
        exact ⟨grouped, _, rfl, le_refl _, fun hret => by cases hlive.symm.trans hret⟩
      obtain ⟨hg, s', hs', hle, hret⟩ := wf.owned id r hr
      rw [hs']
      split
      · rename_i heq
        obtain rfl := Option.some.inj (hs.symm.trans (heq ▸ hs'))
        exact ⟨hg, _, rfl, le_trans hle (le_of_lt fresh), hret⟩
      · exact ⟨hg, s', rfl, hle, hret⟩
    · intro id hid
      refine ⟨hc.fenced (wf.terminals id hid).1, ?_⟩
      intro r hr
      rcases of_insert hr with ⟨rfl, _⟩ | ⟨_, hr⟩
      · exact absurd (wf.terminals _ hid).1 hfresh
      · exact (wf.terminals id hid).2 r hr
    · rintro gid g' id since _ _ ⟨r, hr, hgroup, hactive⟩
      refine ⟨r, ?_, hgroup, hactive⟩
      have hne : (⟨scope, sequence⟩ : RequestId) ≠ id := by
        rintro rfl
        exact hfresh (wf.fenced hr)
      rw [getElem?_insert_eq, if_neg hne]
      exact hr

lemma Quiets.wf_calm (wf : p.Wf) (h : Quiets p p') : p'.Wf ∧ Calm p p' := by
  induction h with
  | refl => exact ⟨wf, .refl p⟩
  | tail _ hstep ih =>
    obtain ⟨wfq, hcq⟩ := ih
    exact ⟨hstep.wf wfq, hcq.trans (hstep.calm wfq)⟩

end AdmissionPolicy

end Quecto.Admission
