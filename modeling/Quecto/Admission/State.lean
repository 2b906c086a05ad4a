/-
  Admission/State.lean --- the state of `AdmissionPolicy` and the changes its
  operations are made of.

  Source: `domain/admission/services/inference_admission_policy.rs` (the
  records, `new`, `register`, `scope`, `terminal`, `request`) and
  `inference_admission_recovery.rs` (`lease_release`, `hold_of`), with the vocabulary of
  `domain/admission/value_objects/inference_admission.rs`.
-/
import Quecto.Foundation.OrdMap
import Quecto.Foundation.Word
import Mathlib.Data.String.Basic

namespace Quecto.Admission

open Foundation List OrdMap

/-! ## Identities -/

structure GroupId where
  value : String
  deriving Inhabited

instance : LinearOrder GroupId :=
  LinearOrder.lift' GroupId.value fun a b h => by cases a; cases b; simpa using h

structure ScopeId where
  epoch : Nat
  serial : Nat
  deriving Inhabited

instance : LinearOrder ScopeId :=
  LinearOrder.lift' (fun s : ScopeId => toLex (s.epoch, s.serial)) fun a b h => by
    cases a; cases b; simpa using h

structure RequestId where
  scope : ScopeId
  sequence : Nat
  deriving Inhabited

instance : LinearOrder RequestId :=
  LinearOrder.lift' (fun r : RequestId => toLex (r.scope, r.sequence)) fun a b h => by
    cases a; cases b; simpa using h

lemma RequestId.lt_iff {a b : RequestId} :
    a < b ↔ a.scope < b.scope ∨ (a.scope = b.scope ∧ a.sequence < b.sequence) := by
  show toLex (a.scope, a.sequence) < toLex (b.scope, b.sequence) ↔ _
  rw [Prod.Lex.toLex_lt_toLex]

inductive WorkloadClass where
  | interactive
  | background
  deriving DecidableEq, Inhabited

/-! ## Policy inputs -/

structure GroupPolicy where
  capacity : Nat
  reserve : Nat
  minIntervalMs : Nat
  queueCapacity : Nat
  queueTimeoutMs : Nat
  attemptTimeoutMs : Nat
  fallbackBaseMs : Nat
  maxCooldownMs : Nat
  deriving DecidableEq, Inhabited

structure AdmissionConfig where
  groups : OrdMap GroupId GroupPolicy
  aliases : OrdMap String GroupId
  maxScopes : Nat
  terminalCapacity : Nat

inductive AdmissionError where
  | invalidConfig
  | unknownGroup
  | unknownScope
  | staleEpoch
  | scopeLimit
  | unknownRequest
  | replay
  | conflict
  | queueFull
  | unavailable
  | timeRegression
  | busy
  | quarantined
  deriving DecidableEq, Inhabited

def AdmissionConfig.badAlias (c : AdmissionConfig) (name : String) (group : GroupId) : Bool :=
  name.isEmpty || decide (256 < name.utf8ByteSize) || !c.groups.contains group

def AdmissionConfig.badGroup (c : AdmissionConfig) (group : GroupId) (p : GroupPolicy) : Bool :=
  p.capacity == 0
    || decide (p.capacity ≤ p.reserve)
    || p.minIntervalMs == 0
    || p.queueCapacity == 0
    || p.queueTimeoutMs == 0
    || p.attemptTimeoutMs == 0
    || p.fallbackBaseMs == 0
    || decide (p.maxCooldownMs < p.fallbackBaseMs)
    || p.maxCooldownMs == 0
    || !(c.aliases.toList.any fun e => e.2 == group)

def AdmissionConfig.validate (c : AdmissionConfig) : Except AdmissionError Unit :=
  if c.groups.isEmpty
      || c.aliases.isEmpty
      || c.maxScopes == 0
      || c.terminalCapacity == 0
      || (c.aliases.toList.any fun e => c.badAlias e.1 e.2)
      || (c.groups.toList.any fun e => c.badGroup e.1 e.2) then
    .error .invalidConfig
  else .ok ()

variable {gid : GroupId}

namespace AdmissionConfig

variable {c : AdmissionConfig}

lemma validate_ok_iff : c.validate = .ok () ↔
      c.groups.isEmpty = false ∧ c.aliases.isEmpty = false ∧ c.maxScopes ≠ 0 ∧
        c.terminalCapacity ≠ 0 ∧ (∀ (name : String) (gid : GroupId), c.aliases[name]? = some gid →
          c.badAlias name gid = false) ∧
        (∀ (gid : GroupId) (p : GroupPolicy), c.groups[gid]? = some p →
          c.badGroup gid p = false) := by
  simp only [validate, ite_eq_right_iff, reduceCtorEq, imp_false, Bool.not_eq_true,
    Bool.or_eq_false_iff, beq_eq_false_iff_ne, any_eq_false, Prod.forall, mem_toList_iff, and_assoc,
    ne_eq]

lemma mem_groups_of_alias (h : c.validate = .ok ()) {name : String}
    (ha : c.aliases[name]? = some gid) : gid ∈ c.groups := by
  have hbad := (validate_ok_iff.mp h).2.2.2.2.1 name gid ha
  simp only [badAlias, Bool.or_eq_false_iff, Bool.not_eq_false'] at hbad
  exact Std.ExtTreeMap.contains_iff_mem.mp hbad.2

lemma group_bounds (h : c.validate = .ok ())
    {p : GroupPolicy} (hp : c.groups[gid]? = some p) :
    p.reserve < p.capacity ∧ 0 < p.minIntervalMs ∧ 0 < p.queueTimeoutMs ∧
      0 < p.attemptTimeoutMs ∧ 0 < p.fallbackBaseMs ∧ p.fallbackBaseMs ≤ p.maxCooldownMs := by
  have hbad := (validate_ok_iff.mp h).2.2.2.2.2 gid p hp
  simp only [badGroup, Bool.or_eq_false_iff, beq_eq_false_iff_ne, decide_eq_false_iff_not] at hbad
  omega

end AdmissionConfig

/-! ## Requests and feedback -/

inductive TerminalOutcome where
  | finished
  | cancelled
  | timedOut
  deriving DecidableEq, Inhabited

inductive RequestState where
  | queued (deadline : Nat)
  | active (started deadline : Nat) (cancellationRequired : Bool)
  | terminal (outcome : TerminalOutcome)
  deriving DecidableEq, Inhabited

namespace RequestState

def isQueued : RequestState → Bool
  | .queued _ => true
  | _ => false

def isActive : RequestState → Bool
  | .active _ _ _ => true
  | _ => false

def isTerminal : RequestState → Bool
  | .terminal _ => true
  | _ => false

end RequestState

inductive ThrottleFeedback where
  | noHint (jitter : Nat)
  | until (deadline : Nat)
  | unavailable
  deriving DecidableEq, Inhabited

inductive Feedback where
  | success
  | failure
  | throttle (delayMs : Nat)
  deriving DecidableEq, Inhabited

/-! ## Reports and the durable ledger -/

structure GroupSnapshot where
  active : Nat
  queued : Nat
  uncertain : Nat
  cooldownUntil : Nat
  unavailable : Bool
  observedAt : Nat
  deriving DecidableEq, Inhabited

structure AbandonReport where
  cancelled : Nat
  uncertain : Nat
  active : Nat
  deriving DecidableEq, Inhabited

/-- How long an uncertain lease still holds its group after the later of its
attempt's deadline and the loss of its owner. -/
def uncertainLeaseMarginMs : Nat := 60000

structure OutstandingAttempt where
  group : GroupId
  scope : Nat
  sequence : Nat
  /-- Milliseconds from the ledger's observation until the lease clears by
  itself; absent in a ledger written before leases were bounded. -/
  releaseRemainingMs : Option Nat
  deriving DecidableEq, Inhabited

structure UncertainHold where
  group : GroupId
  leases : Nat
  clearsInMs : Nat
  deriving DecidableEq, Inhabited

structure LedgerGroup where
  cooldownRemainingMs : Nat
  pacingRemainingMs : Nat
  unavailable : Bool
  deriving DecidableEq, Inhabited

structure AdmissionLedger where
  epoch : Nat
  outstanding : List OutstandingAttempt
  groups : OrdMap GroupId LedgerGroup

structure FallbackCooldown where
  base : Nat
  maximum : Nat
  nextUpper : Nat
  deriving DecidableEq, Inhabited

namespace FallbackCooldown

def new (base maximum : Nat) : Except AdmissionError FallbackCooldown :=
  if base = 0 ∨ maximum < base then .error .invalidConfig
  else .ok { base := base, maximum := maximum, nextUpper := base }

/-- Map the full injected sample range into the inclusive exponential window.
The product is taken at 128 bits in the source and shifted down by 64. -/
def throttle (c : FallbackCooldown) (jitter : Nat) : Nat × FallbackCooldown :=
  let upper := c.nextUpper
  let width := (upper - c.base) + 1
  let offset := jitter * width / 2 ^ 64
  (c.base + offset % 2 ^ 64, { c with nextUpper := min (saturatingMul upper 2) c.maximum })

def success (c : FallbackCooldown) : FallbackCooldown :=
  { c with nextUpper := c.base }

/-- What `new`, throttles and confirmed successes lead to, with the number of throttles
since the last success. -/
inductive Reached (base maximum : Nat) : Nat → FallbackCooldown → Prop
  | new {c} (h : FallbackCooldown.new base maximum = .ok c) :
      Reached base maximum 0 c
  | throttle {n jitter c} (h : Reached base maximum n c)
      (word : jitter ≤ u64Max) : Reached base maximum (n + 1) (c.throttle jitter).2
  | success {n c} (h : Reached base maximum n c) :
      Reached base maximum 0 c.success

lemma Reached.eq {base maximum n : Nat} {c : FallbackCooldown} (fits : maximum ≤ u64Max)
    (h : Reached base maximum n c) :
    (0 < base ∧ base ≤ maximum) ∧ c = ⟨base, maximum, min maximum (base * 2 ^ n)⟩ := by
  induction h with
  | new h =>
    unfold FallbackCooldown.new at h
    split at h
    · cases h
    cases h
    refine ⟨by omega, ?_⟩
    rw [Nat.pow_zero, Nat.mul_one, Nat.min_eq_right (by omega)]
  | throttle h word ih =>
    obtain ⟨hbase, rfl⟩ := ih
    refine ⟨hbase, ?_⟩
    simp only [FallbackCooldown.throttle, saturatingMul, Nat.pow_succ, ← Nat.mul_assoc, mk.injEq,
      true_and]
    omega
  | success h ih =>
    obtain ⟨hbase, rfl⟩ := ih
    refine ⟨hbase, ?_⟩
    rw [FallbackCooldown.success, Nat.pow_zero, Nat.mul_one, Nat.min_eq_right hbase.2]

lemma offset_lt {jitter width : Nat} (hj : jitter ≤ u64Max) (hwidth : 0 < width) :
    jitter * width / 2 ^ 64 < width := by
  refine Nat.div_lt_of_lt_mul (Nat.mul_lt_mul_of_pos_right ?_ hwidth)
  exact Nat.lt_of_le_of_lt hj (by decide)

/-- Every offset of a window no wider than the sample range has a sample: the least one
whose product reaches it. -/
lemma exists_jitter {offset width : Nat} (hoffset : offset < width) (hwidth : width ≤ 2 ^ 64) :
    ∃ jitter ≤ u64Max, jitter * width / 2 ^ 64 = offset := by
  have hpos : 0 < width := Nat.zero_lt_of_lt hoffset
  have hlow := Nat.div_add_mod (offset * 2 ^ 64 + (width - 1)) width
  have hmod := Nat.mod_lt (offset * 2 ^ 64 + (width - 1)) hpos
  rw [Nat.mul_comm width] at hlow
  refine ⟨(offset * 2 ^ 64 + (width - 1)) / width, ?_, ?_⟩
  · refine Nat.le_of_lt_succ (Nat.div_lt_of_lt_mul ?_)
    show _ < width * 2 ^ 64
    omega
  · refine Nat.div_eq_of_lt_le ?_ ?_ <;> omega

/-- **A throttle spreads its delays over the whole window.**  The bounds keep their order,
no step of the arithmetic leaves its type, and the delays rise with the sample through
exactly those from the base to the doubled bound. -/
theorem throttle_covers_window {base maximum n : Nat} {c : FallbackCooldown}
    (fits : maximum ≤ u64Max) (h : Reached base maximum n c) :
    (base ≤ c.nextUpper ∧ c.nextUpper ≤ maximum) ∧ (∀ jitter ≤ u64Max, c.base ≤ c.nextUpper ∧
      jitter * (c.nextUpper - c.base + 1) < 2 ^ 128 ∧
      jitter * (c.nextUpper - c.base + 1) / 2 ^ 64 ≤ u64Max ∧
      c.base + jitter * (c.nextUpper - c.base + 1) / 2 ^ 64 ≤ u64Max) ∧
    (∀ jitter ≤ u64Max, base ≤ (c.throttle jitter).1 ∧
      (c.throttle jitter).1 ≤ min maximum (base * 2 ^ n)) ∧
    (∀ jitter larger, jitter ≤ larger → larger ≤ u64Max →
      (c.throttle jitter).1 ≤ (c.throttle larger).1) ∧
    ∀ delay, base ≤ delay → delay ≤ min maximum (base * 2 ^ n) →
      ∃ jitter ≤ u64Max, (c.throttle jitter).1 = delay := by
  obtain ⟨⟨hpos, hle⟩, rfl⟩ := h.eq fits
  have hupper : base ≤ min maximum (base * 2 ^ n) :=
    Nat.le_min.mpr ⟨hle, Nat.le_mul_of_pos_right _ (Nat.two_pow_pos n)⟩
  have hmax := Nat.min_le_left maximum (base * 2 ^ n)
  generalize min maximum (base * 2 ^ n) = upper at hupper hmax ⊢
  have hu64 : u64Max = 2 ^ 64 - 1 := rfl
  have hword : ∀ jitter ≤ u64Max, jitter * (upper - base + 1) / 2 ^ 64 ≤ upper - base :=
    fun jitter hj => Nat.le_of_lt_succ (offset_lt hj (Nat.succ_pos _))
  have hdelay : ∀ jitter ≤ u64Max, ((⟨base, maximum, upper⟩ : FallbackCooldown).throttle jitter).1 =
      base + jitter * (upper - base + 1) / 2 ^ 64 := by
    intro jitter hj
    have hlt : upper - base < 2 ^ 64 := by omega
    exact congrArg (base + ·) (Nat.mod_eq_of_lt ((hword jitter hj).trans_lt hlt))
  refine ⟨⟨hupper, hmax⟩, fun jitter hj => ?_, fun jitter hj => ?_, fun jitter larger hle hl => ?_,
    fun delay hlow hhigh => ?_⟩
  · have := hword jitter hj
    dsimp only
    refine ⟨hupper, ?_, by omega, by omega⟩
    calc jitter * (upper - base + 1) ≤ u64Max * u64Max := Nat.mul_le_mul hj (by omega)
      _ < 2 ^ 128 := by decide
  · have := hword jitter hj
    rw [hdelay jitter hj]
    omega
  · rw [hdelay jitter (hle.trans hl), hdelay larger hl]
    exact Nat.add_le_add_left (Nat.div_le_div_right (Nat.mul_le_mul_right _ hle)) _
  · have hlt : delay - base < upper - base + 1 := by omega
    obtain ⟨jitter, hj, hoffset⟩ := exists_jitter hlt (by omega)
    refine ⟨jitter, hj, ?_⟩
    rw [hdelay jitter hj, hoffset]
    omega

/-- Two throttles of a group that doubles from ten to at most eighty. -/
theorem second_throttle_covers_window : ∃ c, Reached 10 80 1 c ∧
    ∀ delay, 10 ≤ delay → delay ≤ min 80 (10 * 2 ^ 1) →
      ∃ jitter ≤ u64Max, (c.throttle jitter).1 = delay := by
  have h : Reached 10 80 1 _ := .throttle (.new rfl) (Nat.zero_le _)
  exact ⟨_, h, (throttle_covers_window (by decide) h).2.2.2.2⟩

end FallbackCooldown

/-! ## Records -/

structure Scope where
  root : ScopeId
  workloadClass : WorkloadClass
  highWater : Nat
  retired : Bool
  deriving DecidableEq, Inhabited

structure Request where
  group : GroupId
  state : RequestState
  feedback : Option Feedback
  lastReport : Option (Nat × ThrottleFeedback)
  /-- The attempt's uncertain lease cleared by itself: a late completion is
  acknowledged without freeing anything a second time. -/
  leaseCleared : Bool
  held : Option (Nat × Nat)
  deriving DecidableEq, Inhabited

structure Orphan where
  attempt : OutstandingAttempt
  releaseAt : Nat
  deriving DecidableEq, Inhabited

def classIndex : WorkloadClass → Nat
  | .interactive => 0
  | .background => 1

structure Group where
  fallback : FallbackCooldown
  nextStart : Nat
  cooldown : Nat
  unavailable : Bool
  interactiveStreak : Nat
  contestedPacingStreak : Nat
  lastRoot : WorkloadClass → Option ScopeId
  lastAgent : OrdMap (Nat ×ₗ ScopeId) ScopeId
  uncertain : OrdMap RequestId Nat
  orphans : List Orphan
  deriving Inhabited

variable (g : Group)

def Group.lastAgentOf (workload : WorkloadClass) (root : ScopeId) : Option ScopeId :=
  g.lastAgent[toLex (classIndex workload, root)]?

structure AdmissionPolicy where
  config : AdmissionConfig
  epoch : Nat
  now : Nat
  nextSerial : Nat
  scopes : OrdMap ScopeId Scope
  requests : OrdMap RequestId Request
  terminals : List RequestId
  groups : OrdMap GroupId Group

/-! ## Changes of one record -/

def Request.waitElapsed (r : Request) (now : Nat) : Bool :=
  match r.state with
  | .queued deadline => decide (deadline ≤ now)
  | _ => false

def Request.flagOverdue (r : Request) (now : Nat) : Request :=
  match r.state with
  | .active started deadline required =>
      { r with state := .active started deadline (required || decide (deadline ≤ now)) }
  | _ => r

/-- The instant an uncertain lease clears: the margin for owner teardown runs
from the later of the attempt's `deadline` and the instant its owner was lost. -/
def leaseRelease (deadline since : Nat) : Nat :=
  saturatingAdd (max deadline since) uncertainLeaseMarginMs

def Request.requireCancellation (r : Request) : Request :=
  match r.state with
  | .active started deadline _ => { r with state := .active started deadline true }
  | _ => r

/-- Merge one accepted piece of receipt-anchored advice.  Every accepted
throttle advances the group-wide streak, hinted advice included; excessive
advice is never clamped into an earlier retry. -/
def Group.reported (maxCooldownMs : Nat) (feedback : ThrottleFeedback) (now : Nat) : Group :=
  let jitter :=
    match feedback with
    | .noHint jitter => jitter
    | _ => 0
  let throttled := g.fallback.throttle jitter
  let g := { g with fallback := throttled.2 }
  match feedback with
  | .noHint _ =>
      match checkedAdd now throttled.1 with
      | some deadline => { g with cooldown := max g.cooldown deadline }
      | none => { g with unavailable := true }
  | .until deadline =>
      if deadline - now ≤ maxCooldownMs then { g with cooldown := max g.cooldown deadline }
      else { g with unavailable := true }
  | .unavailable => { g with unavailable := true }

/-- What a completion tells its group.  Completion-only throttles count once: a
receipt already reported is not counted a second time. -/
def Group.completed (maxCooldownMs : Nat) (receiptReported : Bool)
    (feedback : Feedback) (now : Nat) : Group :=
  match feedback with
  | .success => { g with fallback := g.fallback.success }
  | .failure => g
  | .throttle delayMs =>
      let g := if receiptReported then g else { g with fallback := (g.fallback.throttle 0).2 }
      match checkedAdd now delayMs with
      | some deadline =>
          if delayMs ≤ maxCooldownMs then { g with cooldown := max g.cooldown deadline }
          else { g with unavailable := true }
      | none => { g with unavailable := true }

/-- Advice touches the fallback, the cooldown and the availability of a group: the cooldown
only moves later, and an unavailable group stays so. -/
def Group.Advised (g g' : Group) : Prop :=
  ∃ fallback cooldown unavailable,
    g' = { g with fallback := fallback, cooldown := cooldown, unavailable := unavailable } ∧
      g.cooldown ≤ cooldown ∧ (g.unavailable = true → unavailable = true)

lemma Group.advised_reported (maxCooldownMs : Nat) (feedback : ThrottleFeedback) (now : Nat) :
    g.Advised (g.reported maxCooldownMs feedback now) := by
  unfold Group.reported
  cases feedback with
  | noHint _ | «until» _ =>
    dsimp only
    split
    · exact ⟨_, _, _, rfl, le_max_left _ _, id⟩
    · exact ⟨_, _, _, rfl, le_refl _, fun _ => rfl⟩
  | unavailable => exact ⟨_, _, _, rfl, le_refl _, fun _ => rfl⟩

lemma Group.advised_completed (maxCooldownMs : Nat) (receiptReported : Bool) (feedback : Feedback)
    (now : Nat) : g.Advised (g.completed maxCooldownMs receiptReported feedback now) := by
  unfold Group.completed
  cases feedback with
  | success | failure => exact ⟨_, _, _, rfl, le_refl _, id⟩
  | throttle delayMs =>
    cases receiptReported <;> dsimp only <;> split <;> (try split) <;>
      first
        | exact ⟨_, _, _, rfl, le_max_left _ _, id⟩
        | exact ⟨_, _, _, rfl, le_refl _, fun _ => rfl⟩

lemma Group.Advised.kept {g g' : Group} (h : g.Advised g') :
    g'.orphans = g.orphans ∧ g'.uncertain = g.uncertain := by
  obtain ⟨_, _, _, rfl, _⟩ := h
  exact ⟨rfl, rfl⟩

/-- What a grant leaves on its group: the pacing charge, the two round-robin
cursors and the two streaks.  Reserve grants do not spend shared-slot turns, but
cannot monopolize every paced start while background is eligible.  The streaks
saturate at three. -/
def Group.granted (workload : WorkloadClass) (root agent : ScopeId)
    (nextStart : Nat) (contested usesShared : Bool) : Group :=
  let streak (before : Nat) : Nat :=
    match workload with
    | .interactive => min (before + 1) 3
    | .background => 0
  { g with
    nextStart := nextStart
    lastRoot := Function.update g.lastRoot workload (some root)
    lastAgent := g.lastAgent.insert (toLex (classIndex workload, root)) agent
    contestedPacingStreak :=
      if usesShared then 0
      else if contested then streak g.contestedPacingStreak else g.contestedPacingStreak
    interactiveStreak := if usesShared then streak g.interactiveStreak else g.interactiveStreak }

section

variable (g : Group) (workload : WorkloadClass) (root agent : ScopeId) (nextStart : Nat)
  (contested usesShared : Bool)

@[simp] lemma Group.granted_nextStart :
    (g.granted workload root agent nextStart contested usesShared).nextStart = nextStart := rfl

@[simp] lemma Group.granted_uncertain :
    (g.granted workload root agent nextStart contested usesShared).uncertain = g.uncertain := rfl

@[simp] lemma Group.granted_orphans :
    (g.granted workload root agent nextStart contested usesShared).orphans = g.orphans := rfl

@[simp] lemma Group.granted_lastRoot :
    (g.granted workload root agent nextStart contested usesShared).lastRoot =
      Function.update g.lastRoot workload (some root) := rfl

@[simp] lemma Group.granted_lastAgent :
    (g.granted workload root agent nextStart contested usesShared).lastAgent =
      g.lastAgent.insert (toLex (classIndex workload, root)) agent := rfl

end

def Group.relinquished : Group :=
  { g with
    uncertain := ∅
    orphans := []
    unavailable := false
    interactiveStreak := 0
    contestedPacingStreak := 0
    lastRoot := fun _ => none
    lastAgent := ∅ }

/-! ## Construction -/

def Group.new (policy : GroupPolicy) : Except AdmissionError Group :=
  match FallbackCooldown.new policy.fallbackBaseMs policy.maxCooldownMs with
  | .error e => .error e
  | .ok fallback =>
      .ok { fallback := fallback, nextStart := 0, cooldown := 0, unavailable := false,
            interactiveStreak := 0, contestedPacingStreak := 0,
            lastRoot := fun _ => none, lastAgent := ∅, uncertain := ∅, orphans := [] }

def newGroups : List (GroupId × GroupPolicy) → Except AdmissionError (OrdMap GroupId Group)
  | [] => .ok ∅
  | (id, policy) :: rest =>
      match Group.new policy with
      | .error e => .error e
      | .ok group =>
          match newGroups rest with
          | .error e => .error e
          | .ok groups => .ok (groups.insert id group)

variable {l : List (GroupId × GroupPolicy)} {m : OrdMap GroupId Group} {g : Group}

lemma newGroups_cons {e : GroupId × GroupPolicy} (h : newGroups (e :: l) = .ok m) :
    ∃ group groups, Group.new e.2 = .ok group ∧ newGroups l = .ok groups ∧
      groups.insert e.1 group = m := by
  unfold newGroups at h
  split at h
  · cases h
  rename_i group hgroup
  split at h
  · cases h
  · rename_i groups hgroups
    exact ⟨group, groups, hgroup, hgroups, Except.ok.inj h⟩

lemma mem_newGroups (h : newGroups l = .ok m) (gid : GroupId) :
    gid ∈ m ↔ ∃ policy, (gid, policy) ∈ l := by
  induction l generalizing m with
  | nil =>
    obtain rfl : ∅ = m := Except.ok.inj h
    simp
  | cons e l ih =>
    obtain ⟨group, groups, _, hgroups, rfl⟩ := newGroups_cons h
    rw [Std.ExtTreeMap.mem_insert, compare_eq_iff_eq, ih hgroups]
    constructor
    · rintro (rfl | ⟨policy', hmem⟩)
      · exact ⟨e.2, mem_cons_self⟩
      · exact ⟨policy', mem_cons_of_mem _ hmem⟩
    rintro ⟨policy', hmem⟩
    rcases mem_cons.mp hmem with heq | hmem
    · exact Or.inl (congrArg Prod.fst heq).symm
    · exact Or.inr ⟨policy', hmem⟩

lemma newGroups_lookup (h : newGroups l = .ok m) (hg : m[gid]? = some g) :
    ∃ policy, Group.new policy = .ok g := by
  induction l generalizing m with
  | nil =>
    obtain rfl : ∅ = m := Except.ok.inj h
    simp at hg
  | cons e l ih =>
    obtain ⟨group, groups, hgroup, hgroups, rfl⟩ := newGroups_cons h
    rcases of_insert hg with ⟨_, rfl⟩ | ⟨_, hg⟩
    · exact ⟨e.2, hgroup⟩
    · exact ih hgroups hg

structure Group.Fresh (g : Group) : Prop where
  nextStart : g.nextStart = 0
  cooldown : g.cooldown = 0
  unavailable : g.unavailable = false
  uncertain : g.uncertain = ∅
  orphans : g.orphans = []

lemma Group.fresh_of_new {policy : GroupPolicy} (h : Group.new policy = .ok g) : g.Fresh := by
  unfold Group.new at h
  split at h
  · simp at h
  · rw [← Except.ok.inj h]
    exact ⟨rfl, rfl, rfl, rfl, rfl⟩

namespace AdmissionPolicy

def new (epoch : Nat) (config : AdmissionConfig) : Except AdmissionError AdmissionPolicy :=
  match config.validate with
  | .error e => .error e
  | .ok _ =>
      match newGroups config.groups.toList with
      | .error e => .error e
      | .ok groups =>
          .ok { config := config, epoch := epoch, now := 0, nextSerial := 0, scopes := ∅,
                requests := ∅, terminals := [], groups := groups }

/-! ## Lookups -/

def policyAt (p : AdmissionPolicy) (id : GroupId) : GroupPolicy :=
  (p.config.groups[id]?).getD default

def groupAt (p : AdmissionPolicy) (id : GroupId) : Group :=
  (p.groups[id]?).getD default

def classAt (p : AdmissionPolicy) (id : ScopeId) : WorkloadClass :=
  (p.scopes[id]?).elim .interactive (·.workloadClass)

def rootAt (p : AdmissionPolicy) (id : ScopeId) : ScopeId :=
  (p.scopes[id]?).elim id (·.root)

variable {p p' : AdmissionPolicy}

lemma classAt_congr (h : p'.scopes = p.scopes) (id : ScopeId) : p'.classAt id = p.classAt id := by
  rw [classAt, classAt, h]

lemma rootAt_congr (h : p'.scopes = p.scopes) (id : ScopeId) : p'.rootAt id = p.rootAt id := by
  rw [rootAt, rootAt, h]

def scope (p : AdmissionPolicy) (id : ScopeId) : Except AdmissionError Scope :=
  if id.epoch ≠ p.epoch then .error .staleEpoch
  else
    match p.scopes[id]? with
    | some s => if s.retired then .error .unknownScope else .ok s
    | none => .error .unknownScope

def request (p : AdmissionPolicy) (scope : ScopeId) (sequence : Nat) :
    Except AdmissionError Request :=
  match p.scope scope with
  | .error e => .error e
  | .ok identity =>
      match p.requests[(⟨scope, sequence⟩ : RequestId)]? with
      | some r => .ok r
      | none => .error (if sequence ≤ identity.highWater then .replay else .unknownRequest)

/-! ## Elementary changes -/

def withGroup (p : AdmissionPolicy) (id : GroupId) (f : Group → Group) : AdmissionPolicy :=
  { p with groups := p.groups.modify id f }

def withRequest (p : AdmissionPolicy) (id : RequestId) (f : Request → Request) : AdmissionPolicy :=
  { p with requests := p.requests.modify id f }

lemma withGroup_groups (p : AdmissionPolicy) (id a : GroupId) (f : Group → Group) :
    (p.withGroup id f).groups[a]? = if id = a then p.groups[a]?.map f else p.groups[a]? :=
  getElem?_modify_eq _ _ _ _

lemma withRequest_requests (p : AdmissionPolicy) (id a : RequestId) (f : Request → Request) :
    (p.withRequest id f).requests[a]? = if id = a then p.requests[a]?.map f else p.requests[a]? :=
  getElem?_modify_eq _ _ _ _

def markUnavailable (p : AdmissionPolicy) (id : GroupId) : AdmissionPolicy :=
  p.withGroup id fun g => { g with unavailable := true }

def evict (capacity : Nat) :
    List RequestId → OrdMap RequestId Request → List RequestId × OrdMap RequestId Request
  | [], requests => ([], requests)
  | old :: rest, requests =>
      if capacity < (old :: rest).length then evict capacity rest (requests.erase old)
      else (old :: rest, requests)

/-- A terminal transition: the record stays for replies, an uncertain lease on
it is settled, and the oldest terminal records beyond the capacity go. -/
def terminal (p : AdmissionPolicy) (id : RequestId) (outcome : TerminalOutcome)
    (feedback : Option Feedback) : AdmissionPolicy :=
  match p.requests[id]? with
  | none => p
  | some request =>
      let ended := { request with state := .terminal outcome, feedback := feedback }
      let kept := evict p.config.terminalCapacity (p.terminals ++ [id])
        (p.requests.insert id ended)
      { p with
        requests := kept.2
        terminals := kept.1
        groups := p.groups.modify request.group fun g =>
          { g with uncertain := g.uncertain.erase id } }

/-! ## What a terminal transition leaves -/

lemma evict_spec (capacity : Nat) (l : List RequestId) (m : OrdMap RequestId Request) :
    ∃ popped, l = popped ++ (evict capacity l m).1 ∧
      (evict capacity l m).2 = popped.foldl (fun m k => m.erase k) m := by
  induction l generalizing m with
  | nil => exact ⟨[], rfl, rfl⟩
  | cons old rest ih =>
    unfold evict
    split
    · obtain ⟨popped, hl, hm⟩ := ih (m.erase old)
      refine ⟨old :: popped, ?_, ?_⟩
      · rw [cons_append, ← hl]
      · rw [foldl_cons, ← hm]
    · exact ⟨[], rfl, rfl⟩

section

variable {p : AdmissionPolicy} {id : RequestId} {outcome : TerminalOutcome}
  {feedback : Option Feedback}

@[simp] lemma terminal_config : (p.terminal id outcome feedback).config = p.config := by
  unfold terminal; split <;> rfl

@[simp] lemma terminal_epoch : (p.terminal id outcome feedback).epoch = p.epoch := by
  unfold terminal; split <;> rfl

@[simp] lemma terminal_now : (p.terminal id outcome feedback).now = p.now := by
  unfold terminal; split <;> rfl

@[simp] lemma terminal_nextSerial : (p.terminal id outcome feedback).nextSerial = p.nextSerial := by
  unfold terminal; split <;> rfl

@[simp] lemma terminal_scopes : (p.terminal id outcome feedback).scopes = p.scopes := by
  unfold terminal; split <;> rfl

variable {a : RequestId} {r : Request}

lemma terminal_of_absent (h : p.requests[id]? = none) : p.terminal id outcome feedback = p := by
  unfold terminal
  rw [h]

lemma terminal_evicts (hr : p.requests[id]? = some r) :
    ∃ popped, p.terminals ++ [id] = popped ++ (p.terminal id outcome feedback).terminals ∧
      ∀ a : RequestId, (p.terminal id outcome feedback).requests[a]? =
        if a ∈ popped then none
        else (p.requests.insert id
          { r with state := .terminal outcome, feedback := feedback })[a]? := by
  obtain ⟨popped, hl, hm⟩ := evict_spec p.config.terminalCapacity (p.terminals ++ [id])
    (p.requests.insert id { r with state := .terminal outcome, feedback := feedback })
  unfold terminal
  rw [hr]
  refine ⟨popped, hl, fun a => ?_⟩
  dsimp only
  rw [hm, getElem?_foldl_erase]

lemma terminal_lookup {r' : Request} (h : (p.terminal id outcome feedback).requests[a]? = some r') :
    (a = id ∧ r'.state = .terminal outcome ∧ ∃ r, p.requests[id]? = some r ∧ r'.group = r.group) ∨
      (a ≠ id ∧ p.requests[a]? = some r') := by
  cases hr : p.requests[id]? with
  | none =>
    rw [terminal_of_absent hr] at h
    refine Or.inr ⟨?_, h⟩
    rintro rfl
    cases hr.symm.trans h
  | some r =>
    obtain ⟨popped, _, hlookup⟩ := terminal_evicts hr
    rw [hlookup] at h
    split at h
    · cases h
    rcases of_insert h with ⟨rfl, rfl⟩ | ⟨hne, h⟩
    · exact Or.inl ⟨rfl, rfl, r, rfl, rfl⟩
    · exact Or.inr ⟨hne.symm, h⟩

lemma terminal_keeps (hne : a ≠ id) (hlive : a ∉ p.terminals) (h : p.requests[a]? = some r) :
    (p.terminal id outcome feedback).requests[a]? = some r := by
  cases hr : p.requests[id]? with
  | none =>
    rw [terminal_of_absent hr]
    exact h
  | some r₀ =>
    obtain ⟨popped, hl, hlookup⟩ := terminal_evicts hr
    have hnot : a ∉ popped := by
      intro hmem
      have hin : a ∈ p.terminals ++ [id] := hl ▸ mem_append_left _ hmem
      simp [hlive, hne] at hin
    rw [hlookup, if_neg hnot, getElem?_insert_eq, if_neg hne.symm]
    exact h

lemma mem_terminals_terminal (h : a ∈ (p.terminal id outcome feedback).terminals) :
    a ∈ p.terminals ∨ (a = id ∧ ∃ r, p.requests[id]? = some r) := by
  cases hr : p.requests[id]? with
  | none =>
    rw [terminal_of_absent hr] at h
    exact Or.inl h
  | some r =>
    obtain ⟨popped, hl, _⟩ := terminal_evicts hr
    have hin : a ∈ p.terminals ++ [id] := hl ▸ mem_append_right _ h
    simpa using hin

lemma terminal_groups (h : p.requests[id]? = some r) : (p.terminal id outcome feedback).groups =
      p.groups.modify r.group fun g => { g with uncertain := g.uncertain.erase id } := by
  unfold terminal
  rw [h]

end

/-! ## Leases -/

def leaseEnd (p : AdmissionPolicy) (id : RequestId) (since : Nat) : Option Nat :=
  match (p.requests[id]?).map Request.state with
  | some (.active _ deadline _) => some (leaseRelease deadline since)
  | _ => none

def holdOf (p : AdmissionPolicy) (group : GroupId) : Option (Nat × Nat) :=
  let held := p.groupAt group
  let uncertain := held.uncertain.toList.filterMap fun e => p.leaseEnd e.1 e.2
  let orphans := held.orphans.map (·.releaseAt)
  match (uncertain ++ orphans).max? with
  | none => none
  | some clearsAt => some (held.uncertain.size + held.orphans.length, clearsAt)

end AdmissionPolicy

end Quecto.Admission
