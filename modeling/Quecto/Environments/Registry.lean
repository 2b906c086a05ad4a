/-
  Environments/Registry.lean --- the session's registry of environments.

  Source: `domain/environments/entities/environment_registry.rs`,
  `environment_registry_removal.rs`, `environment_registry_inspect.rs` and
  `environment_registry/claim_condition.rs`.
-/
import Quecto.Foundation.OrdMap
import Mathlib.Data.String.Basic

namespace Quecto.Environments

open Foundation OrdMap

/-! ## Statuses and errors -/

inductive EnvironmentStatus where
  | running
  | killing
  | stopped
  | cleanupFailed
  | retained
  deriving DecidableEq

inductive EnvironmentOrigin where
  | created
  | restored
  deriving DecidableEq

inductive EnvironmentLookupError where
  | unknown (target : String)
  | ambiguous (target : String)
  | stopped (target : String)
  | stale (target : String)
  | unreadable (error : String)
  deriving DecidableEq

/-! ## Metadata -/

inductive MetadataField (ν : Type) where
  | bool (value : Bool)
  | string (value : String)
  | other (value : ν)
  deriving DecidableEq

inductive Metadata (ν : Type) where
  | null
  | object (fields : OrdMap String (MetadataField ν))
  | other (value : ν)

def retainedKey : String := "retained"

def removalPendingKey : String := "removal_pending"

def goneAtRestore : String := "container not found at restore: the runtime reports it gone"

namespace Metadata

variable {ν : Type}

def get (metadata : Metadata ν) (key : String) : Option (MetadataField ν) :=
  match metadata with
  | .object fields => fields[key]?
  | .null | .other _ => none

def set (metadata : Metadata ν) (key : String) (value : MetadataField ν) : Metadata ν :=
  match metadata with
  | .object fields => .object (fields.insert key value)
  | .null | .other _ => .object ((∅ : OrdMap String (MetadataField ν)).insert key value)

def remove (metadata : Metadata ν) (key : String) : Metadata ν :=
  match metadata with
  | .object fields => .object (fields.erase key)
  | .null => .null
  | .other value => .other value

def merged (fields above : OrdMap String (MetadataField ν)) : OrdMap String (MetadataField ν) :=
  above.toList.foldl (fun fields (key, value) => fields.insert key value) fields

def merge (base above : Metadata ν) : Metadata ν :=
  match base, above with
  | .object fields, .object above => .object (merged fields above)
  | base, .null => base
  | _, above => above

def inspected (metadata incoming : Metadata ν) : Metadata ν :=
  match metadata, incoming with
  | .object fields, .object above => .object (merged fields above)
  | _, incoming => incoming

end Metadata

/-! ## Records -/

structure EnvironmentRecord (ν : Type) where
  environmentRef : String
  members : List String
  status : EnvironmentStatus
  metadata : Metadata ν
  lastError : Option String
  origin : EnvironmentOrigin
  createdBy : String

namespace EnvironmentRecord

variable {ν : Type} (record : EnvironmentRecord ν)

def retainWith (reason : String) : EnvironmentRecord ν :=
  { record with
    status := .retained
    members := []
    metadata := record.metadata.set retainedKey (.string reason) }

def relabelledWhileRetained : Bool :=
  record.status = .stopped &&
    (match record.metadata.get retainedKey with
      | some (.string _) => true
      | _ => false) &&
    record.lastError = some goneAtRestore

def isPlainStopped : Bool :=
  record.status = .stopped && !record.relabelledWhileRetained

def removalPending : Bool :=
  record.status = .cleanupFailed &&
    match record.metadata.get removalPendingKey with
    | some (.bool true) => true
    | _ => false

def removable : Bool :=
  record.isPlainStopped || record.removalPending

def clearRemovalPending : EnvironmentRecord ν :=
  { record with metadata := record.metadata.remove removalPendingKey }

lemma status_of_removable {record : EnvironmentRecord ν} (h : record.removable = true) :
    record.status ≠ .killing := by
  intro hkilling
  simp [removable, isPlainStopped, removalPending, hkilling] at h

end EnvironmentRecord

/-! ## Conditions of a claim -/

def maxCreatorKeyBytes : Nat := 256

def isAsciiGraphic (byte : UInt8) : Bool := 0x21 ≤ byte && byte ≤ 0x7e

structure CreatorKey where
  key : String
  length_admitted : 1 ≤ key.utf8ByteSize ∧ key.utf8ByteSize ≤ maxCreatorKeyBytes
  shape_admitted : key.toUTF8.data.all isAsciiGraphic = true
  deriving DecidableEq

inductive ClaimCondition where
  | any
  | createdBy (key : CreatorKey)
  deriving DecidableEq

structure CreatorMismatch where
  environmentRef : String
  expected : String
  createdBy : String
  deriving DecidableEq

inductive ClaimRefusal where
  | lookup (error : EnvironmentLookupError)
  | createdByOther (mismatch : CreatorMismatch)
  deriving DecidableEq

variable {condition : ClaimCondition}

namespace ClaimCondition

def judgeCreator (condition : ClaimCondition) (environmentRef createdBy : String) :
    Except CreatorMismatch Unit :=
  match condition with
  | .any => .ok ()
  | .createdBy key =>
      if createdBy = key.key then .ok ()
      else .error ⟨environmentRef, key.key, createdBy⟩

def judge {ν : Type} (condition : ClaimCondition) (record : EnvironmentRecord ν) :
    Except CreatorMismatch Unit :=
  condition.judgeCreator record.environmentRef record.createdBy

def admits {ν : Type} (condition : ClaimCondition) (record : EnvironmentRecord ν) : Bool :=
  match condition.judge record with
  | .ok _ => true
  | .error _ => false

lemma judge_of_admits {ν : Type} {record : EnvironmentRecord ν}
    (h : condition.admits record = true) : condition.judge record = .ok () := by
  unfold admits at h
  split at h
  · assumption
  · cases h

end ClaimCondition

structure KillClaim where
  environmentRef : String
  deriving DecidableEq

structure RemovalClaim where
  claim : KillClaim
  claimedFrom : EnvironmentStatus
  deriving DecidableEq

structure InspectClaim where
  environmentRef : String
  deriving DecidableEq

inductive JournalWrite (ν : Type) where
  | written
  | superseded (current : EnvironmentStatus) (metadata : Metadata ν)
  | unavailable

structure EnvironmentRegistryState (ν : Type) where
  entries : OrdMap String (EnvironmentRecord ν)
  inspectClaims : Finset (String × String)
  inspectFailures : Finset String
  journalled : OrdMap String EnvironmentStatus
  killClaims : Finset String

namespace EnvironmentRegistryState

variable {ν : Type}

def fresh : EnvironmentRegistryState ν := ⟨∅, ∅, ∅, ∅, ∅⟩

variable (state : EnvironmentRegistryState ν)

def statusOf (ref : String) : Option EnvironmentStatus :=
  state.entries[ref]?.map (·.status)

def modify (state : EnvironmentRegistryState ν) (ref : String)
    (f : EnvironmentRecord ν → EnvironmentRecord ν) : EnvironmentRegistryState ν :=
  { state with entries := state.entries.modify ref f }

def commit (record : EnvironmentRecord ν) : EnvironmentRegistryState ν :=
  { state with entries := state.entries.insert record.environmentRef record }

def seed (record : EnvironmentRecord ν) : EnvironmentRegistryState ν :=
  { state with
    journalled := state.journalled.insert record.environmentRef record.status
    entries := state.entries.insert record.environmentRef
      { record with origin := .restored, members := [] } }

def restore (records : List (EnvironmentRecord ν)) : EnvironmentRegistryState ν :=
  records.foldl seed state

def claimed (ref : String)
    (f : EnvironmentRecord ν → EnvironmentRecord ν) : EnvironmentRegistryState ν :=
  { state.modify ref (fun record => { f record with status := .killing }) with
    killClaims := insert ref state.killClaims }

/-! ## Members -/

def addMember (ref agent : String) :
    Except EnvironmentLookupError Unit × EnvironmentRegistryState ν :=
  match state.entries[ref]? with
  | none => (.error (.unknown ref), state)
  | some record =>
      match record.status with
      | .running | .retained =>
          (.ok (), state.modify ref fun record =>
            if record.members.contains agent then record
            else { record with members := record.members ++ [agent] })
      | .stopped => (.error (.stopped record.environmentRef), state)
      | .killing | .cleanupFailed => (.error (.stale record.environmentRef), state)

def endsEmpty (record : EnvironmentRecord ν) : Bool :=
  record.members.isEmpty && record.status = .running && record.origin = .created

def without (agent : String) (record : EnvironmentRecord ν) : EnvironmentRecord ν :=
  { record with members := record.members.filter (· != agent) }

def removeMember (ref agent : String) :
    Except EnvironmentLookupError (Option KillClaim) × EnvironmentRegistryState ν :=
  match state.entries[ref]? with
  | none => (.error (.unknown ref), state)
  | some record =>
      let state := state.modify ref (without agent)
      if endsEmpty (without agent record) then (.ok (some ⟨ref⟩), state.claimed ref id)
      else (.ok none, state)

/-! ## Claims -/

def admittedLocked (ref : String) (condition : ClaimCondition) : Except ClaimRefusal Unit :=
  match state.entries[ref]? with
  | none => .error (.lookup (.unknown ref))
  | some record => (condition.judge record).mapError .createdByOther

/-- Whether a kill claims a record: a restored one that is killing holds another
session's claim, which this registry cannot see settle. -/
def claimable (record : EnvironmentRecord ν) : Bool :=
  match record.status with
  | .running | .cleanupFailed | .retained => true
  | .killing => record.origin = .restored
  | .stopped => false

def claimKillLocked (ref : String) :
    Except EnvironmentLookupError KillClaim × EnvironmentRegistryState ν :=
  match state.entries[ref]? with
  | none => (.error (.unknown ref), state)
  | some record =>
      if claimable record then (.ok ⟨record.environmentRef⟩, state.claimed ref id)
      else
        match record.status with
        | .stopped => (.error (.stopped record.environmentRef), state)
        | .killing | .running | .cleanupFailed | .retained =>
            (.error (.stale record.environmentRef), state)

def claimRemovalLocked (ref : String) :
    Except EnvironmentLookupError RemovalClaim × EnvironmentRegistryState ν :=
  match state.entries[ref]? with
  | none => (.error (.unknown ref), state)
  | some record =>
      if record.removable then
        (.ok ⟨⟨record.environmentRef⟩, record.status⟩, state.claimed ref fun record =>
            if record.isPlainStopped then record.clearRemovalPending else record)
      else (.error (.stale record.environmentRef), state)

def claimIf {κ : Type} (state : EnvironmentRegistryState ν) (ref : String)
    (condition : ClaimCondition)
    (claim : EnvironmentRegistryState ν → String →
      Except EnvironmentLookupError κ × EnvironmentRegistryState ν) :
    Except ClaimRefusal κ × EnvironmentRegistryState ν :=
  match state.admittedLocked ref condition with
  | .error refusal => (.error refusal, state)
  | .ok _ => ((claim state ref).1.mapError .lookup, (claim state ref).2)

def beginKillIf (ref : String) (condition : ClaimCondition) :
    Except ClaimRefusal KillClaim × EnvironmentRegistryState ν :=
  state.claimIf ref condition claimKillLocked

def beginRemovalIf (ref : String) (condition : ClaimCondition) :
    Except ClaimRefusal RemovalClaim × EnvironmentRegistryState ν :=
  state.claimIf ref condition claimRemovalLocked

/-! ## Settling a claim -/

def settled (ref : String)
    (f : EnvironmentRecord ν → EnvironmentRecord ν) : EnvironmentRegistryState ν :=
  { state.modify ref f with killClaims := state.killClaims.erase ref }

def completeKill (claim : KillClaim) : EnvironmentRegistryState ν :=
  let keepError := decide (claim.environmentRef ∈ state.inspectFailures)
  state.settled claim.environmentRef fun record =>
    { record with
      status := .stopped
      members := []
      lastError := if keepError then record.lastError else none }

def retain (claim : KillClaim) (reason : String) : EnvironmentRegistryState ν :=
  state.settled claim.environmentRef (·.retainWith reason)

def failKill (claim : KillClaim) (error : String) : EnvironmentRegistryState ν :=
  state.settled claim.environmentRef fun record =>
    { record with status := .cleanupFailed, lastError := some error }

def releaseRemoval (claim : RemovalClaim) : EnvironmentRegistryState ν :=
  state.settled claim.claim.environmentRef fun record =>
    { record with status := claim.claimedFrom }

/-- The first critical section of `fail_removal`: the removal is marked owed.  The
second one is that of `failKill`. -/
def markRemovalPending (claim : RemovalClaim) : EnvironmentRegistryState ν :=
  state.modify claim.claim.environmentRef fun record =>
    { record with metadata := record.metadata.set removalPendingKey (.bool true) }

def abandonRemoval (claim : RemovalClaim) : EnvironmentRegistryState ν :=
  state.settled claim.claim.environmentRef fun record =>
    { record.clearRemovalPending with status := .cleanupFailed }

def remove (ref : String) : EnvironmentRegistryState ν :=
  { state with
    inspectClaims := state.inspectClaims.filter (·.1 ≠ ref)
    inspectFailures := state.inspectFailures.erase ref
    killClaims := state.killClaims.erase ref
    entries := state.entries.erase ref }

def completeRemoval (claim : RemovalClaim) : EnvironmentRegistryState ν :=
  state.remove claim.claim.environmentRef

/-! ## Inspections -/

def beginInspect (ref agent : String) : Option InspectClaim × EnvironmentRegistryState ν :=
  if ref ∈ state.entries ∧ (ref, agent) ∉ state.inspectClaims then
    (some ⟨ref⟩, { state with inspectClaims := insert (ref, agent) state.inspectClaims })
  else (none, state)

def recordInspectSuccess (claim : InspectClaim)
    (metadata : Metadata ν) : EnvironmentRegistryState ν :=
  let hadInspectFailure := decide (claim.environmentRef ∈ state.inspectFailures)
  { state.modify claim.environmentRef fun record =>
      { record with
        lastError :=
          if hadInspectFailure && record.status != .cleanupFailed then none else record.lastError
        metadata := record.metadata.inspected metadata } with
    inspectFailures := state.inspectFailures.erase claim.environmentRef }

def recordInspectFailure (claim : InspectClaim) (error : String) : EnvironmentRegistryState ν :=
  if claim.environmentRef ∈ state.entries then
    { state.modify claim.environmentRef ({ · with lastError := some error }) with
      inspectFailures := insert claim.environmentRef state.inspectFailures }
  else state

/-! ## The journal -/

structure Report (ν : Type) where
  ref : String
  record : EnvironmentRecord ν
  expected : Option EnvironmentStatus

def journalSnapshot (ref : String) : Option (Report ν) :=
  state.entries[ref]?.map fun record =>
    ⟨ref, record,
      match record.origin with
      | .created => none
      | .restored => state.journalled[ref]?⟩

/-- What a report's answer teaches: what superseded the write stands in memory as well,
except while this session holds the record's claim. -/
def journalAnswered (report : Report ν) (outcome : JournalWrite ν) : EnvironmentRegistryState ν :=
  if report.record.origin ≠ .restored then state
  else
    match outcome with
    | .unavailable => state
    | .written =>
        { state with journalled := state.journalled.insert report.ref report.record.status }
    | .superseded current metadata =>
        let adopted :=
          if report.ref ∈ state.killClaims then state
          else
            state.modify report.ref fun record =>
              { record with status := current, metadata := metadata.merge record.metadata }
        { adopted with journalled := state.journalled.insert report.ref current }

/-! ## What a section changes -/

def Keyed : Prop :=
  ∀ (ref : String) (record : EnvironmentRecord ν),
    state.entries[ref]? = some record → record.environmentRef = ref

structure Keeps (state after : EnvironmentRegistryState ν) : Prop where
  keyed : state.Keyed → after.Keyed
  claims : after.killClaims = state.killClaims
  killing : ∀ ref ∈ state.killClaims,
    state.statusOf ref = some .killing → after.statusOf ref = some .killing

structure Grants (state after : EnvironmentRegistryState ν) (ref : String) : Prop where
  keyed : state.Keyed → after.Keyed
  claims : after.killClaims = insert ref state.killClaims
  killing : after.statusOf ref = some .killing
  others : ∀ other, other ≠ ref → after.statusOf other = state.statusOf other

structure Settles (state after : EnvironmentRegistryState ν) (ref : String) : Prop where
  keyed : state.Keyed → after.Keyed
  claims : after.killClaims = state.killClaims.erase ref
  others : ∀ other, other ≠ ref → after.statusOf other = state.statusOf other

section

variable {state : EnvironmentRegistryState ν} {ref : String}
  {f : EnvironmentRecord ν → EnvironmentRecord ν}

variable (state ref f) in
lemma statusOf_modify (other : String) : (state.modify ref f).statusOf other =
      if ref = other then state.entries[other]?.map fun record => (f record).status
      else state.statusOf other := by
  unfold statusOf modify
  rw [getElem?_modify_eq]
  split
  · rw [Option.map_map]
    rfl
  · rfl

lemma Keyed.modify (h : state.Keyed)
    (href : ∀ record, (f record).environmentRef = record.environmentRef) :
    (state.modify ref f).Keyed := by
  intro other record hlookup
  obtain ⟨before, hbefore, ⟨_, rfl⟩ | ⟨_, rfl⟩⟩ := of_modify hlookup
  · rw [href]
    exact h other before hbefore
  · exact h other before hbefore

variable (state ref f) in
lemma Keeps.modify (href : ∀ record, (f record).environmentRef = record.environmentRef)
    (hstatus : ∀ record, (f record).status = record.status) : Keeps state (state.modify ref f) where
  keyed h := h.modify href
  claims := rfl
  killing other _ h := by
    rw [statusOf_modify]
    split
    · simp only [hstatus]
      exact h
    · exact h

variable (href : ∀ record, (f record).environmentRef = record.environmentRef)
include href

lemma Grants.claimed (hsome : ∃ record, state.entries[ref]? = some record) :
    Grants state (state.claimed ref f) ref where
  keyed h := h.modify href
  claims := rfl
  killing := by
    obtain ⟨record, hrecord⟩ := hsome
    have hstatus := state.statusOf_modify ref
      (fun record => { f record with status := .killing }) ref
    rw [if_pos rfl, hrecord] at hstatus
    exact hstatus
  others other hother := by
    have hstatus := state.statusOf_modify ref
      (fun record => { f record with status := .killing }) other
    rw [if_neg hother.symm] at hstatus
    exact hstatus

lemma Settles.settled : Settles state (state.settled ref f) ref where
  keyed h := h.modify href
  claims := rfl
  others other hother := by
    have hstatus := state.statusOf_modify ref f other
    rw [if_neg hother.symm] at hstatus
    exact hstatus

end

lemma Keeps.unchanged : Keeps state state :=
  ⟨id, rfl, fun _ _ h => h⟩

section Sections

variable (state : EnvironmentRegistryState ν)
  {record : EnvironmentRecord ν} {κ : Type} {ref : String}

lemma commit_keeps (h : record.environmentRef ∈ state.killClaims → record.status = .killing) :
    Keeps state (state.commit record) where
  keyed hkeyed := by
    intro ref found hfound
    rcases of_insert hfound with ⟨href, rfl⟩ | ⟨_, hfound⟩
    · exact href
    · exact hkeyed ref found hfound
  claims := rfl
  killing ref hclaimed hkilling := by
    rw [statusOf, commit, getElem?_insert_eq]
    split
    · rename_i href
      subst href
      rw [Option.map_some, h hclaimed]
    · exact hkilling

def lastUnder (records : List (EnvironmentRecord ν)) (ref : String) :
    Option (EnvironmentRecord ν) :=
  (records.filter (·.environmentRef == ref)).getLast?

variable (claim : KillClaim) (records : List (EnvironmentRecord ν))

lemma statusOf_restore (ref : String) : (state.restore records).statusOf ref =
      ((lastUnder records ref).map (·.status)).or (state.statusOf ref) := by
  induction records generalizing state with
  | nil => rfl
  | cons record rest ih =>
    have hseed : (state.seed record).statusOf ref =
        if record.environmentRef = ref then some record.status else state.statusOf ref := by
      rw [statusOf, seed, getElem?_insert_eq]
      split <;> rfl
    rw [restore, List.foldl_cons, ← restore, ih, hseed, lastUnder, lastUnder, List.filter_cons]
    by_cases href : record.environmentRef = ref
    · simp only [href, beq_self_eq_true, if_true, List.getLast?_cons]
      cases (rest.filter (·.environmentRef == ref)).getLast? <;> rfl
    · rw [if_neg href, if_neg (by simpa using href)]

lemma restore_claims : (state.restore records).killClaims = state.killClaims := by
  induction records generalizing state with
  | nil => rfl
  | cons record rest ih => exact ih (state.seed record)

lemma restore_keyed (h : state.Keyed) : (state.restore records).Keyed := by
  induction records generalizing state with
  | nil => exact h
  | cons record rest ih =>
    refine ih (state.seed record) ?_
    intro ref found hfound
    rcases of_insert hfound with ⟨href, rfl⟩ | ⟨_, hfound⟩
    · exact href
    · exact h ref found hfound

lemma restore_keeps {records : List (EnvironmentRecord ν)}
    (h : ∀ ref ∈ state.killClaims, ∀ record, lastUnder records ref = some record →
      record.status = .killing) : Keeps state (state.restore records) where
  keyed := state.restore_keyed records
  claims := state.restore_claims records
  killing ref hclaimed hkilling := by
    rw [statusOf_restore]
    cases hlast : lastUnder records ref with
    | none => exact hkilling
    | some record =>
      rw [Option.map_some, h ref hclaimed record hlast]
      rfl

lemma addMember_keeps (ref agent : String) : Keeps state (state.addMember ref agent).2 := by
  have hmodify := Keeps.modify state ref (fun record =>
    if record.members.contains agent then record
    else { record with members := record.members ++ [agent] })
    (fun record => by split <;> rfl) (fun record => by split <;> rfl)
  unfold addMember
  split
  · exact .unchanged state
  split
  · exact hmodify
  · exact hmodify
  · exact .unchanged state
  · exact .unchanged state
  · exact .unchanged state

lemma removeMember_cases (ref agent : String) :
    ((state.removeMember ref agent).1.toOption.join = none ∧
      Keeps state (state.removeMember ref agent).2) ∨
    ((state.removeMember ref agent).1.toOption.join = some ⟨ref⟩ ∧
      state.statusOf ref = some .running ∧ Grants state (state.removeMember ref agent).2 ref) := by
  unfold removeMember
  split
  · exact .inl ⟨rfl, .unchanged state⟩
  rename_i record hrecord
  have hkeeps := Keeps.modify state ref (without agent)
    (fun _ => rfl) fun _ => rfl
  split
  · rename_i hends
    have hrunning : record.status = .running := by
      simp only [endsEmpty, without, Bool.and_eq_true] at hends
      exact of_decide_eq_true hends.1.2
    have hstatus : ∀ other, (state.modify ref (without agent)).statusOf other =
        state.statusOf other := by
      intro other
      rw [statusOf_modify]
      split <;> rfl
    have hsome : ∃ record, (state.modify ref (without agent)).entries[ref]? = some record := by
      rw [modify, getElem?_modify_eq, if_pos rfl, hrecord]
      exact ⟨_, rfl⟩
    have hgrants := Grants.claimed (f := id) (fun _ => rfl) hsome
    refine .inr ⟨rfl, ?_, fun h => hgrants.keyed (hkeeps.keyed h),
      hgrants.claims, hgrants.killing, ?_⟩
    · rw [statusOf, hrecord, Option.map_some, hrunning]
    · intro other hother
      rw [hgrants.others other hother, hstatus]
  · exact .inl ⟨rfl, hkeeps⟩

lemma claimIf_cases (ref : String) (condition : ClaimCondition)
    (claim : EnvironmentRegistryState ν → String →
      Except EnvironmentLookupError κ × EnvironmentRegistryState ν) :
    ((state.claimIf ref condition claim).1.toOption = none ∧
      (state.claimIf ref condition claim).2 = state) ∨
    ((∀ record, state.entries[ref]? = some record → condition.admits record = true) ∧
      (state.claimIf ref condition claim).1.toOption = (claim state ref).1.toOption ∧
      (state.claimIf ref condition claim).2 = (claim state ref).2) := by
  unfold claimIf admittedLocked
  cases state.entries[ref]? with
  | none => exact .inl ⟨rfl, rfl⟩
  | some record =>
    dsimp only
    cases hjudge : condition.judge record with
    | error mismatch => exact .inl ⟨rfl, rfl⟩
    | ok =>
      refine .inr ⟨?_, ?_, rfl⟩
      · intro found hfound
        rw [← Option.some.inj hfound, ClaimCondition.admits, hjudge]
      · cases (claim state ref).1 with
        | ok _ | error _ => rfl

def ClaimsOr {κ : Type} (ref : String) (allowed : EnvironmentRecord ν → Prop)
    (claimOf : EnvironmentRecord ν → κ)
    (answer : Option κ × EnvironmentRegistryState ν) : Prop :=
  (answer.1 = none ∧ answer.2 = state) ∨
    ∃ record, state.entries[ref]? = some record ∧ allowed record ∧
      answer.1 = some (claimOf record) ∧ Grants state answer.2 ref

lemma claimKillLocked_cases (ref : String) :
    state.ClaimsOr ref (claimable · = true) (⟨·.environmentRef⟩)
      ((state.claimKillLocked ref).1.toOption, (state.claimKillLocked ref).2) := by
  unfold claimKillLocked
  cases hrecord : state.entries[ref]? with
  | none => exact .inl ⟨rfl, rfl⟩
  | some record =>
    dsimp only
    by_cases hclaimable : claimable record = true
    · rw [if_pos hclaimable]
      exact .inr ⟨record, hrecord, hclaimable, rfl, .claimed (fun _ => rfl) ⟨record, hrecord⟩⟩
    · rw [if_neg hclaimable]
      cases record.status <;> exact .inl ⟨rfl, rfl⟩

lemma claimRemovalLocked_cases (ref : String) :
    state.ClaimsOr ref (·.removable = true) (fun record => ⟨⟨record.environmentRef⟩, record.status⟩)
      ((state.claimRemovalLocked ref).1.toOption, (state.claimRemovalLocked ref).2) := by
  unfold claimRemovalLocked
  cases hrecord : state.entries[ref]? with
  | none => exact .inl ⟨rfl, rfl⟩
  | some record =>
    dsimp only
    by_cases hremovable : record.removable = true
    · rw [if_pos hremovable]
      refine .inr ⟨record, hrecord, hremovable, rfl, .claimed (fun record => ?_) ⟨record, hrecord⟩⟩
      split <;> rfl
    · rw [if_neg hremovable]
      exact .inl ⟨rfl, rfl⟩

lemma ClaimsOr.claimIf {allowed : EnvironmentRecord ν → Prop} {claimOf : EnvironmentRecord ν → κ}
    {claim : EnvironmentRegistryState ν → String →
      Except EnvironmentLookupError κ × EnvironmentRegistryState ν}
    (h : state.ClaimsOr ref allowed claimOf ((claim state ref).1.toOption, (claim state ref).2))
    (condition : ClaimCondition) :
    state.ClaimsOr ref (fun record => allowed record ∧ condition.admits record = true) claimOf
      ((state.claimIf ref condition claim).1.toOption, (state.claimIf ref condition claim).2) := by
  obtain hnone | ⟨hadmits, hanswer, hafter⟩ := state.claimIf_cases ref condition claim
  · exact .inl hnone
  rw [hanswer, hafter]
  obtain hnone | ⟨record, hrecord, hallowed, hgranted⟩ := h
  · exact .inl hnone
  · exact .inr ⟨record, hrecord, ⟨hallowed, hadmits record hrecord⟩, hgranted⟩

lemma beginKillIf_of_claimable
    (hrecord : state.entries[ref]? = some record) (hadmits : condition.admits record = true)
    (hclaimable : claimable record = true) :
    (state.beginKillIf ref condition).1.toOption = some ⟨record.environmentRef⟩ := by
  simp only [beginKillIf, claimIf, admittedLocked, claimKillLocked, hrecord,
    ClaimCondition.judge_of_admits hadmits, hclaimable, Except.mapError, if_true, Except.toOption]

lemma completeKill_settles :
    Settles state (state.completeKill claim) claim.environmentRef := .settled fun _ => rfl

lemma retain_settles (reason : String) :
    Settles state (state.retain claim reason) claim.environmentRef := .settled fun _ => rfl

lemma failKill_settles (error : String) :
    Settles state (state.failKill claim error) claim.environmentRef := .settled fun _ => rfl

lemma releaseRemoval_settles (claim : RemovalClaim) :
    Settles state (state.releaseRemoval claim) claim.claim.environmentRef := .settled fun _ => rfl

lemma abandonRemoval_settles (claim : RemovalClaim) :
    Settles state (state.abandonRemoval claim) claim.claim.environmentRef := .settled fun _ => rfl

lemma remove_settles (ref : String) : Settles state (state.remove ref) ref where
  keyed hkeyed := by
    intro other record hrecord
    exact hkeyed other record (of_erase hrecord).2
  claims := rfl
  others other hother := by
    rw [statusOf, remove, getElem?_erase_eq, if_neg hother.symm, statusOf]

lemma recordInspectSuccess_keeps (claim : InspectClaim) (metadata : Metadata ν) :
    Keeps state (state.recordInspectSuccess claim metadata) := by
  have hkeeps := Keeps.modify state claim.environmentRef
    (fun record => { record with
      lastError :=
        if decide (claim.environmentRef ∈ state.inspectFailures) &&
          record.status != .cleanupFailed then none else record.lastError
      metadata := record.metadata.inspected metadata }) (fun _ => rfl) fun _ => rfl
  exact ⟨hkeeps.keyed, hkeeps.claims, hkeeps.killing⟩

lemma recordInspectFailure_keeps (claim : InspectClaim) (error : String) :
    Keeps state (state.recordInspectFailure claim error) := by
  unfold recordInspectFailure
  split
  · have hkeeps := Keeps.modify state claim.environmentRef
      (({ · with lastError := some error })) (fun _ => rfl) fun _ => rfl
    exact ⟨hkeeps.keyed, hkeeps.claims, hkeeps.killing⟩
  · exact .unchanged state

lemma journalAnswered_keeps (report : Report ν) (outcome : JournalWrite ν) :
    Keeps state (state.journalAnswered report outcome) := by
  unfold journalAnswered
  split
  · exact .unchanged state
  cases outcome with
  | unavailable => exact .unchanged state
  | written => exact ⟨id, rfl, fun _ _ h => h⟩
  | superseded current metadata =>
    dsimp only
    split
    · exact ⟨id, rfl, fun _ _ h => h⟩
    rename_i hfree
    refine ⟨fun h => h.modify fun _ => rfl, rfl, fun ref hclaimed hkilling => ?_⟩
    -- what is claimed is not what the answer is about
    have hne : report.ref ≠ ref := by
      rintro rfl
      exact hfree hclaimed
    have hstatus := state.statusOf_modify report.ref
      (fun record =>
        { record with status := current, metadata := metadata.merge record.metadata }) ref
    rw [if_neg hne] at hstatus
    exact hstatus.trans hkilling

end Sections

end EnvironmentRegistryState

end Quecto.Environments
