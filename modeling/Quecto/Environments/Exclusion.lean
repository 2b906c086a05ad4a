/-
  Environments/Exclusion.lean --- the claims of a registry over whole runs.

  Source: `domain/environments/entities/environment_registry_removal.rs`.
-/
import Quecto.Environments.Registry

namespace Quecto.Environments

open Foundation EnvironmentRegistryState

/-! ## Threads -/

inductive Claim where
  | kill (claim : KillClaim)
  | removal (claim : RemovalClaim)
  deriving DecidableEq

def Claim.ref : Claim → String
  | .kill claim => claim.environmentRef
  | .removal claim => claim.claim.environmentRef

structure Threads (ν : Type) where
  registry : EnvironmentRegistryState ν
  claims : List Claim
  failing : List RemovalClaim
  inspecting : List InspectClaim
  reports : List String
  writing : Option (Report ν)

inductive Section (ν : Type) where
  | commit (record : EnvironmentRecord ν)
  | restore (records : List (EnvironmentRecord ν))
  | addMember (ref agent : String)
  | removeMember (ref agent : String)
  | beginKillIf (ref : String) (condition : ClaimCondition)
  | beginRemovalIf (ref : String) (condition : ClaimCondition)
  | completeKill (claim : KillClaim)
  | retain (claim : KillClaim) (reason : String)
  | failKill (claim : KillClaim) (error : String)
  | releaseRemoval (claim : RemovalClaim)
  | markRemovalPending (claim : RemovalClaim)
  | failRemoval (claim : RemovalClaim) (error : String)
  | abandonRemoval (claim : RemovalClaim)
  | completeRemoval (claim : RemovalClaim)
  | beginInspect (ref agent : String)
  | recordInspectSuccess (claim : InspectClaim) (metadata : Metadata ν)
  | recordInspectFailure (claim : InspectClaim) (error : String)
  | journalSnapshot (ref : String)
  | journalAnswered (outcome : JournalWrite ν)

inductive Reply where
  | done
  | added (answer : Except EnvironmentLookupError Unit)
  | removed (answer : Except EnvironmentLookupError (Option KillClaim))
  | kill (answer : Except ClaimRefusal KillClaim)
  | removal (answer : Except ClaimRefusal RemovalClaim)
  | inspect (claim : Option InspectClaim)

namespace Threads

variable {ν : Type}

def start : Threads ν := ⟨.fresh, [], [], [], [], none⟩

variable (threads : Threads ν)

def granted (ref : String) (claim : Option Claim)
    (registry : EnvironmentRegistryState ν) : Threads ν :=
  match claim with
  | none => { threads with registry }
  | some claim =>
      { threads with
        registry
        claims := claim :: threads.claims
        reports := threads.reports ++ [ref] }

def settle (claim : Claim) (registry : EnvironmentRegistryState ν)
    (reports : List String) : Threads ν :=
  if claim ∈ threads.claims then
    { threads with
      registry
      claims := threads.claims.erase claim
      reports := threads.reports ++ reports }
  else threads

def inspected (claim : InspectClaim) (registry : EnvironmentRegistryState ν) : Threads ν :=
  if claim ∈ threads.inspecting then
    { threads with
      registry
      inspecting := threads.inspecting.erase claim
      reports := threads.reports ++ [claim.environmentRef] }
  else threads

def step : Section ν → Reply × Threads ν
  | .commit record =>
      (.done, { threads with
        registry := threads.registry.commit record
        reports := threads.reports ++ [record.environmentRef] })
  | .restore records => (.done, { threads with registry := threads.registry.restore records })
  | .addMember ref agent =>
      let (answer, registry) := threads.registry.addMember ref agent
      (.added answer, { threads with registry })
  | .removeMember ref agent =>
      let (answer, registry) := threads.registry.removeMember ref agent
      (.removed answer, threads.granted ref (answer.toOption.join.map .kill) registry)
  | .beginKillIf ref condition =>
      let (answer, registry) := threads.registry.beginKillIf ref condition
      (.kill answer, threads.granted ref (answer.toOption.map .kill) registry)
  | .beginRemovalIf ref condition =>
      let (answer, registry) := threads.registry.beginRemovalIf ref condition
      (.removal answer, threads.granted ref (answer.toOption.map .removal) registry)
  | .completeKill claim =>
      (.done, threads.settle (.kill claim) (threads.registry.completeKill claim)
        [claim.environmentRef])
  | .retain claim reason =>
      (.done, threads.settle (.kill claim) (threads.registry.retain claim reason)
        [claim.environmentRef])
  | .failKill claim error =>
      (.done, threads.settle (.kill claim) (threads.registry.failKill claim error)
        [claim.environmentRef])
  | .releaseRemoval claim =>
      (.done, threads.settle (.removal claim) (threads.registry.releaseRemoval claim)
        [claim.claim.environmentRef])
  | .markRemovalPending claim =>
      (.done,
        if .removal claim ∈ threads.claims then
          { threads with
            registry := threads.registry.markRemovalPending claim
            claims := threads.claims.erase (.removal claim)
            failing := claim :: threads.failing }
        else threads)
  | .failRemoval claim error =>
      (.done,
        if claim ∈ threads.failing then
          { threads with
            registry := threads.registry.failKill claim.claim error
            failing := threads.failing.erase claim
            reports := threads.reports ++ [claim.claim.environmentRef] }
        else threads)
  | .abandonRemoval claim =>
      (.done, threads.settle (.removal claim) (threads.registry.abandonRemoval claim)
        [claim.claim.environmentRef])
  | .completeRemoval claim =>
      (.done, threads.settle (.removal claim) (threads.registry.completeRemoval claim) [])
  | .beginInspect ref agent =>
      let (claim, registry) := threads.registry.beginInspect ref agent
      (.inspect claim, { threads with registry, inspecting := claim.toList ++ threads.inspecting })
  | .recordInspectSuccess claim metadata =>
      (.done, threads.inspected claim (threads.registry.recordInspectSuccess claim metadata))
  | .recordInspectFailure claim error =>
      (.done, threads.inspected claim (threads.registry.recordInspectFailure claim error))
  | .journalSnapshot ref =>
      -- one report at a time is between its snapshot and its answer
      (.done,
        if ref ∈ threads.reports ∧ threads.writing = none then
          { threads with
            reports := threads.reports.erase ref
            writing := threads.registry.journalSnapshot ref }
        else threads)
  | .journalAnswered outcome =>
      (.done,
        match threads.writing with
        | none => threads
        | some report =>
            { threads with
              registry := threads.registry.journalAnswered report outcome
              writing := none })

/-! ## Exclusion -/

def unsettled (ref : String) : Nat :=
  threads.claims.countP (·.ref == ref) + threads.failing.countP (·.claim.environmentRef == ref)

def Exclusive : Prop :=
  ∀ ref, threads.unsettled ref ≤ 1 ∧
    (0 < threads.unsettled ref → threads.registry.statusOf ref = some .killing)

def Clash : Section ν → Prop
  -- another record is put in the place of a claimed one
  | .commit record =>
      0 < threads.unsettled record.environmentRef ∧ record.status ≠ .killing
  | .restore records =>
      ∃ ref record, lastUnder records ref = some record ∧ 0 < threads.unsettled ref ∧
        record.status ≠ .killing
  -- a restored record is killing under a claim of this registry, and is claimed again
  | .beginKillIf ref condition =>
      0 < threads.unsettled ref ∧ ∃ record, threads.registry.entries[ref]? = some record ∧
        condition.admits record = true ∧ record.origin = .restored
  | _ => False

structure Inv (threads : Threads ν) : Prop where
  keyed : threads.registry.Keyed
  exclusive : threads.Exclusive
  known : ∀ ref, ref ∈ threads.registry.killClaims ↔ 0 < threads.unsettled ref

lemma Inv.start : (start : Threads ν).Inv where
  keyed ref record h := by
    cases h
  exclusive ref := ⟨Nat.zero_le 1, fun h => absurd h (Nat.lt_irrefl 0)⟩
  known ref := ⟨fun h => absurd h (Finset.notMem_empty ref), fun h => absurd h (Nat.lt_irrefl 0)⟩

/-! ## One section -/

section

variable {threads after : Threads ν} {ref : String}

lemma Inv.keeps (h : threads.Inv) (hkeeps : Keeps threads.registry after.registry)
    (hsame : ∀ ref, after.unsettled ref = threads.unsettled ref) : after.Inv where
  keyed := hkeeps.keyed h.keyed
  exclusive ref := by
    rw [hsame]
    refine ⟨(h.exclusive ref).1, fun hclaimed => ?_⟩
    exact hkeeps.killing ref ((h.known ref).mpr hclaimed) ((h.exclusive ref).2 hclaimed)
  known ref := by rw [hsame, hkeeps.claims, h.known]

lemma Inv.grants (h : threads.Inv) (hgrants : Grants threads.registry after.registry ref)
    (hfree : threads.unsettled ref = 0) (hone : ∀ other, after.unsettled other =
      threads.unsettled other + if ref = other then 1 else 0) : after.Inv where
  keyed := hgrants.keyed h.keyed
  exclusive other := by
    rw [hone]
    by_cases hother : ref = other
    · subst hother
      rw [if_pos rfl, hfree]
      exact ⟨Nat.le_refl 1, fun _ => hgrants.killing⟩
    · rw [if_neg hother, hgrants.others other fun heq => hother heq.symm]
      exact h.exclusive other
  known other := by
    rw [hone, hgrants.claims, Finset.mem_insert, h.known]
    by_cases hother : ref = other
    · simp [hother]
    · have hne : other ≠ ref := fun heq => hother heq.symm
      simp [hother, hne]

variable (ref) in
lemma Inv.settles (h : threads.Inv) (hsettles : Settles threads.registry after.registry ref)
    (hone : ∀ other, after.unsettled other + (if ref = other then 1 else 0) =
      threads.unsettled other) : after.Inv where
  keyed := hsettles.keyed h.keyed
  exclusive other := by
    have hcount := hone other
    have hexclusive := h.exclusive other
    by_cases hother : ref = other
    · rw [if_pos hother] at hcount
      exact ⟨by omega, fun hpos => by omega⟩
    rw [if_neg hother, Nat.add_zero] at hcount
    rw [hcount, hsettles.others other fun heq => hother heq.symm]
    exact hexclusive
  known other := by
    have hcount := hone other
    have hexclusive := h.exclusive other
    rw [hsettles.claims, Finset.mem_erase, h.known]
    by_cases hother : ref = other
    · rw [if_pos hother] at hcount
      have hne : ¬ other ≠ ref := fun hne => hne hother.symm
      have hnone : ¬ 0 < after.unsettled other := by omega
      simp [hne, hnone]
    rw [if_neg hother, Nat.add_zero] at hcount
    have hne : other ≠ ref := fun heq => hother heq.symm
    simp [hne, hcount]

end

section

variable (threads : Threads ν)

lemma unsettled_granted (ref : String) (claim : Claim) (registry : EnvironmentRegistryState ν)
    (other : String) : (threads.granted ref (some claim) registry).unsettled other =
      threads.unsettled other + if claim.ref = other then 1 else 0 := by
  simp only [granted, unsettled, List.countP_cons, beq_iff_eq]
  omega

lemma countP_erase_add {α : Type} [DecidableEq α] (refOf : α → String) {claims : List α}
    {claim : α} (hheld : claim ∈ claims) (other : String) :
    (claims.erase claim).countP (refOf · == other) + (if refOf claim = other then 1 else 0) =
      claims.countP (refOf · == other) := by
  rw [(List.perm_cons_erase hheld).countP_eq, List.countP_cons]
  simp only [beq_iff_eq]

lemma unsettled_settle {claim : Claim} (hheld : claim ∈ threads.claims)
    (registry : EnvironmentRegistryState ν) (reports : List String) (other : String) :
    (threads.settle claim registry reports).unsettled other +
      (if claim.ref = other then 1 else 0) = threads.unsettled other := by
  have hcount := countP_erase_add Claim.ref hheld other
  rw [settle, if_pos hheld]
  simp only [unsettled]
  omega

end

section Step

variable {threads : Threads ν}
  {ref : String} {registry : EnvironmentRegistryState ν} {act : Section ν} (h : threads.Inv)
include h

lemma Inv.granted {κ : Type} {allowed : EnvironmentRecord ν → Prop}
    {claimOf : EnvironmentRecord ν → κ} {toClaim : κ → Claim}
    {answer : Option κ × EnvironmentRegistryState ν}
    (hclaims : threads.registry.ClaimsOr ref allowed claimOf answer)
    (hfree : ∀ record, threads.registry.entries[ref]? = some record → allowed record →
      threads.unsettled ref = 0)
    (href : ∀ record, (toClaim (claimOf record)).ref = record.environmentRef) :
    (threads.granted ref (answer.1.map toClaim) answer.2).Inv := by
  obtain ⟨hnone, hsame⟩ | ⟨record, hrecord, hallowed, hsome, hgrants⟩ := hclaims
  · rw [hnone, hsame]
    exact h
  rw [hsome, Option.map_some]
  refine h.grants hgrants (hfree record hrecord hallowed) fun other => ?_
  rw [unsettled_granted, href, h.keyed ref record hrecord]

lemma Inv.settle {claim : Claim} (hsettles : Settles threads.registry registry claim.ref)
    (reports : List String) : (threads.settle claim registry reports).Inv := by
  by_cases hheld : claim ∈ threads.claims
  · refine h.settles claim.ref ?_ (threads.unsettled_settle hheld registry reports)
    rw [Threads.settle, if_pos hheld]
    exact hsettles
  · rw [Threads.settle, if_neg hheld]
    exact h

lemma Inv.inspected {claim : InspectClaim} (hkeeps : Keeps threads.registry registry) :
    (threads.inspected claim registry).Inv := by
  unfold Threads.inspected
  split
  · exact h.keeps hkeeps fun _ => rfl
  · exact h

lemma Inv.status {record : EnvironmentRecord ν}
    (hrecord : threads.registry.entries[ref]? = some record)
    (hclaimed : threads.unsettled ref ≠ 0) :
    record.status = .killing := by
  have hkilling := (h.exclusive ref).2 (Nat.pos_of_ne_zero hclaimed)
  rw [statusOf, hrecord, Option.map_some, Option.some.injEq] at hkilling
  exact hkilling

lemma Inv.step (hclash : ¬ threads.Clash act) : (threads.step act).2.Inv := by
  cases act with
  | commit record =>
    refine h.keeps (threads.registry.commit_keeps fun hclaimed => ?_) fun _ => rfl
    rw [h.known] at hclaimed
    exact not_not.mp fun hstatus => hclash ⟨hclaimed, hstatus⟩
  | restore records =>
    refine h.keeps (threads.registry.restore_keeps fun ref hclaimed record hlast => ?_) fun _ => rfl
    rw [h.known] at hclaimed
    exact not_not.mp fun hstatus => hclash ⟨ref, record, hlast, hclaimed, hstatus⟩
  | addMember ref agent => exact h.keeps (threads.registry.addMember_keeps ref agent) fun _ => rfl
  | removeMember ref agent =>
    simp only [Threads.step]
    obtain ⟨hnone, hkeeps⟩ | ⟨hsome, hrunning, hgrants⟩ :=
      threads.registry.removeMember_cases ref agent
    · rw [hnone]
      exact h.keeps hkeeps fun _ => rfl
    rw [hsome]
    refine h.grants hgrants ?_ (threads.unsettled_granted ref (.kill ⟨ref⟩) _)
    by_contra hclaimed
    rw [(h.exclusive ref).2 (Nat.pos_of_ne_zero hclaimed)] at hrunning
    cases hrunning
  | beginKillIf ref condition =>
    refine h.granted ((threads.registry.claimKillLocked_cases ref).claimIf _ condition) ?_
      fun _ => rfl
    intro record hrecord hallowed
    by_contra hclaimed
    have hrestored : record.origin = .restored := by
      have hclaimable := hallowed.1
      rw [claimable, h.status hrecord hclaimed] at hclaimable
      exact of_decide_eq_true hclaimable
    exact hclash ⟨Nat.pos_of_ne_zero hclaimed, record, hrecord, hallowed.2, hrestored⟩
  | beginRemovalIf ref condition =>
    refine h.granted ((threads.registry.claimRemovalLocked_cases ref).claimIf _ condition) ?_
      fun _ => rfl
    intro record hrecord hallowed
    by_contra hclaimed
    exact EnvironmentRecord.status_of_removable hallowed.1 (h.status hrecord hclaimed)
  | completeKill claim => exact h.settle (threads.registry.completeKill_settles claim) _
  | retain claim reason => exact h.settle (threads.registry.retain_settles claim reason) _
  | failKill claim error => exact h.settle (threads.registry.failKill_settles claim error) _
  | releaseRemoval claim => exact h.settle (threads.registry.releaseRemoval_settles claim) _
  | markRemovalPending claim =>
    simp only [Threads.step]
    split
    · rename_i hheld
      refine h.keeps (.modify _ _ _ (fun _ => rfl) fun _ => rfl) fun other => ?_
      have hcount := countP_erase_add Claim.ref hheld other
      have href : (Claim.removal claim).ref = claim.claim.environmentRef := rfl
      rw [href] at hcount
      simp only [unsettled, List.countP_cons, beq_iff_eq]
      omega
    · exact h
  | failRemoval claim error =>
    simp only [Threads.step]
    split
    · rename_i hheld
      refine h.settles claim.claim.environmentRef (.settled fun _ => rfl) fun other => ?_
      have hcount := countP_erase_add (fun claim : RemovalClaim =>
        claim.claim.environmentRef) hheld other
      simp only [unsettled]
      omega
    · exact h
  | abandonRemoval claim => exact h.settle (threads.registry.abandonRemoval_settles claim) _
  | completeRemoval claim => exact h.settle (threads.registry.remove_settles _) _
  | beginInspect ref agent =>
    refine h.keeps ?_ fun _ => rfl
    simp only [Threads.step, beginInspect]
    split
    · exact ⟨id, rfl, fun _ _ hkilling => hkilling⟩
    · exact .unchanged _
  | recordInspectSuccess claim metadata =>
    exact h.inspected (threads.registry.recordInspectSuccess_keeps claim metadata)
  | recordInspectFailure claim error =>
    exact h.inspected (threads.registry.recordInspectFailure_keeps claim error)
  | journalSnapshot ref =>
    simp only [Threads.step]
    split
    · exact h.keeps (.unchanged _) fun _ => rfl
    · exact h
  | journalAnswered outcome =>
    simp only [Threads.step]
    split
    · exact h
    · exact h.keeps (threads.registry.journalAnswered_keeps _ outcome) fun _ => rfl

lemma Inv.not_exclusive (hclash : threads.Clash act) : ¬ (threads.step act).2.Exclusive := by
  intro hexclusive
  cases act with
  | commit record =>
    obtain ⟨hclaimed, hstatus⟩ := hclash
    have hkilling := (hexclusive record.environmentRef).2 hclaimed
    rw [Threads.step, statusOf, commit, OrdMap.getElem?_insert_eq, if_pos rfl] at hkilling
    exact hstatus (Option.some.inj hkilling)
  | restore records =>
    obtain ⟨ref, record, hlast, hclaimed, hstatus⟩ := hclash
    have hkilling := (hexclusive ref).2 hclaimed
    rw [Threads.step, statusOf_restore, hlast] at hkilling
    exact hstatus (Option.some.inj hkilling)
  | beginKillIf ref condition =>
    obtain ⟨hclaimed, record, hrecord, hadmits, hrestored⟩ := hclash
    have hstatus := h.status hrecord (Nat.ne_of_gt hclaimed)
    have hclaimable : claimable record = true := by
      rw [claimable, hstatus]
      exact decide_eq_true hrestored
    have hgrant := threads.registry.beginKillIf_of_claimable hrecord hadmits hclaimable
    have hcount := threads.unsettled_granted ref (.kill ⟨record.environmentRef⟩)
      (threads.registry.beginKillIf ref condition).2 ref
    rw [h.keyed ref record hrecord] at hgrant hcount
    have htwo := (hexclusive ref).1
    simp only [Threads.step, hgrant, Option.map_some] at htwo
    rw [hcount] at htwo
    simp only [Claim.ref, if_true] at htwo
    omega
  | _ => exact hclash

end Step

/-- A run is exclusive throughout exactly when none of its sections clashes. -/
theorem exclusive_iff (sections : List (Section ν)) :
    (∀ m ∈ moments step start sections, m.after.Exclusive) ↔
      ∀ m ∈ moments step start sections, ¬ m.before.Clash m.input :=
  moments_forall_iff_allowed (I := Inv) (G := fun threads act => ¬ threads.Clash act)
    (R := fun m => m.after.Exclusive) (fun _ _ h hallowed => h.step hallowed)
    (fun _ _ h => ⟨fun hexclusive hclash => h.not_exclusive hclash hexclusive,
      fun hallowed => (h.step hallowed).exclusive⟩) .start sections

def killedTwice : List (Section Unit) :=
  [.restore [⟨"C1", [], .running, .null, none, .restored, "cli:a"⟩],
    .beginKillIf "C1" .any, .beginKillIf "C1" .any]

/-- Both are handed the claim; settling one of them leaves the record stopped under the
other. -/
theorem killed_twice :
    outputs step start killedTwice = [.done, .kill (.ok ⟨"C1"⟩), .kill (.ok ⟨"C1"⟩)] ∧
      (exec step start killedTwice).unsettled "C1" = 2 ∧
      (exec step start (killedTwice ++ [.completeKill ⟨"C1"⟩])).unsettled "C1" = 1 ∧
      (exec step start (killedTwice ++ [.completeKill ⟨"C1"⟩])).registry.statusOf "C1" =
        some .stopped := by
  refine ⟨?_, ?_, ?_, ?_⟩
  · rfl
  · decide +kernel
  · decide +kernel
  · decide +kernel

end Threads

end Quecto.Environments
