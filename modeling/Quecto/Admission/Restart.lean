/-
  Admission/Restart.lean --- what `new` and `restore` build.
-/
import Quecto.Admission.Operation

namespace Quecto.Admission

open Foundation List OrdMap

/-- A group with the timing its ledger entry gives it. -/
def Group.resumed (g : Group) (now : Nat) (durable : LedgerGroup) : Group :=
  { g with
    cooldown := now + durable.cooldownRemainingMs
    nextStart := now + durable.pacingRemainingMs
    unavailable := durable.unavailable }

namespace AdmissionPolicy

/-! ## A fresh policy -/

variable {epoch now : Nat} {config : AdmissionConfig} {p : AdmissionPolicy}
  {ledger : AdmissionLedger}

/-- What `new` builds: no scopes, no requests, and the groups of a valid configuration. -/
structure Fresh (config : AdmissionConfig) (epoch : Nat) (p : AdmissionPolicy) : Prop where
  valid : config.validate = .ok ()
  known : ∀ gid : GroupId, gid ∈ p.groups ↔ gid ∈ config.groups
  config : p.config = config
  epoch : p.epoch = epoch
  nextSerial : p.nextSerial = 0
  scopes : p.scopes = ∅
  requests : p.requests = ∅
  terminals : p.terminals = []
  groups : ∀ (gid : GroupId) (g : Group), p.groups[gid]? = some g → g.Fresh

lemma fresh_of_new (h : AdmissionPolicy.new epoch config = .ok p) : p.Fresh config epoch := by
  unfold AdmissionPolicy.new at h
  split at h
  · simp at h
  rename_i hvalid
  split at h
  · simp at h
  rename_i groups hgroups
  rw [← Except.ok.inj h]
  refine ⟨hvalid, fun gid => ?_, rfl, rfl, rfl, rfl, rfl, rfl, fun gid g hg => ?_⟩
  · rw [mem_newGroups hgroups, mem_iff]
    simp only [mem_toList_iff]
  · obtain ⟨policy, hnew⟩ := newGroups_lookup hgroups hg
    exact Group.fresh_of_new hnew

lemma wf_of_new (h : AdmissionPolicy.new epoch config = .ok p) : p.Wf := by
  have hfresh := fresh_of_new h
  constructor
  · exact hfresh.config ▸ hfresh.valid
  · exact hfresh.config ▸ hfresh.known
  · simp [hfresh.scopes]
  · simp [hfresh.requests]
  · simp [hfresh.requests]
  · simp [hfresh.terminals]
  · intro gid g id since hg hs
    simp [(hfresh.groups gid g hg).uncertain] at hs

lemma new_ok (hvalid : config.validate = .ok ()) (epoch : Nat) :
    ∃ p, AdmissionPolicy.new epoch config = .ok p := by
  have hgroups : ∀ l : List (GroupId × GroupPolicy),
      (∀ e ∈ l, config.groups[e.1]? = some e.2) → ∃ groups, newGroups l = .ok groups := by
    intro l
    induction l with
    | nil => intro _; exact ⟨∅, rfl⟩
    | cons e l ih =>
      intro hl
      obtain ⟨groups, hgroups⟩ := ih fun e' he' => hl e' (mem_cons_of_mem _ he')
      have hbounds := AdmissionConfig.group_bounds hvalid (hl e mem_cons_self)
      have hfallback : ¬ (e.2.fallbackBaseMs = 0 ∨ e.2.maxCooldownMs < e.2.fallbackBaseMs) := by
        omega
      unfold newGroups Group.new FallbackCooldown.new
      rw [if_neg hfallback, hgroups]
      exact ⟨_, rfl⟩
  obtain ⟨groups, hgroups⟩ := hgroups config.groups.toList fun e he => mem_toList_iff.mp he
  unfold AdmissionPolicy.new
  rw [hvalid, hgroups]
  exact ⟨_, rfl⟩

/-! ## The two passes of a restore -/

lemma restoreGroups_spec (now : Nat) (l : List (GroupId × LedgerGroup)) :
    ∀ {groups groups' : OrdMap GroupId Group}, l.Pairwise (fun a b => a.1 < b.1) →
      restoreGroups now l groups = .ok groups' → ∀ gid : GroupId, (∀ durable, (gid, durable) ∈ l →
          gid ∈ groups ∧ groups'[gid]? = groups[gid]?.map fun g => g.resumed now durable) ∧
        ((∀ durable, (gid, durable) ∉ l) → groups'[gid]? = groups[gid]?) := by
  induction l with
  | nil =>
    intro groups groups' _ h gid
    have hg : groups = groups' := by simpa [restoreGroups] using h
    subst hg
    exact ⟨fun _ hmem => absurd hmem not_mem_nil, fun _ => rfl⟩
  | cons e l ih =>
    intro groups groups' hsorted h gid
    obtain ⟨id, durable⟩ := e
    unfold restoreGroups at h
    split at h
    · simp at h
    rename_i group hgroup
    split at h
    · simp at h
    rename_i cooldown hcooldown
    split at h
    · simp at h
    rename_i nextStart hnextStart
    obtain ⟨rfl, _⟩ := checkedAdd_eq_some.mp hcooldown
    obtain ⟨rfl, _⟩ := checkedAdd_eq_some.mp hnextStart
    obtain ⟨hnamed, hother⟩ := ih hsorted.of_cons h gid
    by_cases hid : id = gid
    · subst hid
      -- the rest of the list does not name this group again
      have hfresh : ∀ d, (id, d) ∉ l := by
        intro d hmem
        exact lt_irrefl id (rel_of_pairwise_cons hsorted hmem)
      rw [hother hfresh, getElem?_insert_eq, if_pos rfl, hgroup]
      constructor
      · intro d hmem
        rcases mem_cons.mp hmem with heq | hmem
        · rw [(Prod.mk.inj heq).2]
          exact ⟨mem_iff.mpr ⟨group, hgroup⟩, rfl⟩
        · exact absurd hmem (hfresh d)
      · intro hnone
        exact absurd mem_cons_self (hnone durable)
    · rw [getElem?_insert_eq, if_neg hid] at hnamed hother
      rw [mem_iff, getElem?_insert_eq, if_neg hid, ← mem_iff] at hnamed
      constructor
      · intro d hmem
        rcases mem_cons.mp hmem with heq | hmem
        · exact absurd (Prod.mk.inj heq).1.symm hid
        · exact hnamed d hmem
      · intro hnone
        exact hother fun d hmem => hnone d (mem_cons_of_mem _ hmem)

lemma restoreGroups_lookup {durable : OrdMap GroupId LedgerGroup}
    {groups groups' : OrdMap GroupId Group}
    (h : restoreGroups now durable.toList groups = .ok groups') :
    (∀ gid : GroupId, gid ∈ durable → gid ∈ groups) ∧ ∀ gid : GroupId, groups'[gid]? =
      groups[gid]?.map fun g => (durable[gid]?).elim g (g.resumed now) := by
  have hspec := restoreGroups_spec now _ (toList_pairwise_lt durable) h
  constructor
  · intro gid hgid
    obtain ⟨d, hd⟩ := mem_iff.mp hgid
    exact ((hspec gid).1 d (mem_toList_iff.mpr hd)).1
  intro gid
  cases hd : durable[gid]? with
  | none =>
    have hsame := (hspec gid).2 fun d hmem => by
      rw [mem_toList_iff, hd] at hmem
      simp at hmem
    simp [hsame]
  | some d => exact ((hspec gid).1 d (mem_toList_iff.mpr hd)).2

lemma restoreGroups_ok (now : Nat) (l : List (GroupId × LedgerGroup)) :
    ∀ groups : OrdMap GroupId Group,
      (∀ e ∈ l, e.1 ∈ groups ∧ now + e.2.cooldownRemainingMs ≤ u64Max ∧
        now + e.2.pacingRemainingMs ≤ u64Max) →
      ∃ groups', restoreGroups now l groups = .ok groups' := by
  induction l with
  | nil => intro groups _; exact ⟨groups, rfl⟩
  | cons e l ih =>
    intro groups hl
    obtain ⟨hmem, hcooldown, hpacing⟩ := hl e mem_cons_self
    obtain ⟨group, hgroup⟩ := mem_iff.mp hmem
    unfold restoreGroups
    rw [hgroup]
    rw [checkedAdd_eq_some.mpr ⟨rfl, hcooldown⟩, checkedAdd_eq_some.mpr ⟨rfl, hpacing⟩]
    apply ih
    intro e' he'
    obtain ⟨hmem', hfits⟩ := hl e' (mem_cons_of_mem _ he')
    refine ⟨?_, hfits⟩
    rw [Std.ExtTreeMap.mem_insert]
    exact Or.inr hmem'

/-- The orphans of one group, in the ledger's order. -/
def orphansIn (config : AdmissionConfig) (now : Nat) (l : List OutstandingAttempt)
    (gid : GroupId) : List Orphan :=
  (l.filter fun o => o.group == gid).map (orphanOf ((config.groups[gid]?).getD default) now)

section

variable (config : AdmissionConfig) (now : Nat) (l : List OutstandingAttempt)

lemma restoreOutstanding_spec : ∀ {groups groups' : OrdMap GroupId Group},
      restoreOutstanding config now l groups = .ok groups' →
      (∀ o ∈ l, o.group ∈ config.groups) ∧ ∀ gid : GroupId, groups'[gid]? =
        groups[gid]?.map fun g =>
          { g with orphans := g.orphans ++ orphansIn config now l gid } := by
  induction l with
  | nil =>
    intro groups groups' h
    have hg : groups = groups' := by simpa [restoreOutstanding] using h
    subst hg
    simp [orphansIn]
  | cons attempt l ih =>
    intro groups groups' h
    unfold restoreOutstanding at h
    split at h
    · simp at h
    rename_i policy hpolicy
    obtain ⟨hknown, hlookup⟩ := ih h
    constructor
    · intro o ho
      rcases mem_cons.mp ho with rfl | ho
      · exact mem_iff.mpr ⟨policy, hpolicy⟩
      · exact hknown o ho
    intro gid
    rw [hlookup gid, OrdMap.getElem?_modify_eq]
    by_cases hgid : attempt.group = gid
    · have hcons : orphansIn config now (attempt :: l) gid =
          orphanOf policy now attempt :: orphansIn config now l gid := by
        rw [hgid] at hpolicy
        simp [orphansIn, hgid, hpolicy]
      rw [if_pos hgid, Option.map_map, hcons]
      congr 1
      funext g
      simp
    · have hcons : orphansIn config now (attempt :: l) gid = orphansIn config now l gid := by
        simp [orphansIn, hgid]
      rw [if_neg hgid, hcons]

lemma restoreOutstanding_ok : ∀ groups : OrdMap GroupId Group, (∀ o ∈ l, o.group ∈ config.groups) →
      ∃ groups', restoreOutstanding config now l groups = .ok groups' := by
  induction l with
  | nil => intro groups _; exact ⟨groups, rfl⟩
  | cons attempt l ih =>
    intro groups hl
    obtain ⟨policy, hpolicy⟩ := mem_iff.mp (hl attempt mem_cons_self)
    unfold restoreOutstanding
    rw [hpolicy]
    exact ih _ fun o ho => hl o (mem_cons_of_mem _ ho)

end

/-! ## A restored policy -/

/-- All that `restore` builds from a ledger. -/
structure Restored (config : AdmissionConfig) (ledger : AdmissionLedger) (now : Nat)
    (p : AdmissionPolicy) : Prop where
  wf : p.Wf
  configured : p.config = config
  epoch : p.epoch = ledger.epoch
  clock : p.now = now
  scopes : p.scopes = ∅
  requests : p.requests = ∅
  timed : ∀ gid : GroupId, gid ∈ ledger.groups → gid ∈ config.groups
  held : ∀ o ∈ ledger.outstanding, o.group ∈ config.groups
  resumed : ∀ (gid : GroupId) (g : Group) (durable : LedgerGroup), p.groups[gid]? = some g →
    ledger.groups[gid]? = some durable → g.cooldown = now + durable.cooldownRemainingMs ∧
      g.nextStart = now + durable.pacingRemainingMs ∧ g.unavailable = durable.unavailable
  orphans : ∀ (gid : GroupId) (g : Group), p.groups[gid]? = some g →
    g.orphans = orphansIn config now ledger.outstanding gid

lemma restored_of_restore (h : AdmissionPolicy.restore config ledger now = .ok p) :
    p.Restored config ledger now := by
  unfold AdmissionPolicy.restore at h
  split at h
  · simp at h
  rename_i policy hnew
  have wf := wf_of_new hnew
  have hfresh := fresh_of_new hnew
  split at h
  · simp at h
  rename_i groups hgroups
  split at h
  · simp at h
  rename_i groups' hgroups'
  have hp := Except.ok.inj h
  rw [← hp]
  obtain ⟨htimed, hresumed⟩ := restoreGroups_lookup hgroups
  obtain ⟨hheld, horphans⟩ := restoreOutstanding_spec config now _ hgroups'
  have hlookup : ∀ gid : GroupId, groups'[gid]? = policy.groups[gid]?.map fun g =>
      { (ledger.groups[gid]?).elim g (g.resumed now) with
        orphans := g.orphans ++ orphansIn config now ledger.outstanding gid } := by
    intro gid
    rw [horphans gid, hresumed gid, Option.map_map]
    cases ledger.groups[gid]? <;> rfl
  refine ⟨?_, hfresh.config, hfresh.epoch, rfl, hfresh.scopes, hfresh.requests, ?_, hheld, ?_, ?_⟩
  · refine { wf with groups := ?_, grouped := ?_, uncertain := ?_ }
    · intro gid
      rw [mem_iff, hlookup gid, ← wf.groups gid, mem_iff]
      simp
    · intro id r hr
      have hr' : policy.requests[id]? = some r := hr
      rw [hfresh.requests] at hr'
      simp at hr'
    · intro gid g id since hg hs
      rw [hlookup gid] at hg
      obtain ⟨g₀, hg₀, rfl⟩ := Option.map_eq_some_iff.mp hg
      have huncertain := (hfresh.groups gid g₀ hg₀).uncertain
      cases hd : ledger.groups[gid]? <;> simp [hd, Group.resumed, huncertain] at hs
  · intro gid hgid
    rw [← hfresh.config]
    exact (wf.groups gid).mp (htimed gid hgid)
  · intro gid g durable hg hdurable
    rw [hlookup gid, hdurable] at hg
    obtain ⟨g₀, _, rfl⟩ := Option.map_eq_some_iff.mp hg
    exact ⟨rfl, rfl, rfl⟩
  · intro gid g hg
    rw [hlookup gid] at hg
    obtain ⟨g₀, hg₀, rfl⟩ := Option.map_eq_some_iff.mp hg
    rw [(hfresh.groups gid g₀ hg₀).orphans]
    rfl

/-- A ledger whose groups are configured and whose sums fit is restored. -/
lemma restore_ok (hvalid : config.validate = .ok ())
    (htimed : ∀ (gid : GroupId) (durable : LedgerGroup), ledger.groups[gid]? = some durable →
      gid ∈ config.groups ∧ now + durable.cooldownRemainingMs ≤ u64Max ∧
        now + durable.pacingRemainingMs ≤ u64Max)
    (hheld : ∀ o ∈ ledger.outstanding, o.group ∈ config.groups) :
    ∃ p, AdmissionPolicy.restore config ledger now = .ok p := by
  obtain ⟨policy, hnew⟩ := new_ok hvalid ledger.epoch
  have wf := wf_of_new hnew
  have hconfig := (fresh_of_new hnew).config
  have hfits : ∀ e ∈ ledger.groups.toList, e.1 ∈ policy.groups ∧
      now + e.2.cooldownRemainingMs ≤ u64Max ∧ now + e.2.pacingRemainingMs ≤ u64Max := by
    intro e he
    obtain ⟨hgid, hfits⟩ := htimed e.1 e.2 (mem_toList_iff.mp he)
    refine ⟨(wf.groups e.1).mpr ?_, hfits⟩
    rw [hconfig]
    exact hgid
  obtain ⟨groups, hgroups⟩ := restoreGroups_ok now _ policy.groups hfits
  obtain ⟨groups', hgroups'⟩ := restoreOutstanding_ok config now _ groups hheld
  unfold AdmissionPolicy.restore
  rw [hnew]
  dsimp only
  rw [hgroups]
  dsimp only
  rw [hgroups']
  exact ⟨_, rfl⟩

end AdmissionPolicy

end Quecto.Admission
