/-
  Foundation/OrdMap.lean --- ordered maps over a linear order of keys, and round robin over
  a changing set of them.
-/
import Quecto.Foundation.Machine
import Mathlib.Data.Prod.Lex

namespace Quecto.Foundation

open List Std.ExtTreeMap

universe u v

instance instTransOrdOfLinearOrder {κ : Type u} [LinearOrder κ] : Std.TransOrd κ := inferInstance

instance instLawfulEqOrdOfLinearOrder {κ : Type u} [LinearOrder κ] : Std.LawfulEqOrd κ where
  eq_of_compare := compare_eq_iff_eq.mp

/-- Maps whose keys are in order, as a `BTreeMap` keeps them. -/
abbrev OrdMap (κ : Type u) (β : Type v) [LinearOrder κ] : Type (max u v) :=
  Std.ExtTreeMap κ β

namespace OrdMap

variable {κ : Type u} {β γ : Type v} [LinearOrder κ]

/-! ## Lookups -/

section

variable (m : OrdMap κ β) (k a : κ)

lemma getElem?_insert_eq (v : β) : (m.insert k v)[a]? = if k = a then some v else m[a]? := by
  rw [Std.ExtTreeMap.getElem?_insert]
  simp only [compare_eq_iff_eq]

lemma getElem?_erase_eq : (m.erase k)[a]? = if k = a then none else m[a]? := by
  rw [getElem?_erase]
  simp only [compare_eq_iff_eq]

lemma getElem?_modify_eq (f : β → β) :
    (m.modify k f)[a]? = if k = a then m[a]?.map f else m[a]? := by
  rw [Std.ExtTreeMap.getElem?_modify]
  by_cases h : k = a
  · subst h; simp
  · simp [h]

lemma getElem?_insertIfNew_eq (v : β) :
    (m.insertIfNew k v)[a]? = if k = a then some ((m[a]?).getD v) else m[a]? := by
  rw [getElem?_insertIfNew]
  by_cases h : k = a
  · subst h
    cases hk : m[k]? <;> simp [mem_iff_isSome_getElem?, hk]
  · simp [h]

end

lemma getElem?_filter_eq (m : OrdMap κ β) (f : κ → β → Bool) (k : κ) :
    (m.filter f)[k]? = m[k]?.filter (f k) :=
  getElem?_filter'

variable {m : OrdMap κ β} {k : κ} {R : β → γ → Prop} {m' : OrdMap κ γ} {P : κ → β → Bool}
  {P' : κ → γ → Bool} {f : κ → β → List γ}

section

variable {a : κ} {v w : β}

lemma of_insert (h : (m.insert k v)[a]? = some w) : k = a ∧ v = w ∨ k ≠ a ∧ m[a]? = some w := by
  rw [getElem?_insert_eq] at h
  split at h
  · exact .inl ⟨‹_›, Option.some.inj h⟩
  · exact .inr ⟨‹_›, h⟩

lemma of_modify {f : β → β} (h : (m.modify k f)[a]? = some w) :
    ∃ v, m[a]? = some v ∧ (k = a ∧ f v = w ∨ k ≠ a ∧ v = w) := by
  rw [getElem?_modify_eq] at h
  split at h
  · obtain ⟨v, hv, hw⟩ := Option.map_eq_some_iff.mp h
    exact ⟨v, hv, .inl ⟨‹_›, hw⟩⟩
  · exact ⟨w, h, .inr ⟨‹_›, rfl⟩⟩

lemma of_erase (h : (m.erase k)[a]? = some w) : k ≠ a ∧ m[a]? = some w := by
  rw [getElem?_erase_eq] at h
  split at h
  · cases h
  · exact ⟨‹_›, h⟩

end

lemma mem_iff : k ∈ m ↔ ∃ v, m[k]? = some v := by
  rw [mem_iff_isSome_getElem?, Option.isSome_iff_exists]

lemma mem_toList_iff {v : β} : (k, v) ∈ m.toList ↔ m[k]? = some v :=
  mem_toList_iff_getElem?_eq_some

lemma toList_pairwise_lt (m : OrdMap κ β) : m.toList.Pairwise (fun a b => a.1 < b.1) := by
  refine ordered_keys_toList.imp ?_
  intro a b h
  exact compare_lt_iff_lt.mp h

lemma keys_pairwise_lt (m : OrdMap κ β) : m.keys.Pairwise (· < ·) := by
  refine ordered_keys.imp ?_
  intro a b h
  exact compare_lt_iff_lt.mp h

lemma map_eq_self {f : κ → β → β} (h : ∀ a v, m[a]? = some v → f a v = v) : m.map f = m := by
  refine ext_getElem? fun a => ?_
  rw [Std.ExtTreeMap.getElem?_map]
  cases hv : m[a]? with
  | none => rfl
  | some v => rw [Option.map_some, h a v hv]

lemma eq_empty_of_size (h : m.size = 0) : m = ∅ := by
  have hempty : m.isEmpty = true := by
    rw [isEmpty_eq_size_beq_zero, h]
    rfl
  exact isEmpty_iff.mp hempty

lemma getElem?_foldl_erase (ks : List κ) (m : OrdMap κ β) (a : κ) :
    (ks.foldl (fun m k => m.erase k) m)[a]? = if a ∈ ks then none else m[a]? := by
  induction ks generalizing m with
  | nil => simp
  | cons k ks ih =>
    rw [foldl_cons, ih, getElem?_erase_eq]
    by_cases h : k = a
    · subst h; simp
    · have h' : ¬ a = k := fun e => h e.symm
      simp [h, h']

/-! ## Lookups related key by key -/

section

variable {x : Option β} {y : Option γ} {a : β} {b : γ} (h : Option.Rel R x y)
include h

lemma exists_of_rel_right (hy : y = some b) : ∃ a, x = some a ∧ R a b := by
  cases h with
  | none => cases hy
  | some hab => exact ⟨_, rfl, Option.some.inj hy ▸ hab⟩

lemma exists_of_rel_left (hx : x = some a) : ∃ b, y = some b ∧ R a b := by
  cases h with
  | none => cases hx
  | some hab => exact ⟨_, rfl, Option.some.inj hx ▸ hab⟩

lemma rel_trans {S : γ → β → Prop} {T : β → β → Prop} {z : Option β} (h' : Option.Rel S y z)
    (htrans : ∀ a b c, R a b → S b c → T a c) : Option.Rel T x z := by
  cases h with
  | none => cases h'; exact .none
  | some hab => cases h' with | some hbc => exact .some (htrans _ _ _ hab hbc)

end

lemma rel_refl {R : β → β → Prop} (hrefl : ∀ v, R v v) (x : Option β) : Option.Rel R x x := by
  cases x with
  | none => exact .none
  | some v => exact .some (hrefl v)

lemma rel_modify {R : β → β → Prop} (hrefl : ∀ v, R v v) (m : OrdMap κ β) {k a : κ} {f : β → β}
    (hf : k = a → ∀ v, R v (f v)) : Option.Rel R m[a]? (m.modify k f)[a]? := by
  rw [getElem?_modify_eq]
  split
  · rename_i hka
    cases m[a]? with
    | none => exact .none
    | some v => exact .some (hf hka v)
  · exact rel_refl hrefl _

lemma mem_iff_of_rel (h : Option.Rel R m[k]? m'[k]?) : k ∈ m' ↔ k ∈ m := by
  rw [mem_iff, mem_iff]
  constructor
  · rintro ⟨v, hv⟩
    obtain ⟨w, hw, _⟩ := exists_of_rel_right h hv
    exact ⟨w, hw⟩
  rintro ⟨v, hv⟩
  obtain ⟨w, hw, _⟩ := exists_of_rel_left h hv
  exact ⟨w, hw⟩

/-! ## Counting entries -/

/-- How many entries satisfy `P`. -/
def count (m : OrdMap κ β) (P : κ → β → Bool) : Nat :=
  m.toList.countP fun e => P e.1 e.2

/-- The keys of the entries that satisfy `P`, in order. -/
def keysWith (m : OrdMap κ β) (P : κ → β → Bool) : List κ :=
  (m.toList.filter fun e => P e.1 e.2).map (·.1)

lemma length_keysWith (m : OrdMap κ β) (P : κ → β → Bool) : (m.keysWith P).length = m.count P := by
  simp [keysWith, count, countP_eq_length_filter]

lemma mem_keysWith : k ∈ m.keysWith P ↔ ∃ v, m[k]? = some v ∧ P k v = true := by
  simp only [keysWith, mem_map, mem_filter, Prod.exists]
  constructor
  · rintro ⟨k', v, ⟨hm, hP⟩, rfl⟩
    exact ⟨v, mem_toList_iff.mp hm, hP⟩
  · rintro ⟨v, hv, hP⟩
    exact ⟨k, v, ⟨mem_toList_iff.mpr hv, hP⟩, rfl⟩

section

variable (m P)

lemma keysWith_pairwise_lt : (m.keysWith P).Pairwise (· < ·) := by
  rw [keysWith, pairwise_map]
  exact (toList_pairwise_lt m).filter _

lemma nodup_keysWith : (m.keysWith P).Nodup := (keysWith_pairwise_lt m P).imp fun h => ne_of_lt h

end

lemma count_le_count
    (h : ∀ k v', m'[k]? = some v' → P' k v' = true → ∃ v, m[k]? = some v ∧ P k v = true) :
    m'.count P' ≤ m.count P := by
  rw [← length_keysWith, ← length_keysWith]
  refine (subperm_of_subset (nodup_keysWith m' P') ?_).length_le
  intro k hk
  obtain ⟨v', hv', hP'⟩ := mem_keysWith.mp hk
  exact mem_keysWith.mpr (h k v' hv' hP')

lemma count_le_count_succ (k₀ : κ)
    (h : ∀ k v', k ≠ k₀ → m'[k]? = some v' → P' k v' = true → ∃ v, m[k]? = some v ∧ P k v = true) :
    m'.count P' ≤ m.count P + 1 := by
  rw [← length_keysWith, ← length_keysWith]
  have hsub : m'.keysWith P' ⊆ k₀ :: m.keysWith P := by
    intro k hk
    obtain ⟨v', hv', hP'⟩ := mem_keysWith.mp hk
    by_cases hk₀ : k = k₀
    · exact hk₀ ▸ mem_cons_self
    · exact mem_cons_of_mem _ (mem_keysWith.mpr (h k v' hk₀ hv' hP'))
  exact (subperm_of_subset (nodup_keysWith m' P') hsub).length_le

lemma count_eq_zero_iff : m.count P = 0 ↔ ∀ k v, m[k]? = some v → P k v = false := by
  simp only [count, countP_eq_zero, Prod.forall, Bool.not_eq_true]
  constructor
  · intro h k v hv
    exact h k v (mem_toList_iff.mpr hv)
  · intro h k v hm
    exact h k v (mem_toList_iff.mp hm)

lemma count_add_count {Q R : κ → β → Bool}
    (h : ∀ k v, m[k]? = some v →
      (P k v = true ↔ Q k v = true ∨ R k v = true) ∧ ¬ (Q k v = true ∧ R k v = true)) :
    m.count P = m.count Q + m.count R := by
  have key : ∀ l : List (κ × β), (∀ e ∈ l, m[e.1]? = some e.2) → l.countP (fun e => P e.1 e.2) =
        l.countP (fun e => Q e.1 e.2) + l.countP (fun e => R e.1 e.2) := by
    intro l
    induction l with
    | nil => intro _; rfl
    | cons e l ih =>
      intro hl
      have he := h e.1 e.2 (hl e mem_cons_self)
      cases hQ : Q e.1 e.2 <;> cases hR : R e.1 e.2 <;> cases hP : P e.1 e.2 <;>
        simp_all <;> omega
  exact key m.toList fun e he => mem_toList_iff.mp he

section

variable (h : ∀ k, (∃ v, m'[k]? = some v ∧ P' k v = true) ↔ ∃ v, m[k]? = some v ∧ P k v = true)
include h

lemma keysWith_congr : m'.keysWith P' = m.keysWith P := by
  have hperm : (m'.keysWith P').Perm (m.keysWith P) :=
    (perm_ext_iff_of_nodup (nodup_keysWith m' P') (nodup_keysWith m P)).mpr fun k => by
      rw [mem_keysWith, mem_keysWith]
      exact h k
  exact hperm.eq_of_pairwise (fun a b _ _ hab hba => absurd hab (lt_asymm hba))
    (keysWith_pairwise_lt m' P') (keysWith_pairwise_lt m P)

lemma count_congr : m'.count P' = m.count P := by
  rw [← length_keysWith, ← length_keysWith, keysWith_congr h]

end

/-! ## Collecting from the entries -/

/-- What `f` makes of each entry, in the order of the keys. -/
def collect (m : OrdMap κ β) (f : κ → β → List γ) : List γ :=
  m.toList.flatMap fun e => f e.1 e.2

lemma mem_collect {c : γ} : c ∈ m.collect f ↔ ∃ k v, m[k]? = some v ∧ c ∈ f k v := by
  simp only [collect, mem_flatMap, Prod.exists, mem_toList_iff]

lemma collect_eq_flatMap_keysWith (m : OrdMap κ β) (f : κ → β → List γ) : m.collect f =
      (m.keysWith fun k v => !(f k v).isEmpty).flatMap fun k => (m[k]?).elim [] (f k) := by
  have key : ∀ l : List (κ × β), (∀ e ∈ l, m[e.1]? = some e.2) → (l.flatMap fun e => f e.1 e.2) =
        ((l.filter fun e => !(f e.1 e.2).isEmpty).map (·.1)).flatMap
          fun k => (m[k]?).elim [] (f k) := by
    intro l
    induction l with
    | nil => intro _; rfl
    | cons e l ih =>
      intro hl
      have he := hl e mem_cons_self
      rw [flatMap_cons, ih fun e' he' => hl e' (mem_cons_of_mem _ he')]
      by_cases hempty : f e.1 e.2 = []
      · simp [hempty]
      · simp [hempty, he]
  exact key m.toList fun e he => mem_toList_iff.mp he

lemma sublist_of_subset_of_lt {l l' : List κ} (hl : l.Pairwise (· < ·))
    (hl' : l'.Pairwise (· < ·)) (h : l ⊆ l') : l.Sublist l' := by
  have hsubperm : l.Subperm l' := subperm_of_subset (hl.imp fun hab => ne_of_lt hab) h
  exact sublist_of_subperm_of_pairwise hsubperm (hl.imp fun hab => le_of_lt hab)
    (hl'.imp fun hab => le_of_lt hab)

lemma collect_sublist {δ : Type v} {m' : OrdMap κ δ} {f' : κ → δ → List γ}
    (h : ∀ k v', m'[k]? = some v' → f' k v' ≠ [] →
      ∃ v, m[k]? = some v ∧ (f' k v').Sublist (f k v)) :
    (m'.collect f').Sublist (m.collect f) := by
  rw [collect_eq_flatMap_keysWith m', collect_eq_flatMap_keysWith m]
  have hkeys : (m'.keysWith fun k v => !(f' k v).isEmpty).Sublist
      (m.keysWith fun k v => !(f k v).isEmpty) := by
    apply sublist_of_subset_of_lt (keysWith_pairwise_lt _ _) (keysWith_pairwise_lt _ _)
    intro k hk
    obtain ⟨v', hv', hne⟩ := mem_keysWith.mp hk
    have hne' : f' k v' ≠ [] := by simpa using hne
    obtain ⟨v, hv, hsub⟩ := h k v' hv' hne'
    refine mem_keysWith.mpr ⟨v, hv, ?_⟩
    have hnonempty : f k v ≠ [] := by
      intro hnil
      rw [hnil] at hsub
      exact hne' (sublist_nil.mp hsub)
    simpa using hnonempty
  refine (List.Sublist.flatMap_right _ ?_).trans (hkeys.flatMap _)
  intro k hk
  obtain ⟨v', hv', hne⟩ := mem_keysWith.mp hk
  obtain ⟨v, hv, hsub⟩ := h k v' hv' (by simpa using hne)
  rw [hv', hv]
  exact hsub

lemma collect_congr {g : κ → β → List γ} (h : ∀ k v, m[k]? = some v → f k v = g k v) :
    m.collect f = m.collect g := by
  apply flatMap_congr
  intro e he
  exact h e.1 e.2 (mem_toList_iff.mp he)

lemma flatMap_filter_perm (key : γ → κ) (l : List γ) {ks : List κ} (h : ks.Nodup) :
    (ks.flatMap fun k => l.filter fun x => key x == k).Perm (l.filter (key · ∈ ks)) := by
  induction ks with
  | nil => simp
  | cons k ks ih =>
    obtain ⟨hk, hks⟩ := nodup_cons.mp h
    refine ((ih hks).append_left _).trans ?_
    refine (Perm.of_eq ?_).trans (filter_append_perm (key · == k) (l.filter (key · ∈ k :: ks)))
    rw [filter_filter, filter_filter]
    congr 1
    · refine filter_congr fun x _ => ?_
      by_cases hx : key x = k <;> simp [hx]
    · refine filter_congr fun x _ => ?_
      by_cases hx : key x = k <;> simp [hx, hk]

/-- What is collected by its key is all there is. -/
lemma collect_partition {l : List γ} {key : γ → κ} (h : ∀ x ∈ l, key x ∈ m) :
    (m.collect fun k _ => l.filter fun x => key x == k).Perm l := by
  have hnodup : m.keys.Nodup := (keys_pairwise_lt m).imp fun hab => ne_of_lt hab
  have hall : l.filter (key · ∈ m.keys) = l :=
    filter_eq_self.mpr fun x hx => decide_eq_true (Std.ExtTreeMap.mem_keys.mpr (h x hx))
  have hperm := flatMap_filter_perm key l hnodup
  rwa [hall, ← map_fst_toList_eq_keys, flatMap_map] at hperm

end OrdMap

section RoundRobin

variable {α : Type u} [LinearOrder α]

/-- The first of `keys` past the last one served, or the first of all. -/
def roundRobin (keys : List α) (after : Option α) : Option α :=
  (after.bind fun previous => keys.find? fun k => decide (previous < k)).or keys.head?

/-- `x` is the least of `S` past the last one served, or the least of all when there is
none past it. -/
def IsNext (S : Set α) (after : Option α) (x : α) : Prop :=
  x ∈ S ∧ ((∃ previous, after = some previous ∧ previous < x ∧ ∀ y ∈ S, previous < y → x ≤ y) ∨
      ((∀ previous, after = some previous → ∀ y ∈ S, ¬ previous < y) ∧ ∀ y ∈ S, x ≤ y))

variable {keys : List α} {x y : α} {after : Option α} {S : Set α}

lemma head?_le_of_pairwise (sorted : keys.Pairwise (· < ·)) (hx : keys.head? = some x)
    (hy : y ∈ keys) : x ≤ y := by
  cases keys with
  | nil => simp at hy
  | cons a rest =>
    have ha : a = x := by simpa using hx
    subst ha
    rcases mem_cons.mp hy with rfl | hy
    · exact le_refl _
    · exact le_of_lt (rel_of_pairwise_cons sorted hy)

lemma find?_le_of_pairwise (sorted : keys.Pairwise (· < ·)) {q : α → Bool}
    (hx : keys.find? q = some x) (hy : y ∈ keys) (hq : q y = true) : x ≤ y := by
  induction keys with
  | nil => simp at hy
  | cons a rest ih =>
    by_cases ha : q a = true
    · have : a = x := by simpa [ha] using hx
      subst this
      rcases mem_cons.mp hy with rfl | hy
      · exact le_refl _
      · exact le_of_lt (rel_of_pairwise_cons sorted hy)
    · have hrest : rest.find? q = some x := by simpa [ha] using hx
      rcases mem_cons.mp hy with rfl | hy
      · exact absurd hq ha
      · exact ih sorted.of_cons hrest hy

lemma isNext_of_roundRobin (sorted : keys.Pairwise (· < ·)) (h : roundRobin keys after = some x) :
    IsNext {k | k ∈ keys} after x := by
  unfold roundRobin at h
  cases hfind : after.bind (fun previous => keys.find? fun k => decide (previous < k)) with
  | some y =>
    rw [hfind, Option.some_or, Option.some.injEq] at h
    subst h
    obtain ⟨previous, hafter, hfound⟩ := Option.bind_eq_some_iff.mp hfind
    have htest := List.find?_some hfound
    have hlt : previous < y := by simpa using htest
    refine ⟨mem_of_find?_eq_some hfound, Or.inl ⟨previous, hafter, hlt, ?_⟩⟩
    intro z hz hprev
    exact find?_le_of_pairwise sorted hfound hz (decide_eq_true hprev)
  | none =>
    rw [hfind] at h
    refine ⟨mem_of_mem_head? h, Or.inr ⟨?_, ?_⟩⟩
    · intro previous hafter z hz hprev
      rw [hafter, Option.bind_some, List.find?_eq_none] at hfind
      exact hfind z hz (decide_eq_true hprev)
    · intro z hz
      exact head?_le_of_pairwise sorted h hz

lemma isNext_keys {β : Type u} {m : OrdMap α β} (hmem : ∀ k, k ∈ m ↔ k ∈ S)
    (h : roundRobin m.keys after = some x) : IsNext S after x := by
  have hnext := isNext_of_roundRobin (OrdMap.keys_pairwise_lt m) h
  have hset : {k | k ∈ m.keys} = S := by
    ext k
    rw [Set.mem_ofPred_eq, Std.ExtTreeMap.mem_keys]
    exact hmem k
  rwa [hset] at hnext

lemma roundRobin_isSome {k : α} (h : k ∈ keys) (after : Option α) :
    ∃ x, roundRobin keys after = some x := by
  unfold roundRobin
  cases after.bind (fun previous => keys.find? fun k => decide (previous < k)) with
  | some y => exact ⟨y, rfl⟩
  | none =>
    cases keys with
    | nil => simp at h
    | cons a rest => exact ⟨a, rfl⟩

/-! ## No overtaking -/

/-- From `a` on, going round, the cursor has not come to `b`. -/
def Approaching (a b : α) (cursor : α) : Prop :=
  if a < b then a ≤ cursor ∧ cursor < b else a ≤ cursor ∨ cursor < b

lemma approaching_start (a b : α) : Approaching a b a := by
  unfold Approaching
  split
  · rename_i h
    exact ⟨le_refl a, h⟩
  · exact Or.inl (le_refl a)

lemma approaching_isNext {a b cursor : α} (hb : b ∈ S) (hne : a ≠ b) (h : Approaching a b cursor)
    (hx : IsNext S (some cursor) x) : x = b ∨ (Approaching a b x ∧ x ≠ a) := by
  by_cases hxb : x = b
  · exact Or.inl hxb
  refine Or.inr ?_
  unfold Approaching at h ⊢
  obtain ⟨_, ⟨previous, hprev, hlt, hleast⟩ | ⟨hnone, hleast⟩⟩ := hx
  · have hcur : cursor = previous := by simpa using hprev
    subst hcur
    by_cases hab : a < b
    · rw [if_pos hab] at h ⊢
      have hxle : x ≤ b := hleast b hb h.2
      exact ⟨⟨le_trans h.1 (le_of_lt hlt), lt_of_le_of_ne hxle hxb⟩,
        ne_of_gt (lt_of_le_of_lt h.1 hlt)⟩
    rw [if_neg hab] at h ⊢
    have hba : b < a := lt_of_le_of_ne (not_lt.mp hab) (Ne.symm hne)
    rcases h with h | h
    · have hax : a < x := lt_of_le_of_lt h hlt
      exact ⟨Or.inl (le_of_lt hax), ne_of_gt hax⟩
    have hxle : x ≤ b := hleast b hb h
    have hxlt : x < b := lt_of_le_of_ne hxle hxb
    exact ⟨Or.inr hxlt, ne_of_lt (lt_trans hxlt hba)⟩
  · have hnb : ¬ cursor < b := hnone cursor rfl b hb
    have hxlt : x < b := lt_of_le_of_ne (hleast b hb) hxb
    by_cases hab : a < b
    · rw [if_pos hab] at h
      exact absurd h.2 hnb
    rw [if_neg hab]
    have hba : b < a := lt_of_le_of_ne (not_lt.mp hab) (Ne.symm hne)
    exact ⟨Or.inr hxlt, ne_of_lt (lt_trans hxlt hba)⟩

end RoundRobin

section

variable {σ α ω κ : Type u} [LinearOrder κ] (step : σ → α → ω × σ) (cursor : σ → Option κ)
  (served : σ → α → Option κ)

/-- A step serves nobody and leaves the cursor, or serves the next one of a set that `b`
is waiting in. -/
def TakesTurn (b : κ) (s : σ) (i : α) : Prop :=
  (served s i = none ∧ cursor (step s i).2 = cursor s) ∨
    ∃ (S : Set κ) (x : κ), served s i = some x ∧ cursor (step s i).2 = some x ∧ b ∈ S ∧
      IsNext S (cursor s) x

variable {step cursor served}

lemma serves_or_approaches {a b : κ} (hne : a ≠ b) (mid : List α) :
    ∀ {s : σ} {c : κ}, cursor s = some c → Approaching a b c →
      (∀ before i, before ++ [i] <+: mid → TakesTurn step cursor served b (exec step s before) i) →
        (∃ before i, before ++ [i] <+: mid ∧ served (exec step s before) i = some b) ∨
          ∃ c', cursor (exec step s mid) = some c' ∧ Approaching a b c' := by
  induction mid with
  | nil =>
    intro s c hc happ _
    exact Or.inr ⟨c, hc, happ⟩
  | cons i mid ih =>
    intro s c hc happ hturns
    have hrest : ∀ before j, before ++ [j] <+: mid →
        TakesTurn step cursor served b (exec step (step s i).2 before) j := by
      intro before j hpre
      exact hturns (i :: before) j (cons_prefix_cons.mpr ⟨rfl, hpre⟩)
    have hlift : (∃ before j, before ++ [j] <+: mid ∧
          served (exec step (step s i).2 before) j = some b) →
        ∃ before j, before ++ [j] <+: i :: mid ∧ served (exec step s before) j = some b := by
      rintro ⟨before, j, hpre, hserved⟩
      exact ⟨i :: before, j, cons_prefix_cons.mpr ⟨rfl, hpre⟩, hserved⟩
    rcases hturns [] i ⟨mid, rfl⟩ with ⟨_, hcursor⟩ | ⟨S, x, hserved, hcursor, hb, hnext⟩
    · rcases ih (hcursor.trans hc) happ hrest with hfound | hmore
      · exact Or.inl (hlift hfound)
      · exact Or.inr hmore
    rw [exec_nil, hc] at hnext
    rcases approaching_isNext hb hne happ hnext with rfl | ⟨happ', _⟩
    · exact Or.inl ⟨[], i, ⟨mid, rfl⟩, hserved⟩
    rcases ih hcursor happ' hrest with hfound | hmore
    · exact Or.inl (hlift hfound)
    · exact Or.inr hmore

variable (cursor) in
/-- Who waits is served before the one served last is served again. -/
lemma served_between {a b : κ} (hne : a ≠ b) {s : σ} {mid : List α} {last : α}
    (hstart : cursor s = some a) (hturns : ∀ before i, before ++ [i] <+: mid →
      TakesTurn step cursor served b (exec step s before) i)
    (hlast : TakesTurn step cursor served b (exec step s mid) last)
    (hagain : served (exec step s mid) last = some a) :
    ∃ before i, before ++ [i] <+: mid ∧ served (exec step s before) i = some b := by
  rcases serves_or_approaches hne mid hstart (approaching_start a b) hturns with
    hfound | ⟨c, hc, happ⟩
  · exact hfound
  rcases hlast with ⟨hnone, _⟩ | ⟨S, x, hserved, _, hb, hnext⟩
  · rw [hagain] at hnone
    simp at hnone
  rw [hagain] at hserved
  rw [← Option.some.inj hserved, hc] at hnext
  rcases approaching_isNext hb hne happ hnext with heq | ⟨_, hback⟩
  · exact absurd heq hne
  · exact absurd rfl hback

end

end Quecto.Foundation
