/-
  Foundation/Search.lean --- the first and the last position with a property, the first
  occurrence of a list, and pages of a numbered list.
-/
import Mathlib.Data.List.Basic

namespace Quecto.Foundation

open List

variable {α : Type}

def position (p : α → Bool) (xs : List α) : Option Nat := xs.findIdx? p

def rposition (p : α → Bool) : List α → Option Nat
  | [] => none
  | x :: xs =>
      match rposition p xs with
      | some i => some (i + 1)
      | none => if p x then some 0 else none

def HoldsAt (p : α → Bool) (xs : List α) (i : Nat) : Prop := ∃ x, xs[i]? = some x ∧ p x = true

variable {p : α → Bool} {xs ys : List α} {i n : Nat} {x : α} {rank : α → Nat} {β : Type}
  {is : List Nat}

lemma HoldsAt.lt (h : HoldsAt p xs i) : i < xs.length := by
  obtain ⟨x, hx, -⟩ := h
  exact (List.getElem?_eq_some_iff.mp hx).1

@[simp] lemma not_holdsAt_nil (p : α → Bool) (i : Nat) : ¬ HoldsAt p [] i := by
  intro h
  exact absurd h.lt (by simp)

@[simp] lemma holdsAt_cons_zero (p : α → Bool) (x : α) (xs : List α) :
    HoldsAt p (x :: xs) 0 ↔ p x = true := by
  simp [HoldsAt]

@[simp] lemma holdsAt_cons_succ (p : α → Bool) (x : α) (xs : List α) (i : Nat) :
    HoldsAt p (x :: xs) (i + 1) ↔ HoldsAt p xs i := by
  simp [HoldsAt]

lemma holdsAt_append_left (h : i < xs.length) : HoldsAt p (xs ++ ys) i ↔ HoldsAt p xs i := by
  simp only [HoldsAt, getElem?_append_left h]

lemma holdsAt_append_right (h : xs.length ≤ i) :
    HoldsAt p (xs ++ ys) i ↔ HoldsAt p ys (i - xs.length) := by
  simp only [HoldsAt, getElem?_append_right h]

def FirstAt (p : α → Bool) (xs : List α) (i : Nat) : Prop :=
  HoldsAt p xs i ∧ ∀ j < i, ¬ HoldsAt p xs j

def LastAt (p : α → Bool) (xs : List α) (i : Nat) : Prop :=
  HoldsAt p xs i ∧ ∀ j, i < j → ¬ HoldsAt p xs j

lemma position_eq_some_iff : position p xs = some i ↔ FirstAt p xs i := by
  unfold position FirstAt
  rw [findIdx?_eq_some_iff_getElem]
  constructor
  · intro h
    obtain ⟨hi, hp, hbefore⟩ := h
    refine ⟨⟨xs[i], getElem?_eq_getElem hi, hp⟩, ?_⟩
    intro j hj hheld
    obtain ⟨x, hx, hpx⟩ := hheld
    obtain ⟨hlt, rfl⟩ := List.getElem?_eq_some_iff.mp hx
    exact hbefore j hj hpx
  · intro h
    obtain ⟨⟨x, hx, hp⟩, hbefore⟩ := h
    obtain ⟨hi, rfl⟩ := List.getElem?_eq_some_iff.mp hx
    refine ⟨hi, hp, ?_⟩
    intro j hj hpj
    exact hbefore j hj ⟨xs[j], getElem?_eq_getElem (Nat.lt_trans hj hi), hpj⟩

lemma position_eq_none_iff : position p xs = none ↔ ∀ i, ¬ HoldsAt p xs i := by
  unfold position
  rw [findIdx?_eq_none_iff]
  constructor
  · intro h i hheld
    obtain ⟨x, hx, hp⟩ := hheld
    have hfalse := h x (mem_of_getElem? hx)
    simp [hp] at hfalse
  intro h x hx
  obtain ⟨i, hi⟩ := mem_iff_getElem?.mp hx
  by_contra hp
  exact h i ⟨x, hi, by simpa using hp⟩

lemma forall_not_holdsAt_succ :
    (∀ j, i < j → ¬ HoldsAt p (x :: xs) j) ↔ ∀ j, i ≤ j → ¬ HoldsAt p xs j := by
  constructor
  · intro h j hij hheld
    exact h (j + 1) (Nat.lt_succ_of_le hij) ((holdsAt_cons_succ p x xs j).mpr hheld)
  intro h j hij hheld
  obtain ⟨k, rfl⟩ := Nat.exists_eq_succ_of_ne_zero (Nat.ne_zero_of_lt hij)
  exact h k (Nat.le_of_lt_succ hij) ((holdsAt_cons_succ p x xs k).mp hheld)

lemma forall_not_holdsAt_cons :
    (∀ i, ¬ HoldsAt p (x :: xs) i) ↔ p x = false ∧ ∀ i, ¬ HoldsAt p xs i := by
  constructor
  · intro h
    refine ⟨by simpa using h 0, fun i hheld => ?_⟩
    exact h (i + 1) ((holdsAt_cons_succ p x xs i).mpr hheld)
  intro h i hheld
  cases i with
  | zero => simp [h.1] at hheld
  | succ i => exact h.2 i ((holdsAt_cons_succ p x xs i).mp hheld)

lemma rposition_eq_none_iff : rposition p xs = none ↔ ∀ i, ¬ HoldsAt p xs i := by
  induction xs with
  | nil => simp [rposition]
  | cons x xs ih =>
    rw [forall_not_holdsAt_cons, ← ih, rposition]
    cases rposition p xs <;> simp

lemma rposition_eq_some_iff : rposition p xs = some i ↔ LastAt p xs i := by
  induction xs generalizing i with
  | nil => simp [rposition, LastAt]
  | cons x xs ih =>
    rw [LastAt, forall_not_holdsAt_succ]
    cases i with
    | zero =>
      have hnone : rposition p xs = none ↔ ∀ j, ¬ HoldsAt p xs j := rposition_eq_none_iff
      simp only [Nat.zero_le, forall_const, holdsAt_cons_zero]
      rw [← hnone, rposition]
      cases rposition p xs <;> simp
    | succ i =>
      have hlast : (HoldsAt p (x :: xs) (i + 1) ∧ ∀ j, i + 1 ≤ j → ¬ HoldsAt p xs j) ↔
          LastAt p xs i := by
        exact Iff.rfl
      rw [hlast, ← ih, rposition]
      cases rposition p xs <;> simp

lemma lastAt_concat : LastAt p (xs ++ [x]) i ↔ if p x then i = xs.length else LastAt p xs i := by
  have hnew : ∀ j, xs.length ≤ j → (HoldsAt p (xs ++ [x]) j ↔ j = xs.length ∧ p x = true) := by
    intro j hj
    rw [holdsAt_append_right hj]
    constructor
    · intro h
      have hlt : j - xs.length < [x].length := h.lt
      have hzero : j - xs.length = 0 := by simpa using hlt
      rw [hzero, holdsAt_cons_zero] at h
      exact ⟨by omega, h⟩
    · intro h
      rw [h.1, Nat.sub_self, holdsAt_cons_zero]
      exact h.2
  by_cases hp : p x = true
  · rw [if_pos hp]
    constructor
    · intro h
      have hlt : i < (xs ++ [x]).length := h.1.lt
      by_contra hne
      rw [length_append, length_singleton] at hlt
      exact h.2 xs.length (by omega) ((hnew _ (Nat.le_refl _)).mpr ⟨rfl, hp⟩)
    · intro h
      refine ⟨(hnew i (by omega)).mpr ⟨h, hp⟩, fun j hj hheld => ?_⟩
      have := ((hnew j (by omega)).mp hheld).1
      omega
  · rw [if_neg hp]
    have hnever : ∀ j, xs.length ≤ j → ¬ HoldsAt p (xs ++ [x]) j :=
      fun j hj h => hp ((hnew j hj).mp h).2
    have hsame : ∀ j, HoldsAt p (xs ++ [x]) j ↔ HoldsAt p xs j := by
      intro j
      by_cases hj : j < xs.length
      · exact holdsAt_append_left hj
      · exact iff_of_false (hnever j (Nat.le_of_not_lt hj)) fun h => hj h.lt
    simp only [LastAt, hsame]

lemma holdsAt_take : HoldsAt p (xs.take n) i ↔ i < n ∧ HoldsAt p xs i := by
  unfold HoldsAt
  rw [getElem?_take]
  by_cases h : i < n <;> simp [h]

lemma lastAt_take :
    LastAt p (xs.take n) i ↔ i < n ∧ HoldsAt p xs i ∧ ∀ j, i < j → j < n → ¬ HoldsAt p xs j := by
  rw [LastAt, holdsAt_take, and_assoc]
  refine and_congr_right fun _ => and_congr_right fun _ => forall_congr' fun j => ?_
  rw [holdsAt_take, not_and]

lemma lastAt_iff_split :
    LastAt p xs i ↔ ∃ before x behind, xs = before ++ x :: behind ∧ before.length = i ∧
      p x = true ∧ ∀ y ∈ behind, p y = false := by
  constructor
  · rintro ⟨⟨x, hx, hp⟩, hlast⟩
    have hlt : i < xs.length := (List.getElem?_eq_some_iff.mp hx).1
    refine ⟨xs.take i, x, xs.drop (i + 1), ?_, ?_, hp, ?_⟩
    · rw [← (List.getElem?_eq_some_iff.mp hx).2, getElem_cons_drop hlt, take_append_drop]
    · rw [length_take]
      omega
    intro y hy
    obtain ⟨j, hj⟩ := mem_iff_getElem?.mp hy
    rw [getElem?_drop] at hj
    rw [← Bool.not_eq_true]
    exact fun hheld => hlast (i + 1 + j) (by omega) ⟨y, hj, hheld⟩
  · rintro ⟨before, x, behind, rfl, rfl, hp, hbehind⟩
    refine ⟨⟨x, by simp, hp⟩, ?_⟩
    rintro j hj ⟨y, hy, hheld⟩
    obtain ⟨k, rfl⟩ := Nat.exists_eq_add_of_lt hj
    rw [getElem?_append_right (by omega), Nat.add_assoc, Nat.add_sub_cancel_left] at hy
    rw [hbehind y (mem_of_getElem? hy)] at hheld
    cases hheld

/-! ## The latest of the best -/

def latestBest (p : α → Bool) (rank : α → Nat) (xs : List α) : Option Nat :=
  ((xs.filter p).map rank).max?.bind fun best => rposition (fun x => p x && rank x == best) xs

structure BestBetween (p : α → Bool) (rank : α → Nat) (before : List α) (x : α) (behind : List α) :
    Prop where
  holds : p x = true
  before : ∀ y ∈ before, p y = true → rank y ≤ rank x
  behind : ∀ y ∈ behind, p y = true → rank y < rank x

lemma BestBetween.max {before behind : List α} (h : BestBetween p rank before x behind) :
    (((before ++ x :: behind).filter p).map rank).max? = some (rank x) := by
  rw [max?_eq_some_iff]
  constructor
  · exact mem_map_of_mem (mem_filter.mpr ⟨by simp, h.holds⟩)
  intro best hbest
  obtain ⟨y, hy, rfl⟩ := mem_map.mp hbest
  obtain ⟨hmem, hp⟩ := mem_filter.mp hy
  rcases mem_append.mp hmem with hbefore | hbehind
  · exact h.before y hbefore hp
  rcases mem_cons.mp hbehind with rfl | hbehind
  · exact Nat.le_refl _
  · exact Nat.le_of_lt (h.behind y hbehind hp)

lemma latestBest_eq_some_iff :
    latestBest p rank xs = some i ↔ ∃ before x behind, xs = before ++ x :: behind ∧
      before.length = i ∧ BestBetween p rank before x behind := by
  constructor
  · intro h
    obtain ⟨best, hbest, hposition⟩ := Option.bind_eq_some_iff.mp h
    obtain ⟨-, hbound⟩ := max?_eq_some_iff.mp hbest
    have hbounds : ∀ y ∈ xs, p y = true → rank y ≤ best := fun y hy hp =>
      hbound (rank y) (mem_map_of_mem (mem_filter.mpr ⟨hy, hp⟩))
    obtain ⟨before, x, behind, rfl, hlength, hx, hbehind⟩ :=
      lastAt_iff_split.mp (rposition_eq_some_iff.mp hposition)
    rw [Bool.and_eq_true, beq_iff_eq] at hx
    obtain ⟨hp, rfl⟩ := hx
    refine ⟨before, x, behind, rfl, hlength, hp, fun y hy => hbounds y (by simp [hy]), ?_⟩
    intro y hy hpy
    have hne := hbehind y hy
    rw [hpy, Bool.true_and, beq_eq_false_iff_ne] at hne
    exact Nat.lt_of_le_of_ne (hbounds y (by simp [hy]) hpy) hne
  · rintro ⟨before, x, behind, rfl, rfl, h⟩
    unfold latestBest
    rw [h.max, Option.bind_some, rposition_eq_some_iff, lastAt_iff_split]
    refine ⟨before, x, behind, rfl, rfl, by simp [h.holds], ?_⟩
    intro y hy
    cases hp : p y with
    | false => rfl
    | true =>
      rw [Bool.true_and, beq_eq_false_iff_ne]
      exact Nat.ne_of_lt (h.behind y hy hp)

lemma latestBest_eq_none_iff : latestBest p rank xs = none ↔ ∀ y ∈ xs, p y = false := by
  constructor
  · intro h y hy
    by_contra hp
    rw [Bool.not_eq_false] at hp
    cases hmax : ((xs.filter p).map rank).max? with
    | none =>
      rw [max?_eq_none_iff, map_eq_nil_iff, filter_eq_nil_iff] at hmax
      exact hmax y hy hp
    | some best =>
      obtain ⟨hbest, -⟩ := max?_eq_some_iff.mp hmax
      obtain ⟨z, hz, rfl⟩ := mem_map.mp hbest
      obtain ⟨hmem, hpz⟩ := mem_filter.mp hz
      rw [latestBest, hmax, Option.bind_some, rposition_eq_none_iff] at h
      obtain ⟨k, hk⟩ := mem_iff_getElem?.mp hmem
      exact h k ⟨z, hk, by simp [hpz]⟩
  · intro h
    have hnone : xs.filter p = [] := filter_eq_nil_iff.mpr fun y hy => by simp [h y hy]
    simp [latestBest, hnone]

lemma latestBest_map (f : β → α) (p : α → Bool) (rank : α → Nat) (xs : List β) :
    latestBest p rank (xs.map f) = latestBest (p ∘ f) (rank ∘ f) xs := by
  have hposition : ∀ (q : α → Bool) (ys : List β),
      rposition q (ys.map f) = rposition (q ∘ f) ys := by
    intro q ys
    induction ys with
    | nil => rfl
    | cons y ys ih => simp only [map_cons, rposition, ih, Function.comp_apply]
  unfold latestBest
  rw [filter_map, map_map]
  congr 1
  funext best
  exact hposition _ _

/-! ## Gathering entries -/

def gather (xs : List α) (indices : List Nat) : List α := indices.filterMap fun i => xs[i]?

@[simp] lemma gather_nil (xs : List α) : gather xs [] = [] := rfl

@[simp] lemma gather_append (xs : List α) (is js : List Nat) :
    gather xs (is ++ js) = gather xs is ++ gather xs js := filterMap_append

lemma gather_cons (h : xs[i]? = some x) (is : List Nat) :
    gather xs (i :: is) = x :: gather xs is := filterMap_cons_some h

lemma gather_singleton (h : xs[i]? = some x) : gather xs [i] = [x] := gather_cons h []

lemma gather_length (h : ∀ i ∈ is, i < xs.length) : (gather xs is).length = is.length := by
  induction is with
  | nil => rfl
  | cons i is ih =>
    rw [gather_cons (getElem?_eq_getElem (h i mem_cons_self)), length_cons,
      ih fun j hj => h j (mem_cons_of_mem i hj), length_cons]

lemma gather_lookup (h : ∀ i ∈ is, i < xs.length) (k : Nat) :
    (gather xs is)[k]? = is[k]?.bind fun i => xs[i]? := by
  induction is generalizing k with
  | nil => simp
  | cons i is ih =>
    rw [gather_cons (getElem?_eq_getElem (h i mem_cons_self))]
    cases k with
    | zero => simp [getElem?_eq_getElem (h i mem_cons_self)]
    | succ k => simpa using ih (fun j hj => h j (mem_cons_of_mem i hj)) k

lemma map_gather (f : α → β) (xs : List α) (is : List Nat) :
    (gather xs is).map f = gather (xs.map f) is := by
  simp only [gather, map_filterMap, getElem?_map]

lemma gather_tail (xs : List α) (start : Nat) :
    gather xs (range' start (xs.length - start)) = xs.drop start := by
  apply ext_getElem?
  intro k
  rw [gather_lookup (by intro i hi; have := mem_range'_1.mp hi; omega), getElem?_drop]
  by_cases hk : k < xs.length - start
  · rw [getElem?_range' hk, Option.bind_some, Nat.one_mul]
  · rw [getElem?_eq_none (by simpa using hk), Option.bind_none, getElem?_eq_none (by omega)]

lemma gather_filter_range (p : α → Bool) (xs : List α) :
    gather xs ((range xs.length).filter fun i => xs[i]?.any p) = xs.filter p := by
  induction xs with
  | nil => rfl
  | cons x xs ih =>
    have hrest : gather (x :: xs) (((range xs.length).map Nat.succ).filter
        fun i => (x :: xs)[i]?.any p) = xs.filter p := by
      rw [← ih, gather, filter_map, filterMap_map]
      rfl
    rw [length_cons, range_succ_eq_map, filter_cons]
    cases hp : p x with
    | true =>
      rw [if_pos (by simp [hp]), gather_cons (by rfl), hrest, filter_cons_of_pos hp]
    | false =>
      rw [if_neg (by simp [hp]), hrest, filter_cons_of_neg (by simp [hp])]

lemma map_lookup_eq (h : ∀ i ∈ is, i < xs.length) :
    (is.map fun i => xs[i]?) = (gather xs is).map some := by
  induction is with
  | nil => rfl
  | cons i is ih =>
    obtain ⟨hi, his⟩ := forall_mem_cons.mp h
    rw [gather_cons (getElem?_eq_getElem hi), map_cons, map_cons, ih his, getElem?_eq_getElem hi]

lemma gather_toList (xs : List α) (i : Option Nat) :
    gather xs i.toList = (i.bind fun i => xs[i]?).toList := by
  cases i with
  | none => rfl
  | some i =>
    cases h : xs[i]? <;> simp [gather, h]

/-! ## The first occurrence of a list -/

lemma prefix_of_prefix_append_cons {marker ys : List α} (hx : x ∉ marker)
    (front : List α) (h : marker <+: front ++ x :: ys) : marker <+: front := by
  rcases Nat.lt_or_ge front.length marker.length with hlt | hle
  · have hwhole : front ++ [x] <+: front ++ x :: ys :=
      (prefix_append_right_inj front).mpr (prefix_append [x] ys)
    have hover := prefix_of_prefix_length_le hwhole h (by rw [length_append]; exact hlt)
    exact absurd (hover.subset (mem_append_right front mem_cons_self)) hx
  · exact prefix_of_prefix_length_le h (prefix_append _ _) hle

section

variable [DecidableEq α] {marker xs rest : List α}

def restAfter (marker : List α) : List α → Option (List α)
  | [] => if marker = [] then some [] else none
  | x :: xs =>
    if marker <+: x :: xs then some ((x :: xs).drop marker.length) else restAfter marker xs

lemma restAfter_eq_none_iff : restAfter marker xs = none ↔ ¬ marker <:+: xs := by
  induction xs with
  | nil => simp [restAfter]
  | cons x xs ih =>
    rw [restAfter, infix_cons_iff, not_or, ← ih]
    split <;> simp [*]

lemma restAfter_append (h : restAfter marker xs = some rest) (ys : List α) :
    restAfter marker (xs ++ ys) = some (rest ++ ys) := by
  induction xs with
  | nil =>
    rw [restAfter] at h
    split at h
    · cases h
      cases ys <;> simp_all [restAfter]
    · cases h
  | cons x xs ih =>
    rw [restAfter] at h
    rw [cons_append, restAfter]
    split at h
    · rename_i hhere
      cases h
      rw [← cons_append, if_pos (hhere.trans (prefix_append (x :: xs) ys)),
        drop_append_of_le_length hhere.length_le]
    rename_i hnot
    have hlater : marker <:+: xs := by
      by_contra hnone
      cases (restAfter_eq_none_iff.mpr hnone).symm.trans h
    rw [if_neg, ih h]
    intro hhere
    exact hnot (prefix_of_prefix_length_le hhere (prefix_append (x :: xs) ys)
      (Nat.le_succ_of_le hlater.length_le))

lemma restAfter_append_cons (hx : x ∉ marker) (hmarker : marker ≠ [])
    (h : ¬ marker <:+: xs) (ys : List α) :
    restAfter marker (xs ++ x :: ys) = restAfter marker ys := by
  induction xs with
  | nil =>
    rw [nil_append, restAfter, if_neg]
    exact fun hhere => hmarker (prefix_nil.mp (prefix_of_prefix_append_cons hx [] hhere))
  | cons y xs ih =>
    rw [infix_cons_iff, not_or] at h
    rw [cons_append, restAfter, if_neg, ih h.2]
    exact fun hhere => h.1 (prefix_of_prefix_append_cons hx (y :: xs) hhere)

end

/-! ## Numbered lists -/

section

variable {α : Type} (number : α → Nat)

def NumberedFrom (start : Nat) (rows : List α) : Prop :=
  rows.map number = range' (start + 1) rows.length

variable {number} {start : Nat} {rows more : List α}

lemma numberedFrom_nil : NumberedFrom number start [] := rfl

lemma numberedFrom_cons {row : α} : NumberedFrom number start (row :: rows) ↔
      number row = start + 1 ∧ NumberedFrom number (start + 1) rows := by
  unfold NumberedFrom
  rw [map_cons, length_cons, range'_succ, cons.injEq]

lemma numberedFrom_append : NumberedFrom number start (rows ++ more) ↔
      NumberedFrom number start rows ∧ NumberedFrom number (start + rows.length) more := by
  induction rows generalizing start with
  | nil => simp [numberedFrom_nil]
  | cons row rest ih =>
    rw [cons_append, numberedFrom_cons, numberedFrom_cons, ih, length_cons, and_assoc,
      Nat.add_assoc, Nat.add_comm 1]

lemma NumberedFrom.last (h : NumberedFrom number start rows) :
    rows.getLast?.elim start number = start + rows.length := by
  induction rows generalizing start with
  | nil => rfl
  | cons row rest ih =>
    rw [numberedFrom_cons] at h
    obtain ⟨hrow, hrest⟩ := h
    have hlast := ih hrest
    rw [getLast?_cons, Option.elim_some, length_cons]
    cases hopt : rest.getLast? with
    | none =>
      rw [getLast?_eq_none_iff] at hopt
      rw [hopt, Option.getD_none, hrow, length_nil]
    | some last =>
      rw [hopt, Option.elim_some] at hlast
      rw [Option.getD_some]
      omega

lemma NumberedFrom.filter_lt_eq_drop (h : NumberedFrom number start rows) (n : Nat) :
    (rows.filter fun row => start + n < number row) = rows.drop n := by
  induction rows generalizing start n with
  | nil => simp
  | cons row rest ih =>
    rw [numberedFrom_cons] at h
    obtain ⟨hrow, hrest⟩ := h
    cases n with
    | zero =>
      have hall : (rest.filter fun row => start + 1 + 0 < number row) = rest := ih hrest 0
      have hlater : (rest.filter fun row => start + 0 < number row) = rest := by
        rw [filter_eq_self] at hall ⊢
        intro row hmem
        have hlt := hall row hmem
        rw [decide_eq_true_eq] at hlt ⊢
        omega
      have hfirst : decide (start + 0 < number row) = true := by
        rw [decide_eq_true_eq]
        omega
      rw [filter_cons, if_pos hfirst, hlater, drop_zero]
    | succ n =>
      have hskip : ¬ (decide (start + (n + 1) < number row) = true) := by
        rw [decide_eq_true_eq]
        omega
      rw [filter_cons, if_neg hskip, drop_succ_cons, ← ih hrest n, Nat.add_assoc, Nat.add_comm 1]

end

/-! ## Pages -/

section

variable {α : Type} (cost : α → Nat) (budget : Nat)

/-- The first of the rows, while what was spent is under the budget; with `one`, one row
at least.  Also what was spent. -/
def takeWithin (one : Bool) (spent : Nat) : List α → List α × Nat
  | [] => ([], spent)
  | row :: rest =>
      if spent < budget || one then
        let (taken, spent) := takeWithin false (spent + cost row) rest
        (row :: taken, spent)
      else ([], spent)

lemma takeWithin_isPrefix (one : Bool) (spent : Nat) (rows : List α) :
    (takeWithin cost budget one spent rows).1 <+: rows := by
  induction rows generalizing one spent with
  | nil => exact nil_prefix
  | cons row rest ih =>
    unfold takeWithin
    split
    · exact (prefix_cons_inj row).mpr (ih false (spent + cost row))
    · exact nil_prefix

end

end Quecto.Foundation
