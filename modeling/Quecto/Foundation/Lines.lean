/-
  Foundation/Lines.lean --- texts cut into lines, lines trimmed at their edges, and
  leftmost-first matching with regular expressions, over any alphabet.
-/
import Mathlib.Data.List.DropRight

namespace Quecto.Foundation

open List

variable {α : Type}

/-! ## Lines -/

variable {x : α}

lemma filter_intercalate {p : α → Bool} (hx : p x = false) (ls : List (List α)) :
    ([x].intercalate ls).filter p = (ls.map (List.filter p)).flatten := by
  match ls with
  | [] => rfl
  | [l] => simp [List.intercalate]
  | l :: l' :: ls =>
    have ih := filter_intercalate hx (l' :: ls)
    simp only [List.intercalate, intersperse_cons_cons, flatten_cons, filter_append,
      filter_singleton, hx, map_cons] at ih ⊢
    simp [ih]

lemma mem_intercalate {c : α} {ls : List (List α)} (h : c ∈ [x].intercalate ls) :
    c = x ∨ ∃ l ∈ ls, c ∈ l := by
  match ls, h with
  | [], h => simp [List.intercalate] at h
  | [l], h => exact .inr ⟨l, by simp, by simpa [List.intercalate] using h⟩
  | l :: l' :: ls, h =>
    have ih : c ∈ [x].intercalate (l' :: ls) → c = x ∨ ∃ k ∈ l' :: ls, c ∈ k := mem_intercalate
    simp only [List.intercalate, intersperse_cons_cons, flatten_cons, mem_append,
      mem_singleton] at h ih
    rcases h with h | h | h
    · exact .inr ⟨l, by simp, h⟩
    · exact .inl h
    obtain hc | ⟨k, hk, hc⟩ := ih h
    · exact .inl hc
    · exact .inr ⟨k, mem_cons_of_mem _ hk, hc⟩

lemma mem_of_mem_splitOn [BEq α] [LawfulBEq α] {c : α} {xs l : List α}
    (hl : l ∈ xs.splitOn x) (hc : c ∈ l) : c ∈ xs ∧ c ≠ x := by
  induction xs generalizing l with
  | nil =>
    rw [splitOn_nil, mem_singleton] at hl
    rw [hl] at hc
    cases hc
  | cons y ys ih =>
    rw [splitOn_cons_eq_if_modifyHead] at hl
    split at hl
    · rcases mem_cons.mp hl with rfl | hl
      · cases hc
      · exact ⟨mem_cons_of_mem _ (ih hl hc).1, (ih hl hc).2⟩
    rename_i hy
    -- The first line grows by `y`; the others are lines of `ys`.
    obtain ⟨first, rest, hsplit⟩ := exists_cons_of_ne_nil (splitOn_ne_nil x ys)
    rw [hsplit, modifyHead_cons, mem_cons] at hl
    rcases hl with rfl | hl
    · rcases mem_cons.mp hc with rfl | hc
      · exact ⟨mem_cons_self, by simpa using hy⟩
      · have := ih (l := first) (by simp [hsplit]) hc
        exact ⟨mem_cons_of_mem _ this.1, this.2⟩
    · have := ih (l := l) (by simp [hsplit, hl]) hc
      exact ⟨mem_cons_of_mem _ this.1, this.2⟩

lemma filter_splitOn [BEq α] [LawfulBEq α] {p : α → Bool} (hx : p x = false)
    (xs : List α) : ((xs.splitOn x).map (List.filter p)).flatten = xs.filter p := by
  rw [← filter_intercalate hx, intercalate_splitOn]

/-! ## Trimming -/

section

variable (p : α → Bool)

def trimMatches (l : List α) : List α := (l.dropWhile p).rdropWhile p

variable {p}

lemma takeWhile_append_trimMatches (l : List α) :
    l.takeWhile p ++ (trimMatches p l ++ (l.dropWhile p).rtakeWhile p) = l := by
  rw [trimMatches, rdropWhile_append_rtakeWhile, takeWhile_append_dropWhile]

variable {c : α} {l : List α} {q : α → Bool}

lemma mem_of_mem_trimMatches (h : c ∈ trimMatches p l) : c ∈ l :=
  (dropWhile_suffix p).subset (List.IsPrefix.subset ( rdropWhile_prefix p _) h)

lemma trimMatches_eq_nil : trimMatches p l = [] ↔ ∀ c ∈ l, p c := by
  rw [trimMatches, rdropWhile_eq_nil_iff]
  constructor
  · intro h c hc
    rw [← takeWhile_append_dropWhile (p := p) (l := l), mem_append] at hc
    exact hc.elim (fun hc => mem_takeWhile_imp hc) (fun hc => h c hc)
  · intro h c hc
    exact h c ((dropWhile_suffix p).subset hc)

section

variable (h : ∀ c, p c → q c = false) (l : List α)
include h

lemma filter_takeWhile_eq_nil : (l.takeWhile p).filter q = [] :=
  filter_eq_nil_iff.mpr fun c hc => by simp [h c (mem_takeWhile_imp hc)]

lemma filter_rtakeWhile_eq_nil : (l.rtakeWhile p).filter q = [] :=
  filter_eq_nil_iff.mpr fun c hc => by simp [h c (mem_rtakeWhile_imp hc)]

lemma filter_trimMatches : (trimMatches p l).filter q = l.filter q := by
  conv_rhs => rw [← takeWhile_append_trimMatches (p := p) l]
  rw [filter_append, filter_append, filter_takeWhile_eq_nil h,
    filter_rtakeWhile_eq_nil h, nil_append, append_nil]

end

lemma trimMatches_head_not {cs : List α} (h : trimMatches p l = c :: cs) : p c = false := by
  obtain ⟨rest, hrest⟩ := rdropWhile_prefix p (l.dropWhile p)
  rw [show (l.dropWhile p).rdropWhile p = c :: cs from h] at hrest
  have hnot := dropWhile_get_zero_not p l (by rw [← hrest]; simp)
  simpa [← hrest] using hnot

lemma trimMatches_trimMatches (l : List α) : trimMatches p (trimMatches p l) = trimMatches p l := by
  have hdrop : (trimMatches p l).dropWhile p = trimMatches p l := by
    rcases htrim : trimMatches p l with _ | ⟨c, cs⟩
    · rfl
    · rw [dropWhile_cons, trimMatches_head_not htrim]
      rfl
  rw [trimMatches, hdrop, trimMatches, rdropWhile_idempotent]

end

/-! ## Runs at the end of a line -/

section

variable {p : α → Bool}

lemma dropWhile_append_of_cons {l xs : List α} (h : l.dropWhile p = x :: xs)
    (run : List α) : (l ++ run).dropWhile p = x :: (xs ++ run) := by
  rw [dropWhile_append, h]
  rfl

lemma takeWhile_append_of_not {run : List α} (h : ∀ c ∈ run, p c = false) (l : List α) :
    (l ++ run).takeWhile p = l.takeWhile p := by
  have hrun : run.takeWhile p = [] := by
    rcases run with _ | ⟨c, run⟩
    · rfl
    · rw [takeWhile_cons, h c mem_cons_self]
      rfl
  rw [takeWhile_append, hrun, append_nil]
  split
  · rename_i hall
    exact (( takeWhile_prefix p).eq_of_length hall).symm
  · rfl

lemma dropWhile_append_of_not {run : List α} (h : ∀ c ∈ run, p c = false) (l : List α) :
    (l ++ run).dropWhile p = l.dropWhile p ++ run := by
  have hparts : l.takeWhile p ++ (l ++ run).dropWhile p =
      l.takeWhile p ++ (l.dropWhile p ++ run) := by
    rw [← append_assoc, takeWhile_append_dropWhile, ← takeWhile_append_of_not h,
      takeWhile_append_dropWhile]
  exact append_cancel_left hparts

end

/-! ## Replacing characters -/

section

def replaceWhere (p : α → Bool) (a : α) (l : List α) : List α :=
  l.map fun c => if p c then a else c

variable {p : α → Bool} {a : α}

lemma replaceWhere_eq_self {l : List α} (h : ∀ c ∈ l, p c = false) : replaceWhere p a l = l := by
  rw [replaceWhere, map_congr_left (g := id) fun c hc => by simp [h c hc], map_id]

lemma mem_replaceWhere {c : α} {l : List α} (h : c ∈ replaceWhere p a l) :
    c = a ∨ (c ∈ l ∧ p c = false) := by
  obtain ⟨d, hd, rfl⟩ := mem_map.mp h
  cases hp : p d with
  | true => exact .inl (by simp)
  | false => exact .inr ⟨by simpa using hd, by simpa using hp⟩

lemma filter_replaceWhere {q : α → Bool} (hp : ∀ c, p c → q c = false) (ha : q a = false)
    (l : List α) : (replaceWhere p a l).filter q = l.filter q := by
  induction l with
  | nil => rfl
  | cons c l ih =>
    rw [replaceWhere] at ih ⊢
    cases hc : p c with
    | true => simp [hc, ha, hp c hc, ih]
    | false => simp [hc, filter_cons, ih]

end

inductive Pattern (α : Type) where
  | nothing
  | empty
  | one (p : α → Bool)
  | seq (a b : Pattern α)
  | alt (a b : Pattern α)
  | star (a : Pattern α)

namespace Pattern

def opt (a : Pattern α) : Pattern α := .alt .empty a

def plus (a : Pattern α) : Pattern α := .seq a (.star a)

def times : Nat → Pattern α → Pattern α
  | 0, _ => .empty
  | n + 1, a => .seq a (times n a)

def upTo : Nat → Pattern α → Pattern α
  | 0, _ => .empty
  | n + 1, a => opt (.seq a (upTo n a))

def letters [BEq α] (xs : List α) : Pattern α :=
  xs.foldr (fun x rest => .seq (.one (· == x)) rest) .empty

def nullable : Pattern α → Bool
  | nothing => false
  | empty => true
  | one _ => false
  | seq a b => nullable a && nullable b
  | alt a b => nullable a || nullable b
  | star _ => true

def deriv (c : α) : Pattern α → Pattern α
  | nothing => nothing
  | empty => nothing
  | one p => if p c then empty else nothing
  | seq a b => if nullable a then alt (seq (deriv c a) b) (deriv c b) else seq (deriv c a) b
  | alt a b => alt (deriv c a) (deriv c b)
  | star a => seq (deriv c a) (star a)

def accepts (a : Pattern α) (xs : List α) : Bool := nullable (xs.foldl (fun a c => deriv c a) a)

/-! ## Meaning -/

inductive Derives : Pattern α → List α → Prop
  | empty : Derives .empty []
  | one {p c} (h : p c = true) : Derives (.one p) [c]
  | seq {a b xs ys} (hl : Derives a xs) (hr : Derives b ys) :
      Derives (.seq a b) (xs ++ ys)
  | left {a b xs} (h : Derives a xs) : Derives (.alt a b) xs
  | right {a b xs} (h : Derives b xs) : Derives (.alt a b) xs
  | none {a} : Derives (.star a) []
  | more {a xs ys} (h : Derives a xs) (hs : Derives (.star a) ys) :
      Derives (.star a) (xs ++ ys)

lemma nullable_of_derives {a : Pattern α} {xs : List α} (h : Derives a xs) (hxs : xs = []) :
    nullable a = true := by
  induction h with
  | empty => rfl
  | one h => cases hxs
  | seq hl hr ihl ihr =>
    rw [append_eq_nil_iff] at hxs
    rw [nullable, ihl hxs.1, ihr hxs.2]
    rfl
  | left h ih => rw [nullable, ih hxs, Bool.true_or]
  | right h ih => rw [nullable, ih hxs, Bool.or_true]
  | none => rfl
  | more h hs ih ihs => rfl

def maybe (a : Pattern α) : Pattern α := .alt a .empty

def atLeast (n : Nat) (a : Pattern α) : Pattern α := .seq (times n a) (.star a)

def firstOf (patterns : List (Pattern α)) : Pattern α := patterns.foldr .alt .nothing

def roundLengths (once : List α → List Nat) : Nat → List α → List Nat
  | 0, _ => [0]
  | fuel + 1, xs =>
      (((once xs).filter (0 < ·)).flatMap fun n =>
        (roundLengths once fuel (xs.drop n)).map (n + ·)) ++ [0]

/-- The lengths of the matches at the start of a text, the preferred one first. -/
def lengths : Pattern α → List α → List Nat
  | nothing, _ => []
  | empty, _ => [0]
  | one _, [] => []
  | one p, c :: _ => if p c then [1] else []
  | seq a b, xs => (lengths a xs).flatMap fun n => (lengths b (xs.drop n)).map (n + ·)
  | alt a b, xs => lengths a xs ++ lengths b xs
  | star a, xs => roundLengths (lengths a) xs.length xs

def Takes (a : Pattern α) (xs : List α) (n : Nat) : Prop := n ≤ xs.length ∧ Derives a (xs.take n)

variable {xs : List α} {n : Nat} {a : Pattern α}

lemma takes_add {m : Nat} (hn : n ≤ xs.length) (hm : m ≤ (xs.drop n).length) :
    n + m ≤ xs.length ∧ xs.take (n + m) = xs.take n ++ (xs.drop n).take m := by
  rw [length_drop] at hm
  exact ⟨by omega, take_add⟩

lemma takes_of_mem_roundLengths {once : List α → List Nat}
    (honce : ∀ xs, ∀ n ∈ once xs, a.Takes xs n) (fuel : Nat) (xs : List α) :
    ∀ n ∈ roundLengths once fuel xs, (star a).Takes xs n := by
  have hnone : ∀ xs : List α, (star a).Takes xs 0 := fun xs => ⟨Nat.zero_le _, .none⟩
  induction fuel generalizing xs with
  | zero =>
    intro n hn
    rw [roundLengths, mem_singleton] at hn
    exact hn ▸ hnone xs
  | succ fuel ih =>
    intro n hn
    rw [roundLengths, mem_append, mem_flatMap, mem_singleton] at hn
    obtain ⟨first, hfirst, htail⟩ | rfl := hn
    · obtain ⟨rest, hrest, rfl⟩ := mem_map.mp htail
      obtain ⟨hle, hround⟩ := honce xs first (mem_filter.mp hfirst).1
      obtain ⟨hle', hrounds⟩ := ih (xs.drop first) rest hrest
      obtain ⟨hsum, htake⟩ := takes_add hle hle'
      exact ⟨hsum, htake ▸ .more hround hrounds⟩
    · exact hnone xs

lemma takes_of_mem_lengths (hn : n ∈ a.lengths xs) : a.Takes xs n := by
  induction a generalizing xs n with
  | nothing => simp [lengths] at hn
  | empty =>
    rw [lengths, mem_singleton] at hn
    exact hn ▸ ⟨Nat.zero_le _, .empty⟩
  | one p =>
    cases xs with
    | nil => simp [lengths] at hn
    | cons c rest =>
      rw [lengths] at hn
      split at hn
      · rename_i hp
        rw [mem_singleton] at hn
        exact hn ▸ ⟨Nat.succ_le_succ (Nat.zero_le _), .one hp⟩
      · simp at hn
  | seq a b iha ihb =>
    rw [lengths, mem_flatMap] at hn
    obtain ⟨first, hfirst, htail⟩ := hn
    obtain ⟨rest, hrest, rfl⟩ := mem_map.mp htail
    obtain ⟨hle, hleft⟩ := iha hfirst
    obtain ⟨hle', hright⟩ := ihb hrest
    obtain ⟨hsum, htake⟩ := takes_add hle hle'
    exact ⟨hsum, htake ▸ .seq hleft hright⟩
  | alt a b iha ihb =>
    rw [lengths, mem_append] at hn
    obtain hleft | hright := hn
    · obtain ⟨hle, hderives⟩ := iha hleft
      exact ⟨hle, .left hderives⟩
    · obtain ⟨hle, hderives⟩ := ihb hright
      exact ⟨hle, .right hderives⟩
  | star a iha =>
    exact takes_of_mem_roundLengths (fun xs n hn => iha hn) xs.length xs n hn

lemma pos_of_mem_lengths (hnullable : a.nullable = false) (hn : n ∈ a.lengths xs) : 0 < n := by
  refine Nat.pos_of_ne_zero fun hzero => ?_
  have hderives := (takes_of_mem_lengths hn).2
  rw [hzero] at hderives
  rw [nullable_of_derives hderives rfl] at hnullable
  cases hnullable

end Pattern

/-! ## Scanning -/

section

variable {μ : Type} (found : Nat → Option μ) (stop : μ → Nat)

def scanFrom : Nat → Nat → List μ
  | 0, _ => []
  | fuel + 1, i =>
      match found i with
      | some m => m :: scanFrom fuel (stop m)
      | none => scanFrom fuel (i + 1)

variable {found stop}

lemma exists_mem_scanFrom (hstop : ∀ i m, found i = some m → i < stop m) {fuel i j : Nat}
    (hfrom : i ≤ j) (hfuel : j < i + fuel) (hfound : (found j).isSome) :
    ∃ m ∈ scanFrom found stop fuel i, ∃ k ≤ j, found k = some m ∧ j < stop m := by
  induction fuel generalizing i with
  | zero => omega
  | succ fuel ih =>
    rw [scanFrom]
    split
    · rename_i m hm
      have hlt := hstop i m hm
      by_cases hpassed : j < stop m
      · exact ⟨m, mem_cons_self, i, hfrom, hm, hpassed⟩
      · obtain ⟨n, hn, hover⟩ := ih (Nat.le_of_not_lt hpassed) (by omega)
        exact ⟨n, mem_cons_of_mem m hn, hover⟩
    · rename_i hnone
      have hne : i ≠ j := by
        intro hsame
        rw [hsame] at hnone
        rw [hnone] at hfound
        cases hfound
      exact ih (by omega) (by omega)

end

end Quecto.Foundation
