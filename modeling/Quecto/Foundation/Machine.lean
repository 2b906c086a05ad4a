/-
  Foundation/Machine.lean --- runs of a deterministic machine, and cycles of a relation.
-/
import Mathlib.Data.Fintype.Pigeonhole

namespace Quecto.Foundation

open List

universe u

section Machine

variable {σ α ω : Type u} (step : σ → α → ω × σ) (s : σ)

def exec (inputs : List α) : σ :=
  inputs.foldl (fun s a => (step s a).2) s

structure Moment (σ α ω : Type u) where
  before : σ
  input : α
  output : ω
  after : σ

def momentAt (a : α) : Moment σ α ω :=
  { before := s, input := a, output := (step s a).1, after := (step s a).2 }

def moments (s : σ) : List α → List (Moment σ α ω)
  | [] => []
  | a :: rest => momentAt step s a :: moments (step s a).2 rest

def outputs (inputs : List α) : List ω := (moments step s inputs).map (·.output)

@[simp] lemma exec_nil : exec step s [] = s := rfl

@[simp] lemma exec_cons (a : α) (rest : List α) :
    exec step s (a :: rest) = exec step (step s a).2 rest := rfl

@[simp] lemma moments_nil : moments step s [] = [] := rfl

@[simp] lemma moments_cons (a : α) (rest : List α) :
    moments step s (a :: rest) = momentAt step s a :: moments step (step s a).2 rest := rfl

lemma exec_append (l l' : List α) : exec step s (l ++ l') = exec step (exec step s l) l' := by
  simp [exec, foldl_append]

lemma moments_append (l l' : List α) :
    moments step s (l ++ l') = moments step s l ++ moments step (exec step s l) l' := by
  induction l generalizing s with
  | nil => rfl
  | cons a rest ih =>
    rw [cons_append, moments_cons, moments_cons, ih, exec_cons, cons_append]

variable {step} {I J : σ → Prop} {s : σ} {G : σ → α → Prop} {inputs : List α} {m : Moment σ α ω}
  {R : Moment σ α ω → Prop}

lemma exec_invariant (kept : ∀ s a, I s → I (step s a).2) (h : I s) (inputs : List α) :
    I (exec step s inputs) := by
  induction inputs generalizing s with
  | nil => exact h
  | cons a rest ih => exact ih (kept s a h)

lemma exec_keeps (kept : ∀ s a, I s → I (step s a).2)
    (promised : ∀ s a, I s → J s → J (step s a).2) (h : I s) (hJ : J s) (inputs : List α) :
    J (exec step s inputs) := by
  induction inputs generalizing s with
  | nil => exact hJ
  | cons a rest ih => exact ih (kept s a h) (promised s a h hJ)

lemma input_mem_of_mem (hm : m ∈ moments step s inputs) : m.input ∈ inputs := by
  induction inputs generalizing s with
  | nil => simp at hm
  | cons a rest ih =>
    rcases mem_cons.mp hm with rfl | hm
    · exact mem_cons_self
    · exact mem_cons_of_mem a (ih hm)

/-- An invariant that each moment of this run keeps. -/
lemma exec_invariant_at (kept : ∀ m ∈ moments step s inputs,
    I m.before → I (step m.before m.input).2)
    (h : I s) : I (exec step s inputs) := by
  induction inputs generalizing s with
  | nil => exact h
  | cons a rest ih =>
    rw [moments_cons, forall_mem_cons] at kept
    exact ih kept.2 (kept.1 h)

lemma exec_invariant_of_allowed {G : α → Prop} (kept : ∀ s a, I s → G a → I (step s a).2)
    (h : I s) (hallowed : ∀ a ∈ inputs, G a) : I (exec step s inputs) :=
  exec_invariant_at (fun _ hm hI => kept _ _ hI (hallowed _ (input_mem_of_mem hm))) h

lemma moment_of_mem (kept : ∀ s a, I s → I (step s a).2) (h : I s)
    (hm : m ∈ moments step s inputs) : I m.before ∧ m = momentAt step m.before m.input := by
  induction inputs generalizing s with
  | nil => simp at hm
  | cons a rest ih =>
    rcases mem_cons.mp hm with rfl | hm
    · exact ⟨h, rfl⟩
    · exact ih (kept s a h) hm

lemma moments_forall (kept : ∀ s a, I s → I (step s a).2)
    (promised : ∀ s a, I s → J s → J (step s a).2)
    (decides : ∀ s a, I s → J s → R (momentAt step s a)) (h : I s) (hJ : J s) (inputs : List α) :
    ∀ m ∈ moments step s inputs, R m := by
  induction inputs generalizing s with
  | nil => intro m hm; simp at hm
  | cons a rest ih =>
    intro m hm
    rcases mem_cons.mp hm with rfl | hm
    · exact decides s a h hJ
    · exact ih (kept s a h) (promised s a h hJ) m hm

lemma moments_forall_of_allowed (kept : ∀ s a, I s → G s a → I (step s a).2)
    (decides : ∀ s a, I s → G s a → R (momentAt step s a)) (h : I s)
    (hallowed : ∀ m ∈ moments step s inputs, G m.before m.input) :
    ∀ m ∈ moments step s inputs, R m := by
  induction inputs generalizing s with
  | nil => intro m hm; simp at hm
  | cons a rest ih =>
    rw [moments_cons, forall_mem_cons] at hallowed
    obtain ⟨hfirst, hrest⟩ := hallowed
    rw [moments_cons, forall_mem_cons]
    exact ⟨decides s a h hfirst, ih (kept s a h hfirst) hrest⟩

lemma moments_forall_iff_allowed (kept : ∀ s a, I s → G s a → I (step s a).2)
    (decides : ∀ s a, I s → (R (momentAt step s a) ↔ G s a)) (h : I s) (inputs : List α) :
    (∀ m ∈ moments step s inputs, R m) ↔ ∀ m ∈ moments step s inputs, G m.before m.input := by
  induction inputs generalizing s with
  | nil => simp
  | cons a rest ih =>
    rw [moments_cons, forall_mem_cons, forall_mem_cons, decides s a h]
    constructor
    · rintro ⟨hfirst, hrest⟩
      exact ⟨hfirst, (ih (kept s a h hfirst)).mp hrest⟩
    · rintro ⟨hfirst, hrest⟩
      exact ⟨hfirst, (ih (kept s a h hfirst)).mpr hrest⟩

lemma moments_pairwise (J : Moment σ α ω → σ → Prop) {R : Moment σ α ω → Moment σ α ω → Prop}
    (kept : ∀ s a, I s → I (step s a).2) (made : ∀ s a, I s → J (momentAt step s a) (step s a).2)
    (promised : ∀ m s a, I s → J m s → J m (step s a).2)
    (decides : ∀ m s a, I s → J m s → R m (momentAt step s a)) (h : I s) (inputs : List α) :
    (moments step s inputs).Pairwise R := by
  induction inputs generalizing s with
  | nil => exact .nil
  | cons a rest ih =>
    refine List.Pairwise.cons ?_ (ih (kept s a h))
    exact moments_forall kept (promised _) (decides _) (kept s a h) (made s a h) rest

end Machine

section

variable {σ β ω : Type} (call : σ → ω × σ)

def repeated : Nat → σ → List ω
  | 0, _ => []
  | n + 1, s => (call s).1 :: repeated n (call s).2

variable {call}

lemma repeated_eq {H : List β → σ → Prop} {answer : β → ω} {ended : ω}
    (next : ∀ x xs s, H (x :: xs) s → (call s).1 = answer x ∧ H xs (call s).2)
    (stop : ∀ s, H [] s → (call s).1 = ended) {xs : List β} {s : σ} (h : H xs s) :
    repeated call (xs.length + 1) s = xs.map answer ++ [ended] := by
  induction xs generalizing s with
  | nil => rw [repeated, stop s h]; rfl
  | cons x xs ih =>
    obtain ⟨hanswer, hnext⟩ := next x xs s h
    rw [length_cons, repeated, hanswer, ih hnext, map_cons, cons_append]

end

section

open Relation

/-- A cycle that is reached from `start`. -/
def CycleFrom {α : Type} (edge : α → α → Prop) (start : α) : Prop :=
  ∃ n, ReflTransGen edge start n ∧ TransGen edge n n

end

end Quecto.Foundation
