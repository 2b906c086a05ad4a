/-
  Foundation/Fallible.lean --- operations on a state that may fail, or be dropped where
  they wait.
-/
import Mathlib.Data.Prod.Basic
import Mathlib.Data.List.Basic

namespace Quecto.Foundation

open List

section

variable {ε σ α β : Type}

/-- The `?` of a method on `&mut self`: an error leaves the state reached. -/
def andThen (x : Except ε α × σ) (next : α → σ → Except ε β × σ) : Except ε β × σ :=
  match x with
  | (.error e, s) => (.error e, s)
  | (.ok a, s) => next a s

@[simp] lemma andThen_ok (a : α) (s : σ) (next : α → σ → Except ε β × σ) :
    andThen (.ok a, s) next = next a s := rfl

@[simp] lemma andThen_error (e : ε) (s : σ) (next : α → σ → Except ε β × σ) :
    andThen (.error e, s) next = (.error e, s) := rfl

variable {x : Except ε α × σ} {next : α → σ → Except ε β × σ}

lemma andThen_leaves {P : σ → Prop} (failed : P x.2) (done : ∀ a, x.1 = .ok a → P (next a x.2).2) :
    P (andThen x next).2 := by
  obtain ⟨result, s⟩ := x
  cases result with
  | error e => exact failed
  | ok a => exact done a rfl

end

inductive Panic where
  | assertion (message : String)
  | expectation (message : String)
  | outOfBounds
  | overflow
  deriving DecidableEq

abbrev Checked (α : Type) : Type := Except Panic α

namespace Checked

variable {α β : Type}

def assert (holds : Bool) (message : String) : Checked Unit :=
  if holds then .ok () else .error (.assertion message)

def expect (x : Option α) (message : String) : Checked α :=
  match x with
  | some a => .ok a
  | none => .error (.expectation message)

def index (xs : List α) (i : Nat) : Checked α :=
  match xs[i]? with
  | some a => .ok a
  | none => .error .outOfBounds

def update (xs : List α) (i : Nat) (f : α → α) : Checked (List α) :=
  if i < xs.length then .ok (xs.modify i f) else .error .outOfBounds

def sliceFrom (xs : List α) (i : Nat) : Checked (List α) :=
  if i ≤ xs.length then .ok (xs.drop i) else .error .outOfBounds

def sliceTo (xs : List α) (i : Nat) : Checked (List α) :=
  if i ≤ xs.length then .ok (xs.take i) else .error .outOfBounds

def slice (xs : List α) (start stop : Nat) : Checked (List α) :=
  if start ≤ stop ∧ stop ≤ xs.length then .ok ((xs.drop start).take (stop - start))
  else .error .outOfBounds

def subtract (a b : Nat) : Checked Nat :=
  if b ≤ a then .ok (a - b) else .error .overflow

/-! ## When a check passes -/

@[simp] lemma assert_true (message : String) : assert true message = .ok () := rfl

lemma assert_of {holds : Bool} (message : String) (h : holds = true) :
    assert holds message = .ok () := by
  rw [h, assert_true]

@[simp] lemma expect_some (a : α) (message : String) : expect (some a) message = .ok a := rfl

variable {xs : List α} {i : Nat} {a : α} {p : α → Checked Bool} {q : α → Bool}

lemma index_eq_ok : index xs i = .ok a ↔ xs[i]? = some a := by
  unfold index
  cases xs[i]? <;> simp

lemma index_of (h : xs[i]? = some a) : index xs i = .ok a := index_eq_ok.mpr h

lemma update_of (f : α → α) (h : i < xs.length) : update xs i f = .ok (xs.modify i f) := if_pos h

lemma sliceFrom_of (h : i ≤ xs.length) : sliceFrom xs i = .ok (xs.drop i) := if_pos h

lemma sliceTo_of (h : i ≤ xs.length) : sliceTo xs i = .ok (xs.take i) := if_pos h

lemma subtract_of {a b : Nat} (h : b ≤ a) : subtract a b = .ok (a - b) := if_pos h

/-! ## Passes over a list

Each pass is the plain one once no element of the list makes it panic. -/

@[simp] lemma pure_eq (a : α) : (pure a : Checked α) = .ok a := rfl

@[simp] lemma ok_bind (a : α) (f : α → Checked β) : ((.ok a : Checked α) >>= f) = f a := rfl

@[simp] lemma map_ok (f : α → β) (a : α) : f <$> (.ok a : Checked α) = .ok (f a) := rfl

lemma foldlM_concat {f : β → α → Checked β} {x : α} {s s' : β} (h : xs.foldlM f s = .ok s') :
    (xs ++ [x]).foldlM f s = f s' x := by
  rw [foldlM_append, h, ok_bind]
  exact bind_pure _

lemma filterAuxM_of (h : ∀ x ∈ xs, p x = .ok (q x)) (acc : List α) :
    xs.filterAuxM p acc = .ok ((xs.filter q).reverse ++ acc) := by
  induction xs generalizing acc with
  | nil => rfl
  | cons x xs ih =>
    have hx := h x mem_cons_self
    have hxs := fun y hy => h y (mem_cons_of_mem x hy)
    rw [List.filterAuxM, hx, ok_bind, ih hxs]
    cases hq : q x <;> simp [hq]

lemma filterM_of (h : ∀ x ∈ xs, p x = .ok (q x)) : xs.filterM p = .ok (xs.filter q) := by
  rw [List.filterM, filterAuxM_of h]
  simp

lemma mapM_of {f : α → Checked β} {g : α → β} (h : ∀ x ∈ xs, f x = .ok (g x)) :
    xs.mapM f = .ok (xs.map g) := by
  induction xs with
  | nil => rfl
  | cons x xs ih =>
    rw [mapM_cons, h x mem_cons_self, ih fun y hy => h y (mem_cons_of_mem x hy)]
    rfl

lemma allM_of (h : ∀ x ∈ xs, p x = .ok (q x)) : xs.allM p = .ok (xs.all q) := by
  induction xs with
  | nil => rfl
  | cons x xs ih =>
    rw [List.allM, h x mem_cons_self, ih fun y hy => h y (mem_cons_of_mem x hy), all_cons]
    cases q x <;> rfl

lemma anyM_of (h : ∀ x ∈ xs, p x = .ok (q x)) : xs.anyM p = .ok (xs.any q) := by
  induction xs with
  | nil => rfl
  | cons x xs ih =>
    rw [List.anyM, h x mem_cons_self, ih fun y hy => h y (mem_cons_of_mem x hy), any_cons]
    cases q x <;> rfl

lemma findM?_of (h : ∀ x ∈ xs, p x = .ok (q x)) : xs.findM? p = .ok (xs.find? q) := by
  induction xs with
  | nil => rfl
  | cons x xs ih =>
    rw [List.findM?, h x mem_cons_self, List.find?_cons]
    cases q x with
    | true => rfl
    | false => exact ih fun y hy => h y (mem_cons_of_mem x hy)

lemma forM_of {f : α → Checked PUnit} (h : ∀ x ∈ xs, f x = .ok ()) : forM xs f = .ok () := by
  induction xs with
  | nil => rfl
  | cons x xs ih =>
    rw [forM_cons, h x mem_cons_self]
    exact ih fun y hy => h y (mem_cons_of_mem x hy)

end Checked

section Refusal

variable {ε δ α β : Type}

/-! ## The `?` operator -/

variable {x : Except ε α} {f : α → Except ε β} {b : β} {a : α} {error : ε} {u : Unit}

lemma bind_eq_ok : (x >>= f) = .ok b ↔ ∃ a, x = .ok a ∧ f a = .ok b := by
  cases x <;> simp [bind, Except.bind]

lemma mapError_eq_ok {f : ε → δ} : x.mapError f = .ok a ↔ x = .ok a := by
  cases x <;> simp [Except.mapError]

lemma pure_eq_ok {b : α} : (pure a : Except ε α) = .ok b ↔ a = b := by
  simp [pure, Except.pure]

lemma map_eq_ok {f : α → β} : f <$> x = .ok b ↔ ∃ a, f a = b ∧ x = .ok a := by
  cases x <;> simp [Functor.map, Except.map]

def require (holds : Bool) (error : ε) : Except ε Unit :=
  if holds then .ok () else .error error

lemma require_eq_ok {holds : Bool} : require holds error = .ok u ↔ holds = true := by
  cases holds <;> simp [require]

def okOr (x : Option α) (error : ε) : Except ε α :=
  match x with
  | some a => .ok a
  | none => .error error

lemma okOr_eq_ok {x : Option α} : okOr x error = .ok a ↔ x = some a := by
  cases x <;> simp [okOr]

lemma mapM_eq_ok {xs : List α} {ys : List β} (h : xs.mapM f = .ok ys) :
    (∀ x ∈ xs, ∃ y ∈ ys, f x = .ok y) ∧ ∀ y ∈ ys, ∃ x ∈ xs, f x = .ok y := by
  induction xs generalizing ys with
  | nil =>
    cases h
    constructor
    · intro x hx
      cases hx
    · intro y hy
      cases hy
  | cons x xs ih =>
    rw [mapM_cons, bind_eq_ok] at h
    obtain ⟨y, hy, h⟩ := h
    obtain ⟨rest, hrest, h⟩ := bind_eq_ok.mp h
    obtain ⟨hleft, hright⟩ := ih hrest
    rw [← pure_eq_ok.mp h]
    constructor
    · intro z hz
      rcases mem_cons.mp hz with rfl | hz
      · exact ⟨y, mem_cons_self, hy⟩
      · obtain ⟨w, hw, hfw⟩ := hleft z hz
        exact ⟨w, mem_cons_of_mem y hw, hfw⟩
    · intro w hw
      rcases mem_cons.mp hw with rfl | hw
      · exact ⟨x, mem_cons_self, hy⟩
      · obtain ⟨z, hz, hfz⟩ := hright w hw
        exact ⟨z, mem_cons_of_mem x hz, hfz⟩

/-! ## Schemas -/

def inOrder : List (Except ε Unit) → Except ε Unit
  | [] => .ok ()
  | check :: rest => check >>= fun _ => inOrder rest

lemma inOrder_eq_ok {checks : List (Except ε Unit)} :
    inOrder checks = .ok u ↔ ∀ check ∈ checks, check = .ok () := by
  induction checks with
  | nil => simp [inOrder]
  | cons check rest ih =>
    rw [inOrder, bind_eq_ok, forall_mem_cons, ← ih]
    exact ⟨fun ⟨_, h, hrest⟩ => ⟨h, hrest⟩, fun ⟨h, hrest⟩ => ⟨(), h, hrest⟩⟩

structure Validated (validate : α → Except ε Unit) where
  fields : α
  valid : validate fields = .ok ()

namespace Validated

variable {validate : α → Except ε Unit}

def new (validate : α → Except ε Unit) (fields : α) : Except ε (Validated validate) :=
  match h : validate fields with
  | .ok () => .ok ⟨fields, h⟩
  | .error e => .error e

lemma fields_of_new {fields : α} {v : Validated validate} (h : new validate fields = .ok v) :
    v.fields = fields := by
  unfold new at h
  split at h
  · exact (congrArg (·.fields) (Except.ok.inj h)).symm
  · cases h

end Validated

/-! ## Rules -/

inductive Stop (ε : Type) where
  | refused (error : ε)
  | panicked (panic : Panic)

def insist (holds : Bool) (message : String) : Except (Stop ε) Unit :=
  require holds (.panicked (.assertion message))

def refuse (error : ε) : Except (Stop ε) α := .error (.refused error)

/-- Stopped by a rule, not by a panic. -/
def Refused (x : Except (Stop ε) α) : Prop := ∃ error, x = refuse error

lemma Refused.refuse (error : ε) : Refused (Foundation.refuse error : Except (Stop ε) α) :=
  ⟨error, rfl⟩

lemma Refused.bind {x : Except (Stop ε) α} (h : Refused x) (f : α → Except (Stop ε) β) :
    Refused (x >>= f) := by
  obtain ⟨error, rfl⟩ := h
  exact ⟨error, rfl⟩

lemma Refused.map {x : Except (Stop ε) α} (h : Refused x) (f : α → β) : Refused (f <$> x) := by
  obtain ⟨error, rfl⟩ := h
  exact ⟨error, rfl⟩

lemma Refused.bind_of {x : Except (Stop ε) α} {f : α → Except (Stop ε) β}
    (h : Refused x ∨ ∃ a, x = .ok a ∧ Refused (f a)) : Refused (x >>= f) := by
  rcases h with h | ⟨a, rfl, h⟩
  · exact h.bind f
  · exact h

lemma require_refused (holds : Bool) (error : ε) :
    Refused (require holds (Stop.refused error)) ∨ require holds (Stop.refused error) = .ok () := by
  cases holds with
  | false => exact .inl ⟨error, rfl⟩
  | true => exact .inr rfl

lemma Refused.not_ok {x : Except (Stop ε) α} (h : Refused x) (a : α) : x ≠ .ok a := by
  obtain ⟨error, rfl⟩ := h
  exact nofun

end Refusal

/-- An async operation that may be dropped at one of its labelled waits. -/
def Awaiting (ℓ σ α : Type) : Type := Option ℓ → σ → Option α × σ

namespace Awaiting

variable {ℓ σ α β : Type}

instance : Monad (Awaiting ℓ σ) where
  pure a := fun _ s => (some a, s)
  bind m k := fun drop s =>
    match m drop s with
    | (some a, s') => k a drop s'
    | (none, s') => (none, s')

def run (m : Awaiting ℓ σ α) (drop : Option ℓ) (s : σ) : Option α × σ := m drop s

def look : Awaiting ℓ σ σ := fun _ s => (some s, s)

def change (f : σ → σ) : Awaiting ℓ σ Unit := fun _ s => (some (), f s)

def wait [DecidableEq ℓ] (label : ℓ) : Awaiting ℓ σ Unit := fun drop s =>
  if drop = some label then (none, s) else (some (), s)

def answered (answer : Option α) : Awaiting ℓ σ α := fun _ s => (answer, s)

def guarded (onDrop : σ → σ) (m : Awaiting ℓ σ α) : Awaiting ℓ σ α := fun drop s =>
  match m drop s with
  | (some a, s') => (some a, s')
  | (none, s') => (none, onDrop s')

def ensuring (onExit : σ → σ) (m : Awaiting ℓ σ α) : Awaiting ℓ σ α := fun drop s =>
  ((m drop s).1, onExit (m drop s).2)

section

variable {m : Awaiting ℓ σ α} {k : α → Awaiting ℓ σ β} {drop : Option ℓ} {s : σ} {a : α}

@[simp] lemma run_pure : (pure a : Awaiting ℓ σ α).run drop s = (some a, s) := rfl

@[simp] lemma run_look : (look : Awaiting ℓ σ σ).run drop s = (some s, s) := rfl

@[simp] lemma run_change (f : σ → σ) : (change f : Awaiting ℓ σ Unit).run drop s = (some (), f s) :=
  rfl

@[simp] lemma run_answered (answer : Option α) :
    (answered answer : Awaiting ℓ σ α).run drop s = (answer, s) := rfl

lemma run_wait_dropped [DecidableEq ℓ] {label : ℓ} (h : drop = some label) :
    (wait label : Awaiting ℓ σ Unit).run drop s = (none, s) := if_pos h

lemma run_wait [DecidableEq ℓ] {label : ℓ} (h : drop ≠ some label) :
    (wait label : Awaiting ℓ σ Unit).run drop s = (some (), s) := if_neg h

lemma run_bind : (m >>= k).run drop s =
    match (m.run drop s).1 with
    | some a => (k a).run drop (m.run drop s).2
    | none => (none, (m.run drop s).2) := by
  show (match m drop s with
    | (some a, s') => k a drop s'
    | (none, s') => (none, s')) = _
  unfold run
  rcases m drop s with ⟨_ | a, s'⟩ <;> rfl

@[simp] lemma run_guarded (onDrop : σ → σ) : (guarded onDrop m).run drop s =
    ((m.run drop s).1, if (m.run drop s).1.isSome then (m.run drop s).2
      else onDrop (m.run drop s).2) := by
  show (match m drop s with
    | (some a, s') => (some a, s')
    | (none, s') => (none, onDrop s')) = _
  unfold run
  rcases m drop s with ⟨_ | a, s'⟩ <;> rfl

end

end Awaiting

end Quecto.Foundation
