/-
  Redaction/Secrets.lean --- the credential shapes scrubbed from texts.

  Source: `domain/shared/redaction.rs`.
-/
import Quecto.Foundation.Lines

namespace Quecto.Redaction

open Foundation List
open Foundation.Pattern (plus times star)

/-! ## Character classes -/

def whiteSpace (c : Char) : Bool :=
  let n := c.toNat
  (9 ≤ n && n ≤ 13) || n == 0x20 || n == 0x85 || n == 0xa0 || n == 0x1680 ||
    (0x2000 ≤ n && n ≤ 0x200a) || n == 0x2028 || n == 0x2029 || n == 0x202f || n == 0x205f ||
    n == 0x3000

/-- What a character is when case is ignored.  Two characters beyond the letters themselves
fold to one of `a` to `z`: the long s and the Kelvin sign. -/
def folded (c : Char) : Char :=
  if c.toNat = 0x17f then 's' else if c.toNat = 0x212a then 'k' else c.toLower

def caseless (c : Char) : Char → Bool := fun d => folded d == folded c

def alphanumeric (c : Char) : Bool := (folded c).isLower || c.isDigit

def dashed (c : Char) : Bool := alphanumeric c || c == '-'

def keyChar (c : Char) : Bool := dashed c || c == '_'

def hexDigit (c : Char) : Bool :=
  c.isDigit || ('a' ≤ c && c ≤ 'f') || ('A' ≤ c && c ≤ 'F')

def among (set : String) (c : Char) : Bool := set.toList.contains c

/-! ## The alternatives -/

def literal (letters : String) : Pattern Char := Pattern.letters letters.toList

def word (letters : String) : Pattern Char :=
  letters.toList.foldr (fun c rest => .seq (.one (caseless c)) rest) .empty

def spaces : Pattern Char := star (.one whiteSpace)

def unspaced : Pattern Char := plus (.one fun c => !whiteSpace c)

structure Alternative where
  atStart : Bool
  lead : Pattern Char
  intro : Pattern Char
  credential : Pattern Char

namespace Alternative

def key (shape : Pattern Char) : Alternative := ⟨false, .empty, .empty, shape⟩

def named (intro : Pattern Char) : Alternative := ⟨false, .empty, intro, unspaced⟩

end Alternative

def colourCode : Pattern Char :=
  .seq
    (.firstOf [literal "\x1b", literal "\\e", .seq (literal "\\x1") (.one (among "bB")),
      literal "\\033", .seq (literal "\\u001") (.one (among "bB")), literal "^["])
    (.seq (literal "[") (.seq (star (.one (among "0123456789;?"))) (.one Char.isAlpha)))

def leads : Pattern Char :=
  .firstOf [.one fun c => !c.isAlpha, colourCode, .seq (literal "\\") (.one (among "abefnrtv")),
    .seq (literal "\\x") (times 2 (.one hexDigit)),
    .seq (literal "\\u") (times 4 (.one hexDigit)),
    .seq (literal "\\U") (times 8 (.one hexDigit)),
    .seq (literal "%") (.seq (star (literal "25")) (times 2 (.one hexDigit))),
    .seq (literal "=") (times 2 (.one hexDigit)),
    .seq (literal "`") (.one (among "0befnrtv"))]

def joint : Pattern Char := .maybe (.one (among "_-"))

def label : Pattern Char :=
  .firstOf [.seq (word "api") (.seq joint (word "key")),
    word "token", word "password", word "secret",
    .seq (word "access") (.seq joint (word "token"))]

def patterns : List Alternative := [.named (.seq (word "bearer") (plus (.one whiteSpace))),
  ⟨true, leads, .empty, .seq (word "sk-") (.atLeast 8 (.one keyChar))⟩,
  .key (.seq (word "AKIA") (.atLeast 12 (.one alphanumeric))),
  .key (.seq (word "gh") (.seq (.one fun c => (among "pousr") (folded c))
    (.seq (word "_") (.atLeast 20 (.one alphanumeric))))),
  .key (.seq (word "xox") (.seq (.one fun c => (among "baprs") (folded c))
    (.seq (word "-") (.atLeast 10 (.one dashed))))),
  .key (.seq (word "AIza") (.atLeast 20 (.one keyChar))),
  .named (.seq label (.seq spaces (.seq (.one (among "=:")) spaces)))]

/-! ## Matching -/

structure Match where
  start : Nat
  hiddenFrom : Nat
  credentialFrom : Nat
  stop : Nat
  deriving DecidableEq

namespace Match

def hides (m : Match) (x : Nat) : Bool := m.hiddenFrom ≤ x && x < m.stop

def inCredential (m : Match) (x : Nat) : Bool := m.credentialFrom ≤ x && x < m.stop

end Match

namespace Alternative

def matchesAt (a : Alternative) (text : List Char) (i : Nat) : List Match :=
  let rest := text.drop i
  ((if a.atStart && i == 0 then [0] else []) ++ a.lead.lengths rest).flatMap fun l =>
    (a.intro.lengths (rest.drop l)).flatMap fun n =>
      (a.credential.lengths (rest.drop (l + n))).map fun k => ⟨i, i + l, i + l + n, i + l + n + k⟩

def matchAt (a : Alternative) (text : List Char) (i : Nat) : Option Match :=
  (a.matchesAt text i).head?

end Alternative

variable (text : List Char)

def firstAt (i : Nat) : Option Match :=
  patterns.findSome? fun a => a.matchAt text i

def findIter : List Match :=
  scanFrom (firstAt text) Match.stop (text.length + 1) 0

inductive Piece where
  | kept (first stop : Nat)
  | replaced (first stop : Nat)

namespace Piece

def write (text : List Char) : Piece → List Char
  | kept first stop => (text.take stop).drop first
  | replaced _ _ => "[REDACTED]".toList

def keeps (x : Nat) : Piece → Bool
  | kept first stop => first ≤ x && x < stop
  | replaced _ _ => false

def replaces (x : Nat) : Piece → Bool
  | kept _ _ => false
  | replaced first stop => first ≤ x && x < stop

end Piece

open Piece

def piecesFrom (text : List Char) (i : Nat) : List Match → List Piece
  | [] => [.kept i text.length]
  | m :: rest =>
      .kept i m.start :: .kept m.start m.hiddenFrom :: .replaced m.hiddenFrom m.stop ::
        piecesFrom text m.stop rest

def pieces : List Piece := piecesFrom text 0 (findIter text)

def redactSecrets : List Char :=
  (pieces text).flatMap (write text)

/-! ## Matches -/

def aloneMatches : List Match :=
  (List.range (text.length + 1)).flatMap fun i => patterns.filterMap fun a => a.matchAt text i

def Replaced (x : Nat) : Prop := ∃ piece ∈ pieces text, piece.replaces x = true

def Kept (x : Nat) : Prop := ∃ piece ∈ pieces text, piece.keeps x = true

variable {text : List Char} {m : Match} {a : Alternative} {i x : Nat} {taken : List Match}

lemma mem_aloneMatches :
    m ∈ aloneMatches text ↔ ∃ i ≤ text.length, ∃ a ∈ patterns, a.matchAt text i = some m := by
  simp only [aloneMatches, mem_flatMap, mem_range, Nat.lt_succ_iff, mem_filterMap]

lemma credential_not_nullable : ∀ a ∈ patterns, a.credential.nullable = false := by
  decide

lemma matchAt_eq_some (ha : a ∈ patterns) (h : a.matchAt text i = some m) :
    m.start = i ∧ i ≤ m.hiddenFrom ∧ m.hiddenFrom ≤ m.credentialFrom ∧
      m.credentialFrom < m.stop := by
  have hmem := mem_of_head? h
  simp only [Alternative.matchesAt, mem_flatMap, mem_map] at hmem
  obtain ⟨l, -, n, -, k, hk, rfl⟩ := hmem
  have hpos := Pattern.pos_of_mem_lengths (credential_not_nullable a ha) hk
  refine ⟨rfl, ?_, ?_, ?_⟩
  · exact Nat.le_add_right i l
  · exact Nat.le_add_right (i + l) n
  · exact Nat.lt_add_of_pos_right hpos

lemma firstAt_eq_some (h : firstAt text i = some m) : ∃ a ∈ patterns, a.matchAt text i = some m :=
  exists_of_findSome?_eq_some h

lemma firstAt_isSome (ha : a ∈ patterns) (h : a.matchAt text i = some m) :
    (firstAt text i).isSome = true := by
  rw [firstAt, List.findSome?_isSome_iff]
  exact ⟨a, ha, by rw [h]; rfl⟩

/-- Wherever an alternative alone matches, the scan is inside a match that it took. -/
lemma exists_taken (hm : m ∈ aloneMatches text) :
    ∃ taken ∈ findIter text, taken.start ≤ m.start ∧ m.start < taken.stop := by
  obtain ⟨i, hi, a, ha, hmatch⟩ := mem_aloneMatches.mp hm
  have hstop : ∀ i m, firstAt text i = some m → i < m.stop := by
    intro i m hfirst
    obtain ⟨a, ha, hmatch⟩ := firstAt_eq_some hfirst
    obtain ⟨-, hlead, hintro, hcredential⟩ := matchAt_eq_some ha hmatch
    omega
  have hpassed : ∃ taken ∈ findIter text, ∃ k ≤ i, firstAt text k = some taken ∧ i < taken.stop :=
    exists_mem_scanFrom hstop (Nat.zero_le i) (by omega) (firstAt_isSome ha hmatch)
  obtain ⟨taken, htaken, k, hk, hfound, hover⟩ := hpassed
  obtain ⟨b, hb, hmatch'⟩ := firstAt_eq_some hfound
  obtain ⟨hstart, -⟩ := matchAt_eq_some ha hmatch
  obtain ⟨hstart', -⟩ := matchAt_eq_some hb hmatch'
  exact ⟨taken, htaken, by omega, by omega⟩

/-! ## What is written -/

lemma replaces_iff :
    (∃ piece ∈ piecesFrom text i taken, piece.replaces x = true) ↔
      ∃ m ∈ taken, m.hides x = true := by
  induction taken generalizing i with
  | nil => simp [piecesFrom, replaces]
  | cons first rest ih =>
    simp only [piecesFrom, mem_cons, exists_eq_or_imp, ih]
    simp [replaces, Match.hides]

def Consecutive : Nat → List Match → Prop
  | _, [] => True
  | i, m :: rest =>
      i ≤ m.start ∧ m.start ≤ m.hiddenFrom ∧ m.hiddenFrom ≤ m.stop ∧ Consecutive m.stop rest

lemma scanFrom_consecutive (text : List Char) (fuel : Nat) {j : Nat} (hij : j ≤ i) :
    Consecutive j (scanFrom (firstAt text) Match.stop fuel i) := by
  induction fuel generalizing i j with
  | zero => exact trivial
  | succ fuel ih =>
    rw [scanFrom]
    split
    · rename_i m hfound
      obtain ⟨a, ha, hmatch⟩ := firstAt_eq_some hfound
      obtain ⟨hstart, hlead, hintro, hcredential⟩ := matchAt_eq_some ha hmatch
      exact ⟨by omega, by omega, by omega, ih (Nat.le_refl m.stop)⟩
    · exact ih (by omega)

section

variable (h : Consecutive i taken)
include h

lemma Consecutive.le_start (hm : m ∈ taken) : i ≤ m.start ∧ m.start ≤ m.stop := by
  induction taken generalizing i with
  | nil => cases hm
  | cons first rest ih =>
    obtain ⟨hstart, hlead, hstop, hrest⟩ := h
    rcases mem_cons.mp hm with rfl | hm
    · exact ⟨hstart, Nat.le_trans hlead hstop⟩
    · have := ih hrest hm
      omega

lemma Consecutive.apart {n : Match} (hm : m ∈ taken) (hn : n ∈ taken) :
    m = n ∨ m.stop ≤ n.start ∨ n.stop ≤ m.start := by
  induction taken generalizing i with
  | nil => cases hm
  | cons first rest ih =>
    obtain ⟨-, -, -, hrest⟩ := h
    rcases mem_cons.mp hm with rfl | hm'
    · rcases mem_cons.mp hn with rfl | hn'
      · exact .inl rfl
      · exact .inr (.inl (hrest.le_start hn').1)
    · rcases mem_cons.mp hn with rfl | hn'
      · exact .inr (.inr (hrest.le_start hm').1)
      · exact ih hrest hm' hn'

lemma le_of_mem_piecesFrom {piece : Piece} (hpiece : piece ∈ piecesFrom text i taken)
    (hx : piece.keeps x = true ∨ piece.replaces x = true) : i ≤ x := by
  induction taken generalizing i with
  | nil =>
    rw [piecesFrom, mem_singleton] at hpiece
    simp [hpiece, keeps, replaces] at hx
    omega
  | cons m rest ih =>
    obtain ⟨hstart, hlead, hstop, hrest⟩ := h
    simp only [piecesFrom, mem_cons] at hpiece
    obtain rfl | rfl | rfl | hpiece := hpiece
    · simp [keeps, replaces] at hx
      omega
    · simp [keeps, replaces] at hx
      omega
    · simp [keeps, replaces] at hx
      omega
    · have := ih hrest hpiece
      omega

lemma not_keeps_of_replaces (hx : ∃ piece ∈ piecesFrom text i taken, piece.replaces x = true) :
    ¬ ∃ piece ∈ piecesFrom text i taken, piece.keeps x = true := by
  induction taken generalizing i with
  | nil => simp [piecesFrom, replaces] at hx
  | cons m rest ih =>
    obtain ⟨hstart, hlead, hstop, hrest⟩ := h
    -- what the pieces after the mark hold comes after the match
    have hafter : ∀ piece ∈ piecesFrom text m.stop rest,
        piece.keeps x = true ∨ piece.replaces x = true → m.stop ≤ x :=
      fun piece hpiece hx => le_of_mem_piecesFrom hrest hpiece hx
    simp only [piecesFrom, mem_cons, exists_eq_or_imp, replaces, keeps,
      Bool.and_eq_true, decide_eq_true_eq, Bool.false_eq_true, false_or] at hx ⊢
    obtain hhere | hlater := hx
    · rintro (hbefore | hin | ⟨piece, hpiece, hkeeps⟩)
      · omega
      · omega
      · have hle := hafter piece hpiece (.inl hkeeps)
        omega
    · obtain ⟨piece, hpiece, hreplaces⟩ := hlater
      have hle := hafter piece hpiece (.inr hreplaces)
      rintro (hbefore | hin | hkept)
      · omega
      · omega
      · exact ih hrest ⟨piece, hpiece, hreplaces⟩ hkept

end

/-! ## When no credential is lost -/

/-- A match begins inside one that the scan takes, which does not hide its whole credential. -/
def CutShort (taken m : Match) : Prop :=
  taken.start ≤ m.start ∧ m.start < taken.stop ∧
    ¬ (taken.hiddenFrom ≤ m.credentialFrom ∧ m.stop ≤ taken.stop)

instance (taken m : Match) : Decidable (CutShort taken m) := inferInstanceAs (Decidable (_ ∧ _))

/-- Where the scan cuts a credential short, matches that it takes later hide what is left. -/
def Uncut (text : List Char) : Prop :=
  ∀ taken ∈ findIter text, ∀ m ∈ aloneMatches text, CutShort taken m →
    ∀ x < m.stop, m.inCredential x = true → taken.hides x = true ∨
      ∃ later ∈ findIter text, taken.stop ≤ later.start ∧ later.hides x = true

end Quecto.Redaction
