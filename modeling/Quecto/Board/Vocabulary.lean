/-
  Board/Vocabulary.lean --- the closed vocabularies of a task, its times and the
  names it points at work by.

  Source: `domain/project_board/value_objects/{vocabulary,timestamp,code_ref,reference}.rs`.
-/
import Quecto.Foundation.Lines
import Quecto.Foundation.Fallible
import Mathlib.Algebra.GroupWithZero.Nat
import Mathlib.Data.List.Infix
import Mathlib.Order.Lattice

namespace Quecto.Board

open Foundation

abbrev Text := List Char

structure SchemaError where
  field : String
  problem : String
  deriving DecidableEq

def SchemaError.at (error : SchemaError) (field : String) : SchemaError :=
  { error with field := field }

/-- The Unicode tables of the host: the general categories the text checks read,
what `char` methods answer, and how `Debug` spells a text. -/
class Unicode where
  letter : Char → Bool
  mark : Char → Bool
  number : Char → Bool
  punctuation : Char → Bool
  symbol : Char → Bool
  spaceSeparator : Char → Bool
  defaultIgnorable : Char → Bool
  isWhitespace : Char → Bool
  isAlphanumeric : Char → Bool
  debug : Text → String

variable (text : Text)

def utf8Len : Nat := (text.map Char.utf8Size).sum

def splitOnce (c : Char) (text : Text) : Option (Text × Text) :=
  match text.span (· != c) with
  | (before, _ :: rest) => some (before, rest)
  | (_, []) => none

def asciiLower (c : Char) : Bool := 'a' ≤ c && c ≤ 'z'

def asciiDigit (c : Char) : Bool := '0' ≤ c && c ≤ '9'

def asciiAlphanumeric (c : Char) : Bool := asciiLower c || asciiDigit c || 'A' ≤ c && c ≤ 'Z'

def toAsciiLowercase : Text := text.map Char.toLower

namespace Ascii

scoped instance unicode : Unicode where
  letter c := asciiAlphanumeric c && !asciiDigit c
  mark _ := false
  number := asciiDigit
  punctuation c := "!\"#%&'()*,-./:;?@[\\]_\x7b\x7d".toList.contains c
  symbol c := "$+<=>^\x60|~".toList.contains c
  spaceSeparator c := c == ' '
  defaultIgnorable _ := false
  isWhitespace c := c == ' ' || '\t' ≤ c && c ≤ '\r'
  isAlphanumeric := asciiAlphanumeric
  debug text := String.ofList text

end Ascii

section

variable [Unicode]

def showsNothing (c : Char) : Bool := Unicode.defaultIgnorable c || c == '\u2800'

def shown (c : Char) : Bool :=
  (Unicode.letter c || Unicode.mark c || Unicode.number c || Unicode.punctuation c ||
    Unicode.symbol c) && !showsNothing c

def visible (c : Char) : Bool :=
  (Unicode.letter c || Unicode.number c || Unicode.punctuation c || Unicode.symbol c) &&
    !showsNothing c

def presentation (c : Char) : Bool := c == '\ufe0e' || c == '\ufe0f'

def joiner (c : Char) : Bool := c == '\u200c' || c == '\u200d'

def tagLetter (c : Char) : Bool := 0xE0061 ≤ c.toNat && c.toNat ≤ 0xE007A

def tagDigit (c : Char) : Bool := 0xE0030 ≤ c.toNat && c.toNat ≤ 0xE0039

def flag : Pattern Char :=
  let place := Pattern.one fun c => tagDigit c || tagLetter c
  .seq (.one (·.toNat == 0x1F3F4)) <| .seq (.times 2 (.one tagLetter)) <|
    .seq (.seq place (.upTo 3 place)) (.one (·.toNat == 0xE007F))

def glyph : Pattern Char := .alt (.seq (.one shown) (.opt (.one presentation))) flag

def glyphs (separators : Char → Bool) : Pattern Char :=
  .star (.alt (.seq glyph (.star (.seq (.one joiner) glyph))) (.one separators))

def onOneLine : Pattern Char := glyphs Unicode.spaceSeparator

def markdownText : Pattern Char :=
  glyphs fun c => Unicode.spaceSeparator c || c == '\n' || c == '\t'

def plainSpacesOnly : String := "has a space the board can't keep: use plain spaces (U+0020) only"

def plainSpaced (text : Text) : Bool := (text.filter Unicode.isWhitespace).all (· == ' ')

def markdownSpaced (line : Text) : Bool :=
  (line.filter Unicode.isWhitespace).all fun c => c == ' ' || c == '\t'

/-- Single-line text with something visible, at most `maxChars` characters, its
words spaced with plain spaces only. -/
def line (field : String) (text : Text) (maxChars : Nat) : Except SchemaError Unit :=
  let fits := decide (text.length ≤ maxChars)
  let shaped := fits && onOneLine.accepts text && text.any visible
  match shaped, plainSpaced text with
  | true, true => .ok ()
  | true, false => .error ⟨field, plainSpacesOnly⟩
  | false, _ => .error ⟨field, s!"must be 1 to {maxChars} visible characters on one line"⟩

def markdown (field : String) (text : Text) (maxChars : Nat) : Except SchemaError Unit :=
  let shaped := decide (text.length ≤ maxChars) && markdownText.accepts text
  let unplain := (text.splitOn '\n').findIdx? fun line => !markdownSpaced line
  match shaped, unplain with
  | true, none => .ok ()
  | true, some index =>
    let number := index + 1
    .error ⟨field, s!"line {number}: {plainSpacesOnly}"⟩
  | false, _ =>
    .error ⟨field, s!"must be at most {maxChars} characters of text, newlines and tabs"⟩

end

def distinct {α : Type} [DecidableEq α] (field : String) (entries : List α) (max : Nat) :
    Except SchemaError Unit :=
  require (decide (entries.length ≤ max ∧ entries.Nodup))
    ⟨field, s!"must hold at most {max} distinct entries"⟩

/-! ## Words -/

inductive TaskKind where
  | epic | task | chore
  deriving DecidableEq

inductive TaskStatus where
  | draft | ready | claimed | inProgress | review | blocked | done | archived
  deriving DecidableEq

namespace TaskStatus

def asStr : TaskStatus → String
  | draft => "draft"
  | ready => "ready"
  | claimed => "claimed"
  | inProgress => "in_progress"
  | review => "review"
  | blocked => "blocked"
  | done => "done"
  | archived => "archived"

def debug : TaskStatus → String
  | draft => "Draft"
  | ready => "Ready"
  | claimed => "Claimed"
  | inProgress => "InProgress"
  | review => "Review"
  | blocked => "Blocked"
  | done => "Done"
  | archived => "Archived"

def requiresClaim : TaskStatus → Bool
  | claimed | inProgress => true
  | _ => false

def mayHoldClaim (status : TaskStatus) : Bool :=
  status.requiresClaim || status == review || status == blocked

def releasesDependents : TaskStatus → Bool
  | done | archived => true
  | _ => false

end TaskStatus

inductive PlanState where
  | draft | accepted | superseded | discarded
  deriving DecidableEq

def PlanState.asStr : PlanState → String
  | draft => "draft"
  | accepted => "accepted"
  | superseded => "superseded"
  | discarded => "discarded"

inductive ItemState where
  | todo | doing | review | done | blocked
  deriving DecidableEq

inductive Effort where
  | low | medium | high | max
  deriving DecidableEq

inductive RunOutcome where
  | succeeded | failed | stopped | lost
  deriving DecidableEq

inductive Resolution where
  | completed | notPlanned | duplicate | superseded | doneWithoutRun
  deriving DecidableEq

inductive LifecycleAction where
  | start | endRun | release | doneWithoutRun
  deriving DecidableEq

def LifecycleAction.debug : LifecycleAction → String
  | start => "Start"
  | endRun => "EndRun"
  | release => "Release"
  | doneWithoutRun => "DoneWithoutRun"

inductive Inconsistency where
  | doneWithoutPlan | inProgressWithoutRun | runGoingOutsideProgress
  deriving DecidableEq

/-! ## Moments -/

def lastSecond : Nat := 253402300799

structure Timestamp where
  seconds : Nat
  spelt : seconds ≤ lastSecond
  deriving DecidableEq

namespace Timestamp

lemma seconds_injective : Function.Injective Timestamp.seconds := by
  intro a b h
  cases a
  cases h
  rfl

instance : LinearOrder Timestamp := LinearOrder.lift' Timestamp.seconds seconds_injective

def plusSeconds (t : Timestamp) (seconds : Nat) : Except SchemaError Timestamp :=
  if h : t.seconds + seconds ≤ lastSecond then .ok ⟨t.seconds + seconds, h⟩
  else .error ⟨"timestamp", "must not pass 9999-12-31T23:59:59Z"⟩

def minusSeconds (t : Timestamp) (seconds : Nat) : Except SchemaError Timestamp :=
  if seconds ≤ t.seconds then .ok
    ⟨t.seconds - seconds, Nat.sub_le_of_le_add (Nat.le_add_right_of_le t.spelt)⟩
  else .error ⟨"timestamp", "must not be before 1970"⟩

end Timestamp

/-! ## Names -/

def maxSlugBytes : Nat := 64

def reservedSlugs : List String :=
  ["con", "prn", "aux", "nul", "com1", "com2", "com3", "com4", "com5", "com6", "com7", "com8",
    "com9", "lpt1", "lpt2", "lpt3", "lpt4", "lpt5", "lpt6", "lpt7", "lpt8", "lpt9"]

def slugShaped : Bool :=
  let edge := fun c : Option Char => c.any fun c => asciiLower c || asciiDigit c
  let body := text.all fun c => asciiLower c || asciiDigit c || c == '-'
  decide (utf8Len text ≤ maxSlugBytes) && edge text.head? && edge text.getLast? && body &&
    !(reservedSlugs.map String.toList).contains text

structure Slug where
  text : Text
  shaped : slugShaped text = true
  deriving DecidableEq

def fullHex : Bool :=
  (utf8Len text == 40 || utf8Len text == 64) &&
    text.all fun c => asciiDigit c || 'a' ≤ c && c ≤ 'f'

structure CommitId where
  text : Text
  full : fullHex text = true
  deriving DecidableEq

def maxBranchBytes : Nat := 255

def reservedBranches : List String :=
  ["head", "auto_merge", "stash", "bisect_expected_rev", "notes_merge_ref", "notes_merge_partial",
    "merge_autostash"]

def refRoots : List String :=
  ["refs", "heads", "tags", "remotes", "notes", "bisect", "stash", "replace", "main-worktree",
    "worktrees", "worktree", "prefetch", "rewritten", "original", "pull"]

def branchPunctuation : List Char := "!\"#$%&'()+,-./;<=>@]_\x7b|\x7d".toList

def gitBranch : Bool :=
  let printable := text.all fun c => asciiAlphanumeric c || branchPunctuation.contains c
  let components := (text.splitOn '/').all fun component =>
    component.head?.any (· != '.') && !".lock".toList.isSuffixOf component
  decide (1 ≤ utf8Len text ∧ utf8Len text ≤ maxBranchBytes) && printable && components &&
    !decide ("..".toList <:+: text) && !decide ("@\x7b".toList <:+: text) &&
    text.head? != some '-' && text.getLast? != some '.'

def gitHead (lower : Text) : Bool :=
  "_head".toList.isSuffixOf lower && lower.all fun c => asciiLower c || c == '_' || c == '-'

def ours : Bool :=
  let lower := toAsciiLowercase text
  let root := (splitOnce '/' lower).map (·.1)
  let unlocked := (lower.splitOn '/').all fun component => !".lock".toList.isSuffixOf component
  lower != ['@'] && !(reservedBranches.map String.toList).contains lower && !gitHead lower &&
    root.all (fun root => !(refRoots.map String.toList).contains root) && unlocked &&
    !fullHex lower

structure BranchName where
  text : Text
  named : (gitBranch text && ours text) = true
  deriving DecidableEq

def maxRepoPartBytes : Nat := 100

def maxOwnerBytes : Nat := 39

def maxShortcodeBytes : Nat := 8

def isOwner (owner : Text) : Bool :=
  let (handle, shortCode) := match splitOnce '_' owner with
    | some (handle, shortCode) => (handle, some shortCode)
    | none => (owner, none)
  let handleKept := handle.head?.any asciiAlphanumeric &&
    handle.all fun c => asciiAlphanumeric c || c == '-'
  let shortCodeKept := shortCode.all fun code =>
    decide (1 ≤ utf8Len code ∧ utf8Len code ≤ maxShortcodeBytes) && code.all asciiAlphanumeric
  decide (utf8Len owner ≤ maxOwnerBytes) && handleKept && shortCodeKept

def isRepoName (name : Text) : Bool :=
  let first := name.head?.any fun c => asciiAlphanumeric c || c == '.' || c == '_'
  decide (1 ≤ utf8Len name ∧ utf8Len name ≤ maxRepoPartBytes) && first && name != ['.'] &&
    name != ['.', '.'] && name.all fun c => asciiAlphanumeric c || c == '.' || c == '_' || c == '-'

def repoNamed : Bool :=
  match text.splitOn '/' with
  | [owner, name] => isOwner owner && isRepoName name
  | _ => false

structure RepoName where
  shown : Text
  named : repoNamed shown = true
  deriving DecidableEq

def RepoName.key (repo : RepoName) : Text := toAsciiLowercase repo.shown

def maxIssueNumber : Nat := 9999999999

structure IssueNumber where
  get : Nat
  numbered : 1 ≤ get ∧ get ≤ maxIssueNumber
  deriving DecidableEq

def lastNumber (numbers : List Nat) : Nat := numbers.max?.getD 0

lemma le_lastNumber {numbers : List Nat} {n : Nat} (h : n ∈ numbers) : n ≤ lastNumber numbers := by
  unfold lastNumber
  cases hmax : numbers.max? with
  | none =>
    rw [List.max?_eq_none_iff.mp hmax] at h
    cases h
  | some last => exact (List.max?_eq_some_iff.mp hmax).2 n h

inductive Points where
  | own (number : IssueNumber)
  | elsewhere (number : IssueNumber)
  | page
  deriving DecidableEq

/-- A pointer to an issue, pull request or page: its text as given, what makes two
the same pointer, and what it points at. -/
structure Reference where
  shown : Text
  key : Text
  points : Points
  deriving DecidableEq

end Quecto.Board
