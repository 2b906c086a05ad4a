/-
  Board/Plan.lean --- the parts the board's artifacts share, and a plan: how one task
  will be achieved.

  Source: `domain/project_board/entities/{plan,task_parts,claim,team}.rs`.
-/
import Quecto.Foundation.Machine
import Quecto.Board.Text.Text

namespace Quecto.Board

open Foundation Relation List Pattern Unicode

def claimTtlSeconds : Nat := 2 * 60 * 60

def maxNameChars : Nat := 100

def maxEmailBytes : Nat := 254

def emailPunctuation : List Char := "!\"#$%&'()*+,-./:;=?@[\\]^_\x7b|\x7d~".toList

structure Identity where
  name : Text
  email : Text
  deriving DecidableEq

namespace Identity

def is (a b : Identity) : Bool := toAsciiLowercase a.email == toAsciiLowercase b.email

section

variable [Unicode]

def angle (c : Char) : Bool := c == '<' || c == '>'

def written (c : Char) : Bool :=
  letter c || mark c || number c || punctuation c ||
    symbol c

def nameEdge (c : Char) : Bool := (written c || c.toNat == 0xE007F) && !angle c

def nameInner (c : Char) : Bool :=
  (written c || spaceSeparator c || joiner c ||
    0xE0020 ≤ c.toNat && c.toNat ≤ 0xE007F) && !angle c

def namePattern : Pattern Char :=
  .seq (.one nameEdge) (.opt (.seq (.star (.one nameInner)) (.one nameEdge)))

def emailShaped (email : Text) : Bool :=
  match splitOnce '@' email with
  | some (user, domain) => !user.isEmpty && !domain.isEmpty && !domain.contains '@'
  | none => false

def validate (identity : Identity) (field : String) : Except SchemaError Unit :=
  inOrder [line s!"{field}/name" identity.name maxNameChars,
    require (namePattern.accepts identity.name)
      ⟨s!"{field}/name", "must start and end with a visible character, without < or >"⟩,
    require (emailShaped identity.email && decide (utf8Len identity.email ≤ maxEmailBytes) &&
        identity.email.all fun c => asciiAlphanumeric c || emailPunctuation.contains c)
      ⟨s!"{field}/email",
        "must be local@domain of ASCII letters, digits and punctuation but <, > and a backtick"⟩]

end

end Identity

structure Claim where
  holder : Identity
  since : Timestamp
  expires : Timestamp
  deriving DecidableEq

def Claim.validate [Unicode] (claim : Claim) (field : String) : Except SchemaError Unit := do
  claim.holder.validate s!"{field}/holder"
  let cap ← (claim.since.plusSeconds claimTtlSeconds).mapError (·.at field)
  require (decide (claim.since < claim.expires ∧ claim.expires ≤ cap))
    ⟨field, "must expire after it starts and within two hours"⟩

def maxItems : Nat := 128

def maxPerItem : Nat := 16

def maxLineChars : Nat := 500

def maxOwnerChars : Nat := 100

def maxBudgetTokens : Nat := 2 ^ 53 - 1

section

variable [Unicode]

def lines (field : String) (entries : List Text) (max : Nat) : Except SchemaError Unit := do
  distinct field entries max
  inOrder (entries.mapIdx fun index entry => line s!"{field}/{index}" entry maxLineChars)

def shaped (field : String) (text : Text) (maxBytes : Nat) (shape : Pattern Char) :
    Except SchemaError Unit :=
  let debug := debug text
  require (decide (utf8Len text ≤ maxBytes) && shape.accepts text)
    ⟨field, s!"{debug} is not an allowed reference of at most {maxBytes} bytes"⟩

def maxEnteredTitleChars : Nat := 70

def shortTitle : String := "write the outcome, with no instructions"

def enteredTitle (field : String) (title : Text) : Except SchemaError Unit := do
  BoardText.enteredLine field title
  let chars := title.length
  require (decide (chars ≤ maxEnteredTitleChars))
    ⟨field, s!"is {chars} characters; the most is {maxEnteredTitleChars}: {shortTitle}"⟩

end

class Descriptions where
  Description : Type
  read : Text → Option Description
  entered : Text → Except SchemaError Unit
  excepted : Description → Bool
  settle : Description → Description
  markdown : Description → Text

namespace Ascii

scoped instance descriptions : Descriptions where
  Description := Empty
  read _ := none
  entered _ := .ok ()
  excepted := nofun
  settle := id
  markdown := nofun

end Ascii

inductive DescriptionForm where
  | legacy | sectioned
  deriving DecidableEq

inductive Entry where
  | sectioned | legacy
  deriving DecidableEq

namespace Entry

variable [Unicode]

def title (entry : Entry) (field : String) (title : Text) : Except SchemaError Unit :=
  match entry with
  | sectioned => enteredTitle field title
  | legacy => BoardText.enteredLine field title

def form (entry : Entry) (text : Text) : DescriptionForm :=
  match entry, text.isEmpty with
  | sectioned, false => .sectioned
  | sectioned, true | legacy, _ => .legacy

def description [Descriptions] (entry : Entry) (text : Text) : Except SchemaError Unit :=
  match entry with
  | sectioned => Descriptions.entered text
  | legacy => BoardText.enteredText isAlphanumeric "description" text

end Entry

/-! ## Team -/

def maxRoles : Nat := 16

def maxMembers : Nat := 32

def maxModelBytes : Nat := 100

def maxImageBytes : Nat := 255

def minDeadlineSeconds : Nat := 10 * 60

def maxDeadlineSeconds : Nat := 7 * 24 * 60 * 60

structure RoleLimits where
  members : Nat
  turns : Option Nat
  deriving DecidableEq

structure Role where
  name : Slug
  model : Text
  effort : Effort
  limits : RoleLimits
  deriving DecidableEq

structure Team where
  roles : List Role
  deadlineSeconds : Option Nat
  image : Option Text
  deriving DecidableEq

def oneOf (chars : String) : Pattern Char := .one fun c => chars.toList.contains c

def word (chars : String) : Pattern Char :=
  .one fun c => asciiAlphanumeric c || chars.toList.contains c

def hexDigit : Pattern Char :=
  .one fun c => asciiDigit c || 'a' ≤ c && c ≤ 'f' || 'A' ≤ c && c ≤ 'F'

def modelPattern : Pattern Char :=
  let segment := seq (word "") (.star (word "._:-"))
  .seq segment (.star (.seq (oneOf "/") segment))

def imagePattern : Pattern Char :=
  let label := seq (word "") (.opt (.seq (.star (word "-")) (word "")))
  let port := seq (oneOf ":") (.plus (.one asciiDigit))
  let address := plus (.one fun c =>
    asciiDigit c || 'a' ≤ c && c ≤ 'f' || 'A' ≤ c && c ≤ 'F' || c == ':')
  let domain := alt (.seq (.letters "localhost".toList) (.opt port)) <|
    .alt (.seq label (.seq (.plus (.seq (oneOf ".") label)) (.opt port))) <|
    .alt (.seq label port) (.seq (oneOf "[") (.seq address (.seq (oneOf "]") (.opt port))))
  let lower := plus (.one fun c => asciiLower c || asciiDigit c)
  let separator := alt (oneOf "._") (.alt (.letters "__".toList) (.plus (oneOf "-")))
  let component := seq lower (.star (.seq separator lower))
  let tag := seq (word "_") (.upTo 127 (word "_.-"))
  let letter := one fun c => asciiAlphanumeric c && !asciiDigit c
  let algorithm := seq letter (.star (word ""))
  let digest := seq algorithm <| .seq (.star (.seq (oneOf "-_+.") algorithm)) <|
    .seq (oneOf ":") (.seq (.times 32 hexDigit) (.star hexDigit))
  .seq (.opt (.seq domain (oneOf "/"))) <|
    .seq component <| .seq (.star (.seq (oneOf "/") component)) <|
    .seq (.opt (.seq (oneOf ":") tag)) (.opt (.seq (oneOf "@") digest))

section

variable [Unicode]

def Role.validate (role : Role) (field : String) : Except SchemaError Unit :=
  inOrder [shaped s!"{field}/model" role.model maxModelBytes modelPattern,
    require (decide (1 ≤ role.limits.members ∧ role.limits.members ≤ maxMembers))
      ⟨s!"{field}/limits/members", s!"must be 1 to {maxMembers}"⟩,
    require (role.limits.turns.all fun turns => decide (1 ≤ turns))
      ⟨s!"{field}/limits/turns", "must be at least 1"⟩]

def Team.validate (team : Team) (field : String) : Except SchemaError Unit :=
  inOrder [distinct s!"{field}/roles" (team.roles.map (·.name)) maxRoles,
    require (!team.roles.isEmpty) ⟨s!"{field}/roles", "must name at least one role"⟩,
    inOrder (team.roles.mapIdx fun index role => role.validate s!"{field}/roles/{index}"),
    require (team.deadlineSeconds.all fun seconds =>
        decide (minDeadlineSeconds ≤ seconds ∧ seconds ≤ maxDeadlineSeconds))
      ⟨s!"{field}/deadline_seconds", s!"must be {minDeadlineSeconds} to {maxDeadlineSeconds}"⟩,
    match team.image with
    | some image => shaped s!"{field}/image" image maxImageBytes imagePattern
    | none => .ok ()]

end

/-! ## Plan -/

def maxApproachChars : Nat := 65536

def maxHandoffChars : Nat := 65536

def maxPlanVersion : Nat := 999

def maxPlanTextBytes : Nat := 320 * 1024

structure PlanItem where
  id : Slug
  title : Text
  criteria : List Text
  dependsOn : List Slug
  deriving DecidableEq

structure PlanFields where
  task : Slug
  version : Nat
  state : PlanState
  approach : Text
  handoff : Option Text
  items : List PlanItem
  team : Option Team
  proposedBy : Identity
  editedBy : Option Identity
  accepted : Option (Identity × Timestamp)
  created : Timestamp
  updated : Timestamp
  deriving DecidableEq

def PlanFields.textBytes (plan : PlanFields) : Nat :=
  let items := (plan.items.map fun item =>
    utf8Len item.title + (item.criteria.map utf8Len).sum).sum
  let team := plan.team.elim 0 fun team =>
    (team.roles.map fun role => utf8Len role.model).sum + team.image.elim 0 utf8Len
  utf8Len plan.approach + plan.handoff.elim 0 utf8Len + items + team

/-! ### Dependencies among task items -/

def readyItems (items : List PlanItem) (settled : List Bool) : List Nat :=
  (List.range items.length).filter fun index =>
    settled[index]? == some false && items[index]?.all fun item =>
      item.dependsOn.all fun dependency =>
        ((items.findIdx? fun other => other.id == dependency).bind (settled[·]?)) == some true

def settleItems (ready : List Nat) (settled : List Bool) : List Bool :=
  ready.foldl (fun settled index => settled.set index true) settled

lemma count_set_true_le (settled : List Bool) (index : Nat) :
    (settled.set index true).count false ≤ settled.count false := by
  by_cases h : index < settled.length
  · rw [count_set h]
    simp
  · rw [set_eq_of_length_le (Nat.le_of_not_lt h)]

lemma count_settleItems_le (ready : List Nat) (settled : List Bool) :
    (settleItems ready settled).count false ≤ settled.count false := by
  induction ready generalizing settled with
  | nil => exact Nat.le_refl _
  | cons index ready ih =>
    exact Nat.le_trans (ih (settled.set index true)) (count_set_true_le settled index)

lemma count_settleItems_lt {ready : List Nat} {settled : List Bool} (hready : ready ≠ [])
    (hopen : ∀ index ∈ ready, settled[index]? = some false) :
    (settleItems ready settled).count false < settled.count false := by
  obtain ⟨index, rest, rfl⟩ := exists_cons_of_ne_nil hready
  have hindex := hopen index mem_cons_self
  obtain ⟨hlt, hfalse⟩ := List.getElem?_eq_some_iff.mp hindex
  have hcount : 0 < settled.count false := count_pos_iff.mpr (mem_of_getElem? hindex)
  have hset : (settled.set index true).count false < settled.count false := by
    rw [count_set hlt, hfalse]
    exact Nat.sub_lt hcount Nat.one_pos
  exact Nat.lt_of_le_of_lt (count_settleItems_le rest _) hset

/-- Items whose dependencies are settled settle, round by round; one that never does is behind
a cycle. -/
def blockedFrom (items : List PlanItem) (settled : List Bool) : Option Nat :=
  if readyItems items settled = [] then settled.findIdx? (! ·)
  else blockedFrom items (settleItems (readyItems items settled) settled)
termination_by settled.count false
decreasing_by
  apply count_settleItems_lt (by assumption)
  intro index hindex
  have := (mem_filter.mp hindex).2
  exact beq_iff_eq.mp (Bool.and_eq_true_iff.mp this).1

def blockedByCycle (items : List PlanItem) : Option Nat :=
  blockedFrom items (List.replicate items.length false)

section

variable [Unicode]

def PlanItem.validate (item : PlanItem) (field : String) : Except SchemaError Unit :=
  inOrder [line s!"{field}/title" item.title maxLineChars,
    lines s!"{field}/criteria" item.criteria maxPerItem,
    distinct s!"{field}/depends_on" item.dependsOn maxPerItem]

def validateItems (items : List PlanItem) : Except SchemaError Unit :=
  let ids := items.map (·.id)
  inOrder [distinct "items" ids maxItems, inOrder (items.mapIdx fun index item => do
      item.validate s!"items/{index}"
      require (item.dependsOn.all fun dependency =>
        dependency != item.id && ids.contains dependency)
        ⟨s!"items/{index}/depends_on", "must name other task items of this plan"⟩),
    match blockedByCycle items with
    | some index =>
      .error ⟨s!"items/{index}/depends_on", "is on or behind a cycle of task item dependencies"⟩
    | none => .ok ()]

def validateAcceptance (plan : PlanFields) : Except SchemaError Unit :=
  let wasAccepted := match plan.state with
    | .accepted | .superseded => true
    | .draft | .discarded => false
  match plan.accepted, wasAccepted with
  | none, false => .ok ()
  | some (identity, moment), true => do
    identity.validate "accepted/by"
    require (decide (plan.created ≤ moment ∧ moment ≤ plan.updated))
      ⟨"accepted/at", "must be from when the plan was created to when it was updated"⟩
  | _, _ =>
    let state := plan.state.asStr
    .error ⟨"accepted", s!"does not match state {state}"⟩

def PlanFields.validate (plan : PlanFields) : Except SchemaError Unit :=
  let text := plan.textBytes
  inOrder [
    require (decide (plan.created ≤ plan.updated)) ⟨"updated", "must not be before created"⟩,
    require (decide (1 ≤ plan.version ∧ plan.version ≤ maxPlanVersion))
      ⟨"version", s!"must be 1 to {maxPlanVersion}"⟩,
    markdown "approach" plan.approach maxApproachChars,
    match plan.handoff with
    | some handoff => do
      markdown "handoff" handoff maxHandoffChars
      require (handoff.any fun c => !Unicode.isWhitespace c)
        ⟨"handoff", "is empty: write it, or leave it out"⟩
    | none => .ok (),
    validateItems plan.items,
    plan.proposedBy.validate "proposed_by",
    match plan.editedBy with
    | some editor => editor.validate "edited_by"
    | none => .ok (),
    validateAcceptance plan,
    require (decide (text ≤ maxPlanTextBytes))
      ⟨"text", s!"the plan's text is {text} bytes; the most is {maxPlanTextBytes}"⟩,
    match plan.team with
    | some team => team.validate "team"
    | none => .ok ()]

abbrev Plan := Validated PlanFields.validate

def PlanFields.item (plan : PlanFields) (id : Slug) : Option PlanItem :=
  plan.items.find? (·.id == id)

end

end Quecto.Board
