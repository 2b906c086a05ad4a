/-
  Sessions/Message.lean --- the messages of a session, its visible transcript, and
  rewinding it.

  Source: `domain/conversation/value_objects/message.rs` and
  `services/{turn_origin,conversation_view,conversation_edit}.rs`.
-/
import Quecto.Foundation.Search
import Quecto.Foundation.Word

namespace Quecto.Sessions

open Foundation List

inductive Role where
  | system
  | user
  | assistant
  | tool
  deriving DecidableEq

structure ToolCall where
  id : String
  name : String
  arguments : String
  deriving DecidableEq

inductive ThinkingBlock where
  | normal (thinking signature : String)
  | redacted (data : String)
  | encryptedReasoning (origin : String) (leadsTo : Option String) (item : String)
  deriving DecidableEq

inductive TurnOrigin where
  | unknown
  | instruction
  | progressNudge
  | unrecognised
  deriving DecidableEq

inductive UserKind where
  | unmarked
  | prompt
  | archiveStub
  deriving DecidableEq

inductive StopReason where
  | endTurn
  | maxTokens
  | toolUse
  | refusal
  | error
  | aborted
  | unknown (reason : String)
  deriving DecidableEq

structure ImageRef where
  sha256 : String
  mimeType : String
  deriving DecidableEq

/-- The references of the images a message carries, of a tool result and of a user, whether
their texts are loaded or not. -/
structure MessageImageRefs where
  tool : List ImageRef
  user : List ImageRef
  deriving DecidableEq

abbrev MessageId := Nat

structure Message where
  id : MessageId
  ordinal : Option Nat
  role : Role
  content : String
  toolCalls : List ToolCall
  toolCallId : Option String
  turn : Option Nat
  isPinned : Bool
  isManifest : Bool
  isCollapsed : Bool
  turnOrigin : TurnOrigin
  userKind : UserKind
  toolName : Option String
  inputPreview : Option String
  spillId : Option String
  isError : Bool
  stopReason : Option StopReason
  thinkingBlocks : List ThinkingBlock
  imageRefs : MessageImageRefs
  deriving DecidableEq

namespace Message

def plain (id : MessageId) (role : Role) (content : String) : Message where
  id := id
  ordinal := none
  role := role
  content := content
  toolCalls := []
  toolCallId := none
  turn := none
  isPinned := false
  isManifest := false
  isCollapsed := false
  turnOrigin := .unknown
  userKind := .unmarked
  toolName := none
  inputPreview := none
  spillId := none
  isError := false
  stopReason := none
  thinkingBlocks := []
  imageRefs := ⟨[], []⟩

def system (id : MessageId) (content : String) : Message :=
  { plain id .system content with isPinned := true }

def user (id : MessageId) (content : String) : Message := plain id .user content

def assistant (id : MessageId) (content : String) (toolCalls : List ToolCall) : Message :=
  { plain id .assistant content with toolCalls := toolCalls }

def tool (id : MessageId) (toolCallId content : String) : Message :=
  { plain id .tool content with toolCallId := some toolCallId }

end Message

/-! ## The injected prompt -/

def isInjectedSystemPrompt (message : Message) (prompt : String) : Bool :=
  !prompt.isEmpty && message.role == .system && !message.isManifest && message.content == prompt

variable (messages : List Message)

def userVisibleMessages (injectedPrompt : String) : List Message :=
  messages.filter fun message => !isInjectedSystemPrompt message injectedPrompt

def positionById (id : MessageId) : Option Nat :=
  position (fun message => message.id == id) messages

def isRealSystem (message : Message) : Bool := message.role == .system && !message.isManifest

/-- The run's prompt put at the head, unless a real system message leads already.
`fresh` is the identity a new message is given. -/
def injectSystemPrompt (prompt : String) (fresh : MessageId) : List Message :=
  if prompt.isEmpty then messages
  else if messages.head?.any isRealSystem then messages
  else .system fresh prompt :: messages

def leadsWithPrompt (prompt : String) (message : Message) : Bool :=
  isRealSystem message &&
    (message.content == prompt || prompt.toList.isPrefixOf message.content.toList)

def removeInjectedSystemPrompt (prompt : String) : List Message :=
  if prompt.isEmpty then messages
  else if messages.head?.any (leadsWithPrompt prompt) then messages.drop 1
  else messages

/-! ## The report of a transcript -/

namespace TurnOrigin

def reportRank : TurnOrigin → Nat
  | instruction => 3
  | unknown => 2
  | progressNudge => 1
  | unrecognised => 0

end TurnOrigin

class Whitespace where
  isWhitespace : Char → Bool

def isSubstantiveReply [Whitespace] (message : Message) : Bool :=
  message.role == .assistant && message.toolCalls.isEmpty &&
    !message.content.toList.all Whitespace.isWhitespace

def bestRank (substantive : Message → Bool) (messages : List Message) : Option Nat :=
  ((messages.filter substantive).map (·.turnOrigin.reportRank)).max?

def transcriptReportIndex (substantive : Message → Bool) (messages : List Message) : Option Nat :=
  (bestRank substantive messages).bind fun best =>
    rposition (fun message => substantive message && message.turnOrigin.reportRank == best) messages

structure ReportRef where
  id : MessageId
  ordinal : Option Nat
  origin : TurnOrigin
  contentLength : Nat
  deriving DecidableEq

def ReportRef.of (message : Message) : ReportRef where
  id := message.id
  ordinal := message.ordinal
  origin := message.turnOrigin
  contentLength := message.content.utf8ByteSize

/-! ## Pages -/

structure HistoryPage where
  messages : List Message
  report : Option ReportRef
  before : Option MessageId
  hasMoreBefore : Bool

def window [Whitespace] (visible : List Message) (count : Nat) (before : Option MessageId) :
    HistoryPage :=
  let stop := (before.bind (positionById visible)).getD visible.length
  let start := stop - count
  let hasMoreBefore := decide (0 < count ∧ 0 < start)
  { messages := (visible.drop start).take (stop - start)
    report :=
      ((transcriptReportIndex isSubstantiveReply visible).bind (visible[·]?)).map ReportRef.of
    before := if hasMoreBefore then visible[start]?.map (·.id) else none
    hasMoreBefore := hasMoreBefore }

def newestWindow [Whitespace] (conversation : List Message) (injectedPrompt : String)
    (count : Nat) :
    HistoryPage :=
  window (userVisibleMessages conversation injectedPrompt) count none

def lastOrdinal : Nat :=
  (messages.filterMap (·.ordinal)).max?.getD 0

def numberFrom : Nat → List Message → List Message
  | _, [] => []
  | next, message :: rest =>
    match message.ordinal with
    | some _ => message :: numberFrom next rest
    | none => { message with ordinal := some next } :: numberFrom (saturatingAdd next 1) rest

def assignMissingOrdinals : List Message :=
  numberFrom (saturatingAdd (lastOrdinal messages) 1) messages

def unnumbered : List MessageId :=
  (messages.filter (·.ordinal.isNone)).map (·.id)

def Message.withdrawOrdinal (ids : List MessageId) (message : Message) : Message :=
  if message.id ∈ ids then { message with ordinal := none } else message

def withdrawOrdinals (ids : List MessageId) (messages : List Message) : List Message :=
  messages.map (·.withdrawOrdinal ids)

/-! ## What numbering changes -/

structure Numbered (before after : Message) : Prop where
  same : after = { before with ordinal := after.ordinal }
  kept : ∀ ordinal, before.ordinal = some ordinal → after.ordinal = some ordinal
  some : after.ordinal.isSome

lemma numberFrom_numbers (next : Nat) (messages : List Message) :
    List.Forall₂ Numbered messages (numberFrom next messages) := by
  induction messages generalizing next with
  | nil => exact .nil
  | cons message rest ih =>
    cases hordinal : message.ordinal with
    | none =>
      rw [numberFrom, hordinal]
      refine .cons ⟨rfl, ?_, rfl⟩ (ih _)
      intro ordinal h
      rw [hordinal] at h
      cases h
    | some ordinal =>
      rw [numberFrom, hordinal]
      exact .cons ⟨rfl, fun _ h => h, by rw [hordinal]; rfl⟩ (ih _)

lemma assignMissingOrdinals_numbers :
    List.Forall₂ Numbered messages (assignMissingOrdinals messages) :=
  numberFrom_numbers _ messages

lemma length_assignMissingOrdinals : (assignMissingOrdinals messages).length = messages.length :=
  (assignMissingOrdinals_numbers messages).length_eq.symm

variable {messages before after : List Message}

section

variable (h : ∀ message ∈ messages, message.ordinal.isSome)
include h

lemma numberFrom_of_numbered (next : Nat) : numberFrom next messages = messages := by
  induction messages generalizing next with
  | nil => rfl
  | cons message rest ih =>
    obtain ⟨ordinal, hordinal⟩ := Option.isSome_iff_exists.mp (h message mem_cons_self)
    rw [numberFrom, hordinal]
    rw [ih (fun other hother => h other (mem_cons_of_mem _ hother))]

lemma assignMissingOrdinals_of_numbered : assignMissingOrdinals messages = messages :=
  numberFrom_of_numbered h _

lemma numberFrom_append_of_numbered (next : Nat) (others : List Message) :
    numberFrom next (messages ++ others) = messages ++ numberFrom next others := by
  induction messages with
  | nil => rfl
  | cons message rest ih =>
    obtain ⟨ordinal, hordinal⟩ := Option.isSome_iff_exists.mp (h message mem_cons_self)
    rw [cons_append, numberFrom, hordinal]
    show message :: numberFrom next (rest ++ others) = message :: (rest ++ numberFrom next others)
    rw [ih fun other hother => h other (mem_cons_of_mem _ hother)]

lemma assignMissingOrdinals_concat (last : Message) :
    ∃ numbered, assignMissingOrdinals (messages ++ [last]) = messages ++ [numbered] ∧
      Numbered last numbered := by
  unfold assignMissingOrdinals
  rw [numberFrom_append_of_numbered h]
  generalize saturatingAdd (lastOrdinal (messages ++ [last])) 1 = next
  have hnumbers := numberFrom_numbers next [last]
  obtain ⟨numbered, rest, hnumbered, hrest, heq⟩ := forall₂_cons_left_iff.mp hnumbers
  rw [forall₂_nil_left_iff] at hrest
  rw [heq, hrest]
  exact ⟨numbered, rfl, hnumbered⟩

end

lemma isSome_of_mem_numbered (h : List.Forall₂ Numbered before after) :
    ∀ message ∈ after, message.ordinal.isSome := by
  induction h with
  | nil => exact fun _ hmem => nomatch hmem
  | cons hnumbered _ ih => exact forall_mem_cons.mpr ⟨hnumbered.some, ih⟩

lemma forall_of_ordinals {R : Message → Message → Prop} {Q : Message → Prop}
    (hsame : ∀ before after, R before after → after = { before with ordinal := after.ordinal })
    (hQ : ∀ message ordinal, Q message → Q { message with ordinal := ordinal })
    (h : List.Forall₂ R before after) (hbefore : ∀ message ∈ before, Q message) :
    ∀ message ∈ after, Q message := by
  induction h with
  | nil => exact fun _ hmem => nomatch hmem
  | cons hfirst _ ih =>
    obtain ⟨hhead, hrest⟩ := forall_mem_cons.mp hbefore
    refine forall_mem_cons.mpr ⟨?_, ih hrest⟩
    rw [hsame _ _ hfirst]
    exact hQ _ _ hhead

lemma Message.withdrawOrdinal_same (ids : List MessageId) (message : Message) :
    message.withdrawOrdinal ids =
      { message with ordinal := (message.withdrawOrdinal ids).ordinal } := by
  unfold withdrawOrdinal
  split <;> rfl

/-! ## The target -/

inductive RewindTarget where
  | messageId (id : MessageId)
  | legacyIndex (index : Nat)
  deriving DecidableEq

inductive RewindTargetError where
  | notFound
  | ambiguousLegacyIndex
  deriving DecidableEq

def resolveRewindTarget (messages : List Message) (legacyIndexWindow : Nat) :
    RewindTarget → Except RewindTargetError Nat
  | .messageId id =>
    match positionById messages id with
    | some index => .ok index
    | none => .error .notFound
  | .legacyIndex index =>
    if legacyIndexWindow < messages.length then .error .ambiguousLegacyIndex else .ok index

def truncateAtUserMessage (messages : List Message) (index : Nat) : Option (List Message) :=
  match messages[index]? with
  | some message => if message.role = .user then some (messages.take index) else none
  | none => none

/-! ## What stays -/

def recallClause : List Char := " — recall(".toList

def messageStubWithoutRecall (stub : String) : String :=
  let text := stub.toList
  match (List.range text.length).reverse.find? fun i => recallClause.isPrefixOf (text.drop i) with
  | some i => String.ofList (text.take i ++ [']'])
  | none => stub

variable (fresh : MessageId)

def rewoundStub : Message :=
  { Message.user fresh
      ("[Context archive] Earlier messages of this session were dropped to keep " ++
      "the context small; a rewind cleared the archive that held them.") with
    userKind := .archiveStub }

def forgetRetention (message : Message) : Message :=
  match message.userKind with
  | .archiveStub => { rewoundStub fresh with ordinal := message.ordinal }
  | .prompt | .unmarked => { message with spillId := none }

def expanded (message : Message) : Message :=
  if message.isCollapsed then
    { message with
      content :=
        match message.role with
        | .user | .assistant => messageStubWithoutRecall message.content
        | .system | .tool => ""
      isCollapsed := false }
  else message

/-- The messages stripped of what pointed into the session's memory.  `fresh` is the
first identity new messages are given. -/
def removeSpillReferences (messages : List Message) : List Message :=
  (messages.filter (!·.isManifest)).mapIdx fun i message =>
    forgetRetention (fresh + i) (expanded message)

def rewindToMessageIndex (messages : List Message) (index : Nat) : Option (List Message) :=
  (truncateAtUserMessage messages index).map (removeSpillReferences fresh)

def rewound (messages : List Message) (target : RewindTarget)
    (legacyIndexWindow : Nat) : Option (List Message) :=
  match resolveRewindTarget messages legacyIndexWindow target with
  | .ok index => rewindToMessageIndex fresh messages index
  | .error _ => none

/-! ## What a rewind keeps -/

lemma ordinal_stripped (message : Message) :
    (forgetRetention fresh (expanded message)).ordinal = message.ordinal := by
  unfold forgetRetention expanded
  split <;> split <;> rfl

lemma mem_removeSpillReferences {fresh : MessageId} {message : Message}
    (h : message ∈ removeSpillReferences fresh messages) :
    ∃ other ∈ messages, ∃ id, message = forgetRetention id (expanded other) := by
  obtain ⟨i, hi, rfl⟩ := mem_mapIdx.mp h
  exact ⟨_, (mem_filter.mp (getElem_mem hi)).1, _, rfl⟩

lemma stripped_stub {message : Message}
    (h : (forgetRetention fresh (expanded message)).userKind = .archiveStub) :
    (forgetRetention fresh (expanded message)).role = .user := by
  unfold forgetRetention at h ⊢
  split
  · rfl
  · rename_i hkind
    rw [hkind] at h
    exact absurd h (by simp)
  rename_i hkind
  rw [hkind] at h
  exact absurd h (by simp)

lemma rewound_eq {fresh : MessageId} {target : RewindTarget}
    {legacyIndexWindow : Nat} (h : rewound fresh messages target legacyIndexWindow = some after) :
    ∃ index, resolveRewindTarget messages legacyIndexWindow target = .ok index ∧
      after = removeSpillReferences fresh (messages.take index) := by
  unfold rewound at h
  split at h
  · rename_i index hindex
    obtain ⟨kept, hkept, rfl⟩ := Option.map_eq_some_iff.mp h
    refine ⟨index, hindex, ?_⟩
    unfold truncateAtUserMessage at hkept
    split at hkept
    · split at hkept
      · rw [Option.some.inj hkept]
      · cases hkept
    · cases hkept
  · cases h

end Quecto.Sessions
