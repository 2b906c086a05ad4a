/-
  Sessions/Transcript.lean --- the file of a stored session, and reading it.

  Source: `infrastructure/persistence/file/sessions/session_store.rs`.
-/
import Quecto.Sessions.Save

namespace Quecto.Sessions

open List

/-! ## Names -/

def Role.asStr : Role → String
  | system => "system"
  | user => "user"
  | assistant => "assistant"
  | tool => "tool"

def Role.ofStr (name : String) : Role :=
  if name = "system" then system
  else if name = "user" then user
  else if name = "assistant" then assistant
  else if name = "tool" then tool
  else user

def TurnOrigin.name : TurnOrigin → Option String
  | unknown => none
  | instruction => some "instruction"
  | progressNudge => some "progressNudge"
  | unrecognised => some "unrecognised"

def TurnOrigin.ofName : Option String → TurnOrigin
  | none => unknown
  | some name =>
    if name = "instruction" then instruction
    else if name = "progressNudge" then progressNudge
    else unrecognised

def UserKind.name : UserKind → Option String
  | unmarked => none
  | prompt => some "prompt"
  | archiveStub => some "archiveStub"

def UserKind.ofName : Option String → UserKind
  | none => unmarked
  | some name =>
    if name = "prompt" then prompt
    else if name = "archiveStub" then archiveStub
    else unmarked

def StopReason.asStr : StopReason → String
  | endTurn => "end_turn"
  | maxTokens => "max_tokens"
  | toolUse => "tool_use"
  | refusal => "refusal"
  | error => "error"
  | aborted => "aborted"
  | unknown reason => reason

def StopReason.parse (reason : String) : StopReason :=
  if reason = "end_turn" then endTurn
  else if reason = "max_tokens" ∨ reason = "model_context_window_exceeded" then maxTokens
  else if reason = "tool_use" then toolUse
  else if reason = "refusal" then refusal
  else if reason = "pause_turn" ∨ reason = "stop_sequence" then endTurn
  else if reason = "sensitive" ∨ reason = "error" then error
  else if reason = "aborted" then aborted
  else unknown reason

lemma Role.ofStr_asStr (role : Role) : ofStr role.asStr = role := by cases role <;> rfl

lemma TurnOrigin.ofName_name (origin : TurnOrigin) : ofName origin.name = origin := by
  cases origin <;> rfl

lemma UserKind.ofName_name (kind : UserKind) : ofName kind.name = kind := by cases kind <;> rfl

/-! ## Records -/

structure MessageRecord where
  ordinal : Option Nat
  role : String
  content : String
  toolCalls : List ToolCall
  toolCallId : Option String
  turn : Option Nat
  isPinned : Option Bool
  isManifest : Bool
  isCollapsed : Bool
  turnOrigin : Option String
  userKind : Option String
  toolName : Option String
  inputPreview : Option String
  spillId : Option String
  isError : Bool
  stopReason : Option String
  thinkingBlocks : List ThinkingBlock
  images : List ImageRef
  userImages : List ImageRef
  deriving DecidableEq

def messageToRecord (message : Message) : MessageRecord where
  ordinal := message.ordinal
  role := message.role.asStr
  content := message.content
  toolCalls := message.toolCalls
  toolCallId := message.toolCallId
  turn := message.turn
  isPinned := some message.isPinned
  isManifest := message.isManifest
  isCollapsed := message.isCollapsed
  turnOrigin := message.turnOrigin.name
  userKind := message.userKind.name
  toolName := message.toolName
  inputPreview := message.inputPreview
  spillId := message.spillId
  isError := message.isError
  stopReason := message.stopReason.map (·.asStr)
  thinkingBlocks := message.thinkingBlocks
  images := message.imageRefs.tool
  userImages := message.imageRefs.user

def recordToMessage (record : MessageRecord) : Message :=
  let message : Message :=
    match Role.ofStr record.role with
    | .system => .system 0 record.content
    | .user => .user 0 record.content
    | .assistant => .assistant 0 record.content record.toolCalls
    | .tool => .tool 0 (record.toolCallId.getD "") record.content
  { message with
    ordinal := record.ordinal
    turn := record.turn
    isManifest := record.isManifest
    isCollapsed := record.isCollapsed
    turnOrigin := .ofName record.turnOrigin
    userKind := .ofName record.userKind
    toolName := record.toolName
    inputPreview := record.inputPreview
    spillId := record.spillId
    isError := record.isError
    stopReason := record.stopReason.map .parse
    isPinned := record.isPinned.getD message.isPinned
    thinkingBlocks := record.thinkingBlocks
    imageRefs := ⟨record.images, record.userImages⟩ }

def Message.anonymous (message : Message) : Message := { message with id := 0 }

/-- What the constructors keep: only an assistant calls tools, only a tool result, and each
one, answers a call, and a stop reason was parsed. -/
structure Message.Recordable (message : Message) : Prop where
  calls : message.role ≠ .assistant → message.toolCalls = []
  answers : message.toolCallId.isSome ↔ message.role = .tool
  reason : ∀ reason, message.stopReason = some reason → StopReason.parse reason.asStr = reason

lemma user_recordable (id : MessageId) (content : String) : (Message.user id content).Recordable :=
  ⟨fun _ => rfl, by simp [Message.user, Message.plain], nofun⟩

lemma system_recordable (id : MessageId) (content : String) :
    (Message.system id content).Recordable :=
  ⟨fun _ => rfl, by simp [Message.system, Message.plain], nofun⟩

lemma Message.Recordable.reads_back {message : Message} (h : message.Recordable) :
    recordToMessage (messageToRecord message) = message.anonymous := by
  have hreason : (message.stopReason.map (·.asStr)).map StopReason.parse = message.stopReason := by
    cases hcase : message.stopReason with
    | none => rfl
    | some reason => exact congrArg some (h.reason reason hcase)
  obtain ⟨hcalls, hanswers, -⟩ := h
  cases message with
  | mk id ordinal role content toolCalls toolCallId turn isPinned isManifest isCollapsed turnOrigin
      userKind toolName inputPreview spillId isError stopReason thinkingBlocks imageRefs =>
    simp only [recordToMessage, messageToRecord, Role.ofStr_asStr, TurnOrigin.ofName_name,
      UserKind.ofName_name, anonymous, Option.getD_some] at hreason ⊢
    cases role with
    | system =>
      cases toolCallId with
      | none => simp_all [Message.system, Message.plain]
      | some call => simp at hanswers
    | user =>
      cases toolCallId with
      | none => simp_all [Message.user, Message.plain]
      | some call => simp at hanswers
    | assistant =>
      cases toolCallId with
      | none => simp_all [Message.assistant, Message.plain]
      | some call => simp at hanswers
    | tool =>
      cases toolCallId with
      | none => simp at hanswers
      | some call => simp_all [Message.tool, Message.plain]

variable {ω ρ : Type}

structure SessionFile (ω ρ : Type) where
  key : String
  messages : List MessageRecord
  workflowRun : Option ω
  subagentRoster : List (RosterEntry ρ)

structure AppendRecord (ω ρ : Type) where
  startIndex : Option Nat
  messages : List MessageRecord
  workflowRun : Option ω
  workflowRunCleared : Bool
  subagentRoster : Option (List (RosterEntry ρ))

inductive Line (ω ρ : Type) where
  | snapshot (file : SessionFile ω ρ)
  | append (record : AppendRecord ω ρ)
  | legacy (file : SessionFile ω ρ)
  | fragment (readable : Bool)

def Line.isReadable : Line ω ρ → Bool
  | fragment readable => readable
  | snapshot _ | append _ | legacy _ => true

structure Transcript (ω ρ : Type) where
  lines : List (Line ω ρ)
  terminated : Bool

structure ParsedSession (ω ρ : Type) where
  key : Option String
  session : Session ω ρ
  intact : Bool

/-! ## Reading -/

def sessionFromFile (file : SessionFile ω ρ) : Session ω ρ where
  messages := assignMissingOrdinals (file.messages.map recordToMessage)
  workflowRun := file.workflowRun
  subagentRoster := file.subagentRoster

def Session.extended (session : Session ω ρ) (record : AppendRecord ω ρ) : Session ω ρ where
  messages := session.messages ++ record.messages.map recordToMessage
  workflowRun :=
    if record.workflowRunCleared then none else record.workflowRun.or session.workflowRun
  subagentRoster := record.subagentRoster.getD session.subagentRoster

def AppendRecord.follows (record : AppendRecord ω ρ) (session : Session ω ρ) : Bool :=
  record.startIndex.all (· == session.messages.length)

/-- The records read in order, onto what was read before.  None when the first record is
none; otherwise whether every record was taken. -/
def readLines (read : Option (String × Session ω ρ)) (parsedAny : Bool) :
    List (Line ω ρ) → Option (Option (String × Session ω ρ) × Bool)
  | [] => some (read, true)
  | .snapshot file :: rest => readLines (some (file.key, sessionFromFile file)) true rest
  | .append record :: rest =>
    match read with
    | none => readLines none true rest
    | some (key, session) =>
      if record.follows session then readLines (some (key, session.extended record)) true rest
      else some (read, false)
  | .legacy _ :: _ | .fragment _ :: _ => if parsedAny then some (read, false) else none

def ParsedSession.ofRead (terminated : Bool) :
    Option (String × Session ω ρ) × Bool → ParsedSession ω ρ
  | (some (key, session), whole) =>
    { key := some key
      session := { session with messages := assignMissingOrdinals session.messages }
      intact := whole && terminated }
  | (none, whole) => { key := none, session := ⟨[], none, []⟩, intact := whole && terminated }

def parseSessionRecords (file : Transcript ω ρ) : Option (ParsedSession ω ρ) :=
  if file.lines.all (·.isReadable) then
    match file.lines with
    | [.legacy old] => some ⟨some old.key, sessionFromFile old, file.terminated⟩
    | lines => (readLines none false lines).map (ParsedSession.ofRead file.terminated)
  else none

/-! ## Files that were read whole -/

structure Stored (message : Message) : Prop where
  recordable : message.Recordable
  numbered : message.ordinal.isSome
  anonymous : message.anonymous = message

structure Whole (key : String) (lines : List (Line ω ρ)) (session : Session ω ρ) : Prop where
  read : readLines none false lines = some (some (key, session), true)
  stored : ∀ message ∈ session.messages, Stored message

variable {read read' : Option (String × Session ω ρ)} {parsedAny : Bool} {lines : List (Line ω ρ)}
  {messages : List Message} {session : Session ω ρ}

lemma readLines_append (h : readLines read parsedAny lines = some (read', true))
    (more : List (Line ω ρ)) : readLines read parsedAny (lines ++ more) =
      readLines read' (parsedAny || !lines.isEmpty) more := by
  induction lines generalizing read parsedAny with
  | nil =>
    simp only [readLines, Option.some.injEq, Prod.mk.injEq, and_true] at h
    simp [h]
  | cons line rest ih =>
    have hany : (parsedAny || !(line :: rest).isEmpty) = (true || !rest.isEmpty) := by simp
    rw [hany]
    cases line with
    | snapshot file => exact ih h
    | append record =>
      cases read with
      | none => exact ih h
      | some pair =>
        simp only [readLines, cons_append] at h ⊢
        split at h
        · rename_i hfollows
          rw [if_pos hfollows]
          exact ih h
        · simp at h
    | legacy file | fragment readable =>
      simp only [readLines] at h
      split at h <;> simp at h

lemma isReadable_of_read (h : readLines read parsedAny lines = some (read', true)) :
    lines.all (·.isReadable) = true := by
  induction lines generalizing read parsedAny with
  | nil => rfl
  | cons line rest ih =>
    rw [all_cons, Bool.and_eq_true]
    cases line with
    | snapshot file => exact ⟨rfl, ih h⟩
    | append record =>
      cases read with
      | none => exact ⟨rfl, ih h⟩
      | some pair =>
        simp only [readLines] at h
        split at h
        · exact ⟨rfl, ih h⟩
        · simp at h
    | legacy file | fragment readable =>
      simp only [readLines] at h
      split at h <;> simp at h

section

variable {key : String} {lines : List (Line ω ρ)} {session : Session ω ρ}
  (h : Whole key lines session)
include h

lemma Whole.ne_nil : lines ≠ [] := by
  rintro rfl
  cases h.read

lemma Whole.assigned :
    ({ session with messages := assignMissingOrdinals session.messages } :
      Session ω ρ) = session := by
  rw [assignMissingOrdinals_of_numbered fun message hmem => (h.stored message hmem).numbered]

lemma Whole.parse_append (more : List (Line ω ρ)) (hmore : more.all (·.isReadable) = true)
    (terminated : Bool) : parseSessionRecords ⟨lines ++ more, terminated⟩ =
      (readLines (some (key, session)) true more).map (ParsedSession.ofRead terminated) := by
  have hnil := h.ne_nil
  have hread : readLines none false (lines ++ more) =
      readLines (some (key, session)) true more := by
    rw [readLines_append h.read, isEmpty_eq_false_iff.mpr hnil]
    rfl
  have hlegacy : ∀ old, lines ++ more ≠ [.legacy old] := by
    intro old heq
    cases lines with
    | nil => exact hnil rfl
    | cons line rest =>
      obtain ⟨rfl, -⟩ := List.cons.inj heq
      cases h.read
  have hreadable : (lines ++ more).all (·.isReadable) = true := by
    rw [all_append, isReadable_of_read h.read, hmore]
    rfl
  unfold parseSessionRecords
  rw [if_pos hreadable]
  split
  · rename_i old heq
    exact absurd heq (hlegacy old)
  · rw [hread]

lemma Whole.parse (terminated : Bool) :
    parseSessionRecords ⟨lines, terminated⟩ = some ⟨some key, session, terminated⟩ := by
  have hparse := h.parse_append [] rfl terminated
  rw [append_nil] at hparse
  rw [hparse]
  show some (ParsedSession.ofRead terminated (some (key, session), true)) = _
  simp only [ParsedSession.ofRead, h.assigned, Bool.true_and]

lemma Whole.parse_torn (terminated : Bool) :
    parseSessionRecords ⟨lines ++ [.fragment true], terminated⟩ =
      some ⟨some key, session, false⟩ := by
  rw [h.parse_append [.fragment true] rfl]
  show some (ParsedSession.ofRead terminated (some (key, session), false)) = _
  simp only [ParsedSession.ofRead, h.assigned, Bool.false_and]

end

/-! ## What the store writes -/

def Session.file (session : Session ω ρ) (key : String) : SessionFile ω ρ where
  key := key
  messages := session.messages.map messageToRecord
  workflowRun := session.workflowRun
  subagentRoster := session.subagentRoster

def appendRecord (startIndex : Nat) (messages : List Message) (workflowRun : Option ω)
    (subagentRoster : Option (List (RosterEntry ρ))) : AppendRecord ω ρ where
  startIndex := some startIndex
  messages := messages.map messageToRecord
  workflowRun := workflowRun
  workflowRunCleared := workflowRun.isNone
  subagentRoster := subagentRoster

structure Writable (message : Message) : Prop where
  recordable : message.Recordable
  numbered : message.ordinal.isSome

lemma Writable.stored {message : Message} (h : Writable message) : Stored message.anonymous :=
  ⟨⟨h.recordable.calls, h.recordable.answers, h.recordable.reason⟩, h.numbered, rfl⟩

lemma reads_back (h : ∀ message ∈ messages, Writable message) :
    (messages.map messageToRecord).map recordToMessage = messages.map (·.anonymous) := by
  rw [map_map]
  exact map_congr_left fun message hmem => (h message hmem).recordable.reads_back

lemma stored_of_writable (h : ∀ message ∈ messages, Writable message) :
    ∀ message ∈ messages.map (·.anonymous), Stored message := by
  intro stored hstored
  obtain ⟨message, hmem, rfl⟩ := mem_map.mp hstored
  exact (h message hmem).stored

lemma whole_snapshot (key : String) (h : ∀ message ∈ session.messages, Writable message) :
    Whole key [.snapshot (session.file key)]
      { session with messages := session.messages.map (·.anonymous) } := by
  have hstored := stored_of_writable h
  refine ⟨?_, hstored⟩
  have hmessages : (sessionFromFile (session.file key)).messages =
      session.messages.map (·.anonymous) := by
    show assignMissingOrdinals ((session.messages.map messageToRecord).map recordToMessage) = _
    rw [reads_back h, assignMissingOrdinals_of_numbered fun m hm => (hstored m hm).numbered]
  rw [← hmessages]
  rfl

lemma Whole.appended {key : String} (h : Whole key lines session) {added : List Message}
    (hadded : ∀ message ∈ added, Writable message) (workflowRun : Option ω)
    (roster : Option (List (RosterEntry ρ))) :
    Whole key (lines ++ [.append (appendRecord session.messages.length added workflowRun roster)])
      ⟨session.messages ++ added.map (·.anonymous), workflowRun,
        roster.getD session.subagentRoster⟩ := by
  refine ⟨?_, forall_mem_append.mpr ⟨h.stored, stored_of_writable hadded⟩⟩
  have hfollows : (appendRecord session.messages.length added workflowRun roster).follows session =
      true := by
    show (some session.messages.length).all (· == session.messages.length) = true
    simp
  have hrun : (if workflowRun.isNone then none else workflowRun.or session.workflowRun) =
      workflowRun := by
    cases workflowRun <;> rfl
  have hextended : session.extended
      (appendRecord session.messages.length added workflowRun roster) =
      ⟨session.messages ++ added.map (·.anonymous), workflowRun,
        roster.getD session.subagentRoster⟩ := by
    show Session.mk (session.messages ++ (added.map messageToRecord).map recordToMessage) _ _ = _
    rw [reads_back hadded]
    congr 1
  rw [readLines_append h.read, readLines, if_pos hfollows, hextended]
  rfl

end Quecto.Sessions
