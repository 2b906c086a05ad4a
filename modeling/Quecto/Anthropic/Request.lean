/-
  Anthropic/Request.lean --- a conversation as the Messages API takes it.

  Source: `infrastructure/providers/anthropic/{normalize,request_body,claude_code}.rs`.
-/
import Quecto.Foundation.Lines
import Quecto.Sessions.Message

namespace Quecto.Anthropic

open Foundation
open Sessions

structure ImageBlock where
  mimeType : String
  data : String
  deriving DecidableEq

structure ChatMessage extends Message where
  imageBlocks : List ImageBlock
  userImageBlocks : List ImageBlock
  deriving DecidableEq

/-! ## The messages of the API -/

inductive ApiRole where
  | user
  | assistant
  deriving DecidableEq

inductive Content (β : Type) where
  | plain (text : String)
  | blocks (blocks : List β)
  deriving DecidableEq

inductive Part where
  | text (text : String)
  | image (mediaType data : String)
  deriving DecidableEq

inductive Block (J : Type) where
  | part (part : Part)
  | thinking (thinking signature : String)
  | redactedThinking (data : String)
  | toolUse (id name : String) (input : J)
  | toolResult (toolUseId : String) (content : Content Part) (isError : Bool)
  deriving DecidableEq

structure ApiMessage (J : Type) where
  role : ApiRole
  content : Content (Block J)
  deriving DecidableEq

namespace Content

def asArray {β : Type} : Content β → List β
  | plain _ => []
  | blocks array => array

end Content

namespace Block

variable {J : Type}

def toolUseId? : Block J → Option String
  | toolUse id _ _ => some id
  | part _ | thinking _ _ | redactedThinking _ | toolResult _ _ _ => none

def toolResultId? : Block J → Option String
  | toolResult id _ _ => some id
  | part _ | thinking _ _ | redactedThinking _ | toolUse _ _ _ => none

end Block

class JsonObjects (J : Type) where
  parseObject : String → Option J
  empty : J

/-! ## Call ids -/

def isIdChar (c : Char) : Bool := c.isAlphanum || c == '_' || c == '-'

def isValidToolCallId (id : String) : Bool :=
  decide (id.utf8ByteSize ≤ 64) && id.toList.all isIdChar

def normalizeToolCallId (id : String) : Option String :=
  if isValidToolCallId id then none
  else some (String.ofList ((id.toList.map fun c => if isIdChar c then c else '_').take 64))

/-! ## Normalization -/

def StopReason.isFailure : StopReason → Bool
  | .error | .aborted => true
  | .endTurn | .maxTokens | .toolUse | .refusal | .unknown _ => false

def isIncomplete (message : ChatMessage) : Bool :=
  message.role == .assistant && message.stopReason.any StopReason.isFailure

def callIds (message : ChatMessage) : List String := message.toolCalls.map (·.id)

def droppedToolIds (messages : List ChatMessage) : List String :=
  (messages.filter isIncomplete).flatMap callIds

def idMap (messages : List ChatMessage) : List (String × String) :=
  (messages.flatMap callIds).filterMap fun id => (normalizeToolCallId id).map fun norm => (id, norm)

def keeps (dropped : List String) (message : ChatMessage) : Bool :=
  !isIncomplete message &&
    !(message.role == .tool && message.toolCallId.any fun id => decide (id ∈ dropped))

def renamed (map : List (String × String)) (id : String) : String := (map.lookup id).getD id

def normalizeMessage (map : List (String × String)) (message : ChatMessage) : ChatMessage :=
  let tcNeedsNorm := message.toolCalls.any fun call => (map.lookup call.id).isSome
  let tcidNeedsNorm :=
    message.role == .tool && message.toolCallId.any fun id => (map.lookup id).isSome
  if !tcNeedsNorm && !tcidNeedsNorm then message
  else
    { message with
      toolCalls := message.toolCalls.map fun call => { call with id := renamed map call.id }
      toolCallId :=
        if message.role = .tool then message.toolCallId.map (renamed map)
        else message.toolCallId }

def normalizeMessages (messages : List ChatMessage) : List ChatMessage :=
  (messages.filter (keeps (droppedToolIds messages))).map (normalizeMessage (idMap messages))

/-! ## One message -/

section Build

variable {J : Type} [Whitespace]

def trim (text : String) : String := String.ofList (trimMatches Whitespace.isWhitespace text.toList)

def imagePart (image : ImageBlock) : Part := .image image.mimeType image.data

def buildUserContent (message : ChatMessage) : Option (Content (Block J)) :=
  let text := trim message.content
  if message.userImageBlocks.isEmpty then
    if text.isEmpty then none else some (.plain text)
  else
    some (.blocks
      ((if text.isEmpty then [] else [.part (.text text)]) ++
        message.userImageBlocks.map fun image => .part (imagePart image)))

def thinkingBlock? : ThinkingBlock → Option (Block J)
  | .normal thinking signature =>
    if (trim thinking).isEmpty then none
    else if signature.isEmpty then none
    else some (.thinking thinking signature)
  | .redacted data => some (.redactedThinking data)
  | .encryptedReasoning _ _ _ => none

def claudeCodeTools : List String :=
  ["Read", "Write", "Edit", "Bash", "Grep", "Glob", "AskUserQuestion", "EnterPlanMode",
    "ExitPlanMode", "KillShell", "NotebookEdit", "Skill", "Task", "TaskOutput", "TodoWrite",
    "WebFetch", "WebSearch"]

def eqIgnoreAsciiCase (a b : String) : Bool :=
  a.toList.map Char.toLower == b.toList.map Char.toLower

def toClaudeCodeName (name : String) : String :=
  (claudeCodeTools.find? fun ccName => eqIgnoreAsciiCase ccName name).getD name

def toolUseBlock [JsonObjects J] (isOauth : Bool) (call : ToolCall) : Block J :=
  .toolUse call.id (if isOauth then toClaudeCodeName call.name else call.name)
    ((JsonObjects.parseObject call.arguments).getD JsonObjects.empty)

def hasText (message : ChatMessage) : Bool := !(trim message.content).isEmpty

def contentBlocks [JsonObjects J] (isOauth : Bool) (message : ChatMessage) : List (Block J) :=
  message.thinkingBlocks.filterMap thinkingBlock? ++
    (if hasText message then [.part (.text message.content)] else []) ++
    message.toolCalls.map (toolUseBlock isOauth)

def buildAssistantMessage [JsonObjects J] (isOauth : Bool) (message : ChatMessage) :
    Option (ApiMessage J) :=
  if message.thinkingBlocks.isEmpty && message.toolCalls.isEmpty then
    if hasText message then some ⟨.assistant, .plain message.content⟩ else none
  else if (contentBlocks (J := J) isOauth message).isEmpty then none
  else some ⟨.assistant, .blocks (contentBlocks isOauth message)⟩

omit [Whitespace] in
def buildToolResultBlock (message : ChatMessage) : Block J :=
  .toolResult (message.toolCallId.getD "")
    (if message.imageBlocks.isEmpty then .plain message.content
    else .blocks
      ((if message.content.isEmpty then [] else [.text message.content]) ++
        message.imageBlocks.map imagePart))
    message.isError

/-! ## The payload -/

def systemPrompt : List ChatMessage → Option String → Option String
  | [], prompt => prompt
  | message :: rest, prompt =>
    if message.role = .system then
      systemPrompt rest (some (prompt.elim message.content fun existing =>
        existing ++ "\n\n" ++ message.content))
    else systemPrompt rest prompt

def resultMessage : List (Block J) → List (ApiMessage J)
  | [] => []
  | toolResults => [⟨.user, .blocks toolResults⟩]

/-- The API messages of what is left of a conversation; `toolResults` is the run of tool
results that is being read. -/
def assemble [JsonObjects J] (isOauth : Bool) :
    List (Block J) → List ChatMessage → List (ApiMessage J)
  | toolResults, [] => resultMessage toolResults
  | toolResults, message :: rest =>
    match message.role with
    | .tool => assemble isOauth (toolResults ++ [buildToolResultBlock message]) rest
    | .system => resultMessage toolResults ++ assemble isOauth [] rest
    | .user =>
      resultMessage toolResults ++
        ((buildUserContent message).map (ApiMessage.mk .user)).toList ++ assemble isOauth [] rest
    | .assistant =>
      resultMessage toolResults ++ (buildAssistantMessage isOauth message).toList ++
        assemble isOauth [] rest

/-! ## Calls without a result -/

variable (apiMessages : List (ApiMessage J))

def collectToolUseIds : List String :=
  (apiMessages.filter (·.role = .assistant)).flatMap fun message =>
    message.content.asArray.filterMap Block.toolUseId?

def collectToolResultIds : List String :=
  apiMessages.flatMap fun message => message.content.asArray.filterMap Block.toolResultId?

def syntheticToolResult (toolUseId : String) : Block J :=
  .toolResult toolUseId (.plain "No result provided") true

def orphanedToolIds : List String :=
  (collectToolUseIds apiMessages).filter (· ∉ collectToolResultIds apiMessages)

def takesToolResults (message : ApiMessage J) : Bool :=
  message.role == .user && message.content.asArray.any fun block => block.toolResultId?.isSome

def injectOrphanedToolResults : List (ApiMessage J) :=
  let syntheticBlocks := (orphanedToolIds apiMessages).map syntheticToolResult
  if syntheticBlocks.isEmpty then apiMessages
  else
    match apiMessages.getLast? with
    | some last =>
      if takesToolResults last then
        apiMessages.dropLast ++
          [{ last with content := .blocks (last.content.asArray ++ syntheticBlocks) }]
      else apiMessages ++ [⟨.user, .blocks syntheticBlocks⟩]
    | none => apiMessages ++ [⟨.user, .blocks syntheticBlocks⟩]

def buildMessages [JsonObjects J] (messages : List ChatMessage) (isOauth : Bool) :
    Option String × List (ApiMessage J) :=
  let normalized := normalizeMessages messages
  (systemPrompt normalized none, injectOrphanedToolResults (assemble isOauth [] normalized))

end Build

end Quecto.Anthropic
