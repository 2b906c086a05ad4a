/-
  Anthropic/Paired.lean --- when the calls of a request are paired with their results.
-/
import Quecto.Anthropic.Request
import Quecto.Foundation.Pairing

namespace Quecto.Anthropic

open Foundation List Exchange
open Sessions

variable {J : Type}

/-! ## What an API message asks and answers -/

def ApiMessage.slot (message : ApiMessage J) : Slot String where
  asks := message.content.asArray.filterMap Block.toolUseId?
  answers := message.content.asArray.filterMap Block.toolResultId?

structure ApiMessage.Placed (message : ApiMessage J) : Prop where
  calls : message.role = .user → message.slot.asks = []
  results : message.role = .assistant → message.slot.answers = []

variable {apiMessages : List (ApiMessage J)}

lemma collectToolUseIds_eq
    (h : ∀ message ∈ apiMessages, message.Placed) :
    collectToolUseIds apiMessages = asked (apiMessages.map ApiMessage.slot) := by
  induction apiMessages with
  | nil => rfl
  | cons message rest ih =>
    obtain ⟨hmessage, hrest⟩ := forall_mem_cons.mp h
    have hstep : collectToolUseIds (message :: rest) =
        message.slot.asks ++ collectToolUseIds rest := by
      cases hrole : message.role with
      | user => simp [collectToolUseIds, hrole, hmessage.calls hrole]
      | assistant => simp [collectToolUseIds, hrole, ApiMessage.slot]
    rw [hstep, ih hrest]
    rfl

lemma collectToolResultIds_eq (apiMessages : List (ApiMessage J)) :
    collectToolResultIds apiMessages = answered (apiMessages.map ApiMessage.slot) := by
  rw [answered, flatMap_map]
  rfl

lemma orphanedToolIds_eq
    (h : ∀ message ∈ apiMessages, message.Placed) :
    orphanedToolIds apiMessages = unanswered (apiMessages.map ApiMessage.slot) := by
  rw [orphanedToolIds, unanswered, collectToolUseIds_eq h, collectToolResultIds_eq]

lemma takesToolResults_iff {message : ApiMessage J} (h : message.Placed) :
    takesToolResults message = true ↔ message.slot.answers ≠ [] := by
  have hany : (message.content.asArray.any fun block => block.toolResultId?.isSome) = true ↔
      message.slot.answers ≠ [] := by
    rw [ApiMessage.slot]
    simp [Option.isSome_iff_ne_none]
  rw [takesToolResults, Bool.and_eq_true, hany]
  refine ⟨And.right, fun hanswers => ⟨?_, hanswers⟩⟩
  cases hrole : message.role with
  | user => rfl
  | assistant => exact absurd (h.results hrole) hanswers

variable (ids : List String)

lemma syntheticToolResult_asks :
    (ids.map (syntheticToolResult (J := J))).filterMap Block.toolUseId? = [] := by
  rw [filterMap_eq_nil_iff]
  intro block hblock
  obtain ⟨id, -, rfl⟩ := mem_map.mp hblock
  rfl

lemma syntheticToolResult_answers :
    (ids.map (syntheticToolResult (J := J))).filterMap Block.toolResultId? = ids := by
  induction ids with
  | nil => rfl
  | cons id ids ih => exact congrArg (id :: ·) ih

lemma injectOrphanedToolResults_slots
    (h : ∀ message ∈ apiMessages, message.Placed) :
    (injectOrphanedToolResults apiMessages).map ApiMessage.slot =
      complete (apiMessages.map ApiMessage.slot) := by
  have hnew : ApiMessage.slot (J := J)
      ⟨.user, .blocks ((orphanedToolIds apiMessages).map syntheticToolResult)⟩ =
        ⟨[], unanswered (apiMessages.map ApiMessage.slot)⟩ := by
    rw [← orphanedToolIds_eq h]
    exact congrArg₂ Slot.mk (syntheticToolResult_asks _) (syntheticToolResult_answers _)
  rw [injectOrphanedToolResults, complete]
  simp only [List.isEmpty_map, List.isEmpty_iff, orphanedToolIds_eq h] at hnew ⊢
  split
  · rfl
  rw [getLast?_map]
  cases hlast : apiMessages.getLast? with
  | none => simp [hnew]
  | some last =>
    have hplaced := h last (mem_of_getLast? hlast)
    simp only [Option.map_some]
    by_cases htakes : takesToolResults last = true
    · rw [if_pos htakes, if_neg ((takesToolResults_iff hplaced).mp htakes), map_append,
        map_dropLast]
      refine congrArg _ (congrArg (fun slot => [slot]) ?_)
      rw [ApiMessage.slot, ApiMessage.slot]
      simp only [Content.asArray, filterMap_append, syntheticToolResult_asks,
        syntheticToolResult_answers, append_nil]
    · have hnone : last.slot.answers = [] := by
        by_contra hanswers
        exact htakes ((takesToolResults_iff hplaced).mpr hanswers)
      rw [if_neg htakes, if_pos hnone, map_append, map_singleton, hnew]

/-! ## Conversations -/

def calls (message : ChatMessage) : List String :=
  if message.role = .assistant then callIds message else []

/-- Every tool result answers, for the first time, a call of the assistant message before
its run; `opened` are the calls that may be answered next. -/
def Answers : List String → List ChatMessage → Prop
  | _, [] => True
  | opened, message :: rest =>
    if message.role = .tool then
      match message.toolCallId with
      | some id => id ∈ opened ∧ Answers (opened.erase id) rest
      | none => False
    else Answers (calls message) rest

instance decidableAnswers : ∀ opened messages, Decidable (Answers opened messages)
  | _, [] => isTrue trivial
  | opened, message :: rest =>
    if hrole : message.role = .tool then
      match hid : message.toolCallId with
      | some id =>
        have := decidableAnswers (opened.erase id) rest
        decidable_of_iff (id ∈ opened ∧ Answers (opened.erase id) rest)
          (by simp [Answers, hrole, hid])
      | none => isFalse (by simp [Answers, hrole, hid])
    else
      have := decidableAnswers (calls message) rest
      decidable_of_iff (Answers (calls message) rest) (by simp [Answers, hrole])

structure Conversation (messages : List ChatMessage) : Prop where
  distinct : (messages.flatMap calls).Nodup
  answers : Answers [] messages

def resultId (result : ChatMessage) : String := result.toolCallId.getD ""

structure IsResult (result : ChatMessage) : Prop where
  role : result.role = .tool
  id : result.toolCallId = some (resultId result)

structure Turn where
  head : ChatMessage
  results : List ChatMessage
  spoken : head.role ≠ .tool
  tools : ∀ result ∈ results, IsResult result
  once : (results.map resultId).Nodup
  own : results.map resultId ⊆ calls head

namespace Turn

def messages (turn : Turn) : List ChatMessage := turn.head :: turn.results

lemma calls_result {result : ChatMessage} (h : IsResult result) : calls result = [] := by
  rw [calls, h.role]
  rfl

lemma flatMap_calls (turn : Turn) : turn.messages.flatMap calls = calls turn.head := by
  rw [messages, flatMap_cons, flatMap_eq_nil_iff.mpr, append_nil]
  exact fun result hresult => calls_result (turn.tools result hresult)

end Turn

lemma exists_turns {opened : List String} {messages : List ChatMessage}
    (hanswers : Answers opened messages) (hopened : opened.Nodup)
    (hdistinct : ∀ message ∈ messages, (calls message).Nodup) :
    ∃ (run : List ChatMessage) (turns : List Turn),
      messages = run ++ turns.flatMap Turn.messages ∧ (∀ result ∈ run, IsResult result) ∧
        (run.map resultId).Nodup ∧ run.map resultId ⊆ opened := by
  induction messages generalizing opened with
  | nil => exact ⟨[], [], rfl, fun _ h => (nomatch h), nodup_nil, nil_subset _⟩
  | cons message rest ih =>
    obtain ⟨hmessage, hrest⟩ := forall_mem_cons.mp hdistinct
    rw [Answers] at hanswers
    by_cases hrole : message.role = .tool
    · rw [if_pos hrole] at hanswers
      cases hid : message.toolCallId with
      | none => simp [hid] at hanswers
      | some id =>
        rw [hid] at hanswers
        obtain ⟨run, turns, rfl, htools, honce, hown⟩ := ih hanswers.2 (hopened.erase id) hrest
        have hresult : resultId message = id := by rw [resultId, hid]; rfl
        refine ⟨message :: run, turns, rfl, ?_, ?_, ?_⟩
        · refine forall_mem_cons.mpr ⟨⟨hrole, ?_⟩, htools⟩
          rw [hid, hresult]
        · rw [map_cons, hresult, nodup_cons]
          exact ⟨fun hin => hopened.not_mem_erase (hown hin), honce⟩
        · rw [map_cons, hresult]
          exact cons_subset.mpr ⟨hanswers.1, Subset.trans hown erase_subset⟩
    · rw [if_neg hrole] at hanswers
      obtain ⟨run, turns, rfl, htools, honce, hown⟩ := ih hanswers hmessage hrest
      refine ⟨[], ⟨message, run, hrole, htools, honce, hown⟩ :: turns, rfl, ?_⟩
      exact ⟨fun _ h => (nomatch h), nodup_nil, nil_subset _⟩

/-! ## Ids -/

def sentId (id : String) : String := (normalizeToolCallId id).getD id

lemma lookup_filterMap (id : String) :
    (ids.filterMap fun id => (normalizeToolCallId id).map fun norm => (id, norm)).lookup id =
      if id ∈ ids then normalizeToolCallId id else none := by
  induction ids with
  | nil => rfl
  | cons first ids ih =>
    by_cases hfirst : id = first
    · subst hfirst
      cases hnorm : normalizeToolCallId id with
      | none => simp [hnorm, ih]
      | some norm => simp [hnorm]
    cases hnorm : normalizeToolCallId first with
    | none => simp [hnorm, ih, hfirst]
    | some norm =>
      have hbeq : (id == first) = false := beq_false_of_ne hfirst
      simp [hnorm, ih, hfirst, lookup_cons, hbeq]

variable {id : String}

lemma renamed_idMap {messages : List ChatMessage}
    (h : id ∈ messages.flatMap callIds) : renamed (idMap messages) id = sentId id := by
  rw [renamed, idMap, lookup_filterMap, if_pos h, sentId]

lemma callIds_of_calls {message : ChatMessage} (h : id ∈ calls message) :
    id ∈ callIds message := by
  rw [calls] at h
  split at h
  · exact h
  · cases h

lemma mem_callIds_of_calls {messages : List ChatMessage} {message : ChatMessage}
    (hmem : message ∈ messages) (h : id ∈ calls message) : id ∈ messages.flatMap callIds :=
  mem_flatMap.mpr ⟨message, hmem, callIds_of_calls h⟩

lemma renamed_of_none {map : List (String × String)}
    (h : (map.lookup id).isSome = false) : renamed map id = id := by
  rw [renamed]
  cases hlookup : map.lookup id with
  | none => rfl
  | some norm => simp [hlookup] at h

lemma normalizeMessage_eq (map : List (String × String)) (message : ChatMessage) :
    normalizeMessage map message = { message with
        toolCalls := message.toolCalls.map fun call => { call with id := renamed map call.id }
        toolCallId :=
          if message.role = .tool then message.toolCallId.map (renamed map)
          else message.toolCallId } := by
  rw [normalizeMessage]
  split
  case isFalse => rfl
  case isTrue hnone =>
    rw [Bool.and_eq_true, Bool.not_eq_true', any_eq_false] at hnone
    have hcalls : (message.toolCalls.map fun call => { call with id := renamed map call.id }) =
        message.toolCalls := by
      refine (map_congr_left fun call hcall => ?_).trans (map_id _)
      rw [renamed_of_none (Bool.eq_false_iff.mpr (hnone.1 call hcall))]
      rfl
    have hid : (if message.role = .tool then message.toolCallId.map (renamed map)
        else message.toolCallId) = message.toolCallId := by
      split
      case isFalse => rfl
      case isTrue hrole =>
        cases hid : message.toolCallId with
        | none => rfl
        | some id =>
          rw [Option.map_some, renamed_of_none (by simpa [hrole, hid] using hnone.2)]
    rw [hcalls, hid]

section

variable (map : List (String × String)) (message : ChatMessage)

@[simp] lemma normalizeMessage_role : (normalizeMessage map message).role = message.role := by
  rw [normalizeMessage_eq]

@[simp] lemma isIncomplete_normalizeMessage :
    isIncomplete (normalizeMessage map message) = isIncomplete message := by
  rw [normalizeMessage_eq]
  rfl

lemma calls_normalizeMessage :
    calls (normalizeMessage map message) = (calls message).map (renamed map) := by
  rw [calls, normalizeMessage_role, calls]
  split
  · rw [normalizeMessage_eq, callIds, callIds, map_map, map_map]
    rfl
  · rfl

variable {message}

lemma resultId_normalizeMessage (h : IsResult message) :
    resultId (normalizeMessage map message) = renamed map (resultId message) := by
  rw [normalizeMessage_eq]
  simp only [h.role, if_true]
  rw [h.id]
  rfl

end

/-! ## What is sent of a message -/

section Sent

variable [Whitespace]

def isReplayed : ThinkingBlock → Bool
  | .normal thinking signature => !(trim thinking).isEmpty && !signature.isEmpty
  | .redacted _ => true
  | .encryptedReasoning _ _ _ => false

def hasParts (message : ChatMessage) : Bool :=
  !message.toolCalls.isEmpty || hasText message || message.thinkingBlocks.any isReplayed

def speaks (message : ChatMessage) : Bool :=
  match message.role with
  | .system | .tool => false
  | .user => !message.userImageBlocks.isEmpty || hasText message
  | .assistant => !isIncomplete message && hasParts message

lemma speaks_normalizeMessage (map : List (String × String)) (message : ChatMessage) :
    speaks (normalizeMessage map message) = speaks message := by
  have htext : hasText (normalizeMessage map message) = hasText message := by
    rw [normalizeMessage_eq]
    rfl
  have hparts : hasParts (normalizeMessage map message) = hasParts message := by
    rw [hasParts, htext, normalizeMessage_eq, hasParts, List.isEmpty_map]
  have himages : (normalizeMessage map message).userImageBlocks = message.userImageBlocks := by
    rw [normalizeMessage_eq]
  rw [speaks, speaks, normalizeMessage_role, isIncomplete_normalizeMessage, htext, hparts, himages]

lemma thinkingBlock?_isSome (thinking : ThinkingBlock) :
    (thinkingBlock? (J := J) thinking).isSome = isReplayed thinking := by
  cases thinking with
  | normal thinking signature =>
    cases hthinking : (trim thinking).isEmpty <;> cases hsignature : signature.isEmpty <;>
      simp [thinkingBlock?, isReplayed, hthinking, hsignature]
  | redacted data | encryptedReasoning origin leadsTo item => rfl

def headMessages [JsonObjects J] (isOauth : Bool) (message : ChatMessage) : List (ApiMessage J) :=
  match message.role with
  | .system | .tool => []
  | .user => ((buildUserContent message).map (ApiMessage.mk .user)).toList
  | .assistant => (buildAssistantMessage isOauth message).toList

lemma thinkingBlock?_asks {thinking : ThinkingBlock} {block : Block J}
    (h : thinkingBlock? thinking = some block) :
    block.toolUseId? = none ∧ block.toolResultId? = none := by
  cases thinking with
  | normal thinking signature =>
    rw [thinkingBlock?] at h
    split at h
    · cases h
    split at h
    · cases h
    · exact Option.some.inj h ▸ ⟨rfl, rfl⟩
  | redacted data => exact Option.some.inj h ▸ ⟨rfl, rfl⟩
  | encryptedReasoning origin leadsTo item => cases h

variable [JsonObjects J] {isOauth : Bool} (message : ChatMessage)

lemma contentBlocks_asks :
    (contentBlocks (J := J) isOauth message).filterMap Block.toolUseId? = callIds message ∧
      (contentBlocks (J := J) isOauth message).filterMap Block.toolResultId? = [] := by
  have hthinking : ∀ block ∈ message.thinkingBlocks.filterMap (thinkingBlock? (J := J)),
      block.toolUseId? = none ∧ block.toolResultId? = none := by
    intro block hblock
    obtain ⟨thinking, -, hthinking⟩ := mem_filterMap.mp hblock
    exact thinkingBlock?_asks hthinking
  have htext : ∀ block ∈ (if hasText message
      then [Block.part (J := J) (.text message.content)] else []),
      block.toolUseId? = none ∧ block.toolResultId? = none := by
    intro block hblock
    split at hblock
    · rw [mem_singleton.mp hblock]
      exact ⟨rfl, rfl⟩
    · cases hblock
  simp only [contentBlocks, filterMap_append, filterMap_map]
  rw [filterMap_eq_nil_iff.mpr fun block hblock => (hthinking block hblock).1,
    filterMap_eq_nil_iff.mpr fun block hblock => (hthinking block hblock).2,
    filterMap_eq_nil_iff.mpr fun block hblock => (htext block hblock).1,
    filterMap_eq_nil_iff.mpr fun block hblock => (htext block hblock).2]
  constructor
  · exact congrFun (filterMap_eq_map (f := ToolCall.id)) message.toolCalls
  · exact filterMap_eq_nil_iff.mpr fun call _ => rfl

lemma contentBlocks_eq_nil_iff :
    contentBlocks (J := J) isOauth message = [] ↔ hasParts message = false := by
  rw [contentBlocks]
  simp only [hasParts, Bool.or_eq_false_iff, any_eq_false, ← thinkingBlock?_isSome (J := J),
    Option.not_isSome_iff_eq_none]
  cases hasText message <;> simp [and_comm]

lemma buildAssistantMessage_slots :
    (buildAssistantMessage (J := J) isOauth message).toList.map ApiMessage.slot =
      if hasParts message then [⟨callIds message, []⟩] else [] := by
  rw [buildAssistantMessage]
  split
  case isTrue hplain =>
    rw [Bool.and_eq_true, List.isEmpty_iff, List.isEmpty_iff] at hplain
    rw [hasParts, callIds, hplain.1, hplain.2]
    cases hasText message <;> rfl
  case isFalse =>
    have hparts : contentBlocks (J := J) isOauth message = [] ↔ hasParts message = false :=
      contentBlocks_eq_nil_iff message
    cases hspeaks : hasParts message with
    | false =>
      rw [hparts.mpr hspeaks]
      rfl
    | true =>
      have hne : ¬ (contentBlocks (J := J) isOauth message).isEmpty = true := by
        rw [List.isEmpty_iff, hparts, hspeaks]
        exact nofun
      rw [if_neg hne]
      refine congrArg (fun slot => [slot]) ?_
      exact congrArg₂ Slot.mk (contentBlocks_asks message).1 (contentBlocks_asks message).2

omit [JsonObjects J] in
lemma buildUserContent_slots :
    ((buildUserContent (J := J) message).map (ApiMessage.mk .user)).toList.map ApiMessage.slot =
      if !message.userImageBlocks.isEmpty || hasText message then [⟨[], []⟩] else [] := by
  rw [buildUserContent, hasText]
  cases himages : message.userImageBlocks.isEmpty with
  | true => cases (trim message.content).isEmpty <;> rfl
  | false =>
    have hparts : ∀ block ∈ (if (trim message.content).isEmpty then []
        else [Block.part (J := J) (.text (trim message.content))]) ++
          message.userImageBlocks.map fun image => .part (imagePart image),
        block.toolUseId? = none ∧ block.toolResultId? = none := by
      intro block hblock
      rcases mem_append.mp hblock with htext | himage
      · split at htext
        · cases htext
        · rw [mem_singleton.mp htext]
          exact ⟨rfl, rfl⟩
      · obtain ⟨image, -, rfl⟩ := mem_map.mp himage
        exact ⟨rfl, rfl⟩
    refine congrArg (fun slot => [slot]) (congrArg₂ Slot.mk ?_ ?_)
    · exact filterMap_eq_nil_iff.mpr fun block hblock => (hparts block hblock).1
    · exact filterMap_eq_nil_iff.mpr fun block hblock => (hparts block hblock).2

lemma headMessages_slots {message : ChatMessage} (hcomplete : isIncomplete message = false) :
    (headMessages (J := J) isOauth message).map ApiMessage.slot =
      if speaks message then [⟨calls message, []⟩] else [] := by
  rw [headMessages, speaks, calls]
  cases hrole : message.role with
  | system | tool => rfl
  | user => exact buildUserContent_slots message
  | assistant =>
    rw [hcomplete]
    exact buildAssistantMessage_slots message

lemma buildAssistantMessage_role {message : ChatMessage} {sent : ApiMessage J}
    (h : buildAssistantMessage isOauth message = some sent) : sent.role = .assistant := by
  rw [buildAssistantMessage] at h
  split at h
  · split at h
    · rw [← Option.some.inj h]
    · cases h
  split at h
  · cases h
  · rw [← Option.some.inj h]

lemma headMessages_placed {message : ChatMessage} (hcomplete : isIncomplete message = false) :
    ∀ sent ∈ headMessages (J := J) isOauth message, sent.Placed := by
  intro sent hsent
  have hslot : sent.slot = ⟨calls message, []⟩ := by
    have hmem := mem_map_of_mem (f := ApiMessage.slot) hsent
    rw [headMessages_slots hcomplete] at hmem
    split at hmem
    · exact mem_singleton.mp hmem
    · cases hmem
  refine ⟨fun hrole => ?_, fun _ => congrArg Slot.answers hslot⟩
  rw [hslot]
  refine if_neg fun hassistant => ?_
  rw [headMessages, hassistant] at hsent
  have hbuilt := buildAssistantMessage_role (Option.mem_toList.mp hsent)
  exact ApiRole.noConfusion (hrole.symm.trans hbuilt)

/-! ## Assembly -/

def Fresh (messages : List ChatMessage) : Prop := ∀ message ∈ messages.head?, message.role ≠ .tool

lemma assemble_fresh (toolResults : List (Block J)) {messages : List ChatMessage}
    (h : Fresh messages) : assemble isOauth toolResults messages =
      resultMessage toolResults ++ assemble isOauth [] messages := by
  cases messages with
  | nil => simp [assemble, resultMessage]
  | cons message rest =>
    have hrole := h message rfl
    cases hkind : message.role with
    | tool => exact absurd hkind hrole
    | system | user | assistant => simp [assemble, hkind, resultMessage]

lemma assemble_run (toolResults : List (Block J)) {run rest : List ChatMessage}
    (hrun : ∀ result ∈ run, result.role = .tool) (hrest : Fresh rest) :
    assemble isOauth toolResults (run ++ rest) =
      resultMessage (toolResults ++ run.map buildToolResultBlock) ++ assemble isOauth [] rest := by
  induction run generalizing toolResults with
  | nil => rw [nil_append, map_nil, append_nil, assemble_fresh toolResults hrest]
  | cons result run ih =>
    obtain ⟨hresult, hrun⟩ := forall_mem_cons.mp hrun
    rw [cons_append, assemble, hresult, map_cons]
    rw [ih _ hrun, append_assoc, singleton_append]

lemma assemble_head {message : ChatMessage} (hrole : message.role ≠ .tool)
    (rest : List ChatMessage) : assemble (J := J) isOauth [] (message :: rest) =
      headMessages isOauth message ++ assemble isOauth [] rest := by
  cases hkind : message.role with
  | tool => exact absurd hkind hrole
  | system | user | assistant => simp [assemble, headMessages, hkind, resultMessage]

omit [Whitespace] [JsonObjects J] in
lemma resultMessage_slots (results : List ChatMessage) :
    (resultMessage (results.map (buildToolResultBlock (J := J)))).map ApiMessage.slot =
      if (results.map resultId).isEmpty then [] else [⟨[], results.map resultId⟩] := by
  cases results with
  | nil => rfl
  | cons first rest =>
    refine congrArg (fun slot => [slot]) (congrArg₂ Slot.mk ?_ ?_)
    · refine filterMap_eq_nil_iff.mpr fun block hblock => ?_
      obtain ⟨result, -, rfl⟩ := mem_map.mp hblock
      rfl
    · exact filterMap_map.trans (congrFun (filterMap_eq_map (f := resultId)) (first :: rest))

omit [Whitespace] [JsonObjects J] in
lemma resultMessage_placed (results : List ChatMessage) :
    ∀ sent ∈ resultMessage (results.map (buildToolResultBlock (J := J))), sent.Placed := by
  cases results with
  | nil => exact fun _ h => nomatch h
  | cons first rest =>
    intro sent hsent
    have hslot := mem_map_of_mem (f := ApiMessage.slot) hsent
    rw [resultMessage_slots] at hslot
    refine ⟨fun _ => ?_, fun hrole => ?_⟩
    · rw [mem_singleton.mp hslot]
    · rw [mem_singleton.mp hsent] at hrole
      exact ApiRole.noConfusion hrole

end Sent

/-! ## The turns of a conversation -/

section

variable {turns : List Turn}

lemma flatMap_calls_turns (turns : List Turn) :
    (turns.flatMap Turn.messages).flatMap calls = turns.flatMap fun turn => calls turn.head := by
  rw [flatMap_assoc]
  exact congrArg (turns.flatMap ·) (funext Turn.flatMap_calls)

lemma Turn.eq_head_of_mem {turn : Turn} {message : ChatMessage} (h : message ∈ turn.messages)
    (hrole : message.role ≠ .tool) : message = turn.head := by
  rcases mem_cons.mp h with rfl | hresult
  · rfl
  · exact absurd (turn.tools message hresult).role hrole

lemma Turn.mem_results_of_mem {turn : Turn} {message : ChatMessage} (h : message ∈ turn.messages)
    (hrole : message.role = .tool) : message ∈ turn.results := by
  rcases mem_cons.mp h with rfl | hresult
  · exact absurd hrole turn.spoken
  · exact hresult

/-- No two turns make the same call. -/
abbrev Distinct (turns : List Turn) : Prop := (turns.flatMap fun turn => calls turn.head).Nodup

lemma turn_unique (hdistinct : Distinct turns) {turn other : Turn} (hturn : turn ∈ turns)
    (hother : other ∈ turns) (hid : id ∈ calls turn.head) (hid' : id ∈ calls other.head) :
    other = turn := by
  by_contra hne
  have hdisjoint := (nodup_flatMap.mp hdistinct).2
  have : Std.Symm (Function.onFun Disjoint fun turn : Turn => calls turn.head) :=
    ⟨fun _ _ h _ hin hin' => h hin' hin⟩
  exact hdisjoint.forall hother hturn hne hid' hid

lemma role_of_isIncomplete {message : ChatMessage} (h : isIncomplete message = true) :
    message.role = .assistant := by
  rw [isIncomplete, Bool.and_eq_true, beq_iff_eq] at h
  exact h.1

lemma mem_droppedToolIds_iff (hdistinct : Distinct turns) {turn : Turn} (hturn : turn ∈ turns)
    (hid : id ∈ calls turn.head) :
    id ∈ droppedToolIds (turns.flatMap Turn.messages) ↔ isIncomplete turn.head = true := by
  rw [droppedToolIds, mem_flatMap]
  constructor
  · rintro ⟨message, hmem, hcall⟩
    obtain ⟨hmem, hincomplete⟩ := mem_filter.mp hmem
    obtain ⟨other, hother, hmem⟩ := mem_flatMap.mp hmem
    have hrole := role_of_isIncomplete hincomplete
    have hhead := Turn.eq_head_of_mem hmem (by rw [hrole]; exact nofun)
    subst hhead
    have hid' : id ∈ calls other.head := by rwa [calls, if_pos hrole]
    rwa [turn_unique hdistinct hturn hother hid hid'] at hincomplete
  · intro hincomplete
    refine ⟨turn.head, mem_filter.mpr ⟨?_, hincomplete⟩, callIds_of_calls hid⟩
    exact mem_flatMap.mpr ⟨turn, hturn, mem_cons_self⟩

lemma filter_keeps (hdistinct : Distinct turns) {turn : Turn} (hturn : turn ∈ turns) :
    turn.messages.filter (keeps (droppedToolIds (turns.flatMap Turn.messages))) =
      if isIncomplete turn.head then [] else turn.messages := by
  have hhead : keeps (droppedToolIds (turns.flatMap Turn.messages)) turn.head =
      !isIncomplete turn.head := by
    rw [keeps, beq_false_of_ne turn.spoken, Bool.false_and, Bool.not_false, Bool.and_true]
  have hresults : ∀ result ∈ turn.results,
      keeps (droppedToolIds (turns.flatMap Turn.messages)) result = !isIncomplete turn.head := by
    intro result hresult
    have htool := turn.tools result hresult
    have hid := turn.own (mem_map_of_mem hresult)
    have hcomplete : isIncomplete result = false := by
      rw [isIncomplete, htool.role]
      rfl
    have hdropped : decide (resultId result ∈ droppedToolIds (turns.flatMap Turn.messages)) =
        isIncomplete turn.head := by
      rw [Bool.eq_iff_iff, decide_eq_true_eq, mem_droppedToolIds_iff hdistinct hturn hid]
    rw [keeps, hcomplete, htool.role, htool.id, Option.any_some, hdropped]
    rfl
  have hall : ∀ message ∈ turn.messages,
      keeps (droppedToolIds (turns.flatMap Turn.messages)) message = !isIncomplete turn.head :=
    forall_mem_cons.mpr ⟨hhead, hresults⟩
  rw [filter_congr hall]
  cases isIncomplete turn.head with
  | true => exact filter_false _
  | false => exact filter_true _

def keptTurn (map : List (String × String)) (turn : Turn) : List ChatMessage :=
  if isIncomplete turn.head then [] else turn.messages.map (normalizeMessage map)

lemma normalizeMessages_turns (hdistinct : Distinct turns) :
    normalizeMessages (turns.flatMap Turn.messages) =
      turns.flatMap (keptTurn (idMap (turns.flatMap Turn.messages))) := by
  rw [normalizeMessages, filter_flatMap, map_flatMap]
  refine flatMap_congr fun turn hturn => ?_
  rw [filter_keeps hdistinct hturn, keptTurn]
  split <;> rfl

end

/-! ## What is sent of a turn -/

section Request

variable [Whitespace] [JsonObjects J] {isOauth : Bool} {map : List (String × String)}

def sentTurn (isOauth : Bool) (map : List (String × String)) (turn : Turn) : List (ApiMessage J) :=
  if isIncomplete turn.head then []
  else
    headMessages isOauth (normalizeMessage map turn.head) ++
      resultMessage ((turn.results.map (normalizeMessage map)).map buildToolResultBlock)

variable (turns : List Turn) (turn : Turn)

omit [Whitespace] [JsonObjects J] in
lemma fresh_keptTurns : Fresh (turns.flatMap (keptTurn map)) := by
  induction turns with
  | nil => exact fun _ h => nomatch h
  | cons turn turns ih =>
    rw [flatMap_cons, keptTurn]
    split
    · exact ih
    intro message hmessage
    rw [← Option.some.inj hmessage, normalizeMessage_role]
    exact turn.spoken

lemma assemble_turns : assemble (J := J) isOauth [] (turns.flatMap (keptTurn map)) =
      turns.flatMap (sentTurn isOauth map) := by
  induction turns with
  | nil => rfl
  | cons turn turns ih =>
    rw [flatMap_cons, flatMap_cons, keptTurn, sentTurn]
    split
    · exact ih
    have hhead : (normalizeMessage map turn.head).role ≠ .tool := by
      rw [normalizeMessage_role]
      exact turn.spoken
    have hrun : ∀ result ∈ turn.results.map (normalizeMessage map), result.role = .tool := by
      intro result hresult
      obtain ⟨original, horiginal, rfl⟩ := mem_map.mp hresult
      rw [normalizeMessage_role]
      exact (turn.tools original horiginal).role
    rw [Turn.messages, map_cons, cons_append, assemble_head hhead,
      assemble_run [] hrun (fresh_keptTurns turns), ih, nil_append, append_assoc]

def sentCalls (message : ChatMessage) : List String :=
  if isIncomplete message then [] else calls message

def sentResults (turn : Turn) : List String :=
  if isIncomplete turn.head then [] else turn.results.map resultId

def turnSlots (turn : Turn) : List (Slot String) :=
  if speaks turn.head then
    ⟨(sentCalls turn.head).map sentId, []⟩ :: (if ((sentResults turn).map sentId).isEmpty then []
      else [⟨[], (sentResults turn).map sentId⟩])
  else []

omit [JsonObjects J] in
lemma speaks_of_isIncomplete {message : ChatMessage} (h : isIncomplete message = true) :
    speaks message = false := by
  rw [speaks, role_of_isIncomplete h, h]
  rfl

omit [JsonObjects J] in
lemma sentCalls_of_silent {message : ChatMessage} (h : speaks message = false) :
    sentCalls message = [] := by
  rw [sentCalls]
  split
  · rfl
  rw [calls]
  split
  case isFalse => rfl
  case isTrue hcomplete hrole =>
    rw [speaks, hrole, Bool.eq_false_iff.mpr hcomplete] at h
    have hparts : hasParts message = false := h
    rw [hasParts, Bool.or_eq_false_iff, Bool.or_eq_false_iff, Bool.not_eq_false',
      List.isEmpty_iff] at hparts
    rw [callIds, hparts.1.1]
    rfl

omit [Whitespace] in
lemma sentResults_subset : sentResults turn ⊆ sentCalls turn.head := by
  rw [sentResults, sentCalls]
  split
  · exact Subset.refl _
  · exact turn.own

lemma sentTurn_slots {turn : Turn} (hmap : ∀ id ∈ calls turn.head, renamed map id = sentId id) :
    (sentTurn (J := J) isOauth map turn).map ApiMessage.slot = turnSlots turn := by
  rw [sentTurn, turnSlots]
  by_cases hincomplete : isIncomplete turn.head = true
  · rw [if_pos hincomplete, speaks_of_isIncomplete hincomplete]
    rfl
  have hcomplete := Bool.eq_false_iff.mpr hincomplete
  have hcalls : (calls turn.head).map (renamed map) = (calls turn.head).map sentId :=
    map_congr_left hmap
  have hresults : (turn.results.map (normalizeMessage map)).map resultId =
      (turn.results.map resultId).map sentId := by
    rw [map_map, map_map]
    refine map_congr_left fun result hresult => ?_
    rw [Function.comp, resultId_normalizeMessage map (turn.tools result hresult)]
    exact hmap _ (turn.own (mem_map_of_mem hresult))
  have hhead : (headMessages (J := J) isOauth (normalizeMessage map turn.head)).map
      ApiMessage.slot = if speaks turn.head then [⟨(calls turn.head).map sentId, []⟩] else [] := by
    rw [headMessages_slots (by rw [isIncomplete_normalizeMessage, hcomplete]),
      speaks_normalizeMessage, calls_normalizeMessage, hcalls]
  rw [if_neg hincomplete, map_append, resultMessage_slots, hhead, hresults, sentResults,
    if_neg hincomplete, sentCalls, if_neg hincomplete]
  cases hspeaks : speaks turn.head with
  | true => rfl
  | false =>
    -- Without calls there are no results.
    have hnone := sentResults_subset turn
    rw [sentCalls_of_silent hspeaks, subset_nil, sentResults, if_neg hincomplete] at hnone
    rw [hnone]
    rfl

lemma sentTurn_placed : ∀ sent ∈ sentTurn (J := J) isOauth map turn, sent.Placed := by
  rw [sentTurn]
  split
  case isTrue => exact fun _ h => nomatch h
  case isFalse hincomplete =>
    refine forall_mem_append.mpr ⟨headMessages_placed ?_, resultMessage_placed _⟩
    rw [isIncomplete_normalizeMessage]
    exact Bool.eq_false_iff.mpr hincomplete

omit [JsonObjects J] in
lemma asked_turnSlots : asked (turnSlots turn) = (sentCalls turn.head).map sentId := by
  rw [turnSlots]
  split
  case isTrue => split <;> simp [asked]
  case isFalse hspeaks =>
    rw [sentCalls_of_silent (Bool.eq_false_iff.mpr hspeaks)]
    rfl

def Turn.exchange (turn : Turn) (h : ((sentCalls turn.head).map sentId).Nodup) :
    Exchange String where
  speaks := speaks turn.head
  asks := (sentCalls turn.head).map sentId
  answers := (sentResults turn).map sentId
  silent hspeaks := by rw [sentCalls_of_silent hspeaks]; rfl
  own := map_subset _ (sentResults_subset turn)
  once := by
    have honce : (sentResults turn).Nodup := by
      rw [sentResults]
      split
      · exact nodup_nil
      · exact turn.once
    refine honce.map_on fun id hid other hother heq => ?_
    exact inj_on_of_nodup_map h (sentResults_subset turn hid) (sentResults_subset turn hother) heq

def Unanswered (messages : List ChatMessage) (message : ChatMessage) : Prop :=
  ∃ id ∈ sentCalls message, ∀ result ∈ messages, result.role = .tool → result.toolCallId ≠ some id

instance decidableUnanswered (messages : List ChatMessage) (message : ChatMessage) :
    Decidable (Unanswered messages message) :=
  inferInstanceAs (Decidable (∃ id ∈ sentCalls message,
    ∀ result ∈ messages, result.role = .tool → result.toolCallId ≠ some id))

omit [Whitespace] [JsonObjects J] in
lemma complete_of_mem_sentCalls {message : ChatMessage}
    (h : id ∈ sentCalls message) : isIncomplete message = false ∧ id ∈ calls message := by
  rw [sentCalls] at h
  split at h
  case isTrue => cases h
  case isFalse hincomplete => exact ⟨Bool.eq_false_iff.mpr hincomplete, h⟩

omit [Whitespace] [JsonObjects J] in
lemma mem_sentResults_iff {turns : List Turn} (hdistinct : Distinct turns) {turn : Turn}
    (hturn : turn ∈ turns) (hid : id ∈ sentCalls turn.head) : id ∈ sentResults turn ↔
      ∃ result ∈ turns.flatMap Turn.messages, result.role = .tool ∧
        result.toolCallId = some id := by
  obtain ⟨hcomplete, hcall⟩ := complete_of_mem_sentCalls hid
  rw [sentResults, hcomplete, if_neg Bool.false_ne_true, mem_map]
  constructor
  · rintro ⟨result, hresult, rfl⟩
    have htool := turn.tools result hresult
    refine ⟨result, ?_, htool.role, htool.id⟩
    exact mem_flatMap.mpr ⟨turn, hturn, mem_cons_of_mem _ hresult⟩
  rintro ⟨result, hmem, hrole, hanswers⟩
  obtain ⟨other, hother, hmem⟩ := mem_flatMap.mp hmem
  have hresult := Turn.mem_results_of_mem hmem hrole
  have heq : resultId result = id := by
    rw [resultId, hanswers]
    rfl
  have hown : id ∈ calls other.head := heq ▸ other.own (mem_map_of_mem hresult)
  rw [turn_unique hdistinct hturn hother hcall hown] at hresult
  exact ⟨result, hresult, heq⟩

omit [JsonObjects J] in
lemma exchange_answered_iff {turns : List Turn} (hdistinct : Distinct turns) {turn : Turn}
    (hturn : turn ∈ turns) (h : ((sentCalls turn.head).map sentId).Nodup) :
    (turn.exchange h).Answered ↔ ¬ Unanswered (turns.flatMap Turn.messages) turn.head := by
  have hstep : ∀ id ∈ sentCalls turn.head, (sentId id ∈ (sentResults turn).map sentId ↔
        ∃ result ∈ turns.flatMap Turn.messages,
          result.role = .tool ∧ result.toolCallId = some id) := by
    intro id hid
    rw [← mem_sentResults_iff hdistinct hturn hid, mem_map]
    constructor
    · rintro ⟨other, hother, heq⟩
      rwa [← inj_on_of_nodup_map h (sentResults_subset turn hother) hid heq]
    · exact fun hin => ⟨id, hin, rfl⟩
  have hanswered : (turn.exchange h).Answered ↔
      ∀ id ∈ sentCalls turn.head, sentId id ∈ (sentResults turn).map sentId := forall_mem_map
  rw [hanswered, forall₂_congr hstep]
  simp only [Unanswered]
  push Not
  rfl

variable {messages : List ChatMessage}

omit [JsonObjects J] in
lemma pairwise_turns : (turns.flatMap Turn.messages).Pairwise
        (fun message later => Unanswered messages message → speaks later = false) ↔
      turns.Pairwise fun turn later =>
        Unanswered messages turn.head → speaks later.head = false := by
  have hquiet : ∀ {result : ChatMessage}, IsResult result → speaks result = false := by
    intro result hresult
    rw [speaks, hresult.role]
  have hcalls : ∀ {result : ChatMessage}, IsResult result → ¬ Unanswered messages result := by
    rintro result hresult ⟨id, hid, -⟩
    have hcall := (complete_of_mem_sentCalls hid).2
    rw [Turn.calls_result hresult] at hcall
    cases hcall
  rw [pairwise_flatMap]
  constructor
  · rintro ⟨-, hacross⟩
    exact hacross.imp fun h => h _ mem_cons_self _ mem_cons_self
  intro hheads
  refine ⟨fun turn hturn => ?_, hheads.imp ?_⟩
  · refine pairwise_iff_forall_sublist.mpr fun {message later} hsub hunanswered => ?_
    have hlater : later ∈ turn.results := by
      have := Sublist.tail hsub
      exact singleton_sublist.mp this
    exact hquiet (turn.tools later hlater)
  · intro turn other h message hmessage later hlater hunanswered
    rcases mem_cons.mp hlater with rfl | hlater
    · rcases mem_cons.mp hmessage with rfl | hmessage
      · exact h hunanswered
      · exact absurd hunanswered (hcalls (turn.tools message hmessage))
    · exact hquiet (other.tools later hlater)

omit [Whitespace] [JsonObjects J] in
lemma Conversation.exists_turns (h : Conversation messages) :
    ∃ turns : List Turn, messages = turns.flatMap Turn.messages := by
  have hdistinct : ∀ message ∈ messages, (calls message).Nodup :=
    (nodup_flatMap.mp h.distinct).1
  obtain ⟨run, turns, heq, -, -, hown⟩ := Anthropic.exists_turns h.answers nodup_nil hdistinct
  rw [subset_nil, map_eq_nil_iff] at hown
  exact ⟨turns, by rw [heq, hown, nil_append]⟩

lemma buildMessages_slots {turns : List Turn} (hdistinct : Distinct turns) (isOauth : Bool) :
    (buildMessages (J := J) (turns.flatMap Turn.messages) isOauth).2.map ApiMessage.slot =
      complete (turns.flatMap turnSlots) := by
  have hplaced : ∀ sent ∈ turns.flatMap
      (sentTurn (J := J) isOauth (idMap (turns.flatMap Turn.messages))), sent.Placed := by
    intro sent hsent
    obtain ⟨turn, -, hin⟩ := mem_flatMap.mp hsent
    exact sentTurn_placed turn sent hin
  have hslots : (turns.flatMap
      (sentTurn (J := J) isOauth (idMap (turns.flatMap Turn.messages)))).map ApiMessage.slot =
        turns.flatMap turnSlots := by
    rw [map_flatMap]
    refine flatMap_congr fun turn hturn => sentTurn_slots fun id hid => renamed_idMap ?_
    exact mem_callIds_of_calls (mem_flatMap.mpr ⟨turn, hturn, mem_cons_self⟩) hid
  rw [buildMessages, normalizeMessages_turns hdistinct, assemble_turns,
    injectOrphanedToolResults_slots hplaced, hslots]

omit [JsonObjects J] in
lemma payload_exchanges {turns : List Turn}
    (h : ∀ turn ∈ turns, ((sentCalls turn.head).map sentId).Nodup) :
    payload (turns.pmap Turn.exchange h) = turns.flatMap turnSlots := by
  induction turns with
  | nil => rfl
  | cons turn turns ih =>
    rw [pmap_cons, payload_cons, ih, flatMap_cons]
    rfl

omit [Whitespace] [JsonObjects J] in
lemma flatMap_sentCalls_turns : (turns.flatMap Turn.messages).flatMap sentCalls =
      turns.flatMap fun turn => sentCalls turn.head := by
  rw [flatMap_assoc]
  refine congrArg (turns.flatMap ·) (funext fun turn => ?_)
  rw [Turn.messages, flatMap_cons, flatMap_eq_nil_iff.mpr, append_nil]
  intro result hresult
  rw [sentCalls, Turn.calls_result (turn.tools result hresult), ite_self]

omit [JsonObjects J] in
lemma asked_turns : asked (turns.flatMap turnSlots) =
      ((turns.flatMap Turn.messages).flatMap sentCalls).map sentId := by
  rw [flatMap_sentCalls_turns, asked, flatMap_assoc, map_flatMap]
  exact congrArg (turns.flatMap ·) (funext asked_turnSlots)

/-- The calls of a request are paired with their results exactly when their ids stay
distinct as they are sent, and nothing is sent behind a message with an unanswered
call. -/
theorem buildMessages_paired_iff (hconversation : Conversation messages) (isOauth : Bool) :
    Paired ((buildMessages (J := J) messages isOauth).2.map ApiMessage.slot) ↔
      ((messages.flatMap sentCalls).map sentId).Nodup ∧ messages.Pairwise fun message later =>
          Unanswered messages message → speaks later = false := by
  obtain ⟨turns, rfl⟩ := hconversation.exists_turns
  have hdistinct : Distinct turns := by
    rw [Distinct, ← flatMap_calls_turns]
    exact hconversation.distinct
  rw [buildMessages_slots hdistinct]
  by_cases hsent : (((turns.flatMap Turn.messages).flatMap sentCalls).map sentId).Nodup
  · have hturns : ∀ turn ∈ turns, ((sentCalls turn.head).map sentId).Nodup := by
      have hall := hsent
      rw [flatMap_sentCalls_turns, map_flatMap] at hall
      exact (nodup_flatMap.mp hall).1
    rw [← payload_exchanges hturns, paired_complete_iff, ← asked_payload,
      payload_exchanges hturns, asked_turns, pairwise_turns, pairwise_pmap]
    refine and_congr_right fun _ => Pairwise.iff_of_mem fun {turn later} hturn hlater => ?_
    constructor
    · intro h hunanswered
      refine h (hturns turn hturn) (hturns later hlater) ?_
      rwa [exchange_answered_iff hdistinct hturn, not_not]
    intro h hmem _ hanswered
    refine h ?_
    rwa [exchange_answered_iff hdistinct hturn, not_not] at hanswered
  · -- Two calls are sent with one id.
    refine iff_of_false (fun hpaired => hsent ?_) fun h => hsent h.1
    have hasked := hpaired.distinct
    rwa [asked_complete, asked_turns] at hasked

end Request

section

local instance blankOnly : Whitespace where
  isWhitespace c := c == ' '

local instance rawObjects : JsonObjects String where
  parseObject text := if text == "{}" then some text else none
  empty := "{}"

def chat (message : Message) : ChatMessage where
  toMessage := message
  imageBlocks := []
  userImageBlocks := []

def readCall (id : String) : ToolCall := ⟨id, "read", "{}"⟩

def interruptedLast : List ChatMessage :=
  [chat (.user 0 "go"), chat (.assistant 1 "" [readCall "a"]), chat (.tool 2 "a" "text"),
    chat (.assistant 3 "" [readCall "b"])]

theorem buildMessages_paired_interruptedLast :
    Paired ((buildMessages (J := String) interruptedLast false).2.map ApiMessage.slot) := by
  have hconversation : Conversation interruptedLast := ⟨by decide, by decide⟩
  exact (buildMessages_paired_iff hconversation false).mpr ⟨by decide, by decide⟩

def collidingCalls : List ChatMessage :=
  [chat (.assistant 0 "" [readCall "a.b", readCall "a_b"]), chat (.tool 1 "a.b" "text"),
    chat (.tool 2 "a_b" "text")]

def interruptedTurn : List ChatMessage :=
  [chat (.assistant 0 "" [readCall "c"]), chat (.user 1 "next")]

/-- Two calls can be sent with one id, and the result of an interrupted call can stand
behind the prompt that follows it. -/
theorem buildMessages_not_paired : (Conversation collidingCalls ∧
      ¬ Paired ((buildMessages (J := String) collidingCalls false).2.map ApiMessage.slot)) ∧
    (Conversation interruptedTurn ∧
      ¬ Paired ((buildMessages (J := String) interruptedTurn false).2.map ApiMessage.slot)) := by
  refine ⟨⟨⟨by decide, by decide⟩, fun h => ?_⟩, ⟨⟨by decide, by decide⟩, fun h => ?_⟩⟩
  · exact absurd h.distinct (by decide)
  · exact absurd (h.next.1 "c" (by decide)) (by decide)

end

end Quecto.Anthropic
