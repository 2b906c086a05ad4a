/-
  Agents/BoundedReport.lean --- what a default read of a child reports, and the messages
  a report carries.

  Source: `domain/agents/services/unread_report.rs` and
  `infrastructure/tools/agents/agent_cmd_report.rs`.
-/
import Quecto.Sessions.Message
import Mathlib.Algebra.Order.Ring.Nat

namespace Quecto.Agents

open Foundation Sessions List

/-! ## Reports -/

section

variable {α : Type}

def reportIndex (substantive : α → Bool) (origin : α → TurnOrigin) (candidates : List α) :
    Option Nat :=
  latestBest substantive (fun candidate => (origin candidate).reportRank) candidates

lemma transcriptReportIndex_eq (substantive : Message → Bool) (messages : List Message) :
    transcriptReportIndex substantive messages = reportIndex substantive (·.turnOrigin) messages :=
  rfl

end

/-! ## Selection -/

structure ReportedMessage where
  ordinal : Option Nat
  substantiveAssistant : Bool
  origin : TurnOrigin
  deriving DecidableEq

inductive UnreadSelection where
  | pendingPersistence (report : Option Nat)
  | unchanged
  | incomplete (unread : List Nat) (maxOrdinal : Nat)
  | unread (indices : List Nat) (maxOrdinal : Nat)
  deriving DecidableEq

inductive FirstRead where
  | report
  | window
  deriving DecidableEq

variable (messages : List ReportedMessage)

def reportAmong (candidates : List Nat) : Option Nat :=
  (reportIndex (fun i => messages[i]?.any (·.substantiveAssistant))
    (fun i => messages[i]?.elim .unknown (·.origin)) candidates).bind (candidates[·]?)

def unreadIndices (delivered : Nat) : List Nat :=
  (range messages.length).filter fun i =>
    messages[i]?.any fun message => delivered < message.ordinal.getD 0

def chosenIndices (delivered : Nat) (firstRead : FirstRead) : List Nat :=
  let unread := unreadIndices messages delivered
  match delivered, firstRead with
  | 0, .report => (reportAmong messages unread).toList
  | 0, .window => unread
  | _ + 1, _ => unread

def select (delivered : Nat) (reportIncomplete : Bool) (firstRead : FirstRead) : UnreadSelection :=
  if messages.any (·.ordinal.isNone) then
    let unread := (range messages.length).filter fun i =>
      messages[i]?.any fun message => message.ordinal.all (delivered < ·)
    .pendingPersistence (reportAmong messages unread)
  else
    let observedMax := (messages.map (·.ordinal.getD 0)).max?.getD 0
    let unread := unreadIndices messages delivered
    if reportIncomplete then .incomplete unread observedMax
    else if observedMax < delivered || unread.isEmpty then .unchanged
    else
      let indices := chosenIndices messages delivered firstRead
      if indices.isEmpty then .unchanged else .unread indices (max delivered observedMax)

def selectUnread (delivered : Nat) (reportIncomplete : Bool) : UnreadSelection :=
  select messages delivered reportIncomplete .report

def selectUnreadWithoutReport (delivered : Nat) (reportIncomplete : Bool) : UnreadSelection :=
  select messages delivered reportIncomplete .window

def skippedUnread (watermark : Nat) (delivered : List Nat) : List (Nat × Nat) :=
  let sent := (delivered.filter (watermark < ·)).insertionSort (· ≤ ·)
  (sent.foldl (fun (ranges, next) ordinal =>
    (if next < ordinal then ranges ++ [(next, ordinal - 1)] else ranges, ordinal + 1))
    ([], watermark + 1)).1

def laterThan (report : Nat) : Nat :=
  let after := (messages[report]?.bind (·.ordinal)).getD 0
  (messages.filterMap (·.ordinal)).max?.getD after - after

/-! ## Selection from a saved transcript -/

section

variable {messages : List ReportedMessage} {delivered : Nat} {firstRead : FirstRead}

lemma chosenIndices_nil (h : unreadIndices messages delivered = []) :
    chosenIndices messages delivered firstRead = [] := by
  unfold chosenIndices
  rw [h]
  split <;> rfl

lemma unreadIndices_nil (h : (messages.map (·.ordinal.getD 0)).max?.getD 0 < delivered) :
    unreadIndices messages delivered = [] := by
  rw [unreadIndices, filter_eq_nil_iff]
  intro i _
  rw [Option.any_eq_true]
  rintro ⟨message, hmessage, hunread⟩
  rw [decide_eq_true_eq] at hunread
  have hmem : message.ordinal.getD 0 ∈ messages.map (·.ordinal.getD 0) :=
    mem_map_of_mem (mem_of_getElem? hmessage)
  cases hmax : (messages.map (·.ordinal.getD 0)).max? with
  | none =>
    rw [max?_eq_none_iff] at hmax
    rw [hmax] at hmem
    cases hmem
  | some top =>
    rw [hmax] at h
    have hle := (max?_eq_some_iff.mp hmax).2 _ hmem
    exact absurd h (by simp only [Option.getD_some]; omega)

lemma select_saved (hsaved : ∀ message ∈ messages, message.ordinal.isSome) (delivered : Nat)
    (firstRead : FirstRead) : ∃ top, select messages delivered false firstRead =
      if chosenIndices messages delivered firstRead = [] then .unchanged
      else .unread (chosenIndices messages delivered firstRead) top := by
  have hnumbered : messages.any (·.ordinal.isNone) = false := by
    rw [any_eq_false]
    intro message hmem
    rw [← Option.not_isSome, hsaved message hmem]
    simp
  refine ⟨max delivered ((messages.map (·.ordinal.getD 0)).max?.getD 0), ?_⟩
  unfold select
  simp only [hnumbered, Bool.false_eq_true, if_false, Bool.or_eq_true, decide_eq_true_eq,
    List.isEmpty_iff]
  split
  · rename_i hnone
    rw [if_pos (chosenIndices_nil (hnone.elim unreadIndices_nil id))]
  · rfl

variable {α : Type} (observe : α → ReportedMessage)

def unreadOf (delivered : Nat) (transcript : List α) : List α :=
  transcript.filter fun message => delivered < (observe message).ordinal.getD 0

lemma gather_unreadIndices (delivered : Nat) (transcript : List α) :
    gather transcript (unreadIndices (transcript.map observe) delivered) =
      unreadOf observe delivered transcript := by
  have hsame : ∀ i : Nat, ((transcript.map observe)[i]?.any fun message =>
      delivered < message.ordinal.getD 0) =
      transcript[i]?.any fun message => delivered < (observe message).ordinal.getD 0 := by
    intro i
    rw [getElem?_map, Option.any_map]
  simp only [unreadIndices, length_map, hsame]
  exact gather_filter_range _ transcript

variable (transcript : List α)

lemma unreadIndices_lt :
    ∀ i ∈ unreadIndices (transcript.map observe) delivered, i < transcript.length := by
  intro i hi
  have hrange := mem_range.mp (mem_of_mem_filter hi)
  rwa [length_map] at hrange

def reportOf (transcript : List α) : Option α :=
  (reportIndex (fun message => (observe message).substantiveAssistant)
    (fun message => (observe message).origin) transcript).bind (transcript[·]?)

lemma gather_reportAmong {indices : List Nat} (hlt : ∀ i ∈ indices, i < transcript.length) :
    gather transcript (reportAmong (transcript.map observe) indices).toList =
      (reportOf observe (gather transcript indices)).toList := by
  -- The report is looked for through the positions, all of which are messages.
  have hindex : reportIndex (fun i => (transcript.map observe)[i]?.any (·.substantiveAssistant))
      (fun i => (transcript.map observe)[i]?.elim .unknown (·.origin)) indices =
      reportIndex (fun message => (observe message).substantiveAssistant)
        (fun message => (observe message).origin) (gather transcript indices) := by
    have hmaps := map_lookup_eq hlt
    have hleft := latestBest_map (fun i => transcript[i]?)
      (fun message : Option α => (message.map observe).any (·.substantiveAssistant))
      (fun message => ((message.map observe).elim .unknown (·.origin)).reportRank) indices
    rw [hmaps, latestBest_map] at hleft
    simp only [reportIndex, getElem?_map]
    exact hleft.symm
  rw [gather_toList, reportAmong, Option.bind_assoc]
  congr 2
  funext k
  rw [gather_lookup hlt]

lemma gather_chosenIndices :
    gather transcript (chosenIndices (transcript.map observe) delivered firstRead) =
      if delivered = 0 ∧ firstRead = .report then
        (reportOf observe (unreadOf observe delivered transcript)).toList
      else unreadOf observe delivered transcript := by
  unfold chosenIndices
  split
  · rw [if_pos ⟨rfl, rfl⟩, gather_reportAmong observe transcript
      (unreadIndices_lt observe transcript),
      gather_unreadIndices]
  · rw [if_neg (by simp), gather_unreadIndices]
  · rw [if_neg (by simp), gather_unreadIndices]

end

/-! ## Messages on the wire -/

structure Wire where
  message : Message
  content : String
  toolCalls : List ToolCall
  truncated : Bool
  contentNotice : Option String
  contentLength : Option Nat
  deriving DecidableEq

def Wire.whole (message : Message) : Wire where
  message := message
  content := message.content
  toolCalls := message.toolCalls
  truncated := false
  contentNotice := none
  contentLength := none

def isBlank [Whitespace] (text : String) : Bool := text.toList.all Whitespace.isWhitespace

def isSubstantiveAssistant [Whitespace] (wire : Wire) : Bool :=
  wire.message.role == .assistant && !isBlank wire.content && wire.toolCalls.isEmpty

def observed [Whitespace] (wire : Wire) : ReportedMessage where
  ordinal := wire.message.ordinal
  substantiveAssistant := isSubstantiveAssistant wire
  origin := wire.message.turnOrigin

def reportPosition [Whitespace] (messages : List Wire) : Option Nat :=
  reportIndex isSubstantiveAssistant (·.message.turnOrigin) messages

/-! ## The budget -/

def reportBudgetBytes : Nat := 800 * 4

def finalReportBudgetBytes : Nat := 64 * 1024

def contextCutNotice : String :=
  "Cut to fit beside the final report; read it in full with get_messages count/before."

def progressCutNotice : String :=
  "Cut to fit the report; read it in full with get_messages count/before."

def collapsedPreviewNotice : String :=
  "Only a preview: this message is too large to read through get_messages. Call agent_cmd " ++
    "get_report with export_raw true to write the full history to an artifact."

def finalReportNotice : String :=
  "This report is longer than the report budget and was cut; its start is shown. Call agent_cmd " ++
    "get_report with export_raw true to write the child's full retained history to an artifact " ++
    "you can read."

def charsWithin : List Char → Nat → List Char
  | [], _ => []
  | c :: rest, size => if c.utf8Size ≤ size then c :: charsWithin rest (size - c.utf8Size) else []

def fitSearch (fits : List Char → Bool) (original : List Char) (low high : Nat) (best : List Char) :
    List Char :=
  if low ≤ high then
    let mid := (low + high) / 2
    let cut := charsWithin original mid
    if fits cut then fitSearch fits original (mid + 1) high cut
    else if mid = 0 then best
    else fitSearch fits original low (mid - 1) best
  else best
termination_by high + 1 - low

section Sizes

variable (bytes : Wire → Nat)

def reportEnvelopeSize (messages : List Wire) : Nat :=
  89 + (messages.map bytes).sum + (messages.length - 1)

variable (wire : Wire)

def truncateMessageToFit (selected : List Wire) (budget : Nat) : Wire :=
  let cut :=
    { wire with
      contentLength := some (wire.contentLength.getD wire.content.utf8ByteSize)
      truncated := true }
  let fits := fun chars => decide
    (reportEnvelopeSize bytes (selected ++ [{ cut with content := String.ofList chars }]) ≤ budget)
  { cut with
    content := String.ofList
      (fitSearch fits wire.content.toList 0 wire.content.utf8ByteSize []) }

def isEmptiedByTruncation : Bool := wire.truncated && wire.content.isEmpty

def stripUnboundedPayloads : Wire := { wire with toolCalls := [] }

def cutFinal : Wire :=
  if finalReportBudgetBytes < reportEnvelopeSize bytes [wire] then
    truncateMessageToFit bytes { wire with contentNotice := some finalReportNotice } []
      finalReportBudgetBytes
  else wire

def noticePreview : Wire :=
  if wire.message.isCollapsed && wire.truncated && wire.contentNotice.isNone then
    { wire with contentNotice := some collapsedPreviewNotice }
  else wire

def fitted (budget : Nat) (notice : String) (selected : List Wire) (wire : Wire) : Wire :=
  if budget < reportEnvelopeSize bytes (selected ++ [wire]) then
    let cut := truncateMessageToFit bytes wire selected budget
    if cut.contentNotice.isNone then
      let noticed := { cut with contentNotice := some notice }
      if budget < reportEnvelopeSize bytes (selected ++ [noticed]) then
        truncateMessageToFit bytes noticed selected budget
      else noticed
    else cut
  else wire

def fitting (budget : Nat) (notice : String) : List Wire → List Wire → List Wire
  | selected, [] => selected
  | selected, wire :: rest =>
    let wire := fitted bytes budget notice selected wire
    if isEmptiedByTruncation wire then selected
    else if reportEnvelopeSize bytes (selected ++ [wire]) ≤ budget then
      fitting budget notice (selected ++ [wire]) rest
    else selected

structure BoundedReport where
  messages : List Wire
  hasMoreMessages : Bool
  messageContentTruncated : Bool
  deriving DecidableEq

def ordinalKey : Nat := wire.message.ordinal.getD 0

variable [Whitespace] (candidates : List Wire)

def finalIndex : Option Nat :=
  reportPosition (candidates.map stripUnboundedPayloads)

def prepared : List Wire :=
  (candidates.map stripUnboundedPayloads).mapIdx fun i wire =>
    if finalIndex candidates = some i then cutFinal bytes wire else noticePreview wire

/-- The final report is paid for in full, and the rest shares one budget. -/
def reportBudget : Nat :=
  (((finalIndex candidates).bind ((prepared bytes candidates)[·]?)).elim 0
    fun wire => reportEnvelopeSize bytes [wire]) + reportBudgetBytes

def allFit : Bool :=
  reportEnvelopeSize bytes (prepared bytes candidates) ≤ reportBudget bytes candidates

/-- The order the budget is spent in: the final report, then the newest first. -/
def spent : List Wire :=
  let wires := prepared bytes candidates
  if allFit bytes candidates then wires
  else
    match finalIndex candidates with
    | some i => (wires[i]?).toList ++ (wires.eraseIdx i).reverse
    | none => wires.reverse

def boundedReportMessages (maxAvailableOrdinal : Nat) : BoundedReport :=
  let notice := if (finalIndex candidates).isSome then contextCutNotice else progressCutNotice
  let taken := fitting bytes (reportBudget bytes candidates) notice [] (spent bytes candidates)
  let selected :=
    if allFit bytes candidates then taken
    else taken.insertionSort fun a b => ordinalKey a ≤ ordinalKey b
  let committed := (selected.filterMap (·.message.ordinal)).max?.getD 0
  { messages := selected
    hasMoreMessages := decide
      (selected.length < candidates.length ∨ committed < maxAvailableOrdinal)
    messageContentTruncated := selected.any (·.truncated) }

/-! ## What is taken -/

omit [Whitespace] in
lemma reportEnvelopeSize_le_append (messages others : List Wire) :
    reportEnvelopeSize bytes messages ≤ reportEnvelopeSize bytes (messages ++ others) := by
  simp only [reportEnvelopeSize, map_append, sum_append, length_append]
  omega

variable {bytes} {budget : Nat} {notice : String}

omit [Whitespace] in
@[simp] lemma fitted_message (selected : List Wire) (wire : Wire) :
    (fitted bytes budget notice selected wire).message = wire.message := by
  unfold fitted
  split
  · dsimp only
    split
    · split
      · rfl
      · rfl
    · rfl
  · rfl

variable {selected rest : List Wire} {wire : Wire} {top : Nat}

omit [Whitespace] in
lemma fitted_of_fits (h : reportEnvelopeSize bytes (selected ++ [wire]) ≤ budget) :
    fitted bytes budget notice selected wire = wire :=
  if_neg (Nat.not_lt.mpr h)

omit [Whitespace] in
lemma fitting_cons_of_fits (h : reportEnvelopeSize bytes (selected ++ [wire]) ≤ budget)
    (hlegible : isEmptiedByTruncation wire = false) :
    fitting bytes budget notice selected (wire :: rest) =
      fitting bytes budget notice (selected ++ [wire]) rest := by
  simp only [fitting, fitted_of_fits h, hlegible, if_pos h, Bool.false_eq_true, if_false]

omit [Whitespace] in
lemma fitting_isPrefixOf (selected rest : List Wire) :
    selected <+: fitting bytes budget notice selected rest := by
  induction rest generalizing selected with
  | nil => exact prefix_rfl
  | cons wire rest ih =>
    unfold fitting
    dsimp only
    split
    · exact prefix_rfl
    split
    · exact (prefix_append _ _).trans (ih _)
    · exact prefix_rfl

omit [Whitespace] in
lemma fitting_all (hfits : reportEnvelopeSize bytes (selected ++ rest) ≤ budget)
    (hlegible : ∀ wire ∈ rest, isEmptiedByTruncation wire = false) :
    fitting bytes budget notice selected rest = selected ++ rest := by
  induction rest generalizing selected with
  | nil => rw [fitting, append_nil]
  | cons wire rest ih =>
    obtain ⟨hwire, hrest⟩ := forall_mem_cons.mp hlegible
    rw [append_cons] at hfits ⊢
    have hfirst := Nat.le_trans (reportEnvelopeSize_le_append bytes (selected ++ [wire]) rest) hfits
    rw [fitting_cons_of_fits hfirst hwire, ih hfits hrest]

omit [Whitespace] in
lemma mem_fitting (h : wire ∈ fitting bytes budget notice selected rest) :
    wire ∈ selected ∨ ∃ source ∈ rest, wire.message = source.message := by
  induction rest generalizing selected with
  | nil => exact .inl h
  | cons first rest ih =>
    unfold fitting at h
    dsimp only at h
    split at h
    · exact .inl h
    split at h
    · rcases ih h with hselected | ⟨source, hsource, hmessage⟩
      · rcases mem_append.mp hselected with hselected | hfirst
        · exact .inl hselected
        · rw [mem_singleton] at hfirst
          exact .inr ⟨first, mem_cons_self, by rw [hfirst, fitted_message]⟩
      · exact .inr ⟨source, mem_cons_of_mem _ hsource, hmessage⟩
    · exact .inl h

/-! ## What a report carries -/

variable {candidates : List Wire}

omit [Whitespace] in
@[simp] lemma cutFinal_message (wire : Wire) : (cutFinal bytes wire).message = wire.message := by
  unfold cutFinal
  split <;> rfl

omit [Whitespace] in
@[simp] lemma noticePreview_message (wire : Wire) :
    (noticePreview wire).message = wire.message := by
  unfold noticePreview
  split <;> rfl

omit [Whitespace] in
@[simp] lemma noticePreview_truncated (wire : Wire) :
    (noticePreview wire).truncated = wire.truncated := by
  unfold noticePreview
  split <;> rfl

lemma prepared_messages (bytes : Wire → Nat) (candidates : List Wire) :
    (prepared bytes candidates).map (·.message) = candidates.map (·.message) := by
  apply ext_getElem
  · simp [prepared]
  intro i hi hi'
  simp only [prepared, getElem_map, getElem_mapIdx]
  split
  · rw [cutFinal_message]
    rfl
  · rw [noticePreview_message]
    rfl

/-- Cutting the final report to fit leaves some of its text. -/
def Legible (bytes : Wire → Nat) (candidates : List Wire) : Prop :=
  ∀ i wire, finalIndex candidates = some i → (prepared bytes candidates)[i]? = some wire →
    isEmptiedByTruncation wire = false

lemma Legible.prepared (h : Legible bytes candidates)
    (hwhole : ∀ wire ∈ candidates, wire.truncated = false) :
    ∀ wire ∈ prepared bytes candidates, isEmptiedByTruncation wire = false := by
  intro wire hmem
  obtain ⟨i, hi⟩ := mem_iff_getElem?.mp hmem
  by_cases hfinal : finalIndex candidates = some i
  · exact h i wire hfinal hi
  have hwire : wire.truncated = false := by
    simp only [Agents.prepared, getElem?_mapIdx, getElem?_map, Option.map_map,
      Option.map_eq_some_iff, Function.comp_apply] at hi
    obtain ⟨source, hsource, rfl⟩ := hi
    rw [if_neg hfinal, noticePreview_truncated]
    exact hwhole source (mem_of_getElem? hsource)
  simp [isEmptiedByTruncation, hwire]

lemma legible_of_small (hsmall : ∀ wire, reportEnvelopeSize bytes [wire] ≤ finalReportBudgetBytes)
    (hwhole : ∀ wire ∈ candidates, wire.truncated = false) : Legible bytes candidates := by
  intro i wire hfinal hwire
  simp only [prepared, getElem?_mapIdx, getElem?_map, Option.map_map,
    Option.map_eq_some_iff, Function.comp_apply] at hwire
  obtain ⟨source, hsource, rfl⟩ := hwire
  rw [if_pos hfinal, cutFinal, if_neg (Nat.not_lt.mpr (hsmall _))]
  simp [isEmptiedByTruncation, stripUnboundedPayloads, hwhole source (mem_of_getElem? hsource)]

lemma mem_boundedReportMessages : wire ∈ (boundedReportMessages bytes candidates top).messages ↔
      wire ∈ fitting bytes (reportBudget bytes candidates)
        (if (finalIndex candidates).isSome then contextCutNotice else progressCutNotice) []
        (spent bytes candidates) := by
  simp only [boundedReportMessages]
  split
  · exact Iff.rfl
  · exact (perm_insertionSort _ _).mem_iff

lemma boundedReport_sources (h : wire ∈ (boundedReportMessages bytes candidates top).messages) :
    ∃ source ∈ candidates, wire.message = source.message := by
  rcases mem_fitting (mem_boundedReportMessages.mp h) with hnone | ⟨source, hsource, hmessage⟩
  · cases hnone
  have hprepared : source ∈ prepared bytes candidates := by
    unfold spent at hsource
    split at hsource
    · exact hsource
    split at hsource
    · rcases mem_append.mp hsource with hfinal | hrest
      · exact mem_of_getElem? (Option.mem_toList.mp hfinal)
      · exact mem_of_mem_eraseIdx (mem_reverse.mp hrest)
    · exact mem_reverse.mp hsource
  have hmessages := mem_map_of_mem (f := (·.message)) hprepared
  rw [prepared_messages] at hmessages
  obtain ⟨candidate, hcandidate, hsame⟩ := mem_map.mp hmessages
  exact ⟨candidate, hcandidate, hmessage.trans hsame.symm⟩

lemma boundedReport_allFit (top : Nat) (hfits : allFit bytes candidates = true)
    (hlegible : Legible bytes candidates) (hwhole : ∀ wire ∈ candidates, wire.truncated = false) :
    (boundedReportMessages bytes candidates top).messages.map (·.message) =
      candidates.map (·.message) := by
  have hspent : spent bytes candidates = prepared bytes candidates := if_pos hfits
  have hsize : reportEnvelopeSize bytes ([] ++ prepared bytes candidates) ≤
      reportBudget bytes candidates := of_decide_eq_true hfits
  simp only [boundedReportMessages, hfits, if_true, hspent]
  rw [fitting_all hsize (hlegible.prepared hwhole), nil_append, prepared_messages]

lemma boundedReport_final {i : Nat} {source : Wire} (hlegible : Legible bytes candidates)
    (hwhole : ∀ wire ∈ candidates, wire.truncated = false)
    (hfinal : finalIndex candidates = some i) (hsource : candidates[i]? = some source) :
    ∃ wire ∈ (boundedReportMessages bytes candidates top).messages,
      wire.message = source.message := by
  cases hfits : allFit bytes candidates with
  | true =>
    have hmem := mem_map_of_mem (f := (·.message)) (mem_of_getElem? hsource)
    rw [← boundedReport_allFit top hfits hlegible hwhole] at hmem
    obtain ⟨wire, hwire, hmessage⟩ := mem_map.mp hmem
    exact ⟨wire, hwire, hmessage⟩
  | false =>
    have hmessages := congrArg (·[i]?) (prepared_messages bytes candidates)
    simp only [getElem?_map, hsource, Option.map_some] at hmessages
    obtain ⟨wire, hwire, hmessage⟩ := Option.map_eq_some_iff.mp hmessages
    refine ⟨wire, mem_boundedReportMessages.mpr ?_, hmessage⟩
    have hspent : spent bytes candidates =
        wire :: ((prepared bytes candidates).eraseIdx i).reverse := by
      simp [spent, hfits, hfinal, hwire]
    have hbudget : reportEnvelopeSize bytes ([] ++ [wire]) ≤ reportBudget bytes candidates := by
      simp [reportBudget, hfinal, hwire]
    rw [hspent, fitting_cons_of_fits hbudget (hlegible i wire hfinal hwire)]
    exact (fitting_isPrefixOf _ _).subset (by simp)

end Sizes

end Quecto.Agents
