/-
  Agents/Child.lean --- the replies of a child, and the reads of its supervisor.

  Source: `infrastructure/tools/agents/agent_cmd_report.rs` and
  `domain/conversation/services/watermark_cut.rs`.
-/
import Quecto.Agents.BoundedReport
import Quecto.Conversation.Cut
import Mathlib.Data.String.Basic

namespace Quecto.Agents

open Foundation Sessions List Conversation Whitespace

/-! ## Context cuts -/

/-- A message of the session as the cut planner reads it. -/
def planView (tokens : Message → Nat) (message : Message) : Message String where
  role :=
    match message.role with
    | .system => .system
    | .user => .user
    | .assistant => .assistant
    | .tool => .tool
  userKind :=
    match message.userKind with
    | .unmarked => .unmarked
    | .prompt => .prompt
    | .archiveStub => .archiveStub
  toolCalls := message.toolCalls.map (·.id)
  toolCallId := message.toolCallId
  turn := message.turn
  ordinal := message.ordinal
  estimatedTokens := tokens message

/-- What a cut is planned with, besides the conversation. -/
structure CutRequest where
  tokens : Message → Nat
  toolTokens : Nat
  stubTokens : Nat
  trigger : CutTrigger
  indexId : Option String

def CutRequest.input (request : CutRequest) (messages : List Message) : CutInput String where
  messages := planMessages (messages.map (planView request.tokens))
  toolTokens := request.toolTokens
  stubTokens := request.stubTokens
  trigger := request.trigger

def stubText (archived : Nat) : Option String → String
  | some id =>
    "[Context archive] " ++ toString archived ++
      " earlier messages of this session were archived " ++
      "to keep the context small. recall(\"" ++ id ++ "\") lists them with their recall ids; " ++
      "recall(\"<id>\") reads any one in full."
  | none =>
    "[Context archive] " ++ toString archived ++
      " earlier messages of this session were dropped " ++
      "to keep the context small; recall(\"list\") shows what session memory still holds."

def archiveStub (fresh : MessageId) (archived : Nat) (indexId : Option String) : Message :=
  { Message.user fresh (stubText archived indexId) with
    userKind := .archiveStub
    spillId := indexId }

/-- `messages` cut by `plan`: what it keeps, with the stub, which takes the largest
ordinal archived, at its slot. -/
def cutBy (fresh : MessageId) (indexId : Option String) (messages : List Message)
    (plan : CutPlan) : List Message :=
  let archived := gather messages plan.archivedIndices
  let stub := { archiveStub fresh archived.length indexId with
    ordinal := (archived.filterMap (·.ordinal)).max? }
  gather messages (plan.kept.take plan.stubSlot) ++
    stub :: gather messages (plan.kept.drop plan.stubSlot)

def contextCut (fresh : MessageId) (messages : List Message) (request : CutRequest) :
    List Message :=
  match planCut (request.input messages) with
  | .ok (.ok plan) => cutBy fresh request.indexId messages plan
  | _ => messages

/-- `after` is `messages` with its front cut away: what is kept of the front are no
replies, and the largest ordinal of the front is kept. -/
structure CutAway (messages after front head : List Message) (stub : Message)
    (tail : List Message) : Prop where
  split : messages = front ++ tail
  made : after = head ++ stub :: tail
  silent : ∀ message ∈ head, message ∈ front ∧ message.role ≠ .assistant
  stubRole : stub.role = .user
  covers : ∀ message ∈ front, ∀ ordinal, message.ordinal = some ordinal →
    ∃ kept ∈ head ++ [stub], ∃ top, kept.ordinal = some top ∧ ordinal ≤ top

section

variable {fresh : MessageId} {messages : List Message}

lemma mem_gather {α : Type} {xs : List α} {indices : List Nat} {x : α} :
    x ∈ gather xs indices ↔ ∃ i ∈ indices, xs[i]? = some x := by
  simp [gather, mem_filterMap]

lemma exists_max? {numbers : List Nat} {n : Nat} (h : n ∈ numbers) :
    ∃ top, numbers.max? = some top ∧ n ≤ top := by
  cases hmax : numbers.max? with
  | none => exact absurd (max?_eq_none_iff.mp hmax ▸ h) not_mem_nil
  | some top => exact ⟨top, rfl, (max?_eq_some_iff.mp hmax).2 n h⟩

lemma role_of_pinned {tokens : Message → Nat} {i : Nat} {message : Message}
    (hmessage : messages[i]? = some message)
    (hpinned : Pinned (planMessages (messages.map (planView tokens))) i) :
    message.role ≠ .assistant := by
  intro hrole
  obtain ⟨view, hview, hkind⟩ := hpinned.role
  have hplanned : (planMessages (messages.map (planView tokens)))[i]? =
      some (planMessage (planView tokens message)) := by
    simp [planMessages, hmessage]
  obtain rfl := Option.some.inj (hview.symm.trans hplanned)
  simp [planMessage, planRole, planView, hrole, PlanRole.isSystem, PlanRole.isUser] at hkind

lemma cutBy_cutAway {request : CutRequest} {pins : List Bool} {start : Nat}
    {fill : Fill} {indexId : Option String}
    (hpins : pinned (request.input messages).messages = some pins)
    (hstart : start ≤ messages.length) : ∃ front head stub tail, CutAway messages
      (cutBy fresh indexId messages (cutAt (request.input messages) pins start fill))
      front head stub tail := by
  have hlength : (request.input messages).messages.length = messages.length := by
    simp [CutRequest.input, planMessages]
  set plan := cutAt (request.input messages) pins start fill with hplan
  have harchived : plan.archivedIndices = leftBefore pins start :=
    cutAt_archivedIndices _ pins start fill
  have hhead : plan.kept.take plan.stubSlot = keptBefore pins start := by
    simp [hplan, cutAt, keptAt]
  have htail : plan.kept.drop plan.stubSlot = range' start (messages.length - start) := by
    simp [hplan, cutAt, keptAt, hlength]
  refine ⟨messages.take start, _, _, messages.drop start, (take_append_drop start messages).symm,
    by rw [cutBy, hhead, htail, gather_tail], ?_, rfl, ?_⟩
  · intro message hmem
    obtain ⟨i, hi, hmessage⟩ := mem_gather.mp hmem
    obtain ⟨hlt, hpin⟩ := mem_keptBefore.mp hi
    refine ⟨mem_of_getElem? (i := i) ?_, role_of_pinned hmessage ((pinned_iff hpins i).mp hpin)⟩
    rwa [getElem?_take_of_lt hlt]
  · intro message hmem ordinal hordinal
    obtain ⟨i, hat⟩ := mem_iff_getElem?.mp hmem
    have hlt : i < start := by
      have := (List.getElem?_eq_some_iff.mp hat).1
      rw [length_take] at this
      omega
    rw [getElem?_take_of_lt hlt] at hat
    by_cases hpin : pins[i]? = some true
    · refine ⟨message, ?_, ordinal, hordinal, Nat.le_refl _⟩
      exact mem_append_left _ (mem_gather.mpr
        ⟨i, mem_keptBefore.mpr ⟨hlt, hpin⟩, hat⟩)
    have hleft : ordinal ∈ (gather messages plan.archivedIndices).filterMap (·.ordinal) := by
      refine mem_filterMap.mpr ⟨message, mem_gather.mpr ⟨i, ?_, hat⟩, hordinal⟩
      rw [harchived]
      exact mem_leftBefore.mpr ⟨hlt, hpin⟩
    obtain ⟨top, htop, hle⟩ := exists_max? hleft
    exact ⟨_, mem_append_right _ mem_cons_self, top, htop, hle⟩

lemma contextCut_cases (fresh : MessageId) (messages : List Message) (request : CutRequest) :
    contextCut fresh messages request = messages ∨ ∃ front head stub tail,
        CutAway messages (contextCut fresh messages request) front head stub tail := by
  obtain ⟨result, hresult, hplanned⟩ := planCut_ok (request.input messages)
  unfold contextCut
  rw [hresult]
  cases result with
  | error reason => exact .inl rfl
  | ok plan =>
    obtain ⟨marks, pins, start, fill, -, hpins, htail, rfl⟩ := hplanned plan rfl
    right
    have hlt : start < (request.input messages).messages.length := htail.boundary.1.lt
    have hlength : (request.input messages).messages.length = messages.length := by
      simp [CutRequest.input, planMessages]
    exact cutBy_cutAway hpins (by omega)

end

/-! ## Replies -/

/-- What a supervisor's reads depend on of an answer. -/
structure Reply where
  id : MessageId
  ordinal : Option Nat
  rank : Nat
  deriving DecidableEq

def Reply.of (message : Message) : Reply where
  id := message.id
  ordinal := message.ordinal
  rank := message.turnOrigin.reportRank

def Reply.number (reply : Reply) : Nat := reply.ordinal.getD 0

section Replies

variable [Whitespace]

/-- The answers among `messages`. -/
def replies (messages : List Message) : List Reply :=
  (messages.filter isSubstantiveReply).map Reply.of

@[simp] lemma replies_nil : replies [] = [] := rfl

@[simp] lemma replies_append (messages others : List Message) :
    replies (messages ++ others) = replies messages ++ replies others := by
  simp [replies]

variable {message : Message} {messages : List Message} {next : Nat}

lemma replies_cons_of_reply (h : isSubstantiveReply message = true) (rest : List Message) :
    replies (message :: rest) = .of message :: replies rest := by
  simp [replies, h]

lemma replies_cons_of_not (h : isSubstantiveReply message = false) (rest : List Message) :
    replies (message :: rest) = replies rest := by
  simp [replies, h]

lemma not_reply_of_role (h : message.role ≠ .assistant) : isSubstantiveReply message = false := by
  simp [isSubstantiveReply, h]

lemma replies_eq_nil (h : ∀ message ∈ messages, message.role ≠ .assistant) :
    replies messages = [] := by
  rw [replies, map_eq_nil_iff, filter_eq_nil_iff]
  intro message hmem
  rw [not_reply_of_role (h message hmem)]
  simp

lemma mem_replies {reply : Reply} : reply ∈ replies messages ↔
      ∃ message ∈ messages, isSubstantiveReply message = true ∧ Reply.of message = reply := by
  simp [replies, and_assoc]

/-! ### Cuts -/

lemma CutAway.replies {messages after front head tail : List Message} {stub : Message}
    (h : CutAway messages after front head stub tail) : replies after = replies tail := by
  have hhead := replies_eq_nil fun message hmem => (h.silent message hmem).2
  have hstub : stub.role ≠ .assistant := by
    rw [h.stubRole]
    simp
  rw [h.made, replies_append, hhead, nil_append, replies_cons_of_not (not_reply_of_role hstub)]

lemma contextCut_replies (fresh : MessageId) (messages : List Message) (request : CutRequest) :
    replies (contextCut fresh messages request) <:+ replies messages := by
  rcases contextCut_cases fresh messages request with hsame | ⟨front, head, stub, tail, hcut⟩
  · exact hsame.symm ▸ suffix_rfl
  · refine ⟨replies front, ?_⟩
    rw [hcut.replies, ← replies_append, ← hcut.split]

/-! ### Numbering -/

def unsavedCount (messages : List Message) : Nat := (messages.filter (·.ordinal.isNone)).length

omit [Whitespace] in
lemma numberFrom_cons {rest : List Message}
    (hroom : next + unsavedCount (message :: rest) ≤ u64Max) :
    ∃ ordinal next', numberFrom next (message :: rest) =
        { message with ordinal := some ordinal } :: numberFrom next' rest ∧
      next ≤ next' ∧ next' + unsavedCount rest ≤ u64Max ∧
      (message.ordinal = none → ordinal = next ∧ next' = next + 1) ∧
      (message.ordinal.isSome → message.ordinal = some ordinal) := by
  cases hordinal : message.ordinal with
  | some ordinal =>
    have hcount : unsavedCount (message :: rest) = unsavedCount rest := by
      simp [unsavedCount, hordinal]
    have hsame : { message with ordinal := some ordinal } = message := by
      rw [← hordinal]
    refine ⟨ordinal, next, ?_, Nat.le_refl _, by omega, by simp, fun _ => rfl⟩
    rw [hsame]
    simp only [numberFrom, hordinal]
  | none =>
    have hcount : unsavedCount (message :: rest) = unsavedCount rest + 1 := by
      simp [unsavedCount, hordinal]
    have hnext : saturatingAdd next 1 = next + 1 := Nat.min_eq_left (by omega)
    refine ⟨next, next + 1, ?_, Nat.le_succ _, by omega, fun _ => ⟨rfl, rfl⟩, by simp⟩
    simp only [numberFrom, hordinal, hnext]

/-- Numbering leaves the numbered replies as they are and numbers the others upwards
from `next`. -/
lemma replies_numberFrom {kept new : List Reply} (hreplies : replies messages = kept ++ new)
    (hkept : ∀ reply ∈ kept, reply.ordinal.isSome) (hnew : ∀ reply ∈ new, reply.ordinal = none)
    (hroom : next + unsavedCount messages ≤ u64Max) :
    ∃ numbered, replies (numberFrom next messages) = kept ++ numbered ∧
      numbered.Pairwise (fun a b => a.number < b.number) ∧
      ∀ reply ∈ numbered, reply.ordinal.isSome ∧ next ≤ reply.number := by
  induction messages generalizing next kept new with
  | nil =>
    obtain ⟨rfl, rfl⟩ := nil_eq_append_iff.mp hreplies
    exact ⟨[], rfl, .nil, nofun⟩
  | cons message rest ih =>
    obtain ⟨ordinal, next', hnumbered, hle, hroom', hnone, hsome⟩ := numberFrom_cons hroom
    have hlater : ∀ {numbered : List Reply},
        (∀ reply ∈ numbered, reply.ordinal.isSome ∧ next' ≤ reply.number) →
          ∀ reply ∈ numbered, reply.ordinal.isSome ∧ next ≤ reply.number :=
      fun h reply hmem => ⟨(h reply hmem).1, Nat.le_trans hle (h reply hmem).2⟩
    rw [hnumbered]
    cases hreply : isSubstantiveReply message with
    | false =>
      have hreply' : isSubstantiveReply { message with ordinal := some ordinal } = false := hreply
      rw [replies_cons_of_not hreply] at hreplies
      rw [replies_cons_of_not hreply']
      obtain ⟨numbered, hsame, hrising, hnumbers⟩ := ih hreplies hkept hnew hroom'
      exact ⟨numbered, hsame, hrising, hlater hnumbers⟩
    | true =>
      have hreply' : isSubstantiveReply { message with ordinal := some ordinal } = true := hreply
      rw [replies_cons_of_reply hreply] at hreplies
      rw [replies_cons_of_reply hreply']
      cases kept with
      | nil =>
        obtain rfl : Reply.of message :: replies rest = new := hreplies
        obtain ⟨hfirst, hothers⟩ := forall_mem_cons.mp hnew
        obtain ⟨rfl, rfl⟩ := hnone hfirst
        obtain ⟨numbered, hsame, hrising, hnumbers⟩ := ih rfl hkept hothers hroom'
        refine ⟨_ :: numbered, congrArg _ hsame,
          .cons (fun reply hmem => (hnumbers reply hmem).2) hrising, ?_⟩
        exact forall_mem_cons.mpr ⟨⟨rfl, Nat.le_refl _⟩, hlater hnumbers⟩
      | cons first kept =>
        obtain ⟨rfl, hrest⟩ := cons.inj hreplies
        obtain ⟨hfirst, hothers⟩ := forall_mem_cons.mp hkept
        have hof : Reply.of { message with ordinal := some ordinal } = Reply.of message := by
          rw [Reply.of, Reply.of, hsome hfirst]
        obtain ⟨numbered, hsame, hrising, hnumbers⟩ := ih hrest hothers hnew hroom'
        exact ⟨numbered, by rw [hof, hsame]; rfl, hrising, hlater hnumbers⟩

end Replies

/-- The characters that end a stub or open its recall clause are not white space. -/
class PlainWhitespace [Whitespace] : Prop where
  bracket : isWhitespace ']' = false
  paren : isWhitespace '(' = false

section

variable [Whitespace] [PlainWhitespace]

omit [PlainWhitespace] in
lemma not_blank_of_mem {text : List Char} {c : Char} (hmem : c ∈ text)
    (hc : isWhitespace c = false) : text.all isWhitespace = false := by
  rw [all_eq_false]
  exact ⟨c, hmem, by simp [hc]⟩

lemma blank_withoutRecall (stub : String) :
    (messageStubWithoutRecall stub).toList.all isWhitespace = stub.toList.all isWhitespace := by
  unfold messageStubWithoutRecall
  dsimp only
  split
  · rename_i i hfind
    have hfound := find?_some hfind
    have hclause : recallClause <+: stub.toList.drop i := isPrefixOf_iff_prefix.mp hfound
    have hparen : '(' ∈ stub.toList :=
      mem_of_mem_drop (hclause.subset (by simp [recallClause]))
    rw [not_blank_of_mem hparen PlainWhitespace.paren, String.toList_ofList]
    exact not_blank_of_mem (mem_append_right _ mem_cons_self) PlainWhitespace.bracket
  · rfl

lemma isSubstantiveReply_expanded (message : Message) :
    isSubstantiveReply (expanded message) = isSubstantiveReply message := by
  unfold expanded
  split
  swap
  · rfl
  cases hrole : message.role with
  | assistant | user => simp [isSubstantiveReply, hrole, blank_withoutRecall]
  | system | tool => simp [isSubstantiveReply, hrole]

lemma stripped_reply {message : Message} (fresh : MessageId)
    (hstub : message.userKind = .archiveStub → message.role = .user) :
    isSubstantiveReply (forgetRetention fresh (expanded message)) = isSubstantiveReply message ∧
      (isSubstantiveReply message = true →
        Reply.of (forgetRetention fresh (expanded message)) = Reply.of message) := by
  have hkind : (expanded message).userKind = message.userKind := by
    unfold expanded
    split <;> rfl
  have hof : Reply.of (expanded message) = Reply.of message := by
    unfold expanded
    split <;> rfl
  have hsame := isSubstantiveReply_expanded message
  unfold forgetRetention
  rw [hkind]
  cases hcase : message.userKind with
  | archiveStub =>
    have hnot : isSubstantiveReply message = false := not_reply_of_role (by rw [hstub hcase]; simp)
    refine ⟨?_, fun hreply => ?_⟩
    · rw [hnot]
      exact not_reply_of_role (by simp [rewoundStub, Message.user, Message.plain])
    · rw [hnot] at hreply
      cases hreply
  | prompt | unmarked => exact ⟨hsame, fun _ => hof⟩

variable {messages : List Message}

omit [PlainWhitespace] in
lemma map_replies_mapIdx {β : Type} (g : Reply → β) {f : Nat → Message → Message}
    (h : ∀ i, ∀ message ∈ messages,
      isSubstantiveReply (f i message) = isSubstantiveReply message ∧
        (isSubstantiveReply message = true → g (.of (f i message)) = g (.of message))) :
    (replies (messages.mapIdx f)).map g = (replies messages).map g := by
  induction messages generalizing f with
  | nil => rfl
  | cons message rest ih =>
    obtain ⟨hsame, hof⟩ := h 0 message mem_cons_self
    have hrest : (replies (rest.mapIdx fun i => f (i + 1))).map g = (replies rest).map g :=
      ih fun i other hother => h (i + 1) other (mem_cons_of_mem _ hother)
    rw [mapIdx_cons]
    cases hreply : isSubstantiveReply message with
    | false => rw [replies_cons_of_not (hsame.trans hreply), replies_cons_of_not hreply, hrest]
    | true =>
      rw [replies_cons_of_reply (hsame.trans hreply), replies_cons_of_reply hreply, map_cons,
        map_cons, hof hreply, hrest]

/-- Only user messages are stubs of a cut. -/
def UserStubs (messages : List Message) : Prop :=
  ∀ message ∈ messages, message.userKind = .archiveStub → message.role = .user

lemma replies_removeSpillReferences {fresh : MessageId} (hstubs : UserStubs messages) :
    replies (removeSpillReferences fresh messages) = replies (messages.filter (!·.isManifest)) := by
  have hsame : (replies (removeSpillReferences fresh messages)).map id =
      (replies (messages.filter (!·.isManifest))).map id :=
    map_replies_mapIdx id fun i message hmem =>
      stripped_reply (fresh + i) (hstubs message (mem_of_mem_filter hmem))
  rw [map_id, map_id] at hsame
  exact hsame

end

/-! ## The largest ordinal -/

variable {messages : List Message}

lemma le_lastOrdinal {message : Message} {ordinal : Nat} (hmem : message ∈ messages)
    (hordinal : message.ordinal = some ordinal) : ordinal ≤ lastOrdinal messages := by
  have hin : ordinal ∈ messages.filterMap (·.ordinal) :=
    mem_filterMap.mpr ⟨message, hmem, hordinal⟩
  obtain ⟨top, htop, hle⟩ := exists_max? hin
  rw [lastOrdinal, htop]
  exact hle

lemma lastOrdinal_le {bound : Nat}
    (h : ∀ message ∈ messages, ∀ ordinal, message.ordinal = some ordinal → ordinal ≤ bound) :
    lastOrdinal messages ≤ bound := by
  unfold lastOrdinal
  cases hmax : (messages.filterMap (·.ordinal)).max? with
  | none => exact Nat.zero_le _
  | some top =>
    obtain ⟨message, hmem, hordinal⟩ := mem_filterMap.mp (max?_eq_some_iff.mp hmax).1
    exact h message hmem top hordinal

lemma lastOrdinal_mono {others : List Message}
    (h : ∀ message ∈ messages, ∀ ordinal, message.ordinal = some ordinal →
      ∃ other ∈ others, ∃ top, other.ordinal = some top ∧ ordinal ≤ top) :
    lastOrdinal messages ≤ lastOrdinal others :=
  lastOrdinal_le fun message hmem ordinal hordinal =>
    let ⟨_, hother, _, htop, hle⟩ := h message hmem ordinal hordinal
    Nat.le_trans hle (le_lastOrdinal hother htop)

lemma lastOrdinal_contextCut (fresh : MessageId) (messages : List Message) (request : CutRequest) :
    lastOrdinal messages ≤ lastOrdinal (contextCut fresh messages request) := by
  rcases contextCut_cases fresh messages request with hsame | ⟨front, head, stub, tail, hcut⟩
  · rw [hsame]
  apply lastOrdinal_mono
  intro message hmem ordinal hordinal
  rw [hcut.split] at hmem
  rw [hcut.made]
  rcases mem_append.mp hmem with hfront | htail
  · obtain ⟨kept, hkept, top, htop, hle⟩ := hcut.covers message hfront ordinal hordinal
    refine ⟨kept, ?_, top, htop, hle⟩
    rw [append_cons]
    exact mem_append_left _ hkept
  · exact ⟨message, mem_append_right _ (mem_cons_of_mem _ htail), ordinal, hordinal, Nat.le_refl _⟩

lemma lastOrdinal_assignMissingOrdinals (messages : List Message) :
    lastOrdinal messages ≤ lastOrdinal (assignMissingOrdinals messages) := by
  apply lastOrdinal_mono
  intro message hmem ordinal hordinal
  obtain ⟨hlength, hpair⟩ := forall₂_iff_get.mp (assignMissingOrdinals_numbers messages)
  obtain ⟨i, hi, rfl⟩ := mem_iff_getElem.mp hmem
  have hnumbered := hpair i hi (hlength ▸ hi)
  exact ⟨_, get_mem _ _, ordinal, hnumbered.kept ordinal hordinal, Nat.le_refl _⟩

/-! ## Default reports -/

/-- A report that was handed out and is not acknowledged yet. -/
structure PendingMessageReport where
  receipt : Nat
  ordinal : Nat
  deriving DecidableEq

inductive ReportContent where
  | pendingPersistence (report : BoundedReport)
  | incomplete (report : Option BoundedReport)
  | unchanged
  | nothingFits
  | unread (report : BoundedReport) (laterProgress : Nat) (reportFound : Bool)
      (olderUnreadSkipped : List (Nat × Nat))
  deriving DecidableEq

/-- The messages a supervisor takes as read. -/
def ReportContent.received : ReportContent → List Wire
  | .unread report _ _ _ => report.messages
  | .pendingPersistence _ | .incomplete _ | .unchanged | .nothingFits => []

structure DefaultReportPlan where
  content : ReportContent
  pending : Option PendingMessageReport
  deriving DecidableEq

def laterProgress (reported : List ReportedMessage) (delivered : Nat) : List Nat → Nat
  | [report] => if delivered = 0 then laterThan reported report else 0
  | _ => 0

section

variable [Whitespace] (bytes : Wire → Nat)

/-- The report of a selection, and what its acknowledgement would acknowledge. -/
def planSelection (messages : List Wire) (noReportFound : Bool) (delivered receipt : Nat) :
    UnreadSelection → DefaultReportPlan
  | .pendingPersistence report =>
    ⟨.pendingPersistence (boundedReportMessages bytes (gather messages report.toList) 0), none⟩
  | .incomplete unread maxOrdinal =>
    let report := boundedReportMessages bytes (gather messages unread) maxOrdinal
    ⟨.incomplete (if unread.isEmpty || report.messages.isEmpty then none else some report), none⟩
  | .unchanged => ⟨.unchanged, none⟩
  | .unread indices maxOrdinal =>
    let report := boundedReportMessages bytes (gather messages indices) maxOrdinal
    if report.messages.isEmpty then
      ⟨if delivered < maxOrdinal then .nothingFits else .unchanged, none⟩
    else
      let ordinals := report.messages.filterMap (·.message.ordinal)
      let later := laterProgress (messages.map observed) delivered indices
      let skipped := if noReportFound then skippedUnread delivered ordinals else []
      ⟨.unread report later (!noReportFound) skipped, some ⟨receipt, ordinals.max?.getD delivered⟩⟩

def planDefaultReport (messages : List Wire) (reportIncomplete noReportFound : Bool)
    (delivered receipt : Nat) : DefaultReportPlan :=
  let reported := messages.map observed
  planSelection bytes messages noReportFound delivered receipt
    (if noReportFound then selectUnreadWithoutReport reported delivered reportIncomplete
    else selectUnread reported delivered reportIncomplete)

end

/-- What the supervisor keeps for the child. -/
structure Row where
  deliveredMessageOrdinal : Option Nat
  pendingMessageReports : List PendingMessageReport
  deriving DecidableEq

namespace Row

def delivered (row : Row) : Nat := row.deliveredMessageOrdinal.getD 0

def pend (row : Row) (pending : Option PendingMessageReport) : Row :=
  { row with pendingMessageReports := row.pendingMessageReports ++ pending.toList }

def acknowledgedReportIndex (row : Row) (receipt : Option Nat) : Option Nat :=
  receipt.bind fun receipt => position (·.receipt == receipt) row.pendingMessageReports

def acknowledge (row : Row) (receipt : Option Nat) : Row :=
  match row.acknowledgedReportIndex receipt with
  | none => row
  | some index =>
    { deliveredMessageOrdinal :=
        match row.pendingMessageReports[index]? with
        | some pending => some (max row.delivered pending.ordinal)
        | none => row.deliveredMessageOrdinal
      pendingMessageReports := row.pendingMessageReports.eraseIdx index }

lemma acknowledge_pend {row : Row} {receipt ordinal : Nat}
    (hfresh : ∀ pending ∈ row.pendingMessageReports, pending.receipt < receipt) :
    (row.pend (some ⟨receipt, ordinal⟩)).acknowledge (some receipt) =
      ⟨some (max row.delivered ordinal), row.pendingMessageReports⟩ := by
  have hindex : (row.pend (some ⟨receipt, ordinal⟩)).acknowledgedReportIndex (some receipt) =
      some row.pendingMessageReports.length := by
    show position _ (row.pendingMessageReports ++ [⟨receipt, ordinal⟩]) = _
    rw [position_eq_some_iff]
    refine ⟨⟨⟨receipt, ordinal⟩, by simp, by simp⟩, ?_⟩
    rintro j hj ⟨pending, hpending, hsame⟩
    rw [getElem?_append_left hj] at hpending
    have hlt := hfresh pending (mem_of_getElem? hpending)
    rw [beq_iff_eq] at hsame
    omega
  unfold acknowledge
  rw [hindex]
  simp [pend, delivered, eraseIdx_append_of_length_le]

end Row

/-! ## The system -/

/-- A child and its supervisor.  `live` is the child's conversation, `saved` its
transcript, and `seen` is what delivered reads contained. -/
structure Supervision where
  live : List Message
  saved : List Message
  nextId : MessageId
  row : Row
  nextReceipt : Nat
  seen : List MessageId

/-- The child goes on, cuts, saves, rewinds or is loaded again; the supervisor reads, and
the answer is delivered or lost. -/
inductive SupervisionStep where
  | append (messages : List Message)
  | cut (request : CutRequest)
  | save
  | rewind (target : RewindTarget) (legacyIndexWindow : Nat)
  | reload
  | read (delivered : Bool)

def newMessages (fresh : MessageId) (messages : List Message) : List Message :=
  messages.mapIdx fun i message => { message with id := fresh + i, ordinal := none }

namespace Supervision

variable (s : Supervision)

def append (messages : List Message) : Supervision :=
  { s with
    live := s.live ++ newMessages s.nextId messages
    nextId := s.nextId + messages.length }

def cut (request : CutRequest) : Supervision :=
  { s with
    live := contextCut s.nextId s.live request
    nextId := s.nextId + 1 }

def savedAs (messages : List Message) : Supervision :=
  { s with
    live := assignMissingOrdinals messages
    saved := assignMissingOrdinals messages }

def rewind (target : RewindTarget) (legacyIndexWindow : Nat) : Supervision :=
  match rewound s.nextId s.live target legacyIndexWindow with
  | some messages => { s.savedAs messages with nextId := s.nextId + messages.length }
  | none => s

def reload : Supervision :=
  let loaded := s.saved.mapIdx fun i message => { message with id := s.nextId + i }
  { s with
    live := loaded
    saved := loaded
    nextId := s.nextId + s.saved.length
    seen := (s.saved.mapIdx fun i message => (message.id, s.nextId + i)).filterMap fun (old, new) =>
      if old ∈ s.seen then some new else none }

section

variable [Whitespace] (bytes : Wire → Nat)

def noReportFound (s : Supervision) : Bool :=
  s.row.delivered == 0 && (transcriptReportIndex isSubstantiveReply s.saved).isNone

def plan (s : Supervision) : DefaultReportPlan :=
  planDefaultReport bytes (s.saved.map .whole) false s.noReportFound s.row.delivered s.nextReceipt

def read (s : Supervision) (delivered : Bool) : Supervision :=
  let plan := s.plan bytes
  let row := s.row.pend plan.pending
  let s := { s with nextReceipt := s.nextReceipt + 1 }
  if delivered then
    { s with
      row := row.acknowledge (plan.pending.map (·.receipt))
      seen := s.seen ++ plan.content.received.map (·.message.id) }
  else { s with row := row }

def step (s : Supervision) : SupervisionStep → Option ReportContent × Supervision
  | .append messages => (none, s.append messages)
  | .cut request => (none, s.cut request)
  | .save => (none, s.savedAs s.live)
  | .rewind target legacyIndexWindow => (none, s.rewind target legacyIndexWindow)
  | .reload => (none, s.reload)
  | .read delivered => (some (s.plan bytes).content, s.read bytes delivered)

end

end Supervision

end Quecto.Agents
