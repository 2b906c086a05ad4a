/-
  Agents/Unhidden.lean --- a new answer is not hidden from the supervisor.
-/
import Quecto.Agents.Child

namespace Quecto.Agents

open Foundation Sessions List Reply Wire Message

/-! ## Covered replies -/

/-- The numbers of `replies` go up. -/
def Rising (replies : List Reply) : Prop := replies.Pairwise fun a b => a.number < b.number

/-- Every reply up to the watermark was seen, or a later one that ranks as high was. -/
def Covered (seen : List MessageId) (delivered : Nat) (replies : List Reply) : Prop :=
  ∀ reply ∈ replies, reply.id ∉ seen → reply.number ≤ delivered →
    ∃ later ∈ replies, later.id ∈ seen ∧ reply.number < later.number ∧ reply.rank ≤ later.rank

lemma Rising.mem_of_lt {before behind : List Reply} (h : Rising (before ++ behind)) {a b : Reply}
    (ha : a ∈ behind) (hb : b ∈ before ++ behind) (hlt : a.number < b.number) : b ∈ behind := by
  rcases mem_append.mp hb with hbefore | hbehind
  · have hgt := (pairwise_append.mp h).2.2 b hbefore a ha
    omega
  · exact hbehind

/-! ## Regular steps -/

section

variable [Whitespace] (bytes : Wire → Nat)

namespace Supervision

def firstRead (s : Supervision) : FirstRead := if s.noReportFound then .window else .report

/-- The messages a default read chooses to report. -/
def chosen (s : Supervision) : List Nat :=
  chosenIndices ((s.saved.map whole).map observed) s.row.delivered s.firstRead

def candidates (s : Supervision) : List Wire := gather (s.saved.map whole) s.chosen

end Supervision

def hasText (wire : Wire) : Bool := isSubstantiveAssistant (stripUnboundedPayloads wire)

def Wire.rank (wire : Wire) : Nat := wire.message.turnOrigin.reportRank

/-- The last assistant text calls no tools, and none before it ranks higher. -/
def LastTextReports (candidates : List Wire) : Prop :=
  ∀ before last behind, candidates = before ++ last :: behind → hasText last = true →
    (∀ wire ∈ behind, hasText wire = false) →
    last.toolCalls = [] ∧ ∀ other ∈ before, hasText other = true → other.rank ≤ last.rank

def SupervisionStep.Regular (s : Supervision) : SupervisionStep → Prop
  | .append messages => UserStubs messages
  | .cut _ | .reload => True
  -- There are ordinals left.
  | .save => lastOrdinal s.live + 1 + unsavedCount s.live ≤ u64Max
  /- A rewind removes nothing a delivered read contained, and leaves a message numbered at
  least as high as the watermark. -/
  | .rewind target legacyIndexWindow =>
    ∀ index, resolveRewindTarget s.live legacyIndexWindow target = .ok index →
      let kept := (s.live.take index).filter (!·.isManifest)
      (∀ message ∈ s.live, message.id ∈ s.seen → message ∈ kept) ∧
        s.row.delivered ≤ lastOrdinal kept ∧ lastOrdinal kept + 1 + unsavedCount kept ≤ u64Max
  /- What is unread fits the report, or its last assistant text is the report; and the
  handoff is not cut down to nothing. -/
  | .read _ => Legible bytes s.candidates ∧
    (allFit bytes s.candidates = true ∨ LastTextReports s.candidates)

end

/-! ## What the steps keep -/

section Sound

variable [Whitespace]

namespace Supervision

/-- What holds of a child and its supervisor at every step.  The replies saved and the
latest ones agree up to what a cut took away and what is not numbered yet. -/
structure Sound (s : Supervision) : Prop where
  numbered : ∀ message ∈ s.saved, message.ordinal.isSome
  rising : Rising (replies s.saved)
  stubs : UserStubs s.live
  savedStubs : UserStubs s.saved
  latest : ∃ gone kept new, replies s.saved = gone ++ kept ∧ replies s.live = kept ++ new ∧
    ∀ reply ∈ new, reply.ordinal = none
  top : lastOrdinal s.saved ≤ lastOrdinal s.live
  reached : s.row.delivered ≤ lastOrdinal s.saved
  covered : Covered s.seen s.row.delivered (replies s.saved)
  receipts : ∀ pending ∈ s.row.pendingMessageReports, pending.receipt < s.nextReceipt

variable {s : Supervision} {messages : List Message}

omit [Whitespace] in
lemma newMessages_ordinal {fresh : MessageId} :
    ∀ message ∈ newMessages fresh messages, message.ordinal = none := by
  intro message hmem
  obtain ⟨i, hi, rfl⟩ := mem_mapIdx.mp hmem
  rfl

lemma Sound.append (h : s.Sound)
    (hstubs : UserStubs messages) :
    (s.append messages).Sound := by
  obtain ⟨gone, kept, new, hsaved, hlive, hnew⟩ := h.latest
  refine { h with stubs := ?_, latest := ?_, top := ?_ }
  · refine forall_mem_append.mpr ⟨h.stubs, ?_⟩
    intro message hmem
    obtain ⟨i, hi, rfl⟩ := mem_mapIdx.mp hmem
    exact hstubs (messages[i]) (getElem_mem hi)
  · refine ⟨gone, kept, new ++ replies (newMessages s.nextId messages), hsaved, ?_, ?_⟩
    · show replies (s.live ++ newMessages s.nextId messages) = _
      rw [replies_append, hlive, append_assoc]
    · refine forall_mem_append.mpr ⟨hnew, ?_⟩
      intro reply hmem
      obtain ⟨message, hmessage, -, rfl⟩ := mem_replies.mp hmem
      exact newMessages_ordinal message hmessage
  · refine Nat.le_trans h.top (lastOrdinal_mono ?_)
    intro message hmem ordinal hordinal
    exact ⟨message, mem_append_left _ hmem, ordinal, hordinal, Nat.le_refl _⟩

omit [Whitespace] in
lemma suffix_append_cases {α : Type} {whole front back : List α} (h : whole <:+ front ++ back) :
    ∃ gone kept new, front = gone ++ kept ∧ whole = kept ++ new ∧ new <:+ back := by
  obtain ⟨cut, hcut⟩ := h
  rcases append_eq_append_iff.mp hcut with ⟨part, hfront, hwhole⟩ | ⟨part, hcutIs, hback⟩
  · exact ⟨cut, part, back, hfront, hwhole, ⟨[], rfl⟩⟩
  · exact ⟨front, [], whole, (append_nil front).symm, rfl, ⟨part, hback.symm⟩⟩

lemma Sound.cut (h : s.Sound) (request : CutRequest) : (s.cut request).Sound := by
  obtain ⟨gone, kept, new, hsaved, hlive, hnew⟩ := h.latest
  refine { h with stubs := ?_, latest := ?_, top := ?_ }
  · intro message hmem hstub
    rcases contextCut_cases s.nextId s.live request with hsame | ⟨front, head, stub, tail, hcut⟩
    · exact h.stubs message (hsame ▸ hmem) hstub
    have hmem' : message ∈ head ++ stub :: tail := hcut.made ▸ hmem
    have hlive' : ∀ other, other ∈ front ∨ other ∈ tail → other ∈ s.live := by
      intro other hother
      rw [hcut.split, mem_append]
      exact hother
    rcases mem_append.mp hmem' with hhead | hrest
    · exact h.stubs message (hlive' message (.inl (hcut.silent message hhead).1)) hstub
    rcases mem_cons.mp hrest with rfl | htail
    · exact hcut.stubRole
    · exact h.stubs message (hlive' message (.inr htail)) hstub
  · have hsuffix := contextCut_replies s.nextId s.live request
    rw [hlive] at hsuffix
    obtain ⟨cutAway, kept', new', rfl, hreplies, hnew'⟩ := suffix_append_cases hsuffix
    refine ⟨gone ++ cutAway, kept', new', ?_, hreplies, ?_⟩
    swap
    · exact fun reply hmem => hnew reply (hnew'.subset hmem)
    show replies s.saved = _
    rw [hsaved, append_assoc]
  · exact Nat.le_trans h.top (lastOrdinal_contextCut s.nextId s.live request)

lemma Sound.savedAs (h : s.Sound) (messages : List Message) (kept new : List Reply)
    (hreplies : replies messages = kept ++ new) (hkept : kept.Sublist (replies s.saved))
    (hnew : ∀ reply ∈ new, reply.ordinal = none)
    (hseen : ∀ reply ∈ kept, ∀ later ∈ replies s.saved, later.id ∈ s.seen →
      reply.number < later.number → later ∈ kept)
    (hstubs : UserStubs messages)
    (hreached : s.row.delivered ≤ lastOrdinal messages)
    (hroom : lastOrdinal messages + 1 + unsavedCount messages ≤ u64Max) :
    (s.savedAs messages).Sound := by
  have hnumberedKept : ∀ reply ∈ kept, reply.ordinal.isSome := by
    intro reply hmem
    obtain ⟨message, hmessage, -, rfl⟩ := mem_replies.mp (hkept.subset hmem)
    exact h.numbered message hmessage
  have hnext : saturatingAdd (lastOrdinal messages) 1 = lastOrdinal messages + 1 :=
    Nat.min_eq_left (by omega)
  obtain ⟨fresh, hsaved, hrising, hfresh⟩ := replies_numberFrom hreplies hnumberedKept hnew hroom
  have hassigned : assignMissingOrdinals messages =
      numberFrom (lastOrdinal messages + 1) messages := by
    rw [assignMissingOrdinals, hnext]
  rw [← hassigned] at hsaved
  have hkeptTop : ∀ reply ∈ kept, reply.number ≤ lastOrdinal messages := by
    intro reply hmem
    have hin : reply ∈ replies messages := hreplies ▸ mem_append_left _ hmem
    obtain ⟨message, hmessage, -, rfl⟩ := mem_replies.mp hin
    obtain ⟨ordinal, hordinal⟩ := Option.isSome_iff_exists.mp (hnumberedKept _ hmem)
    have hle := le_lastOrdinal hmessage hordinal
    rw [number, hordinal]
    exact hle
  have hall : UserStubs (assignMissingOrdinals messages) :=
    forall_of_ordinals (Q := fun message => message.userKind = .archiveStub → message.role = .user)
      (fun _ _ hnumbered => hnumbered.same) (fun _ _ hstub => hstub)
      (assignMissingOrdinals_numbers messages) hstubs
  refine ⟨isSome_of_mem_numbered (assignMissingOrdinals_numbers _), ?_, hall, hall,
    ⟨[], _, [], rfl, (append_nil _).symm, nofun⟩, Nat.le_refl _,
    Nat.le_trans hreached (lastOrdinal_assignMissingOrdinals messages), ?_, h.receipts⟩
  · show Rising (replies (assignMissingOrdinals messages))
    rw [hsaved]
    refine pairwise_append.mpr ⟨h.rising.sublist hkept, hrising, ?_⟩
    intro reply hmem later hlater
    have hle := hkeptTop reply hmem
    have hgt := (hfresh later hlater).2
    omega
  · show Covered s.seen s.row.delivered (replies (assignMissingOrdinals messages))
    rw [hsaved]
    intro reply hmem hunseen hbelow
    rcases mem_append.mp hmem with hold | hfreshly
    · obtain ⟨later, hlater, hlaterSeen, hlt, hrank⟩ :=
        h.covered reply (hkept.subset hold) hunseen hbelow
      exact ⟨later, mem_append_left _ (hseen reply hold later hlater hlaterSeen hlt), hlaterSeen,
        hlt, hrank⟩
    · have hgt := (hfresh reply hfreshly).2
      omega

lemma Sound.save (h : s.Sound)
    (hroom : lastOrdinal s.live + 1 + unsavedCount s.live ≤ u64Max) : (s.savedAs s.live).Sound := by
  obtain ⟨gone, kept, new, hsaved, hlive, hnew⟩ := h.latest
  refine h.savedAs s.live kept new hlive (hsaved ▸ sublist_append_right gone kept) hnew ?_ h.stubs
    (Nat.le_trans h.reached h.top) hroom
  intro reply hmem later hlater _ hlt
  have hrising := h.rising
  rw [hsaved] at hrising hlater
  exact hrising.mem_of_lt hmem hlater hlt

omit [Whitespace] in
lemma ordinals_removeSpillReferences (fresh : MessageId) (messages : List Message) :
    (removeSpillReferences fresh messages).map (·.ordinal) =
      (messages.filter (!·.isManifest)).map (·.ordinal) := by
  apply ext_getElem
  · simp [removeSpillReferences]
  intro i hi hi'
  simp only [removeSpillReferences, getElem_map, getElem_mapIdx]
  exact ordinal_stripped _ _

omit [Whitespace] in
lemma lastOrdinal_congr {others : List Message}
    (h : messages.map (·.ordinal) = others.map (·.ordinal)) :
    lastOrdinal messages = lastOrdinal others := by
  have hmaps : ∀ list : List Message, list.filterMap (·.ordinal) =
      (list.map (·.ordinal)).filterMap id := by
    intro list
    rw [filterMap_map]
    rfl
  rw [lastOrdinal, lastOrdinal, hmaps, hmaps, h]

omit [Whitespace] in
lemma unsavedCount_congr {others : List Message}
    (h : messages.map (·.ordinal) = others.map (·.ordinal)) :
    unsavedCount messages = unsavedCount others := by
  have hmaps : ∀ list : List Message, unsavedCount list =
      ((list.map (·.ordinal)).filter (·.isNone)).length := by
    intro list
    rw [filter_map, length_map]
    rfl
  rw [hmaps, hmaps, h]

lemma Sound.rewind [PlainWhitespace] (h : s.Sound) (target : RewindTarget)
    (legacyIndexWindow : Nat) (bytes : Wire → Nat)
    (hregular : (SupervisionStep.rewind target legacyIndexWindow).Regular bytes s) :
    (s.rewind target legacyIndexWindow).Sound := by
  unfold Supervision.rewind
  split
  swap
  · exact h
  rename_i messages hrewound
  obtain ⟨index, hindex, rfl⟩ := rewound_eq hrewound
  obtain ⟨hstay, hreached, hroom⟩ := hregular index hindex
  obtain ⟨gone, kept, new, hsaved, hlive, hnew⟩ := h.latest
  have hordinals := ordinals_removeSpillReferences s.nextId (s.live.take index)
  have htake : UserStubs (s.live.take index) :=
    fun message hmem => h.stubs message (mem_of_mem_take hmem)
  -- The replies that stay are some of the conversation's, in their order.
  have hsublist : (replies ((s.live.take index).filter (!·.isManifest))).Sublist (kept ++ new) := by
    rw [← hlive]
    exact ((filter_sublist.trans (take_sublist _ _)).filter _).map _
  obtain ⟨kept', new', hreplies, hkept', hnew'⟩ := sublist_append_iff.mp hsublist
  have hsound := h.savedAs (removeSpillReferences s.nextId (s.live.take index)) kept' new'
    ?_ ?_ ?_ ?_ ?_ ?_ ?_
  · exact { hsound with }
  · rw [replies_removeSpillReferences htake, hreplies]
  · rw [hsaved]
    exact hkept'.trans (sublist_append_right gone kept)
  · exact fun reply hmem => hnew reply (hnew'.subset hmem)
  · intro reply hmem later hlater hseen hlt
    obtain ⟨ordinal, hordinal⟩ : ∃ ordinal, later.ordinal = some ordinal := by
      obtain ⟨message, hmessage, -, rfl⟩ := mem_replies.mp hlater
      exact Option.isSome_iff_exists.mp (h.numbered message hmessage)
    have hrising := h.rising
    rw [hsaved] at hrising hlater
    have hlatest := hrising.mem_of_lt (hkept'.subset hmem) hlater hlt
    have hinLive : later ∈ replies s.live := hlive ▸ mem_append_left _ hlatest
    obtain ⟨message, hmessage, hreply, rfl⟩ := mem_replies.mp hinLive
    have hin : of message ∈ replies ((s.live.take index).filter (!·.isManifest)) :=
      mem_replies.mpr ⟨message, hstay message hmessage hseen, hreply, rfl⟩
    rw [hreplies] at hin
    rcases mem_append.mp hin with hold | hunsaved
    · exact hold
    · have hnone := hnew _ (hnew'.subset hunsaved)
      cases hordinal.symm.trans hnone
  · intro message hmem hstub
    obtain ⟨other, -, id, rfl⟩ := mem_removeSpillReferences hmem
    exact stripped_stub id hstub
  · rw [lastOrdinal_congr hordinals]
    exact hreached
  · rw [lastOrdinal_congr hordinals, unsavedCount_congr hordinals]
    exact hroom

lemma Sound.reload (h : s.Sound) : s.reload.Sound := by
  have hordinals : s.reload.saved.map (·.ordinal) = s.saved.map (·.ordinal) := by
    apply ext_getElem
    · simp [Supervision.reload]
    · simp [Supervision.reload]
  have hmem : ∀ message ∈ s.reload.saved, ∃ i, ∃ old : Message, s.saved[i]? = some old ∧
      message = { old with id := s.nextId + i } := by
    intro message hmessage
    obtain ⟨i, hi, rfl⟩ := mem_mapIdx.mp hmessage
    exact ⟨i, s.saved[i], List.getElem?_eq_getElem hi, rfl⟩
  have hloaded : ∀ {i : Nat} {old : Message}, s.saved[i]? = some old →
      ({ old with id := s.nextId + i } : Message) ∈ s.reload.saved := by
    intro i old hold
    refine mem_of_getElem? (i := i) ?_
    simp [Supervision.reload, hold]
  -- What was seen is seen under its new identity.
  have hseen : ∀ {i : Nat} {old : Message}, s.saved[i]? = some old → old.id ∈ s.seen →
      s.nextId + i ∈ s.reload.seen := by
    intro i old hold hin
    refine mem_filterMap.mpr ⟨(old.id, s.nextId + i), ?_, by simp [hin]⟩
    exact mem_of_getElem? (i := i) (by simp [hold])
  have hstubs : UserStubs s.reload.saved := by
    intro message hmessage
    obtain ⟨i, old, hold, rfl⟩ := hmem message hmessage
    exact h.savedStubs old (mem_of_getElem? hold)
  refine ⟨?_, ?_, hstubs, hstubs,
    ⟨[], _, [], rfl, (append_nil _).symm, nofun⟩, Nat.le_refl _, ?_, ?_,
    h.receipts⟩
  · intro message hmessage
    obtain ⟨i, old, hold, rfl⟩ := hmem message hmessage
    exact h.numbered old (mem_of_getElem? hold)
  · have hnumbers : (replies s.reload.saved).map number = (replies s.saved).map number :=
      map_replies_mapIdx number fun i message _ => ⟨rfl, fun _ => rfl⟩
    unfold Rising
    rw [← pairwise_map (f := number) (R := (· < ·)), hnumbers, pairwise_map]
    exact h.rising
  · rw [lastOrdinal_congr hordinals]
    exact h.reached
  · intro reply hreply hunseen hbelow
    obtain ⟨message, hmessage, hsubstantive, rfl⟩ := mem_replies.mp hreply
    obtain ⟨i, old, hold, rfl⟩ := hmem message hmessage
    have holdReply : of old ∈ replies s.saved :=
      mem_replies.mpr ⟨old, mem_of_getElem? hold, hsubstantive, rfl⟩
    have holdUnseen : old.id ∉ s.seen := fun hin => hunseen (hseen hold hin)
    obtain ⟨later, hlater, hlaterSeen, hlt, hrank⟩ :=
      h.covered (.of old) holdReply holdUnseen hbelow
    obtain ⟨next, hnext, hnextReply, rfl⟩ := mem_replies.mp hlater
    obtain ⟨j, hj⟩ := mem_iff_getElem?.mp hnext
    exact ⟨_, mem_replies.mpr ⟨_, hloaded hj, hnextReply, rfl⟩, hseen hj hlaterSeen, hlt, hrank⟩

/-! ### Reads -/

section Reads

variable (bytes : Wire → Nat)

lemma plan_received (hnumbered : ∀ message ∈ s.saved, message.ordinal.isSome) :
    ∃ top, (s.plan bytes).content.received =
      (boundedReportMessages bytes s.candidates top).messages ∧
      (s.plan bytes).pending = if (s.plan bytes).content.received = [] then none else
        some ⟨s.nextReceipt, (((s.plan bytes).content.received).filterMap
          (·.message.ordinal)).max?.getD s.row.delivered⟩ := by
  have hsaved : ∀ message ∈ (s.saved.map whole).map observed, message.ordinal.isSome := by
    intro message hmem
    obtain ⟨wire, hwire, rfl⟩ := mem_map.mp hmem
    obtain ⟨saved, hin, rfl⟩ := mem_map.mp hwire
    exact hnumbered saved hin
  obtain ⟨top, hselect⟩ := select_saved hsaved s.row.delivered s.firstRead
  have hselection : (if s.noReportFound then
      selectUnreadWithoutReport ((s.saved.map whole).map observed) s.row.delivered false
      else selectUnread ((s.saved.map whole).map observed) s.row.delivered false) =
      if s.chosen = [] then .unchanged else .unread s.chosen top := by
    rw [← chosen] at hselect
    rw [← hselect, firstRead]
    cases s.noReportFound <;> rfl
  have hplan : s.plan bytes = planSelection bytes (s.saved.map whole) s.noReportFound
      s.row.delivered s.nextReceipt
        (if s.chosen = [] then .unchanged else .unread s.chosen top) := by
    rw [← hselection]
    rfl
  refine ⟨top, ?_⟩
  by_cases hnone : s.chosen = []
  · have hcandidates : s.candidates = [] := by
      rw [candidates, hnone]
      rfl
    rw [if_pos hnone] at hplan
    rw [hplan, hcandidates]
    exact ⟨rfl, rfl⟩
  · rw [if_neg hnone] at hplan
    cases hmessages : (boundedReportMessages bytes s.candidates top).messages with
    | nil =>
      have hempty : s.plan bytes =
          ⟨if s.row.delivered < top then .nothingFits else .unchanged, none⟩ := by
        rw [hplan, planSelection, ← candidates, hmessages]
        rfl
      rw [hempty]
      split <;> exact ⟨rfl, rfl⟩
    | cons first rest =>
      rw [planSelection, ← candidates, if_neg (by simp [hmessages])] at hplan
      rw [hplan]
      refine ⟨hmessages, ?_⟩
      rw [if_neg (by simp [ReportContent.received, hmessages])]
      rfl

/-! ### What a read reaches -/

def unread (s : Supervision) : List Message :=
  s.saved.filter fun message => s.row.delivered < message.ordinal.getD 0

omit bytes in
lemma isSubstantiveAssistant_whole (message : Message) :
    isSubstantiveAssistant (.whole message) = isSubstantiveReply message := by
  simp [isSubstantiveAssistant, isSubstantiveReply, isBlank, whole, Bool.and_right_comm]

omit bytes in
lemma unreadOf_whole : unreadOf observed s.row.delivered (s.saved.map whole) =
    s.unread.map whole := by
  rw [unreadOf, filter_map]
  rfl

omit bytes in
lemma reportOf_whole (messages : List Message) : reportOf observed (messages.map whole) =
      ((transcriptReportIndex isSubstantiveReply messages).bind (messages[·]?)).map whole := by
  have hindex : reportIndex (fun wire : Wire => (observed wire).substantiveAssistant)
      (fun wire => (observed wire).origin) (messages.map whole) =
      transcriptReportIndex isSubstantiveReply messages := by
    rw [transcriptReportIndex_eq, reportIndex, latestBest_map, reportIndex]
    congr 1
    funext message
    exact isSubstantiveAssistant_whole message
  rw [reportOf, hindex]
  cases transcriptReportIndex isSubstantiveReply messages with
  | none => rfl
  | some i => exact List.getElem?_map

omit bytes in
lemma candidates_eq : s.candidates =
    if s.row.delivered = 0 ∧ s.firstRead = .report then
      (reportOf observed (s.unread.map whole)).toList
    else s.unread.map whole := by
  rw [candidates, chosen, gather_chosenIndices, unreadOf_whole]

omit bytes in
lemma mem_candidates {wire : Wire} (h : wire ∈ s.candidates) :
    ∃ message ∈ s.unread, wire = .whole message := by
  rw [candidates_eq] at h
  split at h
  · rw [Option.mem_toList, reportOf_whole] at h
    obtain ⟨message, hmessage, rfl⟩ := Option.map_eq_some_iff.mp h
    obtain ⟨i, -, hi⟩ := Option.bind_eq_some_iff.mp hmessage
    exact ⟨message, mem_of_getElem? hi, rfl⟩
  · obtain ⟨message, hmem, rfl⟩ := mem_map.mp h
    exact ⟨message, hmem, rfl⟩

omit bytes in
lemma candidates_whole : ∀ wire ∈ s.candidates, wire.truncated = false := by
  intro wire hmem
  obtain ⟨message, -, rfl⟩ := mem_candidates hmem
  rfl

variable {bytes} {message : Message}

lemma hasText_of_reply (h : isSubstantiveReply message = true) :
    hasText (.whole message) = true := by
  rw [← isSubstantiveAssistant_whole] at h
  simp only [isSubstantiveAssistant, Bool.and_eq_true] at h
  simp [hasText, isSubstantiveAssistant, stripUnboundedPayloads, h.1.1, h.1.2]

lemma lastText_received {candidates : List Wire} (hlegible : Legible bytes candidates)
    (hwhole : ∀ wire ∈ candidates, wire.truncated = false) (hlast : LastTextReports candidates)
    {text : Wire} (hmem : text ∈ candidates) (htext : hasText text = true) (top : Nat) :
    ∃ before last behind, candidates = before ++ last :: behind ∧ hasText last = true ∧
      last.toolCalls = [] ∧ (∀ wire ∈ behind, hasText wire = false) ∧
      (∀ other ∈ before, hasText other = true → other.rank ≤ last.rank) ∧
      ∃ wire ∈ (boundedReportMessages bytes candidates top).messages,
        wire.message = last.message := by
  obtain ⟨i, hi⟩ : ∃ i, rposition hasText candidates = some i := by
    rw [← Option.ne_none_iff_exists', ne_eq, rposition_eq_none_iff]
    obtain ⟨k, hk⟩ := mem_iff_getElem?.mp hmem
    exact fun hnone => hnone k ⟨text, hk, htext⟩
  obtain ⟨before, last, behind, rfl, rfl, hholds, hbehind⟩ :=
    lastAt_iff_split.mp (rposition_eq_some_iff.mp hi)
  obtain ⟨hcalls, hbefore⟩ := hlast before last behind rfl hholds hbehind
  have hfinal : finalIndex (before ++ last :: behind) = some before.length := by
    unfold finalIndex reportPosition reportIndex
    rw [latestBest_map, latestBest_eq_some_iff]
    refine ⟨before, last, behind, rfl, rfl, hholds, hbefore, ?_⟩
    intro wire hwire hwireText
    cases (hbehind wire hwire).symm.trans hwireText
  exact ⟨before, last, behind, rfl, hholds, hcalls, hbehind, hbefore,
    boundedReport_final hlegible hwhole hfinal (by simp)⟩

lemma single_received (hreply : isSubstantiveReply message = true)
    (hlegible : Legible bytes [whole message]) (top : Nat) :
    ∃ wire ∈ (boundedReportMessages bytes [whole message] top).messages,
      wire.message = message := by
  have hfinal : finalIndex [whole message] = some 0 := by
    unfold finalIndex reportPosition reportIndex
    rw [latestBest_map, latestBest_eq_some_iff]
    exact ⟨[], .whole message, [], rfl, rfl, hasText_of_reply hreply,
      forall_mem_nil _, forall_mem_nil _⟩
  exact boundedReport_final hlegible (by simp [whole]) hfinal rfl

lemma Sound.number_lt (h : s.Sound) {before behind : List Message}
    (hsplit : (before ++ message :: behind).Sublist s.saved)
    (hmessage : isSubstantiveReply message = true) :
    (∀ other ∈ before, isSubstantiveReply other = true → (of other).number < (of message).number) ∧
      ∀ other ∈ behind, isSubstantiveReply other = true →
        (of message).number < (of other).number := by
  have hreplies : (replies before ++ of message :: replies behind).Sublist (replies s.saved) := by
    rw [← replies_cons_of_reply hmessage, ← replies_append]
    exact (hsplit.filter _).map _
  obtain ⟨-, hbehind, hbefore⟩ := pairwise_append.mp (h.rising.sublist hreplies)
  constructor
  · intro other hother hreply
    exact hbefore _ (mem_replies.mpr ⟨other, hother, hreply, rfl⟩) _ mem_cons_self
  · intro other hother hreply
    exact (pairwise_cons.mp hbehind).1 _ (mem_replies.mpr ⟨other, hother, hreply, rfl⟩)

/-- What a read receives for an unread reply: the reply, a later one that ranks as high,
or a better one, with nothing acknowledged up to the reply. -/
def ReceivedFor (received : List Wire) (message wire : Message) : Prop :=
  wire = message ∨ (of message).number < (of wire).number ∧ (of message).rank ≤ (of wire).rank ∨
    (of message).rank < (of wire).rank ∧
      ∀ other ∈ received, other.message.ordinal.getD 0 < (of message).number

/-- A read that receives `received` answers for the unread reply `message`. -/
def Answers (s : Supervision) (received : List Wire) (message : Message) : Prop :=
  ∃ wire ∈ received, wire.message ∈ s.saved ∧ isSubstantiveReply wire.message = true ∧
    ReceivedFor received message wire.message

lemma reply_of_hasText (h : hasText (.whole message) = true)
    (hcalls : message.toolCalls = []) : isSubstantiveReply message = true := by
  rw [← isSubstantiveAssistant_whole]
  have hstrip : stripUnboundedPayloads (.whole message) = .whole message := by
    simp [stripUnboundedPayloads, whole, hcalls]
  rw [hasText, hstrip] at h
  exact h

lemma Sound.first_received (h : s.Sound)
    (hfirst : s.row.delivered = 0 ∧ s.firstRead = .report) (hlegible : Legible bytes s.candidates)
    (hmem : message ∈ s.unread) (hreply : isSubstantiveReply message = true)
    (top : Nat) : s.Answers (boundedReportMessages bytes s.candidates top).messages message := by
  obtain ⟨i, hi⟩ : ∃ i, latestBest isSubstantiveReply (·.turnOrigin.reportRank)
      s.unread = some i := by
    rw [← Option.ne_none_iff_exists', ne_eq, latestBest_eq_none_iff]
    exact fun hnone => absurd ((hnone message hmem).symm.trans hreply) Bool.false_ne_true
  obtain ⟨before, report, behind, hsplit, rfl, hbest⟩ := latestBest_eq_some_iff.mp hi
  have hreport : (transcriptReportIndex isSubstantiveReply s.unread).bind (s.unread[·]?) =
      some report := by
    rw [transcriptReportIndex_eq, reportIndex, hi, hsplit]
    simp
  have hcandidates : s.candidates = [.whole report] := by
    rw [candidates_eq, if_pos hfirst, reportOf_whole, hreport]
    rfl
  rw [hcandidates] at hlegible ⊢
  obtain ⟨wire, hwire, hsame⟩ := single_received hbest.holds hlegible top
  have hsublist : (before ++ report :: behind).Sublist s.saved := hsplit ▸ filter_sublist
  have hnumbers := h.number_lt hsublist hbest.holds
  have hsaved : report ∈ s.saved := hsublist.subset (by simp)
  refine ⟨wire, hwire, hsame.symm ▸ hsaved, hsame.symm ▸ hbest.holds, ?_⟩
  rw [hsame]
  rw [hsplit] at hmem
  rcases mem_append.mp hmem with hbefore | hrest
  · exact .inr (.inl ⟨hnumbers.1 message hbefore hreply, hbest.before message hbefore hreply⟩)
  rcases mem_cons.mp hrest with rfl | hbehind
  · exact .inl rfl
  refine .inr (.inr ⟨hbest.behind message hbehind hreply, ?_⟩)
  intro other hother
  obtain ⟨source, hsource, hmessage⟩ := boundedReport_sources hother
  rw [hmessage, mem_singleton.mp hsource]
  exact hnumbers.2 message hbehind hreply

lemma Sound.later_received (h : s.Sound)
    (hlater : ¬ (s.row.delivered = 0 ∧ s.firstRead = .report))
    (hlegible : Legible bytes s.candidates)
    (hfits : allFit bytes s.candidates = true ∨ LastTextReports s.candidates)
    (hmem : message ∈ s.unread) (hreply : isSubstantiveReply message = true)
    (top : Nat) : s.Answers (boundedReportMessages bytes s.candidates top).messages message := by
  have hcandidates : s.candidates = s.unread.map whole := by
    rw [candidates_eq, if_neg hlater]
  have hsaved : ∀ other ∈ s.unread, other ∈ s.saved := fun other hother => mem_of_mem_filter hother
  have hcandidate : whole message ∈ s.candidates := hcandidates ▸ mem_map_of_mem hmem
  rcases hfits with hall | hlast
  · have hmessages := boundedReport_allFit top hall hlegible candidates_whole
    have hin := mem_map_of_mem (f := (·.message)) hcandidate
    rw [← hmessages] at hin
    obtain ⟨wire, hwire, hsame⟩ := mem_map.mp hin
    have hsame' : wire.message = message := hsame
    exact ⟨wire, hwire, hsame'.symm ▸ hsaved message hmem, hsame'.symm ▸ hreply, .inl hsame'⟩
  · obtain ⟨before, last, behind, hsplit, htext, hcalls, hbehind, hbefore, wire, hwire, hsame⟩ :=
      lastText_received hlegible candidates_whole hlast hcandidate (hasText_of_reply hreply) top
    obtain ⟨before', rest, hunread, rfl, hrest⟩ :=
      map_eq_append_iff.mp (hcandidates.symm.trans hsplit)
    obtain ⟨last', behind', rfl, rfl, rfl⟩ := map_eq_cons_iff.mp hrest
    have hlastReply := reply_of_hasText htext hcalls
    have hsublist : (before' ++ last' :: behind').Sublist s.saved := hunread ▸ filter_sublist
    refine ⟨wire, hwire, hsame.symm ▸ hsublist.subset (by simp [whole]),
      hsame.symm ▸ hlastReply, ?_⟩
    rw [hsame]
    rw [hunread] at hmem
    rcases mem_append.mp hmem with hin | hin
    · exact .inr (.inl ⟨(h.number_lt hsublist hlastReply).1 message hin hreply,
        hbefore _ (mem_map_of_mem hin) (hasText_of_reply hreply)⟩)
    rcases mem_cons.mp hin with rfl | hin
    · exact .inl rfl
    · have hnot := hbehind _ (mem_map_of_mem hin)
      cases hnot.symm.trans (hasText_of_reply hreply)

lemma Sound.received (h : s.Sound) {delivered : Bool}
    (hregular : (SupervisionStep.read delivered).Regular bytes s)
    (hmem : message ∈ s.saved) (hreply : isSubstantiveReply message = true)
    (hunread : s.row.delivered < (of message).number) :
    s.Answers (s.plan bytes).content.received message := by
  obtain ⟨top, hreceived, -⟩ := plan_received bytes h.numbered
  have hin : message ∈ s.unread := mem_filter.mpr ⟨hmem, decide_eq_true hunread⟩
  rw [hreceived]
  by_cases hfirst : s.row.delivered = 0 ∧ s.firstRead = .report
  · exact h.first_received hfirst hregular.1 hin hreply top
  · exact h.later_received hfirst hregular.1 hregular.2 hin hreply top

lemma received_saved (hnumbered : ∀ message ∈ s.saved, message.ordinal.isSome) {wire : Wire}
    (h : wire ∈ (s.plan bytes).content.received) : wire.message ∈ s.saved := by
  obtain ⟨top, hreceived, -⟩ := plan_received bytes hnumbered
  rw [hreceived] at h
  obtain ⟨source, hsource, hmessage⟩ := boundedReport_sources h
  obtain ⟨message, hmem, rfl⟩ := mem_candidates hsource
  rw [hmessage]
  exact mem_of_mem_filter hmem

variable (bytes) in
lemma read_row (h : s.Sound) :
    (s.read bytes true).row = s.row ∧ (s.plan bytes).content.received = [] ∨
      ∃ top, (s.read bytes true).row =
        ⟨some (max s.row.delivered top), s.row.pendingMessageReports⟩ ∧
        (top = s.row.delivered ∨
          ∃ wire ∈ (s.plan bytes).content.received, wire.message.ordinal = some top) := by
  obtain ⟨top, -, hpending⟩ := plan_received bytes h.numbered
  by_cases hnone : (s.plan bytes).content.received = []
  · rw [if_pos hnone] at hpending
    left
    refine ⟨?_, hnone⟩
    show (s.row.pend (s.plan bytes).pending).acknowledge ((s.plan bytes).pending.map (·.receipt))
      = s.row
    rw [hpending]
    simp [Row.acknowledge, Row.acknowledgedReportIndex, Row.pend]
  · rw [if_neg hnone] at hpending
    right
    refine ⟨((s.plan bytes).content.received.filterMap
      (·.message.ordinal)).max?.getD s.row.delivered,
      ?_, ?_⟩
    · show (s.row.pend (s.plan bytes).pending).acknowledge
        ((s.plan bytes).pending.map (·.receipt)) = _
      rw [hpending]
      exact Row.acknowledge_pend h.receipts
    cases hmax : ((s.plan bytes).content.received.filterMap (·.message.ordinal)).max? with
    | none => exact .inl rfl
    | some top => exact .inr (mem_filterMap.mp (max?_eq_some_iff.mp hmax).1)

lemma Sound.lost (h : s.Sound) : (s.read bytes false).Sound := by
  refine { h with receipts := fun pending hmem => ?_ }
  rcases mem_append.mp hmem with hold | hnew
  · exact Nat.lt_succ_of_lt (h.receipts pending hold)
  obtain ⟨top, -, hpending⟩ := plan_received bytes h.numbered
  rw [Option.mem_toList, hpending] at hnew
  split at hnew
  · cases hnew
  · cases hnew
    exact Nat.lt_succ_self _

lemma Sound.delivered (h : s.Sound)
    (hregular : (SupervisionStep.read true).Regular bytes s) : (s.read bytes true).Sound := by
  have hseen : (s.read bytes true).seen =
      s.seen ++ (s.plan bytes).content.received.map (·.message.id) := rfl
  have hreceipts : ∀ pending ∈ s.row.pendingMessageReports, pending.receipt < s.nextReceipt + 1 :=
    fun pending hmem => Nat.lt_succ_of_lt (h.receipts pending hmem)
  rcases read_row bytes h with ⟨hrow, hnone⟩ | ⟨top, hrow, htop⟩
  · rw [hnone, map_nil, append_nil] at hseen
    exact { h with
      reached := hrow.symm ▸ h.reached
      covered := hrow.symm ▸ hseen.symm ▸ h.covered
      receipts := hrow.symm ▸ hreceipts }
  · have hdelivered : (s.read bytes true).row.delivered = max s.row.delivered top := by
      rw [hrow]
      rfl
    refine { h with reached := ?_, covered := ?_, receipts := hrow.symm ▸ hreceipts }
    · rw [hdelivered]
      refine Nat.max_le.mpr ⟨h.reached, ?_⟩
      rcases htop with rfl | ⟨wire, hwire, hordinal⟩
      · exact h.reached
      · exact le_lastOrdinal (received_saved h.numbered hwire) hordinal
    · rw [hdelivered, hseen]
      intro reply hmem hunseen hbelow
      rw [mem_append, not_or] at hunseen
      by_cases hold : reply.number ≤ s.row.delivered
      · obtain ⟨later, hlater, hlaterSeen, hlt, hrank⟩ := h.covered reply hmem hunseen.1 hold
        exact ⟨later, hlater, mem_append_left _ hlaterSeen, hlt, hrank⟩
      obtain ⟨message, hmessage, hreply, rfl⟩ := mem_replies.mp hmem
      obtain ⟨wire, hwire, hsaved, hwireReply, hfor⟩ :=
        h.received hregular hmessage hreply (Nat.lt_of_not_le hold)
      have hwireSeen : wire.message.id ∈
          s.seen ++ (s.plan bytes).content.received.map (·.message.id) :=
        mem_append_right _ (mem_map_of_mem (f := (·.message.id)) hwire)
      rcases hfor with rfl | ⟨hlt, hrank⟩ | ⟨-, hall⟩
      · exact absurd (mem_map_of_mem (f := (·.message.id)) hwire) hunseen.2
      · exact ⟨_, mem_replies.mpr ⟨_, hsaved, hwireReply, rfl⟩, hwireSeen, hlt, hrank⟩
      -- Nothing was acknowledged as far as the reply.
      have hreached := (le_max_iff.mp hbelow).resolve_left hold
      rcases htop with rfl | ⟨other, hother, hordinal⟩
      · exact absurd hreached hold
      · have hlt := hall other hother
        rw [hordinal] at hlt
        exact absurd hreached (Nat.not_le.mpr hlt)

end Reads

/-! ## Whole lives -/

/-- The child's answer: the latest best reply of its transcript. -/
def report (s : Supervision) : Option Message :=
  (transcriptReportIndex isSubstantiveReply s.saved).bind (s.saved[·]?)

structure Started (s : Supervision) : Prop where
  live : s.live = []
  saved : s.saved = []
  row : s.row = ⟨none, []⟩

variable {bytes : Wire → Nat}

lemma Started.sound (h : s.Started) : s.Sound := by
  obtain ⟨live, saved, nextId, row, nextReceipt, seen⟩ := s
  obtain ⟨rfl, rfl, rfl⟩ := h
  exact ⟨forall_mem_nil _, .nil, forall_mem_nil _, forall_mem_nil _,
    ⟨[], [], [], rfl, rfl, forall_mem_nil _⟩, Nat.le_refl _, Nat.zero_le _,
    forall_mem_nil _, forall_mem_nil _⟩

lemma Sound.step [PlainWhitespace] (h : s.Sound) (input : SupervisionStep)
    (hregular : input.Regular bytes s) : (s.step bytes input).2.Sound := by
  cases input with
  | append messages => exact h.append hregular
  | cut request => exact h.cut request
  | save => exact h.save hregular
  | rewind target legacyIndexWindow => exact h.rewind target legacyIndexWindow bytes hregular
  | reload => exact h.reload
  | read delivered =>
    cases delivered with
    | true => exact h.delivered hregular
    | false => exact h.lost

/-- A read receives the report unless it was seen: what is covered is covered by a later
reply as good, and there is none as good as the report. -/
lemma Sound.report_received (h : s.Sound) {delivered : Bool}
    (hregular : (SupervisionStep.read delivered).Regular bytes s) {report : Message}
    (hreport : s.report = some report) (hunseen : report.id ∉ s.seen) :
    ∃ wire ∈ (s.plan bytes).content.received, wire.message = report := by
  obtain ⟨i, hi, hat⟩ := Option.bind_eq_some_iff.mp hreport
  obtain ⟨before, other, behind, hsplit, rfl, hbest⟩ := latestBest_eq_some_iff.mp hi
  obtain rfl : other = report := by
    rw [hsplit] at hat
    simpa using hat
  have hmem : other ∈ s.saved := by simp [hsplit]
  have hsublist : (before ++ other :: behind).Sublist s.saved := hsplit ▸ List.Sublist.refl s.saved
  have hnumbers := h.number_lt hsublist hbest.holds
  -- Nothing in the transcript is better, or both later and as good.
  have hbetter : ∀ later ∈ s.saved, isSubstantiveReply later = true →
      (of later).rank ≤ (of other).rank ∧ ((of other).number < (of later).number →
          (of later).rank < (of other).rank) := by
    intro later hin hreply
    rw [hsplit] at hin
    rcases mem_append.mp hin with hbefore | hrest
    · exact ⟨hbest.before later hbefore hreply, fun hlt =>
        absurd (hnumbers.1 later hbefore hreply) (Nat.lt_asymm hlt)⟩
    rcases mem_cons.mp hrest with rfl | hbehind
    · exact ⟨Nat.le_refl _, fun hlt => absurd hlt (Nat.lt_irrefl _)⟩
    · have hlt := hbest.behind later hbehind hreply
      exact ⟨Nat.le_of_lt hlt, fun _ => hlt⟩
  have hunread : s.row.delivered < (of other).number := by
    by_contra hread
    obtain ⟨later, hin, -, hlt, hrank⟩ := h.covered (.of other)
      (mem_replies.mpr ⟨other, hmem, hbest.holds, rfl⟩) hunseen (Nat.le_of_not_lt hread)
    obtain ⟨message, hmessage, hreply, rfl⟩ := mem_replies.mp hin
    exact absurd ((hbetter message hmessage hreply).2 hlt) (Nat.not_lt.mpr hrank)
  obtain ⟨wire, hwire, hsaved, hreply, hfor⟩ := h.received hregular hmem hbest.holds hunread
  rcases hfor with hsame | ⟨hlt, hrank⟩ | ⟨hrank, -⟩
  · exact ⟨wire, hwire, hsame⟩
  · exact absurd ((hbetter _ hsaved hreply).2 hlt) (Nat.not_lt.mpr hrank)
  · exact absurd hrank (Nat.not_lt.mpr (hbetter _ hsaved hreply).1)

end Supervision

/-- Along every life of regular steps, a default read delivers the child's report when no
delivered read contained it, and a read that is lost leaves the watermark where it was. -/
theorem new_answers_are_delivered [PlainWhitespace] (bytes : Wire → Nat) (s : Supervision)
    (hstarted : s.Started) (steps : List SupervisionStep)
    (hregular : ∀ m ∈ moments (Supervision.step bytes) s steps, m.input.Regular bytes m.before) :
    ∀ m ∈ moments (Supervision.step bytes) s steps, ∀ delivered, m.input = .read delivered →
      (∀ report, m.before.report = some report → report.id ∉ m.before.seen →
        ∃ content, m.output = some content ∧ ∃ wire ∈ content.received, wire.message = report) ∧
      (delivered = false → m.after.row.delivered = m.before.row.delivered) := by
  refine moments_forall_of_allowed (I := Supervision.Sound)
    (fun _ input h hallowed => h.step input hallowed) ?_ hstarted.sound hregular
  rintro before _ hsound hallowed delivered rfl
  refine ⟨?_, ?_⟩
  · intro report hreport hunseen
    exact ⟨_, rfl, hsound.report_received hallowed hreport hunseen⟩
  · rintro rfl
    rfl

end Sound

/-! ## Two lives -/

section

local instance spaceOnly : Whitespace where
  isWhitespace c := c == ' '

local instance spaceOnly_plain : PlainWhitespace where
  bracket := rfl
  paren := rfl

def sampleBytes (_ : Wire) : Nat := 100

def sampleChild : Supervision where
  live := []
  saved := []
  nextId := 0
  row := ⟨none, []⟩
  nextReceipt := 0
  seen := []

def sampleTurn (task answer : String) : SupervisionStep :=
  .append [.user 0 task, .assistant 0 answer []]

def sampleCut : CutRequest where
  tokens _ := 30
  toolTokens := 0
  stubTokens := 5
  trigger :=
    { marks := { high := 99, low := 90, word := by decide, lowPositive := by decide
                 lowBelowHigh := by decide, gap := by decide }
      ceiling := 1000
      afterLastCut := none }
  indexId := none

/-- One answer is read, the next is rewound away, and a cut archives the one that was read. -/
def sampleLife : List SupervisionStep :=
  [sampleTurn "task" "first", .save, .read true, sampleTurn "again" "second", .save,
    .rewind (.legacyIndex 2) 50, sampleTurn "once more" "third", .cut sampleCut, .save]

def sampleRead : Moment Supervision SupervisionStep (Option ReportContent) :=
  momentAt (Supervision.step sampleBytes)
    (exec (Supervision.step sampleBytes) sampleChild sampleLife) (.read true)

def sampleAnswer : Message := { assistant 7 "third" [] with ordinal := some 4 }

lemma sampleTurn_regular (task answer : String) (s : Supervision) :
    (sampleTurn task answer).Regular sampleBytes s := by
  show ∀ message ∈ [user 0 task, assistant 0 answer []], _
  simp [user, assistant, plain]

lemma read_regular {s : Supervision} (h : allFit sampleBytes s.candidates = true) :
    (SupervisionStep.read true).Regular sampleBytes s :=
  ⟨legible_of_small (fun _ => by simp [reportEnvelopeSize, sampleBytes, finalReportBudgetBytes])
    Supervision.candidates_whole, .inl h⟩

/-- The first answer, which was delivered, is archived; the third one is delivered. -/
theorem new_answers_are_delivered_sample :
    sampleRead.before.live.map (·.id) = [0, 6, 8, 7] ∧ sampleRead.before.seen = [1] ∧
      sampleRead.before.report = some sampleAnswer ∧
      ∃ content, sampleRead.output = some content ∧
        ∃ wire ∈ content.received, wire.message = sampleAnswer := by
  have hreport : sampleRead.before.report = some sampleAnswer := by decide +kernel
  have hmem : sampleRead ∈ moments (Supervision.step sampleBytes) sampleChild
      (sampleLife ++ [.read true]) := by
    rw [moments_append]
    exact mem_append_right _ mem_cons_self
  refine ⟨by decide +kernel, by decide +kernel, hreport,
    (new_answers_are_delivered sampleBytes sampleChild ⟨rfl, rfl, rfl⟩ _ ?_ sampleRead hmem true
      rfl).1 sampleAnswer hreport (by decide +kernel)⟩
  simp only [sampleLife, cons_append, nil_append, moments_cons, moments_nil, forall_mem_cons]
  refine ⟨sampleTurn_regular _ _ _, ?_, read_regular (by decide +kernel),
    sampleTurn_regular _ _ _, ?_, ?_, sampleTurn_regular _ _ _, trivial, ?_,
    read_regular (by decide +kernel), nofun⟩
  · show lastOrdinal _ + 1 + unsavedCount _ ≤ u64Max
    decide +kernel
  · show lastOrdinal _ + 1 + unsavedCount _ ≤ u64Max
    decide +kernel
  · rintro index ⟨⟩
    decide +kernel
  · show lastOrdinal _ + 1 + unsavedCount _ ≤ u64Max
    decide +kernel

/-- After a rewind the ordinals start again below the watermark: the answer that follows is
numbered as the one that was delivered, and the read of it answers that nothing changed. -/
theorem answer_after_rewind_is_hidden :
    let child := exec (Supervision.step sampleBytes) sampleChild
      [sampleTurn "task" "first", .save, .read true, .rewind (.legacyIndex 0) 50,
        sampleTurn "again" "second", .save]
    child.report.map (·.content) = some "second" ∧
      (∀ report, child.report = some report → report.id ∉ child.seen) ∧
      (child.step sampleBytes (.read true)).1 = some .unchanged := by
  decide +kernel

end

end Quecto.Agents
