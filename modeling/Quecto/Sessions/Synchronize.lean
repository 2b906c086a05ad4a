/-
  Sessions/Synchronize.lean --- bringing a client's transcript up to date.

  Source: `application/sessions/use_cases/synchronize_transcript.rs` and `dto/sync.rs`.
-/
import Quecto.Sessions.Accounting

namespace Quecto.Sessions

open Foundation List Ledgered

structure SyncRequest where
  epoch : Nat
  sinceRev : Nat
  resetWindow : Nat

structure TranscriptReset where
  epoch : Nat
  rev : Nat
  page : HistoryPage

structure TranscriptDelta where
  epoch : Nat
  rev : Nat
  messages : List Message
  nextRev : Option Nat

inductive TranscriptSync where
  | reset (reset : TranscriptReset)
  | delta (delta : TranscriptDelta)

abbrev Frame := List Message → Message → Bool

namespace ConversationLedger

/-- Whether the client must start over: another epoch, a revision below the oldest of
the frontier, or a listed message that no longer resolves. -/
def needsReset (state : ConversationLedger) (request : SyncRequest) : Bool :=
  request.epoch != state.epoch ||
    state.frontier.head?.any (fun oldest => decide (request.sinceRev < oldest.1)) ||
    state.frontier.any fun commit => (state.lookup commit.2).isNone

def resolved (state : ConversationLedger) (commit : Commit) : Option (Nat × Message) :=
  (state.lookup commit.2).map fun message => (commit.1, message)

def pending (state : ConversationLedger) (sinceRev : Nat) : List (Nat × Message) :=
  (state.frontier.filter fun commit => decide (sinceRev < commit.1)).filterMap state.resolved

end ConversationLedger

/-- Messages offered to a frame that carries `taken`: what it carries in the end, and
the revision of the first it refused. -/
def carried (frame : Frame) : List Message → List (Nat × Message) → List Message × Option Nat
  | taken, [] => (taken, none)
  | taken, (rev, message) :: rest =>
    if frame taken message then carried frame (taken ++ [message]) rest else (taken, some rev)

def reconcile [Whitespace] (state : ConversationLedger) (request : SyncRequest) (frame : Frame) :
    TranscriptSync :=
  if state.needsReset request then
    .reset
      { epoch := state.epoch
        rev := state.rev
        page := newestWindow state.messages "" request.resetWindow }
  else
    let answer := carried frame [] (state.pending request.sinceRev)
    .delta
      { epoch := state.epoch
        rev := state.rev
        messages := answer.1
        nextRev := answer.2 }

/-- A client that asks again from the revision each cut named, until nothing is cut:
what it receives in at most `fuel` requests, unless it is told to start over.  The
frame of its `n`-th request is `frames n`. -/
def follow [Whitespace] (state : ConversationLedger) (frames : Nat → Frame) (resetWindow : Nat) :
    Nat → Nat → Nat → Option (List Message)
  | 0, _, _ => none
  | fuel + 1, n, sinceRev =>
    match reconcile state ⟨state.epoch, sinceRev, resetWindow⟩ (frames n) with
    | .reset _ => none
    | .delta delta =>
      match delta.nextRev with
      | none => some delta.messages
      | some nextRev =>
        (follow state frames resetWindow fuel (n + 1) nextRev).map (delta.messages ++ ·)

/-! ## What a frame carries -/

def CarriesAll (frame : Frame) (taken messages : List Message) : Prop :=
  ∀ before message after, messages = before ++ message :: after →
    frame (taken ++ before) message = true

lemma carriesAll_cons {frame : Frame} {taken : List Message} {message : Message}
    {rest : List Message} : CarriesAll frame taken (message :: rest) ↔
      frame taken message = true ∧ CarriesAll frame (taken ++ [message]) rest := by
  constructor
  · intro h
    refine ⟨by simpa using h [] message rest rfl, fun before later after hrest => ?_⟩
    have := h (message :: before) later after (by rw [hrest, cons_append])
    rwa [append_assoc]
  rintro ⟨hfirst, hrest⟩ before later after heq
  cases before with
  | nil =>
    obtain ⟨rfl, rfl⟩ := List.cons.inj heq
    simpa using hfirst
  | cons first before =>
    obtain ⟨rfl, hlater⟩ := List.cons.inj heq
    have := hrest before later after hlater
    rwa [append_assoc] at this

lemma carried_spec (frame : Frame) (taken : List Message) (offered : List (Nat × Message)) :
    ∃ count, carried frame taken offered =
        (taken ++ (offered.take count).map (·.2), (offered[count]?).map (·.1)) ∧
      count ≤ offered.length ∧
      (count = offered.length ↔ CarriesAll frame taken (offered.map (·.2))) := by
  induction offered generalizing taken with
  | nil =>
    refine ⟨0, by simp [carried], Nat.le_refl 0, iff_of_true rfl fun before message after h => ?_⟩
    exact absurd h (by simp)
  | cons first rest ih =>
    obtain ⟨rev, message⟩ := first
    rw [carried]
    split
    · rename_i htaken
      obtain ⟨count, hcarried, hle, hall⟩ := ih (taken ++ [message])
      refine ⟨count + 1, ?_, Nat.succ_le_succ hle, ?_⟩
      · rw [hcarried]
        simp
      · rw [length_cons, Nat.add_right_cancel_iff, hall, map_cons, carriesAll_cons]
        exact ⟨fun h => ⟨htaken, h⟩, fun h => h.2⟩
    · rename_i hrefused
      refine ⟨0, by simp, Nat.zero_le _, iff_of_false (by simp) fun h => hrefused ?_⟩
      exact (carriesAll_cons.mp h).1

/-! ## The messages above a revision -/

lemma filter_lt_getElem {α : Type} {key : α → Nat} {xs : List α}
    (h : (xs.map key).Pairwise (· < ·)) {k : Nat} {x : α} (hk : xs[k]? = some x) :
    xs.filter (fun y => decide (key x < key y)) = xs.drop (k + 1) := by
  induction xs generalizing k with
  | nil => cases hk
  | cons y ys ih =>
    rw [map_cons, pairwise_cons] at h
    obtain ⟨hfirst, hrest⟩ := h
    cases k with
    | zero =>
      cases Option.some.inj hk
      rw [filter_cons_of_neg (by simp), drop_succ_cons, drop_zero, filter_eq_self]
      intro z hz
      exact decide_eq_true (hfirst _ (mem_map_of_mem hz))
    | succ k =>
      have hlt : key y < key x := hfirst _ (mem_map_of_mem (mem_of_getElem? hk))
      rw [filter_cons_of_neg (by simpa using hlt.le)]
      exact ih hrest hk

namespace ConversationLedger

variable {state : ConversationLedger}

/-- What the frontier lists is retained in full. -/
def Held (state : ConversationLedger) : Prop :=
  ∀ commit ∈ state.frontier, (state.fullCopy commit.2).isSome = true

def above (sinceRev : Nat) (commits : List Commit) : List Commit :=
  commits.filter fun commit => decide (sinceRev < commit.1)

lemma lookup_of_fullCopy {id : MessageId} (h : (state.fullCopy id).isSome = true) :
    state.lookup id = state.fullCopy id := by
  rw [lookup, Option.or_of_isSome h]

/-- The messages offered to a client are the retained copies, each under its revision. -/
lemma pending_copies (h : state.Held) (sinceRev : Nat) :
    (state.pending sinceRev).map (fun entry => (entry.1, some entry.2)) =
      (above sinceRev state.frontier).map fun commit => (commit.1, state.fullCopy commit.2) := by
  have hlisted : ∀ commits : List Commit,
      (∀ commit ∈ commits, (state.fullCopy commit.2).isSome = true) →
      (commits.filterMap state.resolved).map (fun entry => (entry.1, some entry.2)) =
        commits.map fun commit => (commit.1, state.fullCopy commit.2) := by
    intro commits hcommits
    induction commits with
    | nil => rfl
    | cons commit rest ih =>
      obtain ⟨hfirst, hrest⟩ := forall_mem_cons.mp hcommits
      obtain ⟨message, hmessage⟩ := Option.isSome_iff_exists.mp hfirst
      have hsome : state.resolved commit = some (commit.1, message) := by
        rw [resolved, lookup_of_fullCopy hfirst, hmessage, Option.map_some]
      rw [filterMap_cons_some hsome, map_cons, map_cons, ih hrest, hmessage]
  exact hlisted _ fun commit hcommit => h commit (mem_of_mem_filter hcommit)

lemma pending_messages (h : state.Held) (sinceRev : Nat) :
    ((state.pending sinceRev).map (·.2)).map some =
      (above sinceRev state.frontier).map fun commit => state.fullCopy commit.2 := by
  have hcopies := congrArg (List.map Prod.snd) (pending_copies h sinceRev)
  rw [map_map, map_map] at hcopies
  exact (map_map ..).trans hcopies

lemma pending_revs (h : state.Held) (sinceRev : Nat) :
    (state.pending sinceRev).map (·.1) = (above sinceRev state.frontier).map (·.1) := by
  have hcopies := congrArg (List.map Prod.fst) (pending_copies h sinceRev)
  rwa [map_map, map_map] at hcopies

lemma pending_of_le {earlier later : Nat} (h : earlier ≤ later) : state.pending later =
      (state.pending earlier).filter fun entry => decide (later < entry.1) := by
  rw [pending, pending, filter_filterMap]
  have hresolved : ∀ commit, ((state.resolved commit).filter fun entry =>
      decide (later < entry.1)) =
      if later < commit.1 then state.resolved commit else none := by
    intro commit
    rw [resolved]
    cases state.lookup commit.2 with
    | none => simp
    | some message => simp [Option.filter]
  simp only [hresolved]
  rw [filterMap_filter, filterMap_filter]
  refine filterMap_congr fun commit _ => ?_
  by_cases hlater : later < commit.1
  · simp [hlater, h.trans_lt hlater]
  · simp [hlater]

def Sorted (state : ConversationLedger) : Prop :=
  (state.frontier.map (·.1)).Pairwise (· < ·)

lemma pending_sorted (hsorted : state.Sorted) (hheld : state.Held) (sinceRev : Nat) :
    ((state.pending sinceRev).map (·.1)).Pairwise (· < ·) := by
  rw [pending_revs hheld]
  exact hsorted.sublist (filter_sublist.map _)

lemma pending_after (hsorted : state.Sorted) (hheld : state.Held) {sinceRev k : Nat}
    {entry : Nat × Message} (hk : (state.pending sinceRev)[k]? = some entry) :
    sinceRev < entry.1 ∧ state.pending entry.1 = (state.pending sinceRev).drop (k + 1) := by
  have hlt : sinceRev < entry.1 := by
    have hmem : entry.1 ∈ (state.pending sinceRev).map (·.1) :=
      mem_map_of_mem (mem_of_getElem? hk)
    rw [pending_revs hheld] at hmem
    obtain ⟨commit, hcommit, hrev⟩ := mem_map.mp hmem
    exact hrev ▸ of_decide_eq_true (mem_filter.mp hcommit).2
  refine ⟨hlt, ?_⟩
  rw [pending_of_le hlt.le]
  exact filter_lt_getElem (pending_sorted hsorted hheld sinceRev) hk

lemma needsReset_eq_false (hheld : state.Held) {sinceRev : Nat}
    (holdest : ∀ oldest ∈ state.frontier.head?, oldest.1 ≤ sinceRev) (resetWindow : Nat) :
    state.needsReset ⟨state.epoch, sinceRev, resetWindow⟩ = false := by
  rw [needsReset, Bool.or_eq_false_iff, Bool.or_eq_false_iff]
  refine ⟨⟨by simp, ?_⟩, ?_⟩
  · cases hhead : state.frontier.head? with
    | none => rfl
    | some oldest => simpa using holdest oldest hhead
  rw [any_eq_false]
  intro commit hcommit
  have hsome := hheld commit hcommit
  rw [← lookup_of_fullCopy hsome, Option.isSome_iff_ne_none] at hsome
  simpa using hsome

end ConversationLedger

/-! ## Following a cut delta -/

section

variable [Whitespace] {state : ConversationLedger}

lemma reconcile_eq_delta {request : SyncRequest} (h : state.needsReset request = false)
    (frame : Frame) : reconcile state request frame = .delta
        { epoch := state.epoch
          rev := state.rev
          messages := (carried frame [] (state.pending request.sinceRev)).1
          nextRev := (carried frame [] (state.pending request.sinceRev)).2 } := by
  rw [reconcile, h]
  rfl

lemma follow_spec (hsorted : state.Sorted) (hheld : state.Held) (frames : Nat → Frame)
    (resetWindow n sinceRev : Nat)
    (holdest : ∀ oldest ∈ state.frontier.head?, oldest.1 ≤ sinceRev) :
    ∃ received, (∀ fuel, (state.pending sinceRev).length < fuel →
        follow state frames resetWindow fuel n sinceRev = some received) ∧
      ((CarriesAll (frames n) [] ((state.pending sinceRev).map (·.2)) ∧
          received = (state.pending sinceRev).map (·.2)) ∨
        (¬CarriesAll (frames n) [] ((state.pending sinceRev).map (·.2)) ∧
          received.length < (state.pending sinceRev).length)) := by
  induction hlen : (state.pending sinceRev).length using Nat.strong_induction_on
    generalizing n sinceRev with
  | _ len ih =>
    obtain ⟨count, hcarried, hle, hall⟩ := carried_spec (frames n) [] (state.pending sinceRev)
    have hanswer := reconcile_eq_delta
      (ConversationLedger.needsReset_eq_false hheld holdest resetWindow) (frames n)
    rw [hcarried, nil_append] at hanswer
    rcases Nat.lt_or_eq_of_le hle with hcut | hwhole
    · have hentry := List.getElem?_eq_getElem hcut
      obtain ⟨hlt, hafter⟩ := ConversationLedger.pending_after hsorted hheld hentry
      set next := (state.pending sinceRev)[count].1 with hnext
      have hrest : (state.pending next).length < len := by
        rw [hafter, length_drop]
        omega
      obtain ⟨received, hreceived, hless⟩ := ih _ hrest (n + 1) next
        (fun oldest hhead => (holdest oldest hhead).trans hlt.le) rfl
      have hreceived_le : received.length ≤ (state.pending next).length := by
        rcases hless with ⟨_, rfl⟩ | ⟨_, hless⟩
        · rw [length_map]
        · exact hless.le
      refine ⟨((state.pending sinceRev).take count).map (·.2) ++ received, fun fuel hfuel => ?_, ?_⟩
      · obtain ⟨fuel, rfl⟩ := Nat.exists_eq_succ_of_ne_zero (Nat.ne_of_gt (Nat.zero_lt_of_lt hfuel))
        rw [follow, hanswer, hentry]
        simp only [Option.map_some]
        rw [hreceived fuel (by omega), Option.map_some]
      refine .inr ⟨fun hcarries => hcut.ne (hall.mpr hcarries), ?_⟩
      rw [hafter, length_drop] at hreceived_le
      rw [length_append, length_map, length_take]
      omega
    · refine ⟨(state.pending sinceRev).map (·.2), fun fuel hfuel => ?_, .inl ⟨hall.mp hwhole, rfl⟩⟩
      obtain ⟨fuel, rfl⟩ := Nat.exists_eq_succ_of_ne_zero (Nat.ne_of_gt (Nat.zero_lt_of_lt hfuel))
      rw [follow, hanswer, hwhole, List.getElem?_length, take_length]
      rfl

/-- On a ledger that never had to evict, a client at or above the oldest listed revision that
asks again from the revision each cut names receives what was committed after its position, as
the ledger retains it, exactly when its first frame takes all of it. -/
theorem follow_complete_iff (ops : List LedgerOp) (frames : Nat → Frame)
    (resetWindow sinceRev : Nat) (hfew : offered ops ≤ u64Max)
    (hspares : neverEvicts .empty ops = true)
    (holdest : ∀ oldest ∈ (exec step .empty ops).ledger.frontier.head?, oldest.1 ≤ sinceRev) :
    let state := exec step .empty ops
    (∀ held ∈ state.ledger.ledger, ∃ op ∈ ops, held ∈ op.offered) ∧
    ∃ received, (∀ fuel, state.ledger.frontier.length < fuel →
        follow state.ledger frames resetWindow fuel 0 sinceRev = some received) ∧
      (received.map some = (state.committed.filter fun commit => decide (sinceRev < commit.1)).map
          (fun commit => state.ledger.fullCopy commit.2) ↔
        CarriesAll (frames 0) [] ((state.ledger.pending sinceRev).map (·.2))) := by
  intro state
  refine ⟨forall_exec fun op hop message hmessage => ⟨op, hop, hmessage⟩, ?_⟩
  have hrecorded : state.Recorded := recorded_exec hfew
  have hwhole : state.Whole := whole_empty.exec hspares
  have hsorted : state.ledger.Sorted := hrecorded.sorted.sublist (hrecorded.listed.map _)
  have hheld : state.ledger.Held := hwhole.copies
  have hpending := ConversationLedger.pending_messages hheld sinceRev
  rw [ConversationLedger.above, hwhole.listed] at hpending
  have hfits : (state.ledger.pending sinceRev).length ≤ state.ledger.frontier.length :=
    (length_filterMap_le _ _).trans (length_filter_le _ _)
  obtain ⟨received, hreceived, hcases⟩ :=
    follow_spec hsorted hheld frames resetWindow 0 sinceRev holdest
  refine ⟨received, fun fuel hfuel => hreceived fuel (hfits.trans_lt hfuel), ?_⟩
  rw [← hpending]
  rcases hcases with ⟨hall, rfl⟩ | ⟨hcut, hless⟩
  · exact iff_of_true rfl hall
  · refine iff_of_false (fun hsame => hless.ne ?_) hcut
    simpa using congrArg List.length hsame

end

/-! ## Gaps -/

section

def ConversationLedger.Evicted (state : ConversationLedger) (commit : Commit) : Prop :=
  commit ∉ state.frontier ∨ state.fullCopy commit.2 = none

/-- An answer that hides no gap: a reset, or a delta with nothing evicted above the client's
revision that, unless it was cut, carries all of it in commit order, as the ledger retains it. -/
def Honest (state : Ledgered) (sinceRev : Nat) : TranscriptSync → Prop
  | .reset _ => True
  | .delta delta =>
    (∀ commit ∈ state.committed, sinceRev < commit.1 → ¬state.ledger.Evicted commit) ∧
      (delta.nextRev = none → delta.messages.map some =
        (state.committed.filter fun commit => decide (sinceRev < commit.1)).map
          fun commit => state.ledger.fullCopy commit.2)

variable [Whitespace] {state : Ledgered}

open ConversationLedger

omit [Whitespace] in
/-- No commit above a client that is not told to start over has left the frontier. -/
lemma above_committed (h : state.Recorded) (hlined : state.Lined) {request : SyncRequest}
    (hreset : state.ledger.needsReset request = false) :
    above request.sinceRev state.committed = above request.sinceRev state.ledger.frontier := by
  rw [needsReset, Bool.or_eq_false_iff, Bool.or_eq_false_iff] at hreset
  cases hfrontier : state.ledger.frontier with
  | nil =>
    have hledger : state.ledger.ledger = [] := by
      have hlisted := hlined.aligned.listed
      rw [hfrontier, hlined.aligned.order] at hlisted
      exact map_eq_nil_iff.mp hlisted.symm
    rw [not_imp_not.mp hlined.nonempty hledger]
  | cons oldest rest =>
    have hsince : oldest.1 ≤ request.sinceRev := by
      have holdest := hreset.1.2
      rw [hfrontier] at holdest
      simpa using holdest
    obtain ⟨earlier, hearlier⟩ := hlined.suffix
    rw [hfrontier] at hearlier
    have hsorted := h.sorted
    rw [← hearlier, map_append, pairwise_append] at hsorted
    have hnone : above request.sinceRev earlier = [] := by
      rw [above, filter_eq_nil_iff]
      intro commit hcommit
      have := hsorted.2.2 commit.1 (mem_map_of_mem hcommit) oldest.1 (by simp)
      simp only [decide_eq_true_eq]
      omega
    rw [← hearlier, above, filter_append]
    exact (congrArg (· ++ _) hnone).trans (nil_append _)

lemma honest_of_lined (h : state.Recorded) (hlined : state.Lined) (request : SyncRequest)
    (frame : Frame) : Honest state request.sinceRev (reconcile state.ledger request frame) := by
  cases hreset : state.ledger.needsReset request with
  | true =>
    rw [reconcile, if_pos hreset]
    trivial
  | false =>
    rw [reconcile_eq_delta hreset]
    have habove := above_committed h hlined hreset
    constructor
    · intro commit hcommit hlt hevicted
      have hmem : commit ∈ above request.sinceRev state.committed :=
        mem_filter.mpr ⟨hcommit, decide_eq_true hlt⟩
      have hlisted := mem_of_mem_filter (habove ▸ hmem)
      refine hevicted.elim (fun hunlisted => hunlisted hlisted) fun hnone => ?_
      exact absurd (hlined.held commit hlisted) (by rw [hnone]; exact Bool.false_ne_true)
    · intro huncut
      obtain ⟨count, hcarried, hle, _⟩ :=
        carried_spec frame [] (state.ledger.pending request.sinceRev)
      rw [hcarried] at huncut ⊢
      have hall : (state.ledger.pending request.sinceRev).length ≤ count := by simpa using huncut
      rw [nil_append, take_of_length_le hall, pending_messages hlined.held, ← habove]
      rfl

/-- After any history of fewer messages than there are revisions in which no batch is beyond
the caps by itself, no answer hides a gap, whatever was evicted; and all that is retained was
offered. -/
theorem delta_hides_no_gap (ops : List LedgerOp) (hfew : offered ops ≤ u64Max)
    (hfits : ∀ op ∈ ops, Fits op.offered) :
    let state := exec step .empty ops
    (∀ held ∈ state.ledger.ledger, ∃ op ∈ ops, held ∈ op.offered) ∧
    ∀ sinceRev resetWindow frame, Honest state sinceRev
      (reconcile state.ledger ⟨state.ledger.epoch, sinceRev, resetWindow⟩ frame) := by
  intro state
  refine ⟨forall_exec fun op hop message hmessage => ⟨op, hop, hmessage⟩, ?_⟩
  intro sinceRev resetWindow frame
  have hrecorded : state.Recorded := recorded_exec hfew
  exact honest_of_lined hrecorded (lined_exec hfits) ⟨_, sinceRev, resetWindow⟩ frame

end

/-! ## Two clients -/

section

local instance asciiWhitespace : Whitespace where
  isWhitespace c := c == ' ' || '\t' ≤ c && c ≤ '\r'

def sampleHistory : List LedgerOp :=
  [.recordFull [.user 1 "one", .user 2 "two", .user 3 "three"]]

theorem follow_complete_sample :
    follow (exec step .empty sampleHistory).ledger (fun _ _ _ => true) 20 4 0 1 =
      some [.user 2 "two", .user 3 "three"] := by
  obtain ⟨_, received, hreceived, hiff⟩ :=
    follow_complete_iff sampleHistory (fun _ _ _ => true) 20 1
    (by decide +kernel) (by decide +kernel) (by decide +kernel)
  have hcopies := hiff.mpr fun _ _ _ _ => rfl
  rw [hreceived 4 (by decide +kernel), Option.some.injEq]
  refine map_injective_iff.mpr (Option.some_injective _) (hcopies.trans ?_)
  decide +kernel

/-- A client at revision 1 whose frames take one message each receives the second
message and never the third. -/
theorem cut_delta_loses_a_message :
    (follow (exec step .empty sampleHistory).ledger (fun _ taken _ => taken.isEmpty) 20 4 0
      1).map (·.map (·.id)) = some [2] := by
  decide +kernel

/-- Two messages of half the byte cap, each with its overhead: the second evicts the first. -/
def evictingHistory : List LedgerOp :=
  [.recordFull [.user 1 (doubled 23)], .recordFull [.user 2 (doubled 23)]]

theorem delta_hides_no_gap_sample : (∀ op ∈ evictingHistory, ConversationLedger.Fits op.offered) ∧
      ∀ sinceRev, Honest (exec step .empty evictingHistory) sinceRev
        (reconcile (exec step .empty evictingHistory).ledger
          ⟨(exec step .empty evictingHistory).ledger.epoch, sinceRev, 20⟩
          fun _ _ => true) := by
  have hfits : ∀ op ∈ evictingHistory, ConversationLedger.Fits op.offered := by
    intro op hop
    have hone : ∀ id, ConversationLedger.Fits [.user id (doubled 23)] := by
      intro id
      refine ⟨?_, Nat.le_of_ble_eq_true rfl⟩
      rw [map_singleton, sum_singleton, messageBytes_user, doubled_utf8ByteSize]
      decide
    rcases mem_pair.mp hop with rfl | rfl <;> exact hone _
  have hfew : offered evictingHistory ≤ u64Max := by decide
  have hhonest := delta_hides_no_gap evictingHistory hfew hfits
  generalize exec step .empty evictingHistory = state at hhonest ⊢
  exact ⟨hfits, fun sinceRev => hhonest.2 sinceRev 20 _⟩

def grownHistory : List LedgerOp :=
  [.recordFull [.user 1 "one"], .recordFull [.user 1 (doubled 24)]]

def beforeGrowth : ConversationLedger :=
  { ConversationLedger.empty with
    ledger := [.user 1 "one"]
    ledgerOrder := [1]
    ledgerBytes := 259
    rev := 1
    frontier := [(1, 1)] }

lemma recordFull_grown {big : Message} (hid : big.id = 1)
    (hbytes : ledgerMaxBytes < messageBytes big) :
    ConversationLedger.rememberAll true beforeGrowth [big] =
      ([], { beforeGrowth with
        ledger := [], ledgerOrder := [], ledgerBytes := 0, frontier := [] }) := by
  have hsmall : messageBytes (.user 1 "one") = 259 := rfl
  have hheld : (Message.user 1 "one").id = 1 := rfl
  simp [ConversationLedger.rememberAll, ConversationLedger.remember, ConversationLedger.insert,
    ConversationLedger.fullCopy, ConversationLedger.evict, ConversationLedger.evictFrom,
    ConversationLedger.overCap, ConversationLedger.dropOldest, beforeGrowth,
      hid, hbytes, hsmall, hheld]

/-- A client that has nothing yet is answered with an empty, uncut delta, although a
message was committed: its eviction left the frontier empty. -/
theorem grown_message_hides_gap : (exec step .empty grownHistory).committed = [(1, 1)] ∧
      ∃ delta, reconcile (exec step .empty grownHistory).ledger
          ⟨(exec step .empty grownHistory).ledger.epoch, 0, 20⟩ (fun _ _ => true) =
        .delta delta ∧ delta.nextRev = none ∧ delta.messages = [] := by
  have hbytes : ledgerMaxBytes < messageBytes (.user 1 (doubled 24)) := by
    rw [messageBytes_user, doubled_utf8ByteSize]
    decide
  have hgrown := recordFull_grown rfl hbytes
  have hfirst : (step .empty (.recordFull [.user 1 "one"])).2 =
      { ledger := beforeGrowth, committed := [(1, 1)] } := rfl
  have hlast : exec step .empty grownHistory =
      { ledger :=
          { beforeGrowth with ledger := [], ledgerOrder := [], ledgerBytes := 0, frontier := [] }
        committed := [(1, 1)] } := by
    rw [grownHistory, exec_cons, hfirst, exec_cons, step, ConversationLedger.recordFull, hgrown]
    rfl
  rw [hlast]
  exact ⟨rfl, _, rfl, rfl, rfl⟩

end

end Quecto.Sessions
