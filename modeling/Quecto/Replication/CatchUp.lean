/-
  Replication/CatchUp.lean --- a follower catches up with a primary that moves on.

  Source: `application/project_board/use_cases/replicate_board.rs` (`catch_up`) and
  `infrastructure/persistence/sqlite/project_board/replica_log.rs`.
-/
import Quecto.Foundation.Search
import Quecto.Replication.Store

namespace Quecto.Replication

open Foundation List

def batchBytes : Nat := 8 * 1024 * 1024

def rowBytes : Nat := 128

def ObjectRow.batchCost (row : ObjectRow) : Nat :=
  rowBytes + (row.original.bind id).elim 0 (·.length) +
    match row.content with
    | .blob bytes => bytes.length
    | .tree _ entries => (entries.map fun entry => rowBytes + entry.rawName.length).sum

def ReplicaRevision.batchCost (revision : ReplicaRevision) : Nat :=
  rowBytes + revision.message.utf8ByteSize + revision.gitMeta.elim 0 (·.length)

variable {board : Board}

namespace Board

def placedFrom (place : Nat) : List ObjectRow → List ReplicaObject
  | [] => []
  | row :: rest => { row with sequence := place + 1 } :: placedFrom (place + 1) rest

def objectsFrom (board : Board) (after : Nat) : List ReplicaObject × Nat :=
  takeWithin (·.batchCost) batchBytes true 0
    ((placedFrom 0 board.objects).filter fun object => after < object.sequence)

def revisionsFrom (board : Board) (after limit spent : Nat) : List ReplicaRevision :=
  (takeWithin (·.batchCost) batchBytes true spent
    ((board.revisions.filter fun revision => after < revision.revision).take limit)).1

def replicaBatch (board : Board) (after objectsAfter limit : Nat) : ReplicaBatch :=
  let chainAfter := (board.revisions.find? (·.revision == after)).map (·.chain)
  let held := board.objects.length
  let (objects, spent) := board.objectsFrom objectsAfter
  let sent := objects.getLast?.elim objectsAfter (·.sequence)
  let revisions := if held ≤ sent then board.revisionsFrom after limit spent else []
  let last := revisions.getLast?.elim after (·.revision)
  { after, chainAfter, objects, revisions
    epochs := board.epochs
    provenance := board.provenance
    tip := board.tip
    more := sent < held || last < board.tip }

/-! ## What a batch is to a follower -/

def Numbered (board : Board) : Prop := NumberedFrom (·.revision) 0 board.revisions

structure PrefixOf (board other : Board) : Prop where
  objects : board.objects <+: other.objects
  revisions : board.revisions <+: other.revisions

lemma PrefixOf.trans {first second third : Board} (h : first.PrefixOf second)
    (h' : second.PrefixOf third) : first.PrefixOf third :=
  ⟨h.objects.trans h'.objects, h.revisions.trans h'.revisions⟩

/-- A batch goes on from a follower's last rows towards a primary's: its revisions only
once no object is left to send, and it is the last one only once no revision is. -/
structure Continues (follower primary : Board) (batch : ReplicaBatch) : Prop where
  objects : follower.objects ++ batch.objects.map (·.toObjectRow) <+: primary.objects
  revisions : follower.revisions ++ batch.revisions <+: primary.revisions
  supplied : batch.revisions ≠ [] →
    follower.objects ++ batch.objects.map (·.toObjectRow) = primary.objects
  last : batch.more = false → follower.revisions ++ batch.revisions = primary.revisions

variable (place : Nat) (rows : List ObjectRow)

lemma placedFrom_numbered : NumberedFrom (·.sequence) place (placedFrom place rows) := by
  induction rows generalizing place with
  | nil => exact numberedFrom_nil
  | cons row rest ih => exact numberedFrom_cons.mpr ⟨rfl, ih (place + 1)⟩

lemma placedFrom_rows : (placedFrom place rows).map (·.toObjectRow) = rows := by
  induction rows generalizing place with
  | nil => rfl
  | cons row rest ih => rw [placedFrom, map_cons, ih (place + 1)]

lemma placedFrom_append (more : List ObjectRow) : placedFrom place (rows ++ more) =
      placedFrom place rows ++ placedFrom (place + rows.length) more := by
  induction rows generalizing place with
  | nil => rfl
  | cons row rest ih =>
    rw [cons_append, placedFrom, placedFrom, ih (place + 1), length_cons,
      cons_append, Nat.add_assoc, Nat.add_comm 1]

lemma Numbered.tip (h : board.Numbered) : board.tip = board.revisions.length := by
  have hlast := NumberedFrom.last h
  rw [Nat.zero_add] at hlast
  exact hlast

lemma Numbered.of_prefix {other : Board} (h : other.Numbered)
    (hheld : board.revisions <+: other.revisions) : board.Numbered := by
  obtain ⟨rest, hrest⟩ := hheld
  unfold Numbered at h
  rw [← hrest, numberedFrom_append] at h
  exact h.1

lemma page_spec {α : Type} {number : α → Nat} {held rows page : List α}
    (hnumbered : NumberedFrom number 0 rows) (hheld : held <+: rows)
    (hpage : page <+: rows.filter fun row => held.length < number row) :
    held ++ page <+: rows ∧ page.getLast?.elim held.length number = (held ++ page).length := by
  obtain ⟨rest, rfl⟩ := hheld
  have hdrop := hnumbered.filter_lt_eq_drop held.length
  simp only [Nat.zero_add] at hdrop
  rw [hdrop, drop_left] at hpage
  obtain ⟨after, rfl⟩ := hpage
  refine ⟨⟨after, append_assoc _ _ _⟩, ?_⟩
  rw [numberedFrom_append, numberedFrom_append, Nat.zero_add] at hnumbered
  rw [hnumbered.2.1.last, length_append]

lemma replicaBatch_continues {follower primary : Board} (hnumbered : primary.Numbered)
    (h : follower.PrefixOf primary) (limit : Nat) : follower.Continues primary
      (primary.replicaBatch follower.tip follower.objects.length limit) := by
  rw [(hnumbered.of_prefix h.revisions).tip]
  have hplaced : placedFrom 0 follower.objects <+: placedFrom 0 primary.objects := by
    obtain ⟨rest, hrest⟩ := h.objects
    rw [← hrest, placedFrom_append]
    exact prefix_append _ _
  have hlength : (placedFrom 0 follower.objects).length = follower.objects.length := by
    rw [← length_map (·.toObjectRow), placedFrom_rows]
  have hpage : (primary.objectsFrom follower.objects.length).1 <+:
      (placedFrom 0 primary.objects).filter fun object =>
        (placedFrom 0 follower.objects).length < object.sequence := by
    rw [hlength]
    exact takeWithin_isPrefix _ _ _ _ _
  obtain ⟨hobjects, hsent⟩ := page_spec (placedFrom_numbered 0 primary.objects) hplaced hpage
  have hrows := hobjects.map (·.toObjectRow)
  rw [map_append, placedFrom_rows, placedFrom_rows] at hrows
  rw [length_append, hlength] at hsent
  unfold replicaBatch
  generalize primary.objectsFrom follower.objects.length = page at *
  obtain ⟨objects, spent⟩ := page
  have hnext : primary.revisionsFrom follower.revisions.length limit spent <+:
      primary.revisions.filter fun revision => follower.revisions.length < revision.revision :=
    (takeWithin_isPrefix _ _ _ _ _).trans ( take_prefix _ _)
  obtain ⟨hrevisions, hlast⟩ := page_spec hnumbered h.revisions hnext
  have hsize := hrows.length_le
  dsimp only at hsent hrows hsize ⊢
  rw [hsent, hnumbered.tip]
  by_cases hall : primary.objects.length ≤ follower.objects.length + objects.length
  · have hwhole := hrows.eq_of_length_le (by rw [length_append, length_map]; exact hall)
    simp only [if_pos hall]
    refine ⟨hrows, hrevisions, fun _ => hwhole, fun hmore => ?_⟩
    rw [hlast, Bool.or_eq_false_iff, decide_eq_false_iff_not, decide_eq_false_iff_not] at hmore
    exact hrevisions.eq_of_length_le (Nat.le_of_not_lt hmore.2)
  · -- objects are left to send: the batch has no revision, and more follows
    simp only [if_neg hall]
    refine ⟨hrows, ?_, fun hne => absurd rfl hne, fun hmore => ?_⟩
    · rw [append_nil]
      exact h.revisions
    · rw [Bool.or_eq_false_iff, decide_eq_false_iff_not] at hmore
      exact absurd (Nat.lt_of_not_le hall) hmore.1

end Board

def maxRevisionBatch : Nat := 500

def maxBatches : Nat := 100000

structure CaughtUp where
  batches : Nat
  applied : Nat
  deriving DecidableEq

/-- Where a catch-up is: between two calls, about to read the follower's place, about to
ask for the batch after it, about to apply it, or about to take its tokens. -/
inductive Phase where
  | idle
  | ready (batches : Nat)
  | placed (batches : Nat) (at_ : ReplicaPosition)
  | fetched (batches : Nat) (at_ : ReplicaPosition) (batch : ReplicaBatch)
  | applied (batches : Nat) (at_ now : ReplicaPosition) (batch : ReplicaBatch)
  deriving DecidableEq

inductive Event where
  | commit (objects : List ObjectRow) (revisions : List ReplicaRevision)
      (epochs : List ReplicaEpoch) (provenance : Option ReplicaMeta)
  | call
  | readPosition (failed : Option String)
  | fetch (refused : Option String)
  | apply (failed unkept : Option String)
  | takeTokens (failed : Option String)
  | restart (marked : Option String)

structure Link where
  primary : Board
  follower : Board
  phase : Phase
  seen : Board
  diverged : Option String
  deriving DecidableEq

abbrev Returned := Option (Except ReplicaError CaughtUp)

def Board.commit (board : Board) (objects : List ObjectRow) (revisions : List ReplicaRevision)
    (epochs : List ReplicaEpoch) (provenance : Option ReplicaMeta) : Board where
  objects := board.objects ++ objects
  revisions := board.revisions ++ revisions
  epochs := board.epochs ++ epochs
  provenance := provenance.or board.provenance
  head := (revisions.getLast?.map (·.head)).or board.head

namespace Link

def start : Link := ⟨.empty, .empty, .idle, .empty, none⟩

def returns (link : Link) (result : Except ReplicaError CaughtUp) : Returned × Link :=
  (some result, { link with phase := .idle })

def halts (link : Link) (why : String) (unkept : Option String) : Returned × Link :=
  let why := unkept.elim why fun error => s!"{why} (the mark was not kept: {error})"
  (some (.error (.diverged why)), { link with phase := .idle, diverged := some why })

def proceeds (link : Link) (batches : Nat) (at_ now : ReplicaPosition) (more : Bool) :
    Returned × Link :=
  match more, decide (now ≠ at_), decide (batches < maxBatches) with
  | false, _, _ => link.returns (.ok ⟨batches, now.revision⟩)
  | true, true, true => (none, { link with phase := .ready batches })
  | true, false, _ => link.returns (.error (.invalid "the primary's batch made no progress"))
  | true, true, false =>
      link.returns (.error (.invalid s!"the primary still had more after {maxBatches} batches"))

variable [Hashes] (bound : Option String)

def applies (link : Link) (batches : Nat) (at_ : ReplicaPosition) (batch : ReplicaBatch)
    (unkept : Option String) : Returned × Link :=
  if batch.after = at_.revision ∧ batch.chainAfter = at_.chain then
    match link.follower.apply bound batch with
    | .ok after =>
        (none, { link with
          follower := after, phase := .applied batches at_ after.position batch })
    | .error (.diverged why) => link.halts why unkept
    | .error error => link.returns (.error error)
  else
    link.halts
      (s!"this follower's revision {at_.revision} is not the primary's (its chain differs): " ++
        "it holds a history the primary does not, and will not rewrite it")
      unkept

def step (link : Link) : Event → Returned × Link
  | .commit objects revisions epochs provenance =>
      (none, { link with primary := link.primary.commit objects revisions epochs provenance })
  | .call =>
      match link.phase, link.diverged with
      | .idle, some why => link.returns (.error (.diverged why))
      | .idle, none => (none, { link with phase := .ready 0 })
      | _, _ => (none, link)
  | .readPosition failed =>
      match link.phase, failed with
      | .ready batches, none =>
          (none, { link with phase := .placed batches link.follower.position })
      | .ready _, some why => link.returns (.error (.unavailable why))
      | _, _ => (none, link)
  | .fetch refused =>
      match link.phase, refused with
      | .placed batches at_, none =>
          let batch := link.primary.replicaBatch at_.revision at_.objects maxRevisionBatch
          (none, { link with phase := .fetched (batches + 1) at_ batch, seen := link.primary })
      | .placed _ _, some why => link.returns (.error (.unavailable why))
      | _, _ => (none, link)
  | .apply failed unkept =>
      match link.phase, failed with
      | .fetched batches at_ batch, none => link.applies bound batches at_ batch unkept
      | .fetched _ _ _, some why => link.returns (.error (.unavailable why))
      | _, _ => (none, link)
  | .takeTokens failed =>
      match link.phase, failed with
      | .applied batches at_ now batch, none => link.proceeds batches at_ now batch.more
      | .applied _ _ _ _, some why => link.returns (.error (.unavailable why))
      | _, _ => (none, link)
  | .restart marked => (none, { link with phase := .idle, diverged := marked })

/-! ## What an event does -/

/-- What an event does to a link: the primary commits, the catch-up rests or starts over,
reads its place, has a batch, applies it, or returns after the last one. -/
inductive Moves (link : Link) : Event → Returned × Link → Prop
  | commits (objects : List ObjectRow) (revisions : List ReplicaRevision)
      (epochs : List ReplicaEpoch) (provenance : Option ReplicaMeta) :
      Moves link (.commit objects revisions epochs provenance)
        (none, { link with primary := link.primary.commit objects revisions epochs provenance })
  | stays {event} : Moves link event (none, link)
  | rests {event} (failed : Option ReplicaError) (diverged : Option String) :
      Moves link event (failed.map .error, { link with phase := .idle, diverged })
  | starts {event} (batches : Nat) : Moves link event (none, { link with phase := .ready batches })
  | places {event} (batches : Nat) :
      Moves link event (none, { link with phase := .placed batches link.follower.position })
  | fetches {event batches at_} (hphase : link.phase = .placed batches at_) :
      Moves link event (none, { link with
        phase := .fetched (batches + 1) at_
          (link.primary.replicaBatch at_.revision at_.objects maxRevisionBatch)
        seen := link.primary })
  | applies {event batches at_ batch after} (hphase : link.phase = .fetched batches at_ batch)
      (happlied : link.follower.Applied batch after) :
      Moves link event (none, { link with
        follower := after, phase := .applied batches at_ after.position batch })
  | catches {event batches at_ now batch} (hphase : link.phase = .applied batches at_ now batch)
      (hlast : batch.more = false) :
      Moves link event (some (.ok ⟨batches, now.revision⟩), { link with phase := .idle })

lemma fails_moves (link : Link) (event : Event) (error : ReplicaError) :
    link.Moves event (link.returns (.error error)) :=
  .rests (some error) link.diverged

lemma halts_moves (link : Link) (event : Event) (why : String) (unkept : Option String) :
    link.Moves event (link.halts why unkept) :=
  .rests (some (.diverged _)) _

variable {link : Link} {batches : Nat} {at_ : ReplicaPosition} {batch : ReplicaBatch}

lemma proceeds_moves (event : Event) {now : ReplicaPosition}
    (hphase : link.phase = .applied batches at_ now batch) :
    link.Moves event (link.proceeds batches at_ now batch.more) := by
  unfold proceeds
  split
  · exact .catches hphase ‹_›
  · exact .starts batches
  · exact link.fails_moves event _
  · exact link.fails_moves event _

lemma applies_moves (event : Event) (unkept : Option String)
    (hphase : link.phase = .fetched batches at_ batch) :
    link.Moves event (link.applies bound batches at_ batch unkept) := by
  unfold applies
  split
  · split
    · exact .applies hphase (Board.apply_eq_ok ‹_›)
    · exact link.halts_moves event _ unkept
    · exact link.fails_moves event _
  · exact link.halts_moves event _ unkept

lemma step_moves (link : Link) (event : Event) : link.Moves event (link.step bound event) := by
  cases event with
  | commit objects revisions epochs provenance => exact .commits objects revisions epochs provenance
  | call =>
    unfold step
    dsimp only
    split
    · exact link.fails_moves _ _
    · exact .starts 0
    · exact .stays
  | readPosition failed =>
    unfold step
    dsimp only
    split
    · exact .places _
    · exact link.fails_moves _ _
    · exact .stays
  | fetch refused =>
    unfold step
    dsimp only
    split
    · exact .fetches ‹_›
    · exact link.fails_moves _ _
    · exact .stays
  | apply failed unkept =>
    unfold step
    dsimp only
    split
    · exact applies_moves bound _ unkept ‹_›
    · exact link.fails_moves _ _
    · exact .stays
  | takeTokens failed =>
    unfold step
    dsimp only
    split
    · exact proceeds_moves _ ‹_›
    · exact link.fails_moves _ _
    · exact .stays
  | restart marked => exact .rests none marked

end Link

/-! ## Primaries that append -/

/-- What a primary may commit: objects it does not hold, and revisions after its last, each
reaching only objects that are then held. -/
structure Board.Commits (board : Board) (objects : List ObjectRow)
    (revisions : List ReplicaRevision) : Prop where
  fresh : ((board.objects ++ objects).map (·.oid)).Nodup
  numbered : NumberedFrom (·.revision) board.tip revisions
  reached : ∀ revision ∈ revisions, ∀ oid, Reaches (board.objects ++ objects) revision.root oid →
    Named (board.objects ++ objects) oid

def Link.Appends (link : Link) : Event → Prop
  | .commit objects revisions _ _ => link.primary.Commits objects revisions
  | _ => True

structure Board.History (board : Board) : Prop where
  nodup : (board.objects.map (·.oid)).Nodup
  numbered : board.Numbered
  reached : ∀ revision ∈ board.revisions, ∀ oid, Reaches board.objects revision.root oid →
    Named board.objects oid

lemma Board.History.empty : Board.empty.History :=
  ⟨nodup_nil, numberedFrom_nil, fun _ h => absurd h not_mem_nil⟩

lemma Board.History.commit (h : board.History) {objects : List ObjectRow}
    {revisions : List ReplicaRevision} (hcommits : board.Commits objects revisions)
    (epochs : List ReplicaEpoch) (provenance : Option ReplicaMeta) :
    (board.commit objects revisions epochs provenance).History where
  nodup := hcommits.fresh
  numbered := by
    have hnumbered := hcommits.numbered
    rw [h.numbered.tip] at hnumbered
    refine numberedFrom_append.mpr ⟨h.numbered, ?_⟩
    rw [Nat.zero_add]
    exact hnumbered
  reached revision hrevision oid hreaches := by
    obtain hheld | hnew := mem_append.mp hrevision
    · -- an older revision reaches what it reached
      have hall := h.reached revision hheld
      exact (hall oid (hreaches.of_append hcommits.fresh hall)).append_left
    · exact hcommits.reached revision hnew oid hreaches

lemma Board.prefixOf_commit (board : Board) (objects : List ObjectRow)
    (revisions : List ReplicaRevision) (epochs : List ReplicaEpoch)
    (provenance : Option ReplicaMeta) :
    board.PrefixOf (board.commit objects revisions epochs provenance) :=
  ⟨prefix_append _ _, prefix_append _ _⟩

namespace Link

variable [Hashes] (bound : Option String)

def Phased (link : Link) : Prop :=
  match link.phase with
  | .idle => True
  | .ready _ => True
  | .placed _ at_ => at_ = link.follower.position
  | .fetched _ _ batch =>
      link.seen.History ∧ link.seen.PrefixOf link.primary ∧ link.follower.Continues link.seen batch
  | .applied _ _ now batch =>
      now = link.follower.position ∧
        (batch.more = false → link.seen.revisions <+: link.follower.revisions)

structure Inv (link : Link) : Prop where
  history : link.primary.History
  kept : link.follower.Kept
  whole : link.follower.Whole
  before : link.follower.PrefixOf link.primary
  phased : link.Phased

lemma Inv.start : start.Inv :=
  ⟨.empty, .empty, fun _ h => absurd h not_mem_nil, ⟨prefix_rfl, prefix_rfl⟩, trivial⟩

variable {link : Link} {event : Event}

omit [Hashes] in
lemma Phased.of_primary (h : link.Phased) {primary : Board}
    (hmore : link.primary.PrefixOf primary) : Phased { link with primary } := by
  unfold Phased at h ⊢
  cases hphase : link.phase with
  | fetched batches at_ batch =>
    rw [hphase] at h
    exact ⟨h.1, h.2.1.trans hmore, h.2.2⟩
  | idle | ready batches => trivial
  | placed batches at_ | applied batches at_ now batch =>
    rw [hphase] at h
    exact h

omit [Hashes] in
lemma supplied_of_continues {follower seen : Board} {batch : ReplicaBatch}
    (hseen : seen.History) (h : follower.Continues seen batch) : follower.Supplied batch := by
  intro revision hrevision oid hreaches
  have hall := h.supplied (ne_nil_of_mem hrevision)
  rw [hall] at hreaches ⊢
  have hheld : revision ∈ seen.revisions := h.revisions.subset (mem_append_right _ hrevision)
  exact hseen.reached revision hheld oid hreaches

lemma Inv.step (h : link.Inv) (happends : link.Appends event) : (link.step bound event).2.Inv := by
  have hmoves := link.step_moves bound event
  generalize link.step bound event = result at hmoves
  cases hmoves with
  | commits objects revisions epochs provenance =>
    have hmore := link.primary.prefixOf_commit objects revisions epochs provenance
    exact ⟨h.history.commit happends epochs provenance, h.kept, h.whole, h.before.trans hmore,
      h.phased.of_primary hmore⟩
  | stays => exact h
  | rests failed diverged | starts batches => exact { h with phased := trivial }
  | places batches => exact { h with phased := rfl }
  | @fetches _ batches at_ hphase =>
    have hplace : at_ = link.follower.position := by
      have hphased := h.phased
      rw [Phased, hphase] at hphased
      exact hphased
    subst hplace
    have hbatch := Board.replicaBatch_continues h.history.numbered h.before maxRevisionBatch
    exact { h with phased := ⟨h.history, ⟨prefix_rfl, prefix_rfl⟩, hbatch⟩ }
  | @applies _ batches at_ batch after hphase happlied =>
    have hphased := h.phased
    rw [Phased, hphase] at hphased
    obtain ⟨hseen, hbefore, hcontinues⟩ := hphased
    have hsupplied := supplied_of_continues hseen hcontinues
    refine ⟨h.history, happlied.kept h.kept,
      (happlied.stays_whole_iff h.kept h.whole).mpr hsupplied,
      ⟨?_, ?_⟩, rfl, fun hlast => ?_⟩
    · rw [happlied.objects]
      exact hcontinues.objects.trans hbefore.objects
    · rw [happlied.revisions]
      exact hcontinues.revisions.trans hbefore.revisions
    · have hall := happlied.revisions.trans (hcontinues.last hlast)
      exact hall ▸ prefix_rfl
  | catches hphase hlast => exact { h with phased := trivial }

lemma Inv.returned (h : link.Inv) {caught : CaughtUp}
    (hreturned : (link.step bound event).1 = some (.ok caught)) :
    (link.step bound event).2.seen.revisions <+: (link.step bound event).2.follower.revisions ∧
      caught.applied = (link.step bound event).2.follower.tip := by
  have hmoves := link.step_moves bound event
  generalize link.step bound event = result at hmoves hreturned
  cases hmoves with
  | catches hphase hlast =>
    have hphased := h.phased
    rw [Phased, hphase] at hphased
    rw [Option.some.injEq, Except.ok.injEq] at hreturned
    subst hreturned
    refine ⟨hphased.2 hlast, ?_⟩
    rw [hphased.1]
    rfl
  | rests failed diverged => cases failed <;> cases hreturned
  | _ => cases hreturned

end Link

/-- The follower of a primary that only appends is a prefix of it at every point, whatever
fails: its objects and revisions are the first ones of the primary's, every object its
revisions reach is held, and a catch-up that returns holds every revision the primary had
when its last batch was read. -/
theorem follower_is_prefix [Hashes] (bound : Option String) (events : List Event)
    (happends : ∀ m ∈ moments (Link.step bound) .start events, m.before.Appends m.input) :
    ∀ m ∈ moments (Link.step bound) .start events,
      m.after.follower.PrefixOf m.after.primary ∧ m.after.follower.Whole ∧
        ∀ caught, m.output = some (.ok caught) →
          m.after.seen.revisions <+: m.after.follower.revisions ∧
            caught.applied = m.after.follower.tip := by
  refine moments_forall_of_allowed (I := Link.Inv) (G := Link.Appends)
    (fun link event h happends => h.step bound happends) ?_ .start happends
  intro link event h hevent
  have hafter := h.step bound hevent
  exact ⟨hafter.before, hafter.whole, fun caught hreturned => h.returned bound hreturned⟩

section

attribute [local instance] checksums

def oneCatchUp : List Event := [
  .commit [(blobObject 1 [0x62]).toObjectRow, oneFile.toObjectRow] [firstRevision] [] none,
  .call, .readPosition none, .fetch none, .apply none none, .takeTokens none]

lemma oneCatchUp_appends :
    ∀ m ∈ moments (Link.step none) .start oneCatchUp, m.before.Appends m.input := by
  have hcommits : Board.empty.Commits
      [(blobObject 1 [0x62]).toObjectRow, oneFile.toObjectRow] [firstRevision] := by
    refine ⟨by decide +kernel, by unfold NumberedFrom; decide +kernel, ?_⟩
    intro revision hrevision oid hreaches
    have hclosed : Closed [(blobObject 1 [0x62]).toObjectRow, oneFile.toObjectRow] := by
      unfold Closed Named
      decide +kernel
    have hroot : Named [(blobObject 1 [0x62]).toObjectRow, oneFile.toObjectRow]
        firstRevision.root := by
      unfold Named
      decide +kernel
    rw [mem_singleton] at hrevision
    subst hrevision
    exact hreaches.named hclosed hroot
  simp only [oneCatchUp, moments_cons, moments_nil, forall_mem_cons]
  exact ⟨hcommits, trivial, trivial, trivial, trivial, trivial, fun _ h => absurd h not_mem_nil⟩

theorem oneCatchUp_is_prefix :
    (outputs (Link.step none) .start oneCatchUp).getLast? = some (some (.ok ⟨1, 1⟩)) ∧
      ∀ m ∈ moments (Link.step none) .start oneCatchUp,
        m.after.follower.PrefixOf m.after.primary ∧ m.after.follower.Whole ∧
          ∀ caught, m.output = some (.ok caught) →
            m.after.seen.revisions <+: m.after.follower.revisions ∧
              caught.applied = m.after.follower.tip :=
  ⟨by decide +kernel, follower_is_prefix none oneCatchUp oneCatchUp_appends⟩

end

end Quecto.Replication
