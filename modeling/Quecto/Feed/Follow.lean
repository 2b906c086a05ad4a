/-
  Feed/Follow.lean --- the change feed of a board server, a follower's step
  and a client's watch.

  Source: `infrastructure/persistence/sqlite/project_board/feed.rs` and
  `application/project_board/use_cases/{follow_board,watch_board}.rs`.
-/
import Mathlib.Data.List.Basic

namespace Quecto.Feed

open List

/-! ## The revisions of a board -/

structure BoardRevision where
  epoch : Nat
  revision : Nat
  deriving DecidableEq

structure FeedTip where
  epoch : Nat
  revision : Nat
  deriving DecidableEq

structure BoardLog where
  revisions : List BoardRevision
  epoch : Nat
  numbered : revisions.map (·.revision) = range' 1 revisions.length

def rowsFrom : Nat → List Nat → List BoardRevision
  | _, [] => []
  | next, epoch :: epochs => ⟨epoch, next⟩ :: rowsFrom (next + 1) epochs

lemma rowsFrom_numbers (next : Nat) (epochs : List Nat) :
    (rowsFrom next epochs).map (·.revision) = range' next epochs.length := by
  induction epochs generalizing next with
  | nil => rfl
  | cons epoch epochs ih =>
    rw [rowsFrom, map_cons, ih, length_cons, range'_succ]

@[simp] lemma rowsFrom_length (next : Nat) (epochs : List Nat) :
    (rowsFrom next epochs).length = epochs.length := by
  have hlength := congrArg length (rowsFrom_numbers next epochs)
  rwa [length_map, length_range'] at hlength

def maxRevisionBatch : Nat := 500

structure RevisionBatch where
  revisions : List BoardRevision
  tip : FeedTip

namespace BoardLog

def empty : BoardLog := ⟨[], 0, rfl⟩

def commit (log : BoardLog) (epochs : List Nat) (newest : Nat) : BoardLog where
  revisions := log.revisions ++ rowsFrom (log.revisions.length + 1) epochs
  epoch := newest
  numbered := by
    rw [map_append, log.numbered, rowsFrom_numbers, length_append, rowsFrom_length,
      Nat.add_comm log.revisions.length 1, range'_append_1]

def tip (log : BoardLog) : FeedTip where
  epoch := log.epoch
  revision := (log.revisions.map (·.revision)).foldl max 0

def after (log : BoardLog) (cursor limit : Nat) : List BoardRevision :=
  (log.revisions.filter (cursor < ·.revision)).take limit

def batch (log : BoardLog) (cursor limit : Nat) : RevisionBatch where
  revisions := log.after cursor limit
  tip := log.tip

variable (log : BoardLog)

lemma foldl_max_range' (n : Nat) : (range' 1 n).foldl max 0 = n := by
  induction n with
  | zero => rfl
  | succ n ih => rw [range'_concat]; simp; omega

@[simp] lemma tip_revision : log.tip.revision = log.revisions.length := by
  rw [tip, log.numbered, foldl_max_range']

variable {row : BoardRevision}

lemma revision_of_getElem? {i : Nat} (h : log.revisions[i]? = some row) : row.revision = i + 1 := by
  have hnumber := congrArg (·[i]?) log.numbered
  simp only [getElem?_map, h, Option.map_some] at hnumber
  rw [List.getElem?_range' (List.getElem?_eq_some_iff.mp h).1, Option.some.injEq] at hnumber
  omega

lemma getElem?_of_mem (h : row ∈ log.revisions) :
    0 < row.revision ∧ log.revisions[row.revision - 1]? = some row := by
  obtain ⟨i, hi⟩ := mem_iff_getElem?.mp h
  have hrevision := log.revision_of_getElem? hi
  refine ⟨by omega, ?_⟩
  rwa [hrevision]

lemma revision_le_of_mem (h : row ∈ log.revisions) : row.revision ≤ log.revisions.length := by
  obtain ⟨hpos, hrow⟩ := log.getElem?_of_mem h
  have hlt := (List.getElem?_eq_some_iff.mp hrow).1
  omega

lemma filter_revisions (cursor : Nat) :
    log.revisions.filter (cursor < ·.revision) = log.revisions.drop cursor := by
  conv_lhs => rw [← take_append_drop cursor log.revisions, filter_append]
  have htold : (log.revisions.take cursor).filter (cursor < ·.revision) = [] := by
    rw [filter_eq_nil_iff]
    intro row hrow
    obtain ⟨i, hi⟩ := mem_iff_getElem?.mp hrow
    rw [getElem?_take] at hi
    split at hi
    · have hrevision := log.revision_of_getElem? hi
      simp only [decide_eq_true_eq]
      omega
    · cases hi
  have hleft : (log.revisions.drop cursor).filter (cursor < ·.revision) =
      log.revisions.drop cursor := by
    rw [filter_eq_self]
    intro row hrow
    obtain ⟨i, hi⟩ := mem_iff_getElem?.mp hrow
    rw [getElem?_drop] at hi
    have hrevision := log.revision_of_getElem? hi
    simp only [decide_eq_true_eq]
    omega
  rw [htold, hleft, nil_append]

lemma after_eq (cursor limit : Nat) :
    log.after cursor limit = (log.revisions.drop cursor).take limit := by
  rw [after, filter_revisions]

lemma numbers_between {start count : Nat} (h : start + count ≤ log.revisions.length) :
    ((log.revisions.drop start).take count).map (·.revision) = range' (start + 1) count := by
  have hrest : log.revisions.length =
      start + (count + (log.revisions.length - (start + count))) := by
    omega
  rw [map_take, map_drop, log.numbered, hrest, ← range'_append_1,
    drop_left' length_range', ← range'_append_1, take_left' length_range',
    Nat.add_comm 1 start]

end BoardLog

/-! ## Events -/

inductive FeedEvent where
  | epoch (epoch : Nat)
  | revision (revision : BoardRevision)
  | reset (after : Nat)
  deriving DecidableEq

structure Told where
  id : Nat
  event : FeedEvent
  deriving DecidableEq

inductive Leads (rows : List BoardRevision) : Nat → List Told → Nat → Prop where
  | nil (c : Nat) : Leads rows c [] c
  | epoch {c d told} (epoch : Nat) (rest : Leads rows c told d) :
      Leads rows c (⟨c, .epoch epoch⟩ :: told) d
  | revision {c d told row} (held : rows[c]? = some row)
      (rest : Leads rows (c + 1) told d) : Leads rows c (⟨c + 1, .revision row⟩ :: told) d
  | reset {c d told} (rest : Leads rows c told d) :
      Leads rows c (⟨c, .reset c⟩ :: told) d

namespace Leads

variable {rows : List BoardRevision} {c d e : Nat} {told more : List Told}

lemma append (h : Leads rows c told d) (hmore : Leads rows d more e) :
    Leads rows c (told ++ more) e := by
  induction h with
  | nil c => exact hmore
  | epoch epoch rest ih => exact .epoch epoch (ih hmore)
  | revision held rest ih => exact .revision held (ih hmore)
  | reset rest ih => exact .reset (ih hmore)

lemma le (h : Leads rows c told d) : c ≤ d := by
  induction h with
  | nil c => exact Nat.le_refl c
  | epoch epoch rest ih => exact ih
  | revision held rest ih => omega
  | reset rest ih => exact ih

lemma grow (h : Leads rows c told d) (added : List BoardRevision) :
    Leads (rows ++ added) c told d := by
  induction h with
  | nil c => exact .nil c
  | epoch epoch rest ih => exact .epoch epoch ih
  | revision held rest ih =>
    refine .revision ?_ ih
    rw [List.getElem?_append_left (List.getElem?_eq_some_iff.mp held).1]
    exact held
  | reset rest ih => exact .reset ih

end Leads

/-! ## A subscriber's queue -/

def queueLimit : Nat := 256

structure Queue where
  revisions : List BoardRevision
  isReset : Bool

inductive FeedDrained where
  | revisions (queued : List BoardRevision)
  | reset

def FeedDrained.queued : FeedDrained → List BoardRevision
  | revisions queued => queued
  | reset => []

namespace Queue

def empty : Queue := ⟨[], false⟩

def reset (_queue : Queue) : Queue := ⟨[], true⟩

def publish (queue : Queue) (revisions : Option (List BoardRevision)) : Queue :=
  if queue.isReset then queue
  else
    match revisions with
    | none => queue.reset
    | some revisions =>
      if queue.revisions.length + revisions.length ≤ queueLimit then
        { queue with revisions := queue.revisions ++ revisions }
      else queue.reset

def drain (queue : Queue) : FeedDrained × Queue :=
  if queue.isReset then (.reset, queue)
  else (.revisions queue.revisions, { queue with revisions := [] })

lemma publish_cases (queue : Queue) (revisions : Option (List BoardRevision)) :
    queue.isReset = true ∧ queue.publish revisions = queue ∨ queue.publish revisions = ⟨[], true⟩ ∨
      queue.isReset = false ∧ ∃ rows, revisions = some rows ∧
        queue.publish revisions = ⟨queue.revisions ++ rows, false⟩ := by
  cases hreset : queue.isReset with
  | true => exact .inl ⟨rfl, if_pos hreset⟩
  | false =>
    have hpublish : queue.publish revisions = match revisions with
        | none => queue.reset
        | some rows =>
          if queue.revisions.length + rows.length ≤ queueLimit then
            { queue with revisions := queue.revisions ++ rows }
          else queue.reset := if_neg (by rw [hreset]; exact Bool.false_ne_true)
    rw [hpublish]
    cases revisions with
    | none => exact .inr (.inl rfl)
    | some rows =>
      dsimp only
      split
      · exact .inr (.inr ⟨rfl, rows, rfl, by rw [hreset]⟩)
      · exact .inr (.inl rfl)

end Queue

/-! ## A follower -/

structure Follower where
  after : Option Nat
  cursor : Option Nat
  epoch : Option Nat
  behind : Bool
  ended : Bool
  deriving DecidableEq

inductive FollowStep where
  | events (told : List Told) (more : Bool)
  | ended (told : List Told)
  deriving DecidableEq

structure Telling where
  epoch : Option Nat
  told : List Told
  cursor : Nat

namespace Telling

def tell (telling : Telling) (revision : BoardRevision) : Option Telling :=
  if revision.revision ≤ telling.cursor then none
  else
    some
      { epoch := some revision.epoch
        told := telling.told ++
          (if telling.epoch ≠ some revision.epoch then [⟨telling.cursor, .epoch revision.epoch⟩]
          else []) ++ [⟨revision.revision, .revision revision⟩]
        cursor := revision.revision }

def tellQueued : List BoardRevision → Telling → Option (Telling × Bool)
  | [], telling => some (telling, false)
  | revision :: queued, telling =>
    if revision.revision = telling.cursor + 1 then
      (telling.tell revision).bind (tellQueued queued)
    else some (telling, true)

end Telling

open Telling

inductive Begun where
  | failed
  | past (tip : Nat)
  | ready (follower : Follower) (told : List Told) (cursor : Nat)

namespace Follower

def follow (after : Option Nat) : Follower where
  after := after
  cursor := none
  epoch := none
  behind := true
  ended := false

variable (follower : Follower)

def finish (told : List Told) (after : Nat) : Follower × Option FollowStep :=
  ({ follower with ended := true }, some (.ended (told ++ [⟨after, .reset after⟩])))

def begin (tip : Option FeedTip) : Begun :=
  match follower.cursor with
  | some cursor => .ready follower [] cursor
  | none =>
    match tip with
    | none => .failed
    | some tip =>
      let start := follower.after.getD tip.revision
      if tip.revision < start then .past tip.revision
      else if start = tip.revision then
        .ready { follower with epoch := some tip.epoch, cursor := some start }
          [⟨start, .epoch tip.epoch⟩] start
      else .ready { follower with cursor := some start } [] start

def tellRest (telling : Telling) (behind : Bool)
    (queued : List BoardRevision) : Follower × Option FollowStep :=
  match if behind then some (telling, true) else telling.tellQueued queued with
  | none => (follower, none)
  | some (telling, behind) =>
    ({ follower with cursor := some telling.cursor, epoch := telling.epoch, behind := behind },
      some (.events telling.told behind))

def tellAll (telling : Telling) (drained : List BoardRevision)
    (read : Nat → Option RevisionBatch) : Follower × Option FollowStep :=
  let queued := drained.filter (telling.cursor < ·.revision)
  let gap := queued.head?.any fun first => decide (first.revision ≠ telling.cursor + 1)
  if follower.behind || gap then
    match read telling.cursor with
    | none => (follower, none)
    | some batch =>
      match batch.revisions.foldlM tell telling with
      | none => (follower, none)
      | some telling =>
        follower.tellRest telling
          (batch.revisions.length == maxRevisionBatch &&
            decide (telling.cursor < batch.tip.revision))
          (queued.filter (telling.cursor < ·.revision))
  else follower.tellRest telling false queued

def goOn (told : List Told) (cursor : Nat) (drained : FeedDrained)
    (read : Nat → Option RevisionBatch) : Follower × Option FollowStep :=
  match drained with
  | .reset => follower.finish told cursor
  | .revisions queued => follower.tellAll ⟨follower.epoch, told, cursor⟩ queued read

/-- A step, of what its reads gave: the tip, the drained queue, and a batch after a cursor.
No step is a read that failed. -/
def step (tip : Option FeedTip) (drained : FeedDrained)
    (read : Nat → Option RevisionBatch) : Follower × Option FollowStep :=
  match follower.begin tip with
  | .failed => (follower, none)
  | .past tip => follower.finish [] tip
  | .ready follower told cursor => follower.goOn told cursor drained read

end Follower

/-! ## What a step tells -/

section Step

variable {log : BoardLog} {telling : Telling} {c : Nat}

lemma Telling.tell_next {row : BoardRevision} (hrow : log.revisions[telling.cursor]? = some row)
    (hleads : Leads log.revisions c telling.told telling.cursor) :
    ∃ next, telling.tell row = some next ∧ next.cursor = telling.cursor + 1 ∧
      Leads log.revisions c next.told next.cursor := by
  have hrevision := log.revision_of_getElem? hrow
  rw [tell, if_neg (by omega)]
  refine ⟨_, rfl, hrevision, ?_⟩
  rw [hrevision, append_assoc]
  refine hleads.append ?_
  split
  · exact .epoch _ (.revision hrow (.nil _))
  · exact .revision hrow (.nil _)

lemma Telling.tell_rows {rows : List BoardRevision} {rest : List BoardRevision}
    (hrows : log.revisions.drop telling.cursor = rows ++ rest)
    (hleads : Leads log.revisions c telling.told telling.cursor) :
    ∃ next, rows.foldlM tell telling = some next ∧
      next.cursor = telling.cursor + rows.length ∧ Leads log.revisions c next.told next.cursor := by
  induction rows generalizing telling with
  | nil => exact ⟨telling, rfl, rfl, hleads⟩
  | cons row rows ih =>
    have hrow : log.revisions[telling.cursor]? = some row := by
      rw [← head?_drop, hrows]
      rfl
    obtain ⟨first, hfirst, hcursor, hleads⟩ := tell_next hrow hleads
    have hdrop : log.revisions.drop first.cursor = rows ++ rest := by
      rw [hcursor, ← drop_drop, hrows]
      rfl
    obtain ⟨next, hnext, hend, hleads⟩ := ih hdrop hleads
    refine ⟨next, ?_, ?_, hleads⟩
    · rw [foldlM_cons, hfirst]
      exact hnext
    · rw [length_cons]
      omega

lemma Telling.tellQueued_rows {queued : List BoardRevision}
    (hqueued : ∀ row ∈ queued, row ∈ log.revisions)
    (hleads : Leads log.revisions c telling.told telling.cursor)
    (hcursor : telling.cursor ≤ log.revisions.length) :
    ∃ next gap, telling.tellQueued queued = some (next, gap) ∧
      Leads log.revisions c next.told next.cursor ∧ next.cursor ≤ log.revisions.length ∧
      telling.cursor ≤ next.cursor ∧
      (gap = false → ∀ row ∈ queued, row.revision ≤ next.cursor) := by
  induction queued generalizing telling with
  | nil => exact ⟨telling, false, rfl, hleads, hcursor, Nat.le_refl _, nofun⟩
  | cons row queued ih =>
    obtain ⟨hheld, hqueued⟩ := forall_mem_cons.mp hqueued
    rw [tellQueued]
    split
    case isFalse => exact ⟨telling, true, rfl, hleads, hcursor, Nat.le_refl _, nofun⟩
    case isTrue hnext =>
      obtain ⟨-, hrow⟩ := log.getElem?_of_mem hheld
      rw [hnext] at hrow
      obtain ⟨first, hfirst, hstep, hleads⟩ := tell_next hrow hleads
      have hlt := (List.getElem?_eq_some_iff.mp hrow).1
      obtain ⟨next, gap, htold, hleads, hbound, hle, hall⟩ := ih hqueued hleads (by omega)
      rw [hfirst]
      refine ⟨next, gap, htold, hleads, hbound, by omega, fun hgap => ?_⟩
      refine forall_mem_cons.mpr ⟨by omega, hall hgap⟩

/-- What a step of a follower at revision `c` does, unless a read fails: it ends where it
is, or it tells the revisions after `c`.  One that is not behind has told all there is, or
all that was queued. -/
inductive Stepped (log : BoardLog) (follower : Follower) (c : Nat) (queued : List BoardRevision) :
    Follower × Option FollowStep → Prop where
  | failed {result} (none : result.2 = none) :
      Stepped log follower c queued result
  | ended (next : Follower) {told} (leads : Leads log.revisions c told c) :
      Stepped log follower c queued (next, some (.ended told))
  | told {next told d more}
      (leads : Leads log.revisions c told d) (bound : d ≤ log.revisions.length)
      (cursor : next.cursor = some d) (behind : next.behind = more)
      (rest : more = false → d = log.revisions.length ∨
        follower.behind = false ∧ ∀ row ∈ queued, row.revision ≤ d) :
      Stepped log follower c queued (next, some (.events told more))

variable {follower : Follower} {queued : List BoardRevision}

lemma Follower.tellRest_stepped (begun : Follower) {left : List BoardRevision} {behind : Bool}
    (hleft : ∀ row ∈ left, row ∈ log.revisions)
    (hleads : Leads log.revisions c telling.told telling.cursor)
    (hcursor : telling.cursor ≤ log.revisions.length)
    (hrest : behind = false → ∀ d, telling.cursor ≤ d → d ≤ log.revisions.length →
      (∀ row ∈ left, row.revision ≤ d) →
        d = log.revisions.length ∨ follower.behind = false ∧ ∀ row ∈ queued, row.revision ≤ d) :
    Stepped log follower c queued (begun.tellRest telling behind left) := by
  cases behind with
  | true => exact .told hleads hcursor rfl rfl nofun
  | false =>
    obtain ⟨next, gap, htold, hleads, hbound, hle, hall⟩ :=
      tellQueued_rows hleft hleads hcursor
    rw [tellRest, htold]
    exact .told hleads hbound rfl rfl fun hgap => hrest rfl next.cursor hle hbound (hall hgap)

variable {read : Nat → Option RevisionBatch}

lemma Follower.tellAll_stepped {begun : Follower} (hbehind : begun.behind = follower.behind)
    (hqueued : ∀ row ∈ queued, row ∈ log.revisions)
    (hleads : Leads log.revisions c telling.told telling.cursor)
    (hcursor : telling.cursor ≤ log.revisions.length)
    (hread : ∀ cursor, read cursor = none ∨
      read cursor = some (log.batch cursor maxRevisionBatch)) :
    Stepped log follower c queued (begun.tellAll telling queued read) := by
  have hfilter : ∀ (cursor : Nat), ∀ row ∈ queued.filter (cursor < ·.revision),
      row ∈ log.revisions := fun cursor row hrow => hqueued row (mem_of_mem_filter hrow)
  rw [tellAll]
  split
  case isTrue =>
    rcases hread telling.cursor with hfailed | hbatch
    · rw [hfailed]
      exact .failed rfl
    rw [hbatch]
    dsimp only [BoardLog.batch]
    rw [BoardLog.after_eq]
    obtain ⟨next, htold, hnext, hleads⟩ := tell_rows
      (take_append_drop maxRevisionBatch (log.revisions.drop telling.cursor)).symm hleads
    rw [htold]
    rw [length_take, length_drop] at hnext
    refine tellRest_stepped begun ?_ hleads (by omega) ?_
    · exact fun row hrow => hfilter telling.cursor row (mem_of_mem_filter hrow)
    -- A batch that was not full, or reached the tip, is all there is.
    intro hall d hle hbound _
    rw [BoardLog.tip_revision, length_take, length_drop, Bool.and_eq_false_iff,
      beq_eq_false_iff_ne, decide_eq_false_iff_not] at hall
    omega
  case isFalse hqueue =>
    rw [Bool.not_eq_true, Bool.or_eq_false_iff] at hqueue
    refine tellRest_stepped begun (hfilter telling.cursor) hleads hcursor ?_
    intro _ d hle _ hall
    refine .inr ⟨hbehind ▸ hqueue.1, fun row hrow => ?_⟩
    by_cases htold : row.revision ≤ telling.cursor
    · omega
    · exact hall row (mem_filter.mpr ⟨hrow, by simpa using htold⟩)

/-- A step goes on from the follower's cursor; the first one, from the revision it was asked
for or else from the tip that it read. -/
def Follower.BeginsAt (follower : Follower) (tip : Option FeedTip) (c : Nat) : Prop :=
  follower.cursor = some c ∨ follower.cursor = none ∧
    ∃ t, tip = some t ∧ c ≤ t.revision ∧ c = follower.after.getD t.revision

structure Follower.Past (follower : Follower) (tip : Option FeedTip) (a t : Nat) : Prop where
  cursor : follower.cursor = none
  after : follower.after = some a
  tip : tip.map (·.revision) = some t
  past : t < a

lemma Follower.step_cases {tip : Option FeedTip} {drained : FeedDrained}
    (hcursor : ∀ c, follower.cursor = some c → c ≤ log.revisions.length)
    (htip : ∀ t, tip = some t → t.revision ≤ log.revisions.length)
    (hqueued : ∀ row ∈ drained.queued, row ∈ log.revisions)
    (hread : ∀ cursor, read cursor = none ∨
      read cursor = some (log.batch cursor maxRevisionBatch)) :
    (follower.step tip drained read).2 = none ∨ (∃ a t, follower.Past tip a t ∧
        (follower.step tip drained read).2 = some (.ended [⟨t, .reset t⟩])) ∨
      ∃ c, follower.BeginsAt tip c ∧
        Stepped log follower c drained.queued (follower.step tip drained read) := by
  have hready : ∀ {begun : Follower} {told : List Told} {c : Nat},
      begun.behind = follower.behind → Leads log.revisions c told c → c ≤ log.revisions.length →
      Stepped log follower c drained.queued (begun.goOn told c drained read) := by
    intro begun told c hbehind hleads hc
    cases drained with
    | reset => exact .ended _ (hleads.append (.reset (.nil c)))
    | revisions queued => exact tellAll_stepped hbehind hqueued hleads hc hread
  cases hfollower : follower.cursor with
  | some c =>
    have hbegin : follower.begin tip = .ready follower [] c := by simp only [begin, hfollower]
    rw [step, hbegin]
    exact .inr (.inr ⟨c, .inl hfollower, hready rfl (.nil c) (hcursor c hfollower)⟩)
  | none =>
    cases htip' : tip with
    | none =>
      have hbegin : follower.begin none = .failed := by simp only [begin, hfollower]
      rw [step, hbegin]
      exact .inl rfl
    | some t =>
      have hbound := htip t htip'
      have hbegin : follower.begin (some t) =
          if t.revision < follower.after.getD t.revision then .past t.revision
          else if follower.after.getD t.revision = t.revision then
            .ready { follower with
              epoch := some t.epoch
              cursor := some (follower.after.getD t.revision) }
              [⟨follower.after.getD t.revision, .epoch t.epoch⟩] (follower.after.getD t.revision)
          else .ready { follower with cursor := some (follower.after.getD t.revision) } []
            (follower.after.getD t.revision) := by
        simp only [begin, hfollower]
      rw [step, hbegin]
      by_cases hpast : t.revision < follower.after.getD t.revision
      · rw [if_pos hpast]
        refine .inr (.inl ?_)
        cases hafter : follower.after with
        | none => simp [hafter] at hpast
        | some a =>
          rw [hafter] at hpast
          exact ⟨a, t.revision, ⟨hfollower, hafter, rfl, hpast⟩, rfl⟩
      · rw [if_neg hpast]
        have hbegins : follower.BeginsAt (some t) (follower.after.getD t.revision) :=
          .inr ⟨hfollower, t, rfl, by omega, rfl⟩
        refine .inr (.inr ⟨_, hbegins, ?_⟩)
        by_cases htipped : follower.after.getD t.revision = t.revision
        · rw [if_pos htipped]
          exact hready rfl (.epoch _ (.nil _)) (by omega)
        · rw [if_neg htipped]
          exact hready rfl (.nil _) (by omega)

end Step

structure WatchTiming where
  pause : Nat
  minBackoff : Nat
  maxBackoff : Nat
  busyFor : Nat
  busyTries : Nat
  attempts : Nat
  deriving DecidableEq

structure Busy where
  tries : Nat
  waited : Nat
  backoff : Nat
  deriving DecidableEq

inductive WatchEnd where
  | noReader
  | stopped
  | refused (why : String)
  | malformed (why : String)
  | stillBusy (why : String) (waited : Nat)
  | failing (why : String) (failed : Nat)
  deriving DecidableEq

inductive OpenRefused where
  | busy (why : String)
  | refused (why : String)
  | unreachable (why : String)
  deriving DecidableEq

structure Watch where
  cursor : Option Nat
  epoch : Option Nat
  failed : Nat
  pause : Nat
  busy : Option Busy
  heard : Bool
  handed : List FeedEvent
  finished : Option WatchEnd
  deriving DecidableEq

namespace Watch

variable (timing : WatchTiming)

def start (after : Option Nat) : Watch where
  cursor := after
  epoch := none
  failed := 0
  pause := timing.pause
  busy := none
  heard := false
  handed := []
  finished := none

def clampBackoff (pause : Nat) : Nat := max timing.minBackoff (min pause timing.maxBackoff)

variable (watch : Watch)

def fail (why : String) : Watch :=
  if timing.attempts ≤ watch.failed + 1 then
    { watch with failed := watch.failed + 1, finished := some (.failing why (watch.failed + 1)) }
  else { watch with failed := watch.failed + 1 }

def onBusy (why : String) : Watch :=
  let tried := watch.busy.getD ⟨0, 0, clampBackoff timing watch.pause⟩
  let left := timing.busyFor - tried.waited
  if tried.tries < timing.busyTries ∧ 0 < left then
    let slept := min tried.backoff left
    { watch with
      busy := some ⟨tried.tries + 1, tried.waited + slept,
        clampBackoff timing (tried.backoff * 2)⟩ }
  else { watch with busy := some tried, finished := some (.stillBusy why tried.waited) }

def onRefused : OpenRefused → Watch
  | .busy why => onBusy timing watch why
  | .refused why => { watch with finished := some (.refused why) }
  | .unreachable why => fail timing watch why

def onOpened : Watch := { watch with heard := false }

def onEvent (told : Told) (stop : Bool) : Watch :=
  let watch := { watch with cursor := some told.id, heard := true }
  let hand (epoch : Option Nat) : Watch :=
    { watch with
      epoch := epoch
      handed := watch.handed ++ [told.event]
      finished := if stop then some .stopped else watch.finished }
  match told.event with
  | .epoch epoch => if watch.epoch = some epoch then watch else hand (some epoch)
  | .revision _ | .reset _ => hand watch.epoch

def onEnded (retry : Option Nat) : Watch :=
  let watch := { watch with pause := retry.getD watch.pause }
  if watch.heard then { watch with failed := 0, busy := none }
  else fail timing watch "the board server's stream ended with no event"

/-! ## What an answer leaves -/

structure Same (before after : Watch) : Prop where
  cursor : after.cursor = before.cursor
  epoch : after.epoch = before.epoch
  handed : after.handed = before.handed

variable (watch : Watch)

lemma fail_same (why : String) : Same watch (fail timing watch why) := by
  rw [fail]
  split <;> exact ⟨Eq.refl _, Eq.refl _, Eq.refl _⟩

lemma onBusy_same (why : String) : Same watch (onBusy timing watch why) := by
  rw [onBusy]
  split <;> exact ⟨Eq.refl _, Eq.refl _, Eq.refl _⟩

lemma onRefused_same (refusal : OpenRefused) : Same watch (onRefused timing watch refusal) := by
  cases refusal with
  | busy why => exact onBusy_same timing watch why
  | refused why => exact ⟨Eq.refl _, Eq.refl _, Eq.refl _⟩
  | unreachable why => exact fail_same timing watch why

lemma onEnded_same (retry : Option Nat) : Same watch (onEnded timing watch retry) := by
  rw [onEnded]
  split
  · exact ⟨Eq.refl _, Eq.refl _, Eq.refl _⟩
  obtain ⟨hcursor, hepoch, hhanded⟩ := fail_same timing
    { watch with pause := retry.getD watch.pause } "the board server's stream ended with no event"
  exact ⟨hcursor, hepoch, hhanded⟩

end Watch

def revisionsOf (events : List FeedEvent) : List BoardRevision :=
  events.filterMap fun
    | .revision revision => some revision
    | .epoch _ | .reset _ => none

lemma revisionsOf_append (events more : List FeedEvent) :
    revisionsOf (events ++ more) = revisionsOf events ++ revisionsOf more := filterMap_append

/-! ## What was handed on -/

/-- Where a watcher was started, and the tips its streams have read since. -/
structure Origin where
  after : Option Nat
  seen : Nat → Prop

/-- A watch that knows no revision yet stands at a tip that was read for it. -/
def Watch.StandsAt (watch : Watch) (seen : Nat → Prop) (c : Nat) : Prop :=
  (∀ x, watch.cursor = some x → x = c) ∧ (watch.cursor = none → seen c)

lemma Watch.standsAt_some {watch : Watch} {c : Nat} (h : watch.cursor = some c)
    (seen : Nat → Prop) : watch.StandsAt seen c :=
  ⟨fun _ hx => Option.some.inj (hx.symm.trans h), fun hnone => absurd (h.symm.trans hnone) nofun⟩

/-- A watch was handed the revisions after revision `s`: the one it was started after, unless
its first event was a reset to a tip that was read for it before the board had made that
revision.  One that was started after none begins at a tip that was read for it. -/
structure StartsAt (origin : Origin) (handed : List FeedEvent) (s : Nat) : Prop where
  after : ∀ a, origin.after = some a →
    s = a ∨ s < a ∧ handed.head? = some (.reset s) ∧ origin.seen s
  tip : origin.after = none → handed ≠ [] → origin.seen s

lemma StartsAt.append {origin : Origin} {handed : List FeedEvent} {s : Nat}
    (h : StartsAt origin handed s) (hseen : origin.after = none → origin.seen s)
    (more : List FeedEvent) : StartsAt origin (handed ++ more) s := by
  refine ⟨fun a ha => ?_, fun hnone _ => hseen hnone⟩
  rcases h.after a ha with hsame | ⟨hlt, hreset, htip⟩
  · exact .inl hsame
  refine .inr ⟨hlt, ?_, htip⟩
  rw [head?_append, hreset]
  rfl

structure Reached (rows : List BoardRevision) (origin : Origin) (watch : Watch) (s c : Nat) :
    Prop where
  heard : watch.handed ≠ []
  cursor : watch.cursor = some c
  le : s ≤ c
  bound : c ≤ rows.length
  handed : revisionsOf watch.handed = (rows.drop s).take (c - s)
  start : StartsAt origin watch.handed s

inductive Delivered (rows : List BoardRevision) (origin : Origin) (watch : Watch) : Prop where
  | fresh (handed : watch.handed = []) (cursor : watch.cursor = origin.after)
      (epoch : watch.epoch = none)
  | reached (s c : Nat) (reached : Reached rows origin watch s c)

namespace Delivered

variable {rows : List BoardRevision} {origin : Origin} {watch next : Watch}

variable (h : Delivered rows origin watch)
include h

lemma same (hsame : watch.Same next) : Delivered rows origin next := by
  cases h with
  | fresh handed cursor epoch =>
    exact .fresh (hsame.handed.trans handed) (hsame.cursor.trans cursor) (hsame.epoch.trans epoch)
  | reached s c hreached =>
    refine .reached s c ⟨?_, hsame.cursor.trans hreached.cursor, hreached.le,
      hreached.bound, ?_, ?_⟩
    · rw [hsame.handed]
      exact hreached.heard
    · rw [hsame.handed]
      exact hreached.handed
    · rw [hsame.handed]
      exact hreached.start

lemma grow (added : List BoardRevision) : Delivered (rows ++ added) origin watch := by
  cases h with
  | fresh handed cursor epoch => exact .fresh handed cursor epoch
  | reached s c hreached =>
    refine .reached s c ⟨hreached.heard, hreached.cursor, hreached.le, ?_, ?_, hreached.start⟩
    · rw [length_append]
      exact Nat.le_add_right_of_le hreached.bound
    have hle := hreached.le
    have hbound := hreached.bound
    rw [hreached.handed, drop_append_of_le_length (by omega), take_append_of_le_length]
    rw [length_drop]
    omega

lemma event {c d : Nat} {told : Told} {rest : List Told}
    (hat : watch.StandsAt origin.seen c) (hleads : Leads rows c (told :: rest) d)
    (hbound : d ≤ rows.length) (stop : Bool) : Delivered rows origin (watch.onEvent told stop) ∧
      Leads rows told.id rest d ∧ (watch.onEvent told stop).cursor = some told.id := by
  -- Where the watch stands before the event.
  obtain ⟨s, hle, hhanded, hstart⟩ : ∃ s, s ≤ c ∧
      revisionsOf watch.handed = (rows.drop s).take (c - s) ∧
      ∀ more, StartsAt origin (watch.handed ++ more) s := by
    cases h with
    | fresh handed cursor epoch =>
      refine ⟨c, Nat.le_refl c, ?_, fun more => ⟨fun a ha => ?_, fun hnone _ => ?_⟩⟩
      · rw [handed, Nat.sub_self]
        rfl
      · exact .inl (hat.1 a (cursor.trans ha)).symm
      · exact hat.2 (cursor.trans hnone)
    | reached s x hreached =>
      obtain rfl := hat.1 x hreached.cursor
      refine ⟨s, hreached.le, hreached.handed, hreached.start.append fun hnone => ?_⟩
      exact hreached.start.tip hnone hreached.heard
  -- An event that is no revision and stays at `c`.
  have hstay : ∀ {event : FeedEvent}, revisionsOf [event] = [] → c ≤ d → ∀ epoch finished,
      Delivered rows origin
        { watch with
          cursor := some c, heard := true, epoch := epoch,
          handed := watch.handed ++ [event], finished := finished } := by
    intro event hevent hcd epoch finished
    refine .reached s c ⟨by simp, rfl, hle, by omega, ?_, hstart [event]⟩
    rw [revisionsOf_append, hevent, append_nil, hhanded]
  cases hleads with
  | epoch epoch hrest =>
    refine ⟨?_, hrest, ?_⟩
    · simp only [Watch.onEvent]
      split
      case isTrue hsame =>
        cases h with
        | fresh handed cursor hepoch =>
            exact absurd (hepoch.symm.trans hsame) (Option.some_ne_none _).symm
        | reached s' x hreached =>
          obtain rfl := hat.1 x hreached.cursor
          exact .reached s' x { hreached with cursor := rfl }
      case isFalse => exact hstay rfl hrest.le _ _
    · simp only [Watch.onEvent]
      split <;> rfl
  | @revision _ _ _ row hheld hrest =>
    refine ⟨.reached s (c + 1) ⟨by simp [Watch.onEvent], rfl, by omega, ?_, ?_, hstart _⟩,
      hrest, rfl⟩
    · have := hrest.le
      omega
    have hnext : c + 1 - s = (c - s) + 1 := by omega
    have hrow : (rows.drop s)[c - s]? = some row := by
      rw [getElem?_drop, Nat.add_sub_cancel' hle, hheld]
    rw [hnext, take_add_one, hrow, ← hhanded]
    exact revisionsOf_append _ _
  | reset hrest => exact ⟨hstay rfl hrest.le _ _, hrest, rfl⟩

lemma pastReset {a t : Nat} (hnothing : watch.handed = [])
    (hcursor : watch.cursor = some a) (hpast : t < a) (hbound : t ≤ rows.length)
    (hseen : origin.seen t) (stop : Bool) :
    Delivered rows origin (watch.onEvent ⟨t, .reset t⟩ stop) := by
  cases h with
  | reached s c hreached => exact absurd hnothing hreached.heard
  | fresh handed cursor epoch =>
    refine .reached t t ⟨by simp [Watch.onEvent], rfl, Nat.le_refl t, hbound, ?_, ?_⟩
    · rw [Nat.sub_self]
      simp only [Watch.onEvent, handed]
      rfl
    refine ⟨fun b hb => ?_, fun _ _ => hseen⟩
    rw [← cursor, hcursor] at hb
    cases hb
    refine .inr ⟨hpast, ?_, hseen⟩
    simp only [Watch.onEvent, handed]
    rfl

end Delivered

end Quecto.Feed
