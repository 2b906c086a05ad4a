/-
  Feed/Delivery.lean --- the feed of a board and its watchers, in every interleaving.

  Source: `infrastructure/persistence/sqlite/project_board/{feed,op_store}.rs`.
-/
import Quecto.Feed.Follow
import Quecto.Foundation.Machine

namespace Quecto.Feed

open Foundation List

inductive Phase where
  | idle
  | tipRead (tip : Option FeedTip)
  | drained (tip : Option FeedTip) (drained : FeedDrained)

namespace Phase

def tip : Phase → Option FeedTip
  | idle => none
  | tipRead tip | drained tip _ => tip

def queued : Phase → List BoardRevision
  | idle | tipRead _ => []
  | drained _ taken => taken.queued

end Phase

structure Stream where
  ticket : Nat
  follower : Follower
  queue : Queue
  phase : Phase
  wire : List Told
  closed : Bool

structure Watcher where
  watch : Watch
  stream : Option Stream

inductive Writer (W : Type) where
  | idle
  | committed
  | rowsRead (revisions : Option (List BoardRevision))
  | publishing (revisions : Option (List BoardRevision)) (pending : List (W × Nat))

structure FeedSystem (W : Type) where
  log : BoardLog
  published : Nat
  writer : Writer W
  subscribers : List (W × Nat)
  nextTicket : Nat
  watchers : W → Watcher

inductive FeedInput (W : Type) where
  | commit (epochs : List Nat) (newest : Nat)
  | readRows (readable tipReadable : Bool)
  | takeSubscribers
  | push
  | openStream (w : W)
  | refuse (w : W) (refusal : OpenRefused)
  | readTip (w : W) (readable : Bool)
  | drain (w : W)
  | readStore (w : W) (readable : Bool)
  | receive (w : W) (stop : Bool)
  | cut (w : W) (retry : Option Nat)
  | malformed (w : W) (why : String)
  | closeOutput (w : W)

/-! ## Steps -/

def Stream.stepped (stream : Stream) : Follower × Option FollowStep → Stream
  | (follower, none) => { stream with follower := follower, phase := .idle, closed := true }
  | (follower, some (.events told _)) =>
    { stream with follower := follower, phase := .idle, wire := stream.wire ++ told }
  | (follower, some (.ended told)) =>
    { stream with
      follower := follower, phase := .idle, wire := stream.wire ++ told, closed := true }

def Stream.opened (ticket : Nat) (after : Option Nat) : Stream where
  ticket := ticket
  follower := .follow after
  queue := .empty
  phase := .idle
  wire := []
  closed := false

namespace FeedSystem

variable {W : Type} [DecidableEq W] (s : FeedSystem W)

def setWatcher (w : W) (watcher : Watcher) : FeedSystem W :=
  { s with watchers := Function.update s.watchers w watcher }

def setStream (w : W) (stream : Stream) : FeedSystem W :=
  s.setWatcher w { s.watchers w with stream := some stream }

def live : List (W × Nat) :=
  s.subscribers.filter fun (w, ticket) => (s.watchers w).stream.any (·.ticket == ticket)

def readRows (readable tipReadable : Bool) : FeedSystem W :=
  if readable then
    match (s.log.after s.published maxRevisionBatch).getLast? with
    | none => { s with writer := .idle }
    | some last =>
      { s with
        published := last.revision
        writer := .rowsRead (some (s.log.after s.published maxRevisionBatch)) }
  else
    { s with
      published := if tipReadable then s.log.tip.revision else s.published
      writer := .rowsRead none }

def pushTo (revisions : Option (List BoardRevision)) (w : W) (ticket : Nat) : FeedSystem W :=
  match (s.watchers w).stream with
  | some stream =>
    if stream.ticket = ticket then
      s.setStream w { stream with queue := stream.queue.publish revisions }
    else s
  | none => s

def openStream (w : W) : FeedSystem W :=
  if (s.watchers w).stream.isNone ∧ (s.watchers w).watch.finished.isNone then
    { s with
      subscribers := s.live ++ [(w, s.nextTicket)]
      nextTicket := s.nextTicket + 1
      watchers := Function.update s.watchers w
        ⟨(s.watchers w).watch.onOpened, some (.opened s.nextTicket (s.watchers w).watch.cursor)⟩ }
  else s

def onServer (w : W) (f : Stream → Option Stream) : FeedSystem W :=
  match (s.watchers w).stream with
  | some stream =>
    if stream.closed then s
    else
      match f stream with
      | some stream => s.setStream w stream
      | none => s
  | none => s

def readTip (log : BoardLog) (readable : Bool) (stream : Stream) : Option Stream :=
  match stream.phase with
  | .idle => some { stream with phase := .tipRead (if readable then some log.tip else none) }
  | .tipRead _ | .drained _ _ => none

def drain (stream : Stream) : Option Stream :=
  match stream.phase with
  | .tipRead tip =>
    some { stream with phase := .drained tip stream.queue.drain.1, queue := stream.queue.drain.2 }
  | .idle | .drained _ _ => none

def storeRead (log : BoardLog) (readable : Bool) (cursor : Nat) : Option RevisionBatch :=
  if readable then some (log.batch cursor maxRevisionBatch) else none

def readStore (log : BoardLog) (readable : Bool) (stream : Stream) : Option Stream :=
  match stream.phase with
  | .drained tip drained =>
    some (stream.stepped (stream.follower.step tip drained (storeRead log readable)))
  | .idle | .tipRead _ => none

def receive (w : W) (stop : Bool) : FeedSystem W :=
  match (s.watchers w).stream, (s.watchers w).watch.finished with
  | some stream, none =>
    match stream.wire with
    | told :: rest =>
      s.setWatcher w ⟨(s.watchers w).watch.onEvent told stop, some { stream with wire := rest }⟩
    | [] => s
  | _, _ => s

def leave (w : W) (f : Watch → Watch) : FeedSystem W :=
  if (s.watchers w).watch.finished.isNone then s.setWatcher w ⟨f (s.watchers w).watch, none⟩ else s

variable (timing : WatchTiming)

def step (s : FeedSystem W) : FeedInput W → Unit × FeedSystem W
  | .commit epochs newest =>
    match s.writer with
    | .idle => ((), { s with log := s.log.commit epochs newest, writer := .committed })
    | .committed | .rowsRead _ | .publishing _ _ => ((), s)
  | .readRows readable tipReadable =>
    match s.writer with
    | .committed => ((), s.readRows readable tipReadable)
    | .idle | .rowsRead _ | .publishing _ _ => ((), s)
  | .takeSubscribers =>
    match s.writer with
    | .rowsRead revisions =>
      ((), { s with subscribers := s.live, writer := .publishing revisions s.live })
    | .idle | .committed | .publishing _ _ => ((), s)
  | .push =>
    match s.writer with
    | .publishing revisions ((w, ticket) :: pending) =>
      ((), { s.pushTo revisions w ticket with writer := .publishing revisions pending })
    | .publishing _ [] => ((), { s with writer := .idle })
    | .idle | .committed | .rowsRead _ => ((), s)
  | .openStream w => ((), s.openStream w)
  | .refuse w refusal => ((), s.leave w fun watch => watch.onRefused timing refusal)
  | .readTip w readable => ((), s.onServer w (readTip s.log readable))
  | .drain w => ((), s.onServer w drain)
  | .readStore w readable => ((), s.onServer w (readStore s.log readable))
  | .receive w stop => ((), s.receive w stop)
  | .cut w retry =>
    if (s.watchers w).stream.isSome then ((), s.leave w fun watch => watch.onEnded timing retry)
    else ((), s)
  | .malformed w why =>
    if (s.watchers w).stream.isSome then
      ((), s.leave w fun watch => { watch with finished := some (.malformed why) })
    else ((), s)
  | .closeOutput w => ((), s.leave w fun watch => { watch with finished := some .noReader })

def initial (log : BoardLog) (after : W → Option Nat) : FeedSystem W where
  log := log
  published := log.tip.revision
  writer := .idle
  subscribers := []
  nextTicket := 0
  watchers w := ⟨.start timing (after w), none⟩

end FeedSystem

/-! ## A stream that is sound -/

/-- What is on its way to a watcher leads on from its cursor, or is the reset of a stream
that was opened past the tip. -/
structure Streaming (log : BoardLog) (seen : Nat → Prop) (watch : Watch) (stream : Stream) :
    Prop where
  fresh : stream.closed = false → stream.follower.cursor = none →
    stream.wire = [] ∧ stream.follower.after = watch.cursor
  leads : stream.closed = false → ∀ d, stream.follower.cursor = some d → d ≤ log.revisions.length ∧
      ∃ c, watch.StandsAt seen c ∧ Leads log.revisions c stream.wire d
  ended : stream.closed = true → stream.wire = [] ∨
    (∃ c d, d ≤ log.revisions.length ∧ watch.StandsAt seen c ∧
      Leads log.revisions c stream.wire d) ∨
    ∃ a t, stream.wire = [⟨t, .reset t⟩] ∧ t < a ∧ t ≤ log.revisions.length ∧ seen t ∧
      watch.cursor = some a ∧ watch.handed = []
  queued : ∀ row ∈ stream.queue.revisions, row ∈ log.revisions
  tips : ∀ tip, stream.phase.tip = some tip → tip.revision ≤ log.revisions.length ∧
    seen tip.revision ∧ (stream.closed = false → stream.follower.cursor = none → watch.handed ≠ [] →
      ∀ c, watch.cursor = some c → c ≤ tip.revision)
  drained : ∀ row ∈ stream.phase.queued, row ∈ log.revisions

namespace Streaming

variable {log : BoardLog} {origin : Origin} {seen : Nat → Prop} {watch : Watch} {stream : Stream}

lemma opened (log : BoardLog) (seen : Nat → Prop) (watch : Watch) (ticket : Nat) :
    Streaming log seen watch.onOpened (.opened ticket watch.cursor) where
  fresh _ _ := ⟨rfl, rfl⟩
  leads _ _ hcursor := by cases hcursor
  ended hclosed := by cases hclosed
  queued := forall_mem_nil _
  tips _ htip := by cases htip
  drained := forall_mem_nil _

lemma commit (h : Streaming log seen watch stream) (epochs : List Nat) (newest : Nat) :
    Streaming (log.commit epochs newest) seen watch stream where
  fresh := h.fresh
  leads hopen d hcursor := by
    obtain ⟨hbound, c, hc, hleads⟩ := h.leads hopen d hcursor
    refine ⟨?_, c, hc, hleads.grow _⟩
    rw [BoardLog.commit, length_append]
    omega
  ended hclosed := by
    have hlength : log.revisions.length ≤ (log.commit epochs newest).revisions.length := by
      rw [BoardLog.commit, length_append]
      omega
    rcases h.ended hclosed with
      hnone | ⟨c, d, hbound, hc, hleads⟩ | ⟨a, t, hwire, hpast, hbound, hrest⟩
    · exact .inl hnone
    · exact .inr (.inl ⟨c, d, Nat.le_trans hbound hlength, hc, hleads.grow _⟩)
    · exact .inr (.inr ⟨a, t, hwire, hpast, Nat.le_trans hbound hlength, hrest⟩)
  queued row hrow := mem_append_left _ (h.queued row hrow)
  tips tip htip := by
    obtain ⟨hbound, hreached⟩ := h.tips tip htip
    refine ⟨?_, hreached⟩
    rw [BoardLog.commit, length_append]
    omega
  drained row hrow := mem_append_left _ (h.drained row hrow)

lemma publish (h : Streaming log seen watch stream) {revisions : Option (List BoardRevision)}
    (hrows : ∀ rows, revisions = some rows → ∀ row ∈ rows, row ∈ log.revisions) :
    Streaming log seen watch { stream with queue := stream.queue.publish revisions } where
  fresh := h.fresh
  leads := h.leads
  ended := h.ended
  queued row hrow := by
    rcases stream.queue.publish_cases revisions with
      ⟨-, hsame⟩ | hreset | ⟨-, rows, hrevisions, hextended⟩
    · rw [hsame] at hrow
      exact h.queued row hrow
    · rw [hreset] at hrow
      cases hrow
    rw [hextended] at hrow
    rcases mem_append.mp hrow with hrow | hrow
    · exact h.queued row hrow
    · exact hrows rows hrevisions row hrow
  tips := h.tips
  drained := h.drained

variable {readable : Bool} {next : Stream} {told : Told} {rest : List Told}

section

variable (h : Streaming log seen watch stream)
include h

lemma readTip (hdelivered : Delivered log.revisions origin watch)
    (hseen : readable = true → stream.phase = .idle → seen log.tip.revision)
    (hnext : FeedSystem.readTip log readable stream = some next) :
    Streaming log seen watch next := by
  rw [FeedSystem.readTip] at hnext
  split at hnext
  case h_2 | h_3 => cases hnext
  case h_1 hphase =>
    cases hnext
    refine ⟨h.fresh, h.leads, h.ended, h.queued, ?_, forall_mem_nil _⟩
    intro tip htip
    cases readable with
    | false => cases htip
    | true =>
      cases htip
      refine ⟨Nat.le_of_eq log.tip_revision, hseen rfl hphase, fun _ _ hheard c hcursor => ?_⟩
      rw [BoardLog.tip_revision]
      cases hdelivered with
      | fresh handed cursor epoch => exact absurd handed hheard
      | reached s x hreached =>
        rw [hreached.cursor] at hcursor
        exact Option.some.inj hcursor ▸ hreached.bound

lemma drain (hnext : FeedSystem.drain stream = some next) : Streaming log seen watch next := by
  rw [FeedSystem.drain] at hnext
  split at hnext
  case h_2 | h_3 => cases hnext
  case h_1 tip hphase =>
    cases hnext
    have htips := h.tips
    rw [hphase] at htips
    refine ⟨h.fresh, h.leads, h.ended, ?_, htips, ?_⟩
    · intro row hrow
      rw [Queue.drain] at hrow
      split at hrow
      · exact h.queued row hrow
      · cases hrow
    · intro row hrow
      rw [Queue.drain] at hrow
      split at hrow
      · cases hrow
      · exact h.queued row hrow

lemma begins (hopen : stream.closed = false) {c : Nat}
    (hbegins : stream.follower.BeginsAt stream.phase.tip c) : c ≤ log.revisions.length ∧
      ∃ b, watch.StandsAt seen b ∧ Leads log.revisions b stream.wire c := by
  rcases hbegins with hcursor | ⟨hcursor, tip, htip, hle, hafter⟩
  · exact h.leads hopen c hcursor
  obtain ⟨hwire, hfrom⟩ := h.fresh hopen hcursor
  obtain ⟨hbound, hseen, -⟩ := h.tips tip htip
  rw [hfrom] at hafter
  refine ⟨Nat.le_trans hle hbound, c, ⟨fun x hx => ?_, fun hnone => ?_⟩, hwire ▸ .nil c⟩
  · rw [hafter, hx, Option.getD_some]
  · rw [hafter, hnone]
    exact hseen

lemma step_cases (hopen : stream.closed = false) {tip : Option FeedTip} {taken : FeedDrained}
    (hphase : stream.phase = .drained tip taken) (readable : Bool)
    {result : Follower × Option FollowStep}
    (hresult : stream.follower.step tip taken (FeedSystem.storeRead log readable) = result) :
    result.2 = none ∨
      (∃ a t, stream.follower.Past tip a t ∧ result.2 = some (.ended [⟨t, .reset t⟩])) ∨
      ∃ c, stream.follower.BeginsAt tip c ∧ Stepped log stream.follower c taken.queued result := by
  have htips := h.tips
  have hdrained := h.drained
  rw [hphase] at htips hdrained
  rw [← hresult]
  refine Follower.step_cases (fun c hcursor => (h.leads hopen c hcursor).1)
    (fun t ht => (htips t ht).1) hdrained fun cursor => ?_
  cases readable with
  | true => exact .inr rfl
  | false => exact .inl rfl

end

lemma closed (h : Streaming log seen watch stream) (hopen : stream.closed = false)
    (follower : Follower) :
    Streaming log seen watch { stream with
      follower := follower, phase := .idle, closed := true } where
  fresh hclosed := by cases hclosed
  leads hclosed := by cases hclosed
  ended _ := by
    cases hcursor : stream.follower.cursor with
    | none => exact .inl (h.fresh hopen hcursor).1
    | some d =>
      obtain ⟨hbound, c, hc, hleads⟩ := h.leads hopen d hcursor
      exact .inr (.inl ⟨c, d, hbound, hc, hleads⟩)
  queued := h.queued
  tips _ htip := by cases htip
  drained := forall_mem_nil _

variable (h : Streaming log seen watch stream)
include h

lemma readStore (hopen : stream.closed = false)
    (hnext : FeedSystem.readStore log readable stream = some next) :
    Streaming log seen watch next := by
  rw [FeedSystem.readStore] at hnext
  split at hnext
  case h_2 | h_3 => cases hnext
  case h_1 tip taken hphase =>
    cases hnext
    have hcases := h.step_cases hopen hphase readable rfl
    generalize stream.follower.step tip taken (FeedSystem.storeRead log readable) = result at hcases
    obtain ⟨follower, outcome⟩ := result
    have htip : stream.phase.tip = tip := by rw [hphase]; rfl
    rcases hcases with hfailed | ⟨a, t, hpast, hended⟩ | ⟨c, hbegins, hstepped⟩
    · obtain rfl : outcome = none := hfailed
      exact h.closed hopen follower
    · obtain rfl : outcome = _ := hended
      obtain ⟨hwire, hfrom⟩ := h.fresh hopen hpast.cursor
      obtain ⟨first, hfirst, hrevision⟩ := Option.map_eq_some_iff.mp hpast.tip
      obtain ⟨hbound, hseen, hreached⟩ := h.tips first (htip.trans hfirst)
      rw [hrevision] at hbound hseen hreached
      have hcursor : watch.cursor = some a := hfrom ▸ hpast.after
      have hnothing : watch.handed = [] := by
        by_contra hheard
        have hle := hreached hopen hpast.cursor hheard a hcursor
        have hlt := hpast.past
        omega
      refine ⟨nofun, nofun, fun _ => .inr (.inr ?_), h.queued, nofun, nofun⟩
      refine ⟨a, t, ?_, hpast.past, hbound, hseen, hcursor, hnothing⟩
      simp only [Stream.stepped, hwire, nil_append]
    · rw [← htip] at hbegins
      obtain ⟨hbound, b, hb, hleads⟩ := h.begins hopen hbegins
      cases hstepped with
      | failed hnone =>
        obtain rfl : outcome = none := hnone
        exact h.closed hopen follower
      | ended _ hmore =>
        exact ⟨nofun, nofun, fun _ => .inr (.inl ⟨b, c, hbound, hb, hleads.append hmore⟩), h.queued,
          nofun, nofun⟩
      | @told _ _ d _ hmore hd hcursor hbehind hrest =>
        refine ⟨fun _ hnone => ?_, fun _ e he => ?_, fun hclosed => ?_, h.queued, nofun, nofun⟩
        · cases hcursor.symm.trans hnone
        · obtain rfl := Option.some.inj (hcursor.symm.trans he)
          exact ⟨hd, b, hb, hleads.append hmore⟩
        · cases hopen.symm.trans hclosed

lemma onWire (hwire : stream.wire = told :: rest) :
    (∃ c d, d ≤ log.revisions.length ∧ watch.StandsAt seen c ∧
      Leads log.revisions c (told :: rest) d ∧
      (stream.closed = false → stream.follower.cursor = some d)) ∨
    ∃ a t, told = ⟨t, .reset t⟩ ∧ rest = [] ∧ stream.closed = true ∧ t < a ∧
      t ≤ log.revisions.length ∧ seen t ∧ watch.cursor = some a ∧ watch.handed = [] := by
  cases hclosed : stream.closed with
  | false =>
    cases hcursor : stream.follower.cursor with
    | none => exact absurd ((h.fresh hclosed hcursor).1.symm.trans hwire) (cons_ne_nil _ _).symm
    | some d =>
      obtain ⟨hbound, c, hc, hleads⟩ := h.leads hclosed d hcursor
      exact .inl ⟨c, d, hbound, hc, hwire ▸ hleads, fun _ => rfl⟩
  | true =>
    rcases h.ended hclosed with hnone | ⟨c, d, hbound, hc, hleads⟩ | ⟨a, t, hreset, hpast, hrest⟩
    · exact absurd (hnone.symm.trans hwire) (cons_ne_nil _ _).symm
    · exact .inl ⟨c, d, hbound, hc, hwire ▸ hleads, fun h => absurd h.symm Bool.false_ne_true⟩
    · obtain ⟨rfl, rfl⟩ := cons.inj (hwire.symm.trans hreset)
      exact .inr ⟨a, t, rfl, rfl, rfl, hpast, hrest⟩

omit h in
lemma receive (h : Streaming log origin.seen watch stream)
    (hdelivered : Delivered log.revisions origin watch)
    (hwire : stream.wire = told :: rest) (stop : Bool) :
    Delivered log.revisions origin (watch.onEvent told stop) ∧
      Streaming log origin.seen (watch.onEvent told stop) { stream with wire := rest } := by
  rcases h.onWire hwire with ⟨c, d, hbound, hc, hleads, hcursor⟩ |
    ⟨a, t, rfl, rfl, hclosed, hpast, hbound, hseen, ha, hnothing⟩
  · obtain ⟨hnext, hrest, hat⟩ := hdelivered.event hc hleads hbound stop
    have hunique := Watch.standsAt_some hat origin.seen
    refine ⟨hnext, ?_, ?_, ?_, h.queued, ?_, h.drained⟩
    · intro hopen hnone
      cases (hcursor hopen).symm.trans hnone
    · intro hopen e he
      obtain rfl := Option.some.inj ((hcursor hopen).symm.trans he)
      exact ⟨hbound, told.id, hunique, hrest⟩
    · exact fun _ => .inr (.inl ⟨told.id, d, hbound, hunique, hrest⟩)
    -- A step that has begun knows its cursor.
    intro tip htip
    refine ⟨(h.tips tip htip).1, (h.tips tip htip).2.1, fun hopen hnone => ?_⟩
    cases (hcursor hopen).symm.trans hnone
  · have hnot : ¬ stream.closed = false := Bool.not_eq_false _ ▸ hclosed
    refine ⟨hdelivered.pastReset hnothing ha hpast hbound hseen stop, ?_, ?_, ?_,
      h.queued, ?_, h.drained⟩
    · exact fun hopen => absurd hopen hnot
    · exact fun hopen => absurd hopen hnot
    · exact fun _ => .inl rfl
    · exact fun tip htip =>
        ⟨(h.tips tip htip).1, (h.tips tip htip).2.1, fun hopen => absurd hopen hnot⟩

end Streaming

/-! ## Publications -/

namespace Writer

variable {W : Type}

def revisions : Writer W → Option (List BoardRevision)
  | idle | committed => none
  | rowsRead revisions | publishing revisions _ => revisions

variable [DecidableEq W]

def owed (writer : Writer W) (subscriber : W × Nat) : Option (List BoardRevision) :=
  match writer with
  | idle | committed => some []
  | rowsRead revisions => revisions
  | publishing revisions pending => if subscriber ∈ pending then revisions else some []

end Writer

section Covered

variable {W : Type} [DecidableEq W]

/-- A follower that is not behind misses no publication: what it has not told is drained,
queued, or still to be pushed. -/
structure Covered (log : BoardLog) (published : Nat) (subscribers : List (W × Nat))
    (writer : Writer W) (w : W) (stream : Stream) : Prop where
  member : (w, stream.ticket) ∈ subscribers
  begun : stream.closed = false → stream.follower.behind = false → stream.follower.cursor ≠ none
  cover : stream.closed = false → stream.follower.behind = false → stream.queue.isReset = false →
    ∀ d, stream.follower.cursor = some d → ∀ owed, writer.owed (w, stream.ticket) = some owed →
      ∀ row ∈ log.revisions, d < row.revision → row.revision ≤ published →
        row ∈ stream.phase.queued ++ stream.queue.revisions ++ owed

variable {log : BoardLog} {published : Nat} {subscribers : List (W × Nat)} {writer : Writer W}
  {w : W} {stream next : Stream}

namespace Covered

section

variable (h : Covered log published subscribers writer w stream)
include h

lemma same (hticket : next.ticket = stream.ticket) (hclosed : next.closed = stream.closed)
    (hfollower : next.follower = stream.follower)
    (hqueue : next.queue.isReset = stream.queue.isReset)
    (hrows : next.queue.isReset = false → next.phase.queued ++ next.queue.revisions =
      stream.phase.queued ++ stream.queue.revisions) :
    Covered log published subscribers writer w next where
  member := by rw [hticket]; exact h.member
  begun := by rw [hclosed, hfollower]; exact h.begun
  cover := by
    rw [hclosed, hfollower, hticket]
    intro hopen hbehind hreset d hd owed howed row hrow hlt hle
    rw [hrows hreset]
    exact h.cover hopen hbehind (hqueue ▸ hreset) d hd owed howed row hrow hlt hle

lemma readTip {readable : Bool} (hnext : FeedSystem.readTip log readable stream = some next) :
    Covered log published subscribers writer w next := by
  rw [FeedSystem.readTip] at hnext
  split at hnext
  case h_2 | h_3 => cases hnext
  case h_1 hphase =>
    cases hnext
    refine h.same rfl rfl rfl rfl fun _ => ?_
    rw [hphase]
    rfl

lemma drain (hnext : FeedSystem.drain stream = some next) :
    Covered log published subscribers writer w next := by
  rw [FeedSystem.drain] at hnext
  split at hnext
  case h_2 | h_3 => cases hnext
  case h_1 tip hphase =>
    cases hnext
    cases hreset : stream.queue.isReset with
    | true =>
      have hdrain : stream.queue.drain = (.reset, stream.queue) := if_pos hreset
      refine h.same rfl rfl rfl (by rw [hdrain]) fun hno => ?_
      rw [hdrain, hreset] at hno
      cases hno
    | false =>
      have hdrain : stream.queue.drain =
          (.revisions stream.queue.revisions, { stream.queue with revisions := [] }) :=
        if_neg (by rw [hreset]; exact Bool.false_ne_true)
      refine h.same rfl rfl rfl (by rw [hdrain]) fun _ => ?_
      rw [hphase]
      simp [Phase.queued, hdrain, FeedDrained.queued]

lemma readStore {seen : Nat → Prop} {watch : Watch} (hstreaming : Streaming log seen watch stream)
    (hopen : stream.closed = false) (hpublished : published ≤ log.revisions.length)
    {readable : Bool} (hnext : FeedSystem.readStore log readable stream = some next) :
    Covered log published subscribers writer w next := by
  rw [FeedSystem.readStore] at hnext
  split at hnext
  case h_2 | h_3 => cases hnext
  case h_1 tip taken hphase =>
    cases hnext
    have hcases := hstreaming.step_cases hopen hphase readable rfl
    generalize stream.follower.step tip taken (FeedSystem.storeRead log readable) = result at hcases
    obtain ⟨follower, outcome⟩ := result
    -- A stream that is closed needs no cover.
    have hclosed : (stream.stepped (follower, outcome)).closed = true →
        Covered log published subscribers writer w (stream.stepped (follower, outcome)) := by
      intro hclosed
      refine ⟨?_, fun hno => ?_, fun hno => ?_⟩
      · rcases outcome with _ | _ | _ <;> exact h.member
      · cases hno.symm.trans hclosed
      · cases hno.symm.trans hclosed
    rcases hcases with hfailed | ⟨a, t, hpast, hended⟩ | ⟨c, hbegins, hstepped⟩
    · obtain rfl : outcome = none := hfailed
      exact hclosed rfl
    · obtain rfl : outcome = _ := hended
      exact hclosed rfl
    cases hstepped with
    | failed hnone =>
      obtain rfl : outcome = none := hnone
      exact hclosed rfl
    | ended _ hmore => exact hclosed rfl
    | @told _ _ d _ hmore hd hcursor hbehind hrest =>
      refine ⟨h.member, fun _ _ hnone => absurd (hcursor.symm.trans hnone)
        (Option.some_ne_none _), ?_⟩
      intro _ hwaits hreset e he owed howed row hrow hlt hle
      obtain rfl := Option.some.inj (hcursor.symm.trans he)
      rcases hrest (hbehind.symm.trans hwaits) with hall | ⟨hwaited, htold⟩
      · omega
      -- Nothing was read: what was covered before and not drained is still queued or owed.
      have hat : stream.follower.cursor = some c := by
        rcases hbegins with hat | ⟨hnone, -⟩
        · exact hat
        · exact absurd hnone (h.begun hopen hwaited)
      have hbefore := h.cover hopen hwaited hreset c hat owed howed row hrow
        (by have := hmore.le; omega) hle
      rw [hphase, append_assoc] at hbefore
      rcases mem_append.mp hbefore with hdrained | hleft
      · have hdone := htold row hdrained
        omega
      · exact hleft

end

lemma opened (hmember : (w, stream.ticket) ∈ subscribers)
    (hbehind : stream.follower.behind = true) :
    Covered log published subscribers writer w stream where
  member := hmember
  begun _ hno := absurd (hno.symm.trans hbehind) Bool.false_ne_true
  cover _ hno := absurd (hno.symm.trans hbehind) Bool.false_ne_true

lemma moved {subscribers' : List (W × Nat)} {writer' : Writer W}
    (h : Covered log published subscribers writer w stream)
    (hmember : (w, stream.ticket) ∈ subscribers')
    (howed : writer'.owed (w, stream.ticket) = writer.owed (w, stream.ticket)) :
    Covered log published subscribers' writer' w stream where
  member := hmember
  begun := h.begun
  cover := by rw [howed]; exact h.cover

lemma commit (h : Covered log published subscribers .idle w stream)
    (hpublished : published ≤ log.revisions.length) (epochs : List Nat) (newest : Nat) :
    Covered (log.commit epochs newest) published subscribers .committed w stream where
  member := h.member
  begun := h.begun
  cover hopen hbehind hreset d hd owed howed row hrow hlt hle := by
    -- A published row was there before.
    have hold : row ∈ log.revisions := by
      obtain ⟨hpos, hat⟩ := (log.commit epochs newest).getElem?_of_mem hrow
      rw [BoardLog.commit, getElem?_append_left (by omega)] at hat
      exact mem_of_getElem? hat
    exact h.cover hopen hbehind hreset d hd owed howed row hold hlt hle

lemma rowsRead (h : Covered log published subscribers .committed w stream) {last : BoardRevision}
    (hlast : (log.after published maxRevisionBatch).getLast? = some last) :
    Covered log last.revision subscribers
      (.rowsRead (some (log.after published maxRevisionBatch))) w stream where
  member := h.member
  begun := h.begun
  cover hopen hbehind hreset d hd owed howed row hrow hlt hle := by
    cases howed
    by_cases hpublished : row.revision ≤ published
    · have hbefore := h.cover hopen hbehind hreset d hd [] rfl row hrow hlt hpublished
      rw [append_nil] at hbefore
      exact mem_append_left _ hbefore
    refine mem_append_right _ ?_
    obtain ⟨hpos, hat⟩ := log.getElem?_of_mem hrow
    rw [BoardLog.after_eq] at hlast ⊢
    have hsome := length_pos_of_mem (mem_of_getLast? hlast)
    have hend : last.revision = published +
        ((log.revisions.drop published).take maxRevisionBatch).length := by
      rw [getLast?_eq_getElem?, getElem?_take] at hlast
      split at hlast
      · rw [getElem?_drop] at hlast
        have := log.revision_of_getElem? hlast
        omega
      · cases hlast
    refine mem_of_getElem? (i := row.revision - 1 - published) ?_
    rw [length_take] at hend
    rw [getElem?_take, if_pos (by omega), getElem?_drop]
    have hindex : published + (row.revision - 1 - published) = row.revision - 1 := by omega
    rw [hindex, hat]

lemma unreadable {published' : Nat} (h : Covered log published subscribers .committed w stream) :
    Covered log published' subscribers (.rowsRead none) w stream where
  member := h.member
  begun := h.begun
  cover _ _ _ _ _ _ howed := by cases howed

lemma push {revisions : Option (List BoardRevision)} {pending : List (W × Nat)}
    (h : Covered log published subscribers
      (.publishing revisions ((w, stream.ticket) :: pending)) w stream) :
    Covered log published subscribers (.publishing revisions pending) w
      { stream with queue := stream.queue.publish revisions } where
  member := h.member
  begun := h.begun
  cover hopen hbehind hreset d hd owed _ row hrow hlt hle := by
    rcases stream.queue.publish_cases revisions with
      ⟨hwas, hsame⟩ | hnow | ⟨hwas, rows, rfl, hextended⟩
    · rw [hsame, hwas] at hreset
      cases hreset
    · rw [hnow] at hreset
      cases hreset
    have hbefore := h.cover hopen hbehind hwas d hd rows (if_pos mem_cons_self) row hrow hlt hle
    rw [hextended, ← append_assoc]
    exact mem_append_left _ hbefore

end Covered

end Covered

/-! ## The system -/

namespace FeedSystem

variable {W : Type} [DecidableEq W]

structure Watched (s : FeedSystem W) (origin : Origin) (w : W) (watcher : Watcher) : Prop where
  delivered : Delivered s.log.revisions origin watcher.watch
  streaming : ∀ stream, watcher.stream = some stream →
    Streaming s.log origin.seen watcher.watch stream
  covered : ∀ stream, watcher.stream = some stream →
    Covered s.log s.published s.subscribers s.writer w stream

/-- With this input a stream of `w` reads the board's tip. -/
def ReadsTip (s : FeedSystem W) (w : W) (input : FeedInput W) : Prop :=
  input = .readTip w true ∧
    ∃ stream, (s.watchers w).stream = some stream ∧ stream.closed = false ∧ stream.phase = .idle

structure Sound (origin : W → Origin) (s : FeedSystem W) : Prop where
  published : s.published ≤ s.log.revisions.length
  rows : ∀ revisions, s.writer.revisions = some revisions → ∀ row ∈ revisions, row ∈ s.log.revisions
  watched : ∀ w, s.Watched (origin w) w (s.watchers w)

lemma initial_sound (timing : WatchTiming) (log : BoardLog) (origin : W → Origin) :
    Sound origin (initial timing log fun w => (origin w).after) where
  published := Nat.le_of_eq log.tip_revision
  rows _ hrevisions := by cases hrevisions
  watched _ :=
    { delivered := .fresh rfl rfl rfl
      streaming := fun _ hstream => by cases hstream
      covered := fun _ hstream => by cases hstream }

variable {s : FeedSystem W} {w : W} {stream : Stream} {origin : W → Origin}

omit [DecidableEq W] in
lemma mem_live (hstream : (s.watchers w).stream = some stream)
    (hmember : (w, stream.ticket) ∈ s.subscribers) : (w, stream.ticket) ∈ s.live := by
  refine mem_filter.mpr ⟨hmember, ?_⟩
  simp [hstream]

lemma watched_update (watcher : Watcher)
    (hothers : ∀ v, v ≠ w → s.Watched (origin v) v (s.watchers v))
    (hthis : s.Watched (origin w) w watcher) (v : W) :
    s.Watched (origin v) v (Function.update s.watchers w watcher v) := by
  by_cases hvw : v = w
  · subst hvw
    rw [Function.update_self]
    exact hthis
  · rw [Function.update_of_ne hvw]
    exact hothers v hvw

namespace Sound

variable {origin : W → Origin} {s : FeedSystem W}
  {w : W} {revisions : Option (List BoardRevision)}

lemma setWatcher (h : s.Sound origin) {watcher : Watcher}
    (hwatched : s.Watched (origin w) w watcher) : (s.setWatcher w watcher).Sound origin where
  published := h.published
  rows := h.rows
  watched v :=
    have hv := watched_update watcher (fun v _ => h.watched v) hwatched v
    ⟨hv.delivered, hv.streaming, hv.covered⟩

lemma onServer (h : s.Sound origin) {f : Stream → Option Stream}
    (hkept : ∀ stream next, (s.watchers w).stream = some stream →
      Delivered s.log.revisions (origin w) (s.watchers w).watch →
      Streaming s.log (origin w).seen (s.watchers w).watch stream →
      Covered s.log s.published s.subscribers s.writer w stream → stream.closed = false →
      f stream = some next → Streaming s.log (origin w).seen (s.watchers w).watch next ∧
        Covered s.log s.published s.subscribers s.writer w next) :
    (s.onServer w f).Sound origin := by
  obtain ⟨hdelivered, hstreaming, hcovered⟩ := h.watched w
  rw [FeedSystem.onServer]
  split
  case h_2 => exact h
  case h_1 stream hstream =>
    split
    case isTrue => exact h
    case isFalse hopen =>
      split
      case h_2 => exact h
      case h_1 next hnext =>
        have hnext := hkept stream next hstream hdelivered (hstreaming stream hstream)
          (hcovered stream hstream) (Bool.eq_false_iff.mpr hopen) hnext
        refine h.setWatcher ⟨hdelivered, fun other hother => ?_, fun other hother => ?_⟩
        · exact Option.some.inj hother ▸ hnext.1
        · exact Option.some.inj hother ▸ hnext.2

lemma leave (h : s.Sound origin) (w : W) {f : Watch → Watch}
    (hsame : ∀ watch : Watch, watch.Same (f watch)) : (s.leave w f).Sound origin := by
  rw [FeedSystem.leave]
  split
  · exact h.setWatcher ⟨(h.watched w).delivered.same (hsame _), fun _ hnone => (by cases hnone),
      fun _ hnone => by cases hnone⟩
  · exact h

lemma receive (h : s.Sound origin) (w : W) (stop : Bool) : (s.receive w stop).Sound origin := by
  rw [FeedSystem.receive]
  split
  case h_2 => exact h
  case h_1 stream hstream hover =>
    split
    case h_2 => exact h
    case h_1 told rest hwire =>
      obtain ⟨hdelivered, hstreaming, hcovered⟩ := h.watched w
      obtain ⟨hread, hleft⟩ := (hstreaming stream hstream).receive hdelivered hwire stop
      refine h.setWatcher ⟨hread, fun next hnext => ?_, fun next hnext => ?_⟩
      · exact Option.some.inj hnext ▸ hleft
      · cases hnext
        exact (hcovered stream hstream).same rfl rfl rfl rfl fun _ => rfl

lemma moved {s' : FeedSystem W} (h : s.Watched (origin w) w (s.watchers w))
    (hlog : s'.log = s.log) (hpublished : s'.published = s.published)
    (hmember : ∀ stream, (s.watchers w).stream = some stream →
      (w, stream.ticket) ∈ s.subscribers → (w, stream.ticket) ∈ s'.subscribers)
    (howed : ∀ stream, (s.watchers w).stream = some stream →
      s'.writer.owed (w, stream.ticket) = s.writer.owed (w, stream.ticket)) :
    s'.Watched (origin w) w (s.watchers w) where
  delivered := hlog ▸ h.delivered
  streaming := hlog ▸ h.streaming
  covered stream hstream := by
    have hcovered := h.covered stream hstream
    rw [hlog, hpublished]
    exact hcovered.moved (hmember stream hstream hcovered.member) (howed stream hstream)

section

variable (h : s.Sound origin)
include h

lemma openStream (w : W) : (s.openStream w).Sound origin := by
  rw [FeedSystem.openStream]
  split
  case isFalse => exact h
  case isTrue =>
    have hothers : ∀ v, v ≠ w → ({ s with
        subscribers := s.live ++ [(w, s.nextTicket)]
        nextTicket := s.nextTicket + 1 } : FeedSystem W).Watched (origin v) v (s.watchers v) := by
      intro v _
      exact moved (s := s) (h.watched v) rfl rfl
        (fun stream hv hmember => mem_append_left _ (mem_live hv hmember)) fun _ _ => rfl
    refine ⟨h.published, h.rows, fun v => ?_⟩
    have hv := watched_update ⟨(s.watchers w).watch.onOpened,
      some (.opened s.nextTicket (s.watchers w).watch.cursor)⟩ hothers
      ⟨(h.watched w).delivered.same ⟨rfl, rfl, rfl⟩,
        fun stream hstream => Option.some.inj hstream ▸ Streaming.opened s.log _ _ s.nextTicket,
        fun stream hstream => Option.some.inj hstream ▸
          Covered.opened (mem_append_right _ mem_cons_self) rfl⟩ v
    exact ⟨hv.delivered, hv.streaming, hv.covered⟩

lemma commit (hidle : s.writer = .idle) (epochs : List Nat) (newest : Nat) :
    ({ s with log := s.log.commit epochs newest, writer := .committed } :
      FeedSystem W).Sound origin := by
  refine ⟨?_, fun _ hnone => (by cases hnone), fun w => ?_⟩
  · have hpublished := h.published
    dsimp only
    rw [BoardLog.commit, length_append]
    omega
  obtain ⟨hdelivered, hstreaming, hcovered⟩ := h.watched w
  rw [hidle] at hcovered
  exact ⟨hdelivered.grow _, fun stream hstream => (hstreaming stream hstream).commit epochs newest,
    fun stream hstream => (hcovered stream hstream).commit h.published epochs newest⟩

lemma readRows (hcommitted : s.writer = .committed) (readable tipReadable : Bool) :
    (s.readRows readable tipReadable).Sound origin := by
  have hcovered : ∀ w stream, (s.watchers w).stream = some stream →
      Covered s.log s.published s.subscribers .committed w stream := by
    rw [← hcommitted]
    exact fun w => (h.watched w).covered
  rw [FeedSystem.readRows]
  split
  case isFalse =>
    refine ⟨?_, fun _ hnone => (by cases hnone),
      fun w => ⟨(h.watched w).delivered, (h.watched w).streaming,
        fun stream hstream => (hcovered w stream hstream).unreadable⟩⟩
    split
    · exact Nat.le_of_eq s.log.tip_revision
    · exact h.published
  case isTrue =>
    split
    case h_1 hnothing =>
      refine ⟨h.published, fun _ hnone => (by cases hnone), fun w => ?_⟩
      refine moved (s := s) (h.watched w) rfl rfl (fun _ _ hmember => hmember) fun _ _ => ?_
      rw [hcommitted]
      rfl
    case h_2 last hlast =>
      have hrows : ∀ row ∈ s.log.after s.published maxRevisionBatch, row ∈ s.log.revisions := by
        intro row hrow
        rw [BoardLog.after_eq] at hrow
        exact mem_of_mem_drop (mem_of_mem_take hrow)
      refine ⟨?_, ?_, fun w => ⟨(h.watched w).delivered, (h.watched w).streaming,
        fun stream hstream => (hcovered w stream hstream).rowsRead hlast⟩⟩
      · exact s.log.revision_le_of_mem (hrows last (mem_of_getLast? hlast))
      · intro revisions hrevisions
        exact Option.some.inj hrevisions ▸ hrows

lemma takeSubscribers (hread : s.writer = .rowsRead revisions) :
    ({ s with subscribers := s.live, writer := .publishing revisions s.live } : FeedSystem W).Sound
      origin := by
  refine ⟨h.published, ?_, fun w => ?_⟩
  · have hrows := h.rows
    rw [hread] at hrows
    exact hrows
  refine moved (s := s) (h.watched w) rfl rfl
    (fun stream hstream hmember => mem_live hstream hmember)
    fun stream hstream => ?_
  have hlive := mem_live hstream ((h.watched w).covered stream hstream).member
  rw [hread]
  exact if_pos hlive

lemma push {ticket : Nat} {pending : List (W × Nat)}
    (hwriter : s.writer = .publishing revisions ((w, ticket) :: pending)) :
    ({ s.pushTo revisions w ticket with writer := .publishing revisions pending } :
      FeedSystem W).Sound origin := by
  have hrows := h.rows
  rw [hwriter] at hrows
  -- A stream that is not pushed to is owed what it was.
  have hother : ∀ v, (∀ stream, (s.watchers v).stream = some stream →
      (v, stream.ticket) ≠ (w, ticket)) →
      ({ s with writer := .publishing revisions pending } : FeedSystem W).Watched (origin v) v
        (s.watchers v) := by
    intro v hne
    refine moved (s := s) (h.watched v) rfl rfl (fun _ _ hmember => hmember)
      fun stream hstream => ?_
    rw [hwriter, Writer.owed, Writer.owed]
    simp only [mem_cons, hne stream hstream, false_or]
  have hnotThis : ∀ v, v ≠ w → ∀ stream, (s.watchers v).stream = some stream →
      (v, stream.ticket) ≠ (w, ticket) := fun v hv _ _ heq => hv (Prod.mk.inj heq).1
  rw [pushTo]
  split
  case h_2 hnone =>
    refine ⟨h.published, hrows, fun v => hother v fun stream hv heq => ?_⟩
    rw [(Prod.mk.inj heq).1, hnone] at hv
    cases hv
  case h_1 stream hstream =>
    split
    case isFalse hticket =>
      refine ⟨h.published, hrows, fun v => hother v fun other hv heq => ?_⟩
      obtain ⟨rfl, hsame⟩ := Prod.mk.inj heq
      exact hticket (Option.some.inj (hstream.symm.trans hv) ▸ hsame)
    case isTrue hticket =>
      subst hticket
      obtain ⟨hdelivered, hstreaming, hcovered⟩ := h.watched w
      have hpushed := (hstreaming stream hstream).publish hrows
      have hreached := hcovered stream hstream
      rw [hwriter] at hreached
      refine ⟨h.published, hrows, fun v => ?_⟩
      have hv := watched_update
        { s.watchers w with
          stream := some { stream with queue := stream.queue.publish revisions } }
        (fun v hv => hother v (hnotThis v hv))
        ⟨hdelivered, fun next hnext => Option.some.inj hnext ▸ hpushed,
          fun next hnext => Option.some.inj hnext ▸ hreached.push⟩ v
      exact ⟨hv.delivered, hv.streaming, hv.covered⟩

end

lemma step (timing : WatchTiming) {s : FeedSystem W} {input : FeedInput W} (h : s.Sound origin)
    (hseen : ∀ w, s.ReadsTip w input → (origin w).seen s.log.tip.revision) :
    (FeedSystem.step timing s input).2.Sound origin := by
  cases input with
  | commit epochs newest =>
    rw [FeedSystem.step]
    split
    case h_1 hidle => exact h.commit hidle epochs newest
    all_goals exact h
  | readRows readable tipReadable =>
    rw [FeedSystem.step]
    split
    case h_1 hcommitted => exact h.readRows hcommitted readable tipReadable
    all_goals exact h
  | takeSubscribers =>
    rw [FeedSystem.step]
    split
    case h_1 revisions hread => exact h.takeSubscribers hread
    all_goals exact h
  | push =>
    rw [FeedSystem.step]
    split
    case h_1 revisions w ticket pending hwriter => exact h.push hwriter
    case h_2 revisions hwriter =>
      refine ⟨h.published, fun _ hnone => (by cases hnone), fun w => ?_⟩
      refine moved (s := s) (h.watched w) rfl rfl (fun _ _ hmember => hmember) fun stream _ => ?_
      simp only [hwriter, Writer.owed, not_mem_nil, if_false]
    all_goals exact h
  | openStream w => exact h.openStream w
  | refuse w refusal => exact h.leave w fun watch => watch.onRefused_same timing refusal
  | readTip w readable =>
    refine h.onServer fun stream _ hstream hdelivered hstreaming hcovered hopen hnext =>
      ⟨hstreaming.readTip hdelivered (fun hreadable hidle => hseen w ?_) hnext,
        hcovered.readTip hnext⟩
    exact ⟨hreadable ▸ rfl, stream, hstream, hopen, hidle⟩
  | drain w =>
    exact h.onServer fun _ _ _ _ hstreaming hcovered _ hnext =>
      ⟨hstreaming.drain hnext, hcovered.drain hnext⟩
  | readStore w readable =>
    exact h.onServer fun _ _ _ _ hstreaming hcovered hopen hnext =>
      ⟨hstreaming.readStore hopen hnext, hcovered.readStore hstreaming hopen h.published hnext⟩
  | receive w stop => exact h.receive w stop
  | cut w retry =>
    rw [FeedSystem.step]
    split
    · exact h.leave w fun watch => watch.onEnded_same timing retry
    · exact h
  | malformed w why =>
    rw [FeedSystem.step]
    split
    · exact h.leave w (f := fun watch => { watch with finished := some (.malformed why) })
        fun _ => ⟨rfl, rfl, rfl⟩
    · exact h
  | closeOutput w =>
    exact h.leave w (f := fun watch => { watch with finished := some .noReader })
      fun _ => ⟨rfl, rfl, rfl⟩

end Sound

structure Waiting (s : FeedSystem W) (w : W) (stream : Stream) : Prop where
  writer : s.writer = .idle
  held : (s.watchers w).stream = some stream
  closed : stream.closed = false
  wire : stream.wire = []
  phase : stream.phase = .idle
  behind : stream.follower.behind = false
  queue : stream.queue = .empty

lemma Sound.waiting (h : s.Sound origin) (hwaiting : s.Waiting w stream) :
    ∃ d, (s.watchers w).watch.StandsAt (origin w).seen d ∧ s.published ≤ d := by
  obtain ⟨-, hstreaming, hcovered⟩ := h.watched w
  have hcovered := hcovered stream hwaiting.held
  obtain ⟨d, hd⟩ := Option.ne_none_iff_exists'.mp (hcovered.begun hwaiting.closed hwaiting.behind)
  obtain ⟨hbound, c, hc, hleads⟩ := (hstreaming stream hwaiting.held).leads hwaiting.closed d hd
  rw [hwaiting.wire] at hleads
  cases hleads with
  | nil =>
    refine ⟨d, hc, ?_⟩
    by_contra hless
    have hpublished := h.published
    -- The row behind the cursor would be queued.
    obtain ⟨row, hrow⟩ : ∃ row, s.log.revisions[d]? = some row :=
      ⟨_, getElem?_eq_getElem (by omega)⟩
    have hrevision := s.log.revision_of_getElem? hrow
    have hreset : stream.queue.isReset = false := by
      rw [hwaiting.queue]
      rfl
    have howed : s.writer.owed (w, stream.ticket) = some [] := by
      rw [hwaiting.writer]
      rfl
    have hin := hcovered.cover hwaiting.closed hwaiting.behind hreset d hd [] howed row
      (mem_of_getElem? hrow) (by omega) (by omega)
    rw [hwaiting.phase, hwaiting.queue] at hin
    cases hin

/-- Revisions are never removed. -/
lemma tip_le_step (timing : WatchTiming) (s : FeedSystem W) (input : FeedInput W) :
    s.log.tip.revision ≤ (step timing s input).2.log.tip.revision := by
  cases input with
  | commit epochs newest =>
    rw [step]
    split
    · simp [BoardLog.commit]
    all_goals exact Nat.le_refl _
  | _ =>
    refine Nat.le_of_eq (congrArg (fun log : BoardLog => log.tip.revision) ?_)
    simp only [step, readRows, pushTo, openStream, onServer, receive, leave, setStream, setWatcher]
    repeat' split
    all_goals rfl

/-- In every run a watcher was handed, in order and once each, exactly the revisions after the
one it starts at: the one it was started after, if the board held it, and otherwise the one that
its first event, a reset, names, which was the tip when a stream of it read the tip.  One that
waits was handed all that was published. -/
theorem revisions_are_handed_once (timing : WatchTiming) (log : BoardLog) (after : W → Option Nat)
    (inputs : List (FeedInput W)) (w : W) :
    let first := initial timing log after
    let s := exec (step timing) first inputs
    let handed := (s.watchers w).watch.handed
    let tipRead := fun t => ∃ m ∈ moments (step timing) first inputs,
      m.before.ReadsTip w m.input ∧ m.before.log.tip.revision = t
    ∃ start count, StartsAt ⟨after w, tipRead⟩ handed start ∧
      (∀ a, after w = some a → a ≤ log.tip.revision → start = a) ∧
      (revisionsOf handed).map (·.revision) = range' (start + 1) count ∧
      (∀ row ∈ revisionsOf handed, row ∈ s.log.revisions) ∧
      ∀ stream, s.Waiting w stream → s.published ≤ start + count := by
  intro first s handed tipRead
  have hsound : s.Sound fun w => ⟨after w, fun t => ∃ m ∈ moments (step timing) first inputs,
      m.before.ReadsTip w m.input ∧ m.before.log.tip.revision = t⟩ := by
    refine exec_invariant_at (fun m hm h => Sound.step timing h fun w hreads => ?_)
      (initial_sound timing log _)
    exact ⟨m, hm, hreads, rfl⟩
  -- A tip that was read is no lower than the board's first one.
  have hheld : ∀ {start : Nat}, StartsAt ⟨after w, tipRead⟩ handed start →
      ∀ a, after w = some a → a ≤ log.tip.revision → start = a := by
    intro start hstart a ha hle
    rcases hstart.after a ha with hsame | ⟨hlt, -, m, hm, -, htip⟩
    · exact hsame
    have hgrown : log.tip.revision ≤ m.before.log.tip.revision :=
      (moment_of_mem (I := fun s : FeedSystem W => log.tip.revision ≤ s.log.tip.revision)
        (fun s input h => h.trans (tip_le_step timing s input)) (Nat.le_refl _) hm).1
    omega
  cases (hsound.watched w).delivered with
  | reached start c hreached =>
    refine ⟨start, c - start, hreached.start, hheld hreached.start, ?_, ?_, ?_⟩
    · have hle := hreached.le
      have hbound := hreached.bound
      rw [hreached.handed]
      exact s.log.numbers_between (by omega)
    · rw [hreached.handed]
      exact fun row hrow => mem_of_mem_drop (mem_of_mem_take hrow)
    intro stream hwaiting
    obtain ⟨d, hd, hpublished⟩ := hsound.waiting hwaiting
    obtain rfl := hd.1 c hreached.cursor
    omega
  | fresh hnothing hcursor _ =>
    have hempty : revisionsOf handed = [] := by
      rw [show handed = [] from hnothing]
      rfl
    have hstart : ∀ {start : Nat}, (∀ a, after w = some a → start = a) →
        StartsAt ⟨after w, tipRead⟩ handed start := fun hafter =>
      ⟨fun a ha => .inl (hafter a ha), fun _ hheard => absurd hnothing hheard⟩
    obtain ⟨start, hafter, hwaits⟩ : ∃ start, (∀ a, after w = some a → start = a) ∧
        ∀ stream, s.Waiting w stream → s.published ≤ start := by
      by_cases hwaits : ∃ stream, s.Waiting w stream
      · obtain ⟨stream, hwaiting⟩ := hwaits
        obtain ⟨d, hd, hpublished⟩ := hsound.waiting hwaiting
        exact ⟨d, fun a ha => (hd.1 a (hcursor.trans ha)).symm, fun _ _ => hpublished⟩
      · exact ⟨(after w).getD 0, fun a ha => (by rw [ha]; rfl),
          fun stream hwaiting => absurd ⟨stream, hwaiting⟩ hwaits⟩
    refine ⟨start, 0, hstart hafter, hheld (hstart hafter), ?_, ?_, hwaits⟩
    · rw [hempty]
      rfl
    · rw [hempty]
      exact fun row hrow => absurd hrow not_mem_nil

/-! A watch that is started after a revision the board has not made yet. -/

def sampleTiming : WatchTiming where
  pause := 1000
  minBackoff := 100
  maxBackoff := 8000
  busyFor := 75000
  busyTries := 32
  attempts := 5

/-- A stream is opened past the tip of an empty board and read, a revision is committed, and
the stream is opened again and read. -/
def startedTooEarly : List (FeedInput Unit) :=
  [.openStream (), .readTip () true, .drain (), .readStore () true, .receive () false, .cut () none,
    .commit [1] 1, .readRows true true, .takeSubscribers, .push,
    .openStream (), .readTip () true, .drain (), .readStore () true, .receive () false,
    .receive () false]

/-- A watcher that was started after revision 5 is handed revision 1. -/
theorem earlier_revision_is_handed :
    let s := exec (step sampleTiming) (initial sampleTiming .empty fun _ => some 5) startedTooEarly
    (revisionsOf (s.watchers ()).watch.handed).map (·.revision) = [1] ∧
      ∀ count, (revisionsOf (s.watchers ()).watch.handed).map (·.revision) ≠
        range' (5 + 1) count := by
  have hhanded : (revisionsOf ((exec (step sampleTiming)
      (initial sampleTiming .empty fun _ => some 5)
      startedTooEarly).watchers ()).watch.handed).map (·.revision) = [1] := by decide
  refine ⟨hhanded, fun count => ?_⟩
  cases count with
  | zero => exact cons_ne_nil 1 []
  | succ count => exact fun h => absurd (cons.inj h).1 (by decide)

end FeedSystem

end Quecto.Feed
