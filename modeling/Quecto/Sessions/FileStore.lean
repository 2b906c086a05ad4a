/-
  Sessions/FileStore.lean --- the file-backed store of one session.

  Source: `infrastructure/persistence/file/sessions/session_store{,_write}.rs`.
-/
import Quecto.Sessions.Transcript

namespace Quecto.Sessions

open List

variable {ω ρ ε : Type}

structure FileStore (ω ρ : Type) where
  file : Option (Transcript ω ρ)
  vouched : Bool

def FileStore.appendable (store : FileStore ω ρ) : Bool := store.vouched && store.file.isSome

/-! ## What becomes of a write -/

inductive Reach where
  | refused
  | unwritten
  | torn (readable : Bool)
  | unterminated
  | written
  deriving DecidableEq

inductive Landing (ε : Type) where
  | saved
  | collecting
  | failed (reach : Reach) (error : ε)
  | dropped (reach : Reach)

namespace Landing

def reach : Landing ε → Reach
  | saved | collecting => .written
  | failed reach _ | dropped reach => reach

def answer : Landing ε → Option (Except ε Unit)
  | saved => some (.ok ())
  | failed _ error => some (.error error)
  | collecting | dropped _ => none

def remembers : Landing ε → Bool
  | saved | collecting => true
  | failed _ _ | dropped _ => false

variable {landing : Landing ε}

lemma eq_saved (h : landing.answer = some (.ok ())) : landing = saved := by
  cases landing with
  | saved => rfl
  | _ => cases h

lemma reach_of_remembers (h : landing.remembers = true) : landing.reach = .written := by
  cases landing with
  | saved | collecting => rfl
  | failed reach error | dropped reach => cases h

end Landing

open Landing

/-! ## Writes -/

inductive Change (ω ρ : Type) where
  | compact (session : Session ω ρ)
  | append (record : AppendRecord ω ρ)
  | keep

/-- A line added to a file.  Behind an unterminated line it is one line with it, which no
reader takes for a record. -/
def Transcript.appended (file : Transcript ω ρ) (line : Line ω ρ) (terminated : Bool) :
    Transcript ω ρ :=
  if file.terminated || file.lines.isEmpty then ⟨file.lines ++ [line], terminated⟩
  else
    let last := file.lines.getLast?.all (·.isReadable)
    ⟨file.lines.dropLast ++ [.fragment (last && line.isReadable)], terminated⟩

/-- The file a change leaves.  A snapshot is written beside the file and renamed over it; an
append goes to the end of the file itself. -/
def Change.land (key : String) (reach : Reach) (file : Option (Transcript ω ρ)) :
    Change ω ρ → Option (Transcript ω ρ)
  | compact session =>
    if reach = .written then some ⟨[.snapshot (session.file key)], true⟩ else file
  | append record =>
    match reach with
    | .refused | .unwritten => file
    | .torn readable => file.map (·.appended (.fragment readable) false)
    | .unterminated => file.map (·.appended (.append record) false)
    | .written => file.map (·.appended (.append record) true)
  | keep => file

def FileStore.tracked (key : String) (unreadable : ε) (store : FileStore ω ρ)
    (plan : Bool → Option (Change ω ρ)) (landing : Landing ε) : Answered (FileStore ω ρ) ε :=
  if landing.reach = .refused then (landing.answer, store)
  else
    match plan store.appendable with
    | none => (landing.answer.map fun _ => .error unreadable, { store with vouched := false })
    | some change =>
      (landing.answer, ⟨change.land key landing.reach store.file, landing.remembers⟩)

def FileStore.deleteIfPresent (store : FileStore ω ρ) (landing : Landing ε) :
    Answered (FileStore ω ρ) ε :=
  if landing.reach = .refused then (landing.answer, store)
  else (landing.answer, ⟨if landing.reach = .written then none else store.file, false⟩)

def Transcript.isJsonl (file : Transcript ω ρ) : Bool :=
  match file.lines.head? with
  | some (.snapshot _) | some (.append _) => true
  | some (.legacy _) | some (.fragment _) | none => false

section

variable [DecidableEq ω] [DecidableEq ρ]

def recordsDiffer (persisted live : List Message) : Bool :=
  persisted.map messageToRecord != live.map messageToRecord

def appendOrCompact (key : String) (file : Option (Transcript ω ρ)) (session : Session ω ρ)
    (appendable : Bool) : Option (Change ω ρ) :=
  let messages := assignMissingOrdinals session.messages
  let session := { session with messages := messages }
  match file with
  | none => some (.compact session)
  | some file =>
    if !appendable || !file.isJsonl then some (.compact session)
    else
      (parseSessionRecords file).map fun parsed =>
        let previous := parsed.session
        if !parsed.intact || parsed.key != some key ||
            decide (messages.length < previous.messages.length) ||
            recordsDiffer previous.messages (messages.take previous.messages.length) then
          .compact session
        else
          let added := messages.drop previous.messages.length
          let rosterChanged := session.subagentRoster != previous.subagentRoster
          if added.isEmpty && session.workflowRun == previous.workflowRun && !rosterChanged then
            .keep
          else
            .append (appendRecord previous.messages.length added session.workflowRun
              (if rosterChanged then some session.subagentRoster else none))

omit [DecidableEq ω] [DecidableEq ρ] in
def compactOrAppendDelta (file : Option (Transcript ω ρ)) (messages : List Message)
    (previouslyPersisted : Nat) (workflowRun : Option ω) (mustCompact : Bool) : Change ω ρ :=
  if mustCompact then
    .compact ⟨assignMissingOrdinals messages, workflowRun,
      ((file.bind parseSessionRecords).map (·.session.subagentRoster)).getD []⟩
  else
    .append (appendRecord previouslyPersisted
      ((assignMissingOrdinals messages).drop previouslyPersisted) workflowRun none)

def persistedPrefixChanged (file : Transcript ω ρ) (messages : List Message)
    (previouslyPersisted : Nat) : Option Bool :=
  if messages.length < previouslyPersisted then some true
  else
    (parseSessionRecords file).map fun persisted =>
      !persisted.intact || persisted.session.messages.length != previouslyPersisted ||
        recordsDiffer persisted.session.messages
          (assignMissingOrdinals (messages.take previouslyPersisted))

def appendKnownDelta (file : Option (Transcript ω ρ)) (messages : List Message)
    (previouslyPersisted : Nat) (workflowRun : Option ω) (appendable : Bool) :
    Option (Change ω ρ) :=
  let decided := compactOrAppendDelta file messages previouslyPersisted workflowRun
  match file with
  | none => some (decided true)
  | some file =>
    if previouslyPersisted == 0 || !appendable || !file.isJsonl then some (decided true)
    else (persistedPrefixChanged file messages previouslyPersisted).map decided

def appendCleanDelta (file : Option (Transcript ω ρ)) (messages : List Message)
    (previouslyPersisted : Nat) (workflowRun : Option ω) (appendable : Bool) :
    Option (Change ω ρ) :=
  let decided := compactOrAppendDelta file messages previouslyPersisted workflowRun
  match file with
  | none => some (decided true)
  | some file =>
    some (decided (previouslyPersisted == 0 || !appendable ||
      decide (messages.length < previouslyPersisted) || !file.isJsonl))

def fileStore (key : String) (unreadable : ε) : SessionStore (FileStore ω ρ) ω ρ ε (Landing ε) where
  save session landing store :=
    if session.messages.isEmpty && session.workflowRun.isNone && session.subagentRoster.isEmpty then
      store.deleteIfPresent landing
    else store.tracked key unreadable (appendOrCompact key store.file session) landing
  saveDelta messages previouslyPersisted workflowRun landing store :=
    if messages.isEmpty && workflowRun.isNone then store.deleteIfPresent landing
    else
      store.tracked key unreadable
        (appendKnownDelta store.file messages previouslyPersisted workflowRun) landing
  saveCleanDelta messages previouslyPersisted workflowRun landing store :=
    if messages.isEmpty && workflowRun.isNone then store.deleteIfPresent landing
    else
      store.tracked key unreadable
        (appendCleanDelta store.file messages previouslyPersisted workflowRun) landing

end

/-! ## What a file holds -/

def held : Option (Transcript ω ρ) → Option (Option (List Message × Option ω))
  | none => some none
  | some file =>
    (parseSessionRecords file).map fun parsed =>
      some (parsed.session.messages, parsed.session.workflowRun)

structure Entire (key : String) (file : Option (Transcript ω ρ)) (transcript : Transcript ω ρ)
    (session : Session ω ρ) : Prop where
  file : file = some transcript
  terminated : transcript.terminated = true
  whole : Whole key transcript.lines session

variable {key : String} {file : Option (Transcript ω ρ)} {transcript : Transcript ω ρ}
  {session : Session ω ρ}

lemma Entire.parse (h : Entire key file transcript session) :
    parseSessionRecords transcript = some ⟨some key, session, true⟩ := by
  have hparse := h.whole.parse transcript.terminated
  rw [h.terminated] at hparse
  rw [← hparse, ← h.terminated]

lemma Entire.held (h : Entire key file transcript session) :
    held file = some (some (session.messages, session.workflowRun)) := by
  rw [h.file]
  show (parseSessionRecords transcript).map _ = _
  rw [h.parse]
  rfl

lemma Entire.appended (h : Entire key file transcript session) (line : Line ω ρ)
    (terminated : Bool) :
    file.map (·.appended line terminated) = some ⟨transcript.lines ++ [line], terminated⟩ := by
  rw [h.file]
  simp [Transcript.appended, h.terminated]

/-- A file that can be read, and is entire if it is read as intact.  `good` is what every
message written is known to be. -/
def Reads (key : String) (good : Message → Prop) (file : Option (Transcript ω ρ)) : Prop :=
  ∀ transcript, file = some transcript → ∃ session intact,
    parseSessionRecords transcript = some ⟨some key, session, intact⟩ ∧
      (∀ message ∈ session.messages, Stored message ∧ good message) ∧
      (intact = true → Entire key file transcript session)

structure FileStore.Sound (key : String) (good : Message → Prop) (store : FileStore ω ρ) :
    Prop where
  reads : Reads key good store.file
  vouched : store.vouched = true → ∀ transcript, store.file = some transcript →
    ∃ session, Entire key store.file transcript session

/-- The file is whole and holds `messages` and `run`. -/
def Holds (key : String) (file : Option (Transcript ω ρ)) (messages : List Message)
    (run : Option ω) : Prop :=
  ∃ transcript session, Entire key file transcript session ∧
    session.messages = messages.map (·.anonymous) ∧ session.workflowRun = run

/-- All of `messages` can be written. -/
abbrev AllWritable (messages : List Message) : Prop := ∀ message ∈ messages, Writable message

/-- Once it has landed, the change leaves a file that holds `messages` and `run`. -/
def Change.Makes (key : String) (file : Option (Transcript ω ρ)) (messages : List Message)
    (run : Option ω) : Change ω ρ → Prop
  | compact session => session.messages = messages ∧ session.workflowRun = run
  | append record => ∃ transcript session added roster, Entire key file transcript session ∧
      record = appendRecord session.messages.length added run roster ∧
      messages.map (·.anonymous) = session.messages ++ added.map (·.anonymous) ∧
      AllWritable added
  | keep => Holds key file messages run

section Landed

variable {good : Message → Prop} {store : FileStore ω ρ} {messages : List Message}
  {run : Option ω} {change : Change ω ρ}

lemma Holds.held (h : Holds key file messages run) :
    held file = some (some (messages.map (·.anonymous), run)) := by
  obtain ⟨transcript, session, hentire, hmessages, hrun⟩ := h
  rw [hentire.held, hmessages, hrun]

lemma Change.Makes.written (h : change.Makes key store.file messages run)
    (hwritable : AllWritable messages) :
    Holds key (change.land key .written store.file) messages run := by
  cases change with
  | compact session =>
    obtain ⟨rfl, rfl⟩ := h
    exact ⟨_, _, ⟨rfl, rfl, whole_snapshot key hwritable⟩, rfl, rfl⟩
  | append record =>
    obtain ⟨transcript, session, added, roster, hentire, rfl, hmessages, hadded⟩ := h
    exact ⟨_, _, ⟨hentire.appended _ true, rfl, hentire.whole.appended hadded run roster⟩,
      hmessages.symm, rfl⟩
  | keep => exact h

section

variable (hgood : ∀ message, good message → good message.anonymous)

include hgood

lemma good_anonymous (hmessages : ∀ message ∈ messages, good message) :
    ∀ message ∈ messages.map (·.anonymous), good message := by
  intro stored hstored
  obtain ⟨message, hmem, rfl⟩ := mem_map.mp hstored
  exact hgood message (hmessages message hmem)

lemma Holds.reads (h : Holds key file messages run)
    (hmessages : ∀ message ∈ messages, good message) : Reads key good file := by
  obtain ⟨transcript, session, hentire, hsession, -⟩ := h
  intro transcript' hfile
  obtain rfl : transcript = transcript' := Option.some.inj (hentire.file.symm.trans hfile)
  refine ⟨session, true, hentire.parse, fun message hmem => ?_, fun _ => hentire⟩
  refine ⟨hentire.whole.stored message hmem, ?_⟩
  rw [hsession] at hmem
  exact good_anonymous hgood hmessages message hmem

lemma Change.Makes.landed (h : change.Makes key store.file messages run)
    (hwritable : AllWritable messages)
    (hmessages : ∀ message ∈ messages, good message) (hreads : Reads key good store.file)
    {reach : Reach} (hreach : reach ≠ .torn false) :
    Reads key good (change.land key reach store.file) ∧
      (held (change.land key reach store.file) = held store.file ∨
        held (change.land key reach store.file) =
          some (some (messages.map (·.anonymous), run))) := by
  by_cases hwritten : reach = .written
  · subst hwritten
    have hholds := h.written hwritable
    exact ⟨hholds.reads hgood hmessages, .inr hholds.held⟩
  cases change with
  | compact session =>
    have hsame : Change.land key reach store.file (.compact session) = store.file := if_neg hwritten
    rw [hsame]
    exact ⟨hreads, .inl rfl⟩
  | keep => exact ⟨hreads, .inl rfl⟩
  | append record =>
    obtain ⟨transcript, session, added, roster, hentire, rfl, hsession, hadded⟩ := h
    obtain ⟨session', intact, hparse, hstored, -⟩ := hreads transcript hentire.file
    obtain ⟨rfl, -⟩ : session = session' ∧ true = intact := by
      have heq := Option.some.inj (hentire.parse.symm.trans hparse)
      exact ⟨congrArg (·.session) heq, congrArg (·.intact) heq⟩
    cases reach with
    | refused | unwritten => exact ⟨hreads, .inl rfl⟩
    | written => exact absurd rfl hwritten
    | torn readable =>
      obtain rfl : readable = true := by
        cases readable with
        | true => rfl
        | false => exact absurd rfl hreach
      have hparse' := hentire.whole.parse_torn false
      simp only [Change.land, hentire.appended]
      constructor
      · intro transcript' heq
        cases heq
        exact ⟨session, false, hparse', hstored, nofun⟩
      left
      rw [hentire.held]
      show (parseSessionRecords _).map _ = _
      rw [hparse']
      rfl
    | unterminated =>
      have hwhole := hentire.whole.appended hadded run roster
      have hparse' := hwhole.parse false
      simp only [Change.land, hentire.appended]
      constructor
      · intro transcript' heq
        cases heq
        refine ⟨_, false, hparse', fun message hmem => ⟨hwhole.stored message hmem, ?_⟩, nofun⟩
        have hmem' : message ∈ messages.map (·.anonymous) := hsession ▸ hmem
        exact good_anonymous hgood hmessages message hmem'
      · right
        show (parseSessionRecords _).map _ = _
        rw [hparse', hsession]
        rfl

end

end Landed

/-- A file that is vouched for holds the messages before the watermark. -/
def FileStore.Agrees (key : String) (store : FileStore ω ρ) (messages : List Message)
    (watermark : Nat) : Prop :=
  0 < watermark → watermark ≤ messages.length → store.vouched = true →
    ∀ transcript session, Entire key store.file transcript session →
      session.messages = (messages.take watermark).map (·.anonymous)

/-! ## What a call of the store does -/

def stored (nothing : Bool) (messages : List Message) (run : Option ω) :
    Option (List Message × Option ω) :=
  if nothing then none else some (messages.map (·.anonymous), run)

/-- What a call made to store `messages` and `run` leaves: a sound store, the file it was
made for once it answered so, and otherwise that or what the file held. -/
structure Lands (key : String) (good : Message → Prop) (store : FileStore ω ρ) (nothing : Bool)
    (messages : List Message) (run : Option ω) (answered : Answered (FileStore ω ρ) ε) : Prop where
  sound : answered.2.Sound key good
  saved : answered.1 = some (.ok ()) →
    if nothing then answered.2.file = none else Holds key answered.2.file messages run
  fails : held answered.2.file = held store.file ∨
    held answered.2.file = some (stored nothing messages run)

section Calls

variable {good : Message → Prop} {store : FileStore ω ρ} {messages : List Message}
  {run : Option ω} {landing : Landing ε} {unreadable : ε}

lemma deleteIfPresent_lands (hsound : store.Sound key good) (messages : List Message)
    (run : Option ω) : Lands key good store true messages run (store.deleteIfPresent landing) := by
  unfold FileStore.deleteIfPresent
  by_cases hrefused : landing.reach = .refused
  · rw [if_pos hrefused]
    refine ⟨hsound, fun hsaved => ?_, .inl rfl⟩
    rw [eq_saved hsaved] at hrefused
    cases hrefused
  rw [if_neg hrefused]
  by_cases hwritten : landing.reach = .written
  · simp only [if_pos hwritten]
    exact ⟨⟨nofun, nofun⟩, fun _ => rfl, .inr rfl⟩
  simp only [if_neg hwritten]
  refine ⟨⟨hsound.reads, nofun⟩, fun hsaved => ?_, .inl rfl⟩
  rw [eq_saved hsaved] at hwritten
  exact absurd rfl hwritten

lemma tracked_lands (hgood : ∀ message, good message → good message.anonymous)
    (hsound : store.Sound key good) (hwritable : AllWritable messages)
    (hmessages : ∀ message ∈ messages, good message) (hreach : landing.reach ≠ .torn false)
    {plan : Bool → Option (Change ω ρ)} {change : Change ω ρ}
    (hplan : plan store.appendable = some change)
    (hmakes : change.Makes key store.file messages run) :
    Lands key good store false messages run (store.tracked key unreadable plan landing) := by
  unfold FileStore.tracked
  by_cases hrefused : landing.reach = .refused
  · rw [if_pos hrefused]
    refine ⟨hsound, fun hsaved => ?_, .inl rfl⟩
    rw [eq_saved hsaved] at hrefused
    cases hrefused
  rw [if_neg hrefused, hplan]
  have hwritten := hmakes.written hwritable
  obtain ⟨hreads, hheld⟩ := hmakes.landed hgood hwritable hmessages hsound.reads hreach
  refine ⟨⟨hreads, fun hvouched => ?_⟩, fun hsaved => ?_, hheld⟩
  · -- Only a write that succeeded is remembered.
    rw [reach_of_remembers hvouched]
    intro transcript hfile
    obtain ⟨transcript', session, hentire, -, -⟩ := hwritten
    obtain rfl : transcript' = transcript := Option.some.inj (hentire.file.symm.trans hfile)
    exact ⟨session, hentire⟩
  · rw [eq_saved hsaved]
    exact hwritten

section Plans

lemma stored_eq_of_records {persisted live : List Message}
    (hstored : ∀ message ∈ persisted, Stored message) (hlive : AllWritable live)
    (h : recordsDiffer persisted live = false) : persisted = live.map (·.anonymous) := by
  have hrecords : persisted.map messageToRecord = live.map messageToRecord := by
    simpa [recordsDiffer] using h
  calc persisted = persisted.map (·.anonymous) := by
        conv_lhs => rw [← map_id persisted]
        exact map_congr_left fun message hmem => (hstored message hmem).anonymous.symm
    _ = (persisted.map messageToRecord).map recordToMessage := (reads_back fun message hmem =>
          ⟨(hstored message hmem).recordable, (hstored message hmem).numbered⟩).symm
    _ = live.map (·.anonymous) := by rw [hrecords, reads_back hlive]

lemma FileStore.Sound.appendable (hsound : store.Sound key good)
    (h : store.appendable = true) :
    ∃ transcript session, Entire key store.file transcript session := by
  obtain ⟨hvouched, hsome⟩ := Bool.and_eq_true_iff.mp h
  obtain ⟨transcript, hfile⟩ := Option.isSome_iff_exists.mp hsome
  obtain ⟨session, hentire⟩ := hsound.vouched hvouched transcript hfile
  exact ⟨transcript, session, hentire⟩

variable {watermark : Nat}

lemma append_makes (hentire : Entire key file transcript session)
    (hwritable : AllWritable messages)
    (hstart : session.messages = (messages.take session.messages.length).map (·.anonymous))
    (run : Option ω) (roster : Option (List (RosterEntry ρ))) :
    (Change.append (appendRecord session.messages.length (messages.drop session.messages.length)
      run roster)).Makes key file messages run := by
  refine ⟨transcript, session, _, roster, hentire, rfl, ?_,
    fun message hmem => hwritable message (mem_of_mem_drop hmem)⟩
  conv_lhs => rw [← take_append_drop session.messages.length messages, map_append]
  rw [← hstart]

lemma numbered_of_writable (hwritable : AllWritable messages) :
    assignMissingOrdinals messages = messages :=
  assignMissingOrdinals_of_numbered fun message hmem => (hwritable message hmem).numbered

variable [DecidableEq ω] [DecidableEq ρ]

lemma appendOrCompact_makes (hsound : store.Sound key good)
    (hwritable : AllWritable session.messages) :
    ∃ change, appendOrCompact key store.file session store.appendable = some change ∧
      change.Makes key store.file session.messages session.workflowRun := by
  unfold appendOrCompact
  rw [numbered_of_writable hwritable]
  cases hfile : store.file with
  | none => exact ⟨_, rfl, rfl, rfl⟩
  | some file =>
    by_cases htrusted : (!store.appendable || !file.isJsonl) = true
    · exact ⟨_, if_pos htrusted, rfl, rfl⟩
    simp only [if_neg htrusted]
    rw [Bool.or_eq_true, not_or, Bool.not_eq_true', Bool.not_eq_false] at htrusted
    obtain ⟨transcript, previous, hentire⟩ := hsound.appendable htrusted.1
    obtain rfl : transcript = file := Option.some.inj (hentire.file.symm.trans hfile)
    rw [hentire.parse, Option.map_some]
    refine ⟨_, rfl, ?_⟩
    rw [hfile] at hentire
    split
    · exact ⟨rfl, rfl⟩
    rename_i hsame
    simp only [Bool.not_true, bne_self_eq_false, Bool.or_self, Bool.false_or, Bool.or_eq_true,
      decide_eq_true_eq, not_or, Nat.not_lt, Bool.not_eq_true] at hsame
    have hstart := stored_eq_of_records (hentire.whole.stored)
      (fun message hmem => hwritable message (mem_of_mem_take hmem)) hsame.2
    split
    · rename_i hkeep
      simp only [Bool.and_eq_true, List.isEmpty_iff, beq_iff_eq] at hkeep
      refine ⟨transcript, previous, hentire, ?_, hkeep.1.2.symm⟩
      rw [hstart, List.take_of_length_le (List.drop_eq_nil_iff.mp hkeep.1.1)]
    · exact append_makes hentire hwritable hstart _ _

omit [DecidableEq ω] [DecidableEq ρ] in
lemma rewrite_makes (hwritable : AllWritable messages) (watermark : Nat) :
    (compactOrAppendDelta file messages watermark run true).Makes key file messages run :=
  ⟨numbered_of_writable hwritable, rfl⟩

omit [DecidableEq ω] [DecidableEq ρ] in
lemma delta_makes (hentire : Entire key file transcript session)
    (hwritable : AllWritable messages) (hlength : watermark ≤ messages.length)
    (hstart : session.messages = (messages.take watermark).map (·.anonymous)) :
    (compactOrAppendDelta file messages watermark run false).Makes key file messages run := by
  have hwatermark : session.messages.length = watermark := by
    rw [hstart, length_map, length_take, Nat.min_eq_left hlength]
  unfold compactOrAppendDelta
  rw [numbered_of_writable hwritable, ← hwatermark]
  rw [← hwatermark] at hstart
  exact append_makes hentire hwritable hstart run none

section

variable (hsound : store.Sound key good) (hwritable : AllWritable messages)
include hsound hwritable

omit [DecidableEq ω] [DecidableEq ρ] in
lemma appendKnownDelta_makes (watermark : Nat) :
    ∃ change, appendKnownDelta store.file messages watermark run store.appendable = some change ∧
      change.Makes key store.file messages run := by
  unfold appendKnownDelta
  cases hfile : store.file with
  | none => exact ⟨_, rfl, rewrite_makes hwritable watermark⟩
  | some file =>
    by_cases htrusted : (watermark == 0 || !store.appendable || !file.isJsonl) = true
    · exact ⟨_, if_pos htrusted, rewrite_makes hwritable watermark⟩
    simp only [if_neg htrusted]
    rw [Bool.or_eq_true, Bool.or_eq_true, not_or, not_or, Bool.not_eq_true',
      Bool.not_eq_false] at htrusted
    obtain ⟨transcript, previous, hentire⟩ := hsound.appendable htrusted.1.2
    obtain rfl : transcript = file := Option.some.inj (hentire.file.symm.trans hfile)
    unfold persistedPrefixChanged
    split
    · exact ⟨_, rfl, rewrite_makes hwritable watermark⟩
    rename_i hlength
    rw [hentire.parse]
    rw [hfile] at hentire
    have hwritable' : AllWritable (messages.take watermark) :=
      fun message hmem => hwritable message (mem_of_mem_take hmem)
    rw [numbered_of_writable hwritable']
    refine ⟨_, rfl, ?_⟩
    show (compactOrAppendDelta _ messages watermark run
      (!true || previous.messages.length != watermark ||
        recordsDiffer previous.messages (messages.take watermark))).Makes key _ messages run
    cases hchanged : (!true || previous.messages.length != watermark ||
      recordsDiffer previous.messages (messages.take watermark)) with
    | true => exact rewrite_makes hwritable watermark
    | false =>
      rw [Bool.or_eq_false_iff] at hchanged
      exact delta_makes hentire hwritable (Nat.le_of_not_lt hlength)
        (stored_eq_of_records hentire.whole.stored hwritable' hchanged.2)

omit [DecidableEq ω] [DecidableEq ρ] in
lemma appendCleanDelta_makes (hclean : store.Agrees key messages watermark) :
    ∃ change, appendCleanDelta store.file messages watermark run store.appendable = some change ∧
      change.Makes key store.file messages run := by
  cases hfile : store.file with
  | none => exact ⟨_, rfl, rewrite_makes hwritable watermark⟩
  | some file =>
    refine ⟨_, rfl, ?_⟩
    cases hmust : (watermark == 0 || !store.appendable ||
      decide (messages.length < watermark) || !file.isJsonl) with
    | true => exact rewrite_makes hwritable watermark
    | false =>
      simp only [Bool.or_eq_false_iff, beq_eq_false_iff_ne, Bool.not_eq_false',
        decide_eq_false_iff_not, Nat.not_lt] at hmust
      obtain ⟨⟨⟨hzero, happendable⟩, hlength⟩, -⟩ := hmust
      obtain ⟨transcript, previous, hentire⟩ := hsound.appendable happendable
      have hstart := hclean (Nat.pos_of_ne_zero hzero) hlength
        (Bool.and_eq_true_iff.mp happendable).1 transcript previous hentire
      rw [hfile] at hentire
      exact delta_makes hentire hwritable hlength hstart

end

def Write.nothing (write : Write ω ρ) : Bool :=
  write.messages.isEmpty && write.workflowRun.isNone &&
    (write.mode == .cleanDelta || (write.roster.getD []).isEmpty)

lemma Write.lands (write : Write ω ρ) (unreadable : ε)
    (hgood : ∀ message, good message → good message.anonymous) (hsound : store.Sound key good)
    (hwritable : AllWritable write.messages)
    (hmessages : ∀ message ∈ write.messages, good message) (hreach : landing.reach ≠ .torn false)
    (hclean : write.mode = .cleanDelta → write.verified = false →
      store.Agrees key write.messages write.watermark) :
    Lands key good store write.nothing write.messages write.workflowRun
      (write.apply (fileStore key unreadable) landing store) := by
  have htracked : ∀ {plan : Bool → Option (Change ω ρ)},
      (∃ change, plan store.appendable = some change ∧
        change.Makes key store.file write.messages write.workflowRun) →
      Lands key good store false write.messages write.workflowRun
        (store.tracked key unreadable plan landing) := fun ⟨_, hplan, hmakes⟩ =>
    tracked_lands hgood hsound hwritable hmessages hreach hplan hmakes
  cases hmode : write.mode with
  | full =>
    have hnothing : write.nothing = (write.messages.isEmpty && write.workflowRun.isNone &&
        (write.roster.getD []).isEmpty) := by
      rw [Write.nothing, hmode]
      rfl
    rw [hnothing]
    simp only [Write.apply, hmode, fileStore]
    cases hcase : write.messages.isEmpty && write.workflowRun.isNone &&
        (write.roster.getD []).isEmpty with
    | true => exact deleteIfPresent_lands hsound _ _
    | false => exact htracked (appendOrCompact_makes hsound hwritable)
  | cleanDelta =>
    have hnothing : write.nothing = (write.messages.isEmpty && write.workflowRun.isNone) := by
      simp [Write.nothing, hmode]
    rw [hnothing]
    cases hverified : write.verified with
    | true =>
      simp only [Write.apply, hmode, hverified, fileStore]
      cases hcase : write.messages.isEmpty && write.workflowRun.isNone with
      | true => exact deleteIfPresent_lands hsound _ _
      | false => exact htracked (appendKnownDelta_makes hsound hwritable _)
    | false =>
      simp only [Write.apply, hmode, hverified, fileStore]
      cases hcase : write.messages.isEmpty && write.workflowRun.isNone with
      | true => exact deleteIfPresent_lands hsound _ _
      | false => exact htracked (appendCleanDelta_makes hsound hwritable (hclean hmode hverified))

end Plans

end Calls

end Quecto.Sessions
