/-
  Board/Text/Text.lean --- markdown text as it enters the board, and its runs of blank
  lines.

  Source: `domain/project_board/value_objects/board_text.rs`.
-/
import Quecto.Board.Text.Block
import Quecto.Foundation.Search
import Mathlib.Data.List.Forall2
import Mathlib.Data.List.ReduceOption

namespace Quecto.Board.BoardText

open Foundation List

structure KeptLine where
  written : Text
  gap : Bool
  proseBlank : Bool
  deriving DecidableEq

def listItem (line : Text) : Bool :=
  let rest := line.dropWhile (· == ' ')
  let digits := (rest.takeWhile Char.isDigit).length
  let marker : Option Nat :=
    if digits = 0 then
      if rest.head?.any fun c => c == '-' || c == '*' || c == '+' then some 1 else none
    else if digits ≤ 9 then
      if (rest.drop digits).head?.any fun c => c == '.' || c == ')' then some (digits + 1) else none
    else none
  decide (line.length - rest.length ≤ closingIndent) &&
    marker.any fun width => (rest.drop width).head? == some ' '

/-- The list each line that holds something belongs to, read loosely: `list` is the open one,
`lists` how many were opened, `afterBlank` whether a blank line came just before. -/
def owners (list : Option Nat) (lists : Nat) (afterBlank : Bool) : List KeptLine → List (Option Nat)
  | [] => []
  | kept :: rest =>
    if kept.proseBlank then none :: owners list lists true rest
    else
      let indented := kept.written.head?.any spacing
      let item := listItem kept.written
      match list, item, afterBlank && !indented with
      | some opened, _, false => some opened :: owners (some opened) lists false rest
      | some opened, true, true => some opened :: owners (some opened) lists false rest
      | none, true, _ => some (lists + 1) :: owners (some (lists + 1)) (lists + 1) false rest
      | some _, false, true => none :: owners none lists false rest
      | none, false, _ => none :: owners none lists false rest

/-- A run of blank prose lines: where it starts and stops, whether it holds an emptied chat line,
and the list it stands inside, if any. -/
structure BlankRun where
  start : Nat
  stop : Nat
  chat : Bool
  inside : Option Nat
  deriving DecidableEq

def runStop (kept : List KeptLine) (start : Nat) : Nat :=
  start + ((kept.drop start).takeWhile (·.proseBlank)).length

def runInside (kept : List KeptLine) (owner : List (Option Nat)) (start stop : Nat) : Option Nat :=
  match start, kept[stop]? with
  | before + 1, some after =>
    if listItem after.written && owner.getD before none == owner.getD stop none then
      owner.getD before none
    else none
  | _, _ => none

def blankRuns (kept : List KeptLine) (owner : List (Option Nat)) (start : Nat) : List BlankRun :=
  if start < kept.length then
    let stop := runStop kept start
    let rest := blankRuns kept owner (max stop (start + 1))
    if start < stop then
      ⟨start, stop, ((kept.take stop).drop start).any (·.gap),
        runInside kept owner start stop⟩ :: rest
    else rest
  else []
termination_by kept.length - start
decreasing_by omega

def fillLines (settled : List (Option Text)) (start stop : Nat) (line : Option Text) :
    List (Option Text) :=
  settled.mapIdx fun at_ held => if start ≤ at_ ∧ at_ < stop then line else held

def settleRun (loose : List Nat) (settled : List (Option Text)) (run : BlankRun) :
    List (Option Text) :=
  let tight := run.inside.any fun list => !loose.contains list
  match run.chat, tight with
  | true, true => fillLines settled run.start run.stop none
  | true, false => fillLines (settled.set run.start (some [])) (run.start + 1) run.stop none
  | false, _ => settled

/-- `kept` with each run of blank prose lines that holds an emptied chat line made one empty line,
or none between two items of a list with no other blank line between its items. -/
def settledGaps (kept : List KeptLine) : List (Option Text) :=
  let runs := blankRuns kept (owners none 0 false kept) 0
  let loose := runs.filterMap fun run => if run.chat then none else run.inside
  runs.foldl (settleRun loose) (kept.map fun line => some line.written)

/-! ## What settling does to a line -/

def Settles (kept : KeptLine) (settled : Option Text) : Prop :=
  settled = some kept.written ∨ kept.proseBlank ∧ (settled = none ∨ settled = some [])

variable {kept : List KeptLine} {owner : List (Option Nat)} {from_ : Nat} {run : BlankRun}
  {settled : List (Option Text)}

lemma proseBlank_of_mem_blankRuns (h : run ∈ blankRuns kept owner from_) {i : Nat}
    (hi : i < kept.length) (hstart : run.start ≤ i) (hstop : i < run.stop) :
    kept[i].proseBlank := by
  fun_induction blankRuns kept owner from_ with
  | case1 start hlen stop rest hrun ih =>
    rcases mem_cons.mp h with rfl | h
    · -- The run is what `takeWhile` took from `start` on.
      have hoff : i - start < ((kept.drop start).takeWhile (·.proseBlank)).length := by
        have : stop = runStop kept start := rfl
        simp only [runStop] at this
        simp only at hstart hstop
        omega
      have hmem := getElem_mem hoff
      have hblank := mem_takeWhile_imp hmem
      rw [( takeWhile_prefix _).getElem hoff] at hblank
      simpa [Nat.add_sub_cancel' hstart] using hblank
    · exact ih h
  | case2 start hlen stop rest hrun ih => exact ih h
  | case3 start hlen => cases h

lemma settles_fillLines {start stop : Nat} {line : Option Text}
    (hline : line = none ∨ line = some [])
    (hblank : ∀ i (hi : i < kept.length), start ≤ i → i < stop → kept[i].proseBlank)
    (h : List.Forall₂ Settles kept settled) :
    List.Forall₂ Settles kept (fillLines settled start stop line) := by
  rw [forall₂_iff_get] at h ⊢
  refine ⟨by simp [fillLines, h.1], fun i h₁ h₂ => ?_⟩
  have hlen : i < settled.length := by rw [← h.1]; exact h₁
  simp only [get_eq_getElem, fillLines, getElem_mapIdx]
  split
  · rename_i hin
    exact .inr ⟨hblank i h₁ hin.1 hin.2, hline⟩
  · exact h.2 i h₁ hlen

lemma set_eq_fillLines (settled : List (Option Text)) (i : Nat) (line : Option Text) :
    settled.set i line = fillLines settled i (i + 1) line := by
  apply ext_getElem
  · simp [fillLines]
  intro j h₁ h₂
  simp only [getElem_set, fillLines, getElem_mapIdx]
  have hiff : i ≤ j ∧ j < i + 1 ↔ i = j := by omega
  simp only [hiff]

lemma settles_settleRun (loose : List Nat)
    (hblank : ∀ i (hi : i < kept.length), run.start ≤ i → i < run.stop → kept[i].proseBlank)
    (hrun : run.start < run.stop) (h : List.Forall₂ Settles kept settled) :
    List.Forall₂ Settles kept (settleRun loose settled run) := by
  simp only [settleRun]
  split
  · exact settles_fillLines (.inl rfl) hblank h
  · rw [set_eq_fillLines]
    refine settles_fillLines (.inl rfl) (fun i hi h₁ h₂ => hblank i hi (by omega) h₂) ?_
    exact settles_fillLines (.inr rfl) (fun i hi h₁ h₂ => hblank i hi h₁ (by omega)) h
  · exact h

lemma start_lt_stop_of_mem_blankRuns (h : run ∈ blankRuns kept owner from_) :
    run.start < run.stop := by
  fun_induction blankRuns kept owner from_ with
  | case1 start hlen stop rest hrun ih =>
    rcases mem_cons.mp h with rfl | h
    · exact hrun
    · exact ih h
  | case2 start hlen stop rest hrun ih => exact ih h
  | case3 start hlen => cases h

lemma settles_settledGaps (kept : List KeptLine) :
    List.Forall₂ Settles kept (settledGaps kept) := by
  -- One fill after the other, over the runs the scan found.
  have hfold : ∀ (loose : List Nat) (runs : List BlankRun) (settled : List (Option Text)),
      (∀ run ∈ runs, run ∈ blankRuns kept (owners none 0 false kept) 0) →
      List.Forall₂ Settles kept settled →
      List.Forall₂ Settles kept (runs.foldl (settleRun loose) settled) := by
    intro loose runs
    induction runs with
    | nil => exact fun settled _ h => h
    | cons run runs ih =>
      intro settled hruns h
      have hrun := hruns run mem_cons_self
      exact ih _ (fun run' h' => hruns run' (mem_cons_of_mem _ h'))
        (settles_settleRun loose (fun i hi => proseBlank_of_mem_blankRuns hrun hi)
          (start_lt_stop_of_mem_blankRuns hrun) h)
  refine hfold _ _ _ (fun run h => h) ?_
  rw [forall₂_map_right_iff]
  exact forall₂_same.mpr fun line _ => .inl rfl

lemma settledGaps_of_no_gap (h : ∀ line ∈ kept, line.gap = false) :
    settledGaps kept = kept.map fun line => some line.written := by
  have hchat : ∀ (owner : List (Option Nat)) (from_ : Nat), ∀ run ∈ blankRuns kept owner from_,
      run.chat = false := by
    intro owner from_
    fun_induction blankRuns kept owner from_ with
    | case1 start hlen stop rest hrun ih =>
      intro run hmem
      rcases mem_cons.mp hmem with rfl | hmem
      · refine any_eq_false.mpr fun line hline => ?_
        simp [h line (mem_of_mem_take (mem_of_mem_drop hline))]
      · exact ih run hmem
    | case2 start hlen stop rest hrun ih => exact ih
    | case3 start hlen => exact fun run hmem => by cases hmem
  have hfold : ∀ (loose : List Nat) (runs : List BlankRun) (settled : List (Option Text)),
      (∀ run ∈ runs, run.chat = false) → runs.foldl (settleRun loose) settled = settled := by
    intro loose runs
    induction runs with
    | nil => exact fun settled _ => rfl
    | cons run runs ih =>
      intro settled hruns
      rw [foldl_cons, settleRun, hruns run mem_cons_self]
      exact ih settled fun run' h' => hruns run' (mem_cons_of_mem _ h')
  exact hfold _ _ _ (hchat _ 0)

inductive Place where
  | prose (marked : Bool)
  | fenced (opened : Fence)
  | html
  | unknown
  deriving DecidableEq

namespace Place

def inProse : Place → Bool
  | prose _ => true
  | _ => false

def edge (place : Place) : Edge := if place.inProse then .prose else .code

end Place

section

variable (isAlphanumeric : Char → Bool)

def writeLine (place : Place) (line : Text) (beforeBlank : Bool) : Place × Text :=
  match place with
  | .fenced opened => if opened.closedBy line then (.prose false, line) else (.fenced opened, line)
  | .html =>
    if (Fence.openedBy line).isSome || htmlBlock line == some .ownClose || definesFootnote line then
      (.unknown, line)
    else if blank line then (.prose false, line)
    else (.html, line)
  | .unknown => (.unknown, line)
  | .prose marked =>
    match Fence.openedBy line, htmlBlock line with
    | some opened, _ => if opened.atMargin then (.fenced opened, line) else (.unknown, line)
    | none, some .blankLine => (.html, line)
    | none, some .ownClose => (.unknown, line)
    | none, none =>
      if definesFootnote line then (.unknown, line)
      else if blank line then (.prose false, line)
      else
        let marked := marked || line.any (fun c => c == backtick || c == '$' || c == '<') ||
          links line
        (.prose marked, if marked then line else withoutTrailing isAlphanumeric line beforeBlank)

def nextBlank (rest : List Text) : Bool := rest.head?.all fun next => blank (plainSpaces next)

def keepLine (place : Place) (raw : Text) (beforeBlank : Bool) : KeptLine × Place :=
  let line := withoutChat raw place.edge
  let (next, written) := writeLine isAlphanumeric place line beforeBlank
  (⟨written, place.inProse && line.isEmpty && raw.any chat, place.inProse && blank written⟩, next)

def walk (place : Place) : List Text → List KeptLine × Place
  | [] => ([], place)
  | raw :: rest =>
    let (kept, next) := keepLine isAlphanumeric place raw (nextBlank rest)
    let (lines, last) := walk next rest
    (kept :: lines, last)

def keptEnd (kept : List Text) (first : Nat) (last : Place) : Nat :=
  if last.inProse then (rposition (fun line => !blank line) kept).elim first (· + 1)
  else
    -- Only a final line end after a line that holds something goes.
    match kept.reverse with
    | final :: before :: _ =>
      if final = [] ∧ before ≠ [] then kept.length - 1 else kept.length
    | _ => kept.length

def withinEdges (first stop : Nat) (settled : List (Option Text)) : List (Option Text) :=
  settled.mapIdx fun at_ line => if first ≤ at_ ∧ at_ < max stop first then line else none

def keptLines (raw : Text) : List (Option Text) :=
  let unified := replaceWhere (· == '\r') '\n' (replaceCrlf raw)
  let (kept, last) := walk isAlphanumeric (.prose false) (unified.splitOn '\n')
  let written := kept.map (·.written)
  let first := (position (fun line => !blank line) written).getD written.length
  withinEdges first (keptEnd written first last) (settledGaps kept)

def text (raw : Text) : Text := ['\n'].intercalate (keptLines isAlphanumeric raw).reduceOption

def notEntered : String :=
  "must be board text as it enters (normalised: one LF between " ++
    "lines, no blank lines at its edges, no trailing space where no hard break forms)"

def enteredText (field : String) (held : Text) : Except SchemaError Unit :=
  if text isAlphanumeric held = held then .ok () else .error ⟨field, notEntered⟩

end

variable {isAlphanumeric : Char → Bool}

/-! ## One line of the walk -/

variable {line raw : Text} {place place' : Place} {beforeBlank before before' : Bool}

lemma blank_iff : blank line ↔ ∀ c ∈ line, spacing c := by
  simp [blank]

variable (isAlphanumeric) in
lemma writeLine_written (place : Place) (line : Text) (beforeBlank : Bool) :
    (writeLine isAlphanumeric place line beforeBlank).2 = line ∨
      (writeLine isAlphanumeric place line beforeBlank).2 =
        withoutTrailing isAlphanumeric line beforeBlank := by
  simp only [writeLine]
  repeat' split
  all_goals first | exact .inl rfl | exact .inr rfl

@[simp] lemma keepLine_written (place : Place) (raw : Text) (beforeBlank : Bool) :
    (keepLine isAlphanumeric place raw beforeBlank).1.written =
      (writeLine isAlphanumeric place (withoutChat raw place.edge) beforeBlank).2 := rfl

lemma keepLine_written_subset :
    (keepLine isAlphanumeric place raw beforeBlank).1.written ⊆ withoutChat raw place.edge := by
  rw [keepLine_written]
  rcases writeLine_written isAlphanumeric place (withoutChat raw place.edge)
    beforeBlank with h | h
  · rw [h]
    exact List.Subset.refl _
  · rw [h]
    exact withoutTrailing_subset _ _

variable (isAlphanumeric) in
lemma filter_keepLine {q : Char → Bool} (hq : ∀ c, spaced c → q c = false) (place : Place)
    (raw : Text) (beforeBlank : Bool) :
    (keepLine isAlphanumeric place raw beforeBlank).1.written.filter q = raw.filter q := by
  have hspacing : ∀ c, spacing c → q c = false := fun c hc => hq c (by simp [spaced, hc])
  rw [← filter_withoutChat hq raw place.edge]
  rcases writeLine_written isAlphanumeric place (withoutChat raw place.edge)
    beforeBlank with h | h
  · rw [keepLine_written, h]
  · rw [keepLine_written, h, filter_withoutTrailing hspacing]

lemma unchanged_keepLine (place : Place) (raw : Text) (beforeBlank : Bool) :
    unchanged (keepLine isAlphanumeric place raw beforeBlank).1.written = unchanged raw := by
  apply filter_keepLine
  intro c hc
  simp only [spaced, spacing, Bool.or_eq_true] at hc
  rcases hc with (hc | hc) | hc <;> simp [normalisedSpacing, hc]

lemma spaced_of_keepLine_blank
    (h : blank (keepLine isAlphanumeric place raw beforeBlank).1.written) :
    ∀ c ∈ raw, spaced c := by
  have hsolid := filter_keepLine isAlphanumeric (q := fun c => !spaced c)
    (fun c hc => by simp [hc]) place raw beforeBlank
  rw [filter_eq_nil_iff.mpr fun c hc => by simp [spaced, blank_iff.mp h c hc]] at hsolid
  simpa using filter_eq_nil_iff.mp hsolid.symm

lemma blank_plainSpaces (h : ∀ c ∈ raw, spaced c) : blank (plainSpaces raw) :=
  blank_iff.mpr fun _ => spacing_of_mem_plainSpaces h

lemma blank_withoutChat (h : ∀ c ∈ raw, spaced c) (edge : Edge) : blank (withoutChat raw edge) := by
  refine blank_iff.mpr fun c hc => ?_
  rcases mem_of_mem_withoutChat hc with hmem | hspacing
  · simpa [spaced, not_chat_of_mem_withoutChat hc] using h c hmem
  · exact hspacing

lemma dropWhile_of_blank (h : blank line) : line.dropWhile containerMark = [] := by
  rw [dropWhile_eq_nil_iff]
  intro c hc
  have := blank_iff.mp h c hc
  simp only [spacing, Bool.or_eq_true] at this
  rcases this with hc | hc <;> simp [containerMark, hc]

lemma writeLine_blank (h : blank line) (marked : Bool) (beforeBlank : Bool) :
    writeLine isAlphanumeric (.prose marked) line beforeBlank = (.prose false, line) := by
  simp [writeLine, Fence.openedBy, htmlBlock, definesFootnote, dropWhile_of_blank h, h]

lemma keepLine_of_proseBlank (hprose : place.inProse)
    (h : blank (keepLine isAlphanumeric place raw beforeBlank).1.written) :
    (keepLine isAlphanumeric place raw beforeBlank).2 = .prose false := by
  have hline := blank_withoutChat (spaced_of_keepLine_blank h) place.edge
  cases place with
  | prose marked => exact congrArg Prod.fst (writeLine_blank hline marked beforeBlank)
  | fenced opened | html | unknown => cases hprose

lemma keepLine_proseBlank (place : Place) (raw : Text) (beforeBlank : Bool) :
    (keepLine isAlphanumeric place raw beforeBlank).1.proseBlank =
      (place.inProse && blank (keepLine isAlphanumeric place raw beforeBlank).1.written) := rfl

/-! ## A second look at a line -/

/-- The place of a second walk beside that of the first: the same, but for a paragraph that may be
marked where the first saw it begin. -/
inductive Follows : Place → Place → Prop
  | prose {marked marked' : Bool} (h : marked → marked') : Follows (.prose marked) (.prose marked')
  | other {place : Place} (h : place.inProse = false) : Follows place place

lemma Follows.refl (place : Place) : Follows place place := by
  cases place with
  | prose marked => exact .prose id
  | fenced opened | html | unknown => exact .other rfl

variable (isAlphanumeric) in
lemma writeLine_other (h : place.inProse = false) (line : Text) (before before' : Bool) :
    writeLine isAlphanumeric place line before = writeLine isAlphanumeric place line before' ∧
      (writeLine isAlphanumeric place line before).2 = line := by
  cases place with
  | prose marked => cases h
  | fenced opened =>
    refine ⟨rfl, ?_⟩
    simp only [writeLine]
    split <;> rfl
  | html =>
    refine ⟨rfl, ?_⟩
    simp only [writeLine]
    repeat' split
    all_goals rfl
  | unknown => exact ⟨rfl, rfl⟩

lemma not_blank_rdropWhile (h : line.rdropWhile spacing ≠ []) :
    blank (line.rdropWhile spacing) = false := by
  rw [← Bool.not_eq_true, blank_iff]
  intro hall
  exact absurd (hall _ (getLast_mem h)) ( rdropWhile_last_not _ _ h)

structure Paragraph (line : Text) : Prop where
  fence : Fence.openedBy line = none
  html : htmlBlock line = none
  footnote : definesFootnote line = false
  blank : blank line = false

def marks (line : Text) : Bool :=
  line.any (fun c => c == backtick || c == '$' || c == '<') || links line

lemma writeLine_paragraph (h : Paragraph line) (marked before : Bool) :
    writeLine isAlphanumeric (.prose marked) line before = (.prose (marked || marks line),
        if marked || marks line then line else withoutTrailing isAlphanumeric line before) := by
  simp only [writeLine, h.fence, h.html, h.footnote, h.blank, Bool.false_eq_true, if_false, marks,
    Bool.or_assoc]

variable (isAlphanumeric) in
lemma writeLine_opening (h : ¬ Paragraph line) : ∃ next, ∀ marked before,
      writeLine isAlphanumeric (.prose marked) line before = (next, line) := by
  rcases hfence : Fence.openedBy line with _ | opened
  · rcases hhtml : htmlBlock line with _ | _ | _
    · cases hnote : definesFootnote line with
      | true => exact ⟨.unknown, fun marked before => by simp [writeLine, hfence, hhtml, hnote]⟩
      | false =>
        cases hblank : blank line with
        | true => exact ⟨_, fun marked before => writeLine_blank hblank marked before⟩
        | false => exact absurd ⟨hfence, hhtml, hnote, hblank⟩ h
    · exact ⟨.html, fun marked before => by simp [writeLine, hfence, hhtml]⟩
    · exact ⟨.unknown, fun marked before => by simp [writeLine, hfence, hhtml]⟩
  · refine ⟨if opened.atMargin then .fenced opened else .unknown, fun marked before => ?_⟩
    simp only [writeLine, hfence]
    split <;> rfl

variable (isAlphanumeric) in
lemma Paragraph.withoutTrailing (h : Paragraph line) (before : Bool) :
    Paragraph (withoutTrailing isAlphanumeric line before) := by
  rcases withoutTrailing_cases isAlphanumeric line before with heq | ⟨heq, hne⟩
  · rw [heq]
    exact h
  have hsplit := rdropWhile_append_rtakeWhile (p := spacing) (l := line)
  rw [heq]
  exact {
    fence := openedBy_of_append_spacing (fun c hc => mem_rtakeWhile_imp hc)
      (hsplit.symm ▸ h.fence)
    html := htmlBlock_of_append (hsplit.symm ▸ h.html)
    footnote := definesFootnote_of_append (hsplit.symm ▸ h.footnote)
    blank := not_blank_rdropWhile hne }

variable (isAlphanumeric) in
lemma writeLine_again (hplace : Follows place place') (line : Text) (hbefore : before' → before) :
    ∃ next', writeLine isAlphanumeric place'
        (writeLine isAlphanumeric place line before).2 before' =
        (next', (writeLine isAlphanumeric place line before).2) ∧
      Follows (writeLine isAlphanumeric place line before).1 next' := by
  cases hplace with
  | other h =>
    obtain ⟨hsame, hline⟩ := writeLine_other isAlphanumeric h line before before'
    refine ⟨_, ?_, Follows.refl _⟩
    rw [hline, ← hsame]
    exact Prod.ext rfl hline
  | @prose marked marked' h =>
    by_cases hpar : Paragraph line
    · rw [writeLine_paragraph hpar]
      cases hmarks : marked || marks line with
      | true =>
        -- Marked: the second walk is marked here too, by its own mark or by the line's.
        have hmarks' : (marked' || marks line) = true := by
          rw [Bool.or_eq_true] at hmarks ⊢
          exact hmarks.imp_left h
        refine ⟨_, (writeLine_paragraph hpar marked' before').trans ?_, .prose fun _ => hmarks'⟩
        simp [hmarks']
      | false =>
        have hpar' := hpar.withoutTrailing isAlphanumeric before
        refine ⟨.prose (marked' || marks (withoutTrailing isAlphanumeric line before)),
          (writeLine_paragraph hpar' marked' before').trans ?_, .prose (by simp)⟩
        simp [withoutTrailing_again hbefore]
    · obtain ⟨next, hnext⟩ := writeLine_opening isAlphanumeric hpar
      rw [hnext]
      exact ⟨next, hnext _ _, Follows.refl next⟩

lemma not_chat_of_mem_keepLine {c : Char}
    (h : c ∈ (keepLine isAlphanumeric place raw before).1.written) : chat c = false :=
  not_chat_of_mem_withoutChat (keepLine_written_subset h)

variable (isAlphanumeric) in
lemma keepLine_again (hplace : Follows place place') (raw : Text) (hbefore : before' → before) :
    let written := (keepLine isAlphanumeric place raw before).1.written
    ∃ next', keepLine isAlphanumeric place' written before' =
        (⟨written, false, place'.inProse && blank written⟩, next') ∧
      Follows (keepLine isAlphanumeric place raw before).2 next' := by
  obtain ⟨next', hwrite, hnext⟩ := writeLine_again isAlphanumeric hplace
    (withoutChat raw place.edge) hbefore
  have hchat : ∀ c ∈ (keepLine isAlphanumeric place raw before).1.written, chat c = false :=
    fun c => not_chat_of_mem_keepLine
  have hany : (keepLine isAlphanumeric place raw before).1.written.any chat = false :=
    any_eq_false.mpr fun c hc => by simp [hchat c hc]
  refine ⟨next', ?_, hnext⟩
  rw [keepLine, withoutChat_eq_self hchat, hany]
  simp only [keepLine_written, hwrite, Bool.and_false]

end Quecto.Board.BoardText
