/-
  Board/Text/Block.lean --- one line, and a message, as they enter the board, and what one
  line of markdown is to the normaliser.

  Source: `domain/project_board/value_objects/board_text.rs`.
-/
import Quecto.Board.Vocabulary

namespace Quecto.Board.BoardText

open Foundation List

/-! ## Characters -/

def chatSpaces : List Char := ['\u00a0', '\u202f', '\u2007', '\u3000']

def lineBreaks : List Char := ['\r', '\u2028', '\u2029', '\u0085', '\u000b']

def chat (c : Char) : Bool := chatSpaces.contains c

def lineBreak (c : Char) : Bool := lineBreaks.contains c

def spacing (c : Char) : Bool := c == ' ' || c == '\t'

def blank (line : Text) : Bool := line.all spacing

def normalisedSpacing (c : Char) : Bool :=
  c == ' ' || c == '\t' || c == '\n' || chat c || lineBreak c

def unchanged (text : Text) : Text := text.filter fun c => !normalisedSpacing c

def plainSpaces (text : Text) : Text := replaceWhere chat ' ' text

def replaceCrlf : Text → Text
  | '\r' :: '\n' :: rest => '\n' :: replaceCrlf rest
  | c :: rest => c :: replaceCrlf rest
  | [] => []

def lineEnds (raw : Text) : Text := replaceWhere lineBreak '\n' (replaceCrlf raw)

/-! ## Lines and messages -/

def line (raw : Text) : Text :=
  trimMatches (fun c => c == ' ' || c == '\n')
    (replaceWhere (· == '\t') ' ' (plainSpaces (lineEnds raw)))

def message (raw : Text) : Text :=
  ['\n'].intercalate ((((lineEnds raw).splitOn '\n').map line).filter fun kept => !kept.isEmpty)

def notEnteredLine : String :=
  "must be one line, use plain spaces only, and have no spaces or tabs at its start or end"

def notEnteredMessage : String :=
  "has spacing the board removes: use one LF between lines, no " ++
    "blank lines, and no spaces or tabs at the start or end of a line"

def enteredLine (field : String) (held : Text) : Except SchemaError Unit :=
  if line held = held then .ok () else .error ⟨field, notEnteredLine⟩

def enteredMessage (field : String) (held : Text) : Except SchemaError Unit :=
  if message held = held then .ok () else .error ⟨field, notEnteredMessage⟩

/-! ## Line ends -/

variable {text raw : Text} {c : Char}

lemma replaceCrlf_eq_self (h : '\r' ∉ text) : replaceCrlf text = text := by
  fun_induction replaceCrlf text with
  | case1 rest ih => simp at h
  | case2 c rest _ ih => rw [ih fun hc => h (mem_cons_of_mem _ hc)]
  | case3 => rfl

@[simp] lemma unchanged_replaceCrlf (text : Text) :
    unchanged (replaceCrlf text) = unchanged text := by
  unfold unchanged
  fun_induction replaceCrlf text with
  | case1 rest ih =>
    have hcr : normalisedSpacing '\r' = true := by decide
    have hlf : normalisedSpacing '\n' = true := by decide
    simp [hcr, hlf, ih]
  | case2 c rest _ ih => rw [filter_cons, filter_cons, ih]
  | case3 => rfl

lemma unchanged_replaceWhere {p : Char → Bool} {a : Char} (hp : ∀ c, p c → normalisedSpacing c)
    (ha : normalisedSpacing a) (text : Text) : unchanged (replaceWhere p a text) = unchanged text :=
  filter_replaceWhere (fun c hc => by simp [hp c hc]) (by simp [ha]) text

@[simp] lemma unchanged_lineEnds (raw : Text) : unchanged (lineEnds raw) = unchanged raw := by
  rw [lineEnds, unchanged_replaceWhere (fun c hc => by simp [normalisedSpacing, hc]) (by decide),
    unchanged_replaceCrlf]

@[simp] lemma unchanged_plainSpaces (text : Text) : unchanged (plainSpaces text) = unchanged text :=
  unchanged_replaceWhere (fun c hc => by simp [normalisedSpacing, hc]) (by decide) text

lemma unchanged_joined (lines : List Text) :
    unchanged (['\n'].intercalate lines) = (lines.map unchanged).flatten :=
  filter_intercalate (p := fun c => !normalisedSpacing c) (by decide) lines

lemma unchanged_split (text : Text) :
    ((text.splitOn '\n').map unchanged).flatten = unchanged text :=
  filter_splitOn (p := fun c => !normalisedSpacing c) (by decide) text

/-! ## Settled characters -/

def settledChar (c : Char) : Bool := !chat c && !lineBreak c && c != '\t'

lemma lineEnds_eq_self (h : ∀ c ∈ text, settledChar c) : lineEnds text = text := by
  have hcr : '\r' ∉ text := fun hmem => absurd (h _ hmem) (by decide)
  rw [lineEnds, replaceCrlf_eq_self hcr, replaceWhere_eq_self]
  intro c hc
  have := h c hc
  simp only [settledChar, Bool.and_eq_true, Bool.not_eq_true'] at this
  exact this.1.2

lemma not_lineBreak_of_mem_lineEnds (h : c ∈ lineEnds raw) : lineBreak c = false := by
  rcases mem_replaceWhere h with rfl | h
  · decide
  · exact h.2

lemma settled_of_mem_line (h : c ∈ line raw) : settledChar c := by
  rcases mem_replaceWhere (mem_of_mem_trimMatches h) with rfl | ⟨h, htab⟩
  · decide
  rcases mem_replaceWhere h with rfl | ⟨h, hchat⟩
  · decide
  have hbreak := not_lineBreak_of_mem_lineEnds h
  simp [settledChar, hchat, hbreak, bne, htab]

lemma line_of_settled (h : ∀ c ∈ text, settledChar c) :
    line text = trimMatches (fun c => c == ' ' || c == '\n') text := by
  have hchat : ∀ c ∈ text, chat c = false := fun c hc => by
    have := h c hc
    simp only [settledChar, Bool.and_eq_true, Bool.not_eq_true'] at this
    exact this.1.1
  have htab : ∀ c ∈ text, (c == '\t') = false := fun c hc => by
    have := h c hc
    simp only [settledChar, Bool.and_eq_true, bne, Bool.not_eq_true'] at this
    exact this.2
  rw [line, lineEnds_eq_self h, plainSpaces, replaceWhere_eq_self hchat, replaceWhere_eq_self htab]

@[simp] lemma line_line (raw : Text) : line (line raw) = line raw := by
  rw [line_of_settled fun c => settled_of_mem_line]
  exact trimMatches_trimMatches _

@[simp] lemma unchanged_line (raw : Text) : unchanged (line raw) = unchanged raw := by
  rw [line, unchanged, filter_trimMatches]
  · have htab := unchanged_replaceWhere (p := (· == '\t')) (a := ' ')
      (fun c hc => by simp [normalisedSpacing, beq_iff_eq.mp hc]) (by decide)
      (plainSpaces (lineEnds raw))
    rw [unchanged_plainSpaces, unchanged_lineEnds] at htab
    exact htab
  · intro c hc
    simp only [Bool.or_eq_true, beq_iff_eq] at hc
    rcases hc with rfl | rfl <;> decide

/-! ## Messages -/

def messageLines (raw : Text) : List Text :=
  (((lineEnds raw).splitOn '\n').map line).filter fun kept => !kept.isEmpty

lemma message_eq (raw : Text) : message raw = ['\n'].intercalate (messageLines raw) := rfl

lemma of_mem_messageLines {kept : Text} (h : kept ∈ messageLines raw) :
    (∃ typed, kept = line typed) ∧ kept ≠ [] ∧ '\n' ∉ kept := by
  obtain ⟨hmem, hne⟩ := mem_filter.mp h
  obtain ⟨typed, htyped, rfl⟩ := mem_map.mp hmem
  refine ⟨⟨typed, rfl⟩, by simpa using hne, fun hlf => ?_⟩
  -- The typed line holds no LF and no other line end, so normalising makes none.
  rcases mem_replaceWhere (mem_of_mem_trimMatches hlf) with hc | ⟨hc, _⟩
  · exact absurd hc (by decide)
  rcases mem_replaceWhere hc with hc | ⟨hc, _⟩
  · exact absurd hc (by decide)
  have hbreaks : ∀ c ∈ typed, lineBreak c = false := fun c hc =>
    not_lineBreak_of_mem_lineEnds (mem_of_mem_splitOn htyped hc).1
  have hcr : '\r' ∉ typed := fun hmem => absurd (hbreaks _ hmem) (by decide)
  rw [lineEnds, replaceCrlf_eq_self hcr, replaceWhere_eq_self hbreaks] at hc
  exact (mem_of_mem_splitOn htyped hc).2 rfl

lemma messageLines_message (raw : Text) : messageLines (message raw) = messageLines raw := by
  have hsettled : ∀ c ∈ message raw, settledChar c := by
    intro c hc
    rcases mem_intercalate hc with rfl | ⟨kept, hkept, hc⟩
    · decide
    · obtain ⟨⟨typed, rfl⟩, _⟩ := of_mem_messageLines hkept
      exact settled_of_mem_line hc
  rw [messageLines, lineEnds_eq_self hsettled, message_eq]
  by_cases hnone : messageLines raw = []
  · rw [hnone]
    decide
  rw [splitOn_intercalate _ (fun kept hkept => (of_mem_messageLines hkept).2.2) hnone]
  rw [map_congr_left (g := id) fun kept hkept => ?same, map_id,
    filter_eq_self.mpr fun kept hkept => ?holds]
  case same =>
    obtain ⟨⟨typed, rfl⟩, _⟩ := of_mem_messageLines hkept
    exact line_line typed
  case holds => simpa using (of_mem_messageLines hkept).2.1

lemma message_message (raw : Text) : message (message raw) = message raw := by
  rw [message_eq, messageLines_message, ← message_eq]

lemma unchanged_message (raw : Text) : unchanged (message raw) = unchanged raw := by
  have hflat : ∀ lines : List Text, (((lines.map line).filter fun kept => !kept.isEmpty).map
      unchanged).flatten = (lines.map unchanged).flatten := by
    intro lines
    induction lines with
    | nil => rfl
    | cons typed lines ih =>
      rw [map_cons, filter_cons]
      split
      · simp [ih]
      rename_i hempty
      have hnil : line typed = [] := by simpa using hempty
      have : unchanged typed = [] := by rw [← unchanged_line, hnil]; rfl
      simp [ih, this]
  calc unchanged (message raw) = ((messageLines raw).map unchanged).flatten := unchanged_joined _
    _ = (((lineEnds raw).splitOn '\n').map unchanged).flatten := hflat _
    _ = unchanged (lineEnds raw) := unchanged_split _
    _ = unchanged raw := unchanged_lineEnds raw

def backtick : Char := '\x60'

def containerMark (c : Char) : Bool :=
  c == ' ' || c == '\t' || c == '>' || c == '-' || c == '*' || c == '+' || c == '.' || c == ')' ||
    c.isDigit

/-! ## Fences -/

def closingIndent : Nat := 3

def codeIndent : Nat := 4

structure Fence where
  mark : Char
  length : Nat
  quotes : Nat
  atMargin : Bool
  deriving DecidableEq

def Fence.openedBy (line : Text) : Option Fence :=
  let marks := line.takeWhile containerMark
  let rest := line.dropWhile containerMark
  match rest with
  | [] => none
  | mark :: _ =>
    if mark == backtick || mark == '~' then
      let length := (rest.takeWhile (· == mark)).length
      let info := rest.dropWhile (· == mark)
      if decide (3 ≤ length) && (mark == '~' || !info.contains backtick) then
        some ⟨mark, length, marks.count '>', marks.isEmpty⟩
      else none
    else none

def Fence.closedBy (fence : Fence) (line : Text) : Bool :=
  let marks := line.takeWhile fun c => c == ' ' || c == '>'
  let rest := line.dropWhile fun c => c == ' ' || c == '>'
  let indent := (marks.rtakeWhile (· == ' ')).length
  let run := (rest.takeWhile (· == fence.mark)).length
  marks.count '>' == fence.quotes && decide (indent ≤ closingIndent) &&
    decide (fence.length ≤ run) && (rest.drop run).all spacing

/-! ## HTML blocks, footnotes, links -/

inductive HtmlEnd where
  | blankLine
  | ownClose
  deriving DecidableEq

def htmlBlock (line : Text) : Option HtmlEnd :=
  match line.dropWhile containerMark with
  | '<' :: opener =>
    let tag := opener.head?.any fun c => c.isAlpha || c == '/' || c == '!' || c == '?'
    let lower := opener.map Char.toLower
    let lasting := ["!", "?", "pre", "script", "style", "textarea"].any fun start =>
      start.toList.isPrefixOf lower
    match tag, lasting with
    | true, true => some .ownClose
    | true, false => some .blankLine
    | false, _ => none
  | _ => none

def links (line : Text) : Bool :=
  decide ([']', '('] <:+: line) || decide ([']', ':'] <:+: line)

def definesFootnote (line : Text) : Bool :=
  let rest := line.dropWhile containerMark
  ['[', '^'].isPrefixOf rest && decide ([']', ':'] <:+: rest)

/-! ## Trailing spacing -/

section

variable (isAlphanumeric : Char → Bool)

def safePunctuation : List Char := "!\"#$%&'()*+,-./:;<=>?@[]^_`\x7b|\x7d~".toList

def safeBeforeLineEnd (c : Char) : Bool := isAlphanumeric c || safePunctuation.contains c

def mayBeIndentedCode (line : Text) : Bool :=
  let marks := line.takeWhile containerMark
  marks.contains '\t' || decide (List.replicate codeIndent ' ' <:+: marks)

def withoutTrailing (line : Text) (beforeBlank : Bool) : Text :=
  let content := line.rdropWhile spacing
  let run := line.rtakeWhile spacing
  let breakless := run == [' '] || beforeBlank
  let safe := content.getLast?.any (safeBeforeLineEnd isAlphanumeric)
  if breakless && safe && !mayBeIndentedCode line then content else line

variable {isAlphanumeric : Char → Bool}

variable (isAlphanumeric) in
lemma withoutTrailing_cases (line : Text) (beforeBlank : Bool) :
    withoutTrailing isAlphanumeric line beforeBlank = line ∨
      (withoutTrailing isAlphanumeric line beforeBlank = line.rdropWhile spacing ∧
        line.rdropWhile spacing ≠ []) := by
  simp only [withoutTrailing]
  split
  · rename_i h
    refine .inr ⟨rfl, fun hnil => ?_⟩
    simp [hnil] at h
  · exact .inl rfl

lemma withoutTrailing_subset (line : Text) (beforeBlank : Bool) :
    withoutTrailing isAlphanumeric line beforeBlank ⊆ line := by
  rcases withoutTrailing_cases isAlphanumeric line beforeBlank with h | h
  · rw [h]
    exact List.Subset.refl line
  · rw [h.1]
    exact List.IsPrefix.subset ( rdropWhile_prefix _ _)

lemma filter_withoutTrailing {q : Char → Bool} (hq : ∀ c, spacing c → q c = false) (line : Text)
    (beforeBlank : Bool) :
    (withoutTrailing isAlphanumeric line beforeBlank).filter q = line.filter q := by
  rcases withoutTrailing_cases isAlphanumeric line beforeBlank with h | h
  · rw [h]
  rw [h.1]
  conv_rhs => rw [← rdropWhile_append_rtakeWhile (p := spacing) (l := line)]
  rw [filter_append, filter_rtakeWhile_eq_nil hq, append_nil]

lemma withoutTrailing_again {line : Text} {before before' : Bool} (h : before' → before) :
    withoutTrailing isAlphanumeric (withoutTrailing isAlphanumeric line before) before' =
      withoutTrailing isAlphanumeric line before := by
  by_cases hstrip : withoutTrailing isAlphanumeric line before = line
  · -- Nothing was stripped: the second look is no more willing than the first.
    rw [hstrip]
    cases before' with
    | true => rwa [h rfl] at hstrip
    | false =>
      simp only [withoutTrailing, Bool.or_false] at hstrip ⊢
      split
      · rename_i hcond
        rw [if_pos] at hstrip
        · exact hstrip
        · simp only [Bool.and_eq_true, Bool.or_eq_true] at hcond ⊢
          exact ⟨⟨.inl hcond.1.1, hcond.1.2⟩, hcond.2⟩
      · rfl
  · -- The content ends in no spacing, so both answers are the content.
    have hcontent := ((withoutTrailing_cases isAlphanumeric line before).resolve_left hstrip).1
    rw [hcontent]
    rcases withoutTrailing_cases isAlphanumeric (line.rdropWhile spacing) before'
      with hagain | hagain
    · exact hagain
    · rw [hagain.1, rdropWhile_idempotent]

end

/-! ## Blocks and trailing spacing

A line that opens no block opens none without its trailing spacing. -/

section

variable {content run : Text}

lemma openedBy_of_append_spacing (hrun : ∀ c ∈ run, spacing c)
    (h : Fence.openedBy (content ++ run) = none) : Fence.openedBy content = none := by
  rcases hrest : content.dropWhile containerMark with _ | ⟨mark, rest⟩
  · simp [Fence.openedBy, hrest]
  simp only [Fence.openedBy, hrest, dropWhile_append_of_cons hrest] at h ⊢
  split at h
  · rename_i hmark
    have hnot : ∀ d : Char, d = backtick ∨ d = '~' → ∀ c ∈ run, (c == d) = false := by
      intro d hd c hc
      have := hrun c hc
      simp only [spacing, Bool.or_eq_true, beq_iff_eq] at this
      rcases hd with rfl | rfl <;> rcases this with rfl | rfl <;> decide
    have hmark' : mark = backtick ∨ mark = '~' := by simpa using hmark
    have hinfo : backtick ∉ run := fun hmem =>
      absurd (hnot backtick (.inl rfl) backtick hmem) (by simp)
    rw [← cons_append, takeWhile_append_of_not (hnot mark hmark'),
      dropWhile_append_of_not (hnot mark hmark')] at h
    rw [if_pos hmark]
    simpa [hinfo] using h
  · rename_i hmark
    rw [if_neg hmark]

lemma htmlBlock_of_append (h : htmlBlock (content ++ run) = none) : htmlBlock content = none := by
  rcases hrest : content.dropWhile containerMark with _ | ⟨c, opener⟩
  · simp [htmlBlock, hrest]
  simp only [htmlBlock, hrest, dropWhile_append_of_cons hrest] at h ⊢
  split
  · rename_i opener' heq
    cases heq
    rcases opener with _ | ⟨d, opener⟩
    · simp
    simp only [cons_append, List.head?_cons, Option.any_some] at h ⊢
    split at h
    · cases h
    · cases h
    · rename_i htag
      rw [htag]
  · rfl

lemma definesFootnote_of_append (h : definesFootnote (content ++ run) = false) :
    definesFootnote content = false := by
  rcases hrest : content.dropWhile containerMark with _ | ⟨c, rest⟩
  · simp [definesFootnote, hrest]
  rw [← Bool.not_eq_true] at h ⊢
  intro hdef
  apply h
  simp only [definesFootnote, hrest, dropWhile_append_of_cons hrest, Bool.and_eq_true,
    isPrefixOf_iff_prefix, decide_eq_true_eq, ← cons_append] at hdef ⊢
  exact ⟨hdef.1.trans (prefix_append _ _), hdef.2.trans (prefix_append _ _).isInfix⟩

end

/-! ## Chat spaces -/

inductive Edge where
  | prose
  | code
  deriving DecidableEq

def spaced (c : Char) : Bool := spacing c || chat c

def headWithoutChat (edge : Edge) (head : Text) : Text :=
  match edge, head.any chat with
  | .prose, true => []
  | .prose, false => head
  | .code, _ => plainSpaces head

/-- A line's trailing run after `content`: its chat spaces go, but in prose only where nothing
forms by their going. -/
def tailWithoutChat (edge : Edge) (content tail : Text) : Text :=
  let plainOnly := tail.filter spacing
  let marks := content.getLast? == some '\\' || !plainOnly.isEmpty
  match edge, tail.any chat && marks with
  | .prose, true => plainSpaces tail
  | .prose, false => plainOnly
  | .code, _ => plainOnly

def withoutChat (line : Text) (edge : Edge) : Text :=
  let body := trimMatches spaced line
  if edge = .prose ∧ body = [] ∧ line.any chat then []
  else
    -- Spacing only: all of it is the line's end.
    let head := if body = [] then [] else line.takeWhile spaced
    let tail := if body = [] then line else (line.dropWhile spaced).rtakeWhile spaced
    let content := headWithoutChat edge head ++ plainSpaces body
    content ++ tailWithoutChat edge content tail

variable {c : Char} {edge : Edge} {line : Text}

lemma spacing_of_mem_plainSpaces {run : Text} (h : ∀ c ∈ run, spaced c)
    (hc : c ∈ plainSpaces run) : spacing c := by
  rcases mem_replaceWhere hc with rfl | ⟨hc, hchat⟩
  · decide
  · simpa [spaced, hchat] using h c hc

lemma spacing_of_mem_headWithoutChat {head : Text} (h : ∀ c ∈ head, spaced c)
    (hc : c ∈ headWithoutChat edge head) : spacing c := by
  unfold headWithoutChat at hc
  split at hc
  · cases hc
  · rename_i hchat
    have hnot : chat c = false := by simpa using any_eq_false.mp hchat c hc
    simpa [spaced, hnot] using h c hc
  · exact spacing_of_mem_plainSpaces h hc

lemma spacing_of_mem_tailWithoutChat {content tail : Text} (h : ∀ c ∈ tail, spaced c)
    (hc : c ∈ tailWithoutChat edge content tail) : spacing c := by
  simp only [tailWithoutChat] at hc
  split at hc
  · exact spacing_of_mem_plainSpaces h hc
  · exact (mem_filter.mp hc).2
  · exact (mem_filter.mp hc).2

lemma withoutChat_shape (line : Text) (edge : Edge) :
    ∃ head tail, withoutChat line edge = head ++ plainSpaces (trimMatches spaced line) ++ tail ∧
      (∀ c ∈ head, spacing c) ∧ ∀ c ∈ tail, spacing c := by
  have hhead : ∀ c ∈ line.takeWhile spaced, spaced c := fun c hc => mem_takeWhile_imp hc
  have htail : ∀ c ∈ (line.dropWhile spaced).rtakeWhile spaced, spaced c := fun c hc =>
    mem_rtakeWhile_imp hc
  simp only [withoutChat]
  split
  · rename_i h
    exact ⟨[], [], by simp [h.2.1, plainSpaces, replaceWhere], by simp, by simp⟩
  by_cases hbody : trimMatches spaced line = []
  · refine ⟨_, _, rfl, fun c => spacing_of_mem_headWithoutChat ?_,
      fun c => spacing_of_mem_tailWithoutChat ?_⟩
    · simp [hbody]
    · simpa [hbody] using trimMatches_eq_nil.mp hbody
  refine ⟨_, _, rfl, fun c => spacing_of_mem_headWithoutChat ?_,
    fun c => spacing_of_mem_tailWithoutChat ?_⟩
  · simpa [hbody] using hhead
  · simpa [hbody] using htail

lemma not_chat_of_spacing (h : spacing c) : chat c = false := by
  simp only [spacing, Bool.or_eq_true, beq_iff_eq] at h
  rcases h with rfl | rfl <;> decide

lemma filter_withoutChat {q : Char → Bool} (hq : ∀ c, spaced c → q c = false) (line : Text)
    (edge : Edge) : (withoutChat line edge).filter q = line.filter q := by
  obtain ⟨head, tail, heq, hhead, htail⟩ := withoutChat_shape line edge
  have hspacing : ∀ c, spacing c → q c = false := fun c hc => hq c (by simp [spaced, hc])
  have hdrop : ∀ run : Text, (∀ c ∈ run, spacing c) → run.filter q = [] := fun run hrun =>
    filter_eq_nil_iff.mpr fun c hc => by simp [hspacing c (hrun c hc)]
  rw [heq, filter_append, filter_append, hdrop head hhead, hdrop tail htail,
    nil_append, append_nil, plainSpaces,
    filter_replaceWhere (fun c hc => hq c (by simp [spaced, hc])) (hq ' ' (by decide)),
    filter_trimMatches hq]

lemma not_chat_of_mem_withoutChat (h : c ∈ withoutChat line edge) : chat c = false := by
  obtain ⟨head, tail, heq, hhead, htail⟩ := withoutChat_shape line edge
  rw [heq, mem_append, mem_append] at h
  rcases h with (h | h) | h
  · exact not_chat_of_spacing (hhead c h)
  · rcases mem_replaceWhere h with rfl | h
    · decide
    · exact h.2
  · exact not_chat_of_spacing (htail c h)

lemma mem_of_mem_withoutChat (h : c ∈ withoutChat line edge) : c ∈ line ∨ spacing c := by
  obtain ⟨head, tail, heq, hhead, htail⟩ := withoutChat_shape line edge
  rw [heq, mem_append, mem_append] at h
  rcases h with (h | h) | h
  · exact .inr (hhead c h)
  · rcases mem_replaceWhere h with rfl | h
    · exact .inr (by decide)
    · exact .inl (mem_of_mem_trimMatches h.1)
  · exact .inr (htail c h)

lemma plainSpaces_eq_self (h : ∀ c ∈ text, chat c = false) :
    plainSpaces text = text := replaceWhere_eq_self h

lemma withoutChat_eq_self (h : ∀ c ∈ line, chat c = false) (edge : Edge) :
    withoutChat line edge = line := by
  have hany : ∀ {run : Text}, run ⊆ line → run.any chat = false := fun hrun =>
    any_eq_false.mpr fun c hc => by simp [h c (hrun hc)]
  have hhead : ∀ {run : Text}, run ⊆ line → headWithoutChat edge run = run := by
    intro run hrun
    unfold headWithoutChat
    rw [hany hrun]
    cases edge
    · rfl
    · exact plainSpaces_eq_self fun c hc => h c (hrun hc)
  have htail : ∀ {run content : Text}, run ⊆ line → (∀ c ∈ run, spaced c) →
      tailWithoutChat edge content run = run := by
    intro run content hrun hspaced
    have hplain : run.filter spacing = run := filter_eq_self.mpr fun c hc => by
      simpa [spaced, h c (hrun hc)] using hspaced c hc
    unfold tailWithoutChat
    rw [hany hrun, hplain]
    cases edge <;> rfl
  have hbody : plainSpaces (trimMatches spaced line) = trimMatches spaced line :=
    plainSpaces_eq_self fun c hc => h c (mem_of_mem_trimMatches hc)
  unfold withoutChat
  rw [if_neg (by simp [hany (List.Subset.refl line)]), hbody]
  by_cases hempty : trimMatches spaced line = []
  · simp only [hempty, if_true]
    rw [hhead (nil_subset line), htail (List.Subset.refl line) (trimMatches_eq_nil.mp hempty)]
    rfl
  simp only [if_neg hempty]
  rw [hhead ( takeWhile_prefix _).subset, htail _ fun c hc => mem_rtakeWhile_imp hc,
    append_assoc, takeWhile_append_trimMatches]
  exact ((rtakeWhile_suffix _ _).trans (dropWhile_suffix _)).subset

end Quecto.Board.BoardText
