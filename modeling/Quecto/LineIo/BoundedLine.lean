/-
  LineIo/BoundedLine.lean --- buffered readers, and lines read under a cap.

  Source: `quecto-line-io/src/lib.rs` and `quecto-line-io/src/frame.rs`.
-/
import Quecto.Foundation.Machine
import Quecto.Foundation.Search
import Quecto.Foundation.Word
import Mathlib.Data.List.TakeWhile

namespace Quecto.LineIo

open List

def newline : UInt8 := 10

structure Reader where
  chunks : List (List UInt8)
  nonEmpty : ∀ c ∈ chunks, c ≠ []

namespace Reader

def remaining (r : Reader) : List UInt8 := r.chunks.flatten

def fillBuf (r : Reader) : List UInt8 := r.chunks.headD []

def consumeChunks (r : Reader) (n : Nat) : List (List UInt8) :=
  (r.fillBuf.drop n :: r.chunks.tail).filter (!·.isEmpty)

variable (r : Reader)

lemma consumeChunks_nonEmpty (n : Nat) : ∀ c ∈ r.consumeChunks n, c ≠ [] := by
  intro c hc
  simpa using (mem_filter.mp hc).2

def consume (r : Reader) (n : Nat) : Reader := ⟨r.consumeChunks n, r.consumeChunks_nonEmpty n⟩

lemma remaining_eq : r.remaining = r.fillBuf ++ r.chunks.tail.flatten := by
  rw [remaining, fillBuf]
  cases r.chunks <;> rfl

lemma fillBuf_eq_nil_iff : r.fillBuf = [] ↔ r.remaining = [] := by
  obtain ⟨chunks, nonEmpty⟩ := r
  cases chunks with
  | nil => simp [fillBuf, remaining]
  | cons c cs =>
    have hc := nonEmpty c mem_cons_self
    simp [fillBuf, remaining, hc]

lemma remaining_consume {n : Nat} (h : n ≤ r.fillBuf.length) :
    (r.consume n).remaining = r.remaining.drop n := by
  have hchunks : (r.consume n).remaining = (r.consumeChunks n).flatten := rfl
  rw [hchunks, consumeChunks, flatten_filter_not_isEmpty, flatten_cons, r.remaining_eq,
    drop_append_of_le_length h]

lemma fillBuf_length_le : r.fillBuf.length ≤ r.remaining.length := by
  rw [remaining_eq, length_append]
  omega

lemma take_fillBuf {n : Nat} (h : n ≤ r.fillBuf.length) :
    r.fillBuf.take n = r.remaining.take n := by
  rw [remaining_eq, take_append_of_le_length h]

lemma consume_lt {n : Nat} (hn : n ≤ r.fillBuf.length) (hpos : 0 < n) :
    (r.consume n).remaining.length < r.remaining.length := by
  have := r.fillBuf_length_le
  rw [remaining_consume r hn, length_drop]
  omega

end Reader

/-! ## Reading a fixed number of bytes -/

inductive IoError where
  | unexpectedEof
  deriving DecidableEq

def readExactFrom (len : Nat) (filled : List UInt8) (r : Reader) :
    Except IoError (Option (List UInt8)) × Reader :=
  if filled.length < len then
    if r.fillBuf = [] then
      if filled.length = 0 then (.ok none, r) else (.error .unexpectedEof, r)
    else
      let n := min (len - filled.length) r.fillBuf.length
      readExactFrom len (filled ++ r.fillBuf.take n) (r.consume n)
  else (.ok (some filled), r)
termination_by len - filled.length
decreasing_by
  rename_i hend
  have hpos := length_pos_iff.mpr hend
  rw [length_append, length_take]
  omega

def readExactBuffered (len : Nat) (r : Reader) : Except IoError (Option (List UInt8)) × Reader :=
  readExactFrom len [] r

def discardUpTo (len : Nat) (r : Reader) : Reader :=
  if 0 < len then
    if r.fillBuf = [] then r
    else
      let take := min r.fillBuf.length len
      discardUpTo (len - take) (r.consume take)
  else r
termination_by len
decreasing_by
  rename_i hend
  have hpos := length_pos_iff.mpr hend
  omega

lemma readExactFrom_spec {len : Nat} {filled : List UInt8} {r : Reader}
    (hfilled : filled.length ≤ len) (henough : len - filled.length ≤ r.remaining.length) :
    ∃ r', readExactFrom len filled r =
        (.ok (some (filled ++ r.remaining.take (len - filled.length))), r') ∧
      r'.remaining = r.remaining.drop (len - filled.length) := by
  fun_induction readExactFrom len filled r with
  | case1 filled r hlt hend _ | case2 filled r hlt hend _ =>
    rw [Reader.fillBuf_eq_nil_iff] at hend
    rw [hend] at henough
    simp only [length_nil] at henough
    omega
  | case3 filled r hlt hend n ih =>
    have hn : n ≤ r.fillBuf.length := Nat.min_le_right _ _
    have hsum : (filled ++ r.fillBuf.take n).length = filled.length + n := by
      rw [length_append, length_take, Nat.min_eq_left hn]
    have hrest := r.remaining_consume hn
    obtain ⟨r', hrun, hleft⟩ := ih (by omega) (by rw [hrest, length_drop]; omega)
    refine ⟨r', ?_, ?_⟩
    · rw [hrun, hsum, hrest, r.take_fillBuf hn, append_assoc, ← take_add]
      congr 5
      omega
    rw [hleft, hrest, drop_drop]
    congr 1
    omega
  | case4 filled r hlt =>
    have hlen : len - filled.length = 0 := by omega
    exact ⟨r, by rw [hlen]; simp, by rw [hlen]; rfl⟩

lemma readExactBuffered_spec {len : Nat} {r : Reader} (henough : len ≤ r.remaining.length) :
    ∃ r', readExactBuffered len r = (.ok (some (r.remaining.take len)), r') ∧
      r'.remaining = r.remaining.drop len :=
  readExactFrom_spec (Nat.zero_le _) henough

lemma discardUpTo_spec (len : Nat) (r : Reader) :
    (discardUpTo len r).remaining = r.remaining.drop len := by
  fun_induction discardUpTo len r with
  | case1 len r hpos hend =>
    rw [Reader.fillBuf_eq_nil_iff] at hend
    rw [hend, drop_nil]
  | case2 len r hpos hend take ih =>
    have hn : take ≤ r.fillBuf.length := Nat.min_le_left _ _
    rw [ih, r.remaining_consume hn, drop_drop]
    congr 1
    omega
  | case3 len r hpos =>
    rw [show len = 0 by omega, drop_zero]

open Foundation

/-! ## Reading one line into a buffer -/

structure BoundedLineRead where
  bytesRead : Nat
  truncated : Bool
  deriving DecidableEq

structure LineLoop where
  line : List UInt8
  bytesRead : Nat
  truncated : Bool
  reader : Reader

namespace LineLoop

def newlinePos (s : LineLoop) : Option Nat := position (· == newline) s.reader.fillBuf

def take (s : LineLoop) : Nat :=
  match s.newlinePos with
  | some pos => pos + 1
  | none => s.reader.fillBuf.length

def copyLen (max : Nat) (s : LineLoop) : Nat := min (max - s.line.length) s.take

def advance (max : Nat) (s : LineLoop) : LineLoop where
  line := s.line ++ s.reader.fillBuf.take (s.copyLen max)
  bytesRead := s.bytesRead + s.take
  truncated := s.truncated || decide (s.copyLen max < s.take)
  reader := s.reader.consume s.take

lemma take_le (s : LineLoop) : s.take ≤ s.reader.fillBuf.length := by
  rw [take]
  cases hpos : s.newlinePos with
  | none => exact Nat.le_refl _
  | some pos => exact (position_eq_some_iff.mp hpos).1.lt

lemma take_pos {s : LineLoop} (h : s.reader.fillBuf ≠ []) : 0 < s.take := by
  rw [take]
  cases s.newlinePos with
  | none => exact length_pos_iff.mpr h
  | some pos => exact Nat.succ_pos pos

lemma advance_lt {max : Nat} {s : LineLoop} (h : s.reader.fillBuf ≠ []) :
    (s.advance max).reader.remaining.length < s.reader.remaining.length :=
  s.reader.consume_lt s.take_le (take_pos h)

end LineLoop

open LineLoop

def lineLoop (max : Nat) (s : LineLoop) : Option BoundedLineRead × LineLoop :=
  if s.reader.fillBuf = [] then
    (if 0 < s.bytesRead ∨ s.truncated = true then some ⟨s.bytesRead, s.truncated⟩ else none, s)
  else if s.newlinePos.isSome then
    (some ⟨(s.advance max).bytesRead, (s.advance max).truncated⟩, s.advance max)
  else lineLoop max (s.advance max)
termination_by s.reader.remaining.length
decreasing_by
  rename_i hmore _
  exact advance_lt hmore

def LineLoop.start (r : Reader) : LineLoop := ⟨[], 0, false, r⟩

def readBoundedLineInto (max : Nat) (_line : List UInt8) (r : Reader) :
    Option BoundedLineRead × List UInt8 × Reader :=
  let ended := lineLoop max (start r)
  (ended.1, ended.2.line, ended.2.reader)

/-! ## The next line of a stream -/

def firstLine (bytes : List UInt8) : List UInt8 := bytes.takeWhile (· != newline)

def framedLine (bytes : List UInt8) : List UInt8 :=
  if newline ∈ bytes then firstLine bytes ++ [newline] else firstLine bytes

def afterLine (bytes : List UInt8) : List UInt8 := bytes.drop (framedLine bytes).length

lemma firstLine_not_mem (bytes : List UInt8) : newline ∉ firstLine bytes := by
  intro h
  simpa using mem_takeWhile_imp h

variable {bytes chunk : List UInt8} {pos max : Nat} {s : LineLoop} {r : Reader}

lemma firstLine_of_not_mem (h : newline ∉ bytes) : firstLine bytes = bytes := by
  rw [firstLine, takeWhile_eq_self_iff]
  intro b hb
  have : b ≠ newline := fun heq => h (heq ▸ hb)
  simpa using this

lemma framedLine_append (h : newline ∉ chunk) (rest : List UInt8) :
    framedLine (chunk ++ rest) = chunk ++ framedLine rest := by
  have hfirst : firstLine (chunk ++ rest) = chunk ++ firstLine rest := by
    rw [firstLine, takeWhile_append_of_pos]
    · rfl
    intro b hb
    have : b ≠ newline := fun heq => h (heq ▸ hb)
    simpa using this
  simp only [framedLine, hfirst, mem_append, h, false_or]
  split_ifs
  · rw [append_assoc]
  · rfl

lemma framedLine_cons_newline (rest : List UInt8) : framedLine (newline :: rest) = [newline] := by
  simp [framedLine, firstLine]

lemma framedLine_of_position (h : position (· == newline) chunk = some pos) (rest : List UInt8) :
    framedLine (chunk ++ rest) = chunk.take (pos + 1) := by
  obtain ⟨⟨b, hb, hnewline⟩, hbefore⟩ := position_eq_some_iff.mp h
  obtain ⟨hpos, hget⟩ := List.getElem?_eq_some_iff.mp hb
  have hb' : b = newline := by simpa using hnewline
  have hsplit : chunk = chunk.take pos ++ newline :: chunk.drop (pos + 1) := by
    rw [← hb', ← hget, getElem_cons_drop, take_append_drop]
  have hclear : newline ∉ chunk.take pos := by
    intro hmem
    obtain ⟨i, hi⟩ := mem_iff_getElem?.mp hmem
    rw [List.getElem?_take] at hi
    split_ifs at hi with hlt
    exact hbefore i hlt ⟨newline, hi, by simp⟩
  conv_lhs => rw [hsplit, append_assoc, framedLine_append hclear, cons_append,
    framedLine_cons_newline]
  rw [take_add_one, hb, hb', Option.toList_some]

lemma framedLine_of_newline (h : s.newlinePos = some pos) :
    framedLine s.reader.remaining = s.reader.fillBuf.take s.take := by
  rw [s.reader.remaining_eq, framedLine_of_position h, LineLoop.take, h]

lemma framedLine_of_none (h : s.newlinePos = none) : framedLine s.reader.remaining =
      s.reader.fillBuf ++ framedLine (s.reader.consume s.take).remaining := by
  have hclear : newline ∉ s.reader.fillBuf := by
    intro hmem
    obtain ⟨i, hi⟩ := mem_iff_getElem?.mp hmem
    exact position_eq_none_iff.mp h i ⟨newline, hi, by simp⟩
  have htake : s.take = s.reader.fillBuf.length := by rw [LineLoop.take, h]
  rw [s.reader.remaining_consume s.take_le, htake, s.reader.remaining_eq, drop_left,
    framedLine_append hclear]

structure LineEnd (max : Nat) (s : LineLoop)
    (ended : Option BoundedLineRead × LineLoop) : Prop where
  line : ended.2.line = s.line ++ (framedLine s.reader.remaining).take (max - s.line.length)
  bytesRead : ended.2.bytesRead = s.bytesRead + (framedLine s.reader.remaining).length
  truncated : ended.2.truncated =
    (s.truncated || decide (max - s.line.length < (framedLine s.reader.remaining).length))
  remaining : ended.2.reader.remaining = afterLine s.reader.remaining
  answer : ended.1 =
    if 0 < ended.2.bytesRead ∨ ended.2.truncated = true then
      some ⟨ended.2.bytesRead, ended.2.truncated⟩
    else none

lemma lineLoop_spec (max : Nat) (s : LineLoop) : LineEnd max s (lineLoop max s) := by
  fun_induction lineLoop max s with
  | case1 s hend =>
    rw [Reader.fillBuf_eq_nil_iff] at hend
    constructor <;> simp [hend, framedLine, firstLine, afterLine]
  | case2 s hmore hnewline =>
    obtain ⟨pos, hpos⟩ := Option.isSome_iff_exists.mp hnewline
    have hframed := framedLine_of_newline hpos
    have hlen : (framedLine s.reader.remaining).length = s.take := by
      rw [hframed, length_take, Nat.min_eq_left s.take_le]
    constructor
    · simp only [advance, copyLen, hframed, take_take]
    · simp only [advance, hlen]
    · have hroom : min (max - s.line.length) s.take < s.take ↔ max - s.line.length < s.take := by
        omega
      simp only [advance, copyLen, hlen, hroom]
    · simp only [advance, afterLine, hlen]
      exact s.reader.remaining_consume s.take_le
    have hpositive : 0 < (s.advance max).bytesRead :=
      Nat.lt_of_lt_of_le (take_pos hmore) (Nat.le_add_left _ _)
    rw [if_pos (.inl hpositive)]
  | case3 s hmore hnewline ih =>
    have hnone : s.newlinePos = none := by simpa using hnewline
    have hframed := framedLine_of_none hnone
    have htake : s.take = s.reader.fillBuf.length := by rw [LineLoop.take, hnone]
    have hreader : (s.advance max).reader = s.reader.consume s.take := rfl
    have hline : (s.advance max).line.length = s.line.length + s.copyLen max := by
      simp only [advance, length_append, length_take]
      have : s.copyLen max ≤ s.take := Nat.min_le_right _ _
      omega
    have hroom : max - (s.line.length + s.copyLen max) =
        max - s.line.length - s.reader.fillBuf.length := by
      rw [copyLen, htake]
      omega
    have hcopy : s.reader.fillBuf.take (s.copyLen max) =
        s.reader.fillBuf.take (max - s.line.length) := by
      rw [copyLen, htake, ← take_take, take_length]
    constructor
    · rw [ih.line, hline, hroom, hreader, hframed, take_append, ← append_assoc, ← hcopy]
      rfl
    · rw [ih.bytesRead, hframed, length_append]
      simp only [advance, htake]
      omega
    · have hdropped : (s.advance max).truncated =
          (s.truncated || decide (s.copyLen max < s.take)) := rfl
      rw [ih.truncated, hreader, hframed, length_append, hdropped, Bool.or_assoc, ← Bool.decide_or]
      congr 2
      rw [copyLen, eq_iff_iff]
      omega
    · rw [ih.remaining, hreader, afterLine, afterLine, hframed,
        s.reader.remaining_consume s.take_le, drop_drop, length_append, htake]
    · exact ih.answer

lemma framedLine_length (bytes : List UInt8) :
    (framedLine bytes).length = (firstLine bytes).length + if newline ∈ bytes then 1 else 0 := by
  rw [framedLine]
  split_ifs <;> simp

lemma framedLine_eq_nil_iff : framedLine bytes = [] ↔ bytes = [] := by
  rw [framedLine]
  split_ifs with h
  · exact iff_of_false (by simp) fun hnil => by simp [hnil] at h
  · rw [firstLine_of_not_mem h]

lemma readBoundedLineInto_spec (max : Nat) (line : List UInt8) (r : Reader) :
    ∃ r', readBoundedLineInto max line r = (if r.remaining = [] then none
          else some ⟨(framedLine r.remaining).length,
            decide (max < (framedLine r.remaining).length)⟩,
          (framedLine r.remaining).take max, r') ∧ r'.remaining = afterLine r.remaining := by
  have h := lineLoop_spec max (start r)
  have hread := h.bytesRead
  have htruncated := h.truncated
  have hline := h.line
  have hstart : (start r).line = [] ∧ (start r).bytesRead = 0 ∧
      (start r).truncated = false ∧ (start r).reader = r := ⟨rfl, rfl, rfl, rfl⟩
  simp only [hstart, Nat.zero_add, Bool.false_or, length_nil, Nat.sub_zero,
    nil_append] at hread htruncated hline
  refine ⟨(lineLoop max (start r)).2.reader, ?_, h.remaining⟩
  rw [readBoundedLineInto, h.answer, hline, hread, htruncated]
  by_cases hend : r.remaining = []
  · simp [hend, framedLine, firstLine]
  have hpos : 0 < (framedLine r.remaining).length := by
    rw [length_pos_iff, ne_eq, framedLine_eq_nil_iff]
    exact hend
  rw [if_pos (.inl hpos), if_neg hend]

/-! ## The buffer never outgrows its cap -/

inductive LineLoop.Reaches (max : Nat) : LineLoop → LineLoop → Prop where
  | here (s : LineLoop) : Reaches max s s
  | newline {s : LineLoop} (more : s.reader.fillBuf ≠ []) (found : s.newlinePos.isSome) :
      Reaches max s (s.advance max)
  | again {s s' : LineLoop} (more : s.reader.fillBuf ≠ []) (open_ : s.newlinePos = none)
      (rest : Reaches max (s.advance max) s') : Reaches max s s'

lemma LineLoop.advance_length (h : s.line.length ≤ max) : (s.advance max).line.length ≤ max := by
  simp only [advance, copyLen, length_append, length_take]
  omega

lemma LineLoop.Reaches.length_le {s' : LineLoop} (h : Reaches max s s')
    (hs : s.line.length ≤ max) : s'.line.length ≤ max := by
  induction h with
  | here s => exact hs
  | newline _ _ => exact advance_length hs
  | again _ _ _ ih => exact ih (advance_length hs)

/-! ## Lines of text -/

structure Utf8 where
  fromUtf8 : List UInt8 → Option String
  fromUtf8Lossy : List UInt8 → String

def finish (utf8 : Utf8) (buf : List UInt8) : String :=
  match utf8.fromUtf8 buf with
  | some text => text
  | none => utf8.fromUtf8Lossy buf

structure BoundedLine where
  content : String
  truncated : Bool
  deriving DecidableEq

def stripNewline (buf : List UInt8) : List UInt8 :=
  if buf.getLast? = some newline then buf.dropLast else buf

def framedCap (max : Nat) : Nat := saturatingAdd max 1

def readBoundedLine (utf8 : Utf8) (max : Nat) (r : Reader) : Option BoundedLine × Reader :=
  match readBoundedLineInto (framedCap max) [] r with
  | (none, _, r) => (none, r)
  | (some read, buf, r) =>
      let buf := stripNewline buf
      let buf := if max < buf.length then buf.take max else buf
      (some ⟨finish utf8 buf, read.truncated⟩, r)

structure StreamLine where
  bytes : List UInt8
  ended : Bool
  deriving DecidableEq

def streamLines : List UInt8 → List StreamLine
  | [] => []
  | b :: rest =>
      if b = newline then ⟨[], true⟩ :: streamLines rest
      else
        match streamLines rest with
        | [] => [⟨[b], false⟩]
        | line :: lines => { line with bytes := b :: line.bytes } :: lines

lemma streamLines_eq (h : bytes ≠ []) : streamLines bytes =
      ⟨firstLine bytes, decide (newline ∈ bytes)⟩ :: streamLines (afterLine bytes) := by
  induction bytes with
  | nil => exact absurd rfl h
  | cons b rest ih =>
    rw [streamLines]
    by_cases hb : b = newline
    · subst hb
      simp [firstLine, afterLine, framedLine_cons_newline]
    have hclear : newline ∉ [b] := by simpa using fun heq => hb heq.symm
    have hfirst : firstLine (b :: rest) = b :: firstLine rest := by simp [firstLine, hb]
    have hafter : afterLine (b :: rest) = afterLine rest := by
      have hframed : framedLine (b :: rest) = b :: framedLine rest := framedLine_append hclear rest
      rw [afterLine, hframed, afterLine, length_cons, drop_succ_cons]
    have hmem : newline ∈ b :: rest ↔ newline ∈ rest := by simp [Ne.symm hb]
    rw [if_neg hb, hfirst, hafter, decide_eq_decide.mpr hmem]
    cases rest with
    | nil => simp [streamLines, firstLine, afterLine]
    | cons c rest => rw [ih (by simp)]

def answered (utf8 : Utf8) (max : Nat) (line : StreamLine) : BoundedLine where
  content := finish utf8 (line.bytes.take max)
  truncated := decide (framedCap max < line.bytes.length + if line.ended then 1 else 0)

def reported (utf8 : Utf8) (max : Nat) (line : StreamLine) : BoundedLine where
  content := finish utf8 (line.bytes.take max)
  truncated := decide (max < line.bytes.length)

lemma stripNewline_concat (bytes : List UInt8) : stripNewline (bytes ++ [newline]) = bytes := by
  simp [stripNewline]

lemma stripNewline_of_not_mem (h : newline ∉ bytes) : stripNewline bytes = bytes := by
  rw [stripNewline, if_neg]
  intro hlast
  exact h (mem_of_getLast? hlast)

lemma kept_content (hmax : max ≤ u64Max) (bytes : List UInt8) :
    (stripNewline ((framedLine bytes).take (framedCap max))).take max =
      (firstLine bytes).take max := by
  have hcap : max ≤ framedCap max ∧ framedCap max ≤ max + 1 := by
    unfold framedCap saturatingAdd
    omega
  have hclear := firstLine_not_mem bytes
  have hshort : ∀ n, newline ∉ (firstLine bytes).take n :=
    fun n h => hclear (mem_of_mem_take h)
  rw [framedLine]
  split_ifs with hnewline
  · by_cases hfits : (firstLine bytes ++ [newline]).length ≤ framedCap max
    · rw [take_of_length_le hfits, stripNewline_concat]
    · rw [length_append, length_singleton] at hfits
      rw [take_append_of_le_length (by omega), stripNewline_of_not_mem (hshort _),
        take_take, Nat.min_eq_left hcap.1]
  · rw [stripNewline_of_not_mem (hshort _), take_take, Nat.min_eq_left hcap.1]

lemma cut_eq_take (max : Nat) (buf : List UInt8) :
    (if max < buf.length then buf.take max else buf) = buf.take max := by
  split_ifs with h
  · rfl
  · rw [take_of_length_le (by omega)]

variable (utf8 : Utf8)

lemma readBoundedLine_next (hmax : max ≤ u64Max) (hmore : r.remaining ≠ []) :
    (readBoundedLine utf8 max r).1 =
        some (answered utf8 max ⟨firstLine r.remaining, decide (newline ∈ r.remaining)⟩) ∧
      (readBoundedLine utf8 max r).2.remaining = afterLine r.remaining := by
  obtain ⟨r', hread, hrest⟩ := readBoundedLineInto_spec (framedCap max) [] r
  rw [if_neg hmore] at hread
  simp only [readBoundedLine, hread, cut_eq_take]
  refine ⟨?_, hrest⟩
  simp only [kept_content hmax, answered, framedLine_length, decide_eq_true_eq]

lemma readBoundedLine_end (max : Nat) (hend : r.remaining = []) :
    (readBoundedLine utf8 max r).1 = none := by
  obtain ⟨r', hread, -⟩ := readBoundedLineInto_spec (framedCap max) [] r
  rw [if_pos hend] at hread
  simp only [readBoundedLine, hread]

lemma repeated_readBoundedLine (hmax : max ≤ u64Max) (r : Reader) :
    repeated (readBoundedLine utf8 max) ((streamLines r.remaining).length + 1) r =
      (streamLines r.remaining).map (fun line => some (answered utf8 max line)) ++ [none] := by
  refine repeated_eq (H := fun lines r => streamLines r.remaining = lines) ?_ ?_ rfl
  · intro line lines r h
    have hmore : r.remaining ≠ [] := by
      intro hend
      rw [hend] at h
      cases h
    rw [streamLines_eq hmore, List.cons.injEq] at h
    obtain ⟨hanswer, hrest⟩ := readBoundedLine_next utf8 hmax hmore
    rw [hrest, ← h.1]
    exact ⟨hanswer, h.2⟩
  · intro r h
    refine readBoundedLine_end utf8 max ?_
    by_contra hmore
    rw [streamLines_eq hmore] at h
    cases h

/-! ## When truncation is reported exactly -/

/-- The lines the flag is wrong about: one the stream ends one byte past the cap, since
the byte kept for a newline holds a byte of the line; and, with the largest cap there
is, one of exactly that many bytes, since no byte more can be asked for. -/
def Misreported (max : Nat) (line : StreamLine) : Prop :=
  if max < u64Max then line.ended = false ∧ line.bytes.length = max + 1
  else line.ended = true ∧ line.bytes.length = max

instance (max : Nat) (line : StreamLine) : Decidable (Misreported max line) :=
  inferInstanceAs (Decidable (if max < u64Max then line.ended = false ∧ line.bytes.length = max + 1
    else line.ended = true ∧ line.bytes.length = max))

lemma answered_eq_reported_iff (hmax : max ≤ u64Max) (line : StreamLine) :
    answered utf8 max line = reported utf8 max line ↔ ¬ Misreported max line := by
  have hcap : framedCap max = if max < u64Max then max + 1 else max := by
    unfold framedCap saturatingAdd
    split_ifs <;> omega
  simp only [answered, reported, BoundedLine.mk.injEq, true_and, decide_eq_decide, hcap,
    Misreported]
  by_cases hlarge : max < u64Max
  · simp only [if_pos hlarge]
    cases line.ended with
    | true =>
      simp only [if_true, Bool.true_eq_false, false_and, not_false_eq_true, iff_true]
      omega
    | false =>
      simp only [Bool.false_eq_true, if_false, true_and]
      omega
  · simp only [if_neg hlarge]
    cases line.ended with
    | true =>
      simp only [if_true, true_and]
      omega
    | false => simp

/-- Repeated reads answer for every line of the stream and then end; each answer holds
the first `max` bytes of its line, and its flag is right except for a misreported line.
The buffer holds at most one byte more than the cap. -/
theorem bounded_lines_exact_iff (utf8 : Utf8) {max : Nat} (hmax : max ≤ u64Max) (r : Reader) :
    (repeated (readBoundedLine utf8 max) ((streamLines r.remaining).length + 1) r =
        (streamLines r.remaining).map (fun line => some (reported utf8 max line)) ++ [none] ↔
      ∀ line ∈ streamLines r.remaining, ¬ Misreported max line) ∧
    ∀ s, Reaches (framedCap max) (start r) s → s.line.length ≤ max + 1 := by
  constructor
  · rw [repeated_readBoundedLine utf8 hmax, append_left_inj, map_inj_left]
    simp only [Option.some.injEq, answered_eq_reported_iff utf8 hmax]
  intro s h
  refine Nat.le_trans (h.length_le (Nat.zero_le _)) ?_
  unfold framedCap saturatingAdd
  omega

def oneChunk (b : UInt8) (bytes : List UInt8) : Reader where
  chunks := [b :: bytes]
  nonEmpty := by
    intro c hc
    rw [mem_singleton.mp hc]
    exact cons_ne_nil b bytes

def asciiText : Utf8 where
  fromUtf8 bytes := some (String.ofList (bytes.map fun b => Char.ofNat b.toNat))
  fromUtf8Lossy bytes := String.ofList (bytes.map fun b => Char.ofNat b.toNat)

/-- `abc`, a newline and `defgh`, under a cap of three bytes. -/
theorem bounded_lines_exact_sample : repeated (readBoundedLine asciiText 3) 3
        (oneChunk 97 [98, 99, newline, 100, 101, 102, 103, 104]) =
      [some ⟨finish asciiText [97, 98, 99], false⟩,
        some ⟨finish asciiText [100, 101, 102], true⟩, none] ∧ ∀ s, Reaches (framedCap 3)
        (start (oneChunk 97 [98, 99, newline, 100, 101, 102, 103, 104])) s →
        s.line.length ≤ 4 := by
  have hmax : 3 ≤ u64Max := by decide
  obtain ⟨hexact, hbuffer⟩ := bounded_lines_exact_iff asciiText hmax
    (oneChunk 97 [98, 99, newline, 100, 101, 102, 103, 104])
  exact ⟨hexact.mpr (by decide), hbuffer⟩

/-- `abcd`, ended by the stream, under a cap of three bytes: the answer is cut to three
bytes and says that nothing was cut. -/
theorem cut_line_not_reported :
    streamLines (oneChunk 97 [98, 99, 100]).remaining = [⟨[97, 98, 99, 100], false⟩] ∧
      repeated (readBoundedLine asciiText 3) 2 (oneChunk 97 [98, 99, 100]) =
        [some ⟨finish asciiText [97, 98, 99], false⟩, none] := by
  have hmax : 3 ≤ u64Max := by decide
  exact ⟨by decide, repeated_readBoundedLine asciiText hmax (oneChunk 97 [98, 99, 100])⟩

end Quecto.LineIo
