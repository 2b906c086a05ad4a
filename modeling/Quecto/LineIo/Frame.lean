/-
  LineIo/Frame.lean --- length-prefixed frames beside newline-framed lines.

  Source: `quecto-line-io/src/frame.rs`.
-/
import Quecto.LineIo.BoundedLine

namespace Quecto.LineIo

open Foundation List

/-! ## Writing -/

inductive WireMode where
  | framed
  | legacyLine
  deriving DecidableEq

inductive FrameError where
  | oversized (declared max : Nat)
  | versionMismatch (firstByte : UInt8)
  | io (error : IoError)
  deriving DecidableEq

inductive Incoming where
  | frame (payload : List UInt8)
  | legacyLine (line : List UInt8)
  deriving DecidableEq

def framePrefixLen : Nat := 4

def legacyJsonOpener : UInt8 := 123

def toBeBytes (len : Nat) : List UInt8 :=
  [UInt8.ofNat (len / 2 ^ 24), UInt8.ofNat (len / 2 ^ 16), UInt8.ofNat (len / 2 ^ 8),
    UInt8.ofNat len]

def fromBeBytes (bytes : List UInt8) : Nat := bytes.foldl (fun n b => n * 2 ^ 8 + b.toNat) 0

def writeFrame (payload : List UInt8) (max : Nat) : Except FrameError (List UInt8) :=
  if max < payload.length then .error (.oversized payload.length max)
  else if payload.length < 2 ^ 32 then .ok (toBeBytes payload.length ++ payload)
  else .error (.oversized payload.length max)

def writeMessage (payload : List UInt8) (mode : WireMode) (max : Nat) :
    Except FrameError (List UInt8) :=
  match mode with
  | .framed => writeFrame payload max
  | .legacyLine =>
      match checkedAdd payload.length 1 with
      | none => .error (.oversized u64Max max)
      | some declared =>
          if max < declared then .error (.oversized declared max)
          else .ok (payload ++ [newline])

/-! ## Reading -/

def readFrame (max : Nat) (r : Reader) : Except FrameError (Option (List UInt8)) × Reader :=
  match readExactBuffered framePrefixLen r with
  | (.error e, r) => (.error (.io e), r)
  | (.ok none, r) => (.ok none, r)
  | (.ok (some frameLen), r) =>
      let declared := fromBeBytes frameLen
      if max < declared then (.error (.oversized declared max), discardUpTo declared r)
      else
        match readExactBuffered declared r with
        | (.error e, r) => (.error (.io e), r)
        | (.ok none, r) => (.error (.io .unexpectedEof), r)
        | (.ok (some payload), r) => (.ok (some payload), r)

def skipBlank (r : Reader) : Option UInt8 × Reader :=
  match _more : r.fillBuf with
  | [] => (none, r)
  | b :: _ => if b = 10 ∨ b = 13 then skipBlank (r.consume 1) else (some b, r)
termination_by r.remaining.length
decreasing_by
  refine r.consume_lt ?_ Nat.one_pos
  rw [_more]
  exact Nat.succ_le_succ (Nat.zero_le _)

def readFrameOrLegacyLine (max : Nat) (r : Reader) : Except FrameError (Option Incoming) × Reader :=
  match skipBlank r with
  | (none, r) => (.ok none, r)
  | (some first, r) =>
      if first = legacyJsonOpener then
        match readBoundedLineInto max [] r with
        | (none, _, r) => (.ok none, r)
        | (some read, line, r) =>
            if read.truncated then (.error (.oversized read.bytesRead max), r)
            else (.ok (some (.legacyLine (stripNewline line))), r)
      else if first = 0 then
        match readFrame max r with
        | (.error e, r) => (.error e, r)
        | (.ok payload, r) => (.ok (payload.map .frame), r)
      else (.error (.versionMismatch first), r)

/-! ### Reading into a reused buffer -/

def readFrameInto (max : Nat) (_buf : List UInt8) (r : Reader) :
    Except FrameError Bool × List UInt8 × Reader :=
  match readExactBuffered framePrefixLen r with
  | (.error e, r) => (.error (.io e), [], r)
  | (.ok none, r) => (.ok false, [], r)
  | (.ok (some frameLen), r) =>
      let declared := fromBeBytes frameLen
      if max < declared then (.error (.oversized declared max), [], discardUpTo declared r)
      else
        -- `buf.resize(declared, 0)`, then filled in place, as far as the stream goes
        let partly := r.remaining ++ List.replicate (declared - r.remaining.length) 0
        match readExactBuffered declared r with
        | (.error e, r) => (.error (.io e), partly, r)
        | (.ok none, r) => (.error (.io .unexpectedEof), partly, r)
        | (.ok (some payload), r) => (.ok true, payload, r)

def readFrameOrLegacyLineInto (max : Nat) (buf : List UInt8) (r : Reader) :
    Except FrameError (Option WireMode) × List UInt8 × Reader :=
  match skipBlank r with
  | (none, r) => (.ok none, buf, r)
  | (some first, r) =>
      if first = legacyJsonOpener then
        match readBoundedLineInto max buf r with
        | (none, buf, r) => (.ok none, buf, r)
        | (some read, buf, r) =>
            if read.truncated then (.error (.oversized read.bytesRead max), buf, r)
            else (.ok (some .legacyLine), stripNewline buf, r)
      else if first = 0 then
        match readFrameInto max buf r with
        | (.error e, buf, r) => (.error e, buf, r)
        | (.ok true, buf, r) => (.ok (some .framed), buf, r)
        | (.ok false, buf, r) => (.ok none, buf, r)
      else (.error (.versionMismatch first), buf, r)

def outcome (read : Except FrameError (Option WireMode)) (buf : List UInt8) :
    Except FrameError (Option Incoming) :=
  match read with
  | .error e => .error e
  | .ok none => .ok none
  | .ok (some .framed) => .ok (some (.frame buf))
  | .ok (some .legacyLine) => .ok (some (.legacyLine buf))

def readInto (max : Nat) (s : List UInt8 × Reader) :
    Except FrameError (Option Incoming) × List UInt8 × Reader :=
  let read := readFrameOrLegacyLineInto max s.1 s.2
  (outcome read.1 read.2.1, read.2)

/-! ## The two readers agree -/

variable (max : Nat)

lemma readFrameInto_eq (buf : List UInt8) (r : Reader) :
    (readFrameInto max buf r).2.2 = (readFrame max r).2 ∧
      match (readFrame max r).1 with
      | .error e => (readFrameInto max buf r).1 = .error e
      | .ok none => (readFrameInto max buf r).1 = .ok false
      | .ok (some payload) =>
          (readFrameInto max buf r).1 = .ok true ∧ (readFrameInto max buf r).2.1 = payload := by
  unfold readFrameInto readFrame
  obtain ⟨read, r⟩ := readExactBuffered framePrefixLen r
  obtain e | _ | frameLen := read
  · exact ⟨rfl, rfl⟩
  · exact ⟨rfl, rfl⟩
  simp only
  split_ifs
  · exact ⟨rfl, rfl⟩
  obtain ⟨read, r'⟩ := readExactBuffered (fromBeBytes frameLen) r
  obtain e | _ | payload := read
  · exact ⟨rfl, rfl⟩
  · exact ⟨rfl, rfl⟩
  · exact ⟨rfl, rfl, rfl⟩

lemma readInto_eq (buf : List UInt8) (r : Reader) :
    (readInto max (buf, r)).1 = (readFrameOrLegacyLine max r).1 ∧
      (readInto max (buf, r)).2.2 = (readFrameOrLegacyLine max r).2 := by
  have hline : readBoundedLineInto max buf = readBoundedLineInto max [] := rfl
  simp only [readInto, readFrameOrLegacyLineInto, readFrameOrLegacyLine, hline]
  obtain ⟨first, r⟩ := skipBlank r
  cases first with
  | none => exact ⟨rfl, rfl⟩
  | some first =>
    simp only
    split_ifs
    · obtain ⟨read, line, r'⟩ := readBoundedLineInto max [] r
      cases read with
      | none => exact ⟨rfl, rfl⟩
      | some read =>
        simp only
        split_ifs <;> exact ⟨rfl, rfl⟩
    · have hframe := readFrameInto_eq max buf r
      generalize readFrameInto max buf r = into at hframe ⊢
      generalize readFrame max r = fresh at hframe ⊢
      obtain ⟨read, buf', r'⟩ := into
      obtain ⟨payload, r''⟩ := fresh
      obtain ⟨rfl, hframe⟩ := hframe
      obtain e | _ | payload := payload
      · subst hframe
        exact ⟨rfl, rfl⟩
      · subst hframe
        exact ⟨rfl, rfl⟩
      · obtain ⟨rfl, rfl⟩ := hframe
        exact ⟨rfl, rfl⟩
    · exact ⟨rfl, rfl⟩

lemma repeated_readInto (n : Nat) (buf : List UInt8) (r : Reader) :
    repeated (readInto max) n (buf, r) = repeated (readFrameOrLegacyLine max) n r := by
  induction n generalizing buf r with
  | zero => rfl
  | succ n ih =>
    obtain ⟨hanswer, hreader⟩ := readInto_eq max buf r
    rw [repeated, repeated, hanswer, ← hreader, ← ih]

/-! ## What was written is read -/

/-- A message as it was sent: a payload under a cap below 2^24, which as a legacy line
is a JSON object on one line. -/
structure Sent where
  payload : List UInt8
  mode : WireMode
  cap : Nat
  capBelow : cap < 2 ^ 24
  legacy : mode = .legacyLine → payload.head? = some legacyJsonOpener ∧ newline ∉ payload

def writeAll : List Sent → Except FrameError (List UInt8)
  | [] => .ok []
  | sent :: rest => do
      let bytes ← writeMessage sent.payload sent.mode sent.cap
      let more ← writeAll rest
      pure (bytes ++ more)

def Sent.declared (sent : Sent) : Nat :=
  match sent.mode with
  | .framed => sent.payload.length
  | .legacyLine => sent.payload.length + 1

def Sent.delivered (max : Nat) (sent : Sent) : Except FrameError (Option Incoming) :=
  if sent.declared ≤ max then
    .ok (some (match sent.mode with
      | .framed => .frame sent.payload
      | .legacyLine => .legacyLine sent.payload))
  else .error (.oversized sent.declared max)

variable {n : Nat} {r : Reader} {rest payload more : List UInt8} {sent : Sent}

lemma fromBeBytes_toBeBytes (h : n < 2 ^ 32) : fromBeBytes (toBeBytes n) = n := by
  simp only [toBeBytes, fromBeBytes, foldl_cons, foldl_nil, UInt8.toNat_ofNat']
  omega

lemma skipBlank_of_remaining {b : UInt8} (h : r.remaining = b :: rest) (hnewline : b ≠ 10)
    (hreturn : b ≠ 13) : skipBlank r = (some b, r) := by
  have hmore : r.fillBuf ≠ [] := by
    rw [ne_eq, r.fillBuf_eq_nil_iff, h]
    exact cons_ne_nil b rest
  obtain ⟨c, cs, hbuf⟩ := exists_cons_of_ne_nil hmore
  have hfirst := r.remaining_eq
  rw [h, hbuf] at hfirst
  obtain ⟨rfl, -⟩ := hfirst
  rw [skipBlank]
  split
  · rename_i hnil
    exact absurd hnil hmore
  rename_i c' _ hcons
  rw [hbuf, List.cons.injEq] at hcons
  rw [← hcons.1, if_neg (by simp [hnewline, hreturn])]

lemma skipBlank_of_end (h : r.remaining = []) : skipBlank r = (none, r) := by
  have hend : r.fillBuf = [] := r.fillBuf_eq_nil_iff.mpr h
  rw [skipBlank]
  split
  · rfl
  rename_i hcons
  rw [hend] at hcons
  cases hcons

lemma readFrame_spec (hlen : payload.length < 2 ^ 32)
    (h : r.remaining = toBeBytes payload.length ++ payload ++ rest) : ∃ r', readFrame max r =
        (if payload.length ≤ max then .ok (some payload)
          else .error (.oversized payload.length max), r') ∧ r'.remaining = rest := by
  have hfour : (toBeBytes payload.length).length = framePrefixLen := rfl
  have hprefix : framePrefixLen ≤ r.remaining.length := by
    rw [h, append_assoc, length_append]
    exact Nat.le_add_right _ _
  obtain ⟨r₁, hread, hr₁⟩ := readExactBuffered_spec hprefix
  rw [h, append_assoc, ← hfour, take_left] at hread
  rw [h, append_assoc, ← hfour, drop_left] at hr₁
  simp only [readFrame, ← hfour, hread, fromBeBytes_toBeBytes hlen]
  by_cases hfits : payload.length ≤ max
  · have hpayload : payload.length ≤ r₁.remaining.length := by
      rw [hr₁, length_append]
      exact Nat.le_add_right _ _
    obtain ⟨r₂, hread₂, hr₂⟩ := readExactBuffered_spec hpayload
    rw [hr₁, take_left] at hread₂
    rw [hr₁, drop_left] at hr₂
    refine ⟨r₂, ?_, hr₂⟩
    rw [if_neg (Nat.not_lt_of_le hfits), if_pos hfits, hread₂]
  · refine ⟨discardUpTo payload.length r₁, ?_, ?_⟩
    · rw [if_pos (Nat.lt_of_not_le hfits), if_neg hfits]
    · rw [discardUpTo_spec, hr₁, drop_left]

lemma toBeBytes_head (h : n < 2 ^ 24) :
    toBeBytes n = 0 :: [UInt8.ofNat (n / 2 ^ 16), UInt8.ofNat (n / 2 ^ 8), UInt8.ofNat n] := by
  rw [toBeBytes, Nat.div_eq_of_lt h]
  rfl

lemma read_framed (hlen : payload.length < 2 ^ 24)
    (h : r.remaining = toBeBytes payload.length ++ payload ++ more) :
    ∃ r', readFrameOrLegacyLine max r = (if payload.length ≤ max then .ok (some (.frame payload))
          else .error (.oversized payload.length max), r') ∧ r'.remaining = more := by
  obtain ⟨r', hread, hrest⟩ := readFrame_spec max (by omega) h
  rw [toBeBytes_head hlen] at h
  have hfirst := skipBlank_of_remaining h (by decide) (by decide)
  have hsniff : (0 : UInt8) ≠ legacyJsonOpener := by decide
  refine ⟨r', ?_, hrest⟩
  simp only [readFrameOrLegacyLine, hfirst, hread, if_neg hsniff, if_true]
  by_cases hfits : payload.length ≤ max <;> simp [hfits]

lemma read_legacy (hopener : payload.head? = some legacyJsonOpener) (hclear : newline ∉ payload)
    (h : r.remaining = payload ++ [newline] ++ more) : ∃ r', readFrameOrLegacyLine max r =
        (if payload.length + 1 ≤ max then .ok (some (.legacyLine payload))
          else .error (.oversized (payload.length + 1) max), r') ∧ r'.remaining = more := by
  obtain ⟨tail, hpayload⟩ := List.head?_eq_some_iff.mp hopener
  have hbytes : r.remaining = legacyJsonOpener :: (tail ++ [newline] ++ more) := by
    rw [h, hpayload, cons_append, cons_append]
  have hfirst := skipBlank_of_remaining hbytes (by decide) (by decide)
  have hframed : framedLine r.remaining = payload ++ [newline] := by
    rw [h, append_assoc, framedLine_append hclear, singleton_append, framedLine_cons_newline]
  have hmore : r.remaining ≠ [] := by
    rw [hbytes]
    exact cons_ne_nil _ _
  obtain ⟨r', hread, hrest⟩ := readBoundedLineInto_spec max [] r
  rw [if_neg hmore, hframed, length_append, length_singleton] at hread
  rw [afterLine, hframed, h, drop_left] at hrest
  refine ⟨r', ?_, hrest⟩
  simp only [readFrameOrLegacyLine, hfirst, hread, if_true, decide_eq_true_eq]
  by_cases hfits : payload.length + 1 ≤ max
  · have htake : (payload ++ [newline]).take max = payload ++ [newline] :=
      take_of_length_le (by simpa using hfits)
    rw [if_neg (Nat.not_lt_of_le hfits), if_pos hfits, htake, stripNewline_concat]
  · rw [if_pos (Nat.lt_of_not_le hfits), if_neg hfits]

lemma read_delivers {bytes : List UInt8}
    (hwrite : writeMessage sent.payload sent.mode sent.cap = .ok bytes)
    (h : r.remaining = bytes ++ more) :
    ∃ r', readFrameOrLegacyLine max r = (sent.delivered max, r') ∧ r'.remaining = more := by
  have hcap := sent.capBelow
  cases hmode : sent.mode with
  | framed =>
    rw [hmode, writeMessage, writeFrame] at hwrite
    split_ifs at hwrite with hlong hword
    obtain rfl := Except.ok.inj hwrite
    simp only [Sent.delivered, Sent.declared, hmode]
    exact read_framed max (by omega) h
  | legacyLine =>
    obtain ⟨hopener, hclear⟩ := sent.legacy hmode
    rw [hmode, writeMessage] at hwrite
    cases hadd : checkedAdd sent.payload.length 1 with
    | none => simp [hadd] at hwrite
    | some declared =>
      simp only [hadd] at hwrite
      split_ifs at hwrite
      obtain rfl := Except.ok.inj hwrite
      simp only [Sent.delivered, Sent.declared, hmode]
      exact read_legacy max hopener hclear h

lemma writeAll_cons {rest : List Sent} {wire : List UInt8}
    (h : writeAll (sent :: rest) = .ok wire) :
    ∃ bytes more, writeMessage sent.payload sent.mode sent.cap = .ok bytes ∧
      writeAll rest = .ok more ∧ wire = bytes ++ more := by
  rw [writeAll] at h
  cases hbytes : writeMessage sent.payload sent.mode sent.cap with
  | error e => simp [hbytes, bind, Except.bind] at h
  | ok bytes =>
    cases hmore : writeAll rest with
    | error e => simp [hbytes, hmore, bind, Except.bind] at h
    | ok more =>
      rw [hbytes, hmore] at h
      exact ⟨bytes, more, rfl, rfl, (Except.ok.inj h).symm⟩

/-- Framing is transparent: whatever the chunks, the reader delivers what was written, a
message over its cap as one error in its place, and then a clean end; and so does the
reader that reuses a buffer. -/
theorem framing_transparent {sent : List Sent} {r : Reader} (h : writeAll sent = .ok r.remaining)
    (max : Nat) : repeated (readFrameOrLegacyLine max) (sent.length + 1) r =
        sent.map (Sent.delivered max) ++ [.ok none] ∧
      ∀ buf, repeated (readInto max) (sent.length + 1) (buf, r) =
        sent.map (Sent.delivered max) ++ [.ok none] := by
  have hread : repeated (readFrameOrLegacyLine max) (sent.length + 1) r =
      sent.map (Sent.delivered max) ++ [.ok none] := by
    refine repeated_eq (H := fun sent r => writeAll sent = .ok r.remaining) ?_ ?_ h
    · intro message rest r h
      obtain ⟨bytes, more, hwrite, hmore, hwire⟩ := writeAll_cons h
      obtain ⟨r', hread, hrest⟩ := read_delivers max hwrite hwire
      rw [hread, hmore, hrest]
      exact ⟨rfl, rfl⟩
    · intro r h
      have hend : r.remaining = [] := (Except.ok.inj h).symm
      rw [readFrameOrLegacyLine, skipBlank_of_end hend]
  refine ⟨hread, fun buf => ?_⟩
  rw [repeated_readInto, hread]

def sampleSent : List Sent :=
  [{ payload := [7, 10], mode := .framed, cap := 8, capBelow := by decide, legacy := by decide },
    { payload := [123, 125], mode := .legacyLine, cap := 8, capBelow := by decide
      legacy := by decide },
    { payload := [1, 2, 3, 4, 5, 6], mode := .framed, cap := 8, capBelow := by decide
      legacy := by decide }]

def sampleReader : Reader where
  chunks := [[0, 0], [0, 2, 7, 10, 123], [125, 10, 0, 0, 0], [6, 1, 2, 3, 4, 5, 6]]
  nonEmpty := by decide

theorem framing_transparent_sample : repeated (readFrameOrLegacyLine 4) 4 sampleReader =
        [.ok (some (.frame [7, 10])), .ok (some (.legacyLine [123, 125])),
          .error (.oversized 6 4), .ok none] ∧ ∀ buf, repeated (readInto 4) 4 (buf, sampleReader) =
        [.ok (some (.frame [7, 10])), .ok (some (.legacyLine [123, 125])),
          .error (.oversized 6 4), .ok none] := by
  have hwritten : writeAll sampleSent = .ok sampleReader.remaining := by decide
  exact framing_transparent hwritten 4

end Quecto.LineIo
