/-
  Providers/Retry.lean --- how long a refused request waits before it is sent again, in
  nanoseconds.

  Source: `domain/inference/services/provider_retry.rs`, `retry_after_suffix` of
  `infrastructure/providers/transport/sse_common.rs` and the error text of
  `infrastructure/providers/anthropic/anthropic_sse.rs`.
-/
import Quecto.Foundation.Lines
import Quecto.Foundation.Search
import Quecto.Foundation.Word

namespace Quecto.Providers

open Foundation List

inductive DomainError where
  | provider (message : List Char)
  | tool (message : List Char)
  | session (message : List Char)
  | security (message : List Char)
  | config (message : List Char)
  | other (message : List Char)

/-- The headers `retry-after-ms`, in milliseconds, and `retry-after`, in seconds. -/
inductive RetryHeader where
  | ms
  | secs

namespace RetryHeader

def marker : RetryHeader → List Char
  | ms => ['r', 'e', 't', 'r', 'y', '-', 'a', 'f', 't', 'e', 'r', '-', 'm', 's']
  | secs => ['r', 'e', 't', 'r', 'y', '-', 'a', 'f', 't', 'e', 'r']

def delay : RetryHeader → Nat → Nat
  | ms, value => value * 1000000
  | secs, value => value * 1000000000

def suffix (header : RetryHeader) (value : List Char) : List Char :=
  ' ' :: (header.marker ++ ':' :: ' ' :: value)

end RetryHeader

/-! ## The hint in an error -/

def digit (c : Char) : Nat := c.toNat - '0'.toNat

def digitRun (value : Nat) : List Char → Nat
  | [] => value
  | c :: rest =>
    if c.isDigit then digitRun (saturatingAdd (saturatingMul value 10) (digit c)) rest else value

def isSeparator (c : Char) : Bool :=
  c == ':' || c == '=' || c == '"' || c == '\'' || c == ' ' || c == '\t'

def leadingNumber : List Char → Option Nat
  | [] => none
  | c :: rest =>
    if c.isDigit then some (digitRun 0 (c :: rest))
    else if isSeparator c then leadingNumber rest
    else none

def numberAfter (text marker : List Char) : Option Nat := (restAfter marker text).bind leadingNumber

def parseRetryAfter (lowered : List Char) : Option Nat :=
  match numberAfter lowered RetryHeader.ms.marker with
  | some ms => some (RetryHeader.ms.delay ms)
  | none => (numberAfter lowered RetryHeader.secs.marker).map RetryHeader.secs.delay

def toAsciiLowercase (text : List Char) : List Char := text.map Char.toLower

def boundedDelay (error : DomainError) (fallback maximum : Nat) : Option Nat :=
  let hint :=
    match error with
    | .provider message => parseRetryAfter (toAsciiLowercase message)
    | _ => none
  match hint with
  | some delay => if delay ≤ maximum then some delay else none
  | none => some (min fallback maximum)

/-! ## The error of a response -/

/-- The values of the two headers, where they are visible text. -/
structure HeaderMap where
  retryAfterMs : Option (List Char)
  retryAfter : Option (List Char)

def headerText (value : Option (List Char)) : Option (List Char) :=
  (value.map (trimMatches fun c => c == ' ' || c == '\t')).filter fun text => !text.isEmpty

def retryAfterSuffix (headers : HeaderMap) : List Char :=
  match headerText headers.retryAfterMs with
  | some ms => RetryHeader.ms.suffix ms
  | none =>
    match headerText headers.retryAfter with
    | some secs => RetryHeader.secs.suffix secs
    | none => []

def responseText (status : Nat) (name body : List Char) : List Char :=
  "HTTP ".toList ++ (toString status).toList ++ " from ".toList ++ name ++ ": ".toList ++ body

def responseError (status : Nat) (name body : List Char) (headers : HeaderMap) : DomainError :=
  .provider (responseText status name body ++ retryAfterSuffix headers)

inductive HeaderMap.Asks (headers : HeaderMap) (digits : List Char) : RetryHeader → Prop
  | ms (set : headerText headers.retryAfterMs = some digits) : Asks headers digits .ms
  | secs (unset : headers.retryAfterMs = none) (set : headerText headers.retryAfter = some digits) :
      Asks headers digits .secs

/-! ## Numbers after a marker -/

def integer (digits : List Char) : Nat := digits.foldl (fun value c => value * 10 + digit c) 0

section

variable {headers : HeaderMap} {header : RetryHeader} {digits text marker : List Char}

lemma digitRun_append {c : Char} (hc : c.isDigit = false) (value : Nat) (run rest : List Char) :
    digitRun value (run ++ c :: rest) = digitRun value run := by
  induction run generalizing value with
  | nil => simp [digitRun, hc]
  | cons d run ih => simp only [cons_append, digitRun, ih]

lemma leadingNumber_append (rest after : List Char) :
    leadingNumber (rest ++ ' ' :: 'r' :: after) = leadingNumber rest := by
  induction rest with
  | nil => rfl
  | cons c rest ih =>
    have hrun := digitRun_append (c := ' ') rfl 0 (c :: rest) ('r' :: after)
    rw [cons_append] at hrun
    rw [cons_append, leadingNumber, leadingNumber, ih, hrun]

lemma numberAfter_unmarked (h : ¬ marker <:+: text) : numberAfter text marker = none := by
  rw [numberAfter, restAfter_eq_none_iff.mpr h]
  rfl

lemma numberAfter_of_infix (h : marker <:+: text) (header : RetryHeader) (value : List Char) :
    numberAfter (text ++ header.suffix value) marker = numberAfter text marker := by
  obtain ⟨after, hsuffix⟩ : ∃ after, header.suffix value = ' ' :: 'r' :: after := by
    cases header <;> exact ⟨_, rfl⟩
  cases hrest : restAfter marker text with
  | none => exact absurd h (restAfter_eq_none_iff.mp hrest)
  | some rest =>
    rw [numberAfter, numberAfter, restAfter_append hrest, hrest, hsuffix]
    exact leadingNumber_append rest after

variable (hdigits : ∀ c ∈ digits, c.isDigit = true)
include hdigits

lemma digitRun_min (value : Nat) : digitRun (min value u64Max) digits =
      min (digits.foldl (fun value c => value * 10 + digit c) value) u64Max := by
  induction digits generalizing value with
  | nil => rfl
  | cons c rest ih =>
    have hstep : saturatingAdd (saturatingMul (min value u64Max) 10) (digit c) =
        min (value * 10 + digit c) u64Max := by
      unfold saturatingAdd saturatingMul
      omega
    obtain ⟨hc, hrest⟩ := forall_mem_cons.mp hdigits
    rw [digitRun, if_pos hc, hstep, ih hrest, foldl_cons]

lemma numberAfter_suffix (hsome : digits ≠ []) (htext : ¬ header.marker <:+: text) :
    numberAfter (text ++ header.suffix digits) header.marker =
      some (min (integer digits) u64Max) := by
  have hrest : restAfter header.marker (header.marker ++ ':' :: ' ' :: digits) =
      some (':' :: ' ' :: digits) := by
    cases header <;> simp [restAfter, RetryHeader.marker]
  rw [numberAfter, RetryHeader.suffix, restAfter_append_cons (by cases header <;> decide)
    (by cases header <;> decide) htext, hrest]
  obtain ⟨c, rest, rfl⟩ := exists_cons_of_ne_nil hsome
  show leadingNumber (c :: rest) = _
  rw [leadingNumber, if_pos (hdigits c mem_cons_self), ← Nat.zero_min u64Max, digitRun_min hdigits]
  rfl

lemma ms_not_in_secs :
    ¬ RetryHeader.ms.marker <:+: RetryHeader.secs.marker ++ ':' :: ' ' :: digits := by
  intro hwithin
  have hm : 'm' ∈ [':', ' '] ++ digits :=
    (mem_append.mp (hwithin.subset (by decide : 'm' ∈ RetryHeader.ms.marker))).resolve_left
      (by decide)
  rcases mem_append.mp hm with hm | hm
  · exact absurd hm (by decide)
  · exact absurd (hdigits _ hm) (by decide)

/-- A text that has the header's name in it speaks for itself. -/
lemma parseRetryAfter_suffix (hsome : digits ≠ []) :
    parseRetryAfter (text ++ header.suffix digits) =
      if header.marker <:+: text then parseRetryAfter text
      else some (header.delay (min (integer digits) u64Max)) := by
  have hsub : RetryHeader.secs.marker <:+: RetryHeader.ms.marker := by decide
  have hnumber := @numberAfter_suffix header digits text hdigits hsome
  cases header with
  | ms =>
    by_cases hms : RetryHeader.ms.marker <:+: text
    · rw [if_pos hms, parseRetryAfter, parseRetryAfter, numberAfter_of_infix hms,
        numberAfter_of_infix (hsub.trans hms)]
    · rw [if_neg hms, parseRetryAfter, hnumber hms]
  | secs =>
    have hms : numberAfter (text ++ RetryHeader.secs.suffix digits) RetryHeader.ms.marker =
        numberAfter text RetryHeader.ms.marker := by
      by_cases hms : RetryHeader.ms.marker <:+: text
      · exact numberAfter_of_infix hms _ _
      rw [numberAfter_unmarked hms, numberAfter, RetryHeader.suffix,
        restAfter_append_cons (by decide) (by decide) hms,
        restAfter_eq_none_iff.mpr (ms_not_in_secs hdigits)]
      rfl
    rw [parseRetryAfter, parseRetryAfter, hms]
    by_cases hsecs : RetryHeader.secs.marker <:+: text
    · rw [if_pos hsecs, numberAfter_of_infix hsecs]
    · rw [if_neg hsecs, numberAfter_unmarked fun hms => hsecs (hsub.trans hms), hnumber hsecs]
      rfl

/-! ## The wait after a response -/

omit hdigits in
lemma toLower_of_isDigit {c : Char} (h : c.isDigit = true) : c.toLower = c := by
  simp only [Char.isDigit, ge_iff_le, Bool.and_eq_true, decide_eq_true_eq] at h
  refine dif_neg fun hupper => ?_
  exact absurd (UInt32.le_trans hupper.1 h.2) (by decide)

lemma HeaderMap.Asks.lowered (hasks : headers.Asks digits header) : digits ≠ [] ∧
      toAsciiLowercase (retryAfterSuffix headers) = header.suffix digits := by
  have hlower : toAsciiLowercase digits = digits :=
    (map_congr_left fun c hc => toLower_of_isDigit (hdigits c hc)).trans (map_id _)
  have hsuffix : toAsciiLowercase (header.suffix digits) = header.suffix digits := by
    have hmarked : toAsciiLowercase (header.suffix digits) =
        header.suffix (toAsciiLowercase digits) := by
      cases header <;> rfl
    rw [hmarked, hlower]
  have hsome : ∀ {value}, headerText value = some digits → digits ≠ [] := by
    rintro value hset rfl
    cases (Option.filter_eq_some_iff.mp hset).2
  cases hasks with
  | ms set =>
    rw [retryAfterSuffix, set]
    exact ⟨hsome set, hsuffix⟩
  | secs unset set =>
    rw [retryAfterSuffix, unset, set]
    exact ⟨hsome set, hsuffix⟩

omit hdigits in
lemma boundedDelay_eq_iff {message : List Char} {delay : Nat} :
    (∀ fallback maximum, boundedDelay (.provider message) fallback maximum =
        if delay ≤ maximum then some delay else none) ↔
      parseRetryAfter (toAsciiLowercase message) = some delay := by
  simp only [boundedDelay]
  generalize parseRetryAfter (toAsciiLowercase message) = hint
  cases hint with
  | none =>
    refine ⟨fun h => ?_, fun h => by cases h⟩
    have hwait := h (delay + 1) (delay + 1)
    simp at hwait
  | some hint =>
    constructor
    · intro h
      simpa using h 0 (max hint delay)
    · rintro ⟨⟩ fallback maximum
      rfl

/-- The header decides the wait exactly when the text before it does not name the header and
the number fits, or when that text asks for the same wait. -/
theorem retry_header_decides_iff (status : Nat) (name body : List Char)
    (hasks : headers.Asks digits header) :
    (∀ fallback maximum, boundedDelay (responseError status name body headers) fallback maximum =
        if header.delay (integer digits) ≤ maximum then some (header.delay (integer digits))
        else none) ↔
      if header.marker <:+: toAsciiLowercase (responseText status name body) then
        parseRetryAfter (toAsciiLowercase (responseText status name body)) =
          some (header.delay (integer digits))
      else integer digits ≤ u64Max := by
  obtain ⟨hsome, hlowered⟩ := hasks.lowered hdigits
  have happend : toAsciiLowercase (responseText status name body ++ retryAfterSuffix headers) =
      toAsciiLowercase (responseText status name body) ++ header.suffix digits := by
    rw [← hlowered]
    exact map_append
  rw [responseError, boundedDelay_eq_iff, happend, parseRetryAfter_suffix hdigits hsome]
  split
  · exact Iff.rfl
  · rw [Option.some.injEq]
    cases header <;> simp only [RetryHeader.delay] <;> omega

end

theorem retry_header_decides_quarter :
    boundedDelay (responseError 429 "Anthropic".toList "slow down".toList
      ⟨some ['2', '5', '0'], none⟩) 1000 1000000000 = some 250000000 := by
  have hasks : HeaderMap.Asks ⟨some ['2', '5', '0'], none⟩ ['2', '5', '0'] .ms := .ms (by decide)
  have hdecides := retry_header_decides_iff (by simp) 429 "Anthropic".toList
    "slow down".toList hasks
  exact (hdecides.mpr (by decide +kernel) 1000 1000000000).trans (by decide +kernel)

/-- A body that names the header overrides it. -/
theorem body_overrides_header :
    boundedDelay (responseError 429 "Anthropic".toList "sent retry-after-ms: 5".toList
      ⟨some ['2', '5', '0'], none⟩) 1000 1000000000 = some 5000000 := by
  decide +kernel

end Quecto.Providers
