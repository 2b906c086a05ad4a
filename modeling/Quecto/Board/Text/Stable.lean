/-
  Board/Text/Stable.lean --- normalised text is stable, and loses no words.
-/
import Quecto.Board.Text.Text

namespace Quecto.Board.BoardText

open Foundation List

variable {isAlphanumeric : Char → Bool}

/-! ## The lines a walk leaves

`Settled place raws outs`: walking over `raws` from `place`, each line is left as kept; or it is a
blank prose line, and goes or becomes empty; or it and every line after it is blank, and all go. -/

variable (isAlphanumeric) in
inductive Settled : Place → List Text → List (Option Text) → Prop
  | rest {place raws} (h : ∀ raw ∈ raws, ∀ c ∈ raw, spaced c) :
      Settled place raws (replicate raws.length none)
  | kept {place raw raws outs}
      (h : Settled (keepLine isAlphanumeric place raw (nextBlank raws)).2 raws outs) :
      Settled place (raw :: raws)
        (some (keepLine isAlphanumeric place raw (nextBlank raws)).1.written :: outs)
  | gone {place raw raws outs}
      (hblank : (keepLine isAlphanumeric place raw (nextBlank raws)).1.proseBlank)
      (h : Settled (keepLine isAlphanumeric place raw (nextBlank raws)).2 raws outs) :
      Settled place (raw :: raws) (none :: outs)
  | emptied {place raw raws outs}
      (hblank : (keepLine isAlphanumeric place raw (nextBlank raws)).1.proseBlank)
      (h : Settled (keepLine isAlphanumeric place raw (nextBlank raws)).2 raws outs) :
      Settled place (raw :: raws) (some [] :: outs)

section Settled

variable {place place' : Place} {raws : List Text} {outs : List (Option Text)}

lemma unchanged_of_spaced {raw : Text} (h : ∀ c ∈ raw, spaced c) : unchanged raw = [] := by
  refine filter_eq_nil_iff.mpr fun c hc => ?_
  have := h c hc
  simp only [spaced, spacing, Bool.or_eq_true] at this
  rcases this with (hc | hc) | hc <;> simp [normalisedSpacing, hc]

section

variable (h : Settled isAlphanumeric place raws outs)
include h

lemma Settled.unchanged_eq :
    (outs.reduceOption.map unchanged).flatten = (raws.map unchanged).flatten := by
  have hblankLine : ∀ {place : Place} {raw : Text} {before : Bool},
      (keepLine isAlphanumeric place raw before).1.proseBlank → unchanged raw = [] := by
    intro place raw before hblank
    rw [keepLine_proseBlank, Bool.and_eq_true] at hblank
    exact unchanged_of_spaced (spaced_of_keepLine_blank hblank.2)
  induction h with
  | @rest place raws h =>
    rw [reduceOption_replicate_none, map_nil, flatten_nil, eq_comm, flatten_eq_nil_iff]
    intro line hline
    obtain ⟨raw, hraw, rfl⟩ := mem_map.mp hline
    exact unchanged_of_spaced (h raw hraw)
  | kept h ih =>
    rw [reduceOption_cons_of_some, map_cons, flatten_cons, unchanged_keepLine, ih]
    rfl
  | gone hblank h ih => simpa [hblankLine hblank] using ih
  | emptied hblank h ih =>
    rw [reduceOption_cons_of_some, map_cons, map_cons, flatten_cons, hblankLine hblank, ih]
    rfl

lemma Settled.of_mem {line : Text} (hline : line ∈ outs.reduceOption) {c : Char} (hc : c ∈ line) :
    chat c = false ∧ ((∃ raw ∈ raws, c ∈ raw) ∨ spacing c) := by
  have hlater : ∀ {raw : Text} {raws : List Text},
      chat c = false ∧ ((∃ raw ∈ raws, c ∈ raw) ∨ spacing c) →
        chat c = false ∧ ((∃ other ∈ raw :: raws, c ∈ other) ∨ spacing c) := fun ⟨hchat, hmem⟩ =>
    ⟨hchat, hmem.imp_left fun ⟨raw, hraw, hc⟩ => ⟨raw, mem_cons_of_mem _ hraw, hc⟩⟩
  induction h with
  | rest h =>
    rw [reduceOption_replicate_none] at hline
    cases hline
  | @kept place raw raws outs h ih =>
    rw [reduceOption_cons_of_some, mem_cons] at hline
    rcases hline with rfl | hline
    · refine ⟨not_chat_of_mem_keepLine hc, ?_⟩
      exact (mem_of_mem_withoutChat (keepLine_written_subset hc)).imp_left
        fun hmem => ⟨raw, mem_cons_self, hmem⟩
    · exact hlater (ih hline)
  | gone hblank h ih => exact hlater (ih hline)
  | emptied hblank h ih =>
    rw [reduceOption_cons_of_some, mem_cons] at hline
    rcases hline with rfl | hline
    · cases hc
    · exact hlater (ih hline)

lemma Settled.nextBlank_of (hnext : nextBlank outs.reduceOption) : nextBlank raws := by
  cases h with
  | rest h =>
    rcases raws with _ | ⟨raw, raws⟩
    · rfl
    · exact blank_plainSpaces (h raw mem_cons_self)
  | @kept place raw raws outs h =>
    have hblank : blank
      (plainSpaces (keepLine isAlphanumeric place raw (nextBlank raws)).1.written) :=
      hnext
    rw [plainSpaces_eq_self fun c => not_chat_of_mem_keepLine] at hblank
    exact blank_plainSpaces (spaced_of_keepLine_blank hblank)
  | gone hblank h | emptied hblank h =>
    rw [keepLine_proseBlank, Bool.and_eq_true] at hblank
    exact blank_plainSpaces (spaced_of_keepLine_blank hblank.2)

end

variable (isAlphanumeric) in
lemma keepLine_spaced {raw : Text} (h : ∀ c ∈ raw, spaced c) (place : Place) (before : Bool) :
    (keepLine isAlphanumeric place raw before).2 = place ∨
      (keepLine isAlphanumeric place raw before).2 = .prose false := by
  have hblank := blank_withoutChat h place.edge
  cases place with
  | prose marked => exact .inr (congrArg Prod.fst (writeLine_blank hblank marked before))
  | fenced opened =>
    simp only [keepLine, writeLine]
    split
    · exact .inr rfl
    · exact .inl rfl
  | html =>
    simp [keepLine, writeLine, Fence.openedBy, htmlBlock, definesFootnote,
      dropWhile_of_blank hblank,
      hblank]
  | unknown => exact .inl rfl

variable (isAlphanumeric) in
lemma walk_spaced (h : ∀ raw ∈ raws, ∀ c ∈ raw, spaced c) (place : Place) :
    (walk isAlphanumeric place raws).2 = place ∨
      (walk isAlphanumeric place raws).2 = .prose false := by
  induction raws generalizing place with
  | nil => exact .inl rfl
  | cons raw raws ih =>
    have hrest := fun place => ih (fun raw hraw => h raw (mem_cons_of_mem _ hraw)) place
    simp only [walk]
    rcases keepLine_spaced isAlphanumeric (h raw mem_cons_self) place
      (nextBlank raws) with hnext | hnext
    · rw [hnext]
      exact hrest place
    · rw [hnext]
      exact .inr ((hrest (.prose false)).elim id id)

lemma Settled.walk_again (h : Settled isAlphanumeric place raws outs)
    (hplace : Follows place place') :
    let again := walk isAlphanumeric place' outs.reduceOption
    again.1.map (·.written) = outs.reduceOption ∧ (∀ line ∈ again.1, line.gap = false) ∧
      ((walk isAlphanumeric place raws).2.inProse = false →
        again.2 = (walk isAlphanumeric place raws).2) := by
  induction h generalizing place' with
  | @rest place raws h =>
    rw [reduceOption_replicate_none]
    refine ⟨rfl, by simp [walk], fun hlast => ?_⟩
    rcases walk_spaced isAlphanumeric h place with heq | heq
    · rw [heq] at hlast ⊢
      cases hplace with
      | prose h => cases hlast
      | other h => rfl
    · rw [heq] at hlast
      cases hlast
  | @kept place raw raws outs h ih =>
    rw [reduceOption_cons_of_some]
    obtain ⟨next', hkeep, hnext⟩ := keepLine_again isAlphanumeric hplace raw h.nextBlank_of
    obtain ⟨hwritten, hgap, hlast⟩ := ih hnext
    simp only [walk, hkeep, map_cons, hwritten, true_and, mem_cons, forall_eq_or_imp]
    exact ⟨hgap, hlast⟩
  | @gone place raw raws outs hblank h ih =>
    rw [keepLine_proseBlank, Bool.and_eq_true] at hblank
    refine ih ?_
    rw [keepLine_of_proseBlank hblank.1 hblank.2]
    cases hplace with
    | prose h => exact .prose (by simp)
    | other h => simp [h] at hblank
  | @emptied place raw raws outs hblank h ih =>
    rw [keepLine_proseBlank, Bool.and_eq_true] at hblank
    rw [reduceOption_cons_of_some]
    cases hplace with
    | other h => simp [h] at hblank
    | @prose marked marked' hmarked =>
      have hnext : Follows (keepLine isAlphanumeric (.prose marked) raw (nextBlank raws)).2
          (.prose false) := by
        rw [keepLine_of_proseBlank hblank.1 hblank.2]
        exact Follows.refl _
      obtain ⟨hwritten, hgap, hlast⟩ := ih hnext
      have hempty : keepLine isAlphanumeric (.prose marked') [] (nextBlank outs.reduceOption) =
          (⟨[], false, true⟩, .prose false) := by
        rfl
      simp only [walk, hempty, map_cons, hwritten, true_and, mem_cons, forall_eq_or_imp]
      exact ⟨hgap, hlast⟩

end Settled

/-! ## Edges -/

variable {stop : Nat}

section Edges

lemma withinEdges_zero_succ (stop : Nat) (line : Option Text) (settled : List (Option Text)) :
    withinEdges 0 (stop + 1) (line :: settled) = line :: withinEdges 0 stop settled := by
  simp [withinEdges, mapIdx_cons]

lemma withinEdges_succ (first stop : Nat) (line : Option Text) (settled : List (Option Text)) :
    withinEdges (first + 1) (stop + 1) (line :: settled) =
      none :: withinEdges first stop settled := by
  simp only [withinEdges, mapIdx_cons, Nat.add_max_add_right, Nat.add_le_add_iff_right,
    Nat.add_lt_add_iff_right]
  simp

lemma withinEdges_zero_zero (settled : List (Option Text)) :
    withinEdges 0 0 settled = replicate settled.length none := by
  apply ext_getElem <;> simp [withinEdges]

variable {first : Nat}

lemma reduceOption_withinEdges (h : first ≤ stop) (settled : List (Option Text)) :
    (withinEdges first stop settled).reduceOption =
      ((settled.take stop).drop first).reduceOption := by
  induction settled generalizing first stop with
  | nil => simp [withinEdges]
  | cons line settled ih =>
    match first, stop, h with
    | 0, 0, _ =>
      rw [withinEdges_zero_zero]
      exact reduceOption_replicate_none
    | 0, stop + 1, _ =>
      rw [withinEdges_zero_succ]
      have := ih (Nat.zero_le stop)
      cases line <;> simpa [reduceOption] using this
    | first + 1, stop + 1, h =>
      rw [withinEdges_succ]
      simpa [reduceOption] using ih (Nat.le_of_succ_le_succ h)

lemma length_walk (place : Place) (raws : List Text) :
    (walk isAlphanumeric place raws).1.length = raws.length := by
  induction raws generalizing place with
  | nil => rfl
  | cons raw raws ih =>
    simp only [walk, length_cons]
    rw [ih]

variable {outs : List (Option Text)} {place : Place}

lemma settled_withinEdges {raws : List Text}
    (houts : Forall₂ Settles (walk isAlphanumeric place raws).1 outs)
    (hprose : first ≠ 0 → place.inProse)
    (hlead : ∀ line ∈ (walk isAlphanumeric place raws).1.take first, blank line.written)
    (htrail : ∀ raw ∈ raws.drop stop, ∀ c ∈ raw, spaced c) (hle : first ≤ stop) :
    Settled isAlphanumeric place raws (withinEdges first stop outs) := by
  induction raws generalizing place outs first stop with
  | nil =>
    cases houts
    have hnone : Settled isAlphanumeric place [] (replicate 0 none) := .rest (by simp)
    exact hnone
  | cons raw raws ih =>
    simp only [walk] at houts hlead
    cases houts with
    | @cons _ out _ outs hout houts =>
      match first, stop, hle with
      | 0, 0, _ =>
        have hlen : outs.length = raws.length := by
          rw [← houts.length_eq, length_walk]
        rw [withinEdges_zero_zero, length_cons, hlen]
        exact .rest htrail
      | 0, stop + 1, _ =>
        rw [withinEdges_zero_succ]
        have hrest := ih houts (fun h => absurd rfl h) (by simp) htrail (Nat.zero_le stop)
        rcases hout with rfl | ⟨hblank, rfl | rfl⟩
        · exact .kept hrest
        · exact .gone hblank hrest
        · exact .emptied hblank hrest
      | first + 1, stop + 1, hle =>
        rw [withinEdges_succ]
        have hblank := hlead _ (mem_cons_self ..)
        have hplace := hprose (by simp)
        have hnext := keepLine_of_proseBlank hplace hblank
        refine .gone (by rw [keepLine_proseBlank, hplace, hblank]; rfl) (ih houts ?_ ?_ htrail ?_)
        · intro _
          rw [hnext]
          rfl
        · exact fun line hline => hlead line (mem_cons_of_mem _ hline)
        · exact Nat.le_of_succ_le_succ hle

lemma walk_final {raws : List Text}
    (houts : Forall₂ Settles (walk isAlphanumeric place raws).1 outs)
    (hlast : (walk isAlphanumeric place raws).2.inProse = false) {i : Nat} {line : KeptLine}
    (hline : (walk isAlphanumeric place raws).1[i]? = some line)
    (hi : i + 1 = raws.length ∨ (i + 2 = raws.length ∧
      ∃ final, (walk isAlphanumeric place raws).1[i + 1]? = some final ∧ final.written = [])) :
    outs[i]? = some (some line.written) := by
  induction raws generalizing place outs i with
  | nil => simp at hi
  | cons raw raws ih =>
    simp only [walk] at houts hlast hline hi
    cases houts with
    | @cons _ out _ outs hout houts =>
      rcases i with _ | i
      · -- The line is the first: it is no blank prose line, or prose would follow it to the end.
        cases hline
        have hnot : (keepLine isAlphanumeric place raw (nextBlank raws)).1.proseBlank = false := by
          by_contra hblank
          rw [Bool.not_eq_false, keepLine_proseBlank, Bool.and_eq_true] at hblank
          rw [keepLine_of_proseBlank hblank.1 hblank.2] at hlast hi
          rcases hi with hi | ⟨hi, final, hfinal, hempty⟩
          · obtain rfl : raws = [] := by simpa using hi
            cases hlast
          obtain ⟨next, rfl⟩ : ∃ next, raws = [next] := by
            rw [← length_eq_one_iff]
            simpa using hi
          simp only [walk, getElem?_cons_succ, getElem?_cons_zero,
            Option.some.injEq] at hlast hfinal
          subst hfinal
          rw [keepLine_of_proseBlank rfl (by rw [hempty]; rfl)] at hlast
          cases hlast
        rcases hout with rfl | ⟨hblank, _⟩
        · rfl
        · rw [hnot] at hblank
          cases hblank
      · refine ih houts hlast hline ?_
        simpa using hi

lemma keptEnd_of_final {lines : List Text} {final : Text} (hblank : blank final = false)
    (first : Nat) (last : Place) : keptEnd (lines ++ [final]) first last = lines.length + 1 := by
  have hne : final ≠ [] := by
    intro h
    rw [h] at hblank
    cases hblank
  have hpos : rposition (fun line => !blank line) (lines ++ [final]) = some lines.length := by
    rw [rposition_eq_some_iff]
    refine ⟨⟨final, by simp, by simp [hblank]⟩, fun j hj hheld => ?_⟩
    have := hheld.lt
    simp at this
    omega
  unfold keptEnd
  rw [hpos]
  split
  · rfl
  rw [reverse_append]
  split
  · rename_i heq
    rw [if_neg fun hcond => hne ((cons.inj heq).1.trans hcond.1)]
    simp
  · simp

lemma keptEnd_of_other {lines : List Text} {last : Place} (hlast : last.inProse = false)
    (h : ∀ before lead, lines = lead ++ [before, []] → before = []) (first : Nat) :
    keptEnd lines first last = lines.length := by
  unfold keptEnd
  rw [hlast]
  simp only [Bool.false_eq_true, if_false]
  split
  · rename_i final before lead heq
    split
    · rename_i hcond
      have hlines : lines = lead.reverse ++ [before, []] := by
        rw [← reverse_reverse lines, heq, hcond.1]
        simp
      exact absurd (h before _ hlines) hcond.2
    · rfl
  · rfl

lemma kept_of_not_blank {raws : List Text}
    (houts : Forall₂ Settles (walk isAlphanumeric place raws).1 outs) {i : Nat}
    {line : KeptLine} (hline : (walk isAlphanumeric place raws).1[i]? = some line)
    (hblank : blank line.written = false) : outs[i]? = some (some line.written) := by
  induction raws generalizing place outs i with
  | nil => cases hline
  | cons raw raws ih =>
    simp only [walk] at houts hline
    cases houts with
    | @cons _ out _ outs hout houts =>
      rcases i with _ | i
      · cases hline
        rcases hout with rfl | ⟨hprose, _⟩
        · rfl
        · rw [keepLine_proseBlank, hblank, Bool.and_false] at hprose
          cases hprose
      · exact ih houts hline

lemma spaced_of_walk {raws : List Text}
    (h : ∀ line ∈ (walk isAlphanumeric place raws).1.drop stop, blank line.written) :
    ∀ raw ∈ raws.drop stop, ∀ c ∈ raw, spaced c := by
  induction raws generalizing place stop with
  | nil => simp
  | cons raw raws ih =>
    rcases stop with _ | stop
    · intro raw' hraw'
      rcases mem_cons.mp hraw' with rfl | hraw'
      · exact spaced_of_keepLine_blank (h _ mem_cons_self)
      have hrest := fun line hline => h line (mem_cons_of_mem _ hline)
      rw [← drop_zero (l := (walk isAlphanumeric _ raws).1)] at hrest
      exact ih hrest raw' hraw'
    · exact ih h

lemma reduceOption_take_succ {k : Nat} {line : Text}
    (hle : first ≤ k) (h : outs[k]? = some (some line)) :
    ((outs.take (k + 1)).drop first).reduceOption =
      ((outs.take k).drop first).reduceOption ++ [line] := by
  have hlen : k < outs.length := (List.getElem?_eq_some_iff.mp h).1
  rw [take_add_one, h, drop_append_of_le_length (by simp; omega), reduceOption_append]
  rfl

end Edges

/-! ## The lines left

The lines `text` leaves start with one that holds something, and end so that the second walk keeps
the last one, wherever it ends. -/

section Left

/-- What the edges need so that a second walk, which ends at `last` too unless that is in
prose, takes none of the lines off. -/
structure EdgesStay (last : Place) (left : List Text) : Prop where
  first : ∃ line rest, left = line :: rest ∧ blank line = false
  final : ∀ last', (last.inProse = false → last' = last) → keptEnd left 0 last' = left.length

variable {raws : List Text} {outs : List (Option Text)} {first : Nat} {line : KeptLine}

section

variable (houts : Forall₂ Settles (walk isAlphanumeric (.prose false) raws).1 outs)
  (hline : (walk isAlphanumeric (.prose false) raws).1[first]? = some line)
  (hblank : blank line.written = false)
include houts hline hblank

lemma left_first (hlt : first < stop) :
    ∃ line rest, ((outs.take stop).drop first).reduceOption = line :: rest ∧
      blank line = false := by
  have hout := kept_of_not_blank houts hline hblank
  rw [← getElem?_take_of_lt hlt] at hout
  obtain ⟨hlen, hget⟩ := List.getElem?_eq_some_iff.mp hout
  rw [drop_eq_getElem_cons hlen, hget]
  exact ⟨line.written, _, rfl, hblank⟩

lemma edgesStay_of_prose {i : Nat} {final : KeptLine} {last : Place} (hle : first ≤ i)
    (hfinal : (walk isAlphanumeric (.prose false) raws).1[i]? = some final)
    (hfinalBlank : blank final.written = false) :
    EdgesStay last ((outs.take (i + 1)).drop first).reduceOption where
  first := left_first houts hline hblank (Nat.lt_succ_of_le hle)
  final := by
    intro last' _
    rw [reduceOption_take_succ hle (kept_of_not_blank houts hfinal hfinalBlank),
      keptEnd_of_final hfinalBlank, length_append, length_singleton]

lemma edgesStay_of_other {i : Nat} {final : Text} {last : Place} (hle : first ≤ i)
    (hlast : last.inProse = false) (hfinal : outs[i]? = some (some final)) (hne : final ≠ []) :
    EdgesStay last ((outs.take (i + 1)).drop first).reduceOption where
  first := left_first houts hline hblank (Nat.lt_succ_of_le hle)
  final := by
    intro last' hlast'
    refine keptEnd_of_other (hlast' hlast ▸ hlast) (fun before lead heq => ?_) 0
    rw [reduceOption_take_succ hle hfinal, append_cons lead before [[]]] at heq
    exact absurd (append_inj' heq rfl).2 (by simpa using hne)

lemma edgesStay_of_empty {i : Nat} {last : Place} (hle : first ≤ i)
    (hlast : last.inProse = false) (hbefore : outs[i]? = some (some []))
    (hfinal : outs[i + 1]? = some (some [])) :
    EdgesStay last ((outs.take (i + 1 + 1)).drop first).reduceOption where
  first := left_first houts hline hblank (by omega)
  final := by
    intro last' hlast'
    refine keptEnd_of_other (hlast' hlast ▸ hlast) (fun before lead heq => ?_) 0
    rw [reduceOption_take_succ (by omega) hfinal, reduceOption_take_succ hle hbefore,
      append_cons lead before [[]], append_assoc, append_assoc] at heq
    have := (append_inj' heq rfl).2
    simp only [cons_append, nil_append, cons.injEq, and_true] at this
    exact this.symm

end

lemma holdsAt_written {kept : List KeptLine} {i : Nat} :
    HoldsAt (fun line => !blank line) (kept.map (·.written)) i ↔
      ∃ line, kept[i]? = some line ∧ blank line.written = false := by
  simp [HoldsAt, getElem?_map]

lemma keptEnd_pair {kept lead : List KeptLine} {before final : KeptLine} {last : Place}
    (hkept : kept = lead ++ [before, final]) (hlast : last.inProse = false) (first : Nat) :
    keptEnd (kept.map (·.written)) first last =
      if final.written = [] ∧ before.written ≠ [] then lead.length + 1 else lead.length + 2 := by
  subst hkept
  simp [keptEnd, hlast]

/-- The kept lines from `first`, which holds something, end before `stop`. -/
structure EndsAt (kept : List KeptLine) (outs : List (Option Text)) (first : Nat) (last : Place)
    (stop : Nat) : Prop where
  stops : keptEnd (kept.map (·.written)) first last = stop
  lt : first < stop
  trail : ∀ line ∈ kept.drop stop, blank line.written
  edges : EdgesStay last ((outs.take stop).drop first).reduceOption

section

variable {kept : List KeptLine} {last : Place}
  (hwalk : walk isAlphanumeric (.prose false) raws = (kept, last))
  (houts : Forall₂ Settles kept outs) (hline : kept[first]? = some line)
  (hblank : blank line.written = false)
include hwalk houts hline hblank

lemma exists_endsAt_prose (hlast : last.inProse) : ∃ stop, EndsAt kept outs first last stop := by
  have hkept : (walk isAlphanumeric (.prose false) raws).1 = kept := by rw [hwalk]
  have hheld := holdsAt_written.mpr ⟨line, hline, hblank⟩
  obtain ⟨i, hpos⟩ : ∃ i, rposition (fun line => !blank line) (kept.map (·.written)) = some i := by
    rw [← Option.ne_none_iff_exists']
    exact fun hnone => rposition_eq_none_iff.mp hnone first hheld
  obtain ⟨hheldLast, hafter⟩ := rposition_eq_some_iff.mp hpos
  obtain ⟨final, hfinal, hfinalBlank⟩ := holdsAt_written.mp hheldLast
  have hle : first ≤ i := Nat.le_of_not_lt fun hlt => hafter first hlt hheld
  refine ⟨i + 1, ?_, Nat.lt_succ_of_le hle, ?_, ?_⟩
  · rw [keptEnd, if_pos hlast, hpos]
    rfl
  · intro line' hline'
    obtain ⟨j, hj⟩ := mem_iff_getElem?.mp hline'
    rw [getElem?_drop] at hj
    by_contra hnot
    exact hafter _ (by omega) (holdsAt_written.mpr ⟨line', hj, by simpa using hnot⟩)
  · subst hkept
    exact edgesStay_of_prose houts hline hblank hle hfinal hfinalBlank

lemma exists_endsAt_other (hlast : last.inProse = false) :
    ∃ stop, EndsAt kept outs first last stop := by
  obtain ⟨hkept, hplace⟩ : (walk isAlphanumeric (.prose false) raws).1 = kept ∧
      (walk isAlphanumeric (.prose false) raws).2 = last := by
    rw [hwalk]
    exact ⟨rfl, rfl⟩
  have hlen : raws.length = kept.length := by rw [← hkept, length_walk]
  have hkeeps : ∀ i line, kept[i]? = some line → (i + 1 = kept.length ∨ (i + 2 = kept.length ∧
      ∃ final, kept[i + 1]? = some final ∧ final.written = [])) →
      outs[i]? = some (some line.written) := by
    intro i line hi hor
    rw [← hkept] at houts hi
    rw [← hlen, ← hkept] at hor
    exact walk_final houts (hplace.symm ▸ hlast) hi hor
  have hfirst : first < kept.length := (List.getElem?_eq_some_iff.mp hline).1
  -- No empty line is the first one that holds something.
  have hne : ∀ {i : Nat} {line' : KeptLine}, kept[i]? = some line' → line'.written = [] →
      first ≠ i := by
    rintro i line' hi hempty rfl
    cases hline.symm.trans hi
    rw [hempty] at hblank
    cases hblank
  rw [← hkept] at houts hline
  rcases hrev : kept.reverse with _ | ⟨final, _ | ⟨before, lead⟩⟩
  · rw [reverse_eq_nil_iff.mp hrev] at hfirst
    cases hfirst
  · -- A single line is the first one that holds something.
    obtain rfl : kept = [final] := by simpa using congrArg reverse hrev
    obtain rfl : first = 0 := by simpa using hfirst
    refine ⟨1, by simp [keptEnd, hlast], Nat.one_pos, by simp, ?_⟩
    exact edgesStay_of_prose houts hline hblank (Nat.le_refl 0) hline hblank
  · have hpair : kept = lead.reverse ++ [before, final] := by
      simpa using congrArg reverse hrev
    have hbefore : kept[lead.length]? = some before := by simp [hpair]
    have hfinal : kept[lead.length + 1]? = some final := by simp [hpair]
    have hcount : kept.length = lead.length + 2 := by simp [hpair]
    have hend := keptEnd_pair hpair hlast first
    have hfinalOut := hkeeps _ _ hfinal (.inl hcount.symm)
    by_cases hempty : final.written = []
    · have hbeforeOut := hkeeps _ _ hbefore (.inr ⟨hcount.symm, final, hfinal, hempty⟩)
      have hlt : first ≠ lead.length + 1 := hne hfinal hempty
      by_cases hbeforeEmpty : before.written = []
      · refine ⟨lead.length + 2, by simp [hend, hbeforeEmpty], by omega, ?_, ?_⟩
        · simp [← hcount]
        · rw [hempty] at hfinalOut
          rw [hbeforeEmpty] at hbeforeOut
          exact edgesStay_of_empty houts hline hblank (by omega) hlast hbeforeOut hfinalOut
      · refine ⟨lead.length + 1, by simp [hend, hempty, hbeforeEmpty], by omega, ?_, ?_⟩
        · have hdrop : kept.drop (lead.length + 1) = [final] := by
            rw [hpair, drop_append]
            simp
          rw [hdrop]
          simp [hempty, blank]
        · exact edgesStay_of_other houts hline hblank (by omega) hlast hbeforeOut hbeforeEmpty
    · refine ⟨lead.length + 2, by simp [hend, hempty], by omega, by simp [← hcount], ?_⟩
      exact edgesStay_of_other houts hline hblank (by omega) hlast hfinalOut hempty

end

end Left

/-! ## Stability -/

def rawLines (raw : Text) : List Text :=
  (replaceWhere (· == '\r') '\n' (replaceCrlf raw)).splitOn '\n'

lemma not_lineEnd_of_mem_rawLines {raw line : Text} (hline : line ∈ rawLines raw) {c : Char}
    (hc : c ∈ line) : c ≠ '\n' ∧ c ≠ '\r' := by
  obtain ⟨hmem, hlf⟩ := mem_of_mem_splitOn hline hc
  rcases mem_replaceWhere hmem with rfl | ⟨_, hcr⟩
  · exact absurd rfl hlf
  · exact ⟨hlf, by simpa using hcr⟩

lemma walk_edges {raws : List Text} {kept : List KeptLine} {last : Place}
    (hwalk : walk isAlphanumeric (.prose false) raws = (kept, last)) :
    ∃ first stop, (position (fun line => !blank line) (kept.map (·.written))).getD kept.length =
        first ∧ keptEnd (kept.map (·.written)) first last = stop ∧ first ≤ stop ∧
      (∀ line ∈ kept.take first, blank line.written) ∧
      (∀ line ∈ kept.drop stop, blank line.written) ∧
      ((((settledGaps kept).take stop).drop first).reduceOption = [] ∨
        EdgesStay last (((settledGaps kept).take stop).drop first).reduceOption) := by
  have houts := settles_settledGaps kept
  rcases hpos : position (fun line => !blank line) (kept.map (·.written)) with _ | first
  · -- Every line is blank, so the walk ends in prose and all of them go.
    have hheld := position_eq_none_iff.mp hpos
    have hblank : ∀ line ∈ kept, blank line.written := by
      intro line hline
      obtain ⟨i, hi⟩ := mem_iff_getElem?.mp hline
      by_contra hnot
      exact hheld i (holdsAt_written.mpr ⟨line, hi, by simpa using hnot⟩)
    have hlast : last = .prose false := by
      have hall : ∀ line ∈ (walk isAlphanumeric (.prose false) raws).1.drop 0,
        blank line.written := by
        simpa [hwalk] using hblank
      have hend := walk_spaced isAlphanumeric (spaced_of_walk hall) (.prose false)
      rw [drop_zero, hwalk] at hend
      exact hend.elim id id
    refine ⟨kept.length, kept.length, by rw [hpos]; rfl, ?_, Nat.le_refl _,
      fun line hline => hblank line (mem_of_mem_take hline),
      fun line hline => hblank line (mem_of_mem_drop hline), .inl ?_⟩
    · rw [keptEnd, hlast, rposition_eq_none_iff.mpr hheld]
      rfl
    · rw [drop_eq_nil_of_le (by rw [length_take]; omega)]
      rfl
  · obtain ⟨hheld, hbefore⟩ := position_eq_some_iff.mp hpos
    obtain ⟨line, hline, hblank⟩ := holdsAt_written.mp hheld
    obtain ⟨stop, hends⟩ : ∃ stop, EndsAt kept (settledGaps kept) first last stop := by
      cases hprose : last.inProse with
      | true => exact exists_endsAt_prose hwalk houts hline hblank hprose
      | false => exact exists_endsAt_other hwalk houts hline hblank hprose
    refine ⟨first, stop, by rw [hpos]; rfl, hends.stops, Nat.le_of_lt hends.lt, ?_, hends.trail,
      .inr hends.edges⟩
    intro line' hline'
    obtain ⟨j, hj⟩ := mem_iff_getElem?.mp hline'
    rw [getElem?_take] at hj
    split at hj
    · rename_i hlt'
      by_contra hnot
      exact hbefore j hlt' (holdsAt_written.mpr ⟨line', hj, by simpa using hnot⟩)
    · cases hj

variable (raw : Text)

variable (isAlphanumeric) in
lemma keptLines_settled :
    Settled isAlphanumeric (.prose false) (rawLines raw) (keptLines isAlphanumeric raw) ∧
      ((keptLines isAlphanumeric raw).reduceOption = [] ∨
        EdgesStay (walk isAlphanumeric (.prose false) (rawLines raw)).2
          (keptLines isAlphanumeric raw).reduceOption) := by
  obtain ⟨kept, last, hwalk⟩ : ∃ kept last,
      walk isAlphanumeric (.prose false) (rawLines raw) = (kept, last) := ⟨_, _, rfl⟩
  obtain ⟨first, stop, hfirst, hstop, hle, hlead, htrail, hedges⟩ := walk_edges hwalk
  have hlines : keptLines isAlphanumeric raw = withinEdges first stop (settledGaps kept) := by
    simp only [rawLines] at hwalk
    simp only [keptLines, hwalk, length_map, hfirst, hstop]
  rw [hlines, reduceOption_withinEdges hle]
  obtain rfl : (walk isAlphanumeric (.prose false) (rawLines raw)).1 = kept := by rw [hwalk]
  obtain rfl : (walk isAlphanumeric (.prose false) (rawLines raw)).2 = last := by rw [hwalk]
  exact ⟨settled_withinEdges (settles_settledGaps _) (fun _ => rfl) hlead
      (spaced_of_walk htrail) hle,
    hedges⟩

lemma keptLines_eq {raw : Text} {last : Place}
    (hsame : (walk isAlphanumeric (.prose false) (rawLines raw)).1.map (·.written) = rawLines raw)
    (hgap : ∀ line ∈ (walk isAlphanumeric (.prose false) (rawLines raw)).1, line.gap = false)
    (hlast : last.inProse = false → (walk isAlphanumeric (.prose false) (rawLines raw)).2 = last)
    (hedges : EdgesStay last (rawLines raw)) :
    (keptLines isAlphanumeric raw).reduceOption = rawLines raw := by
  obtain ⟨kept, last', hwalk⟩ : ∃ kept last,
      walk isAlphanumeric (.prose false) (rawLines raw) = (kept, last) := ⟨_, _, rfl⟩
  rw [hwalk] at hsame hgap hlast
  have hfirst : position (fun line => !blank line) (rawLines raw) = some 0 := by
    obtain ⟨line, rest, heq, hblank⟩ := hedges.first
    rw [heq]
    simp [position, findIdx?_cons, hblank]
  have hsettled : settledGaps kept = (rawLines raw).map some := by
    rw [settledGaps_of_no_gap hgap, ← hsame, map_map]
    rfl
  have hlines : keptLines isAlphanumeric raw =
      withinEdges 0 (rawLines raw).length ((rawLines raw).map some) := by
    have hfinal := hedges.final last' hlast
    rw [← hsettled, ← hfinal]
    simp only [rawLines] at hwalk hsame hfirst ⊢
    simp only [keptLines, hwalk, hsame, hfirst, Option.getD_some]
  rw [hlines, reduceOption_withinEdges (Nat.zero_le _), take_of_length_le (by simp)]
  simp [reduceOption]

lemma text_eq :
    text isAlphanumeric raw = ['\n'].intercalate (keptLines isAlphanumeric raw).reduceOption := rfl

lemma text_nil : text isAlphanumeric [] = [] := by
  obtain ⟨hsettled, hnone | hedges⟩ := keptLines_settled isAlphanumeric []
  · rw [text_eq, hnone]
    rfl
  -- A line that holds something would hold a character of the text.
  obtain ⟨line, rest, heq, hblank⟩ := hedges.first
  have hspacing : blank line := by
    refine blank_iff.mpr fun c hc => ?_
    obtain ⟨_, ⟨raw, hraw, hmem⟩ | hc⟩ := hsettled.of_mem (by rw [heq]; exact mem_cons_self) hc
    · rw [show rawLines [] = [[]] from rfl, mem_singleton] at hraw
      rw [hraw] at hmem
      cases hmem
    · exact hc
  rw [hspacing] at hblank
  cases hblank

lemma rawLines_text (hne : (keptLines isAlphanumeric raw).reduceOption ≠ []) :
    rawLines (text isAlphanumeric raw) = (keptLines isAlphanumeric raw).reduceOption := by
  have hends : ∀ line ∈ (keptLines isAlphanumeric raw).reduceOption, ∀ c ∈ line,
      c ≠ '\n' ∧ c ≠ '\r' := by
    intro line hline c hc
    obtain ⟨_, ⟨typed, htyped, hmem⟩ | hspacing⟩ :=
      (keptLines_settled isAlphanumeric raw).1.of_mem hline hc
    · exact not_lineEnd_of_mem_rawLines htyped hmem
    · simp only [spacing, Bool.or_eq_true, beq_iff_eq] at hspacing
      rcases hspacing with rfl | rfl <;> decide
  have hcr : ∀ c ∈ text isAlphanumeric raw, c ≠ '\r' := by
    intro c hc
    rcases mem_intercalate hc with rfl | ⟨line, hline, hc⟩
    · decide
    · exact (hends line hline c hc).2
  rw [rawLines, replaceCrlf_eq_self fun hmem => hcr _ hmem rfl,
    replaceWhere_eq_self fun c hc => by simpa using hcr c hc, text_eq,
    splitOn_intercalate _ (fun line hline hmem => (hends line hline _ hmem).1 rfl) hne]

lemma text_text : text isAlphanumeric (text isAlphanumeric raw) = text isAlphanumeric raw := by
  obtain ⟨hsettled, hnone | hedges⟩ := keptLines_settled isAlphanumeric raw
  · have hempty : text isAlphanumeric raw = [] := by
      rw [text_eq, hnone]
      rfl
    rw [hempty, text_nil]
  have hne : (keptLines isAlphanumeric raw).reduceOption ≠ [] := by
    obtain ⟨line, rest, heq, _⟩ := hedges.first
    rw [heq]
    simp
  obtain ⟨hsame, hgap, hlast⟩ := hsettled.walk_again (Follows.refl (.prose false))
  rw [← rawLines_text raw hne] at hsame hgap hlast hedges
  rw [text_eq (text isAlphanumeric raw), keptLines_eq hsame hgap hlast hedges,
    rawLines_text raw hne, ← text_eq]

lemma unchanged_text : unchanged (text isAlphanumeric raw) = unchanged raw := by
  calc unchanged (text isAlphanumeric raw)
      = ((keptLines isAlphanumeric raw).reduceOption.map unchanged).flatten := unchanged_joined _
    _ = ((rawLines raw).map unchanged).flatten :=
      (keptLines_settled isAlphanumeric raw).1.unchanged_eq
    _ = unchanged (replaceWhere (· == '\r') '\n' (replaceCrlf raw)) := unchanged_split _
    _ = unchanged (replaceCrlf raw) := unchanged_replaceWhere
        (fun c hc => by rw [beq_iff_eq.mp hc]; decide) (by decide) _
    _ = unchanged raw := unchanged_replaceCrlf raw

/-- Normalised text is stable, enters the board, and holds the words it was made from: markdown
text, a one-line field and a message alike. -/
theorem normalised_stable (isAlphanumeric : Char → Bool) (raw : Text) (field : String) :
    (text isAlphanumeric (text isAlphanumeric raw) = text isAlphanumeric raw ∧
      enteredText isAlphanumeric field (text isAlphanumeric raw) = .ok () ∧
      unchanged (text isAlphanumeric raw) = unchanged raw) ∧
    (line (line raw) = line raw ∧ enteredLine field (line raw) = .ok () ∧
      unchanged (line raw) = unchanged raw) ∧
    (message (message raw) = message raw ∧ enteredMessage field (message raw) = .ok () ∧
      unchanged (message raw) = unchanged raw) := by
  refine ⟨⟨text_text raw, ?_, unchanged_text raw⟩, ⟨line_line raw, ?_, unchanged_line raw⟩,
    message_message raw, ?_, unchanged_message raw⟩
  · rw [enteredText, if_pos (text_text raw)]
  · rw [enteredLine, if_pos (line_line raw)]
  · rw [enteredMessage, if_pos (message_message raw)]

end Quecto.Board.BoardText
