/-
  Foundation/Pairing.lean --- questions and their answers in a sequence of messages.
-/
import Quecto.Foundation.OrdMap
import Quecto.Foundation.Search

namespace Quecto.Foundation

open List

section Callers

variable {α κ : Type} [LinearOrder κ]

def issueAt (issued : OrdMap κ Nat) (calls : List κ) (i : Nat) : OrdMap κ Nat :=
  calls.foldl (fun issued call => issued.insert call i) issued

def callersFrom (makes : α → List κ) (answers : α → Option κ) (issued : OrdMap κ Nat) (i : Nat) :
    List α → List (Option Nat)
  | [] => []
  | x :: rest =>
      (answers x).bind (fun call => issued[call]?) ::
        callersFrom makes answers (issueAt issued (makes x) i) (i + 1) rest

def AnswersCall (makes : α → List κ) (answers : α → Option κ) (xs : List α) (c r : Nat) : Prop :=
  ∃ x call, xs[r]? = some x ∧ answers x = some call ∧
    LastAt (fun y => decide (call ∈ makes y)) (xs.take r) c

variable {makes : α → List κ} {answers : α → Option κ}
  {xs done : List α} {c r : Nat} {issued : OrdMap κ Nat}

lemma AnswersCall.lt (h : AnswersCall makes answers xs c r) : c < r ∧ r < xs.length := by
  obtain ⟨x, call, hr, -, hlast⟩ := h
  have hc := hlast.1.lt
  have hlen := (List.getElem?_eq_some_iff.mp hr).1
  rw [length_take] at hc
  omega

lemma AnswersCall.caller (h : AnswersCall makes answers xs c r) :
    ∃ y call, xs[c]? = some y ∧ call ∈ makes y := by
  obtain ⟨x, call, -, -, ⟨y, hy, hcall⟩, -⟩ := h
  rw [List.getElem?_take] at hy
  split at hy
  · exact ⟨y, call, hy, of_decide_eq_true hcall⟩
  · cases hy

lemma issueAt_lookup (issued : OrdMap κ Nat) (calls : List κ) (i : Nat) (call : κ) :
    (issueAt issued calls i)[call]? = if call ∈ calls then some i else issued[call]? := by
  induction calls generalizing issued with
  | nil => simp [issueAt]
  | cons first calls ih =>
    have hstep : issueAt issued (first :: calls) i = issueAt (issued.insert first i) calls i := rfl
    rw [hstep, ih, OrdMap.getElem?_insert_eq]
    by_cases hmem : call ∈ calls
    · simp [hmem]
    by_cases hfirst : first = call
    · simp [hfirst]
    · have hne : call ≠ first := fun h => hfirst h.symm
      simp [hmem, hfirst, hne]

def IssuedBy (makes : α → List κ) (done : List α) (issued : OrdMap κ Nat) : Prop :=
  ∀ (call : κ) (c : Nat), issued[call]? = some c ↔ LastAt (fun y => decide (call ∈ makes y)) done c

lemma IssuedBy.empty : IssuedBy makes [] ∅ := by
  intro call c
  simp [LastAt]

lemma IssuedBy.concat (h : IssuedBy makes done issued) (x : α) :
    IssuedBy makes (done ++ [x]) (issueAt issued (makes x) done.length) := by
  intro call c
  rw [issueAt_lookup, lastAt_concat]
  by_cases hmem : call ∈ makes x
  · simp only [hmem, if_true, decide_true, Option.some.injEq]
    exact eq_comm
  · simpa [hmem] using h call c

lemma callersFrom_length (issued : OrdMap κ Nat) (i : Nat) (rest : List α) :
    (callersFrom makes answers issued i rest).length = rest.length := by
  induction rest generalizing issued i with
  | nil => rfl
  | cons x rest ih => rw [callersFrom, length_cons, length_cons, ih]

lemma answersCall_here (done rest : List α) (x : α) (c : Nat) :
    AnswersCall makes answers (done ++ x :: rest) c done.length ↔
      ∃ call, answers x = some call ∧ LastAt (fun y => decide (call ∈ makes y)) done c := by
  have hhere : (done ++ x :: rest)[done.length]? = some x := by simp
  have htake : (done ++ x :: rest).take done.length = done := by simp
  simp only [AnswersCall, hhere, htake, Option.some.injEq]
  constructor
  · intro h
    obtain ⟨x', call, rfl, hanswers, hlast⟩ := h
    exact ⟨call, hanswers, hlast⟩
  intro h
  obtain ⟨call, hanswers, hlast⟩ := h
  exact ⟨x, call, rfl, hanswers, hlast⟩

lemma callersFrom_iff (rest : List α) (hissued : IssuedBy makes done issued) (k c : Nat) :
    (callersFrom makes answers issued done.length rest)[k]? = some (some c) ↔
      AnswersCall makes answers (done ++ rest) c (done.length + k) := by
  induction rest generalizing done issued k with
  | nil => simp [callersFrom, AnswersCall]
  | cons x rest ih =>
    rw [callersFrom]
    cases k with
    | zero =>
      rw [show done.length + 0 = done.length from rfl, answersCall_here]
      cases hanswers : answers x with
      | none => simp
      | some call => simp [hissued call c]
    | succ k =>
      have hlen : (done ++ [x]).length = done.length + 1 := by simp
      have hlist : done ++ x :: rest = done ++ [x] ++ rest := by simp
      have hindex : done.length + (k + 1) = (done ++ [x]).length + k := by omega
      rw [hindex, hlist, ← hlen]
      exact ih (hissued.concat x) k

lemma callers_iff (xs : List α) (c r : Nat) :
    (callersFrom makes answers ∅ 0 xs)[r]? = some (some c) ↔ AnswersCall makes answers xs c r := by
  have h : (callersFrom makes answers ∅ ([] : List α).length xs)[r]? = some (some c) ↔
      AnswersCall makes answers ([] ++ xs) c (([] : List α).length + r) :=
    callersFrom_iff xs IssuedBy.empty r c
  rw [length_nil, Nat.zero_add] at h
  exact h

end Callers

variable {ι : Type}

structure Slot (ι : Type) where
  asks : List ι
  answers : List ι

def asked (slots : List (Slot ι)) : List ι := slots.flatMap (·.asks)

def answered (slots : List (Slot ι)) : List ι := slots.flatMap (·.answers)

section

variable [DecidableEq ι]

def AnsweredNext : List (Slot ι) → Prop
  | [] => True
  | slot :: behind =>
    (∀ id ∈ slot.asks, (behind.head?.elim [] (·.answers)).count id = 1) ∧ AnsweredNext behind

/-- Every question is asked once and answered once, in the slot behind it. -/
structure Paired (slots : List (Slot ι)) : Prop where
  distinct : (asked slots).Nodup
  next : AnsweredNext slots
  only : ∀ id, (answered slots).count id = (asked slots).count id

def unanswered (slots : List (Slot ι)) : List ι := (asked slots).filter (· ∉ answered slots)

def complete (slots : List (Slot ι)) : List (Slot ι) :=
  if unanswered slots = [] then slots
  else
    match slots.getLast? with
    | some last =>
      if last.answers = [] then slots ++ [⟨[], unanswered slots⟩]
      else slots.dropLast ++ [{ last with answers := last.answers ++ unanswered slots }]
    | none => slots ++ [⟨[], unanswered slots⟩]

end

@[simp] lemma asked_append (slots others : List (Slot ι)) :
    asked (slots ++ others) = asked slots ++ asked others := flatMap_append

@[simp] lemma answered_append (slots others : List (Slot ι)) :
    answered (slots ++ others) = answered slots ++ answered others := flatMap_append

lemma pairwise_iff_behind {α : Type} {R : α → α → Prop} {l : List α} :
    l.Pairwise R ↔ ∀ before a behind, l = before ++ a :: behind → ∀ b ∈ behind, R a b := by
  constructor
  · rintro h before a behind rfl
    exact (pairwise_cons.mp (pairwise_append.mp h).2.1).1
  intro h
  induction l with
  | nil => exact List.Pairwise.nil
  | cons a behind ih =>
    refine List.Pairwise.cons (h [] a behind rfl) (ih ?_)
    intro before b rest hrest
    exact h (a :: before) b rest (congrArg (a :: ·) hrest)

/-! ## Exchanges -/

structure Exchange (ι : Type) where
  speaks : Bool
  asks : List ι
  answers : List ι
  silent : speaks = false → asks = []
  own : answers ⊆ asks
  once : answers.Nodup

namespace Exchange

def slots (exchange : Exchange ι) : List (Slot ι) :=
  if exchange.speaks then
    ⟨exchange.asks, []⟩ :: (if exchange.answers.isEmpty then [] else [⟨[], exchange.answers⟩])
  else []

def Answered (exchange : Exchange ι) : Prop := exchange.asks ⊆ exchange.answers

variable {exchange : Exchange ι} {id : ι} {exchanges : List (Exchange ι)}

lemma speaks_of_asks (h : id ∈ exchange.asks) : exchange.speaks = true := by
  by_contra hsilent
  rw [exchange.silent (Bool.eq_false_iff.mpr hsilent)] at h
  cases h

lemma slots_silent (h : exchange.speaks = false) : exchange.slots = [] := by
  simp [slots, h]

lemma slots_nil (h : exchange.speaks = true) (hanswers : exchange.answers = []) :
    exchange.slots = [⟨exchange.asks, []⟩] := by
  simp [slots, h, hanswers]

lemma slots_answers (h : exchange.speaks = true) (hanswers : exchange.answers ≠ []) :
    exchange.slots = [⟨exchange.asks, []⟩, ⟨[], exchange.answers⟩] := by
  simp [slots, h, hanswers]

@[simp] lemma asked_slots (exchange : Exchange ι) : asked exchange.slots = exchange.asks := by
  cases hspeaks : exchange.speaks with
  | false => rw [slots_silent hspeaks, exchange.silent hspeaks]; rfl
  | true =>
    by_cases hanswers : exchange.answers = []
    · simp [slots_nil hspeaks hanswers, asked]
    · simp [slots_answers hspeaks hanswers, asked]

@[simp] lemma answered_slots (exchange : Exchange ι) :
    answered exchange.slots = exchange.answers := by
  cases hspeaks : exchange.speaks with
  | false =>
    have hnone := exchange.own
    rw [exchange.silent hspeaks, subset_nil] at hnone
    rw [slots_silent hspeaks, hnone]
    rfl
  | true =>
    by_cases hanswers : exchange.answers = []
    · simp [slots_nil hspeaks hanswers, answered, hanswers]
    · simp [slots_answers hspeaks hanswers, answered]

def payload (exchanges : List (Exchange ι)) : List (Slot ι) := exchanges.flatMap slots

@[simp] lemma payload_nil : payload ([] : List (Exchange ι)) = [] := rfl

@[simp] lemma payload_cons (exchange : Exchange ι) (rest : List (Exchange ι)) :
    payload (exchange :: rest) = exchange.slots ++ payload rest := rfl

@[simp] lemma payload_append (exchanges others : List (Exchange ι)) :
    payload (exchanges ++ others) = payload exchanges ++ payload others := flatMap_append

lemma asked_payload (exchanges : List (Exchange ι)) :
    asked (payload exchanges) = exchanges.flatMap (·.asks) := by
  induction exchanges with
  | nil => rfl
  | cons exchange rest ih => rw [payload_cons, asked_append, asked_slots, ih, flatMap_cons]

lemma answered_payload (exchanges : List (Exchange ι)) :
    answered (payload exchanges) = exchanges.flatMap (·.answers) := by
  induction exchanges with
  | nil => rfl
  | cons exchange rest ih =>
    rw [payload_cons, answered_append, answered_slots, ih, flatMap_cons]

lemma payload_eq_nil_iff :
    payload exchanges = [] ↔ ∀ exchange ∈ exchanges, exchange.speaks = false := by
  rw [payload, flatMap_eq_nil_iff]
  refine forall₂_congr fun exchange _ => ?_
  cases hspeaks : exchange.speaks with
  | false => simp [slots_silent hspeaks]
  | true => simp [slots, hspeaks]

lemma payload_head (h : payload exchanges ≠ []) :
    ∃ slot rest, payload exchanges = slot :: rest ∧ slot.answers = [] := by
  induction exchanges with
  | nil => exact absurd rfl h
  | cons exchange others ih =>
    cases hspeaks : exchange.speaks with
    | false =>
      rw [payload_cons, slots_silent hspeaks] at h ⊢
      exact ih h
    | true =>
      rw [payload_cons, slots, if_pos hspeaks]
      exact ⟨_, _, rfl, rfl⟩

lemma answers_subset_asks (h : id ∈ exchanges.flatMap (·.answers)) :
    id ∈ exchanges.flatMap (·.asks) := by
  obtain ⟨exchange, hmem, hid⟩ := mem_flatMap.mp h
  exact mem_flatMap.mpr ⟨exchange, hmem, exchange.own hid⟩

lemma mem_answers_iff {before behind : List (Exchange ι)}
    (hdistinct : ((before ++ exchange :: behind).flatMap (·.asks)).Nodup)
    (hid : id ∈ exchange.asks) :
    id ∈ (before ++ exchange :: behind).flatMap (·.answers) ↔ id ∈ exchange.answers := by
  rw [flatMap_append, flatMap_cons] at hdistinct ⊢
  obtain ⟨-, hrest, hbefore⟩ := nodup_append'.mp hdistinct
  obtain ⟨-, -, hbehind⟩ := nodup_append'.mp hrest
  rw [mem_append, mem_append]
  constructor
  · rintro (hin | hin | hin)
    · exact absurd (mem_append_left _ hid) (hbefore (answers_subset_asks hin))
    · exact hin
    · exact absurd (answers_subset_asks hin) (hbehind hid)
  · exact fun hin => .inr (.inl hin)

section Paired

variable [DecidableEq ι]
  {exchanges before : List (Exchange ι)} {slot : Slot ι} {exchange : Exchange ι} {id : ι}

lemma answeredNext_payload (hanswered : ∀ exchange ∈ exchanges, exchange.Answered) :
    AnsweredNext (payload exchanges) := by
  induction exchanges with
  | nil => trivial
  | cons exchange rest ih =>
    obtain ⟨hfirst, hothers⟩ := forall_mem_cons.mp hanswered
    cases hspeaks : exchange.speaks with
    | false =>
      rw [payload_cons, slots_silent hspeaks]
      exact ih hothers
    | true =>
      by_cases hanswers : exchange.answers = []
      · rw [payload_cons, slots_nil hspeaks hanswers]
        refine ⟨?_, ih hothers⟩
        intro id hid
        have hin := hfirst hid
        rw [hanswers] at hin
        cases hin
      · rw [payload_cons, slots_answers hspeaks hanswers]
        refine ⟨fun id hid => ?_, nofun, ih hothers⟩
        exact count_eq_one_of_mem exchange.once (hfirst hid)

section

variable (hdistinct : (exchanges.flatMap (·.asks)).Nodup)
  (hanswered : ∀ exchange ∈ exchanges, exchange.Answered)
include hdistinct hanswered

omit [DecidableEq ι] in
lemma perm_answers : (exchanges.flatMap (·.answers)).Perm (exchanges.flatMap (·.asks)) := by
  induction exchanges with
  | nil => exact .nil
  | cons exchange rest ih =>
    obtain ⟨hfirst, hothers⟩ := forall_mem_cons.mp hanswered
    obtain ⟨hasks, hrest, -⟩ := nodup_append'.mp hdistinct
    refine List.Perm.append ?_ (ih hrest hothers)
    exact (perm_ext_iff_of_nodup exchange.once hasks).mpr
      fun id => ⟨fun hid => exchange.own hid, fun hid => hfirst hid⟩

lemma paired_payload : Paired (payload exchanges) := by
  refine ⟨by rwa [asked_payload], answeredNext_payload hanswered, fun id => ?_⟩
  rw [asked_payload, answered_payload]
  exact (perm_answers hdistinct hanswered).count_eq id

end

/-! ## The repair -/

lemma complete_concat (front : List (Slot ι)) (last : Slot ι) : complete (front ++ [last]) =
      let missing := unanswered (front ++ [last])
      if missing = [] then front ++ [last]
      else if last.answers = [] then front ++ [last, ⟨[], missing⟩]
      else front ++ [{ last with answers := last.answers ++ missing }] := by
  unfold complete
  simp only [List.getLast?_concat, dropLast_concat, append_assoc, cons_append, nil_append]

lemma asked_complete (slots : List (Slot ι)) : asked (complete slots) = asked slots := by
  cases hlast : slots.getLast? with
  | none =>
    rw [List.getLast?_eq_none_iff] at hlast
    rw [hlast]
    rfl
  | some last =>
    obtain ⟨front, rfl⟩ : ∃ front, slots = front ++ [last] :=
      ⟨_, (dropLast_append_getLast? last hlast).symm⟩
    rw [complete_concat]
    dsimp only
    split
    · rfl
    split <;> simp [asked]

lemma complete_append (front : List (Slot ι)) (rest : List (Slot ι)) (hslot : slot.answers = []) :
    ∃ rest', complete (front ++ slot :: rest) = front ++ slot :: rest' := by
  cases hrest : rest.getLast? with
  | none =>
    rw [List.getLast?_eq_none_iff] at hrest
    rw [hrest, complete_concat]
    simp only [hslot, if_true]
    split
    · exact ⟨[], rfl⟩
    · exact ⟨_, rfl⟩
  | some last =>
    obtain ⟨others, rfl⟩ : ∃ others, rest = others ++ [last] :=
      ⟨_, (dropLast_append_getLast? last hrest).symm⟩
    have hshape : ∀ more : List (Slot ι),
        (front ++ slot :: others) ++ more = front ++ slot :: (others ++ more) := by
      intro more
      rw [append_assoc, cons_append]
    rw [← hshape, complete_concat]
    dsimp only
    split
    · exact ⟨_, hshape _⟩
    split <;> exact ⟨_, hshape _⟩

lemma answered_of_next {front : List (Slot ι)} {behind : List (Slot ι)}
    (h : AnsweredNext (front ++ slot :: behind)) :
    ∀ id ∈ slot.asks, (behind.head?.elim [] (·.answers)).count id = 1 := by
  induction front with
  | nil => exact h.1
  | cons first front ih => exact ih h.2

lemma behind_silent {behind : List (Exchange ι)}
    (hpaired : Paired (complete (payload (before ++ exchange :: behind))))
    (hid : id ∈ exchange.asks) (hmissing : id ∉ exchange.answers) :
    ∀ later ∈ behind, later.speaks = false := by
  rw [← payload_eq_nil_iff]
  by_contra hne
  obtain ⟨slot, rest, hslots, hslot⟩ := payload_head hne
  have hspeaks := speaks_of_asks hid
  by_cases hanswers : exchange.answers = []
  · obtain ⟨rest', hcomplete⟩ :=
      complete_append (payload before ++ [⟨exchange.asks, []⟩]) rest hslot
    have hpayload : payload (before ++ exchange :: behind) =
        (payload before ++ [⟨exchange.asks, []⟩]) ++ slot :: rest := by
      rw [payload_append, payload_cons, slots_nil hspeaks hanswers, hslots, append_assoc]
    rw [hpayload, hcomplete, append_assoc] at hpaired
    have hcount : slot.answers.count id = 1 := answered_of_next hpaired.next id hid
    rw [hslot] at hcount
    cases hcount
  · obtain ⟨rest', hcomplete⟩ := complete_append
      (payload before ++ [⟨exchange.asks, []⟩, ⟨[], exchange.answers⟩]) rest hslot
    have hpayload : payload (before ++ exchange :: behind) =
        (payload before ++ [⟨exchange.asks, []⟩, ⟨[], exchange.answers⟩]) ++ slot :: rest := by
      rw [payload_append, payload_cons, slots_answers hspeaks hanswers, hslots, append_assoc]
    rw [hpayload, hcomplete, append_assoc] at hpaired
    have hcount : exchange.answers.count id = 1 := answered_of_next hpaired.next id hid
    exact hmissing (count_pos_iff.mp (by omega))

omit [DecidableEq ι] in
lemma exists_missing (h : ¬ exchange.Answered) : ∃ id ∈ exchange.asks, id ∉ exchange.answers := by
  by_contra hnone
  refine h fun id hid => ?_
  by_contra hmissing
  exact hnone ⟨id, hid, hmissing⟩

def answerAll (exchange : Exchange ι) (hasks : exchange.asks.Nodup) : Exchange ι where
  speaks := exchange.speaks
  asks := exchange.asks
  answers := exchange.answers ++ exchange.asks.filter (· ∉ exchange.answers)
  silent := exchange.silent
  own := append_subset.mpr ⟨exchange.own, filter_subset_self _⟩
  once := by
    refine nodup_append'.mpr ⟨exchange.once, hasks.filter _, ?_⟩
    intro id hid hmissing
    exact of_decide_eq_true (mem_filter.mp hmissing).2 hid

lemma answerAll_answered (exchange : Exchange ι) (hasks : exchange.asks.Nodup) :
    (exchange.answerAll hasks).Answered := by
  intro id hid
  by_cases hanswered : id ∈ exchange.answers
  · exact mem_append_left _ hanswered
  · exact mem_append_right _ (mem_filter.mpr ⟨hid, decide_eq_true hanswered⟩)

lemma complete_payload (hdistinct : ((before ++ [exchange]).flatMap (·.asks)).Nodup)
    (hbefore : ∀ earlier ∈ before, earlier.Answered) (hid : id ∈ exchange.asks)
    (hmissing : id ∉ exchange.answers) (hasks : exchange.asks.Nodup) :
    complete (payload (before ++ [exchange])) = payload (before ++ [exchange.answerAll hasks]) := by
  have hspeaks := speaks_of_asks hid
  -- Exactly the questions of the last exchange lack an answer.
  have hlacks : unanswered (payload (before ++ [exchange])) =
      exchange.asks.filter (· ∉ exchange.answers) := by
    have hasked : asked (payload (before ++ [exchange])) =
        before.flatMap (·.asks) ++ exchange.asks := by
      rw [asked_payload, flatMap_append, flatMap_singleton]
    rw [unanswered, hasked, answered_payload, filter_append]
    have hnone : (before.flatMap (·.asks)).filter
        (· ∉ (before ++ [exchange]).flatMap (·.answers)) = [] := by
      rw [filter_eq_nil_iff]
      intro other hother
      obtain ⟨earlier, hearlier, hin⟩ := mem_flatMap.mp hother
      rw [decide_eq_true_eq, not_not]
      exact mem_flatMap.mpr
        ⟨earlier, mem_append_left _ hearlier, hbefore earlier hearlier hin⟩
    rw [hnone]
    refine filter_congr fun other hother => ?_
    rw [decide_eq_decide, mem_answers_iff hdistinct hother]
  have hsome : exchange.asks.filter (· ∉ exchange.answers) ≠ [] :=
    ne_nil_of_mem (mem_filter.mpr ⟨hid, decide_eq_true hmissing⟩)
  have hall : (exchange.answerAll hasks).answers ≠ [] := by
    intro hnil
    exact hsome (append_eq_nil_iff.mp hnil).2
  have hpayload : payload (before ++ [exchange.answerAll hasks]) =
      payload before ++ [⟨exchange.asks, []⟩, ⟨[], (exchange.answerAll hasks).answers⟩] := by
    have hslots : (exchange.answerAll hasks).slots =
        [⟨exchange.asks, []⟩, ⟨[], (exchange.answerAll hasks).answers⟩] :=
      slots_answers hspeaks hall
    rw [payload_append, payload_cons, hslots]
    rfl
  rw [hpayload]
  by_cases hanswers : exchange.answers = []
  · have hlast : payload (before ++ [exchange]) = payload before ++ [⟨exchange.asks, []⟩] := by
      rw [payload_append, payload_cons, slots_nil hspeaks hanswers]
      rfl
    rw [hlast] at hlacks ⊢
    rw [complete_concat, hlacks]
    rw [if_neg hsome, if_pos rfl]
    simp only [answerAll, hanswers, nil_append]
  · have hlast : payload (before ++ [exchange]) =
        (payload before ++ [⟨exchange.asks, []⟩]) ++ [⟨[], exchange.answers⟩] := by
      rw [payload_append, payload_cons, slots_answers hspeaks hanswers, append_assoc]
      rfl
    rw [hlast] at hlacks ⊢
    rw [complete_concat, hlacks]
    simp only [if_neg hsome, if_neg hanswers, answerAll, append_assoc]
    rfl

lemma paired_complete_iff (exchanges : List (Exchange ι)) :
    Paired (complete (payload exchanges)) ↔ (exchanges.flatMap (·.asks)).Nodup ∧
      exchanges.Pairwise fun exchange later => ¬ exchange.Answered → later.speaks = false := by
  rw [pairwise_iff_behind]
  constructor
  · intro hpaired
    refine ⟨?_, ?_⟩
    · have hdistinct := hpaired.distinct
      rwa [asked_complete, asked_payload] at hdistinct
    rintro before exchange behind rfl later hlater hlacks
    obtain ⟨id, hid, hmissing⟩ := exists_missing hlacks
    exact behind_silent hpaired hid hmissing later hlater
  · rintro ⟨hdistinct, hsilent⟩
    by_cases hall : ∀ exchange ∈ exchanges, exchange.Answered
    · have hnone : unanswered (payload exchanges) = [] := by
        rw [unanswered, asked_payload, answered_payload, filter_eq_nil_iff]
        intro id hid
        obtain ⟨exchange, hmem, hin⟩ := mem_flatMap.mp hid
        rw [decide_eq_true_eq, not_not]
        exact mem_flatMap.mpr ⟨exchange, hmem, hall exchange hmem hin⟩
      rw [complete, if_pos hnone]
      exact paired_payload hdistinct hall
    · simp only [not_forall] at hall
      obtain ⟨exchange, hmem, hlacks⟩ := hall
      obtain ⟨before, behind, rfl⟩ := append_of_mem hmem
      obtain ⟨id, hid, hmissing⟩ := exists_missing hlacks
      have hbehind : ∀ later ∈ behind, later.speaks = false :=
        fun later hlater => hsilent before exchange behind rfl later hlater hlacks
      have hpayload : payload (before ++ exchange :: behind) = payload (before ++ [exchange]) := by
        rw [payload_append, payload_cons, payload_eq_nil_iff.mpr hbehind,
          payload_append, payload_cons,
          payload_nil]
      have hasks : (before ++ exchange :: behind).flatMap (·.asks) =
          (before ++ [exchange]).flatMap (·.asks) := by
        rw [← asked_payload, hpayload, asked_payload]
      rw [hasks] at hdistinct
      have hbefore : ∀ earlier ∈ before, earlier.Answered := by
        intro earlier hearlier
        by_contra hunanswered
        obtain ⟨front, middle, rfl⟩ := append_of_mem hearlier
        have hnot := hsilent front earlier (middle ++ exchange :: behind) (by simp)
          exchange (by simp) hunanswered
        exact absurd (speaks_of_asks hid) (by simp [hnot])
      have hown : exchange.asks.Nodup := by
        rw [flatMap_append, flatMap_singleton] at hdistinct
        exact (nodup_append'.mp hdistinct).2.1
      rw [hpayload, complete_payload hdistinct hbefore hid hmissing hown]
      refine paired_payload ?_ ?_
      · rw [flatMap_append] at hdistinct ⊢
        exact hdistinct
      · refine forall_mem_append.mpr ⟨hbefore, forall_mem_singleton.mpr ?_⟩
        exact answerAll_answered exchange hown

end Paired

end Exchange

end Quecto.Foundation
