/-
  ToolPolicy/NetworkDestination.lean --- which destinations a fetch may reach.

  Source: `domain/tool_policy/services/network_destination.rs` and
  `value_objects/nat64_prefix.rs`.
-/
import Quecto.Foundation.Word

namespace Quecto.ToolPolicy

open Foundation List

abbrev Ipv4Addr := BitVec 32

abbrev Ipv6Addr := BitVec 128

namespace Ipv4Addr

def new (a b c d : BitVec 8) : Ipv4Addr := a ++ b ++ c ++ d

def octet (address : Ipv4Addr) (i : Nat) : BitVec 8 := address.extractLsb' (24 - 8 * i) 8

end Ipv4Addr

namespace Ipv6Addr

def octet (address : Ipv6Addr) (i : Nat) : BitVec 8 := address.extractLsb' (120 - 8 * i) 8

def setOctet (address : Ipv6Addr) (i : Nat) (octet : BitVec 8) : Ipv6Addr :=
  address &&& ~~~ ((BitVec.allOnes 8).setWidth 128 <<< (120 - 8 * i)) |||
    octet.setWidth 128 <<< (120 - 8 * i)

end Ipv6Addr

def wellKnownIpv4 : List Ipv4Addr := [Ipv4Addr.new 192 0 0 170, Ipv4Addr.new 192 0 0 171]

def lengths : List Nat := [32, 40, 48, 56, 64, 96]

def uOctet : Nat := 8

structure Nat64Prefix where
  base : Ipv6Addr
  length : Nat
  known : length ∈ lengths
  cleared : masked base length = base
  deriving DecidableEq

namespace Nat64Prefix

def new (base : Ipv6Addr) (length : Nat) : Option Nat64Prefix :=
  if h : length ∈ lengths then some ⟨masked base length, length, h, masked_masked base length⟩
  else none

def contains (self : Nat64Prefix) (address : Ipv6Addr) : Bool :=
  masked address self.length == self.base

def ipv4Octets (self : Nat64Prefix) : List Nat :=
  ((List.range' (self.length / 8) (16 - self.length / 8)).filter (· != uOctet)).take 4

def embedded (self : Nat64Prefix) (address : Ipv6Addr) : Ipv4Addr :=
  let octetAt (k : Nat) := address.octet (self.ipv4Octets.getD k 0)
  Ipv4Addr.new (octetAt 0) (octetAt 1) (octetAt 2) (octetAt 3)

def synthesize (self : Nat64Prefix) (ipv4 : Ipv4Addr) : Ipv6Addr :=
  (self.ipv4Octets.zip [ipv4.octet 0, ipv4.octet 1, ipv4.octet 2, ipv4.octet 3]).foldl
    (fun octets place => octets.setOctet place.1 place.2) self.base

end Nat64Prefix

open Nat64Prefix

/-- Whether `answer` embeds a well-known address under `candidate`.  Below length 96 the
reserved octet is outside the prefix and must be zero. -/
def isMatch (answer : Ipv6Addr) (candidate : Nat64Prefix) : Bool :=
  let uOctetClear := candidate.length == 96 || answer.octet uOctet == 0
  wellKnownIpv4.contains (candidate.embedded answer) && uOctetClear

def tryCandidate (answer : Ipv6Addr) (found : List Nat64Prefix) (candidate : Nat64Prefix) :
    List Nat64Prefix :=
  if isMatch answer candidate && !found.contains candidate then found ++ [candidate] else found

/-- The prefixes discovery reveals: for each answer, every known length at which it
embeds a well-known address, each once. -/
def discoveredPrefixes (answers : List Ipv6Addr) : List Nat64Prefix :=
  answers.foldl
    (fun found answer =>
      (lengths.filterMap (new answer)).foldl (tryCandidate answer) found) []

variable (address : Ipv6Addr)

def translated (prefixes : List Nat64Prefix) : Option Ipv4Addr :=
  (prefixes.find? (·.contains address)).map (·.embedded address)

inductive IpAddr where
  | v4 (address : Ipv4Addr)
  | v6 (address : Ipv6Addr)
  deriving DecidableEq

/-- A refused destination: the address as written and, when it is a form of an IPv4
address, the one that decided the refusal. -/
structure NonPublicAddress where
  address : IpAddr
  embedded : Option Ipv4Addr
  deriving DecidableEq

/-! ## The public space -/

abbrev V4Block := Block 32

abbrev V6Block := Block 128

def v6 (a b c d e f g h : BitVec 16) : Ipv6Addr := a ++ b ++ c ++ d ++ e ++ f ++ g ++ h

def v4NotGlobal : List V4Block := [⟨Ipv4Addr.new 10 0 0 0, 8⟩, ⟨Ipv4Addr.new 100 64 0 0, 10⟩,
  ⟨Ipv4Addr.new 127 0 0 0, 8⟩,
  ⟨Ipv4Addr.new 169 254 0 0, 16⟩,
  ⟨Ipv4Addr.new 172 16 0 0, 12⟩,
  ⟨Ipv4Addr.new 192 0 0 0, 24⟩,
  ⟨Ipv4Addr.new 192 0 2 0, 24⟩,
  ⟨Ipv4Addr.new 192 88 99 0, 24⟩,
  ⟨Ipv4Addr.new 192 168 0 0, 16⟩,
  ⟨Ipv4Addr.new 198 18 0 0, 15⟩,
  ⟨Ipv4Addr.new 198 51 100 0, 24⟩,
  ⟨Ipv4Addr.new 203 0 113 0, 24⟩]

def isPublicV4 (address : Ipv4Addr) : Bool :=
  let unicast := decide (1 ≤ (address.octet 0).toNat) && decide ((address.octet 0).toNat ≤ 223)
  unicast && v4NotGlobal.all fun block => !block.contains address

def v6Allocated : List V6Block := [⟨v6 0x2001 0 0 0 0 0 0 0, 16⟩, ⟨v6 0x2003 0 0 0 0 0 0 0, 18⟩,
  ⟨v6 0x2400 0 0 0 0 0 0 0, 12⟩,
  ⟨v6 0x2600 0 0 0 0 0 0 0, 12⟩,
  ⟨v6 0x2610 0 0 0 0 0 0 0, 23⟩,
  ⟨v6 0x2620 0 0 0 0 0 0 0, 23⟩,
  ⟨v6 0x2630 0 0 0 0 0 0 0, 12⟩,
  ⟨v6 0x2800 0 0 0 0 0 0 0, 12⟩,
  ⟨v6 0x2a00 0 0 0 0 0 0 0, 12⟩,
  ⟨v6 0x2a10 0 0 0 0 0 0 0, 12⟩,
  ⟨v6 0x2c00 0 0 0 0 0 0 0, 12⟩]

def v6NotGlobal : List V6Block := [⟨v6 0x2001 0 0 0 0 0 0 0, 23⟩,
  ⟨v6 0x2001 0x0db8 0 0 0 0 0 0, 32⟩]

def isPublicV6 : Bool :=
  (v6Allocated.any fun block => block.contains address) &&
    v6NotGlobal.all fun block => !block.contains address

/-! ## Embedded addresses -/

inductive Embedded where
  | judged (reached : List Ipv4Addr)
  | absent
  deriving DecidableEq

def mapped : V6Block := ⟨v6 0 0 0 0 0 0xffff 0 0, 96⟩
def nat64 : V6Block := ⟨v6 0x64 0xff9b 0 0 0 0 0 0, 96⟩
def sixToFour : V6Block := ⟨v6 0x2002 0 0 0 0 0 0 0, 16⟩
def teredo : V6Block := ⟨v6 0x2001 0 0 0 0 0 0 0, 32⟩

def embeddedIpv4 : Embedded :=
  let low : Ipv4Addr := address.setWidth 32
  if mapped.contains address || nat64.contains address then .judged [low]
  else if sixToFour.contains address then .judged [(address >>> 80).setWidth 32]
  else if teredo.contains address then
    -- the client is obfuscated: inverted
    .judged [(address >>> 64).setWidth 32, ~~~ low]
  else .absent

/-! ## The verdict -/

def authorizeDestination (address : IpAddr) : Except NonPublicAddress Unit :=
  let refused (embedded : Option Ipv4Addr) : NonPublicAddress := ⟨address, embedded⟩
  match address with
  | .v4 v4 => if isPublicV4 v4 then .ok () else .error (refused none)
  | .v6 v6 =>
      match embeddedIpv4 v6 with
      | .judged reached =>
          match reached.find? fun v4 => !isPublicV4 v4 with
          | none => .ok ()
          | some hidden => .error (refused (some hidden))
      | .absent => if isPublicV6 v6 then .ok () else .error (refused none)

def authorizeUnder (address : IpAddr) (prefixes : List Nat64Prefix)
    (policy : IpAddr → Except NonPublicAddress Unit) : Except NonPublicAddress Unit :=
  let reached :=
    match address with
    | .v6 v6 => translated v6 prefixes
    | .v4 _ => none
  match reached with
  | some v4 => (policy (.v4 v4)).mapError fun _ => ⟨address, some v4⟩
  | none => policy address

def authorizeDestinationUnder (address : IpAddr) (prefixes : List Nat64Prefix) :
    Except NonPublicAddress Unit :=
  authorizeUnder address prefixes authorizeDestination

/-! ## What the tables say -/

def PublicV4 (address : Ipv4Addr) : Prop :=
  (1 ≤ (address.octet 0).toNat ∧ (address.octet 0).toNat ≤ 223) ∧
    ∀ block ∈ v4NotGlobal, ¬ block.Holds address

def PublicV6 : Prop :=
  (∃ block ∈ v6Allocated, block.Holds address) ∧ ∀ block ∈ v6NotGlobal, ¬ block.Holds address

lemma isPublicV4_iff (address : Ipv4Addr) : isPublicV4 address = true ↔ PublicV4 address := by
  simp only [isPublicV4, PublicV4, Bool.and_eq_true, decide_eq_true_eq, all_eq_true,
    Block.not_contains_iff]

lemma isPublicV6_iff : isPublicV6 address = true ↔ PublicV6 address := by
  simp only [isPublicV6, PublicV6, Bool.and_eq_true, any_eq_true, all_eq_true,
    Block.contains_iff, Block.not_contains_iff]

inductive Carries (address : Ipv6Addr) : Ipv4Addr → Prop
  | mapped (h : mapped.Holds address) : Carries address (address.setWidth 32)
  | nat64 (h : nat64.Holds address) : Carries address (address.setWidth 32)
  | sixToFour (h : sixToFour.Holds address) : Carries address ((address >>> 80).setWidth 32)
  | teredoServer (h : teredo.Holds address) : Carries address ((address >>> 64).setWidth 32)
  | teredoClient (h : teredo.Holds address) : Carries address (~~~ (address.setWidth 32))

lemma forms_apart : (mapped.Holds address ∨ nat64.Holds address →
      ¬ sixToFour.Holds address ∧ ¬ teredo.Holds address) ∧
    (sixToFour.Holds address → ¬ teredo.Holds address) := by
  have hmapped : mapped.Holds address ↔ address.toNat / 2 ^ 32 = 0xffff := Iff.rfl
  have hnat64 : nat64.Holds address ↔ address.toNat / 2 ^ 32 = 0x64ff9b0000000000000000 := Iff.rfl
  have hsixToFour : sixToFour.Holds address ↔ address.toNat / 2 ^ 112 = 0x2002 := Iff.rfl
  have hteredo : teredo.Holds address ↔ address.toNat / 2 ^ 96 = 0x20010000 := Iff.rfl
  rw [hmapped, hnat64, hsixToFour, hteredo]
  omega

lemma carries_iff (v4 : Ipv4Addr) :
    Carries address v4 ↔ ∃ reached, embeddedIpv4 address = .judged reached ∧ v4 ∈ reached := by
  obtain ⟨hlow, hsix⟩ := forms_apart address
  unfold embeddedIpv4
  simp only [Bool.or_eq_true, Block.contains_iff]
  constructor
  · intro h
    cases h with
    | mapped h => exact ⟨_, if_pos (.inl h), mem_singleton_self _⟩
    | nat64 h => exact ⟨_, if_pos (.inr h), mem_singleton_self _⟩
    | sixToFour h =>
      have hnot := fun hc => (hlow hc).1 h
      rw [if_neg hnot, if_pos h]
      exact ⟨_, rfl, mem_singleton_self _⟩
    | teredoServer h =>
      have hnot := fun hc => (hlow hc).2 h
      rw [if_neg hnot, if_neg fun hc => hsix hc h, if_pos h]
      exact ⟨_, rfl, mem_cons_self⟩
    | teredoClient h =>
      have hnot := fun hc => (hlow hc).2 h
      rw [if_neg hnot, if_neg fun hc => hsix hc h, if_pos h]
      exact ⟨_, rfl, mem_cons_of_mem _ (mem_singleton_self _)⟩
  · rintro ⟨reached, hreached, hmem⟩
    split at hreached
    · rename_i hform
      rw [← Embedded.judged.inj hreached, mem_singleton] at hmem
      subst hmem
      obtain hform | hform := hform
      · exact .mapped hform
      · exact .nat64 hform
    split at hreached
    · rename_i hform
      rw [← Embedded.judged.inj hreached, mem_singleton] at hmem
      subst hmem
      exact .sixToFour hform
    split at hreached
    · rename_i hform
      rw [← Embedded.judged.inj hreached, mem_cons, mem_singleton] at hmem
      obtain rfl | rfl := hmem
      · exact .teredoServer hform
      · exact .teredoClient hform
    · cases hreached

variable {address : Ipv6Addr} {prefixes ordered : List Nat64Prefix}

lemma exists_carries_of_judged {reached : List Ipv4Addr}
    (h : embeddedIpv4 address = .judged reached) : ∃ v4, Carries address v4 := by
  cases reached with
  | cons v4 rest => exact ⟨v4, (carries_iff address v4).mpr ⟨_, h, mem_cons_self⟩⟩
  | nil =>
    unfold embeddedIpv4 at h
    split at h
    · cases h
    split at h
    · cases h
    split at h <;> cases h

def Native (address : Ipv6Addr) : Prop :=
  ((∃ v4, Carries address v4) ∧ ∀ v4, Carries address v4 → PublicV4 v4) ∨
    ((¬ ∃ v4, Carries address v4) ∧ PublicV6 address)

lemma authorizeDestination_v4_iff (address : Ipv4Addr) :
    authorizeDestination (.v4 address) = .ok () ↔ PublicV4 address := by
  rw [← isPublicV4_iff]
  by_cases h : isPublicV4 address = true <;> simp [authorizeDestination, h]

lemma authorizeDestination_v6_iff (address : Ipv6Addr) :
    authorizeDestination (.v6 address) = .ok () ↔ Native address := by
  cases hform : embeddedIpv4 address with
  | judged reached =>
    have hcarries : ∀ v4, Carries address v4 ↔ v4 ∈ reached := by
      intro v4
      rw [carries_iff, hform]
      constructor
      · rintro ⟨reached', heq, hmem⟩
        exact Embedded.judged.inj heq ▸ hmem
      · intro hmem
        exact ⟨reached, rfl, hmem⟩
    have hok : authorizeDestination (.v6 address) = .ok () ↔ ∀ v4 ∈ reached, PublicV4 v4 := by
      simp only [authorizeDestination, hform]
      cases hfind : reached.find? fun v4 => !isPublicV4 v4 with
      | none =>
        rw [List.find?_eq_none] at hfind
        simp only [true_iff]
        intro v4 hmem
        rw [← isPublicV4_iff]
        simpa using hfind v4 hmem
      | some hidden =>
        have hmem := mem_of_find?_eq_some hfind
        have hhidden := List.find?_some hfind
        rw [Bool.not_eq_true', ← Bool.not_eq_true, isPublicV4_iff] at hhidden
        simp only [reduceCtorEq, false_iff]
        exact fun hall => hhidden (hall hidden hmem)
    have hsome := exists_carries_of_judged hform
    rw [hok]
    simp only [← hcarries]
    exact ⟨fun h => .inl ⟨hsome, h⟩, fun h => (h.resolve_right fun hn => hn.1 hsome).2⟩
  | absent =>
    have hnone : ¬ ∃ v4, Carries address v4 := by
      rintro ⟨v4, hcarries⟩
      obtain ⟨reached, hreached, -⟩ := (carries_iff address v4).mp hcarries
      rw [hform] at hreached
      cases hreached
    have hok : authorizeDestination (.v6 address) = .ok () ↔ PublicV6 address := by
      rw [← isPublicV6_iff]
      by_cases h : isPublicV6 address = true <;> simp [authorizeDestination, hform, h]
    rw [hok]
    exact ⟨fun h => .inr ⟨hnone, h⟩, fun h => (h.resolve_left fun hs => hnone hs.1).2⟩

/-! ## Several prefixes -/

lemma authorizeDestinationUnder_of_none (h : prefixes.find? (·.contains address) = none) :
    authorizeDestinationUnder (.v6 address) prefixes = .ok () ↔ Native address := by
  rw [← authorizeDestination_v6_iff]
  simp only [authorizeDestinationUnder, authorizeUnder, translated, h, Option.map_none]

lemma authorizeDestinationUnder_of_first {first : Nat64Prefix}
    (h : prefixes.find? (·.contains address) = some first) :
    authorizeDestinationUnder (.v6 address) prefixes = .ok () ↔
      PublicV4 (first.embedded address) := by
  rw [← authorizeDestination_v4_iff]
  simp only [authorizeDestinationUnder, authorizeUnder, translated, h, Option.map_some]
  cases authorizeDestination (.v4 (first.embedded address)) <;> simp [Except.mapError]

/-- What it takes for no private address to be smuggled in: every translation of the
address is public, and without one the address itself is. -/
structure Judged (address : Ipv6Addr) (prefixes : List Nat64Prefix) : Prop where
  translations : ∀ p ∈ prefixes, p.contains address = true → PublicV4 (p.embedded address)
  native : (∀ p ∈ prefixes, p.contains address = false) → Native address

def Agree (address : Ipv6Addr) (prefixes : List Nat64Prefix) : Prop :=
  ∀ p ∈ prefixes, ∀ q ∈ prefixes, p.contains address = true → q.contains address = true →
    PublicV4 (p.embedded address) → PublicV4 (q.embedded address)

lemma Agree.authorize_iff (h : Agree address prefixes) :
    authorizeDestinationUnder (.v6 address) prefixes = .ok () ↔ Judged address prefixes := by
  cases hfind : prefixes.find? (·.contains address) with
  | none =>
    rw [authorizeDestinationUnder_of_none hfind]
    have hnone : ∀ p ∈ prefixes, p.contains address = false := by
      intro p hp
      simpa using List.find?_eq_none.mp hfind p hp
    constructor
    · intro hnative
      refine ⟨fun p hp hcontains => ?_, fun _ => hnative⟩
      rw [hnone p hp] at hcontains
      cases hcontains
    · exact fun hjudged => hjudged.native hnone
  | some first =>
    rw [authorizeDestinationUnder_of_first hfind]
    have hmem := mem_of_find?_eq_some hfind
    have hcontains := List.find?_some hfind
    constructor
    · intro hpublic
      refine ⟨fun p hp hp' => h first hmem p hp hcontains hp' hpublic, fun hnone => ?_⟩
      rw [hnone first hmem] at hcontains
      cases hcontains
    · exact fun hjudged => hjudged.translations first hmem hcontains

lemma Agree.perm (h : Agree address prefixes) (hperm : ordered.Perm prefixes) :
    Agree address ordered :=
  fun p hp q hq => h p (hperm.mem_iff.mp hp) q (hperm.mem_iff.mp hq)

lemma Judged.perm (h : Judged address prefixes) (hperm : ordered.Perm prefixes) :
    Judged address ordered where
  translations p hp := h.translations p (hperm.mem_iff.mp hp)
  native hnone := h.native fun p hp => hnone p (hperm.mem_iff.mpr hp)

/-- In every order of the prefixes the address is accepted only when every translation
of it is public and the verdict is the same, exactly when the prefixes that contain it
agree. -/
theorem authorizeDestinationUnder_safe_iff (address : Ipv6Addr) (prefixes : List Nat64Prefix) :
    (∀ ordered : List Nat64Prefix, ordered.Perm prefixes →
      (authorizeDestinationUnder (.v6 address) ordered = .ok () → Judged address ordered) ∧
      (authorizeDestinationUnder (.v6 address) ordered = .ok () ↔
        authorizeDestinationUnder (.v6 address) prefixes = .ok ())) ↔ Agree address prefixes := by
  constructor
  · intro h p hp q hq hpAddress hqAddress hpublic
    -- with `p` in front the address is accepted, so `q` has to translate it to a public one
    have hperm : (p :: prefixes.erase p).Perm prefixes := (perm_cons_erase hp).symm
    have hfirst : (p :: prefixes.erase p).find? (·.contains address) = some p :=
      List.find?_cons_of_pos hpAddress
    have hok := (authorizeDestinationUnder_of_first hfirst).mpr hpublic
    exact ((h _ hperm).1 hok).translations q (hperm.mem_iff.mpr hq) hqAddress
  · intro hagree ordered hperm
    have hordered := (hagree.perm hperm).authorize_iff
    refine ⟨hordered.mp, hordered.trans ?_⟩
    rw [hagree.authorize_iff]
    exact ⟨fun h => h.perm hperm.symm, fun h => h.perm hperm⟩

/-- Two answers that reveal one prefix inside another: the address is `8.8.8.8` under
the outer one and `10.0.0.1` under the inner one, and the outer one comes first. -/
theorem authorizeDestinationUnder_smuggles :
    let outer := v6 0x2a00 1 0xc000 0xaa 0 0 0 0
    let inner := v6 0x2a00 1 0x808 0x808 0 0 0xc000 0xaa
    let address := v6 0x2a00 1 0x808 0x808 0 0 0xa00 1
    authorizeDestinationUnder (.v6 address) (discoveredPrefixes [outer, inner]) = .ok () ∧
      (∃ p ∈ discoveredPrefixes [outer, inner], p.contains address = true ∧
        p.embedded address = Ipv4Addr.new 10 0 0 1 ∧ ¬ PublicV4 (p.embedded address)) ∧
      authorizeDestinationUnder (.v6 address) (discoveredPrefixes [inner, outer]) ≠ .ok () := by
  simp only [← isPublicV4_iff]
  decide +kernel

/-! ## Addresses under a prefix -/

lemma Ipv4Addr.new_octets (v4 : Ipv4Addr) :
    Ipv4Addr.new (v4.octet 0) (v4.octet 1) (v4.octet 2) (v4.octet 3) = v4 := by
  apply BitVec.eq_of_getLsbD_eq
  intro i hi
  simp only [Ipv4Addr.new, Ipv4Addr.octet, BitVec.getLsbD_append, BitVec.getLsbD_extractLsb']
  grind

section

variable {i j : Nat} (a : Ipv6Addr) (o : BitVec 8)

lemma getLsbD_setOctet (hi : i < 16) (k : Nat) : (a.setOctet i o).getLsbD k =
    if 120 - 8 * i ≤ k ∧ k < 128 - 8 * i then o.getLsbD (k - (120 - 8 * i)) else a.getLsbD k := by
  simp only [Ipv6Addr.setOctet, BitVec.getLsbD_or, BitVec.getLsbD_and, BitVec.getLsbD_not,
    BitVec.getLsbD_shiftLeft, BitVec.getLsbD_setWidth, BitVec.getLsbD_allOnes]
  split
  · have hlow : ¬ k < 120 - 8 * i := by omega
    have hin : k - (120 - 8 * i) < 8 := by omega
    have hk : k < 128 ∧ k - (120 - 8 * i) < 128 := by omega
    simp [hk, hlow, hin]
  by_cases hlow : k < 120 - 8 * i
  · have hk : k < 128 := by omega
    simp [hlow, hk]
  · have hin : ¬ k - (120 - 8 * i) < 8 := by omega
    have ho := BitVec.getLsbD_of_ge o _ (Nat.le_of_not_lt hin)
    by_cases hk : k < 128
    · simp [hlow, hin, ho, hk]
    · simp [hk, hlow, ho, BitVec.getLsbD_of_ge a k (Nat.le_of_not_lt hk)]

lemma octet_setOctet (hi : i < 16) (hj : j < 16) :
    (a.setOctet i o).octet j = if i = j then o else a.octet j := by
  apply BitVec.eq_of_getLsbD_eq
  intro k hk
  rw [Ipv6Addr.octet, BitVec.getLsbD_extractLsb', getLsbD_setOctet a o hi]
  split
  · obtain rfl : i = j := by omega
    simp [hk]
  · rw [if_neg (by omega), Ipv6Addr.octet, BitVec.getLsbD_extractLsb']

lemma masked_setOctet {length : Nat} (hi : i < 16) (hlength : length ≤ 8 * i) :
    masked (a.setOctet i o) length = masked a length := by
  apply BitVec.eq_of_getLsbD_eq
  intro k hk
  rw [getLsbD_masked, getLsbD_masked, getLsbD_setOctet a o hi]
  split
  · have hlow : ¬ 128 - length ≤ k := by omega
    simp [hlow]
  · rfl

end

namespace Nat64Prefix

variable (p : Nat64Prefix) (v4 : Ipv4Addr)

/-- Four rising places past the prefix, none of them the reserved octet. -/
lemma ipv4Octets_eq : ∃ a b c d, p.ipv4Octets = [a, b, c, d] ∧ p.length ≤ 8 * a ∧
    a < b ∧ b < c ∧ c < d ∧ d < 16 ∧ a ≠ uOctet ∧ b ≠ uOctet ∧ c ≠ uOctet ∧ d ≠ uOctet := by
  have hplaces : ∀ n ∈ lengths,
      let places := ((List.range' (n / 8) (16 - n / 8)).filter (· != uOctet)).take 4
      let place (k : Nat) := places.getD k 0
      places = [place 0, place 1, place 2, place 3] ∧ n ≤ 8 * place 0 ∧
        place 0 < place 1 ∧ place 1 < place 2 ∧ place 2 < place 3 ∧ place 3 < 16 ∧
        place 0 ≠ uOctet ∧ place 1 ≠ uOctet ∧ place 2 ≠ uOctet ∧ place 3 ≠ uOctet := by
    decide
  exact ⟨_, _, _, _, hplaces p.length p.known⟩

lemma masked_synthesize : masked (p.synthesize v4) p.length = p.base := by
  obtain ⟨a, b, c, d, hplaces, hlength, hab, hbc, hcd, hd, -⟩ := p.ipv4Octets_eq
  rw [synthesize, hplaces]
  simp only [zip_cons_cons, zip_nil_left, foldl_cons, foldl_nil]
  iterate 4 rw [masked_setOctet _ _ (by omega) (by omega)]
  exact p.cleared

lemma embedded_synthesize : p.embedded (p.synthesize v4) = v4 := by
  obtain ⟨a, b, c, d, hplaces, -, hab, hbc, hcd, hd, -⟩ := p.ipv4Octets_eq
  simp only [embedded, synthesize, hplaces, zip_cons_cons, zip_nil_left, foldl_cons,
    foldl_nil, getD_cons_zero, getD_cons_succ]
  simp (disch := omega) only [octet_setOctet, if_neg, if_true]
  exact Ipv4Addr.new_octets v4

/-- Below length 96 the reserved octet is past the prefix, whose host bits are clear. -/
lemma uOctet_synthesize (h : p.length ≠ 96) : (p.synthesize v4).octet uOctet = 0 := by
  obtain ⟨a, b, c, d, hplaces, -, hab, hbc, hcd, hd, ha, hb, hc, hd'⟩ := p.ipv4Octets_eq
  have hu : uOctet = 8 := rfl
  simp only [synthesize, hplaces, zip_cons_cons, zip_nil_left, foldl_cons, foldl_nil]
  simp (disch := omega) only [octet_setOctet, if_neg]
  have hlength : p.length ≤ 64 := by
    have hknown : ∀ n ∈ lengths, n ≠ 96 → n ≤ 64 := by decide
    exact hknown _ p.known h
  apply BitVec.eq_of_getLsbD_eq
  intro k hk
  rw [Ipv6Addr.octet, BitVec.getLsbD_extractLsb', ← p.cleared, getLsbD_masked]
  have hlow : ¬ 128 - p.length ≤ 120 - 8 * uOctet + k := by omega
  simp [hlow]

lemma new_synthesize : new (p.synthesize v4) p.length = some p := by
  simp only [new, p.known, masked_synthesize, dite_true]

end Nat64Prefix

lemma mem_tryCandidates {answer : Ipv6Addr} {p : Nat64Prefix} (candidates : List Nat64Prefix)
    (found : List Nat64Prefix) : p ∈ candidates.foldl (tryCandidate answer) found ↔
      p ∈ found ∨ p ∈ candidates ∧ isMatch answer p = true := by
  induction candidates generalizing found with
  | nil => simp
  | cons candidate candidates ih =>
    rw [foldl_cons, ih, tryCandidate]
    grind

lemma mem_discoveredPrefixes {answers : List Ipv6Addr} {p : Nat64Prefix} :
    p ∈ discoveredPrefixes answers ↔ ∃ answer ∈ answers,
      p ∈ lengths.filterMap (new answer) ∧ isMatch answer p = true := by
  suffices ∀ found, p ∈ answers.foldl (fun found answer =>
      (lengths.filterMap (new answer)).foldl (tryCandidate answer) found) found ↔
      p ∈ found ∨ ∃ answer ∈ answers,
        p ∈ lengths.filterMap (new answer) ∧ isMatch answer p = true by
    simpa [discoveredPrefixes] using this []
  induction answers with
  | nil => simp
  | cons answer answers ih =>
    intro found
    rw [foldl_cons, ih, mem_tryCandidates]
    simp only [mem_cons, exists_eq_or_imp, or_assoc]

/-- **Addresses under a prefix round trip.**  A prefix contains what it makes of an IPv4
address and gives that address back; an answer made of a well-known address reveals the
prefix, and only an answer that embeds one does. -/
theorem nat64_round_trip (p : Nat64Prefix) (v4 : Ipv4Addr) (answers : List Ipv6Addr) :
    (p.contains (p.synthesize v4) = true ∧ p.embedded (p.synthesize v4) = v4) ∧
    (v4 ∈ wellKnownIpv4 → p.synthesize v4 ∈ answers → p ∈ discoveredPrefixes answers) ∧
    ∀ q ∈ discoveredPrefixes answers, ∃ answer ∈ answers,
      q.contains answer = true ∧ q.embedded answer ∈ wellKnownIpv4 := by
  refine ⟨⟨beq_iff_eq.mpr (p.masked_synthesize v4), p.embedded_synthesize v4⟩,
    fun hknown hmem => ?_, fun q hq => ?_⟩
  · refine mem_discoveredPrefixes.mpr ⟨_, hmem,
      mem_filterMap.mpr ⟨_, p.known, p.new_synthesize v4⟩, ?_⟩
    simp only [isMatch, p.embedded_synthesize, contains_iff_mem.mpr hknown, Bool.true_and,
      Bool.or_eq_true, beq_iff_eq]
    exact or_iff_not_imp_left.mpr (p.uOctet_synthesize v4)
  · obtain ⟨answer, hmem, hcandidate, hmatch⟩ := mem_discoveredPrefixes.mp hq
    obtain ⟨length, -, hnew⟩ := mem_filterMap.mp hcandidate
    refine ⟨answer, hmem, ?_, contains_iff_mem.mp (Bool.and_eq_true_iff.mp hmatch).1⟩
    unfold new at hnew
    split at hnew
    · cases hnew
      exact beq_self_eq_true _
    · cases hnew

end Quecto.ToolPolicy
