import TestBench.Proofs.Net.PrefixText
import TestBench.Proofs.Number.DecimalText

/-! The forms a prefix can be written in: an address of either family alone, or with a length behind
a slash. What is accepted depends on the family and the length only, and both texts of a prefix are
such forms of that prefix. -/
namespace TestBench.Net
open Text Literal

/-- A character that no text of an address holds. -/
structure Foreign (c : Char) : Prop where
  hexValue? : V6.hexValue? c = none
  dot : c ≠ '.'
  colon : c ≠ ':'

theorem Foreign.isDigit {c : Char} (h : Foreign c) : c.isDigit = false := by
  have hhex := h.hexValue?
  rw [V6.hexValue?] at hhex
  split at hhex
  · cases hhex
  next hdigit => exact Bool.eq_false_iff.mpr hdigit

namespace V6

variable {c : Char}

theorem pieces?_eq_none {dotted : Bool} {pieces : List (List Char)} {p : List Char}
    (hc : Foreign c) (hp : p ∈ pieces) (hmem : c ∈ p) : pieces? dotted pieces = none := by
  have hgroup : group? p = none := group?_eq_none hmem hc.hexValue?
  induction pieces with
  | nil => cases hp
  | cons q rest ih =>
    cases rest with
    | nil =>
      obtain rfl := List.mem_singleton.mp hp
      have haddress : V4.parseList p = none := V4.parseList_eq_none hmem hc.isDigit hc.dot
      simp [pieces?, hgroup, haddress]
    | cons r rest =>
      rcases List.mem_cons.mp hp with rfl | hp
      · simp [pieces?, hgroup]
      · simp [pieces?, ih hp]

theorem side?_eq_none {dotted : Bool} {cs : List Char} (hc : Foreign c) (hmem : c ∈ cs) :
    side? dotted cs = none := by
  obtain ⟨p, hp, hcp⟩ := exists_mem_splitChars hmem hc.colon
  have hempty : cs.isEmpty = false := by simpa using List.ne_nil_of_mem hmem
  rw [side?, hempty]
  exact pieces?_eq_none hc hp hcp

theorem eq_of_splitGap {cs before after : List Char} (h : splitGap cs = some (before, after)) :
    cs = before ++ ':' :: ':' :: after := by
  induction cs generalizing before with
  | nil => cases h
  | cons d rest ih =>
    by_cases hgap : ∃ tail, d :: rest = ':' :: ':' :: tail
    · obtain ⟨tail, hcs⟩ := hgap
      rw [hcs, splitGap] at h
      cases h
      exact hcs
    · rw [splitGap] at h
      · obtain ⟨⟨front, back⟩, hfront, heq⟩ := Option.map_eq_some_iff.mp h
        cases heq
        rw [ih hfront, List.cons_append]
      · rintro tail rfl rfl
        exact hgap ⟨tail, rfl⟩

theorem parseList_eq_none {cs : List Char} (hc : Foreign c) (hmem : c ∈ cs) :
    parseList cs = none := by
  rw [parseList]
  split
  next =>
    obtain ⟨p, hp, hcp⟩ := exists_mem_splitChars hmem hc.colon
    rw [pieces?_eq_none hc hp hcp]
    rfl
  next before after hgap =>
    rw [eq_of_splitGap hgap, List.mem_append, List.mem_cons, List.mem_cons] at hmem
    rcases hmem with hmem | hcolon | hcolon | hmem
    · rw [side?_eq_none hc hmem]
      rfl
    · exact absurd hcolon hc.colon
    · exact absurd hcolon hc.colon
    · rw [side?_eq_none hc hmem]
      cases side? false before <;> rfl

end V6

theorem Address.notMem_of_parse? {c : Char} {s : String} {a : Address} (hc : Foreign c)
    (h : Address.parse? s = some a) : c ∉ s.toList := fun hmem => by
  have h4 : V4.parse? s = none := V4.parseList_eq_none hmem hc.isDigit hc.dot
  have h6 : V6.parse? s = none := V6.parseList_eq_none hc hmem
  rw [Address.parse?, h4, h6] at h
  cases h

theorem foreign_slash : Foreign '/' := ⟨by decide, by decide, by decide⟩

/-- What a hexadecimal digit of either case is as a number. -/
theorem toNat_of_hexValue? {c : Char} {d : Nat} (h : V6.hexValue? c = some d) :
    0x30 ≤ c.toNat ∧ c.toNat ≤ 0x39 ∨ 0x61 ≤ c.toNat ∧ c.toNat ≤ 0x66 ∨
      0x41 ≤ c.toNat ∧ c.toNat ≤ 0x46 := by
  rw [V6.hexValue?] at h
  split at h
  next hdigit => exact .inl (Char.isDigit_iff_toNat.mp hdigit)
  next =>
    split at h
    next hlower => exact .inr (.inl hlower)
    next =>
      split at h
      next hupper => exact .inr (.inr hupper)
      next => cases h

theorem foreign_of_isBlank {c : Char} (h : isBlank c = true) : Foreign c := by
  refine ⟨?_, ?_, ?_⟩
  · rcases hhex : V6.hexValue? c with _ | d
    · rfl
    · have hrange := toNat_of_hexValue? hhex
      rw [isBlank_of_shown (by omega)] at h
      cases h
  · rintro rfl
    contradiction
  · rintro rfl
    contradiction

theorem mask_full (a : V6) : mask a 128 = a := by
  simp [mask]

/-- How many bits the addresses of a family have. -/
def Address.bits : Address → Nat
  | .v4 _ => 32
  | .v6 _ => 128

/-- The prefix of an address that has so many of the address's own bits. -/
def Address.leading (a : Address) (n : Nat) : Prefix :=
  ⟨mask a.wide (n + (128 - a.bits)), n + (128 - a.bits)⟩

theorem Address.bits_le (a : Address) : a.bits ≤ 128 := by
  cases a <;> simp [bits]

theorem Address.leading_bits (a : Address) : a.leading a.bits = ⟨a.wide, 128⟩ := by
  rw [leading, Nat.add_sub_cancel' a.bits_le, mask_full]

theorem make_eq_ok_iff {a : Address} {n : Nat} {p : Prefix} :
    Prefix.make a n = .ok p ↔ n ≤ a.bits ∧ p = a.leading n := by
  have hwide (b : V6) (k : Nat) : Prefix.make (.v6 b) k = .ok p ↔ k ≤ 128 ∧ p = ⟨mask b k, k⟩ := by
    by_cases hk : k ≤ 128
    · rw [Prefix.make_wide hk, Except.ok.injEq, eq_comm, and_iff_right hk]
    · simp [Prefix.make, not_le.mp hk, hk]
  cases a with
  | v4 b =>
    rw [Prefix.make_mapped_iff, hwide]
    have hbits : n + 96 ≤ 128 ↔ n ≤ (Address.v4 b).bits :=
      ⟨fun h => by simpa [Address.bits] using h, fun h => Nat.add_le_add_right h 96⟩
    exact and_congr_left' hbits
  | v6 b => exact hwide b n

/-- A length in decimal digits, with any number of zeros in front. -/
def numeral (padding n : Nat) : String := String.ofList (zeros padding) ++ toString n

theorem toList_numeral (padding n : Nat) :
    (numeral padding n).toList = zeros padding ++ Nat.toDigits 10 n := by
  rw [numeral, String.toList_append, String.toList_ofList, toList_toString]

theorem isDigit_of_mem_numeral {padding n : Nat} :
    ∀ c ∈ (numeral padding n).toList, c.isDigit = true := by
  rw [toList_numeral, List.forall_mem_append]
  exact ⟨Decimal.isDigit_zeros padding, isDigit_toDigits⟩

theorem unsigned?_numeral (bound padding n : Nat) :
    unsigned? bound (numeral padding n) = (some n).filter (· < bound) := by
  have hne : (numeral padding n).toList ≠ [] := by
    simp [toList_numeral, Nat.toDigits_ne_nil]
  rw [unsigned?_of_digits bound hne isDigit_of_mem_numeral, toList_numeral,
    Decimal.ofDigits_append, Decimal.ofDigits_zeros, ofDigits_toDigits, zero_mul, zero_add]

theorem isBlank_numeral {padding n : Nat} :
    ∀ c ∈ (numeral padding n).toList, isBlank c = false :=
  fun c hc => isBlank_of_isDigit (isDigit_of_mem_numeral c hc)

section Written

variable {s : String} {a : Address}

theorem isBlank_address (h : Address.parse? s = some a) : ∀ c ∈ s.toList, isBlank c = false := by
  intro c hc
  by_contra hblank
  exact Address.notMem_of_parse? (foreign_of_isBlank (Bool.not_eq_false _ ▸ hblank)) h hc

/-- An address alone is a prefix of that address only. -/
theorem parse_alone (h : Address.parse? s = some a) : Prefix.parse s = .ok ⟨a.wide, 128⟩ := by
  have htrim : trim s = s := trimWhere_eq_self (isBlank_address h)
  have hsplit : splitOnce '/' s = none :=
    splitOnce_eq_none (Address.notMem_of_parse? foreign_slash h)
  have hmake : Prefix.make a a.bits = .ok ⟨a.wide, 128⟩ :=
    make_eq_ok_iff.mpr ⟨le_rfl, a.leading_bits.symm⟩
  unfold Prefix.parse
  cases a with
  | v4 b =>
    have hmake : Prefix.make (.v4 b) 32 = .ok ⟨(Address.v4 b).wide, 128⟩ := hmake
    simp only [htrim, hsplit, h, hmake]
  | v6 b =>
    have hmake : Prefix.make (.v6 b) 128 = .ok ⟨(Address.v6 b).wide, 128⟩ := hmake
    simp only [htrim, hsplit, h, hmake]

/-- Behind an address, a length is taken just when the family has as many bits. -/
theorem parse_slashed_numeral (h : Address.parse? s = some a) (padding n : Nat) (p : Prefix) :
    Prefix.parse (s ++ "/" ++ numeral padding n) = .ok p ↔ n ≤ a.bits ∧ p = a.leading n := by
  have hlist : (s ++ "/" ++ numeral padding n).toList =
      s.toList ++ '/' :: (numeral padding n).toList := by
    simp
  have htrim : trim (s ++ "/" ++ numeral padding n) = s ++ "/" ++ numeral padding n := by
    refine trimWhere_eq_self ?_
    rw [hlist, List.forall_mem_append, List.forall_mem_cons]
    exact ⟨isBlank_address h, by decide, isBlank_numeral⟩
  have hsplit : splitOnce '/' (s ++ "/" ++ numeral padding n) = some (s, numeral padding n) :=
    splitOnce_of_notMem hlist (Address.notMem_of_parse? foreign_slash h)
  unfold Prefix.parse
  simp only [htrim, hsplit, h, unsigned?_numeral]
  rw [← make_eq_ok_iff]
  by_cases hn : n < 256
  · have hread : (some n).filter (· < 256) = some n := by simpa using hn
    rw [hread]
    dsimp only
    cases Prefix.make a n <;> simp
  · have hlong : ¬n ≤ a.bits := by
      have hbits := a.bits_le
      omega
    have hread : (some n).filter (· < 256) = none := by simpa using hn
    rw [hread, make_eq_ok_iff]
    simp [hlong]

end Written

/-- No bit past the length is left. -/
theorem getMsbD_mask {a : V6} {n i : Nat} (hn : n ≤ 128) (hi : n ≤ i) :
    (mask a n).getMsbD i = false := by
  rw [mask, BitVec.getMsbD_shiftLeft]
  exact BitVec.getMsbD_of_ge _ _ (by omega)

/-- What the texts of a prefix tell of it. -/
structure Legible (p : Prefix) : Prop where
  length_le : p.length ≤ 128
  /-- no bit is set past the length -/
  masked : ∀ i, p.length ≤ i → p.address.getMsbD i = false
  text : Prefix.parse p.text = .ok p
  mappedText : Prefix.parse p.mappedText = .ok p

theorem legible {p : Prefix} (h : p.Proper) : Legible p where
  length_le := h.length_le
  masked _ hi := h.masked ▸ getMsbD_mask h.length_le hi
  text := Prefix.parse_text h
  mappedText := Prefix.parse_mappedText h

/-- What is read when a text of an address stands alone or with a length behind it. -/
structure Accepted (s : String) (a : Address) : Prop where
  alone : Prefix.parse s = .ok ⟨a.wide, 128⟩
  /-- a length is taken just when it is one of the family's -/
  slashed : ∀ padding n p,
    Prefix.parse (s ++ "/" ++ numeral padding n) = .ok p ↔ n ≤ a.bits ∧ p = a.leading n

/-- Whether two prefixes are told apart by their texts. -/
structure TextsTell (p q : Prefix) : Prop where
  text : p.text = q.text ↔ p = q
  mappedText : p.mappedText = q.mappedText ↔ p = q
  across : p.text = q.mappedText → p = q

theorem textsTell {p q : Prefix} (hp : p.Proper) (hq : q.Proper) : TextsTell p q where
  text := ⟨Prefix.text_injective hp hq, congrArg _⟩
  mappedText := ⟨Prefix.mappedText_injective hp hq, congrArg _⟩
  across h := by
    have hread := Prefix.parse_text hp
    rw [h, Prefix.parse_mappedText hq] at hread
    exact (Except.ok.inj hread).symm

/-- A prefix that is made from an address and a length is read from both of its texts, so that no
two share one; a text is read by its family, with any length the family has. -/
theorem written_forms :
    (∀ a n p, Prefix.make a n = .ok p → Legible p) ∧
      (∀ s a, Address.parse? s = some a → Accepted s a) ∧
      ∀ a n p b m q, Prefix.make a n = .ok p → Prefix.make b m = .ok q → TextsTell p q :=
  ⟨fun _ _ _ h => legible (Prefix.proper_make h),
    fun _ _ h => ⟨parse_alone h, parse_slashed_numeral h⟩,
    fun _ _ _ _ _ _ hp hq => textsTell (Prefix.proper_make hp) (Prefix.proper_make hq)⟩

/-- The mapped address with the last bit of the mark cut off is no longer shown as IPv4. -/
example :
    (Prefix.make (.v6 0xffff00000000) 96).map Prefix.text = .ok "0.0.0.0/0" ∧
      (Prefix.make (.v6 0xffff00000000) 95).map Prefix.text = .ok "::fffe:0:0/95" := by
  decide +kernel

end TestBench.Net
