import TestBench.Proofs.Net.AddressText
import TestBench.Proofs.Net.Lookup

/-! The texts of a prefix. Both the mapped one and the one that is shown are read as the prefix they
were made from, so neither is shared by two prefixes. -/
namespace TestBench.Net
open Text Literal

theorem toNat_mask (a : V6) (n : Nat) :
    (mask a n).toNat = a.toNat / 2 ^ (128 - n) * 2 ^ (128 - n) := by
  have ha : a.toNat < 2 ^ 128 := a.isLt
  have hle := Nat.div_mul_le_self a.toNat (2 ^ (128 - n))
  rw [mask, BitVec.toNat_shiftLeft, BitVec.toNat_ushiftRight, Nat.shiftLeft_eq,
    Nat.shiftRight_eq_div_pow, Nat.mod_eq_of_lt (by omega)]

theorem mask_mask (a : V6) (n : Nat) : mask (mask a n) n = mask a n := by
  have hpos : 0 < 2 ^ (128 - n) := Nat.two_pow_pos _
  apply BitVec.eq_of_toNat_eq
  rw [toNat_mask, toNat_mask, Nat.mul_div_cancel _ hpos]

namespace Prefix

variable {p q : Prefix}

/-- Whether no bit past the length is set and the length is one that addresses have. -/
structure Proper (p : Prefix) : Prop where
  masked : mask p.address p.length = p.address
  length_le : p.length ≤ 128

theorem make_wide {a : V6} {n : Nat} (h : n ≤ 128) : make (.v6 a) n = .ok ⟨mask a n, n⟩ := by
  have hlong : ¬128 < n := by omega
  simp [make, hlong, Address.wide]

theorem Proper.make_self (h : p.Proper) : make (.v6 p.address) p.length = .ok p := by
  rw [make_wide h.length_le, h.masked]

theorem proper_make {a : Address} {n : Nat} (h : make a n = .ok p) : p.Proper := by
  have hmasked (b : V6) (k : Nat) (hk : ¬128 < k) : Proper ⟨mask b k, k⟩ :=
    ⟨mask_mask b k, Nat.le_of_not_lt hk⟩
  cases a with
  | v4 b =>
    by_cases hlong : 128 < min 255 (n + 96)
    · simp [make, hlong] at h
    · simp only [make, hlong, if_false, Except.ok.injEq] at h
      exact h ▸ hmasked _ _ hlong
  | v6 b =>
    by_cases hlong : 128 < n
    · simp [make, hlong] at h
    · simp only [make, hlong, if_false, Except.ok.injEq] at h
      exact h ▸ hmasked _ _ hlong

theorem proper_any : any.Proper := ⟨by decide, by decide⟩

theorem proper_parse {s : String} (h : parse s = .ok p) : p.Proper := by
  unfold parse at h
  dsimp only at h
  split at h
  · cases h
  · split at h
    · cases h
    · split at h
      next hmake =>
        cases h
        exact proper_make hmake
      next => cases h

/-- What the texts of prefixes consist of. -/
def isTextChar (c : Char) : Bool := V6.isTextChar c || c == '/'

theorem isTextChar_of_isDigit {c : Char} (h : c.isDigit = true) : isTextChar c = true := by
  simp [isTextChar, V6.isTextChar, V6.isHexDigit, h]

theorem toNat_of_isTextChar {c : Char} (h : isTextChar c = true) :
    0x2E ≤ c.toNat ∧ c.toNat ≤ 0x3A ∨ 0x61 ≤ c.toNat ∧ c.toNat ≤ 0x66 := by
  simp only [isTextChar, V6.isTextChar, V6.isHexDigit, Bool.or_eq_true, Bool.and_eq_true,
    beq_iff_eq, decide_eq_true_eq] at h
  rcases h with ((hdigit | hletter) | rfl | rfl) | rfl
  · have hrange : 0x30 ≤ c.toNat ∧ c.toNat ≤ 0x39 := Char.isDigit_iff_toNat.mp hdigit
    omega
  · have hrange : 0x61 ≤ c.toNat ∧ c.toNat ≤ 0x66 := hletter
    omega
  all_goals decide

theorem text_address_char {a : Address} {c : Char} (h : c ∈ a.text.toList) :
    V6.isTextChar c = true := by
  cases a with
  | v4 a =>
    rcases a.char_text h with h | rfl
    · simp [V6.isTextChar, V6.isHexDigit, h]
    · rfl
  | v6 a => exact V6.isTextChar_of_mem_text h

/-- An address, a slash and a length. -/
def slashed (a : Address) (n : Nat) : String := a.text ++ "/" ++ toString n

theorem toList_slashed (a : Address) (n : Nat) :
    (slashed a n).toList = a.text.toList ++ '/' :: (toString n).toList := by
  simp [slashed]

theorem isTextChar_of_mem_slashed {a : Address} {n : Nat} {c : Char}
    (h : c ∈ (slashed a n).toList) : isTextChar c = true := by
  simp only [toList_slashed, List.mem_append, List.mem_cons] at h
  obtain h | rfl | h := h
  · simp [isTextChar, text_address_char h]
  · rfl
  · exact isTextChar_of_isDigit (isDigit_of_mem_toString h)

theorem isBlank_of_isTextChar {c : Char} (h : isTextChar c = true) : isBlank c = false := by
  have hc := toNat_of_isTextChar h
  exact isBlank_of_shown (by omega)

theorem splitOnce_slashed (a : Address) (n : Nat) :
    splitOnce '/' (slashed a n) = some (a.text, toString n) := by
  refine splitOnce_of_notMem (toList_slashed a n) fun hmem => ?_
  have hchar := text_address_char hmem
  contradiction

theorem exists_slashed (p : Prefix) : ∃ a n, p.text = slashed a n := by
  rw [text]
  split
  next b _ =>
    split
    · exact ⟨.v4 b, _, rfl⟩
    · exact ⟨.v6 p.address, _, rfl⟩
  next => exact ⟨.v6 p.address, _, rfl⟩

theorem isTextChar_of_mem_text {c : Char} (h : c ∈ p.text.toList) : isTextChar c = true := by
  obtain ⟨a, n, hslashed⟩ := p.exists_slashed
  exact isTextChar_of_mem_slashed (hslashed ▸ h)

theorem parse_slashed {a : Address} {n : Nat} (hn : n < 256) (h : make a n = .ok p) :
    parse (slashed a n) = .ok p := by
  have htrim : trim (slashed a n) = slashed a n :=
    trimWhere_eq_self fun c hc => isBlank_of_isTextChar (isTextChar_of_mem_slashed hc)
  unfold parse
  simp only [htrim, splitOnce_slashed, a.parse?_text, unsigned?_toString hn, h]

theorem parse_mappedText (h : p.Proper) : parse p.mappedText = .ok p := by
  have hlength := h.length_le
  exact parse_slashed (a := .v6 p.address) (by omega) h.make_self

theorem parse_text (h : p.Proper) : parse p.text = .ok p := by
  have hlength := h.length_le
  rw [text]
  split
  next b hb =>
    split
    next hlong =>
      have hmake : make (.v4 b) (p.length - 96) = .ok p := by
        rw [make_mapped_iff, Nat.sub_add_cancel hlong, ← V6.unmapped?_eq_some_iff.mp hb]
        exact h.make_self
      exact parse_slashed (a := .v4 b) (by omega) hmake
    next => exact parse_mappedText h
  next => exact parse_mappedText h

theorem mappedText_injective (hp : p.Proper) (hq : q.Proper) (h : p.mappedText = q.mappedText) :
    p = q := by
  have hsame := parse_mappedText hp
  rw [h, parse_mappedText hq] at hsame
  exact (Except.ok.inj hsame).symm

theorem text_injective (hp : p.Proper) (hq : q.Proper) (h : p.text = q.text) : p = q := by
  have hsame := parse_text hp
  rw [h, parse_text hq] at hsame
  exact (Except.ok.inj hsame).symm

end Prefix
end TestBench.Net
