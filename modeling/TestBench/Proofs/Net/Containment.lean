import TestBench.Proofs.Net.PrefixForms

/-! Which addresses a prefix contains: those that begin with its bits. So of two prefixes one lies
within the other or they have no address in common, and prefixes with the same addresses are one. -/
namespace TestBench.Net

/-- Whether two words begin with the same `n` bits. -/
def SameLeading {w : ℕ} (n : ℕ) (a b : BitVec w) : Prop :=
  ∀ i < n, a.getMsbD i = b.getMsbD i

namespace SameLeading

variable {w n m : ℕ} {a b c : BitVec w}

theorem symm (h : SameLeading n a b) : SameLeading n b a := fun i hi => (h i hi).symm

theorem trans (hab : SameLeading n a b) (hbc : SameLeading n b c) : SameLeading n a c :=
  fun i hi => (hab i hi).trans (hbc i hi)

theorem mono (hmn : m ≤ n) (h : SameLeading n a b) : SameLeading m a b :=
  fun i hi => h i (hi.trans_le hmn)

end SameLeading

section Masks

variable {a b : V6} {n i : ℕ}

/-- The mask is a word that begins with `n` ones. -/
theorem mask_eq_and (a : V6) (n : ℕ) : mask a n = a &&& (BitVec.allOnes 128 <<< (128 - n)) := by
  apply BitVec.eq_of_getLsbD_eq
  intro i hi
  rw [mask, BitVec.getLsbD_and, BitVec.getLsbD_shiftLeft, BitVec.getLsbD_shiftLeft,
    BitVec.getLsbD_ushiftRight, BitVec.getLsbD_allOnes]
  by_cases hlow : i < 128 - n
  · simp [hlow]
  · have hback : 128 - n + (i - (128 - n)) = i := by omega
    have hin : i - (128 - n) < 128 := by omega
    simp [hlow, hi, hback, hin]

theorem getMsbD_mask_of_lt (hn : n ≤ 128) (hi : i < n) : (mask a n).getMsbD i = a.getMsbD i := by
  have hin : i + (128 - n) < 128 := by omega
  rw [mask_eq_and, BitVec.getMsbD_and, BitVec.getMsbD_shiftLeft, BitVec.getMsbD_allOnes]
  simp [hin]

theorem mask_eq_mask_iff (hn : n ≤ 128) : mask a n = mask b n ↔ SameLeading n a b := by
  constructor
  · intro h i hi
    rw [← getMsbD_mask_of_lt hn hi, h, getMsbD_mask_of_lt hn hi]
  · intro h
    apply BitVec.eq_of_getMsbD_eq
    intro i hi
    rcases Nat.lt_or_ge i n with hlt | hge
    · rw [getMsbD_mask_of_lt hn hlt, getMsbD_mask_of_lt hn hlt, h i hlt]
    · rw [getMsbD_mask hn hge, getMsbD_mask hn hge]

end Masks

namespace V4

variable {a : V4} {w : V6} {m : ℕ}

theorem mapped_eq_append (a : V4) : a.mapped = BitVec.ofNat 96 mappedMark ++ a := by
  have ha : a.toNat < 2 ^ 32 := a.isLt
  apply BitVec.eq_of_toNat_eq
  rw [BitVec.toNat_append, ← Nat.shiftLeft_add_eq_or_of_lt ha, Nat.shiftLeft_eq, mapped,
    BitVec.toNat_ofNat, BitVec.toNat_ofNat, mappedMark]
  omega

theorem getMsbD_mapped (a : V4) (i : ℕ) : a.mapped.getMsbD i =
    if 96 ≤ i then a.getMsbD (i - 96) else (BitVec.ofNat 96 mappedMark).getMsbD i := by
  rw [mapped_eq_append, BitVec.getMsbD_append]

/-- What begins like a mapped address, the mark included, is the mapped address of its last bits. -/
theorem sameLeading_mapped_iff :
    SameLeading (m + 96) w a.mapped ↔ ∃ c : V4, w = c.mapped ∧ SameLeading m c a := by
  constructor
  · intro h
    have hlast (i : ℕ) : (w.setWidth 32).getMsbD i = w.getMsbD (i + 96) := by
      have hindex : i + 128 - 32 = i + 96 := by omega
      rw [BitVec.getMsbD_setWidth, hindex]
      simp
    refine ⟨w.setWidth 32, BitVec.eq_of_getMsbD_eq fun i _ => ?_, fun i hi => ?_⟩
    · rw [getMsbD_mapped]
      split
      next hmark => rw [hlast, Nat.sub_add_cancel hmark]
      next hmark => rw [h i (by omega), getMsbD_mapped, if_neg hmark]
    · rw [hlast, h (i + 96) (by omega), getMsbD_mapped, if_pos (by omega), Nat.add_sub_cancel]
  · rintro ⟨c, rfl, h⟩ i hi
    rw [getMsbD_mapped, getMsbD_mapped]
    split
    next => exact h (i - 96) (by omega)
    next => rfl

theorem mapped_inj {c : V4} : a.mapped = c.mapped ↔ a = c := by
  constructor
  · intro h
    have hread := V6.unmapped?_eq_some_iff.mpr h
    rw [V6.unmapped?_eq_some_iff.mpr rfl] at hread
    exact Option.some.inj hread
  · exact congrArg _

end V4

theorem Address.wide_eq_mapped_iff {x : Address} {c : V4} :
    x.wide = c.mapped ↔ x = .v4 c ∨ x = .v6 c.mapped := by
  cases x with
  | v4 d => simpa [wide] using V4.mapped_inj
  | v6 d => simp [wide]

namespace Prefix

variable {a b x y : Address} {n m : ℕ} {p q : Prefix}

theorem Proper.contains_iff (h : p.Proper) :
    p.contains x = true ↔ SameLeading p.length x.wide p.address := by
  rw [contains, beq_iff_eq, ← mask_eq_mask_iff h.length_le, h.masked]

theorem Proper.contains_address (h : p.Proper) : p.contains (.v6 p.address) = true :=
  h.contains_iff.mpr fun _ _ => rfl

/-- What a prefix made from an address and a length contains. -/
structure Covers (a : Address) (n : ℕ) (p : Prefix) : Prop where
  length : p.length = n + (128 - a.bits)
  /-- addresses that begin with as many bits of the address it was made from -/
  wide : ∀ x, p.contains x = true ↔ SameLeading p.length x.wide a.wide
  /-- made from an IPv4 address, only IPv4 addresses, in either form -/
  narrow : ∀ b, a = .v4 b → ∀ x, p.contains x = true ↔
    ∃ c : V4, (x = .v4 c ∨ x = .v6 c.mapped) ∧ SameLeading n c b

theorem covers_of_make (h : make a n = .ok p) : Covers a n p := by
  have hlength := (proper_make h).length_le
  obtain ⟨-, rfl⟩ := make_eq_ok_iff.mp h
  have hwide (x : Address) : (a.leading n).contains x = true ↔
      SameLeading (a.leading n).length x.wide a.wide := by
    rw [contains, beq_iff_eq]
    exact mask_eq_mask_iff hlength
  refine ⟨rfl, hwide, ?_⟩
  rintro b rfl x
  have hmapped : SameLeading (n + 96) x.wide b.mapped ↔ _ := V4.sameLeading_mapped_iff
  simp only [Address.wide_eq_mapped_iff] at hmapped
  exact (hwide x).trans hmapped

/-- Of two prefixes that share an address, the longer one lies within the other. -/
theorem contains_of_contains (hp : p.Proper) (hq : q.Proper) (hle : p.length ≤ q.length)
    (hpx : p.contains x = true) (hqx : q.contains x = true) (hqy : q.contains y = true) :
    p.contains y = true := by
  rw [hp.contains_iff] at hpx ⊢
  rw [hq.contains_iff] at hqx hqy
  exact ((hqy.trans hqx.symm).mono hle).trans hpx

/-- The address with one bit turned. -/
def flipped (a : V6) (i : ℕ) : V6 := a ^^^ BitVec.twoPow 128 (127 - i)

theorem getMsbD_flipped (a : V6) {i : ℕ} (hi : i < 128) (j : ℕ) :
    (flipped a i).getMsbD j = (a.getMsbD j ^^ decide (j = i)) := by
  have hbit : 127 - i < 128 := by omega
  have hindex : 128 - (127 - i) - 1 = i := by omega
  rw [flipped, BitVec.getMsbD_xor, BitVec.getMsbD_twoPow, decide_eq_true hbit, Bool.true_and,
    hindex]

/-- A longer prefix misses an address that a shorter one has: turn the first bit past the shorter
length. -/
theorem exists_not_contains (hp : p.Proper) (hq : q.Proper) (hlt : p.length < q.length)
    (hpq : p.contains (.v6 q.address) = true) :
    ∃ x, p.contains x = true ∧ q.contains x = false := by
  have hbit : p.length < 128 := hlt.trans_le hq.length_le
  refine ⟨.v6 (flipped q.address p.length), ?_, ?_⟩
  · rw [hp.contains_iff] at hpq ⊢
    refine SameLeading.trans (fun i hi => ?_) hpq
    have hne : i ≠ p.length := by omega
    rw [Address.wide, getMsbD_flipped _ hbit, decide_eq_false hne, Bool.xor_false, Address.wide]
  · rw [Bool.eq_false_iff, Ne, hq.contains_iff]
    intro h
    have hsame := h p.length hlt
    rw [Address.wide, getMsbD_flipped _ hbit] at hsame
    simp at hsame

/-- How two prefixes lie to each other. -/
structure Nested (p q : Prefix) : Prop where
  within_or_apart : p.length ≤ q.length →
    (∀ x, q.contains x = true → p.contains x = true) ∨
      ∀ x, ¬(p.contains x = true ∧ q.contains x = true)
  same_addresses : (∀ x, p.contains x = q.contains x) ↔ p = q

theorem eq_of_same_addresses (hp : p.Proper) (hq : q.Proper)
    (h : ∀ x, p.contains x = q.contains x) : p = q := by
  rcases lt_trichotomy p.length q.length with hlt | heq | hgt
  · obtain ⟨x, hpx, hqx⟩ := exists_not_contains hp hq hlt (h _ ▸ hq.contains_address)
    rw [h, hqx] at hpx
    cases hpx
  · exact eq_of_contains hp.contains_address (h _ ▸ hp.contains_address) heq
  · obtain ⟨x, hqx, hpx⟩ := exists_not_contains hq hp hgt (h _ ▸ hp.contains_address)
    rw [← h, hpx] at hqx
    cases hqx

theorem nested_of_proper (hp : p.Proper) (hq : q.Proper) : Nested p q where
  within_or_apart hle := by
    by_cases hshare : ∃ x, p.contains x = true ∧ q.contains x = true
    · obtain ⟨x, hpx, hqx⟩ := hshare
      exact .inl fun y hqy => contains_of_contains hp hq hle hpx hqx hqy
    · exact .inr (not_exists.mp hshare)
  same_addresses := ⟨eq_of_same_addresses hp hq, fun h _ => h ▸ rfl⟩

theorem exists_make_iff : (∃ p, make a n = .ok p) ↔ n ≤ a.bits := by
  simp only [make_eq_ok_iff, exists_and_left, exists_eq, and_true]

/-- An address and a length make a prefix when the address has as many bits. The prefix contains the
addresses that begin with its bits, and two prefixes lie one within the other or apart; only a
prefix itself has the same addresses. -/
theorem prefixes_nest (hp : make a n = .ok p) (hq : make b m = .ok q) :
    (∀ c k, (∃ r, make c k = .ok r) ↔ k ≤ c.bits) ∧ Covers a n p ∧ Covers b m q ∧ Nested p q :=
  ⟨fun _ _ => exists_make_iff, covers_of_make hp, covers_of_make hq,
    nested_of_proper (proper_make hp) (proper_make hq)⟩

/-- `10.0.0.0/8`, made from an address with more bits, and the mapped form of `10.1.0.0/16`. -/
theorem prefixes_nest_office :
    let wide : Prefix := ⟨BitVec.ofNat 128 0xFFFF0A000000, 104⟩
    let narrow : Prefix := ⟨BitVec.ofNat 128 0xFFFF0A010000, 112⟩
    let a : Address := .v4 (BitVec.ofNat 32 0x0A020304)
    let b : Address := .v6 (BitVec.ofNat 128 0xFFFF0A010203)
    (make a 8 = .ok wide ∧ make b 112 = .ok narrow) ∧
      Covers a 8 wide ∧ Covers b 112 narrow ∧ Nested wide narrow := by
  intro wide narrow a b
  have hwide : make a 8 = .ok wide := by decide
  have hnarrow : make b 112 = .ok narrow := by decide
  exact ⟨⟨hwide, hnarrow⟩, (prefixes_nest hwide hnarrow).2⟩

end Prefix
end TestBench.Net
