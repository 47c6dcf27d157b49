import Mathlib.Data.List.Basic
import Mathlib.Data.List.TakeWhile
import Mathlib.Tactic.Common
import TestBench.Number.Literal
import TestBench.Text.Blank
import TestBench.Text.Quoted

/-! Texts taken apart again: what was joined is split where it was joined, quotes are trimmed, and a
number is read from its digits. -/
namespace TestBench

theorem mapM_eq_pure_map {m : Type → Type} [Monad m] [LawfulMonad m] {α β : Type} {f : α → m β}
    {g : α → β} {l : List α} (h : ∀ a ∈ l, f a = pure (g a)) : l.mapM f = pure (l.map g) := by
  induction l with
  | nil => exact List.mapM_nil
  | cons a rest ih =>
    rw [List.forall_mem_cons] at h
    rw [List.mapM_cons, h.1, ih h.2, pure_bind, pure_bind, List.map_cons]

theorem mapM_eq_none {α β : Type} {f : α → Option β} {l : List α} {a : α} (ha : a ∈ l)
    (h : f a = none) : l.mapM f = none := by
  induction l with
  | nil => cases ha
  | cons b rest ih =>
    rw [List.mapM_cons]
    rcases List.mem_cons.mp ha with rfl | ha
    · rw [h]
      rfl
    · rw [ih ha]
      cases f b <;> rfl

namespace Text

variable {c : Char} {cs : List Char}

theorem splitChars_of_notMem (h : c ∉ cs) : splitChars c cs = [cs] := by
  induction cs with
  | nil => rfl
  | cons d rest ih =>
    rw [List.mem_cons, not_or] at h
    rw [splitChars, if_neg (Ne.symm h.1), ih h.2]

theorem splitChars_append_cons (h : c ∉ cs) (rest : List Char) :
    splitChars c (cs ++ c :: rest) = cs :: splitChars c rest := by
  induction cs with
  | nil => rw [List.nil_append, splitChars, if_pos rfl]
  | cons d cs ih =>
    rw [List.mem_cons, not_or] at h
    rw [List.cons_append, splitChars, if_neg (Ne.symm h.1), ih h.2]

theorem splitChars_intercalate {pieces : List (List Char)} (hne : pieces ≠ [])
    (h : ∀ p ∈ pieces, c ∉ p) : splitChars c ([c].intercalate pieces) = pieces := by
  induction pieces with
  | nil => exact absurd rfl hne
  | cons p rest ih =>
    rw [List.forall_mem_cons] at h
    cases rest with
    | nil => simpa using splitChars_of_notMem h.1
    | cons q rest =>
      rw [List.intercalate_cons_cons, List.append_assoc, List.singleton_append,
        splitChars_append_cons h.1, ih (List.cons_ne_nil _ _) h.2]

theorem mem_intercalate_singleton {d : Char} {pieces : List (List Char)}
    (h : d ∈ [c].intercalate pieces) : d = c ∨ ∃ p ∈ pieces, d ∈ p := by
  induction pieces with
  | nil => cases h
  | cons p rest ih =>
    cases rest with
    | nil => exact .inr ⟨p, List.mem_cons_self, by simpa using h⟩
    | cons q rest =>
      rw [List.intercalate_cons_cons, List.append_assoc] at h
      rcases List.mem_append.mp h with h | h
      · exact .inr ⟨p, List.mem_cons_self, h⟩
      · rcases List.mem_cons.mp h with h | h
        · exact .inl h
        · obtain hc | ⟨r, hr, hd⟩ := ih h
          · exact .inl hc
          · exact .inr ⟨r, List.mem_cons_of_mem _ hr, hd⟩

/-- A character that does not separate stands in one of the pieces. -/
theorem exists_mem_splitChars {d : Char} (hd : d ∈ cs) (hne : d ≠ c) :
    ∃ p ∈ splitChars c cs, d ∈ p := by
  induction cs with
  | nil => cases hd
  | cons e rest ih =>
    rw [splitChars]
    split
    next he =>
      obtain ⟨p, hp, hdp⟩ := ih ((List.mem_cons.mp hd).resolve_left (he ▸ hne))
      exact ⟨p, List.mem_cons_of_mem _ hp, hdp⟩
    next =>
      split
      next hsplit =>
        rw [hsplit] at ih
        rcases List.mem_cons.mp hd with rfl | hd
        · exact ⟨_, List.mem_cons_self, List.mem_cons_self⟩
        · obtain ⟨p, hp, -⟩ := ih hd
          cases hp
      next piece pieces hsplit =>
        rw [hsplit] at ih
        rcases List.mem_cons.mp hd with rfl | hd
        · exact ⟨_, List.mem_cons_self, List.mem_cons_self⟩
        · obtain ⟨p, hp, hdp⟩ := ih hd
          rcases List.mem_cons.mp hp with rfl | hp
          · exact ⟨_, List.mem_cons_self, List.mem_cons_of_mem _ hdp⟩
          · exact ⟨p, List.mem_cons_of_mem _ hp, hdp⟩

theorem bne_of_notMem (h : c ∉ cs) : ∀ d ∈ cs, (d != c) = true := fun d hd => by
  rw [bne_iff_ne]
  rintro rfl
  exact h hd

theorem splitOnce_of_notMem {s a b : String} (hs : s.toList = a.toList ++ c :: b.toList)
    (ha : c ∉ a.toList) : splitOnce c s = some (a, b) := by
  have hall := bne_of_notMem ha
  rw [splitOnce, hs, List.dropWhile_append_of_pos hall, List.takeWhile_append_of_pos hall]
  simp

theorem splitOnce_eq_none {s : String} (h : c ∉ s.toList) : splitOnce c s = none := by
  rw [splitOnce, List.dropWhile_eq_nil_iff.mpr (bne_of_notMem h)]

theorem dropWhile_eq_self {p : Char → Bool} (h : ∀ c ∈ cs, p c = false) : cs.dropWhile p = cs := by
  cases cs with
  | nil => rfl
  | cons c rest =>
    rw [List.dropWhile_cons_of_neg]
    simp [h c List.mem_cons_self]

theorem trimWhere_eq_self {p : Char → Bool} {s : String} (h : ∀ c ∈ s.toList, p c = false) :
    trimWhere p s = s := by
  have hback : ∀ c ∈ s.toList.reverse, p c = false := by simpa using h
  rw [trimWhere, trimList, dropWhile_eq_self h, dropWhile_eq_self hback, List.reverse_reverse,
    String.ofList_toList]

/-- Among the characters of ASCII that are shown there is no blank. -/
theorem isBlank_of_shown (h : 0x21 ≤ c.toNat ∧ c.toNat ≤ 0x7E) : isBlank c = false := by
  simp only [isBlank, inRanges, blankRanges, List.any_cons, List.any_nil, Bool.or_false,
    Bool.or_eq_false_iff, Bool.and_eq_false_imp, decide_eq_true_eq, decide_eq_false_iff_not]
  omega

theorem isBlank_of_isDigit (h : c.isDigit = true) : isBlank c = false := by
  have hdigit : 0x30 ≤ c.toNat ∧ c.toNat ≤ 0x39 := Char.isDigit_iff_toNat.mp h
  exact isBlank_of_shown (by omega)

/-- Characters at both ends are trimmed, whatever stands between them stays. -/
theorem trimList_wrapped {p : Char → Bool} (hc : p c = true) (h : ∀ d ∈ cs, p d = false) :
    trimList p (c :: cs ++ [c]) = cs := by
  have hdrop : (c :: cs ++ [c]).dropWhile p = (cs ++ [c]).dropWhile p :=
    List.dropWhile_cons_of_pos hc
  have hback : ∀ d ∈ cs.reverse, p d = false := by simpa using h
  cases cs with
  | nil => simp [trimList, hc]
  | cons d rest =>
    have hd : ¬p d = true := by simp [h d List.mem_cons_self]
    rw [trimList, hdrop, List.cons_append, List.dropWhile_cons_of_neg hd, ← List.cons_append,
      List.reverse_append, List.reverse_singleton, List.singleton_append,
      List.dropWhile_cons_of_pos hc, dropWhile_eq_self hback, List.reverse_reverse]

theorem append_cons_inj {as bs xs ys : List Char} (ha : c ∉ as) (hb : c ∉ bs)
    (h : as ++ c :: xs = bs ++ c :: ys) : as = bs ∧ xs = ys := by
  have hsplit := congrArg (splitOnce c ∘ String.ofList) h
  have hread (ds zs : List Char) (hd : c ∉ ds) :
      splitOnce c (String.ofList (ds ++ c :: zs)) = some (String.ofList ds, String.ofList zs) :=
    splitOnce_of_notMem (by simp) (by simpa using hd)
  rw [Function.comp_apply, Function.comp_apply, hread as xs ha, hread bs ys hb] at hsplit
  simpa [String.ofList_inj] using hsplit

/-- What is joined by a separator that begins with a character is told apart again when that
character stands in no piece and no piece is empty. -/
theorem intercalate_cons_injective {sep : List Char} {as bs : List (List Char)}
    (ha : ∀ p ∈ as, c ∉ p ∧ p ≠ []) (hb : ∀ p ∈ bs, c ∉ p ∧ p ≠ [])
    (h : (c :: sep).intercalate as = (c :: sep).intercalate bs) : as = bs := by
  have hjoined (p q : List Char) (rest : List (List Char)) :
      (c :: sep).intercalate (p :: q :: rest) =
        p ++ c :: (sep ++ (c :: sep).intercalate (q :: rest)) := by
    rw [List.intercalate_cons_cons, List.append_assoc, List.cons_append]
  induction as generalizing bs with
  | nil =>
    rcases bs with _ | ⟨q, _ | ⟨r, more⟩⟩
    · rfl
    · exact absurd (by simpa using h.symm) (hb q List.mem_cons_self).2
    · rw [hjoined] at h
      simp at h
  | cons p rest ih =>
    rw [List.forall_mem_cons] at ha
    rcases rest with _ | ⟨p', rest⟩
    · rcases bs with _ | ⟨q, _ | ⟨r, more⟩⟩
      · exact absurd (by simpa using h) ha.1.2
      · simpa using h
      · rw [hjoined, List.intercalate_singleton] at h
        exact absurd (h ▸ by simp) ha.1.1
    · rw [hjoined] at h
      rcases bs with _ | ⟨q, _ | ⟨r, more⟩⟩
      · simp at h
      · rw [List.intercalate_singleton] at h
        exact absurd (h ▸ by simp) (hb q List.mem_cons_self).1
      · rw [List.forall_mem_cons] at hb
        obtain ⟨rfl, hrest⟩ := append_cons_inj ha.1.1 hb.1.1 h
        rw [ih ha.2 hb.2 (List.append_cancel_left hrest)]

theorem escapeChar_eq_self (hlow : 0x20 ≤ c.toNat) (hhigh : c.toNat < 0x7F) (hquote : c ≠ '"')
    (hslash : c ≠ '\\') : escapeChar c = [c] := by
  have hprintable : isPrintable c = true := by
    rw [isPrintable, if_pos hhigh]
    exact decide_eq_true hlow
  unfold escapeChar
  split
  · contradiction
  · contradiction
  · contradiction
  · contradiction
  · contradiction
  · contradiction
  · rw [if_pos hprintable]

theorem toList_quote {s : String} (h : ∀ c ∈ s.toList, escapeChar c = [c]) :
    (quote s).toList = '"' :: s.toList ++ ['"'] := by
  rw [quote, String.toList_ofList, List.flatMap_congr h, List.flatMap_singleton']

/-- Quotes around a text that needs no escapes are trimmed again. -/
theorem trim_quote {s : String} (h : ∀ c ∈ s.toList, escapeChar c = [c]) :
    trimWhere (· == '"') (quote s) = s := by
  have hplain : ∀ c ∈ s.toList, (c == '"') = false := by
    intro c hc
    rw [beq_eq_false_iff_ne]
    rintro rfl
    have hself := h '"' hc
    contradiction
  rw [trimWhere, toList_quote h, trimList_wrapped rfl hplain, String.ofList_toList]

end Text

namespace Literal

theorem ofDigits_eq (cs : List Char) : ofDigits cs = Nat.ofDigitChars 10 cs 0 := by
  simp only [ofDigits, Nat.ofDigitChars, digitValue, Nat.mul_comm]
  rfl

theorem ofDigits_toDigits (n : Nat) : ofDigits (Nat.toDigits 10 n) = n := by
  rw [ofDigits_eq, Nat.ofDigitChars_ten_toDigits]

theorem digits?_eq_some {cs : List Char} (hne : cs ≠ []) (h : ∀ c ∈ cs, c.isDigit = true) :
    digits? cs = some (ofDigits cs) := by
  have hall : allDigits cs = true := by
    rw [allDigits, Bool.and_eq_true, List.all_eq_true]
    exact ⟨by simpa using hne, h⟩
  rw [digits?, if_pos hall]

theorem digits?_toDigits (n : Nat) : digits? (Nat.toDigits 10 n) = some n := by
  rw [digits?_eq_some Nat.toDigits_ne_nil
    fun c hc => Nat.isDigit_of_mem_toDigits (by decide) (by decide) hc, ofDigits_toDigits]

theorem toList_toString (n : Nat) : (toString n).toList = Nat.toDigits 10 n := by
  rw [Nat.toString_eq_ofList_toDigits, String.toList_ofList]

theorem isDigit_of_mem_toString {n : Nat} {c : Char} (h : c ∈ (toString n).toList) :
    c.isDigit = true :=
  Nat.isDigit_of_mem_toDigits (by decide) (by decide) (toList_toString n ▸ h)

/-- Of a text of digits, only the bound can turn the number down. -/
theorem unsigned?_of_digits (bound : Nat) {s : String} (hne : s.toList ≠ [])
    (h : ∀ c ∈ s.toList, c.isDigit = true) :
    unsigned? bound s = (some (ofDigits s.toList)).filter (· < bound) := by
  unfold unsigned?
  split
  next cs hcs =>
    have hdigit := h '+' (hcs ▸ List.mem_cons_self)
    contradiction
  next =>
    dsimp only
    rw [digits?_eq_some hne h]

theorem unsigned?_toString {n bound : Nat} (h : n < bound) :
    unsigned? bound (toString n) = some n := by
  have hne : (toString n).toList ≠ [] := toList_toString n ▸ Nat.toDigits_ne_nil
  rw [unsigned?_of_digits bound hne fun c hc => isDigit_of_mem_toString hc, toList_toString,
    ofDigits_toDigits]
  simpa using h

end Literal
end TestBench
