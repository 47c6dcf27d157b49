import TestBench.Proofs.Net.AddressText

/-! Different texts are quoted differently, and a quoted text stands on one line. -/
namespace TestBench.Text

theorem toDigits_sixteen_inj {m n : Nat} (h : Nat.toDigits 16 m = Nat.toDigits 16 n) : m = n := by
  obtain ⟨ds, hds, hm⟩ := Net.V6.mapM_hexValue?_toDigits m
  obtain ⟨es, hes, hn⟩ := Net.V6.mapM_hexValue?_toDigits n
  rw [h, hes, Option.some_inj] at hds
  rw [← hm, ← hn, hds]

theorem notMem_toDigits_sixteen {c : Char} (hc : Net.V6.isHexDigit c = false) (n : Nat) :
    c ∉ Nat.toDigits 16 n := fun h => by
  rw [Net.V6.isHexDigit_of_mem_toDigits h] at hc
  cases hc

/-- What a short escape stands for, by the character after the backslash. -/
def unescape (k : Char) : Char :=
  match k with
  | '0' => '\x00'
  | 't' => '\t'
  | 'r' => '\r'
  | 'n' => '\n'
  | k => k

/-- A character is shown as it is, behind a backslash or by its code. -/
theorem escapeChar_cases (c : Char) :
    (escapeChar c = [c] ∧ c ≠ '\\' ∧ c ≠ '\n') ∨
    (∃ k, escapeChar c = ['\\', k] ∧ k ≠ 'u' ∧ k ≠ '\n' ∧ unescape k = c) ∨
    escapeChar c = codeEscape c := by
  unfold escapeChar
  split
  · exact .inr (.inl ⟨'0', rfl, by decide, by decide, rfl⟩)
  · exact .inr (.inl ⟨'t', rfl, by decide, by decide, rfl⟩)
  · exact .inr (.inl ⟨'r', rfl, by decide, by decide, rfl⟩)
  · exact .inr (.inl ⟨'n', rfl, by decide, by decide, rfl⟩)
  · exact .inr (.inl ⟨'\\', rfl, by decide, by decide, rfl⟩)
  · exact .inr (.inl ⟨'"', rfl, by decide, by decide, rfl⟩)
  next hnewline hslash _ =>
    split
    · exact .inl ⟨rfl, hslash, hnewline⟩
    · exact .inr (.inr rfl)

theorem codeEscape_append_inj {c d : Char} {xs ys : List Char}
    (h : codeEscape c ++ xs = codeEscape d ++ ys) : c = d ∧ xs = ys := by
  have hdigits : Nat.toDigits 16 c.toNat ++ '}' :: xs = Nat.toDigits 16 d.toNat ++ '}' :: ys := by
    simpa [codeEscape] using h
  obtain ⟨hcode, hrest⟩ := append_cons_inj (notMem_toDigits_sixteen (by decide) _)
    (notMem_toDigits_sixteen (by decide) _) hdigits
  exact ⟨Char.toNat_inj.mp (toDigits_sixteen_inj hcode), hrest⟩

/-- No escape is the beginning of another one. -/
theorem escapeChar_append_inj {c d : Char} {xs ys : List Char}
    (h : escapeChar c ++ xs = escapeChar d ++ ys) : c = d ∧ xs = ys := by
  obtain ⟨hc, hcne, -⟩ | ⟨k, hc, hk, -, rfl⟩ | hc := escapeChar_cases c <;>
    obtain ⟨hd, hdne, -⟩ | ⟨l, hd, hl, -, rfl⟩ | hd := escapeChar_cases d <;>
    rw [hc, hd] at h
  case inr.inr.inr.inr => exact codeEscape_append_inj h
  all_goals grind [codeEscape]

theorem flatMap_escapeChar_inj {as bs : List Char}
    (h : as.flatMap escapeChar = bs.flatMap escapeChar) : as = bs := by
  have hne (c : Char) (rest : List Char) : escapeChar c ++ rest ≠ [] := by
    obtain ⟨hc, -⟩ | ⟨k, hc, -⟩ | hc := escapeChar_cases c <;> simp [hc, codeEscape]
  induction as generalizing bs with
  | nil =>
    cases bs with
    | nil => rfl
    | cons b bs => exact absurd h.symm (hne b _)
  | cons a as ih =>
    cases bs with
    | nil => exact absurd h (hne a _)
    | cons b bs =>
      obtain ⟨rfl, hrest⟩ := escapeChar_append_inj h
      rw [ih hrest]

theorem toList_quote_eq (s : String) :
    (quote s).toList = '"' :: s.toList.flatMap escapeChar ++ ['"'] := by
  rw [quote, String.toList_ofList]

/-- Different texts are quoted differently. -/
theorem quote_injective : Function.Injective quote := by
  intro s t h
  have hlist := congrArg String.toList h
  rw [toList_quote_eq, toList_quote_eq, List.cons_append, List.cons_append, List.cons.injEq,
    List.append_left_inj] at hlist
  exact String.toList_inj.mp (flatMap_escapeChar_inj hlist.2)

theorem newline_notMem_escapeChar (c : Char) : '\n' ∉ escapeChar c := by
  obtain ⟨hc, -, hne⟩ | ⟨k, hc, -, hne, -⟩ | hc := escapeChar_cases c
  · simpa [hc] using hne.symm
  · simpa [hc] using hne.symm
  · simpa [hc, codeEscape] using notMem_toDigits_sixteen (by decide) c.toNat

theorem newline_notMem_quote (s : String) : '\n' ∉ (quote s).toList := by
  simp [toList_quote_eq, newline_notMem_escapeChar]

end TestBench.Text
