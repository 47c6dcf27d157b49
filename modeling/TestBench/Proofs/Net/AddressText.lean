import Mathlib.Data.List.TakeWhile
import Mathlib.Tactic
import TestBench.Net.AddressText
import TestBench.Proofs.Text.Pieces

/-! The text of an address is read as that address, and texts of the two families differ. -/
namespace TestBench.Net
open Text Literal

namespace V4

variable (a : V4)

theorem octets_lt : ∀ n ∈ a.octets, n < 256 := by
  have ha : a.toNat < 2 ^ 32 := a.isLt
  simp only [octets, List.forall_mem_cons, List.not_mem_nil, false_imp_iff, implies_true, and_true]
  omega

theorem octet?_toDigits : ∀ n < 256, octet? (Nat.toDigits 10 n) = some n := by
  decide +kernel

theorem ofOctets?_octets : ofOctets? a.octets = some a := by
  have ha : a.toNat < 2 ^ 32 := a.isLt
  rw [octets, ofOctets?, Option.some_inj]
  apply BitVec.eq_of_toNat_eq
  rw [BitVec.toNat_ofNat]
  omega

theorem toList_text : a.text.toList = ['.'].intercalate (a.octets.map (Nat.toDigits 10)) := by
  rw [text, String.toList_intercalate, List.map_map]
  congr 1
  exact List.map_congr_left fun n _ => toList_toString n

theorem char_text {c : Char} (h : c ∈ a.text.toList) : c.isDigit = true ∨ c = '.' := by
  rw [toList_text] at h
  obtain hdot | ⟨p, hp, hc⟩ := mem_intercalate_singleton h
  · exact .inr hdot
  · obtain ⟨n, -, rfl⟩ := List.mem_map.mp hp
    exact .inl (Nat.isDigit_of_mem_toDigits (by decide) (by decide) hc)

theorem colon_notMem_text : ':' ∉ a.text.toList := fun h =>
  absurd (a.char_text h) (by decide)

theorem dot_mem_text : '.' ∈ a.text.toList := by
  rw [toList_text]
  simp [octets]

theorem parseList_text : parseList a.text.toList = some a := by
  have hsplit : splitChars '.' a.text.toList = a.octets.map (Nat.toDigits 10) := by
    rw [toList_text, splitChars_intercalate (by simp [octets])]
    intro p hp hdot
    obtain ⟨n, -, rfl⟩ := List.mem_map.mp hp
    have hdigit := Nat.isDigit_of_mem_toDigits (by decide) (by decide) hdot
    contradiction
  have hoctets : (a.octets.map (Nat.toDigits 10)).mapM octet? = some a.octets := by
    rw [List.mapM_map]
    refine (mapM_eq_pure_map (g := id) fun n hn => ?_).trans (congrArg some (List.map_id _))
    exact octet?_toDigits n (a.octets_lt n hn)
  rw [parseList, hsplit, hoctets, Option.bind_some, ofOctets?_octets]

theorem octet?_eq_none {c : Char} {cs : List Char} (h : c ∈ cs) (hdigit : c.isDigit = false) :
    octet? cs = none := by
  have hall : ¬allDigits cs = true := by
    rw [allDigits, Bool.and_eq_true, List.all_eq_true]
    exact fun hall => Bool.eq_false_iff.mp hdigit (hall.2 c h)
  rw [octet?]
  split
  · rw [digits?, if_neg hall, Option.filter_none]
  · rfl

theorem parseList_eq_none {c : Char} {cs : List Char} (h : c ∈ cs) (hdigit : c.isDigit = false)
    (hdot : c ≠ '.') : parseList cs = none := by
  obtain ⟨p, hp, hc⟩ := exists_mem_splitChars h hdot
  rw [parseList, mapM_eq_none hp (octet?_eq_none hc hdigit), Option.bind_none]

end V4

namespace V6

/-- What the digits of a group are. -/
def isHexDigit (c : Char) : Bool := c.isDigit || ('a' ≤ c && c ≤ 'f')

theorem hexValue?_digitChar : ∀ d < 16, hexValue? (Nat.digitChar d) = some d := by
  decide +kernel

theorem isHexDigit_digitChar : ∀ d < 16, isHexDigit (Nat.digitChar d) = true := by
  decide +kernel

theorem isHexDigit_of_mem_toDigits {n : Nat} {c : Char} (h : c ∈ Nat.toDigits 16 n) :
    isHexDigit c = true := by
  induction n using Nat.strong_induction_on with
  | _ n ih =>
    rw [Nat.toDigits_eq_if (by decide)] at h
    split at h
    next hn =>
      obtain rfl := List.mem_singleton.mp h
      exact isHexDigit_digitChar n hn
    next hn =>
      rcases List.mem_append.mp h with h | h
      · exact ih (n / 16) (by omega) h
      · obtain rfl := List.mem_singleton.mp h
        exact isHexDigit_digitChar _ (Nat.mod_lt _ (by decide))

theorem mapM_hexValue?_toDigits (n : Nat) :
    ∃ ds, (Nat.toDigits 16 n).mapM hexValue? = some ds ∧
      ds.foldl (fun n d => n * 16 + d) 0 = n := by
  induction n using Nat.strong_induction_on with
  | _ n ih =>
    rw [Nat.toDigits_eq_if (by decide)]
    split
    next hn => exact ⟨[n], by simp [hexValue?_digitChar n hn], by simp⟩
    next hn =>
      obtain ⟨ds, hds, hfold⟩ := ih (n / 16) (by omega)
      have hlast := hexValue?_digitChar (n % 16) (Nat.mod_lt _ (by decide))
      refine ⟨ds ++ [n % 16], by simp [List.mapM_append, hds, hlast], ?_⟩
      rw [List.foldl_append, hfold, List.foldl_cons, List.foldl_nil]
      omega

theorem group?_toDigits {g : Nat} (h : g < 65536) : group? (Nat.toDigits 16 g) = some g := by
  obtain ⟨ds, hds, hfold⟩ := mapM_hexValue?_toDigits g
  have hlow : 1 ≤ (Nat.toDigits 16 g).length := List.length_pos_of_ne_nil Nat.toDigits_ne_nil
  have hhigh : (Nat.toDigits 16 g).length ≤ 4 :=
    (Nat.length_toDigits_le_iff (by decide) (by decide)).mpr h
  rw [group?, if_pos ⟨hlow, hhigh⟩, hds, Option.map_some, hfold]

theorem toList_hexText (gs : List Nat) :
    (hexText gs).toList = [':'].intercalate (gs.map (Nat.toDigits 16)) := by
  rw [hexText, String.toList_intercalate, List.map_map]
  congr 1
  exact List.map_congr_left fun g _ => String.toList_ofList

theorem colon_notMem_toDigits (g : Nat) : ':' ∉ Nat.toDigits 16 g := fun h => by
  have hdigit := isHexDigit_of_mem_toDigits h
  contradiction

theorem exists_cons_hexText (g : Nat) (rest : List Nat) :
    ∃ c cs, (hexText (g :: rest)).toList = c :: cs ∧ c ≠ ':' := by
  obtain ⟨c, cs, hdigits⟩ := List.exists_cons_of_ne_nil (Nat.toDigits_ne_nil (n := g) (b := 16))
  have hc : c ≠ ':' := by
    rintro rfl
    exact colon_notMem_toDigits g (hdigits ▸ List.mem_cons_self)
  rw [toList_hexText, List.map_cons, hdigits]
  cases rest with
  | nil => exact ⟨c, cs, by simp, hc⟩
  | cons k rest => exact ⟨c, _, by rw [List.map_cons, List.intercalate_cons_cons]; rfl, hc⟩

theorem splitChars_hexText {gs : List Nat} (h : gs ≠ []) :
    splitChars ':' (hexText gs).toList = gs.map (Nat.toDigits 16) := by
  rw [toList_hexText, splitChars_intercalate (by simpa using h)]
  intro p hp
  obtain ⟨g, -, rfl⟩ := List.mem_map.mp hp
  exact colon_notMem_toDigits g

theorem pieces?_toDigits (dotted : Bool) {gs : List Nat} (h : ∀ g ∈ gs, g < 65536) :
    pieces? dotted (gs.map (Nat.toDigits 16)) = some gs := by
  induction gs with
  | nil => rfl
  | cons g rest ih =>
    rw [List.forall_mem_cons] at h
    cases rest with
    | nil => simp [pieces?, group?_toDigits h.1]
    | cons k rest =>
      rw [List.map_cons] at ih
      simp [pieces?, group?_toDigits h.1, ih h.2]

theorem side?_hexText (dotted : Bool) {gs : List Nat} (h : ∀ g ∈ gs, g < 65536) :
    side? dotted (hexText gs).toList = some gs := by
  cases gs with
  | nil => rfl
  | cons g rest =>
    obtain ⟨c, cs, hcons, -⟩ := exists_cons_hexText g rest
    have hne : (hexText (g :: rest)).toList.isEmpty = false := by rw [hcons, List.isEmpty_cons]
    rw [side?, hne, splitChars_hexText (List.cons_ne_nil _ _), pieces?_toDigits dotted h]
    rfl

theorem splitGap_append_of_notMem {p : List Char} (h : ':' ∉ p) (tail : List Char) :
    splitGap (p ++ tail) = (splitGap tail).map fun r => (p ++ r.1, r.2) := by
  induction p with
  | nil => simp
  | cons c p ih =>
    rw [List.mem_cons, not_or] at h
    rw [List.cons_append, splitGap, ih h.2, Option.map_map]
    · rfl
    · rintro rest rfl
      exact absurd rfl h.1

theorem splitGap_colon_cons {c : Char} (h : c ≠ ':') (rest : List Char) :
    splitGap (':' :: c :: rest) = (splitGap (c :: rest)).map fun r => (':' :: r.1, r.2) := by
  rw [splitGap]
  rintro _ - heq
  exact h (List.cons.inj heq).1

/-- Groups and the single colons between them make no gap. -/
theorem splitGap_hexText_append (gs : List Nat) (tail : List Char) :
    splitGap ((hexText gs).toList ++ tail) =
      (splitGap tail).map fun r => ((hexText gs).toList ++ r.1, r.2) := by
  induction gs with
  | nil => simp [toList_hexText]
  | cons g rest ih =>
    cases rest with
    | nil => simpa [toList_hexText] using splitGap_append_of_notMem (colon_notMem_toDigits g) tail
    | cons k rest =>
      obtain ⟨c, cs, hcons, hc⟩ := exists_cons_hexText k rest
      have hfirst : (hexText (g :: k :: rest)).toList =
          Nat.toDigits 16 g ++ ':' :: (hexText (k :: rest)).toList := by
        rw [toList_hexText, toList_hexText, List.map_cons, List.map_cons,
          List.intercalate_cons_cons, List.append_assoc, List.singleton_append]
      rw [hfirst, List.append_assoc, splitGap_append_of_notMem (colon_notMem_toDigits g),
        List.cons_append, hcons, List.cons_append, splitGap_colon_cons hc, ← List.cons_append,
        ← hcons, ih, Option.map_map, Option.map_map]
      cases splitGap tail <;> simp

theorem splitGap_hexText (gs : List Nat) : splitGap (hexText gs).toList = none := by
  have hnone := splitGap_hexText_append gs []
  rwa [List.append_nil] at hnone

theorem longestRun_cons (i g : Nat) (rest : List Nat) :
    longestRun i (g :: rest) =
      if (longestRun (i + 1) rest).2 ≤ ((g :: rest).takeWhile (· == 0)).length then
        (i, ((g :: rest).takeWhile (· == 0)).length)
      else longestRun (i + 1) rest := rfl

/-- The run stands within the groups and all of it is zero. -/
theorem longestRun_spec (i : Nat) (gs : List Nat) :
    ∃ k, (longestRun i gs).1 = i + k ∧
      gs = gs.take k ++ List.replicate (longestRun i gs).2 0 ++
        gs.drop (k + (longestRun i gs).2) := by
  induction gs generalizing i with
  | nil => exact ⟨0, rfl, rfl⟩
  | cons g rest ih =>
    rw [longestRun_cons]
    set here := (g :: rest).takeWhile (· == 0)
    have hwhole : here ++ (g :: rest).dropWhile (· == 0) = g :: rest :=
      List.takeWhile_append_dropWhile
    split
    next =>
      have hzero : here = List.replicate here.length 0 := by
        rw [List.eq_replicate_iff]
        exact ⟨rfl, fun b hb => by simpa using List.mem_takeWhile_imp hb⟩
      have hdrop : (g :: rest).drop here.length = (g :: rest).dropWhile (· == 0) := by
        conv_lhs => rw [← hwhole, List.drop_left]
      refine ⟨0, rfl, ?_⟩
      rw [List.take_zero, List.nil_append, Nat.zero_add, ← hzero, hdrop, hwhole]
    next =>
      obtain ⟨k, hk, hsplit⟩ := ih (i + 1)
      refine ⟨k + 1, by rw [hk]; omega, ?_⟩
      rw [List.take_succ_cons, Nat.add_right_comm, List.drop_succ_cons, List.cons_append,
        List.cons_append, ← hsplit]

theorem length_groups (a : V6) : a.groups.length = 8 := by simp [groups]

theorem groups_lt (a : V6) : ∀ g ∈ a.groups, g < 65536 := by
  intro g hg
  obtain ⟨i, -, rfl⟩ := List.mem_map.mp hg
  exact Nat.mod_lt _ (by decide)

theorem ofGroups_groups (a : V6) : ofGroups a.groups = a := by
  have ha : a.toNat < 2 ^ 128 := a.isLt
  apply BitVec.eq_of_toNat_eq
  rw [ofGroups, BitVec.toNat_ofNat]
  simp only [groups, List.range, List.range.loop, List.map_cons, List.map_nil, List.foldl_cons,
    List.foldl_nil]
  omega

/-- Groups around a gap are filled up with zeros. -/
theorem parseList_gap {head tail : List Nat} (hhead : ∀ g ∈ head, g < 65536)
    (htail : ∀ g ∈ tail, g < 65536) (hlength : head.length + tail.length ≤ 7) :
    parseList ((hexText head).toList ++ ':' :: ':' :: (hexText tail).toList) =
      some (ofGroups (head ++ List.replicate (8 - head.length - tail.length) 0 ++ tail)) := by
  rw [parseList, splitGap_hexText_append, splitGap, Option.map_some, List.append_nil]
  dsimp only
  rw [side?_hexText false hhead, side?_hexText true htail]
  simp [hlength]

/-- All groups are written, or those around a run of zeros. -/
theorem groupText_cases (a : V6) :
    (∃ head n tail, 1 < n ∧ a.groups = head ++ List.replicate n 0 ++ tail ∧
      a.groupText.toList = (hexText head).toList ++ ':' :: ':' :: (hexText tail).toList) ∨
    a.groupText = hexText a.groups := by
  set n := (longestRun 0 a.groups).2 with hn
  by_cases hrun : 1 < n
  · obtain ⟨k, hk, hsplit⟩ := longestRun_spec 0 a.groups
    rw [Nat.zero_add] at hk
    refine .inl ⟨a.groups.take k, n, a.groups.drop (k + n), hrun, hsplit, ?_⟩
    rw [groupText]
    simp [← hn, hrun, hk]
  · right
    rw [groupText]
    simp [← hn, hrun]

theorem groups_ne_nil (a : V6) : a.groups ≠ [] := by
  rw [← List.length_pos_iff, length_groups]
  decide

theorem parseList_groupText (a : V6) : parseList a.groupText.toList = some a := by
  have hlt := a.groups_lt
  obtain ⟨head, n, tail, hn, hgroups, htext⟩ | hplain := a.groupText_cases
  · have hlength := a.length_groups
    rw [hgroups] at hlength hlt
    simp only [List.length_append, List.length_replicate] at hlength
    have hfill : 8 - head.length - tail.length = n := by omega
    rw [htext, parseList_gap (fun g hg => hlt g (by simp [hg])) (fun g hg => hlt g (by simp [hg]))
      (by omega), hfill, ← hgroups, ofGroups_groups]
  · rw [hplain, parseList, splitGap_hexText, splitChars_hexText a.groups_ne_nil,
      pieces?_toDigits true hlt]
    simp [length_groups, ofGroups_groups]

theorem group?_eq_none {c : Char} {cs : List Char} (h : c ∈ cs) (hhex : hexValue? c = none) :
    group? cs = none := by
  rw [group?, mapM_eq_none h hhex, Option.map_none, ite_self]

theorem unmapped?_eq_some_iff {a : V6} {b : V4} : a.unmapped? = some b ↔ a = b.mapped := by
  have ha : a.toNat < 2 ^ 128 := a.isLt
  have hb : b.toNat < 2 ^ 32 := b.isLt
  rw [unmapped?, mappedMark, V4.mapped, mappedMark]
  constructor
  · intro h
    split at h
    next hmark =>
      cases h
      apply BitVec.eq_of_toNat_eq
      rw [BitVec.toNat_ofNat, BitVec.toNat_ofNat]
      omega
    next => cases h
  · rintro rfl
    rw [BitVec.toNat_ofNat] at ha ⊢
    rw [if_pos (by omega), Option.some_inj]
    apply BitVec.eq_of_toNat_eq
    rw [BitVec.toNat_ofNat]
    omega

theorem parseList_mapped (b : V4) : parseList ("::ffff:" ++ b.text).toList = some b.mapped := by
  have hlist : ("::ffff:" ++ b.text).toList =
      ':' :: ':' :: (['f', 'f', 'f', 'f'] ++ ':' :: b.text.toList) := by
    rw [String.toList_append]
    rfl
  have hsplit : splitChars ':' (['f', 'f', 'f', 'f'] ++ ':' :: b.text.toList) =
      [['f', 'f', 'f', 'f'], b.text.toList] := by
    rw [splitChars_append_cons (by decide), splitChars_of_notMem b.colon_notMem_text]
  have hmark : group? ['f', 'f', 'f', 'f'] = some 65535 := by decide
  have hpieces : pieces? true [['f', 'f', 'f', 'f'], b.text.toList] =
      some [65535, b.toNat / 65536, b.toNat % 65536] := by
    simp [pieces?, hmark, group?_eq_none b.dot_mem_text (by decide), V4.parseList_text]
  have hside : side? true (['f', 'f', 'f', 'f'] ++ ':' :: b.text.toList) =
      some [65535, b.toNat / 65536, b.toNat % 65536] := by
    rw [side?, hsplit, hpieces]
    rfl
  have hvalue : ofGroups ([] ++ List.replicate 5 0 ++ [65535, b.toNat / 65536, b.toNat % 65536]) =
      b.mapped := by
    have hb : b.toNat < 2 ^ 32 := b.isLt
    apply BitVec.eq_of_toNat_eq
    simp [ofGroups, List.replicate, V4.mapped, mappedMark]
    omega
  rw [hlist, parseList, splitGap]
  dsimp only
  rw [hside, ← hvalue]
  rfl

theorem char_hexText {gs : List Nat} {c : Char} (h : c ∈ (hexText gs).toList) :
    isHexDigit c = true ∨ c = ':' := by
  rw [toList_hexText] at h
  obtain hcolon | ⟨p, hp, hc⟩ := mem_intercalate_singleton h
  · exact .inr hcolon
  · obtain ⟨g, -, rfl⟩ := List.mem_map.mp hp
    exact .inl (isHexDigit_of_mem_toDigits hc)

theorem char_groupText {a : V6} {c : Char} (h : c ∈ a.groupText.toList) :
    isHexDigit c = true ∨ c = ':' := by
  obtain ⟨head, n, tail, -, -, htext⟩ | hplain := a.groupText_cases
  · simp only [htext, List.mem_append, List.mem_cons] at h
    obtain h | rfl | rfl | h := h
    · exact char_hexText h
    · exact .inr rfl
    · exact .inr rfl
    · exact char_hexText h
  · exact char_hexText (hplain ▸ h)

/-- What the text of an address consists of. -/
def isTextChar (c : Char) : Bool := isHexDigit c || (c == ':' || c == '.')

theorem isTextChar_of_mem_text {a : V6} {c : Char} (h : c ∈ a.text.toList) :
    isTextChar c = true := by
  rw [text] at h
  split at h
  next b _ =>
    rw [String.toList_append, List.mem_append] at h
    rcases h with h | h
    · have hmark : "::ffff:".toList.all isTextChar = true := by rfl
      exact List.all_eq_true.mp hmark c h
    · rcases b.char_text h with h | rfl
      · simp [isTextChar, isHexDigit, h]
      · rfl
  next =>
    rcases char_groupText h with h | rfl
    · simp [isTextChar, h]
    · rfl

theorem colon_mem_text (a : V6) : ':' ∈ a.text.toList := by
  rw [text]
  split
  · rw [String.toList_append, List.mem_append]
    exact .inl (by decide)
  · obtain ⟨head, n, tail, -, -, htext⟩ | hplain := a.groupText_cases
    · simp [htext]
    · obtain ⟨g, k, rest, hgroups⟩ : ∃ g k rest, a.groups = g :: k :: rest := ⟨_, _, _, rfl⟩
      simp [hplain, toList_hexText, hgroups]

theorem parseList_text (a : V6) : parseList a.text.toList = some a := by
  rw [text]
  split
  next b hb => rw [parseList_mapped, unmapped?_eq_some_iff.mp hb]
  next => exact parseList_groupText a

end V6

theorem Address.parse?_text (a : Address) : Address.parse? a.text = some a := by
  cases a with
  | v4 a =>
    have ha : V4.parse? a.text = some a := a.parseList_text
    rw [text, parse?, ha]
  | v6 a =>
    have hnone : V4.parse? a.text = none := V4.parseList_eq_none a.colon_mem_text rfl (by decide)
    have ha : V6.parse? a.text = some a := a.parseList_text
    rw [text, parse?, hnone, ha, Option.map_some]

end TestBench.Net
