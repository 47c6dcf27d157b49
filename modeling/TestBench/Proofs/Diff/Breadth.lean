import Mathlib.Algebra.Ring.Nat
import TestBench.Diff.Capture
import TestBench.Proofs.Sorting

/-! How much of a tree is left when fields are dropped in it. The length of its text on one line
tells, and keys of maps are nothing but such texts: it is as long as before just when nothing was
dropped. -/
namespace TestBench.Diff

/-- `a` is `b`, all of it being kept, or it is smaller. -/
structure Remains {α : Type} (size : α → Nat) (kept : Prop) (a b : α) : Prop where
  le : size a ≤ size b
  kept_of_size : size a = size b → kept
  eq_of_kept : kept → a = b

namespace Remains

variable {α β : Type} {size : α → Nat} {size' : β → Nat} {kept kept' : Prop} {a b : α} {a' b' : β}

theorem of_kept (h : kept) (a : α) : Remains size kept a a :=
  ⟨Nat.le_refl _, fun _ => h, fun _ => rfl⟩

theorem eq_iff (h : Remains size kept a b) : a = b ↔ kept :=
  ⟨fun heq => h.kept_of_size (by rw [heq]), h.eq_of_kept⟩

theorem congr (h : Remains size kept a b) (hiff : kept ↔ kept') : Remains size kept' a b :=
  ⟨h.le, fun hsize => hiff.mp (h.kept_of_size hsize), fun hkept => h.eq_of_kept (hiff.mpr hkept)⟩

/-- What is made of the two grows with them. -/
theorem map (h : Remains size kept a b) (f : α → β) (hle : size' (f a) ≤ size' (f b))
    (hsize : size' (f a) = size' (f b) → size a = size b) : Remains size' kept (f a) (f b) :=
  ⟨hle, fun heq => h.kept_of_size (hsize heq), fun hkept => by rw [h.eq_of_kept hkept]⟩

theorem trans {c : α} (h : Remains size kept a b) (h' : Remains size kept' b c) :
    Remains size (kept ∧ kept') a c := by
  have hle := h.le
  have hle' := h'.le
  refine ⟨Nat.le_trans hle hle', fun hsize => ?_, fun hkept => ?_⟩
  · exact ⟨h.kept_of_size (by omega), h'.kept_of_size (by omega)⟩
  · rw [h.eq_of_kept hkept.1, h'.eq_of_kept hkept.2]

theorem prod (h : Remains size kept a b) (h' : Remains size' kept' a' b') :
    Remains (fun p => size p.1 + size' p.2) (kept ∧ kept') (a, a') (b, b') := by
  have hle := h.le
  have hle' := h'.le
  refine ⟨Nat.add_le_add hle hle', fun hsize => ?_, fun hkept => ?_⟩
  · have hsize : size a + size' a' = size b + size' b' := hsize
    exact ⟨h.kept_of_size (by omega), h'.kept_of_size (by omega)⟩
  · rw [h.eq_of_kept hkept.1, h'.eq_of_kept hkept.2]

end Remains

open Node

/-- The length of a tree on one line. -/
def Node.breadth (n : Node) : Nat := n.inline.length

/-- The length of items on one line, each with what stands between two of them. -/
def itemsBreadth (items : List Node) : Nat := (items.map fun n => n.breadth + 2).sum

def entryBreadth (e : String × Node) : Nat := e.1.length + e.2.breadth + 4

def entriesBreadth (entries : List (String × Node)) : Nat := (entries.map entryBreadth).sum

theorem itemsBreadth_cons (n : Node) (rest : List Node) :
    itemsBreadth (n :: rest) = n.breadth + 2 + itemsBreadth rest := rfl

theorem entriesBreadth_cons (e : String × Node) (rest : List (String × Node)) :
    entriesBreadth (e :: rest) = entryBreadth e + entriesBreadth rest := rfl

/-- Every entry takes room. -/
theorem entriesBreadth_eq_zero_or (entries : List (String × Node)) :
    entries = [] ∧ entriesBreadth entries = 0 ∨ 4 ≤ entriesBreadth entries := by
  cases entries with
  | nil => exact .inl ⟨rfl, rfl⟩
  | cons e rest =>
    rw [entriesBreadth_cons, entryBreadth]
    exact .inr (by omega)

theorem length_intercalate (parts : List String) :
    (", ".intercalate parts).length + 2 = max 2 (parts.map (·.length + 2)).sum := by
  induction parts with
  | nil => rfl
  | cons part rest ih =>
    cases rest with
    | nil => simp
    | cons next rest =>
      have hcomma : ", ".length = 2 := rfl
      rw [List.map_cons, List.sum_cons] at ih
      rw [String.intercalate_cons_cons, List.map_cons, List.map_cons, List.sum_cons, List.sum_cons,
        String.length_append, String.length_append]
      omega

theorem length_inlineItems (items : List Node) :
    (", ".intercalate (inlineItems items)).length + 2 = max 2 (itemsBreadth items) := by
  have hmap : inlineItems items = items.map Node.inline := by
    induction items with
    | nil => rfl
    | cons n rest ih => rw [inlineItems, List.map_cons, ih]
  rw [length_intercalate, hmap, List.map_map]
  rfl

theorem length_inlineEntries (entries : List (String × Node)) :
    (", ".intercalate (inlineEntries entries)).length + 2 = max 2 (entriesBreadth entries) := by
  have hmap : (inlineEntries entries).map (·.length + 2) = entries.map entryBreadth := by
    induction entries with
    | nil => rfl
    | cons e rest ih =>
      have hcolon : ": ".length = 2 := rfl
      rw [inlineEntries, List.map_cons, List.map_cons, ih, String.length_append,
        String.length_append, entryBreadth, breadth, hcolon]
      congr 1
      omega
  rw [length_intercalate, hmap, entriesBreadth]

theorem length_braces (s : String) : (braces s).length = s.length + 2 := by
  have hopening : "\x7b".length = 1 := rfl
  have hclosing : "\x7d".length = 1 := rfl
  rw [braces, String.length_append, String.length_append]
  omega

theorem breadth_seq (items : List Node) : (seq items).breadth = max 2 (itemsBreadth items) := by
  have hopening : "[".length = 1 := rfl
  have hclosing : "]".length = 1 := rfl
  rw [← length_inlineItems, breadth, Node.inline, String.length_append, String.length_append]
  omega

theorem breadth_map (entries : List (String × Node)) :
    (Node.map entries).breadth = max 2 (entriesBreadth entries) := by
  rw [← length_inlineEntries, breadth, Node.inline, length_braces]

theorem breadth_record (name : String) (fields : List (String × Node)) :
    (record name fields).breadth = name.length + max 2 (entriesBreadth fields) := by
  rw [← length_inlineEntries, breadth, Node.inline, String.length_append, length_braces]

/-- A record in a case of an enumeration goes by the name of the case. -/
theorem breadth_variant_record (type variant name : String) (fields : List (String × Node)) :
    (Node.variant type variant (record name fields)).breadth =
      variant.length + max 2 (entriesBreadth fields) := by
  rw [← length_inlineEntries, breadth, Node.inline, String.length_append, length_braces]

theorem breadth_variant {content : Node} (type variant : String) (hnull : content ≠ .null)
    (hrecord : ∀ name fields, content ≠ record name fields) :
    (Node.variant type variant content).breadth = variant.length + content.breadth + 2 := by
  have hopening : "(".length = 1 := rfl
  have hclosing : ")".length = 1 := rfl
  rw [breadth, Node.inline, String.length_append, String.length_append, String.length_append,
    breadth]
  · omega
  · exact hnull
  · exact hrecord

/-- What is left of a tree takes as much more room in a case of an enumeration. -/
structure Node.Left (kept : Prop) (a b : Node) : Prop extends Remains breadth kept a b where
  alike : ∀ type name, (variant type name a).breadth + b.breadth =
    (variant type name b).breadth + a.breadth

variable {kept kept' rest : Prop} {a b : Node} {items items' : List Node}
  {entries entries' : List (String × Node)}

namespace Node.Left

theorem of_kept (h : kept) (n : Node) : n.Left kept n := ⟨.of_kept h n, fun _ _ => rfl⟩

theorem congr (h : a.Left kept b) (hiff : kept ↔ kept') : a.Left kept' b :=
  ⟨h.toRemains.congr hiff, h.alike⟩

/-- Neither is nothing nor a record. -/
theorem of_remains (h : Remains breadth kept a b) (ha : a ≠ .null) (hb : b ≠ .null)
    (ha' : ∀ name fields, a ≠ record name fields) (hb' : ∀ name fields, b ≠ record name fields) :
    a.Left kept b := by
  refine ⟨h, fun type name => ?_⟩
  rw [breadth_variant type name ha ha', breadth_variant type name hb hb']
  omega

theorem seq (h : Remains itemsBreadth kept items items') (hlength : items.length = items'.length) :
    (seq items).Left kept (.seq items') := by
  have hle := h.le
  refine of_remains (h.map Node.seq ?_ fun hsize => ?_) ?_ ?_ ?_ ?_
  · rw [breadth_seq, breadth_seq]
    omega
  · rw [breadth_seq, breadth_seq] at hsize
    -- lists of items are as long, so that an empty one is not held against one of an empty text
    cases items with
    | nil => rw [List.length_eq_zero_iff.mp hlength.symm]
    | cons n rest =>
      cases items' with
      | nil => cases hlength
      | cons m rest' =>
        rw [itemsBreadth_cons, itemsBreadth_cons] at hsize ⊢
        omega
  all_goals intros; exact Node.noConfusion

theorem record (name : String) (h : Remains entriesBreadth kept entries entries') :
    (record name entries).Left kept (.record name entries') := by
  have hle := h.le
  refine ⟨h.map (Node.record name) ?_ fun hsize => ?_, fun type variant => ?_⟩
  · rw [breadth_record, breadth_record]
    omega
  · rw [breadth_record, breadth_record] at hsize
    have hzero := entriesBreadth_eq_zero_or entries
    have hzero' := entriesBreadth_eq_zero_or entries'
    omega
  · rw [breadth_record, breadth_record, breadth_variant_record, breadth_variant_record]
    omega

theorem entriesBreadth_sortBy (entries : List (String × Node)) :
    entriesBreadth (sortBy keyLe entries) = entriesBreadth entries :=
  ((sortBy_perm keyLe entries).map entryBreadth).sum_nat

theorem map (h : Remains entriesBreadth kept entries entries') :
    (map (sortBy keyLe entries)).Left kept (.map (sortBy keyLe entries')) := by
  have hle := h.le
  refine of_remains (h.map (fun entries => Node.map (sortBy keyLe entries)) ?_ fun hsize => ?_)
    ?_ ?_ ?_ ?_
  · rw [breadth_map, breadth_map, entriesBreadth_sortBy, entriesBreadth_sortBy]
    omega
  · rw [breadth_map, breadth_map, entriesBreadth_sortBy, entriesBreadth_sortBy] at hsize
    have hzero := entriesBreadth_eq_zero_or entries
    have hzero' := entriesBreadth_eq_zero_or entries'
    omega
  all_goals intros; exact Node.noConfusion

theorem variant (type name : String) (h : a.Left kept b) :
    (variant type name a).Left kept (.variant type name b) := by
  have hle := h.le
  have halike := h.alike type name
  refine of_remains (h.toRemains.map (Node.variant type name) ?_ fun hsize => ?_) ?_ ?_ ?_ ?_
  · omega
  · omega
  all_goals intros; exact Node.noConfusion

end Node.Left

theorem remains_filter (keep : String × Node → Bool) (entries : List (String × Node)) :
    Remains entriesBreadth (∀ e ∈ entries, keep e = true) (entries.filter keep) entries := by
  induction entries with
  | nil => exact .of_kept (List.forall_mem_nil _) []
  | cons e rest ih =>
    have hle := ih.le
    cases he : keep e with
    | true =>
      rw [List.filter_cons_of_pos he]
      refine (ih.map (e :: ·) ?_ fun hsize => ?_).congr ?_
      · rw [entriesBreadth_cons, entriesBreadth_cons]
        omega
      · rw [entriesBreadth_cons, entriesBreadth_cons] at hsize
        omega
      · rw [List.forall_mem_cons, he, eq_self, true_and]
    | false =>
      have hroom : 4 ≤ entryBreadth e := by
        rw [entryBreadth]
        omega
      rw [List.filter_cons_of_neg (by rw [he]; exact Bool.false_ne_true)]
      refine ⟨?_, fun hsize => ?_, fun hkept => ?_⟩
      · rw [entriesBreadth_cons]
        omega
      · rw [entriesBreadth_cons] at hsize
        omega
      · rw [hkept e List.mem_cons_self] at he
        cases he

/-- The fields that are compared, against all of them. -/
theorem left_select (o : Options) (name : String)
    (h : Remains entriesBreadth kept entries entries') :
    (o.select name entries).Left (kept ∧ ∀ e ∈ entries', o.keeps e.1 e.2 = true)
      (.record name entries') := by
  refine .congr (.record name ((remains_filter (fun e => o.keeps e.1 e.2) entries).trans h)) ?_
  constructor
  · rintro ⟨hkeeps, hkept⟩
    exact ⟨hkept, h.eq_of_kept hkept ▸ hkeeps⟩
  · rintro ⟨hkept, hkeeps⟩
    exact ⟨h.eq_of_kept hkept ▸ hkeeps, hkept⟩

theorem remains_cons_items (h : Remains breadth kept a b)
    (hrest : Remains itemsBreadth kept' items items') :
    Remains itemsBreadth (kept ∧ kept') (a :: items) (b :: items') := by
  have hle := (h.prod hrest).le
  refine (h.prod hrest).map (fun p => p.1 :: p.2) ?_ fun hsize => ?_
  · rw [itemsBreadth_cons, itemsBreadth_cons]
    omega
  · rw [itemsBreadth_cons, itemsBreadth_cons] at hsize
    omega

theorem remains_cons_entries {key key' : String} (hkey : Remains String.length kept key key')
    (h : Remains breadth kept' a b) (hrest : Remains entriesBreadth rest entries entries') :
    Remains entriesBreadth ((kept ∧ kept') ∧ rest) ((key, a) :: entries)
      ((key', b) :: entries') := by
  have hle := ((hkey.prod h).prod hrest).le
  refine ((hkey.prod h).prod hrest).map (fun p => p.1 :: p.2) ?_ fun hsize => ?_
  · rw [entriesBreadth_cons, entriesBreadth_cons, entryBreadth, entryBreadth]
    dsimp only at hle ⊢
    omega
  · rw [entriesBreadth_cons, entriesBreadth_cons, entryBreadth, entryBreadth] at hsize
    dsimp only at hsize ⊢
    omega

/-- Positions take as much room for what is left of the items. -/
theorem entriesBreadth_numbered (start : Nat) (hlength : items.length = items'.length) :
    entriesBreadth ((items.zipIdx start).map fun e => (toString e.2, e.1)) + itemsBreadth items' =
      entriesBreadth ((items'.zipIdx start).map fun e => (toString e.2, e.1)) +
        itemsBreadth items := by
  induction items generalizing items' start with
  | nil => rw [List.length_eq_zero_iff.mp hlength.symm]
  | cons n rest ih =>
    cases items' with
    | nil => cases hlength
    | cons m rest' =>
      have hrest := ih (start + 1) (Nat.succ.inj hlength)
      rw [List.zipIdx_cons, List.zipIdx_cons, List.map_cons, List.map_cons, entriesBreadth_cons,
        entriesBreadth_cons, itemsBreadth_cons, itemsBreadth_cons, entryBreadth, entryBreadth]
      dsimp only
      omega

theorem remains_numbered (h : Remains itemsBreadth kept items items')
    (hlength : items.length = items'.length) :
    Remains entriesBreadth kept (Options.numbered items) (Options.numbered items') := by
  have hle := h.le
  have hroom : entriesBreadth (Options.numbered items) + itemsBreadth items' =
      entriesBreadth (Options.numbered items') + itemsBreadth items :=
    entriesBreadth_numbered 0 hlength
  refine h.map Options.numbered ?_ fun hsize => ?_
  · omega
  · omega

end TestBench.Diff
