import TestBench.Proofs.Diff.Captured
import TestBench.Proofs.Diff.Lines

/-! Trees that look alike. The lines of a tree tell it from every other that is not equivalent, but
for bytes that are no text, the types of enumeration values, cases that hold a record, a record
without a name, and what is shown by a chosen text alone. -/
namespace TestBench.Diff
open Named

namespace Node

/-- What is shown by a chosen text alone, or as the record that it holds. -/
def isFree : Node → Bool
  | .variant _ _ .null => true
  | .variant _ _ (.record ..) => true
  | .formatted .. => true
  | _ => false

mutual

/-- Whether two trees look alike: as for equivalence, but bytes are taken by their text, a record
without a name for a map, and an enumeration value without its type, or without its case too when it
holds a record. What is shown by a chosen text is taken by its lines. That types are not shown and
bytes are shown as text is meant so; a case that holds a record by itself is lost by a slip, as only
the name of the record is written where the name of a case with fields of its own would stand. -/
def looksLike : Node → Node → Bool
  | .bytes a, .bytes b => Text.decodeLossy a == Text.decodeLossy b
  | .seq a, .seq b => itemsLookAlike a b
  | .map a, .map b => a.length == b.length && entriesLookAlike a b
  | .map a, .record m b => m.isEmpty && (a.length == b.length && entriesLookAlike a b)
  | .record n a, .map b => n.isEmpty && (a.length == b.length && entriesLookAlike a b)
  | .record n a, .record m b => n == m && (a.length == b.length && entriesLookAlike a b)
  | .variant t n a, .variant u m b =>
    if a.isRecord = b.isRecord then (a.isRecord || n == m) && looksLike a b
    else (Node.variant t n a).lines == (Node.variant u m b).lines
  | a, b => if a.isFree || b.isFree then a.lines == b.lines else a.equivalent b

def itemsLookAlike : List Node → List Node → Bool
  | [], [] => true
  | a :: as, b :: bs => looksLike a b && itemsLookAlike as bs
  | _, _ => false

def entriesLookAlike : List (String × Node) → List (String × Node) → Bool
  | [], _ => true
  | (key, a) :: rest, bs =>
    (match find? key bs with
      | some b => looksLike a b
      | none => false) && entriesLookAlike rest bs

end

theorem itemsLookAlike_iff {as bs : List Node} :
    itemsLookAlike as bs = true ↔ List.Forall₂ (fun a b => a.looksLike b = true) as bs := by
  induction as generalizing bs with
  | nil => cases bs <;> simp [itemsLookAlike]
  | cons a as ih => cases bs <;> simp [itemsLookAlike, ih]

theorem entriesLookAlike_iff {as bs : List (String × Node)} :
    entriesLookAlike as bs = true ↔
      ∀ a ∈ as, ∃ b, find? a.1 bs = some b ∧ a.2.looksLike b = true := by
  induction as with
  | nil => simp [entriesLookAlike]
  | cons a as ih =>
    rw [entriesLookAlike, Bool.and_eq_true, ih, List.forall_mem_cons]
    refine and_congr ?_ Iff.rfl
    cases find? a.1 bs <;> simp

theorem isRecord_of_equivalent {a b : Node} (h : a.equivalent b = true) :
    a.isRecord = b.isRecord := by
  cases a <;> cases b <;> first | rfl | cases h

/-- Equivalent trees look alike. -/
theorem looksLike_of_equivalent {a b : Node} (h : a.equivalent b = true) :
    a.looksLike b = true := by
  induction a generalizing b with
  | seq as ih =>
    cases b with
    | seq bs =>
      rw [equivalent, itemsEquivalent_iff] at h
      rw [looksLike, itemsLookAlike_iff]
      exact ((List.forall₂_and_left _ _).mpr ⟨ih, h⟩).imp fun _ _ hab => hab.1 hab.2
    | _ => cases h
  | map as ih =>
    cases b with
    | map bs =>
      rw [equivalent, Bool.and_eq_true, entriesWithin_iff] at h
      rw [looksLike, Bool.and_eq_true, entriesLookAlike_iff]
      refine ⟨h.1, fun a ha => ?_⟩
      obtain ⟨b, hb, hab⟩ := h.2 a ha
      exact ⟨b, hb, ih a ha hab⟩
    | _ => cases h
  | record name as ih =>
    cases b with
    | record other bs =>
      rw [equivalent, Bool.and_eq_true, Bool.and_eq_true, entriesWithin_iff] at h
      rw [looksLike, Bool.and_eq_true, Bool.and_eq_true, entriesLookAlike_iff]
      refine ⟨h.1, h.2.1, fun a ha => ?_⟩
      obtain ⟨b, hb, hab⟩ := h.2.2 a ha
      exact ⟨b, hb, ih a ha hab⟩
    | _ => cases h
  | variant type name content ih =>
    cases b with
    | variant other case inner =>
      rw [equivalent, Bool.and_eq_true, Bool.and_eq_true, beq_iff_eq, beq_iff_eq] at h
      rw [looksLike, if_pos (isRecord_of_equivalent h.2.2), ih h.2.2, h.2.1, beq_self_eq_true,
        Bool.or_true]
      rfl
    | _ => cases h
  | bytes data =>
    cases b with
    | bytes other =>
      rw [equivalent, beq_iff_eq] at h
      rw [looksLike, h, beq_self_eq_true]
    | _ => cases h
  | formatted name text zero =>
    cases b with
    | formatted other text' zero' =>
      rw [equivalent, beq_iff_eq] at h
      simp [looksLike, isFree, lines, inline, h]
    | _ => cases h
  | _ =>
    cases b with
    | variant => cases h
    | formatted => cases h
    | _ => exact h

/-- No key is held twice, no name, key or formatted text breaks a line, and no case has a
parenthesis in its name. -/
def legible : Node → Bool
  | .map entries =>
    decide (entries.map (·.1)).Nodup && entries.all fun e => !e.1.toList.contains '\n'
  | .record name fields =>
    !name.toList.contains '\n' && (decide (fields.map (·.1)).Nodup &&
      fields.all fun f => !f.1.toList.contains '\n')
  | .variant _ name _ => !name.toList.contains '\n' && !name.toList.contains '('
  | .formatted _ shown _ => !shown.toList.contains '\n'
  | _ => true

/-- What a tree must be for its lines to be read. -/
def readable (n : Node) : Bool := n.isDouble && n.legible

theorem readable_iff {n : Node} : n.readable = true ↔ n.isDouble = true ∧ n.legible = true :=
  Bool.and_eq_true_iff

/-- The entries of a map or the fields of a record. -/
def entries : Node → List (String × Node)
  | .map entries => entries
  | .record _ fields => fields
  | _ => []

mutual

/-- Whether the labels of entries are apart wherever the two trees are held against each other: the
entries of two containers, and what is within them under one key or at one place. -/
def keysApart : Node → Node → Bool
  | .seq a, .seq b => itemsKeysApart a b
  | .map a, .map b => entriesKeysApart a b
  | .map a, .record _ b => entriesKeysApart a b
  | .record _ a, .map b => entriesKeysApart a b
  | .record _ a, .record _ b => entriesKeysApart a b
  | .variant _ _ a, .variant _ _ b => keysApart a b
  | _, _ => true

def itemsKeysApart : List Node → List Node → Bool
  | a :: as, b :: bs => keysApart a b && itemsKeysApart as bs
  | _, _ => true

def entriesKeysApart : List (String × Node) → List (String × Node) → Bool
  | [], _ => true
  | (key, a) :: rest, bs =>
    (bs.all fun b => decide (Apart (keyLabel key) (keyLabel b.1)) &&
      (key != b.1 || keysApart a b.2)) && entriesKeysApart rest bs

end

theorem itemsKeysApart_iff {as bs : List Node} :
    itemsKeysApart as bs = true ↔ ∀ p ∈ as.zip bs, p.1.keysApart p.2 = true := by
  induction as generalizing bs with
  | nil => simp [itemsKeysApart]
  | cons a as ih => cases bs <;> simp [itemsKeysApart, ih]

theorem entriesKeysApart_iff {as bs : List (String × Node)} :
    entriesKeysApart as bs = true ↔ ∀ a ∈ as, ∀ b ∈ bs, Apart (keyLabel a.1) (keyLabel b.1) ∧
      (a.1 = b.1 → a.2.keysApart b.2 = true) := by
  induction as with
  | nil => simp [entriesKeysApart]
  | cons a as ih =>
    rw [entriesKeysApart, Bool.and_eq_true, ih, List.forall_mem_cons, List.all_eq_true]
    simp [imp_iff_not_or]

theorem itemsLookAlike_of_parts {as bs : List Node}
    (ih : ∀ p ∈ as.zip bs, p.1.lines = p.2.lines → p.1.looksLike p.2 = true)
    (h : itemParts as = itemParts bs) : itemsLookAlike as bs = true := by
  rw [itemParts, itemParts, ← List.forall₂_eq_eq_eq, List.forall₂_map_left_iff,
    List.forall₂_map_right_iff, List.forall₂_iff_zip] at h
  rw [itemsLookAlike_iff, List.forall₂_iff_zip]
  exact ⟨h.1, fun hab => ih _ hab (Prod.ext_iff.mp (h.2 hab)).2⟩

theorem keyLabel_injective : Function.Injective keyLabel := fun _ _ h =>
  (String.append_left_inj ": ").mp h

theorem entriesLookAlike_of_parts {as bs : List (String × Node)} (hkeys : (bs.map (·.1)).Nodup)
    (ih : ∀ a ∈ as, ∀ b ∈ bs, a.1 = b.1 → a.2.lines = b.2.lines → a.2.looksLike b.2 = true)
    (h : entryParts as = entryParts bs) :
    as.length = bs.length ∧ entriesLookAlike as bs = true := by
  rw [entryParts, entryParts, ← List.forall₂_eq_eq_eq, List.forall₂_map_left_iff,
    List.forall₂_map_right_iff] at h
  refine ⟨h.length_eq, entriesLookAlike_iff.mpr fun a ha => ?_⟩
  obtain ⟨b, hb, hab⟩ := exists_of_forall₂ h ha
  obtain ⟨hlabel, hlines⟩ := Prod.ext_iff.mp hab
  have hkey : a.1 = b.1 := keyLabel_injective hlabel
  exact ⟨b.2, (find?_eq_some_iff_mem hkeys).mpr (hkey ▸ hb), ih a ha b hb hkey hlines⟩

theorem parts_subset_of_mem {n : Node} {e : String × Node} (h : e ∈ n.entries) :
    e.2.parts ⊆ n.parts := by
  cases n with
  | map | record => exact List.subset_cons_of_subset _ (parts_subset_of_mem_entries h)
  | _ => cases h

theorem record_of_lines {name other : String} {as bs : List (String × Node)}
    (h : (record name as).lines = (record other bs).lines) (hkeys : (bs.map (·.1)).Nodup)
    (ih : ∀ a ∈ as, ∀ b ∈ bs, Apart (keyLabel a.1) (keyLabel b.1) ∧
      (a.1 = b.1 → a.2.lines = b.2.lines → a.2.looksLike b.2 = true)) :
    name = other ∧ as.length = bs.length ∧ entriesLookAlike as bs = true := by
  by_cases has : as = []
  · rw [has, lines_record_nil] at h
    by_cases hbs : bs = []
    · rw [hbs, lines_record_nil, List.singleton_inj, String.append_left_inj] at h
      rw [has, hbs]
      exact ⟨h, rfl, rfl⟩
    · rw [lines_record hbs] at h
      exact absurd h.symm (enclosed_ne_line _ _ _)
  · rw [lines_record has] at h
    by_cases hbs : bs = []
    · rw [hbs, lines_record_nil] at h
      exact absurd h (enclosed_ne_line _ _ _)
    · rw [lines_record hbs] at h
      have hparts : ∀ p ∈ entryParts as, ∀ q ∈ entryParts bs, Apart p.1 q.1 := by
        simp only [entryParts, List.forall_mem_map]
        exact fun a ha b hb => (ih a ha b hb).1
      obtain ⟨hname, -, heq⟩ :=
        enclosed_inj isBlock_of_mem_entryParts isBlock_of_mem_entryParts hparts h
      exact ⟨(String.append_left_inj _).mp hname,
        entriesLookAlike_of_parts hkeys (fun a ha b hb => (ih a ha b hb).2) heq⟩

theorem items_of_lines {as bs : List Node}
    (ih : ∀ p ∈ as.zip bs, p.1.lines = p.2.lines → p.1.looksLike p.2 = true)
    (h : (seq as).lines = (seq bs).lines) : itemsLookAlike as bs = true := by
  have hnil : (seq []).lines = ["[]"] := rfl
  by_cases has : as = []
  · rw [has, hnil] at h
    by_cases hbs : bs = []
    · rw [has, hbs]
      rfl
    · rw [lines_seq hbs] at h
      exact absurd h.symm (enclosed_ne_line _ _ _)
  · rw [lines_seq has] at h
    by_cases hbs : bs = []
    · rw [hbs, hnil] at h
      exact absurd h (enclosed_ne_line _ _ _)
    · rw [lines_seq hbs] at h
      have hparts : ∀ p ∈ itemParts as, ∀ q ∈ itemParts bs, Apart p.1 q.1 := by
        simp only [itemParts, List.forall_mem_map]
        exact fun _ _ _ _ _ => rfl
      obtain ⟨-, -, heq⟩ :=
        enclosed_inj isBlock_of_mem_itemParts isBlock_of_mem_itemParts hparts h
      exact itemsLookAlike_of_parts ih heq

theorem kind?_variant {type name : String} {content : Node}
    (h : ¬(variant type name content).isFree = true) :
    (variant type name content).kind? = some .enclosed := by
  cases content <;> first | rfl | exact absurd rfl h

/-- An enumeration value that is shown like a value of another kind is shown by its name alone, or
as the record that it holds. -/
theorem looksLike_variant {n : Node} {k : Kind} {type name : String} {content : Node}
    (hk : n.kind? = some k) (hne : k ≠ .enclosed)
    (h : n.lines = (variant type name content).lines) :
    n.looksLike (variant type name content) = true := by
  have hfree : (variant type name content).isFree = true := by
    by_contra hfree
    exact hne (kind_eq_of_lines hk (kind?_variant hfree) h)
  cases n with
  | variant other case inner => cases inner <;> cases hk <;> exact absurd rfl hne
  | _ => simp [looksLike, hfree, h]

theorem variant_looksLike {n : Node} {k : Kind} {type name : String} {content : Node}
    (hk : n.kind? = some k) (hne : k ≠ .enclosed)
    (h : (variant type name content).lines = n.lines) :
    (variant type name content).looksLike n = true := by
  have hfree : (variant type name content).isFree = true := by
    by_contra hfree
    exact hne (kind_eq_of_lines hk (kind?_variant hfree) h.symm)
  cases n with
  | variant other case inner => cases inner <;> cases hk <;> exact absurd rfl hne
  | _ => simp [looksLike, hfree, h]

theorem parenthesis_notMem_name {type name : String} {content : Node}
    (h : (variant type name content).readable = true) : '(' ∉ name.toList := by
  have hlegible := (readable_iff.mp h).2
  rw [legible, Bool.and_eq_true] at hlegible
  simpa using hlegible.2

theorem nodup_of_readable {n : Node} (h : n.readable = true) : (n.entries.map (·.1)).Nodup := by
  have hlegible := (readable_iff.mp h).2
  cases n with
  | map =>
    rw [legible, Bool.and_eq_true] at hlegible
    exact of_decide_eq_true hlegible.1
  | record =>
    rw [legible, Bool.and_eq_true, Bool.and_eq_true] at hlegible
    exact of_decide_eq_true hlegible.2.1
  | _ => exact List.nodup_nil

/-- Trees of the same lines look alike. -/
theorem looksLike_of_lines {n m : Node} (hn : ∀ a ∈ n.parts, a.readable = true)
    (hm : ∀ b ∈ m.parts, b.readable = true) (hkeys : n.keysApart m = true) (h : n.lines = m.lines) :
    n.looksLike m = true := by
  -- the last line tells values of other kinds apart; within a kind the text is read back
  induction n generalizing m with
  | variant type name content ih =>
    rw [parts, List.forall_mem_cons] at hn
    cases m with
    | variant other case inner =>
      rw [parts, List.forall_mem_cons] at hm
      have hcontents := ih hn.2 hm.2 hkeys
      rw [looksLike]
      split
      next hrecord =>
        cases hcontent : content.isRecord with
        | true =>
          rw [lines_variant_record hcontent, lines_variant_record (hrecord ▸ hcontent)] at h
          exact hcontents h
        | false =>
          obtain ⟨hname, hlines⟩ := case_of_lines (parenthesis_notMem_name hn.1)
            (parenthesis_notMem_name hm.1) hcontent (hrecord ▸ hcontent) h
          rw [hname, beq_self_eq_true, Bool.false_or, Bool.true_and]
          exact hcontents hlines
      next => exact beq_iff_eq.mpr h
    | formatted => simp [looksLike, isFree, h]
    | _ => exact variant_looksLike rfl (by decide) h
  | formatted name text zero => cases m <;> simp [looksLike, isFree, h]
  | null =>
    cases m with
    | null => rfl
    | variant => exact looksLike_variant rfl (by decide) h
    | formatted => simp [looksLike, isFree, h]
    | _ => exact absurd (kind_eq_of_lines rfl rfl h) (by decide)
  | bool a =>
    cases m with
    | bool b => revert h; cases a <;> cases b <;> decide
    | variant => exact looksLike_variant rfl (by decide) h
    | formatted => simp [looksLike, isFree, h]
    | _ => exact absurd (kind_eq_of_lines rfl rfl h) (by decide)
  | int i =>
    cases m with
    | int j =>
      have htext : toString i = toString j := List.singleton_inj.mp h
      exact looksLike_of_equivalent
        (by rw [equivalent, Literal.toString_int_injective htext, beq_self_eq_true])
    | variant => exact looksLike_variant rfl (by decide) h
    | formatted => simp [looksLike, isFree, h]
    | _ => exact absurd (kind_eq_of_lines rfl rfl h) (by decide)
  | float x =>
    cases m with
    | float y =>
      have hx : Format.double.holds x = true := (readable_iff.mp (hn _ (self_mem_parts _))).1
      have hy : Format.double.holds y = true := (readable_iff.mp (hm _ (self_mem_parts _))).1
      have htext : x.text .shown .double = y.text .shown .double := List.singleton_inj.mp h
      exact looksLike_of_equivalent
        (Binary.same_iff_quantity.mpr (Binary.quantity_eq_of_text (by decide) hx hy htext))
    | variant => exact looksLike_variant rfl (by decide) h
    | formatted => simp [looksLike, isFree, h]
    | _ => exact absurd (kind_eq_of_lines rfl rfl h) (by decide)
  | text s =>
    cases m with
    | text t =>
      have hquote : Text.quote s = Text.quote t := List.singleton_inj.mp h
      exact looksLike_of_equivalent
        (by rw [equivalent, Text.quote_injective hquote, beq_self_eq_true])
    | variant => exact looksLike_variant rfl (by decide) h
    | formatted => simp [looksLike, isFree, h]
    | _ => exact absurd (kind_eq_of_lines rfl rfl h) (by decide)
  | bytes a =>
    cases m with
    | bytes b =>
      have htext : bytesText a = bytesText b := List.singleton_inj.mp h
      rw [bytesText, bytesText, String.append_right_inj] at htext
      rw [looksLike, Text.quote_injective htext, beq_self_eq_true]
    | variant => exact looksLike_variant rfl (by decide) h
    | formatted => simp [looksLike, isFree, h]
    | _ => exact absurd (kind_eq_of_lines rfl rfl h) (by decide)
  | seq as ih =>
    cases m with
    | seq bs =>
      rw [parts, List.forall_mem_cons, forall_partsOfItems_iff] at hn hm
      rw [keysApart, itemsKeysApart_iff] at hkeys
      refine items_of_lines (fun p hp => ?_) h
      have hmem := List.of_mem_zip hp
      exact ih p.1 hmem.1 (hn.2 p.1 hmem.1) (hm.2 p.2 hmem.2) (hkeys p hp)
    | variant => exact looksLike_variant rfl (by decide) h
    | formatted => simp [looksLike, isFree, h]
    | _ => exact absurd (kind_eq_of_lines rfl rfl h) (by decide)
  | map as ih =>
    rw [parts, List.forall_mem_cons, forall_partsOfEntries_iff] at hn
    rw [lines_map_eq] at h
    cases m with
    | map bs =>
      rw [parts, List.forall_mem_cons, forall_partsOfEntries_iff] at hm
      rw [lines_map_eq] at h
      rw [keysApart, entriesKeysApart_iff] at hkeys
      obtain ⟨-, hlen, hentries⟩ := record_of_lines h (nodup_of_readable hm.1)
        fun a ha b hb => (hkeys a ha b hb).imp_right fun hsame hkey =>
          ih a ha (hn.2 a ha) (hm.2 b hb) (hsame hkey)
      rw [looksLike, hlen, hentries, beq_self_eq_true, Bool.and_true]
    | record other bs =>
      rw [parts, List.forall_mem_cons, forall_partsOfEntries_iff] at hm
      rw [keysApart, entriesKeysApart_iff] at hkeys
      obtain ⟨rfl, hlen, hentries⟩ := record_of_lines h (nodup_of_readable hm.1)
        fun a ha b hb => (hkeys a ha b hb).imp_right fun hsame hkey =>
          ih a ha (hn.2 a ha) (hm.2 b hb) (hsame hkey)
      rw [looksLike, hlen, hentries, beq_self_eq_true, Bool.and_true]
      rfl
    | variant => exact looksLike_variant rfl (by decide) ((lines_map_eq as).trans h)
    | formatted => simp [looksLike, isFree, h, lines_map_eq]
    | _ => exact absurd (kind_eq_of_lines (n := .record "" as) rfl rfl h) (by decide)
  | record name as ih =>
    rw [parts, List.forall_mem_cons, forall_partsOfEntries_iff] at hn
    cases m with
    | map bs =>
      rw [parts, List.forall_mem_cons, forall_partsOfEntries_iff] at hm
      rw [lines_map_eq] at h
      rw [keysApart, entriesKeysApart_iff] at hkeys
      obtain ⟨rfl, hlen, hentries⟩ := record_of_lines h (nodup_of_readable hm.1)
        fun a ha b hb => (hkeys a ha b hb).imp_right fun hsame hkey =>
          ih a ha (hn.2 a ha) (hm.2 b hb) (hsame hkey)
      rw [looksLike, hlen, hentries, beq_self_eq_true, Bool.and_true]
      rfl
    | record other bs =>
      rw [parts, List.forall_mem_cons, forall_partsOfEntries_iff] at hm
      rw [keysApart, entriesKeysApart_iff] at hkeys
      obtain ⟨rfl, hlen, hentries⟩ := record_of_lines h (nodup_of_readable hm.1)
        fun a ha b hb => (hkeys a ha b hb).imp_right fun hsame hkey =>
          ih a ha (hn.2 a ha) (hm.2 b hb) (hsame hkey)
      rw [looksLike, hlen, hentries, beq_self_eq_true, beq_self_eq_true]
      rfl
    | variant => exact looksLike_variant rfl (by decide) h
    | formatted => simp [looksLike, isFree, h]
    | _ => exact absurd (kind_eq_of_lines rfl rfl h) (by decide)

end Node
end TestBench.Diff
