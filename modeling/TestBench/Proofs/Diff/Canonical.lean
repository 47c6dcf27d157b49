import TestBench.Proofs.Diff.SelfDiff

/-! Canonical forms of comparable trees. They keep the exact value of a number but not its kind,
what stands under each key but not the order of the keys, and of a formatted value its text. Where
no map and no record holds a key twice, trees are equivalent just when their canonical forms are
equal. -/
namespace TestBench.Diff

inductive Canonical where
  | null
  | bool (b : Bool)
  | number (q : Quantity)
  | text (s : String)
  | bytes (data : List UInt8)
  | seq (items : List Canonical)
  | map (under : String → Option Canonical)
  | record (name : String) (under : String → Option Canonical)
  | variant (type name : String) (content : Canonical)
  | formatted (text : String)

namespace Node
open Named

mutual

def canonical : Node → Canonical
  | .null => .null
  | .bool b => .bool b
  | .int n => .number (.rational n)
  | .float x => .number x.quantity
  | .text s => .text s
  | .bytes data => .bytes data
  | .seq items => .seq (canonicalItems items)
  | .map entries => .map fun key => canonicalUnder key entries
  | .record name fields => .record name fun key => canonicalUnder key fields
  | .variant type name content => .variant type name (canonical content)
  | .formatted _ shown _ => .formatted shown

def canonicalItems : List Node → List Canonical
  | [] => []
  | item :: rest => canonical item :: canonicalItems rest

def canonicalUnder (key : String) : List (String × Node) → Option Canonical
  | [] => none
  | (name, node) :: rest => if name = key then some (canonical node) else canonicalUnder key rest

end

theorem canonicalItems_eq_map (items : List Node) : canonicalItems items = items.map canonical := by
  induction items with
  | nil => rfl
  | cons n rest ih => rw [canonicalItems, ih, List.map_cons]

theorem canonicalUnder_eq (key : String) (entries : List (String × Node)) :
    canonicalUnder key entries = (find? key entries).map canonical := by
  induction entries with
  | nil => rfl
  | cons e rest ih =>
    rw [canonicalUnder, find?_cons, ih]
    split <;> rfl

theorem distinctKeys_seq_iff {items : List Node} :
    (Node.seq items).distinctKeys = true ↔ ∀ n ∈ items, n.distinctKeys = true := by
  rw [distinctKeys]
  induction items with
  | nil => simp [itemsDistinctKeys]
  | cons n rest ih => simp [itemsDistinctKeys, ih]

theorem entriesDistinctKeys_iff {entries : List (String × Node)} :
    entriesDistinctKeys entries = true ↔ ∀ e ∈ entries, e.2.distinctKeys = true := by
  induction entries with
  | nil => simp [entriesDistinctKeys]
  | cons e rest ih => simp [entriesDistinctKeys, ih]

theorem distinctKeys_map_iff {entries : List (String × Node)} :
    (Node.map entries).distinctKeys = true ↔
      (entries.map (·.1)).Nodup ∧ ∀ e ∈ entries, e.2.distinctKeys = true := by
  rw [distinctKeys, Bool.and_eq_true, decide_eq_true_iff, entriesDistinctKeys_iff]

theorem distinctKeys_record_iff {name : String} {fields : List (String × Node)} :
    (Node.record name fields).distinctKeys = true ↔
      (fields.map (·.1)).Nodup ∧ ∀ e ∈ fields, e.2.distinctKeys = true := by
  rw [distinctKeys, Bool.and_eq_true, decide_eq_true_iff, entriesDistinctKeys_iff]

theorem itemsEquivalent_iff {as bs : List Node} :
    itemsEquivalent as bs = true ↔ List.Forall₂ (fun a b => a.equivalent b = true) as bs := by
  induction as generalizing bs with
  | nil => cases bs <;> simp [itemsEquivalent]
  | cons a as ih => cases bs <;> simp [itemsEquivalent, ih]

theorem entriesWithin_iff {as bs : List (String × Node)} :
    entriesWithin as bs = true ↔
      ∀ a ∈ as, ∃ b, find? a.1 bs = some b ∧ a.2.equivalent b = true := by
  induction as with
  | nil => simp [entriesWithin]
  | cons a as ih =>
    rw [entriesWithin, Bool.and_eq_true, ih, List.forall_mem_cons]
    refine and_congr ?_ Iff.rfl
    cases find? a.1 bs <;> simp

/-- Equivalence of this tree to any other is equality of canonical forms. -/
def ComparedByForm (a : Node) : Prop :=
  ∀ b : Node, b.distinctKeys = true → (a.equivalent b = true ↔ a.canonical = b.canonical)

theorem itemsEquivalent_iff_canonical {as bs : List Node} (ih : ∀ a ∈ as, a.ComparedByForm)
    (hbs : ∀ b ∈ bs, b.distinctKeys = true) :
    itemsEquivalent as bs = true ↔ as.map canonical = bs.map canonical := by
  rw [itemsEquivalent_iff, ← List.forall₂_eq_eq_eq, List.forall₂_map_left_iff,
    List.forall₂_map_right_iff, List.forall₂_iff_zip, List.forall₂_iff_zip]
  refine and_congr Iff.rfl (forall₂_congr fun a b => forall_congr' fun hab => ?_)
  have hmem := List.of_mem_zip hab
  exact ih a hmem.1 b (hbs b hmem.2)

/-- A containment of entries as many as the others is agreement under every key. -/
theorem entriesWithin_iff_canonical {as bs : List (String × Node)}
    (ih : ∀ a ∈ as, a.2.ComparedByForm) (has : (as.map (·.1)).Nodup) (hbs : (bs.map (·.1)).Nodup)
    (hparts : ∀ b ∈ bs, b.2.distinctKeys = true) :
    as.length = bs.length ∧ entriesWithin as bs = true ↔
      ∀ key, (find? key as).map canonical = (find? key bs).map canonical := by
  have hpart : ∀ key b, find? key bs = some b → b.distinctKeys = true :=
    fun key b h => hparts _ (mem_of_find?_eq_some h)
  rw [entriesWithin_iff]
  constructor
  · rintro ⟨hlen, hwithin⟩ key
    have hsub : as.map (·.1) ⊆ bs.map (·.1) := by
      intro k hk
      obtain ⟨a, ha, rfl⟩ := List.mem_map.mp hk
      obtain ⟨b, hb, -⟩ := hwithin a ha
      exact List.mem_map.mpr ⟨_, mem_of_find?_eq_some hb, rfl⟩
    cases hfind : find? key as with
    | none =>
      have hnone : find? key bs = none := by
        rw [find?_eq_none_iff, ← mem_keys_iff_of_subset has hlen hsub, ← find?_eq_none_iff, hfind]
      rw [hnone]
    | some a =>
      have ha := mem_of_find?_eq_some hfind
      obtain ⟨b, hb, hab⟩ := hwithin _ ha
      have hcanonical := (ih _ ha b (hpart _ _ hb)).mp hab
      rw [hb, Option.map_some, Option.map_some, hcanonical]
  · intro h
    have hmem : ∀ key, key ∈ as.map (·.1) ↔ key ∈ bs.map (·.1) := by
      intro key
      rw [← not_iff_not, ← find?_eq_none_iff, ← find?_eq_none_iff, ← Option.map_eq_none_iff,
        h key, Option.map_eq_none_iff]
    have hperm := (List.perm_ext_iff_of_nodup has hbs).mpr hmem
    refine ⟨by simpa using hperm.length_eq, fun a ha => ?_⟩
    have hfind : find? a.1 as = some a.2 := (find?_eq_some_iff_mem has).mpr ha
    have hboth := h a.1
    rw [hfind, Option.map_some, eq_comm, Option.map_eq_some_iff] at hboth
    obtain ⟨b, hb, hcanonical⟩ := hboth
    exact ⟨b, hb, (ih a ha b (hpart _ _ hb)).mpr hcanonical.symm⟩

theorem canonicalUnder_eq_iff {as bs : List (String × Node)} :
    ((fun key => canonicalUnder key as) = fun key => canonicalUnder key bs) ↔
      ∀ key, (find? key as).map canonical = (find? key bs).map canonical := by
  simp only [funext_iff, canonicalUnder_eq]

/-- Trees without doubled keys are equivalent just when their canonical forms are equal. -/
theorem equivalent_iff_canonical {a b : Node} (ha : a.distinctKeys = true)
    (hb : b.distinctKeys = true) : a.equivalent b = true ↔ a.canonical = b.canonical := by
  induction a generalizing b with
  | int n =>
    cases b with
    | int m => simp [equivalent, canonical]
    | float y =>
      rw [equivalent, beq_iff_eq, Binary.toInt?_eq_some_iff, canonical, canonical,
        Canonical.number.injEq, eq_comm]
    | _ => simp [equivalent, canonical]
  | float x =>
    cases b with
    | int m =>
      rw [equivalent, beq_iff_eq, Binary.toInt?_eq_some_iff, canonical, canonical,
        Canonical.number.injEq]
    | float y => rw [equivalent, Binary.same_iff_quantity, canonical, canonical,
        Canonical.number.injEq]
    | _ => simp [equivalent, canonical]
  | seq as ih =>
    cases b with
    | seq bs =>
      rw [distinctKeys_seq_iff] at ha hb
      rw [equivalent, canonical, canonical, Canonical.seq.injEq, canonicalItems_eq_map,
        canonicalItems_eq_map]
      exact itemsEquivalent_iff_canonical (fun a hmem b => ih a hmem (ha a hmem)) hb
    | _ => simp [equivalent, canonical]
  | map as ih =>
    cases b with
    | map bs =>
      rw [distinctKeys_map_iff] at ha hb
      rw [equivalent, canonical, canonical, Canonical.map.injEq, canonicalUnder_eq_iff,
        Bool.and_eq_true, beq_iff_eq]
      exact entriesWithin_iff_canonical (fun a hmem b => ih a hmem (ha.2 a hmem)) ha.1 hb.1 hb.2
    | _ => simp [equivalent, canonical]
  | record name as ih =>
    cases b with
    | record other bs =>
      rw [distinctKeys_record_iff] at ha hb
      rw [equivalent, canonical, canonical, Canonical.record.injEq, canonicalUnder_eq_iff,
        Bool.and_eq_true, Bool.and_eq_true, beq_iff_eq, beq_iff_eq]
      exact and_congr Iff.rfl
        (entriesWithin_iff_canonical (fun a hmem b => ih a hmem (ha.2 a hmem)) ha.1 hb.1 hb.2)
    | _ => simp [equivalent, canonical]
  | variant type name content ih =>
    cases b with
    | variant otherType other inner =>
      have hinner : content.equivalent inner = true ↔ _ := ih ha hb
      rw [equivalent, canonical, canonical, Canonical.variant.injEq, ← hinner]
      simp
    | _ => simp [equivalent, canonical]
  | _ => cases b <;> simp [equivalent, canonical]

end Node

open Node

/-- Among trees that hold no key twice, equivalence is equality of canonical forms. So it is an
equivalence relation there, and whether a comparison shows anything does not depend on which tree
comes first. -/
theorem equivalent_is_canonical_equality {a b c : Node} (ha : a.distinctKeys = true)
    (hb : b.distinctKeys = true) (hc : c.distinctKeys = true) :
    (a.equivalent b = true ↔ a.canonical = b.canonical) ∧
    a.equivalent a = true ∧
    (a.equivalent b = true → b.equivalent a = true) ∧
    (a.equivalent b = true → b.equivalent c = true → a.equivalent c = true) ∧
    ("\n".intercalate ((diffLines a b).map Line.render) = "" ↔
      "\n".intercalate ((diffLines b a).map Line.render) = "") := by
  have hab := equivalent_iff_canonical ha hb
  have hba := equivalent_iff_canonical hb ha
  have hsymm : a.equivalent b = true ↔ b.equivalent a = true := by
    rw [hab, hba, eq_comm]
  refine ⟨hab, (equivalent_iff_canonical ha ha).mpr rfl, hsymm.mp, fun h h' => ?_, ?_⟩
  · rw [equivalent_iff_canonical hb hc] at h'
    exact (equivalent_iff_canonical ha hc).mpr ((hab.mp h).trans h')
  · rw [renderLines_eq_empty_iff, renderLines_eq_empty_iff, diffLines_eq_nil_iff,
      diffLines_eq_nil_iff, hsymm]

/-- Fields in another order and a port that is a float, then one with another text. -/
theorem equivalent_is_canonical_equality_listener :
    let a : Node := .record "Listener" [("port", .int 80), ("name", .text "a")]
    let b : Node := .record "Listener" [("name", .text "a"), ("port", .float (.finite false 5 4))]
    let c : Node := .record "Listener" [("name", .text "b"), ("port", .int 80)]
    (a.distinctKeys = true ∧ b.distinctKeys = true ∧ c.distinctKeys = true) ∧
      a.canonical = b.canonical ∧ b.canonical ≠ c.canonical := by
  intro a b c
  have ha : a.distinctKeys = true := by decide
  have hb : b.distinctKeys = true := by decide
  have hc : c.distinctKeys = true := by decide
  have hab := (equivalent_is_canonical_equality ha hb hc).1
  have hbc := (equivalent_is_canonical_equality hb hc ha).1
  exact ⟨⟨ha, hb, hc⟩, hab.mp (by decide), fun h => absurd (hbc.mpr h) (by decide)⟩

end TestBench.Diff
