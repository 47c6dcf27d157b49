import TestBench.Document
import TestBench.Proofs.Diff.Canonical
import TestBench.Proofs.Diff.Captured
import TestBench.Proofs.Diff.SelfDiff
import TestBench.Proofs.Text.Quoting

/-! What a comparison of documents or of lists of texts says. No formatter has a part in it, so that
there always is an answer; and nothing is left out, so that no difference means equality, of
documents up to the kind of their numbers. -/
namespace TestBench

namespace Document
open Diff Diff.Options

mutual

/-- The tree of a document. A field goes by its name in quotes. -/
def node : Document → Node
  | .null => .null
  | .bool b => .bool b
  | .int n => intNode n
  | .float x => .float x
  | .text s => .text s
  | .list items => .seq (itemNodes items)
  | .object fields => .map (sortBy keyLe (fieldNodes fields))

def itemNodes : List Document → List Node
  | [] => []
  | item :: rest => item.node :: itemNodes rest

def fieldNodes : List (String × Document) → List (String × Node)
  | [] => []
  | (name, d) :: rest => (Text.quote name, d.node) :: fieldNodes rest

end

mutual

/-- Equality of documents, whether a number is written as an integer or not, and whatever the order
of fields. -/
def agrees : Document → Document → Bool
  | .null, .null => true
  | .bool a, .bool b => a == b
  | .int a, .int b => a == b
  | .int a, .float b => b.toInt? == some a
  | .float a, .int b => a.toInt? == some b
  | .float a, .float b => a.same b
  | .text a, .text b => a == b
  | .list a, .list b => itemsAgree a b
  | .object a, .object b => a.length == b.length && fieldsWithin a b
  | _, _ => false

def itemsAgree : List Document → List Document → Bool
  | [], [] => true
  | a :: as, b :: bs => agrees a b && itemsAgree as bs
  | _, _ => false

def fieldsWithin : List (String × Document) → List (String × Document) → Bool
  | [], _ => true
  | (name, a) :: rest, bs =>
    (match find? name bs with
      | some b => agrees a b
      | none => false) && fieldsWithin rest bs

end

theorem fieldNodes_eq_map (fields : List (String × Document)) :
    fieldNodes fields = fields.map fun f => (Text.quote f.1, f.2.node) := by
  induction fields with
  | nil => rfl
  | cons f rest ih => rw [fieldNodes, ih, List.map_cons]

/-- A document always has a tree, whatever is to be compared. -/
theorem capture_toValue (o : Options) (d : Document) : o.capture d.toValue = .ok d.node := by
  induction d with
  | list items ih =>
    have hitems : o.captureItems (itemsToValue items) = .ok (itemNodes items) := by
      induction items with
      | nil => rfl
      | cons item rest hrest =>
        rw [List.forall_mem_cons] at ih
        exact bind_eq_ok.mpr ⟨_, ih.1, bind_eq_ok.mpr ⟨_, hrest ih.2, rfl⟩⟩
    exact bind_eq_ok.mpr ⟨_, hitems, rfl⟩
  | object fields ih =>
    have hfields : o.captureEntries (fieldsToValue fields) = .ok (fieldNodes fields) := by
      induction fields with
      | nil => rfl
      | cons f rest hrest =>
        rw [List.forall_mem_cons] at ih
        refine bind_eq_ok.mpr ⟨.text f.1, rfl, bind_eq_ok.mpr ⟨_, ih.1, ?_⟩⟩
        exact bind_eq_ok.mpr ⟨_, hrest ih.2, rfl⟩
    exact bind_eq_ok.mpr ⟨_, hfields, rfl⟩
  | _ => rfl

variable {a b : Document}

theorem itemsAgree_iff {as bs : List Document} :
    itemsAgree as bs = true ↔ List.Forall₂ (fun a b => a.agrees b = true) as bs := by
  induction as generalizing bs with
  | nil => cases bs <;> simp [itemsAgree]
  | cons a as ih => cases bs <;> simp [itemsAgree, ih]

theorem fieldsWithin_iff {as bs : List (String × Document)} :
    fieldsWithin as bs = true ↔ ∀ a ∈ as, ∃ b, find? a.1 bs = some b ∧ a.2.agrees b = true := by
  induction as with
  | nil => simp [fieldsWithin]
  | cons a as ih =>
    rw [fieldsWithin, Bool.and_eq_true, ih, List.forall_mem_cons]
    refine and_congr ?_ Iff.rfl
    cases find? a.1 bs <;> simp

theorem find?_fieldNodes (name : String) (fields : List (String × Document)) :
    find? (Text.quote name) (fieldNodes fields) = (find? name fields).map node := by
  induction fields with
  | nil => rfl
  | cons f rest ih =>
    rw [fieldNodes, Named.find?_cons, Named.find?_cons, ih]
    by_cases h : f.1 = name
    · rw [if_pos h, if_pos (congrArg Text.quote h), Option.map_some]
    · rw [if_neg h, if_neg fun hquote => h (Text.quote_injective hquote)]

mutual

/-- Whether every integer is held as one; beyond 128 bits they are held as text. -/
def isNarrow : Document → Bool
  | .int n => (intNode n).int?.isSome
  | .list items => itemsNarrow items
  | .object fields => fieldsNarrow fields
  | _ => true

def itemsNarrow : List Document → Bool
  | [] => true
  | item :: rest => item.isNarrow && itemsNarrow rest

def fieldsNarrow : List (String × Document) → Bool
  | [] => true
  | (_, d) :: rest => d.isNarrow && fieldsNarrow rest

end

theorem itemsNarrow_iff {items : List Document} :
    itemsNarrow items = true ↔ ∀ d ∈ items, d.isNarrow = true := by
  induction items with
  | nil => simp [itemsNarrow]
  | cons d rest ih => rw [itemsNarrow, Bool.and_eq_true, ih, List.forall_mem_cons]

theorem fieldsNarrow_iff {fields : List (String × Document)} :
    fieldsNarrow fields = true ↔ ∀ f ∈ fields, f.2.isNarrow = true := by
  induction fields with
  | nil => simp [fieldsNarrow]
  | cons f rest ih => rw [fieldsNarrow, Bool.and_eq_true, ih, List.forall_mem_cons]

theorem intNode_of_isNarrow {n : Int} (h : (int n).isNarrow = true) : intNode n = .int n := by
  rw [isNarrow, intNode] at h
  rw [intNode]
  split at h
  next hlt => rw [if_pos hlt]
  next => cases h

theorem equivalent_list {as bs : List Document}
    (ih : ∀ a ∈ as, ∀ b ∈ bs, a.node.equivalent b.node = true ↔ a.agrees b = true) :
    (list as).node.equivalent (list bs).node = true ↔ (list as).agrees (list bs) = true := by
  rw [node, node, Node.equivalent, agrees]
  induction as generalizing bs with
  | nil => cases bs <;> simp [itemNodes, Node.itemsEquivalent, itemsAgree]
  | cons a as hrest =>
    cases bs with
    | nil => simp [itemNodes, Node.itemsEquivalent, itemsAgree]
    | cons b bs =>
      rw [List.forall_mem_cons] at ih
      rw [itemNodes, itemNodes, Node.itemsEquivalent, itemsAgree, Bool.and_eq_true,
        Bool.and_eq_true, ih.1 b List.mem_cons_self,
        hrest fun a ha d hd => ih.2 a ha d (List.mem_cons_of_mem b hd)]

theorem equivalent_object {as bs : List (String × Document)}
    (ih : ∀ a ∈ as, ∀ b ∈ bs, a.2.node.equivalent b.2.node = true ↔ a.2.agrees b.2 = true) :
    (object as).node.equivalent (object bs).node = true ↔
      (object as).agrees (object bs) = true := by
  have hlength (fields : List (String × Document)) :
      (sortBy keyLe (fieldNodes fields)).length = fields.length := by
    rw [(sortBy_perm keyLe _).length_eq, fieldNodes_eq_map, List.length_map]
  rw [node, node, Node.equivalent, agrees, Bool.and_eq_true, Bool.and_eq_true, hlength, hlength,
    Node.entriesWithin_iff, fieldsWithin_iff]
  refine and_congr_right fun _ => ?_
  simp only [(sortBy_perm keyLe (fieldNodes as)).mem_iff, find?_sortBy]
  rw [fieldNodes_eq_map as, List.forall_mem_map]
  refine forall₂_congr fun f hf => ?_
  rw [find?_fieldNodes]
  constructor
  · rintro ⟨n, hn, hequivalent⟩
    obtain ⟨d, hd, rfl⟩ := Option.map_eq_some_iff.mp hn
    exact ⟨d, hd, (ih f hf _ (Named.mem_of_find?_eq_some hd)).mp hequivalent⟩
  · rintro ⟨d, hd, hagrees⟩
    exact ⟨d.node, by rw [hd, Option.map_some],
      (ih f hf _ (Named.mem_of_find?_eq_some hd)).mpr hagrees⟩

theorem equivalent_iff_agrees (ha : a.isNarrow = true) (hb : b.isNarrow = true) :
    a.node.equivalent b.node = true ↔ a.agrees b = true := by
  induction a generalizing b with
  | list as ih =>
    cases b with
    | list bs =>
      refine equivalent_list fun a hmem b hmem' => ih a hmem ?_ ?_
      · exact itemsNarrow_iff.mp ha a hmem
      · exact itemsNarrow_iff.mp hb b hmem'
    | int n => simp [node, intNode_of_isNarrow hb, Node.equivalent, agrees]
    | _ => simp [node, Node.equivalent, agrees]
  | object as ih =>
    cases b with
    | object bs =>
      refine equivalent_object fun a hmem b hmem' => ih a hmem ?_ ?_
      · exact fieldsNarrow_iff.mp ha a hmem
      · exact fieldsNarrow_iff.mp hb b hmem'
    | int n => simp [node, intNode_of_isNarrow hb, Node.equivalent, agrees]
    | _ => simp [node, Node.equivalent, agrees]
  | int m =>
    cases b with
    | int n => simp [node, intNode_of_isNarrow ha, intNode_of_isNarrow hb, Node.equivalent, agrees]
    | _ => simp [node, intNode_of_isNarrow ha, Node.equivalent, agrees]
  | _ =>
    cases b with
    | int n => simp [node, intNode_of_isNarrow hb, Node.equivalent, agrees]
    | _ => simp [node, Node.equivalent, agrees]

/-- A comparison of documents always has an answer. -/
theorem exists_diff_eq (o : Options) (a b : Document) :
    ∃ delta, o.diff a.toValue b.toValue = .ok delta := by
  rw [Options.diff, capture_toValue, capture_toValue]
  exact ⟨_, rfl⟩

/-- Documents show no difference just when they agree. -/
theorem diff_eq_empty_iff_agrees (o : Options) (ha : a.isNarrow = true) (hb : b.isNarrow = true) :
    o.diff a.toValue b.toValue = .ok "" ↔ a.agrees b = true := by
  rw [diff_eq_empty_iff_equivalent (capture_toValue o a) (capture_toValue o b),
    equivalent_iff_agrees ha hb]

section Texts

theorem isNarrow_texts (texts : List String) : (list (texts.map .text)).isNarrow = true :=
  itemsNarrow_iff.mpr (List.forall_mem_map.mpr fun _ _ => rfl)

theorem agrees_texts_iff {as bs : List String} :
    (list (as.map .text)).agrees (list (bs.map .text)) = true ↔ as = bs := by
  rw [agrees, itemsAgree_iff, List.forall₂_map_left_iff, List.forall₂_map_right_iff]
  simp only [agrees, beq_iff_eq]
  rw [List.forall₂_eq_eq_eq]

/-- Lists of texts show no difference just when they are equal. -/
theorem diff_texts_eq_empty_iff (o : Options) {as bs : List String} :
    o.diff (list (as.map .text)).toValue (list (bs.map .text)).toValue = .ok "" ↔ as = bs := by
  rw [diff_eq_empty_iff_agrees o (isNarrow_texts as) (isNarrow_texts bs), agrees_texts_iff]

end Texts

end Document
end TestBench
