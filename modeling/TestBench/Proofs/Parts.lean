import TestBench.Diff.Node
import TestBench.Value

/-! All that a value or a comparable tree consists of, itself included. -/
namespace TestBench

namespace Value

mutual

/-- The value and everything in it, map keys included. -/
def parts : Value → List Value
  | .list items => .list items :: partsOfItems items
  | .map entries => .map entries :: partsOfEntries entries
  | .record name fields => .record name fields :: partsOfFields fields
  | .tuple name items => .tuple name items :: partsOfItems items
  | .wrapper name inner => .wrapper name inner :: parts inner
  | .wrapperCase type variant inner => .wrapperCase type variant inner :: parts inner
  | .tupleCase type variant items => .tupleCase type variant items :: partsOfItems items
  | .recordCase type variant fields => .recordCase type variant fields :: partsOfFields fields
  | .tagged tag inner => .tagged tag inner :: parts inner
  | .keyless inner => .keyless inner :: parts inner
  | v => [v]

def partsOfItems : List Value → List Value
  | [] => []
  | item :: rest => parts item ++ partsOfItems rest

def partsOfEntries : List (Value × Value) → List Value
  | [] => []
  | (key, value) :: rest => parts key ++ (parts value ++ partsOfEntries rest)

def partsOfFields : List (String × Value) → List Value
  | [] => []
  | (_, value) :: rest => parts value ++ partsOfFields rest

end

/-- The values that stand directly in a value. -/
def children : Value → List Value
  | .list items => items
  | .map entries => entries.flatMap fun e => [e.1, e.2]
  | .record _ fields => fields.map (·.2)
  | .tuple _ items => items
  | .wrapper _ inner => [inner]
  | .wrapperCase _ _ inner => [inner]
  | .tupleCase _ _ items => items
  | .recordCase _ _ fields => fields.map (·.2)
  | .tagged _ inner => [inner]
  | .keyless inner => [inner]
  | _ => []

theorem self_mem_parts (v : Value) : v ∈ v.parts := by
  cases v <;> exact List.mem_cons_self

theorem forall_partsOfItems_iff {p : Value → Prop} {items : List Value} :
    (∀ w ∈ partsOfItems items, p w) ↔ ∀ v ∈ items, ∀ w ∈ v.parts, p w := by
  induction items with
  | nil => simp [partsOfItems]
  | cons item rest ih => rw [partsOfItems, List.forall_mem_append, ih, List.forall_mem_cons]

theorem forall_partsOfEntries_iff {p : Value → Prop} {entries : List (Value × Value)} :
    (∀ w ∈ partsOfEntries entries, p w) ↔
      ∀ e ∈ entries, (∀ w ∈ e.1.parts, p w) ∧ ∀ w ∈ e.2.parts, p w := by
  induction entries with
  | nil => simp [partsOfEntries]
  | cons e rest ih =>
    rw [partsOfEntries, List.forall_mem_append, List.forall_mem_append, ih, List.forall_mem_cons,
      and_assoc]

theorem forall_partsOfFields_iff {p : Value → Prop} {fields : List (String × Value)} :
    (∀ w ∈ partsOfFields fields, p w) ↔ ∀ f ∈ fields, ∀ w ∈ f.2.parts, p w := by
  induction fields with
  | nil => simp [partsOfFields]
  | cons f rest ih => rw [partsOfFields, List.forall_mem_append, ih, List.forall_mem_cons]

theorem forall_children_map_iff {p : Value → Prop} {entries : List (Value × Value)} :
    (∀ c ∈ (map entries).children, p c) ↔ ∀ e ∈ entries, p e.1 ∧ p e.2 := by
  rw [children, List.forall_mem_flatMap]
  simp

/-- What holds of all parts holds of the value and of all parts of what stands in it. -/
theorem forall_parts_iff {p : Value → Prop} {v : Value} :
    (∀ w ∈ v.parts, p w) ↔ p v ∧ ∀ c ∈ v.children, ∀ w ∈ c.parts, p w := by
  cases v with
  | list items | tuple name items | tupleCase type variant items =>
    rw [parts, List.forall_mem_cons, forall_partsOfItems_iff, children]
  | map entries =>
    rw [parts, List.forall_mem_cons, forall_partsOfEntries_iff, forall_children_map_iff]
  | record name fields | recordCase type variant fields =>
    rw [parts, List.forall_mem_cons, forall_partsOfFields_iff, children, List.forall_mem_map]
  | wrapper name inner | wrapperCase type variant inner | tagged tag inner | keyless inner =>
    rw [parts, List.forall_mem_cons, children, List.forall_mem_singleton]
  | _ => simp [parts, children]

end Value

namespace Diff.Node

mutual

/-- The tree and everything in it. -/
def parts : Node → List Node
  | .seq items => .seq items :: partsOfItems items
  | .map entries => .map entries :: partsOfEntries entries
  | .record name fields => .record name fields :: partsOfEntries fields
  | .variant type name content => .variant type name content :: parts content
  | n => [n]

def partsOfItems : List Node → List Node
  | [] => []
  | item :: rest => parts item ++ partsOfItems rest

def partsOfEntries : List (String × Node) → List Node
  | [] => []
  | (_, node) :: rest => parts node ++ partsOfEntries rest

end

theorem self_mem_parts (n : Node) : n ∈ n.parts := by
  cases n <;> exact List.mem_cons_self

theorem forall_partsOfItems_iff {p : Node → Prop} {items : List Node} :
    (∀ m ∈ partsOfItems items, p m) ↔ ∀ n ∈ items, ∀ m ∈ n.parts, p m := by
  induction items with
  | nil => simp [partsOfItems]
  | cons item rest ih => rw [partsOfItems, List.forall_mem_append, ih, List.forall_mem_cons]

theorem forall_partsOfEntries_iff {p : Node → Prop} {entries : List (String × Node)} :
    (∀ m ∈ partsOfEntries entries, p m) ↔ ∀ e ∈ entries, ∀ m ∈ e.2.parts, p m := by
  induction entries with
  | nil => simp [partsOfEntries]
  | cons e rest ih => rw [partsOfEntries, List.forall_mem_append, ih, List.forall_mem_cons]

theorem parts_subset_of_mem_items {items : List Node} {n : Node} (h : n ∈ items) :
    n.parts ⊆ partsOfItems items := forall_partsOfItems_iff.mp (fun _ hm => hm) n h

theorem parts_subset_of_mem_entries {entries : List (String × Node)} {e : String × Node}
    (h : e ∈ entries) : e.2.parts ⊆ partsOfEntries entries :=
  forall_partsOfEntries_iff.mp (fun _ hm => hm) e h

end Diff.Node
end TestBench
