import TestBench.Proofs.Induction
import TestBench.Proofs.Named
import TestBench.Proofs.Number.Quantity

/-! When a tree is equivalent to itself. Entries are matched by key, so all of one key are held
against the first. -/
namespace TestBench.Diff.Node

mutual

/-- Whether entries of one key say the same, in every map and record. -/
def consistent : Node → Bool
  | .seq items => itemsConsistent items
  | .map entries => entriesConsistent [] entries
  | .record _ fields => entriesConsistent [] fields
  | .variant _ _ content => consistent content
  | _ => true

def itemsConsistent : List Node → Bool
  | [] => true
  | item :: rest => consistent item && itemsConsistent rest

/-- The first entry of a key is consistent in itself, the others are equivalent to it. -/
def entriesConsistent (before : List (String × Node)) : List (String × Node) → Bool
  | [] => true
  | (key, node) :: rest =>
    (match find? key before with
      | some first => node.equivalent first
      | none => consistent node) && entriesConsistent (before ++ [(key, node)]) rest

end

mutual

/-- Whether no map and no record holds a key twice. -/
def distinctKeys : Node → Bool
  | .seq items => itemsDistinctKeys items
  | .map entries => decide (entries.map (·.1)).Nodup && entriesDistinctKeys entries
  | .record _ fields => decide (fields.map (·.1)).Nodup && entriesDistinctKeys fields
  | .variant _ _ content => distinctKeys content
  | _ => true

def itemsDistinctKeys : List Node → Bool
  | [] => true
  | item :: rest => distinctKeys item && itemsDistinctKeys rest

def entriesDistinctKeys : List (String × Node) → Bool
  | [] => true
  | (_, node) :: rest => distinctKeys node && entriesDistinctKeys rest

end

theorem itemsEquivalent_self {items : List Node}
    (ih : ∀ n ∈ items, n.equivalent n = n.consistent) :
    itemsEquivalent items items = itemsConsistent items := by
  induction items with
  | nil => rfl
  | cons n rest hrest =>
    rw [itemsEquivalent, itemsConsistent, ih n List.mem_cons_self,
      hrest fun m hm => ih m (List.mem_cons_of_mem _ hm)]

theorem find?_append_cons (before rest : List (String × Node)) (e : String × Node) :
    find? e.1 (before ++ e :: rest) = (find? e.1 before).or (some e.2) := by
  simp [find?, List.find?_append]

theorem entriesWithin_self {before rest : List (String × Node)}
    (ih : ∀ e ∈ rest, e.2.equivalent e.2 = e.2.consistent) :
    entriesWithin rest (before ++ rest) = entriesConsistent before rest := by
  induction rest generalizing before with
  | nil => rfl
  | cons e rest hrest =>
    have hnext : entriesWithin rest (before ++ [e] ++ rest) = _ :=
      hrest fun a ha => ih a (List.mem_cons_of_mem _ ha)
    rw [List.append_assoc, List.singleton_append] at hnext
    rw [entriesWithin, entriesConsistent, hnext, find?_append_cons]
    cases find? e.1 before with
    | some first => rfl
    | none =>
      change (e.2.equivalent e.2 && _) = (e.2.consistent && _)
      rw [ih e List.mem_cons_self]

/-- A tree is equivalent to itself just when it is consistent. -/
theorem equivalent_self (n : Node) : n.equivalent n = n.consistent := by
  induction n with
  | seq items ih => exact itemsEquivalent_self ih
  | map entries ih =>
    rw [equivalent, consistent, ← entriesWithin_self ih, List.nil_append, beq_self_eq_true,
      Bool.true_and]
  | record name fields ih =>
    rw [equivalent, consistent, ← entriesWithin_self ih, List.nil_append, beq_self_eq_true,
      beq_self_eq_true, Bool.true_and, Bool.true_and]
  | variant type name content ih => simp [equivalent, consistent, ih]
  | float x => exact x.same_refl
  | _ => simp [equivalent, consistent]

theorem itemsConsistent_of_distinctKeys {items : List Node}
    (ih : ∀ n ∈ items, n.distinctKeys = true → n.consistent = true)
    (h : itemsDistinctKeys items = true) : itemsConsistent items = true := by
  induction items with
  | nil => rfl
  | cons n rest hrest =>
    rw [itemsDistinctKeys, Bool.and_eq_true] at h
    rw [itemsConsistent, ih n List.mem_cons_self h.1,
      hrest (fun m hm => ih m (List.mem_cons_of_mem _ hm)) h.2, Bool.and_true]

theorem find?_eq_none_of_nodup {before rest : List (String × Node)} {e : String × Node}
    (h : ((before ++ e :: rest).map (·.1)).Nodup) : find? e.1 before = none := by
  rw [List.map_append, List.nodup_append] at h
  rw [Named.find?_eq_none_iff]
  exact fun hmem => h.2.2 e.1 hmem e.1 (by simp) rfl

theorem entriesConsistent_of_distinctKeys {before rest : List (String × Node)}
    (ih : ∀ e ∈ rest, e.2.distinctKeys = true → e.2.consistent = true)
    (hkeys : ((before ++ rest).map (·.1)).Nodup) (h : entriesDistinctKeys rest = true) :
    entriesConsistent before rest = true := by
  induction rest generalizing before with
  | nil => rfl
  | cons e rest hrest =>
    rw [entriesDistinctKeys, Bool.and_eq_true] at h
    have hnext : entriesConsistent (before ++ [e]) rest = true :=
      hrest (fun a ha => ih a (List.mem_cons_of_mem _ ha)) (by simpa using hkeys) h.2
    rw [entriesConsistent, find?_eq_none_of_nodup hkeys, hnext, Bool.and_true]
    exact ih e List.mem_cons_self h.1

theorem consistent_of_distinctKeys {n : Node} (h : n.distinctKeys = true) :
    n.consistent = true := by
  induction n with
  | seq items ih =>
    rw [distinctKeys] at h
    exact itemsConsistent_of_distinctKeys ih h
  | map entries ih =>
    rw [distinctKeys, Bool.and_eq_true, decide_eq_true_iff] at h
    exact entriesConsistent_of_distinctKeys ih h.1 h.2
  | record name fields ih =>
    rw [distinctKeys, Bool.and_eq_true, decide_eq_true_iff] at h
    exact entriesConsistent_of_distinctKeys ih h.1 h.2
  | variant type name content ih =>
    rw [distinctKeys] at h
    exact ih h
  | _ => rfl

end TestBench.Diff.Node
