import TestBench.Diff.Formatters
import TestBench.Proofs.Diff.Canonical
import TestBench.Proofs.Parts

/-! Dropping fields from a tree that is there already. It keeps equivalent trees equivalent, and of
two that are equivalent it makes both zero or neither. -/
namespace TestBench.Diff
open Named

namespace Node

mutual

/-- The tree that is left when fields are dropped, from the inside out. -/
def prune (o : Options) : Node → Node
  | .seq items => .seq (pruneItems o items)
  | .map entries => .map (pruneEntries o entries)
  | .record name fields => o.select name (pruneEntries o fields)
  | .variant type name content => .variant type name (prune o content)
  | n => n

def pruneItems (o : Options) : List Node → List Node
  | [] => []
  | item :: rest => prune o item :: pruneItems o rest

def pruneEntries (o : Options) : List (String × Node) → List (String × Node)
  | [] => []
  | (key, node) :: rest => (key, prune o node) :: pruneEntries o rest

end

/-- Whether this is not a formatted text, nor a record that holds a field twice. -/
def regular : Node → Bool
  | .record _ fields => decide (fields.map (·.1)).Nodup
  | .formatted .. => false
  | _ => true

variable {o p : Options}

theorem pruneItems_eq_map (items : List Node) : pruneItems o items = items.map (prune o) := by
  induction items with
  | nil => rfl
  | cons n rest ih => rw [pruneItems, ih, List.map_cons]

theorem pruneEntries_eq_map (entries : List (String × Node)) :
    pruneEntries o entries = entries.map fun e => (e.1, e.2.prune o) := by
  induction entries with
  | nil => rfl
  | cons e rest ih => rw [pruneEntries, ih, List.map_cons]

theorem find?_pruneEntries (key : String) (entries : List (String × Node)) :
    find? key (pruneEntries o entries) = (find? key entries).map (prune o) := by
  induction entries with
  | nil => rfl
  | cons e rest ih =>
    rw [pruneEntries, find?_cons, find?_cons, ih]
    split <;> rfl

theorem allZero_iff {fields : List (String × Node)} :
    allZero fields = true ↔ ∀ f ∈ fields, f.2.isZero = true := by
  induction fields with
  | nil => simp [allZero]
  | cons f rest ih => simp [allZero, ih]

/-- A zero value stays zero when fields are dropped in it. -/
theorem isZero_prune {n : Node} (h : n.isZero = true) : (n.prune o).isZero = true := by
  induction n with
  | seq items =>
    rw [isZero, List.isEmpty_iff] at h
    rw [h]
    rfl
  | map entries =>
    rw [isZero, List.isEmpty_iff] at h
    rw [h]
    rfl
  | record name fields ih =>
    rw [isZero, allZero_iff] at h
    rw [prune, Options.select, isZero, allZero_iff, pruneEntries_eq_map]
    intro f hf
    obtain ⟨e, he, rfl⟩ := List.mem_map.mp (List.mem_filter.mp hf).1
    exact ih e he (h e he)
  | variant type name content => cases h
  | _ => exact h

/-- The entries of two lists as they are held against each other. -/
theorem exists_matching {R : String × Node → String × Node → Prop}
    {as bs : List (String × Node)} (has : (as.map (·.1)).Nodup) (hlen : as.length = bs.length)
    (h : ∀ a ∈ as, ∃ b ∈ bs, a.1 = b.1 ∧ R a b) :
    ∃ matched, matched.Perm bs ∧ List.Forall₂ (fun a b => a.1 = b.1 ∧ R a b) as matched := by
  have hchosen : ∃ matched, matched ⊆ bs ∧
      List.Forall₂ (fun a b => a.1 = b.1 ∧ R a b) as matched := by
    clear has hlen
    induction as with
    | nil => exact ⟨[], List.nil_subset _, .nil⟩
    | cons a rest ih =>
      rw [List.forall_mem_cons] at h
      obtain ⟨b, hb, hab⟩ := h.1
      obtain ⟨matched, hsub, hall⟩ := ih h.2
      exact ⟨b :: matched, List.cons_subset.mpr ⟨hb, hsub⟩, .cons hab hall⟩
  obtain ⟨matched, hsub, hall⟩ := hchosen
  have hnames : matched.map (·.1) = as.map (·.1) := by
    rw [eq_comm, ← List.forall₂_eq_eq_eq, List.forall₂_map_left_iff, List.forall₂_map_right_iff]
    exact hall.imp fun _ _ hab => hab.1
  have hnodup : matched.Nodup := List.Nodup.of_map _ (hnames ▸ has)
  have hlength : bs.length ≤ matched.length := by rw [← hall.length_eq, hlen]
  exact ⟨matched, (List.Nodup.subperm hnodup hsub).perm_of_length_le hlength, hall⟩

theorem exists_of_forall₂ {α β : Type} {R : α → β → Prop} {as : List α} {bs : List β} {a : α}
    (h : List.Forall₂ R as bs) (ha : a ∈ as) : ∃ b ∈ bs, R a b := by
  induction h with
  | nil => cases ha
  | cons hab _ ih =>
    rcases List.mem_cons.mp ha with rfl | ha
    · exact ⟨_, List.mem_cons_self, hab⟩
    · obtain ⟨b, hb, hR⟩ := ih ha
      exact ⟨b, List.mem_cons_of_mem _ hb, hR⟩

/-- Fields that agree one by one make equivalent records, both zero or neither. -/
theorem record_equivalent_of_matching {name : String} {as bs matched : List (String × Node)}
    (hbs : (bs.map (·.1)).Nodup) (hperm : matched.Perm bs)
    (h : List.Forall₂ (fun a b => a.1 = b.1 ∧ a.2.equivalent b.2 = true ∧
      a.2.isZero = b.2.isZero) as matched) :
    (Node.record name as).equivalent (.record name bs) = true ∧
      (Node.record name as).isZero = (Node.record name bs).isZero := by
  constructor
  · rw [equivalent, beq_self_eq_true, Bool.true_and, Bool.and_eq_true, beq_iff_eq,
      entriesWithin_iff]
    refine ⟨h.length_eq.trans hperm.length_eq, fun a ha => ?_⟩
    obtain ⟨b, hb, hname, hab, -⟩ := exists_of_forall₂ h ha
    exact ⟨b.2, (find?_eq_some_iff_mem hbs).mpr (hname ▸ hperm.mem_iff.mp hb), hab⟩
  · have hzero : (∀ a ∈ as, a.2.isZero = true) ↔ ∀ b ∈ matched, b.2.isZero = true := by
      clear hbs hperm
      induction h with
      | nil => exact Iff.rfl
      | cons hab _ ih => rw [List.forall_mem_cons, List.forall_mem_cons, hab.2.2, ih]
    rw [isZero, isZero, Bool.eq_iff_iff, allZero_iff, allZero_iff, hzero]
    exact forall_congr' fun b => by rw [hperm.mem_iff]

/-- What a comparison finds in the entries that agree. -/
theorem exists_of_entriesWithin {as bs : List (String × Node)} (h : entriesWithin as bs = true)
    {a : String × Node} (ha : a ∈ as) :
    ∃ b ∈ bs, a.1 = b.1 ∧ a.2.equivalent b.2 = true := by
  obtain ⟨b, hb, hab⟩ := entriesWithin_iff.mp h a ha
  exact ⟨(a.1, b), mem_of_find?_eq_some hb, rfl, hab⟩

theorem isEmpty_eq {α β : Type} {as : List α} {bs : List β} (h : as.length = bs.length) :
    as.isEmpty = bs.isEmpty := by
  rw [Bool.eq_iff_iff, List.isEmpty_iff_length_eq_zero, List.isEmpty_iff_length_eq_zero, h]

/-- Dropping fields keeps equivalent trees equivalent, and zero or not alike. -/
theorem equivalent_prune {a b : Node} (ha : ∀ n ∈ a.parts, n.regular = true)
    (hb : ∀ n ∈ b.parts, n.regular = true) (h : a.equivalent b = true) :
    (a.prune o).equivalent (b.prune o) = true ∧ (a.prune o).isZero = (b.prune o).isZero := by
  induction a generalizing b with
  | seq as ih =>
    cases b with
    | seq bs =>
      rw [parts, List.forall_mem_cons, forall_partsOfItems_iff] at ha hb
      rw [equivalent, itemsEquivalent_iff] at h
      rw [prune, prune, equivalent, itemsEquivalent_iff, pruneItems_eq_map, pruneItems_eq_map,
        List.forall₂_map_left_iff, List.forall₂_map_right_iff, isZero, isZero,
        List.isEmpty_map, List.isEmpty_map]
      refine ⟨?_, isEmpty_eq h.length_eq⟩
      rw [List.forall₂_iff_zip] at h ⊢
      refine ⟨h.1, fun hab => ?_⟩
      have hmem := List.of_mem_zip hab
      exact (ih _ hmem.1 (ha.2 _ hmem.1) (hb.2 _ hmem.2) (h.2 hab)).1
    | _ => cases h
  | map as ih =>
    cases b with
    | map bs =>
      rw [parts, List.forall_mem_cons, forall_partsOfEntries_iff] at ha hb
      rw [equivalent, Bool.and_eq_true, beq_iff_eq] at h
      have hlen : (pruneEntries o as).length = (pruneEntries o bs).length := by
        rw [pruneEntries_eq_map, pruneEntries_eq_map, List.length_map, List.length_map, h.1]
      rw [prune, prune, equivalent, Bool.and_eq_true, beq_iff_eq, entriesWithin_iff, isZero, isZero]
      refine ⟨⟨hlen, ?_⟩, isEmpty_eq hlen⟩
      rw [pruneEntries_eq_map, List.forall_mem_map]
      intro a hmem
      obtain ⟨b, hfind, hab⟩ := entriesWithin_iff.mp h.2 a hmem
      have hb' := hb.2 _ (mem_of_find?_eq_some hfind)
      refine ⟨b.prune o, ?_, (ih a hmem (ha.2 a hmem) hb' hab).1⟩
      rw [find?_pruneEntries, hfind, Option.map_some]
    | _ => cases h
  | record name as ih =>
    cases b with
    | record other bs =>
      rw [parts, List.forall_mem_cons, forall_partsOfEntries_iff] at ha hb
      rw [equivalent, Bool.and_eq_true, beq_iff_eq, Bool.and_eq_true, beq_iff_eq] at h
      obtain ⟨rfl, hlen, hwithin⟩ := h
      have has : (as.map (·.1)).Nodup := of_decide_eq_true ha.1
      have hbs : (bs.map (·.1)).Nodup := of_decide_eq_true hb.1
      obtain ⟨matched, hperm, hall⟩ := exists_matching has hlen fun a hmem => by
        obtain ⟨b, hb', hname, hab⟩ := exists_of_entriesWithin hwithin hmem
        exact ⟨b, hb', hname, ih a hmem (ha.2 a hmem) (hb.2 b hb') hab⟩
      -- the fields that are kept agree as well, since what decides it agrees
      let pruned (e : String × Node) : String × Node := (e.1, e.2.prune o)
      have hpruned : List.Forall₂ (fun a b => a.1 = b.1 ∧ a.2.equivalent b.2 = true ∧
          a.2.isZero = b.2.isZero) (as.map pruned) (matched.map pruned) := by
        rw [List.forall₂_map_left_iff, List.forall₂_map_right_iff]
        exact hall
      have hkept := List.rel_filter (p := fun e => o.keeps e.1 e.2)
        (q := fun e => o.keeps e.1 e.2)
        (fun a b hab => by simp only [Options.keeps, hab.1, hab.2.2]) hpruned
      rw [prune, prune, Options.select, Options.select, pruneEntries_eq_map, pruneEntries_eq_map]
      have hnames : ((bs.map pruned).map (·.1)).Nodup := by rwa [List.map_map]
      exact record_equivalent_of_matching (hnames.sublist (List.filter_sublist.map _))
        ((hperm.map pruned).filter _) hkept
    | _ => cases h
  | variant type name content ih =>
    cases b with
    | variant otherType other inner =>
      rw [parts, List.forall_mem_cons] at ha hb
      rw [equivalent, Bool.and_eq_true, Bool.and_eq_true] at h
      refine ⟨?_, rfl⟩
      rw [prune, prune, equivalent, Bool.and_eq_true, Bool.and_eq_true]
      exact ⟨h.1, h.2.1, (ih ha.2 hb.2 h.2.2).1⟩
    | _ => cases h
  | formatted name text zero => cases ha _ (self_mem_parts _)
  | int n =>
    cases b with
    | int m =>
      rw [equivalent, beq_iff_eq] at h
      subst h
      exact ⟨by simp [prune, equivalent], rfl⟩
    | float y => exact ⟨h, (Binary.isZero_of_toInt? (by simpa [equivalent] using h)).symm⟩
    | _ => cases h
  | float x =>
    cases b with
    | int m => exact ⟨h, Binary.isZero_of_toInt? (by simpa [equivalent] using h)⟩
    | float y => exact ⟨h, Binary.isZero_of_same h⟩
    | _ => cases h
  | _ =>
    clear ha hb
    cases b <;> simp_all [prune, equivalent]

end Node
end TestBench.Diff
