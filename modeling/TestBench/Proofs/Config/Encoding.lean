import TestBench.Config.Shape
import TestBench.Proofs.Config.Entries

/-! Encoding values as configuration trees. Entries are put one after the other, so that no map of
an encoded tree holds a key twice; and what can be encoded has a shape. -/
namespace TestBench

theorem bind_eq_ok {ε α β : Type} {x : Except ε α} {f : α → Except ε β} {b : β} :
    (x >>= f) = .ok b ↔ ∃ a, x = .ok a ∧ f a = .ok b := by
  cases x <;> simp [bind, Except.bind]

namespace Config
namespace Tree

theorem exists_of_mem_ofItems {values : List Value} {items : List Tree} {t : Tree}
    (h : ofItems values = .ok items) (ht : t ∈ items) : ∃ v ∈ values, ofValue v = .ok t := by
  induction values generalizing items with
  | nil =>
    cases h
    cases ht
  | cons v rest ih =>
    obtain ⟨item, hitem, h⟩ := bind_eq_ok.mp h
    obtain ⟨items, hitems, h⟩ := bind_eq_ok.mp h
    cases h
    rcases List.mem_cons.mp ht with rfl | ht
    · exact ⟨v, List.mem_cons_self, hitem⟩
    · obtain ⟨w, hw, hwt⟩ := ih hitems ht
      exact ⟨w, List.mem_cons_of_mem _ hw, hwt⟩

/-- Encoding keeps putting entries of encoded keys and values. -/
theorem ofEntries_invariant {P : List (Tree × Tree) → Prop} {values : List (Value × Value)}
    {done entries : List (Tree × Tree)} (hdone : P done)
    (hput : ∀ e ∈ values, ∀ done key value, P done → ofValue e.1 = .ok key →
      ofValue e.2 = .ok value → P (put key value done))
    (h : ofEntries done values = .ok entries) : P entries := by
  induction values generalizing done with
  | nil =>
    cases h
    exact hdone
  | cons e rest ih =>
    rw [ofEntries, bind_eq_ok] at h
    obtain ⟨key, hkey, h⟩ := h
    obtain ⟨value, hvalue, h⟩ := bind_eq_ok.mp h
    exact ih (hput e List.mem_cons_self done key value hdone hkey hvalue)
      (fun e he => hput e (List.mem_cons_of_mem _ he)) h

/-- Fields are encoded as entries under their names. -/
theorem ofFields_eq_ofEntries (done : List (Tree × Tree)) (fields : List (String × Value)) :
    ofFields done fields = ofEntries done (fields.map fun f => (.text f.1, f.2)) := by
  induction fields generalizing done with
  | nil => rfl
  | cons f rest ih =>
    rw [List.map_cons, ofFields, ofEntries, ofValue]
    cases ofValue f.2 with
    | error e => rfl
    | ok value => exact ih (put (.text f.1) value done)

theorem ofInt_distinct (n : Int) : (ofInt n).distinct = true := by
  rw [ofInt]
  split <;> rfl

theorem ofItems_distinct {values : List Value} {items : List Tree}
    (ih : ∀ v ∈ values, ∀ t, ofValue v = .ok t → t.distinct = true)
    (h : ofItems values = .ok items) : (Tree.list items).distinct = true := by
  rw [distinct_list_iff]
  intro t ht
  obtain ⟨v, hv, hvt⟩ := exists_of_mem_ofItems h ht
  exact ih v hv t hvt

theorem ofEntries_distinct {values : List (Value × Value)} {entries : List (Tree × Tree)}
    (hkey : ∀ e ∈ values, ∀ t, ofValue e.1 = .ok t → t.distinct = true)
    (hvalue : ∀ e ∈ values, ∀ t, ofValue e.2 = .ok t → t.distinct = true)
    (h : ofEntries [] values = .ok entries) : (Tree.map entries).distinct = true :=
  ofEntries_invariant (P := fun entries => (Tree.map entries).distinct = true) rfl
    (fun e he _ key value hdone hk hv =>
      distinct_put hdone (hkey e he key hk) (hvalue e he value hv)) h

theorem ofFields_distinct {fields : List (String × Value)} {entries : List (Tree × Tree)}
    (ih : ∀ f ∈ fields, ∀ t, ofValue f.2 = .ok t → t.distinct = true)
    (h : ofFields [] fields = .ok entries) : (Tree.map entries).distinct = true := by
  rw [ofFields_eq_ofEntries] at h
  refine ofEntries_distinct ?_ ?_ h
  · intro e he t ht
    obtain ⟨f, -, rfl⟩ := List.mem_map.mp he
    cases ht
    rfl
  · intro e he t ht
    obtain ⟨f, hf, rfl⟩ := List.mem_map.mp he
    exact ih f hf t ht

/-- No map of an encoded value holds a key twice. -/
theorem ofValue_distinct {v : Value} {t : Tree} (h : ofValue v = .ok t) : t.distinct = true := by
  induction v generalizing t with
  | int n =>
    cases h
    exact ofInt_distinct n
  | bytes data =>
    cases h
    rw [distinct_list_iff]
    intro t ht
    obtain ⟨b, -, rfl⟩ := List.mem_map.mp ht
    rfl
  | list values ih =>
    obtain ⟨items, hitems, ht⟩ := bind_eq_ok.mp h
    cases ht
    exact ofItems_distinct (fun v hv _ => ih v hv) hitems
  | tuple name values ih =>
    obtain ⟨items, hitems, ht⟩ := bind_eq_ok.mp h
    cases ht
    exact ofItems_distinct (fun v hv _ => ih v hv) hitems
  | map values ih =>
    obtain ⟨entries, hentries, ht⟩ := bind_eq_ok.mp h
    cases ht
    exact ofEntries_distinct (fun e he _ => (ih e he).1) (fun e he _ => (ih e he).2) hentries
  | record name fields ih =>
    obtain ⟨entries, hentries, ht⟩ := bind_eq_ok.mp h
    cases ht
    exact ofFields_distinct (fun f hf _ => ih f hf) hentries
  | wrapper name inner ih => exact ih h
  | wrapperCase type variant inner ih =>
    obtain ⟨tag, -, h⟩ := bind_eq_ok.mp h
    obtain ⟨inner, hinner, ht⟩ := bind_eq_ok.mp h
    cases ht
    rw [distinct]
    exact ih hinner
  | tupleCase type variant values ih =>
    obtain ⟨tag, -, h⟩ := bind_eq_ok.mp h
    obtain ⟨items, hitems, ht⟩ := bind_eq_ok.mp h
    cases ht
    exact ofItems_distinct (fun v hv _ => ih v hv) hitems
  | recordCase type variant fields ih =>
    obtain ⟨tag, -, h⟩ := bind_eq_ok.mp h
    obtain ⟨entries, hentries, ht⟩ := bind_eq_ok.mp h
    cases ht
    exact ofFields_distinct (fun f hf _ => ih f hf) hentries
  | tagged tag inner ih =>
    obtain ⟨inner, hinner, ht⟩ := bind_eq_ok.mp h
    cases ht
    rw [distinct]
    exact ih hinner
  | broken message => cases h
  | keyless inner => cases h
  | _ =>
    cases h
    rfl

end Tree

namespace Shape

/-- Fields have shapes when their values can be encoded. -/
theorem ofFields_ok {fields : List (String × Value)} {done entries : List (Tree × Tree)}
    (ih : ∀ f ∈ fields, ∀ t, Tree.ofValue f.2 = .ok t → ∃ shape, ofValue f.2 = .ok shape)
    (h : Tree.ofFields done fields = .ok entries) : ∃ shapes, ofFields fields = .ok shapes := by
  induction fields generalizing done with
  | nil => exact ⟨[], rfl⟩
  | cons f rest hrest =>
    obtain ⟨value, hvalue, h⟩ := bind_eq_ok.mp h
    obtain ⟨shape, hshape⟩ := ih f List.mem_cons_self value hvalue
    obtain ⟨shapes, hshapes⟩ := hrest (fun f hf => ih f (List.mem_cons_of_mem _ hf)) h
    exact ⟨(f.1, shape) :: shapes, by rw [ofFields, hshape, hshapes]; rfl⟩

theorem ofEntries_ok {values : List (Value × Value)} {done entries : List (Tree × Tree)}
    (ih : ∀ e ∈ values, ∀ t, Tree.ofValue e.2 = .ok t → ∃ shape, ofValue e.2 = .ok shape)
    (h : Tree.ofEntries done values = .ok entries) :
    ∃ shapes, ofEntries values = .ok shapes := by
  induction values generalizing done with
  | nil => exact ⟨[], rfl⟩
  | cons e rest hrest =>
    obtain ⟨key, hkey, h⟩ := bind_eq_ok.mp h
    obtain ⟨value, hvalue, h⟩ := bind_eq_ok.mp h
    obtain ⟨shape, hshape⟩ := ih e List.mem_cons_self value hvalue
    obtain ⟨shapes, hshapes⟩ := hrest (fun e he => ih e (List.mem_cons_of_mem _ he)) h
    exact ⟨(key, shape) :: shapes, by rw [ofEntries, hkey, hshape, hshapes]; rfl⟩

/-- What can be encoded has a shape. -/
theorem ofValue_ok {v : Value} {t : Tree} (h : Tree.ofValue v = .ok t) :
    ∃ shape, ofValue v = .ok shape := by
  induction v generalizing t with
  | map values ih =>
    obtain ⟨entries, hentries, -⟩ := bind_eq_ok.mp h
    obtain ⟨shapes, hshapes⟩ := ofEntries_ok (fun e he _ => (ih e he).2) hentries
    exact ⟨.map shapes, by rw [ofValue, hshapes]; rfl⟩
  | record name fields ih =>
    obtain ⟨entries, hentries, -⟩ := bind_eq_ok.mp h
    obtain ⟨shapes, hshapes⟩ := ofFields_ok (fun f hf _ => ih f hf) hentries
    exact ⟨.record shapes, by rw [ofValue, hshapes]; rfl⟩
  | wrapper name inner ih => exact ih h
  | wrapperCase type variant inner ih =>
    obtain ⟨tag, -, h⟩ := bind_eq_ok.mp h
    obtain ⟨_, hinner, -⟩ := bind_eq_ok.mp h
    obtain ⟨shape, hshape⟩ := ih hinner
    exact ⟨.variant shape, by rw [ofValue, hshape]; rfl⟩
  | recordCase type variant fields ih =>
    obtain ⟨tag, -, h⟩ := bind_eq_ok.mp h
    obtain ⟨entries, hentries, -⟩ := bind_eq_ok.mp h
    obtain ⟨shapes, hshapes⟩ := ofFields_ok (fun f hf _ => ih f hf) hentries
    exact ⟨.variant (.record shapes), by rw [ofValue, hshapes]; rfl⟩
  | tagged tag inner ih =>
    obtain ⟨_, hinner, -⟩ := bind_eq_ok.mp h
    obtain ⟨shape, hshape⟩ := ih hinner
    exact ⟨.map [(.text (Tag.shown tag), shape)], by rw [ofValue, hshape]; rfl⟩
  | broken message => cases h
  | keyless inner => cases h
  | _ => exact ⟨_, rfl⟩

end Shape
end Config
end TestBench
