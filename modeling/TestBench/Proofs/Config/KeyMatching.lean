import TestBench.Config.Merge
import TestBench.Proofs.Config.Entries

/-! Which key of the destination a source key stands for. Whatever it finds has the normal form of
the key it was found for, so keys of different normal forms never meet. -/
namespace TestBench.Config
open Config.Tree

/-- What keys are compared by when case, dashes and underscores do not count. -/
def normalForm (key : Tree) : Tree :=
  match key.text? with
  | some name => .text (normalizeKey name)
  | none => key

theorem normalForm_same {a b : Tree} (h : a.same b = true) :
    (normalForm a).same (normalForm b) = true := by
  unfold normalForm
  rw [← text?_eq_of_same h]
  cases a.text? with
  | none => exact h
  | some name => exact same_refl _

theorem normalForm_distinct {key : Tree} (h : key.distinct = true) :
    (normalForm key).distinct = true := by
  unfold normalForm
  cases key.text? with
  | none => exact h
  | some name => rfl

theorem normalForm_of_text? {key : Tree} {name : String} (h : key.text? = some name) :
    normalForm key = .text (normalizeKey name) := by
  rw [normalForm, h]

/-- Some key that is loosely the one looked for, where such keys count. -/
def looseKey? (loose : Bool) (keys : List Tree) (key : Tree) : Option Tree :=
  if loose then
    key.text?.bind fun name =>
      keys.find? fun k => (k.text?.map normalizeKey) == some (normalizeKey name)
  else none

theorem findKey_eq (loose : Bool) (dest : List (Tree × Tree)) (key : Tree) :
    findKey loose dest key =
      if (dest.map (·.1)).any (·.same key) then some key
      else looseKey? loose (dest.map (·.1)) key := by
  simp only [findKey, looseKey?, List.any_map, Function.comp_def, List.find?_map]

/-- Only the keys of the destination count, not what stands under them. -/
theorem findKey_congr {dest dest' : List (Tree × Tree)} (h : dest.map (·.1) = dest'.map (·.1))
    (loose : Bool) (key : Tree) : findKey loose dest key = findKey loose dest' key := by
  rw [findKey_eq, findKey_eq, h]

theorem looseKey?_some {loose : Bool} {keys : List Tree} {key target : Tree}
    (h : looseKey? loose keys key = some target) :
    target ∈ keys ∧ normalForm target = normalForm key := by
  unfold looseKey? at h
  split at h
  · obtain ⟨name, hname, hfind⟩ := Option.bind_eq_some_iff.mp h
    have htext : target.text?.map normalizeKey = some (normalizeKey name) := by
      simpa using List.find?_some hfind
    obtain ⟨found, hfound, heq⟩ := Option.map_eq_some_iff.mp htext
    exact ⟨List.mem_of_find?_eq_some hfind,
      by rw [normalForm_of_text? hfound, normalForm_of_text? hname, heq]⟩
  · cases h

theorem normalForm_findKey {loose : Bool} {dest : List (Tree × Tree)} {key target : Tree}
    (h : findKey loose dest key = some target) : normalForm target = normalForm key := by
  rw [findKey_eq] at h
  split at h
  · rw [Option.some.inj h]
  · exact (looseKey?_some h).2

/-- A key that is found is in the destination. -/
theorem exists_same_findKey {loose : Bool} {dest : List (Tree × Tree)} {key target : Tree}
    (h : findKey loose dest key = some target) : ∃ e ∈ dest, e.1.same target = true := by
  rw [findKey_eq] at h
  split at h
  next hany =>
    obtain rfl := Option.some.inj h
    simpa using hany
  next =>
    obtain ⟨e, he, rfl⟩ := List.mem_map.mp (looseKey?_some h).1
    exact ⟨e, he, same_refl _⟩

theorem findKey_distinct {loose : Bool} {dest : List (Tree × Tree)} {key target : Tree}
    (hkey : key.distinct = true) (hd : ∀ e ∈ dest, e.1.distinct = true)
    (h : findKey loose dest key = some target) : target.distinct = true := by
  rw [findKey_eq] at h
  split at h
  · exact Option.some.inj h ▸ hkey
  · obtain ⟨e, he, rfl⟩ := List.mem_map.mp (looseKey?_some h).1
    exact hd e he

theorem not_same_of_findKey_eq_none {loose : Bool} {dest : List (Tree × Tree)} {key : Tree}
    (h : findKey loose dest key = none) : ∀ e ∈ dest, e.1.same key = false := by
  rw [findKey_eq] at h
  split at h
  · cases h
  next hany => simpa using hany

/-- Equal keys find equal keys. -/
theorem findKey_rel (loose : Bool) (dest : List (Tree × Tree)) {key other : Tree}
    (hko : key.same other = true) (hok : other.same key = true) :
    Option.Rel (fun s t => s.same t = true ∧ t.same s = true) (findKey loose dest key)
      (findKey loose dest other) := by
  have hany : (dest.map (·.1)).any (·.same key) = (dest.map (·.1)).any (·.same other) :=
    congrArg _ (funext fun t => same_congr_right hko hok t)
  have hloose : looseKey? loose (dest.map (·.1)) key = looseKey? loose (dest.map (·.1)) other := by
    rw [looseKey?, looseKey?, text?_eq_of_same hko]
  rw [findKey_eq, findKey_eq, hany, hloose]
  split
  · exact .some ⟨hko, hok⟩
  · cases looseKey? loose (dest.map (·.1)) other with
    | none => exact .none
    | some t => exact .some ⟨same_refl t, same_refl t⟩

/-- Entries of other normal forms change nothing about what a key finds. -/
theorem findKey_append {loose : Bool} {dest extra : List (Tree × Tree)} {key : Tree}
    (h : ∀ e ∈ extra, (normalForm e.1).same (normalForm key) = false) :
    findKey loose (dest ++ extra) key = findKey loose dest key := by
  have hany : (extra.map (·.1)).any (·.same key) = false := by
    simp only [List.any_map, List.any_eq_false]
    intro e he hsame
    exact Bool.false_ne_true ((h e he).symm.trans (normalForm_same hsame))
  have hloose : looseKey? loose (dest.map (·.1) ++ extra.map (·.1)) key =
      looseKey? loose (dest.map (·.1)) key := by
    unfold looseKey?
    split
    · cases hname : key.text? with
      | none => rfl
      | some name =>
        have hnone : (extra.map (·.1)).find?
            (fun k => (k.text?.map normalizeKey) == some (normalizeKey name)) = none := by
          rw [List.find?_eq_none]
          intro k hk hform
          obtain ⟨e, he, rfl⟩ := List.mem_map.mp hk
          obtain ⟨found, hfound, heq⟩ := Option.map_eq_some_iff.mp (by simpa using hform)
          have hforms : normalForm e.1 = normalForm key := by
            rw [normalForm_of_text? hfound, normalForm_of_text? hname, heq]
          have hfalse := h e he
          rw [hforms, same_refl] at hfalse
          cases hfalse
        simp only [Option.bind_some, List.find?_append, hnone, Option.or_none]
    · rfl
  rw [findKey_eq, findKey_eq, List.map_append, List.any_append, hany, Bool.or_false, hloose]

/-- The shape below a key is that below any equal key. -/
theorem child_congr {a b : Tree} (hab : a.same b = true) (hba : b.same a = true) (shape : Shape) :
    shape.child a = shape.child b := by
  cases shape with
  | map entries => rw [Shape.child, Shape.child, find?_congr hab hba]
  | record fields => simp only [Shape.child, text?_eq_of_same hab]
  | _ => rfl

end TestBench.Config
