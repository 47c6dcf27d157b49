import TestBench.Proofs.Config.Nulls
import TestBench.Proofs.Config.SelfMerge

/-! What a source adds to a map, when its keys may stand for one another. The entries it adds can as
well be in the map before the merge; then every key of the source is found there, and each value of
the map is merged with what reaches its key, one after the other. -/
namespace TestBench.Config
open Config.Tree

/-- The entries of a source that go to the end of a map, as they are when they get there. -/
def freshEntries (loose : Bool) (own : List (Tree × Tree)) :
    List (Tree × Tree) → List (Tree × Tree)
  | [] => []
  | e :: rest =>
    match findKey loose own e.1 with
    | some _ => freshEntries loose own rest
    | none => e :: freshEntries loose (own ++ [e]) rest

/-- What a source has under the keys that stand for one key of a map. -/
def reaching (loose : Bool) (own src : List (Tree × Tree)) (key : Tree) : List Tree :=
  (src.filter fun e => reaches loose own e.1 key).map (·.2)

/-- Sources merged one after the other. -/
def mergeAll (o : MergeOptions) (shape : Shape) (dest : Tree) (srcs : List Tree) : Tree :=
  srcs.foldl (merge o shape) dest

variable {o : MergeOptions} {shape : Shape} {loose : Bool} {own more src : List (Tree × Tree)}
  {e : Tree × Tree} {key target : Tree}

/-- A key that is found is found in a longer map as well. -/
theorem isSome_findKey_append (h : (findKey loose own key).isSome = true) :
    (findKey loose (own ++ more) key).isSome = true := by
  rw [findKey_eq] at h ⊢
  rw [List.map_append, List.any_append]
  split at h
  next hany => simp [hany]
  next =>
    split
    · rfl
    · cases loose with
      | false => cases h
      | true =>
        obtain ⟨target, htarget⟩ := Option.isSome_iff_exists.mp h
        obtain ⟨name, hname, hfind⟩ := Option.bind_eq_some_iff.mp htarget
        rw [looseKey?, if_pos rfl, hname, Option.bind_some, List.find?_append, hfind,
          Option.some_or, Option.isSome_some]

theorem findKey_eq_none_of_append (h : findKey loose (own ++ more) key = none) :
    findKey loose own key = none := by
  cases hfind : findKey loose own key with
  | none => rfl
  | some target =>
    have hsome : (findKey loose (own ++ more) key).isSome = true :=
      isSome_findKey_append (Option.isSome_iff_exists.mpr ⟨_, hfind⟩)
    rw [h] at hsome
    cases hsome

/-- It even stands for the same key, unless it is itself among the keys behind. -/
theorem findKey_append_of_eq_some (h : findKey loose own key = some target)
    (hmore : ∀ d ∈ more, d.1.same key = false) : findKey loose (own ++ more) key = some target := by
  have hnone : (more.map (·.1)).any (·.same key) = false := by simpa using hmore
  rw [findKey_eq] at h ⊢
  rw [List.map_append, List.any_append, hnone, Bool.or_false]
  split at h
  next hany => rw [if_pos hany, h]
  next hany =>
    rw [if_neg hany]
    cases loose with
    | false => cases h
    | true =>
      obtain ⟨name, hname, hfind⟩ := Option.bind_eq_some_iff.mp h
      rw [looseKey?, if_pos rfl, hname, Option.bind_some, List.find?_append, hfind, Option.some_or]

section Fresh

theorem freshEntries_congr {own' : List (Tree × Tree)} (h : own.map (·.1) = own'.map (·.1))
    (loose : Bool) (src : List (Tree × Tree)) :
    freshEntries loose own src = freshEntries loose own' src := by
  induction src generalizing own own' with
  | nil => rfl
  | cons e rest ih =>
    have hlonger : (own ++ [e]).map (·.1) = (own' ++ [e]).map (·.1) := by simp [h]
    rw [freshEntries, freshEntries, findKey_congr h, ih h, ih hlonger]

theorem mem_of_mem_freshEntries (h : e ∈ freshEntries loose own src) :
    e ∈ src ∧ findKey loose own e.1 = none := by
  induction src generalizing own with
  | nil => cases h
  | cons d rest ih =>
    rw [freshEntries] at h
    split at h
    next => exact (ih h).imp_left (List.mem_cons_of_mem _)
    next hnone =>
      rcases List.mem_cons.mp h with rfl | h
      · exact ⟨List.mem_cons_self, hnone⟩
      · obtain ⟨hmem, hfind⟩ := ih h
        exact ⟨List.mem_cons_of_mem _ hmem, findKey_eq_none_of_append hfind⟩

/-- With the entries that a source adds, all of its keys are found. -/
theorem isSome_findKey_fresh (h : e ∈ src) :
    (findKey loose (own ++ freshEntries loose own src) e.1).isSome = true := by
  induction src generalizing own with
  | nil => cases h
  | cons d rest ih =>
    rw [freshEntries]
    cases hfind : findKey loose own d.1 with
    | some target =>
      rcases List.mem_cons.mp h with rfl | h
      · exact isSome_findKey_append (Option.isSome_iff_exists.mpr ⟨_, hfind⟩)
      · exact ih h
    | none =>
      rcases List.mem_cons.mp h with rfl | h
      · simp [findKey]
      · rw [List.append_cons]
        exact ih h

theorem append_singleton_eq_put (h : findKey loose own e.1 = none) :
    own ++ [e] = Tree.put e.1 e.2 own :=
  (put_of_find?_eq_none e.2 (find?_eq_none_iff.mpr (not_same_of_findKey_eq_none h))).symm

theorem distinct_append_fresh (hown : (Tree.map own).distinct = true)
    (hsrc : ∀ e ∈ src, e.1.distinct = true ∧ e.2.distinct = true) :
    (Tree.map (own ++ freshEntries loose own src)).distinct = true := by
  induction src generalizing own with
  | nil => rwa [freshEntries, List.append_nil]
  | cons e rest ih =>
    rw [List.forall_mem_cons] at hsrc
    rw [freshEntries]
    cases hfind : findKey loose own e.1 with
    | some target => exact ih hown hsrc.2
    | none =>
      rw [List.append_cons]
      refine ih ?_ hsrc.2
      rw [append_singleton_eq_put hfind]
      exact distinct_put hown hsrc.1.1 hsrc.1.2

end Fresh

section Found

/-- The keys of a map: no two of them are equal, and neither are keys inside of one. -/
structure KeysDistinct (keys : List Tree) : Prop where
  apart : keys.Pairwise fun a b => b.same a = false
  parts : ∀ k ∈ keys, k.distinct = true

theorem keysDistinct_of_map (h : (Tree.map own).distinct = true) :
    KeysDistinct (own.map (·.1)) := by
  obtain ⟨hkeys, hparts⟩ := distinct_map_iff.mp h
  exact ⟨List.pairwise_map.mpr hkeys, List.forall_mem_map.mpr fun d hd => (hparts d hd).1⟩

/-- An entry of a map after a source entry that may reach its key. -/
def reached (o : MergeOptions) (shape : Shape) (own : List (Tree × Tree)) (e d : Tree × Tree) :
    Tree × Tree :=
  (d.1, if reaches (o.loose shape) own e.1 d.1 then merge o (shape.child d.1) d.2 e.2 else d.2)

/-- A source entry whose key is found changes the value under that key and nothing else. -/
theorem mergeEntry_of_found (hown : KeysDistinct (own.map (·.1))) (he : e.1.distinct = true)
    (hfind : findKey (o.loose shape) own e.1 = some target) :
    mergeEntry o shape own e = own.map (reached o shape own e) := by
  have hkeys := List.pairwise_map.mp hown.apart
  have hparts : ∀ d ∈ own, d.1.distinct = true := List.forall_mem_map.mp hown.parts
  have htarget : target.distinct = true := findKey_distinct he hparts hfind
  rw [mergeEntry, hfind, Option.getD_some, put_of_mem _ hkeys hparts (exists_same_findKey hfind)]
  refine List.map_congr_left fun d hd => ?_
  by_cases hsame : d.1.same target = true
  · have hback := same_symm (hparts d hd) hsame
    have hreach : reaches (o.loose shape) own e.1 d.1 = true := reaches_iff.mpr ⟨_, hfind, hback⟩
    rw [if_pos hsame, reached, if_pos hreach, find?_eq_of_mem hkeys hd hparts hsame,
      child_congr hsame hback]
  · have hreach : ¬reaches (o.loose shape) own e.1 d.1 = true := by
      rw [reaches_iff]
      rintro ⟨t, ht, hts⟩
      rw [hfind, Option.some_inj] at ht
      exact hsame (same_symm htarget (ht ▸ hts))
    rw [if_neg hsame, reached, if_neg hreach]

theorem reaches_congr {own' : List (Tree × Tree)} (h : own.map (·.1) = own'.map (·.1))
    (loose : Bool) (key ownKey : Tree) :
    reaches loose own key ownKey = reaches loose own' key ownKey := by
  rw [reaches, reaches, findKey_congr h]

/-- An entry of a map after all that reaches its key. -/
def reachedByAll (o : MergeOptions) (shape : Shape) (own src : List (Tree × Tree))
    (d : Tree × Tree) : Tree × Tree :=
  (d.1, mergeAll o (shape.child d.1) d.2 (reaching (o.loose shape) own src d.1))

theorem reachedByAll_congr {own' : List (Tree × Tree)} (h : own.map (·.1) = own'.map (·.1))
    (src : List (Tree × Tree)) (d : Tree × Tree) :
    reachedByAll o shape own src d = reachedByAll o shape own' src d := by
  simp only [reachedByAll, reaching, reaches_congr h]

theorem reachedByAll_cons (own src : List (Tree × Tree)) (e d : Tree × Tree) :
    reachedByAll o shape own (e :: src) d =
      reachedByAll o shape own src (reached o shape own e d) := by
  rw [reachedByAll, reachedByAll, reached, reaching, reaching, List.filter_cons]
  split <;> rfl

/-- Where all keys of a source are found, every value is merged with what reaches its key. -/
theorem mergeEntries_of_found (hown : KeysDistinct (own.map (·.1)))
    (hsrc : ∀ e ∈ src, e.1.distinct = true)
    (hfound : ∀ e ∈ src, (findKey (o.loose shape) own e.1).isSome = true) :
    mergeEntries o shape own src = own.map (reachedByAll o shape own src) := by
  rw [mergeEntries_eq_foldl]
  induction src generalizing own with
  | nil => exact (List.map_id own).symm
  | cons e rest ih =>
    rw [List.forall_mem_cons] at hsrc hfound
    obtain ⟨target, hfind⟩ := Option.isSome_iff_exists.mp hfound.1
    have hkeys : (own.map (reached o shape own e)).map (·.1) = own.map (·.1) := by
      rw [List.map_map]
      rfl
    have hrest : ∀ d ∈ rest,
        (findKey (o.loose shape) (own.map (reached o shape own e)) d.1).isSome = true :=
      fun d hd => findKey_congr hkeys _ d.1 ▸ hfound.2 d hd
    rw [List.foldl_cons, mergeEntry_of_found hown hsrc.1 hfind, ih (hkeys ▸ hown) hsrc.2 hrest,
      List.map_map]
    refine List.map_congr_left fun d _ => ?_
    rw [Function.comp_apply, reachedByAll_congr hkeys, reachedByAll_cons]

end Found

/-- Entries behind a map stay out of what a source entry does to it, unless they have its key. -/
theorem mergeEntry_append (hfind : findKey (o.loose shape) own e.1 = some target)
    (hmore : ∀ d ∈ more, d.1.same e.1 = false) :
    mergeEntry o shape (own ++ more) e = mergeEntry o shape own e ++ more := by
  obtain ⟨existing, hexisting⟩ := exists_of_findKey hfind
  rw [mergeEntry, mergeEntry, findKey_append_of_eq_some hfind hmore, hfind, Option.getD_some,
    find?_append, hexisting, Option.some_or, put_append_of_mem _ (exists_same_findKey hfind)]

theorem keys_mergeEntry (hfind : findKey (o.loose shape) own e.1 = some target) :
    (mergeEntry o shape own e).map (·.1) = own.map (·.1) := by
  obtain ⟨existing, hexisting⟩ := exists_of_findKey hfind
  rw [mergeEntry, hfind, Option.getD_some]
  refine (keys_put target _ own).resolve_right fun h => ?_
  rw [hexisting] at h
  cases h.1

/-- A key that a map does not know is none of those that it knows. -/
theorem not_same_of_findKey {other : Tree} (hother : other.distinct = true)
    (hnone : findKey loose own other = none) (hfind : findKey loose own key = some target) :
    other.same key = false := by
  rw [Bool.eq_false_iff]
  intro hsame
  have hrel := findKey_rel loose own hsame (same_symm hother hsame)
  rw [hnone, hfind] at hrel
  cases hrel

/-- It does not matter whether the entries that a source adds are there before it is merged: what is
merged with itself stays as it is. -/
theorem mergeEntries_append_fresh (hw : o.weaklyTyped = false)
    (hsrc : ∀ e ∈ src, e.1.distinct = true ∧ e.2.distinct = true) :
    mergeEntries o shape (own ++ freshEntries (o.loose shape) own src) src =
      mergeEntries o shape own src := by
  simp only [mergeEntries_eq_foldl]
  induction src generalizing own with
  | nil => rw [freshEntries, List.append_nil]
  | cons e rest ih =>
    rw [List.forall_mem_cons] at hsrc
    rw [List.foldl_cons, List.foldl_cons, freshEntries]
    cases hfind : findKey (o.loose shape) own e.1 with
    | some target =>
      have hmore : ∀ d ∈ freshEntries (o.loose shape) own rest, d.1.same e.1 = false := by
        intro d hd
        obtain ⟨hmem, hnone⟩ := mem_of_mem_freshEntries hd
        exact not_same_of_findKey (hsrc.2 d hmem).1 hnone hfind
      rw [mergeEntry_append hfind hmore, ← freshEntries_congr (keys_mergeEntry hfind)]
      exact ih hsrc.2
    | none =>
      have hnew : Tree.find? e.1 own = none :=
        find?_eq_none_iff.mpr (not_same_of_findKey_eq_none hfind)
      have hself :
          mergeEntry o shape (own ++ e :: freshEntries (o.loose shape) (own ++ [e]) rest) e =
            own ++ e :: freshEntries (o.loose shape) (own ++ [e]) rest := by
        rw [mergeEntry_self (not_same_of_findKey_eq_none hfind), selfMerged,
          (merge_self_iff hsrc.1.2).mpr (.inl hw)]
      have hput : mergeEntry o shape own e = own ++ [e] := by
        rw [mergeEntry, hfind, Option.getD_none, hnew, put_of_find?_eq_none _ hnew]
      rw [hself, hput, List.append_cons]
      exact ih hsrc.2

end TestBench.Config
