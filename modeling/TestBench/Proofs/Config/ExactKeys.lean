import TestBench.Proofs.Config.Places

/-! Merging where no key is found loosely. It does not matter then whether keys are normalised, and
where two maps meet every key of either is a key of the result. -/
namespace TestBench.Config
open Config.Tree

/-- What two maps become when they meet and keys stand for themselves only. -/
structure Joined (o : MergeOptions) (shape : Shape) (own given result : List (Tree × Tree)) :
    Prop where
  /-- the keys of the destination, and behind them those that only the source has -/
  keys : result.map (·.1) =
    own.map (·.1) ++ (given.filter fun e => (Tree.find? e.1 own).isNone).map (·.1)
  kept : ∀ key, Tree.find? key given = none → Tree.find? key result = Tree.find? key own
  added : ∀ key, Tree.find? key own = none → Tree.find? key result = Tree.find? key given
  merged : ∀ key a b, Tree.find? key own = some a → Tree.find? key given = some b →
    Tree.find? key result = some (merge o (shape.child key) a b)

variable {o : MergeOptions} {shape : Shape} {dest src : Tree}

/-- What an entry brings to a map that it is merged into. -/
def broughtIn (o : MergeOptions) (shape : Shape) (own : List (Tree × Tree)) (e : Tree × Tree) :
    Tree :=
  ((Tree.find? e.1 own).map fun a => merge o (shape.child e.1) a e.2).getD e.2

theorem mergeEntry_of_exact (hloose : o.loose shape = false) (own : List (Tree × Tree))
    (e : Tree × Tree) :
    mergeEntry o shape own e = Tree.put e.1 (broughtIn o shape own e) own := by
  have htarget : (findKey false own e.1).getD e.1 = e.1 := by
    unfold findKey
    split <;> rfl
  rw [mergeEntry, hloose, htarget, broughtIn]
  cases Tree.find? e.1 own <;> rfl

theorem keys_put_of_isSome {key value : Tree} {own : List (Tree × Tree)}
    (h : (Tree.find? key own).isNone = false) :
    (Tree.put key value own).map (·.1) = own.map (·.1) := by
  rcases keys_put key value own with hkeys | ⟨hnone, -⟩
  · exact hkeys
  · simp [hnone] at h

theorem keys_distinct_put {key value : Tree} {own : List (Tree × Tree)}
    (hkey : key.distinct = true) (hown : ∀ e ∈ own, e.1.distinct = true) :
    ∀ e ∈ Tree.put key value own, e.1.distinct = true := by
  intro e he
  rcases mem_put he with he | ⟨-, hk | ⟨old, hold⟩⟩
  · exact hown e he
  · exact hk ▸ hkey
  · exact hown (e.1, old) hold

/-- One entry more: it is put first, and what the others are joined with is the map after that. -/
theorem Joined.cons {own rest result : List (Tree × Tree)} {e : Tree × Tree}
    (he : e.1.distinct = true) (hown : ∀ a ∈ own, a.1.distinct = true)
    (hrest : ∀ d ∈ rest, d.1.same e.1 = false)
    (h : Joined o shape (Tree.put e.1 (broughtIn o shape own e) own) rest result) :
    Joined o shape own (e :: rest) result := by
  have hput (key : Tree) : Tree.find? key (Tree.put e.1 (broughtIn o shape own e) own) =
      if e.1.same key then some (broughtIn o shape own e) else Tree.find? key own :=
    find?_put he hown
  -- a key is that of the first entry or of another, never of both
  have hlast (key : Tree) (hkey : e.1.same key = true) : Tree.find? key rest = none := by
    rw [find?_eq_none_iff]
    intro d hd
    rw [Bool.eq_false_iff]
    intro hdk
    exact ne_true_of_eq_false (hrest d hd) (same_trans hdk (same_symm he hkey))
  refine ⟨?keys, ?kept, ?added, ?merged⟩
  case keys =>
    have hfilter : (rest.filter fun d =>
        (Tree.find? d.1 (Tree.put e.1 (broughtIn o shape own e) own)).isNone) =
          rest.filter fun d => (Tree.find? d.1 own).isNone := by
      refine List.filter_congr fun d hd => ?_
      have hne : ¬e.1.same d.1 = true := fun hsame =>
        ne_true_of_eq_false (hrest d hd) (same_symm he hsame)
      rw [hput, if_neg hne]
    rw [h.keys, hfilter, List.filter_cons]
    cases hfind : Tree.find? e.1 own with
    | none => simp [put_of_find?_eq_none _ hfind]
    | some a => simp [keys_put_of_isSome, hfind]
  case kept =>
    intro key hkey
    rw [find?_cons] at hkey
    split at hkey
    · cases hkey
    next hne => rw [h.kept key hkey, hput, if_neg hne]
  case added =>
    intro key hkey
    rw [find?_cons]
    by_cases hsame : e.1.same key = true
    · have hnone : Tree.find? e.1 own = none := by
        rw [find?_congr hsame (same_symm he hsame), hkey]
      rw [h.kept key (hlast key hsame), hput, if_pos hsame, if_pos hsame, broughtIn, hnone]
      rfl
    · rw [h.added key (by rw [hput, if_neg hsame, hkey]), if_neg hsame]
  case merged =>
    intro key a b ha hb
    rw [find?_cons] at hb
    by_cases hsame : e.1.same key = true
    · have hback := same_symm he hsame
      rw [if_pos hsame] at hb
      cases hb
      rw [h.kept key (hlast key hsame), hput, if_pos hsame, broughtIn, find?_congr hsame hback, ha,
        child_congr hsame hback]
      rfl
    · rw [if_neg hsame] at hb
      exact h.merged key a b (by rw [hput, if_neg hsame, ha]) hb

theorem joined_mergeEntries {own given : List (Tree × Tree)} (hloose : o.loose shape = false)
    (hown : ∀ e ∈ own, e.1.distinct = true) (hgiven : (Tree.map given).distinct = true) :
    Joined o shape own given (mergeEntries o shape own given) := by
  rw [mergeEntries_eq_foldl]
  obtain ⟨hkeys, hparts⟩ := distinct_map_iff.mp hgiven
  clear hgiven
  induction given generalizing own with
  | nil => exact ⟨by simp, fun _ _ => rfl, fun _ h => h, fun _ _ _ _ h => by cases h⟩
  | cons e rest ih =>
    rw [List.pairwise_cons] at hkeys
    have he : e.1.distinct = true := (hparts e List.mem_cons_self).1
    rw [List.foldl_cons, mergeEntry_of_exact hloose]
    exact .cons he hown hkeys.1 (ih (keys_distinct_put he hown) hkeys.2
      fun d hd => hparts d (List.mem_cons_of_mem _ hd))

/-- Whether no part is a record. -/
def Shape.recordless (shape : Shape) : Prop := ∀ path, (shape.atPath path).isRecord = false

theorem Shape.recordless.child (h : shape.recordless) (key : Tree) :
    (shape.child key).recordless := fun path => h (.key key :: path)

theorem Shape.recordless.content (h : shape.recordless) : shape.content.recordless :=
  fun path => h (.tag "" :: path)

theorem recordless_plain : Shape.plain.recordless := fun path => by
  rw [Shape.plain_atPath]
  rfl

theorem recordless_variant {content : Shape} (h : content.recordless) :
    (Shape.variant content).recordless
  | [] => rfl
  | .key _ :: rest => recordless_plain rest
  | .tag _ :: rest => h rest

theorem recordless_map {shapes : List (Tree × Shape)} (h : ∀ e ∈ shapes, e.2.recordless) :
    (Shape.map shapes).recordless
  | [] => rfl
  | .tag _ :: rest => recordless_plain rest
  | .key k :: rest => by
    rw [Shape.atPath, Shape.child]
    cases hfind : Tree.find? k shapes with
    | none => exact recordless_plain rest
    | some s =>
      obtain ⟨_, hmem, -⟩ := exists_of_find?_eq_some hfind
      exact h _ hmem rest

theorem loose_of_recordless (h : shape.recordless) : o.loose shape = false := by
  have hshape : shape.isRecord = false := h []
  rw [MergeOptions.loose, hshape, Bool.and_false]

/-- Without records normalising keys changes nothing. -/
theorem merge_eq_of_recordless (weaklyTyped : Bool) (h : shape.recordless) (dest src : Tree) :
    merge ⟨true, weaklyTyped⟩ shape dest src = merge ⟨false, weaklyTyped⟩ shape dest src := by
  induction src generalizing shape dest with
  | map given ih =>
    cases dest with
    | map own =>
      have hentry : ∀ (own : List (Tree × Tree)), ∀ e ∈ given,
          mergeEntry ⟨true, weaklyTyped⟩ shape own e =
            mergeEntry ⟨false, weaklyTyped⟩ shape own e := by
        intro own e he
        rw [mergeEntry_of_exact (loose_of_recordless h),
          mergeEntry_of_exact (loose_of_recordless h)]
        simp only [broughtIn, (ih e he).2 (h.child e.1)]
      rw [merge, merge, mergeEntries_eq_foldl, mergeEntries_eq_foldl,
        List.foldl_ext _ _ _ hentry]
    | _ => rw [merge, merge] <;> first | rfl | simp
  | tagged tag content ih =>
    cases dest with
    | tagged own inner =>
      rw [merge, merge, ih h.content]
      rfl
    | _ => rw [merge, merge] <;> first | rfl | simp
  | _ => rw [merge, merge] <;> first | rfl | simp

/-- Wherever maps of destination and source meet, they are joined. -/
theorem joined_at {path : Path} {own given : List (Tree × Tree)} (h : shape.recordless)
    (hd : dest.distinct = true) (hs : src.distinct = true)
    (hown : dest.at? path = some (.map own)) (hgiven : src.at? path = some (.map given)) :
    ∃ result, (merge o shape dest src).at? path = some (.map result) ∧
      Joined o (shape.atPath path) own given result := by
  induction path generalizing shape dest src with
  | nil =>
    rw [Tree.at?] at hown hgiven
    cases hown
    cases hgiven
    refine ⟨_, by rw [merge]; rfl, joined_mergeEntries (loose_of_recordless h) ?_ hs⟩
    exact fun e he => ((distinct_map_iff.mp hd).2 e he).1
  | cons turn rest ih =>
    cases turn with
    | key k =>
      cases dest with
      | map entries =>
        cases src with
        | map other =>
          obtain ⟨a, ha, harest⟩ := Option.bind_eq_some_iff.mp hown
          obtain ⟨b, hb, hbrest⟩ := Option.bind_eq_some_iff.mp hgiven
          obtain ⟨_, hmema, -⟩ := exists_of_find?_eq_some ha
          obtain ⟨_, hmemb, -⟩ := exists_of_find?_eq_some hb
          have hda := (distinct_map_iff.mp hd).2
          have hjoined := joined_mergeEntries (o := o) (loose_of_recordless h)
            (fun e he => (hda e he).1) hs
          rw [merge, Tree.at?, hjoined.merged k a b ha hb, Option.bind_some]
          exact ih (h.child k) (hda _ hmema).2 ((distinct_map_iff.mp hs).2 _ hmemb).2 harest hbrest
        | _ => simp [Tree.at?] at hgiven
      | _ => simp [Tree.at?] at hown
    | tag t =>
      cases dest with
      | tagged tag inner =>
        cases src with
        | tagged other content =>
          rw [Tree.at?] at hown hgiven
          split at hown
          next hown' =>
            split at hgiven
            next hgiven' =>
              have hsame : Tag.same tag other = true := by
                simp only [Tag.same, beq_iff_eq] at hown' hgiven' ⊢
                exact hown'.trans hgiven'.symm
              rw [merge_tagged hsame, Tree.at?, if_pos hown']
              exact ih h.content hd hs hown hgiven
            next => cases hgiven
          next => cases hown
        | _ => simp [Tree.at?] at hgiven
      | _ => simp [Tree.at?] at hown

end TestBench.Config
