import TestBench.Proofs.Config.Paths

/-! Null in a source map. Under a key of the destination it says nothing; under any other key it is
taken over like any value, so that leaving it out leaves out the key. -/
namespace TestBench.Config
open Config.Tree

variable {o : MergeOptions} {shape : Shape} {dest a b : Tree} {known : Bool}
  {own before after : List (Tree × Tree)} {key target existing x y : Tree}

theorem mergeEntries_append (own before after : List (Tree × Tree)) :
    mergeEntries o shape own (before ++ after) =
      mergeEntries o shape (mergeEntries o shape own before) after := by
  rw [mergeEntries_eq_foldl, mergeEntries_eq_foldl, mergeEntries_eq_foldl, List.foldl_append]

theorem mergeEntries_split (own before after : List (Tree × Tree)) (e : Tree × Tree) :
    mergeEntries o shape own (before ++ e :: after) =
      mergeEntries o shape (mergeEntry o shape (mergeEntries o shape own before) e) after := by
  rw [mergeEntries_append, mergeEntries_eq_foldl _ _ _ (e :: after), List.foldl_cons,
    ← mergeEntries_eq_foldl]

/-- An entry under a key of the destination is merged with the value there. -/
theorem mergeEntry_of_known (hfind : findKey (o.loose shape) own key = some target)
    (hexisting : Tree.find? target own = some existing) (x : Tree) :
    mergeEntry o shape own (key, x) =
      Tree.put target (merge o (shape.child target) existing x) own := by
  rw [mergeEntry, hfind, Option.getD_some, hexisting]

theorem exists_of_findKey {loose : Bool} (hfind : findKey loose own key = some target) :
    ∃ existing, Tree.find? target own = some existing := by
  obtain ⟨e, he, hsame⟩ := exists_same_findKey hfind
  cases hexisting : Tree.find? target own with
  | some existing => exact ⟨existing, rfl⟩
  | none =>
    rw [find?_eq_none_iff] at hexisting
    rw [hexisting e he] at hsame
    cases hsame

theorem mergeEntry_null (hfind : findKey (o.loose shape) own key = some target) :
    mergeEntry o shape own (key, .null) = own := by
  obtain ⟨existing, hexisting⟩ := exists_of_findKey hfind
  rw [mergeEntry_of_known hfind hexisting, merge_null, put_of_find?_eq_some hexisting]

/-- A source and the same source with an entry less, whose value is null, in a map that is merged
over a map of the destination. `known` tells whether the key of that entry stands for a key of the
destination as the entries before it leave it. -/
inductive Drops (o : MergeOptions) : Shape → Tree → Tree → Tree → Bool → Prop where
  | entry {shape : Shape} {own before after : List (Tree × Tree)} {key : Tree} :
    Drops o shape (.map own) (.map (before ++ (key, .null) :: after)) (.map (before ++ after))
      (findKey (o.loose shape) (mergeEntries o shape own before) key).isSome
  | value {shape : Shape} {own before after : List (Tree × Tree)}
    {key target existing x y : Tree} {known : Bool}
    (found : findKey (o.loose shape) (mergeEntries o shape own before) key = some target)
    (there : Tree.find? target (mergeEntries o shape own before) = some existing)
    (inner : Drops o (shape.child target) existing x y known) :
    Drops o shape (.map own) (.map (before ++ (key, x) :: after))
      (.map (before ++ (key, y) :: after)) known
  | content {shape : Shape} {tag other : String} {inside x y : Tree} {known : Bool}
    (same : Tag.same tag other = true) (inner : Drops o shape.content inside x y known) :
    Drops o shape (.tagged tag inside) (.tagged other x) (.tagged other y) known

/-- Null under a key of the destination says nothing. -/
theorem Drops.merge_eq (h : Drops o shape dest a b known) (hknown : known = true) :
    merge o shape dest a = merge o shape dest b := by
  induction h with
  | entry =>
    obtain ⟨target, hfind⟩ := Option.isSome_iff_exists.mp hknown
    rw [merge, merge, mergeEntries_split, mergeEntry_null hfind, mergeEntries_append]
  | value found there inner ih =>
    rw [merge, merge, mergeEntries_split, mergeEntries_split, mergeEntry_of_known found there,
      mergeEntry_of_known found there, ih hknown]
  | content same inner ih => rw [merge_tagged same, merge_tagged same, ih hknown]

/-- Keys of a source before and after an entry have other normal forms than its key. -/
theorem forms_of_split {e : Tree × Tree} (hapart : formsApart (before ++ e :: after) = true)
    (hbefore : ∀ d ∈ before, d.1.distinct = true) :
    formsApart before = true ∧ formsApart (before ++ after) = true ∧
      ∀ d ∈ before, (normalForm d.1).same (normalForm e.1) = false := by
  rw [formsApart_iff] at hapart
  rw [formsApart_iff, formsApart_iff]
  refine ⟨(List.pairwise_append.mp hapart).1,
    hapart.sublist ((List.sublist_cons_self e after).append_left before), fun d hd => ?_⟩
  rw [Bool.eq_false_iff]
  intro hsame
  have hback := same_symm (normalForm_distinct (hbefore d hd)) hsame
  have hfalse := (List.pairwise_append.mp hapart).2.2 d hd e List.mem_cons_self
  rw [hback] at hfalse
  cases hfalse

/-- What the entries before one leave has its key just when the destination had it. -/
theorem findKey_mergeEntries {e : Tree × Tree} (hown : (Tree.map own).distinct = true)
    (hbefore : ∀ d ∈ before, d.1.distinct = true)
    (hapart : formsApart (before ++ e :: after) = true) :
    mergeEntries o shape own before = overlayEntries o shape own before ∧
      findKey (o.loose shape) (mergeEntries o shape own before) e.1 =
        findKey (o.loose shape) own e.1 := by
  obtain ⟨hforms, -, hnew⟩ := forms_of_split hapart hbefore
  have hoverlay : mergeEntries o shape own before = overlayEntries o shape own before :=
    mergeEntries_eq_overlayEntries hown hbefore hforms
  exact ⟨hoverlay, hoverlay ▸ findKey_overlayEntries hnew⟩

/-- An entry whose key is in no map of the destination makes the result longer. -/
theorem mergeEntries_ne_of_unknown (hown : (Tree.map own).distinct = true)
    (hsrc : (Tree.map (before ++ (key, x) :: after)).distinct = true)
    (hapart : formsApart (before ++ (key, x) :: after) = true)
    (hfind : findKey (o.loose shape) own key = none) :
    mergeEntries o shape own (before ++ (key, x) :: after) ≠
      mergeEntries o shape own (before ++ after) := by
  have hkeys : ∀ d ∈ before ++ (key, x) :: after, d.1.distinct = true :=
    fun d hd => ((distinct_map_iff.mp hsrc).2 d hd).1
  have hsub : (before ++ after).Sublist (before ++ (key, x) :: after) :=
    (List.sublist_cons_self _ after).append_left before
  have hforms := (forms_of_split hapart fun d hd => hkeys d (List.mem_append_left _ hd)).2.1
  rw [mergeEntries_eq_overlayEntries hown hkeys hapart,
    mergeEntries_eq_overlayEntries hown (fun d hd => hkeys d (hsub.subset hd)) hforms]
  intro heq
  have hlength := congrArg List.length heq
  simp [overlayEntries, unmatched, hfind] at hlength

/-- What comes of an entry is found under the key of the destination it stands for. -/
theorem find?_mergeEntries (hown : (Tree.map own).distinct = true)
    (hkeys : ∀ d ∈ before ++ (key, x) :: after, d.1.distinct = true)
    (hapart : formsApart (before ++ (key, x) :: after) = true)
    (hfind : findKey (o.loose shape) own key = some target)
    (hthere : Tree.find? target own = some existing) :
    Tree.find? target (mergeEntries o shape own (before ++ (key, x) :: after)) =
      some (merge o (shape.child target) existing x) := by
  obtain ⟨hownKeys, hparts⟩ := distinct_map_iff.mp hown
  obtain ⟨e, he, hsame⟩ := exists_same_findKey hfind
  have hback := same_symm (hparts e he).1 hsame
  have hreach : reaches (o.loose shape) own key e.1 = true :=
    reaches_iff.mpr ⟨target, hfind, hback⟩
  have hvalue : e.2 = existing := by
    rw [find?_eq_of_mem hownKeys he (fun a ha => (hparts a ha).1) hsame] at hthere
    exact Option.some.inj hthere
  rw [mergeEntries_eq_overlayEntries hown hkeys hapart, find?_overlayEntries hown he hsame,
    overlayEntry_of_mem (e := (key, x)) hkeys hapart (by simp) hreach, child_congr hsame hback,
    hvalue]

/-- The entries before one leave what the destination has under its key. -/
theorem find?_mergeEntries_before {e : Tree × Tree} (hown : (Tree.map own).distinct = true)
    (hkeys : ∀ d ∈ before ++ e :: after, d.1.distinct = true)
    (hapart : formsApart (before ++ e :: after) = true)
    (hfind : findKey (o.loose shape) own e.1 = some target) :
    Tree.find? target (mergeEntries o shape own before) = Tree.find? target own := by
  obtain ⟨hownKeys, hparts⟩ := distinct_map_iff.mp hown
  obtain ⟨d, hd, hsame⟩ := exists_same_findKey hfind
  have hbefore : ∀ a ∈ before, a.1.distinct = true :=
    fun a ha => hkeys a (List.mem_append_left _ ha)
  have hreach : reaches (o.loose shape) own e.1 d.1 = true :=
    reaches_iff.mpr ⟨target, hfind, same_symm (hparts d hd).1 hsame⟩
  have hself := (overlayEntry_of_reaches (hkeys e (by simp))
    (forms_of_split hapart hbefore).2.2 hreach).1
  rw [(findKey_mergeEntries hown hbefore hapart).1, find?_overlayEntries hown hd hsame, hself,
    find?_eq_of_mem hownKeys hd (fun a ha => (hparts a ha).1) hsame]

/-- Sources that differ in the value of one entry do so in their results, unless the same comes of
either value. -/
theorem merge_eq_of_mergeEntries_eq (hown : (Tree.map own).distinct = true)
    (hkeys : ∀ d ∈ before ++ (key, x) :: after, d.1.distinct = true)
    (hapart : formsApart (before ++ (key, x) :: after) = true)
    (hfind : findKey (o.loose shape) own key = some target)
    (hthere : Tree.find? target own = some existing)
    (heq : mergeEntries o shape own (before ++ (key, x) :: after) =
      mergeEntries o shape own (before ++ (key, y) :: after)) :
    merge o (shape.child target) existing x = merge o (shape.child target) existing y := by
  have hkeys' : ∀ d ∈ before ++ (key, y) :: after, d.1.distinct = true := by
    simp only [List.forall_mem_append, List.forall_mem_cons] at hkeys ⊢
    exact hkeys
  have hapart' : formsApart (before ++ (key, y) :: after) = true := by
    rw [formsApart_iff_forms] at hapart ⊢
    simpa using hapart
  have hx := find?_mergeEntries hown hkeys hapart hfind hthere
  have hy := find?_mergeEntries hown hkeys' hapart' hfind hthere
  rw [heq, hy] at hx
  exact (Option.some.inj hx).symm

/-- Where keys are apart, null that says nothing stands under a key of the destination. -/
theorem Drops.known_of_merge_eq (h : Drops o shape dest a b known) (hd : dest.distinct = true)
    (ha : a.distinct = true) (hk : a.keysApart = true)
    (heq : merge o shape dest a = merge o shape dest b) : known = true := by
  induction h with
  | @entry shape own before after key =>
    have hbefore : ∀ d ∈ before, d.1.distinct = true :=
      fun d hd => ((distinct_map_iff.mp ha).2 d (List.mem_append_left _ hd)).1
    have hforms := (keysApart_map_iff.mp hk).1
    have hsame : findKey (o.loose shape) (mergeEntries o shape own before) key =
        findKey (o.loose shape) own key := (findKey_mergeEntries hd hbefore hforms).2
    rw [hsame]
    cases hfind : findKey (o.loose shape) own key with
    | some target => rfl
    | none =>
      rw [merge, merge] at heq
      exact absurd (Tree.map.inj heq) (mergeEntries_ne_of_unknown hd ha hforms hfind)
  | @value shape own before after key target existing x y known found there inner ih =>
    have hparts := (distinct_map_iff.mp ha).2
    obtain ⟨hforms, hvalues⟩ := keysApart_map_iff.mp hk
    have hmem : (key, x) ∈ before ++ (key, x) :: after := by simp
    have hkeys : ∀ d ∈ before ++ (key, x) :: after, d.1.distinct = true :=
      fun d hd => (hparts d hd).1
    -- the destination itself has the key and the value that the entries before have left
    rw [(findKey_mergeEntries hd (fun d hd => hkeys d (List.mem_append_left _ hd)) hforms).2]
      at found
    rw [find?_mergeEntries_before hd hkeys hforms found] at there
    obtain ⟨k, hkmem, -⟩ := exists_of_find?_eq_some there
    rw [merge, merge] at heq
    exact ih ((distinct_map_iff.mp hd).2 _ hkmem).2 (hparts _ hmem).2 (hvalues _ hmem)
      (merge_eq_of_mergeEntries_eq hd hkeys hforms found there (Tree.map.inj heq))
  | content same inner ih =>
    rw [merge_tagged same, merge_tagged same] at heq
    exact ih hd ha hk (Tree.tagged.inj heq).2

/-- Leaving out an entry whose value is null changes nothing where its key stands for a key of the
destination. Where it stands for none, leaving it out always makes a difference. -/
theorem merge_drop_iff (h : Drops o shape dest a b known) :
    (known = true → merge o shape dest a = merge o shape dest b) ∧
      (dest.distinct = true → a.distinct = true → a.keysApart = true →
        (merge o shape dest a = merge o shape dest b ↔ known = true)) :=
  ⟨h.merge_eq, fun hd ha hk => ⟨h.known_of_merge_eq hd ha hk, h.merge_eq⟩⟩

/-- The null stands in a map below a tag and a key of both, under a key that the destination has. -/
theorem merge_drop_iff_mtu :
    let o : MergeOptions := ⟨true, true⟩
    let shape : Shape := .variant (.record [("link", .record [("mtu", .plain)])])
    let dest : Tree := .tagged "Net" (.map [(.text "link", .map [(.text "mtu", .int 9)])])
    let a : Tree := .tagged "Net" (.map [(.text "link",
      .map [(.text "mac", .text "x"), (.text "MTU", .null)])])
    let b : Tree := .tagged "Net" (.map [(.text "link", .map [(.text "mac", .text "x")])])
    (Drops o shape dest a b true ∧ dest.distinct = true ∧ a.distinct = true ∧
      a.keysApart = true) ∧
      merge o shape dest a = merge o shape dest b ∧
        (merge o shape dest a = merge o shape dest b ↔ true = true) := by
  intro o shape dest a b
  have hentry : Drops o (.record [("mtu", .plain)]) (.map [(.text "mtu", .int 9)])
      (.map ([(.text "mac", .text "x")] ++ [(.text "MTU", .null)]))
      (.map ([(.text "mac", .text "x")] ++ [])) true := .entry
  have hlink : Drops o (.record [("link", .record [("mtu", .plain)])])
      (.map [(.text "link", .map [(.text "mtu", .int 9)])])
      (.map ([] ++ [(.text "link", .map [(.text "mac", .text "x"), (.text "MTU", .null)])]))
      (.map ([] ++ [(.text "link", .map [(.text "mac", .text "x")])])) true :=
    .value (show findKey true _ _ = some (.text "link") from rfl) (by rfl) hentry
  have hdrops : Drops o shape dest a b true := .content (by rfl) hlink
  have hwell : dest.distinct = true ∧ a.distinct = true ∧ a.keysApart = true := by decide +kernel
  have h := merge_drop_iff hdrops
  exact ⟨⟨hdrops, hwell⟩, h.1 rfl, h.2 hwell.1 hwell.2.1 hwell.2.2⟩

/-- Null under a key the destination does not have becomes an entry of its own. -/
theorem null_taken_over :
    let o : MergeOptions := ⟨true, true⟩
    let shape : Shape := .map [(.text "a", .plain)]
    let dest : Tree := .map [(.text "a", .int 1)]
    Drops o shape dest (.map [(.text "b", .null)]) (.map []) false ∧
      merge o shape dest (.map [(.text "b", .null)]) =
        .map [(.text "a", .int 1), (.text "b", .null)] ∧
      merge o shape dest (.map []) = dest ∧
      merge o shape dest (.map [(.text "b", .null)]) ≠ merge o shape dest (.map []) := by
  intro o shape dest
  have hdrops : Drops o shape dest (.map ([] ++ [(.text "b", .null)])) (.map ([] ++ [])) false :=
    .entry
  have hnull : merge o shape dest (.map [(.text "b", .null)]) =
      .map [(.text "a", .int 1), (.text "b", .null)] := by rfl
  have hnone : merge o shape dest (.map []) = dest := by rfl
  refine ⟨hdrops, hnull, hnone, ?_⟩
  rw [hnull, hnone]
  simp [dest]

end TestBench.Config
