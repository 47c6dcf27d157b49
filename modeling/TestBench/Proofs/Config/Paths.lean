import TestBench.Proofs.Config.Overlay

/-! A merge seen from paths. What the source has at a path is found in the result where the keys of
the path resolve to, and what the destination has at a path that the source does not address stays
there. -/
namespace TestBench.Config
open Config.Tree

/-- One step into a tree: to the value of a key, or below a tag. -/
inductive Turn where
  | key (k : Tree)
  | tag (t : String)

abbrev Path := List Turn

def Tree.at? : Tree → Path → Option Tree
  | t, [] => some t
  | .map entries, .key k :: rest => (Tree.find? k entries).bind fun t => t.at? rest
  | .tagged own inner, .tag t :: rest => if Tag.same own t then inner.at? rest else none
  | _, _ :: _ => none

/-- Where a merge puts what the source has at a path: a key that stands for one of the destination
becomes that key, as long as source and destination go together. -/
def resolve (o : MergeOptions) : Shape → Tree → Path → Path
  | shape, .map dest, .key k :: rest =>
    match findKey (o.loose shape) dest k with
    | some target =>
      .key target ::
        resolve o (shape.child target) ((Tree.find? target dest).getD .null) rest
    | none => .key k :: rest
  | shape, .tagged own inner, .tag t :: rest =>
    if Tag.same own t then .tag t :: resolve o shape.content inner rest else .tag t :: rest
  | _, _, path => path

/-- Whether the source says anything about what the destination has at a path, or replaces
something that it is part of. -/
def addresses (o : MergeOptions) : Shape → Tree → Tree → Path → Bool
  | _, _, .null, _ => false
  | shape, .map dest, .map src, .key k :: rest =>
    src.any fun e =>
      match findKey (o.loose shape) dest e.1 with
      | some target =>
        target.same k &&
          addresses o (shape.child target) ((Tree.find? target dest).getD .null) e.2 rest
      | none => false
  | shape, .tagged own inner, .tagged tag src, .tag _ :: rest =>
    !Tag.same own tag || addresses o shape.content inner src rest
  | _, _, _, _ => true

/-- Whether a merge looks below both trees. -/
def meets : Tree → Tree → Bool
  | .map _, .map _ => true
  | .tagged own _, .tagged tag _ => Tag.same own tag
  | _, _ => false

/-- Whether a tree holds data itself: it is no map, no tagged value and not null. -/
def Tree.isLeaf : Tree → Bool
  | .null | .map _ | .tagged .. => false
  | _ => true

mutual

/-- Whether no map that a merge can reach has two keys of one normal form. Lists are replaced as a
whole and may hold anything. -/
def Tree.keysApart : Tree → Bool
  | .map entries => formsApart entries && valuesKeysApart entries
  | .tagged _ inner => inner.keysApart
  | _ => true

def Tree.valuesKeysApart : List (Tree × Tree) → Bool
  | [] => true
  | (_, value) :: rest => value.keysApart && valuesKeysApart rest

end

theorem keysApart_map_iff {entries : List (Tree × Tree)} :
    (Tree.map entries).keysApart = true ↔
      formsApart entries = true ∧ ∀ e ∈ entries, e.2.keysApart = true := by
  have hvalues : valuesKeysApart entries = true ↔ ∀ e ∈ entries, e.2.keysApart = true := by
    induction entries with
    | nil => simp [valuesKeysApart]
    | cons e rest ih => simp [valuesKeysApart, ih]
  rw [Tree.keysApart, Bool.and_eq_true, hvalues]

section Merge

variable {o : MergeOptions} {shape : Shape} {dest src : Tree}

theorem merge_null (o : MergeOptions) (shape : Shape) (dest : Tree) :
    merge o shape dest .null = dest := by
  rw [merge]

theorem merge_tagged {own tag : String} {inner content : Tree} (h : Tag.same own tag = true) :
    merge o shape (.tagged own inner) (.tagged tag content) =
      .tagged own (merge o shape.content inner content) := by
  rw [merge, if_pos h]

/-- Where a merge does not look below both trees, the source replaces the destination. -/
theorem merge_of_not_meets (hw : o.weaklyTyped = false) (hm : meets dest src = false)
    (hn : src ≠ .null) : merge o shape dest src = src := by
  cases src <;> cases dest <;> simp_all [merge, meets, MergeOptions.replace]

theorem merge_map {dest src : List (Tree × Tree)} (hd : (Tree.map dest).distinct = true)
    (hs : (Tree.map src).distinct = true) (ha : formsApart src = true) :
    merge o shape (.map dest) (.map src) = .map (overlayEntries o shape dest src) := by
  have hsrc : ∀ e ∈ src, e.1.distinct = true := fun e he => ((distinct_map_iff.mp hs).2 e he).1
  rw [merge, mergeEntries_eq_overlayEntries hd hsrc ha]

/-- What the source holds at a path is found where the path resolves to. -/
theorem at?_merge_resolve {path : Path} {leaf : Tree} (hw : o.weaklyTyped = false)
    (hd : dest.distinct = true) (hs : src.distinct = true) (ha : src.keysApart = true)
    (hleaf : leaf.isLeaf = true) (h : src.at? path = some leaf) :
    (merge o shape dest src).at? (resolve o shape dest path) = some leaf := by
  induction path generalizing shape dest src with
  | nil =>
    obtain rfl : src = leaf := by simpa [Tree.at?] using h
    have hm : meets dest src = false := by
      cases src <;> cases dest <;> simp_all [meets, Tree.isLeaf]
    have hn : src ≠ .null := by rintro rfl; cases hleaf
    rw [merge_of_not_meets hw hm hn, resolve]
    · rw [Tree.at?]
    all_goals simp
  | cons turn rest ih =>
    cases turn with
    | key k =>
      cases src with
      | map src =>
        obtain ⟨w, hfindw, hrest⟩ := Option.bind_eq_some_iff.mp h
        obtain ⟨k', hmem, hsame⟩ := exists_of_find?_eq_some hfindw
        obtain ⟨hforms, hvalues⟩ := keysApart_map_iff.mp ha
        cases dest with
        | map dest =>
          rw [merge_map hd hs hforms, resolve]
          cases hfind : findKey (o.loose shape) dest k with
          | some target =>
            obtain ⟨own, hown, hold, hnew⟩ :=
              find?_overlayEntries_of_findKey_eq_some hd hs hforms hmem hsame hfind
            simp only [Tree.at?, hnew, hold, Option.bind_some, Option.getD_some]
            exact ih ((distinct_map_iff.mp hd).2 own hown).2 ((distinct_map_iff.mp hs).2 _ hmem).2
              (hvalues _ hmem) hrest
          | none =>
            simp only [Tree.at?, find?_overlayEntries_of_findKey_eq_none hs hmem hsame hfind,
              Option.bind_some, hrest]
        | _ =>
          rw [merge_of_not_meets hw rfl (by simp)]
          simpa [resolve] using h
      | _ => simp [Tree.at?] at h
    | tag t =>
      cases src with
      | tagged tag content =>
        rw [Tree.at?] at h
        split at h
        next ht =>
          cases dest with
          | tagged own inner =>
            by_cases hown : Tag.same own tag = true
            · have hownt : Tag.same own t = true := by
                simp only [Tag.same, beq_iff_eq] at hown ht ⊢
                exact hown.trans ht
              rw [merge_tagged hown, resolve, if_pos hownt, Tree.at?, if_pos hownt]
              exact ih hd hs ha h
            · have hownt : ¬Tag.same own t = true := by
                simp only [Tag.same, beq_iff_eq] at hown ht ⊢
                exact fun h => hown (h.trans ht.symm)
              rw [merge_of_not_meets hw (by simpa [meets] using hown) (by simp), resolve,
                if_neg hownt, Tree.at?, if_pos ht]
              exact h
          | _ =>
            rw [merge_of_not_meets hw rfl (by simp)]
            simpa [resolve, Tree.at?, ht] using h
        next => cases h
      | _ => simp [Tree.at?] at h

/-- What the destination has at a path that the source does not address stays where it is. -/
theorem at?_merge_of_not_addressed {path : Path} {own : Tree}
    (hd : dest.distinct = true) (hs : src.distinct = true) (ha : src.keysApart = true)
    (hn : addresses o shape dest src path = false) (h : dest.at? path = some own) :
    (merge o shape dest src).at? path = some own := by
  induction path generalizing shape dest src with
  | nil =>
    obtain rfl : src = .null := by cases src <;> simp_all [addresses]
    rwa [merge_null]
  | cons turn rest ih =>
    cases turn with
    | key k =>
      cases dest with
      | map dest =>
        cases src with
        | null => rwa [merge_null]
        | map src =>
          obtain ⟨hforms, hvalues⟩ := keysApart_map_iff.mp ha
          obtain ⟨hkeys, hparts⟩ := distinct_map_iff.mp hd
          have hsrc : ∀ e ∈ src, e.1.distinct = true :=
            fun e he => ((distinct_map_iff.mp hs).2 e he).1
          obtain ⟨old, hfindold, hrest⟩ := Option.bind_eq_some_iff.mp h
          obtain ⟨k', hmem, hsame⟩ := exists_of_find?_eq_some hfindold
          rw [merge_map hd hs hforms, Tree.at?, find?_overlayEntries hd hmem hsame,
            Option.bind_some]
          by_cases hreach : ∃ e ∈ src, reaches (o.loose shape) dest e.1 k' = true
          · obtain ⟨e, he, hreach⟩ := hreach
            obtain ⟨target, hfind, hst⟩ := reaches_iff.mp hreach
            have hts := same_symm (findKey_distinct (hsrc e he)
              (fun d hd => (hparts d hd).1) hfind) hst
            have hold : Tree.find? target dest = some old :=
              find?_eq_of_mem hkeys hmem (fun a ha => (hparts a ha).1) hts
            rw [overlayEntry_of_mem hsrc hforms he hreach]
            have hnot : addresses o (shape.child target) old e.2 rest = false := by
              rw [addresses, List.any_eq_false] at hn
              simpa [hfind, hold, same_trans hst hsame] using hn e he
            rw [child_congr hst hts shape] at hnot
            exact ih (hparts _ hmem).2 ((distinct_map_iff.mp hs).2 e he).2 (hvalues e he)
              hnot hrest
          · have hall : ∀ e ∈ src, reaches (o.loose shape) dest e.1 k' = false :=
              fun e he => Bool.eq_false_iff.mpr fun hr => hreach ⟨e, he, hr⟩
            rw [overlayEntry_of_forall hall]
            exact hrest
        | _ => simp [addresses] at hn
      | _ => simp [Tree.at?] at h
    | tag t =>
      cases dest with
      | tagged own' inner =>
        cases src with
        | null => rwa [merge_null]
        | tagged tag content =>
          rw [addresses, Bool.or_eq_false_iff, Bool.not_eq_false'] at hn
          rw [Tree.at?] at h
          split at h
          next ht =>
            rw [merge_tagged hn.1, Tree.at?, if_pos ht]
            exact ih hd hs ha hn.2 h
          next => cases h
        | _ => simp [addresses] at hn
      | _ => simp [Tree.at?] at h

end Merge

/-- What becomes of a destination entry: its key stays, its value is merged with what the source has
under a key that stands for its own, and stays where there is no such key. -/
structure Overlaid (o : MergeOptions) (shape : Shape) (dest src : List (Tree × Tree))
    (before after : Tree × Tree) : Prop where
  key : after.1 = before.1
  merged : ∀ e ∈ src, reaches (o.loose shape) dest e.1 before.1 = true →
    after.2 = merge o (shape.child before.1) before.2 e.2
  kept : (∀ e ∈ src, reaches (o.loose shape) dest e.1 before.1 = false) → after.2 = before.2

theorem overlayEntry_overlaid {o : MergeOptions} {shape : Shape} {dest src : List (Tree × Tree)}
    (hs : (Tree.map src).distinct = true) (ha : formsApart src = true) (own : Tree × Tree) :
    Overlaid o shape dest src own (overlayEntry o shape dest src own) where
  key := rfl
  merged e he hreach := by
    rw [overlayEntry_of_mem (fun e he => ((distinct_map_iff.mp hs).2 e he).1) ha he hreach]
  kept hall := by rw [overlayEntry_of_forall hall]

/-- Without weak typing a merge lays the source over the destination path by path: entry by entry
where both are maps, below a common tag, and by replacement elsewhere. So every leaf of the source
is found where its path resolves to, and what the source does not address is retained. -/
theorem merge_overlays (o : MergeOptions) (shape : Shape) (dest src : Tree)
    (hw : o.weaklyTyped = false) (hd : dest.distinct = true) (hs : src.distinct = true)
    (ha : src.keysApart = true) :
    (∀ own given, dest = .map own → src = .map given →
      ∃ kept, List.Forall₂ (Overlaid o shape own given) own kept ∧
        merge o shape dest src = .map (kept ++ unmatched (o.loose shape) own given)) ∧
    (∀ own inner tag content, dest = .tagged own inner → src = .tagged tag content →
      Tag.same own tag = true →
        merge o shape dest src = .tagged own (merge o shape.content inner content)) ∧
    (src = .null → merge o shape dest src = dest) ∧
    (src ≠ .null → meets dest src = false → merge o shape dest src = src) ∧
    (∀ path leaf, src.at? path = some leaf → leaf.isLeaf = true →
      (merge o shape dest src).at? (resolve o shape dest path) = some leaf) ∧
    (∀ path own, dest.at? path = some own → addresses o shape dest src path = false →
      (merge o shape dest src).at? path = some own) := by
  refine ⟨?_, ?_, ?_, fun hn hm => merge_of_not_meets hw hm hn,
    fun path leaf h hleaf => at?_merge_resolve hw hd hs ha hleaf h,
    fun path own h hn => at?_merge_of_not_addressed hd hs ha hn h⟩
  · rintro own given rfl rfl
    have hforms := (keysApart_map_iff.mp ha).1
    refine ⟨own.map (overlayEntry o shape own given), ?_, merge_map hd hs hforms⟩
    rw [List.forall₂_map_right_iff, List.forall₂_same]
    exact fun e _ => overlayEntry_overlaid hs hforms e
  · rintro own inner tag content rfl rfl htag
    exact merge_tagged htag
  · rintro rfl
    exact merge_null o shape dest

/-- A record field is found under a key of another spelling, a map key is not, and what the source
leaves out stays. -/
theorem merge_overlays_listener :
    let o : MergeOptions := ⟨true, false⟩
    let shape : Shape := .record [("listen_addr", .plain),
      ("names", .map [(.text "eth_0", .plain)])]
    let dest : Tree := .map [(.text "listen_addr", .text "a"),
      (.text "names", .map [(.text "eth_0", .int 1)])]
    let src : Tree := .map [(.text "Listen-Addr", .text "b"),
      (.text "names", .map [(.text "eth-0", .int 2)])]
    (o.weaklyTyped = false ∧ dest.distinct = true ∧ src.distinct = true ∧
      src.keysApart = true) ∧
    resolve o shape dest [.key (.text "Listen-Addr")] = [.key (.text "listen_addr")] ∧
    (merge o shape dest src).at? [.key (.text "listen_addr")] = some (.text "b") ∧
    (merge o shape dest src).at? [.key (.text "names"), .key (.text "eth_0")] = some (.int 1) := by
  intro o shape dest src
  have hhyp : o.weaklyTyped = false ∧ dest.distinct = true ∧ src.distinct = true ∧
      src.keysApart = true := by decide +kernel
  have h := merge_overlays o shape dest src hhyp.1 hhyp.2.1 hhyp.2.2.1 hhyp.2.2.2
  have hresolve : resolve o shape dest [.key (.text "Listen-Addr")] =
      [.key (.text "listen_addr")] := by rfl
  refine ⟨hhyp, hresolve, ?_, ?_⟩
  · rw [← hresolve]
    exact h.2.2.2.2.1 _ _ rfl rfl
  · exact h.2.2.2.2.2 _ _ rfl (by decide +kernel)

end TestBench.Config
