import TestBench.Proofs.Config.KeyMatching

/-! What merging entries comes to. The merge changes the destination while source keys are still
being looked up in it; with source keys of pairwise different normal forms that makes no difference,
and every entry can be told from the destination as it was. -/
namespace TestBench.Config
open Config.Tree

/-- Whether keys of this shape are also found loosely. -/
def MergeOptions.loose (o : MergeOptions) (shape : Shape) : Bool :=
  o.normalizeKeys && shape.isRecord

/-- Whether a source key stands for the key `own` of the destination. -/
def reaches (loose : Bool) (dest : List (Tree × Tree)) (key own : Tree) : Bool :=
  (findKey loose dest key).any (·.same own)

/-- Merges one source entry. -/
def mergeEntry (o : MergeOptions) (shape : Shape) (dest : List (Tree × Tree))
    (e : Tree × Tree) : List (Tree × Tree) :=
  let target := (findKey (o.loose shape) dest e.1).getD e.1
  Tree.put target
    (match Tree.find? target dest with
      | some existing => merge o (shape.child target) existing e.2
      | none => e.2) dest

theorem mergeEntries_eq_foldl (o : MergeOptions) (shape : Shape) (dest src : List (Tree × Tree)) :
    mergeEntries o shape dest src = src.foldl (mergeEntry o shape) dest := by
  induction src generalizing dest with
  | nil => rfl
  | cons e rest ih =>
    rw [mergeEntries, List.foldl_cons, ← ih]
    rfl

/-- A destination entry with what the source says under a key that stands for its own. -/
def overlayEntry (o : MergeOptions) (shape : Shape) (dest src : List (Tree × Tree))
    (own : Tree × Tree) : Tree × Tree :=
  (own.1, match src.find? fun e => reaches (o.loose shape) dest e.1 own.1 with
    | some e => merge o (shape.child own.1) own.2 e.2
    | none => own.2)

/-- The source entries that stand for no key of the destination. -/
def unmatched (loose : Bool) (dest src : List (Tree × Tree)) : List (Tree × Tree) :=
  src.filter fun e => (findKey loose dest e.1).isNone

def overlayEntries (o : MergeOptions) (shape : Shape) (dest src : List (Tree × Tree)) :
    List (Tree × Tree) :=
  dest.map (overlayEntry o shape dest src) ++ unmatched (o.loose shape) dest src

/-- Whether no two keys have the same normal form. -/
def formsApart : List (Tree × Tree) → Bool
  | [] => true
  | (key, _) :: rest =>
    !(rest.any fun e => (normalForm e.1).same (normalForm key)) && formsApart rest

theorem formsApart_iff {entries : List (Tree × Tree)} :
    formsApart entries = true ↔
      entries.Pairwise fun a b => (normalForm b.1).same (normalForm a.1) = false := by
  induction entries with
  | nil => simp [formsApart]
  | cons e rest ih => simp [formsApart, ih]

theorem formsApart_iff_forms {entries : List (Tree × Tree)} :
    formsApart entries = true ↔
      (entries.map fun e => normalForm e.1).Pairwise fun a b => b.same a = false := by
  rw [formsApart_iff, List.pairwise_map]

section Entries

variable {o : MergeOptions} {shape : Shape} {loose : Bool}
  {dest src done : List (Tree × Tree)} {e own : Tree × Tree}

theorem reaches_iff {key ownKey : Tree} : reaches loose dest key ownKey = true ↔
    ∃ target, findKey loose dest key = some target ∧ target.same ownKey = true := by
  simp [reaches, Option.any_eq_true]

theorem normalForm_same_of_reaches {key ownKey : Tree}
    (h : reaches loose dest key ownKey = true) :
    (normalForm key).same (normalForm ownKey) = true := by
  obtain ⟨target, hfind, hsame⟩ := reaches_iff.mp h
  rw [← normalForm_findKey hfind]
  exact normalForm_same hsame

/-- Two source keys that stand for one key have the same normal form. -/
theorem normalForm_same_of_reaches_same {key other ownKey : Tree} (hd : other.distinct = true)
    (hk : reaches loose dest key ownKey = true) (ho : reaches loose dest other ownKey = true) :
    (normalForm key).same (normalForm other) = true :=
  same_trans (normalForm_same_of_reaches hk)
    (same_symm (normalForm_distinct hd) (normalForm_same_of_reaches ho))

theorem find?_reaches_eq_none (hd : e.1.distinct = true)
    (hapart : ∀ x ∈ done, (normalForm x.1).same (normalForm e.1) = false)
    (h : reaches loose dest e.1 own.1 = true) :
    done.find? (fun x => reaches loose dest x.1 own.1) = none := by
  rw [List.find?_eq_none]
  intro x hx hreach
  exact Bool.false_ne_true ((hapart x hx).symm.trans
    (normalForm_same_of_reaches_same hd hreach h))

/-- Among keys of different normal forms only one can stand for a given key. -/
theorem find?_reaches_eq_some (hsrc : ∀ x ∈ src, x.1.distinct = true)
    (hapart : formsApart src = true) (he : e ∈ src)
    (h : reaches loose dest e.1 own.1 = true) :
    src.find? (fun x => reaches loose dest x.1 own.1) = some e := by
  rw [formsApart_iff] at hapart
  induction src with
  | nil => cases he
  | cons a rest ih =>
    rw [List.pairwise_cons] at hapart
    rcases List.mem_cons.mp he with rfl | he
    · simp [h]
    · have hnot : reaches loose dest a.1 own.1 = false := by
        rw [Bool.eq_false_iff]
        intro hreach
        exact Bool.false_ne_true ((hapart.1 e he).symm.trans
          (normalForm_same_of_reaches_same (hsrc a List.mem_cons_self) h hreach))
      simp only [List.find?_cons, hnot]
      exact ih (fun x hx => hsrc x (List.mem_cons_of_mem _ hx)) hapart.2 he

theorem overlayEntry_of_mem (hsrc : ∀ x ∈ src, x.1.distinct = true)
    (hapart : formsApart src = true) (he : e ∈ src)
    (h : reaches (o.loose shape) dest e.1 own.1 = true) :
    overlayEntry o shape dest src own = (own.1, merge o (shape.child own.1) own.2 e.2) := by
  rw [overlayEntry, find?_reaches_eq_some hsrc hapart he h]

theorem overlayEntry_of_forall (h : ∀ e ∈ src, reaches (o.loose shape) dest e.1 own.1 = false) :
    overlayEntry o shape dest src own = own := by
  have hnone : src.find? (fun e => reaches (o.loose shape) dest e.1 own.1) = none := by
    simpa [List.find?_eq_none] using h
  rw [overlayEntry, hnone]

theorem overlayEntry_of_reaches (hd : e.1.distinct = true)
    (hapart : ∀ x ∈ done, (normalForm x.1).same (normalForm e.1) = false)
    (h : reaches (o.loose shape) dest e.1 own.1 = true) :
    overlayEntry o shape dest done own = own ∧
      overlayEntry o shape dest (done ++ [e]) own =
        (own.1, merge o (shape.child own.1) own.2 e.2) := by
  have hnone := find?_reaches_eq_none hd hapart h
  constructor
  · simp [overlayEntry, hnone]
  · simp [overlayEntry, List.find?_append, hnone, h]

theorem overlayEntry_of_not_reaches (h : reaches (o.loose shape) dest e.1 own.1 = false) :
    overlayEntry o shape dest (done ++ [e]) own = overlayEntry o shape dest done own := by
  simp [overlayEntry, List.find?_append, h]

/-- Laying more over an overlay finds the keys that the destination had from the start. -/
theorem findKey_overlayEntries
    (hapart : ∀ x ∈ done, (normalForm x.1).same (normalForm e.1) = false) :
    findKey loose (overlayEntries o shape dest done) e.1 = findKey loose dest e.1 := by
  have hextra : ∀ x ∈ unmatched (o.loose shape) dest done,
      (normalForm x.1).same (normalForm e.1) = false :=
    fun x hx => hapart x (List.mem_of_mem_filter hx)
  rw [overlayEntries, findKey_append hextra]
  exact findKey_congr (by simp [overlayEntry]) _ _

/-- A source entry whose key stands for a key of the destination is merged with its value. -/
theorem mergeEntry_of_findKey_eq_some {target : Tree} (hdest : (Tree.map dest).distinct = true)
    (hd : e.1.distinct = true)
    (hapart : ∀ x ∈ done, (normalForm x.1).same (normalForm e.1) = false)
    (hfind : findKey (o.loose shape) dest e.1 = some target) :
    mergeEntry o shape (overlayEntries o shape dest done) e =
      overlayEntries o shape dest (done ++ [e]) := by
  obtain ⟨hkeys, hparts⟩ := distinct_map_iff.mp hdest
  have htarget : target.distinct = true :=
    findKey_distinct hd (fun d hd => (hparts d hd).1) hfind
  have hreach : ∀ d ∈ dest, d.1.same target = true →
      reaches (o.loose shape) dest e.1 d.1 = true := fun d hd hsame =>
    reaches_iff.mpr ⟨target, hfind, same_symm (hparts d hd).1 hsame⟩
  obtain ⟨own, hown, hsame⟩ := exists_same_findKey hfind
  set kept := dest.map (overlayEntry o shape dest done) with hkept
  have hkeptKeys : kept.Pairwise fun a b => b.1.same a.1 = false := by
    rw [hkept, List.pairwise_map]
    exact hkeys
  have hkeptDistinct : ∀ a ∈ kept, a.1.distinct = true := by
    intro a ha
    obtain ⟨d, hd, rfl⟩ := List.mem_map.mp ha
    exact (hparts d hd).1
  have hmem : ∃ a ∈ kept, a.1.same target = true :=
    ⟨_, List.mem_map_of_mem hown, hsame⟩
  have hold : ∀ d ∈ dest, d.1.same target = true →
      Tree.find? target (overlayEntries o shape dest done) = some d.2 := by
    intro d hmemd hsamed
    have hself := (overlayEntry_of_reaches hd hapart (hreach d hmemd hsamed)).1
    have hkept : d ∈ kept := hself ▸ List.mem_map_of_mem hmemd
    rw [overlayEntries, find?_append, find?_eq_of_mem hkeptKeys hkept hkeptDistinct hsamed,
      Option.some_or]
  have hfilter : unmatched (o.loose shape) dest (done ++ [e]) =
      unmatched (o.loose shape) dest done := by
    simp [unmatched, hfind]
  rw [mergeEntry, findKey_overlayEntries hapart, hfind, Option.getD_some, hold own hown hsame]
  simp only [overlayEntries]
  rw [put_append_of_mem _ hmem, put_of_mem _ hkeptKeys hkeptDistinct hmem, hfilter, hkept,
    List.map_map]
  congr 1
  refine List.map_congr_left fun d hmemd => ?_
  by_cases hsamed : d.1.same target = true
  · have hvalue : own.2 = d.2 :=
      Option.some.inj ((hold own hown hsame).symm.trans (hold d hmemd hsamed))
    have hchild := child_congr hsamed (same_symm (hparts d hmemd).1 hsamed) shape
    rw [(overlayEntry_of_reaches hd hapart (hreach d hmemd hsamed)).2]
    simp [overlayEntry, hsamed, hvalue, hchild]
  · have hnot : reaches (o.loose shape) dest e.1 d.1 = false := by
      rw [Bool.eq_false_iff]
      intro hr
      obtain ⟨t, ht, hts⟩ := reaches_iff.mp hr
      rw [hfind] at ht
      obtain rfl := Option.some.inj ht
      exact hsamed (same_symm htarget hts)
    rw [overlayEntry_of_not_reaches hnot]
    simp [overlayEntry, hsamed]

/-- A source entry whose key stands for no key of the destination goes to the end as it is. -/
theorem mergeEntry_of_findKey_eq_none
    (hapart : ∀ x ∈ done, (normalForm x.1).same (normalForm e.1) = false)
    (hfind : findKey (o.loose shape) dest e.1 = none) :
    mergeEntry o shape (overlayEntries o shape dest done) e =
      overlayEntries o shape dest (done ++ [e]) := by
  have hnew : Tree.find? e.1 (overlayEntries o shape dest done) = none := by
    rw [find?_eq_none_iff]
    intro a ha
    rcases List.mem_append.mp ha with ha | ha
    · obtain ⟨d, hd, rfl⟩ := List.mem_map.mp ha
      exact not_same_of_findKey_eq_none hfind d hd
    · rw [Bool.eq_false_iff]
      intro hsame
      exact Bool.false_ne_true ((hapart a (List.mem_of_mem_filter ha)).symm.trans
        (normalForm_same hsame))
  have hentry : overlayEntry o shape dest (done ++ [e]) = overlayEntry o shape dest done :=
    funext fun d => overlayEntry_of_not_reaches (by simp [reaches, hfind])
  rw [mergeEntry, findKey_overlayEntries hapart, hfind, Option.getD_none, hnew,
    put_of_find?_eq_none _ hnew]
  simp [overlayEntries, hentry, unmatched, hfind]

theorem mergeEntries_eq_overlayEntries (hdest : (Tree.map dest).distinct = true)
    (hsrc : ∀ e ∈ src, e.1.distinct = true) (hapart : formsApart src = true) :
    mergeEntries o shape dest src = overlayEntries o shape dest src := by
  rw [mergeEntries_eq_foldl]
  rw [formsApart_iff] at hapart
  induction src using List.reverseRecOn with
  | nil =>
    have hself : dest.map (overlayEntry o shape dest []) = dest := List.map_id dest
    simp [overlayEntries, unmatched, hself]
  | append_singleton done e ih =>
    obtain ⟨hdone, -, hlast⟩ := List.pairwise_append.mp hapart
    have hd : e.1.distinct = true := hsrc e (by simp)
    have hdone' : ∀ x ∈ done, x.1.distinct = true := fun x hx => hsrc x (by simp [hx])
    have hnew : ∀ x ∈ done, (normalForm x.1).same (normalForm e.1) = false := by
      intro x hx
      rw [Bool.eq_false_iff]
      intro hsame
      exact Bool.false_ne_true ((hlast x hx e (List.mem_singleton_self e)).symm.trans
        (same_symm (normalForm_distinct (hdone' x hx)) hsame))
    rw [List.foldl_append, ih hdone' hdone, List.foldl_cons, List.foldl_nil]
    cases hfind : findKey (o.loose shape) dest e.1 with
    | some target => exact mergeEntry_of_findKey_eq_some hdest hd hnew hfind
    | none => exact mergeEntry_of_findKey_eq_none hnew hfind

/-- A key of the destination leads to its own entry in the overlay. -/
theorem find?_overlayEntries (hdest : (Tree.map dest).distinct = true) {key : Tree}
    (hown : own ∈ dest) (hsame : own.1.same key = true) :
    Tree.find? key (overlayEntries o shape dest src) =
      some (overlayEntry o shape dest src own).2 := by
  obtain ⟨hkeys, hparts⟩ := distinct_map_iff.mp hdest
  have hkept : Tree.find? key (dest.map (overlayEntry o shape dest src)) =
      some (overlayEntry o shape dest src own).2 := by
    refine find?_eq_of_mem (List.pairwise_map.mpr hkeys) (List.mem_map_of_mem hown) ?_ hsame
    intro a ha
    obtain ⟨d, hd, rfl⟩ := List.mem_map.mp ha
    exact (hparts d hd).1
  rw [overlayEntries, find?_append, hkept, Option.some_or]

/-- A source entry is found, merged, under the key of the destination it stands for. -/
theorem find?_overlayEntries_of_findKey_eq_some {key target : Tree}
    (hdest : (Tree.map dest).distinct = true) (hsrc : (Tree.map src).distinct = true)
    (hapart : formsApart src = true) (he : e ∈ src) (hsame : e.1.same key = true)
    (hfind : findKey (o.loose shape) dest key = some target) :
    ∃ own ∈ dest, Tree.find? target dest = some own.2 ∧
      Tree.find? target (overlayEntries o shape dest src) =
        some (merge o (shape.child target) own.2 e.2) := by
  obtain ⟨hkeys, hparts⟩ := distinct_map_iff.mp hdest
  have hsrc' : ∀ x ∈ src, x.1.distinct = true :=
    fun x hx => ((distinct_map_iff.mp hsrc).2 x hx).1
  obtain ⟨own, hown, hst⟩ := exists_same_findKey hfind
  have hts := same_symm (hparts own hown).1 hst
  have hrel := findKey_rel (o.loose shape) dest hsame
    (same_symm (hsrc' e he) hsame)
  rw [hfind] at hrel
  cases hother : findKey (o.loose shape) dest e.1 with
  | none =>
    rw [hother] at hrel
    cases hrel
  | some other =>
    rw [hother] at hrel
    cases hrel with
    | some hrel =>
      have hreach : reaches (o.loose shape) dest e.1 own.1 = true :=
        reaches_iff.mpr ⟨other, hother, same_trans hrel.1 hts⟩
      refine ⟨own, hown, ?_, ?_⟩
      · exact find?_eq_of_mem hkeys hown (fun a ha => (hparts a ha).1) hst
      · rw [find?_overlayEntries hdest hown hst, overlayEntry_of_mem hsrc' hapart he hreach,
          child_congr hst hts shape]

/-- A source entry whose key stands for no key of the destination is found as it is. -/
theorem find?_overlayEntries_of_findKey_eq_none {key : Tree}
    (hsrc : (Tree.map src).distinct = true) (he : e ∈ src) (hsame : e.1.same key = true)
    (hfind : findKey (o.loose shape) dest key = none) :
    Tree.find? key (overlayEntries o shape dest src) = some e.2 := by
  obtain ⟨hkeys, hparts⟩ := distinct_map_iff.mp hsrc
  have hkept : Tree.find? key (dest.map (overlayEntry o shape dest src)) = none := by
    rw [find?_eq_none_iff]
    intro a ha
    obtain ⟨d, hd, rfl⟩ := List.mem_map.mp ha
    exact not_same_of_findKey_eq_none hfind d hd
  have hrel := findKey_rel (o.loose shape) dest hsame
    (same_symm (hparts e he).1 hsame)
  rw [hfind] at hrel
  have hnone : findKey (o.loose shape) dest e.1 = none := by
    cases hother : findKey (o.loose shape) dest e.1 with
    | none => rfl
    | some other =>
      rw [hother] at hrel
      cases hrel
  have hmem : e ∈ unmatched (o.loose shape) dest src :=
    List.mem_filter.mpr ⟨he, by simp [hnone]⟩
  rw [overlayEntries, find?_append, hkept, Option.none_or]
  exact find?_eq_of_mem (hkeys.sublist List.filter_sublist) hmem
    (fun a ha => (hparts a (List.mem_of_mem_filter ha)).1) hsame

end Entries

end TestBench.Config
