import TestBench.Proofs.Config.Layout

/-! Other spellings of record fields. A source may spell the fields of the records that it is laid
over in any case and with dashes and underscores, as far as the shape knows of the records. -/
namespace TestBench
open Config Config.Tree

namespace Value

/-- One source is another with fields of records spelled in other ways. Keys of maps are as they
were, and so is everything that is not laid over a record. -/
inductive Respelled : Value → Tree → Tree → Prop where
  | refl (v : Value) (t : Tree) : Respelled v t t
  | trans {v : Value} {a b c : Tree} (first : Respelled v a b) (second : Respelled v b c) :
      Respelled v a c
  | key {v : Value} {name : String} {fields : List (String × Value)} {f : String × Value}
      {before after : List (Tree × Tree)} {key x : Tree} {spelling : String}
      (record : v.bare = .record name fields) (field : f ∈ fields)
      (old : key.text?.map normalizeKey = some (normalizeKey f.1))
      (new : normalizeKey spelling = normalizeKey f.1) :
      Respelled v (.map (before ++ (key, x) :: after))
        (.map (before ++ (.text spelling, x) :: after))
  /-- below a field, however the source spells it -/
  | field {v w : Value} {name : String} {fields : List (String × Value)} {f : String × Value}
      {before after : List (Tree × Tree)} {key x y : Tree}
      (record : v.bare = .record name fields) (field : f ∈ fields)
      (spelled : key.text?.map normalizeKey = some (normalizeKey f.1))
      (below : v.below? (.key (.text f.1)) = some w) (inner : Respelled w x y) :
      Respelled v (.map (before ++ (key, x) :: after)) (.map (before ++ (key, y) :: after))
  /-- below an entry of a map -/
  | entry {v w : Value} {before after : List (Tree × Tree)} {key x y : Tree}
      (notRecord : v.bare.isRecord = false) (below : v.below? (.key key) = some w)
      (inner : Respelled w x y) :
      Respelled v (.map (before ++ (key, x) :: after)) (.map (before ++ (key, y) :: after))
  | content {v w : Value} {tag : String} {x y : Tree} (below : v.below? (.tag tag) = some w)
      (inner : Respelled w x y) : Respelled v (.tagged tag x) (.tagged tag y)

/-- The shape is that of a record wherever the tree holds a record that has fields. -/
def KnowsRecords (v : Value) (s : Shape) : Prop :=
  ∀ path name fields, v.at? path = some (.record name fields) → fields ≠ [] →
    (s.atPath path).isRecord = true

end Value

namespace Config

theorem pairwise_of_formsApart {entries : List (Tree × Tree)} (h : formsApart entries = true) :
    entries.Pairwise fun a b => b.1.same a.1 = false := by
  refine (formsApart_iff.mp h).imp fun hforms => ?_
  rw [Bool.eq_false_iff]
  exact fun hsame => ne_true_of_eq_false hforms (normalForm_same hsame)

/-- An entry may give way to another whose key has the same normal form. -/
theorem wellFormed_replace {before after : List (Tree × Tree)} {a b : Tree × Tree}
    (hd : (Tree.map (before ++ a :: after)).distinct = true)
    (ha : (Tree.map (before ++ a :: after)).keysApart = true)
    (hform : normalForm b.1 = normalForm a.1) (hkey : b.1.distinct = true)
    (hvalue : b.2.distinct = true) (hapart : b.2.keysApart = true) :
    (Tree.map (before ++ b :: after)).distinct = true ∧
      (Tree.map (before ++ b :: after)).keysApart = true := by
  obtain ⟨hforms, hvalues⟩ := keysApart_map_iff.mp ha
  have hforms' : formsApart (before ++ b :: after) = true := by
    rw [formsApart_iff_forms] at hforms ⊢
    simpa [hform] using hforms
  have hparts := (distinct_map_iff.mp hd).2
  refine ⟨distinct_map_iff.mpr ⟨pairwise_of_formsApart hforms', ?_⟩,
    keysApart_map_iff.mpr ⟨hforms', ?_⟩⟩
  · simp only [List.forall_mem_append, List.forall_mem_cons] at hparts ⊢
    exact ⟨hparts.1, ⟨hkey, hvalue⟩, hparts.2.2⟩
  · simp only [List.forall_mem_append, List.forall_mem_cons] at hvalues ⊢
    exact ⟨hvalues.1, hapart, hvalues.2.2⟩

section Entries

variable {o : MergeOptions} {shape : Shape} {own before after : List (Tree × Tree)}
  {a b : Tree × Tree} {target : Tree}

theorem reaches_of_findKey {loose : Bool} {key : Tree} (h : findKey loose own key = some target)
    (ownKey : Tree) : reaches loose own key ownKey = target.same ownKey := by
  rw [reaches, h]
  rfl

/-- What is merged with a key of the destination may change as long as the outcome there is the
same. -/
theorem overlayEntries_congr (ha : findKey (o.loose shape) own a.1 = some target)
    (hb : findKey (o.loose shape) own b.1 = some target)
    (hmerge : ∀ e ∈ own, target.same e.1 = true →
      merge o (shape.child e.1) e.2 a.2 = merge o (shape.child e.1) e.2 b.2) :
    overlayEntries o shape own (before ++ a :: after) =
      overlayEntries o shape own (before ++ b :: after) := by
  have hentry : ∀ e ∈ own, overlayEntry o shape own (before ++ a :: after) e =
      overlayEntry o shape own (before ++ b :: after) e := by
    intro e he
    simp only [overlayEntry, List.find?_append, List.find?_cons, reaches_of_findKey ha,
      reaches_of_findKey hb]
    cases before.find? fun d => reaches (o.loose shape) own d.1 e.1 with
    | some d => rfl
    | none =>
      cases hsame : target.same e.1 with
      | true => simp [hmerge e he hsame]
      | false => rfl
  rw [overlayEntries, overlayEntries, List.map_congr_left hentry]
  simp [unmatched, ha, hb]

end Entries

theorem findKey_of_find? {own : List (Tree × Tree)} {key u : Tree} (loose : Bool)
    (h : Tree.find? key own = some u) : findKey loose own key = some key := by
  obtain ⟨k, hk, hsame⟩ := exists_of_find?_eq_some h
  rw [findKey, if_pos (List.any_eq_true.mpr ⟨(k, u), hk, hsame⟩)]

/-- A key of the form of a field stands for that field. -/
theorem findKey_of_form {own : List (Tree × Tree)} {fields : List (String × Value)}
    {f : String × Value} {key : Tree} (hkeys : own.map (·.1) = fields.map fun f => .text f.1)
    (hapart : (fields.map fun f => normalizeKey f.1).Nodup) (hf : f ∈ fields)
    (hform : key.text?.map normalizeKey = some (normalizeKey f.1)) :
    findKey true own key = some (.text f.1) := by
  obtain ⟨spelling, htext, hspelling⟩ := Option.map_eq_some_iff.mp hform
  cases hfind : findKey true own key with
  | some target =>
    obtain ⟨e, he, hsame⟩ := exists_same_findKey hfind
    have hmem : e.1 ∈ fields.map fun f => Tree.text f.1 := hkeys ▸ List.mem_map_of_mem he
    obtain ⟨g, hg, hge⟩ := List.mem_map.mp hmem
    rw [← hge, Value.same_text_iff] at hsame
    have hforms := normalForm_findKey hfind
    rw [hsame, normalForm_of_text? rfl, normalForm_of_text? htext, hspelling,
      Tree.text.injEq] at hforms
    have hgf : g = f := List.inj_on_of_nodup_map hapart hg hf hforms
    rw [hsame, hgf]
  | none =>
    rw [findKey_eq] at hfind
    split at hfind
    · cases hfind
    · rw [looseKey?, if_pos rfl, htext, Option.bind_some, List.find?_eq_none, hkeys] at hfind
      exact absurd (by simp [Tree.text?, Tree.untag, hspelling])
        (hfind (.text f.1) (List.mem_map_of_mem hf))

end Config

namespace Value

variable {v w : Value} {t a b c : Tree} {s : Shape} {name : String}
  {fields : List (String × Value)} {f : String × Value} {turn : Turn} {path : Path}

theorem Respelled.wellFormed (h : Respelled v a b) (hd : a.distinct = true)
    (ha : a.keysApart = true) : b.distinct = true ∧ b.keysApart = true := by
  have hinner {before after : List (Tree × Tree)} {key x y : Tree}
      (hd : (Config.Tree.map (before ++ (key, x) :: after)).distinct = true)
      (ha : (Config.Tree.map (before ++ (key, x) :: after)).keysApart = true)
      (ih : x.distinct = true → x.keysApart = true → y.distinct = true ∧ y.keysApart = true) :
      (Config.Tree.map (before ++ (key, y) :: after)).distinct = true ∧
        (Config.Tree.map (before ++ (key, y) :: after)).keysApart = true := by
    obtain ⟨hkey, hx⟩ := (distinct_map_iff.mp hd).2 (key, x) (by simp)
    obtain ⟨hy, hya⟩ := ih hx ((keysApart_map_iff.mp ha).2 (key, x) (by simp))
    exact wellFormed_replace hd ha rfl hkey hy hya
  induction h with
  | refl => exact ⟨hd, ha⟩
  | trans _ _ ih ih' => exact (fun h => ih' h.1 h.2) (ih hd ha)
  | @key v name fields f before after key x spelling record field old new =>
    obtain ⟨r, htext, hr⟩ := Option.map_eq_some_iff.mp old
    refine wellFormed_replace hd ha ?_ rfl ((distinct_map_iff.mp hd).2 (key, x) (by simp)).2
      ((keysApart_map_iff.mp ha).2 (key, x) (by simp))
    rw [normalForm_of_text? htext, normalForm_of_text? rfl, hr, new]
  | field _ _ _ _ _ ih => exact hinner hd ha ih
  | entry _ _ _ ih => exact hinner hd ha ih
  | content _ _ ih => exact ih hd ha

theorem KnowsRecords.below (h : KnowsRecords v s) (hbelow : v.below? turn = some w) :
    KnowsRecords w (s.atPath [turn]) := by
  intro path name fields hat hfields
  have hrecord := h (turn :: path) name fields (by rw [at?, hbelow, Option.bind_some, hat]) hfields
  cases turn <;> exact hrecord

theorem KnowsRecords.isRecord (h : KnowsRecords v s) (hbare : v.bare = .record name fields)
    (hf : f ∈ fields) : s.isRecord = true :=
  h [] name fields (congrArg some hbare) (List.ne_nil_of_mem hf)

theorem keysDiffer_of_nodup (h : (fields.map fun f => normalizeKey f.1).Nodup) :
    keysDiffer (fields.map fun f => (.text f.1, f.2)) = true := by
  induction fields with
  | nil => rfl
  | cons f rest ih =>
    rw [List.map_cons, List.nodup_cons] at h
    rw [List.map_cons, keysDiffer_cons rfl]
    refine ⟨fun d hd => ?_, ih h.2⟩
    obtain ⟨g, hg, rfl⟩ := List.mem_map.mp hd
    rw [becomes_of_ok rfl, Bool.eq_false_iff, Ne, same_text_iff, Tree.text.injEq]
    exact fun heq => h.1 (heq ▸ List.mem_map_of_mem hg)

/-- The tree of a record has its fields as keys. -/
theorem keys_of_record (ht : Tree.ofValue v = .ok t) (hbare : v.bare = .record name fields)
    (hapart : (fields.map fun f => normalizeKey f.1).Nodup) :
    ∃ own, t = .map own ∧ own.map (·.1) = fields.map fun f => .text f.1 := by
  obtain ⟨s, hs⟩ := Shape.ofValue_ok ht
  have hlaid := laid_of_ofValue ht hs
  rw [hbare] at hlaid
  cases alike_of_laid hlaid (keysDiffer_of_nodup hapart) rfl with
  | record names keys =>
    have hnames := congrArg (List.map Config.Tree.text) names
    rw [List.map_map, List.map_map] at hnames
    exact ⟨_, rfl, keys.trans hnames⟩
  | content case => cases case
  | plain entries => cases entries

theorem exists_map_of_at? {key u : Tree} (h : t.at? [.key key] = some u) :
    ∃ own, t = .map own ∧ Tree.find? key own = some u := by
  cases t with
  | map own => exact ⟨own, rfl, by simpa [Tree.at?] using h⟩
  | _ => simp [Tree.at?] at h

theorem exists_tagged_of_at? {tag : String} {u : Tree} (h : t.at? [.tag tag] = some u) :
    ∃ own, t = .tagged own u ∧ Tag.same own tag = true := by
  cases t with
  | tagged own inner =>
    rw [Tree.at?] at h
    split at h
    next hsame =>
      cases h
      exact ⟨own, rfl, hsame⟩
    next => cases h
  | _ => simp [Tree.at?] at h

theorem forms_nodup (h : v.everywhere fieldsApart = true) (hbare : v.bare = .record name fields) :
    (fields.map fun f => normalizeKey f.1).Nodup := by
  have hrecord := holds_of_everywhere h
  rw [hbare] at hrecord
  exact of_decide_eq_true hrecord

/-- Whatever has the form of a field of a known record stands for that field. -/
theorem findKey_of_knowsRecords {o : MergeOptions} (hnorm : o.normalizeKeys = true)
    (ht : Tree.ofValue v = .ok t) (hknows : KnowsRecords v s)
    (hfields : v.everywhere fieldsApart = true) (hbare : v.bare = .record name fields)
    (hf : f ∈ fields) :
    ∃ own, t = .map own ∧ ∀ key : Tree, key.text?.map normalizeKey = some (normalizeKey f.1) →
      findKey (o.loose s) own key = some (.text f.1) := by
  have hapart := forms_nodup hfields hbare
  obtain ⟨own, rfl, hkeys⟩ := keys_of_record ht hbare hapart
  have hloose : o.loose s = true := by
    rw [MergeOptions.loose, hnorm, hknows.isRecord hbare hf]
    rfl
  exact ⟨own, rfl, fun key hform => hloose ▸ findKey_of_form hkeys hapart hf hform⟩

/-- What a source says below a key matters only for what the value has there. -/
theorem merge_inside {o : MergeOptions} {before after own : List (Tree × Tree)}
    {key target x y : Tree} (ht : Tree.ofValue v = .ok (.map own))
    (hx : (Config.Tree.map (before ++ (key, x) :: after)).distinct = true ∧
      (Config.Tree.map (before ++ (key, x) :: after)).keysApart = true)
    (hy : (Config.Tree.map (before ++ (key, y) :: after)).distinct = true ∧
      (Config.Tree.map (before ++ (key, y) :: after)).keysApart = true)
    (hfind : findKey (o.loose s) own key = some target)
    (hbelow : v.below? (.key target) = some w)
    (hxy : ∀ u, Tree.ofValue w = .ok u → x.distinct = true → x.keysApart = true →
      merge o (s.atPath [.key target]) u x = merge o (s.atPath [.key target]) u y) :
    merge o s (.map own) (.map (before ++ (key, x) :: after)) =
      merge o s (.map own) (.map (before ++ (key, y) :: after)) := by
  have hdest := ofValue_distinct ht
  obtain ⟨hkeys, hparts⟩ := distinct_map_iff.mp hdest
  obtain ⟨hkey, hdx⟩ := (distinct_map_iff.mp hx.1).2 (key, x) (by simp)
  have hax := (keysApart_map_iff.mp hx.2).2 (key, x) (by simp)
  obtain ⟨u, hu, hwu⟩ := exists_of_rel_some (hbelow ▸ tree_below ht (.key target))
  have htarget : target.distinct = true :=
    findKey_distinct hkey (fun e he => (hparts e he).1) hfind
  rw [merge_map hdest hx.1 (keysApart_map_iff.mp hx.2).1,
    merge_map hdest hy.1 (keysApart_map_iff.mp hy.2).1,
    overlayEntries_congr (a := (key, x)) (b := (key, y)) hfind hfind]
  intro e he hsame
  have hback := same_symm htarget hsame
  have heu : e.2 = u := by
    obtain ⟨_, hmap, hfindu⟩ := exists_map_of_at? hu
    cases hmap
    rw [find?_eq_of_mem hkeys he (fun a ha => (hparts a ha).1) hback] at hfindu
    exact Option.some.inj hfindu
  rw [heu, child_congr hback hsame]
  exact hxy u hwu hdx hax

/-- Where the shape knows the records, the spelling of their fields does not matter. -/
theorem merge_respelled {o : MergeOptions} (hnorm : o.normalizeKeys = true)
    (h : Respelled v a b) (ht : Tree.ofValue v = .ok t) (hknows : KnowsRecords v s)
    (hfields : v.everywhere fieldsApart = true) (hd : a.distinct = true)
    (ha : a.keysApart = true) : merge o s t a = merge o s t b := by
  have hwell := h.wellFormed hd ha
  induction h generalizing t s with
  | refl => rfl
  | trans first second ih ih' =>
    obtain ⟨hdb, hab⟩ := first.wellFormed hd ha
    rw [ih ht hknows hfields hd ha ⟨hdb, hab⟩, ih' ht hknows hfields hdb hab hwell]
  | @key v name fields f before after key x spelling record field old new =>
    obtain ⟨own, rfl, hfind⟩ :=
      findKey_of_knowsRecords hnorm ht hknows hfields record field
    rw [merge_map (ofValue_distinct ht) hd (keysApart_map_iff.mp ha).1,
      merge_map (ofValue_distinct ht) hwell.1 (keysApart_map_iff.mp hwell.2).1,
      overlayEntries_congr (a := (key, x)) (b := (.text spelling, x)) (hfind key old)
        (hfind (.text spelling) (congrArg some new)) fun _ _ _ => rfl]
  | field record field spelled below inner ih =>
    obtain ⟨own, rfl, hfind⟩ :=
      findKey_of_knowsRecords hnorm ht hknows hfields record field
    exact merge_inside ht ⟨hd, ha⟩ hwell (hfind _ spelled) below fun u hu hx hxa =>
      ih hu (hknows.below below) (everywhere_below hfields below) hx hxa (inner.wellFormed hx hxa)
  | @entry v w before after key x y notRecord below inner ih =>
    obtain ⟨u, hu, -⟩ := exists_of_rel_some (below ▸ tree_below ht (.key key))
    obtain ⟨own, rfl, hfind⟩ := exists_map_of_at? hu
    exact merge_inside ht ⟨hd, ha⟩ hwell (findKey_of_find? _ hfind) below fun u hu hx hxa =>
      ih hu (hknows.below below) (everywhere_below hfields below) hx hxa (inner.wellFormed hx hxa)
  | @content v w tag x y below inner ih =>
    obtain ⟨u, hu, hwu⟩ := exists_of_rel_some (below ▸ tree_below ht (.tag tag))
    obtain ⟨own, rfl, hsame⟩ := exists_tagged_of_at? hu
    rw [merge_tagged hsame, merge_tagged hsame]
    exact congrArg _ (ih hwu (hknows.below below) (everywhere_below hfields below) hd ha
      (inner.wellFormed hd ha))

end Value
end TestBench
