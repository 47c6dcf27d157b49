import TestBench.Proofs.Config.Encoding
import TestBench.Proofs.Config.Paths
import TestBench.Proofs.Named

/-! The places of a value: what it stores under a key and what it carries under a tag, and so on. A
step to a place of the value is a step in its tree and in its shape. -/
namespace TestBench
open Config Config.Tree

theorem Config.Tree.at?_cons (t : Tree) (turn : Turn) (rest : Path) :
    t.at? (turn :: rest) = (t.at? [turn]).bind fun u => u.at? rest := by
  cases t with
  | map entries =>
    cases turn with
    | key k => cases h : Tree.find? k entries <;> simp [Tree.at?, h]
    | tag s => rfl
  | tagged own inner =>
    cases turn with
    | key k => rfl
    | tag s => by_cases h : Tag.same own s = true <;> simp [Tree.at?, h]
  | _ => simp [Tree.at?]

/-- The shape at a path, which is that of plain data where there is nothing. -/
def Config.Shape.atPath : Shape → Path → Shape
  | shape, [] => shape
  | shape, .key k :: rest => (shape.child k).atPath rest
  | shape, .tag _ :: rest => shape.content.atPath rest

theorem Config.Shape.plain_atPath (path : Path) : Shape.plain.atPath path = .plain := by
  induction path with
  | nil => rfl
  | cons turn rest ih => cases turn <;> exact ih

namespace Value

/-- A value without the wrappers around it. -/
def bare : Value → Value
  | .wrapper _ inner => inner.bare
  | v => v

/-- What maps and records hold, fields under their names. -/
def entries? : Value → Option (List (Value × Value))
  | .map entries => some entries
  | .record _ fields => some (fields.map fun f => (.text f.1, f.2))
  | _ => none

/-- The tag and the content of an enumeration case, or of a configuration value under a tag. -/
def case? : Value → Option (String × Value)
  | .wrapperCase _ variant inner => some (variant, inner)
  | .tupleCase _ variant items => some (variant, .tuple variant items)
  | .recordCase _ variant fields => some (variant, .record variant fields)
  | .tagged tag inner => some (Tag.bare tag, inner)
  | _ => none

/-- Whether a value becomes this key of a map. -/
def becomes (v : Value) (key : Tree) : Bool := (Tree.ofValue v).toOption.any (·.same key)

/-- What is stored under a key last. -/
def lastUnder (key : Tree) (entries : List (Value × Value)) : Option Value :=
  (entries.reverse.find? fun e => e.1.becomes key).map (·.2)

def below? (v : Value) : Turn → Option Value
  | .key k => v.bare.entries?.bind (lastUnder k)
  | .tag t => v.bare.case?.bind fun c => if Tag.same c.1 t then some c.2 else none

/-- The value at a path, without wrappers. Nothing is below lists. -/
def at? : Value → Path → Option Value
  | v, [] => some v.bare
  | v, turn :: rest => (v.below? turn).bind fun w => w.at? rest

/-- Whether no two keys become the same. -/
def keysDiffer : List (Value × Value) → Bool
  | [] => true
  | e :: rest =>
    !(rest.any fun d => (Tree.ofValue e.1).toOption.any d.1.becomes) && keysDiffer rest

/-- Whether a map or record holds no key twice. -/
def keysOnce (v : Value) : Bool := v.entries?.all keysDiffer

/-- Whether the fields of a record have pairwise different normal forms. -/
def fieldsApart : Value → Bool
  | .record _ fields => decide (fields.map fun f => normalizeKey f.1).Nodup
  | _ => true

def isRecord : Value → Bool
  | .record .. => true
  | _ => false

/-- Whether this is a tagged value of a configuration, which describes itself as a map. -/
def isTagged : Value → Bool
  | .tagged .. => true
  | _ => false

mutual

/-- Whether all places of a value have a property. -/
def everywhere (p : Value → Bool) : Value → Bool
  | .map entries => p (.map entries) && entriesEverywhere p entries
  | .record name fields => p (.record name fields) && fieldsEverywhere p fields
  | .wrapper _ inner => everywhere p inner
  | .wrapperCase type variant inner => p (.wrapperCase type variant inner) && everywhere p inner
  | .tupleCase type variant items =>
    p (.tupleCase type variant items) && p (.tuple variant items)
  | .recordCase type variant fields =>
    p (.recordCase type variant fields) &&
      (p (.record variant fields) && fieldsEverywhere p fields)
  | .tagged tag inner => p (.tagged tag inner) && everywhere p inner
  | v => p v

def entriesEverywhere (p : Value → Bool) : List (Value × Value) → Bool
  | [] => true
  | (_, value) :: rest => everywhere p value && entriesEverywhere p rest

def fieldsEverywhere (p : Value → Bool) : List (String × Value) → Bool
  | [] => true
  | (_, value) :: rest => everywhere p value && fieldsEverywhere p rest

end

variable {p : Value → Bool} {v w : Value} {turn : Turn} {path : Path}

theorem entriesEverywhere_iff {entries : List (Value × Value)} :
    entriesEverywhere p entries = true ↔ ∀ e ∈ entries, e.2.everywhere p = true := by
  induction entries with
  | nil => simp [entriesEverywhere]
  | cons e rest ih => simp [entriesEverywhere, ih]

theorem fieldsEverywhere_iff {fields : List (String × Value)} :
    fieldsEverywhere p fields = true ↔ ∀ f ∈ fields, f.2.everywhere p = true := by
  induction fields with
  | nil => simp [fieldsEverywhere]
  | cons f rest ih => simp [fieldsEverywhere, ih]

theorem everywhere_bare (v : Value) : v.bare.everywhere p = v.everywhere p := by
  induction v with
  | wrapper name inner ih => simpa [bare, everywhere] using ih
  | _ => rfl

theorem bare_bare (v : Value) : v.bare.bare = v.bare := by
  induction v with
  | wrapper name inner ih => exact ih
  | _ => rfl

theorem holds_of_everywhere (h : v.everywhere p = true) : p v.bare = true := by
  induction v with
  | wrapper name inner ih => exact ih (by simpa [everywhere] using h)
  | _ => simp_all [everywhere, bare]

theorem everywhere_of_mem_entries {entries : List (Value × Value)} (h : v.everywhere p = true)
    (hentries : v.entries? = some entries) : ∀ e ∈ entries, e.2.everywhere p = true := by
  cases v with
  | map values =>
    obtain rfl := Option.some.inj hentries
    rw [everywhere, Bool.and_eq_true] at h
    exact entriesEverywhere_iff.mp h.2
  | record name fields =>
    obtain rfl := Option.some.inj hentries
    rw [everywhere, Bool.and_eq_true] at h
    intro e he
    obtain ⟨f, hf, rfl⟩ := List.mem_map.mp he
    exact fieldsEverywhere_iff.mp h.2 f hf
  | _ => cases hentries

theorem everywhere_of_case {variant : String} (h : v.everywhere p = true)
    (hcase : v.case? = some (variant, w)) : w.everywhere p = true := by
  cases v with
  | wrapperCase | tupleCase | recordCase | tagged =>
    cases hcase
    simp_all [everywhere]
  | _ => cases hcase

theorem mem_of_lastUnder {key : Tree} {entries : List (Value × Value)}
    (h : lastUnder key entries = some w) : ∃ e ∈ entries, e.2 = w ∧ e.1.becomes key = true := by
  obtain ⟨e, he, rfl⟩ := Option.map_eq_some_iff.mp h
  exact ⟨e, List.mem_reverse.mp (List.mem_of_find?_eq_some he), rfl, by
    simpa using List.find?_some he⟩

theorem everywhere_below (h : v.everywhere p = true) (hbelow : v.below? turn = some w) :
    w.everywhere p = true := by
  rw [← everywhere_bare] at h
  cases turn with
  | key k =>
    obtain ⟨entries, hentries, hlast⟩ := Option.bind_eq_some_iff.mp hbelow
    obtain ⟨e, he, rfl, -⟩ := mem_of_lastUnder hlast
    exact everywhere_of_mem_entries h hentries e he
  | tag t =>
    obtain ⟨⟨variant, inner⟩, hcase, hinner⟩ := Option.bind_eq_some_iff.mp hbelow
    split at hinner
    · cases hinner
      exact everywhere_of_case h hcase
    · cases hinner

/-- What holds everywhere holds at every path. -/
theorem holds_at (h : v.everywhere p = true) (hat : v.at? path = some w) : p w = true := by
  induction path generalizing v with
  | nil =>
    obtain rfl := Option.some.inj hat
    exact holds_of_everywhere h
  | cons turn rest ih =>
    obtain ⟨u, hbelow, hrest⟩ := Option.bind_eq_some_iff.mp hat
    exact ih (everywhere_below h hbelow) hrest

theorem becomes_iff {key : Tree} :
    v.becomes key = true ↔ ∃ t, Tree.ofValue v = .ok t ∧ t.same key = true := by
  cases h : Tree.ofValue v <;> simp [becomes, h, Except.toOption]

theorem becomes_of_ok {key t : Tree} (h : Tree.ofValue v = .ok t) :
    v.becomes key = t.same key := by
  simp [becomes, h, Except.toOption]

theorem not_same_of_becomes {a b : Tree} (ha : Tree.ofValue v = .ok a)
    (hb : Tree.ofValue w = .ok b) (h : w.becomes a = false) : ¬a.same b = true := by
  rw [becomes_of_ok hb] at h
  exact fun hsame => ne_true_of_eq_false h (same_symm (ofValue_distinct ha) hsame)

theorem lastUnder_cons (key : Tree) (e : Value × Value) (rest : List (Value × Value)) :
    lastUnder key (e :: rest) =
      (lastUnder key rest).or (if e.1.becomes key then some e.2 else none) := by
  by_cases h : e.1.becomes key = true <;> simp [lastUnder, List.find?_append, h]

theorem keysDiffer_cons {e : Value × Value} {rest : List (Value × Value)} {key : Tree}
    (hkey : Tree.ofValue e.1 = .ok key) :
    keysDiffer (e :: rest) = true ↔
      (∀ d ∈ rest, d.1.becomes key = false) ∧ keysDiffer rest = true := by
  simp [keysDiffer, hkey, Except.toOption]

theorem ofValue_bare (v : Value) : Tree.ofValue v.bare = Tree.ofValue v := by
  induction v with
  | wrapper name inner ih => exact ih
  | _ => rfl

theorem shape_bare (v : Value) : Shape.ofValue v.bare = Shape.ofValue v := by
  induction v with
  | wrapper name inner ih => exact ih
  | _ => rfl

/-- What becomes of a value: a record or a map has a map and the shapes of its parts, a case has a
tag, and other data has no shape. A tagged value has a tag as well, but the shape of a map. -/
inductive Laid : Value → Tree → Shape → Prop where
  | record {name : String} {fields : List (String × Value)} {own : List (Tree × Tree)}
      {shapes : List (String × Shape)} (tree : Tree.ofFields [] fields = .ok own)
      (shape : Shape.ofFields fields = .ok shapes) :
      Laid (.record name fields) (.map own) (.record shapes)
  | map {entries : List (Value × Value)} {own : List (Tree × Tree)}
      {shapes : List (Tree × Shape)} (tree : Tree.ofEntries [] entries = .ok own)
      (shape : Shape.ofEntries entries = .ok shapes) :
      Laid (.map entries) (.map own) (.map shapes)
  | content {v w : Value} {variant : String} {t : Tree} {s : Shape}
      (case : v.case? = some (variant, w)) (tree : Tree.ofValue w = .ok t)
      (shape : Shape.ofValue w = .ok s) : Laid v (.tagged variant t) (.variant s)
  | tagged {tag : String} {inner : Value} {t : Tree} {s : Shape} (tree : Tree.ofValue inner = .ok t)
      (shape : Shape.ofValue inner = .ok s) :
      Laid (.tagged tag inner) (.tagged (Tag.bare tag) t) (.map [(.text (Tag.shown tag), s)])
  | plain {v : Value} {t : Tree} (entries : v.entries? = none) (case : v.case? = none)
      (tree : t.isLeaf = true ∨ t = .null) : Laid v t .plain

theorem tag_of_ok {variant tag : String} (h : Tree.tag? variant = .ok tag) : tag = variant := by
  rw [Tree.tag?] at h
  split at h <;> cases h
  rfl

theorem laid_of_ofValue {t : Tree} {s : Shape} (ht : Tree.ofValue v = .ok t)
    (hs : Shape.ofValue v = .ok s) : Laid v.bare t s := by
  induction v with
  | wrapper name inner ih => exact ih ht hs
  | record name fields =>
    obtain ⟨own, hown, ht⟩ := bind_eq_ok.mp ht
    obtain ⟨shapes, hshapes, hs⟩ := bind_eq_ok.mp hs
    cases ht
    cases hs
    exact .record hown hshapes
  | map entries =>
    obtain ⟨own, hown, ht⟩ := bind_eq_ok.mp ht
    obtain ⟨shapes, hshapes, hs⟩ := bind_eq_ok.mp hs
    cases ht
    cases hs
    exact .map hown hshapes
  | wrapperCase type variant inner =>
    obtain ⟨tag, htag, ht⟩ := bind_eq_ok.mp ht
    obtain ⟨u, hu, ht⟩ := bind_eq_ok.mp ht
    obtain ⟨content, hcontent, hs⟩ := bind_eq_ok.mp hs
    cases ht
    cases hs
    obtain rfl := tag_of_ok htag
    exact .content rfl hu hcontent
  | tupleCase type variant items =>
    obtain ⟨tag, htag, ht⟩ := bind_eq_ok.mp ht
    obtain ⟨u, hu, ht⟩ := bind_eq_ok.mp ht
    cases ht
    cases hs
    obtain rfl := tag_of_ok htag
    exact .content rfl (bind_eq_ok.mpr ⟨u, hu, rfl⟩) rfl
  | recordCase type variant fields =>
    obtain ⟨tag, htag, ht⟩ := bind_eq_ok.mp ht
    obtain ⟨own, hown, ht⟩ := bind_eq_ok.mp ht
    obtain ⟨shapes, hshapes, hs⟩ := bind_eq_ok.mp hs
    cases ht
    cases hs
    obtain rfl := tag_of_ok htag
    exact .content rfl (bind_eq_ok.mpr ⟨own, hown, rfl⟩) (bind_eq_ok.mpr ⟨shapes, hshapes, rfl⟩)
  | list | tuple =>
    obtain ⟨u, -, ht⟩ := bind_eq_ok.mp ht
    cases ht
    cases hs
    exact .plain rfl rfl (.inl rfl)
  | int n =>
    cases hs
    rw [Tree.ofValue, Tree.ofInt] at ht
    split at ht <;> cases ht <;> exact .plain rfl rfl (.inl rfl)
  | tagged tag inner =>
    obtain ⟨u, hu, ht⟩ := bind_eq_ok.mp ht
    obtain ⟨content, hcontent, hs⟩ := bind_eq_ok.mp hs
    cases ht
    cases hs
    exact .tagged hu hcontent
  | broken message => cases ht
  | keyless inner => cases ht
  | null | marker =>
    cases ht
    cases hs
    exact .plain rfl rfl (.inr rfl)
  | _ =>
    cases ht
    cases hs
    exact .plain rfl rfl (.inl rfl)

/-- The encoded entries hold under a key what was stored there last. -/
theorem find?_ofEntries {entries : List (Value × Value)} {done own : List (Tree × Tree)}
    {key : Tree} {before : Option Value} (hdone : (Config.Tree.map done).distinct = true)
    (hbefore : Option.Rel (fun w u => Tree.ofValue w = .ok u) before (Tree.find? key done))
    (h : Tree.ofEntries done entries = .ok own) :
    Option.Rel (fun w u => Tree.ofValue w = .ok u) ((lastUnder key entries).or before)
      (Tree.find? key own) := by
  induction entries generalizing done before with
  | nil =>
    cases h
    exact hbefore
  | cons e rest ih =>
    obtain ⟨k, hk, h⟩ := bind_eq_ok.mp h
    obtain ⟨u, hu, h⟩ := bind_eq_ok.mp h
    have hkd := ofValue_distinct hk
    rw [lastUnder_cons, Option.or_assoc]
    refine ih (distinct_put hdone hkd (ofValue_distinct hu)) ?_ h
    rw [becomes_of_ok hk, find?_put hkd fun a ha => ((distinct_map_iff.mp hdone).2 a ha).1]
    split
    · exact .some hu
    · exact hbefore

/-- The shape of a map has under a key what was stored there, if only once. -/
theorem find?_shapes {entries : List (Value × Value)} {shapes : List (Tree × Shape)}
    {key : Tree} (honce : keysDiffer entries = true)
    (h : Shape.ofEntries entries = .ok shapes) :
    Option.Rel (fun w s => Shape.ofValue w = .ok s) (lastUnder key entries)
      (Tree.find? key shapes) := by
  induction entries generalizing shapes with
  | nil =>
    cases h
    exact .none
  | cons e rest ih =>
    obtain ⟨k, hk, h⟩ := bind_eq_ok.mp h
    obtain ⟨s, hs, h⟩ := bind_eq_ok.mp h
    obtain ⟨others, hothers, h⟩ := bind_eq_ok.mp h
    cases h
    rw [keysDiffer_cons hk] at honce
    rw [lastUnder_cons, becomes_of_ok hk, Tree.find?_cons]
    by_cases hsame : k.same key = true
    · have hnone : lastUnder key rest = none := by
        rw [Option.eq_none_iff_forall_ne_some]
        intro w hw
        obtain ⟨d, hd, -, hdkey⟩ := mem_of_lastUnder hw
        obtain ⟨t, ht, htkey⟩ := becomes_iff.mp hdkey
        exact not_same_of_becomes hk ht (honce.1 d hd)
          (same_trans hsame (same_symm (ofValue_distinct ht) htkey))
      simpa [hnone, hsame] using Option.Rel.some hs
    · simpa [hsame] using ih honce.2 hothers

theorem exists_of_rel_some {α β : Type} {R : α → β → Prop} {a : α} {x : Option β}
    (h : Option.Rel R (some a) x) : ∃ b, x = some b ∧ R a b := by
  cases h with
  | some hb => exact ⟨_, rfl, hb⟩

theorem exists_find?_shapes {entries : List (Value × Value)} {shapes : List (Tree × Shape)}
    {key : Tree} (honce : keysDiffer entries = true) (h : Shape.ofEntries entries = .ok shapes)
    (hw : lastUnder key entries = some w) :
    ∃ s, Tree.find? key shapes = some s ∧ Shape.ofValue w = .ok s :=
  exists_of_rel_some (hw ▸ find?_shapes honce h)

theorem shapes_of_fields {fields : List (String × Value)} {shapes : List (String × Shape)}
    (h : Shape.ofFields fields = .ok shapes) :
    Shape.ofEntries (fields.map fun f => (.text f.1, f.2)) =
      .ok (shapes.map fun f => (.text f.1, f.2)) := by
  induction fields generalizing shapes with
  | nil =>
    cases h
    rfl
  | cons f rest ih =>
    obtain ⟨s, hs, h⟩ := bind_eq_ok.mp h
    obtain ⟨others, hothers, h⟩ := bind_eq_ok.mp h
    cases h
    exact bind_eq_ok.mpr ⟨.text f.1, rfl, bind_eq_ok.mpr ⟨s, hs, bind_eq_ok.mpr
      ⟨_, ih hothers, rfl⟩⟩⟩

theorem same_text_iff {s : String} {key : Tree} :
    (Config.Tree.text s).same key = true ↔ key = .text s := by
  cases key with
  | text r => simp [Tree.same, eq_comm (a := s)]
  | _ => simp [Tree.same]

/-- Whoever finds the shape of a field as that of an entry under a text has found the child. -/
theorem child_of_find?_fields {shapes : List (String × Shape)} {key : Tree} {s : Shape}
    (h : Tree.find? key (shapes.map fun f => (.text f.1, f.2)) = some s) :
    (Shape.record shapes).child key = s := by
  induction shapes with
  | nil => cases h
  | cons f rest ih =>
    rw [List.map_cons, Tree.find?_cons] at h
    by_cases hkey : key = .text f.1
    · subst hkey
      rw [if_pos (same_refl _)] at h
      cases h
      simp [Shape.child, Tree.text?, Tree.untag, Named.find?_cons]
    · rw [if_neg (same_text_iff.not.mpr hkey)] at h
      rw [← ih h]
      obtain ⟨k, hk, hsame⟩ := exists_of_find?_eq_some h
      obtain ⟨g, -, hg⟩ := List.mem_map.mp hk
      cases hg
      obtain rfl := same_text_iff.mp hsame
      have hne : f.1 ≠ g.1 := fun heq => hkey (by rw [heq])
      simp [Shape.child, Tree.text?, Tree.untag, Named.find?_cons, hne]

theorem entries?_of_case {variant : String} (h : v.case? = some (variant, w)) :
    v.entries? = none := by
  cases v <;> first | rfl | cases h

/-- Data that holds nothing has no places. -/
theorem at?_of_plain {t : Tree} (h : t.isLeaf = true ∨ t = .null) (turn : Turn) :
    t.at? [turn] = none := by
  cases t <;> simp_all [Tree.isLeaf, Tree.at?]

/-- The places of a value are those of its tree. -/
theorem tree_below {t : Tree} (ht : Tree.ofValue v = .ok t) (turn : Turn) :
    Option.Rel (fun w u => Tree.ofValue w = .ok u) (v.below? turn) (t.at? [turn]) := by
  have hmap {entries : List (Value × Value)} {own : List (Tree × Tree)} (k : Tree)
      (h : Tree.ofEntries [] entries = .ok own) :
      Option.Rel (fun w u => Tree.ofValue w = .ok u) (lastUnder k entries)
        ((Config.Tree.map own).at? [.key k]) := by
    have hrel : Option.Rel (fun w u => Tree.ofValue w = .ok u) ((lastUnder k entries).or none)
        (Tree.find? k own) := find?_ofEntries rfl .none h
    rw [Option.or_none] at hrel
    simpa [Tree.at?] using hrel
  obtain ⟨s, hs⟩ := Shape.ofValue_ok ht
  have hlaid := laid_of_ofValue ht hs
  cases turn with
  | key k =>
    rw [below?]
    generalize v.bare = b at hlaid
    cases hlaid with
    | record tree => exact hmap k (by rwa [← ofFields_eq_ofEntries])
    | map tree => exact hmap k tree
    | content case =>
      rw [entries?_of_case case]
      exact .none
    | tagged => exact .none
    | plain entries _ tree =>
      rw [entries, at?_of_plain tree]
      exact .none
  | tag r =>
    rw [below?]
    generalize v.bare = b at hlaid
    cases hlaid with
    | record | map => exact .none
    | content case tree =>
      rw [case, Option.bind_some, Tree.at?]
      split
      · exact .some tree
      · exact .none
    | tagged tree =>
      rw [case?, Option.bind_some, Tree.at?]
      split
      · exact .some tree
      · exact .none
    | plain _ case tree =>
      rw [case, at?_of_plain tree]
      exact .none

/-- A step to a place of the value is a step in its shape where no key stands twice. -/
theorem shape_below {t : Tree} {s : Shape} (ht : Tree.ofValue v = .ok t)
    (hs : Shape.ofValue v = .ok s) (honce : v.bare.keysOnce = true)
    (hplain : v.bare.isTagged = false) (h : v.below? turn = some w) :
    Shape.ofValue w = .ok (s.atPath [turn]) := by
  have hlaid := laid_of_ofValue ht hs
  cases turn with
  | key k =>
    rw [below?] at h
    generalize v.bare = b at hlaid honce hplain h
    cases hlaid with
    | tagged => cases hplain
    | record tree shape =>
      obtain ⟨c, hfind, hc⟩ := exists_find?_shapes honce (shapes_of_fields shape) h
      rw [hc, Shape.atPath, child_of_find?_fields hfind, Shape.atPath]
    | map tree shape =>
      obtain ⟨c, hfind, hc⟩ := exists_find?_shapes honce shape h
      rw [hc, Shape.atPath, Shape.child, hfind, Option.getD_some, Shape.atPath]
    | content case =>
      rw [entries?_of_case case] at h
      cases h
    | plain entries =>
      rw [entries] at h
      cases h
  | tag r =>
    rw [below?] at h
    generalize v.bare = b at hlaid hplain h
    cases hlaid with
    | tagged => cases hplain
    | record | map => cases h
    | content case tree shape =>
      rw [case, Option.bind_some] at h
      split at h <;> cases h
      exact shape
    | plain _ case =>
      rw [case] at h
      cases h

theorem bare_of_at? (h : v.at? path = some w) : w.bare = w := by
  induction path generalizing v with
  | nil =>
    obtain rfl := Option.some.inj h
    exact bare_bare v
  | cons turn rest ih =>
    obtain ⟨u, -, hrest⟩ := Option.bind_eq_some_iff.mp h
    exact ih hrest

/-- Value and tree have the same places. -/
theorem tree_at {t : Tree} (ht : Tree.ofValue v = .ok t) (path : Path) :
    Option.Rel (fun w u => Tree.ofValue w = .ok u) (v.at? path) (t.at? path) := by
  induction path generalizing v t with
  | nil =>
    rw [at?, Tree.at?]
    exact .some ((ofValue_bare v).trans ht)
  | cons turn rest ih =>
    have hrel := tree_below ht turn
    rw [at?, at?_cons]
    generalize v.below? turn = w, t.at? [turn] = u at hrel
    cases hrel with
    | none => exact .none
    | some h => exact ih h

/-- The shape has a place for every place of the value where no key stands twice. -/
theorem shape_at {t : Tree} {s : Shape} (ht : Tree.ofValue v = .ok t)
    (hs : Shape.ofValue v = .ok s) (honce : v.everywhere keysOnce = true)
    (hplain : v.everywhere (fun w => !w.isTagged) = true) (h : v.at? path = some w) :
    Shape.ofValue w = .ok (s.atPath path) := by
  induction path generalizing v t s with
  | nil =>
    obtain rfl := Option.some.inj h
    exact (shape_bare v).trans hs
  | cons turn rest ih =>
    obtain ⟨u, hbelow, hrest⟩ := Option.bind_eq_some_iff.mp h
    obtain ⟨x, -, hx⟩ := exists_of_rel_some (hbelow ▸ tree_below ht turn)
    have hshape := shape_below ht hs (holds_of_everywhere honce)
      (by simpa using holds_of_everywhere hplain) hbelow
    have hu := ih hx hshape (everywhere_below honce hbelow) (everywhere_below hplain hbelow) hrest
    cases turn <;> exact hu

end Value
end TestBench
