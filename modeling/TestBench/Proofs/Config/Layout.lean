import TestBench.Proofs.Config.ExactKeys

/-! The shape of a value mirrors its tree: place by place both tell records, maps and cases apart in
the same way, with the same keys. So keys of maps are never taken loosely. -/
namespace TestBench
open Config Config.Tree

namespace Value

/-- How the tree and the shape of a value go together where both begin. -/
inductive Alike : Value → Tree → Shape → Prop where
  /-- the map of a record is a record in the shape, with the same fields in the same order -/
  | record {name : String} {fields : List (String × Value)} {own : List (Tree × Tree)}
      {shapes : List (String × Shape)} (fieldNames : shapes.map (·.1) = fields.map (·.1))
      (keys : own.map (·.1) = shapes.map fun s => .text s.1) :
      Alike (.record name fields) (.map own) (.record shapes)
  /-- the map of a map is a map in the shape, with the same keys in the same order -/
  | map {entries : List (Value × Value)} {own : List (Tree × Tree)}
      {shapes : List (Tree × Shape)}
      (given : List.Forall₂ (fun e s => Tree.ofValue e.1 = .ok s.1) entries shapes)
      (keys : own.map (·.1) = shapes.map (·.1)) :
      Alike (.map entries) (.map own) (.map shapes)
  | content {v w : Value} {variant : String} {t : Tree} {s : Shape}
      (case : v.case? = some (variant, w)) : Alike v (.tagged variant t) (.variant s)
  | plain {v : Value} {t : Tree} (entries : v.entries? = none) (case : v.case? = none)
      (tree : t.isLeaf = true ∨ t = .null) : Alike v t .plain

variable {v w : Value} {t : Tree} {s : Shape}

theorem forall₂_shapes {entries : List (Value × Value)} {shapes : List (Tree × Shape)}
    (h : Shape.ofEntries entries = .ok shapes) :
    List.Forall₂ (fun e s => Tree.ofValue e.1 = .ok s.1 ∧ Shape.ofValue e.2 = .ok s.2) entries
      shapes := by
  induction entries generalizing shapes with
  | nil =>
    cases h
    exact .nil
  | cons e rest ih =>
    obtain ⟨k, hk, h⟩ := bind_eq_ok.mp h
    obtain ⟨s, hs, h⟩ := bind_eq_ok.mp h
    obtain ⟨others, hothers, h⟩ := bind_eq_ok.mp h
    cases h
    exact .cons ⟨hk, hs⟩ (ih hothers)

theorem exists_of_mem_shapes {entries : List (Value × Value)} {shapes : List (Tree × Shape)}
    {c : Tree × Shape} (h : Shape.ofEntries entries = .ok shapes) (hc : c ∈ shapes) :
    ∃ e ∈ entries, Shape.ofValue e.2 = .ok c.2 := by
  obtain ⟨hlen, hget⟩ := List.forall₂_iff_get.mp (forall₂_shapes h)
  obtain ⟨i, rfl⟩ := List.get_of_mem hc
  have hi : i.val < entries.length := by omega
  exact ⟨entries.get ⟨i, hi⟩, List.get_mem _ _, (hget i hi i.isLt).2⟩

theorem names_shapes {fields : List (String × Value)} {shapes : List (String × Shape)}
    (h : Shape.ofFields fields = .ok shapes) : shapes.map (·.1) = fields.map (·.1) := by
  induction fields generalizing shapes with
  | nil =>
    cases h
    rfl
  | cons f rest ih =>
    obtain ⟨s, hs, h⟩ := bind_eq_ok.mp h
    obtain ⟨others, hothers, h⟩ := bind_eq_ok.mp h
    cases h
    rw [List.map_cons, List.map_cons, ih hothers]

/-- Entries of different keys are encoded one after the other. -/
theorem forall₂_ofEntries {entries : List (Value × Value)} {done own : List (Tree × Tree)}
    (honce : keysDiffer entries = true)
    (hnew : ∀ e ∈ entries, ∀ k, Tree.ofValue e.1 = .ok k → Tree.find? k done = none)
    (h : Tree.ofEntries done entries = .ok own) :
    ∃ new, own = done ++ new ∧
      List.Forall₂ (fun e o => Tree.ofValue e.1 = .ok o.1) entries new := by
  induction entries generalizing done with
  | nil =>
    cases h
    exact ⟨[], by simp, .nil⟩
  | cons e rest ih =>
    obtain ⟨k, hk, h⟩ := bind_eq_ok.mp h
    obtain ⟨u, hu, h⟩ := bind_eq_ok.mp h
    rw [keysDiffer_cons hk] at honce
    have hput : Tree.put k u done = done ++ [(k, u)] :=
      put_of_find?_eq_none u (hnew e List.mem_cons_self k hk)
    rw [hput] at h
    have hstep : ∀ d ∈ rest, ∀ j, Tree.ofValue d.1 = .ok j →
        Tree.find? j (done ++ [(k, u)]) = none := by
      intro d hd j hj
      have hne : ¬k.same j = true := not_same_of_becomes hk hj (honce.1 d hd)
      rw [find?_append, hnew d (List.mem_cons_of_mem _ hd) j hj, Option.none_or, Tree.find?_cons,
        if_neg hne]
      rfl
    obtain ⟨new, rfl, hrel⟩ := ih honce.2 hstep h
    exact ⟨(k, u) :: new, by simp, .cons hk hrel⟩

theorem keys_eq_of_forall₂ {α β : Type} {entries : List (Value × Value)} {as : List (Tree × α)}
    {bs : List (Tree × β)}
    (ha : List.Forall₂ (fun e a => Tree.ofValue e.1 = .ok a.1) entries as)
    (hb : List.Forall₂ (fun e b => Tree.ofValue e.1 = .ok b.1) entries bs) :
    as.map (·.1) = bs.map (·.1) := by
  induction ha generalizing bs with
  | nil =>
    cases hb
    rfl
  | cons h _ ih =>
    cases hb with
    | cons h' hrest => rw [List.map_cons, List.map_cons, ih hrest, Except.ok.inj (h.symm.trans h')]

/-- A map that holds no key twice has its keys in its tree and in its shape, in their order. -/
theorem keys_of_keysDiffer {entries : List (Value × Value)} {own : List (Tree × Tree)}
    {shapes : List (Tree × Shape)} (honce : keysDiffer entries = true)
    (htree : Tree.ofEntries [] entries = .ok own) (hshape : Shape.ofEntries entries = .ok shapes) :
    own.map (·.1) = shapes.map (·.1) := by
  obtain ⟨new, rfl, hnew⟩ := forall₂_ofEntries honce (fun _ _ _ _ => rfl) htree
  exact keys_eq_of_forall₂ hnew ((forall₂_shapes hshape).imp fun _ _ h => h.1)

theorem alike_of_laid (h : Laid v t s) (honce : v.keysOnce = true)
    (hplain : v.isTagged = false) : Alike v t s := by
  cases h with
  | tagged => cases hplain
  | record tree shape =>
    refine .record (names_shapes shape) ?_
    rw [ofFields_eq_ofEntries] at tree
    rw [keys_of_keysDiffer honce tree (shapes_of_fields shape), List.map_map]
    rfl
  | map tree shape =>
    exact .map ((forall₂_shapes shape).imp fun _ _ h => h.1) (keys_of_keysDiffer honce tree shape)
  | content case => exact .content case
  | plain entries case tree => exact .plain entries case tree

/-- The shape of a value without records has none. -/
theorem recordless_of_ofValue (hrecords : v.everywhere (fun w => !w.isRecord) = true)
    (hplain : v.everywhere (fun w => !w.isTagged) = true) (h : Shape.ofValue v = .ok s) :
    s.recordless := by
  induction v generalizing s with
  | map entries ih =>
    obtain ⟨shapes, hshapes, h⟩ := bind_eq_ok.mp h
    cases h
    refine recordless_map fun c hc => ?_
    obtain ⟨e, he, hshape⟩ := exists_of_mem_shapes hshapes hc
    exact (ih e he).2 (everywhere_of_mem_entries hrecords rfl e he)
      (everywhere_of_mem_entries hplain rfl e he) hshape
  | wrapper name inner ih => exact ih hrecords hplain h
  | wrapperCase type variant inner ih =>
    obtain ⟨content, hcontent, h⟩ := bind_eq_ok.mp h
    cases h
    exact recordless_variant (ih (everywhere_of_case hrecords rfl) (everywhere_of_case hplain rfl)
      hcontent)
  | tupleCase type variant items =>
    cases h
    exact recordless_variant recordless_plain
  | record name fields =>
    have hrecord := holds_of_everywhere hrecords
    simp [bare, isRecord] at hrecord
  | recordCase type variant fields =>
    have hrecord := holds_of_everywhere (everywhere_of_case hrecords rfl)
    simp [bare, isRecord] at hrecord
  | tagged tag inner =>
    have htagged := holds_of_everywhere hplain
    simp [bare, isTagged] at htagged
  | broken message => cases h
  | keyless inner => cases h
  | _ =>
    cases h
    exact recordless_plain

/-- Value, tree and shape have the same places and are alike at each. -/
def Mirrored (v : Value) (t : Tree) (s : Shape) : Prop :=
  ∀ path, Option.Rel (fun w u => Tree.ofValue w = .ok u ∧ Alike w u (s.atPath path))
    (v.at? path) (t.at? path)

/-- Whether keys are normalised makes no difference, and wherever a map of a source meets one of the
tree all keys of both stay apart. -/
def KeptExactly (t : Tree) (s : Shape) : Prop :=
  (∀ weaklyTyped src, merge ⟨true, weaklyTyped⟩ s t src = merge ⟨false, weaklyTyped⟩ s t src) ∧
    ∀ o src, src.distinct = true → ∀ path own given, t.at? path = some (.map own) →
      src.at? path = some (.map given) →
        ∃ result, (merge o s t src).at? path = some (.map result) ∧
          Joined o (s.atPath path) own given result

/-- What can be encoded has a shape, which mirrors its tree when no key stands twice. Without
records its keys are user data and stay what they are. -/
theorem shape_mirrors_tree (ht : Tree.ofValue v = .ok t)
    (honce : v.everywhere keysOnce = true)
    (hplain : v.everywhere (fun w => !w.isTagged) = true) :
    ∃ s, Shape.ofValue v = .ok s ∧ Mirrored v t s ∧
      (v.everywhere (fun w => !w.isRecord) = true → KeptExactly t s) := by
  obtain ⟨s, hs⟩ := Shape.ofValue_ok ht
  refine ⟨s, hs, fun path => ?_, fun hrecords => ?_⟩
  · have hrel := tree_at ht path
    generalize hat : v.at? path = w, t.at? path = u at hrel
    cases hrel with
    | none => exact .none
    | some hw =>
      have hlaid := laid_of_ofValue hw (shape_at ht hs honce hplain hat)
      rw [bare_of_at? hat] at hlaid
      have htagged := holds_at hplain hat
      exact .some ⟨hw, alike_of_laid hlaid (holds_at honce hat) (by simpa using htagged)⟩
  · have hnone := recordless_of_ofValue hrecords hplain hs
    exact ⟨fun weaklyTyped src => merge_eq_of_recordless weaklyTyped hnone t src,
      fun o src hsrc path own given hown hgiven =>
        joined_at hnone (ofValue_distinct ht) hsrc hown hgiven⟩

/-- Ports of similar names: one holds a case, and the other is added beside it. -/
theorem shape_mirrors_tree_ports :
    let v : Value := .map [(.text "eth_0", .wrapperCase "Port" "Vlan" (.int 7))]
    let t : Tree := .map [(.text "eth_0", .tagged "Vlan" (.int 7))]
    let s : Shape := .map [(.text "eth_0", .variant .plain)]
    let src : Tree := .map [(.text "ETH-0", .null)]
    (Tree.ofValue v = .ok t ∧ v.everywhere keysOnce = true ∧
      v.everywhere (fun w => !w.isTagged) = true ∧ v.everywhere (fun w => !w.isRecord) = true) ∧
    Mirrored v t s ∧
    ∃ result, merge ⟨true, true⟩ s t src = .map result ∧
      result.map (·.1) = [.text "eth_0", .text "ETH-0"] := by
  intro v t s src
  have hhyp : Tree.ofValue v = .ok t ∧ v.everywhere keysOnce = true ∧
      v.everywhere (fun w => !w.isTagged) = true ∧
        v.everywhere (fun w => !w.isRecord) = true := ⟨rfl, rfl, rfl, rfl⟩
  obtain ⟨_, hs, hmirror, hkept⟩ := shape_mirrors_tree hhyp.1 hhyp.2.1 hhyp.2.2.1
  cases hs
  obtain ⟨result, hresult, hjoined⟩ := (hkept hhyp.2.2.2).2 ⟨true, true⟩ src rfl [] _ _ rfl rfl
  exact ⟨hhyp, hmirror, result, Option.some.inj hresult, hjoined.keys⟩

end Value
end TestBench
