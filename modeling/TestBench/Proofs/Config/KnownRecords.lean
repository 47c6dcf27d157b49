import TestBench.Proofs.Config.Respelling

/-! The spelling of fields matters just where the shape does not know a record. It knows all of them
when no key stands twice, for then it has under every key what the tree has there. -/
namespace TestBench
open Config Config.Tree

namespace Config

/-- A source that says something at one path only. -/
def nest : Path → Tree → Tree
  | [], x => x
  | .key k :: rest, x => .map [(k, nest rest x)]
  | .tag tag :: rest, x => .tagged tag (nest rest x)

/-- Whether no key on a path has a key twice inside. -/
def Path.distinct (path : Path) : Prop := ∀ k, Turn.key k ∈ path → k.distinct = true

variable {o : MergeOptions} {s : Shape} {t u x : Tree} {path : Path}

theorem nest_distinct (hpath : Path.distinct path) (hx : x.distinct = true) :
    (nest path x).distinct = true := by
  induction path with
  | nil => exact hx
  | cons turn rest ih =>
    have hrest := ih fun k hk => hpath k (List.mem_cons_of_mem _ hk)
    cases turn with
    | key k =>
      have hk := hpath k List.mem_cons_self
      simp [nest, distinct_map_iff, hk, hrest]
    | tag tag => exact hrest

theorem nest_keysApart (hx : x.keysApart = true) : (nest path x).keysApart = true := by
  induction path with
  | nil => exact hx
  | cons turn rest ih =>
    cases turn with
    | key k => simp [nest, keysApart_map_iff, formsApart, ih]
    | tag tag => exact ih

theorem find?_put_self (key value : Tree) (entries : List (Tree × Tree)) :
    Tree.find? key (Tree.put key value entries) = some value := by
  induction entries with
  | nil => simp [Tree.put, Tree.find?]
  | cons e rest ih =>
    rw [Tree.put]
    split
    next hsame => rw [Tree.find?_cons, if_pos hsame]
    next hsame => rw [Tree.find?_cons, if_neg hsame, ih]

/-- A merge at one path happens there. -/
theorem at?_merge_nest (h : t.at? path = some u) :
    (merge o s t (nest path x)).at? path = some (merge o (s.atPath path) u x) := by
  induction path generalizing s t with
  | nil =>
    cases h
    rfl
  | cons turn rest ih =>
    cases turn with
    | key k =>
      cases t with
      | map own =>
        obtain ⟨a, ha, hrest⟩ := Option.bind_eq_some_iff.mp h
        rw [nest, merge, mergeEntries_eq_foldl, List.foldl_cons, List.foldl_nil, mergeEntry,
          findKey_of_find? _ ha, Option.getD_some, ha, Tree.at?, find?_put_self, Option.bind_some]
        exact ih hrest
      | _ => simp [Tree.at?] at h
    | tag tag =>
      cases t with
      | tagged own inner =>
        rw [Tree.at?] at h
        split at h
        next hsame =>
          rw [nest, merge_tagged hsame, Tree.at?, if_pos hsame]
          exact ih h
        next => cases h
      | _ => simp [Tree.at?] at h

end Config

namespace Value

variable {v w : Value} {t : Tree} {s : Shape} {name : String} {fields : List (String × Value)}
  {f : String × Value} {turn : Turn} {path : Path}

theorem lastUnder_congr {a b : Tree} (hab : a.same b = true) (hba : b.same a = true)
    (entries : List (Value × Value)) : lastUnder a entries = lastUnder b entries := by
  have hpred : (fun e : Value × Value => e.1.becomes a) = fun e => e.1.becomes b := by
    funext e
    exact congrArg (Option.any · _) (funext (same_congr_right hab hba))
  rw [lastUnder, lastUnder, hpred]

/-- Every place is also reached with keys as they are encoded. -/
theorem exists_distinct_path (h : v.at? path = some w) (s : Shape) :
    ∃ path' : Path, Path.distinct path' ∧ v.at? path' = some w ∧
      s.atPath path' = s.atPath path := by
  induction path generalizing v s with
  | nil => exact ⟨[], by simp [Path.distinct], h, rfl⟩
  | cons turn rest ih =>
    obtain ⟨u, hbelow, hrest⟩ := Option.bind_eq_some_iff.mp h
    cases turn with
    | key k =>
      obtain ⟨entries, hentries, hlast⟩ := Option.bind_eq_some_iff.mp hbelow
      obtain ⟨e, -, -, hbecomes⟩ := mem_of_lastUnder hlast
      obtain ⟨k', hk', hsame⟩ := becomes_iff.mp hbecomes
      have hback := same_symm (ofValue_distinct hk') hsame
      obtain ⟨path', hdistinct, hat, hshape⟩ := ih hrest (s.child k')
      refine ⟨.key k' :: path', ?_, ?_, ?_⟩
      · intro j hj
        rcases List.mem_cons.mp hj with heq | hj
        · cases heq
          exact ofValue_distinct hk'
        · exact hdistinct j hj
      · rw [at?, below?, hentries, Option.bind_some, lastUnder_congr hsame hback, hlast,
          Option.bind_some, hat]
      · rw [Shape.atPath, Shape.atPath, hshape, child_congr hsame hback]
    | tag tag =>
      obtain ⟨path', hdistinct, hat, hshape⟩ := ih hrest s.content
      refine ⟨.tag tag :: path', ?_, ?_, hshape⟩
      · intro j hj
        rcases List.mem_cons.mp hj with heq | hj
        · cases heq
        · exact hdistinct j hj
      · rw [at?, hbelow, Option.bind_some, hat]

/-- A field of a record at a path can be spelled in another way. -/
theorem respelled_nest {spelling : String} (h : v.at? path = some (.record name fields))
    (hf : f ∈ fields) (hform : normalizeKey spelling = normalizeKey f.1) (x : Tree) :
    Respelled v (nest path (.map [(.text f.1, x)])) (nest path (.map [(.text spelling, x)])) := by
  induction path generalizing v with
  | nil =>
    exact @Respelled.key v name fields f [] [] (.text f.1) x spelling (Option.some.inj h) hf rfl
      hform
  | cons turn rest ih =>
    obtain ⟨u, hbelow, hrest⟩ := Option.bind_eq_some_iff.mp h
    cases turn with
    | tag tag => exact .content hbelow (ih hrest)
    | key k =>
      cases hbare : v.bare with
      | record _ own =>
        obtain ⟨e, he, -, hbecomes⟩ : ∃ e ∈ own.map fun g => (Value.text g.1, g.2),
            e.2 = u ∧ e.1.becomes k = true := by
          rw [below?, hbare] at hbelow
          exact mem_of_lastUnder hbelow
        obtain ⟨g, hg, rfl⟩ := List.mem_map.mp he
        rw [becomes_of_ok rfl] at hbecomes
        obtain rfl := same_text_iff.mp hbecomes
        exact @Respelled.field v u _ own g [] [] (.text g.1) _ _ hbare hg rfl hbelow (ih hrest)
      | _ => exact @Respelled.entry v u [] [] k _ _ (by rw [hbare]; rfl) hbelow (ih hrest)

theorem normalizeKey_underscore (name : String) :
    normalizeKey (name ++ "_") = normalizeKey name := by
  simp [normalizeKey, List.filter_append]

theorem ne_append_underscore (name : String) : name ++ "_" ≠ name := by
  intro h
  have hlength := congrArg String.length h
  simp at hlength

theorem find?_text_eq_none_iff {own : List (Tree × Tree)} {key : String}
    (hkeys : own.map (·.1) = fields.map fun f => .text f.1) :
    Tree.find? (.text key) own = none ↔ key ∉ fields.map (·.1) := by
  have hmap : (∀ e ∈ own, e.1.same (.text key) = false) ↔
      ∀ k ∈ own.map (·.1), k.same (.text key) = false := by simp
  rw [find?_eq_none_iff, hmap, hkeys, List.forall_mem_map, List.mem_map, not_exists]
  refine forall_congr' fun f => ?_
  simp [Tree.same]

/-- Where the shape does not know a record, some spelling of a field matters. -/
theorem knowsRecords_of_respelled (ht : Tree.ofValue v = .ok t)
    (hfields : v.everywhere fieldsApart = true)
    (h : ∀ a b, a.distinct = true → a.keysApart = true → Respelled v a b →
      merge ⟨true, true⟩ s t a = merge ⟨true, true⟩ s t b) : KnowsRecords v s := by
  intro path name fields hat hne
  obtain ⟨path, hpath, hat, hshape⟩ := exists_distinct_path hat s
  rw [← hshape]
  by_contra hrecord
  obtain ⟨f, rest, rfl⟩ := List.exists_cons_of_ne_nil hne
  have hloose : (⟨true, true⟩ : MergeOptions).loose (s.atPath path) = false := by
    simpa [MergeOptions.loose] using hrecord
  obtain ⟨u, hu, hwu⟩ := exists_of_rel_some (hat ▸ tree_at ht path)
  have hapart : ((f :: rest).map fun f => normalizeKey f.1).Nodup :=
    of_decide_eq_true (holds_at hfields hat)
  obtain ⟨own, rfl, hkeys⟩ := keys_of_record hwu rfl hapart
  have hown : ∀ e ∈ own, e.1.distinct = true :=
    fun e he => ((distinct_map_iff.mp (ofValue_distinct hwu)).2 e he).1
  have hthere : (Tree.find? (.text f.1) own).isNone = false := by
    rw [Option.isNone_eq_false_iff, Option.isSome_iff_ne_none, Ne, find?_text_eq_none_iff hkeys]
    simp
  have hnew : Tree.find? (.text (f.1 ++ "_")) own = none := by
    rw [find?_text_eq_none_iff hkeys]
    intro hmem
    obtain ⟨g, hg, hgf⟩ := List.mem_map.mp hmem
    have heq : g = f := List.inj_on_of_nodup_map hapart hg List.mem_cons_self
      (by rw [hgf, normalizeKey_underscore])
    exact ne_append_underscore f.1 (by rw [← hgf, heq])
  have hsame := congrArg (Tree.at? · path) (h _ _ (nest_distinct hpath rfl) (nest_keysApart rfl)
    (respelled_nest hat List.mem_cons_self (normalizeKey_underscore f.1) .null))
  simp only [at?_merge_nest hu, Option.some.injEq] at hsame
  rw [merge, merge, Tree.map.injEq] at hsame
  have hkeysSame := congrArg (List.map (·.1)) hsame
  rw [(joined_mergeEntries hloose hown rfl).keys, (joined_mergeEntries hloose hown rfl).keys]
    at hkeysSame
  simp [hthere, hnew] at hkeysSame

/-- Whether a tagged value of a configuration has no records inside. -/
def plainInside : Value → Bool
  | .tagged _ inner => inner.everywhere fun w => !w.isRecord
  | _ => true

/-- The shape knows all records when no key stands twice. -/
theorem knowsRecords_of_keysOnce (ht : Tree.ofValue v = .ok t) (hs : Shape.ofValue v = .ok s)
    (honce : v.everywhere keysOnce = true) (hplain : v.everywhere plainInside = true) :
    KnowsRecords v s := by
  intro path name fields hat hne
  induction path generalizing v t s with
  | nil =>
    have hlaid := laid_of_ofValue ht hs
    rw [show v.bare = .record name fields from Option.some.inj hat] at hlaid
    cases hlaid with
    | record => rfl
    | content case => cases case
    | plain entries => cases entries
  | cons turn rest ih =>
    obtain ⟨u, hbelow, hrest⟩ := Option.bind_eq_some_iff.mp hat
    obtain ⟨x, -, hx⟩ := exists_of_rel_some (hbelow ▸ tree_below ht turn)
    cases htagged : v.bare.isTagged with
    | false =>
      have hshape := shape_below ht hs (holds_of_everywhere honce) htagged hbelow
      have hrecord := ih hx hshape (everywhere_below honce hbelow) (everywhere_below hplain hbelow)
        hrest
      cases turn <;> exact hrecord
    | true =>
      have hinside := holds_of_everywhere hplain
      cases hbare : v.bare with
      | tagged tag inner =>
        rw [hbare] at hinside
        cases turn with
        | key k => simp [below?, hbare, entries?] at hbelow
        | tag r =>
          rw [below?, hbare, case?, Option.bind_some] at hbelow
          split at hbelow <;> cases hbelow
          cases holds_at hinside hrest
      | _ => simp [hbare, isTagged] at htagged

/-- Fields may be spelled in any way just when the shape knows the records they are laid over, and
it does when no key stands twice and tagged values are plain. -/
theorem respelling_changes_nothing_iff (ht : Tree.ofValue v = .ok t)
    (hs : Shape.ofValue v = .ok s) (hfields : v.everywhere fieldsApart = true) :
    ((∀ weaklyTyped a b, a.distinct = true → a.keysApart = true → Respelled v a b →
        merge ⟨true, weaklyTyped⟩ s t a = merge ⟨true, weaklyTyped⟩ s t b) ↔ KnowsRecords v s) ∧
      (v.everywhere keysOnce = true → v.everywhere plainInside = true → KnowsRecords v s) := by
  refine ⟨⟨fun h => ?_, ?_⟩, fun honce hplain => knowsRecords_of_keysOnce ht hs honce hplain⟩
  · exact knowsRecords_of_respelled ht hfields fun a b hd ha hab => h true a b hd ha hab
  · intro hknows weaklyTyped a b hd ha hab
    exact merge_respelled rfl hab ht hknows hfields hd ha

/-- Fields of a listener, and of the case that one of them holds, in two spellings. -/
theorem respelling_changes_nothing_inlet :
    let v : Value := .record "Inlet" [("listen_addr", .text "a"),
      ("output", .recordCase "Output" "Kafka" [("topic", .text "flows")])]
    let t : Tree := .map [(.text "listen_addr", .text "a"),
      (.text "output", .tagged "Kafka" (.map [(.text "topic", .text "flows")]))]
    let s : Shape := .record [("listen_addr", .plain),
      ("output", .variant (.record [("topic", .plain)]))]
    let a : Tree := .map [(.text "OUTPUT", .tagged "Kafka" (.map [(.text "topic", .text "b")]))]
    let b : Tree := .map [(.text "out-put", .tagged "Kafka" (.map [(.text "To_pic", .text "b")]))]
    (Tree.ofValue v = .ok t ∧ Shape.ofValue v = .ok s ∧ v.everywhere fieldsApart = true ∧
      v.everywhere keysOnce = true ∧ v.everywhere plainInside = true) ∧
    merge ⟨true, true⟩ s t a = merge ⟨true, true⟩ s t b := by
  intro v t s a b
  have hhyp : Tree.ofValue v = .ok t ∧ Shape.ofValue v = .ok s ∧
      v.everywhere fieldsApart = true ∧ v.everywhere keysOnce = true ∧
        v.everywhere plainInside = true := ⟨rfl, rfl, by decide +kernel, rfl, rfl⟩
  obtain ⟨hiff, hknows⟩ := respelling_changes_nothing_iff hhyp.1 hhyp.2.1 hhyp.2.2.1
  let output : Value := .recordCase "Output" "Kafka" [("topic", .text "flows")]
  let x : Tree := .tagged "Kafka" (.map [(.text "topic", .text "b")])
  let y : Tree := .tagged "Kafka" (.map [(.text "To_pic", .text "b")])
  have htopic : Respelled output x y := .content rfl
    (@Respelled.key _ _ _ _ [] [] (.text "topic") _ "To_pic" rfl List.mem_cons_self rfl rfl)
  have hmem : ("output", output) ∈ [("listen_addr", .text "a"), ("output", output)] := by simp
  have hinside : Respelled v a (.map [(.text "OUTPUT", y)]) :=
    @Respelled.field v output _ _ _ [] [] (.text "OUTPUT") x y rfl hmem (by decide +kernel)
      rfl htopic
  have houtput : Respelled v (.map [(.text "OUTPUT", y)]) b :=
    @Respelled.key v _ _ _ [] [] (.text "OUTPUT") y "out-put" rfl hmem (by decide +kernel)
      (by decide +kernel)
  exact ⟨hhyp, hiff.mpr (hknows hhyp.2.2.2.1 hhyp.2.2.2.2) true a b rfl (by decide +kernel)
    (hinside.trans houtput)⟩

/-- A map that names a key twice, first for a number and then for a record, has the shape of the
number where its tree has the record. -/
theorem twice_named_record_unknown :
    let v : Value := .map [(.text "a", .int 1), (.text "a", .record "V" [("a_b", .int 1)])]
    let t : Tree := .map [(.text "a", .map [(.text "a_b", .int 1)])]
    let s : Shape := .map [(.text "a", .plain), (.text "a", .record [("a_b", .plain)])]
    let a : Tree := .map [(.text "a", .map [(.text "a_b", .int 2)])]
    let b : Tree := .map [(.text "a", .map [(.text "AB", .int 2)])]
    (Tree.ofValue v = .ok t ∧ Shape.ofValue v = .ok s ∧ v.everywhere fieldsApart = true ∧
      a.distinct = true ∧ a.keysApart = true ∧ Respelled v a b) ∧
    merge ⟨true, true⟩ s t a = .map [(.text "a", .map [(.text "a_b", .int 2)])] ∧
    merge ⟨true, true⟩ s t b =
      .map [(.text "a", .map [(.text "a_b", .int 1), (.text "AB", .int 2)])] := by
  intro v t s a b
  have hrespelled : Respelled v a b :=
    @Respelled.entry v (.record "V" [("a_b", .int 1)]) [] [] (.text "a") _ _ rfl rfl
      (@Respelled.key _ _ _ _ [] [] (.text "a_b") _ "AB" rfl List.mem_cons_self rfl rfl)
  exact ⟨⟨rfl, rfl, by decide +kernel, rfl, by decide +kernel, hrespelled⟩, rfl, rfl⟩

end Value
end TestBench
