import TestBench.Proofs.Diff.Sides

/-! A comparison shows the whole of the first tree, line by line as it is shown alone, and marks a
line of its own wherever the trees are not equivalent. -/
namespace TestBench.Diff
open Named Node

/-- Whether the keys of a map are in order. -/
def Node.inOrder : Node → Bool
  | .map entries => decide ((entries.map (·.1)).Pairwise fun a b => textLe a b = true)
  | _ => true

/-- Whether this is a container that holds nothing. -/
def Node.isHollow : Node → Bool
  | .seq items => items.isEmpty
  | .map entries => entries.isEmpty
  | .record _ fields => fields.isEmpty
  | _ => false

/-- A marked line without its mark, unless it shows only the second tree. -/
def unmark? (line : String) : Option String :=
  match line.toList with
  | ' ' :: cs => some (String.ofList cs)
  | '-' :: cs => some (String.ofList cs)
  | _ => none

/-- Whether the mark of a line says that only one of the trees shows it. -/
def tellsApart (line : String) : Bool :=
  line.toList.head? == some '-' || line.toList.head? == some '+'

variable {gs ws : List (String × Node)} {g w : Node}

theorem unmark?_render (l : Line) :
    unmark? l.render = if l.side = .both ∨ l.side = .got then some l.text else none := by
  cases l with
  | mk side text => cases side <;> simp [unmark?, Line.render, Side.mark]

theorem tellsApart_render (l : Line) : tellsApart l.render = true ↔ l.side ≠ .both := by
  cases l with
  | mk side text => cases side <;> simp [tellsApart, Line.render, Side.mark]

theorem filterMap_unmark? (ls : List Line) :
    (ls.map Line.render).filterMap unmark? = shownOn .got ls := by
  rw [shownOn, List.filterMap_map, ← List.filterMap_eq_map, List.filterMap_filter]
  refine List.filterMap_congr fun l _ => ?_
  rw [Function.comp_apply, unmark?_render]
  simp

section Shown

/-- The names of the first list stand in their order among those of both. -/
theorem filter_nameUnion (a b : List String) : (nameUnion a b).filter (· ∈ a) = a := by
  suffices h : ∀ names : List String, a ⊆ names → names.filter (· ∈ a) = a →
      (nameUnion names b).filter (· ∈ a) = a from
    h a (List.Subset.refl a) (List.filter_eq_self.mpr fun n hn => decide_eq_true hn)
  induction b with
  | nil => exact fun names _ h => h
  | cons n rest ih =>
    intro names hsub h
    rw [nameUnion_cons]
    split
    next => exact ih names hsub h
    next hn =>
      rw [List.contains_iff_mem] at hn
      refine ih (names ++ [n]) (fun m hm => List.mem_append_left _ (hsub hm)) ?_
      rw [List.filter_append, h, List.filter_cons_of_neg (by simpa using fun hm => hn (hsub hm)),
        List.filter_nil, List.append_nil]

theorem filter_keyUnion {a : List String} (b : List String) (hnodup : a.Nodup)
    (horder : a.Pairwise fun k l => textLe k l = true) : (keyUnion a b).filter (· ∈ a) = a := by
  have hunion : (keyUnion a b).Pairwise fun k l => textLe k l = true :=
    (sortBy_pairwise textLe_total textLe_trans (a ++ b)).sublist (eraseReps_sublist _)
  refine List.Perm.eq_of_pairwise (fun k l _ _ => textLe_antisymm k l)
    (hunion.sublist List.filter_sublist) horder ?_
  refine (List.perm_ext_iff_of_nodup ((nodup_keyUnion a b).sublist List.filter_sublist)
    hnodup).mpr fun k => ?_
  rw [List.mem_filter, decide_eq_true_iff, mem_keyUnion]
  exact ⟨fun h => h.2, fun h => ⟨.inl h, h⟩⟩

/-- The part that an entry of that name makes, if there is one. -/
def partOf (gs : List (String × Node)) (name : String) : List (String × List String) :=
  ((find? name gs).map fun g => (keyLabel name, g.lines)).toList

theorem flatMap_partOf {names : List String} (hgs : (gs.map (·.1)).Nodup)
    (hnames : names.filter (· ∈ gs.map (·.1)) = gs.map (·.1)) :
    names.flatMap (partOf gs) = entryParts gs := by
  have hfilter : names.flatMap (partOf gs) =
      (names.filter (· ∈ gs.map (·.1))).flatMap (partOf gs) := by
    clear hnames
    induction names with
    | nil => rfl
    | cons name rest ih =>
      rw [List.flatMap_cons, List.filter_cons, ih]
      split
      next => rw [List.flatMap_cons]
      next hname =>
        rw [decide_eq_true_iff, ← find?_eq_none_iff] at hname
        rw [partOf, hname]
        rfl
  rw [hfilter, hnames, List.flatMap_map, entryParts, ← List.flatMap_singleton' (List.map _ gs),
    List.flatMap_map]
  refine List.flatMap_congr fun e he => ?_
  rw [partOf, (find?_eq_some_iff_mem hgs).mpr he]
  rfl

/-- Whether a comparison shows the whole of its first tree. -/
def ShownWhole (g w : Node) : Prop :=
  ShowsBlock .got (fun d label suffix => compareAt d label suffix g w) g.lines

theorem entryLines_got (ih : ∀ e ∈ gs, ∀ f ∈ ws, ShownWhole e.2 f.2) (name : String) :
    ShowsStack .got (fun d => entryLines gs ws name d) (partOf gs name) := by
  simp only [entryLines, partOf]
  cases hg : find? name gs with
  | none =>
    cases find? name ws with
    | none => exact showsStack_nil .got
    | some w => exact (showsWant (keyLabel name) w.lines).got
  | some g =>
    cases hw : find? name ws with
    | none => exact (showsGot (keyLabel name) g.lines).got
    | some w =>
      exact (ih _ (mem_of_find?_eq_some hg) _ (mem_of_find?_eq_some hw)).part (keyLabel name)

/-- Entries that are compared under these names show those of the first tree in their order. -/
theorem arrange_got {names : List String} (hgs : (gs.map (·.1)).Nodup)
    (hnames : names.filter (· ∈ gs.map (·.1)) = gs.map (·.1))
    (ih : ∀ e ∈ gs, ∀ f ∈ ws, ShownWhole e.2 f.2) :
    ShowsStack .got (fun d => arrange d (compareEntries d ws gs) ws names) (entryParts gs) := by
  simp only [arrange_eq]
  rw [← flatMap_partOf hgs hnames]
  clear hnames
  induction names with
  | nil => exact showsStack_nil .got
  | cons name rest hrest => exact (entryLines_got ih name).append hrest

theorem compareItems_whole {gs ws : List Node} (ih : ∀ g ∈ gs, ∀ w ∈ ws, ShownWhole g w) :
    ShowsStack .got (fun d => compareItems d gs ws) (itemParts gs) := by
  induction gs generalizing ws with
  | nil => exact (compareItems_want ws).got
  | cons g gs hrest =>
    cases ws with
    | nil => exact (compareItems_got (g :: gs)).got
    | cons w ws =>
      rw [List.forall_mem_cons] at ih
      simp only [compareItems]
      exact ((ih.1 w List.mem_cons_self).part "").append
        (hrest fun g hg w hw => ih.2 g hg w (List.mem_cons_of_mem _ hw))

/-- A comparison shows the first tree as it is shown alone, unless this holds an empty container:
that has one line of its own, but two when something is missing in it. -/
theorem shownWhole (hg : g.distinctKeys = true) (horder : ∀ n ∈ g.parts, n.inOrder = true)
    (hfull : ∀ n ∈ g.parts, n.isHollow = false) : ShownWhole g w := by
  induction g, w using comparisonInduction with
  | equivalent g w heq =>
    simp only [ShownWhole, compareAt_of_equivalent heq]
    exact (showsBoth g.lines).got
  | apart g w heq hkind =>
    simp only [ShownWhole, compareAt_of_not_descends heq hkind]
    exact (showsEach g.lines w.lines).got
  | seq gs ws heq ih =>
    rw [parts, List.forall_mem_cons, forall_partsOfItems_iff] at horder hfull
    have hitems : ShowsStack .got (fun d => compareItems d gs ws) (itemParts gs) :=
      compareItems_whole fun g hmem w hmem' =>
        ih g hmem w hmem' (distinctKeys_seq_iff.mp hg g hmem) (horder.2 g hmem) (hfull.2 g hmem)
    simp only [ShownWhole, compareAt, if_neg heq,
      lines_seq (List.isEmpty_eq_false_iff.mp hfull.1)]
    exact hitems.within "[" "]"
  | map gs ws heq ih =>
    rw [parts, List.forall_mem_cons, forall_partsOfEntries_iff] at horder hfull
    obtain ⟨hnodup, hkeys⟩ := distinctKeys_map_iff.mp hg
    have hwhole : ∀ e ∈ gs, ∀ f ∈ ws, ShownWhole e.2 f.2 := fun e he f hf =>
      ih e he f hf (hkeys e he) (horder.2 e he) (hfull.2 e he)
    have hentries := arrange_got hnodup
      (filter_keyUnion (ws.map (·.1)) hnodup (of_decide_eq_true horder.1)) hwhole
    simp only [ShownWhole, compareAt, if_neg heq,
      lines_map (List.isEmpty_eq_false_iff.mp hfull.1)]
    exact hentries.within "\x7b" "\x7d"
  | record name gs ws heq ih =>
    rw [parts, List.forall_mem_cons, forall_partsOfEntries_iff] at horder hfull
    obtain ⟨hnodup, hkeys⟩ := distinctKeys_record_iff.mp hg
    have hwhole : ∀ e ∈ gs, ∀ f ∈ ws, ShownWhole e.2 f.2 := fun e he f hf =>
      ih e he f hf (hkeys e he) (horder.2 e he) (hfull.2 e he)
    have hfields := arrange_got hnodup (filter_nameUnion _ (ws.map (·.1))) hwhole
    simp only [ShownWhole, compareAt, if_neg heq,
      lines_record (List.isEmpty_eq_false_iff.mp hfull.1)]
    exact hfields.within (name ++ "\x7b") "\x7d"

end Shown

section Marked

/-- Whether no line tells the trees apart. -/
def Unmarked (ls : List Line) : Prop := ∀ l ∈ ls, l.side = .both

theorem not_unmarked_emit {own : Side} (hown : own ≠ .both) (d : Nat) (label suffix : String)
    (n : Node) : ¬Unmarked (emit own d label n.lines suffix) := by
  intro h
  have hne : emit own d label n.lines suffix ≠ [] := emit_ne_nil n.lines_ne_nil
  obtain ⟨l, rest, hlines⟩ := List.exists_cons_of_ne_nil hne
  have hside : ∀ k ∈ emit own d label n.lines suffix, k.side = own :=
    List.forall_mem_map.mpr fun _ _ => rfl
  have hl : l ∈ emit own d label n.lines suffix := hlines ▸ List.mem_cons_self
  exact hown ((hside l hl).symm.trans (h l hl))

theorem unmarked_append {as bs : List Line} :
    Unmarked (as ++ bs) ↔ Unmarked as ∧ Unmarked bs := List.forall_mem_append

theorem unmarked_of_bracket {d : Nat} {label opening closing suffix : String} {inner : List Line}
    (h : Unmarked (bracket d label opening closing suffix inner)) : Unmarked inner :=
  (unmarked_append.mp (unmarked_append.mp h).1).2

/-- Whether a comparison of these marks a line unless they are equivalent. -/
def ToldApart (g w : Node) : Prop :=
  ∀ d label suffix, Unmarked (compareAt d label suffix g w) → g.equivalent w = true

theorem itemsEquivalent_of_unmarked {gs ws : List Node} {d : Nat}
    (ih : ∀ g ∈ gs, ∀ w ∈ ws, ToldApart g w) (h : Unmarked (compareItems d gs ws)) :
    itemsEquivalent gs ws = true := by
  induction gs generalizing ws with
  | nil =>
    cases ws with
    | nil => rfl
    | cons w ws =>
      rw [compareItems, List.flatMap_cons, unmarked_append] at h
      exact absurd h.1 (not_unmarked_emit (by decide) d "" "," w)
  | cons g gs hrest =>
    cases ws with
    | nil =>
      rw [compareItems, unmarked_append] at h
      exact absurd h.1 (not_unmarked_emit (by decide) d "" "," g)
    | cons w ws =>
      rw [List.forall_mem_cons] at ih
      rw [compareItems, unmarked_append] at h
      rw [itemsEquivalent, ih.1 w List.mem_cons_self d "" "," h.1, Bool.true_and]
      exact hrest (fun g hg w hw => ih.2 g hg w (List.mem_cons_of_mem _ hw)) h.2

theorem rel_of_unmarked {d : Nat} (ih : ∀ e ∈ gs, ∀ f ∈ ws, ToldApart e.2 f.2) {name : String}
    (h : Unmarked (entryLines gs ws name d)) :
    Option.Rel (fun g w => g.equivalent w = true) (find? name gs) (find? name ws) := by
  rw [entryLines] at h
  cases hg : find? name gs with
  | none =>
    cases hw : find? name ws with
    | none => exact .none
    | some w =>
      rw [hg, hw] at h
      exact absurd h (not_unmarked_emit (by decide) d (keyLabel name) "," w)
  | some g =>
    cases hw : find? name ws with
    | none =>
      rw [hg, hw] at h
      exact absurd h (not_unmarked_emit (by decide) d (keyLabel name) "," g)
    | some w =>
      rw [hg, hw] at h
      exact .some (ih _ (mem_of_find?_eq_some hg) _ (mem_of_find?_eq_some hw) d _ _ h)

/-- Entries that no line tells apart are as many and equivalent one by one. -/
theorem entriesWithin_of_unmarked {names : List String} {d : Nat} (hgs : (gs.map (·.1)).Nodup)
    (hws : (ws.map (·.1)).Nodup) (hleft : gs.map (·.1) ⊆ names) (hright : ws.map (·.1) ⊆ names)
    (ih : ∀ e ∈ gs, ∀ f ∈ ws, ToldApart e.2 f.2)
    (h : Unmarked (arrange d (compareEntries d ws gs) ws names)) :
    (gs.length == ws.length && entriesWithin gs ws) = true := by
  rw [arrange_eq] at h
  obtain ⟨hlen, hmatched⟩ := matched_of_rel hgs hws hleft hright fun name hname =>
    rel_of_unmarked (d := d) ih fun l hl => h l (List.mem_flatMap.mpr ⟨name, hname, hl⟩)
  rw [Bool.and_eq_true, beq_iff_eq, entriesWithin_iff]
  exact ⟨hlen, hmatched⟩

/-- Some line of a comparison is marked unless the trees are equivalent. -/
theorem toldApart (hg : g.distinctKeys = true) (hw : w.distinctKeys = true) : ToldApart g w := by
  induction g, w using comparisonInduction with
  | equivalent g w heq => exact fun _ _ _ _ => heq
  | apart g w heq hkind =>
    intro d label suffix h
    rw [compareAt_of_not_descends heq hkind, unmarked_append] at h
    exact absurd h.1 (not_unmarked_emit (by decide) d label suffix g)
  | seq gs ws heq ih =>
    rw [distinctKeys_seq_iff] at hg hw
    intro d label suffix h
    rw [compareAt, if_neg heq] at h
    exact itemsEquivalent_of_unmarked
      (fun g hgs w hws => ih g hgs w hws (hg g hgs) (hw w hws)) (unmarked_of_bracket h)
  | map gs ws heq ih =>
    rw [distinctKeys_map_iff] at hg hw
    intro d label suffix h
    rw [compareAt, if_neg heq] at h
    rw [equivalent]
    exact entriesWithin_of_unmarked hg.1 hw.1 (fun key hkey => mem_keyUnion.mpr (.inl hkey))
      (fun key hkey => mem_keyUnion.mpr (.inr hkey))
      (fun e he f hf => ih e he f hf (hg.2 e he) (hw.2 f hf)) (unmarked_of_bracket h)
  | record name gs ws heq ih =>
    rw [distinctKeys_record_iff] at hg hw
    intro d label suffix h
    rw [compareAt, if_neg heq, if_pos rfl] at h
    rw [equivalent, beq_self_eq_true, Bool.true_and]
    exact entriesWithin_of_unmarked hg.1 hw.1 (fun key hkey => mem_nameUnion.mpr (.inl hkey))
      (fun key hkey => mem_nameUnion.mpr (.inr hkey))
      (fun e he f hf => ih e he f hf (hg.2 e he) (hw.2 f hf)) (unmarked_of_bracket h)

end Marked

/-- A comparison loses and invents nothing of the first tree: without those of the second and
without their marks, its lines are the lines of that tree, unless it holds an empty container. Some
line is marked as one of a single tree, and there is no text at all just when the trees are
equivalent. -/
theorem diff_shows_whole_got (hg : g.distinctKeys = true) (hw : w.distinctKeys = true)
    (horder : ∀ n ∈ g.parts, n.inOrder = true) (hfull : ∀ n ∈ g.parts, n.isHollow = false) :
    let marked := (diffLines g w).map Line.render
    (¬g.equivalent w = true →
      marked.filterMap unmark? = g.lines ∧ ∃ line ∈ marked, tellsApart line = true) ∧
    ("\n".intercalate marked = "" ↔ g.equivalent w = true) := by
  intro marked
  refine ⟨fun hne => ?_, renderLines_eq_empty_iff.trans diffLines_eq_nil_iff⟩
  have hlines : diffLines g w = compareAt 0 "" "" g w := if_neg hne
  constructor
  · rw [filterMap_unmark?, hlines]
    exact (shownWhole hg horder hfull).outermost
  · by_contra hnone
    refine hne (toldApart hg hw 0 "" "" fun l hl => ?_)
    by_contra hside
    exact hnone ⟨l.render, List.mem_map_of_mem (hlines ▸ hl), (tellsApart_render l).mpr hside⟩

/-- Fields in another order, a key that only one of the maps has, and a list that is longer. -/
theorem diff_shows_whole_got_listener :
    let g : Node := .record "Listener" [("port", .int 80),
      ("names", .map [("\"a\"", .int 1), ("\"c\"", .variant "Mode" "On" (.int 2))]),
      ("tags", .seq [.text "x", .seq [.int 7], .null])]
    let w : Node := .record "Listener" [("tags", .seq [.text "x", .seq [.int 8, .int 9]]),
      ("names", .map [("\"b\"", .int 1), ("\"c\"", .variant "Mode" "On" (.int 2))]),
      ("port", .float (.finite false 80 0))]
    let marked := (diffLines g w).map Line.render
    (g.distinctKeys = true ∧ w.distinctKeys = true ∧ (∀ n ∈ g.parts, n.inOrder = true) ∧
        (∀ n ∈ g.parts, n.isHollow = false) ∧ ¬g.equivalent w = true) ∧
      marked.filterMap unmark? = g.lines ∧ (∃ line ∈ marked, tellsApart line = true) ∧
        "\n".intercalate marked ≠ "" := by
  intro g w marked
  have hg : g.distinctKeys = true := by decide
  have hw : w.distinctKeys = true := by decide
  have horder : ∀ n ∈ g.parts, n.inOrder = true := by decide
  have hfull : ∀ n ∈ g.parts, n.isHollow = false := by decide
  have hne : ¬g.equivalent w = true := by decide
  obtain ⟨hshown, htext⟩ := diff_shows_whole_got hg hw horder hfull
  obtain ⟨hlines, hmarked⟩ := hshown hne
  exact ⟨⟨hg, hw, horder, hfull, hne⟩, hlines, hmarked, mt htext.mp hne⟩

end TestBench.Diff
