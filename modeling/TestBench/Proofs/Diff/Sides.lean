import TestBench.Proofs.Diff.Looks
import TestBench.Proofs.Diff.Shown
import TestBench.Proofs.Sorting

/-! The two sides of a comparison. Each is a block of lines, and the two blocks are the same only
when the trees look alike. -/
namespace TestBench.Diff
open Named Node

/-- A block whose lines are single ones. -/
structure IsPicture (lines : List String) : Prop where
  block : IsBlock lines
  single : ∀ s ∈ lines, '\n' ∉ s.toList

/-- Parts of a container, each a picture under a label on one line. -/
structure IsPart (part : String × List String) : Prop where
  label : '\n' ∉ part.1.toList
  picture : IsPicture part.2

variable {got want : List String} {ps qs : List (String × List String)} {g w : Node}

theorem newline_notMem_append {s t : String} :
    '\n' ∉ (s ++ t).toList ↔ '\n' ∉ s.toList ∧ '\n' ∉ t.toList := by
  rw [String.toList_append, List.mem_append, not_or]

theorem IsPicture.framed {label suffix : String} {as : List String} (h : IsPicture as)
    (hlabel : '\n' ∉ label.toList) (hsuffix : '\n' ∉ suffix.toList) :
    IsPicture (framed label suffix as) := by
  refine ⟨h.block.framed label suffix, ?_⟩
  obtain ⟨hblock, hsingle⟩ := h
  cases hblock with
  | line s =>
    rw [List.forall_mem_singleton] at hsingle
    rw [framed_line, List.forall_mem_singleton, newline_notMem_append, newline_notMem_append]
    exact ⟨⟨hlabel, hsingle⟩, hsuffix⟩
  | container opens indented closes =>
    rw [List.forall_mem_cons, List.forall_mem_append, List.forall_mem_singleton] at hsingle
    rw [framed_container, List.forall_mem_cons, List.forall_mem_append, List.forall_mem_singleton,
      newline_notMem_append, newline_notMem_append]
    exact ⟨⟨hlabel, hsingle.1⟩, hsingle.2.1, hsingle.2.2, hsuffix⟩

theorem isPicture_enclosed {opening closing : String} (ho : Opens opening) (hc : Closes closing)
    (hopening : '\n' ∉ opening.toList) (hclosing : '\n' ∉ closing.toList)
    (h : ∀ p ∈ ps, IsPart p) : IsPicture (enclosed opening closing ps) := by
  refine ⟨isBlock_enclosed ho hc ps, ?_⟩
  rw [enclosed, List.forall_mem_cons, List.forall_mem_append, List.forall_mem_singleton,
    List.forall_mem_map, stack, List.forall_mem_flatMap]
  refine ⟨hopening, fun p hp s hs => newline_notMem_append.mpr ⟨by decide, ?_⟩, hclosing⟩
  exact ((h p hp).picture.framed (h p hp).label (by decide)).single s hs

theorem newline_notMem_of_readable {n : Node} (h : n.readable = true) :
    ∀ e ∈ n.entries, '\n' ∉ (keyLabel e.1).toList := by
  have hlegible := (readable_iff.mp h).2
  intro e he
  refine newline_notMem_append.mpr ⟨?_, by decide⟩
  cases n with
  | map =>
    rw [legible, Bool.and_eq_true, List.all_eq_true] at hlegible
    simpa using hlegible.2 e he
  | record =>
    rw [legible, Bool.and_eq_true, Bool.and_eq_true, List.all_eq_true] at hlegible
    simpa using hlegible.2.2 e he
  | _ => cases he

theorem newline_notMem_name {name : String} {fields : List (String × Node)}
    (h : (record name fields).readable = true) : '\n' ∉ name.toList := by
  have hlegible := (readable_iff.mp h).2
  rw [legible, Bool.and_eq_true] at hlegible
  simpa using hlegible.1

theorem newline_notMem_of_numeral {cs : List Char}
    (h : ∀ c ∈ cs, Decimal.isNumeral c = true) : '\n' ∉ cs := fun hmem => by
  have hnumeral := h '\n' hmem
  contradiction

theorem isPicture_line {s : String} (h : '\n' ∉ s.toList) : IsPicture [s] :=
  ⟨.line s, List.forall_mem_singleton.mpr h⟩

theorem isPart_entries {entries : List (String × Node)}
    (hkeys : ∀ e ∈ entries, '\n' ∉ (keyLabel e.1).toList)
    (h : ∀ e ∈ entries, IsPicture e.2.lines) : ∀ p ∈ entryParts entries, IsPart p := by
  rw [entryParts, List.forall_mem_map]
  exact fun e he => ⟨hkeys e he, h e he⟩

theorem isPart_items {items : List Node} (h : ∀ n ∈ items, IsPicture n.lines) :
    ∀ p ∈ itemParts items, IsPart p := by
  have hlabel : '\n' ∉ "".toList := by decide
  rw [itemParts, List.forall_mem_map]
  exact fun n hn => ⟨hlabel, h n hn⟩

def Node.isScalar : Node → Bool
  | .null => true
  | .bool _ => true
  | .int _ => true
  | .float _ => true
  | .text _ => true
  | .bytes _ => true
  | _ => false

theorem lines_of_isScalar {n : Node} (h : n.isScalar = true) : n.lines = [n.inline] := by
  cases n <;> first | rfl | cases h

theorem newline_notMem_of_isScalar {n : Node} (h : n.isScalar = true) :
    '\n' ∉ n.inline.toList := by
  cases n with
  | null => decide
  | bool b => cases b <;> decide
  | int i =>
    intro hmem
    rcases Decimal.mem_toString hmem with hminus | hdigit
    · contradiction
    · contradiction
  | float x => exact newline_notMem_of_numeral (Binary.mem_text .double x).2
  | text s => exact Text.newline_notMem_quote s
  | bytes data => exact newline_notMem_append.mpr ⟨by decide, Text.newline_notMem_quote _⟩
  | _ => cases h

/-- The lines of a readable tree are a picture. -/
theorem isPicture_lines {n : Node} (h : ∀ m ∈ n.parts, m.readable = true) : IsPicture n.lines := by
  induction n with
  | null | bool | int | float | text | bytes =>
    exact isPicture_line (newline_notMem_of_isScalar rfl)
  | seq items ih =>
    rw [parts, List.forall_mem_cons, forall_partsOfItems_iff] at h
    by_cases hnil : items = []
    · rw [hnil]
      exact isPicture_line (by decide)
    · rw [lines_seq hnil]
      refine isPicture_enclosed opens_bracket closes_bracket (by decide) (by decide) ?_
      exact isPart_items fun n hn => ih n hn (h.2 n hn)
  | map entries ih =>
    rw [parts, List.forall_mem_cons, forall_partsOfEntries_iff] at h
    by_cases hnil : entries = []
    · rw [hnil]
      exact isPicture_line (by decide)
    · rw [lines_map hnil]
      exact isPicture_enclosed (opens_append_brace "") closes_brace (by decide) (by decide)
        (isPart_entries (newline_notMem_of_readable h.1) fun e he => ih e he (h.2 e he))
  | record name fields ih =>
    rw [parts, List.forall_mem_cons, forall_partsOfEntries_iff] at h
    have hname := newline_notMem_name h.1
    by_cases hnil : fields = []
    · rw [hnil, lines_record_nil]
      exact isPicture_line (newline_notMem_append.mpr ⟨hname, by decide⟩)
    · rw [lines_record hnil]
      exact isPicture_enclosed (opens_append_brace name) closes_brace
        (newline_notMem_append.mpr ⟨hname, by decide⟩) (by decide)
        (isPart_entries (newline_notMem_of_readable h.1) fun e he => ih e he (h.2 e he))
  | variant type name content ih =>
    rw [parts, List.forall_mem_cons] at h
    have hname : '\n' ∉ name.toList := by
      have hlegible := (readable_iff.mp h.1).2
      rw [legible, Bool.and_eq_true] at hlegible
      simpa using hlegible.1
    by_cases hrecord : content.isRecord = true
    · rw [lines_variant_record hrecord]
      exact ih h.2
    · by_cases hnull : content = .null
      · rw [hnull]
        exact isPicture_line hname
      · rw [lines_variant hnull (by simpa using hrecord)]
        exact (ih h.2).framed (newline_notMem_append.mpr ⟨hname, by decide⟩) (by decide)
  | formatted name shown zero =>
    have hlegible := (readable_iff.mp (h _ (self_mem_parts _))).2
    exact isPicture_line (by simpa [legible, Node.inline] using hlegible)

/-- Whether the two sides of a comparison are pictures that are the same only for trees that look
alike. -/
def ComparedVisibly (g w : Node) : Prop :=
  ∃ got want, IsPicture got ∧ IsPicture want ∧
    Shows (fun d label suffix => compareAt d label suffix g w) got want ∧
    (got = want → g.looksLike w = true)

theorem compareItems_got (gs : List Node) :
    ShowsParts (fun d => compareItems d gs []) (itemParts gs) [] := by
  induction gs with
  | nil => exact showsParts_nil
  | cons g gs ih =>
    simp only [compareItems]
    exact (showsGot "" g.lines).append ih

theorem compareItems_want (ws : List Node) :
    ShowsParts (fun d => compareItems d [] ws) [] (itemParts ws) := by
  simp only [compareItems]
  induction ws with
  | nil => exact showsParts_nil
  | cons w ws ih => exact (showsWant "" w.lines).append ih

/-- Items are compared one by one; where one side has more of them, it shows more parts. -/
theorem compareItems_shows {gs ws : List Node} (hgs : ∀ g ∈ gs, IsPicture g.lines)
    (hws : ∀ w ∈ ws, IsPicture w.lines) (ih : ∀ p ∈ gs.zip ws, ComparedVisibly p.1 p.2) :
    ∃ ps qs, (∀ p ∈ ps, IsPart p ∧ p.1 = "") ∧ (∀ q ∈ qs, IsPart q ∧ q.1 = "") ∧
      ShowsParts (fun d => compareItems d gs ws) ps qs ∧
      (ps = qs → itemsLookAlike gs ws = true) := by
  have hitems {items : List Node} (h : ∀ n ∈ items, IsPicture n.lines) :
      ∀ p ∈ itemParts items, IsPart p ∧ p.1 = "" := fun p hp => by
    refine ⟨isPart_items h p hp, ?_⟩
    obtain ⟨n, -, rfl⟩ := List.mem_map.mp hp
    rfl
  induction gs generalizing ws with
  | nil =>
    refine ⟨[], itemParts ws, List.forall_mem_nil _, hitems hws, compareItems_want ws, fun h => ?_⟩
    cases ws with
    | nil => rfl
    | cons w ws => cases h
  | cons g gs hrest =>
    cases ws with
    | nil =>
      exact ⟨itemParts (g :: gs), [], hitems hgs, List.forall_mem_nil _, compareItems_got (g :: gs),
        fun h => by cases h⟩
    | cons w ws =>
      rw [List.forall_mem_cons] at hgs hws
      rw [List.zip_cons_cons, List.forall_mem_cons] at ih
      obtain ⟨got, want, hgot, hwant, hshows, hlook⟩ := ih.1
      obtain ⟨ps, qs, hps, hqs, hparts, hall⟩ := hrest hgs.2 hws.2 ih.2
      have hlabel : '\n' ∉ "".toList := by decide
      refine ⟨("", got) :: ps, ("", want) :: qs,
        List.forall_mem_cons.mpr ⟨⟨⟨hlabel, hgot⟩, rfl⟩, hps⟩,
        List.forall_mem_cons.mpr ⟨⟨⟨hlabel, hwant⟩, rfl⟩, hqs⟩, ?_, fun h => ?_⟩
      · simp only [compareItems]
        exact (hshows.parts "").append hparts
      · obtain ⟨hhead, htail⟩ := List.cons.inj h
        rw [itemsLookAlike, hlook (Prod.ext_iff.mp hhead).2, hall htail, Bool.true_and]

theorem find?_compareEntries (d : Nat) (ws gs : List (String × Node)) (name : String) :
    find? name (compareEntries d ws gs) = (find? name gs).map fun g =>
      match find? name ws with
      | some w => compareAt d (keyLabel name) "," g w
      | none => emit .got d (keyLabel name) g.lines "," := by
  induction gs with
  | nil => rfl
  | cons e rest ih =>
    rw [compareEntries, find?_cons, find?_cons, ih]
    by_cases h : e.1 = name
    · rw [if_pos h, if_pos h, ← h]
      rfl
    · rw [if_neg h, if_neg h]

/-- The lines of the entries of one name. -/
def entryLines (gs ws : List (String × Node)) (name : String) (d : Nat) : List Line :=
  match find? name gs, find? name ws with
  | some g, some w => compareAt d (keyLabel name) "," g w
  | some g, none => emit .got d (keyLabel name) g.lines ","
  | none, some w => emit .want d (keyLabel name) w.lines ","
  | none, none => []

theorem arrange_eq (d : Nat) (gs ws : List (String × Node)) (names : List String) :
    arrange d (compareEntries d ws gs) ws names =
      names.flatMap fun name => entryLines gs ws name d := by
  rw [arrange]
  congr 1
  funext name
  rw [find?_compareEntries, entryLines]
  cases find? name gs <;> cases find? name ws <;> rfl

/-- A part of a container that stands under this key in one of the entries. -/
structure IsEntryPart (entries : List (String × Node)) (names : List String)
    (shown : String × List String) : Prop where
  part : IsPart shown
  key : ∃ e ∈ entries, e.1 ∈ names ∧ shown.1 = keyLabel e.1

variable {gs ws : List (String × Node)}

/-- Under one name the sides show the same only where both have an entry or neither has. -/
theorem entryLines_shows (hgs : ∀ p ∈ entryParts gs, IsPart p) (hws : ∀ p ∈ entryParts ws, IsPart p)
    (ih : ∀ e ∈ gs, ∀ f ∈ ws, e.1 = f.1 → ComparedVisibly e.2 f.2) (name : String) :
    ∃ ps qs, (∀ p ∈ ps, IsEntryPart gs [name] p) ∧ (∀ q ∈ qs, IsEntryPart ws [name] q) ∧
      ShowsParts (fun d => entryLines gs ws name d) ps qs ∧
      (ps = qs →
        Option.Rel (fun g w => g.looksLike w = true) (find? name gs) (find? name ws)) := by
  have hpart {entries : List (String × Node)} {n : Node}
      (hentries : ∀ p ∈ entryParts entries, IsPart p) (hn : find? name entries = some n) :
      IsPart (keyLabel name, n.lines) :=
    hentries _ (List.mem_map_of_mem (f := fun e => (keyLabel e.1, e.2.lines))
      (mem_of_find?_eq_some hn))
  have hkey {entries : List (String × Node)} {n : Node} {lines : List String}
      (hn : find? name entries = some n) (hpart : IsPart (keyLabel name, lines)) :
      ∀ p ∈ [(keyLabel name, lines)], IsEntryPart entries [name] p :=
    List.forall_mem_singleton.mpr
      ⟨hpart, _, mem_of_find?_eq_some hn, List.mem_singleton_self name, rfl⟩
  simp only [entryLines]
  cases hg : find? name gs with
  | none =>
    cases hw : find? name ws with
    | none =>
      exact ⟨[], [], List.forall_mem_nil _, List.forall_mem_nil _, showsParts_nil, fun _ => .none⟩
    | some w =>
      exact ⟨[], _, List.forall_mem_nil _, hkey hw (hpart hws hw), showsWant _ _,
        fun h => by cases h⟩
  | some g =>
    cases hw : find? name ws with
    | none =>
      exact ⟨_, [], hkey hg (hpart hgs hg), List.forall_mem_nil _, showsGot _ _,
        fun h => by cases h⟩
    | some w =>
      obtain ⟨got, want, hgot, hwant, hshows, hlook⟩ :=
        ih _ (mem_of_find?_eq_some hg) _ (mem_of_find?_eq_some hw) rfl
      have hlabel : '\n' ∉ (keyLabel name).toList := (hpart hgs hg).label
      refine ⟨_, _, hkey hg ⟨hlabel, hgot⟩, hkey hw ⟨hlabel, hwant⟩, hshows.parts (keyLabel name),
        fun h => .some (hlook ?_)⟩
      exact (Prod.ext_iff.mp (List.singleton_inj.mp h)).2

/-- The parts of a name stand apart from those of other names. -/
theorem append_parts_inj {name : String} {rest : List String}
    {ps ps' qs qs' : List (String × List String)} (hname : name ∉ rest)
    (hps : ∀ p ∈ ps, IsEntryPart gs [name] p) (hps' : ∀ p ∈ ps', IsEntryPart gs rest p)
    (hqs : ∀ q ∈ qs, IsEntryPart ws [name] q) (hqs' : ∀ q ∈ qs', IsEntryPart ws rest q)
    (h : ps ++ ps' = qs ++ qs') : ps = qs ∧ ps' = qs' := by
  have hsplit {entries : List (String × Node)} {as bs : List (String × List String)}
      (has : ∀ p ∈ as, IsEntryPart entries [name] p)
      (hbs : ∀ p ∈ bs, IsEntryPart entries rest p) :
      (as ++ bs).filter (fun p => p.1 = keyLabel name) = as := by
    rw [List.filter_append, List.filter_eq_self.mpr, List.filter_eq_nil_iff.mpr, List.append_nil]
    · intro p hp
      obtain ⟨e, -, he, hlabel⟩ := (hbs p hp).key
      rw [decide_eq_true_iff, hlabel]
      exact fun heq => hname (keyLabel_injective heq ▸ he)
    · intro p hp
      obtain ⟨e, -, he, hlabel⟩ := (has p hp).key
      rw [decide_eq_true_iff, hlabel, List.mem_singleton.mp he]
  have hhead : ps = qs := by rw [← hsplit hps hps', h, hsplit hqs hqs']
  exact ⟨hhead, List.append_cancel_left (hhead ▸ h)⟩

/-- Entries are compared name by name; the sides show the same only where all of them look alike. -/
theorem arrange_shows (hgs : ∀ p ∈ entryParts gs, IsPart p) (hws : ∀ p ∈ entryParts ws, IsPart p)
    (ih : ∀ e ∈ gs, ∀ f ∈ ws, e.1 = f.1 → ComparedVisibly e.2 f.2) {names : List String}
    (hnames : names.Nodup) :
    ∃ ps qs, (∀ p ∈ ps, IsEntryPart gs names p) ∧ (∀ q ∈ qs, IsEntryPart ws names q) ∧
      ShowsParts (fun d => arrange d (compareEntries d ws gs) ws names) ps qs ∧
      (ps = qs → ∀ name ∈ names,
        Option.Rel (fun g w => g.looksLike w = true) (find? name gs) (find? name ws)) := by
  simp only [arrange_eq]
  have hmono {entries : List (String × Node)} {some all : List String} (hsub : some ⊆ all)
      {p : String × List String} (h : IsEntryPart entries some p) : IsEntryPart entries all p := by
    obtain ⟨hpart, e, he, hname, hlabel⟩ := h
    exact ⟨hpart, e, he, hsub hname, hlabel⟩
  induction names with
  | nil =>
    exact ⟨[], [], List.forall_mem_nil _, List.forall_mem_nil _, showsParts_nil,
      fun _ => List.forall_mem_nil _⟩
  | cons name rest hrest =>
    obtain ⟨hname, hnodup⟩ := List.nodup_cons.mp hnames
    obtain ⟨ps, qs, hps, hqs, hshows, hlook⟩ := entryLines_shows hgs hws ih name
    obtain ⟨ps', qs', hps', hqs', hshows', hall⟩ := hrest hnodup
    have hsub : [name] ⊆ name :: rest := List.cons_subset_cons name (List.nil_subset rest)
    have hsub' : rest ⊆ name :: rest := List.subset_cons_self name rest
    refine ⟨ps ++ ps', qs ++ qs', List.forall_mem_append.mpr ⟨fun p hp => hmono hsub (hps p hp),
      fun p hp => hmono hsub' (hps' p hp)⟩, List.forall_mem_append.mpr
      ⟨fun q hq => hmono hsub (hqs q hq), fun q hq => hmono hsub' (hqs' q hq)⟩,
      hshows.append hshows', fun h => ?_⟩
    obtain ⟨hhead, htail⟩ := append_parts_inj hname hps hps' hqs hqs' h
    exact List.forall_mem_cons.mpr ⟨hlook hhead, hall htail⟩

theorem mem_keyUnion {a b : List String} {key : String} :
    key ∈ keyUnion a b ↔ key ∈ a ∨ key ∈ b := by
  rw [keyUnion, mem_eraseReps, (sortBy_perm textLe (a ++ b)).mem_iff, List.mem_append]

theorem nodup_keyUnion (a b : List String) : (keyUnion a b).Nodup :=
  nodup_eraseReps textLe_antisymm (sortBy_pairwise textLe_total textLe_trans (a ++ b))

theorem nameUnion_cons (a b : List String) (name : String) :
    nameUnion a (name :: b) = nameUnion (if a.contains name then a else a ++ [name]) b := rfl

theorem mem_nameUnion {a b : List String} {name : String} :
    name ∈ nameUnion a b ↔ name ∈ a ∨ name ∈ b := by
  induction b generalizing a with
  | nil => simp [nameUnion]
  | cons n rest ih =>
    rw [nameUnion_cons, ih, List.mem_cons]
    split
    next h =>
      rw [List.contains_iff_mem] at h
      constructor
      · rintro (h | h)
        · exact .inl h
        · exact .inr (.inr h)
      · rintro (h | rfl | h)
        · exact .inl h
        · exact .inl ‹_›
        · exact .inr h
    next => rw [List.mem_append, List.mem_singleton, or_assoc]

theorem nodup_nameUnion {a : List String} (b : List String) (ha : a.Nodup) :
    (nameUnion a b).Nodup := by
  induction b generalizing a with
  | nil => exact ha
  | cons n rest ih =>
    rw [nameUnion_cons]
    split
    next => exact ih ha
    next h =>
      refine ih (List.nodup_append.mpr ⟨ha, List.nodup_cons.mpr ⟨List.not_mem_nil, List.nodup_nil⟩,
        fun x hx y hy => ?_⟩)
      rintro rfl
      exact h (List.contains_iff_mem.mpr (List.mem_singleton.mp hy ▸ hx))

/-- Entries that are related under every key of either are as many, and each has its counterpart. -/
theorem matched_of_rel {R : Node → Node → Prop} {names : List String}
    (hgs : (gs.map (·.1)).Nodup) (hws : (ws.map (·.1)).Nodup) (hleft : gs.map (·.1) ⊆ names)
    (hright : ws.map (·.1) ⊆ names)
    (h : ∀ name ∈ names, Option.Rel R (find? name gs) (find? name ws)) :
    gs.length = ws.length ∧ ∀ g ∈ gs, ∃ w, find? g.1 ws = some w ∧ R g.2 w := by
  have hrel : ∀ g ∈ gs, ∃ w, find? g.1 ws = some w ∧ R g.2 w := fun g hg => by
    have hname := h g.1 (hleft (List.mem_map_of_mem hg))
    rw [(find?_eq_some_iff_mem hgs).mpr hg] at hname
    cases hw : find? g.1 ws with
    | none =>
      rw [hw] at hname
      cases hname
    | some w =>
      rw [hw] at hname
      cases hname with
      | some hR => exact ⟨w, rfl, hR⟩
  have hsub : gs.map (·.1) ⊆ ws.map (·.1) := fun key hkey => by
    obtain ⟨g, hg, rfl⟩ := List.mem_map.mp hkey
    obtain ⟨w, hw, -⟩ := hrel g hg
    exact List.mem_map.mpr ⟨_, mem_of_find?_eq_some hw, rfl⟩
  have hsub' : ws.map (·.1) ⊆ gs.map (·.1) := fun key hkey => by
    have hname := h key (hright hkey)
    by_contra hnot
    rw [find?_eq_none_iff.mpr hnot] at hname
    cases hw : find? key ws with
    | none => exact find?_eq_none_iff.mp hw hkey
    | some w =>
      rw [hw] at hname
      cases hname
  have hle := (List.Nodup.subperm hgs hsub).length_le
  have hge := (List.Nodup.subperm hws hsub').length_le
  rw [List.length_map, List.length_map] at hle hge
  exact ⟨le_antisymm hle hge, hrel⟩

theorem compareAt_of_equivalent (h : g.equivalent w = true) (d : Nat) (label suffix : String) :
    compareAt d label suffix g w = emit .both d label g.lines suffix := by
  unfold compareAt
  rw [if_pos h]

/-- Whether a comparison of these goes into them. -/
def descends : Node → Node → Bool
  | .seq _, .seq _ => true
  | .map _, .map _ => true
  | .record n _, .record m _ => n == m
  | _, _ => false

theorem compareAt_of_not_descends (h : ¬g.equivalent w = true) (hkind : descends g w = false)
    (d : Nat) (label suffix : String) :
    compareAt d label suffix g w =
      emit .got d label g.lines suffix ++ emit .want d label w.lines suffix := by
  unfold compareAt
  rw [if_neg h]
  split
  next => cases hkind
  next => cases hkind
  next =>
    rw [descends, beq_eq_false_iff_ne] at hkind
    rw [if_neg hkind]
  next => rfl

/-- Induction along a comparison, into the trees that it holds against each other. -/
@[elab_as_elim]
theorem comparisonInduction {motive : Node → Node → Prop}
    (equivalent : ∀ g w, g.equivalent w = true → motive g w)
    (apart : ∀ g w, ¬g.equivalent w = true → descends g w = false → motive g w)
    (seq : ∀ gs ws, ¬(Node.seq gs).equivalent (.seq ws) = true →
      (∀ g ∈ gs, ∀ w ∈ ws, motive g w) → motive (.seq gs) (.seq ws))
    (map : ∀ gs ws, ¬(Node.map gs).equivalent (.map ws) = true →
      (∀ e ∈ gs, ∀ f ∈ ws, motive e.2 f.2) → motive (.map gs) (.map ws))
    (record : ∀ name gs ws, ¬(Node.record name gs).equivalent (.record name ws) = true →
      (∀ e ∈ gs, ∀ f ∈ ws, motive e.2 f.2) → motive (.record name gs) (.record name ws))
    (g w : Node) : motive g w := by
  have settled (g w : Node) (hkind : descends g w = false) : motive g w := by
    by_cases h : g.equivalent w = true
    · exact equivalent g w h
    · exact apart g w h hkind
  induction g generalizing w with
  | seq gs ih =>
    cases w with
    | seq ws =>
      by_cases h : (Node.seq gs).equivalent (.seq ws) = true
      · exact equivalent _ _ h
      · exact seq gs ws h fun g hg w _ => ih g hg w
    | _ => exact settled _ _ rfl
  | map gs ih =>
    cases w with
    | map ws =>
      by_cases h : (Node.map gs).equivalent (.map ws) = true
      · exact equivalent _ _ h
      · exact map gs ws h fun e he f _ => ih e he f.2
    | _ => exact settled _ _ rfl
  | record name gs ih =>
    cases w with
    | record other ws =>
      by_cases hname : name = other
      · subst hname
        by_cases h : (Node.record name gs).equivalent (.record name ws) = true
        · exact equivalent _ _ h
        · exact record name gs ws h fun e he f _ => ih e he f.2
      · exact settled _ _ (beq_eq_false_iff_ne.mpr hname)
    | _ => exact settled _ _ rfl
  | _ => exact settled _ w (by cases w <;> rfl)

theorem comparedVisibly_of_equivalent (hg : ∀ m ∈ g.parts, m.readable = true)
    (h : g.equivalent w = true) : ComparedVisibly g w := by
  refine ⟨g.lines, g.lines, isPicture_lines hg, isPicture_lines hg, ?_,
    fun _ => looksLike_of_equivalent h⟩
  simp only [compareAt_of_equivalent h]
  exact showsBoth g.lines

/-- Trees that are shown one after the other are told apart by their lines. -/
theorem comparedVisibly_of_not_descends (hg : ∀ m ∈ g.parts, m.readable = true)
    (hw : ∀ m ∈ w.parts, m.readable = true) (hkeys : g.keysApart w = true)
    (h : ¬g.equivalent w = true) (hkind : descends g w = false) : ComparedVisibly g w := by
  refine ⟨g.lines, w.lines, isPicture_lines hg, isPicture_lines hw, ?_,
    looksLike_of_lines hg hw hkeys⟩
  simp only [compareAt_of_not_descends h hkind]
  exact showsEach g.lines w.lines

/-- Containers whose entries are compared under these names are told apart by what is shown of the
entries. -/
theorem comparedVisibly_of_entries {opening : String} {names : List String}
    (hopens : Opens opening) (hopening : '\n' ∉ opening.toList)
    (hg : ∀ m ∈ g.parts, m.readable = true) (hw : ∀ m ∈ w.parts, m.readable = true)
    (hkeys : ∀ e ∈ g.entries, ∀ f ∈ w.entries, Apart (keyLabel e.1) (keyLabel f.1))
    (ih : ∀ e ∈ g.entries, ∀ f ∈ w.entries, e.1 = f.1 → ComparedVisibly e.2 f.2)
    (hnames : names.Nodup) (hleft : g.entries.map (·.1) ⊆ names)
    (hright : w.entries.map (·.1) ⊆ names)
    (hlines : ∀ d label suffix, compareAt d label suffix g w =
      bracket d label opening "\x7d" suffix
        (arrange (d + 1) (compareEntries (d + 1) w.entries g.entries) w.entries names))
    (hlook : g.entries.length = w.entries.length → entriesLookAlike g.entries w.entries = true →
      g.looksLike w = true) : ComparedVisibly g w := by
  have hparts {n : Node} (hn : ∀ m ∈ n.parts, m.readable = true) :
      ∀ p ∈ entryParts n.entries, IsPart p :=
    isPart_entries (newline_notMem_of_readable (hn n (self_mem_parts n))) fun e he =>
      isPicture_lines fun m hm => hn m (parts_subset_of_mem he hm)
  obtain ⟨ps, qs, hps, hqs, hshows, hall⟩ := arrange_shows (hparts hg) (hparts hw) ih hnames
  have hpicture {entries : List (String × Node)} {shown : List (String × List String)}
      (h : ∀ p ∈ shown, IsEntryPart entries names p) :
      IsPicture (enclosed opening "\x7d" shown) :=
    isPicture_enclosed hopens closes_brace hopening (by decide) fun p hp => (h p hp).part
  refine ⟨_, _, hpicture hps, hpicture hqs, ?_, fun h => ?_⟩
  · simp only [hlines]
    exact hshows.within opening "\x7d"
  · have hapart : ∀ p ∈ ps, ∀ q ∈ qs, Apart p.1 q.1 := fun p hp q hq => by
      obtain ⟨e, he, -, hp'⟩ := (hps p hp).key
      obtain ⟨f, hf, -, hq'⟩ := (hqs q hq).key
      rw [hp', hq']
      exact hkeys e he f hf
    obtain ⟨-, -, heq⟩ := enclosed_inj (fun p hp => (hps p hp).part.picture.block)
      (fun q hq => (hqs q hq).part.picture.block) hapart h
    obtain ⟨hlen, hentries⟩ := matched_of_rel
      (nodup_of_readable (hg g (self_mem_parts g))) (nodup_of_readable (hw w (self_mem_parts w)))
      hleft hright (hall heq)
    exact hlook hlen (entriesLookAlike_iff.mpr hentries)

theorem comparedVisibly_of_items {gs ws : List Node} (hg : ∀ m ∈ (seq gs).parts, m.readable = true)
    (hw : ∀ m ∈ (seq ws).parts, m.readable = true) (h : ¬(seq gs).equivalent (seq ws) = true)
    (ih : ∀ p ∈ gs.zip ws, ComparedVisibly p.1 p.2) : ComparedVisibly (seq gs) (seq ws) := by
  rw [parts, List.forall_mem_cons, forall_partsOfItems_iff] at hg hw
  obtain ⟨ps, qs, hps, hqs, hshows, hall⟩ := compareItems_shows
    (fun g hmem => isPicture_lines (hg.2 g hmem)) (fun w hmem => isPicture_lines (hw.2 w hmem)) ih
  have hpicture {shown : List (String × List String)} (h : ∀ p ∈ shown, IsPart p ∧ p.1 = "") :
      IsPicture (enclosed "[" "]" shown) :=
    isPicture_enclosed opens_bracket closes_bracket (by decide) (by decide) fun p hp => (h p hp).1
  refine ⟨_, _, hpicture hps, hpicture hqs, ?_, fun heq => ?_⟩
  · simp only [compareAt, if_neg h]
    exact hshows.within "[" "]"
  · have hapart : ∀ p ∈ ps, ∀ q ∈ qs, Apart p.1 q.1 := fun p hp q hq _ =>
      (hps p hp).2.trans (hqs q hq).2.symm
    obtain ⟨-, -, hparts⟩ := enclosed_inj (fun p hp => (hps p hp).1.picture.block)
      (fun q hq => (hqs q hq).1.picture.block) hapart heq
    exact hall hparts

/-- The sides of a comparison are pictures, and the same only when the trees look alike. -/
theorem comparedVisibly (hg : ∀ m ∈ g.parts, m.readable = true)
    (hw : ∀ m ∈ w.parts, m.readable = true) (hkeys : g.keysApart w = true) :
    ComparedVisibly g w := by
  induction g, w using comparisonInduction with
  | equivalent g w heq => exact comparedVisibly_of_equivalent hg heq
  | apart g w heq hkind => exact comparedVisibly_of_not_descends hg hw hkeys heq hkind
  | seq gs ws heq ih =>
    rw [keysApart, itemsKeysApart_iff] at hkeys
    refine comparedVisibly_of_items hg hw heq fun p hp => ?_
    have hmem := List.of_mem_zip hp
    have hsub := List.subset_cons_of_subset (seq gs) (parts_subset_of_mem_items hmem.1)
    have hsub' := List.subset_cons_of_subset (seq ws) (parts_subset_of_mem_items hmem.2)
    exact ih p.1 hmem.1 p.2 hmem.2 (fun m hm => hg m (hsub hm)) (fun m hm => hw m (hsub' hm))
      (hkeys p hp)
  | map gs ws heq ih =>
    rw [keysApart, entriesKeysApart_iff] at hkeys
    refine comparedVisibly_of_entries (opens_append_brace "") (by decide) hg hw
      (fun e he f hf => (hkeys e he f hf).1) (fun e he f hf hkey => ?_) (nodup_keyUnion _ _)
      (fun key hkey => mem_keyUnion.mpr (.inl hkey))
      (fun key hkey => mem_keyUnion.mpr (.inr hkey)) (fun d label suffix => ?_)
      fun hlen hentries => ?_
    · have hsub := parts_subset_of_mem (n := map gs) he
      have hsub' := parts_subset_of_mem (n := map ws) hf
      exact ih e he f hf (fun m hm => hg m (hsub hm)) (fun m hm => hw m (hsub' hm))
        ((hkeys e he f hf).2 hkey)
    · rw [compareAt, if_neg heq]
      rfl
    · rw [looksLike, Bool.and_eq_true]
      exact ⟨beq_iff_eq.mpr hlen, hentries⟩
  | record name gs ws heq ih =>
    have hnodup := nodup_of_readable (hg _ (self_mem_parts _))
    have hopening : '\n' ∉ (name ++ "\x7b").toList :=
      newline_notMem_append.mpr ⟨newline_notMem_name (hg _ (self_mem_parts _)), by decide⟩
    rw [keysApart, entriesKeysApart_iff] at hkeys
    refine comparedVisibly_of_entries (opens_append_brace name) hopening hg hw
      (fun e he f hf => (hkeys e he f hf).1) (fun e he f hf hkey => ?_) (nodup_nameUnion _ hnodup)
      (fun key hkey => mem_nameUnion.mpr (.inl hkey))
      (fun key hkey => mem_nameUnion.mpr (.inr hkey)) (fun d label suffix => ?_)
      fun hlen hentries => ?_
    · have hsub := parts_subset_of_mem (n := record name gs) he
      have hsub' := parts_subset_of_mem (n := record name ws) hf
      exact ih e he f hf (fun m hm => hg m (hsub hm)) (fun m hm => hw m (hsub' hm))
        ((hkeys e he f hf).2 hkey)
    · rw [compareAt, if_neg heq, if_pos rfl]
      rfl
    · rw [looksLike, beq_self_eq_true, Bool.true_and, Bool.and_eq_true]
      exact ⟨beq_iff_eq.mpr hlen, hentries⟩

end TestBench.Diff
