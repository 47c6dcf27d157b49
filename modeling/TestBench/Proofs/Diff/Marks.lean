import TestBench.Proofs.Diff.Sides

/-! The marks of a text that reports a difference. A mark is put before what goes on a line, and
some of this is shown as it is: names, keys, what a formatter gives and messages. So every line is
marked just when none of these texts breaks a line without going on with a mark. -/
namespace TestBench.Diff
open Named Node

section Characters

/-- Whether a line says which side it is of. -/
def isMarked : List Char → Bool
  | c :: _ => c == ' ' || (c == '-' || c == '+')
  | [] => false

/-- Whether every line break is followed by a mark. -/
def breaksMarked : List Char → Bool
  | [] => true
  | c :: rest => (c != '\n' || isMarked rest) && breaksMarked rest

/-- Whether every line of a text is marked. -/
def allMarked (text : String) : Bool := (Text.splitChars '\n' text.toList).all isMarked

variable {cs ds : List Char}

theorem exists_splitChars_eq (cs : List Char) :
    ∃ piece pieces, Text.splitChars '\n' cs = piece :: pieces ∧ isMarked piece = isMarked cs ∧
      pieces.all isMarked = breaksMarked cs := by
  induction cs with
  | nil => exact ⟨[], [], rfl, rfl, rfl⟩
  | cons c rest ih =>
    obtain ⟨piece, pieces, hsplit, hpiece, hpieces⟩ := ih
    rw [Text.splitChars, hsplit, breaksMarked]
    by_cases h : c = '\n'
    · refine ⟨[], piece :: pieces, if_pos h, ?_, ?_⟩
      · rw [h]
        rfl
      · rw [List.all_cons, hpiece, hpieces, h]
        rfl
    · refine ⟨c :: piece, pieces, if_neg h, rfl, ?_⟩
      rw [hpieces, bne_iff_ne.mpr h, Bool.true_or, Bool.true_and]

/-- The lines of a text are marked when the text is and goes on with a mark after each break. -/
theorem all_isMarked_splitChars (cs : List Char) :
    (Text.splitChars '\n' cs).all isMarked = (isMarked cs && breaksMarked cs) := by
  obtain ⟨piece, pieces, hsplit, hpiece, hpieces⟩ := exists_splitChars_eq cs
  rw [hsplit, List.all_cons, hpiece, hpieces]

theorem breaksMarked_of_notMem (h : '\n' ∉ cs) (ds : List Char) :
    breaksMarked (cs ++ ds) = breaksMarked ds := by
  induction cs with
  | nil => rfl
  | cons c rest ih =>
    rw [List.mem_cons, not_or] at h
    rw [List.cons_append, breaksMarked, ih h.2, bne_iff_ne.mpr (Ne.symm h.1), Bool.true_or,
      Bool.true_and]

/-- What begins without a mark does not save a line break before it. -/
theorem breaksMarked_append (h : isMarked ds = false) (cs : List Char) :
    breaksMarked (cs ++ ds) = (breaksMarked cs && breaksMarked ds) := by
  induction cs with
  | nil => rfl
  | cons c rest ih =>
    have hmarked : isMarked (rest ++ ds) = isMarked rest := by
      cases rest with
      | nil => exact h
      | cons d rest => rfl
    rw [List.cons_append, breaksMarked, breaksMarked, ih, hmarked, Bool.and_assoc]

/-- What follows a line break is a line of its own. -/
theorem breaksMarked_break (cs ds : List Char) :
    breaksMarked (cs ++ '\n' :: ds) = (breaksMarked cs && (isMarked ds && breaksMarked ds)) := by
  rw [breaksMarked_append rfl]
  rfl

end Characters

section Lines

/-- Whether a text can go on a line, which is marked where it begins. -/
def KeepsMarks (s : String) : Prop := breaksMarked s.toList = true

instance (s : String) : Decidable (KeepsMarks s) := inferInstanceAs (Decidable (_ = true))

/-- Whether a label keeps the marks of what it stands before, if it is itself a text that does. -/
def Leads (label text : String) : Prop :=
  ∀ s, KeepsMarks (label ++ s) ↔ KeepsMarks text ∧ KeepsMarks s

/-- Whether what is put after a text makes no difference to its marks. -/
def Trails (suffix : String) : Prop := ∀ s, KeepsMarks (s ++ suffix) ↔ KeepsMarks s

variable {s t label suffix text : String} {lines : List String}

theorem keepsMarks_of_notMem (h : '\n' ∉ s.toList) : KeepsMarks s := by
  rw [KeepsMarks, ← List.append_nil s.toList, breaksMarked_of_notMem h]
  rfl

theorem trails_of_notMem (hmark : isMarked suffix.toList = false) (h : '\n' ∉ suffix.toList) :
    Trails suffix := fun s => by
  have hsuffix : breaksMarked suffix.toList = true := keepsMarks_of_notMem h
  rw [KeepsMarks, KeepsMarks, String.toList_append, breaksMarked_append hmark, hsuffix,
    Bool.and_true]

theorem leads_of_notMem (h : '\n' ∉ label.toList) : Leads label "" := fun s => by
  have hempty : KeepsMarks "" := keepsMarks_of_notMem (by decide)
  rw [KeepsMarks, String.toList_append, breaksMarked_of_notMem h]
  exact (and_iff_right hempty).symm

/-- A text ends where something follows that begins without a mark. -/
theorem leads_append (hmark : isMarked t.toList = false) (h : '\n' ∉ t.toList) (hne : t ≠ "")
    (text : String) : Leads (text ++ t) text := fun s => by
  obtain ⟨c, cs, hcs⟩ : ∃ c cs, t.toList = c :: cs :=
    List.exists_cons_of_ne_nil (mt String.toList_eq_nil_iff.mp hne)
  have hmarked : isMarked (t.toList ++ s.toList) = false := by
    rw [hcs] at hmark ⊢
    exact hmark
  rw [KeepsMarks, String.append_assoc, String.toList_append, String.toList_append,
    breaksMarked_append hmarked, breaksMarked_of_notMem h, Bool.and_eq_true]
  rfl

theorem forall_mapFirst_iff {α : Type} {p : α → Prop} {r : Prop} {f : α → α} {as : List α}
    (hne : as ≠ []) (h : ∀ a, p (f a) ↔ r ∧ p a) :
    (∀ a ∈ Node.mapFirst f as, p a) ↔ r ∧ ∀ a ∈ as, p a := by
  obtain ⟨a, rest, rfl⟩ := List.exists_cons_of_ne_nil hne
  rw [Node.mapFirst, List.forall_mem_cons, List.forall_mem_cons, h, and_assoc]

theorem forall_mapLast_iff {α : Type} {p : α → Prop} {f : α → α} (h : ∀ a, p (f a) ↔ p a)
    (as : List α) : (∀ a ∈ Node.mapLast f as, p a) ↔ ∀ a ∈ as, p a := by
  induction as with
  | nil => exact Iff.rfl
  | cons a rest ih =>
    cases rest with
    | nil => rw [Node.mapLast, List.forall_mem_singleton, List.forall_mem_singleton, h]
    | cons b rest => rw [Node.mapLast, List.forall_mem_cons, ih, List.forall_mem_cons] <;> simp

theorem forall_framed_iff (hlabel : Leads label text) (hsuffix : Trails suffix)
    (hne : lines ≠ []) :
    (∀ s ∈ framed label suffix lines, KeepsMarks s) ↔
      KeepsMarks text ∧ ∀ s ∈ lines, KeepsMarks s := by
  rw [framed, forall_mapLast_iff hsuffix, forall_mapFirst_iff hne hlabel]

theorem keepsMarks_indent (d : Nat) (s : String) : KeepsMarks (indent d ++ s) ↔ KeepsMarks s := by
  have hindent : '\n' ∉ (indent d).toList := by simp [indent]
  rw [KeepsMarks, String.toList_append, breaksMarked_of_notMem hindent]
  rfl

theorem trails_empty : Trails "" := trails_of_notMem (by decide) (by decide)

theorem trails_comma : Trails "," := trails_of_notMem (by decide) (by decide)

theorem trails_brace : Trails "\x7b" := trails_of_notMem (by decide) (by decide)

theorem leads_empty : Leads "" "" := leads_of_notMem (by decide)

theorem leads_keyLabel (key : String) : Leads (keyLabel key) key :=
  leads_append (by decide) (by decide) (by decide) key

/-- A block of the lines of a container keeps its marks when what opens it and its parts do. -/
theorem forall_enclosed_iff {opening closing : String} {parts : List (String × List String)}
    (hclosing : KeepsMarks closing) :
    (∀ s ∈ enclosed opening closing parts, KeepsMarks s) ↔
      KeepsMarks opening ∧ ∀ p ∈ parts, ∀ s ∈ framed p.1 "," p.2, KeepsMarks s := by
  rw [enclosed, List.forall_mem_cons, List.forall_mem_append, List.forall_mem_singleton,
    List.forall_mem_map, stack, List.forall_mem_flatMap]
  simp only [keepsMarks_indent, and_iff_left hclosing]

end Lines

namespace Node

mutual

/-- The texts that the lines of a tree show as they are. -/
def told : Node → List String
  | .seq items => toldOfItems items
  | .map entries => toldOfEntries entries
  | .record name fields => name :: toldOfEntries fields
  | .variant _ _ (.record name fields) => name :: toldOfEntries fields
  | .variant _ name content => name :: told content
  | .formatted _ shown _ => [shown]
  | _ => []

def toldOfItems : List Node → List String
  | [] => []
  | item :: rest => told item ++ toldOfItems rest

def toldOfEntries : List (String × Node) → List String
  | [] => []
  | (key, node) :: rest => key :: (told node ++ toldOfEntries rest)

end

/-- Whether all texts that a tree shows as they are keep the marks. -/
def KeepsMarks (n : Node) : Prop := ∀ s ∈ n.told, Diff.KeepsMarks s

theorem keepsMarks_seq_iff {items : List Node} :
    (seq items).KeepsMarks ↔ ∀ n ∈ items, n.KeepsMarks := by
  rw [KeepsMarks, told]
  induction items with
  | nil => simp [toldOfItems]
  | cons n rest ih => rw [toldOfItems, List.forall_mem_append, ih, List.forall_mem_cons, KeepsMarks]

theorem forall_toldOfEntries_iff {entries : List (String × Node)} :
    (∀ s ∈ toldOfEntries entries, Diff.KeepsMarks s) ↔
      ∀ e ∈ entries, Diff.KeepsMarks e.1 ∧ e.2.KeepsMarks := by
  induction entries with
  | nil => simp [toldOfEntries]
  | cons e rest ih =>
    rw [toldOfEntries, List.forall_mem_cons, List.forall_mem_append, ih, List.forall_mem_cons,
      KeepsMarks, and_assoc]

theorem keepsMarks_map_iff {entries : List (String × Node)} :
    (map entries).KeepsMarks ↔ ∀ e ∈ entries, Diff.KeepsMarks e.1 ∧ e.2.KeepsMarks := by
  rw [KeepsMarks, told, forall_toldOfEntries_iff]

theorem keepsMarks_record_iff {name : String} {fields : List (String × Node)} :
    (record name fields).KeepsMarks ↔
      Diff.KeepsMarks name ∧ ∀ f ∈ fields, Diff.KeepsMarks f.1 ∧ f.2.KeepsMarks := by
  rw [KeepsMarks, told, List.forall_mem_cons, forall_toldOfEntries_iff]

/-- A case with fields is shown under the name of the record that these make. -/
theorem keepsMarks_variant_iff {type name : String} {content : Node} :
    (variant type name content).KeepsMarks ↔
      (content.isRecord = false → Diff.KeepsMarks name) ∧ content.KeepsMarks := by
  cases content with
  | record inner fields => simp [KeepsMarks, told, isRecord]
  | _ => simp [KeepsMarks, told, isRecord]

theorem keepsMarks_of_isScalar {n : Node} (h : n.isScalar = true) : n.KeepsMarks := by
  cases n <;> first | exact List.forall_mem_nil _ | cases h

theorem forall_itemParts_iff {items : List Node} :
    (∀ p ∈ itemParts items, ∀ s ∈ framed p.1 "," p.2, Diff.KeepsMarks s) ↔
      ∀ n ∈ items, ∀ s ∈ n.lines, Diff.KeepsMarks s := by
  have hempty : Diff.KeepsMarks "" := keepsMarks_of_notMem (by decide)
  rw [itemParts, List.forall_mem_map]
  refine forall₂_congr fun n _ => ?_
  rw [forall_framed_iff leads_empty trails_comma n.lines_ne_nil, and_iff_right hempty]

theorem forall_entryParts_iff {entries : List (String × Node)} :
    (∀ p ∈ entryParts entries, ∀ s ∈ framed p.1 "," p.2, Diff.KeepsMarks s) ↔
      ∀ e ∈ entries, Diff.KeepsMarks e.1 ∧ ∀ s ∈ e.2.lines, Diff.KeepsMarks s := by
  rw [entryParts, List.forall_mem_map]
  refine forall₂_congr fun e _ => ?_
  rw [forall_framed_iff (leads_keyLabel e.1) trails_comma e.2.lines_ne_nil]

theorem forall_record_lines_iff {name : String} {fields : List (String × Node)} :
    (∀ s ∈ (record name fields).lines, Diff.KeepsMarks s) ↔
      Diff.KeepsMarks name ∧
        ∀ f ∈ fields, Diff.KeepsMarks f.1 ∧ ∀ s ∈ f.2.lines, Diff.KeepsMarks s := by
  by_cases h : fields = []
  · have hbraces : Trails "\x7b\x7d" := trails_of_notMem (by decide) (by decide)
    rw [h, lines_record_nil, List.forall_mem_singleton, hbraces]
    exact (and_iff_left (List.forall_mem_nil _)).symm
  · rw [lines_record h, forall_enclosed_iff (keepsMarks_of_notMem (by decide)), trails_brace,
      forall_entryParts_iff]

/-- The lines of a tree keep their marks just when the texts do that it shows as they are. -/
theorem forall_lines_iff (n : Node) : (∀ s ∈ n.lines, Diff.KeepsMarks s) ↔ n.KeepsMarks := by
  induction n with
  | seq items ih =>
    rw [keepsMarks_seq_iff]
    by_cases h : items = []
    · rw [h]
      exact iff_of_true (List.forall_mem_singleton.mpr (keepsMarks_of_notMem (by decide)))
        (List.forall_mem_nil _)
    · have hopening : Diff.KeepsMarks "[" := keepsMarks_of_notMem (by decide)
      rw [lines_seq h, forall_enclosed_iff (keepsMarks_of_notMem (by decide)),
        and_iff_right hopening, forall_itemParts_iff]
      exact forall₂_congr ih
  | map entries ih =>
    have hempty : Diff.KeepsMarks "" := keepsMarks_of_notMem (by decide)
    rw [keepsMarks_map_iff, lines_map_eq, forall_record_lines_iff, and_iff_right hempty]
    exact forall₂_congr fun e he => and_congr_right fun _ => ih e he
  | record name fields ih =>
    rw [keepsMarks_record_iff, forall_record_lines_iff]
    exact and_congr_right fun _ => forall₂_congr fun f hf => and_congr_right fun _ => ih f hf
  | variant type name content ih =>
    rw [keepsMarks_variant_iff, ← ih]
    by_cases hrecord : content.isRecord = true
    · rw [lines_variant_record hrecord, hrecord]
      simp
    · rw [Bool.not_eq_true] at hrecord
      rw [forall_prop_of_true hrecord]
      by_cases hnull : content = .null
      · have hshown : Diff.KeepsMarks "null" := keepsMarks_of_notMem (by decide)
        rw [hnull]
        simp [lines, inline, hshown]
      · have hopening : Leads (name ++ "(") name :=
          leads_append (by decide) (by decide) (by decide) name
        rw [lines_variant hnull hrecord, forall_framed_iff hopening
          (trails_of_notMem (by decide) (by decide)) content.lines_ne_nil]
  | formatted type shown zero => exact Iff.rfl
  | _ =>
    rw [lines_of_isScalar rfl, List.forall_mem_singleton]
    exact iff_of_true (keepsMarks_of_notMem (newline_notMem_of_isScalar rfl))
      (keepsMarks_of_isScalar rfl)

end Node

section Comparison

variable {label suffix text opening closing : String} {d : Nat} {side : Side} {g w : Node}
  {gs ws : List (String × Node)}

/-- Whether lines keep the marks that are put before them. -/
def Clean (ls : List Line) : Prop := ∀ l ∈ ls, KeepsMarks l.text

theorem clean_cons {l : Line} {ls : List Line} : Clean (l :: ls) ↔ KeepsMarks l.text ∧ Clean ls :=
  List.forall_mem_cons

theorem clean_append {as bs : List Line} : Clean (as ++ bs) ↔ Clean as ∧ Clean bs :=
  List.forall_mem_append

theorem clean_emit_iff (hlabel : Leads label text) (hsuffix : Trails suffix) (n : Node) :
    Clean (emit side d label n.lines suffix) ↔ KeepsMarks text ∧ n.KeepsMarks := by
  have hlines : emit side d label n.lines suffix =
      (framed label suffix n.lines).map fun line => ⟨side, indent d ++ line⟩ := rfl
  rw [Clean, hlines, List.forall_mem_map]
  simp only [keepsMarks_indent]
  rw [forall_framed_iff hlabel hsuffix n.lines_ne_nil, forall_lines_iff]

theorem clean_bracket_iff (hlabel : Leads label text) (hsuffix : Trails suffix)
    (hclosing : KeepsMarks closing) {inner : List Line} :
    Clean (bracket d label opening closing suffix inner) ↔
      (KeepsMarks text ∧ KeepsMarks opening) ∧ Clean inner := by
  have hopens : Clean (emit .both d label [opening] "") ↔ KeepsMarks text ∧ KeepsMarks opening := by
    rw [Clean, emit, List.forall_mem_map]
    simp only [keepsMarks_indent]
    exact (forall_framed_iff hlabel trails_empty (List.cons_ne_nil _ _)).trans (by simp)
  have hcloses : Clean (emit .both d "" [closing] suffix) := by
    rw [Clean, emit, List.forall_mem_map]
    simp only [keepsMarks_indent]
    refine (forall_framed_iff leads_empty hsuffix (List.cons_ne_nil _ _)).mpr ⟨?_, ?_⟩
    · exact keepsMarks_of_notMem (by decide)
    · exact List.forall_mem_singleton.mpr hclosing
  rw [bracket, clean_append, clean_append, hopens, and_iff_left hcloses]

theorem clean_arrange_iff {names : List String} :
    Clean (arrange d (compareEntries d ws gs) ws names) ↔
      ∀ name ∈ names, Clean (entryLines gs ws name d) := by
  rw [arrange_eq, Clean, List.forall_mem_flatMap]
  rfl

theorem compareItems_nil (ws : List Node) :
    Clean (compareItems d [] ws) ↔ ∀ w ∈ ws, w.KeepsMarks := by
  have hempty : KeepsMarks "" := keepsMarks_of_notMem (by decide)
  rw [compareItems, Clean, List.forall_mem_flatMap]
  refine forall₂_congr fun w _ => ?_
  exact (clean_emit_iff leads_empty trails_comma w).trans (and_iff_right hempty)

section Kept

/-- Whether a comparison of these keeps the marks when both do. -/
def MarksKept (g w : Node) : Prop :=
  ∀ ⦃d : Nat⦄ ⦃label suffix text : String⦄, Leads label text → Trails suffix → KeepsMarks text →
    g.KeepsMarks → w.KeepsMarks → Clean (compareAt d label suffix g w)

theorem clean_compareItems {gs ws : List Node} (ih : ∀ g ∈ gs, ∀ w ∈ ws, MarksKept g w)
    (hgs : ∀ g ∈ gs, g.KeepsMarks) (hws : ∀ w ∈ ws, w.KeepsMarks) :
    Clean (compareItems d gs ws) := by
  have hempty : KeepsMarks "" := keepsMarks_of_notMem (by decide)
  induction gs generalizing ws with
  | nil => exact (compareItems_nil ws).mpr hws
  | cons g gs hrest =>
    rw [List.forall_mem_cons] at hgs ih
    cases ws with
    | nil =>
      rw [compareItems, clean_append, clean_emit_iff leads_empty trails_comma]
      exact ⟨⟨hempty, hgs.1⟩, hrest (fun _ _ => List.forall_mem_nil _) hgs.2 hws⟩
    | cons w ws =>
      rw [List.forall_mem_cons] at hws
      rw [compareItems, clean_append]
      refine ⟨?_, hrest (fun g hg w hw => ih.2 g hg w (List.mem_cons_of_mem _ hw)) hgs.2 hws.2⟩
      exact ih.1 w List.mem_cons_self leads_empty trails_comma hempty hgs.1 hws.1

theorem clean_entryLines (ih : ∀ e ∈ gs, ∀ f ∈ ws, MarksKept e.2 f.2)
    (hgs : ∀ e ∈ gs, KeepsMarks e.1 ∧ e.2.KeepsMarks)
    (hws : ∀ f ∈ ws, KeepsMarks f.1 ∧ f.2.KeepsMarks) (name : String) :
    Clean (entryLines gs ws name d) := by
  have hlabel := leads_keyLabel name
  rw [entryLines]
  cases hg : find? name gs with
  | none =>
    cases hw : find? name ws with
    | none => exact List.forall_mem_nil _
    | some w => exact (clean_emit_iff hlabel trails_comma w).mpr (hws _ (mem_of_find?_eq_some hw))
  | some g =>
    have hkept := hgs _ (mem_of_find?_eq_some hg)
    cases hw : find? name ws with
    | none => exact (clean_emit_iff hlabel trails_comma g).mpr hkept
    | some w =>
      exact ih _ (mem_of_find?_eq_some hg) _ (mem_of_find?_eq_some hw) hlabel trails_comma hkept.1
        hkept.2 (hws _ (mem_of_find?_eq_some hw)).2

/-- Texts that keep the marks make lines that do. -/
theorem marksKept (g w : Node) : MarksKept g w := by
  induction g, w using comparisonInduction with
  | equivalent g w heq =>
    intro d label suffix text hlabel hsuffix htext hg hw
    rw [compareAt_of_equivalent heq]
    exact (clean_emit_iff hlabel hsuffix g).mpr ⟨htext, hg⟩
  | apart g w heq hkind =>
    intro d label suffix text hlabel hsuffix htext hg hw
    rw [compareAt_of_not_descends heq hkind, clean_append]
    exact ⟨(clean_emit_iff hlabel hsuffix g).mpr ⟨htext, hg⟩,
      (clean_emit_iff hlabel hsuffix w).mpr ⟨htext, hw⟩⟩
  | seq gs ws heq ih =>
    intro d label suffix text hlabel hsuffix htext hg hw
    rw [compareAt, if_neg heq, clean_bracket_iff hlabel hsuffix (keepsMarks_of_notMem (by decide))]
    refine ⟨⟨htext, keepsMarks_of_notMem (by decide)⟩, ?_⟩
    exact clean_compareItems ih (keepsMarks_seq_iff.mp hg) (keepsMarks_seq_iff.mp hw)
  | map gs ws heq ih =>
    intro d label suffix text hlabel hsuffix htext hg hw
    rw [compareAt, if_neg heq, clean_bracket_iff hlabel hsuffix (keepsMarks_of_notMem (by decide)),
      clean_arrange_iff]
    refine ⟨⟨htext, keepsMarks_of_notMem (by decide)⟩, fun name _ => ?_⟩
    exact clean_entryLines ih (keepsMarks_map_iff.mp hg) (keepsMarks_map_iff.mp hw) name
  | record name gs ws heq ih =>
    intro d label suffix text hlabel hsuffix htext hg hw
    rw [keepsMarks_record_iff] at hg hw
    rw [compareAt, if_neg heq, if_pos rfl,
      clean_bracket_iff hlabel hsuffix (keepsMarks_of_notMem (by decide)), clean_arrange_iff]
    refine ⟨⟨htext, (trails_brace name).mpr hg.1⟩, fun field _ => ?_⟩
    exact clean_entryLines ih hg.2 hw.2 field

end Kept

section Told

/-- Whether a comparison of these keeps the marks only when both do. -/
def MarksTold (g w : Node) : Prop :=
  ∀ ⦃d : Nat⦄ ⦃label suffix text : String⦄, Leads label text → Trails suffix →
    Clean (compareAt d label suffix g w) → KeepsMarks text ∧ g.KeepsMarks ∧ w.KeepsMarks

/-- Equivalent trees show the same texts as they are. -/
theorem keepsMarks_of_equivalent (h : g.equivalent w = true) (hw : w.KeepsMarks) :
    g.KeepsMarks := by
  have hentries {as bs : List (String × Node)}
      (ih : ∀ e ∈ as, ∀ {b : Node}, e.2.equivalent b = true → b.KeepsMarks → e.2.KeepsMarks)
      (hwithin : entriesWithin as bs = true)
      (hbs : ∀ f ∈ bs, KeepsMarks f.1 ∧ f.2.KeepsMarks) :
      ∀ e ∈ as, KeepsMarks e.1 ∧ e.2.KeepsMarks := fun e he => by
    obtain ⟨b, hb, hequivalent⟩ := entriesWithin_iff.mp hwithin e he
    have hkept := hbs _ (mem_of_find?_eq_some hb)
    exact ⟨hkept.1, ih e he hequivalent hkept.2⟩
  induction g generalizing w with
  | seq gs ih =>
    cases w with
    | seq ws =>
      rw [keepsMarks_seq_iff] at hw ⊢
      intro a ha
      obtain ⟨b, hb, hab⟩ := exists_of_forall₂ (itemsEquivalent_iff.mp h) ha
      exact ih a ha hab (hw b hb)
    | _ => cases h
  | map gs ih =>
    cases w with
    | map ws =>
      rw [equivalent, Bool.and_eq_true] at h
      exact keepsMarks_map_iff.mpr (hentries ih h.2 (keepsMarks_map_iff.mp hw))
    | _ => cases h
  | record name gs ih =>
    cases w with
    | record other ws =>
      rw [equivalent, Bool.and_eq_true, Bool.and_eq_true, beq_iff_eq] at h
      rw [keepsMarks_record_iff] at hw ⊢
      exact ⟨h.1 ▸ hw.1, hentries ih h.2.2 hw.2⟩
    | _ => cases h
  | variant type name content ih =>
    cases w with
    | variant otherType other inner =>
      rw [equivalent, Bool.and_eq_true, Bool.and_eq_true, beq_iff_eq, beq_iff_eq] at h
      rw [keepsMarks_variant_iff] at hw ⊢
      refine ⟨fun hrecord => h.2.1 ▸ hw.1 ?_, ih h.2.2 hw.2⟩
      cases inner with
      | record =>
        have hequivalent := h.2.2
        cases content <;> first | cases hequivalent | cases hrecord
      | _ => rfl
    | _ => cases h
  | formatted type shown zero =>
    cases w with
    | formatted otherType other otherZero =>
      rw [equivalent, beq_iff_eq] at h
      rw [Node.KeepsMarks, told] at hw ⊢
      exact h ▸ hw
    | _ => cases h
  | _ => exact keepsMarks_of_isScalar rfl

theorem keepsMarks_of_clean_compareItems {gs ws : List Node}
    (ih : ∀ g ∈ gs, ∀ w ∈ ws, MarksTold g w) (h : Clean (compareItems d gs ws)) :
    (∀ g ∈ gs, g.KeepsMarks) ∧ ∀ w ∈ ws, w.KeepsMarks := by
  induction gs generalizing ws with
  | nil => exact ⟨List.forall_mem_nil _, (compareItems_nil ws).mp h⟩
  | cons g gs hrest =>
    cases ws with
    | nil =>
      rw [compareItems, clean_append, clean_emit_iff leads_empty trails_comma] at h
      have htail := hrest (fun _ _ => List.forall_mem_nil _) h.2
      exact ⟨List.forall_mem_cons.mpr ⟨h.1.2, htail.1⟩, List.forall_mem_nil _⟩
    | cons w ws =>
      rw [List.forall_mem_cons] at ih
      rw [compareItems, clean_append] at h
      obtain ⟨-, hg, hw⟩ := ih.1 w List.mem_cons_self leads_empty trails_comma h.1
      have htail := hrest (fun g hg w hw => ih.2 g hg w (List.mem_cons_of_mem _ hw)) h.2
      exact ⟨List.forall_mem_cons.mpr ⟨hg, htail.1⟩, List.forall_mem_cons.mpr ⟨hw, htail.2⟩⟩

theorem keepsMarks_of_clean_entryLines (ih : ∀ e ∈ gs, ∀ f ∈ ws, MarksTold e.2 f.2) {name : String}
    (h : Clean (entryLines gs ws name d)) :
    (∀ g, find? name gs = some g → KeepsMarks name ∧ g.KeepsMarks) ∧
      ∀ w, find? name ws = some w → KeepsMarks name ∧ w.KeepsMarks := by
  have hlabel := leads_keyLabel name
  rw [entryLines] at h
  cases hg : find? name gs with
  | none =>
    refine ⟨fun g hsome => (by cases hsome), fun w hw => ?_⟩
    rw [hg, hw] at h
    exact (clean_emit_iff hlabel trails_comma w).mp h
  | some g =>
    cases hw : find? name ws with
    | none =>
      rw [hg, hw] at h
      refine ⟨fun a ha => ?_, fun w hsome => (by cases hsome)⟩
      exact Option.some.inj ha ▸ (clean_emit_iff hlabel trails_comma g).mp h
    | some w =>
      rw [hg, hw] at h
      obtain ⟨hname, hgot, hwant⟩ := ih _ (mem_of_find?_eq_some hg) _ (mem_of_find?_eq_some hw)
        hlabel trails_comma h
      exact ⟨fun a ha => Option.some.inj ha ▸ ⟨hname, hgot⟩,
        fun b hb => Option.some.inj hb ▸ ⟨hname, hwant⟩⟩

theorem keepsMarks_of_clean_arrange {names : List String}
    (ih : ∀ e ∈ gs, ∀ f ∈ ws, MarksTold e.2 f.2) (hgs : (gs.map (·.1)).Nodup)
    (hws : (ws.map (·.1)).Nodup) (hleft : gs.map (·.1) ⊆ names) (hright : ws.map (·.1) ⊆ names)
    (h : Clean (arrange d (compareEntries d ws gs) ws names)) :
    (∀ e ∈ gs, KeepsMarks e.1 ∧ e.2.KeepsMarks) ∧ ∀ f ∈ ws, KeepsMarks f.1 ∧ f.2.KeepsMarks := by
  rw [clean_arrange_iff] at h
  constructor
  · intro e he
    have hclean := h e.1 (hleft (List.mem_map_of_mem he))
    exact (keepsMarks_of_clean_entryLines ih hclean).1 e.2 ((find?_eq_some_iff_mem hgs).mpr he)
  · intro f hf
    have hclean := h f.1 (hright (List.mem_map_of_mem hf))
    exact (keepsMarks_of_clean_entryLines ih hclean).2 f.2 ((find?_eq_some_iff_mem hws).mpr hf)

theorem marksTold_of_equivalent (hg : g.distinctKeys = true) (hw : w.distinctKeys = true)
    (h : g.equivalent w = true) : MarksTold g w := by
  intro d label suffix text hlabel hsuffix hclean
  rw [compareAt_of_equivalent h, clean_emit_iff hlabel hsuffix] at hclean
  have hsymm : w.equivalent g = true := by
    rw [equivalent_iff_canonical hw hg, ← (equivalent_iff_canonical hg hw).mp h]
  exact ⟨hclean.1, hclean.2, keepsMarks_of_equivalent hsymm hclean.2⟩

/-- Lines that keep the marks show texts that do; every text of either tree is on some line. -/
theorem marksTold (hg : g.distinctKeys = true) (hw : w.distinctKeys = true) : MarksTold g w := by
  induction g, w using comparisonInduction with
  | equivalent g w heq => exact marksTold_of_equivalent hg hw heq
  | apart g w heq hkind =>
    intro d label suffix text hlabel hsuffix h
    rw [compareAt_of_not_descends heq hkind, clean_append, clean_emit_iff hlabel hsuffix,
      clean_emit_iff hlabel hsuffix] at h
    exact ⟨h.1.1, h.1.2, h.2.2⟩
  | seq gs ws heq ih =>
    rw [distinctKeys_seq_iff] at hg hw
    intro d label suffix text hlabel hsuffix h
    rw [compareAt, if_neg heq,
      clean_bracket_iff hlabel hsuffix (keepsMarks_of_notMem (by decide))] at h
    have hitems := keepsMarks_of_clean_compareItems
      (fun g hmem w hmem' => ih g hmem w hmem' (hg g hmem) (hw w hmem')) h.2
    exact ⟨h.1.1, keepsMarks_seq_iff.mpr hitems.1, keepsMarks_seq_iff.mpr hitems.2⟩
  | map gs ws heq ih =>
    rw [distinctKeys_map_iff] at hg hw
    intro d label suffix text hlabel hsuffix h
    rw [compareAt, if_neg heq,
      clean_bracket_iff hlabel hsuffix (keepsMarks_of_notMem (by decide))] at h
    have hentries := keepsMarks_of_clean_arrange
      (fun e he f hf => ih e he f hf (hg.2 e he) (hw.2 f hf)) hg.1 hw.1
      (fun key hkey => mem_keyUnion.mpr (.inl hkey))
      (fun key hkey => mem_keyUnion.mpr (.inr hkey)) h.2
    exact ⟨h.1.1, keepsMarks_map_iff.mpr hentries.1, keepsMarks_map_iff.mpr hentries.2⟩
  | record name gs ws heq ih =>
    rw [distinctKeys_record_iff] at hg hw
    intro d label suffix text hlabel hsuffix h
    rw [compareAt, if_neg heq, if_pos rfl,
      clean_bracket_iff hlabel hsuffix (keepsMarks_of_notMem (by decide)), trails_brace] at h
    have hfields := keepsMarks_of_clean_arrange
      (fun e he f hf => ih e he f hf (hg.2 e he) (hw.2 f hf)) hg.1 hw.1
      (fun key hkey => mem_nameUnion.mpr (.inl hkey))
      (fun key hkey => mem_nameUnion.mpr (.inr hkey)) h.2
    exact ⟨h.1.1, keepsMarks_record_iff.mpr ⟨h.1.2, hfields.1⟩,
      keepsMarks_record_iff.mpr ⟨h.1.2, hfields.2⟩⟩

end Told

theorem clean_diffLines (hg : g.KeepsMarks) (hw : w.KeepsMarks) : Clean (diffLines g w) := by
  rw [diffLines]
  split
  · exact List.forall_mem_nil _
  · exact marksKept g w leads_empty trails_empty (keepsMarks_of_notMem (by decide)) hg hw

theorem keepsMarks_of_clean_diffLines (hg : g.distinctKeys = true) (hw : w.distinctKeys = true)
    (h : ¬g.equivalent w = true) (hclean : Clean (diffLines g w)) :
    g.KeepsMarks ∧ w.KeepsMarks := by
  rw [diffLines, if_neg h] at hclean
  exact (marksTold hg hw leads_empty trails_empty hclean).2

end Comparison

section Text

variable {o : Options} {got want : Value} {text : String}

theorem isMarked_append {cs : List Char} (h : isMarked cs = true) (ds : List Char) :
    isMarked (cs ++ ds) = true := by
  cases cs with
  | nil => cases h
  | cons c rest => exact h

theorem isMarked_render (l : Line) : isMarked l.render.toList = true := by
  cases l with
  | mk side text => cases side <;> simp [Line.render, Side.mark, isMarked]

theorem keepsMarks_render (l : Line) : KeepsMarks l.render ↔ KeepsMarks l.text := by
  have hmark : '\n' ∉ l.side.mark.toList := by cases l.side <;> decide
  rw [KeepsMarks, Line.render, String.toList_append, breaksMarked_of_notMem hmark]
  rfl

/-- A text made of lines has only marked lines just when its lines keep their marks. -/
theorem allMarked_render {ls : List Line} (hne : ls ≠ []) :
    allMarked ("\n".intercalate (ls.map Line.render)) = true ↔ Clean ls := by
  rw [allMarked, all_isMarked_splitChars, Bool.and_eq_true]
  induction ls with
  | nil => exact absurd rfl hne
  | cons l rest ih =>
    have hrender : breaksMarked l.render.toList = true ↔ KeepsMarks l.text := keepsMarks_render l
    cases rest with
    | nil =>
      rw [List.map_singleton, String.intercalate_singleton, Clean, List.forall_mem_singleton]
      exact (and_iff_right (isMarked_render l)).trans hrender
    | cons k rest =>
      have hjoined : ("\n".intercalate ((l :: k :: rest).map Line.render)).toList =
          l.render.toList ++ '\n' :: ("\n".intercalate ((k :: rest).map Line.render)).toList := by
        rw [List.map_cons, List.map_cons, String.intercalate_cons_cons, String.append_assoc,
          String.toList_append, String.toList_append]
        rfl
      rw [hjoined, and_iff_right (isMarked_append (isMarked_render l) _), breaksMarked_break,
        Bool.and_eq_true, Bool.and_eq_true, hrender, ih (List.cons_ne_nil _ _)]
      exact clean_cons.symm

theorem keepsMarks_cannotCompare (message : String) :
    KeepsMarks ("!(cannot compare: " ++ message ++ ")") ↔ KeepsMarks message := by
  have hopening : Leads "!(cannot compare: " "" := leads_of_notMem (by decide)
  have hclosing : Trails ")" := trails_of_notMem (by decide) (by decide)
  rw [hclosing, hopening, and_iff_right (keepsMarks_of_notMem (by decide))]

/-- The texts that a comparison shows as they are: those of the trees, or why there is none. -/
def Options.told (o : Options) (got want : Value) : List String :=
  match o.capture got, o.capture want with
  | .ok g, .ok w => g.told ++ w.told
  | .ok _, .error e => [e.message]
  | .error e, .ok _ => [e.message]
  | .error e, .error f => [e.message, f.message]

/-- The line that reports a side without a tree. -/
def failedLine (side : Side) (message : String) : Line :=
  ⟨side, "!(cannot compare: " ++ message ++ ")"⟩

theorem render_failedLine (side : Side) (message : String) :
    (failedLine side message).render = cannotCompare side.mark message := by
  simp [failedLine, Line.render, cannotCompare, String.append_assoc]

/-- The lines that report a difference keep their marks when the texts do that are shown as they
are. That all of these are on some line takes trees that hold no key twice. -/
theorem exists_lines (hdiff : o.diff got want = .ok text) (hne : text ≠ "") :
    ∃ ls : List Line, ls ≠ [] ∧ text = "\n".intercalate (ls.map Line.render) ∧
      ((∀ s ∈ o.told got want, KeepsMarks s) → Clean ls) ∧
      ((∀ n, o.capture got = .ok n ∨ o.capture want = .ok n → n.distinctKeys = true) → Clean ls →
        ∀ s ∈ o.told got want, KeepsMarks s) := by
  have hfailed (side : Side) (m : String) : KeepsMarks (failedLine side m).text ↔ KeepsMarks m :=
    keepsMarks_cannotCompare m
  rcases hg : o.capture got with (m | _) | g <;> rcases hw : o.capture want with (m' | _) | w
  case ok.ok =>
    have htext : text = "\n".intercalate ((diffLines g w).map Line.render) := by
      simpa [Options.diff, hg, hw] using hdiff.symm
    have hlines : diffLines g w ≠ [] := fun hnil => hne (by rw [htext, hnil]; rfl)
    have htold : o.told got want = g.told ++ w.told := by rw [Options.told, hg, hw]
    rw [htold, List.forall_mem_append]
    refine ⟨diffLines g w, hlines, htext, fun h => clean_diffLines h.1 h.2, fun hkeys => ?_⟩
    exact keepsMarks_of_clean_diffLines (hkeys g (.inl rfl)) (hkeys w (.inr rfl))
      (mt diffLines_eq_nil_iff.mpr hlines)
  case ok.error.unserializable =>
    have htext : text = cannotCompare "+" m' := by
      simpa [Options.diff, hg, hw, Failure.message] using hdiff.symm
    refine ⟨[failedLine .want m'], List.cons_ne_nil _ _, ?_, ?_⟩
    · rw [htext, List.map_singleton, render_failedLine, String.intercalate_singleton]
      rfl
    · simp [Options.told, hg, hw, Clean, hfailed, Failure.message]
  case error.unserializable.ok =>
    have htext : text = cannotCompare "-" m := by
      simpa [Options.diff, hg, hw, Failure.message] using hdiff.symm
    refine ⟨[failedLine .got m], List.cons_ne_nil _ _, ?_, ?_⟩
    · rw [htext, List.map_singleton, render_failedLine, String.intercalate_singleton]
      rfl
    · simp [Options.told, hg, hw, Clean, hfailed, Failure.message]
  case error.unserializable.error.unserializable =>
    have htext : text = "\n".intercalate [cannotCompare "-" m, cannotCompare "+" m'] := by
      simpa [Options.diff, hg, hw, Failure.message] using hdiff.symm
    refine ⟨[failedLine .got m, failedLine .want m'], List.cons_ne_nil _ _, ?_, ?_⟩
    · rw [htext, List.map_cons, List.map_singleton, render_failedLine, render_failedLine]
      rfl
    · simp [Options.told, hg, hw, Clean, hfailed, Failure.message]
  -- a formatter that gives up ends the comparison
  all_goals simp [Options.diff, hg, hw] at hdiff

/-- Every line of a reported difference is marked when the texts that are shown as they are go on
with a mark after each break of theirs; and only then, where the trees hold no key twice. -/
theorem diff_allMarked (hdiff : o.diff got want = .ok text) (hne : text ≠ "") :
    ((∀ s ∈ o.told got want, KeepsMarks s) → allMarked text = true) ∧
      ((∀ n, o.capture got = .ok n ∨ o.capture want = .ok n → n.distinctKeys = true) →
        allMarked text = true → ∀ s ∈ o.told got want, KeepsMarks s) := by
  obtain ⟨ls, hls, rfl, hclean, htold⟩ := exists_lines hdiff hne
  rw [allMarked_render hls]
  exact ⟨hclean, htold⟩

/-- A spot of several lines, where the formatter puts a mark before each. -/
theorem diff_allMarked_spot :
    let o : Options := ⟨false, false, [("Spot", fun n => .ok ("at\n  " ++ n.inline))]⟩
    let spot (x : Int) : Value := .record "Pin" [("spot", .wrapper "Spot" (.int x)), ("a", .int 1)]
    let text := " Pin\x7b\n-  spot: at\n  1,\n+  spot: at\n  2,\n   a: 1,\n \x7d"
    o.diff (spot 1) (spot 2) = .ok text ∧ text ≠ "" ∧ allMarked text = true := by
  intro o spot text
  have hdiff : o.diff (spot 1) (spot 2) = .ok text := by decide +kernel
  have hne : text ≠ "" := by decide
  have htold : o.told (spot 1) (spot 2) =
      ["Pin", "spot", "at\n  1", "a", "Pin", "spot", "at\n  2", "a"] := rfl
  refine ⟨hdiff, hne, (diff_allMarked hdiff hne).1 ?_⟩
  rw [htold]
  decide

/-- A message, a formatted text and a name that break a line without going on with a mark. -/
theorem broken_lines_unmarked :
    let o : Options := ⟨false, false, [("T", fun n => .ok ("a\n" ++ n.inline))]⟩
    let formatted := "-a\n1\n+a\n2"
    let named := "-X\nY\n+X"
    o.diff (.broken "a\nb") .null = .ok "-!(cannot compare: a\nb)" ∧
      o.diff (.wrapper "T" (.int 1)) (.wrapper "T" (.int 2)) = .ok formatted ∧
      o.diff (.unitCase "A" "X\nY") (.unitCase "A" "X") = .ok named ∧
      allMarked "-!(cannot compare: a\nb)" = false ∧ allMarked formatted = false ∧
      allMarked named = false := by
  intro o formatted named
  refine ⟨?_, ?_, ?_, ?_, ?_, ?_⟩ <;> decide +kernel

end Text

end TestBench.Diff
