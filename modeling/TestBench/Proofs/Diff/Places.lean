import TestBench.Proofs.Diff.Selection

/-! A formatted value that stands somewhere in another one. It is compared by its text alone, except
that a record around it leaves out fields that are zero: then it also tells whether the value itself
is zero, unless a record further out leaves out the field that all of this is in. -/
namespace TestBench.Diff
open Node Options

variable {o : Options} {a b : Node}

def Options.shows (o : Options) (field : String) : Bool := o.unexported || !isUnexported field

/-- One level of a tree around a place in it. -/
inductive Layer where
  | item (before after : List Node)
  | entry (key : String) (before after : List (String × Node))
  | variant (type name : String)
  /-- the fields of a record before some are left out -/
  | record (name field : String) (before after : List (String × Node))

namespace Layer

def fill (o : Options) (n : Node) : Layer → Node
  | .item before after => .seq (before ++ n :: after)
  | .entry key before after => .map (sortBy keyLe (before ++ (key, n) :: after))
  | .variant type name => .variant type name n
  | .record name field before after => o.select name (before ++ (field, n) :: after)

/-- The levels are given from the inside out. -/
def fillAll (o : Options) (n : Node) (layers : List Layer) : Node := layers.foldl (fill o) n

/-- The record field that the place is in. -/
def field? : Layer → Option String
  | .record _ field .. => some field
  | _ => none

variable {layer : Layer} {layers : List Layer} {name field : String}
  {before after : List (String × Node)}

theorem fill_kept (h : o.keeps field b = true) :
    (record name field before after).fill o b =
      .record name ((before.filter fun f => o.keeps f.1 f.2) ++
        (field, b) :: after.filter fun f => o.keeps f.1 f.2) := by
  simp [fill, select, List.filter_append, h]

theorem fill_dropped (h : o.keeps field b = false) :
    (record name field before after).fill o b =
      .record name ((before.filter fun f => o.keeps f.1 f.2) ++
        after.filter fun f => o.keeps f.1 f.2) := by
  simp [fill, select, List.filter_append, h]

section Twins

/-- Whether the trees are compared alike, and left out alike by whatever record they stand in. -/
def Twins (o : Options) (a b : Node) : Prop :=
  a.canonical = b.canonical ∧ (o.zero = true ∨ a.isZero = b.isZero)

theorem canonicalItems_between (before after : List Node) (h : a.canonical = b.canonical) :
    canonicalItems (before ++ a :: after) = canonicalItems (before ++ b :: after) := by
  simp [canonicalItems_eq_map, h]

theorem canonicalUnder_between (key name : String) (before after : List (String × Node))
    (h : a.canonical = b.canonical) :
    canonicalUnder key (before ++ (name, a) :: after) =
      canonicalUnder key (before ++ (name, b) :: after) := by
  induction before with
  | nil => simp [canonicalUnder, h]
  | cons e rest ih => simp [canonicalUnder, ih]

theorem allZero_between (name : String) (before after : List (String × Node))
    (h : a.isZero = b.isZero) :
    allZero (before ++ (name, a) :: after) = allZero (before ++ (name, b) :: after) := by
  induction before with
  | nil => simp [allZero, h]
  | cons e rest ih => simp [allZero, ih]

/-- Levels other than records are never zero. -/
theorem isZero_fill_of_field?_eq_none (n : Node) (h : layer.field? = none) :
    (layer.fill o n).isZero = false := by
  cases layer with
  | item before after => cases before <;> rfl
  | entry key before after =>
    have hperm := sortBy_perm keyLe (before ++ (key, n) :: after)
    rw [fill, isZero, List.isEmpty_eq_false_iff, Ne, ← List.length_eq_zero_iff, hperm.length_eq]
    simp
  | variant type name => rfl
  | record => cases h

/-- Levels other than records look at what a tree says only. -/
theorem twins_fill_of_field?_eq_none (h : a.canonical = b.canonical)
    (hfield : layer.field? = none) : Twins o (layer.fill o a) (layer.fill o b) := by
  refine ⟨?_, .inr ?_⟩
  · cases layer with
    | item before after =>
      rw [fill, fill, canonical, canonical, canonicalItems_between _ _ h]
    | entry key before after =>
      rw [fill, fill, canonical, canonical, Canonical.map.injEq]
      funext name
      rw [canonicalUnder_eq, canonicalUnder_eq, find?_sortBy, find?_sortBy, ← canonicalUnder_eq,
        ← canonicalUnder_eq, canonicalUnder_between _ _ _ _ h]
    | variant type name => rw [fill, fill, canonical, canonical, h]
    | record => cases hfield
  · rw [isZero_fill_of_field?_eq_none a hfield, isZero_fill_of_field?_eq_none b hfield]

theorem twins_fill (h : Twins o a b) (layer : Layer) :
    Twins o (layer.fill o a) (layer.fill o b) := by
  cases layer with
  | record name field before after =>
    have hkeeps : o.keeps field a = o.keeps field b := by
      rw [keeps, keeps]
      rcases h.2 with hzero | hzero
      · rw [hzero, Bool.true_or, Bool.true_or]
      · rw [hzero]
    cases hkept : o.keeps field b with
    | true =>
      rw [fill_kept (hkeeps.trans hkept), fill_kept hkept]
      refine ⟨?_, h.2.imp_right fun hzero => ?_⟩
      · rw [canonical, canonical, Canonical.record.injEq]
        exact ⟨rfl, funext fun key => canonicalUnder_between _ _ _ _ h.1⟩
      · rw [isZero, isZero, allZero_between _ _ _ hzero]
    | false =>
      rw [fill_dropped (hkeeps.trans hkept), fill_dropped hkept]
      exact ⟨rfl, .inr rfl⟩
  | _ => exact twins_fill_of_field?_eq_none h.1 rfl

theorem twins_fillAll (h : Twins o a b) (layers : List Layer) :
    Twins o (fillAll o a layers) (fillAll o b layers) := by
  induction layers generalizing a b with
  | nil => exact h
  | cons layer rest ih => exact ih (twins_fill h layer)

end Twins

/-- What stands in a field that is not shown makes no difference. -/
theorem fill_hidden (h : layer.field? = some field) (hhidden : o.shows field = false) :
    layer.fill o a = layer.fill o b := by
  cases layer with
  | record name other before after =>
    obtain rfl := Option.some.inj h
    have hdrop (n : Node) : o.keeps other n = false := by
      rw [keeps, Bool.and_eq_false_iff]
      exact .inl hhidden
    rw [fill_dropped (hdrop a), fill_dropped (hdrop b)]
  | _ => cases h

theorem fillAll_hidden (hmem : layer ∈ layers) (h : layer.field? = some field)
    (hhidden : o.shows field = false) : fillAll o a layers = fillAll o b layers := by
  induction layers generalizing a b with
  | nil => cases hmem
  | cons first rest ih =>
    rcases List.mem_cons.mp hmem with rfl | hmem
    · rw [fillAll, List.foldl_cons, fill_hidden h hhidden]
      rfl
    · exact ih hmem

section Telling

theorem canonicalUnder_own (h : ((before ++ (name, b) :: after).map (·.1)).Nodup) (n : Node) :
    canonicalUnder name (before ++ (name, n) :: after) = some n.canonical := by
  have hbefore : find? name before = none := find?_eq_none_of_nodup h
  have hown : find? name (before ++ (name, n) :: after) = (find? name before).or (some n) :=
    find?_append_cons before after (name, n)
  rw [canonicalUnder_eq, hown, hbefore]
  rfl

theorem canonicalUnder_others (h : ((before ++ (name, b) :: after).map (·.1)).Nodup) :
    canonicalUnder name (before ++ after) = none := by
  rw [List.map_append, List.map_cons, List.nodup_middle, List.nodup_cons] at h
  rw [canonicalUnder_eq, Named.find?_eq_none_iff.mpr (by simpa using h.1)]
  rfl

theorem keeps_of_shows (hshown : o.shows field = true) (hb : b.isZero = false) :
    o.keeps field b = true := by
  rw [keeps, Bool.and_eq_true]
  exact ⟨hshown, by rw [hb, Bool.not_false, Bool.or_true]⟩

/-- Where a record keeps a field, it tells whether another one keeps that field and what it says. -/
theorem record_tells (hkeep : o.keeps field b = true)
    (hab : o.keeps field a = true → a.canonical ≠ b.canonical)
    (hkeys : ((record name field before after).fill o b).distinctKeys = true) :
    ((record name field before after).fill o a).canonical ≠
      ((record name field before after).fill o b).canonical := by
  intro heq
  rw [fill_kept hkeep, distinctKeys_record_iff] at hkeys
  cases hkept : o.keeps field a with
  | true =>
    rw [fill_kept hkept, fill_kept hkeep, canonical, canonical, Canonical.record.injEq] at heq
    have hunder := congrFun heq.2 field
    rw [canonicalUnder_own hkeys.1, canonicalUnder_own hkeys.1] at hunder
    exact hab hkept (Option.some.inj hunder)
  | false =>
    rw [fill_dropped hkept, fill_kept hkeep, canonical, canonical, Canonical.record.injEq] at heq
    have hunder := congrFun heq.2 field
    rw [canonicalUnder_own hkeys.1, canonicalUnder_others hkeys.1] at hunder
    cases hunder

variable (hb : b.isZero = false)
include hb

theorem isZero_fill (hshown : ∀ f ∈ layer.field?, o.shows f = true) :
    (layer.fill o b).isZero = false := by
  cases layer with
  | record name field before after =>
    rw [fill_kept (keeps_of_shows (hshown field rfl) hb), isZero, Bool.eq_false_iff, Ne,
      allZero_iff]
    intro hall
    have hzero : b.isZero = true := hall (field, b) (by simp)
    rw [hzero] at hb
    cases hb
  | _ => exact isZero_fill_of_field?_eq_none b rfl

theorem distinctKeys_of_fill (hshown : ∀ f ∈ layer.field?, o.shows f = true)
    (hkeys : (layer.fill o b).distinctKeys = true) : b.distinctKeys = true := by
  cases layer with
  | item before after => exact distinctKeys_seq_iff.mp hkeys b (by simp)
  | entry key before after =>
    refine (distinctKeys_map_iff.mp hkeys).2 (key, b) ?_
    rw [(sortBy_perm keyLe _).mem_iff]
    simp
  | variant type name => exact hkeys
  | record name field before after =>
    rw [fill_kept (keeps_of_shows (hshown field rfl) hb), distinctKeys_record_iff] at hkeys
    exact hkeys.2 (field, b) (by simp)

theorem fill_tells (hshown : ∀ f ∈ layer.field?, o.shows f = true) (hab : a.canonical ≠ b.canonical)
    (hkeys : (layer.fill o b).distinctKeys = true) :
    (layer.fill o a).canonical ≠ (layer.fill o b).canonical := by
  cases layer with
  | item before after =>
    intro heq
    rw [fill, fill, canonical, canonical, Canonical.seq.injEq, canonicalItems_eq_map,
      canonicalItems_eq_map] at heq
    simp [hab] at heq
  | entry key before after =>
    intro heq
    rw [fill, fill, canonical, canonical, Canonical.map.injEq] at heq
    have hnodup := (distinctKeys_map_iff.mp hkeys).1
    rw [((sortBy_perm keyLe _).map (·.1)).nodup_iff] at hnodup
    have hunder := congrFun heq key
    rw [canonicalUnder_eq, canonicalUnder_eq, find?_sortBy, find?_sortBy, ← canonicalUnder_eq,
      ← canonicalUnder_eq, canonicalUnder_own hnodup, canonicalUnder_own hnodup] at hunder
    exact hab (Option.some.inj hunder)
  | variant type name =>
    rw [fill, fill, canonical, canonical, Ne, Canonical.variant.injEq]
    exact fun heq => hab heq.2.2
  | record name field before after =>
    exact record_tells (keeps_of_shows (hshown field rfl) hb) (fun _ => hab) hkeys

theorem distinctKeys_of_fillAll (hshown : ∀ l ∈ layers, ∀ f ∈ l.field?, o.shows f = true)
    (hkeys : (fillAll o b layers).distinctKeys = true) : b.distinctKeys = true := by
  induction layers generalizing b with
  | nil => exact hkeys
  | cons layer rest ih =>
    rw [List.forall_mem_cons] at hshown
    exact distinctKeys_of_fill hb hshown.1 (ih (isZero_fill hb hshown.1) hshown.2 hkeys)

theorem fillAll_tells (hshown : ∀ l ∈ layers, ∀ f ∈ l.field?, o.shows f = true)
    (hab : a.canonical ≠ b.canonical) (hkeys : (fillAll o b layers).distinctKeys = true) :
    (fillAll o a layers).canonical ≠ (fillAll o b layers).canonical := by
  induction layers generalizing a b with
  | nil => exact hab
  | cons layer rest ih =>
    rw [List.forall_mem_cons] at hshown
    have hzero := isZero_fill hb hshown.1
    have hinner := distinctKeys_of_fillAll hzero hshown.2 hkeys
    exact ih hzero hshown.2 (fill_tells hb hshown.1 hab hinner) hkeys

end Telling

section Hinging

/-- Whether zero or not makes a difference to a value there: the first level around it is a record
that would show it, and no record further out leaves out the field that it is in. -/
def hinges (o : Options) : List (Option String) → Bool
  | some field :: outer => o.shows field && outer.all fun f => f.all o.shows
  | _ => false

theorem shows_of_hinges (h : hinges o (layers.map field?) = true) :
    ∀ l ∈ layers, ∀ f ∈ l.field?, o.shows f = true := by
  cases layers with
  | nil => cases h
  | cons layer rest =>
    rw [List.map_cons] at h
    cases hfield : layer.field? with
    | none =>
      rw [hfield] at h
      cases h
    | some field =>
      rw [hfield, hinges, Bool.and_eq_true, List.all_map, List.all_eq_true] at h
      refine List.forall_mem_cons.mpr ⟨fun f hf => ?_, fun l hl f hf => ?_⟩
      · rw [hfield] at hf
        exact Option.some.inj hf ▸ h.1
      · have hall := h.2 l hl
        rw [Function.comp_apply, Option.mem_def.mp hf] at hall
        exact hall

/-- A record that leaves out zero fields tells a zero from what is not zero. -/
theorem fillAll_tells_zero (hzero : o.zero = false) (ha : a.isZero = true) (hb : b.isZero = false)
    (h : hinges o (layers.map field?) = true) (hkeys : (fillAll o b layers).distinctKeys = true) :
    (fillAll o a layers).canonical ≠ (fillAll o b layers).canonical := by
  have hshown := shows_of_hinges h
  cases layers with
  | nil => cases h
  | cons layer rest =>
    cases layer with
    | record name field before after =>
      rw [List.forall_mem_cons] at hshown
      have hfill := isZero_fill hb hshown.1
      have hinner := distinctKeys_of_fillAll hfill hshown.2 hkeys
      have hdropped : o.keeps field a = false := by
        rw [keeps, hzero, ha, Bool.not_true, Bool.or_false, Bool.and_false]
      have htells := record_tells (keeps_of_shows (hshown.1 field rfl) hb)
        (fun hkept => absurd hkept (by rw [hdropped]; exact Bool.false_ne_true)) hinner
      have htail := fillAll_tells hfill hshown.2 htells hkeys
      exact htail
    | _ => cases h

theorem fillAll_twins_of_not_hinges (hab : a.canonical = b.canonical)
    (h : hinges o (layers.map field?) = false) :
    (fillAll o a layers).canonical = (fillAll o b layers).canonical := by
  cases layers with
  | nil => exact hab
  | cons layer rest =>
    cases hfield : layer.field? with
    | none => exact (twins_fillAll (twins_fill_of_field?_eq_none hab hfield) rest).1
    | some field =>
      rw [List.map_cons, hfield, hinges, List.all_map, Bool.and_eq_false_iff] at h
      rcases h with hhidden | hhidden
      · rw [fillAll_hidden List.mem_cons_self hfield hhidden]
      · rw [List.all_eq_false] at hhidden
        obtain ⟨l, hl, hlhidden⟩ := hhidden
        cases hlfield : l.field? with
        | none => simp [hlfield] at hlhidden
        | some outer =>
          have houter : o.shows outer = false := by simpa [hlfield] using hlhidden
          rw [fillAll_hidden (List.mem_cons_of_mem _ hl) hlfield houter]

/-- Formatted values of the same text tell in the same place just when one of them is zero there and
zero fields are left out. -/
theorem fillAll_canonical_iff {type shown : String} {z w : Bool}
    (ha : (fillAll o (.formatted type shown z) layers).distinctKeys = true)
    (hb : (fillAll o (.formatted type shown w) layers).distinctKeys = true) :
    (fillAll o (.formatted type shown z) layers).canonical =
        (fillAll o (.formatted type shown w) layers).canonical ↔
      o.zero = true ∨ z = w ∨ hinges o (layers.map field?) = false := by
  constructor
  · intro heq
    by_contra hnot
    rw [not_or, not_or, Bool.not_eq_true, Bool.not_eq_false] at hnot
    obtain ⟨hzero, hne, hhinges⟩ := hnot
    cases z <;> cases w
    case false.true => exact fillAll_tells_zero hzero rfl rfl hhinges ha heq.symm
    case true.false => exact fillAll_tells_zero hzero rfl rfl hhinges hb heq
    all_goals exact hne rfl
  · rintro (hzero | rfl | hnot)
    · have htwins : Twins o (.formatted type shown z) (.formatted type shown w) :=
        ⟨rfl, .inl hzero⟩
      exact (twins_fillAll htwins layers).1
    · rfl
    · exact fillAll_twins_of_not_hinges rfl hnot

end Hinging

end Layer

/-- One level of a value around a place in it that is not in a map key. -/
inductive Frame where
  | item (before after : List Value)
  | entry (key : Value) (before after : List (Value × Value))
  | record (name field : String) (before after : List (String × Value))
  | tuple (name : String) (before after : List Value)
  | wrapper (name : String)
  | wrapperCase (type case : String)
  | tupleCase (type case : String) (before after : List Value)
  | recordCase (type case field : String) (before after : List (String × Value))
  | tagged (tag : String)

namespace Frame
open Layer

def plug (v : Value) : Frame → Value
  | .item before after => .list (before ++ v :: after)
  | .entry key before after => .map (before ++ (key, v) :: after)
  | .record name field before after => .record name (before ++ (field, v) :: after)
  | .tuple name before after => .tuple name (before ++ v :: after)
  | .wrapper name => .wrapper name v
  | .wrapperCase type case => .wrapperCase type case v
  | .tupleCase type case before after => .tupleCase type case (before ++ v :: after)
  | .recordCase type case field before after =>
    .recordCase type case (before ++ (field, v) :: after)
  | .tagged tag => .tagged tag v

/-- The frames are given from the inside out. -/
def plugAll (v : Value) (place : List Frame) : Value := place.foldl plug v

def type? (F : Frame) : Option String := (F.plug .null).type?

/-- The levels that the frame leaves in a tree, each with the record field that the place is in.
A wrapper leaves none. -/
def fields : Frame → List (Option String)
  | .record _ field .. => [some field]
  | .tuple _ before _ => [some (toString before.length)]
  | .wrapper _ => []
  | .tupleCase .. => [none, none]
  | .recordCase _ _ field .. => [some field, none]
  | _ => [none]

variable {F : Frame} {place : List Frame} {x y : Value} {m n : Node}

theorem exists_between {α β : Type} {R : α → β → Prop} {before after : List α} {v : α}
    {nodes : List β} (h : List.Forall₂ R (before ++ v :: after) nodes) :
    ∃ as b bs, as.length = before.length ∧ R v b ∧
      ∀ w c, R w c → List.Forall₂ R (before ++ w :: after) (as ++ c :: bs) := by
  induction before generalizing nodes with
  | nil =>
    obtain _ | ⟨hv, hafter⟩ := h
    exact ⟨[], _, _, rfl, hv, fun w c hw => .cons hw hafter⟩
  | cons d rest ih =>
    obtain _ | ⟨hd, hrest⟩ := h
    obtain ⟨as, b, bs, hlen, hv, hall⟩ := ih hrest
    exact ⟨_ :: as, b, bs, congrArg (· + 1) hlen, hv, fun w c hw => .cons hd (hall w c hw)⟩

theorem numbered_between (as bs : List Node) :
    ∃ later, ∀ b, numbered (as ++ b :: bs) = numbered as ++ (toString as.length, b) :: later :=
  ⟨(bs.zipIdx (as.length + 1)).map fun e => (toString e.2, e.1), fun b => by
    simp [numbered, List.zipIdx_append]⟩

/-- What a frame leaves around the tree of whatever stands in it. -/
theorem exists_layers (htype : ∀ t ∈ F.type?, o.formatter? t = none)
    (hm : o.capture (F.plug x) = .ok m) :
    (∃ a, o.capture x = .ok a) ∧ ∃ layers : List Layer, layers.map Layer.field? = F.fields ∧
      ∀ v b, o.capture v = .ok b → o.capture (F.plug v) = .ok (fillAll o b layers) := by
  cases F with
  | item before after =>
    obtain ⟨nodes, hnodes, -⟩ := bind_eq_ok.mp hm
    obtain ⟨as, a, bs, -, ha, hall⟩ := exists_between (captureItems_eq_ok_iff.mp hnodes)
    refine ⟨⟨a, ha⟩, [.item as bs], rfl, fun v b hb => ?_⟩
    exact bind_eq_ok.mpr ⟨_, captureItems_eq_ok_iff.mpr (hall v b hb), rfl⟩
  | entry key before after =>
    obtain ⟨nodes, hnodes, -⟩ := bind_eq_ok.mp hm
    obtain ⟨as, a, bs, -, ⟨⟨k, hk, hkey⟩, ha⟩, hall⟩ :=
      exists_between (captureEntries_eq_ok_iff.mp hnodes)
    refine ⟨⟨a.2, ha⟩, [.entry k.inline as bs], rfl, fun v b hb => ?_⟩
    have hentries := hall (key, v) (k.inline, b) ⟨⟨k, hk, rfl⟩, hb⟩
    exact bind_eq_ok.mpr ⟨_, captureEntries_eq_ok_iff.mpr hentries, rfl⟩
  | record name field before after =>
    have hname : o.formatter? name = none := htype name rfl
    obtain ⟨nodes, hnodes, -⟩ := bind_eq_ok.mp hm
    obtain ⟨as, a, bs, -, ha, hall⟩ := exists_between (captureFields_eq_ok_iff.mp hnodes)
    refine ⟨⟨a.2, ha.2⟩, [.record name field as bs], rfl, fun v b hb => ?_⟩
    have hfields := hall (field, v) (field, b) ⟨rfl, hb⟩
    exact bind_eq_ok.mpr ⟨_, captureFields_eq_ok_iff.mpr hfields, finishRecord_plain hname⟩
  | tuple name before after =>
    have hname : o.formatter? name = none := htype name rfl
    obtain ⟨nodes, hnodes, -⟩ := bind_eq_ok.mp hm
    obtain ⟨as, a, bs, hlen, ha, hall⟩ := exists_between (captureItems_eq_ok_iff.mp hnodes)
    obtain ⟨later, hlater⟩ := numbered_between as bs
    refine ⟨⟨a, ha⟩, [.record name (toString before.length) (numbered as) later], rfl,
      fun v b hb => ?_⟩
    refine bind_eq_ok.mpr ⟨_, captureItems_eq_ok_iff.mpr (hall v b hb), ?_⟩
    rw [finishRecord_plain hname, hlater, hlen]
    rfl
  | wrapper name =>
    have hname : o.formatter? name = none := htype name rfl
    obtain ⟨a, ha, -⟩ := bind_eq_ok.mp hm
    exact ⟨⟨a, ha⟩, [], rfl, fun v b hb => bind_eq_ok.mpr ⟨b, hb, finish_plain hname⟩⟩
  | wrapperCase type case =>
    have hname : o.formatter? type = none := htype type rfl
    obtain ⟨a, ha, -⟩ := bind_eq_ok.mp hm
    refine ⟨⟨a, ha⟩, [.variant type case], rfl, fun v b hb => ?_⟩
    exact bind_eq_ok.mpr ⟨b, hb, finish_plain hname⟩
  | tupleCase type case before after =>
    have hname : o.formatter? type = none := htype type rfl
    obtain ⟨nodes, hnodes, -⟩ := bind_eq_ok.mp hm
    obtain ⟨as, a, bs, -, ha, hall⟩ := exists_between (captureItems_eq_ok_iff.mp hnodes)
    refine ⟨⟨a, ha⟩, [.item as bs, .variant type case], rfl, fun v b hb => ?_⟩
    exact bind_eq_ok.mpr ⟨_, captureItems_eq_ok_iff.mpr (hall v b hb), finish_plain hname⟩
  | recordCase type case field before after =>
    have hname : o.formatter? type = none := htype type rfl
    obtain ⟨nodes, hnodes, -⟩ := bind_eq_ok.mp hm
    obtain ⟨as, a, bs, -, ha, hall⟩ := exists_between (captureFields_eq_ok_iff.mp hnodes)
    refine ⟨⟨a.2, ha.2⟩, [.record case field as bs, .variant type case], rfl,
      fun v b hb => ?_⟩
    have hfields := hall (field, v) (field, b) ⟨rfl, hb⟩
    exact bind_eq_ok.mpr ⟨_, captureFields_eq_ok_iff.mpr hfields, finish_plain hname⟩
  | tagged tag =>
    obtain ⟨a, ha, -⟩ := bind_eq_ok.mp hm
    refine ⟨⟨a, ha⟩, [.entry (Text.quote (Tag.shown tag)) [] []], rfl, fun v b hb => ?_⟩
    exact bind_eq_ok.mpr ⟨b, hb, rfl⟩

theorem exists_layers_all (htypes : ∀ F ∈ place, ∀ t ∈ F.type?, o.formatter? t = none)
    (hm : o.capture (plugAll x place) = .ok m) :
    (∃ a, o.capture x = .ok a) ∧ ∃ layers : List Layer,
      layers.map Layer.field? = place.flatMap fields ∧
      ∀ v b, o.capture v = .ok b → o.capture (plugAll v place) = .ok (fillAll o b layers) := by
  induction place generalizing x with
  | nil => exact ⟨⟨m, hm⟩, [], rfl, fun _ _ hb => hb⟩
  | cons F rest ih =>
    rw [List.forall_mem_cons] at htypes
    obtain ⟨⟨a, ha⟩, outer, houter, hall⟩ := ih htypes.2 hm
    obtain ⟨hx, inner, hinner, hF⟩ := exists_layers htypes.1 ha
    refine ⟨hx, inner ++ outer, ?_, fun v b hb => ?_⟩
    · rw [List.map_append, List.flatMap_cons, hinner, houter]
    · rw [fillAll, List.foldl_append]
      exact hall _ _ (hF v b hb)

end Frame

/-- Two values that differ in one formatted text only, which is the same on both sides: a comparison
shows nothing just when zero fields are asked for, both or none of the formatted values are zero, or
no record hinges on that. -/
theorem diff_formatted_iff {place : List Frame} {x y : Value} {type shown : String} {z w : Bool}
    {m n : Node} (htypes : ∀ F ∈ place, ∀ t ∈ F.type?, o.formatter? t = none)
    (hx : o.capture x = .ok (.formatted type shown z))
    (hy : o.capture y = .ok (.formatted type shown w))
    (hm : o.capture (Frame.plugAll x place) = .ok m)
    (hn : o.capture (Frame.plugAll y place) = .ok n)
    (hmkeys : m.distinctKeys = true) (hnkeys : n.distinctKeys = true) :
    o.diff (Frame.plugAll x place) (Frame.plugAll y place) = .ok "" ↔
      o.zero = true ∨ z = w ∨ Layer.hinges o (place.flatMap Frame.fields) = false := by
  obtain ⟨-, layers, hlayers, hall⟩ := Frame.exists_layers_all htypes hm
  obtain rfl := Except.ok.inj (hm.symm.trans (hall x _ hx))
  obtain rfl := Except.ok.inj (hn.symm.trans (hall y _ hy))
  rw [diff_eq_empty_iff_equivalent hm hn, equivalent_iff_canonical hmkeys hnkeys,
    Layer.fillAll_canonical_iff hmkeys hnkeys, hlayers]

/-- A span that is zero on one side, in a list. -/
theorem diff_formatted_iff_listener :
    let o : Options := ⟨false, false, [("Span", fun _ => .ok "soon")]⟩
    let place : List Frame :=
      [.item [] [.int 3], .record "Listener" "timeouts" [("port", .int 80)] []]
    let x : Value := .wrapper "Span" (.int 0)
    let y : Value := .wrapper "Span" (.int 1)
    let tree (zero : Bool) : Node := .record "Listener"
      [("port", .int 80), ("timeouts", .seq [.formatted "Span" "soon" zero, .int 3])]
    ((∀ F ∈ place, ∀ t ∈ F.type?, o.formatter? t = none) ∧
      o.capture x = .ok (.formatted "Span" "soon" true) ∧
      o.capture y = .ok (.formatted "Span" "soon" false) ∧
      o.capture (Frame.plugAll x place) = .ok (tree true) ∧
      o.capture (Frame.plugAll y place) = .ok (tree false) ∧
      (tree true).distinctKeys = true ∧ (tree false).distinctKeys = true) ∧
      Layer.hinges o (place.flatMap Frame.fields) = false ∧
      o.diff (Frame.plugAll x place) (Frame.plugAll y place) = .ok "" := by
  intro o place x y tree
  have htypes : ∀ F ∈ place, ∀ t ∈ F.type?, o.formatter? t = none := by
    simp [place, o, Frame.type?, Frame.plug, Value.type?, formatter?, find?]
  have hx : o.capture x = .ok (.formatted "Span" "soon" true) := rfl
  have hy : o.capture y = .ok (.formatted "Span" "soon" false) := rfl
  have hm : o.capture (Frame.plugAll x place) = .ok (tree true) := rfl
  have hn : o.capture (Frame.plugAll y place) = .ok (tree false) := rfl
  have hmkeys : (tree true).distinctKeys = true := by decide
  have hnkeys : (tree false).distinctKeys = true := by decide
  have hhinges : Layer.hinges o (place.flatMap Frame.fields) = false := rfl
  have hdiff := (diff_formatted_iff htypes hx hy hm hn hmkeys hnkeys).mpr (.inr (.inr hhinges))
  exact ⟨⟨htypes, hx, hy, hm, hn, hmkeys, hnkeys⟩, hhinges, hdiff⟩

/-- A record leaves out the field of the zero value only. Next to a field that the record holds
twice, even values that are both kept are shown to differ. -/
theorem formatted_alike_differ :
    let o : Options := ⟨false, false, [("T", fun _ => .ok "t")]⟩
    let value (n : Int) : Value := .wrapper "T" (.int n)
    let single (n : Int) : Value := .record "S" [("t", value n)]
    let doubled (n : Int) : Value := .record "S" [("a", .int 1), ("a", .int 2), ("t", value n)]
    o.capture (value 0) = .ok (.formatted "T" "t" true) ∧
      o.capture (value 1) = .ok (.formatted "T" "t" false) ∧
      o.capture (value 2) = .ok (.formatted "T" "t" false) ∧
      o.diff (single 0) (single 1) ≠ .ok "" ∧ o.diff (doubled 1) (doubled 2) ≠ .ok "" := by
  intro o value single doubled
  let tree (m n : Int) : Node := .record "S"
    [("a", .int m), ("a", .int n), ("t", .formatted "T" "t" false)]
  have hzero : o.capture (single 0) = .ok (.record "S" []) := rfl
  have hone : o.capture (single 1) = .ok (.record "S" [("t", .formatted "T" "t" false)]) := rfl
  have hfirst : o.capture (doubled 1) = .ok (tree 1 2) := rfl
  have hsecond : o.capture (doubled 2) = .ok (tree 1 2) := rfl
  refine ⟨rfl, rfl, rfl, ?_, ?_⟩
  · rw [Ne, diff_eq_empty_iff_equivalent hzero hone]
    decide
  · rw [Ne, diff_eq_empty_iff_equivalent hfirst hsecond]
    decide

end TestBench.Diff
