import TestBench.Diff.Compare
import TestBench.Proofs.Config.Encoding
import TestBench.Proofs.Diff.Pruning
import TestBench.Proofs.Number.Rounding
import TestBench.Proofs.Sorting
import TestBench.Proofs.Text.Pieces

/-! What a value leaves in its tree. Every float, record and formatted text of the tree goes back to
a part of the value. -/
namespace TestBench

namespace Value

/-- Whether a record holds no field twice. -/
def fieldsOnce : Value → Bool
  | .record _ fields => decide (fields.map (·.1)).Nodup
  | .recordCase _ _ fields => decide (fields.map (·.1)).Nodup
  | _ => true

/-- Whether no two keys of a map look the same. -/
def keysApart (o : Diff.Options) : Value → Bool
  | .map entries =>
    match o.captureEntries entries with
    | .ok nodes => decide (nodes.map (·.1)).Nodup
    | .error _ => true
  | _ => true

/-- The name of the type by which a formatter is found. -/
def type? : Value → Option String
  | .record name _ => some name
  | .tuple name _ => some name
  | .marker name => some name
  | .wrapper name _ => some name
  | .unitCase type _ => some type
  | .wrapperCase type _ _ => some type
  | .tupleCase type _ _ => some type
  | .recordCase type _ _ => some type
  | _ => none

/-- Whether a float of double precision is a double. -/
def isDouble : Value → Bool
  | .double x => Format.double.holds x
  | _ => true

end Value

namespace Diff

/-- What in a value accounts for a part of its tree: a float is one of the value or is converted,
the keys of a map and the fields of a record are told apart when those of the value are, and a
formatted text stands for a value of a type that has a formatter. -/
def Node.Captured (o : Options) (v : Value) : Node → Prop
  | .float x => .double x ∈ v.parts ∨ ∃ y, x = Format.double.convert y
  | .map entries => (∀ w ∈ v.parts, w.keysApart o = true) → (entries.map (·.1)).Nodup
  | .record _ fields => (∀ w ∈ v.parts, w.fieldsOnce = true) → (fields.map (·.1)).Nodup
  | .formatted type .. => ∃ w ∈ v.parts, type ∈ w.type? ∧ o.formatter? type ≠ none
  | _ => True

/-- Whether a float is a double. -/
def Node.isDouble : Node → Bool
  | .float x => Format.double.holds x
  | _ => true

/-- Whether this is not a map that holds a key twice, nor a record that holds a field twice. -/
def Node.keysOnce : Node → Bool
  | .map entries => decide (entries.map (·.1)).Nodup
  | .record _ fields => decide (fields.map (·.1)).Nodup
  | _ => true

theorem Node.distinctKeys_of_parts {n : Node} (h : ∀ m ∈ n.parts, m.keysOnce = true) :
    n.distinctKeys = true := by
  induction n with
  | seq items ih =>
    rw [parts, List.forall_mem_cons, forall_partsOfItems_iff] at h
    exact distinctKeys_seq_iff.mpr fun item hitem => ih item hitem (h.2 item hitem)
  | map entries ih =>
    rw [parts, List.forall_mem_cons, forall_partsOfEntries_iff] at h
    exact distinctKeys_map_iff.mpr ⟨of_decide_eq_true h.1, fun e he => ih e he (h.2 e he)⟩
  | record name fields ih =>
    rw [parts, List.forall_mem_cons, forall_partsOfEntries_iff] at h
    exact distinctKeys_record_iff.mpr ⟨of_decide_eq_true h.1, fun f hf => ih f hf (h.2 f hf)⟩
  | variant type name content ih =>
    rw [parts, List.forall_mem_cons] at h
    exact ih h.2
  | _ => rfl

namespace Options
open Node

variable {o : Options} {v whole : Value} {n : Node}

theorem captureItems_eq_ok_iff {items : List Value} {nodes : List Node} :
    o.captureItems items = .ok nodes ↔ List.Forall₂ (o.capture · = .ok ·) items nodes := by
  induction items generalizing nodes with
  | nil => cases nodes <;> simp [captureItems]
  | cons v rest ih =>
    simp only [captureItems, bind_eq_ok, ih]
    constructor
    · rintro ⟨n, hn, others, hothers, h⟩
      cases h
      exact .cons hn hothers
    · rintro (_ | ⟨hn, hothers⟩)
      exact ⟨_, hn, _, hothers, rfl⟩

theorem captureFields_eq_ok_iff {fields : List (String × Value)} {nodes : List (String × Node)} :
    o.captureFields fields = .ok nodes ↔
      List.Forall₂ (fun f e => e.1 = f.1 ∧ o.capture f.2 = .ok e.2) fields nodes := by
  induction fields generalizing nodes with
  | nil => cases nodes <;> simp [captureFields]
  | cons f rest ih =>
    simp only [captureFields, bind_eq_ok, ih]
    constructor
    · rintro ⟨n, hn, others, hothers, h⟩
      cases h
      exact .cons ⟨rfl, hn⟩ hothers
    · rintro (_ | @⟨_, ⟨name, n⟩, _, others, ⟨hname, hn⟩, hothers⟩)
      exact ⟨n, hn, others, hothers, by rw [← hname]⟩

/-- An entry of the tree has the text of its key. -/
theorem captureEntries_eq_ok_iff {entries : List (Value × Value)} {nodes : List (String × Node)} :
    o.captureEntries entries = .ok nodes ↔
      List.Forall₂ (fun f e => (∃ k, o.capture f.1 = .ok k ∧ e.1 = k.inline) ∧
        o.capture f.2 = .ok e.2) entries nodes := by
  induction entries generalizing nodes with
  | nil => cases nodes <;> simp [captureEntries]
  | cons f rest ih =>
    simp only [captureEntries, bind_eq_ok, ih]
    constructor
    · rintro ⟨k, hk, n, hn, others, hothers, h⟩
      cases h
      exact .cons ⟨⟨k, hk, rfl⟩, hn⟩ hothers
    · rintro (_ | @⟨_, ⟨key, n⟩, _, others, ⟨⟨k, hk, hkey⟩, hn⟩, hothers⟩)
      exact ⟨k, hk, n, hn, others, hothers, by rw [← hkey]⟩

theorem names_of_captureFields {fields : List (String × Value)} {nodes : List (String × Node)}
    (h : o.captureFields fields = .ok nodes) : nodes.map (·.1) = fields.map (·.1) := by
  rw [captureFields_eq_ok_iff] at h
  rw [eq_comm, ← List.forall₂_eq_eq_eq, List.forall₂_map_left_iff, List.forall₂_map_right_iff]
  exact h.imp fun _ _ hf => hf.1.symm

theorem numbered_nodup (nodes : List Node) : ((numbered nodes).map (·.1)).Nodup := by
  have hnames : (numbered nodes).map (·.1) = (List.range nodes.length).map toString := by
    rw [numbered, List.map_map, List.range_eq_range', ← List.zipIdx_map_snd 0 nodes, List.map_map]
    rfl
  rw [hnames]
  refine List.nodup_range.map fun i j hij => ?_
  have hi := Literal.unsigned?_toString (show i < max i j + 1 by omega)
  have hij : toString i = toString j := hij
  rw [hij, Literal.unsigned?_toString (by omega)] at hi
  exact (Option.some.inj hi).symm

theorem keysApart_iff {entries : List (Value × Value)} :
    (Value.map entries).keysApart o = true ↔
      ∀ nodes, o.captureEntries entries = .ok nodes → (nodes.map (·.1)).Nodup := by
  rw [Value.keysApart]
  cases o.captureEntries entries <;> simp

theorem captured_select {name : String} {fields : List (String × Node)}
    (hnames : (∀ w ∈ whole.parts, w.fieldsOnce = true) → (fields.map (·.1)).Nodup)
    (h : ∀ f ∈ fields, ∀ m ∈ f.2.parts, m.Captured o whole) :
    ∀ m ∈ (o.select name fields).parts, m.Captured o whole := by
  rw [select, Node.parts, List.forall_mem_cons, Node.forall_partsOfEntries_iff]
  refine ⟨fun honce => (hnames honce).sublist (List.filter_sublist.map _), fun f hf => ?_⟩
  exact h f (List.mem_filter.mp hf).1

theorem captured_replace {type : String} {format : Formatter} {w : Value} {m : Node}
    (hw : w ∈ whole.parts) (htype : w.type? = some type) (hformat : o.formatter? type = some format)
    (hm : replace type n format = .ok m) : ∀ k ∈ m.parts, k.Captured o whole := by
  obtain ⟨text, -, hm⟩ := bind_eq_ok.mp hm
  cases hm
  exact List.forall_mem_singleton.mpr ⟨w, hw, htype, hformat ▸ Option.some_ne_none format⟩

theorem captured_finish {type : String} {w : Value} {m : Node} (hw : w ∈ whole.parts)
    (htype : w.type? = some type) (h : ∀ k ∈ n.parts, k.Captured o whole)
    (hm : o.finish type n = .ok m) : ∀ k ∈ m.parts, k.Captured o whole := by
  rw [finish] at hm
  split at hm
  next format hformat => exact captured_replace hw htype hformat hm
  next =>
    cases hm
    exact h

theorem captured_finishRecord {name : String} {fields : List (String × Node)} {w : Value} {m : Node}
    (hw : w ∈ whole.parts) (htype : w.type? = some name)
    (hnames : (∀ w ∈ whole.parts, w.fieldsOnce = true) → (fields.map (·.1)).Nodup)
    (h : ∀ f ∈ fields, ∀ k ∈ f.2.parts, k.Captured o whole)
    (hm : o.finishRecord name fields = .ok m) : ∀ k ∈ m.parts, k.Captured o whole := by
  rw [finishRecord] at hm
  split at hm
  next format hformat => exact captured_replace hw htype hformat hm
  next =>
    cases hm
    exact captured_select hnames h

theorem captured_captureItems {items : List Value} {nodes : List Node}
    (ih : ∀ v ∈ items, ∀ n, o.capture v = .ok n → ∀ m ∈ n.parts, m.Captured o whole)
    (h : o.captureItems items = .ok nodes) :
    ∀ n ∈ nodes, ∀ m ∈ n.parts, m.Captured o whole := by
  intro n hn
  obtain ⟨v, hv, hcapture⟩ := exists_of_forall₂ (captureItems_eq_ok_iff.mp h).flip hn
  exact ih v hv n hcapture

theorem captured_captureFields {fields : List (String × Value)} {nodes : List (String × Node)}
    (ih : ∀ f ∈ fields, ∀ n, o.capture f.2 = .ok n → ∀ m ∈ n.parts, m.Captured o whole)
    (h : o.captureFields fields = .ok nodes) :
    ∀ e ∈ nodes, ∀ m ∈ e.2.parts, m.Captured o whole := by
  intro e he
  obtain ⟨f, hf, -, hcapture⟩ := exists_of_forall₂ (captureFields_eq_ok_iff.mp h).flip he
  exact ih f hf e.2 hcapture

theorem captured_captureEntries {entries : List (Value × Value)} {nodes : List (String × Node)}
    (ih : ∀ e ∈ entries, ∀ n, o.capture e.2 = .ok n → ∀ m ∈ n.parts, m.Captured o whole)
    (h : o.captureEntries entries = .ok nodes) :
    ∀ e ∈ nodes, ∀ m ∈ e.2.parts, m.Captured o whole := by
  intro e he
  obtain ⟨f, hf, -, hcapture⟩ := exists_of_forall₂ (captureEntries_eq_ok_iff.mp h).flip he
  exact ih f hf e.2 hcapture

/-- Every part of the tree of a value goes back to the value. -/
theorem captured_of_mem_parts (hv : ∀ w ∈ v.parts, w ∈ whole.parts) (hn : o.capture v = .ok n) :
    ∀ m ∈ n.parts, m.Captured o whole := by
  -- the whole value stays fixed, so that what is found in a part of it holds of the whole
  induction v generalizing n with
  | int i =>
    cases hn
    rw [intNode]
    split <;> exact List.forall_mem_singleton.mpr trivial
  | null | bool | text | bytes =>
    cases hn
    exact List.forall_mem_singleton.mpr trivial
  | double x =>
    cases hn
    exact List.forall_mem_singleton.mpr (.inl (hv _ (Value.self_mem_parts _)))
  | single x =>
    cases hn
    exact List.forall_mem_singleton.mpr (.inr ⟨x, rfl⟩)
  | list items ih =>
    rw [Value.parts, List.forall_mem_cons, Value.forall_partsOfItems_iff] at hv
    obtain ⟨nodes, hnodes, hn⟩ := bind_eq_ok.mp hn
    cases hn
    rw [Node.parts, List.forall_mem_cons, Node.forall_partsOfItems_iff]
    exact ⟨trivial, captured_captureItems (fun w hw m => ih w hw (hv.2 w hw)) hnodes⟩
  | map entries ih =>
    rw [Value.parts, List.forall_mem_cons, Value.forall_partsOfEntries_iff] at hv
    obtain ⟨nodes, hnodes, hn⟩ := bind_eq_ok.mp hn
    cases hn
    have hentries := captured_captureEntries (fun e he m => (ih e he).2 (hv.2 e he).2) hnodes
    rw [Node.parts, List.forall_mem_cons, Node.forall_partsOfEntries_iff]
    have hperm := sortBy_perm keyLe nodes
    refine ⟨fun hkeys => (hperm.map (·.1)).nodup_iff.mpr ?_, fun e he => ?_⟩
    · exact keysApart_iff.mp (hkeys _ hv.1) nodes hnodes
    · exact hentries e (hperm.mem_iff.mp he)
  | record name fields ih =>
    rw [Value.parts, List.forall_mem_cons, Value.forall_partsOfFields_iff] at hv
    obtain ⟨nodes, hnodes, hn⟩ := bind_eq_ok.mp hn
    refine captured_finishRecord hv.1 rfl (fun honce => ?_)
      (captured_captureFields (fun f hf m => ih f hf (hv.2 f hf)) hnodes) hn
    exact names_of_captureFields hnodes ▸ of_decide_eq_true (honce _ hv.1)
  | tuple name items ih =>
    rw [Value.parts, List.forall_mem_cons, Value.forall_partsOfItems_iff] at hv
    obtain ⟨nodes, hnodes, hn⟩ := bind_eq_ok.mp hn
    have hitems := captured_captureItems (fun w hw m => ih w hw (hv.2 w hw)) hnodes
    refine captured_finishRecord hv.1 rfl (fun _ => numbered_nodup nodes) (fun f hf => ?_) hn
    obtain ⟨⟨node, i⟩, hmem, rfl⟩ := List.mem_map.mp hf
    exact hitems node (List.fst_mem_of_mem_zipIdx hmem)
  | marker name =>
    have hn : o.finishRecord name [] = .ok n := hn
    have hmem : Value.marker name ∈ whole.parts := hv _ (Value.self_mem_parts _)
    refine captured_finishRecord hmem rfl (fun _ => ?_) (fun f hf => ?_) hn
    · exact List.nodup_nil
    · cases hf
  | wrapper name inner ih =>
    rw [Value.parts, List.forall_mem_cons] at hv
    obtain ⟨m, hm, hn⟩ := bind_eq_ok.mp hn
    exact captured_finish hv.1 rfl (ih hv.2 hm) hn
  | unitCase type variant =>
    exact captured_finish (n := .variant type variant .null) (hv _ (Value.self_mem_parts _)) rfl
      (List.forall_mem_cons.mpr ⟨trivial, List.forall_mem_singleton.mpr trivial⟩) hn
  | wrapperCase type variant inner ih =>
    rw [Value.parts, List.forall_mem_cons] at hv
    obtain ⟨m, hm, hn⟩ := bind_eq_ok.mp hn
    exact captured_finish (n := .variant type variant m) hv.1 rfl
      (List.forall_mem_cons.mpr ⟨trivial, ih hv.2 hm⟩) hn
  | tupleCase type variant items ih =>
    rw [Value.parts, List.forall_mem_cons, Value.forall_partsOfItems_iff] at hv
    obtain ⟨nodes, hnodes, hn⟩ := bind_eq_ok.mp hn
    have hitems := captured_captureItems (fun w hw m => ih w hw (hv.2 w hw)) hnodes
    refine captured_finish hv.1 rfl ?_ hn
    rw [Node.parts, Node.parts, List.forall_mem_cons, List.forall_mem_cons,
      Node.forall_partsOfItems_iff]
    exact ⟨trivial, trivial, hitems⟩
  | recordCase type variant fields ih =>
    rw [Value.parts, List.forall_mem_cons, Value.forall_partsOfFields_iff] at hv
    obtain ⟨nodes, hnodes, hn⟩ := bind_eq_ok.mp hn
    refine captured_finish (n := .variant type variant (o.select variant nodes)) hv.1 rfl
      (List.forall_mem_cons.mpr ⟨trivial, captured_select (fun honce => ?_)
        (captured_captureFields (fun f hf m => ih f hf (hv.2 f hf)) hnodes)⟩) hn
    exact names_of_captureFields hnodes ▸ of_decide_eq_true (honce _ hv.1)
  | tagged tag inner ih =>
    rw [Value.parts, List.forall_mem_cons] at hv
    obtain ⟨m, hm, hn⟩ := bind_eq_ok.mp hn
    cases hn
    rw [Node.parts, List.forall_mem_cons, Node.forall_partsOfEntries_iff]
    exact ⟨fun _ => List.nodup_singleton _, List.forall_mem_singleton.mpr (ih hv.2 hm)⟩
  | broken message => cases hn
  | keyless inner => cases hn

/-- The floats of a tree are doubles when those of the value are. -/
theorem capture_doubles (hv : ∀ w ∈ v.parts, w.isDouble = true) (hn : o.capture v = .ok n) :
    ∀ m ∈ n.parts, m.isDouble = true := by
  intro m hm
  have h := captured_of_mem_parts (fun _ hw => hw) hn m hm
  cases m with
  | float x =>
    obtain hmem | ⟨y, rfl⟩ := h
    · exact hv _ hmem
    · exact Format.holds_convert (by decide) (by decide) y
  | _ => rfl

/-- The keys of a tree are told apart when the keys and the fields of the value are. -/
theorem capture_distinctKeys (hkeys : ∀ w ∈ v.parts, w.keysApart o = true)
    (honce : ∀ w ∈ v.parts, w.fieldsOnce = true) (hn : o.capture v = .ok n) :
    n.distinctKeys = true := by
  refine distinctKeys_of_parts fun m hm => ?_
  have h := captured_of_mem_parts (fun _ hw => hw) hn m hm
  cases m with
  | map entries => exact decide_eq_true (h hkeys)
  | record name fields => exact decide_eq_true (h honce)
  | _ => rfl

end Options
end Diff
end TestBench
