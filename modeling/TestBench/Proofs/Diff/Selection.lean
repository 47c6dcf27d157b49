import TestBench.Proofs.Diff.Captured
import TestBench.Proofs.Diff.Pruning

/-! Comparing more of the fields. The tree that holds fewer of them is the other one pruned, so
asking for more fields never hides a difference. -/
namespace TestBench

namespace Value

def isScalar : Value → Bool
  | .null => true
  | .bool _ => true
  | .int _ => true
  | .double _ => true
  | .single _ => true
  | .text _ => true
  | .bytes _ => true
  | _ => false

/-- Whether the keys of a map are scalars. -/
def scalarKeys : Value → Bool
  | .map entries => entries.all fun e => e.1.isScalar
  | _ => true

/-- What is compared by its fields: no formatter is meant for it, and neither do keys look different
to other options nor is there a second field of a name. -/
structure Plain (o : Diff.Options) (v : Value) : Prop where
  keys : v.scalarKeys = true
  fields : v.fieldsOnce = true
  type : ∀ t ∈ v.type?, o.formatter? t = none

theorem plain_iff {o : Diff.Options} {v : Value} :
    v.Plain o ↔ v.scalarKeys = true ∧ v.fieldsOnce = true ∧
      ∀ t ∈ v.type?, o.formatter? t = none :=
  ⟨fun h => ⟨h.keys, h.fields, h.type⟩, fun h => ⟨h.1, h.2.1, h.2.2⟩⟩

instance (o : Diff.Options) (v : Value) : Decidable (v.Plain o) :=
  decidable_of_iff' _ plain_iff

end Value

namespace Diff.Options
open Node

variable {o p : Options} {v : Value} {n : Node}

/-- The same options, but for fewer of the fields. -/
structure Within (o p : Options) : Prop where
  unexported : o.unexported = true → p.unexported = true
  zero : o.zero = true → p.zero = true
  formatters : o.formatters = p.formatters

theorem keeps_of_keeps_prune (h : o.Within p) {field : String}
    (hkeep : o.keeps field (n.prune o) = true) : p.keeps field n = true := by
  rw [keeps, Bool.and_eq_true, Bool.or_eq_true, Bool.or_eq_true] at hkeep ⊢
  refine ⟨hkeep.1.imp_left h.unexported, hkeep.2.imp h.zero fun hpruned => ?_⟩
  rw [Bool.not_eq_true'] at hpruned ⊢
  rw [Bool.eq_false_iff] at hpruned ⊢
  exact fun hzero => hpruned (isZero_prune hzero)

/-- Fields that are dropped later need not be kept before. -/
theorem select_prune (h : o.Within p) (name : String) (fields : List (String × Node)) :
    (p.select name fields).prune o = o.select name (pruneEntries o fields) := by
  rw [select, select, prune, select, pruneEntries_eq_map, pruneEntries_eq_map, List.filter_map,
    List.filter_map, List.filter_filter]
  congr 2
  refine List.filter_congr fun f _ => ?_
  rw [Bool.and_eq_left_iff_imp]
  exact keeps_of_keeps_prune h

theorem numbered_prune (nodes : List Node) :
    pruneEntries o (numbered nodes) = numbered (pruneItems o nodes) := by
  rw [pruneEntries_eq_map, pruneItems_eq_map, numbered, numbered, List.zipIdx_map, List.map_map,
    List.map_map]
  rfl

theorem sortBy_prune (entries : List (String × Node)) :
    pruneEntries o (sortBy keyLe entries) = sortBy keyLe (pruneEntries o entries) := by
  rw [pruneEntries_eq_map, pruneEntries_eq_map, sortBy_map]
  rfl

/-- Scalars look alike to all options. -/
theorem capture_scalar (h : v.isScalar = true) : o.capture v = p.capture v := by
  cases v with
  | null | bool | int | double | single | text | bytes => rfl
  | _ => cases h

theorem captureItems_prune {items : List Value} {nodes : List Node}
    (ih : ∀ v ∈ items, ∀ n, p.capture v = .ok n → o.capture v = .ok (n.prune o))
    (h : p.captureItems items = .ok nodes) :
    o.captureItems items = .ok (pruneItems o nodes) := by
  rw [captureItems_eq_ok_iff] at h ⊢
  rw [pruneItems_eq_map, List.forall₂_map_right_iff]
  exact ((List.forall₂_and_left _ _).mpr ⟨ih, h⟩).imp fun _ n hv => hv.1 n hv.2

theorem captureFields_prune {fields : List (String × Value)} {nodes : List (String × Node)}
    (ih : ∀ f ∈ fields, ∀ n, p.capture f.2 = .ok n → o.capture f.2 = .ok (n.prune o))
    (h : p.captureFields fields = .ok nodes) :
    o.captureFields fields = .ok (pruneEntries o nodes) := by
  rw [captureFields_eq_ok_iff] at h ⊢
  rw [pruneEntries_eq_map, List.forall₂_map_right_iff]
  exact ((List.forall₂_and_left _ _).mpr ⟨ih, h⟩).imp fun _ e hf => ⟨hf.2.1, hf.1 e.2 hf.2.2⟩

theorem captureEntries_prune {entries : List (Value × Value)} {nodes : List (String × Node)}
    (hkeys : ∀ e ∈ entries, e.1.isScalar = true)
    (ih : ∀ e ∈ entries, ∀ n, p.capture e.2 = .ok n → o.capture e.2 = .ok (n.prune o))
    (h : p.captureEntries entries = .ok nodes) :
    o.captureEntries entries = .ok (pruneEntries o nodes) := by
  rw [captureEntries_eq_ok_iff] at h ⊢
  rw [pruneEntries_eq_map, List.forall₂_map_right_iff]
  have hboth := (List.forall₂_and_left _ _).mpr ⟨fun e he => And.intro (hkeys e he) (ih e he), h⟩
  refine hboth.imp fun _ e hf => ?_
  obtain ⟨⟨hkey, hvalue⟩, ⟨k, hk, hshown⟩, hn⟩ := hf
  exact ⟨⟨k, (capture_scalar hkey).trans hk, hshown⟩, hvalue e.2 hn⟩

theorem finishRecord_plain {name : String} {fields : List (String × Node)}
    (h : o.formatter? name = none) : o.finishRecord name fields = .ok (o.select name fields) := by
  rw [finishRecord, h]

theorem finish_plain {type : String} (h : o.formatter? type = none) : o.finish type n = .ok n := by
  rw [finish, h]

/-- The tree of a plain value for fewer fields is its tree for more of them, pruned. -/
theorem capture_prune (h : o.Within p) (hv : ∀ w ∈ v.parts, w.Plain o)
    (hn : p.capture v = .ok n) : o.capture v = .ok (n.prune o) := by
  have hformatter (type : String) : p.formatter? type = o.formatter? type := by
    rw [formatter?, formatter?, h.formatters]
  induction v generalizing n with
  | int i =>
    cases hn
    rw [capture, intNode]
    split <;> rfl
  | null | bool | double | single | text | bytes =>
    cases hn
    rfl
  | list items ih =>
    rw [Value.parts, List.forall_mem_cons, Value.forall_partsOfItems_iff] at hv
    obtain ⟨nodes, hnodes, hn⟩ := bind_eq_ok.mp hn
    cases hn
    have hitems := captureItems_prune (fun w hw m => ih w hw (hv.2 w hw)) hnodes
    exact bind_eq_ok.mpr ⟨_, hitems, rfl⟩
  | map entries ih =>
    rw [Value.parts, List.forall_mem_cons, Value.forall_partsOfEntries_iff] at hv
    obtain ⟨nodes, hnodes, hn⟩ := bind_eq_ok.mp hn
    cases hn
    have hentries := captureEntries_prune (List.all_eq_true.mp hv.1.keys)
      (fun e he m => (ih e he).2 (hv.2 e he).2) hnodes
    exact bind_eq_ok.mpr ⟨_, hentries, by rw [prune, sortBy_prune]⟩
  | record name fields ih =>
    rw [Value.parts, List.forall_mem_cons, Value.forall_partsOfFields_iff] at hv
    obtain ⟨nodes, hnodes, hn⟩ := bind_eq_ok.mp hn
    have hname : o.formatter? name = none := hv.1.type name rfl
    rw [finishRecord_plain ((hformatter name).trans hname)] at hn
    cases hn
    have hfields := captureFields_prune (fun f hf m => ih f hf (hv.2 f hf)) hnodes
    exact bind_eq_ok.mpr ⟨_, hfields, by rw [finishRecord_plain hname, select_prune h]⟩
  | tuple name items ih =>
    rw [Value.parts, List.forall_mem_cons, Value.forall_partsOfItems_iff] at hv
    obtain ⟨nodes, hnodes, hn⟩ := bind_eq_ok.mp hn
    have hname : o.formatter? name = none := hv.1.type name rfl
    rw [finishRecord_plain ((hformatter name).trans hname)] at hn
    cases hn
    have hitems := captureItems_prune (fun w hw m => ih w hw (hv.2 w hw)) hnodes
    exact bind_eq_ok.mpr ⟨_, hitems, by
      rw [finishRecord_plain hname, select_prune h, numbered_prune]⟩
  | marker name =>
    have hname : o.formatter? name = none := (hv _ (Value.self_mem_parts _)).type name rfl
    have hn : p.finishRecord name [] = .ok n := hn
    rw [finishRecord_plain ((hformatter name).trans hname)] at hn
    cases hn
    exact finishRecord_plain hname
  | wrapper name inner ih =>
    rw [Value.parts, List.forall_mem_cons] at hv
    obtain ⟨m, hm, hn⟩ := bind_eq_ok.mp hn
    have hname : o.formatter? name = none := hv.1.type name rfl
    rw [finish_plain ((hformatter name).trans hname)] at hn
    cases hn
    exact bind_eq_ok.mpr ⟨_, ih hv.2 hm, finish_plain hname⟩
  | unitCase type variant =>
    have hname : o.formatter? type = none := (hv _ (Value.self_mem_parts _)).type type rfl
    have hn : p.finish type (.variant type variant .null) = .ok n := hn
    rw [finish_plain ((hformatter type).trans hname)] at hn
    cases hn
    exact finish_plain hname
  | wrapperCase type variant inner ih =>
    rw [Value.parts, List.forall_mem_cons] at hv
    obtain ⟨m, hm, hn⟩ := bind_eq_ok.mp hn
    have hname : o.formatter? type = none := hv.1.type type rfl
    rw [finish_plain ((hformatter type).trans hname)] at hn
    cases hn
    exact bind_eq_ok.mpr ⟨_, ih hv.2 hm, finish_plain hname⟩
  | tupleCase type variant items ih =>
    rw [Value.parts, List.forall_mem_cons, Value.forall_partsOfItems_iff] at hv
    obtain ⟨nodes, hnodes, hn⟩ := bind_eq_ok.mp hn
    have hname : o.formatter? type = none := hv.1.type type rfl
    rw [finish_plain ((hformatter type).trans hname)] at hn
    cases hn
    have hitems := captureItems_prune (fun w hw m => ih w hw (hv.2 w hw)) hnodes
    exact bind_eq_ok.mpr ⟨_, hitems, finish_plain hname⟩
  | recordCase type variant fields ih =>
    rw [Value.parts, List.forall_mem_cons, Value.forall_partsOfFields_iff] at hv
    obtain ⟨nodes, hnodes, hn⟩ := bind_eq_ok.mp hn
    have hname : o.formatter? type = none := hv.1.type type rfl
    rw [finish_plain ((hformatter type).trans hname)] at hn
    cases hn
    have hfields := captureFields_prune (fun f hf m => ih f hf (hv.2 f hf)) hnodes
    exact bind_eq_ok.mpr ⟨_, hfields, by rw [finish_plain hname, prune, select_prune h]⟩
  | tagged tag inner ih =>
    rw [Value.parts, List.forall_mem_cons] at hv
    obtain ⟨m, hm, hn⟩ := bind_eq_ok.mp hn
    cases hn
    exact bind_eq_ok.mpr ⟨_, ih hv.2 hm, rfl⟩
  | broken message => cases hn
  | keyless inner => cases hn

/-- The tree of a plain value holds no formatted text and no field twice. -/
theorem capture_regular (hv : ∀ w ∈ v.parts, w.Plain o) (hn : o.capture v = .ok n) :
    ∀ m ∈ n.parts, m.regular = true := by
  intro m hm
  have h := captured_of_mem_parts (fun _ hw => hw) hn m hm
  cases m with
  | record name fields => exact decide_eq_true (h fun w hw => (hv w hw).fields)
  | formatted type text zero =>
    obtain ⟨w, hw, htype, hformatter⟩ := h
    exact absurd ((hv w hw).type type htype) hformatter
  | _ => rfl

theorem Within.plain (h : o.Within p) (hv : v.Plain o) : v.Plain p where
  keys := hv.keys
  fields := hv.fields
  type t ht := by rw [formatter?, ← h.formatters]; exact hv.type t ht

theorem cannotCompare_ne_empty (mark message : String) : cannotCompare mark message ≠ "" := by
  simp [cannotCompare, String.append_eq_empty_iff]

/-- A comparison shows nothing just when both values have trees and these are equivalent. -/
theorem diff_eq_empty_iff {a b : Value} :
    o.diff a b = .ok "" ↔
      ∃ m n, o.capture a = .ok m ∧ o.capture b = .ok n ∧ m.equivalent n = true := by
  constructor
  · intro h
    rcases ha : o.capture a with (_ | _) | m <;> rcases hb : o.capture b with (_ | _) | n
    case ok.ok => exact ⟨m, n, rfl, rfl, (diff_eq_empty_iff_equivalent ha hb).mp h⟩
    -- a side without a tree is reported, or ends the comparison
    all_goals
      simp [Options.diff, ha, hb, cannotCompare_ne_empty, String.append_eq_empty_iff] at h
  · rintro ⟨m, n, ha, hb, hab⟩
    exact (diff_eq_empty_iff_equivalent ha hb).mpr hab

theorem within_apply {s : Setting} (hs : s = .zero ∨ s = .unexported) : o.Within (o.apply s) := by
  rcases hs with rfl | rfl
  · exact ⟨id, fun _ => rfl, rfl⟩
  · exact ⟨fun _ => rfl, id, rfl⟩

theorem Within.trans {q : Options} (h : o.Within p) (h' : p.Within q) : o.Within q :=
  ⟨h'.unexported ∘ h.unexported, h'.zero ∘ h.zero, h.formatters.trans h'.formatters⟩

/-- Settings that ask for more fields. -/
theorem within_foldl {extra : List Setting} (h : ∀ s ∈ extra, s = .zero ∨ s = .unexported) :
    o.Within (extra.foldl apply o) := by
  induction extra generalizing o with
  | nil => exact ⟨id, id, rfl⟩
  | cons s rest ih =>
    rw [List.forall_mem_cons] at h
    exact (within_apply h.1).trans (ih h.2)

/-- What is equal with more fields is equal with fewer: asking for the zero or the unexported ones
never hides a difference, in plain values and whatever else is set. -/
theorem diff_eq_empty_of_more_fields {settings extra : List Setting} {a b : Value}
    (hextra : ∀ s ∈ extra, s = .zero ∨ s = .unexported)
    (ha : ∀ v ∈ a.parts, v.Plain (ofSettings settings))
    (hb : ∀ v ∈ b.parts, v.Plain (ofSettings settings))
    (h : (ofSettings (settings ++ extra)).diff a b = .ok "") :
    (ofSettings settings).diff a b = .ok "" := by
  have hwithin : (ofSettings settings).Within (ofSettings (settings ++ extra)) := by
    rw [ofSettings, ofSettings, List.foldl_append]
    exact within_foldl hextra
  obtain ⟨m, n, hm, hn, hmn⟩ := diff_eq_empty_iff.mp h
  have hm' := capture_regular (fun v hv => hwithin.plain (ha v hv)) hm
  have hn' := capture_regular (fun v hv => hwithin.plain (hb v hv)) hn
  exact diff_eq_empty_iff.mpr ⟨_, _, capture_prune hwithin ha hm, capture_prune hwithin hb hn,
    (equivalent_prune hm' hn' hmn).1⟩

/-- Two listeners whose hidden fields agree as well. -/
theorem diff_eq_empty_of_more_fields_listener :
    let a : Value := .record "Listener"
      [("port", .int 80), ("_id", .int 1), ("names", .map [(.int 7, .text "")])]
    let b : Value := .record "Listener"
      [("_id", .double (.finite false 1 0)), ("names", .map [(.int 7, .text "")]),
        ("port", .int 80)]
    (ofSettings ([.zero] ++ [.unexported])).diff a b = .ok "" ∧
      (ofSettings [.zero]).diff a b = .ok "" := by
  intro a b
  have h : (ofSettings ([.zero] ++ [.unexported])).diff a b = .ok "" :=
    diff_eq_empty_iff.mpr ⟨_, _, rfl, rfl, by decide⟩
  exact ⟨h, diff_eq_empty_of_more_fields (by simp) (by decide) (by decide) h⟩

end Diff.Options
end TestBench
