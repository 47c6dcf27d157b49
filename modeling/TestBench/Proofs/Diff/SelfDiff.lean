import TestBench.Diff.Compare
import TestBench.Proofs.Diff.Equivalence

/-! When a comparison shows nothing: just when the trees are equivalent. A value compared with
itself is shown to differ where entries of one key do not agree. -/
namespace TestBench.Diff

namespace Node

theorem mapFirst_eq_nil_iff {α : Type} {f : α → α} {l : List α} : mapFirst f l = [] ↔ l = [] := by
  cases l <;> simp [mapFirst]

theorem mapLast_eq_nil_iff {α : Type} {f : α → α} {l : List α} : mapLast f l = [] ↔ l = [] := by
  rcases l with _ | ⟨a, _ | ⟨b, rest⟩⟩ <;> simp [mapLast]

/-- Every tree shows something. -/
theorem lines_ne_nil (n : Node) : n.lines ≠ [] := by
  induction n with
  | seq items => cases items <;> simp [lines]
  | map entries => cases entries <;> simp [lines]
  | record name fields => cases fields <;> simp [lines]
  | variant type name content ih =>
    cases content with
    | null => simp [lines]
    | record inner fields => simpa [lines] using ih
    | seq items => simpa [lines, mapFirst_eq_nil_iff, mapLast_eq_nil_iff] using ih
    | map entries => simpa [lines, mapFirst_eq_nil_iff, mapLast_eq_nil_iff] using ih
    | variant inner case content =>
      simpa [lines, mapFirst_eq_nil_iff, mapLast_eq_nil_iff] using ih
    | _ => simp [lines, mapFirst_eq_nil_iff, mapLast_eq_nil_iff]
  | _ => simp [lines]

end Node

open Node

theorem emit_ne_nil {side : Side} {depth : Nat} {label suffix : String} {lines : List String}
    (h : lines ≠ []) : emit side depth label lines suffix ≠ [] := by
  simpa [emit, mapFirst_eq_nil_iff, mapLast_eq_nil_iff] using h

theorem bracket_ne_nil {depth : Nat} {label opening closing suffix : String}
    {inner : List Line} : bracket depth label opening closing suffix inner ≠ [] := by
  have hopen : emit .both depth label [opening] "" ≠ [] := emit_ne_nil (List.cons_ne_nil _ _)
  simp [bracket, hopen]

theorem compareAt_ne_nil {depth : Nat} {label suffix : String} {got want : Node} :
    compareAt depth label suffix got want ≠ [] := by
  have hgot (side : Side) (n : Node) : emit side depth label n.lines suffix ≠ [] :=
    emit_ne_nil n.lines_ne_nil
  unfold compareAt
  split
  · exact hgot _ _
  · split
    · exact bracket_ne_nil
    · exact bracket_ne_nil
    · split
      · exact bracket_ne_nil
      · simp [hgot]
    · simp [hgot]

theorem diffLines_eq_nil_iff {got want : Node} :
    diffLines got want = [] ↔ got.equivalent want = true := by
  unfold diffLines
  split
  next h => simp [h]
  next h => simp [h, compareAt_ne_nil]

theorem Line.render_ne_empty (l : Line) : l.render ≠ "" := by
  cases l with
  | mk side text => cases side <;> simp [Line.render, Side.mark]

theorem renderLines_eq_empty_iff {lines : List Line} :
    "\n".intercalate (lines.map Line.render) = "" ↔ lines = [] := by
  rcases lines with _ | ⟨l, _ | ⟨k, rest⟩⟩
  · simp
  · simp [l.render_ne_empty]
  · simp

/-- A comparison of values that have trees shows nothing just when these are equivalent. -/
theorem diff_eq_empty_iff_equivalent {o : Options} {got want : Value} {g w : Node}
    (hg : o.capture got = .ok g) (hw : o.capture want = .ok w) :
    o.diff got want = .ok "" ↔ g.equivalent w = true := by
  rw [← diffLines_eq_nil_iff, ← renderLines_eq_empty_iff]
  simp [Options.diff, hg, hw]

/-- A value that has a tree differs from itself just when entries of one key do not agree in it. -/
theorem diff_self_iff {o : Options} {v : Value} {n : Node} (h : o.capture v = .ok n) :
    (o.diff v v = .ok "" ↔ n.consistent = true) ∧
      (n.distinctKeys = true → o.diff v v = .ok "") := by
  have hiff : o.diff v v = .ok "" ↔ n.consistent = true := by
    rw [diff_eq_empty_iff_equivalent h h, equivalent_self]
  exact ⟨hiff, fun hkeys => hiff.mpr (consistent_of_distinctKeys hkeys)⟩

theorem diff_self_listener :
    let v : Value := .record "Listener" [("port", .int 80), ("names", .map [(.int 7, .text "a")])]
    let n : Node := .record "Listener" [("port", .int 80), ("names", .map [("7", .text "a")])]
    Options.default.capture v = .ok n ∧
      (Options.default.diff v v = .ok "" ↔ n.consistent = true) ∧
        (n.distinctKeys = true → Options.default.diff v v = .ok "") :=
  ⟨rfl, diff_self_iff rfl⟩

/-- Keys that differ in a hidden field look alike, and their entries are held against each other. -/
theorem hidden_keys_differ :
    let v : Value := .map [(.record "Id" [("_id", .int 1)], .int 1),
      (.record "Id" [("_id", .int 2)], .int 2)]
    Options.default.diff v v ≠ .ok "" := by
  intro v
  have hcapture : Options.default.capture v =
      .ok (.map [("Id\x7b\x7d", .int 1), ("Id\x7b\x7d", .int 2)]) := rfl
  rw [Ne, diff_eq_empty_iff_equivalent hcapture hcapture]
  decide

end TestBench.Diff
