import TestBench.Proofs.Diff.Captured
import TestBench.Proofs.Diff.SelfDiff

/-! Maps whose entries come in another order. Each map is sorted by the looks of its keys before
anything around it sees its tree, so the order that the entries came in is gone from the start. -/
namespace TestBench

/-- The same value but for the order of the entries of its maps, at any depth and in keys too. -/
inductive Value.Reordered : Value → Value → Prop
  | refl (v : Value) : Reordered v v
  | list {items others : List Value} (each : List.Forall₂ Reordered items others) :
    Reordered (.list items) (.list others)
  /-- the entries one by one, and then in another order -/
  | map {entries aligned others : List (Value × Value)}
    (keys : List.Forall₂ Reordered (entries.map (·.1)) (aligned.map (·.1)))
    (values : List.Forall₂ Reordered (entries.map (·.2)) (aligned.map (·.2)))
    (order : aligned.Perm others) : Reordered (.map entries) (.map others)
  | record (name : String) {fields others : List (String × Value)}
    (names : fields.map (·.1) = others.map (·.1))
    (values : List.Forall₂ Reordered (fields.map (·.2)) (others.map (·.2))) :
    Reordered (.record name fields) (.record name others)
  | tuple (name : String) {items others : List Value}
    (each : List.Forall₂ Reordered items others) :
    Reordered (.tuple name items) (.tuple name others)
  | wrapper (name : String) {inner other : Value} (inside : Reordered inner other) :
    Reordered (.wrapper name inner) (.wrapper name other)
  | wrapperCase (type variant : String) {inner other : Value} (inside : Reordered inner other) :
    Reordered (.wrapperCase type variant inner) (.wrapperCase type variant other)
  | tupleCase (type variant : String) {items others : List Value}
    (each : List.Forall₂ Reordered items others) :
    Reordered (.tupleCase type variant items) (.tupleCase type variant others)
  | recordCase (type variant : String) {fields others : List (String × Value)}
    (names : fields.map (·.1) = others.map (·.1))
    (values : List.Forall₂ Reordered (fields.map (·.2)) (others.map (·.2))) :
    Reordered (.recordCase type variant fields) (.recordCase type variant others)
  | tagged (tag : String) {inner other : Value} (inside : Reordered inner other) :
    Reordered (.tagged tag inner) (.tagged tag other)
  | keyless {inner other : Value} (inside : Reordered inner other) :
    Reordered (.keyless inner) (.keyless other)

theorem Value.reordered_of_perm {entries others : List (Value × Value)}
    (h : entries.Perm others) : (map entries).Reordered (map others) :=
  .map (List.forall₂_same.mpr fun v _ => .refl v) (List.forall₂_same.mpr fun v _ => .refl v) h

namespace Diff
namespace Options
open Value

variable {o : Options} {v w : Value} {n : Node}

/-- Whether the values have the same tree, if one of them has any. -/
def CapturedAlike (o : Options) (v w : Value) : Prop :=
  ∀ n, o.capture v = .ok n ↔ o.capture w = .ok n

theorem bind_congr_ok {α β : Type} {x y : Except Failure α} (h : ∀ a, x = .ok a ↔ y = .ok a)
    (f : α → Except Failure β) (b : β) : x >>= f = .ok b ↔ y >>= f = .ok b := by
  simp only [bind_eq_ok, h]

theorem captureItems_alike {items others : List Value}
    (h : List.Forall₂ o.CapturedAlike items others) (nodes : List Node) :
    o.captureItems items = .ok nodes ↔ o.captureItems others = .ok nodes := by
  induction h generalizing nodes with
  | nil => exact Iff.rfl
  | cons hv _ ih => simp only [captureItems, bind_eq_ok, hv _, ih]

theorem captureFields_alike {fields others : List (String × Value)}
    (hnames : fields.map (·.1) = others.map (·.1))
    (h : List.Forall₂ o.CapturedAlike (fields.map (·.2)) (others.map (·.2)))
    (nodes : List (String × Node)) :
    o.captureFields fields = .ok nodes ↔ o.captureFields others = .ok nodes := by
  induction fields generalizing others nodes with
  | nil =>
    obtain rfl := List.map_eq_nil_iff.mp hnames.symm
    exact Iff.rfl
  | cons f rest ih =>
    cases others with
    | nil => cases hnames
    | cons g others =>
      obtain ⟨hname, hnames⟩ := List.cons.inj hnames
      obtain ⟨hv, hrest⟩ := List.forall₂_cons.mp h
      simp only [captureFields, bind_eq_ok, hv _, ih hnames hrest, hname]

theorem captureEntries_alike {entries others : List (Value × Value)}
    (hkeys : List.Forall₂ o.CapturedAlike (entries.map (·.1)) (others.map (·.1)))
    (hvalues : List.Forall₂ o.CapturedAlike (entries.map (·.2)) (others.map (·.2)))
    (nodes : List (String × Node)) :
    o.captureEntries entries = .ok nodes ↔ o.captureEntries others = .ok nodes := by
  induction entries generalizing others nodes with
  | nil =>
    obtain rfl := List.map_eq_nil_iff.mp (List.forall₂_nil_left_iff.mp hkeys)
    exact Iff.rfl
  | cons e rest ih =>
    cases others with
    | nil => cases hkeys
    | cons d others =>
      obtain ⟨hkey, hkeys⟩ := List.forall₂_cons.mp hkeys
      obtain ⟨hvalue, hvalues⟩ := List.forall₂_cons.mp hvalues
      simp only [captureEntries, bind_eq_ok, hkey _, hvalue _, ih hkeys hvalues]

/-- Entries in another order leave entries in another order. -/
theorem captureEntries_perm {entries others : List (Value × Value)} {nodes : List (String × Node)}
    (h : entries.Perm others) (hnodes : o.captureEntries entries = .ok nodes) :
    ∃ moved, o.captureEntries others = .ok moved ∧ nodes.Perm moved := by
  rw [captureEntries_eq_ok_iff] at hnodes
  obtain ⟨moved, hmoved, hperm⟩ := List.perm_comp_forall₂ h.symm hnodes
  exact ⟨moved, captureEntries_eq_ok_iff.mpr hmoved, hperm.symm⟩

theorem captureMap_perm {entries others : List (Value × Value)} (h : entries.Perm others)
    (hkeys : (Value.map entries).keysApart o = true) (n : Node) :
    o.capture (.map entries) = .ok n ↔ o.capture (.map others) = .ok n := by
  have hsort {nodes moved : List (String × Node)} (hnodes : o.captureEntries entries = .ok nodes)
      (hperm : nodes.Perm moved) : sortBy keyLe nodes = sortBy keyLe moved :=
    sortBy_eq_of_perm hperm (keysApart_iff.mp hkeys nodes hnodes)
  simp only [capture, bind_eq_ok]
  constructor
  · rintro ⟨nodes, hnodes, hn⟩
    obtain ⟨moved, hmoved, hperm⟩ := captureEntries_perm h hnodes
    exact ⟨moved, hmoved, hsort hnodes hperm ▸ hn⟩
  · rintro ⟨moved, hmoved, hn⟩
    obtain ⟨nodes, hnodes, hperm⟩ := captureEntries_perm h.symm hmoved
    exact ⟨nodes, hnodes, (hsort hnodes hperm.symm).symm ▸ hn⟩

theorem forall₂_alike {items others : List Value} (h : List.Forall₂ Reordered items others)
    (ih : ∀ v ∈ items, ∀ w, v.Reordered w → o.CapturedAlike v w) :
    List.Forall₂ o.CapturedAlike items others :=
  ((List.forall₂_and_left _ _).mpr ⟨ih, h⟩).imp fun _ w hv => hv.1 w hv.2

/-- Where no two keys of a map look the same, the order of the entries makes no difference to the
tree. -/
theorem capture_reordered (h : v.Reordered w) (hkeys : ∀ u ∈ v.parts, u.keysApart o = true) :
    o.CapturedAlike v w := by
  induction v generalizing w with
  | list items ih =>
    rw [parts, List.forall_mem_cons, forall_partsOfItems_iff] at hkeys
    cases h with
    | refl => exact fun _ => Iff.rfl
    | list each =>
      have hall := forall₂_alike each fun v hv w hvw => ih v hv hvw (hkeys.2 v hv)
      exact bind_congr_ok (captureItems_alike hall) _
  | map entries ih =>
    rw [parts, List.forall_mem_cons, forall_partsOfEntries_iff] at hkeys
    cases h with
    | refl => exact fun _ => Iff.rfl
    | @map _ aligned others keys values order =>
      have hk := forall₂_alike keys (List.forall_mem_map.mpr fun e he w hw =>
        (ih e he).1 hw (hkeys.2 e he).1)
      have hv := forall₂_alike values (List.forall_mem_map.mpr fun e he w hw =>
        (ih e he).2 hw (hkeys.2 e he).2)
      have hentries := captureEntries_alike hk hv
      have haligned : (Value.map aligned).keysApart o = true :=
        keysApart_iff.mpr fun nodes hnodes =>
          keysApart_iff.mp hkeys.1 nodes ((hentries nodes).mpr hnodes)
      intro n
      rw [← captureMap_perm order haligned]
      exact bind_congr_ok hentries _ n
  | record name fields ih =>
    rw [parts, List.forall_mem_cons, forall_partsOfFields_iff] at hkeys
    cases h with
    | refl => exact fun _ => Iff.rfl
    | record _ names values =>
      have hall := forall₂_alike values (List.forall_mem_map.mpr fun f hf w hw =>
        ih f hf hw (hkeys.2 f hf))
      exact bind_congr_ok (captureFields_alike names hall) _
  | tuple name items ih =>
    rw [parts, List.forall_mem_cons, forall_partsOfItems_iff] at hkeys
    cases h with
    | refl => exact fun _ => Iff.rfl
    | tuple _ each =>
      have hall := forall₂_alike each fun v hv w hvw => ih v hv hvw (hkeys.2 v hv)
      exact bind_congr_ok (captureItems_alike hall) _
  | wrapper name inner ih =>
    rw [parts, List.forall_mem_cons] at hkeys
    cases h with
    | refl => exact fun _ => Iff.rfl
    | wrapper _ inside => exact bind_congr_ok (ih inside hkeys.2) _
  | wrapperCase type variant inner ih =>
    rw [parts, List.forall_mem_cons] at hkeys
    cases h with
    | refl => exact fun _ => Iff.rfl
    | wrapperCase _ _ inside => exact bind_congr_ok (ih inside hkeys.2) _
  | tupleCase type variant items ih =>
    rw [parts, List.forall_mem_cons, forall_partsOfItems_iff] at hkeys
    cases h with
    | refl => exact fun _ => Iff.rfl
    | tupleCase _ _ each =>
      have hall := forall₂_alike each fun v hv w hvw => ih v hv hvw (hkeys.2 v hv)
      exact bind_congr_ok (captureItems_alike hall) _
  | recordCase type variant fields ih =>
    rw [parts, List.forall_mem_cons, forall_partsOfFields_iff] at hkeys
    cases h with
    | refl => exact fun _ => Iff.rfl
    | recordCase _ _ names values =>
      have hall := forall₂_alike values (List.forall_mem_map.mpr fun f hf w hw =>
        ih f hf hw (hkeys.2 f hf))
      exact bind_congr_ok (captureFields_alike names hall) _
  | tagged tag inner ih =>
    rw [parts, List.forall_mem_cons] at hkeys
    cases h with
    | refl => exact fun _ => Iff.rfl
    | tagged _ inside => exact bind_congr_ok (ih inside hkeys.2) _
  | keyless inner ih => cases h <;> exact fun _ => Iff.rfl
  | _ =>
    cases h
    exact fun _ => Iff.rfl

/-- The order of the entries of maps is not seen: the tree is the same, and so is what any
comparison says. The two values differ only where each would differ from itself. -/
theorem diff_of_reordered (h : v.Reordered w) (hkeys : ∀ u ∈ v.parts, u.keysApart o = true)
    (hn : o.capture v = .ok n) :
    o.capture w = .ok n ∧ (∀ u, o.diff v u = o.diff w u ∧ o.diff u v = o.diff u w) ∧
      (o.diff v w = .ok "" ↔ n.consistent = true) ∧
      ((∀ u ∈ v.parts, u.fieldsOnce = true) → o.diff v w = .ok "") := by
  have hw : o.capture w = .ok n := (capture_reordered h hkeys n).mp hn
  have hiff : o.diff v w = .ok "" ↔ n.consistent = true := by
    rw [diff_eq_empty_iff_equivalent hn hw, Node.equivalent_self]
  refine ⟨hw, fun u => ?_, hiff, fun honce => ?_⟩
  · constructor <;> rw [diff, diff, hn, hw]
  · exact hiff.mpr (Node.consistent_of_distinctKeys (capture_distinctKeys hkeys honce hn))

/-- Entries of a map, of a map key and of a map that is formatted. -/
theorem diff_of_reordered_limits :
    let o : Options := ⟨false, false, [("Limits", fun n => .ok n.inline)]⟩
    let v : Value := .map [
      (.map [(.int 1, .null), (.int 2, .null)],
        .wrapper "Limits" (.map [(.text "up", .int 3), (.text "down", .int 4)])),
      (.text "x", .int 5)]
    let w : Value := .map [
      (.text "x", .int 5),
      (.map [(.int 2, .null), (.int 1, .null)],
        .wrapper "Limits" (.map [(.text "down", .int 4), (.text "up", .int 3)]))]
    let n : Node := .map [("\"x\"", .int 5),
      ("\x7b1: null, 2: null\x7d", .formatted "Limits" "\x7b\"down\": 4, \"up\": 3\x7d" false)]
    (v.Reordered w ∧ (∀ u ∈ v.parts, u.keysApart o = true) ∧ o.capture v = .ok n) ∧
      o.capture w = .ok n ∧ o.diff v w = .ok "" := by
  intro o v w n
  have hswap (d e : Value × Value) : (Value.map [d, e]).Reordered (.map [e, d]) :=
    reordered_of_perm (.swap e d [])
  have h : v.Reordered w :=
    @Reordered.map _
      [(.map [(.int 2, .null), (.int 1, .null)],
        .wrapper "Limits" (.map [(.text "down", .int 4), (.text "up", .int 3)])),
      (.text "x", .int 5)] _
      (.cons (hswap _ _) (.cons (.refl _) .nil))
      (.cons (.wrapper "Limits" (hswap _ _)) (.cons (.refl _) .nil)) (.swap _ _ [])
  have hkeys : ∀ u ∈ v.parts, u.keysApart o = true := by decide
  have hn : o.capture v = .ok n := rfl
  obtain ⟨hw, -, -, hdiff⟩ := diff_of_reordered h hkeys hn
  exact ⟨⟨h, hkeys, hn⟩, hw, hdiff (by decide)⟩

/-- A record that holds a field twice differs from itself, in whatever order its map is given. -/
theorem reordered_shown_to_differ :
    let s : Value := .record "S" [("a", .int 1), ("a", .int 2)]
    let v : Value := .map [(.text "x", s), (.text "y", .int 0)]
    let w : Value := .map [(.text "y", .int 0), (.text "x", s)]
    let n : Node := .map [("\"x\"", .record "S" [("a", .int 1), ("a", .int 2)]), ("\"y\"", .int 0)]
    v.Reordered w ∧ (∀ u ∈ v.parts, u.keysApart Options.default = true) ∧
      Options.default.capture v = .ok n ∧ Options.default.capture w = .ok n ∧
      Options.default.diff v w ≠ .ok "" := by
  intro s v w n
  have hv : Options.default.capture v = .ok n := rfl
  have hw : Options.default.capture w = .ok n := rfl
  refine ⟨reordered_of_perm (.swap _ _ []), by decide, hv, hw, ?_⟩
  rw [Ne, diff_eq_empty_iff_equivalent hv hw]
  decide

end Options
end Diff
end TestBench
