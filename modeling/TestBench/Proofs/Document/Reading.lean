import TestBench.Document.Reader
import TestBench.Proofs.Diff.Documents

/-! What a document that was read from bytes holds: its integers are of 64 bits at most. Whatever
else is written there as a number is read as a float, or not at all. -/
namespace TestBench.Document.Reader

/-- Whether what a reader gives, if it gives anything, is as required. -/
def Gives {α : Type} (P : α → Prop) (r : Reading (α × Bytes)) : Prop :=
  ∀ a rest, r = .ok (a, rest) → P a

def Narrow (d : Document) : Prop := d.isNarrow = true

section Rules

variable {α β : Type} {P : α → Prop} {Q : β → Prop} {r : Reading (α × Bytes)} {a : α}

theorem gives_fail (problem : Problem) (rest : Bytes) : Gives P (fail problem rest) := by
  intro a rest' h
  cases h

theorem gives_failAhead (problem : Problem) (rest : Bytes) : Gives P (failAhead problem rest) := by
  intro a rest' h
  cases h

theorem gives_ok (h : P a) (rest : Bytes) : Gives P (.ok (a, rest)) := by
  intro b rest' heq
  cases heq
  exact h

theorem gives_bind {f : α × Bytes → Reading (β × Bytes)} (hr : Gives P r)
    (hf : ∀ a rest, P a → Gives Q (f (a, rest))) : Gives Q (r >>= f) := by
  intro b rest h
  obtain ⟨⟨a, rest'⟩, ha, h⟩ := bind_eq_ok.mp h
  exact hf a rest' (hr a rest' ha) b rest h

theorem gives_map {f : α × Bytes → β × Bytes} (hr : Gives P r)
    (hf : ∀ a rest, P a → Q (f (a, rest)).1) : Gives Q (r.map f) := by
  intro b rest h
  cases r with
  | error fault => cases h
  | ok found =>
    have hfound : f found = (b, rest) := Except.ok.inj h
    have hb : Q (f found).1 := hf found.1 found.2 (hr found.1 found.2 rfl)
    rwa [hfound] at hb

end Rules

section Numbers

variable (negative : Bool) (significand : Nat) (start : Int)

theorem narrow_float (rest : Bytes) : Gives Narrow (float negative significand start rest) := by
  unfold float
  split
  · exact gives_ok (show Narrow (.float _) from rfl) rest
  · exact gives_fail _ rest

theorem narrow_exponentDigits (down : Bool) (bytes : Bytes) :
    Gives Narrow (exponentDigits negative significand start down bytes) := by
  unfold exponentDigits
  dsimp only
  split
  · split
    · exact gives_fail _ _
    · exact narrow_float _ _ _ _
  · exact narrow_float _ _ _ _

theorem narrow_exponent (bytes : Bytes) :
    Gives Narrow (exponent negative significand start bytes) := by
  unfold exponent
  dsimp only
  split
  · exact gives_fail _ _
  · split
    · exact narrow_exponentDigits _ _ _ _ _
    · exact gives_fail _ _

theorem narrow_afterFraction (bytes : Bytes) :
    Gives Narrow (afterFraction negative significand start bytes) := by
  cases bytes with
  | nil => exact narrow_float _ _ _ _
  | cons b rest =>
    rw [afterFraction]
    split
    · exact narrow_exponent _ _ _ _
    · exact narrow_float _ _ _ _

theorem narrow_fraction (bytes : Bytes) :
    Gives Narrow (fraction negative significand start bytes) := by
  unfold fraction
  dsimp only
  split
  · exact narrow_afterFraction _ _ _ _
  · split
    · exact gives_failAhead _ _
    · exact narrow_afterFraction _ _ _ _

theorem digitsBelow_lt {bound n : Nat} (hn : n < bound) (count : Nat) (bytes : Bytes) :
    (digitsBelow bound n count bytes).1 < bound := by
  induction bytes generalizing n count with
  | nil => exact hn
  | cons b rest ih =>
    unfold digitsBelow
    dsimp only
    split
    next h =>
      rw [Bool.and_eq_true, decide_eq_true_iff] at h
      exact ih h.2 (count + 1)
    · exact hn

/-- An integer of 64 bits is far from being held as text. -/
theorem narrow_int {n : Int} (h : n < significandBound) : Narrow (.int n) := by
  have hbound : (significandBound : Int) = 18446744073709551616 := rfl
  rw [Narrow, isNarrow, Diff.Options.intNode]
  split
  · rfl
  next hlarge =>
    norm_num at hlarge
    omega

theorem narrow_integer {n : Nat} (hn : n < significandBound) (rest : Bytes) :
    Gives Narrow (integer negative n rest) := by
  unfold integer
  split
  · exact gives_ok (narrow_int (by omega)) rest
  · split
    · exact gives_ok (narrow_int (by omega)) rest
    · exact narrow_float _ _ _ _

theorem narrow_afterWhole {n : Nat} (hn : n < significandBound) (bytes : Bytes) :
    Gives Narrow (afterWhole negative n bytes) := by
  cases bytes with
  | nil => exact narrow_integer negative hn []
  | cons b rest =>
    rw [afterWhole]
    split
    · exact narrow_fraction _ _ _ _
    · split
      · exact narrow_exponent _ _ _ _
      · exact narrow_integer negative hn _

theorem narrow_afterLongWhole (skipped : Nat) (bytes : Bytes) :
    Gives Narrow (afterLongWhole negative significand skipped bytes) := by
  cases bytes with
  | nil => exact narrow_float _ _ _ _
  | cons b rest =>
    rw [afterLongWhole]
    split
    · exact narrow_fraction _ _ _ _
    · split
      · exact narrow_exponent _ _ _ _
      · exact narrow_float _ _ _ _

theorem narrow_number (bytes : Bytes) : Gives Narrow (number negative bytes) := by
  have hpositive : 0 < significandBound := by decide
  cases bytes with
  | nil => exact gives_fail _ _
  | cons b rest =>
    rw [number]
    dsimp only
    split
    · split
      · exact gives_failAhead _ _
      · exact narrow_afterWhole negative hpositive rest
    · split
      · split
        · exact narrow_afterLongWhole _ _ _ _
        · exact narrow_afterWhole negative (digitsBelow_lt hpositive 0 _) _
      · exact gives_fail _ _

end Numbers

theorem narrow_word {d : Document} (h : Narrow d) (expected bytes : Bytes) :
    Gives Narrow (word d expected bytes) := by
  induction expected generalizing bytes with
  | nil =>
    unfold word
    exact gives_ok h bytes
  | cons b more ih =>
    cases bytes with
    | nil => exact gives_fail _ _
    | cons c rest =>
      unfold word
      split
      · exact ih rest
      · exact gives_fail _ _

theorem narrow_scalar (b : UInt8) (rest : Bytes) : Gives Narrow (scalar b rest) := by
  have hnull : Narrow .null := rfl
  have hbool (b : Bool) : Narrow (.bool b) := rfl
  have htext (s : String) : Narrow (.text s) := rfl
  unfold scalar
  split
  · exact narrow_word hnull _ _
  split
  · exact narrow_word (hbool true) _ _
  split
  · exact narrow_word (hbool false) _ _
  split
  · exact narrow_number _ _
  split
  · exact narrow_number _ _
  split
  · exact gives_map (P := fun _ => True) (fun _ _ _ => trivial) fun s _ _ => htext s
  · exact gives_failAhead _ _

section Parts

variable {item : Item} (hitem : ∀ bytes, Gives Narrow (item bytes))
include hitem

theorem narrow_moreItems (rounds : Nat) (bytes : Bytes) :
    Gives (fun ds => ∀ d ∈ ds, Narrow d) (moreItems item rounds bytes) := by
  induction rounds generalizing bytes with
  | zero => exact gives_fail _ _
  | succ rounds ih =>
    rw [moreItems]
    split
    · exact gives_failAhead _ _
    split
    · exact gives_ok (List.forall_mem_nil _) _
    split
    · split
      · exact gives_failAhead _ _
      split
      · exact gives_failAhead _ _
      · refine gives_bind (hitem _) fun d rest hd => gives_bind (ih rest) fun ds rest hds => ?_
        exact gives_ok (List.forall_mem_cons.mpr ⟨hd, hds⟩) rest
    · exact gives_failAhead _ _

theorem narrow_items (bytes : Bytes) :
    Gives (fun ds => ∀ d ∈ ds, Narrow d) (items item bytes) := by
  unfold items
  split
  · exact gives_failAhead _ _
  split
  · exact gives_ok (List.forall_mem_nil _) _
  · refine gives_bind (hitem _) fun d rest hd =>
      gives_bind (narrow_moreItems hitem _ _) fun ds rest hds => ?_
    exact gives_ok (List.forall_mem_cons.mpr ⟨hd, hds⟩) rest

theorem narrow_field (bytes : Bytes) : Gives (fun f => Narrow f.2) (field item bytes) := by
  unfold field
  refine gives_bind (P := fun _ => True) (fun _ _ _ => trivial) fun name rest _ => ?_
  dsimp only
  split
  · exact gives_failAhead _ _
  split
  · refine gives_bind (hitem _) fun d rest hd => ?_
    exact gives_ok (a := (name, d)) hd rest
  · exact gives_failAhead _ _

theorem narrow_moreFields (rounds : Nat) (bytes : Bytes) :
    Gives (fun fs => ∀ f ∈ fs, Narrow f.2) (moreFields item rounds bytes) := by
  induction rounds generalizing bytes with
  | zero => exact gives_fail _ _
  | succ rounds ih =>
    rw [moreFields]
    split
    · exact gives_failAhead _ _
    split
    · exact gives_ok (List.forall_mem_nil _) _
    split
    · split
      · exact gives_failAhead _ _
      split
      · refine gives_bind (narrow_field hitem _) fun f rest hf =>
          gives_bind (ih rest) fun fs rest hfs => ?_
        have hall : ∀ g ∈ f :: fs, Narrow g.2 := List.forall_mem_cons.mpr ⟨hf, hfs⟩
        exact gives_ok hall rest
      split
      · exact gives_failAhead _ _
      · exact gives_failAhead _ _
    · exact gives_failAhead _ _

theorem narrow_fields (bytes : Bytes) :
    Gives (fun fs => ∀ f ∈ fs, Narrow f.2) (fields item bytes) := by
  unfold fields
  split
  · exact gives_failAhead _ _
  split
  · exact gives_ok (List.forall_mem_nil _) _
  split
  · refine gives_bind (narrow_field hitem _) fun f rest hf =>
      gives_bind (narrow_moreFields hitem _ _) fun fs rest hfs => ?_
    have hall : ∀ g ∈ f :: fs, Narrow g.2 := List.forall_mem_cons.mpr ⟨hf, hfs⟩
    exact gives_ok hall rest
  · exact gives_failAhead _ _

end Parts

theorem narrow_ofFields {fields : List (String × Document)} (h : ∀ f ∈ fields, Narrow f.2) :
    Narrow (ofFields fields) := by
  have hput : ofFields fields = .object (sortBy keyLe (Named.putAll [] fields)) := rfl
  rw [Narrow, hput, isNarrow, fieldsNarrow_iff]
  intro f hf
  have hmem := (sortBy_perm keyLe _).mem_iff.mp hf
  exact h f ((Named.of_mem_putAll hmem).resolve_left List.not_mem_nil)

theorem narrow_value (depth : Nat) (bytes : Bytes) : Gives Narrow (value depth bytes) := by
  induction depth generalizing bytes with
  | zero =>
    unfold value
    split
    · exact gives_failAhead _ _
    split
    · exact gives_failAhead _ _
    split
    · exact gives_failAhead _ _
    · exact narrow_scalar _ _
  | succ depth ih =>
    unfold value
    split
    · exact gives_failAhead _ _
    split
    · exact gives_map (narrow_items ih _) fun ds _ hds => itemsNarrow_iff.mpr hds
    split
    · exact gives_map (narrow_fields ih _) fun fs _ hfs => narrow_ofFields hfs
    · exact narrow_scalar _ _

/-- The integers of a document that was read are held as such. -/
theorem isNarrow_of_read {bytes : Bytes} {d : Document} (h : read bytes = .ok d) :
    d.isNarrow = true := by
  have hcomplete : complete bytes = .ok d := by
    rw [read] at h
    cases hc : complete bytes with
    | error fault => rw [hc] at h; cases h
    | ok found => rw [hc] at h; cases h; rfl
  obtain ⟨⟨found, rest⟩, hvalue, hend⟩ := bind_eq_ok.mp hcomplete
  have hfound : Narrow found := narrow_value depthLimit bytes found rest hvalue
  dsimp only at hend
  split at hend
  · cases hend
    exact hfound
  · cases hend

end TestBench.Document.Reader
