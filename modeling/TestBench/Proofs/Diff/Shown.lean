import TestBench.Proofs.Diff.Blocks

/-! What a side of a comparison shows. What is emitted for both sides or for one of them is a block
at its depth, parts stand below one another, and a bracket around them shows a container. -/
namespace TestBench.Diff
open Node

/-- What a side shows: its own lines and those of both. -/
def shownOn (side : Side) (ls : List Line) : List String :=
  (ls.filter fun l => l.side = .both ∨ l.side = side).map (·.text)

/-- Whether a side shows this block, at any depth and under any label. -/
def ShowsBlock (side : Side) (lines : Nat → String → String → List Line) (block : List String) :
    Prop :=
  ∀ d label suffix,
    shownOn side (lines d label suffix) = (framed label suffix block).map (indent d ++ ·)

/-- Whether a side shows these parts below one another, at any depth. -/
def ShowsStack (side : Side) (lines : Nat → List Line) (parts : List (String × List String)) :
    Prop :=
  ∀ d, shownOn side (lines d) = (stack parts).map (indent d ++ ·)

/-- What the two sides show of a value. -/
structure Shows (lines : Nat → String → String → List Line) (got want : List String) : Prop where
  got : ShowsBlock .got lines got
  want : ShowsBlock .want lines want

/-- What the two sides show of the parts of a container. -/
structure ShowsParts (lines : Nat → List Line) (got want : List (String × List String)) :
    Prop where
  got : ShowsStack .got lines got
  want : ShowsStack .want lines want

variable {got want : List String} {ps qs : List (String × List String)}

theorem shownOn_append (side : Side) (as bs : List Line) :
    shownOn side (as ++ bs) = shownOn side as ++ shownOn side bs := by
  rw [shownOn, List.filter_append, List.map_append]
  rfl

theorem shownOn_emit (side own : Side) (d : Nat) (label suffix : String) (lines : List String) :
    shownOn side (emit own d label lines suffix) =
      if own = .both ∨ own = side then (framed label suffix lines).map (indent d ++ ·) else [] := by
  rw [shownOn, emit]
  split
  next h =>
    rw [List.filter_eq_self.mpr, List.map_map]
    · rfl
    · exact List.forall_mem_map.mpr fun _ _ => decide_eq_true h
  next h =>
    rw [List.filter_eq_nil_iff.mpr]
    · rfl
    · exact List.forall_mem_map.mpr fun _ _ => by simpa using h

theorem map_indent_indent (d e : Nat) (lines : List String) :
    (lines.map (indent e ++ ·)).map (indent d ++ ·) = lines.map (indent (d + e) ++ ·) := by
  rw [List.map_map]
  refine List.map_congr_left fun s _ => ?_
  rw [Function.comp_apply, ← String.append_assoc, indent_append]

theorem showsBlock_emit {side own : Side} (h : own = .both ∨ own = side) (block : List String) :
    ShowsBlock side (fun d label suffix => emit own d label block suffix) block :=
  fun d label suffix => by rw [shownOn_emit, if_pos h]

theorem showsStack_nil (side : Side) : ShowsStack side (fun _ => []) [] := fun _ => rfl

/-- Nothing of the other side is shown. -/
theorem showsStack_other {side own : Side} (h : ¬(own = .both ∨ own = side)) (label : String)
    (block : List String) : ShowsStack side (fun d => emit own d label block ",") [] := fun d => by
  rw [shownOn_emit, if_neg h]
  rfl

/-- A value that stands in no other shows its block as it is. -/
theorem ShowsBlock.outermost {side : Side} {lines : Nat → String → String → List Line}
    {block : List String} (h : ShowsBlock side lines block) :
    shownOn side (lines 0 "" "") = block := by
  rw [h, framed_empty]
  simp [indent]

theorem ShowsBlock.part {side : Side} {lines : Nat → String → String → List Line}
    {block : List String} (h : ShowsBlock side lines block) (label : String) :
    ShowsStack side (fun d => lines d label ",") [(label, block)] := fun d => by
  rw [h, stack, List.flatMap_singleton]

theorem ShowsStack.append {side : Side} {as bs : Nat → List Line} (h : ShowsStack side as ps)
    (h' : ShowsStack side bs qs) : ShowsStack side (fun d => as d ++ bs d) (ps ++ qs) := fun d => by
  rw [shownOn_append, h, h', ← List.map_append, stack, stack, stack, List.flatMap_append]

/-- A container around parts that are compared shows a container. -/
theorem ShowsStack.within {side : Side} {inner : Nat → List Line} (h : ShowsStack side inner ps)
    (opening closing : String) :
    ShowsBlock side (fun d label suffix => bracket d label opening closing suffix (inner (d + 1)))
      (enclosed opening closing ps) := by
  intro d label suffix
  have hframed : (framed label suffix (enclosed opening closing ps)).map (indent d ++ ·) =
      (indent d ++ (label ++ opening)) ::
        ((stack ps).map (indent (d + 1) ++ ·) ++ [indent d ++ (closing ++ suffix)]) := by
    rw [enclosed, framed_container, List.map_cons, List.map_append, map_indent_indent]
    rfl
  show shownOn side (bracket d label opening closing suffix (inner (d + 1))) = _
  rw [bracket, shownOn_append, shownOn_append, shownOn_emit, shownOn_emit, if_pos (.inl rfl),
    if_pos (.inl rfl), h, hframed]
  simp [framed_line]

theorem showsBoth (lines : List String) :
    Shows (fun d label suffix => emit .both d label lines suffix) lines lines :=
  ⟨showsBlock_emit (.inl rfl) lines, showsBlock_emit (.inl rfl) lines⟩

theorem showsEach (got want : List String) :
    Shows (fun d label suffix => emit .got d label got suffix ++ emit .want d label want suffix)
      got want := by
  constructor <;> intro d label suffix <;> simp [shownOn_append, shownOn_emit]

theorem showsParts_nil : ShowsParts (fun _ => []) [] [] := ⟨showsStack_nil _, showsStack_nil _⟩

theorem showsGot (label : String) (block : List String) :
    ShowsParts (fun d => emit .got d label block ",") [(label, block)] [] :=
  ⟨(showsBlock_emit (.inr rfl) block).part label, showsStack_other (by decide) label block⟩

theorem showsWant (label : String) (block : List String) :
    ShowsParts (fun d => emit .want d label block ",") [] [(label, block)] :=
  ⟨showsStack_other (by decide) label block, (showsBlock_emit (.inr rfl) block).part label⟩

theorem ShowsParts.append {as bs : Nat → List Line} {ps' qs' : List (String × List String)}
    (h : ShowsParts as ps qs) (h' : ShowsParts bs ps' qs') :
    ShowsParts (fun d => as d ++ bs d) (ps ++ ps') (qs ++ qs') :=
  ⟨h.got.append h'.got, h.want.append h'.want⟩

theorem ShowsParts.within {inner : Nat → List Line} (h : ShowsParts inner ps qs)
    (opening closing : String) :
    Shows (fun d label suffix => bracket d label opening closing suffix (inner (d + 1)))
      (enclosed opening closing ps) (enclosed opening closing qs) :=
  ⟨h.got.within opening closing, h.want.within opening closing⟩

/-- One part on each side. -/
theorem Shows.parts {lines : Nat → String → String → List Line} (h : Shows lines got want)
    (label : String) : ShowsParts (fun d => lines d label ",") [(label, got)] [(label, want)] :=
  ⟨h.got.part label, h.want.part label⟩

end TestBench.Diff
