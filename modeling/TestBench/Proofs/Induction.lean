import TestBench.Config.Tree
import TestBench.Diff.Node
import TestBench.Document

/-! Induction over values, configuration trees, documents and comparable trees, with a hypothesis
for every part, also for those that stand in lists. -/
namespace TestBench

theorem sizeOf_parts_lt_of_mem {α β : Type} [SizeOf α] [SizeOf β] {e : α × β} {l : List (α × β)}
    (h : e ∈ l) : sizeOf e.1 < sizeOf l ∧ sizeOf e.2 < sizeOf l := by
  have hlt := List.sizeOf_lt_of_mem h
  cases e with
  | mk a b =>
    rw [Prod.mk.sizeOf_spec] at hlt
    constructor <;> dsimp only <;> omega

/-- Induction over values, with a hypothesis for every part. -/
@[elab_as_elim, induction_eliminator]
theorem Value.inductionOn {motive : Value → Prop} (null : motive .null)
    (bool : ∀ b, motive (.bool b)) (int : ∀ n, motive (.int n))
    (double : ∀ x, motive (.double x)) (single : ∀ x, motive (.single x))
    (text : ∀ s, motive (.text s)) (bytes : ∀ data, motive (.bytes data))
    (list : ∀ items, (∀ v ∈ items, motive v) → motive (.list items))
    (map : ∀ entries, (∀ e ∈ entries, motive e.1 ∧ motive e.2) → motive (.map entries))
    (record : ∀ name fields, (∀ f ∈ fields, motive f.2) → motive (.record name fields))
    (tuple : ∀ name items, (∀ v ∈ items, motive v) → motive (.tuple name items))
    (marker : ∀ name, motive (.marker name))
    (wrapper : ∀ name inner, motive inner → motive (.wrapper name inner))
    (unitCase : ∀ type variant, motive (.unitCase type variant))
    (wrapperCase : ∀ type variant inner, motive inner → motive (.wrapperCase type variant inner))
    (tupleCase : ∀ type variant items, (∀ v ∈ items, motive v) →
      motive (.tupleCase type variant items))
    (recordCase : ∀ type variant fields, (∀ f ∈ fields, motive f.2) →
      motive (.recordCase type variant fields))
    (tagged : ∀ tag inner, motive inner → motive (.tagged tag inner))
    (broken : ∀ message, motive (.broken message))
    (keyless : ∀ inner, motive inner → motive (.keyless inner)) (v : Value) : motive v :=
  have step (w : Value) (_ : sizeOf w < sizeOf v) : motive w :=
    Value.inductionOn null bool int double single text bytes list map record tuple marker wrapper
      unitCase wrapperCase tupleCase recordCase tagged broken keyless w
  match v with
  | .null => null
  | .bool b => bool b
  | .int n => int n
  | .double x => double x
  | .single x => single x
  | .text s => text s
  | .bytes data => bytes data
  | .list items => list items fun w hw => step w (by
      have := List.sizeOf_lt_of_mem hw
      rw [Value.list.sizeOf_spec]; omega)
  | .map entries => map entries fun e he => by
      have hlt := sizeOf_parts_lt_of_mem he
      constructor <;> apply step <;> rw [Value.map.sizeOf_spec] <;> omega
  | .record name fields => record name fields fun f hf => step f.2 (by
      have := sizeOf_parts_lt_of_mem hf
      rw [Value.record.sizeOf_spec]; omega)
  | .tuple name items => tuple name items fun w hw => step w (by
      have := List.sizeOf_lt_of_mem hw
      rw [Value.tuple.sizeOf_spec]; omega)
  | .marker name => marker name
  | .wrapper name inner => wrapper name inner (step inner (by
      rw [Value.wrapper.sizeOf_spec]; omega))
  | .unitCase type variant => unitCase type variant
  | .wrapperCase type variant inner => wrapperCase type variant inner (step inner (by
      rw [Value.wrapperCase.sizeOf_spec]; omega))
  | .tupleCase type variant items => tupleCase type variant items fun w hw => step w (by
      have := List.sizeOf_lt_of_mem hw
      rw [Value.tupleCase.sizeOf_spec]; omega)
  | .recordCase type variant fields => recordCase type variant fields fun f hf => step f.2 (by
      have := sizeOf_parts_lt_of_mem hf
      rw [Value.recordCase.sizeOf_spec]; omega)
  | .tagged tag inner => tagged tag inner (step inner (by
      rw [Value.tagged.sizeOf_spec]; omega))
  | .broken message => broken message
  | .keyless inner => keyless inner (step inner (by rw [Value.keyless.sizeOf_spec]; omega))
termination_by sizeOf v

/-- Induction over configuration trees, with a hypothesis for every item, key and value. -/
@[elab_as_elim, induction_eliminator]
theorem Config.Tree.inductionOn {motive : Config.Tree → Prop} (null : motive .null)
    (bool : ∀ b, motive (.bool b)) (int : ∀ n, motive (.int n)) (float : ∀ x, motive (.float x))
    (text : ∀ s, motive (.text s))
    (list : ∀ items, (∀ t ∈ items, motive t) → motive (.list items))
    (map : ∀ entries, (∀ e ∈ entries, motive e.1 ∧ motive e.2) → motive (.map entries))
    (tagged : ∀ tag inner, motive inner → motive (.tagged tag inner)) (t : Config.Tree) :
    motive t :=
  have step (s : Config.Tree) (_ : sizeOf s < sizeOf t) : motive s :=
    Config.Tree.inductionOn null bool int float text list map tagged s
  match t with
  | .null => null
  | .bool b => bool b
  | .int n => int n
  | .float x => float x
  | .text s => text s
  | .list items => list items fun s hs => step s (by
      have := List.sizeOf_lt_of_mem hs
      rw [Config.Tree.list.sizeOf_spec]; omega)
  | .map entries => map entries fun e he => by
      have hlt := sizeOf_parts_lt_of_mem he
      constructor <;> apply step <;> rw [Config.Tree.map.sizeOf_spec] <;> omega
  | .tagged tag inner => tagged tag inner (step inner (by
      rw [Config.Tree.tagged.sizeOf_spec]; omega))
termination_by sizeOf t

/-- Induction over documents, with a hypothesis for every item and field. -/
@[elab_as_elim, induction_eliminator]
theorem Document.inductionOn {motive : Document → Prop} (null : motive .null)
    (bool : ∀ b, motive (.bool b)) (int : ∀ n, motive (.int n)) (float : ∀ x, motive (.float x))
    (text : ∀ s, motive (.text s))
    (list : ∀ items, (∀ d ∈ items, motive d) → motive (.list items))
    (object : ∀ fields, (∀ f ∈ fields, motive f.2) → motive (.object fields)) (d : Document) :
    motive d :=
  have step (e : Document) (_ : sizeOf e < sizeOf d) : motive e :=
    Document.inductionOn null bool int float text list object e
  match d with
  | .null => null
  | .bool b => bool b
  | .int n => int n
  | .float x => float x
  | .text s => text s
  | .list items => list items fun e he => step e (by
      have := List.sizeOf_lt_of_mem he
      rw [Document.list.sizeOf_spec]; omega)
  | .object fields => object fields fun f hf => step f.2 (by
      have := sizeOf_parts_lt_of_mem hf
      rw [Document.object.sizeOf_spec]; omega)
termination_by sizeOf d

/-- Induction over comparable trees, with a hypothesis for every item, entry and content. -/
@[elab_as_elim, induction_eliminator]
theorem Diff.Node.inductionOn {motive : Diff.Node → Prop} (null : motive .null)
    (bool : ∀ b, motive (.bool b)) (int : ∀ n, motive (.int n)) (float : ∀ x, motive (.float x))
    (text : ∀ s, motive (.text s)) (bytes : ∀ data, motive (.bytes data))
    (seq : ∀ items, (∀ n ∈ items, motive n) → motive (.seq items))
    (map : ∀ entries, (∀ e ∈ entries, motive e.2) → motive (.map entries))
    (record : ∀ name fields, (∀ f ∈ fields, motive f.2) → motive (.record name fields))
    (variant : ∀ type name content, motive content → motive (.variant type name content))
    (formatted : ∀ name text zero, motive (.formatted name text zero)) (n : Diff.Node) :
    motive n :=
  have step (m : Diff.Node) (_ : sizeOf m < sizeOf n) : motive m :=
    Diff.Node.inductionOn null bool int float text bytes seq map record variant formatted m
  match n with
  | .null => null
  | .bool b => bool b
  | .int n => int n
  | .float x => float x
  | .text s => text s
  | .bytes data => bytes data
  | .seq items => seq items fun m hm => step m (by
      have := List.sizeOf_lt_of_mem hm
      rw [Diff.Node.seq.sizeOf_spec]; omega)
  | .map entries => map entries fun e he => step e.2 (by
      have := sizeOf_parts_lt_of_mem he
      rw [Diff.Node.map.sizeOf_spec]; omega)
  | .record name fields => record name fields fun f hf => step f.2 (by
      have := sizeOf_parts_lt_of_mem hf
      rw [Diff.Node.record.sizeOf_spec]; omega)
  | .variant type name content => variant type name content (step content (by
      rw [Diff.Node.variant.sizeOf_spec]; omega))
  | .formatted name text zero => formatted name text zero
termination_by sizeOf n

end TestBench
