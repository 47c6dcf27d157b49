import TestBench.Proofs.Config.Encoding
import TestBench.Proofs.Diff.Captured

/-! What formatters are given while a value is captured, call by call. A traced capture has the
result of the capture itself and keeps the calls that led to it; what formatters would make of
anything else has no part in it. -/
namespace TestBench.Diff

/-- One use of a formatter: the type it is registered for and the tree it is given. -/
structure Call where
  type : String
  node : Node

/-- The trees that the formatter of a type is given, one after the other. -/
def handedTo (type : String) (calls : List Call) : List Node :=
  (calls.filter (·.type == type)).map (·.node)

/-- A result, and the uses of formatters before it. -/
structure Traced (α : Type) where
  calls : List Call
  result : Except Failure α

namespace Traced

variable {α β : Type} {x : Traced α} {f : α → Traced β}

instance : Monad Traced where
  pure a := ⟨[], .ok a⟩
  bind x f :=
    match x.result with
    | .ok a => ⟨x.calls ++ (f a).calls, (f a).result⟩
    | .error e => ⟨x.calls, .error e⟩

theorem bind_of_ok {a : α} (h : x.result = .ok a) :
    x >>= f = ⟨x.calls ++ (f a).calls, (f a).result⟩ := by
  show (match x.result with | .ok a => _ | .error e => _) = _
  rw [h]

theorem bind_of_error {e : Failure} (h : x.result = .error e) :
    x >>= f = ⟨x.calls, .error e⟩ := by
  show (match x.result with | .ok a => _ | .error e => _) = _
  rw [h]

theorem result_bind : (x >>= f).result = x.result >>= fun a => (f a).result := by
  rcases h : x.result with e | a
  · rw [bind_of_error h]
    rfl
  · rw [bind_of_ok h]
    rfl

theorem exists_calls_bind : ∃ more, (x >>= f).calls = x.calls ++ more := by
  rcases h : x.result with e | a
  · exact ⟨[], by rw [bind_of_error h, List.append_nil]⟩
  · exact ⟨(f a).calls, by rw [bind_of_ok h]⟩

/-- A traced run `x'` that is `x` as long as the calls of `x` are as required. -/
def Same (P : Call → Prop) (x' x : Traced α) : Prop := (∀ c ∈ x.calls, P c) → x' = x

namespace Same

variable {P : Call → Prop} {x' : Traced α} {f' : α → Traced β}

theorem refl (x : Traced α) : Same P x x := fun _ => rfl

theorem bind (hx : Same P x' x) (hf : ∀ a, Same P (f' a) (f a)) : Same P (x' >>= f') (x >>= f) := by
  intro hcalls
  rcases hresult : x.result with e | a
  · rw [bind_of_error hresult] at hcalls
    rw [hx hcalls, bind_of_error hresult, bind_of_error hresult]
  · rw [bind_of_ok hresult, List.forall_mem_append] at hcalls
    rw [hx hcalls.1, bind_of_ok hresult, bind_of_ok hresult, hf a hcalls.2]

end Same

end Traced

namespace Options

def traceReplace (type : String) (node : Node) (format : Formatter) : Traced Node :=
  ⟨[⟨type, node⟩], replace type node format⟩

def traceFinishRecord (o : Options) (name : String) (fields : List (String × Node)) :
    Traced Node :=
  match o.formatter? name with
  | some format => traceReplace name (.record name fields) format
  | none => pure (o.select name fields)

def traceFinish (o : Options) (type : String) (node : Node) : Traced Node :=
  match o.formatter? type with
  | some format => traceReplace type node format
  | none => pure node

mutual

/-- The capture of a value, with the uses of formatters. -/
def trace (o : Options) : Value → Traced Node
  | .null => pure .null
  | .bool b => pure (.bool b)
  | .int n => pure (intNode n)
  | .double x => pure (.float x)
  | .single x => pure (.float (Format.double.convert x))
  | .text s => pure (.text s)
  | .bytes data => pure (.bytes data)
  | .list items => do pure (.seq (← traceItems o items))
  | .map entries => do pure (.map (sortBy keyLe (← traceEntries o entries)))
  | .record name fields => do o.traceFinishRecord name (← traceFields o fields)
  | .tuple name items => do o.traceFinishRecord name (numbered (← traceItems o items))
  | .marker name => o.traceFinishRecord name []
  | .wrapper name inner => do o.traceFinish name (← trace o inner)
  | .unitCase type variant => o.traceFinish type (.variant type variant .null)
  | .wrapperCase type variant inner => do
    o.traceFinish type (.variant type variant (← trace o inner))
  | .tupleCase type variant items => do
    o.traceFinish type (.variant type variant (.seq (← traceItems o items)))
  | .recordCase type variant fields => do
    o.traceFinish type (.variant type variant (o.select variant (← traceFields o fields)))
  | .tagged tag inner => do pure (.map [(Text.quote (Tag.shown tag), ← trace o inner)])
  | .broken message => ⟨[], .error (.unserializable message)⟩
  | .keyless _ => ⟨[], .error .valueBeforeKey⟩

def traceItems (o : Options) : List Value → Traced (List Node)
  | [] => pure []
  | item :: rest => do pure ((← trace o item) :: (← traceItems o rest))

def traceEntries (o : Options) : List (Value × Value) → Traced (List (String × Node))
  | [] => pure []
  | (key, value) :: rest => do
    let key ← trace o key
    let value ← trace o value
    pure ((key.inline, value) :: (← traceEntries o rest))

def traceFields (o : Options) : List (String × Value) → Traced (List (String × Node))
  | [] => pure []
  | (field, value) :: rest => do pure ((field, ← trace o value) :: (← traceFields o rest))

end

variable {o : Options} {v : Value}

theorem traceFinishRecord_result (name : String) (fields : List (String × Node)) :
    (o.traceFinishRecord name fields).result = o.finishRecord name fields := by
  rw [traceFinishRecord, finishRecord]
  cases o.formatter? name <;> rfl

theorem traceFinish_result (type : String) (node : Node) :
    (o.traceFinish type node).result = o.finish type node := by
  rw [traceFinish, finish]
  cases o.formatter? type <;> rfl

theorem traceItems_result {items : List Value}
    (ih : ∀ v ∈ items, (o.trace v).result = o.capture v) :
    (o.traceItems items).result = o.captureItems items := by
  induction items with
  | nil => rfl
  | cons v rest hrest =>
    rw [List.forall_mem_cons] at ih
    simp only [traceItems, captureItems, Traced.result_bind, ih.1, hrest ih.2]
    rfl

theorem traceEntries_result {entries : List (Value × Value)}
    (ih : ∀ e ∈ entries, (o.trace e.1).result = o.capture e.1 ∧
      (o.trace e.2).result = o.capture e.2) :
    (o.traceEntries entries).result = o.captureEntries entries := by
  induction entries with
  | nil => rfl
  | cons e rest hrest =>
    rw [List.forall_mem_cons] at ih
    simp only [traceEntries, captureEntries, Traced.result_bind, ih.1.1, ih.1.2, hrest ih.2]
    rfl

theorem traceFields_result {fields : List (String × Value)}
    (ih : ∀ f ∈ fields, (o.trace f.2).result = o.capture f.2) :
    (o.traceFields fields).result = o.captureFields fields := by
  induction fields with
  | nil => rfl
  | cons f rest hrest =>
    rw [List.forall_mem_cons] at ih
    simp only [traceFields, captureFields, Traced.result_bind, ih.1, hrest ih.2]
    rfl

/-- Tracing changes nothing of a capture. -/
theorem trace_result (o : Options) (v : Value) : (o.trace v).result = o.capture v := by
  induction v with
  | list items ih =>
    simp only [trace, capture, Traced.result_bind, traceItems_result ih]
    rfl
  | map entries ih =>
    simp only [trace, capture, Traced.result_bind, traceEntries_result ih]
    rfl
  | record name fields ih =>
    simp only [trace, capture, Traced.result_bind, traceFields_result ih, traceFinishRecord_result]
  | tuple name items ih =>
    simp only [trace, capture, Traced.result_bind, traceItems_result ih, traceFinishRecord_result]
  | marker name => exact traceFinishRecord_result name []
  | wrapper name inner ih =>
    simp only [trace, capture, Traced.result_bind, ih, traceFinish_result]
  | unitCase type variant => exact traceFinish_result type _
  | wrapperCase type variant inner ih =>
    simp only [trace, capture, Traced.result_bind, ih, traceFinish_result]
  | tupleCase type variant items ih =>
    simp only [trace, capture, Traced.result_bind, traceItems_result ih, traceFinish_result]
  | recordCase type variant fields ih =>
    simp only [trace, capture, Traced.result_bind, traceFields_result ih, traceFinish_result]
  | tagged tag inner ih =>
    simp only [trace, capture, Traced.result_bind, ih]
    rfl
  | _ => rfl

section Answers

/-- What the formatter of the type makes of a tree, if there is one. -/
def answer? (o : Options) (c : Call) : Option (Except Failure String) :=
  (o.formatter? c.type).map (· c.node)

/-- Whether a call has the same answer with other options. -/
def AnswersAlike (p o : Options) (c : Call) : Prop := p.answer? c = o.answer? c

/-- Options for the same fields, with formatters for the same types. -/
structure Alike (p o : Options) : Prop where
  keeps : p.keeps = o.keeps
  formatters : ∀ type, (p.formatter? type).isSome = (o.formatter? type).isSome

variable {p : Options}

open Traced (Same)

theorem Alike.select_eq (h : p.Alike o) : p.select = o.select := by
  funext name fields
  rw [select, select, h.keeps]

theorem same_formatter (h : p.Alike o) (type : String) (node : Node) (x : Traced Node) :
    Same (p.AnswersAlike o)
      (match p.formatter? type with
        | some format => traceReplace type node format
        | none => x)
      (match o.formatter? type with
        | some format => traceReplace type node format
        | none => x) := by
  have hsome := h.formatters type
  rcases hp : p.formatter? type with _ | format' <;>
    rcases ho : o.formatter? type with _ | format <;> rw [hp, ho] at hsome
  · exact .refl x
  · cases hsome
  · cases hsome
  · intro hcalls
    have hanswer : (p.formatter? type).map (· node) = (o.formatter? type).map (· node) :=
      hcalls ⟨type, node⟩ List.mem_cons_self
    rw [hp, ho] at hanswer
    have hformat : format' node = format node := Option.some.inj hanswer
    show traceReplace type node format' = traceReplace type node format
    rw [traceReplace, replace, hformat, traceReplace, replace]

theorem same_traceFinish (h : p.Alike o) (type : String) (node : Node) :
    Same (p.AnswersAlike o) (p.traceFinish type node) (o.traceFinish type node) :=
  same_formatter h type node (pure node)

theorem same_traceFinishRecord (h : p.Alike o) (name : String) (fields : List (String × Node)) :
    Same (p.AnswersAlike o) (p.traceFinishRecord name fields)
      (o.traceFinishRecord name fields) := by
  unfold traceFinishRecord
  rw [h.select_eq]
  exact same_formatter h name (.record name fields) (pure (o.select name fields))

theorem same_traceItems {items : List Value}
    (ih : ∀ v ∈ items, Same (p.AnswersAlike o) (p.trace v) (o.trace v)) :
    Same (p.AnswersAlike o) (p.traceItems items) (o.traceItems items) := by
  induction items with
  | nil => exact .refl _
  | cons v rest hrest =>
    rw [List.forall_mem_cons] at ih
    exact ih.1.bind fun n => (hrest ih.2).bind fun nodes => .refl _

theorem same_traceEntries {entries : List (Value × Value)}
    (ih : ∀ e ∈ entries, Same (p.AnswersAlike o) (p.trace e.1) (o.trace e.1) ∧
      Same (p.AnswersAlike o) (p.trace e.2) (o.trace e.2)) :
    Same (p.AnswersAlike o) (p.traceEntries entries) (o.traceEntries entries) := by
  induction entries with
  | nil => exact .refl _
  | cons e rest hrest =>
    rw [List.forall_mem_cons] at ih
    exact ih.1.1.bind fun k => ih.1.2.bind fun n => (hrest ih.2).bind fun nodes => .refl _

theorem same_traceFields {fields : List (String × Value)}
    (ih : ∀ f ∈ fields, Same (p.AnswersAlike o) (p.trace f.2) (o.trace f.2)) :
    Same (p.AnswersAlike o) (p.traceFields fields) (o.traceFields fields) := by
  induction fields with
  | nil => exact .refl _
  | cons f rest hrest =>
    rw [List.forall_mem_cons] at ih
    exact ih.1.bind fun n => (hrest ih.2).bind fun nodes => .refl _

theorem same_trace (h : p.Alike o) (v : Value) :
    Same (p.AnswersAlike o) (p.trace v) (o.trace v) := by
  induction v with
  | list items ih => exact (same_traceItems ih).bind fun nodes => .refl _
  | map entries ih => exact (same_traceEntries ih).bind fun nodes => .refl _
  | record name fields ih =>
    exact (same_traceFields ih).bind fun nodes => same_traceFinishRecord h name nodes
  | tuple name items ih =>
    exact (same_traceItems ih).bind fun nodes => same_traceFinishRecord h name _
  | marker name => exact same_traceFinishRecord h name []
  | wrapper name inner ih => exact ih.bind fun n => same_traceFinish h name n
  | unitCase type variant => exact same_traceFinish h type _
  | wrapperCase type variant inner ih => exact ih.bind fun n => same_traceFinish h type _
  | tupleCase type variant items ih =>
    exact (same_traceItems ih).bind fun nodes => same_traceFinish h type _
  | recordCase type variant fields ih =>
    refine (same_traceFields ih).bind fun nodes => ?_
    rw [h.select_eq]
    exact same_traceFinish h type _
  | tagged tag inner ih => exact ih.bind fun n => .refl _
  | _ => exact .refl _

/-- Formatters have no part in a capture but in the calls of its trace: others that answer these
alike give the same tree. -/
theorem capture_eq_of_answers (h : p.Alike o)
    (hanswers : ∀ c ∈ (o.trace v).calls, p.answer? c = o.answer? c) :
    p.capture v = o.capture v := by
  rw [← trace_result p v, ← trace_result o v, same_trace h v hanswers]

end Answers

/-- What the formatter of a type is given while a value is captured. -/
def handed (o : Options) (type : String) (v : Value) : List Node := handedTo type (o.trace v).calls

end Options
end TestBench.Diff
