import TestBench.Proofs.Diff.Breadth
import TestBench.Proofs.Diff.Tracing

/-! Which formatters are given complete values. A record and its formatter are no matter: all its
fields are given. But what stands in it is already built, and has lost the fields that are not
compared; and a case of an enumeration loses its own fields before a formatter sees it. -/
namespace TestBench

namespace Value

/-- The fields of a record, positions serving as names. -/
def namedFields : Value → List (String × Value)
  | .record _ fields => fields
  | .tuple _ items => items.zipIdx.map fun e => (toString e.2, e.1)
  | .recordCase _ _ fields => fields
  | _ => []

def isRecordCase : Value → Bool
  | .recordCase .. => true
  | _ => false

end Value

namespace Diff

section Runs

/-- Two sequences of calls differ, first of all in what one and the same formatter is given. -/
def Parted (calls others : List Call) : Prop :=
  ∃ common type m n rest rest', calls = common ++ ⟨type, m⟩ :: rest ∧
    others = common ++ ⟨type, n⟩ :: rest' ∧ m ≠ n

variable {calls others : List Call} {α β : Type} {whole whole' : Prop} {R : α → Prop}
  {R' : β → Prop} {x y : Traced α} {f g : α → Traced β} {a b : α}

theorem Parted.append (h : Parted calls others) (more more' : List Call) :
    Parted (calls ++ more) (others ++ more') := by
  obtain ⟨common, type, m, n, rest, rest', rfl, rfl, hne⟩ := h
  exact ⟨common, type, m, n, rest ++ more, rest' ++ more', by simp, by simp, hne⟩

theorem Parted.after (h : Parted calls others) (common : List Call) :
    Parted (common ++ calls) (common ++ others) := by
  obtain ⟨before, type, m, n, rest, rest', rfl, rfl, hne⟩ := h
  exact ⟨common ++ before, type, m, n, rest, rest', by simp, by simp, hne⟩

theorem Parted.exists_handedTo_ne (h : Parted calls others) :
    ∃ type, handedTo type calls ≠ handedTo type others := by
  obtain ⟨common, type, m, n, rest, rest', rfl, rfl, hne⟩ := h
  refine ⟨type, fun heq => ?_⟩
  simp only [handedTo, List.filter_append, List.map_append, List.append_cancel_left_eq,
    List.filter_cons, beq_self_eq_true, if_true, List.map_cons] at heq
  exact hne (List.cons.inj heq).1

/-- A traced run `x` beside `y`: as long as its formatters are given whole values, the calls are
the same and it has a result as required. -/
inductive Follows (whole : Prop) (R : α → Prop) (x y : Traced α) : Prop
  | same (hwhole : whole) (hcalls : x.calls = y.calls) (a : α) (hresult : x.result = .ok a)
    (hR : R a)
  | parted (hwhole : ¬whole) (hparted : Parted x.calls y.calls)

namespace Follows

theorem congr {R' : α → Prop} (h : Follows whole R x y) (hiff : whole ↔ whole')
    (hR : ∀ a, R a → R' a) : Follows whole' R' x y := by
  cases h with
  | same hwhole hcalls a hresult ha => exact .same (hiff.mp hwhole) hcalls a hresult (hR a ha)
  | parted hwhole hparted => exact .parted (mt hiff.mpr hwhole) hparted

theorem pure (hwhole : whole) (h : R a) : Follows whole R (pure a) (pure b) :=
  .same hwhole rfl a rfl h

theorem bind (h : Follows whole R x y) (hy : y.result = .ok b)
    (hf : ∀ a, R a → Follows whole' R' (f a) (g b)) :
    Follows (whole ∧ whole') R' (x >>= f) (y >>= g) := by
  cases h with
  | same hwhole hcalls a hresult ha =>
    rw [Traced.bind_of_ok hresult, Traced.bind_of_ok hy, hcalls]
    cases hf a ha with
    | same hwhole' hcalls' c hresult' hc =>
      exact .same ⟨hwhole, hwhole'⟩ (by rw [hcalls']) c hresult' hc
    | parted hwhole' hparted => exact .parted (mt And.right hwhole') (hparted.after y.calls)
  | parted hwhole hparted =>
    obtain ⟨more, hmore⟩ := Traced.exists_calls_bind (x := x) (f := f)
    obtain ⟨more', hmore'⟩ := Traced.exists_calls_bind (x := y) (f := g)
    exact .parted (mt And.left hwhole) (hmore ▸ hmore' ▸ hparted.append more more')

theorem map {g f : α → β} (h : Follows whole R x y) (hy : y.result = .ok b)
    (hR : ∀ a, R a → R' (f a)) :
    Follows whole R' (x >>= fun a => Pure.pure (f a)) (y >>= fun a => Pure.pure (g a)) := by
  have hpure : ∀ a, R a → Follows True R' (Pure.pure (f a)) (Pure.pure (g b)) :=
    fun a ha => .pure trivial (hR a ha)
  exact (h.bind hy hpure).congr (and_iff_left trivial) fun _ ha => ha

end Follows

end Runs

namespace Options

/-- The same options for all fields. -/
def full (o : Options) : Options := { o with unexported := true, zero := true }

/-- The same options for no more fields than are compared anyway. -/
def bare (o : Options) : Options := { o with unexported := false, zero := false }

/-- Whether there is a formatter for the type of a value. -/
def formats (o : Options) (v : Value) : Bool := (v.type?.bind o.formatter?).isSome

/-- Whether a field is compared, nothing in it being left out. -/
def KeepsField (o : Options) (f : String × Value) : Prop :=
  ∀ n, o.full.capture f.2 = .ok n → o.keeps f.1 n = true

/-- Nothing is left out in the tree of a value, up to formatted values. -/
inductive Whole (o : Options) : Value → Prop
  | formatted {v : Value} (h : o.formats v = true) : Whole o v
  | parts {v : Value} (hchildren : ∀ c ∈ v.children, Whole o c)
      (hfields : ∀ f ∈ v.namedFields, o.KeepsField f) : Whole o v

def PartsWhole (o : Options) (v : Value) : Prop :=
  (∀ c ∈ v.children, o.Whole c) ∧ ∀ f ∈ v.namedFields, o.KeepsField f

/-- What the formatter of a value is given lacks nothing. -/
def GivenWhole (o : Options) (v : Value) : Prop :=
  (∀ c ∈ v.children, o.Whole c) ∧ (v.isRecordCase = true → ∀ f ∈ v.namedFields, o.KeepsField f)

/-- The formatters used on a value are given all of what they format. -/
def AllGiven (o : Options) (v : Value) : Prop :=
  ∀ w ∈ v.parts, o.formats w = true → o.GivenWhole w

/-- A capture follows the one for all fields, until a formatter is given less. -/
def Followed (o : Options) (v : Value) : Prop :=
  ∀ n, o.full.capture v = .ok n →
    Follows (o.AllGiven v) (fun a => a.Left (o.Whole v) n) (o.trace v) (o.full.trace v)

variable {o : Options} {v : Value} {m n : Node}

theorem whole_iff (h : o.formats v = false) : o.Whole v ↔ o.PartsWhole v := by
  constructor
  · rintro (hformats | ⟨hchildren, hfields⟩)
    · rw [h] at hformats
      cases hformats
    · exact ⟨hchildren, hfields⟩
  · exact fun hparts => .parts hparts.1 hparts.2

theorem allGiven_iff :
    o.AllGiven v ↔ (o.formats v = true → o.GivenWhole v) ∧ ∀ c ∈ v.children, o.AllGiven c :=
  Value.forall_parts_iff

theorem allGiven_of_childless (h : v.children = []) :
    o.AllGiven v ↔ (o.formats v = true → o.GivenWhole v) := by
  rw [allGiven_iff, h]
  exact and_iff_left (List.forall_mem_nil _)

theorem partsWhole_iff (h : v.namedFields = []) :
    o.PartsWhole v ↔ ∀ c ∈ v.children, o.Whole c := by
  rw [PartsWhole, h]
  exact and_iff_left (List.forall_mem_nil _)

theorem givenWhole_iff (h : v.isRecordCase = true ∨ v.namedFields = []) :
    o.GivenWhole v ↔ o.PartsWhole v := by
  rw [GivenWhole, PartsWhole]
  refine and_congr_right' ⟨fun hgiven => ?_, fun hfields _ => hfields⟩
  rcases h with hcase | hnone
  · exact hgiven hcase
  · rw [hnone]
    exact List.forall_mem_nil _

theorem select_full (name : String) (fields : List (String × Node)) :
    o.full.select name fields = .record name fields := by
  have hall : ∀ f ∈ fields, o.full.keeps f.1 f.2 = true := fun _ _ => rfl
  rw [select, List.filter_eq_self.mpr hall]

theorem follows_replace {type : String} {format : Formatter} {shown : Node}
    (h : replace type n format = .ok shown) :
    Follows (m = n) (· = shown) (traceReplace type m format) (traceReplace type n format) := by
  by_cases heq : m = n
  · rw [heq]
    exact .same rfl rfl shown h rfl
  · exact .parted heq ⟨[], type, m, n, [], [], rfl, rfl, heq⟩

/-- A value is replaced where its type has a formatter; the tree that stands for it otherwise need
not be the one that a formatter is given. -/
theorem follows_formatter {type : String} {m n k l shown : Node} (htype : v.type? = some type)
    (hm : m = n ↔ o.GivenWhole v) (hk : k.Left (o.PartsWhole v) l)
    (hshown : (match o.formatter? type with
      | some format => replace type n format
      | none => .ok l) = .ok shown) :
    Follows (o.formats v = true → o.GivenWhole v) (fun a => a.Left (o.Whole v) shown)
      (match o.formatter? type with
        | some format => traceReplace type m format
        | none => pure k)
      (match o.formatter? type with
        | some format => traceReplace type n format
        | none => pure l) := by
  have hformats : o.formats v = (o.formatter? type).isSome := by
    rw [formats, htype, Option.bind_some]
  cases hformatter : o.formatter? type with
  | none =>
    rw [hformatter] at hshown hformats
    cases hshown
    exact .pure (by simp [hformats]) (hk.congr (whole_iff hformats).symm)
  | some format =>
    rw [hformatter] at hshown hformats
    refine (follows_replace hshown).congr (by simp [hm, hformats]) fun a ha => ?_
    rw [ha]
    exact .of_kept (.formatted hformats) shown

theorem follows_finish {type : String} {shown : Node} (htype : v.type? = some type)
    (hgiven : v.isRecordCase = true ∨ v.namedFields = []) (hm : m.Left (o.PartsWhole v) n)
    (hshown : o.full.finish type n = .ok shown) :
    Follows (o.formats v = true → o.GivenWhole v) (fun a => a.Left (o.Whole v) shown)
      (o.traceFinish type m) (o.full.traceFinish type n) :=
  follows_formatter htype (hm.eq_iff.trans (givenWhole_iff hgiven).symm) hm hshown

/-- A formatter of records is given all fields of its own record. -/
theorem follows_finishRecord {name : String} {fields fields' : List (String × Node)} {shown : Node}
    (htype : v.type? = some name) (hcase : v.isRecordCase = false)
    (hm : Remains entriesBreadth (∀ c ∈ v.children, o.Whole c) fields fields')
    (hkeeps : (∀ f ∈ v.namedFields, o.KeepsField f) ↔ ∀ e ∈ fields', o.keeps e.1 e.2 = true)
    (hshown : o.full.finishRecord name fields' = .ok shown) :
    Follows (o.formats v = true → o.GivenWhole v) (fun a => a.Left (o.Whole v) shown)
      (o.traceFinishRecord name fields) (o.full.traceFinishRecord name fields') := by
  have hgiven : o.GivenWhole v ↔ ∀ c ∈ v.children, o.Whole c := by simp [GivenWhole, hcase]
  have hrecord : Node.record name fields = .record name fields' ↔ o.GivenWhole v := by
    rw [(Node.Left.record name hm).eq_iff, hgiven]
  have hselect : (o.select name fields).Left (o.PartsWhole v) (o.full.select name fields') := by
    rw [select_full]
    exact (left_select o name hm).congr (and_congr_right' hkeeps.symm)
  exact follows_formatter htype hrecord hselect hshown

/-- A value whose type can have no formatter. -/
theorem followed_of_untyped (htype : v.type? = none) (hfields : v.namedFields = [])
    (h : ∀ n, o.full.capture v = .ok n →
      Follows (∀ c ∈ v.children, o.AllGiven c) (fun a => a.Left (∀ c ∈ v.children, o.Whole c) n)
        (o.trace v) (o.full.trace v)) : o.Followed v := by
  intro n hn
  have hformats : o.formats v = false := by
    rw [formats, htype, Option.bind_none, Option.isSome_none]
  have hwhole : o.Whole v ↔ ∀ c ∈ v.children, o.Whole c := by
    rw [whole_iff hformats, partsWhole_iff hfields]
  refine (h n hn).congr ?_ fun a ha => ha.congr hwhole.symm
  simp [allGiven_iff (v := v), hformats]

theorem followed_leaf (htype : v.type? = none) (hfields : v.namedFields = [])
    (hchildren : v.children = []) (hown : o.trace v = Pure.pure m)
    (hfull : o.full.trace v = Pure.pure m) : o.Followed v := by
  refine followed_of_untyped htype hfields fun n hn => ?_
  have hresult := trace_result o.full v
  rw [hfull, hn] at hresult
  cases hresult
  rw [hown, hfull, hchildren]
  exact .pure (List.forall_mem_nil _) (.of_kept (List.forall_mem_nil _) m)

/-- A value is finished when all that stands in it has been captured. -/
theorem follows_of_finish {α : Type} {R : α → Prop} {x y : Traced α} {f g : α → Traced Node} {b : α}
    (h : Follows (∀ c ∈ v.children, o.AllGiven c) R x y) (hy : y.result = .ok b)
    (hf : ∀ a, R a → Follows (o.formats v = true → o.GivenWhole v) (fun a => a.Left (o.Whole v) n)
      (f a) (g b)) :
    Follows (o.AllGiven v) (fun a => a.Left (o.Whole v) n) (x >>= f) (y >>= g) :=
  (h.bind hy hf).congr (and_comm.trans allGiven_iff.symm) fun _ ha => ha

section Parts

variable {items : List Value} {entries : List (Value × Value)} {fields : List (String × Value)}
  {nodes : List Node} {named : List (String × Node)}

theorem follows_items (ih : ∀ v ∈ items, o.Followed v) (h : o.full.captureItems items = .ok nodes) :
    Follows (∀ v ∈ items, o.AllGiven v)
      (fun as => Remains itemsBreadth (∀ v ∈ items, o.Whole v) as nodes ∧
        as.length = nodes.length) (o.traceItems items) (o.full.traceItems items) := by
  induction items generalizing nodes with
  | nil =>
    cases h
    exact .pure (List.forall_mem_nil _) ⟨.of_kept (List.forall_mem_nil _) [], rfl⟩
  | cons v rest hrest =>
    rw [List.forall_mem_cons] at ih
    obtain ⟨n, hn, h⟩ := bind_eq_ok.mp h
    obtain ⟨others, hothers, h⟩ := bind_eq_ok.mp h
    cases h
    have hv := (trace_result o.full v).trans hn
    have hitems : (o.full.traceItems rest).result = .ok others :=
      (traceItems_result fun v _ => trace_result o.full v).trans hothers
    simp only [List.forall_mem_cons]
    refine (ih.1 n hn).bind hv fun a ha => (hrest ih.2 hothers).map hitems fun as has => ⟨?_, ?_⟩
    · exact remains_cons_items ha.toRemains has.1
    · rw [List.length_cons, has.2, List.length_cons]

theorem follows_fields (ih : ∀ f ∈ fields, o.Followed f.2)
    (h : o.full.captureFields fields = .ok named) :
    Follows (∀ c ∈ fields.map (·.2), o.AllGiven c)
      (fun as => Remains entriesBreadth (∀ c ∈ fields.map (·.2), o.Whole c) as named)
      (o.traceFields fields) (o.full.traceFields fields) := by
  induction fields generalizing named with
  | nil =>
    cases h
    exact .pure (List.forall_mem_nil _) (.of_kept (List.forall_mem_nil _) [])
  | cons f rest hrest =>
    rw [List.forall_mem_cons] at ih
    obtain ⟨n, hn, h⟩ := bind_eq_ok.mp h
    obtain ⟨others, hothers, h⟩ := bind_eq_ok.mp h
    cases h
    have hf := (trace_result o.full f.2).trans hn
    have hfields : (o.full.traceFields rest).result = .ok others :=
      (traceFields_result fun f _ => trace_result o.full f.2).trans hothers
    simp only [List.map_cons, List.forall_mem_cons]
    refine (ih.1 n hn).bind hf fun a ha => (hrest ih.2 hothers).map hfields fun as has => ?_
    exact (remains_cons_entries (.of_kept trivial f.1) ha.toRemains has).congr (by simp)

theorem follows_entries (ih : ∀ e ∈ entries, o.Followed e.1 ∧ o.Followed e.2)
    (h : o.full.captureEntries entries = .ok named) :
    Follows (∀ e ∈ entries, o.AllGiven e.1 ∧ o.AllGiven e.2)
      (fun as => Remains entriesBreadth (∀ e ∈ entries, o.Whole e.1 ∧ o.Whole e.2) as named)
      (o.traceEntries entries) (o.full.traceEntries entries) := by
  induction entries generalizing named with
  | nil =>
    cases h
    exact .pure (List.forall_mem_nil _) (.of_kept (List.forall_mem_nil _) [])
  | cons e rest hrest =>
    rw [List.forall_mem_cons] at ih
    obtain ⟨k, hk, h⟩ := bind_eq_ok.mp h
    obtain ⟨n, hn, h⟩ := bind_eq_ok.mp h
    obtain ⟨others, hothers, h⟩ := bind_eq_ok.mp h
    cases h
    have hkey := (trace_result o.full e.1).trans hk
    have hvalue := (trace_result o.full e.2).trans hn
    have hentries : (o.full.traceEntries rest).result = .ok others :=
      (traceEntries_result fun e _ =>
        ⟨trace_result o.full e.1, trace_result o.full e.2⟩).trans hothers
    simp only [List.forall_mem_cons, and_assoc]
    refine (ih.1.1 k hk).bind hkey fun a ha => (ih.1.2 n hn).bind hvalue fun b hb =>
      (hrest ih.2 hothers).map hentries fun as has => ?_
    -- of the key, only the text is left
    have htext : Remains String.length (o.Whole e.1) a.inline k.inline :=
      ha.toRemains.map Node.inline ha.le id
    exact (remains_cons_entries htext hb.toRemains has).congr and_assoc

theorem keepsFields_iff
    (h : List.Forall₂ (fun f e => e.1 = f.1 ∧ o.full.capture f.2 = .ok e.2) fields named) :
    (∀ f ∈ fields, o.KeepsField f) ↔ ∀ e ∈ named, o.keeps e.1 e.2 = true := by
  induction h with
  | nil => simp
  | cons hf _ ih =>
    rw [List.forall_mem_cons, List.forall_mem_cons, ih, KeepsField, hf.1, hf.2]
    simp

theorem forall₂_numbered (start : Nat) (h : o.full.captureItems items = .ok nodes) :
    List.Forall₂ (fun f e => e.1 = f.1 ∧ o.full.capture f.2 = .ok e.2)
      ((items.zipIdx start).map fun e => (toString e.2, e.1))
      ((nodes.zipIdx start).map fun e => (toString e.2, e.1)) := by
  rw [captureItems_eq_ok_iff] at h
  induction h generalizing start with
  | nil => exact .nil
  | cons hn _ ih => exact .cons ⟨rfl, hn⟩ (ih (start + 1))

end Parts

/-- Every capture follows the one for all fields. -/
theorem followed (o : Options) (v : Value) : o.Followed v := by
  induction v with
  | list items ih =>
    refine followed_of_untyped rfl rfl fun n hn => ?_
    obtain ⟨nodes, hnodes, hn⟩ := bind_eq_ok.mp hn
    cases hn
    have hitems := (traceItems_result fun v _ => trace_result o.full v).trans hnodes
    exact (follows_items ih hnodes).map hitems fun as has => .seq has.1 has.2
  | map entries ih =>
    refine followed_of_untyped rfl rfl fun n hn => ?_
    obtain ⟨nodes, hnodes, hn⟩ := bind_eq_ok.mp hn
    cases hn
    have hentries := (traceEntries_result fun e _ =>
      ⟨trace_result o.full e.1, trace_result o.full e.2⟩).trans hnodes
    simp only [Value.forall_children_map_iff]
    exact (follows_entries ih hnodes).map hentries fun as has => .map has
  | record name fields ih =>
    intro n hn
    obtain ⟨nodes, hnodes, hn⟩ := bind_eq_ok.mp hn
    have hfields := (traceFields_result fun f _ => trace_result o.full f.2).trans hnodes
    refine follows_of_finish (follows_fields ih hnodes) hfields fun as has => ?_
    exact follows_finishRecord rfl rfl has (keepsFields_iff (captureFields_eq_ok_iff.mp hnodes)) hn
  | tuple name items ih =>
    intro n hn
    obtain ⟨nodes, hnodes, hn⟩ := bind_eq_ok.mp hn
    have hitems := (traceItems_result fun v _ => trace_result o.full v).trans hnodes
    refine follows_of_finish (follows_items ih hnodes) hitems fun as has => ?_
    exact follows_finishRecord rfl rfl (remains_numbered has.1 has.2)
      (keepsFields_iff (forall₂_numbered 0 hnodes)) hn
  | marker name =>
    intro n hn
    have hnil : Remains entriesBreadth (∀ c ∈ (Value.marker name).children, o.Whole c) [] [] :=
      .of_kept (List.forall_mem_nil _) []
    refine Follows.congr (follows_finishRecord rfl rfl hnil ?_ hn) (allGiven_of_childless rfl).symm
      fun _ ha => ha
    exact iff_of_true (List.forall_mem_nil _) (List.forall_mem_nil _)
  | wrapper name inner ih =>
    intro n hn
    obtain ⟨m, hm, hn⟩ := bind_eq_ok.mp hn
    have hinner := (trace_result o.full inner).trans hm
    refine follows_of_finish ((ih m hm).congr List.forall_mem_singleton.symm fun _ ha => ha)
      hinner fun a ha => ?_
    refine follows_finish rfl (.inr rfl) (ha.congr ?_) hn
    rw [partsWhole_iff rfl, Value.children, List.forall_mem_singleton]
  | unitCase type variant =>
    intro n hn
    have hparts : o.PartsWhole (.unitCase type variant) :=
      (partsWhole_iff rfl).mpr (List.forall_mem_nil _)
    exact Follows.congr (follows_finish rfl (.inr rfl) (.of_kept hparts _) hn)
      (allGiven_of_childless rfl).symm fun _ ha => ha
  | wrapperCase type variant inner ih =>
    intro n hn
    obtain ⟨m, hm, hn⟩ := bind_eq_ok.mp hn
    have hinner := (trace_result o.full inner).trans hm
    refine follows_of_finish ((ih m hm).congr List.forall_mem_singleton.symm fun _ ha => ha)
      hinner fun a ha => ?_
    refine follows_finish rfl (.inr rfl) ((ha.congr ?_).variant type variant) hn
    rw [partsWhole_iff rfl, Value.children, List.forall_mem_singleton]
  | tupleCase type variant items ih =>
    intro n hn
    obtain ⟨nodes, hnodes, hn⟩ := bind_eq_ok.mp hn
    have hitems := (traceItems_result fun v _ => trace_result o.full v).trans hnodes
    refine follows_of_finish (follows_items ih hnodes) hitems fun as has => ?_
    have hseq := (Node.Left.seq has.1 has.2).congr (partsWhole_iff rfl).symm
    exact follows_finish rfl (.inr rfl) (hseq.variant type variant) hn
  | recordCase type variant fields ih =>
    intro n hn
    obtain ⟨nodes, hnodes, hn⟩ := bind_eq_ok.mp hn
    have hfields := (traceFields_result fun f _ => trace_result o.full f.2).trans hnodes
    refine follows_of_finish (follows_fields ih hnodes) hfields fun as has => ?_
    have hkeeps := keepsFields_iff (captureFields_eq_ok_iff.mp hnodes)
    have hselect := (left_select o variant has).congr (and_congr_right' hkeeps.symm)
    rw [← select_full] at hselect
    exact follows_finish rfl (.inl rfl) (hselect.variant type variant) hn
  | tagged tag inner ih =>
    refine followed_of_untyped rfl rfl fun n hn => ?_
    obtain ⟨m, hm, hn⟩ := bind_eq_ok.mp hn
    cases hn
    have hinner := (trace_result o.full inner).trans hm
    simp only [Value.children, List.forall_mem_singleton]
    refine (ih m hm).map hinner fun a ha => .congr (.map (remains_cons_entries (.of_kept trivial _)
      ha.toRemains (.of_kept trivial []))) ?_
    simp
  | broken message => exact fun n hn => by cases hn
  | keyless inner => exact fun n hn => by cases hn
  | _ => exact followed_leaf rfl rfl rfl rfl rfl

/-- Formatters are given what they are given with all fields just when that is complete. -/
theorem handed_eq_full_iff (h : o.full.capture v = .ok n) :
    (∀ type, o.handed type v = o.full.handed type v) ↔ o.AllGiven v := by
  cases followed o v n h with
  | same hwhole hcalls => exact iff_of_true (fun type => by rw [handed, handed, hcalls]) hwhole
  | parted hwhole hparted =>
    obtain ⟨type, hne⟩ := hparted.exists_handedTo_ne
    exact iff_of_false (fun heq => hne (heq type)) hwhole

section Flags

variable {unexported zero : Bool}

theorem keepsField_of_bare {f : String × Value} (h : o.bare.KeepsField f) :
    { o with unexported, zero }.KeepsField f := by
  intro n hn
  have hkeeps := h n hn
  simp only [keeps, bare, Bool.false_or, Bool.and_eq_true, Bool.or_eq_true] at hkeeps ⊢
  exact ⟨.inr hkeeps.1, .inr hkeeps.2⟩

theorem Whole.of_bare (h : o.bare.Whole v) : { o with unexported, zero }.Whole v := by
  induction h with
  | formatted h => exact .formatted h
  | parts _ hfields ih => exact .parts ih fun f hf => keepsField_of_bare (hfields f hf)

theorem GivenWhole.of_bare (h : o.bare.GivenWhole v) : { o with unexported, zero }.GivenWhole v :=
  ⟨fun c hc => (h.1 c hc).of_bare, fun hcase f hf => keepsField_of_bare (h.2 hcase f hf)⟩

end Flags

/-- What formatters are given does not depend on which fields are compared, just when every value
with a formatter stands there whole: nothing without a formatter has lost a field inside it, and no
case of an enumeration with named fields any of its own. -/
theorem handed_invariant_iff (h : o.full.capture v = .ok n) :
    (∀ unexported zero type, { o with unexported, zero }.handed type v = o.handed type v) ↔
      ∀ w ∈ v.parts, o.formats w = true → o.bare.GivenWhole w := by
  constructor
  · intro hsame
    have hbare : ∀ type, o.bare.handed type v = o.bare.full.handed type v := fun type =>
      (hsame false false type).trans (hsame true true type).symm
    exact (handed_eq_full_iff (o := o.bare) h).mp hbare
  · intro hgiven unexported zero type
    have hfull (unexported zero : Bool) :
        { o with unexported, zero }.handed type v = o.full.handed type v :=
      (handed_eq_full_iff (o := { o with unexported, zero }) h).mpr
        (fun w hw hformats => (hgiven w hw hformats).of_bare) type
    rw [hfull unexported zero]
    exact (hfull o.unexported o.zero).symm

theorem handed_invariant_iff_mode :
    let o : Options := ⟨false, false, [("Mode", fun n => .ok n.inline)]⟩
    let v : Value := .record "Job" [("mode", .tupleCase "Mode" "Every" [.int 0, .int 5])]
    o.full.capture v = .ok (.record "Job" [("mode", .formatted "Mode" "Every([0, 5])" false)]) ∧
      ((∀ unexported zero type, { o with unexported, zero }.handed type v = o.handed type v) ↔
        ∀ w ∈ v.parts, o.formats w = true → o.bare.GivenWhole w) :=
  ⟨rfl, handed_invariant_iff rfl⟩

/-- A case of an enumeration has lost a field before its formatter sees it, and so has a record
inside a record with a formatter. -/
theorem zero_fields_not_handed :
    let o : Options := ⟨false, false, [("Mode", fun n => .ok n.inline)]⟩
    let case : Value := .recordCase "Mode" "On" [("level", .int 0)]
    let outer : Value := .record "Mode" [("inner", .record "Inner" [("a", .int 0), ("b", .int 1)])]
    o.handed "Mode" case ≠ { o with zero := true }.handed "Mode" case ∧
      o.handed "Mode" outer ≠ { o with zero := true }.handed "Mode" outer := by
  intro o case outer
  have hcase : o.handed "Mode" case = [.variant "Mode" "On" (.record "On" [])] := rfl
  have hcase' : { o with zero := true }.handed "Mode" case =
      [.variant "Mode" "On" (.record "On" [("level", .int 0)])] := rfl
  have houter : o.handed "Mode" outer =
      [.record "Mode" [("inner", .record "Inner" [("b", .int 1)])]] := rfl
  have houter' : { o with zero := true }.handed "Mode" outer =
      [.record "Mode" [("inner", .record "Inner" [("a", .int 0), ("b", .int 1)])]] := rfl
  rw [hcase, hcase', houter, houter']
  simp

end Options
end Diff
end TestBench
