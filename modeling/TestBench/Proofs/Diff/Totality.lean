import TestBench.Diff.Compare
import TestBench.Proofs.Diff.Selection
import TestBench.Proofs.Diff.Tracing
import TestBench.Proofs.Time.InstantText

/-! When a comparison comes to a text. The formatters that every comparison starts with take any
tree, and show as it is what is not of their form; but a length of time that is too long for its
type ends the comparison. -/
namespace TestBench.Diff

namespace Node

/-- A record of the seconds and the nanoseconds of an instant on the calendar. -/
def IsTime (n : Node) : Prop :=
  ∃ (seconds : Int) (nanos : Nat), n.field? "secs_since_epoch" = some (.int seconds) ∧
    n.field? "nanos_since_epoch" = some (.int nanos) ∧ Instant.OnCalendar seconds nanos

/-- A record of so many seconds and nanoseconds, which are of 64 and of 32 bits. -/
structure HoldsSpan (n : Node) (s k : Nat) : Prop where
  seconds : n.field? "secs" = some (.int s)
  nanos : n.field? "nanos" = some (.int k)
  seconds_lt : s < 2 ^ 64
  nanos_lt : k < 2 ^ 32

/-- A length of time. Nanoseconds may be more than a second has. -/
def IsSpan (n : Node) : Prop :=
  ∃ s k, n.HoldsSpan s k ∧ s + k / 1000000000 < 2 ^ 64

/-- One that has too many seconds when its nanoseconds are carried over. -/
def IsOverlong (n : Node) : Prop :=
  ∃ s k, n.HoldsSpan s k ∧ 2 ^ 64 ≤ s + k / 1000000000

end Node

namespace Formatters

variable {node : Node}

theorem intIn?_eq_some_iff {low high k : Int} {field : String} :
    intIn? low high field node = some k ↔
      node.field? field = some (.int k) ∧ low ≤ k ∧ k < high := by
  have hint (n : Node) : n.int? = some k ↔ n = .int k := by
    cases n <;> simp [Node.int?]
  rw [intIn?, Option.filter_eq_some_iff, Option.bind_eq_some_iff]
  simp only [hint, exists_eq_right, Bool.and_eq_true, decide_eq_true_eq]

theorem holdsSpan_iff {s k : Nat} : node.HoldsSpan s k ↔
    intIn? 0 (2 ^ 64) "secs" node = some (s : Int) ∧
      intIn? 0 (2 ^ 32) "nanos" node = some (k : Int) := by
  rw [intIn?_eq_some_iff, intIn?_eq_some_iff]
  constructor
  · rintro ⟨hs, hk, hslt, hklt⟩
    exact ⟨⟨hs, by omega, by exact_mod_cast hslt⟩, hk, by omega, by exact_mod_cast hklt⟩
  · rintro ⟨⟨hs, -, hslt⟩, hk, -, hklt⟩
    exact ⟨hs, hk, by exact_mod_cast hslt, by exact_mod_cast hklt⟩

/-- What is shown of a length of time, whatever puts the parts together: unfolding the function that
`duration` has for it would compare numbers with `2 ^ 64` digit by digit. -/
def showParts (parts : Nat → Nat → Option Span) (seconds nanos : Option Int) (inline : String) :
    Except Failure String :=
  match seconds, nanos with
  | some seconds, some nanos =>
    match parts seconds.toNat nanos.toNat with
    | some span => .ok span.text
    | none => .error .durationOverflow
  | _, _ => .ok inline

theorem duration_eq (node : Node) : duration node =
    showParts Span.ofParts? (intIn? 0 (2 ^ 64) "secs" node) (intIn? 0 (2 ^ 32) "nanos" node)
      node.inline := rfl

theorem showParts_some (parts : Nat → Nat → Option Span) (s k : Nat) (inline : String) :
    showParts parts (some (s : Int)) (some (k : Int)) inline =
      (parts s k).elim (.error .durationOverflow) fun span => .ok span.text := by
  show (match parts s k with
    | some span => .ok span.text
    | none => .error .durationOverflow : Except Failure String) = _
  cases parts s k <;> rfl

theorem showParts_inline (parts : Nat → Nat → Option Span) {seconds nanos : Option Int}
    (inline : String) (h : ∀ s k, seconds = some s → nanos ≠ some k) :
    showParts parts seconds nanos inline = .ok inline := by
  rcases seconds with _ | s
  · rfl
  · rcases nanos with _ | k
    · rfl
    · exact absurd rfl (h s k rfl)

theorem duration_of_holds {s k : Nat} (h : node.HoldsSpan s k) : duration node =
    (Span.ofParts? s k).elim (.error .durationOverflow) fun span => .ok span.text := by
  obtain ⟨hs, hk⟩ := holdsSpan_iff.mp h
  rw [duration_eq, hs, hk, showParts_some]

theorem duration_of_not_holds (h : ∀ s k, ¬node.HoldsSpan s k) :
    duration node = .ok node.inline := by
  rw [duration_eq]
  refine showParts_inline _ _ fun s k hs hk => ?_
  obtain ⟨s, rfl⟩ := Int.eq_ofNat_of_zero_le (intIn?_eq_some_iff.mp hs).2.1
  obtain ⟨k, rfl⟩ := Int.eq_ofNat_of_zero_le (intIn?_eq_some_iff.mp hk).2.1
  exact h s k (holdsSpan_iff.mpr ⟨hs, hk⟩)

theorem duration_total (h : ¬node.IsOverlong) :
    ∃ text, duration node = .ok text ∧ (¬node.IsSpan → text = node.inline) := by
  by_cases hholds : ∃ s k, node.HoldsSpan s k
  · obtain ⟨s, k, hsk⟩ := hholds
    rcases Span.ofParts?_cases s k with ⟨hlt, hparts⟩ | ⟨hle, -⟩
    · have htext := duration_of_holds hsk
      rw [hparts, Option.elim_some] at htext
      exact ⟨_, htext, fun hspan => absurd ⟨s, k, hsk, hlt⟩ hspan⟩
    · exact absurd ⟨s, k, hsk, hle⟩ h
  · have hnone : ∀ s k, ¬node.HoldsSpan s k := fun s k hsk => hholds ⟨s, k, hsk⟩
    exact ⟨_, duration_of_not_holds hnone, fun _ => rfl⟩

theorem duration_overflows_iff (node : Node) :
    duration node = .error .durationOverflow ↔ node.IsOverlong := by
  constructor
  · intro hover
    by_contra h
    obtain ⟨text, hok, -⟩ := duration_total h
    cases hok.symm.trans hover
  · rintro ⟨s, k, hsk, hle⟩
    rcases Span.ofParts?_cases s k with ⟨hlt, -⟩ | ⟨-, hparts⟩
    · exact absurd hle (Nat.not_le.mpr hlt)
    · rw [duration_of_holds hsk, hparts, Option.elim_none]

theorem systemTime_eq (node : Node) : systemTime node =
    .ok (((intIn? (-2 ^ 63) (2 ^ 63) "secs_since_epoch" node).bind fun seconds =>
      (intIn? 0 (2 ^ 32) "nanos_since_epoch" node).bind fun nanos =>
        Instant.text? seconds nanos.toNat).getD node.inline) := rfl

theorem systemTime_total (node : Node) :
    ∃ text, systemTime node = .ok text ∧ (¬node.IsTime → text = node.inline) := by
  refine ⟨_, systemTime_eq node, fun h => ?_⟩
  rcases hs : intIn? (-2 ^ 63) (2 ^ 63) "secs_since_epoch" node with _ | s
  · rfl
  · rcases hk : intIn? 0 (2 ^ 32) "nanos_since_epoch" node with _ | k
    · rfl
    · obtain ⟨hs, -⟩ := intIn?_eq_some_iff.mp hs
      obtain ⟨hk, hnonneg, -⟩ := intIn?_eq_some_iff.mp hk
      obtain ⟨k, rfl⟩ := Int.eq_ofNat_of_zero_le hnonneg
      have hoff : ¬Instant.OnCalendar s k := fun hon => h ⟨s, k, hs, hk, hon⟩
      rw [Option.bind_some, Option.bind_some, Int.toNat_natCast, Instant.text?_eq_none hoff]
      rfl

theorem subnetMap_total (node : Node) :
    ∃ text, subnetMap node = .ok text ∧
      ((∀ entries, node ≠ .map entries) → text = node.inline) := by
  cases node with
  | map entries => exact ⟨_, rfl, fun h => absurd rfl (h entries)⟩
  | _ => exact ⟨_, rfl, fun _ => rfl⟩

end Formatters

namespace Traced

variable {α β : Type} {P : Call → Prop} {x : Traced α} {f : α → Traced β}

/-- A run that fails for a length of time just when one of its calls is to blame. -/
def Blames (P : Call → Prop) (x : Traced α) : Prop :=
  x.result = .error .durationOverflow ↔ ∃ c ∈ x.calls, P c

namespace Blames

theorem pure (a : α) : Blames P (pure a) := by
  constructor
  · rintro ⟨⟩
  · rintro ⟨c, hc, -⟩
    cases hc

theorem bind (hx : Blames P x) (hf : ∀ a, Blames P (f a)) : Blames P (x >>= f) := by
  rcases h : x.result with e | a
  · rw [Blames, h] at hx
    rw [bind_of_error h, Blames, Except.error.injEq, ← hx, Except.error.injEq]
  · have hnone : ¬∃ c ∈ x.calls, P c := by
      rw [Blames, h] at hx
      rw [← hx]
      rintro ⟨⟩
    rw [bind_of_ok h, Blames]
    simp only [List.mem_append, or_and_right, exists_or, hnone, false_or]
    exact hf a

end Blames

end Traced

namespace Options

open Traced (Blames)

variable {o p : Options} {v : Value}

/-- The formatter that is called fails for a length of time. -/
def Overflows (o : Options) (c : Call) : Prop := o.answer? c = some (.error .durationOverflow)

theorem blames_formatter (type : String) (node : Node) {x : Traced Node}
    (hx : Blames o.Overflows x) :
    Blames o.Overflows
      (match o.formatter? type with
        | some format => traceReplace type node format
        | none => x) := by
  rcases h : o.formatter? type with _ | format
  · exact hx
  · have hanswer : o.Overflows ⟨type, node⟩ ↔ format node = .error .durationOverflow := by
      rw [Overflows, answer?, h, Option.map_some, Option.some_inj]
    have hreplace : replace type node format = .error .durationOverflow ↔
        format node = .error .durationOverflow := by
      rw [replace]
      cases format node <;> simp [bind, Except.bind]
    simp only [Blames, traceReplace, List.mem_singleton, exists_eq_left, hanswer, hreplace]

theorem blames_traceFinish (type : String) (node : Node) :
    Blames o.Overflows (o.traceFinish type node) :=
  blames_formatter type node (.pure node)

theorem blames_traceFinishRecord (name : String) (fields : List (String × Node)) :
    Blames o.Overflows (o.traceFinishRecord name fields) :=
  blames_formatter name (.record name fields) (.pure (o.select name fields))

theorem blames_traceItems {items : List Value}
    (ih : ∀ v ∈ items, Blames o.Overflows (o.trace v)) :
    Blames o.Overflows (o.traceItems items) := by
  induction items with
  | nil => exact .pure _
  | cons v rest hrest =>
    rw [List.forall_mem_cons] at ih
    exact ih.1.bind fun n => (hrest ih.2).bind fun nodes => .pure _

theorem blames_traceEntries {entries : List (Value × Value)}
    (ih : ∀ e ∈ entries, Blames o.Overflows (o.trace e.1) ∧ Blames o.Overflows (o.trace e.2)) :
    Blames o.Overflows (o.traceEntries entries) := by
  induction entries with
  | nil => exact .pure _
  | cons e rest hrest =>
    rw [List.forall_mem_cons] at ih
    exact ih.1.1.bind fun k => ih.1.2.bind fun n => (hrest ih.2).bind fun nodes => .pure _

theorem blames_traceFields {fields : List (String × Value)}
    (ih : ∀ f ∈ fields, Blames o.Overflows (o.trace f.2)) :
    Blames o.Overflows (o.traceFields fields) := by
  induction fields with
  | nil => exact .pure _
  | cons f rest hrest =>
    rw [List.forall_mem_cons] at ih
    exact ih.1.bind fun n => (hrest ih.2).bind fun nodes => .pure _

theorem blames_trace (o : Options) (v : Value) : Blames o.Overflows (o.trace v) := by
  induction v with
  | list items ih => exact (blames_traceItems ih).bind fun nodes => .pure _
  | map entries ih => exact (blames_traceEntries ih).bind fun nodes => .pure _
  | record name fields ih =>
    exact (blames_traceFields ih).bind fun nodes => blames_traceFinishRecord name nodes
  | tuple name items ih =>
    exact (blames_traceItems ih).bind fun nodes => blames_traceFinishRecord name _
  | marker name => exact blames_traceFinishRecord name []
  | wrapper name inner ih => exact ih.bind fun n => blames_traceFinish name n
  | unitCase type variant => exact blames_traceFinish type _
  | wrapperCase type variant inner ih => exact ih.bind fun n => blames_traceFinish type _
  | tupleCase type variant items ih =>
    exact (blames_traceItems ih).bind fun nodes => blames_traceFinish type _
  | recordCase type variant fields ih =>
    exact (blames_traceFields ih).bind fun nodes => blames_traceFinish type _
  | tagged tag inner ih => exact ih.bind fun n => .pure _
  | broken message => simp [Blames, trace]
  | keyless inner => simp [Blames, trace, Failure.valueBeforeKey]
  | _ => exact .pure _

/-- A capture fails for a length of time just when a formatter does that it calls. -/
theorem capture_overflows_iff :
    o.capture v = .error .durationOverflow ↔ ∃ c ∈ (o.trace v).calls, o.Overflows c := by
  rw [← trace_result]
  exact blames_trace o v

theorem mem_handed {type : String} {n : Node} :
    n ∈ o.handed type v ↔ ⟨type, n⟩ ∈ (o.trace v).calls := by
  rw [handed, handedTo, List.mem_map]
  constructor
  · rintro ⟨c, hc, rfl⟩
    obtain ⟨hcalls, htype⟩ := List.mem_filter.mp hc
    cases eq_of_beq htype
    exact hcalls
  · intro hc
    exact ⟨_, List.mem_filter.mpr ⟨hc, beq_self_eq_true type⟩, rfl⟩

theorem formatter?_systemTime :
    default.formatter? "SystemTime" = some Formatters.systemTime := by
  simp [formatter?, default, find?]

theorem formatter?_duration : default.formatter? "Duration" = some Formatters.duration := by
  simp [formatter?, default, find?]

/-- Of the formatters that every comparison starts with, only the one for lengths of time fails. -/
theorem overflows_iff_of_default (h : o.formatters = default.formatters) (c : Call) :
    o.Overflows c ↔ c.type = "Duration" ∧ c.node.IsOverlong := by
  obtain ⟨type, n⟩ := c
  obtain ⟨time, htime, -⟩ := Formatters.systemTime_total n
  obtain ⟨table, htable, -⟩ := Formatters.subnetMap_total n
  rw [Overflows, answer?, formatter?, h, default, find?]
  by_cases hduration : type = "Duration"
  · subst hduration
    simp [Formatters.duration_overflows_iff]
  · simp only [hduration, false_and, iff_false]
    by_cases htype : type = "SystemTime"
    · subst htype
      simp [htime]
    · by_cases htype' : type = "SubnetMap"
      · subst htype'
        simp [htable]
      · simp [Ne.symm hduration, Ne.symm htype, Ne.symm htype']

theorem capture_overflows_iff_of_default (h : o.formatters = default.formatters) :
    o.capture v = .error .durationOverflow ↔ ∃ n ∈ o.handed "Duration" v, n.IsOverlong := by
  simp only [capture_overflows_iff, overflows_iff_of_default h, mem_handed]
  constructor
  · rintro ⟨⟨type, n⟩, hc, rfl, hn⟩
    exact ⟨n, hc, hn⟩
  · rintro ⟨n, hc, hn⟩
    exact ⟨_, hc, rfl, hn⟩

theorem diff_gives_text_iff_captures {a b : Value} :
    (∃ text, o.diff a b = .ok text) ↔
      o.capture a ≠ .error .durationOverflow ∧ o.capture b ≠ .error .durationOverflow := by
  rcases ha : o.capture a with (_ | _) | m <;> rcases hb : o.capture b with (_ | _) | n <;>
    simp [diff, ha, hb]

theorem captureFields_of_ints {fields : List (String × Int)} (h : ∀ f ∈ fields, f.2 < 2 ^ 127) :
    o.captureFields (fields.map fun f => (f.1, .int f.2)) =
      .ok (fields.map fun f => (f.1, .int f.2)) := by
  induction fields with
  | nil => rfl
  | cons f rest ih =>
    rw [List.forall_mem_cons] at h
    have hnode : intNode f.2 = .int f.2 := if_pos h.1
    rw [List.map_cons, captureFields, capture, hnode, ih h.2]
    rfl

/-- A record of numbers is given to the formatter of its type as it is. -/
theorem capture_record_of_ints {name : String} {format : Formatter}
    (fields : List (String × Int)) (hformat : o.formatter? name = some format)
    (h : ∀ f ∈ fields, f.2 < 2 ^ 127) :
    o.capture (.record name (fields.map fun f => (f.1, .int f.2))) =
      replace name (.record name (fields.map fun f => (f.1, .int f.2))) format := by
  rw [capture, captureFields_of_ints h]
  show o.finishRecord name _ = _
  rw [finishRecord, hformat]

theorem formatters_ofSettings {settings : List Setting}
    (h : ∀ s ∈ settings, s = .zero ∨ s = .unexported) :
    (ofSettings settings).formatters = default.formatters :=
  (within_foldl h).formatters.symm

/-- A comparison without formatters of one's own gives a text, unless somewhere in the values a
record named as lengths of time are holds too many seconds. The formatters themselves take any tree
but such a record, and show as it is what is not of their form. -/
theorem diff_gives_text_iff {settings : List Setting}
    (hsettings : ∀ s ∈ settings, s = .zero ∨ s = .unexported) (got want : Value) :
    ((∃ text, (ofSettings settings).diff got want = .ok text) ↔
      ∀ v ∈ [got, want], ∀ n ∈ (ofSettings settings).handed "Duration" v, ¬n.IsOverlong) ∧
    (∀ n, ∃ text, Formatters.systemTime n = .ok text ∧ (¬n.IsTime → text = n.inline)) ∧
    (∀ n, ¬n.IsOverlong →
      ∃ text, Formatters.duration n = .ok text ∧ (¬n.IsSpan → text = n.inline)) ∧
    (∀ n : Node, n.IsOverlong → Formatters.duration n = .error .durationOverflow) ∧
    (∀ n, ∃ text, Formatters.subnetMap n = .ok text ∧
      ((∀ entries, n ≠ .map entries) → text = n.inline)) := by
  refine ⟨?_, Formatters.systemTime_total, fun n => Formatters.duration_total,
    fun n => (Formatters.duration_overflows_iff n).mpr, Formatters.subnetMap_total⟩
  have hdefault := formatters_ofSettings hsettings
  rw [diff_gives_text_iff_captures, Ne, Ne, capture_overflows_iff_of_default hdefault,
    capture_overflows_iff_of_default hdefault]
  simp

/-- Two values that hold lengths of time, one that is carried over into its last second and another
that is no length of time. -/
theorem diff_gives_text_iff_of_lengths :
    let got : Value := .list [.record "Duration"
      [("secs", .int 18446744073709551614), ("nanos", .int 1999999999)]]
    let want : Value := .wrapper "Duration" (.text "90s")
    (∀ s ∈ [Setting.zero, .unexported], s = .zero ∨ s = .unexported) ∧
      ((∃ text, (ofSettings [.zero, .unexported]).diff got want = .ok text) ↔
        ∀ v ∈ [got, want],
          ∀ n ∈ (ofSettings [.zero, .unexported]).handed "Duration" v, ¬n.IsOverlong) := by
  intro got want
  have hsettings : ∀ s ∈ [Setting.zero, .unexported], s = .zero ∨ s = .unexported := by simp
  exact ⟨hsettings, (diff_gives_text_iff hsettings got want).1⟩

/-- One second too many, made of nanoseconds, and there is no text at all. -/
theorem diff_gives_no_text_of_overlong :
    ¬∃ text, (ofSettings []).diff (.record "Duration"
      [("secs", .int 18446744073709551615), ("nanos", .int 1000000000)]) .null = .ok text := by
  let node : Node := .record "Duration"
    [("secs", .int 18446744073709551615), ("nanos", .int 1000000000)]
  have hlong : node.IsOverlong :=
    ⟨18446744073709551615, 1000000000, ⟨rfl, rfl, by norm_num, by norm_num⟩, by norm_num⟩
  have hcapture := capture_record_of_ints
    [("secs", 18446744073709551615), ("nanos", 1000000000)] formatter?_duration (by simp)
  rw [diff_gives_text_iff_captures]
  refine fun h => h.1 (hcapture.trans ?_)
  show replace "Duration" node Formatters.duration = _
  rw [replace, (Formatters.duration_overflows_iff node).mpr hlong]
  rfl

end Options
end TestBench.Diff
