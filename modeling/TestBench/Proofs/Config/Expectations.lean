import Mathlib.Data.List.Forall2
import TestBench.Config.Check
import TestBench.Proofs.Case.Reports
import TestBench.Proofs.Config.Encoding

/-! What a check of configurations reports. Each run is judged by what its source decodes to, and
no run has a say in what becomes of another. -/
namespace TestBench.Config

open Case (Outcome Report Session Step Told outcome_failures outcome_of_ne_nil
  outcome_passed_iff)

/-- A decode lays the source over what the destination is as a tree, and has the result read. -/
theorem decodeOnto_eq_ok_iff {o : MergeOptions} {read : Reader} {dest got : Value} {t : Tree} :
    decodeOnto o read dest t = .ok got ↔ ∃ own shape, Tree.ofValue dest = .ok own ∧
      Shape.ofValue dest = .ok shape ∧ read (merge o shape own t) = .ok got := by
  rw [decodeOnto]
  cases Tree.ofValue dest with
  | error e => simp [Except.mapError, bind, Except.bind]
  | ok own =>
    cases Shape.ofValue dest with
    | error e => simp [Except.mapError, bind, Except.bind]
    | ok shape =>
      cases hread : read (merge o shape own t) <;>
        simp [Except.mapError, bind, Except.bind, hread]

/-- The runs of some expectations: each as it is, and again through text if it has a source. -/
def runsOf (es : List Expectation) : List (Expectation × Form) :=
  es.flatMap fun e => (e, .native) :: if e.source.isSome then [(e, .yaml)] else []

namespace Expectation

variable (e : Expectation) (refusal : Refusal) (read : Reader) (options : Diff.Options)
  (form : Form)

/-- What a run decodes: its source as it was prepared, or null if it has none. -/
inductive Prepared : Tree → Prop where
  | source {v : Value} {t : Tree} (hsource : e.source = some v)
    (hprepare : prepare refusal v form = .ok t) : Prepared t
  | nothing (hsource : e.source = none) : Prepared .null

/-- The defaults as a tree, with `t` laid over them, are read as this value. -/
def DecodesTo (t : Tree) (got : Value) : Prop :=
  ∃ own shape, Tree.ofValue e.initial = .ok own ∧ Shape.ofValue e.initial = .ok shape ∧
    read (merge ⟨true, true⟩ shape own t) = .ok got

/-- The source can be prepared, and decoding it onto the defaults gives this value. -/
def Decodes (got : Value) : Prop := ∃ t, e.Prepared refusal form t ∧ e.DecodesTo read t got

/-- The source can be prepared, but not decoded onto the defaults. -/
def Rejects : Prop := ∃ t, e.Prepared refusal form t ∧ ∀ got, ¬e.DecodesTo read t got

/-- Whether a run is to pass: the source is rejected if an error is expected, and decodes to a value
that shows no difference from the expected one if not. -/
def Met : Prop :=
  (e.error = true ∧ e.Rejects refusal read form) ∨
    (e.error = false ∧ ∃ got, e.Decodes refusal read form got ∧
      options.diff got e.expected = .ok "")

/-- The failure that a difference from the expected value is. A formatter may give up on either. -/
def mismatch (got expected : Value) : List String :=
  match options.diff got expected with
  | .error failure => ["panicked: " ++ failure.message]
  | .ok delta => if delta = "" then [] else ["Decode() (-got, +want):\n" ++ delta]

/-- The failures of a run. -/
def failures : List String :=
  match e.tree refusal form with
  | .error failure => [form.text ++ " source error:\n" ++ failure.message]
  | .ok t =>
    match decodeOnto defaultMerge read e.initial t with
    | .error failure => if e.error then [] else ["Decode() error:\n" ++ failure.message]
    | .ok got =>
      (if e.error then ["Decode() did not error"] else []) ++ mismatch options got e.expected

theorem compareSteps_told (got expected : Value) :
    Told (compareSteps options got expected) (mismatch options got expected) := by
  unfold compareSteps mismatch
  cases options.diff got expected with
  | error failure => exact .panic (.text failure.message)
  | ok delta =>
    by_cases hdelta : delta = ""
    · simpa [hdelta] using Told.nil
    · simpa [hdelta, fatal] using Told.fatal _

/-- A run is told by its failures alone. -/
theorem steps_told :
    Told (e.steps refusal read options form) (e.failures refusal read options form) := by
  rcases htree : e.tree refusal form with failure | t
  · have htitle : form.text ++ " source error" ++ ":\n" = form.text ++ " source error:\n" :=
      String.append_assoc ..
    simpa only [steps, failures, htree, fatal, htitle] using .fatal _
  -- once the source decodes, an error that was expected is recorded before the comparison
  rcases hdecode : decodeOnto defaultMerge read e.initial t with failure | got
  · cases herror : e.error
    · simpa [steps, failures, decodedSteps, htree, hdecode, herror] using .fatal _
    · simpa [steps, failures, decodedSteps, htree, hdecode, herror] using .nil
  · have hcompared := compareSteps_told options got e.expected
    cases herror : e.error
    · simpa [steps, failures, decodedSteps, htree, hdecode, herror] using hcompared
    · simpa [steps, failures, decodedSteps, htree, hdecode, herror] using hcompared.error _

theorem mismatch_eq_nil {got expected : Value} :
    mismatch options got expected = [] ↔ options.diff got expected = .ok "" := by
  unfold mismatch
  rcases options.diff got expected with failure | delta
  · simp
  · by_cases hdelta : delta = "" <;> simp [hdelta]

theorem mismatch_length {got expected : Value} (h : options.diff got expected ≠ .ok "") :
    (mismatch options got expected).length = 1 := by
  unfold mismatch
  rcases hdiff : options.diff got expected with failure | delta
  · rfl
  · have hdelta : delta ≠ "" := fun hdelta => h (hdelta ▸ hdiff)
    simp [hdelta]

section Prepared

variable {e refusal read options form}

theorem tree_eq_ok_iff {t : Tree} : e.tree refusal form = .ok t ↔ e.Prepared refusal form t := by
  unfold tree
  constructor
  · intro h
    cases hsource : e.source with
    | none =>
      rw [hsource] at h
      cases h
      exact .nothing hsource
    | some v =>
      rw [hsource] at h
      exact .source hsource h
  · rintro (⟨hsource, hprepare⟩ | hsource)
    · rw [hsource]
      exact hprepare
    · rw [hsource]

theorem tree_eq_error {v : Value} {failure : ConfigError} (hsource : e.source = some v)
    (hprepare : prepare refusal v form = .error failure) :
    e.tree refusal form = .error failure := by
  rw [tree, hsource]
  exact hprepare

theorem decodesTo_iff {t : Tree} {got : Value} :
    e.DecodesTo read t got ↔ decodeOnto defaultMerge read e.initial t = .ok got :=
  decodeOnto_eq_ok_iff.symm

theorem decodes_iff {got : Value} : e.Decodes refusal read form got ↔
    ∃ t, e.tree refusal form = .ok t ∧ decodeOnto defaultMerge read e.initial t = .ok got :=
  exists_congr fun _ => and_congr tree_eq_ok_iff.symm decodesTo_iff

theorem rejects_iff : e.Rejects refusal read form ↔ ∃ t failure, e.tree refusal form = .ok t ∧
    decodeOnto defaultMerge read e.initial t = .error failure := by
  refine exists_congr fun t => ?_
  rw [exists_and_left, tree_eq_ok_iff]
  refine and_congr_right fun _ => ?_
  simp only [decodesTo_iff]
  cases decodeOnto defaultMerge read e.initial t <;> simp

end Prepared

theorem met_iff_failures :
    e.Met refusal read options form ↔ e.failures refusal read options form = [] := by
  simp only [Met, rejects_iff, decodes_iff]
  rcases htree : e.tree refusal form with failure | t
  · simp [failures, htree]
  rcases hdecode : decodeOnto defaultMerge read e.initial t with failure | got <;>
    cases herror : e.error <;>
    simp [failures, htree, hdecode, herror, mismatch_eq_nil]

/-- What the report of a run says. -/
structure Fits (r : Report) : Prop where
  /-- it has the description as its name, with a note if the source went through text -/
  named : r.name = match form with
    | .native => e.description
    | .yaml => e.description ++ " (from YAML)"
  /-- it has passed just when the expectation is met -/
  passed : r.outcome = .passed ↔ e.Met refusal read options form
  /-- it has failed otherwise, and is never skipped -/
  failed : ¬e.Met refusal read options form → r.outcome = .failed r.failures
  /-- a source that cannot be prepared is a failure even if an error is expected -/
  unprepared : ∀ v failure, e.source = some v → prepare refusal v form = .error failure →
    r.failures = [(match form with
      | .native => "native"
      | .yaml => "YAML") ++ " source error:\n" ++ failure.message]
  /-- an error that is expected and does not come is the first failure; a difference follows it -/
  undetected : e.error = true → ∀ got, e.Decodes refusal read form got →
    r.failures = "Decode() did not error" :: mismatch options got e.expected
  /-- any other run that fails has one failure -/
  single : ¬e.Met refusal read options form →
    ¬(e.error = true ∧ ∃ got, e.Decodes refusal read form got) → r.failures.length = 1

variable {refusal form} in
theorem failures_of_unprepared {v : Value} {failure : ConfigError} (hsource : e.source = some v)
    (hprepare : prepare refusal v form = .error failure) :
    e.failures refusal read options form =
      [form.text ++ " source error:\n" ++ failure.message] := by
  simp only [failures, tree_eq_error hsource hprepare]

variable {e refusal read options form} in
theorem failures_of_decodes {got : Value} (h : e.Decodes refusal read form got) :
    e.failures refusal read options form =
      (if e.error then ["Decode() did not error"] else []) ++ mismatch options got e.expected := by
  obtain ⟨t, htree, hdecode⟩ := decodes_iff.mp h
  simp only [failures, htree, hdecode]

/-- A run that is to fail has one failure, unless an error is expected and does not come. -/
theorem failures_length (hmet : ¬e.Met refusal read options form)
    (herror : ¬(e.error = true ∧ ∃ got, e.Decodes refusal read form got)) :
    (e.failures refusal read options form).length = 1 := by
  rcases htree : e.tree refusal form with failure | t
  · simp [failures, htree]
  rcases hdecode : decodeOnto defaultMerge read e.initial t with failure | got
  · have hplain : e.error = false :=
      Bool.eq_false_iff.mpr fun h => hmet (.inl ⟨h, rejects_iff.mpr ⟨t, failure, htree, hdecode⟩⟩)
    simp [failures, htree, hdecode, hplain]
  · have hgot : e.Decodes refusal read form got := decodes_iff.mpr ⟨t, htree, hdecode⟩
    have hplain : e.error = false := Bool.eq_false_iff.mpr fun h => herror ⟨h, got, hgot⟩
    have hdiff : options.diff got e.expected ≠ .ok "" :=
      fun h => hmet (.inr ⟨hplain, got, hgot, h⟩)
    rw [failures_of_decodes hgot, hplain]
    exact mismatch_length options hdiff

theorem fits_run : e.Fits refusal read options form
    ⟨e.title form, Outcome.of (e.failures refusal read options form) none, []⟩ := by
  have hmet := e.met_iff_failures refusal read options form
  have hfailures := outcome_failures (e.failures refusal read options form) none
  exact
    { named := by cases form <;> rfl
      passed := by rw [hmet, outcome_passed_iff]
      failed := fun h => by
        rw [Report.failures, hfailures]
        exact outcome_of_ne_nil (mt hmet.mpr h)
      unprepared := fun v failure hsource hprepare => by
        have htold := hfailures.trans (e.failures_of_unprepared read options hsource hprepare)
        cases form <;> exact htold
      undetected := fun herror got hgot => by
        rw [Report.failures, hfailures, failures_of_decodes hgot, herror]
        rfl
      single := fun h herror => by
        rw [Report.failures, hfailures]
        exact e.failures_length refusal read options form h herror }

end Expectation

theorem runsOf_eq (es : List Expectation) :
    runsOf es = es.flatMap fun e => e.forms.map (e, ·) := by
  refine List.flatMap_congr fun e _ => ?_
  unfold Expectation.forms
  cases e.source.isSome <;> rfl

section Check

variable (refusal : Refusal) (read : Reader) (options : Diff.Options) (s : Session)
  (es : List Expectation)

theorem checkAll_eq : checkAll refusal read options s es =
    (runsOf es).foldl
      (fun s run => s.run (run.1.title run.2) (run.1.steps refusal read options run.2)) s := by
  rw [runsOf_eq, List.foldl_flatMap]
  simp only [List.foldl_map]
  rfl

/-- A check of configurations adds one report for each run, in order, and each says what its own run
comes to, however the type of the destinations reads its values. -/
theorem checkAll_judges :
    ∃ reports, (checkAll refusal read options s es).reports = s.reports ++ reports ∧
      List.Forall₂ (fun run r => run.1.Fits refusal read options run.2 r) (runsOf es) reports := by
  let report (run : Expectation × Form) : Report :=
    ⟨run.1.title run.2, Outcome.of (run.1.failures refusal read options run.2) none, []⟩
  refine ⟨(runsOf es).map report, ?_, ?_⟩
  · rw [checkAll_eq, ← List.flatMap_singleton' (List.map _ _), List.flatMap_map]
    exact Case.foldl_adds Session.reports
      (fun s run => (run.1.steps_told refusal read options run.2).run s _) s (runsOf es)
  · rw [List.forall₂_map_right_iff, List.forall₂_same]
    exact fun run _ => run.1.fits_run refusal read options run.2

end Check

/-- A source that its parser refuses as text fails its run even where an error is expected, while
the same source as it is brings the error. -/
theorem checkAll_judges_unprepared :
    let refusal : Refusal := fun _ => "invalid type: integer as u128, expected any YAML value"
    let wide : Expectation := ⟨"wide", .int 80, some (.int (2 ^ 64)), .int 80, true⟩
    let taken : Expectation := ⟨"taken", .int 80, some (.int 443), .int 80, true⟩
    let s : Session := .start (.ofEnvironment [])
    (checkAll refusal (Schema.unsigned 16).read .default s [wide, taken]).reports.map
        (fun r => (r.name, r.outcome)) =
      [("wide", .passed),
       ("wide (from YAML)", .failed ["YAML source error:\nfailed to parse YAML: " ++
          "invalid type: integer as u128, expected any YAML value"]),
       ("taken", .failed ["Decode() did not error", "Decode() (-got, +want):\n-443\n+80"]),
       ("taken (from YAML)",
          .failed ["Decode() did not error", "Decode() (-got, +want):\n-443\n+80"])] := by
  intro refusal wide taken s
  obtain ⟨reports, hreports, hfits⟩ :=
    checkAll_judges refusal (Schema.unsigned 16).read .default s [wide, taken]
  have hnative : wide.Met refusal (Schema.unsigned 16).read .default .native :=
    .inl ⟨rfl, Expectation.rejects_iff.mpr ⟨Tree.ofInt (2 ^ 64), _, rfl, rfl⟩⟩
  have htext : ¬wide.Met refusal (Schema.unsigned 16).read .default .yaml := by
    rw [Expectation.met_iff_failures]
    decide +kernel
  have htaken (form : Form) : ¬taken.Met refusal (Schema.unsigned 16).read .default form := by
    rw [Expectation.met_iff_failures]
    cases form <;> decide +kernel
  have hdecodes (form : Form) : taken.Decodes refusal (Schema.unsigned 16).read form (.int 443) :=
    Expectation.decodes_iff.mpr ⟨.int 443, by cases form <;> rfl, rfl⟩
  have hmismatch : Expectation.mismatch .default (.int 443) taken.expected =
      ["Decode() (-got, +want):\n-443\n+80"] := by decide +kernel
  rcases hfits with _ | ⟨hr₁, _ | ⟨hr₂, _ | ⟨hr₃, _ | ⟨hr₄, _ | _⟩⟩⟩⟩
  rw [hreports]
  simp only [List.map_append, List.map_cons, hr₁.named, hr₁.passed.mpr hnative, hr₂.named,
    hr₂.failed htext, hr₂.unprepared _ _ rfl rfl, hr₃.named, hr₃.failed (htaken _),
    hr₃.undetected rfl _ (hdecodes _), hr₄.named, hr₄.failed (htaken _),
    hr₄.undetected rfl _ (hdecodes _), hmismatch]
  rfl

end TestBench.Config
