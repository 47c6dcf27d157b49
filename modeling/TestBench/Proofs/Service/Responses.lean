import TestBench.Proofs.Case.Reports
import TestBench.Proofs.Diff.Documents
import TestBench.Proofs.Document.Reading
import TestBench.Proofs.Service.FirstLines
import TestBench.Service.Probe

/-! What is wrong with a response. Its status, its type and its body are each held against what is
expected of them, and each of these is told at most once. -/
namespace TestBench.Service

open Case (Step Told)

/-- The text of a header. Its bytes are characters if all of them are printable or tabs. -/
inductive HeaderText : Option Bytes → String → Prop where
  | missing : HeaderText none ""
  | shown {bytes : Bytes} (h : ∀ b ∈ bytes, b = 0x09 ∨ 0x20 ≤ b ∧ b ≤ 0x7E) :
    HeaderText (some bytes) (String.ofList (bytes.map fun b => Char.ofNat b.toNat))
  | foreign {bytes : Bytes} {b : UInt8} (hmem : b ∈ bytes)
    (h : ¬(b = 0x09 ∨ 0x20 ≤ b ∧ b ≤ 0x7E)) : HeaderText (some bytes) ""

section HeaderText

theorem isHeaderText_iff {b : UInt8} :
    Response.isHeaderText b = true ↔ b = 0x09 ∨ 0x20 ≤ b ∧ b ≤ 0x7E := by
  simp [Response.isHeaderText]

theorem decodeLossy_of_ascii {bytes : Bytes} (h : ∀ b ∈ bytes, b < 0x80) :
    Text.decodeLossy bytes = String.ofList (bytes.map fun b => Char.ofNat b.toNat) := by
  refine congrArg String.ofList ?_
  induction bytes with
  | nil =>
    rw [Text.decodeLossyChars]
    rfl
  | cons b rest ih =>
    have hchar : Text.readChar b rest = (Char.ofNat b.toNat, 0) :=
      if_pos (h b List.mem_cons_self)
    rw [Text.decodeLossyChars, hchar, List.drop_zero,
      ih fun c hc => h c (List.mem_cons_of_mem b hc), List.map_cons]

theorem HeaderText.unique {header : Option Bytes} {s t : String} (hs : HeaderText header s)
    (ht : HeaderText header t) : s = t := by
  cases hs with
  | missing =>
    cases ht
    rfl
  | shown hshown =>
    cases ht with
    | shown => rfl
    | foreign hmem hb => exact absurd (hshown _ hmem) hb
  | foreign hmem hb =>
    cases ht with
    | shown hshown => exact absurd (hshown _ hmem) hb
    | foreign => rfl

theorem headerText_contentTypeText (r : Response) :
    HeaderText r.contentType r.contentTypeText := by
  unfold Response.contentTypeText
  rcases r.contentType with _ | bytes
  · exact .missing
  by_cases hall : bytes.all Response.isHeaderText = true
  · have hshown : ∀ b ∈ bytes, b = 0x09 ∨ 0x20 ≤ b ∧ b ≤ 0x7E :=
      fun b hb => isHeaderText_iff.mp (List.all_eq_true.mp hall b hb)
    have hascii : ∀ b ∈ bytes, b < 0x80 := fun b hb => by
      rcases hshown b hb with rfl | h
      · decide
      · exact Nat.lt_of_le_of_lt h.2 (by decide)
    simpa only [hall, if_true, decodeLossy_of_ascii hascii] using .shown hshown
  · obtain ⟨b, hmem, hb⟩ : ∃ b ∈ bytes, ¬Response.isHeaderText b = true := by
      simpa using hall
    simpa only [hall] using .foreign hmem (mt isHeaderText_iff.mpr hb)

theorem headerText_iff {r : Response} {text : String} :
    HeaderText r.contentType text ↔ r.contentTypeText = text :=
  ⟨(headerText_contentTypeText r).unique, fun h => h ▸ headerText_contentTypeText r⟩

end HeaderText

/-- At most one message, and one just when something is wrong. -/
inductive Noted (Wrong : Prop) (Says : String → Prop) : List String → Prop where
  | nothing (h : ¬Wrong) : Noted Wrong Says []
  | one {message : String} (h : Wrong) (htext : Says message) : Noted Wrong Says [message]

theorem noted_iff {Wrong : Prop} {Says : String → Prop} {message? : Option String}
    {messages : List String} (hnone : message? = none ↔ ¬Wrong)
    (hsome : ∀ message, Wrong → (Says message ↔ message? = some message)) :
    Noted Wrong Says messages ↔ messages = message?.toList := by
  constructor
  · rintro (hright | ⟨hwrong, htext⟩)
    · rw [hnone.mpr hright, Option.toList_none]
    · rw [(hsome _ hwrong).mp htext, Option.toList_some]
  · rintro rfl
    cases hmessage : message? with
    | none => exact .nothing (hnone.mp hmessage)
    | some message =>
      have hwrong : Wrong := Classical.not_not.mp fun hright => by
        cases hmessage.symm.trans (hnone.mpr hright)
      exact .one hwrong ((hsome message hwrong).mpr hmessage)

namespace Probe

variable (p : Probe)

/-- The request of a case as its failures name it. -/
def called : String :=
  p.method.getD (if p.input.isSome then "POST" else "GET") ++ " " ++ p.url

/-- The type a response is to have. A document that is expected fixes it. -/
def typeText : String :=
  if p.output.isSome then "application/json; charset=utf-8" else p.contentType

/-- The first lines a body is to have; none if none are given. -/
def expectedLines : List String := p.firstLines.getD []

/-- Whether a body is what is expected. -/
structure BodyFits (b : Body) : Prop where
  /-- one that is to be a document is complete, reads as one and shows no difference -/
  document : ∀ want, p.output = some want → b.broken = false ∧ ∃ got,
    Document.Reader.read b.chunks.flatten = .ok got ∧
      Diff.Options.default.diff got.toValue want.toValue = .ok ""
  /-- any other begins with the lines that are given; if it has fewer, these are not all there -/
  lines : p.output = none → b.lines.take p.expectedLines.length = p.expectedLines

/-- The message for a status that is not what is expected. -/
def StatusFailure (r : Response) (message : String) : Prop :=
  message = p.called ++ ": got status code " ++ toString r.status ++ ", not " ++
    toString (p.status.getD 200)

/-- The message for a type that is not what is expected. -/
def TypeFailure (r : Response) (message : String) : Prop :=
  ∃ text, HeaderText r.contentType text ∧
    message = p.called ++ " Content-Type (-got, +want):\n-" ++ text ++ "\n+" ++ p.typeText

/-- The message for a body that is not what is expected. -/
inductive BodyFailure (r : Response) : String → Prop where
  | incomplete {want : Document} (houtput : p.output = some want) (hbroken : r.body.broken = true) :
    BodyFailure r (p.called ++ ":\n" ++ r.problem)
  | unread {want : Document} {failure : Document.Reader.ReadError} (houtput : p.output = some want)
    (hbroken : r.body.broken = false)
    (hread : Document.Reader.read r.body.chunks.flatten = .error failure) :
    BodyFailure r (p.called ++ ":\n" ++ failure.message)
  | document {want got : Document} {delta : String} (houtput : p.output = some want)
    (hbroken : r.body.broken = false)
    (hread : Document.Reader.read r.body.chunks.flatten = .ok got)
    (hdiff : Diff.Options.default.diff got.toValue want.toValue = .ok delta) (hdelta : delta ≠ "") :
    BodyFailure r (p.called ++ " (-got, +want):\n" ++ delta)
  | lines {delta : String} (houtput : p.output = none)
    (hdiff : Diff.Options.default.diff
      (.list ((r.body.lines.take p.expectedLines.length).map .text))
      (.list (p.expectedLines.map .text)) = .ok delta) (hdelta : delta ≠ "") :
    BodyFailure r (p.called ++ " (-got, +want):\n" ++ delta)

/-- What is told of a response: its status, its type and its body, in this order, each at most once
and no matter what else is wrong. -/
def Tells (r : Response) (failures : List String) : Prop :=
  ∃ status type body, failures = status ++ type ++ body ∧
    Noted (r.status ≠ p.status.getD 200) (p.StatusFailure r) status ∧
    Noted (¬HeaderText r.contentType p.typeText) (p.TypeFailure r) type ∧
    Noted (¬p.BodyFits r.body) (p.BodyFailure r) body

/-- The difference of two documents as the failure that it is, if there is any. -/
def differenceFailure? (got want : Document) : Option String :=
  ((Diff.Options.default.diff got.toValue want.toValue).toOption.filter (· ≠ "")).map fun delta =>
    p.heading ++ (" (-got, +want):\n" ++ delta)

def statusFailure? (r : Response) : Option String :=
  if r.status = p.expectedStatus then none
  else some (p.heading ++ ": got status code " ++ toString r.status ++ ", not " ++
    toString p.expectedStatus)

def contentTypeFailure? (r : Response) : Option String :=
  if r.contentTypeText = p.expectedContentType then none
  else some (p.heading ++ " Content-Type (-got, +want):\n-" ++ r.contentTypeText ++ "\n+" ++
    p.expectedContentType)

/-- What is wrong with a body that is to be a document. -/
def documentFailure? (want : Document) (r : Response) : Option String :=
  match r.body.bytes? with
  | none => some (p.heading ++ (":\n" ++ r.problem))
  | some bytes =>
    match Document.Reader.read bytes with
    | .error failure => some (p.heading ++ (":\n" ++ failure.message))
    | .ok got => p.differenceFailure? got want

def linesFailure? (b : Body) : Option String :=
  p.differenceFailure? (.list ((b.lines.take p.expectedLines.length).map .text))
    (.list (p.expectedLines.map .text))

def bodyFailure? (r : Response) : Option String :=
  match p.output with
  | some want => p.documentFailure? want r
  | none => p.linesFailure? r.body

def responseFailures (r : Response) : List String :=
  (p.statusFailure? r).toList ++ (p.contentTypeFailure? r).toList ++ (p.bodyFailure? r).toList

section Failures

variable {p} {r : Response}

theorem heading_eq : p.heading = p.called := by
  unfold heading called effectiveMethod
  cases p.method <;> cases p.input <;> rfl

theorem expectedContentType_eq : p.expectedContentType = p.typeText := by
  unfold expectedContentType typeText
  cases p.output <;> rfl

theorem differenceFailure?_eq_none_iff {got want : Document} :
    p.differenceFailure? got want = none ↔
      Diff.Options.default.diff got.toValue want.toValue = .ok "" := by
  obtain ⟨delta, hdelta⟩ := Document.exists_diff_eq Diff.Options.default got want
  rw [differenceFailure?, hdelta]
  by_cases h : delta = "" <;> simp [Except.toOption, Option.filter, h]

theorem differenceFailure?_eq_some_iff {got want : Document} {message : String} :
    p.differenceFailure? got want = some message ↔ ∃ delta,
      Diff.Options.default.diff got.toValue want.toValue = .ok delta ∧ delta ≠ "" ∧
        message = p.called ++ " (-got, +want):\n" ++ delta := by
  obtain ⟨delta, hdelta⟩ := Document.exists_diff_eq Diff.Options.default got want
  rw [differenceFailure?, hdelta, heading_eq]
  by_cases h : delta = "" <;>
    simp [Except.toOption, Option.filter, h, eq_comm, String.append_assoc]

theorem statusFailure?_eq_none_iff :
    p.statusFailure? r = none ↔ r.status = p.status.getD 200 := by
  rw [statusFailure?, expectedStatus]
  by_cases h : r.status = p.status.getD 200 <;> simp [h]

theorem statusFailure_iff {message : String} (h : r.status ≠ p.status.getD 200) :
    p.StatusFailure r message ↔ p.statusFailure? r = some message := by
  rw [StatusFailure, statusFailure?, expectedStatus, if_neg h, heading_eq, Option.some.injEq,
    eq_comm]

theorem contentTypeFailure?_eq_none_iff :
    p.contentTypeFailure? r = none ↔ HeaderText r.contentType p.typeText := by
  rw [headerText_iff, ← expectedContentType_eq, contentTypeFailure?]
  by_cases h : r.contentTypeText = p.expectedContentType <;> simp [h]

theorem typeFailure_iff {message : String} (h : ¬HeaderText r.contentType p.typeText) :
    p.TypeFailure r message ↔ p.contentTypeFailure? r = some message := by
  simp only [headerText_iff, ← expectedContentType_eq] at h
  simp only [TypeFailure, headerText_iff, exists_eq_left', ← expectedContentType_eq,
    contentTypeFailure?, if_neg h, heading_eq, Option.some.injEq]
  exact eq_comm

section Document

variable {want got : Document}

theorem documentFailure?_of_broken (h : r.body.broken = true) :
    p.documentFailure? want r = some (p.called ++ ":\n" ++ r.problem) := by
  rw [documentFailure?, Body.bytes?, if_pos h, heading_eq, String.append_assoc]

theorem documentFailure?_of_unread {failure : Document.Reader.ReadError}
    (h : r.body.broken = false)
    (hread : Document.Reader.read r.body.chunks.flatten = .error failure) :
    p.documentFailure? want r = some (p.called ++ ":\n" ++ failure.message) := by
  rw [documentFailure?, Body.bytes?, if_neg (Bool.eq_false_iff.mp h)]
  simp only [hread, heading_eq, String.append_assoc]

theorem documentFailure?_of_read (h : r.body.broken = false)
    (hread : Document.Reader.read r.body.chunks.flatten = .ok got) :
    p.documentFailure? want r = p.differenceFailure? got want := by
  rw [documentFailure?, Body.bytes?, if_neg (Bool.eq_false_iff.mp h)]
  simp only [hread]

theorem documentFailure?_eq_none_iff :
    p.documentFailure? want r = none ↔ r.body.broken = false ∧ ∃ got,
      Document.Reader.read r.body.chunks.flatten = .ok got ∧
        Diff.Options.default.diff got.toValue want.toValue = .ok "" := by
  cases hbroken : r.body.broken with
  | true => simp [documentFailure?_of_broken hbroken]
  | false =>
    rcases hread : Document.Reader.read r.body.chunks.flatten with failure | got
    · simp [documentFailure?_of_unread hbroken hread]
    · simp [documentFailure?_of_read hbroken hread, differenceFailure?_eq_none_iff]

theorem bodyFailure_of_document {message : String} (houtput : p.output = some want)
    (h : p.documentFailure? want r = some message) : p.BodyFailure r message := by
  cases hbroken : r.body.broken with
  | true =>
    cases (documentFailure?_of_broken hbroken).symm.trans h
    exact .incomplete houtput hbroken
  | false =>
    rcases hread : Document.Reader.read r.body.chunks.flatten with failure | got
    · cases (documentFailure?_of_unread hbroken hread).symm.trans h
      exact .unread houtput hbroken hread
    · rw [documentFailure?_of_read hbroken hread] at h
      obtain ⟨delta, hdiff, hdelta, rfl⟩ := differenceFailure?_eq_some_iff.mp h
      exact .document houtput hbroken hread hdiff hdelta

end Document

theorem linesFailure?_eq_none_iff {b : Body} :
    p.linesFailure? b = none ↔ b.lines.take p.expectedLines.length = p.expectedLines := by
  rw [linesFailure?, differenceFailure?_eq_none_iff, Document.diff_texts_eq_empty_iff]

theorem textList_eq (texts : List String) :
    textList texts = (Document.list (texts.map .text)).toValue := by
  have hitems : Document.itemsToValue (texts.map .text) = texts.map .text := by
    induction texts with
    | nil => rfl
    | cons text rest ih =>
      rw [List.map_cons, Document.itemsToValue, ih, List.map_cons, Document.toValue]
  rw [textList, Document.toValue, hitems]

theorem bodyFits_document_iff {want : Document} {b : Body} (houtput : p.output = some want) :
    p.BodyFits b ↔ b.broken = false ∧ ∃ got, Document.Reader.read b.chunks.flatten = .ok got ∧
      Diff.Options.default.diff got.toValue want.toValue = .ok "" := by
  refine ⟨fun h => h.document want houtput, fun h => ⟨fun want' hwant => ?_, fun hnone => ?_⟩⟩
  · cases houtput.symm.trans hwant
    exact h
  · cases houtput.symm.trans hnone

theorem bodyFits_lines_iff {b : Body} (houtput : p.output = none) :
    p.BodyFits b ↔ b.lines.take p.expectedLines.length = p.expectedLines := by
  refine ⟨fun h => h.lines houtput, fun h => ⟨fun want hwant => ?_, fun _ => h⟩⟩
  cases houtput.symm.trans hwant

theorem bodyFailure?_eq_none_iff : p.bodyFailure? r = none ↔ p.BodyFits r.body := by
  rw [bodyFailure?]
  cases houtput : p.output with
  | none => rw [bodyFits_lines_iff houtput, linesFailure?_eq_none_iff]
  | some want => rw [bodyFits_document_iff houtput, documentFailure?_eq_none_iff]

theorem bodyFailure_iff {message : String} :
    p.BodyFailure r message ↔ p.bodyFailure? r = some message := by
  rw [bodyFailure?]
  constructor
  · rintro (⟨houtput, hbroken⟩ | ⟨houtput, hbroken, hread⟩ |
      ⟨houtput, hbroken, hread, hdiff, hdelta⟩ | ⟨houtput, hdiff, hdelta⟩)
    · simp only [houtput, documentFailure?_of_broken hbroken]
    · simp only [houtput, documentFailure?_of_unread hbroken hread]
    · simp only [houtput, documentFailure?_of_read hbroken hread]
      exact differenceFailure?_eq_some_iff.mpr ⟨_, hdiff, hdelta, rfl⟩
    · simp only [houtput]
      rw [← textList, textList_eq, ← textList, textList_eq] at hdiff
      exact differenceFailure?_eq_some_iff.mpr ⟨_, hdiff, hdelta, rfl⟩
  · intro h
    cases houtput : p.output with
    | none =>
      rw [houtput] at h
      obtain ⟨delta, hdiff, hdelta, rfl⟩ := differenceFailure?_eq_some_iff.mp h
      rw [← textList_eq, ← textList_eq] at hdiff
      exact .lines houtput hdiff hdelta
    | some want =>
      rw [houtput] at h
      exact bodyFailure_of_document houtput h

/-- A document that was read has no wide integers, so that it need only agree with one that has none
either. -/
theorem bodyFits_iff_agrees {want : Document} {b : Body} (houtput : p.output = some want)
    (hwant : want.isNarrow = true) : p.BodyFits b ↔ b.broken = false ∧ ∃ got,
      Document.Reader.read b.chunks.flatten = .ok got ∧ got.agrees want = true := by
  rw [bodyFits_document_iff houtput]
  refine and_congr_right fun _ => exists_congr fun got => and_congr_right fun hread => ?_
  exact Document.diff_eq_empty_iff_agrees _ (Document.Reader.isNarrow_of_read hread) hwant

theorem responseFailures_eq_nil_iff : p.responseFailures r = [] ↔
    r.status = p.status.getD 200 ∧ HeaderText r.contentType p.typeText ∧ p.BodyFits r.body := by
  rw [responseFailures, List.append_eq_nil_iff, List.append_eq_nil_iff, Option.toList_eq_nil_iff,
    Option.toList_eq_nil_iff, Option.toList_eq_nil_iff, statusFailure?_eq_none_iff,
    contentTypeFailure?_eq_none_iff, bodyFailure?_eq_none_iff, and_assoc]

/-- A response fixes what is told of it. -/
theorem tells_iff {failures : List String} :
    p.Tells r failures ↔ failures = p.responseFailures r := by
  have hstatus (messages : List String) : Noted _ (p.StatusFailure r) messages ↔ _ :=
    noted_iff (statusFailure?_eq_none_iff.trans Classical.not_not.symm) fun _ => statusFailure_iff
  have htype (messages : List String) : Noted _ (p.TypeFailure r) messages ↔ _ :=
    noted_iff (contentTypeFailure?_eq_none_iff.trans Classical.not_not.symm)
      fun _ => typeFailure_iff
  have hbody (messages : List String) : Noted _ (p.BodyFailure r) messages ↔ _ :=
    noted_iff (bodyFailure?_eq_none_iff.trans Classical.not_not.symm) fun _ _ => bodyFailure_iff
  simp only [Tells, ne_eq, hstatus, htype, hbody]
  constructor
  · rintro ⟨status, type, body, rfl, rfl, rfl, rfl⟩
    rfl
  · rintro rfl
    exact ⟨_, _, _, rfl, rfl, rfl, rfl⟩

end Failures

section Steps

variable {p}

theorem told_differenceSteps {report : String → Step} (got want : Document)
    (h : ∀ detail, Told [report detail] [p.heading ++ detail]) :
    Told (differenceSteps got.toValue want.toValue report)
      (p.differenceFailure? got want).toList := by
  obtain ⟨delta, hdelta⟩ := Document.exists_diff_eq Diff.Options.default got want
  rw [differenceSteps, differenceFailure?, hdelta]
  by_cases hempty : delta = ""
  · simpa [Except.toOption, Option.filter, hempty] using Told.nil
  · simpa [Except.toOption, Option.filter, hempty] using h _

theorem told_jsonSteps (want : Document) (r : Response) :
    Told (p.jsonSteps want r) (p.documentFailure? want r).toList := by
  rw [jsonSteps, documentFailure?]
  rcases hbytes : r.body.bytes? with _ | bytes
  · exact .fatal _
  rcases hread : Document.Reader.read bytes with failure | got
  · simpa only [hread] using .fatal _
  · simp only [hread]
    exact told_differenceSteps got want fun detail => .fatal _

theorem told_lineSteps (b : Body) : Told (p.lineSteps b) (p.linesFailure? b).toList := by
  rw [lineSteps, linesFailure?, Body.firstLines_eq_take, textList_eq, textList_eq]
  exact told_differenceSteps _ _ fun detail => .error _ .nil

theorem told_bodySteps (r : Response) : Told (p.bodySteps r) (p.bodyFailure? r).toList := by
  rw [bodySteps, bodyFailure?]
  cases p.output with
  | none => exact told_lineSteps r.body
  | some want => exact told_jsonSteps want r

theorem statusSteps_eq (r : Response) :
    p.statusSteps r = (p.statusFailure? r).toList.map .error := by
  rw [statusSteps, statusFailure?]
  split <;> rfl

theorem contentTypeSteps_eq (r : Response) :
    p.contentTypeSteps r = (p.contentTypeFailure? r).toList.map .error := by
  rw [contentTypeSteps, contentTypeFailure?]
  split <;> rfl

/-- What is wrong with the status and the type is recorded, and the body is still looked at. -/
theorem told_responseSteps (r : Response) : Told (p.responseSteps r) (p.responseFailures r) := by
  rw [responseSteps, responseFailures, statusSteps_eq, contentTypeSteps_eq, List.append_assoc,
    List.append_assoc]
  exact ((told_bodySteps r).errors _).errors _

end Steps

end Probe
end TestBench.Service
