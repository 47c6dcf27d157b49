import TestBench.Proofs.Service.Responses

/-! What a check of a service reports. The requests go to the client one after the other, and each
case is judged by what came of its own. -/
namespace TestBench.Service.Probe

open Case (Outcome Report Session Step Told outcome_failures outcome_of_ne_nil outcome_passed_iff)

section Case

variable (p : Probe)

/-- Whether what came of a request, if there was one, is what is expected. -/
def Met (x : Option Exchange) : Prop :=
  ¬(p.firstLines.isSome = true ∧ p.output.isSome = true) ∧ ∃ r, x = some (.answered r) ∧
    r.status = p.status.getD 200 ∧ HeaderText r.contentType p.typeText ∧ p.BodyFits r.body

/-- The failures of a case, given what came of its request if there was one. -/
def failures : Option Exchange → List String
  | none => ["cannot have both first_lines and json_output"]
  | some (.failed message) => [p.heading ++ (":\n" ++ message)]
  | some (.answered r) => p.responseFailures r

/-- What the report of a case says. -/
structure Fits (x : Option Exchange) (r : Report) : Prop where
  /-- it has the title of the case -/
  named : r.name = p.description.getD p.url
  /-- it has passed just when the exchange is as expected -/
  passed : r.outcome = .passed ↔ p.Met x
  /-- it has failed otherwise, and is never skipped -/
  failed : ¬p.Met x → r.outcome = .failed r.failures
  /-- that both lines and a document are expected is the only failure -/
  contradictory : x = none → r.failures = ["cannot have both first_lines and json_output"]
  /-- a request that is not answered is the only failure -/
  unanswered : ∀ message, x = some (.failed message) →
    r.failures = [p.called ++ ":\n" ++ message]
  /-- what is wrong with a response is told in order, each thing once and no matter what else is -/
  answered : ∀ response, x = some (.answered response) → p.Tells response r.failures
  /-- a body fits an expected document just when it reads as one that agrees with it, up to the kind
  of its numbers and the order of its fields -/
  agreed : ∀ want, p.output = some want → want.isNarrow = true → ∀ b : Body,
    p.BodyFits b ↔ b.broken = false ∧ ∃ got, Document.Reader.read b.chunks.flatten = .ok got ∧
      got.agrees want = true

/-- What is asked of the client for a case. -/
structure Asks (server : Net.Endpoint) (request : Request) : Prop where
  method : request.method = p.method.getD (if p.input.isSome then "POST" else "GET")
  url : request.url = "http://" ++ server.text ++ p.url
  body : request.body = p.input.map Document.compact
  /-- the headers that are given, and the type of the document unless one is given -/
  headers : ∀ name value, (name, value) ∈ request.headers ↔
    (∃ h ∈ p.headers, Text.lowerAscii h.1 = name ∧ h.2 = value) ∨
      (p.input.isSome = true ∧ name = "content-type" ∧ value = "application/json" ∧
        ∀ h ∈ p.headers, Text.lowerAscii h.1 ≠ "content-type")

/-- What comes of the request of a case after those that were sent before it, and all that has been
sent then. Nothing is sent for a case that expects both lines and a document. -/
inductive Exchanged (client : Client) (server : Net.Endpoint) (sent : List Request) :
    Option Exchange → List Request → Prop where
  | unsent (hlines : p.firstLines.isSome = true) (houtput : p.output.isSome = true) :
    Exchanged client server sent none sent
  | sent {request : Request} (hboth : ¬(p.firstLines.isSome = true ∧ p.output.isSome = true))
    (hasks : p.Asks server request) :
    Exchanged client server sent (some (client sent request)) (sent ++ [request])

end Case

/-- The reports of some cases, one after the other, and all that has been sent in the end. -/
inductive Checked (client : Client) (server : Net.Endpoint) :
    List Request → List Probe → List Report → List Request → Prop where
  | nil (sent : List Request) : Checked client server sent [] [] sent
  | cons {sent next final : List Request} {p : Probe} {ps : List Probe} {x : Option Exchange}
    {r : Report} {reports : List Report} (hx : p.Exchanged client server sent x next)
    (hr : p.Fits x r) (rest : Checked client server next ps reports final) :
    Checked client server sent (p :: ps) (r :: reports) final

section Check

variable {p : Probe} {client : Client} {server : Net.Endpoint} {sent : List Request}

theorem isContradictory_iff :
    p.isContradictory = true ↔ p.firstLines.isSome = true ∧ p.output.isSome = true := by
  simp [isContradictory]

theorem met_iff_failures {x : Option Exchange} {next : List Request}
    (h : p.Exchanged client server sent x next) : p.Met x ↔ p.failures x = [] := by
  unfold Met
  rcases h with ⟨hlines, houtput⟩ | ⟨hboth, hasks⟩
  · simp [failures]
  · cases client sent _ with
    | failed message => simp [failures]
    | answered r => simp [failures, hboth, responseFailures_eq_nil_iff]

theorem fits_failures {x : Option Exchange} {next : List Request}
    (h : p.Exchanged client server sent x next) :
    p.Fits x ⟨p.title, Outcome.of (p.failures x) none, []⟩ := by
  have hfailures := outcome_failures (p.failures x) none
  exact
    { named := rfl
      passed := by rw [met_iff_failures h, outcome_passed_iff]
      failed := fun hmet => by
        rw [Report.failures, hfailures]
        exact outcome_of_ne_nil (mt (met_iff_failures h).mpr hmet)
      contradictory := fun hx => by
        rw [Report.failures, hfailures, hx]
        rfl
      unanswered := fun message hx => by
        rw [Report.failures, hfailures, hx, String.append_assoc, ← heading_eq]
        rfl
      answered := fun r hx => by
        rw [Report.failures, hfailures, hx]
        exact tells_iff.mpr rfl
      agreed := fun want houtput hwant b => bodyFits_iff_agrees houtput hwant }

theorem mem_effectiveHeaders (p : Probe) (name value : String) :
    (name, value) ∈ p.effectiveHeaders ↔
      (∃ h ∈ p.headers, Text.lowerAscii h.1 = name ∧ h.2 = value) ∨
        (p.input.isSome = true ∧ name = "content-type" ∧ value = "application/json" ∧
          ∀ h ∈ p.headers, Text.lowerAscii h.1 ≠ "content-type") := by
  rw [effectiveHeaders, List.mem_append, or_comm]
  refine or_congr (by simp [Prod.ext_iff]) ?_
  by_cases hname : name = "content-type" <;> cases p.input.isSome <;> simp [hname]

theorem asks_request (p : Probe) (server : Net.Endpoint) : p.Asks server (p.request server) where
  method := by
    rw [request, effectiveMethod]
    cases p.method <;> cases p.input <;> rfl
  url := rfl
  body := rfl
  headers := mem_effectiveHeaders p

theorem told_exchangeSteps (p : Probe) (x : Exchange) :
    Told (p.exchangeSteps x) (p.failures (some x)) := by
  cases x with
  | failed message => exact .fatal _
  | answered r => exact told_responseSteps r

/-- What a case does is told by its failures, and the client was asked for just what it expects. -/
theorem check_told (p : Probe) (client : Client) (server : Net.Endpoint) (sent : List Request) :
    ∃ x, p.Exchanged client server sent x (p.check client server sent).2 ∧
      Told (p.check client server sent).1 (p.failures x) := by
  unfold check
  by_cases hboth : p.isContradictory = true
  · obtain ⟨hlines, houtput⟩ := isContradictory_iff.mp hboth
    rw [if_pos hboth]
    exact ⟨none, .unsent hlines houtput, .fatal _⟩
  · rw [if_neg hboth]
    exact ⟨_, .sent (mt isContradictory_iff.mpr hboth) (asks_request p server),
      told_exchangeSteps p _⟩

/-- One case adds one report, which fits what came of its request. -/
theorem checkOne_reports (client : Client) (server : Net.Endpoint) (run : Session × List Request)
    (p : Probe) : ∃ x r, p.Exchanged client server run.2 x (checkOne (.ok client) server run p).2 ∧
      p.Fits x r ∧ (checkOne (.ok client) server run p).1.reports = run.1.reports ++ [r] := by
  obtain ⟨x, hx, htold⟩ := check_told p client server run.2
  exact ⟨x, _, hx, fits_failures hx, htold.run run.1 p.title⟩

theorem checked_foldl (client : Client) (server : Net.Endpoint) (run : Session × List Request)
    (ps : List Probe) : ∃ reports,
      (ps.foldl (checkOne (.ok client) server) run).1.reports = run.1.reports ++ reports ∧
      Checked client server run.2 ps reports (ps.foldl (checkOne (.ok client) server) run).2 := by
  induction ps generalizing run with
  | nil => exact ⟨[], (List.append_nil _).symm, .nil run.2⟩
  | cons p ps ih =>
    obtain ⟨x, r, hx, hr, hone⟩ := checkOne_reports client server run p
    obtain ⟨reports, hrest, hchecked⟩ := ih (checkOne (.ok client) server run p)
    refine ⟨r :: reports, ?_, .cons hx hr hchecked⟩
    rw [List.foldl_cons, hrest, hone, List.append_assoc, List.singleton_append]

/-- Without a client no request is sent, and each case fails for the problem that there was. -/
theorem unbuilt_foldl (problem : String) (server : Net.Endpoint) (run : Session × List Request)
    (ps : List Probe) :
    (ps.foldl (checkOne (.error problem) server) run).1.reports = run.1.reports ++ ps.map (fun p =>
        ⟨p.description.getD p.url, .failed ["cannot build HTTP client:\n" ++ problem], []⟩) ∧
      (ps.foldl (checkOne (.error problem) server) run).2 = run.2 := by
  induction ps generalizing run with
  | nil => exact ⟨(List.append_nil _).symm, rfl⟩
  | cons p ps ih =>
    have hone : (checkOne (.error problem) server run p).1.reports = _ :=
      (Told.fatal _).run run.1 p.title
    obtain ⟨hrest, hsent⟩ := ih (checkOne (.error problem) server run p)
    refine ⟨?_, hsent⟩
    rw [List.foldl_cons, hrest, hone, List.append_assoc, List.singleton_append]
    rfl

/-- A check of a service adds one report for each case, in order, and each says how the response to
its own request compares. The requests go to the client in that order. -/
theorem checkAll_reports (client : Except String Client) (server : Net.Endpoint) (s : Session)
    (ps : List Probe) :
    ∃ reports, (checkAll client server s ps).1.reports = s.reports ++ reports ∧
      match client with
      | .ok client => Checked client server [] ps reports (checkAll (.ok client) server s ps).2
      | .error problem =>
        reports = ps.map (fun p =>
          ⟨p.description.getD p.url, .failed ["cannot build HTTP client:\n" ++ problem], []⟩) ∧
        (checkAll (.error problem) server s ps).2 = [] := by
  cases client with
  | ok client => exact checked_foldl client server (s, []) ps
  | error problem =>
    obtain ⟨hreports, hsent⟩ := unbuilt_foldl problem server (s, []) ps
    exact ⟨_, hreports, rfl, hsent⟩

end Check

/-- A case that expects both lines and a document sends nothing, so that the two responses there are
go to the next two cases. -/
theorem checkAll_reports_hosts :
    let both : Probe := ⟨none, none, "/both", [], none, "text/plain", none, some [], some .null⟩
    let lines : Probe :=
      { both with url := "/lines", firstLines := some ["up", "4 hosts"], output := none }
    let info : Probe :=
      { both with description := some "info", url := "/info", input := some (.bool true),
                   firstLines := none, output := some (.list [.int 1, .int 2]) }
    let gone : Probe := { lines with url := "/gone" }
    let hosts : Response := ⟨200, some (Text.encode "text/plain"),
      ⟨[Text.encode "up\r", Text.encode "\n4 hosts"], false⟩, ""⟩
    let unknown : Response := ⟨404, none, ⟨[Text.encode "[1]"], false⟩, ""⟩
    let client : Client := fun sent _ =>
      ([hosts, unknown][sent.length]?).elim (.failed "connection refused") .answered
    let run := checkAll (.ok client) ⟨.v4 0x7F000001, 8080⟩ (.start (.ofEnvironment []))
      [both, lines, info, gone]
    run.1.reports.map (fun r => (r.name, r.outcome)) =
        [("/both", .failed ["cannot have both first_lines and json_output"]),
         ("/lines", .passed),
         ("info", .failed
           ["POST /info: got status code 404, not 200",
            "POST /info Content-Type (-got, +want):\n-\n+application/json; charset=utf-8",
            "POST /info (-got, +want):\n [\n   1,\n+  2,\n ]"]),
         ("/gone", .failed ["GET /gone:\nconnection refused"])] ∧
      run.2.map (·.url) = ["http://127.0.0.1:8080/lines", "http://127.0.0.1:8080/info",
        "http://127.0.0.1:8080/gone"] := by
  intro both lines info gone hosts unknown client run
  obtain ⟨reports, hreports, hchecked⟩ := checkAll_reports (.ok client) ⟨.v4 0x7F000001, 8080⟩
    (.start (.ofEnvironment [])) [both, lines, info, gone]
  change run.1.reports = [] ++ reports at hreports
  change Checked client _ [] _ reports run.2 at hchecked
  generalize run.2 = final at hchecked ⊢
  rw [hreports, List.nil_append]
  rcases hchecked with _ | ⟨hx₁, hr₁, _ | ⟨hx₂, hr₂, _ | ⟨hx₃, hr₃, _ | ⟨hx₄, hr₄, _ | _⟩⟩⟩⟩
  obtain _ | ⟨hboth, -⟩ := hx₁
  swap
  · exact absurd ⟨rfl, rfl⟩ hboth
  obtain ⟨-, houtput⟩ | ⟨-, hasks₂⟩ := hx₂
  · cases houtput
  obtain ⟨hlines, -⟩ | ⟨-, hasks₃⟩ := hx₃
  · cases hlines
  obtain ⟨-, houtput⟩ | ⟨-, hasks₄⟩ := hx₄
  · cases houtput
  have hfirst := hr₁.failed fun h => h.1 ⟨rfl, rfl⟩
  rw [hr₁.contradictory rfl] at hfirst
  have hsecond := hr₂.passed.mpr ⟨(nomatch ·.2), hosts, rfl, rfl,
    headerText_iff.mpr (by decide +kernel), (bodyFits_lines_iff rfl).mpr (by decide +kernel)⟩
  have hthird := hr₃.failed fun ⟨_, r, hr, hstatus, _⟩ => by
    cases hr
    cases hstatus
  rw [tells_iff.mp (hr₃.answered unknown rfl)] at hthird
  have hfourth := hr₄.failed fun ⟨_, r, hr, _⟩ => nomatch hr
  rw [hr₄.unanswered _ rfl] at hfourth
  simp only [List.map_cons, List.map_nil, List.nil_append, List.cons_append, hr₁.named, hfirst,
    hr₂.named, hsecond, hr₃.named, hthird, hr₄.named, hfourth, hasks₂.url, hasks₃.url, hasks₄.url]
  exact ⟨by decide +kernel, rfl⟩

end TestBench.Service.Probe
