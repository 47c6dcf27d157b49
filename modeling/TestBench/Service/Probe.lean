import TestBench.Case.Session
import TestBench.Diff.Compare
import TestBench.Document.Reader
import TestBench.Net.AddressText
import TestBench.Service.Lines

/-! Checking what a service answers: one request, and what its response should look like. -/
namespace TestBench.Service

open Case (Session Step)

structure Probe where
  description : Option String
  method : Option String
  /-- path and query, appended to the address of the service -/
  url : String
  headers : List (String × String)
  input : Option Document
  contentType : String
  status : Option Nat
  firstLines : Option (List String)
  output : Option Document

structure Response where
  status : Nat
  contentType : Option Bytes
  body : Body
  /-- what is said of a body that breaks off -/
  problem : String
  deriving DecidableEq, Repr

/-- What a client is asked to send. -/
structure Request where
  method : String
  url : String
  headers : List (String × String)
  body : Option String
  deriving DecidableEq, Repr

/-- What comes of a request. -/
inductive Exchange where
  | failed (message : String)
  | answered (r : Response)
  deriving DecidableEq, Repr

/-- What comes of a request, after those that were sent before it. Following a response to another
address, knowing which of them have no body, and giving up in time are up to the client. -/
abbrev Client := List Request → Request → Exchange

def jsonContentType : String := "application/json; charset=utf-8"

namespace Response

/-- A header value is text if it is printable ASCII. -/
def isHeaderText (b : UInt8) : Bool := b == 0x09 || (0x20 ≤ b && b ≤ 0x7E)

/-- No text if the header is missing or no text. -/
def contentTypeText (r : Response) : String :=
  match r.contentType with
  | some bytes => if bytes.all isHeaderText then Text.decodeLossy bytes else ""
  | none => ""

end Response

namespace Probe

def title (p : Probe) : String := p.description.getD p.url

def effectiveMethod (p : Probe) : String :=
  match p.method, p.input with
  | some method, _ => method
  | none, none => "GET"
  | none, some _ => "POST"

def expectedStatus (p : Probe) : Nat := p.status.getD 200

/-- A body expected as JSON fixes the type of the content. -/
def expectedContentType (p : Probe) : String :=
  match p.output with
  | some _ => jsonContentType
  | none => p.contentType

def isContradictory (p : Probe) : Bool := p.firstLines.isSome && p.output.isSome

def heading (p : Probe) : String := p.effectiveMethod ++ " " ++ p.url

def fatal (p : Probe) (detail : String) : Step := .abort (.fatal (p.heading ++ detail))

def statusSteps (p : Probe) (r : Response) : List Step :=
  if r.status = p.expectedStatus then []
  else
    [.error (p.heading ++ ": got status code " ++ toString r.status ++ ", not " ++
      toString p.expectedStatus)]

def contentTypeSteps (p : Probe) (r : Response) : List Step :=
  if r.contentTypeText = p.expectedContentType then []
  else
    [.error (p.heading ++ " Content-Type (-got, +want):\n-" ++ r.contentTypeText ++ "\n+" ++
      p.expectedContentType)]

/-- What the difference of two values gives rise to, if there is any. -/
def differenceSteps (got want : Value) (report : String → Step) : List Step :=
  match Diff.Options.default.diff got want with
  | .error e => [.panic (.text e.message)]
  | .ok delta => if delta.isEmpty then [] else [report (" (-got, +want):\n" ++ delta)]

def jsonSteps (p : Probe) (want : Document) (r : Response) : List Step :=
  match r.body.bytes? with
  | none => [p.fatal (":\n" ++ r.problem)]
  | some bytes =>
    match Document.Reader.read bytes with
    | .error failure => [p.fatal (":\n" ++ failure.message)]
    | .ok got => differenceSteps got.toValue want.toValue p.fatal

def textList (lines : List String) : Value := .list (lines.map .text)

def lineSteps (p : Probe) (b : Body) : List Step :=
  let want := p.firstLines.getD []
  differenceSteps (textList (b.firstLines want.length)) (textList want) fun detail =>
    .error (p.heading ++ detail)

def bodySteps (p : Probe) (r : Response) : List Step :=
  match p.output with
  | some want => p.jsonSteps want r
  | none => p.lineSteps r.body

def responseSteps (p : Probe) (r : Response) : List Step :=
  p.statusSteps r ++ p.contentTypeSteps r ++ p.bodySteps r

def exchangeSteps (p : Probe) : Exchange → List Step
  | .failed message => [p.fatal (":\n" ++ message)]
  | .answered r => p.responseSteps r

/-- A header that was given replaces the one of its name that comes with a document. -/
def effectiveHeaders (p : Probe) : List (String × String) :=
  let given := p.headers.map fun (name, value) => (Text.lowerAscii name, value)
  let common := if p.input.isSome then [("content-type", "application/json")] else []
  common.filter (fun h => !given.any fun g => g.1 == h.1) ++ given

def request (p : Probe) (server : Net.Endpoint) : Request where
  method := p.effectiveMethod
  url := "http://" ++ server.text ++ p.url
  headers := p.effectiveHeaders
  body := p.input.map Document.compact

/-- The steps of a case, and all that has been sent once they are taken. -/
def check (p : Probe) (client : Client) (server : Net.Endpoint) (sent : List Request) :
    List Step × List Request :=
  if p.isContradictory then
    ([.abort (.fatal "cannot have both first_lines and json_output")], sent)
  else
    let request := p.request server
    (p.exchangeSteps (client sent request), sent ++ [request])

/-- If there is no client, because of some problem, each case fails for that alone. -/
def checkOne (client : Except String Client) (server : Net.Endpoint) :
    Session × List Request → Probe → Session × List Request
  | (s, sent), p =>
    match client with
    | .error problem =>
      (s.run p.title [.abort (.fatal ("cannot build HTTP client:\n" ++ problem))], sent)
    | .ok client =>
      match p.check client server sent with
      | (steps, sent) => (s.run p.title steps, sent)

def checkAll (client : Except String Client) (server : Net.Endpoint) (s : Session)
    (ps : List Probe) : Session × List Request :=
  ps.foldl (checkOne client server) (s, [])

end Probe
end TestBench.Service
