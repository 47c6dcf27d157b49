import TestBench.Net.Url
import TestBench.Service.Probe

/-! A client for trials. What it sends is answered by given responses, one after the other; none of
these leads to another address. -/
namespace TestBench.Service.Loopback

/-- The address a request goes to, unless none can be made of its text. -/
def address? (r : Request) : Option Net.Url :=
  Net.Url.parse? (String.ofList (r.url.toList.drop "http://".length))

def arrives (r : Request) : Bool := (address? r).any (·.isSendable)

/-- These come without a body, whatever was announced. -/
def isBodiless (method : String) (status : Nat) : Bool :=
  method == "HEAD" || status == 204 || status == 304 || method == "CONNECT" && status / 100 == 2

/-- A response as the client that asked with this method sees it. -/
def receivedBy (method : String) (r : Response) : Response :=
  if isBodiless method r.status then { r with body := ⟨[], false⟩ } else r

/-- Once all responses are used up, nothing listens any more. -/
def client (responses : List Response) : Client := fun sent r =>
  match address? r with
  | none => .failed "builder error"
  | some url =>
    if url.isSendable then
      match responses[(sent.filter arrives).length]? with
      | some response => .answered (receivedBy r.method response)
      | none => .failed ("error sending request for url (" ++ url.text ++ ")")
    else .failed ("builder error for url (" ++ url.text ++ ")")

/-- A request on its way: what it names, and the headers in order. -/
structure Arrival where
  method : String
  target : String
  headers : List (String × String)
  body : String
  deriving DecidableEq, Repr

/-- A client accepts anything unless told otherwise. -/
def sentHeaders (given : List (String × String)) : List (String × String) :=
  let headers := if given.any (·.1 == "accept") then given else ("accept", "*/*") :: given
  sortBy (fun a b => if a.1 = b.1 then textLe a.2 b.2 else textLe a.1 b.1) headers

def arrival? (r : Request) : Option Arrival :=
  ((address? r).filter (·.isSendable)).map fun url =>
    { method := r.method
      target := url.target
      headers := sentHeaders r.headers
      body := r.body.getD "" }

end TestBench.Service.Loopback
