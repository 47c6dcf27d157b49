import TestBench.Net.Host

/-! Addresses of HTTP resources in their normal form: dot segments resolved, and characters that
may not stand in a part percent-encoded. -/
namespace TestBench.Net

structure Url where
  host : String
  port : Option Nat
  path : String
  query : Option String
  fragment : Option String
  deriving DecidableEq, Repr

namespace Url

def isEncodedAlways (c : Char) : Bool := c.toNat < 0x20 || 0x7E < c.toNat

def isEncodedInFragment (c : Char) : Bool :=
  isEncodedAlways c || [' ', '"', '<', '>', '`'].contains c

def isEncodedInQuery (c : Char) : Bool :=
  isEncodedAlways c || [' ', '"', '#', '<', '>', '\''].contains c

def isEncodedInPath (c : Char) : Bool :=
  isEncodedAlways c || [' ', '"', '#', '<', '>', '?', '`', '\x7b', '\x7d'].contains c

def encodeByte (b : UInt8) : List Char :=
  ['%', (Nat.digitChar (b.toNat / 16)).toUpper, (Nat.digitChar (b.toNat % 16)).toUpper]

def encodeWhere (p : Char → Bool) (cs : List Char) : List Char :=
  cs.flatMap fun c =>
    if p c then (String.singleton c).toUTF8.toList.flatMap encodeByte else [c]

/-- Both slashes separate. -/
def isSlash (c : Char) : Bool := c == '/' || c == '\\'

/-- Dots may be written percent-encoded. -/
def plainDots : List Char → List Char
  | '%' :: '2' :: e :: rest =>
    if e = 'e' ∨ e = 'E' then '.' :: plainDots rest else '%' :: '2' :: e :: plainDots rest
  | c :: rest => c :: plainDots rest
  | [] => []

def isSingleDot (segment : List Char) : Bool := plainDots segment == ['.']

def isDoubleDot (segment : List Char) : Bool := plainDots segment == ['.', '.']

/-- A letter and a colon or bar name a drive, which nothing stands above. -/
def isDrive (segment : List Char) : Bool :=
  match segment with
  | [letter, mark] => letter.isAlpha && (mark == ':' || mark == '|')
  | _ => false

def leave : List (List Char) → List (List Char)
  | [] => []
  | last :: done => if isDrive last then last :: done else done

/-- Adds a segment to those before it, the last one first. -/
def addSegment (done : List (List Char)) (segment : List Char) : List (List Char) :=
  if isDoubleDot segment then leave done
  else if isSingleDot segment then done
  else segment :: done

/-- The last segment names nothing below it, so a dot segment there leaves an empty one. -/
def addLast (done : List (List Char)) (segment : List Char) : List (List Char) :=
  if isDoubleDot segment || isSingleDot segment then [] :: addSegment done segment
  else segment :: done

def resolve (done : List (List Char)) : List (List Char) → List (List Char)
  | [] => done
  | [segment] => addLast done segment
  | segment :: rest => resolve (addSegment done segment) rest

/-- The path without its leading slash, in normal form. -/
def normalPath (cs : List Char) : String :=
  let segments := Text.splitChars '/' (cs.map fun c => if isSlash c then '/' else c)
  let segments := (resolve [] (segments.map (encodeWhere isEncodedInPath))).reverse
  String.ofList (segments.flatMap ('/' :: ·))

/-- The port, if one is given and it is not the usual one. -/
def port? (cs : List Char) : Option (Option Nat) :=
  if cs.isEmpty then some none
  else ((Literal.digits? cs).filter (· < 65536)).map fun n => if n = 80 then none else some n

/-- The text before and after the last of some character. -/
def splitLast (c : Char) (cs : List Char) : Option (List Char × List Char) :=
  if cs.contains c then
    some (((cs.reverse.dropWhile (· != c)).drop 1).reverse,
      (cs.reverse.takeWhile (· != c)).reverse)
  else none

/-- The characters before the first colon that is not within brackets. -/
def hostPart (inBrackets : Bool) : List Char → List Char
  | [] => []
  | c :: rest =>
    if c = ':' ∧ !inBrackets then []
    else c :: hostPart (c == '[' || inBrackets && c != ']') rest

def hostPort? (cs : List Char) : Option (String × Option Nat) := do
  let host := hostPart false cs
  let port ← port? (cs.drop (host.length + 1))
  some (← Host.normalize? host, port)

/-- What precedes the last at sign is no part of the address. -/
def authority? (cs : List Char) : Option (String × Option Nat) :=
  match splitLast '@' cs with
  | some (_, rest) => hostPort? rest
  | none => hostPort? cs

def isDropped (c : Char) : Bool := c == '\t' || c == '\n' || c == '\r'

def isTrimmed (c : Char) : Bool := c.toNat ≤ 0x20

def isPartEnd (c : Char) : Bool := isSlash c || c == '?' || c == '#'

/-- What follows the mark, if it is there. -/
def after? (mark : Char) : List Char → Option (List Char)
  | [] => none
  | c :: rest => if c = mark then some rest else none

/-- The address that follows the scheme and its slashes. -/
def parse? (s : String) : Option Url :=
  let cs := (Text.trimList isTrimmed s.toList).filter fun c => !isDropped c
  let rest := cs.dropWhile fun c => !isPartEnd c
  let path := rest.takeWhile fun c => c != '?' && c != '#'
  let rest := rest.dropWhile fun c => c != '?' && c != '#'
  let query := (after? '?' rest).map (·.takeWhile (· != '#'))
  let fragment := after? '#' (rest.dropWhile (· != '#'))
  (authority? (cs.takeWhile fun c => !isPartEnd c)).map fun (host, port) =>
    { host := host
      port := port
      path := normalPath (path.drop 1)
      query := query.map fun q => String.ofList (encodeWhere isEncodedInQuery q)
      fragment := fragment.map fun f => String.ofList (encodeWhere isEncodedInFragment f) }

def withMark (mark : String) : Option String → String
  | some s => mark ++ s
  | none => ""

/-- What a request names: the path and the query. -/
def target (u : Url) : String := u.path ++ withMark "?" u.query

def text (u : Url) : String :=
  "http://" ++ u.host ++ withMark ":" (u.port.map toString) ++ u.target ++
    withMark "#" u.fragment

/-- What may stand in a host and still breaks a request. -/
def isUnsendable (c : Char) : Bool := ['"', '`', '\x7b', '\x7d'].contains c

/-- A request can name an address if it is not too long and its host holds no such character. -/
def isSendable (u : Url) : Bool :=
  !u.host.toList.any isUnsendable && u.text.utf8ByteSize < 65535

end Url
end TestBench.Net
