import TestBench.Document
import TestBench.Number.Scaled
import TestBench.Text.Utf8

/-! Reading a JSON document from bytes. A reader takes what it wants from the front and hands on
the rest; a fault remembers how many bytes were left. -/
namespace TestBench.Document.Reader

-- powers are those of the core library, whatever else is in scope
attribute [local instance (1100)] instPowNat

inductive Problem where
  | endOfList
  | endOfObject
  | endOfText
  | endOfValue
  | noColon
  | noListEnd
  | noObjectEnd
  | badWord
  | noValue
  | badEscape
  | badNumber
  | outOfRange
  | badUtf8
  | controlCharacter
  | keyNotText
  | loneSurrogate
  | trailingComma
  | trailingCharacters
  | cutEscape
  | tooDeep
  deriving DecidableEq, Repr

def Problem.text : Problem → String
  | .endOfList => "EOF while parsing a list"
  | .endOfObject => "EOF while parsing an object"
  | .endOfText => "EOF while parsing a string"
  | .endOfValue => "EOF while parsing a value"
  | .noColon => "expected `:`"
  | .noListEnd => "expected `,` or `]`"
  | .noObjectEnd => "expected `,` or `\x7d`"
  | .badWord => "expected ident"
  | .noValue => "expected value"
  | .badEscape => "invalid escape"
  | .badNumber => "invalid number"
  | .outOfRange => "number out of range"
  | .badUtf8 => "invalid unicode code point"
  | .controlCharacter => "control character (\\u0000-\\u001F) found while parsing a string"
  | .keyNotText => "key must be a string"
  | .loneSurrogate => "lone leading surrogate in hex escape"
  | .trailingComma => "trailing comma"
  | .trailingCharacters => "trailing characters"
  | .cutEscape => "unexpected end of hex escape"
  | .tooDeep => "recursion limit exceeded"

abbrev Bytes := List UInt8

structure Fault where
  problem : Problem
  left : Nat
  deriving DecidableEq, Repr

abbrev Reading := Except Fault

/-- Reads one document. -/
abbrev Item := Bytes → Reading (Document × Bytes)

/-- A fault found where the rest begins. -/
def fail {α : Type} (problem : Problem) (rest : Bytes) : Reading α :=
  .error ⟨problem, rest.length⟩

/-- A fault of the next byte, which is counted as read. -/
def failAhead {α : Type} (problem : Problem) (rest : Bytes) : Reading α :=
  .error ⟨problem, rest.length - 1⟩

def byte (c : Char) : UInt8 := UInt8.ofNat c.toNat

def isBlankByte (b : UInt8) : Bool := b == 0x20 || b == 0x0A || b == 0x09 || b == 0x0D

def skipBlanks (bytes : Bytes) : Bytes := bytes.dropWhile isBlankByte

def isDigitByte (b : UInt8) : Bool := 0x30 ≤ b && b ≤ 0x39

def startsWithDigit : Bytes → Bool
  | b :: _ => isDigitByte b
  | [] => false

def word (value : Document) : Bytes → Bytes → Reading (Document × Bytes)
  | [], rest => .ok (value, rest)
  | _ :: _, [] => fail .endOfValue []
  | expected :: more, b :: rest => if b = expected then word value more rest else fail .badWord rest

/-- Adds digits to a number while it stays below the bound; also tells how many. -/
def digitsBelow (bound : Nat) (n count : Nat) : Bytes → Nat × Nat × Bytes
  | [] => (n, count, [])
  | b :: rest =>
    let next := n * 10 + (b.toNat - 48)
    if isDigitByte b && next < bound then digitsBelow bound next (count + 1) rest
    else (n, count, b :: rest)

def significandBound : Nat := 2 ^ (64 : Nat)

def exponentBound : Nat := 2 ^ (31 : Nat)

def float (negative : Bool) (significand : Nat) (exponent : Int) (rest : Bytes) :
    Reading (Document × Bytes) :=
  match Format.double.scaled significand exponent with
  | some (.finite _ m e) => .ok (.float (.finite negative m e), rest)
  | _ => fail .outOfRange rest

/-- The digits of an exponent. One that is too large is still harmless to zero, and to any number
when it is negative. -/
def exponentDigits (negative : Bool) (significand : Nat) (start : Int) (down : Bool)
    (bytes : Bytes) : Reading (Document × Bytes) :=
  let (n, _, rest) := digitsBelow exponentBound 0 0 bytes
  if startsWithDigit rest then
    if significand ≠ 0 && !down then fail .outOfRange (rest.drop 1)
    else float negative 0 0 (rest.dropWhile isDigitByte)
  else float negative significand (start + signed down n) rest

def exponent (negative : Bool) (significand : Nat) (start : Int) (bytes : Bytes) :
    Reading (Document × Bytes) :=
  let (down, bytes) := match bytes with
    | b :: rest => if b = byte '+' then (false, rest) else if b = byte '-' then (true, rest)
      else (false, b :: rest)
    | [] => (false, [])
  match bytes with
  | [] => fail .endOfValue []
  | b :: rest =>
    if isDigitByte b then exponentDigits negative significand start down (b :: rest)
    else fail .badNumber rest

def isExponentMark (b : UInt8) : Bool := b == byte 'e' || b == byte 'E'

def afterFraction (negative : Bool) (significand : Nat) (start : Int) : Item
  | [] => float negative significand start []
  | b :: rest =>
    if isExponentMark b then exponent negative significand start rest
    else float negative significand start (b :: rest)

/-- The digits after the point; those that would overflow the significand are passed over. -/
def fraction (negative : Bool) (significand : Nat) (start : Int) (bytes : Bytes) :
    Reading (Document × Bytes) :=
  let (n, count, rest) := digitsBelow significandBound significand 0 bytes
  if startsWithDigit rest then
    afterFraction negative n (start - count) (rest.dropWhile isDigitByte)
  else if count = 0 then
    failAhead (if rest.isEmpty then .endOfValue else .badNumber) rest
  else afterFraction negative n (start - count) rest

/-- A whole number; minus zero and what needs more than 64 bits are floating point. -/
def integer (negative : Bool) (n : Nat) (rest : Bytes) : Reading (Document × Bytes) :=
  if !negative then .ok (.int n, rest)
  else if 0 < n ∧ n ≤ 2 ^ (63 : Nat) then .ok (.int (-n), rest)
  else float true n 0 rest

def afterWhole (negative : Bool) (n : Nat) : Item
  | [] => integer negative n []
  | b :: rest =>
    if b = byte '.' then fraction negative n 0 rest
    else if isExponentMark b then exponent negative n 0 rest
    else integer negative n (b :: rest)

/-- After a significand that was cut off `skipped` digits early. -/
def afterLongWhole (negative : Bool) (n skipped : Nat) : Item
  | [] => float negative n skipped []
  | b :: rest =>
    if b = byte '.' then fraction negative n skipped rest
    else if isExponentMark b then exponent negative n skipped rest
    else float negative n skipped (b :: rest)

def number (negative : Bool) : Item
  | [] => fail .endOfValue []
  | b :: rest =>
    if b = byte '0' then
      if startsWithDigit rest then failAhead .badNumber rest else afterWhole negative 0 rest
    else if isDigitByte b then
      let (n, _, rest) := digitsBelow significandBound 0 0 (b :: rest)
      if startsWithDigit rest then
        afterLongWhole negative n (rest.takeWhile isDigitByte).length
          (rest.dropWhile isDigitByte)
      else afterWhole negative n rest
    else fail .badNumber rest

def hexByte? (b : UInt8) : Option Nat :=
  if isDigitByte b then some (b.toNat - 48)
  else if byte 'a' ≤ b ∧ b ≤ byte 'f' then some (b.toNat - 87)
  else if byte 'A' ≤ b ∧ b ≤ byte 'F' then some (b.toNat - 55)
  else none

/-- The value of four hexadecimal digits. -/
def hexUnit : Bytes → Reading (Nat × Bytes)
  | a :: b :: c :: d :: rest =>
    match hexByte? a, hexByte? b, hexByte? c, hexByte? d with
    | some a, some b, some c, some d => .ok (((a * 16 + b) * 16 + c) * 16 + d, rest)
    | _, _, _, _ => fail .badEscape rest
  | _ => fail .endOfText []

def isLeading (unit : Nat) : Bool := 0xD800 ≤ unit && unit ≤ 0xDBFF

def isTrailing (unit : Nat) : Bool := 0xDC00 ≤ unit && unit ≤ 0xDFFF

def codePoint (n : Nat) : Bytes := Text.encode (String.singleton (Char.ofNat n))

/-- The mark of a second unit, which a leading one needs. -/
def unitMark : Bytes → Reading (Unit × Bytes)
  | [] => fail .endOfText []
  | [b] => if b = byte '\\' then fail .endOfText [] else fail .cutEscape []
  | b :: c :: rest =>
    if b ≠ byte '\\' then fail .cutEscape (c :: rest)
    else if c ≠ byte 'u' then fail .cutEscape rest
    else .ok ((), rest)

/-- A character given by one unit or by a pair of surrogates. -/
def unicodeEscape (bytes : Bytes) : Reading (Bytes × Bytes) := do
  let (unit, rest) ← hexUnit bytes
  if isTrailing unit then fail .loneSurrogate rest
  else if isLeading unit then
    let (_, rest) ← unitMark rest
    let (second, rest) ← hexUnit rest
    if isTrailing second then
      .ok (codePoint ((unit - 0xD800) * 1024 + (second - 0xDC00) + 0x10000), rest)
    else fail .loneSurrogate rest
  else .ok (codePoint unit, rest)

/-- What stands after a backslash. -/
def escape : Bytes → Reading (Bytes × Bytes)
  | [] => fail .endOfText []
  | b :: rest =>
    if b = byte '"' ∨ b = byte '\\' ∨ b = byte '/' then .ok ([b], rest)
    else if b = byte 'b' then .ok ([0x08], rest)
    else if b = byte 'f' then .ok ([0x0C], rest)
    else if b = byte 'n' then .ok ([0x0A], rest)
    else if b = byte 'r' then .ok ([0x0D], rest)
    else if b = byte 't' then .ok ([0x09], rest)
    else if b = byte 'u' then unicodeEscape rest
    else fail .badEscape rest

/-- The bytes up to the closing quote; `done` holds those before them, the last first. Every
round takes a byte. -/
def textBytes : Nat → Bytes → Bytes → Reading (Bytes × Bytes)
  | 0, _, _ => fail .endOfText []
  | _ + 1, _, [] => fail .endOfText []
  | rounds + 1, done, b :: rest =>
    if b = byte '"' then .ok (done.reverse, rest)
    else if b = byte '\\' then do
      let (escaped, rest) ← escape rest
      textBytes rounds (escaped.reverse ++ done) rest
    else if b < 0x20 then fail .controlCharacter rest
    else textBytes rounds (b :: done) rest

/-- A text after its opening quote. -/
def text (bytes : Bytes) : Reading (String × Bytes) := do
  let (data, rest) ← textBytes (bytes.length + 1) [] bytes
  match Text.decode? data with
  | some s => .ok (s, rest)
  | none => fail .badUtf8 rest

/-- The items after the first one, up to the closing bracket. -/
def moreItems (item : Item) : Nat → Bytes → Reading (List Document × Bytes)
  | 0, _ => fail .endOfList []
  | rounds + 1, bytes =>
    match skipBlanks bytes with
    | [] => failAhead .endOfList []
    | b :: rest =>
      if b = byte ']' then .ok ([], rest)
      else if b = byte ',' then
        match skipBlanks rest with
        | [] => failAhead .endOfValue []
        | c :: rest =>
          if c = byte ']' then failAhead .trailingComma (c :: rest)
          else do
            let (first, rest) ← item (c :: rest)
            let (others, rest) ← moreItems item rounds rest
            .ok (first :: others, rest)
      else failAhead .noListEnd (b :: rest)

def items (item : Item) (bytes : Bytes) : Reading (List Document × Bytes) :=
  match skipBlanks bytes with
  | [] => failAhead .endOfList []
  | b :: rest =>
    if b = byte ']' then .ok ([], rest)
    else do
      let (first, rest) ← item (b :: rest)
      let (others, rest) ← moreItems item (rest.length + 1) rest
      .ok (first :: others, rest)

/-- A field after the opening quote of its name. -/
def field (item : Item) (bytes : Bytes) : Reading ((String × Document) × Bytes) := do
  let (name, rest) ← text bytes
  match skipBlanks rest with
  | [] => failAhead .endOfObject []
  | b :: rest =>
    if b = byte ':' then do
      let (d, rest) ← item rest
      .ok ((name, d), rest)
    else failAhead .noColon (b :: rest)

def moreFields (item : Item) : Nat → Bytes → Reading (List (String × Document) × Bytes)
  | 0, _ => fail .endOfObject []
  | rounds + 1, bytes =>
    match skipBlanks bytes with
    | [] => failAhead .endOfObject []
    | b :: rest =>
      if b = byte '\x7d' then .ok ([], rest)
      else if b = byte ',' then
        match skipBlanks rest with
        | [] => failAhead .endOfValue []
        | c :: rest =>
          if c = byte '"' then do
            let (first, rest) ← field item rest
            let (others, rest) ← moreFields item rounds rest
            .ok (first :: others, rest)
          else if c = byte '\x7d' then failAhead .trailingComma (c :: rest)
          else failAhead .keyNotText (c :: rest)
      else failAhead .noObjectEnd (b :: rest)

def fields (item : Item) (bytes : Bytes) : Reading (List (String × Document) × Bytes) :=
  match skipBlanks bytes with
  | [] => failAhead .endOfObject []
  | b :: rest =>
    if b = byte '\x7d' then .ok ([], rest)
    else if b = byte '"' then do
      let (first, rest) ← field item rest
      let (others, rest) ← moreFields item (rest.length + 1) rest
      .ok (first :: others, rest)
    else failAhead .keyNotText (b :: rest)

/-- A value that is neither a list nor an object. -/
def scalar (b : UInt8) (rest : Bytes) : Reading (Document × Bytes) :=
  if b = byte 'n' then word .null (Text.encode "ull") rest
  else if b = byte 't' then word (.bool true) (Text.encode "rue") rest
  else if b = byte 'f' then word (.bool false) (Text.encode "alse") rest
  else if b = byte '-' then number true rest
  else if isDigitByte b then number false (b :: rest)
  else if b = byte '"' then (text rest).map fun (s, rest) => (.text s, rest)
  else failAhead .noValue (b :: rest)

/-- A value that nests lists and objects at most so deep. -/
def value : Nat → Item
  | depth, bytes =>
    match skipBlanks bytes with
    | [] => failAhead .endOfValue []
    | b :: rest =>
      if b = byte '[' then
        match depth with
        | 0 => failAhead .tooDeep (b :: rest)
        | depth + 1 => (items (value depth) rest).map fun (ds, rest) => (.list ds, rest)
      else if b = byte '\x7b' then
        match depth with
        | 0 => failAhead .tooDeep (b :: rest)
        | depth + 1 => (fields (value depth) rest).map fun (fs, rest) => (ofFields fs, rest)
      else scalar b rest

def depthLimit : Nat := 127

structure Position where
  line : Nat
  column : Nat
  deriving DecidableEq, Repr

/-- Lines count from one, columns the bytes read of the line. -/
def Position.after (bytes : Bytes) : Position :=
  ⟨bytes.count 0x0A + 1, (bytes.reverse.takeWhile (· != 0x0A)).length⟩

structure ReadError where
  problem : Problem
  position : Position
  deriving DecidableEq, Repr

def ReadError.message (e : ReadError) : String :=
  e.problem.text ++ " at line " ++ toString e.position.line ++ " column " ++
    toString e.position.column

def complete (bytes : Bytes) : Reading Document := do
  let (d, rest) ← value depthLimit bytes
  if (skipBlanks rest).isEmpty then .ok d else failAhead .trailingCharacters (skipBlanks rest)

/-- The document that the bytes hold, with blanks around it and nothing else. -/
def read (bytes : Bytes) : Except ReadError Document :=
  (complete bytes).mapError fun f =>
    ⟨f.problem, .after (bytes.take (bytes.length - f.left))⟩

end TestBench.Document.Reader
