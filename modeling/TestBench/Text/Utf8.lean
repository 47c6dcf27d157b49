/-! Text read from bytes that may not be valid UTF-8. -/
namespace TestBench.Text

def replacement : Char := '\ufffd'

def isContinuation (b : UInt8) : Bool := 0x80 ≤ b && b ≤ 0xBF

/-- The bytes that may follow a first byte of a sequence of three or more. -/
def secondAllowed (first second : UInt8) : Bool :=
  if first = 0xE0 then 0xA0 ≤ second && second ≤ 0xBF
  else if first = 0xED then 0x80 ≤ second && second ≤ 0x9F
  else if first = 0xF0 then 0x90 ≤ second && second ≤ 0xBF
  else if first = 0xF4 then 0x80 ≤ second && second ≤ 0x8F
  else isContinuation second

def low6 (b : UInt8) : Nat := b.toNat % 64

/-- The character at a first byte and how many of the following bytes belong to it. A sequence
that breaks off stands for one replacement character, together with its valid beginning. -/
def readChar (b : UInt8) (rest : List UInt8) : Char × Nat :=
  if b < 0x80 then (Char.ofNat b.toNat, 0)
  else if 0xC2 ≤ b && b ≤ 0xDF then
    match rest with
    | c :: _ => if isContinuation c then (Char.ofNat (b.toNat % 32 * 64 + low6 c), 1)
      else (replacement, 0)
    | [] => (replacement, 0)
  else if 0xE0 ≤ b && b ≤ 0xEF then
    match rest with
    | c :: d :: _ =>
      if secondAllowed b c then
        if isContinuation d then (Char.ofNat (b.toNat % 16 * 4096 + low6 c * 64 + low6 d), 2)
        else (replacement, 1)
      else (replacement, 0)
    | [c] => (replacement, if secondAllowed b c then 1 else 0)
    | [] => (replacement, 0)
  else if 0xF0 ≤ b && b ≤ 0xF4 then
    match rest with
    | c :: d :: e :: _ =>
      if secondAllowed b c then
        if isContinuation d then
          if isContinuation e then
            (Char.ofNat (b.toNat % 8 * 262144 + low6 c * 4096 + low6 d * 64 + low6 e), 3)
          else (replacement, 2)
        else (replacement, 1)
      else (replacement, 0)
    | [c, d] =>
      (replacement, if secondAllowed b c then if isContinuation d then 2 else 1 else 0)
    | [c] => (replacement, if secondAllowed b c then 1 else 0)
    | [] => (replacement, 0)
  else (replacement, 0)

def decodeLossyChars : List UInt8 → List Char
  | [] => []
  | b :: rest => (readChar b rest).1 :: decodeLossyChars (rest.drop (readChar b rest).2)
termination_by bytes => bytes.length
decreasing_by simp only [List.length_drop, List.length_cons]; omega

def decodeLossy (bytes : List UInt8) : String := String.ofList (decodeLossyChars bytes)

/-- The text of the bytes, if they are valid UTF-8. -/
def decode? (bytes : List UInt8) : Option String := String.fromUTF8? ⟨bytes.toArray⟩

def encode (s : String) : List UInt8 := s.toUTF8.toList

end TestBench.Text
