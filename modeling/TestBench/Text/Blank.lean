/-! White space in the sense of the Unicode property White_Space. -/
namespace TestBench.Text

/-- Closed ranges of code points, ascending and apart. -/
def blankRanges : List (Nat × Nat) :=
  [(0x09, 0x0D), (0x20, 0x20), (0x85, 0x85), (0xA0, 0xA0), (0x1680, 0x1680), (0x2000, 0x200A),
   (0x2028, 0x2029), (0x202F, 0x202F), (0x205F, 0x205F), (0x3000, 0x3000)]

def inRanges (ranges : List (Nat × Nat)) (n : Nat) : Bool :=
  ranges.any fun r => r.1 ≤ n && n ≤ r.2

def isBlank (c : Char) : Bool := inRanges blankRanges c.toNat

/-- Drops what `p` accepts at both ends. -/
def trimList (p : Char → Bool) (cs : List Char) : List Char :=
  ((cs.dropWhile p).reverse.dropWhile p).reverse

def trimWhere (p : Char → Bool) (s : String) : String := String.ofList (trimList p s.toList)

def trim (s : String) : String := trimWhere isBlank s

def lowerAscii (s : String) : String := String.ofList (s.toList.map Char.toLower)

/-- The text before and after the first `c`. -/
def splitOnce (c : Char) (s : String) : Option (String × String) :=
  match s.toList.dropWhile (· != c) with
  | [] => none
  | _ :: rest => some (String.ofList (s.toList.takeWhile (· != c)), String.ofList rest)

def splitChars (c : Char) : List Char → List (List Char)
  | [] => [[]]
  | d :: rest =>
    if d = c then [] :: splitChars c rest
    else match splitChars c rest with
      | [] => [[d]]
      | piece :: pieces => (d :: piece) :: pieces

/-- The lines of a message: a line feed ends a line, one carriage return before it is dropped,
and a last line needs no end. -/
def lines (s : String) : List String :=
  let pieces := splitChars '\n' s.toList
  let closed := pieces.dropLast.map fun piece =>
    match piece.getLast? with
    | some '\r' => piece.dropLast
    | _ => piece
  let last := pieces.getLast?.getD []
  (closed ++ if last.isEmpty then [] else [last]).map String.ofList

end TestBench.Text
