import TestBench.Text.Composition
import TestBench.Text.Direction
import TestBench.Text.Folding
import TestBench.Text.Printable
import TestBench.Text.Punycode

/-! Names of hosts, which may hold characters of all scripts, in the form that is looked up: plain,
composed, and labels beyond ASCII as `xn--` and their punycode. -/
namespace TestBench.Net.Domain

/-- Characters that only shape the text around them: names are the same without them. -/
def ignoredRanges : List (Nat × Nat) :=
  [(0xAD, 0xAD), (0x34F, 0x34F), (0x180B, 0x180D), (0x180F, 0x180F), (0x200B, 0x200B),
   (0x2060, 0x2060), (0x2064, 0x2064), (0xFE00, 0xFE0F), (0xFEFF, 0xFEFF), (0x1BCA0, 0x1BCA3),
   (0xE0100, 0xE01EF)]

/-- Visible characters that no name can hold, many because their plain form holds a blank, a full
stop or a character that ends a host. -/
def refusedRanges : List (Nat × Nat) :=
  [(0xA8, 0xA8), (0xAF, 0xAF), (0xB4, 0xB4), (0xB8, 0xB8), (0x2D8, 0x2DD), (0x37A, 0x37A),
   (0x384, 0x385), (0x115F, 0x1160), (0x17B4, 0x17B5), (0x1806, 0x1806), (0x1FBD, 0x1FBD),
   (0x1FBF, 0x1FC1), (0x1FCD, 0x1FCF), (0x1FDD, 0x1FDF), (0x1FED, 0x1FEE), (0x1FFD, 0x1FFE),
   (0x2017, 0x2017), (0x2024, 0x2026), (0x203E, 0x203E), (0x2047, 0x2049), (0x2100, 0x2101),
   (0x2105, 0x2106), (0x2488, 0x249B), (0x2A74, 0x2A74), (0x2FF0, 0x2FFF), (0x309B, 0x309C),
   (0x3164, 0x3164), (0x31EF, 0x31EF), (0x33C2, 0x33C2), (0x33C7, 0x33C7), (0x33D8, 0x33D8),
   (0xFC5E, 0xFC63), (0xFDFA, 0xFDFB), (0xFE12, 0xFE13), (0xFE16, 0xFE16), (0xFE19, 0xFE19),
   (0xFE30, 0xFE30), (0xFE47, 0xFE4C), (0xFE52, 0xFE52), (0xFE55, 0xFE56), (0xFE5F, 0xFE5F),
   (0xFE64, 0xFE65), (0xFE68, 0xFE68), (0xFE6A, 0xFE6B), (0xFE70, 0xFE70), (0xFE72, 0xFE72),
   (0xFE74, 0xFE74), (0xFE76, 0xFE76), (0xFE78, 0xFE78), (0xFE7A, 0xFE7A), (0xFE7C, 0xFE7C),
   (0xFE7E, 0xFE7E), (0xFF03, 0xFF03), (0xFF05, 0xFF05), (0xFF0F, 0xFF0F), (0xFF1A, 0xFF1A),
   (0xFF1C, 0xFF1C), (0xFF1E, 0xFF20), (0xFF3B, 0xFF3E), (0xFF5C, 0xFF5C), (0xFFA0, 0xFFA0),
   (0xFFE3, 0xFFE3), (0xFFFC, 0xFFFD), (0x1F100, 0x1F100)]

def isAscii (c : Char) : Bool := c.toNat < 0x80

def joiner : Char := '\u200d'

def nonJoiner : Char := '\u200c'

def isNameChar (c : Char) : Bool :=
  isAscii c || c == joiner || c == nonJoiner ||
    (Text.isPrintable c || Text.isMark c) && !Text.inRanges refusedRanges c.toNat

/-- All full stops part labels alike. -/
def fold (c : Char) : List Char :=
  if Text.inRanges ignoredRanges c.toNat then []
  else (Text.plainForm c).map fun d => if d = '。' then '.' else d

def normalize (cs : List Char) : List Char := Text.compose (cs.flatMap fold)

/-- Letters that join the next one. -/
def joiningRanges : List (Nat × Nat) :=
  [(0x620, 0x620), (0x626, 0x626), (0x628, 0x628), (0x62A, 0x62E), (0x633, 0x63F),
   (0x641, 0x647), (0x649, 0x64A), (0x66E, 0x66F), (0x678, 0x687), (0x69A, 0x6BF),
   (0x6C1, 0x6C2), (0x6CC, 0x6CC), (0x6CE, 0x6CE), (0x6D0, 0x6D1), (0x6FA, 0x6FC),
   (0x6FF, 0x6FF), (0x712, 0x714), (0x71A, 0x71D), (0x71F, 0x727), (0x729, 0x729),
   (0x72B, 0x72B), (0x72D, 0x72E), (0x74E, 0x758), (0x75C, 0x76A), (0x76D, 0x770),
   (0x772, 0x772), (0x775, 0x777), (0x77A, 0x77F), (0x7CA, 0x7EA), (0x850, 0x853),
   (0x855, 0x855), (0x8A0, 0x8A9), (0x1807, 0x1807), (0x1820, 0x1878), (0x1887, 0x18AA),
   (0xA840, 0xA872)]

/-- Letters that the one before joins. -/
def joinedRanges : List (Nat × Nat) :=
  [(0x620, 0x620), (0x622, 0x63F), (0x641, 0x64A), (0x66E, 0x66F), (0x671, 0x673),
   (0x675, 0x6D3), (0x6D5, 0x6D5), (0x6EE, 0x6EF), (0x6FA, 0x6FC), (0x6FF, 0x6FF),
   (0x710, 0x710), (0x712, 0x72F), (0x74D, 0x77F), (0x7CA, 0x7EA), (0x850, 0x855),
   (0x8A0, 0x8AC), (0x1807, 0x1807), (0x1820, 0x1878), (0x1887, 0x18AA), (0xA840, 0xA871)]

/-- Whether the first character that is no mark lies in these ranges. -/
def leadsWith (ranges : List (Nat × Nat)) (cs : List Char) : Bool :=
  match cs.dropWhile Text.isMark with
  | c :: _ => Text.inRanges ranges c.toNat
  | [] => false

/-- A virama, the class of which is 9, ends in the mark that joiners act on. -/
def isAfterVirama (before : List Char) : Bool :=
  match before with
  | c :: _ => Text.combiningClass c == 9
  | [] => false

/-- Joiners stand after a virama, non-joiners also between letters that would join. What comes
before is read backwards. -/
def joinersFit (before : List Char) : List Char → Bool
  | [] => true
  | c :: rest =>
    (if c = joiner then isAfterVirama before
      else if c = nonJoiner then
        isAfterVirama before || leadsWith joiningRanges before && leadsWith joinedRanges rest
      else true) && joinersFit (c :: before) rest

def isLabel (cs : List Char) : Bool :=
  cs.all isNameChar && !(cs.head?.any Text.isMark) && joinersFit [] cs

/-- A label given in punycode as what it stands for: a normal text beyond ASCII. -/
def decodeLabel? (cs : List Char) : Option (List Char) :=
  match cs with
  | 'x' :: 'n' :: '-' :: '-' :: rest =>
    (Punycode.decode? rest).filter fun label => !label.all isAscii && normalize label == label
  | cs => some cs

def encodeLabel (cs : List Char) : List Char :=
  if cs.all isAscii then cs else 'x' :: 'n' :: '-' :: '-' :: Punycode.encode cs

/-- If one label runs from right to left, none may be read in two ways. -/
def directionsFit (labels : List (List Char)) : Bool :=
  let directions := labels.map (·.map Text.direction)
  !directions.any Text.runsRight || directions.all Text.runsOneWay

def isForbidden (c : Char) : Bool :=
  c.toNat ≤ 0x20 || c.toNat == 0x7F ||
    ['#', '%', '/', ':', '<', '>', '?', '@', '[', '\\', ']', '^', '|'].contains c

/-- The ASCII form of a name, if it is one. -/
def toAscii? (cs : List Char) : Option (List Char) := do
  let labels ← (Text.splitChars '.' (normalize cs)).mapM decodeLabel?
  let name := List.intercalate ['.'] (labels.map encodeLabel)
  if labels.all isLabel && directionsFit labels && !name.any isForbidden then some name else none

end TestBench.Net.Domain
