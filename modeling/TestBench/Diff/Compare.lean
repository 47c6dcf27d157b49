import TestBench.Diff.Capture

/-! The differences between two trees, line by line: what both show, what only the first shows and
what only the second shows. -/
namespace TestBench.Diff

inductive Side where
  | both
  | got
  | want
  deriving DecidableEq, Repr

def Side.mark : Side → String
  | .both => " "
  | .got => "-"
  | .want => "+"

structure Line where
  side : Side
  text : String
  deriving DecidableEq, Repr

def Line.render (l : Line) : String := l.side.mark ++ l.text

def indent (depth : Nat) : String := String.ofList (List.replicate (2 * depth) ' ')

/-- Lines of one value at a depth: the label before the first, the suffix after the last. -/
def emit (side : Side) (depth : Nat) (label : String) (lines : List String) (suffix : String) :
    List Line :=
  (Node.mapLast (· ++ suffix) (Node.mapFirst (label ++ ·) lines)).map fun line =>
    ⟨side, indent depth ++ line⟩

def bracket (depth : Nat) (label opening closing suffix : String) (inner : List Line) :
    List Line :=
  emit .both depth label [opening] "" ++ inner ++ emit .both depth "" [closing] suffix

def keyLabel (key : String) : String := key ++ ": "

/-- The keys of both, ascending, each once. -/
def keyUnion (a b : List String) : List String :=
  (sortBy textLe (a ++ b)).eraseReps

/-- The names of the first, then those only the second has. -/
def nameUnion (a b : List String) : List String :=
  b.foldl (fun names n => if names.contains n then names else names ++ [n]) a

/-- The lines of the entries named: those of the first were compared already, entries only the
second has are shown as they are. -/
def arrange (depth : Nat) (compared : List (String × List Line)) (want : List (String × Node))
    (names : List String) : List Line :=
  names.flatMap fun name =>
    match find? name compared with
    | some lines => lines
    | none => match find? name want with
      | some w => emit .want depth (keyLabel name) w.lines ","
      | none => []

mutual

def compareAt (depth : Nat) (label : String) (suffix : String) (got want : Node) : List Line :=
  if got.equivalent want then emit .both depth label got.lines suffix
  else
    match got, want with
    | .seq gs, .seq ws => bracket depth label "[" "]" suffix (compareItems (depth + 1) gs ws)
    | .map gs, .map ws =>
      bracket depth label "\x7b" "\x7d" suffix
        (arrange (depth + 1) (compareEntries (depth + 1) ws gs) ws
          (keyUnion (gs.map (·.1)) (ws.map (·.1))))
    | .record name gs, .record other ws =>
      if name = other then
        bracket depth label (name ++ "\x7b") "\x7d" suffix
          (arrange (depth + 1) (compareEntries (depth + 1) ws gs) ws
            (nameUnion (gs.map (·.1)) (ws.map (·.1))))
      else emit .got depth label got.lines suffix ++ emit .want depth label want.lines suffix
    | _, _ => emit .got depth label got.lines suffix ++ emit .want depth label want.lines suffix

def compareItems (depth : Nat) : List Node → List Node → List Line
  | g :: gs, w :: ws => compareAt depth "" "," g w ++ compareItems depth gs ws
  | g :: gs, [] => emit .got depth "" g.lines "," ++ compareItems depth gs []
  | [], ws => ws.flatMap fun w => emit .want depth "" w.lines ","

def compareEntries (depth : Nat) (want : List (String × Node)) :
    List (String × Node) → List (String × List Line)
  | [] => []
  | (name, g) :: rest =>
    (name, match find? name want with
      | some w => compareAt depth (keyLabel name) "," g w
      | none => emit .got depth (keyLabel name) g.lines ",") :: compareEntries depth want rest

end

/-- No lines at all when the trees are equivalent. -/
def diffLines (got want : Node) : List Line :=
  if got.equivalent want then [] else compareAt 0 "" "" got want

def cannotCompare (mark : String) (message : String) : String :=
  mark ++ "!(cannot compare: " ++ message ++ ")"

/-- The failure of a formatter ends the comparison; a value that cannot describe itself is
reported on its side. -/
def Options.diff (o : Options) (got want : Value) : Except Failure String :=
  match o.capture got, o.capture want with
  | .error .durationOverflow, _ => .error .durationOverflow
  | _, .error .durationOverflow => .error .durationOverflow
  | .ok g, .ok w => .ok ("\n".intercalate ((diffLines g w).map Line.render))
  | g, w =>
    let side (mark : String) : Except Failure Node → List String
      | .error e => [cannotCompare mark e.message]
      | .ok _ => []
    .ok ("\n".intercalate (side "-" g ++ side "+" w))

end TestBench.Diff
