/-! Stable sorting and look-up in lists of named entries. -/
namespace TestBench

/-- Inserts before the first element that is not smaller. -/
def insertSorted {α : Type} (le : α → α → Bool) (a : α) : List α → List α
  | [] => [a]
  | b :: rest => if le a b then a :: b :: rest else b :: insertSorted le a rest

/-- Sorts, keeping equal elements in order. -/
def sortBy {α : Type} (le : α → α → Bool) (as : List α) : List α :=
  as.foldr (insertSorted le) []

def textLe (a b : String) : Bool := decide (a ≤ b)

def keyLe {α : Type} (a b : String × α) : Bool := textLe a.1 b.1

/-- The first entry of that name. -/
def find? {α : Type} (key : String) (entries : List (String × α)) : Option α :=
  (entries.find? fun e => e.1 == key).map (·.2)

/-- Replaces the value of an entry where it stands; a new entry goes to the end. -/
def put {α : Type} (key : String) (value : α) : List (String × α) → List (String × α)
  | [] => [(key, value)]
  | (k, v) :: rest => if k = key then (k, value) :: rest else (k, v) :: put key value rest

end TestBench
