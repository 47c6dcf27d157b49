import TestBench.Net.Prefix
import TestBench.Sorting

/-! Tables from address prefixes to values. An address is answered by its longest prefix. -/
namespace TestBench.Net

structure SubnetTable (α : Type) where
  /-- ascending by address, then by length; each prefix once -/
  entries : List (Prefix × α)
  deriving Repr

namespace SubnetTable

variable {α : Type}

def empty : SubnetTable α := ⟨[]⟩

def insertEntry (p : Prefix) (value : α) : List (Prefix × α) → List (Prefix × α)
  | [] => [(p, value)]
  | (q, v) :: rest =>
    match p.order q with
    | .lt => (p, value) :: (q, v) :: rest
    | .eq => (q, value) :: rest
    | .gt => (q, v) :: insertEntry p value rest

def insert (t : SubnetTable α) (p : Prefix) (value : α) : SubnetTable α :=
  ⟨insertEntry p value t.entries⟩

def get? (t : SubnetTable α) (p : Prefix) : Option α :=
  (t.entries.find? fun e => e.1 == p).map (·.2)

/-- One value for every address. -/
def withDefault (value : α) : SubnetTable α := empty.insert .any value

def ofList (entries : List (Prefix × α)) : SubnetTable α :=
  entries.foldl (fun t e => t.insert e.1 e.2) empty

/-- The last of the longest entries. -/
def longest (best : Option (Prefix × α)) : List (Prefix × α) → Option (Prefix × α)
  | [] => best
  | e :: rest =>
    match best with
    | some b => longest (if b.1.length ≤ e.1.length then some e else some b) rest
    | none => longest (some e) rest

def lookup (t : SubnetTable α) (a : Address) : Option α :=
  (longest none (t.entries.filter fun e => e.1.contains a)).map (·.2)

def size (t : SubnetTable α) : Nat := t.entries.length

def map {β : Type} (f : α → β) (t : SubnetTable α) : SubnetTable β :=
  ⟨t.entries.map fun e => (e.1, f e.2)⟩

/-- The entries by prefix text, every prefix in its mapped form, in the order of the texts. -/
def toTexts (t : SubnetTable α) : List (String × α) :=
  sortBy keyLe (t.entries.map fun e => (e.1.mappedText, e.2))

/-- Later texts for a prefix win over earlier ones. -/
def ofTexts (entries : List (String × α)) : Except PrefixError (SubnetTable α) :=
  entries.foldlM (fun t e => do .ok (t.insert (← Prefix.parse e.1) e.2)) empty

end SubnetTable
end TestBench.Net
