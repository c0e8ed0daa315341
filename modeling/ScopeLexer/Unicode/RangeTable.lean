/-!
# Tables of character ranges

Character properties are stored as text: decimal numbers between blanks.  A `RangeTable` is read
from alternating gaps and lengths and answers membership by bisection.
-/

namespace ScopeLexer.Unicode

def readDigit (state : Array Nat × Option Nat) (c : Char) : Array Nat × Option Nat :=
  if c.isDigit then
    (state.1, some (state.2.getD 0 * 10 + (c.toNat - '0'.toNat)))
  else
    match state.2 with
    | some n => (state.1.push n, none)
    | none => state

def readNumbers (rows : List String) : Array Nat :=
  rows.foldl
    (fun numbers row => (readDigit (row.toList.foldl readDigit (numbers, none)) ' ').1)
    #[]

/-- How many entries of a table, sorted by `key`, have a key of at most `limit`. -/
def rankBy {α : Type} (table : Array α) (key : α → Nat) (limit : Nat) : Nat :=
  bisect 0 table.size
where
  bisect (low high : Nat) : Nat :=
    if _h : low < high then
      let middle := (low + high) / 2
      match table[middle]? with
      | some entry =>
          if key entry ≤ limit then bisect (middle + 1) high else bisect low middle
      | none => low
    else
      low
  termination_by high - low

/-- Disjoint ranges of code points in ascending order, each with its first code point and the one
after its last. -/
structure RangeTable where
  ranges : Array (Nat × Nat)
  deriving Repr, DecidableEq, Inhabited

namespace RangeTable

def pairUp : List Nat → Nat → Array (Nat × Nat) → Array (Nat × Nat)
  | gap :: length :: rest, position, ranges =>
      pairUp rest (position + gap + length)
        (ranges.push (position + gap, position + gap + length))
  | _, _, ranges => ranges

/-- Read a table written as alternating gaps and lengths. -/
def ofRows (rows : List String) : RangeTable :=
  ⟨pairUp (readNumbers rows).toList 0 #[]⟩

def contains (table : RangeTable) (c : Char) : Bool :=
  match table.ranges[rankBy table.ranges (·.1) c.toNat - 1]? with
  | some (first, stop) => first ≤ c.toNat && c.toNat < stop
  | none => false

end RangeTable

end ScopeLexer.Unicode
