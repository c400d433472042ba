namespace DurableCalc.Pattern

structure Depth where
  count : Nat
  before : Nat
  last : Nat
  rows : Option Nat
  deriving DecidableEq, Repr

namespace Depth

def empty : Depth :=
  ⟨0, 0, 0, none⟩

def limit : Nat := 250

def add (d : Depth) (part : Nat) : Depth :=
  { d with count := d.count + 1, before := max d.before d.last, last := part }

def wrap (d : Depth) : Depth :=
  { d with last := d.last + 1 }

def row (d : Depth) : Nat :=
  if d.count ≤ 1 then d.last else max d.before d.last + 1

def total (d : Depth) : Nat :=
  match d.rows with
  | none => d.row
  | some rows => max rows d.row + 1

def alternative (d : Depth) : Depth :=
  { empty with rows := some (max (d.rows.getD 0) d.row) }

def operand (d : Depth) : Depth :=
  { empty with rows := some d.total }

end Depth

end DurableCalc.Pattern
