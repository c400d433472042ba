import DurableCalc.Generator
import DurableCalc.Help
import DurableCalc.Median

namespace DurableCalc

inductive Command where
  | add
  | median
  | rand
  | help
  | exit
  | unknown (name : String)
  deriving DecidableEq, Repr

namespace Command

def ofName (name : String) : Command :=
  match Text.trim name with
  | "add" => .add
  | "median" => .median
  | "rand" => .rand
  | "help" => .help
  | "exit" => .exit
  | other => .unknown other

def noSuchCommand : String :=
  "no such command, use help for the command list"

def sum (a b : Int64) : Int :=
  a.toInt + b.toInt

def addition : Dialogue Unit := do
  let a ← Dialogue.askNumber
  let b ← Dialogue.askNumber
  Dialogue.tell (Numeral.write (sum a b))

def count (n : Int64) : Nat :=
  n.toInt.toNat

def askNumbers : Nat → List Int64 → Dialogue (List Int64)
  | 0, known => pure known
  | n + 1, known => do
      let x ← Dialogue.askNumber
      askNumbers n (x :: known)

def medianOfMany : Dialogue Unit := do
  let n ← Dialogue.askNumber
  let xs ← askNumbers (count n) []
  Dialogue.tell (Median.line xs)

def draws : Nat → Option Int64 → Dialogue Unit
  | 0, _ => pure ()
  | n + 1, previous => do
      let x ← Dialogue.draw previous
      draws n (some x)

def randomNumbers : Dialogue Unit := do
  let n ← Dialogue.askNumber
  draws (count n) none

def dialogue (patience : Nat) : Command → Dialogue Unit
  | .add => addition
  | .median => medianOfMany
  | .rand => randomNumbers
  | .help => Help.standard.dialogue patience
  | .exit => pure ()
  | .unknown _ => Dialogue.tell noSuchCommand

end Command

end DurableCalc
