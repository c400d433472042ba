import DurableCalc.Dialogue
import DurableCalc.Generator
import DurableCalc.Replay

namespace DurableCalc.Replay

def recordedDraw (position : Nat) (previous : Option Int64) (recorded : String) :
    Except Error Int64 :=
  match Numeral.read? recorded with
  | none => .error (.replayMismatch position "a generator value" recorded)
  | some value =>
      match previous with
      | none => .ok value
      | some x =>
          if Generator.next x = value then .ok value
          else .error (.replayMismatch position (Generator.next x).decimal recorded)

def settle (position : Nat) (value : Int64) : Op Unit := do
  let seed ← storedSeed
  if seed = value then advance (Generator.next value)
  else if seed ≠ Generator.next value then
    throw (.replayMismatch position seed.decimal value.decimal)

def draw (previous : Option Int64) : Op Int64 := do
  let r ← get
  match r.ahead with
  | recorded :: rest =>
      let value ← of (recordedDraw r.cursor previous recorded)
      modify consume
      if rest = [] then settle r.cursor value
      return value
  | [] =>
      let value ← storedSeed
      showLine value.decimal
      advance (Generator.next value)
      return value

def reply (patience : Nat) : (c : Dialogue.Call) → Op (Dialogue.Reply c)
  | .ask accept => read patience accept
  | .tell line => showLine line
  | .draw previous => draw previous
  | .stop error => throw error

def perform {α : Type} (patience : Nat) (d : Dialogue α) : Op α :=
  d.interpret (reply patience)

end DurableCalc.Replay
