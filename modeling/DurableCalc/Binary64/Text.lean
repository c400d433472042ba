import DurableCalc.Binary64
import DurableCalc.Decimal

namespace DurableCalc.Binary64

def neighbourhood (m : Nat) (e : Int) : Neighbourhood :=
  let f := e - 2
  let s := Nat.pow 2 f.toNat
  let below := if m = Nat.pow 2 52 ∧ leastExponent < e then 1 else 2
  { low := (4 * m - below) * s
    centre := 4 * m * s
    high := (4 * m + 2) * s
    unit := Nat.pow 2 (-f).toNat
    closed := decide (m % 2 = 0) }

def enoughDigits : Nat := 17

def magnitudeText (m : Nat) (e : Int) : List Char :=
  match (neighbourhood m e).shortest enoughDigits with
  | some d => d.positional
  | none => ['0']

def toText : Binary64 → String
  | .finite negative m e =>
      let text := if m = 0 then ['0'] else magnitudeText m e
      String.ofList (if negative then '-' :: text else text)
  | .infinite negative => if negative then "-inf" else "inf"
  | .nan => "NaN"

end DurableCalc.Binary64
