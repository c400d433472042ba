import DurableCalc.Binary64
import DurableCalc.Numeral
import DurableCalc.Toml.Quotation

namespace DurableCalc.Toml.Number

def grouped (isDigit : Char → Bool) : List Char → Option (List Char)
  | [] => none
  | [c] => if isDigit c then some [c] else none
  | c :: '_' :: cs => if isDigit c then (c :: ·) <$> grouped isDigit cs else none
  | c :: cs => if isDigit c then (c :: ·) <$> grouped isDigit cs else none

def value (base : Nat) (ds : List Char) : Nat :=
  ds.foldl (fun n c => base * n + Quotation.hexValue c) 0

def wholePart (cs : List Char) : Option (List Char) :=
  match grouped Char.isDigit cs with
  | some ['0'] => some ['0']
  | some ('0' :: _) => none
  | ds => ds

def sign : List Char → Bool × List Char
  | '-' :: cs => (true, cs)
  | '+' :: cs => (false, cs)
  | cs => (false, cs)

def signedValue (negative : Bool) (n : Nat) : Int :=
  if negative then -Int.ofNat n else Int.ofNat n

def unbounded : List Char → Option Int
  | '0' :: 'x' :: cs => (grouped Quotation.isHex cs).map fun ds => Int.ofNat (value 16 ds)
  | '0' :: 'o' :: cs =>
      (grouped (fun c => '0' ≤ c && c ≤ '7') cs).map fun ds => Int.ofNat (value 8 ds)
  | '0' :: 'b' :: cs =>
      (grouped (fun c => c = '0' || c = '1') cs).map fun ds => Int.ofNat (value 2 ds)
  | cs => (wholePart (sign cs).2).map fun ds => signedValue (sign cs).1 (value 10 ds)

def integer? (cs : List Char) : Option Int64 :=
  match unbounded cs with
  | some n => if Numeral.Fits n then some (Int64.ofInt n) else none
  | none => none

/-- Beyond so many digits before the point, or zeros after it, every number of the format is
exceeded, or stays above. -/
def exponentLimit : Int := 400

def nearest (negative : Bool) (n : Nat) (e : Int) : Binary64 :=
  let magnitude := Int.ofNat (Numeral.digits n).length + e
  if n = 0 ∨ magnitude < -exponentLimit then .zero negative
  else if exponentLimit < magnitude then .infinite negative
  else .nearest negative ⟨n * Nat.pow 10 e.toNat, Nat.pow 10 (-e).toNat⟩

def isExponentMark (c : Char) : Bool :=
  c = 'e' || c = 'E'

def exponent? (cs : List Char) : Option Int :=
  (grouped Char.isDigit (sign cs).2).map fun ds => signedValue (sign cs).1 (value 10 ds)

def tail? : List Char → Option (List Char × Int)
  | '.' :: cs => do
      let fraction ← grouped Char.isDigit (cs.takeWhile fun c => !isExponentMark c)
      match cs.dropWhile fun c => !isExponentMark c with
      | [] => some (fraction, 0)
      | _ :: es => do
          let e ← exponent? es
          some (fraction, e)
  | c :: es => if isExponentMark c then (exponent? es).map fun e => ([], e) else none
  | [] => none

def finite? (negative : Bool) (cs : List Char) : Option Binary64 := do
  let inWhole (c : Char) : Bool := !isExponentMark c && c ≠ '.'
  let whole ← wholePart (cs.takeWhile inWhole)
  let (fraction, e) ← tail? (cs.dropWhile inWhole)
  some (nearest negative (value 10 (whole ++ fraction)) (e - Int.ofNat fraction.length))

def float? (cs : List Char) : Option Binary64 :=
  match sign cs with
  | (negative, ['i', 'n', 'f']) => some (.infinite negative)
  | (_, ['n', 'a', 'n']) => some .nan
  | (negative, ds) => (finite? negative ds).filter fun x => x ≠ .infinite false

end DurableCalc.Toml.Number
