import DurableCalc.Numeral

namespace DurableCalc

structure Decimal where
  significand : Nat
  exponent : Int
  deriving DecidableEq, Repr

structure Neighbourhood where
  low : Nat
  centre : Nat
  high : Nat
  unit : Nat
  closed : Bool
  deriving DecidableEq, Repr

namespace Neighbourhood

def Contains (n : Neighbourhood) (d : Decimal) : Prop :=
  let x := d.significand * Nat.pow 10 d.exponent.toNat * n.unit
  let s := Nat.pow 10 (-d.exponent).toNat
  if n.closed then n.low * s ≤ x ∧ x ≤ n.high * s else n.low * s < x ∧ x < n.high * s

instance (n : Neighbourhood) (d : Decimal) : Decidable (n.Contains d) := by
  unfold Contains
  exact inferInstanceAs (Decidable (ite _ _ _))

def magnitude (n : Neighbourhood) : Int :=
  if n.unit ≤ n.centre then Int.ofNat (Numeral.digits (n.centre / n.unit)).length
  else 1 - Int.ofNat (Numeral.digits ((n.unit - 1) / n.centre)).length

def neighbours (n : Neighbourhood) (exponent : Int) : List Decimal :=
  let step := Nat.pow 10 exponent.toNat * n.unit
  let x := n.centre * Nat.pow 10 (-exponent).toNat
  let below : Decimal := ⟨x / step, exponent⟩
  let above : Decimal := ⟨x / step + 1, exponent⟩
  if 2 * (x % step) < step then [below, above] else [above, below]

def withDigits (n : Neighbourhood) (count : Nat) : Option Decimal :=
  (n.neighbours (n.magnitude - Int.ofNat count)).find? fun d => decide (n.Contains d)

def shortest (n : Neighbourhood) (limit : Nat) : Option Decimal :=
  (List.range limit).findSome? fun k => n.withDigits (k + 1)

end Neighbourhood

namespace Decimal

def positional (d : Decimal) : List Char :=
  let ds := Numeral.digits d.significand
  let kept := (ds.reverse.dropWhile (· = '0')).reverse
  let exponent := d.exponent + Int.ofNat (ds.length - kept.length)
  let whole := Int.ofNat kept.length + exponent
  if 0 ≤ exponent then kept ++ List.replicate exponent.toNat '0'
  else if 0 < whole then kept.take whole.toNat ++ '.' :: kept.drop whole.toNat
  else '0' :: '.' :: List.replicate (-whole).toNat '0' ++ kept

end Decimal

end DurableCalc
