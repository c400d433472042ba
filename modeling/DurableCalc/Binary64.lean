namespace DurableCalc

inductive Binary64 where
  | finite (negative : Bool) (significand : Nat) (exponent : Int)
  | infinite (negative : Bool)
  | nan
  deriving DecidableEq, Repr

structure Ratio where
  numerator : Nat
  denominator : Nat
  deriving DecidableEq, Repr

namespace Ratio

def unscale (x : Ratio) (e : Int) : Ratio :=
  ⟨x.numerator * Nat.pow 2 (-e).toNat, x.denominator * Nat.pow 2 e.toNat⟩

def floor (x : Ratio) : Nat :=
  x.numerator / x.denominator

def round (x : Ratio) : Nat :=
  let q := x.numerator / x.denominator
  let r := x.numerator % x.denominator
  if 2 * r < x.denominator then q
  else if 2 * r = x.denominator then q + q % 2
  else q + 1

end Ratio

namespace Binary64

def precision : Nat := 53

def leastExponent : Int := -1074

def greatestExponent : Int := 971

def zero (negative : Bool) : Binary64 :=
  .finite negative 0 leastExponent

def ofBits (bits : UInt64) : Binary64 :=
  let negative := decide (bits.toNat / Nat.pow 2 63 = 1)
  let exponent := bits.toNat / Nat.pow 2 52 % Nat.pow 2 11
  let fraction := bits.toNat % Nat.pow 2 52
  if exponent = 0 then .finite negative fraction leastExponent
  else if exponent = 2047 then
    if fraction = 0 then .infinite negative else .nan
  else .finite negative (Nat.pow 2 52 + fraction) (Int.ofNat exponent - 1075)

def roundingExponent (x : Ratio) : Int :=
  let e := Int.ofNat x.numerator.log2 - Int.ofNat x.denominator.log2 - 52
  max leastExponent (if (x.unscale e).floor < Nat.pow 2 52 then e - 1 else e)

def ofRounded (negative : Bool) (m : Nat) (e : Int) : Binary64 :=
  let (m, e) := if m = Nat.pow 2 precision then (Nat.pow 2 52, e + 1) else (m, e)
  if greatestExponent < e then .infinite negative else .finite negative m e

def nearest (negative : Bool) (x : Ratio) : Binary64 :=
  if x.numerator = 0 then zero negative
  else ofRounded negative (x.unscale (roundingExponent x)).round (roundingExponent x)

def ofInt (n : Int) : Binary64 :=
  nearest (decide (n < 0)) ⟨n.natAbs, 1⟩

def ofDyadic (m : Int) (e : Int) : Binary64 :=
  nearest (decide (m < 0)) ⟨m.natAbs * Nat.pow 2 e.toNat, Nat.pow 2 (-e).toNat⟩

def signed (negative : Bool) (m : Nat) : Int :=
  if negative then -Int.ofNat m else Int.ofNat m

def add : Binary64 → Binary64 → Binary64
  | .finite s m e, .finite t n f =>
      let g := min e f
      let sum := signed s (m * Nat.pow 2 (e - g).toNat) + signed t (n * Nat.pow 2 (f - g).toNat)
      if sum = 0 then zero (s && t) else ofDyadic sum g
  | .finite .., .infinite t => .infinite t
  | .infinite s, .finite .. => .infinite s
  | .infinite s, .infinite t => if s = t then .infinite s else .nan
  | .nan, _ => .nan
  | _, .nan => .nan

def half : Binary64 → Binary64
  | .finite s m e => nearest s ⟨m * Nat.pow 2 (e - 1).toNat, Nat.pow 2 (1 - e).toNat⟩
  | .infinite s => .infinite s
  | .nan => .nan

end Binary64

end DurableCalc
