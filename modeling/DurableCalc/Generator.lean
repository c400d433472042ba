namespace DurableCalc.Generator

def multiplier : Int := 16807

def modulus : Int := 2147483647

def next (x : Int64) : Int64 :=
  Int64.ofInt (multiplier * x.toInt % modulus)

def orbit : Nat → Int64 → List Int64
  | 0, _ => []
  | n + 1, x => next x :: orbit n (next x)

theorem toInt_next (x : Int64) : (next x).toInt = multiplier * x.toInt % modulus := by
  have hlo : 0 ≤ multiplier * x.toInt % modulus := Int.emod_nonneg _ (by decide)
  have hhi : multiplier * x.toInt % modulus < modulus := Int.emod_lt_of_pos _ (by decide)
  have hm : modulus = 2147483647 := rfl
  exact Int64.toInt_ofInt_of_le (by omega) (by omega)

end DurableCalc.Generator
