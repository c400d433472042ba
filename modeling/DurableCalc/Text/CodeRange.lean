namespace DurableCalc.Text

abbrev CodeRange := Nat × Nat

namespace CodeRange

def Contains (r : CodeRange) (c : Char) : Prop :=
  r.1 ≤ c.toNat ∧ c.toNat ≤ r.2

instance (r : CodeRange) (c : Char) : Decidable (r.Contains c) :=
  inferInstanceAs (Decidable (_ ∧ _))

def covers : List CodeRange → Char → Bool
  | [], _ => false
  | r :: rs, c => decide (Contains r c) || covers rs c

theorem covers_iff {rs : List CodeRange} {c : Char} :
    covers rs c = true ↔ ∃ r ∈ rs, Contains r c := by
  induction rs with
  | nil => simp [covers]
  | cons r rs ih => simp [covers, ih]

end CodeRange

end DurableCalc.Text
