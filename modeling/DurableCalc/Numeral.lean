import DurableCalc.Text.Blank

namespace DurableCalc.Numeral

def digitsFrom (n : Nat) : List Char → Option Nat
  | [] => some n
  | c :: cs => if c.isDigit then digitsFrom (10 * n + (c.toNat - '0'.toNat)) cs else none

def natural : List Char → Option Nat
  | [] => none
  | c :: cs => digitsFrom 0 (c :: cs)

def integer : List Char → Option Int
  | '+' :: cs => (natural cs).map Int.ofNat
  | '-' :: cs => (natural cs).map fun n => -Int.ofNat n
  | cs => (natural cs).map Int.ofNat

def Fits (n : Int) : Prop :=
  Int64.minValue.toInt ≤ n ∧ n ≤ Int64.maxValue.toInt

instance (n : Int) : Decidable (Fits n) :=
  inferInstanceAs (Decidable (_ ∧ _))

theorem toInt_fits (x : Int64) : Fits x.toInt :=
  ⟨Int64.minValue_le_toInt x, Int64.toInt_le x⟩

def read? (s : String) : Option Int64 :=
  match integer s.toList with
  | some n => if Fits n then some (Int64.ofInt n) else none
  | none => none

def readTrimmed? (s : String) : Option Int64 :=
  read? (Text.trim s)

def digits (n : Nat) : List Char :=
  Nat.toDigits 10 n

def writeChars : Int → List Char
  | .ofNat n => digits n
  | .negSucc n => '-' :: digits (n + 1)

def write (n : Int) : String :=
  String.ofList (writeChars n)

theorem digitsFrom_append (n : Nat) (cs ds : List Char) :
    digitsFrom n (cs ++ ds) = (digitsFrom n cs).bind fun m => digitsFrom m ds := by
  induction cs generalizing n with
  | nil => rfl
  | cons c cs ih =>
      cases h : c.isDigit with
      | true => simp [digitsFrom, h, ih]
      | false => simp [digitsFrom, h]

theorem digitsFrom_digit (n : Nat) {d : Nat} (h : d < 10) :
    digitsFrom n [d.digitChar] = some (10 * n + d) := by
  have hv : d.digitChar.toNat - '0'.toNat = d := Nat.toNat_digitChar_sub_48_of_lt_ten h
  have hd : d.digitChar.isDigit = true := by simp [Nat.isDigit_digitChar, h]
  simp only [digitsFrom, hd, if_true, hv]

theorem digitsFrom_digits (n : Nat) : digitsFrom 0 (digits n) = some n := by
  induction n using Nat.strongRecOn with
  | ind n ih =>
      by_cases h : n < 10
      · rw [digits, Nat.toDigits_of_lt_base h, digitsFrom_digit 0 h, Nat.mul_zero, Nat.zero_add]
      · rw [digits, Nat.toDigits_of_base_le (by decide) (by omega), digitsFrom_append]
        have := ih (n / 10) (by omega)
        rw [digits] at this
        rw [this, Option.bind_some, digitsFrom_digit _ (Nat.mod_lt n (by decide))]
        congr 1
        omega

theorem natural_of_ne_nil {cs : List Char} (h : cs ≠ []) : natural cs = digitsFrom 0 cs := by
  cases cs with
  | nil => exact absurd rfl h
  | cons c cs => rfl

theorem natural_digits (n : Nat) : natural (digits n) = some n := by
  have hne : digits n ≠ [] := Nat.toDigits_ne_nil
  rw [natural_of_ne_nil hne, digitsFrom_digits]

theorem integer_of_isDigit {cs : List Char} (h : ∀ c ∈ cs, c.isDigit = true) :
    integer cs = (natural cs).map Int.ofNat := by
  unfold integer
  split
  · exact absurd (h '+' (List.mem_cons_self ..)) (by decide)
  · exact absurd (h '-' (List.mem_cons_self ..)) (by decide)
  · rfl

theorem exists_digitChar {c : Char} (h : c.isDigit = true) : ∃ d < 10, c = d.digitChar := by
  have hc : 48 ≤ c.toNat ∧ c.toNat ≤ 57 := by
    simp only [Char.isDigit, Bool.and_eq_true, decide_eq_true_eq, ge_iff_le,
      UInt32.le_iff_toNat_le] at h
    exact h
  refine ⟨c.toNat - 48, by omega, Char.toNat_inj.mp ?_⟩
  rw [Nat.toNat_digitChar_of_lt_ten (by omega)]
  omega

theorem isDigit_of_mem_digits {n : Nat} {c : Char} (h : c ∈ digits n) : c.isDigit = true :=
  Nat.isDigit_of_mem_toDigits (by decide) (by decide) h

theorem integer_digits (n : Nat) : integer (digits n) = some (Int.ofNat n) := by
  rw [integer_of_isDigit fun c => isDigit_of_mem_digits, natural_digits]
  rfl

theorem integer_writeChars (n : Int) : integer (writeChars n) = some n := by
  cases n with
  | ofNat n => exact integer_digits n
  | negSucc n =>
      simp only [writeChars, integer, natural_digits, Option.map_some]
      rfl

@[simp] theorem read?_write (x : Int64) : read? (write x.toInt) = some x := by
  simp [read?, write, integer_writeChars, toInt_fits x]

end DurableCalc.Numeral

namespace Int64

def decimal (x : Int64) : String :=
  DurableCalc.Numeral.write x.toInt

end Int64
