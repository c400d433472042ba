import DurableCalc.Proofs.Retrace
import DurableCalc.Proofs.Told
import Mathlib.Algebra.Group.Int.Defs
import Mathlib.Algebra.Group.Nat.Defs

namespace DurableCalc

namespace Text

theorem trimChars_of_blanks_around {before body after : List Char}
    (hbefore : ∀ c ∈ before, isBlankChar c = true) (hafter : ∀ c ∈ after, isBlankChar c = true)
    (hbody : Solid body) : trimChars (before ++ body ++ after) = body := by
  rw [trimChars, List.append_assoc, trimStart_append_of_blank hbefore,
    trimStart_append_of_solid hbody, trimEnd_append_of_blank hafter, trimEnd_of_solid hbody]

theorem exists_blanks_before (cs : List Char) :
    ∃ before, cs = before ++ trimStart cs ∧ ∀ c ∈ before, isBlankChar c = true :=
  ⟨cs.takeWhile isBlankChar, List.takeWhile_append_dropWhile.symm,
    fun _ hc => List.mem_takeWhile_imp hc⟩

theorem exists_blanks_around (cs : List Char) :
    ∃ before after, cs = before ++ trimChars cs ++ after ∧
      (∀ c ∈ before, isBlankChar c = true) ∧ ∀ c ∈ after, isBlankChar c = true := by
  obtain ⟨before, hcs, hbefore⟩ := exists_blanks_before cs
  obtain ⟨after, hrest, hafter⟩ := exists_blanks_before (trimStart cs).reverse
  refine ⟨before, after.reverse, ?_, hbefore, fun c hc => hafter c (List.mem_reverse.mp hc)⟩
  have htrim : trimStart cs = trimChars cs ++ after.reverse := by
    rw [trimChars, trimEnd, ← List.reverse_append, ← hrest, List.reverse_reverse]
  rw [List.append_assoc, ← htrim]
  exact hcs

end Text

namespace Numeral

inductive Digits : List Char → Nat → Prop where
  | last {d : Nat} (hd : d < 10) : Digits [d.digitChar] d
  | cons {d : Nat} (hd : d < 10) {cs : List Char} {n : Nat} (hcs : Digits cs n) :
      Digits (d.digitChar :: cs) (d * 10 ^ cs.length + n)

inductive Denotes : List Char → Int → Prop where
  | bare {cs : List Char} {n : Nat} (h : Digits cs n) : Denotes cs n
  | plus {cs : List Char} {n : Nat} (h : Digits cs n) : Denotes ('+' :: cs) n
  | minus {cs : List Char} {n : Nat} (h : Digits cs n) : Denotes ('-' :: cs) (-n)

theorem Digits.ne_nil {cs : List Char} {n : Nat} (h : Digits cs n) : cs ≠ [] := by
  cases h <;> exact List.cons_ne_nil _ _

theorem digitsFrom_digitChar_cons (n : Nat) {d : Nat} (hd : d < 10) (cs : List Char) :
    digitsFrom n (d.digitChar :: cs) = digitsFrom (10 * n + d) cs := by
  rw [← List.singleton_append, digitsFrom_append, digitsFrom_digit n hd, Option.bind_some]

theorem Digits.digitsFrom_eq {cs : List Char} {m : Nat} (h : Digits cs m) (n : Nat) :
    digitsFrom n cs = some (n * 10 ^ cs.length + m) := by
  induction h generalizing n with
  | last hd =>
      rw [digitsFrom_digit n hd, List.length_singleton, Nat.pow_one, Nat.mul_comm]
  | @cons d hd cs m hcs ih =>
      rw [digitsFrom_digitChar_cons n hd, ih, List.length_cons, Nat.pow_succ, Nat.add_mul,
        Nat.mul_comm 10 n, Nat.mul_assoc, Nat.mul_comm 10, Nat.add_assoc]

theorem exists_digits {cs : List Char} (hcs : cs ≠ []) (h : ∀ c ∈ cs, c.isDigit = true) :
    ∃ m, Digits cs m := by
  induction cs with
  | nil => exact absurd rfl hcs
  | cons c cs ih =>
      obtain ⟨hc, hrest⟩ := List.forall_mem_cons.mp h
      obtain ⟨d, hd, rfl⟩ := exists_digitChar hc
      by_cases hnil : cs = []
      · subst hnil
        exact ⟨d, .last hd⟩
      · obtain ⟨m, hm⟩ := ih hnil hrest
        exact ⟨_, .cons hd hm⟩

theorem natural_eq_some_iff {cs : List Char} {n : Nat} : natural cs = some n ↔ Digits cs n := by
  have hvalue {m : Nat} (h : Digits cs m) : natural cs = some m := by
    rw [natural_of_ne_nil h.ne_nil, h.digitsFrom_eq, Nat.zero_mul, Nat.zero_add]
  refine ⟨fun h => ?_, hvalue⟩
  have hcs : cs ≠ [] := by
    rintro rfl
    cases h
  have hdigits := isDigit_of_digitsFrom ((natural_of_ne_nil hcs).symm.trans h)
  obtain ⟨m, hm⟩ := exists_digits hcs hdigits
  obtain rfl := Option.some.inj (h.symm.trans (hvalue hm))
  exact hm

theorem integer_eq_some_iff {cs : List Char} {n : Int} : integer cs = some n ↔ Denotes cs n := by
  constructor
  · intro h
    unfold integer at h
    split at h
    · obtain ⟨m, hm, rfl⟩ := Option.map_eq_some_iff.mp h
      exact .plus (natural_eq_some_iff.mp hm)
    · obtain ⟨m, hm, rfl⟩ := Option.map_eq_some_iff.mp h
      exact .minus (natural_eq_some_iff.mp hm)
    · obtain ⟨m, hm, rfl⟩ := Option.map_eq_some_iff.mp h
      exact .bare (natural_eq_some_iff.mp hm)
  · intro h
    cases h with
    | bare h =>
        rw [integer_of_isDigit (isDigit_of_digitsFrom (h.digitsFrom_eq 0)),
          natural_eq_some_iff.mpr h]
        rfl
    | plus h =>
        rw [integer, natural_eq_some_iff.mpr h]
        rfl
    | minus h =>
        rw [integer, natural_eq_some_iff.mpr h]
        rfl

theorem fits_iff {n : Int} : Fits n ↔ -2 ^ 63 ≤ n ∧ n ≤ 2 ^ 63 - 1 :=
  Iff.rfl

theorem ofInt_eq_iff {n : Int} (h : Fits n) {x : Int64} : Int64.ofInt n = x ↔ n = x.toInt := by
  obtain ⟨hlo, hhi⟩ := fits_iff.mp h
  rw [← Int64.toInt_inj, Int64.toInt_ofInt_of_le hlo (by omega)]

theorem read?_eq_some_iff {s : String} {x : Int64} :
    read? s = some x ↔ Denotes s.toList x.toInt := by
  rw [← integer_eq_some_iff, read?]
  cases integer s.toList with
  | none => simp
  | some n =>
      by_cases h : Fits n
      · simp [h, ofInt_eq_iff h]
      · have hne : n ≠ x.toInt := by
          rintro rfl
          exact h (toInt_fits x)
        simp [h, hne]

def Spells (s : String) (n : Int) : Prop :=
  ∃ before body after : String, s = before ++ body ++ after ∧
    Text.isBlank before = true ∧ Text.isBlank after = true ∧ Denotes body.toList n

theorem readTrimmed?_eq_some_iff {s : String} {x : Int64} :
    readTrimmed? s = some x ↔ Spells s x.toInt := by
  rw [readTrimmed?, read?_eq_some_iff]
  constructor
  · intro h
    obtain ⟨before, after, hs, hbefore, hafter⟩ := Text.exists_blanks_around s.toList
    refine ⟨String.ofList before, Text.trim s, String.ofList after, ?_, ?_, ?_, h⟩
    · rw [← String.toList_inj]
      simpa [Text.trim] using hs
    · simpa [Text.isBlank] using hbefore
    · simpa [Text.isBlank] using hafter
  · rintro ⟨before, body, after, rfl, hbefore, hafter, h⟩
    have hbody : Text.Solid body.toList := solid_of_integer (integer_eq_some_iff.mpr h)
    have htrim := Text.trimChars_of_blanks_around (List.all_eq_true.mp hbefore)
      (List.all_eq_true.mp hafter) hbody
    rw [Text.trim, String.toList_append, String.toList_append, htrim, String.toList_ofList]
    exact h

theorem number_eq_ok_iff_spells {s : String} {x : Int64} :
    Dialogue.number s = .ok x ↔ Spells s x.toInt :=
  Dialogue.number_eq_ok_iff.trans readTrimmed?_eq_some_iff

theorem number_eq_error_iff {s : String} :
    Dialogue.number s = .error (.notANumber s) ↔ ∀ x, Dialogue.number s ≠ .ok x := by
  rw [Dialogue.number]
  cases readTrimmed? s <;> simp

theorem parseSeed_eq_ok_iff {s : String} {x : Int64} :
    Journal.parseSeed (some s) = .ok x ↔ Dialogue.number s = .ok x := by
  rw [Dialogue.number_eq_ok_iff, Journal.parseSeed]
  cases readTrimmed? s <;> simp

theorem exists_number_iff {s : String} {n : Int} :
    (∃ x : Int64, Dialogue.number s = .ok x ∧ x.toInt = n) ↔
      Spells s n ∧ -2 ^ 63 ≤ n ∧ n ≤ 2 ^ 63 - 1 := by
  constructor
  · rintro ⟨x, hx, rfl⟩
    exact ⟨number_eq_ok_iff_spells.mp hx, fits_iff.mp (toInt_fits x)⟩
  · rintro ⟨hs, hfits⟩
    have hn : n = (Int64.ofInt n).toInt := (ofInt_eq_iff (fits_iff.mpr hfits)).mp rfl
    refine ⟨Int64.ofInt n, number_eq_ok_iff_spells.mpr ?_, hn.symm⟩
    rwa [← hn]

theorem recordedDraw_none_eq_ok_iff {position : Nat} {s : String} {x : Int64} :
    Replay.recordedDraw position none s = .ok x ↔ Denotes s.toList x.toInt := by
  rw [Replay.recordedDraw_eq_ok_iff, read?_eq_some_iff]
  exact and_iff_left nofun

theorem decimal_eq_toString (x : Int64) : x.decimal = toString x.toInt := by
  rw [Int64.decimal, write]
  cases x.toInt with
  | ofNat n => rfl
  | negSucc n => exact @String.ofList_append ['-'] _

/-- There is one notation for numbers. A text is read as a number if and only if, blanks around it
aside, it is a sign or none and decimal digits that denote one within 64 bits; the seed is read
alike, and a recorded random value too, but for the blanks. A number is written so that each of them
reads it back, as an entry that the journal takes and gives back as it is. -/
theorem numbers_read_back :
    (∀ (s : String) (n : Int), (∃ x : Int64, Dialogue.number s = .ok x ∧ x.toInt = n) ↔
      Spells s n ∧ -2 ^ 63 ≤ n ∧ n ≤ 2 ^ 63 - 1) ∧
    (∀ s, Dialogue.number s = .error (.notANumber s) ↔
      ¬ ∃ n, Spells s n ∧ -2 ^ 63 ≤ n ∧ n ≤ 2 ^ 63 - 1) ∧
    (∀ s x, Journal.parseSeed (some s) = .ok x ↔ Dialogue.number s = .ok x) ∧
    (∀ position s x, Replay.recordedDraw position none s = .ok x ↔ Denotes s.toList x.toInt) ∧
    ∀ x : Int64, x.decimal = toString x.toInt ∧ Journal.validate x.decimal = .ok () ∧
      Text.trim x.decimal = x.decimal ∧ Dialogue.number x.decimal = .ok x ∧
      Journal.parseSeed (some x.decimal) = .ok x ∧
      ∀ position, Replay.recordedDraw position none x.decimal = .ok x := by
  refine ⟨fun s n => exists_number_iff, fun s => ?_, fun s x => parseSeed_eq_ok_iff,
    fun position s x => recordedDraw_none_eq_ok_iff, fun x => ?_⟩
  · rw [number_eq_error_iff]
    simp only [← exists_number_iff]
    constructor
    · rintro hnone ⟨n, x, hx, -⟩
      exact hnone x hx
    · exact fun hnone x hx => hnone ⟨x.toInt, x, hx, rfl⟩
  · have hnumber : Dialogue.number x.decimal = .ok x :=
      Dialogue.number_eq_ok_iff.mpr (readTrimmed?_decimal x)
    refine ⟨decimal_eq_toString x, Journal.validate_eq_ok_iff.mpr (storable_decimal x),
      Text.trim_of_solid (solid_decimal x), hnumber, parseSeed_eq_ok_iff.mpr hnumber,
      fun position => ?_⟩
    exact recordedDraw_none_eq_ok_iff.mpr (read?_eq_some_iff.mp (read?_write x))

example : Dialogue.number " +007\u0085" = .ok 7 ∧
    Dialogue.number "-9223372036854775808" = .ok Int64.minValue ∧
    Dialogue.number "9223372036854775808" = .error (.notANumber "9223372036854775808") := by
  decide

end Numeral

end DurableCalc
