import DurableCalc.Command
import DurableCalc.Journal.Format
import Mathlib.Data.List.TakeWhile

namespace DurableCalc

namespace Text

def Solid (cs : List Char) : Prop :=
  cs ≠ [] ∧ ∀ c ∈ cs, isBlankChar c = false

instance (cs : List Char) : Decidable (Solid cs) :=
  @instDecidableAnd _ _ _ (List.decidableBAll (fun c => isBlankChar c = false) cs)

theorem isBlankChar_of_isDigit {c : Char} (h : c.isDigit = true) : isBlankChar c = false := by
  obtain ⟨d, hd, rfl⟩ := Numeral.exists_digitChar h
  have hc := Nat.toNat_digitChar_of_lt_ten hd
  rw [isBlankChar, Bool.eq_false_iff, ne_eq, CodeRange.covers_iff]
  rintro ⟨r, hr, hlo, hhi⟩
  simp only [whiteSpace, List.mem_cons, List.not_mem_nil, or_false] at hr
  rcases hr with rfl | rfl | rfl | rfl | rfl | rfl | rfl | rfl | rfl | rfl <;>
    simp only at hlo hhi <;> omega

theorem trimStart_append_of_solid {cs : List Char} (h : Solid cs) (ds : List Char) :
    trimStart (cs ++ ds) = cs ++ ds := by
  cases cs with
  | nil => exact absurd rfl h.1
  | cons c cs => exact trimStart_cons_of_not_blank (h.2 c (by simp)) (cs ++ ds)

theorem trimStart_of_solid {cs : List Char} (h : Solid cs) : trimStart cs = cs := by
  simpa using trimStart_append_of_solid h []

theorem trimEnd_of_solid {cs : List Char} (h : Solid cs) : trimEnd cs = cs := by
  have hr : Solid cs.reverse := ⟨by simpa using h.1, by simpa using h.2⟩
  rw [trimEnd, trimStart_of_solid hr, List.reverse_reverse]

theorem trimChars_of_solid {cs : List Char} (h : Solid cs) : trimChars cs = cs := by
  rw [trimChars, trimStart_of_solid h, trimEnd_of_solid h]

theorem trim_of_solid {s : String} (h : Solid s.toList) : trim s = s := by
  rw [trim, trimChars_of_solid h, String.ofList_toList]

end Text

namespace Journal

theorem storable_of_solid {s : String} (h : Text.Solid s.toList) : Storable s := by
  refine ⟨?_, fun c hc => ?_⟩
  · rw [Bool.eq_false_iff, ne_eq, ← Text.trim_eq_empty_iff, Text.trim_of_solid h]
    intro he
    exact h.1 (by simp [he])
  · have := h.2 c hc
    constructor <;> rintro rfl <;> exact absurd this (by decide)

end Journal

namespace Numeral

theorem solid_digits (n : Nat) : Text.Solid (digits n) :=
  ⟨Nat.toDigits_ne_nil, fun _ h => Text.isBlankChar_of_isDigit (isDigit_of_mem_digits h)⟩

theorem solid_writeChars (n : Int) : Text.Solid (writeChars n) := by
  cases n with
  | ofNat n => exact solid_digits n
  | negSucc n =>
      refine ⟨by simp [writeChars], fun c hc => ?_⟩
      rcases List.mem_cons.mp hc with rfl | hc
      · decide
      · exact (solid_digits (n + 1)).2 c hc

theorem solid_write (n : Int) : Text.Solid (write n).toList := by
  simpa [write] using solid_writeChars n

theorem solid_decimal (x : Int64) : Text.Solid x.decimal.toList :=
  solid_write x.toInt

theorem isDigit_of_digitsFrom {n m : Nat} {cs : List Char} (h : digitsFrom n cs = some m) :
    ∀ c ∈ cs, c.isDigit = true := by
  induction cs generalizing n with
  | nil => exact List.forall_mem_nil _
  | cons c cs ih =>
      rw [digitsFrom] at h
      split at h
      · next hc => exact List.forall_mem_cons.mpr ⟨hc, ih h⟩
      · cases h

theorem solid_of_natural {m : Nat} {cs : List Char} (h : natural cs = some m) : Text.Solid cs := by
  cases cs with
  | nil => cases h
  | cons c cs =>
      have hdigits : ∀ c' ∈ c :: cs, c'.isDigit = true := isDigit_of_digitsFrom h
      exact ⟨List.cons_ne_nil c cs, fun c' hc => Text.isBlankChar_of_isDigit (hdigits c' hc)⟩

theorem solid_of_integer {m : Int} {cs : List Char} (h : integer cs = some m) : Text.Solid cs := by
  have hsigned {sign : Char} {ds : List Char} {k : Nat} (hsign : Text.isBlankChar sign = false)
      (hds : natural ds = some k) : Text.Solid (sign :: ds) := by
    refine ⟨List.cons_ne_nil sign ds, ?_⟩
    exact List.forall_mem_cons.mpr ⟨hsign, (solid_of_natural hds).2⟩
  unfold integer at h
  split at h
  · next ds =>
      obtain ⟨k, hk, -⟩ := Option.map_eq_some_iff.mp h
      exact hsigned (by decide) hk
  · next ds =>
      obtain ⟨k, hk, -⟩ := Option.map_eq_some_iff.mp h
      exact hsigned (by decide) hk
  · obtain ⟨k, hk, -⟩ := Option.map_eq_some_iff.mp h
    exact solid_of_natural hk

theorem solid_of_read? {s : String} {x : Int64} (h : read? s = some x) : Text.Solid s.toList := by
  unfold read? at h
  split at h
  · next m hm => exact solid_of_integer hm
  · cases h

@[simp] theorem readTrimmed?_decimal (x : Int64) : readTrimmed? x.decimal = some x := by
  rw [readTrimmed?, Text.trim_of_solid (solid_decimal x)]
  exact read?_write x

theorem storable_decimal (x : Int64) : Journal.Storable x.decimal :=
  Journal.storable_of_solid (solid_decimal x)

theorem digitsFrom_zeros {cs : List Char} (h : ∀ c ∈ cs, c = '0') : digitsFrom 0 cs = some 0 := by
  induction cs with
  | nil => rfl
  | cons c cs ih =>
      rw [h c (by simp)]
      exact ih fun d hd => h d (List.mem_cons_of_mem c hd)

theorem exists_nonzero_digit {n : Nat} (h : n ≠ 0) : ∃ c ∈ digits n, c ≠ '0' := by
  by_contra hall
  have hzeros : ∀ c ∈ digits n, c = '0' := fun c hc => by
    by_contra hne
    exact hall ⟨c, hc, hne⟩
  have := digitsFrom_digits n
  rw [digitsFrom_zeros hzeros] at this
  exact h (Option.some.inj this).symm

end Numeral

namespace Decimal

theorem solid_positional {d : Decimal} (h : d.significand ≠ 0) : Text.Solid d.positional := by
  obtain ⟨c, hc, hne⟩ := Numeral.exists_nonzero_digit h
  let kept := ((Numeral.digits d.significand).reverse.dropWhile (· = '0')).reverse
  have hkept : kept ≠ [] := by
    intro he
    have hall := List.dropWhile_eq_nil_iff.mp (List.reverse_eq_nil_iff.mp he)
    exact hne (by simpa using hall c (by simpa using hc))
  have hmem : ∀ c ∈ kept, Text.isBlankChar c = false := fun c hc =>
    (Numeral.solid_digits d.significand).2 c (by
      simpa using (List.dropWhile_suffix _).subset (List.mem_reverse.mp hc))
  have hzero : Text.isBlankChar '0' = false := by decide
  have hpoint : Text.isBlankChar '.' = false := by decide
  unfold positional
  simp only
  split
  · refine ⟨by simp [hkept, kept], fun c hc => ?_⟩
    rcases List.mem_append.mp hc with hc | hc
    · exact hmem c hc
    · rw [List.eq_of_mem_replicate hc]
      exact hzero
  · split
    · refine ⟨by simp, fun c hc => ?_⟩
      rcases List.mem_append.mp hc with hc | hc
      · exact hmem c (List.mem_of_mem_take hc)
      · rcases List.mem_cons.mp hc with rfl | hc
        · exact hpoint
        · exact hmem c (List.mem_of_mem_drop hc)
    · refine ⟨by simp, fun c hc => ?_⟩
      simp only [List.cons_append, List.mem_cons, List.mem_append, List.mem_replicate] at hc
      rcases hc with rfl | rfl | ⟨-, rfl⟩ | hc
      · exact hzero
      · exact hpoint
      · exact hzero
      · exact hmem c hc

end Decimal

namespace Neighbourhood

theorem significand_ne_zero {n : Neighbourhood} (hn : 0 < n.low) {d : Decimal}
    (h : n.Contains d) : d.significand ≠ 0 := by
  intro he
  have hpos : 0 < n.low * Nat.pow 10 (-d.exponent).toNat := Nat.mul_pos hn (Nat.pow_pos (by decide))
  simp only [Contains, he, Nat.zero_mul] at h
  split at h <;> omega

theorem contains_of_shortest {n : Neighbourhood} {limit : Nat} {d : Decimal}
    (h : n.shortest limit = some d) : n.Contains d := by
  obtain ⟨k, -, hk⟩ := List.exists_of_findSome?_eq_some h
  simpa using List.find?_some hk

end Neighbourhood

namespace Binary64

theorem low_pos {m : Nat} (hm : m ≠ 0) (e : Int) : 0 < (neighbourhood m e).low := by
  unfold neighbourhood
  refine Nat.mul_pos ?_ (Nat.pow_pos (by decide))
  split <;> omega

theorem solid_zero : Text.Solid ['0'] := by
  refine ⟨by simp, fun c hc => ?_⟩
  rw [List.mem_singleton.mp hc]
  decide

theorem solid_magnitudeText {m : Nat} (hm : m ≠ 0) (e : Int) : Text.Solid (magnitudeText m e) := by
  unfold magnitudeText
  split
  · next d hd =>
      exact Decimal.solid_positional
        (Neighbourhood.significand_ne_zero (low_pos hm e) (Neighbourhood.contains_of_shortest hd))
  · exact solid_zero

theorem solid_toText (x : Binary64) : Text.Solid x.toText.toList := by
  cases x with
  | finite negative m e =>
      have htext : Text.Solid (if m = 0 then ['0'] else magnitudeText m e) := by
        split
        · exact solid_zero
        · next hm => exact solid_magnitudeText hm e
      cases negative with
      | false => simpa [toText] using htext
      | true =>
          rw [toText, if_pos rfl, String.toList_ofList]
          refine ⟨by simp, fun c hc => ?_⟩
          rcases List.mem_cons.mp hc with rfl | hc
          · decide
          · exact htext.2 c hc
  | infinite negative => cases negative <;> decide
  | nan => decide

end Binary64

end DurableCalc
