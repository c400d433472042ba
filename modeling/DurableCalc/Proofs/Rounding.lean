import DurableCalc.Proofs.Told
import Mathlib.Algebra.Group.Nat.Defs
import Mathlib.Data.List.DropRight

namespace DurableCalc

namespace Numeral

theorem digits_mul_ten {n : Nat} (hn : n ≠ 0) : digits (10 * n) = digits n ++ ['0'] := by
  rw [digits, Nat.toDigits_of_base_le (by decide) (by omega), Nat.mul_div_cancel_left n (by decide),
    Nat.mul_mod_right]
  rfl

theorem digits_mul_pow {n : Nat} (hn : n ≠ 0) (k : Nat) :
    digits (n * 10 ^ k) = digits n ++ List.replicate k '0' := by
  induction k with
  | zero => simp
  | succ k ih =>
      have hne : n * 10 ^ k ≠ 0 := Nat.mul_ne_zero hn (Nat.pow_pos (by decide)).ne'
      rw [Nat.pow_succ, ← Nat.mul_assoc, Nat.mul_comm _ 10, digits_mul_ten hne, ih,
        List.replicate_succ', List.append_assoc]

theorem digits_half {n : Nat} (hn : n ≠ 0) : digits (10 * n + 5) = digits n ++ ['5'] := by
  have hdiv : (10 * n + 5) / 10 = n := by omega
  have hmod : (10 * n + 5) % 10 = 5 := by omega
  rw [digits, Nat.toDigits_of_base_le (by decide) (by omega), hdiv, hmod]
  rfl

end Numeral

open Numeral (digits)

namespace Decimal

theorem positional_eq {d : Decimal} {kept : List Char} {k : Nat}
    (hkept : (digits d.significand).rdropWhile (· = '0') = kept)
    (hk : (digits d.significand).length - kept.length = k) :
    d.positional =
      if 0 ≤ d.exponent + Int.ofNat k then
        kept ++ List.replicate (d.exponent + Int.ofNat k).toNat '0'
      else if 0 < Int.ofNat kept.length + (d.exponent + Int.ofNat k) then
        kept.take (Int.ofNat kept.length + (d.exponent + Int.ofNat k)).toNat
          ++ '.' :: kept.drop (Int.ofNat kept.length + (d.exponent + Int.ofNat k)).toNat
      else
        '0' :: '.' :: List.replicate (-(Int.ofNat kept.length + (d.exponent + Int.ofNat k))).toNat '0'
          ++ kept := by
  subst hkept hk
  rfl

theorem positional_of_natural (q t : Nat) :
    positional ⟨q, Int.ofNat t⟩ = digits q ++ List.replicate t '0' := by
  let kept := (digits q).rdropWhile (· = '0')
  let zeros := (digits q).rtakeWhile (· = '0')
  have hsplit : kept ++ zeros = digits q := List.rdropWhile_append_rtakeWhile
  have hzeros : zeros = List.replicate zeros.length '0' :=
    List.eq_replicate_iff.mpr ⟨rfl, fun c hc => by simpa using List.mem_rtakeWhile_imp hc⟩
  have hlength : (digits q).length - kept.length = zeros.length := by
    rw [← hsplit, List.length_append, Nat.add_sub_cancel_left]
  have hback : kept ++ List.replicate (t + zeros.length) '0'
      = digits q ++ List.replicate t '0' := by
    rw [Nat.add_comm, List.replicate_add, ← hzeros, ← List.append_assoc, hsplit]
  rw [← hback, positional_eq rfl hlength]
  exact if_pos (Int.natCast_nonneg (t + zeros.length))

theorem positional_half (n : Nat) : positional ⟨10 * n + 5, -1⟩ = digits n ++ ['.', '5'] := by
  by_cases hn : n = 0
  · subst hn
    decide
  · have hdigits := Numeral.digits_half hn
    have hkept : (digits (10 * n + 5)).rdropWhile (· = '0') = digits n ++ ['5'] := by
      rw [hdigits]
      exact List.rdropWhile_concat_neg _ _ _ (by decide)
    have hlength : (digits (10 * n + 5)).length - (digits n ++ ['5']).length = 0 := by
      rw [hdigits, Nat.sub_self]
    have hpos : 0 < (digits n).length := Nat.length_toDigits_pos
    have hwhole : Int.ofNat (digits n ++ ['5']).length + (-1 + Int.ofNat 0)
        = Int.ofNat (digits n).length := by
      simp only [List.length_append, List.length_singleton, Int.ofNat_eq_natCast]
      omega
    have hexponent : ¬ (0 : Int) ≤ -1 + Int.ofNat 0 := by decide
    rw [positional_eq hkept hlength, if_neg hexponent, hwhole, if_pos (by simpa using hpos)]
    simp

end Decimal

namespace Neighbourhood

variable {n : Neighbourhood} {k v : Nat}

theorem exponent_of_withDigits {count : Nat} {d : Decimal} (h : n.withDigits count = some d) :
    d.exponent = n.magnitude - Int.ofNat count := by
  have hmem := List.mem_of_find?_eq_some h
  unfold neighbours at hmem
  simp only at hmem
  split at hmem <;> simp only [List.mem_cons, List.not_mem_nil, or_false] at hmem <;>
    rcases hmem with rfl | rfl <;> rfl

theorem exists_shortest {limit k : Nat} {d : Decimal} (h : n.withDigits (k + 1) = some d)
    (hk : k < limit) :
    ∃ j ≤ k, ∃ d', n.withDigits (j + 1) = some d' ∧ n.shortest limit = some d' := by
  cases hshortest : n.shortest limit with
  | none =>
      have hnone := List.findSome?_eq_none_iff.mp hshortest k (List.mem_range.mpr hk)
      rw [h] at hnone
      cases hnone
  | some d' =>
      obtain ⟨before, j, after, hrange, hd', hbefore⟩ := List.findSome?_eq_some_iff.mp hshortest
      refine ⟨j, ?_, d', hd', rfl⟩
      by_contra hless
      have hmem : k ∈ before ++ j :: after := hrange ▸ List.mem_range.mpr hk
      have hsorted : (before ++ j :: after).Pairwise (· < ·) := hrange ▸ List.pairwise_lt_range
      have hafter := (List.pairwise_cons.mp (List.pairwise_append.mp hsorted).2.1).1
      rcases List.mem_append.mp hmem with hmem | hmem
      · rw [hbefore k hmem] at h
        cases h
      · rcases List.mem_cons.mp hmem with rfl | hmem
        · exact hless (Nat.le_refl k)
        · exact hless (hafter k hmem).le

structure Narrow (n : Neighbourhood) (k : Nat) : Prop where
  below : n.low < n.centre
  above : n.centre < n.high
  low : k * n.centre < k * n.low + n.unit
  high : k * n.high < k * n.centre + n.unit

theorem Narrow.unit_pos (h : n.Narrow k) : 0 < n.unit := by
  have hbelow := Nat.mul_le_mul_left k h.below.le
  have hlow := h.low
  omega

theorem withDigits_exact (h : n.Narrow k) {count q : Nat} {exponent : Int}
    (hexponent : n.magnitude - Int.ofNat count = exponent)
    (hq : n.centre * 10 ^ (-exponent).toNat = q * (10 ^ exponent.toNat * n.unit)) :
    n.withDigits count = some ⟨q, exponent⟩ := by
  have hstep : 0 < 10 ^ exponent.toNat * n.unit := Nat.mul_pos (Nat.pow_pos (by decide)) h.unit_pos
  have hscale : 0 < 10 ^ (-exponent).toNat := Nat.pow_pos (by decide)
  have hcontains : n.Contains ⟨q, exponent⟩ := by
    have hbelow := Nat.mul_lt_mul_of_pos_right h.below hscale
    have habove := Nat.mul_lt_mul_of_pos_right h.above hscale
    rw [hq] at hbelow habove
    simp only [Contains, Nat.pow_eq, Nat.mul_assoc]
    split
    · exact ⟨hbelow.le, habove.le⟩
    · exact ⟨hbelow, habove⟩
  have hneighbours : n.neighbours exponent = [⟨q, exponent⟩, ⟨q + 1, exponent⟩] := by
    simp only [neighbours, Nat.pow_eq, hq, Nat.mul_div_cancel q hstep, Nat.mul_mod_left,
      Nat.mul_zero, if_pos hstep]
  rw [withDigits, hexponent, hneighbours, List.find?_cons, decide_eq_true hcontains]

theorem bounds_of_contains {q t : Nat} (h : n.Contains ⟨q, Int.ofNat t⟩) :
    n.low ≤ q * 10 ^ t * n.unit ∧ q * 10 ^ t * n.unit ≤ n.high := by
  have hscale : (-Int.ofNat t).toNat = 0 := by simp
  simp only [Contains, Nat.pow_eq, Int.toNat_natCast, Int.ofNat_eq_natCast] at h hscale
  rw [hscale, Nat.pow_zero, Nat.mul_one, Nat.mul_one] at h
  split at h
  · exact h
  · exact ⟨h.1.le, h.2.le⟩

theorem Narrow.eq_of_contains (h : n.Narrow k) (hcentre : k * n.centre = v * n.unit) {q t : Nat}
    (hcontains : n.Contains ⟨q, Int.ofNat t⟩) : k * (q * 10 ^ t) = v := by
  obtain ⟨hbelow, habove⟩ := bounds_of_contains hcontains
  have hlow := Nat.mul_le_mul_left k hbelow
  have hhigh := Nat.mul_le_mul_left k habove
  rw [← Nat.mul_assoc] at hlow hhigh
  have hless : v * n.unit < (k * (q * 10 ^ t) + 1) * n.unit := by
    rw [← hcentre, Nat.succ_mul]
    exact Nat.lt_of_lt_of_le h.low (Nat.add_le_add_right hlow n.unit)
  have hmore : k * (q * 10 ^ t) * n.unit < (v + 1) * n.unit := by
    rw [Nat.succ_mul, ← hcentre]
    exact Nat.lt_of_le_of_lt hhigh h.high
  have hless' := Nat.lt_of_mul_lt_mul_right hless
  have hmore' := Nat.lt_of_mul_lt_mul_right hmore
  omega

theorem magnitude_of_le (hcentre : n.unit ≤ n.centre) :
    n.magnitude = Int.ofNat (digits (n.centre / n.unit)).length :=
  if_pos hcentre

theorem shortest_natural {limit : Nat} (h : n.Narrow 1) (hcentre : n.centre = v * n.unit)
    (hv : v ≠ 0) (hlimit : (digits v).length ≤ limit) :
    ∃ q t, n.shortest limit = some ⟨q, Int.ofNat t⟩ ∧ q * 10 ^ t = v := by
  have hpos : 0 < (digits v).length := Nat.length_toDigits_pos
  have hmagnitude : n.magnitude = Int.ofNat (digits v).length := by
    have hle : n.unit ≤ n.centre := by
      rw [hcentre]
      exact Nat.le_mul_of_pos_left _ (Nat.pos_of_ne_zero hv)
    rw [magnitude_of_le hle, hcentre, Nat.mul_div_cancel _ h.unit_pos]
  have hexact : n.withDigits ((digits v).length - 1 + 1) = some ⟨v, 0⟩ := by
    apply withDigits_exact h
    · rw [hmagnitude, Nat.sub_add_cancel hpos, Int.sub_self]
    · simp [hcentre]
  have hless : (digits v).length - 1 < limit := by omega
  obtain ⟨j, hj, ⟨q, exponent⟩, hd, hshortest⟩ := exists_shortest hexact hless
  -- fewer digits mean a greater exponent
  obtain ⟨t, rfl⟩ : ∃ t : Nat, exponent = Int.ofNat t := by
    have hexponent := exponent_of_withDigits hd
    rw [hmagnitude] at hexponent
    exact ⟨(digits v).length - (j + 1), by simp only [Int.ofNat_eq_natCast] at hexponent ⊢; omega⟩
  have hq := h.eq_of_contains (v := v) (by rw [Nat.one_mul, hcentre]) (contains_of_shortest hshortest)
  exact ⟨q, t, hshortest, (Nat.one_mul _).symm.trans hq⟩

theorem magnitude_half (h : n.Narrow 2) (hcentre : 2 * n.centre = (2 * v + 1) * n.unit) :
    n.magnitude = Int.ofNat (if v = 0 then 0 else (digits v).length) := by
  have hunit := h.unit_pos
  by_cases hv : v = 0
  · subst hv
    have hless : ¬ n.unit ≤ n.centre := by omega
    have hdiv : (n.unit - 1) / n.centre = 1 := by
      rw [Nat.div_eq_iff (by omega)]
      omega
    rw [magnitude, if_neg hless, hdiv]
    rfl
  · have hfloor : n.centre / n.unit = v := by
      rw [Nat.div_eq_iff hunit]
      rw [Nat.add_mul, Nat.mul_assoc] at hcentre
      omega
    have hle : n.unit ≤ n.centre := by
      by_contra hless
      rw [Nat.div_eq_of_lt (Nat.not_le.mp hless)] at hfloor
      exact hv hfloor.symm
    rw [magnitude_of_le hle, hfloor, if_neg hv]

theorem shortest_half {limit : Nat} (h : n.Narrow 2) (hcentre : 2 * n.centre = (2 * v + 1) * n.unit)
    (hlimit : (digits v).length < limit) : n.shortest limit = some ⟨10 * v + 5, -1⟩ := by
  have hmagnitude := magnitude_half h hcentre
  generalize hwhole : (if v = 0 then 0 else (digits v).length) = whole at hmagnitude
  have hexact : n.withDigits (whole + 1) = some ⟨10 * v + 5, -1⟩ := by
    apply withDigits_exact h
    · rw [hmagnitude]
      simp only [Int.ofNat_eq_natCast]
      omega
    · have htens : n.centre * 10 = 5 * (2 * n.centre) := by omega
      have hfive : 5 * (2 * v + 1) = 10 * v + 5 := by omega
      show n.centre * 10 = (10 * v + 5) * (1 * n.unit)
      rw [htens, hcentre, ← Nat.mul_assoc, hfive, Nat.one_mul]
  have hless : whole < limit := by
    rw [← hwhole]
    split <;> omega
  obtain ⟨j, hj, ⟨q, exponent⟩, hd, hshortest⟩ := exists_shortest hexact hless
  rcases Nat.lt_or_eq_of_le hj with hj | rfl
  · -- so few digits are those of a whole number
    obtain ⟨t, rfl⟩ : ∃ t : Nat, exponent = Int.ofNat t := by
      have hexponent := exponent_of_withDigits hd
      rw [hmagnitude] at hexponent
      exact ⟨whole - (j + 1), by simp only [Int.ofNat_eq_natCast] at hexponent ⊢; omega⟩
    have hq := h.eq_of_contains hcentre (contains_of_shortest hshortest)
    omega
  · rw [hshortest, ← hd, hexact]

end Neighbourhood

namespace Binary64

variable {m v : Nat} {e : Int}

theorem exists_neighbourhood (m : Nat) (he : e ≤ 2) :
    ∃ below, 1 ≤ below ∧ below ≤ 2 ∧ neighbourhood m e
      = ⟨4 * m - below, 4 * m, 4 * m + 2, 2 ^ (2 - e).toNat, decide (m % 2 = 0)⟩ := by
  have hscale : (e - 2).toNat = 0 := by omega
  have hunit : (-(e - 2)).toNat = (2 - e).toNat := by omega
  refine ⟨if m = Nat.pow 2 52 ∧ leastExponent < e then 1 else 2, ?_, ?_, ?_⟩
  · split <;> omega
  · split <;> omega
  · simp only [neighbourhood, Nat.pow_eq, hscale, hunit, Nat.pow_zero, Nat.mul_one]

theorem narrow_neighbourhood {k : Nat} (hm : m ≠ 0) (he : e ≤ 2) (hk : 2 * k < 2 ^ (2 - e).toNat) :
    (neighbourhood m e).Narrow k ∧ (neighbourhood m e).centre = 4 * m ∧
      (neighbourhood m e).unit = 2 ^ (2 - e).toNat := by
  obtain ⟨below, hpos, hle, heq⟩ := exists_neighbourhood m he
  rw [heq]
  have hless : k * (4 * m) ≤ k * (4 * m - below) + 2 * k := by
    rw [Nat.mul_comm 2 k, ← Nat.mul_add]
    exact Nat.mul_le_mul_left k (by omega)
  have hmore : k * (4 * m + 2) = k * (4 * m) + 2 * k := by
    rw [Nat.mul_add, Nat.mul_comm k 2]
  refine ⟨⟨?_, ?_, ?_, ?_⟩, rfl, rfl⟩
  · show 4 * m - below < 4 * m
    omega
  · show 4 * m < 4 * m + 2
    omega
  · exact Nat.lt_of_le_of_lt hless (Nat.add_lt_add_left hk _)
  · rw [hmore]
    exact Nat.add_lt_add_left hk _

theorem two_pow_le {i : Nat} {j : Int} (h : Int.ofNat i ≤ j) : 2 ^ i ≤ 2 ^ j.toNat :=
  Nat.pow_le_pow_right (by decide) (by simp only [Int.ofNat_eq_natCast] at h; omega)

theorem magnitudeText_natural (hm : m ≠ 0) (he : e ≤ 0) (hvalue : 4 * m = v * 2 ^ (2 - e).toNat)
    (hv : (digits v).length ≤ enoughDigits) : magnitudeText m e = digits v := by
  have hpow : 2 ^ 2 ≤ 2 ^ (2 - e).toNat := two_pow_le (by simp; omega)
  obtain ⟨hnarrow, hcentre, hunit⟩ := narrow_neighbourhood (k := 1) (e := e) hm (by omega) (by omega)
  have hne : v ≠ 0 := by
    rintro rfl
    omega
  obtain ⟨q, t, hshortest, rfl⟩ :=
    Neighbourhood.shortest_natural hnarrow (by rw [hcentre, hunit, hvalue]) hne hv
  have hq : q ≠ 0 := by
    rintro rfl
    exact hne (Nat.zero_mul _)
  rw [magnitudeText, hshortest]
  show Decimal.positional ⟨q, Int.ofNat t⟩ = _
  rw [Decimal.positional_of_natural, Numeral.digits_mul_pow hq]

theorem magnitudeText_half (hm : m ≠ 0) (he : e < 0) (hvalue : 8 * m = (2 * v + 1) * 2 ^ (2 - e).toNat)
    (hv : (digits v).length < enoughDigits) : magnitudeText m e = digits v ++ ['.', '5'] := by
  have hpow : 2 ^ 3 ≤ 2 ^ (2 - e).toNat := two_pow_le (by simp; omega)
  obtain ⟨hnarrow, hcentre, hunit⟩ := narrow_neighbourhood (k := 2) (e := e) hm (by omega) (by omega)
  have hshortest := Neighbourhood.shortest_half hnarrow
    (by rw [hcentre, hunit, ← hvalue, ← Nat.mul_assoc]) hv
  rw [magnitudeText, hshortest]
  exact Decimal.positional_half v

structure Normal (m : Nat) (e : Int) (x : Ratio) : Prop where
  le : 2 ^ 52 ≤ m
  lt : m < 2 ^ 53
  least : leastExponent ≤ e
  greatest : e ≤ greatestExponent
  value : x.numerator * 2 ^ (-e).toNat = m * (x.denominator * 2 ^ e.toNat)

variable {n d : Nat}

theorem log2_mul_two_pow {k : Nat} (hk : k ≠ 0) (i : Nat) : (k * 2 ^ i).log2 = k.log2 + i := by
  have hpos := Nat.two_pow_pos i
  rw [Nat.log2_eq_iff (Nat.mul_ne_zero hk hpos.ne')]
  constructor
  · rw [Nat.pow_add]
    exact Nat.mul_le_mul_right _ (Nat.log2_self_le hk)
  · rw [Nat.add_right_comm, Nat.pow_add]
    exact Nat.mul_lt_mul_of_pos_right Nat.lt_log2_self hpos

theorem Normal.log2_numerator (h : Normal m e ⟨n, 2 ^ d⟩) :
    n ≠ 0 ∧ (n.log2 : Int) = 52 + d + e := by
  have hm := h.le
  have hvalue : n * 2 ^ (-e).toNat = m * 2 ^ (d + e.toNat) := by
    rw [Nat.pow_add]
    exact h.value
  have hn : n ≠ 0 := by
    rintro rfl
    rw [Nat.zero_mul] at hvalue
    exact absurd hvalue.symm (Nat.mul_ne_zero (by omega) (Nat.two_pow_pos _).ne')
  have hlogm : m.log2 = 52 := (Nat.log2_eq_iff (by omega)).mpr ⟨h.le, h.lt⟩
  have hsame := congrArg Nat.log2 hvalue
  rw [log2_mul_two_pow hn, log2_mul_two_pow (by omega), hlogm] at hsame
  exact ⟨hn, by omega⟩

theorem Normal.floor_unscale (h : Normal m e ⟨n, 2 ^ d⟩) :
    ((Ratio.mk n (2 ^ d)).unscale e).floor = m ∧ ((Ratio.mk n (2 ^ d)).unscale e).round = m := by
  have hpos : 0 < 2 ^ d * 2 ^ e.toNat := Nat.mul_pos (Nat.two_pow_pos d) (Nat.two_pow_pos _)
  have hscaled : (Ratio.mk n (2 ^ d)).unscale e = ⟨m * (2 ^ d * 2 ^ e.toNat), 2 ^ d * 2 ^ e.toNat⟩ :=
    congrArg (Ratio.mk · _) h.value
  rw [hscaled]
  constructor
  · exact Nat.mul_div_cancel m hpos
  · simp only [Ratio.round, Nat.mul_div_cancel m hpos, Nat.mul_mod_left, Nat.mul_zero, if_pos hpos]

theorem nearest_of_normal (h : Normal m e ⟨n, 2 ^ d⟩) (negative : Bool) :
    nearest negative ⟨n, 2 ^ d⟩ = .finite negative m e := by
  obtain ⟨hn, hlog⟩ := h.log2_numerator
  obtain ⟨hfloor, hround⟩ := h.floor_unscale
  have hexponent : roundingExponent ⟨n, 2 ^ d⟩ = e := by
    have hguess : Int.ofNat n.log2 - Int.ofNat (2 ^ d).log2 - 52 = e := by
      rw [Nat.log2_two_pow]
      simp only [Int.ofNat_eq_natCast]
      omega
    have hwhole : ¬ m < Nat.pow 2 52 := Nat.not_lt.mpr h.le
    simp only [roundingExponent, hguess, hfloor, if_neg hwhole]
    exact Int.max_eq_right h.least
  have hprecise : m ≠ Nat.pow 2 precision := Nat.ne_of_lt h.lt
  have hfinite : ¬ greatestExponent < e := Int.not_lt.mpr h.greatest
  rw [nearest, if_neg hn, hexponent, hround, ofRounded, if_neg hprecise]
  exact if_neg hfinite

theorem log2_le_of_lt {k : Nat} (hpos : 0 < k) (hlt : k < 2 ^ 53) : k.log2 ≤ 52 :=
  Nat.le_of_lt_succ ((Nat.log2_lt hpos.ne').mpr hlt)

theorem normal_of_lt {k t : Nat} (hpos : 0 < k) (hlt : k < 2 ^ 53)
    (he : e = (k.log2 : Int) + t - d - 52) (hleast : leastExponent ≤ e)
    (hgreatest : e ≤ greatestExponent) :
    Normal (k * 2 ^ (52 - k.log2)) e ⟨k * 2 ^ t, 2 ^ d⟩ := by
  have hlog := log2_le_of_lt hpos hlt
  have hlow := Nat.log2_self_le hpos.ne'
  have hhigh := Nat.lt_log2_self (n := k)
  refine ⟨?_, ?_, hleast, hgreatest, ?_⟩
  · have hbits : 2 ^ 52 = 2 ^ k.log2 * 2 ^ (52 - k.log2) := by
      rw [← Nat.pow_add, Nat.add_sub_cancel' hlog]
    rw [hbits]
    exact Nat.mul_le_mul_right _ hlow
  · have hbits : 2 ^ 53 = 2 ^ (k.log2 + 1) * 2 ^ (52 - k.log2) := by
      rw [← Nat.pow_add]
      congr 1
      omega
    rw [hbits]
    exact Nat.mul_lt_mul_of_pos_right hhigh (Nat.two_pow_pos _)
  · show k * 2 ^ t * 2 ^ _ = k * 2 ^ _ * (2 ^ d * 2 ^ _)
    rw [Nat.mul_assoc, Nat.mul_assoc, ← Nat.pow_add, ← Nat.pow_add, ← Nat.pow_add]
    congr 2
    omega

theorem ofInt_eq {a : Int} (hzero : a ≠ 0) (ha : a.natAbs < 2 ^ 53) :
    ofInt a = .finite (decide (a < 0)) (a.natAbs * 2 ^ (52 - a.natAbs.log2))
      ((a.natAbs.log2 : Int) - 52) := by
  have hpos : 0 < a.natAbs := Int.natAbs_pos.mpr hzero
  have hlog := log2_le_of_lt hpos ha
  have hnormal := normal_of_lt (d := 0) (t := 0) (e := (a.natAbs.log2 : Int) - 52) hpos ha
    (by omega) (by simp only [leastExponent]; omega) (by simp only [greatestExponent]; omega)
  have hnearest := nearest_of_normal hnormal (decide (a < 0))
  rw [Nat.pow_zero, Nat.mul_one] at hnearest
  exact hnearest

def IsInteger (x : Binary64) (a : Int) : Prop :=
  ∃ e ≤ 0, x = .finite (decide (a < 0)) (a.natAbs * 2 ^ (-e).toNat) e

theorem isInteger_ofInt {a : Int} (ha : a.natAbs < 2 ^ 53) : (ofInt a).IsInteger a := by
  by_cases hzero : a = 0
  · subst hzero
    refine ⟨leastExponent, by decide, ?_⟩
    rw [Int.natAbs_zero, Nat.zero_mul]
    rfl
  · have hlog := log2_le_of_lt (Int.natAbs_pos.mpr hzero) ha
    have hscale : (-((a.natAbs.log2 : Int) - 52)).toNat = 52 - a.natAbs.log2 := by omega
    refine ⟨(a.natAbs.log2 : Int) - 52, by omega, ?_⟩
    rw [hscale]
    exact ofInt_eq hzero ha

theorem signed_natAbs (a : Int) (k : Nat) : signed (decide (a < 0)) (a.natAbs * k) = a * k := by
  unfold signed
  by_cases ha : a < 0
  · have habs : (a.natAbs : Int) = -a := by omega
    rw [decide_eq_true ha, if_pos rfl, Int.ofNat_eq_natCast, Int.natCast_mul, habs, Int.neg_mul,
      Int.neg_neg]
  · have habs : (a.natAbs : Int) = a := by omega
    simp [ha, habs]

theorem add_of_isInteger {x y : Binary64} {a b : Int} (hx : x.IsInteger a) (hy : y.IsInteger b) :
    ∃ g : Nat, x.add y
      = if a + b = 0 then zero false
        else nearest (decide (a + b < 0)) ⟨(a + b).natAbs * 2 ^ g, 2 ^ g⟩ := by
  obtain ⟨e, he, rfl⟩ := hx
  obtain ⟨f, hf, rfl⟩ := hy
  have hscaled (c : Int) (i : Int) (hi : i ≤ 0) (hmin : min e f ≤ i) :
      signed (decide (c < 0)) (c.natAbs * 2 ^ (-i).toNat * Nat.pow 2 (i - min e f).toNat)
        = c * 2 ^ (-(min e f)).toNat := by
    have hexponent : (-i).toNat + (i - min e f).toNat = (-(min e f)).toNat := by omega
    rw [Nat.pow_eq, Nat.mul_assoc, ← Nat.pow_add, hexponent, signed_natAbs]
    rfl
  have hwhole : (min e f).toNat = 0 := by omega
  generalize hg : (-(min e f)).toNat = g at hscaled
  have hpos : (0 : Int) < 2 ^ g := Int.pow_pos (by decide)
  refine ⟨g, ?_⟩
  · have hzero : (a + b) * 2 ^ g = 0 ↔ a + b = 0 := by
      rw [Int.mul_eq_zero]
      exact or_iff_left (Int.ne_of_gt hpos)
    have hsign : decide ((a + b) * 2 ^ g < 0) = decide (a + b < 0) := by
      rw [decide_eq_decide]
      constructor
      · intro h
        by_contra hnot
        have hnonneg := Int.mul_nonneg (Int.not_lt.mp hnot) (Int.le_of_lt hpos)
        omega
      · exact fun h => Int.mul_neg_of_neg_of_pos h hpos
    have habs : ((a + b) * 2 ^ g).natAbs = (a + b).natAbs * 2 ^ g := by
      rw [Int.natAbs_mul, Int.natAbs_pow]
      rfl
    simp only [add]
    rw [hscaled a e he (Int.min_le_left e f), hscaled b f hf (Int.min_le_right e f), ← Int.add_mul]
    by_cases hsum : a + b = 0
    · have hboth : (decide (a < 0) && decide (b < 0)) = false := by
        by_contra h
        simp only [Bool.not_eq_false, Bool.and_eq_true, decide_eq_true_eq] at h
        omega
      rw [if_pos (hzero.mpr hsum), if_pos hsum, hboth]
    · rw [if_neg (mt hzero.mp hsum), if_neg hsum, ofDyadic, hwhole, hg, hsign, habs]
      simp only [Nat.pow_eq, Nat.pow_zero, Nat.mul_one]

theorem half_of_normal (h : Normal m e ⟨n, 2 ^ d⟩) (hleast : leastExponent < e) (negative : Bool) :
    half (nearest negative ⟨n, 2 ^ d⟩) = .finite negative m (e - 1) := by
  have hgreatest := h.greatest
  have hhalf : Normal m (e - 1) ⟨m * 2 ^ (e - 1).toNat, 2 ^ (1 - e).toNat⟩ := by
    refine ⟨h.le, h.lt, by omega, by omega, ?_⟩
    have hexponent : (-(e - 1)).toNat = (1 - e).toNat := by omega
    show m * 2 ^ (e - 1).toNat * 2 ^ (-(e - 1)).toNat = m * (2 ^ (1 - e).toNat * 2 ^ (e - 1).toNat)
    rw [hexponent, Nat.mul_assoc, Nat.mul_comm (2 ^ (e - 1).toNat)]
  rw [nearest_of_normal h]
  exact nearest_of_normal hhalf negative

theorem toText_finite (hm : m ≠ 0) (negative : Bool) :
    (finite negative m e).toText
      = String.ofList ((if negative then ['-'] else []) ++ magnitudeText m e) := by
  rw [toText, if_neg hm]
  cases negative <;> rfl

theorem length_digits_le (hv : v < 2 ^ 53) : (digits v).length ≤ 16 :=
  (Nat.length_toDigits_le_iff (by decide) (by decide)).mpr (Nat.lt_trans hv (by decide))

theorem toText_half_even (hpos : 0 < v) (hlt : v < 2 ^ 53) (negative : Bool) (g : Nat) :
    (half (nearest negative ⟨v * 2 ^ (g + 1), 2 ^ g⟩)).toText
      = String.ofList ((if negative then ['-'] else []) ++ digits v) := by
  have hlog := log2_le_of_lt hpos hlt
  have hm : v * 2 ^ (52 - v.log2) ≠ 0 := Nat.mul_ne_zero hpos.ne' (Nat.two_pow_pos _).ne'
  have hnormal := normal_of_lt (d := g) (t := g + 1) (e := (v.log2 : Int) - 51) hpos hlt
    (by omega) (by simp only [leastExponent]; omega) (by simp only [greatestExponent]; omega)
  have hvalue : 4 * (v * 2 ^ (52 - v.log2)) = v * 2 ^ (2 - ((v.log2 : Int) - 51 - 1)).toNat := by
    have hscale : (2 - ((v.log2 : Int) - 51 - 1)).toNat = 52 - v.log2 + 2 := by omega
    rw [hscale, Nat.pow_add, Nat.mul_comm 4, Nat.mul_assoc]
  rw [half_of_normal hnormal (by simp only [leastExponent]; omega), toText_finite hm,
    magnitudeText_natural hm (by omega) hvalue (Nat.le_succ_of_le (length_digits_le hlt))]

theorem toText_half_odd (hlt : 2 * v + 1 < 2 ^ 53) (negative : Bool) (g : Nat) :
    (half (nearest negative ⟨(2 * v + 1) * 2 ^ g, 2 ^ g⟩)).toText
      = String.ofList ((if negative then ['-'] else []) ++ (digits v ++ ['.', '5'])) := by
  have hpos : 0 < 2 * v + 1 := Nat.succ_pos _
  have hv : v < 2 ^ 53 := by omega
  generalize hk : 2 * v + 1 = k at hlt hpos ⊢
  have hlog := log2_le_of_lt hpos hlt
  have hm : k * 2 ^ (52 - k.log2) ≠ 0 := Nat.mul_ne_zero hpos.ne' (Nat.two_pow_pos _).ne'
  have hnormal := normal_of_lt (d := g) (t := g) (e := (k.log2 : Int) - 52) hpos hlt
    (by omega) (by simp only [leastExponent]; omega) (by simp only [greatestExponent]; omega)
  have hvalue : 8 * (k * 2 ^ (52 - k.log2)) = (2 * v + 1) * 2 ^ (2 - ((k.log2 : Int) - 52 - 1)).toNat := by
    have hscale : (2 - ((k.log2 : Int) - 52 - 1)).toNat = 52 - k.log2 + 3 := by omega
    rw [hk, hscale, Nat.pow_add, Nat.mul_comm 8, Nat.mul_assoc]
  rw [half_of_normal hnormal (by simp only [leastExponent]; omega), toText_finite hm,
    magnitudeText_half hm (by omega) hvalue (Nat.lt_succ_of_le (length_digits_le hv))]

theorem write_eq (a : Int) :
    Numeral.write a = String.ofList ((if a < 0 then ['-'] else []) ++ digits a.natAbs) := by
  cases a with
  | ofNat n => rfl
  | negSucc n =>
      rw [if_pos (Int.negSucc_lt_zero n)]
      rfl

theorem toText_ofInt {a : Int} (ha : a.natAbs < 2 ^ 53) : (ofInt a).toText = Numeral.write a := by
  by_cases hzero : a = 0
  · subst hzero
    decide
  · have hpos : 0 < a.natAbs := Int.natAbs_pos.mpr hzero
    have hlog := log2_le_of_lt hpos ha
    have hm : a.natAbs * 2 ^ (52 - a.natAbs.log2) ≠ 0 :=
      Nat.mul_ne_zero hpos.ne' (Nat.two_pow_pos _).ne'
    have hvalue : 4 * (a.natAbs * 2 ^ (52 - a.natAbs.log2))
        = a.natAbs * 2 ^ (2 - ((a.natAbs.log2 : Int) - 52)).toNat := by
      have hscale : (2 - ((a.natAbs.log2 : Int) - 52)).toNat = 52 - a.natAbs.log2 + 2 := by omega
      rw [hscale, Nat.pow_add, Nat.mul_comm 4, Nat.mul_assoc]
    rw [ofInt_eq hzero ha, toText_finite hm, write_eq,
      magnitudeText_natural hm (by omega) hvalue (Nat.le_succ_of_le (length_digits_le ha))]
    simp

theorem toText_half_sum_even {a b : Int} (ha : a.natAbs < 2 ^ 53) (hb : b.natAbs < 2 ^ 53)
    (heven : (a + b) % 2 = 0) :
    (half (add (ofInt a) (ofInt b))).toText = Numeral.write ((a + b) / 2) := by
  obtain ⟨g, hadd⟩ := add_of_isInteger (isInteger_ofInt ha) (isInteger_ofInt hb)
  obtain ⟨c, hc⟩ : ∃ c, a + b = 2 * c := ⟨(a + b) / 2, by omega⟩
  have hlt : c.natAbs < 2 ^ 53 := by omega
  rw [hadd, hc, Int.mul_ediv_cancel_left c (by decide)]
  by_cases hzero : c = 0
  · subst hzero
    simp only [Int.mul_zero, if_true]
    decide
  · have hne : ¬ 2 * c = 0 := by omega
    have hsign : decide (2 * c < 0) = decide (c < 0) := by
      rw [decide_eq_decide]
      omega
    have htwice : (2 * c).natAbs * 2 ^ g = c.natAbs * 2 ^ (g + 1) := by
      rw [Int.natAbs_mul, Nat.pow_succ', Nat.mul_comm (Int.natAbs 2), Nat.mul_assoc]
      rfl
    rw [if_neg hne, hsign, htwice, toText_half_even (Int.natAbs_pos.mpr hzero) hlt, write_eq]
    simp

theorem toText_half_sum_odd {a b : Int} (ha : a.natAbs < 2 ^ 53) (hb : b.natAbs < 2 ^ 53)
    (hodd : (a + b) % 2 = 1) (hsum : (a + b).natAbs < 2 ^ 53) :
    (half (add (ofInt a) (ofInt b))).toText
      = (if a + b < 0 then "-" else "") ++ Numeral.write (Int.ofNat ((a + b).natAbs / 2)) ++ ".5" := by
  obtain ⟨g, hadd⟩ := add_of_isInteger (isInteger_ofInt ha) (isInteger_ofInt hb)
  rw [hadd]
  generalize a + b = s at hodd hsum ⊢
  have hne : ¬ s = 0 := by omega
  have hs : s.natAbs = 2 * (s.natAbs / 2) + 1 := by omega
  have htext := toText_half_odd (v := s.natAbs / 2) (by omega) (decide (s < 0)) g
  rw [← hs] at htext
  rw [if_neg hne, htext]
  apply String.toList_inj.mp
  by_cases hneg : s < 0 <;> simp [hneg, Numeral.write, Numeral.writeChars]

end Binary64

end DurableCalc
