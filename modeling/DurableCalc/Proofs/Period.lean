import DurableCalc.Proofs.Course
import DurableCalc.Proofs.Client
import Mathlib.NumberTheory.LucasPrimality
import Mathlib.Tactic.NormNum.Prime
import Mathlib.Tactic.ReduceModChar

namespace DurableCalc

namespace Generator

abbrev Residue := ZMod 2147483647

def period : Nat := 2147483646

theorem mem_of_prime_dvd_period {q : Nat} (hq : q.Prime) (h : q ∣ period) :
    q ∈ [2, 3, 7, 11, 31, 151, 331] := by
  have hfactors : period = [2, 3, 3, 7, 11, 31, 151, 331].prod := by decide
  rw [hfactors, (Nat.prime_iff.mp hq).dvd_prod_iff] at h
  obtain ⟨r, hr, hdvd⟩ := h
  have hprime : ∀ r ∈ [2, 3, 3, 7, 11, 31, 151, 331], Nat.Prime r := by
    simp only [List.forall_mem_cons]
    norm_num
  obtain rfl : q = r := (Nat.prime_dvd_prime_iff_eq hq (hprime r hr)).mp hdvd
  simpa using hr

theorem multiplier_pow_period : (16807 : Residue) ^ period = 1 := by
  show (16807 : ZMod 2147483647) ^ 2147483646 = 1
  reduce_mod_char

theorem multiplier_pow_ne_one {q : Nat} (hq : q.Prime) (h : q ∣ period) :
    (16807 : Residue) ^ (period / q) ≠ 1 := by
  have hmem := mem_of_prime_dvd_period hq h
  simp only [List.mem_cons, List.not_mem_nil, or_false] at hmem
  rcases hmem with rfl | rfl | rfl | rfl | rfl | rfl | rfl <;>
    simp only [period, Nat.reduceDiv, Residue] <;> reduce_mod_char <;> decide

instance prime_modulus : Fact (Nat.Prime 2147483647) :=
  ⟨lucas_primality _ 16807 multiplier_pow_period fun _ hq h => multiplier_pow_ne_one hq h⟩

theorem orderOf_multiplier : orderOf (16807 : Residue) = period :=
  orderOf_eq_of_pow_and_pow_div_prime (by decide) multiplier_pow_period fun _ hq h =>
    multiplier_pow_ne_one hq h

def residue (x : Int64) : Residue :=
  (x.toInt : Residue)

theorem residue_eq_zero_iff (x : Int64) : residue x = 0 ↔ modulus ∣ x.toInt :=
  ZMod.intCast_zmod_eq_zero_iff_dvd x.toInt 2147483647

theorem residue_next (x : Int64) : residue (next x) = 16807 * residue x := by
  have hmod (a : Int) : ((a % modulus : Int) : Residue) = a := ZMod.intCast_mod a 2147483647
  rw [residue, toInt_next, hmod, Int.cast_mul]
  rfl

theorem residue_iterate (n : Nat) (x : Int64) : residue (next^[n] x) = 16807 ^ n * residue x := by
  induction n with
  | zero => rw [Function.iterate_zero_apply, pow_zero, one_mul]
  | succ n ih => rw [Function.iterate_succ_apply', residue_next, ih, pow_succ', mul_assoc]

theorem next_bounds (x : Int64) : 0 ≤ (next x).toInt ∧ (next x).toInt < modulus := by
  rw [toInt_next]
  exact ⟨Int.emod_nonneg _ (by decide), Int.emod_lt_of_pos _ (by decide)⟩

theorem eq_of_residue_eq {x y : Int64} (h : residue (next x) = residue (next y)) :
    next x = next y := by
  obtain ⟨hxlo, hxhi⟩ := next_bounds x
  obtain ⟨hylo, hyhi⟩ := next_bounds y
  have hmod : (next x).toInt % modulus = (next y).toInt % modulus :=
    (ZMod.intCast_eq_intCast_iff' _ _ 2147483647).mp h
  apply Int64.toInt_inj.mp
  rwa [Int.emod_eq_of_lt hxlo hxhi, Int.emod_eq_of_lt hylo hyhi] at hmod

theorem next_eq_self_iff (x : Int64) : next x = x ↔ x = 0 := by
  constructor
  · intro h
    obtain ⟨hlo, hhi⟩ := next_bounds x
    rw [h] at hlo hhi
    have hresidue := residue_next x
    rw [h] at hresidue
    have hzero : residue x = 0 := by
      by_contra hne
      have hone : (16807 : Residue) = 1 := mul_right_cancel₀ hne (by rw [one_mul, ← hresidue])
      exact absurd hone (by decide)
    have hmod := Int.emod_eq_zero_of_dvd ((residue_eq_zero_iff x).mp hzero)
    rw [Int.emod_eq_of_lt hlo hhi] at hmod
    exact Int64.toInt_inj.mp hmod
  · rintro rfl
    decide

theorem iterate_of_dvd {x : Int64} (h : modulus ∣ x.toInt) (n : Nat) : next^[n + 1] x = 0 := by
  have hnext : next x = next 0 := by
    apply eq_of_residue_eq
    rw [residue_next, residue_next, (residue_eq_zero_iff x).mpr h]
    rfl
  have hzero : next 0 = 0 := (next_eq_self_iff 0).mpr rfl
  rw [Function.iterate_succ_apply, hnext, hzero, Function.iterate_fixed hzero]

theorem residue_iterate_ne_zero {x : Int64} (h : ¬ modulus ∣ x.toInt) (n : Nat) :
    residue (next^[n] x) ≠ 0 := by
  rw [residue_iterate]
  refine mul_ne_zero (pow_ne_zero n ?_) (mt (residue_eq_zero_iff x).mp h)
  decide

theorem iterate_bounds {x : Int64} (h : ¬ modulus ∣ x.toInt) (n : Nat) :
    1 ≤ (next^[n + 1] x).toInt ∧ (next^[n + 1] x).toInt ≤ modulus - 1 := by
  have hne := residue_iterate_ne_zero h (n + 1)
  rw [Function.iterate_succ_apply'] at hne ⊢
  obtain ⟨hlo, hhi⟩ := next_bounds (next^[n] x)
  have hpos : (next (next^[n] x)).toInt ≠ 0 := by
    intro hzero
    rw [residue, hzero] at hne
    exact hne Int.cast_zero
  omega

theorem iterate_next_eq_iff {x : Int64} (h : ¬ modulus ∣ x.toInt) (n : Nat) :
    next^[n] (next x) = next x ↔ period ∣ n := by
  have hne : residue (next x) ≠ 0 := residue_iterate_ne_zero h 1
  rw [← orderOf_multiplier, orderOf_dvd_iff_pow_eq_one]
  constructor
  · intro hrepeats
    have hresidue := residue_iterate n (next x)
    rw [hrepeats] at hresidue
    exact mul_right_cancel₀ hne (by rw [one_mul, ← hresidue])
  · intro hpow
    have hcommutes : next^[n] (next x) = next (next^[n] x) := by
      rw [← Function.iterate_succ_apply, Function.iterate_succ_apply']
    rw [hcommutes]
    apply eq_of_residue_eq
    rw [← hcommutes, residue_iterate, hpow, one_mul]

end Generator

namespace Replay

open Attempt (exec exec_bind_ok)
open Simulation (Alike device steady)

variable {w : Simulation} {seed value : Int64} {trace : List String}

theorem seed_cases (s : Schedule) (h : Journal.Opens w.bytes seed trace) :
    (∃ w', Alike w' w ∧
      exec (device s) Journal.seed w = (.error (.storage .reading .induced), w')) ∨
    ∃ w', Alike w' w ∧ exec (device s) Journal.seed w = (.ok seed, w') := by
  obtain ⟨first, hparse, hseed⟩ := h
  rw [Journal.seed]
  rcases Session.entries_cases s w with ⟨w', hw', hentries⟩ | ⟨w', hw', hentries⟩
  · exact .inl ⟨w', hw', Attempt.exec_bind_error hentries _⟩
  · rw [hparse] at hentries
    refine .inr ⟨w', hw', (exec_bind_ok hentries _).trans ?_⟩
    rw [Attempt.exec_of, List.head?_cons, Journal.parseSeed, hseed]

theorem settle_stays (s : Schedule) (position : Nat) (r : Replay)
    (h : Journal.Opens w.bytes (Generator.next value) trace) :
    let out := runOn (device s) (settle position value) (r, w)
    out.2.1 = r ∧ Alike out.2.2 w := by
  intro out
  have hout : out = runOn (device s) (settle position value) (r, w) := rfl
  rw [settle, storedSeed, runOn_bind, runOn_lift] at hout
  rcases seed_cases s h with ⟨w₁, hw₁, hseed⟩ | ⟨w₁, hw₁, hseed⟩
  · rw [hout, hseed]
    exact ⟨rfl, hw₁⟩
  rw [hseed] at hout
  by_cases hvalue : Generator.next value = value
  · rw [← hw₁.bytes] at h
    simp only [hvalue, if_true, advance, storedSeed, runOn_bind, runOn_lift] at hout
    rw [hvalue] at h
    rcases seed_cases s h with ⟨w₂, hw₂, hseed'⟩ | ⟨w₂, hw₂, hseed'⟩
    · rw [hout, hseed']
      exact ⟨rfl, hw₂.trans hw₁⟩
    · rw [hout, hseed']
      simp only [ne_eq, not_true_eq_false, if_false]
      exact ⟨rfl, hw₂.trans hw₁⟩
  · simp only [if_neg hvalue, ne_eq, not_true_eq_false, if_false] at hout
    rw [hout]
    exact ⟨rfl, hw₁⟩

theorem settle_faultless (position : Nat) (r : Replay) {result : Except Error Unit} {w' : Simulation}
    (h : exec (steady .faultless) (Live.settle position value) w = (result, w')) :
    let out := runOn (device .faultless) (settle position value) (r, w)
    out.1 = result ∧ Alike out.2.2 w' := by
  intro out
  have hlive : outcome (settle position value) r = Live.settle position value := by
    have hbind := outcome_settle_bind (r := r) position value fun r' _ => outcome_pure () r'
    rwa [bind_pure, bind_pure] at hbind
  obtain ⟨hresult, hsame⟩ := Simulation.cut_lasting Schedule.lasting_faultless
    (Live.forthright_settle position value).givesUp w
  rw [← hlive, exec_outcome, hlive, h] at hresult hsame
  exact ⟨hresult, hsame⟩

theorem exec_settle_steps (s : Schedule) (position : Nat) (h : Journal.Opens w.bytes value trace)
    (hvalue : value ≠ 0) :
    exec (steady s) (Live.settle position value) w
      = exec (steady s) (Attempt.store .replacingSeed
          (Journal.render ((Generator.next value).decimal :: trace))) w := by
  have hmoves : value ≠ Generator.next value :=
    fun heq => hvalue ((Generator.next_eq_self_iff value).mp heq.symm)
  rw [Session.exec_settle_pending h, Live.advance, exec_bind_ok (Journal.exec_seed h),
    if_pos hmoves, Journal.exec_replaceSeed h]

end Replay

namespace Generator

open Replay (runOn settle)
open Simulation (device)

/-- Every orbit but that of zero has all values from one to the modulus less one, and no value but
zero is its own successor: the two seeds that may come with a recorded value are told apart wherever
it makes a difference. -/
theorem next_period (x : Int64) :
    (¬ modulus ∣ x.toInt →
      (∀ n, 1 ≤ (next^[n + 1] x).toInt ∧ (next^[n + 1] x).toInt ≤ 2 ^ 31 - 2) ∧
      ∀ n, next^[n] (next x) = next x ↔ 2 ^ 31 - 2 ∣ n) ∧
    (modulus ∣ x.toInt → ∀ n, next^[n + 1] x = 0) ∧
    (next x = x ↔ x = 0) ∧
    ∀ (position : Nat) (r : Replay) (w : Simulation) (seed : Int64) (trace : List String),
      Journal.Opens w.bytes seed trace →
      (seed = next x → (runOn (device .faultless) (settle position x) (r, w)).1 = .ok () ∧
        ∀ s, let out := runOn (device s) (settle position x) (r, w)
          out.2.1 = r ∧ out.2.2.bytes = w.bytes ∧ out.2.2.log = w.log) ∧
      (seed = x → x ≠ 0 →
        let bytes := Journal.render ((next x).decimal :: trace)
        let out := runOn (device .faultless) (settle position x) (r, w)
        out.1 = .ok () ∧ out.2.2.bytes = bytes ∧ out.2.2.log = .stored bytes :: w.log) := by
  refine ⟨fun h => ⟨iterate_bounds h, iterate_next_eq_iff h⟩, iterate_of_dvd, next_eq_self_iff x, ?_⟩
  intro position r w seed trace hopens
  constructor
  · rintro rfl
    have hquiet := Session.exec_settle (s := .faultless) hopens position rfl
    refine ⟨(Replay.settle_faultless position r hquiet).1, fun s => ?_⟩
    obtain ⟨hr, hsame⟩ := Replay.settle_stays s position r hopens
    exact ⟨hr, hsame.bytes, hsame.log⟩
  · rintro rfl hne
    obtain ⟨hresult, hsame⟩ := Replay.settle_faultless position r
      (Replay.exec_settle_steps .faultless position hopens hne)
    exact ⟨hresult, hsame.bytes, hsame.log⟩

theorem next_period_420 :
    let w := Simulation.start [] (Journal.render ["420", "rand", "1", "420"])
    let out := runOn (device .faultless) (settle 3 420) (⟨420, ["420", "1", "rand"], []⟩, w)
    ¬ modulus ∣ (420 : Int64).toInt ∧ next^[2 ^ 31 - 2] (next 420) = next 420 ∧
      next^[2 ^ 30] (next 420) ≠ next 420 ∧ modulus ∣ (-2147483647 : Int64).toInt ∧
      next^[3] (-2147483647) = 0 ∧ Journal.Opens w.bytes 420 ["rand", "1", "420"] ∧
      out.2.2.log = [.stored (Journal.render ["7058940", "rand", "1", "420"])] := by
  intro w out
  obtain ⟨hperiod, -, -, hsettle⟩ := next_period 420
  have hcoprime : ¬ modulus ∣ (420 : Int64).toInt := by decide
  have hmultiple : modulus ∣ (-2147483647 : Int64).toInt := by decide
  have hopens : Journal.Opens w.bytes 420 ["rand", "1", "420"] :=
    Journal.opens_render (by decide) (by decide) (by decide)
  have hfull := ((hperiod hcoprime).2 (2 ^ 31 - 2)).mpr (Nat.dvd_refl _)
  have hhalf : next^[2 ^ 30] (next 420) ≠ next 420 :=
    mt ((hperiod hcoprime).2 (2 ^ 30)).mp (by decide)
  obtain ⟨-, -, hlog⟩ := (hsettle 3 ⟨420, ["420", "1", "rand"], []⟩ w 420 _ hopens).2 rfl (by decide)
  exact ⟨hcoprime, hfull, hhalf, hmultiple, (next_period (-2147483647)).2.1 hmultiple 2, hopens, hlog⟩

end Generator

end DurableCalc
