import DurableCalc.Proofs.Rounding
import DurableCalc.Proofs.Succession

namespace DurableCalc

namespace Median

def halfLine (sum : Int) : String :=
  if sum % 2 = 0 then Numeral.write (sum / 2)
  else (if sum < 0 then "-" else "") ++ Numeral.write (Int.ofNat (sum.natAbs / 2)) ++ ".5"

def exactLine (ys : List Int64) : String :=
  match ys[(ys.length - 1) / 2]?, ys[ys.length / 2]? with
  | some a, some b =>
      if ys.length % 2 = 1 then b.decimal else halfLine (a.toInt + b.toInt)
  | _, _ => "0"

def Moderate (ys : List Int64) : Prop :=
  ∀ a b, ys[(ys.length - 1) / 2]? = some a → ys[ys.length / 2]? = some b →
    a.toInt.natAbs < 2 ^ 53 ∧ b.toInt.natAbs < 2 ^ 53 ∧
      ((a.toInt + b.toInt) % 2 = 1 → (a.toInt + b.toInt).natAbs < 2 ^ 53)

variable {xs ys : List Int64} {a b : Int64}

theorem sorted_eq_of_perm (hperm : ys.Perm xs)
    (hsorted : ys.Pairwise fun a b => a.toInt ≤ b.toInt) : sorted xs = ys := by
  have hleq : ys.Pairwise fun a b => leq a b = true := hsorted.imp decide_eq_true
  exact ((sorted_perm xs).trans hperm.symm).eq_of_pairwise (fun a b _ _ => leq_antisymm)
    (pairwise_sorted xs) hleq

theorem middle_eq (ha : ys[(ys.length - 1) / 2]? = some a) (hb : ys[ys.length / 2]? = some b) :
    middle ys = if ys.length % 2 = 1 then .ofInt b.toInt
      else .half (.add (.ofInt a.toInt) (.ofInt b.toInt)) := by
  obtain ⟨hlower, rfl⟩ := List.getElem?_eq_some_iff.mp ha
  obtain ⟨hupper, rfl⟩ := List.getElem?_eq_some_iff.mp hb
  simp only [middle, List.drop_eq_getElem_cons hlower, List.drop_eq_getElem_cons hupper]

theorem toText_middle (h : Moderate ys) : (middle ys).toText = exactLine ys := by
  cases hne : ys with
  | nil => decide
  | cons y ys' =>
      rw [← hne]
      have hpos : 0 < ys.length := by
        rw [hne]
        exact Nat.succ_pos _
      have hlower : (ys.length - 1) / 2 < ys.length := by omega
      have hupper : ys.length / 2 < ys.length := by omega
      have ha := List.getElem?_eq_getElem hlower
      have hb := List.getElem?_eq_getElem hupper
      obtain ⟨hsmall, hsmall', hsum⟩ := h _ _ ha hb
      rw [middle_eq ha hb, exactLine, ha, hb]
      generalize ys[(ys.length - 1) / 2] = a at hsmall hsum
      generalize ys[ys.length / 2] = b at hsmall' hsum
      by_cases hodd : ys.length % 2 = 1
      · simp only [if_pos hodd]
        exact Binary64.toText_ofInt hsmall'
      · simp only [if_neg hodd, halfLine]
        by_cases heven : (a.toInt + b.toInt) % 2 = 0
        · rw [if_pos heven]
          exact Binary64.toText_half_sum_even hsmall hsmall' heven
        · have hhalf : (a.toInt + b.toInt) % 2 = 1 := by omega
          rw [if_neg heven]
          exact Binary64.toText_half_sum_odd hsmall hsmall' hhalf (hsum hhalf)

-- either number is moderate, but not their sum
example : (middle [9007199254740990, 9007199254740991]).toText = "9007199254740990" ∧
    exactLine [9007199254740990, 9007199254740991] = "9007199254740990.5" := by
  decide +kernel

theorem line_of_moderate (hperm : ys.Perm xs)
    (hsorted : ys.Pairwise fun a b => a.toInt ≤ b.toInt) (h : Moderate ys) :
    line xs = exactLine ys := by
  rw [line, median, sorted_eq_of_perm hperm hsorted]
  exact toText_middle h

end Median

namespace Calculator

variable {mode : Mode} {seed n x : Int64} {xs : List Int64} {text : String} {texts : List String}

theorem play_number {reaction : Int64 → Reaction}
    (hmode : ∀ line, react seed mode line = onNumber seed line reaction)
    (htext : Numeral.readTrimmed? text = some x) (rest : List String) :
    play mode seed (text :: rest) = (reaction x).report rest := by
  have hread : Numeral.read? (Text.trim text) = some x := htext
  have hline : Text.isBlank text = false := by
    rw [Bool.eq_false_iff, ne_eq, ← Text.trim_eq_empty_iff]
    intro hempty
    rw [hempty] at hread
    cases hread
  rw [play, hline, if_neg Bool.false_ne_true, hmode, onNumber, hread]
  rfl

theorem report_listen (lines : List String) : (listen seed mode).report lines = play mode seed lines :=
  rfl

theorem report_medianOf (htexts : texts.map Numeral.readTrimmed? = xs.map some)
    (known : List Int64) (rest : List String) :
    (medianOf seed xs.length known).report (texts ++ rest)
      = (answer seed [Median.line (known ++ xs)]).report rest := by
  induction xs generalizing texts known with
  | nil =>
      obtain rfl := List.map_eq_nil_iff.mp htexts
      rw [List.append_nil]
      rfl
  | cons x xs ih =>
      obtain ⟨text, texts, rfl, htext, hothers⟩ := List.map_eq_cons_iff.mp htexts
      have hmore := ih hothers (known ++ [x])
      rw [List.append_assoc, List.singleton_append] at hmore
      have hreact : ∀ line, react seed (.number xs.length known) line
          = onNumber seed line fun x => medianOf seed xs.length (known ++ [x]) := fun _ => rfl
      rw [List.length_cons, medianOf, report_listen, List.cons_append, play_number hreact htext]
      exact hmore

theorem play_median (htext : Numeral.readTrimmed? text = some n)
    (hcount : Command.count n = xs.length)
    (htexts : texts.map Numeral.readTrimmed? = xs.map some) (rest : List String) :
    play .name seed ("median" :: text :: (texts ++ rest))
      = { play .name seed rest with shown := Median.line xs :: (play .name seed rest).shown } := by
  have hname : Text.isBlank "median" = false := by decide
  have hcommand : react seed .name (Text.trim "median") = listen seed .medianCount := by
    have htrim : Text.trim "median" = "median" := by decide
    rw [htrim]
    rfl
  have hreact : ∀ line, react seed .medianCount line
      = onNumber seed line fun n => medianOf seed (Command.count n) [] := fun _ => rfl
  rw [play, hname, if_neg Bool.false_ne_true, hcommand]
  show (listen seed .medianCount).report (text :: (texts ++ rest)) = _
  rw [report_listen, play_number hreact htext, hcount, report_medianOf htexts]
  rfl

end Calculator

namespace Simulation

open Attempt (exec)

theorem shownLines_outcome (settings : Settings) {seed : Int64} (lines : List String)
    {bytes : ByteArray} (hbytes : bytes = ByteArray.empty ∧ settings.defaultSeed = seed ∨
      Journal.Opens bytes seed []) :
    shownLines ((start (lines.map .line) bytes).outcome .faultless settings).1.events
      = (Calculator.play .name seed lines).shown := by
  let w := start (lines.map .line) bytes
  have hlength : lines.length < w.patience - 1 := by
    simp only [w, patience, start, List.length_map]
    omega
  obtain ⟨w', hpasses, hexec⟩ := exec_run_fresh (w := w) settings (w.patience - 1) hbytes rfl
  have hplay : Agrees settings.exitPolicy w' _ (Calculator.play .name seed lines) :=
    agrees_play .name hpasses.stands hlength (Nat.lt_succ_of_lt hlength) (Nat.lt_succ_self _)
  obtain ⟨es, hadds, hshown, -⟩ := (hplay.after hpasses).adds
  have hout : (w.outcome .faultless settings).1 = _ := outcome_of_exec hexec rfl hadds
  rw [hout]
  exact hshown

/-- A session shows the exact median of as many numbers as were announced, in whatever order they are
given, unless the middle of them takes more than 53 bits. -/
theorem outcome_median_exact (settings : Settings) (seed : Int64) {bytes : ByteArray}
    (hbytes : bytes = ByteArray.empty ∧ settings.defaultSeed = seed ∨
      Journal.Opens bytes seed []) {n : Int64} {xs ys : List Int64} {text : String}
    {texts : List String} (htext : Numeral.readTrimmed? text = some n)
    (hcount : Command.count n = xs.length)
    (htexts : texts.map Numeral.readTrimmed? = xs.map some) (hperm : ys.Perm xs)
    (hsorted : ys.Pairwise fun a b => a.toInt ≤ b.toInt) (hmoderate : Median.Moderate ys)
    (rest : List String) :
    shownLines ((start (("median" :: text :: (texts ++ rest)).map .line) bytes).outcome .faultless
        settings).1.events
      = Median.exactLine ys :: (Calculator.play .name seed rest).shown := by
  rw [shownLines_outcome settings _ hbytes, Calculator.play_median htext hcount htexts,
    Median.line_of_moderate hperm hsorted hmoderate]

theorem outcome_median_exact_half :
    Journal.Opens (Journal.render ["420"]) 420 [] ∧ Numeral.readTrimmed? "2" = some 2 ∧
      Command.count 2 = 2 ∧ [" +5 ", "-12"].map Numeral.readTrimmed? = [5, -12].map some ∧
      List.Perm [(-12 : Int64), 5] [5, -12] ∧
      [(-12 : Int64), 5].Pairwise (fun a b => a.toInt ≤ b.toInt) ∧
      Median.Moderate [-12, 5] ∧
      shownLines ((start (("median" :: "2" :: ([" +5 ", "-12"] ++ ["exit"])).map .line)
        (Journal.render ["420"])).outcome .faultless ⟨7, .compact⟩).1.events = ["-3.5"] := by
  have hopens : Journal.Opens (Journal.render ["420"]) 420 [] := Session.opens_fresh 420
  have htexts : [" +5 ", "-12"].map Numeral.readTrimmed? = [5, -12].map some := by decide
  have hperm : List.Perm [(-12 : Int64), 5] [5, -12] := .swap ..
  have hsorted : [(-12 : Int64), 5].Pairwise fun a b => a.toInt ≤ b.toInt := by decide
  have hmoderate : Median.Moderate [-12, 5] := by
    intro a b ha hb
    obtain rfl : -12 = a := Option.some.inj ha
    obtain rfl : 5 = b := Option.some.inj hb
    decide
  have hcount : Numeral.readTrimmed? "2" = some 2 := by decide
  have hshown : Median.exactLine [-12, 5] :: (Calculator.play .name 420 ["exit"]).shown
      = ["-3.5"] := by decide +kernel
  refine ⟨hopens, hcount, rfl, htexts, hperm, hsorted, hmoderate, ?_⟩
  rw [← hshown]
  exact outcome_median_exact ⟨7, .compact⟩ 420 (.inr hopens) hcount rfl htexts hperm hsorted
    hmoderate ["exit"]

theorem outcome_median_rounded :
    shownLines ((start (["median", "1", "9007199254740993", "exit"].map .line)
        (Journal.render ["420"])).outcome .faultless ⟨7, .compact⟩).1.events
      = ["9007199254740992"] ∧
      Median.exactLine [9007199254740993] = "9007199254740993" := by
  have hopens : Journal.Opens (Journal.render ["420"]) 420 [] := Session.opens_fresh 420
  refine ⟨?_, by decide⟩
  rw [shownLines_outcome ⟨7, .compact⟩ _ (.inr hopens)]
  decide +kernel

end Simulation

end DurableCalc
