import DurableCalc.Binary64.Text

namespace DurableCalc.Median

def leq (a b : Int64) : Bool :=
  decide (a.toInt ≤ b.toInt)

def sorted (xs : List Int64) : List Int64 :=
  xs.mergeSort leq

theorem sorted_perm (xs : List Int64) : (sorted xs).Perm xs :=
  List.mergeSort_perm ..

theorem pairwise_sorted (xs : List Int64) : (sorted xs).Pairwise fun a b => leq a b = true :=
  List.pairwise_mergeSort
    (fun a b c hab hbc => by simp only [leq, decide_eq_true_eq] at *; omega)
    (fun a b => by simp only [leq, Bool.or_eq_true, decide_eq_true_eq]; omega) xs

def middle (xs : List Int64) : Binary64 :=
  let upper := xs.drop (xs.length / 2)
  let lower := xs.drop ((xs.length - 1) / 2)
  match lower, upper with
  | a :: _, b :: _ =>
      if xs.length % 2 = 1 then .ofInt b.toInt
      else .half (.add (.ofInt a.toInt) (.ofInt b.toInt))
  | _, _ => .zero false

def median (xs : List Int64) : Binary64 :=
  middle (sorted xs)

def line (xs : List Int64) : String :=
  (median xs).toText

end DurableCalc.Median
