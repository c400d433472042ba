namespace DurableCalc.Toml.Moment

def number (ds : List Char) : Option Nat :=
  if ds.all Char.isDigit then
    some (ds.foldl (fun n c => 10 * n + (c.toNat - '0'.toNat)) 0)
  else none

def isLeap (year : Nat) : Bool :=
  year % 4 = 0 && (year % 100 ≠ 0 || year % 400 = 0)

def daysIn (year month : Nat) : Nat :=
  if month = 2 then if isLeap year then 29 else 28
  else if month = 4 ∨ month = 6 ∨ month = 9 ∨ month = 11 then 30
  else 31

def date? : List Char → Option (List Char)
  | a :: b :: c :: d :: '-' :: e :: f :: '-' :: g :: h :: rest => do
      let year ← number [a, b, c, d]
      let month ← number [e, f]
      let day ← number [g, h]
      if 1 ≤ month ∧ month ≤ 12 ∧ 1 ≤ day ∧ day ≤ daysIn year month then some rest else none
  | _ => none

def hourMinute? : List Char → Option (List Char)
  | a :: b :: ':' :: c :: d :: rest => do
      let hour ← number [a, b]
      let minute ← number [c, d]
      if hour ≤ 23 ∧ minute ≤ 59 then some rest else none
  | _ => none

def dropFraction : List Char → List Char
  | '.' :: c :: cs => if c.isDigit then cs.dropWhile Char.isDigit else '.' :: c :: cs
  | cs => cs

def clock? (cs : List Char) : Option (List Char) := do
  match ← hourMinute? cs with
  | ':' :: a :: b :: rest =>
      let second ← number [a, b]
      if second ≤ 60 then some (dropFraction rest) else none
  | _ => none

def isOffset : List Char → Bool
  | [] => true
  | ['Z'] => true
  | ['z'] => true
  | '+' :: cs => hourMinute? cs = some []
  | '-' :: cs => hourMinute? cs = some []
  | _ => false

def isClock (dated : Bool) (cs : List Char) : Bool :=
  match clock? cs with
  | some rest => if dated then isOffset rest else rest = []
  | none => false

def isDate (cs : List Char) : Bool :=
  date? cs = some []

def isMoment (cs : List Char) : Bool :=
  match date? cs with
  | some [] => true
  | some ('T' :: rest) => isClock true rest
  | some ('t' :: rest) => isClock true rest
  | some _ => false
  | none => isClock false cs

end DurableCalc.Toml.Moment
