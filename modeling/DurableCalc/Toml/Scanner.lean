namespace DurableCalc.Toml

abbrev Scanner := StateT (List Char) Option

namespace Scanner

variable {α β : Type}

def peek : Scanner (Option Char) := do
  return (← get).head?

def literal : List Char → Scanner Unit
  | [] => pure ()
  | c :: cs => do
      match ← get with
      | d :: rest =>
          if d = c then do
            set rest
            literal cs
          else failure
      | [] => failure

def takeWhile (p : Char → Bool) : Scanner (List Char) :=
  fun cs => some (cs.takeWhile p, cs.dropWhile p)

def skipWhile (p : Char → Bool) : Scanner Unit :=
  fun cs => some ((), cs.dropWhile p)

def atEnd : Scanner Bool := do
  return (← get).isEmpty

def chainUpTo (item : Scanner α) (next : Scanner Bool) : Nat → Scanner (List α)
  | 0 => failure
  | n + 1 => do
      let a ← item
      if ← next then return a :: (← chainUpTo item next n) else return [a]

def chain (item : Scanner α) (next : Scanner Bool) : Scanner (List α) := do
  chainUpTo item next ((← get).length + 1)

end Scanner

end DurableCalc.Toml
