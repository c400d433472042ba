import DurableCalc.Pattern.Depth
import DurableCalc.Pattern.Item

namespace DurableCalc.Pattern.Brackets

def classNames : List String :=
  ["alnum", "alpha", "ascii", "blank", "cntrl", "digit", "graph", "lower", "print", "punct",
    "space", "upper", "word", "xdigit"]

def name (negated : Bool) (cs : List Char) : Option (Bool × List Char) :=
  match cs.dropWhile fun c => c ≠ ':' with
  | ':' :: ']' :: rest =>
      if String.ofList (cs.takeWhile fun c => c ≠ ':') ∈ classNames then some (negated, rest)
      else none
  | _ => none

def named : List Char → Option (Bool × List Char)
  | ':' :: '^' :: cs => name true cs
  | ':' :: cs => name false cs
  | _ => none

def admitsNamed (m : Mode) (negated : Bool) : Bool :=
  if m.unicode then !m.foldsCase else !negated

def isRange (m : Mode) : Item → Item → Bool
  | .character c isByte, .character d isByte' =>
      Item.isMember m (.character c isByte) && Item.isMember m (.character d isByte') && c ≤ d
  | _, _ => false

def member (m : Mode) (cs : List Char) : Option (List Char) := do
  let (low, rest) ← Item.inBrackets m cs
  let single := if low.isMember m then some (m.skip rest) else none
  match m.skip rest with
  | '-' :: after =>
      match m.skip after with
      | ']' :: _ => single
      | '-' :: _ => single
      | after => do
          let (high, rest) ← Item.inBrackets m after
          if isRange m low high then some rest else none
  | _ => single

inductive Place where
  | front
  | dashes
  | inside
  deriving DecidableEq, Repr

def begin (m : Mode) (cs : List Char) : Option (List Char) :=
  match m.skip cs with
  | '^' :: rest => if m.unicode then some rest else none
  | rest => some rest

def endUpTo (m : Mode) :
    Nat → Depth → List Depth → Place → List Char → Option (Nat × List Char)
  | 0, _, _, _, _ => none
  | n + 1, d, around, place, cs =>
      match place, m.skip cs with
      | _, [] => none
      | .front, '-' :: rest =>
          if Item.isMember m (.character '-' false) then endUpTo m n (d.add 0) around .dashes rest
          else none
      | .dashes, '-' :: rest => endUpTo m n (d.add 0) around .dashes rest
      | .front, ']' :: rest =>
          if Item.isMember m (.character ']' false) then endUpTo m n (d.add 0) around .inside rest
          else none
      | _, '[' :: rest =>
          match named rest with
          | some (negated, rest) =>
              if admitsNamed m negated then endUpTo m n (d.add 0) around .inside rest else none
          | none =>
              match begin m rest with
              | some rest => endUpTo m n .empty (d :: around) .front rest
              | none => none
      | _, ']' :: rest =>
          match around with
          | [] => some (d.total + 1, rest)
          | outer :: around => endUpTo m n (outer.add (d.total + 1)) around .inside rest
      | _, '&' :: '&' :: rest => endUpTo m n d.operand around .inside rest
      | _, '-' :: '-' :: rest => endUpTo m n d.operand around .inside rest
      | _, '~' :: '~' :: rest => endUpTo m n d.operand around .inside rest
      | _, rest =>
          match member m rest with
          | some rest => endUpTo m n (d.add 0) around .inside rest
          | none => none

def class? (m : Mode) (cs : List Char) : Option (Nat × List Char) := do
  let cs ← begin m cs
  endUpTo m (cs.length + 1) .empty [] .front cs

end DurableCalc.Pattern.Brackets
