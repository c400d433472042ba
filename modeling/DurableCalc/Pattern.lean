import DurableCalc.Pattern.Brackets
import DurableCalc.Text.Alphabetic
import DurableCalc.Text.Numeric

namespace DurableCalc.Pattern

inductive Fault where
  | malformed
  | wordEdge
  deriving DecidableEq, Repr

namespace Fault

def message : Fault → String
  | .malformed => "error building NFA"
  | .wordEdge =>
      "unsupported regex feature for DFAs: cannot build DFAs for regexes with Unicode word "
        ++ "boundaries; switch to ASCII word boundaries, or heuristically enable Unicode word "
        ++ "boundaries or use a different regex engine"

end Fault

structure Reading where
  mode : Mode
  depth : Depth
  around : List (Mode × Depth)
  names : List (List Char)
  repeatable : Bool
  wordEdge : Bool
  deriving DecidableEq, Repr

namespace Reading

def start : Reading :=
  ⟨.standard, .empty, [], [], false, false⟩

def enter (r : Reading) (m : Mode) : Reading :=
  { r with
    mode := m
    depth := .empty
    around := (r.mode, r.depth) :: r.around
    repeatable := false }

def leave? (r : Reading) : Option Reading :=
  match r.around with
  | [] => none
  | (m, d) :: around =>
      some { r with mode := m, depth := d.add (r.depth.total + 1), around, repeatable := true }

def isGroupName : List Char → Bool
  | [] => false
  | c :: cs =>
      (c = '_' || Text.isAlphabetic c)
        && cs.all fun d =>
          d = '_' || d = '.' || d = '[' || d = ']' || Text.isAlphabetic d || Text.isNumeric d

def name? (r : Reading) (cs : List Char) : Option (Reading × List Char) :=
  let name := cs.takeWhile fun c => c ≠ '>'
  match cs.dropWhile fun c => c ≠ '>' with
  | [] => none
  | _ :: rest =>
      if isGroupName name ∧ name ∉ r.names then
        some ({ r.enter r.mode with names := name :: r.names }, rest)
      else none

def areModes (letters : List Char) : Bool :=
  letters.all (fun c => c ∈ ['i', 'm', 's', 'U', 'R', 'u', 'x', '-'])
    && decide letters.Nodup && decide (letters.getLast? ≠ some '-')

def modes? (r : Reading) (cs : List Char) : Option (Reading × List Char) :=
  let isLetter (c : Char) : Bool := c ≠ ':' && c ≠ ')'
  let letters := cs.takeWhile isLetter
  if areModes letters then
    match cs.dropWhile isLetter with
    | ':' :: rest => some (r.enter (r.mode.set letters), rest)
    | ')' :: rest =>
        if letters = [] then none
        else
          some ({ r with
            mode := r.mode.set letters
            depth := r.depth.add 0
            repeatable := false }, rest)
    | _ => none
  else none

def group? (r : Reading) (cs : List Char) : Option (Reading × List Char) :=
  match r.mode.skip cs with
  | '?' :: 'P' :: '<' :: rest => r.name? rest
  | '?' :: '<' :: rest => r.name? rest
  | '?' :: rest => r.modes? rest
  | rest => some (r.enter r.mode, rest)

def item? (r : Reading) (cs : List Char) : Option (Reading × List Char) := do
  let (i, rest) ← Item.outside r.mode cs
  if i.standsAlone r.mode then
    some ({ r with
      depth := r.depth.add 0
      repeatable := true
      wordEdge := r.wordEdge || (r.mode.unicode && decide (i = .wordEdge)) }, rest)
  else none

def brackets? (r : Reading) (cs : List Char) : Option (Reading × List Char) := do
  let (depth, rest) ← Brackets.class? r.mode cs
  some ({ r with depth := r.depth.add depth, repeatable := true }, rest)

def repeat? (r : Reading) (cs : List Char) : Option (Reading × List Char) :=
  let rest := match cs with
    | '?' :: rest => rest
    | rest => rest
  if r.repeatable then some ({ r with depth := r.depth.wrap }, rest) else none

def next? (r : Reading) : List Char → Option (Reading × List Char)
  | '(' :: cs => r.group? cs
  | ')' :: cs => r.leave?.map fun r => (r, cs)
  | '|' :: cs => some ({ r with depth := r.depth.alternative, repeatable := false }, cs)
  | '[' :: cs => r.brackets? cs
  | '?' :: cs => r.repeat? cs
  | '*' :: cs => r.repeat? cs
  | '+' :: cs => r.repeat? cs
  | '\x7b' :: _ => none
  | cs => r.item? cs

def endUpTo : Nat → Reading → List Char → Option Reading
  | 0, _, _ => none
  | n + 1, r, cs =>
      match r.mode.skip cs with
      | [] => some r
      | cs => do
          let (r, cs) ← r.next? cs
          endUpTo n r cs

end Reading

def fault? (cs : List Char) : Option Fault :=
  match Reading.endUpTo (cs.length + 1) .start cs with
  | none => some .malformed
  | some r =>
      if r.around ≠ [] ∨ Depth.limit < r.depth.total then some .malformed
      else if r.wordEdge then some .wordEdge
      else none

end DurableCalc.Pattern
