import DurableCalc.Text.Blank
import DurableCalc.Toml.Quotation

namespace DurableCalc.Pattern

structure Mode where
  foldsCase : Bool
  unicode : Bool
  spaced : Bool
  deriving DecidableEq, Repr

namespace Mode

def standard : Mode :=
  ⟨false, true, false⟩

def dropSpace : Bool → List Char → List Char
  | _, [] => []
  | true, c :: cs => dropSpace (c ≠ '\n') cs
  | false, c :: cs =>
      if c = '#' then dropSpace true cs
      else if Text.isBlankChar c then dropSpace false cs
      else c :: cs

def skip (m : Mode) (cs : List Char) : List Char :=
  if m.spaced then dropSpace false cs else cs

def set (m : Mode) (letters : List Char) : Mode :=
  let on := letters.takeWhile fun c => c ≠ '-'
  let chosen (c : Char) (before : Bool) : Bool :=
    if c ∈ on then true else if c ∈ letters then false else before
  ⟨chosen 'i' m.foldsCase, chosen 'u' m.unicode, chosen 'x' m.spaced⟩

end Mode

inductive Item where
  | character (c : Char) (isByte : Bool)
  | wildcard
  | classLetter (negated : Bool)
  | edge
  | wordEdge
  deriving DecidableEq, Repr

namespace Item

def isAscii (c : Char) : Bool :=
  c.toNat < 0x80

def isClass (m : Mode) (negated : Bool) : Bool :=
  !m.unicode && !negated

def standsAlone (m : Mode) : Item → Bool
  | .character c isByte =>
      if m.unicode then !m.foldsCase else !isByte || isAscii c
  | .wildcard => m.unicode
  | .classLetter negated => isClass m negated
  | .edge => true
  | .wordEdge => true

def isMember (m : Mode) : Item → Bool
  | .character c _ => if m.unicode then !m.foldsCase else isAscii c
  | .classLetter negated => isClass m negated
  | _ => false

def hexDigits (m : Mode) : Nat → List Char → Option (List Char × List Char)
  | 0, cs => some ([], cs)
  | n + 1, cs =>
      match m.skip cs with
      | [] => none
      | c :: rest => (hexDigits m n rest).map fun (ds, rest) => (c :: ds, rest)

def hexadecimal (m : Mode) (isByte : Bool) (n : Nat) (cs : List Char) :
    Option (Item × List Char) := do
  let (ds, rest) ← hexDigits m n cs
  let c ← Toml.Quotation.codePoint ds
  some (.character c isByte, rest)

def escaped : Char → Option Item
  | 'a' => some (.character '\x07' false)
  | 'f' => some (.character '\x0c' false)
  | 'n' => some (.character '\n' false)
  | 'r' => some (.character '\r' false)
  | 't' => some (.character '\t' false)
  | 'v' => some (.character '\x0b' false)
  | 'd' | 's' | 'w' => some (.classLetter false)
  | 'D' | 'S' | 'W' => some (.classLetter true)
  | 'A' | 'z' => some .edge
  | 'b' | 'B' | '<' | '>' => some .wordEdge
  | c => if isAscii c && !c.isAlphanum then some (.character c false) else none

def ofEscape (m : Mode) : List Char → Option (Item × List Char)
  | [] => none
  | 'x' :: cs => hexadecimal m true 2 cs
  | 'u' :: cs => hexadecimal m false 4 cs
  | 'U' :: cs => hexadecimal m false 8 cs
  | c :: cs => (escaped c).map fun i => (i, cs)

def inBrackets (m : Mode) : List Char → Option (Item × List Char)
  | [] => none
  | '\\' :: cs => ofEscape m cs
  | c :: cs => some (.character c false, cs)

def outside (m : Mode) : List Char → Option (Item × List Char)
  | '.' :: cs => some (.wildcard, cs)
  | '^' :: cs => some (.edge, cs)
  | '$' :: cs => some (.edge, cs)
  | cs => inBrackets m cs

end Item

end DurableCalc.Pattern
