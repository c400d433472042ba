import DurableCalc.Text.Unprintable
import DurableCalc.Text.GraphemeExtend

namespace DurableCalc.Text.Quoted

def isVisible (c : Char) : Bool :=
  !CodeRange.covers unprintable c && !CodeRange.covers graphemeExtend c

def codePoint (c : Char) : List Char :=
  '\\' :: 'u' :: '{' :: Nat.toDigits 16 c.toNat ++ ['}']

def encodeChar : Char → List Char
  | '"' => ['\\', '"']
  | '\\' => ['\\', '\\']
  | '\n' => ['\\', 'n']
  | '\r' => ['\\', 'r']
  | '\t' => ['\\', 't']
  | '\x00' => ['\\', '0']
  | c => if isVisible c then [c] else codePoint c

def encodeChars : List Char → List Char
  | [] => []
  | c :: cs => encodeChar c ++ encodeChars cs

end Quoted

def quoted (s : String) : String :=
  String.ofList ('"' :: Quoted.encodeChars s.toList ++ ['"'])

end DurableCalc.Text
