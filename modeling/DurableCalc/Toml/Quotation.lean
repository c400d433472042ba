import DurableCalc.Toml.Scanner

namespace DurableCalc.Toml.Quotation

def isPlain (c : Char) : Bool :=
  c = '\t' || (' ' ≤ c && c ≠ '\x7f')

def isHex (c : Char) : Bool :=
  c.isDigit || ('a' ≤ c && c ≤ 'f') || ('A' ≤ c && c ≤ 'F')

def hexValue (c : Char) : Nat :=
  if c.isDigit then c.toNat - '0'.toNat
  else if 'a' ≤ c then c.toNat - 'a'.toNat + 10
  else c.toNat - 'A'.toNat + 10

def codePoint (ds : List Char) : Option Char :=
  if ds.all isHex then
    let n := ds.foldl (fun n c => 16 * n + hexValue c) 0
    if n.isValidChar then some (Char.ofNat n) else none
  else none

def escape : Char → Option Char
  | 'b' => some '\x08'
  | 't' => some '\t'
  | 'n' => some '\n'
  | 'f' => some '\x0c'
  | 'r' => some '\r'
  | '"' => some '"'
  | '\\' => some '\\'
  | _ => none

abbrev Result := Option (List Char × List Char)

def finish (text rest : List Char) : Result :=
  some (text.reverse, rest)

def basic (text : List Char) : List Char → Result
  | [] => none
  | '"' :: cs => finish text cs
  | '\\' :: 'u' :: a :: b :: c :: d :: cs =>
      match codePoint [a, b, c, d] with
      | some x => basic (x :: text) cs
      | none => none
  | '\\' :: 'U' :: a :: b :: c :: d :: e :: f :: g :: h :: cs =>
      match codePoint [a, b, c, d, e, f, g, h] with
      | some x => basic (x :: text) cs
      | none => none
  | '\\' :: c :: cs =>
      match escape c with
      | some x => basic (x :: text) cs
      | none => none
  | c :: cs => if isPlain c then basic (c :: text) cs else none

def quoteLiteral (text : List Char) : List Char → Result
  | [] => none
  | '\'' :: cs => finish text cs
  | c :: cs => if isPlain c then quoteLiteral (c :: text) cs else none

inductive Place where
  | text
  | lineEnd
  | gap

def basicLines (text : List Char) : Place → List Char → Result
  | _, [] => none
  | .gap, ' ' :: cs => basicLines text .gap cs
  | .gap, '\t' :: cs => basicLines text .gap cs
  | .gap, '\n' :: cs => basicLines text .gap cs
  | .gap, '\r' :: '\n' :: cs => basicLines text .gap cs
  | .lineEnd, ' ' :: cs => basicLines text .lineEnd cs
  | .lineEnd, '\t' :: cs => basicLines text .lineEnd cs
  | .lineEnd, '\n' :: cs => basicLines text .gap cs
  | .lineEnd, '\r' :: '\n' :: cs => basicLines text .gap cs
  | .lineEnd, _ => none
  | _, '"' :: '"' :: '"' :: '"' :: '"' :: cs => finish ('"' :: '"' :: text) cs
  | _, '"' :: '"' :: '"' :: '"' :: cs => finish ('"' :: text) cs
  | _, '"' :: '"' :: '"' :: cs => finish text cs
  | _, '\\' :: 'u' :: a :: b :: c :: d :: cs =>
      match codePoint [a, b, c, d] with
      | some x => basicLines (x :: text) .text cs
      | none => none
  | _, '\\' :: 'U' :: a :: b :: c :: d :: e :: f :: g :: h :: cs =>
      match codePoint [a, b, c, d, e, f, g, h] with
      | some x => basicLines (x :: text) .text cs
      | none => none
  | _, '\\' :: ' ' :: cs => basicLines text .lineEnd cs
  | _, '\\' :: '\t' :: cs => basicLines text .lineEnd cs
  | _, '\\' :: '\n' :: cs => basicLines text .gap cs
  | _, '\\' :: '\r' :: '\n' :: cs => basicLines text .gap cs
  | _, '\\' :: c :: cs =>
      match escape c with
      | some x => basicLines (x :: text) .text cs
      | none => none
  | _, '\n' :: cs => basicLines ('\n' :: text) .text cs
  | _, '\r' :: '\n' :: cs => basicLines ('\n' :: text) .text cs
  | _, c :: cs => if isPlain c then basicLines (c :: text) .text cs else none

def literalLines (text : List Char) : List Char → Result
  | [] => none
  | '\'' :: '\'' :: '\'' :: '\'' :: '\'' :: cs => finish ('\'' :: '\'' :: text) cs
  | '\'' :: '\'' :: '\'' :: '\'' :: cs => finish ('\'' :: text) cs
  | '\'' :: '\'' :: '\'' :: cs => finish text cs
  | '\n' :: cs => literalLines ('\n' :: text) cs
  | '\r' :: '\n' :: cs => literalLines ('\n' :: text) cs
  | c :: cs => if isPlain c then literalLines (c :: text) cs else none

def dropBreak : List Char → List Char
  | '\n' :: cs => cs
  | '\r' :: '\n' :: cs => cs
  | cs => cs

def oneLine : List Char → Result
  | '"' :: cs => basic [] cs
  | '\'' :: cs => quoteLiteral [] cs
  | _ => none

def any : List Char → Result
  | '"' :: '"' :: '"' :: cs => basicLines [] .text (dropBreak cs)
  | '\'' :: '\'' :: '\'' :: cs => literalLines [] (dropBreak cs)
  | cs => oneLine cs

end DurableCalc.Toml.Quotation
