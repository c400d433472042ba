import DurableCalc.Numeral
import DurableCalc.Pattern

namespace DurableCalc.CommandLine.LogFilter

/-- How far a directive has been read: nothing yet, a level or target, the inside of a span, the
inside of a field from a place on, past the fields, past the span, or a level from a place on. -/
inductive Reading where
  | start
  | name
  | span
  | field (start : Nat)
  | fields
  | target
  | level (start : Nat)
  deriving DecidableEq, Repr

inductive Complaint where
  | malformed
  | badLevel
  | badField (fault : Pattern.Fault)
  deriving DecidableEq, Repr

namespace Complaint

def message : Complaint → String
  | .malformed => "invalid filter directive"
  | .badLevel =>
      "error parsing level filter: expected one of \"off\", \"error\", \"warn\", \"info\", "
        ++ "\"debug\", \"trace\", or a number 0-5"
  | .badField fault => "invalid field filter: " ++ fault.message

end Complaint

def mayBegin (c : Char) : Bool :=
  c = '-' || c = ':' || c = '_' || Text.isAlphabetic c || Text.isNumeric c

def dropBytes : Nat → List Char → List Char
  | _, [] => []
  | n, c :: cs => if n = 0 then c :: cs else dropBytes (n - c.utf8Size) cs

def takeBytes : Nat → List Char → List Char
  | _, [] => []
  | n, c :: cs => if n = 0 then [] else c :: takeBytes (n - c.utf8Size) cs

def unsigned : List Char → List Char
  | '+' :: cs => cs
  | '-' :: cs => cs
  | cs => cs

def isDecimal (cs : List Char) : Bool :=
  let whole := cs.takeWhile Char.isDigit
  match cs.dropWhile Char.isDigit with
  | [] => whole ≠ []
  | '.' :: fraction => fraction.all Char.isDigit && (whole ≠ [] || fraction ≠ [])
  | _ => false

def isNumber (cs : List Char) : Bool :=
  let cs := unsigned cs
  let inMantissa (c : Char) : Bool := c ≠ 'e' && c ≠ 'E'
  if String.ofList (cs.map Char.toLower) ∈ ["inf", "infinity", "nan"] then true
  else
    isDecimal (cs.takeWhile inMantissa)
      && match cs.dropWhile inMantissa with
        | [] => true
        | _ :: power => (Numeral.natural (unsigned power)).isSome

def value? (field : List Char) : Option (List Char) :=
  match field.dropWhile fun c => c ≠ '=' with
  | [] => none
  | _ :: cs => some (cs.takeWhile fun c => c ≠ '=')

def checkField (field : List Char) : Except Complaint Unit :=
  match value? field with
  | none => .ok ()
  | some v =>
      if isNumber v then .ok ()
      else
        match Pattern.fault? v with
        | none => .ok ()
        | some f => .error (.badField f)

def step (written : List Char) (place : Nat) : Reading → Char → Except Complaint Reading
  | .start, '[' => .ok .span
  | .start, c => if mayBegin c then .ok .name else .error .malformed
  | .name, '=' => .ok (.level (place + 1))
  | .name, '[' => .ok .span
  | .name, _ => .ok .name
  | .target, '=' => .ok (.level (place + 1))
  | .span, ']' => .ok .target
  | .span, '\x7b' => .ok (.field (place + 1))
  | .span, _ => .ok .span
  | .field start, '\x7d' =>
      if start = place then .error .malformed
      else do
        checkField (takeBytes (place - start) (dropBytes start written))
        return .fields
  | .field start, _ => .ok (.field start)
  | .fields, ']' => .ok .target
  | .level start, _ => .ok (.level start)
  | .fields, _ => .error .malformed
  | .target, _ => .error .malformed

def readFrom (written : List Char) : Nat → Reading → List Char → Except Complaint Reading
  | _, r, [] => .ok r
  | place, r, c :: cs => do
      let r ← step written place r c
      readFrom written (place + c.utf8Size) r cs

def levels : List String :=
  ["error", "warn", "info", "debug", "trace", "off"]

def isLevel (text : List Char) : Bool :=
  let digits := match text with
    | '+' :: cs => cs
    | cs => cs
  match Numeral.natural digits with
  | some n => n ≤ 5
  | none => text = [] || levels.contains (String.ofList (text.map Char.toLower))

def finish (written : List Char) : Reading → Except Complaint Unit
  | .name => .ok ()
  | .target => .ok ()
  | .level start => if isLevel (dropBytes start written) then .ok () else .error .badLevel
  | _ => .error .malformed

def check (directive : String) : Except Complaint Unit := do
  let written := directive.toList
  let r ← readFrom written 0 .start (Text.trimChars written)
  finish written r

def split (before : List Char) : List Char → List String
  | [] => [String.ofList before.reverse]
  | c :: cs =>
      if c = ',' then String.ofList before.reverse :: split [] cs else split (c :: before) cs

def complaint? (directive : String) : Option String :=
  match check directive with
  | .ok () => none
  | .error c => some ("ignoring \x60" ++ directive ++ "\x60: " ++ c.message)

def complaints (filter : String) : List String :=
  ((split [] filter.toList).filter fun d => d ≠ "").filterMap complaint?

end DurableCalc.CommandLine.LogFilter
