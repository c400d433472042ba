import DurableCalc.Toml.Moment
import DurableCalc.Toml.Number
import DurableCalc.Toml.Scanner
import DurableCalc.Toml.Statement

namespace DurableCalc.Toml

def nestingLimit : Nat := 79

namespace Scanner

def isBlank (c : Char) : Bool :=
  c = ' ' || c = '\t'

def skipBlanks : Scanner Unit :=
  skipWhile isBlank

def lineBreak : Scanner Bool := do
  match ← get with
  | '\n' :: cs => do
      set cs
      return true
  | '\r' :: '\n' :: cs => do
      set cs
      return true
  | _ => return false

def skipComment : Scanner Unit := do
  if (← peek) = some '#' then skipWhile fun c => Quotation.isPlain c

def endLine : Scanner Unit := do
  skipBlanks
  skipComment
  if !(← lineBreak) then
    if !(← atEnd) then failure

def skipLinesUpTo : Nat → Scanner Unit
  | 0 => failure
  | n + 1 => do
      skipBlanks
      skipComment
      if ← lineBreak then skipLinesUpTo n

def skipLines : Scanner Unit := do
  skipLinesUpTo ((← get).length + 1)

def comma : Scanner Bool := do
  match ← get with
  | ',' :: cs => do
      set cs
      return true
  | _ => return false

def quotation (scan : List Char → Quotation.Result) : Scanner String :=
  fun cs => (scan cs).map fun (text, rest) => (String.ofList text, rest)

def isBare (c : Char) : Bool :=
  c.isAlphanum || c = '_' || c = '-'

def simpleKey : Scanner String := do
  match ← peek with
  | some '"' => quotation Quotation.oneLine
  | some '\'' => quotation Quotation.oneLine
  | _ =>
      match ← takeWhile isBare with
      | [] => failure
      | cs => return String.ofList cs

def keyPart : Scanner String := do
  skipBlanks
  let k ← simpleKey
  skipBlanks
  return k

def dot : Scanner Bool := do
  match ← get with
  | '.' :: cs => do
      set cs
      return true
  | _ => return false

def path : Scanner KeyPath := do
  let keys ← chain keyPart dot
  if nestingLimit < keys.length then failure
  match KeyPath.ofList? keys with
  | some p => return p
  | none => failure

def isOfToken (c : Char) : Bool :=
  c.isAlphanum || c = '_' || c = '-' || c = '+' || c = '.' || c = ':'

def token : Scanner (List Char) :=
  takeWhile isOfToken

def clockAfterBlank : Scanner (List Char) :=
  fun cs =>
    match cs with
    | ' ' :: rest =>
        let clock := rest.takeWhile isOfToken
        if Moment.isClock true clock then some (' ' :: clock, rest.dropWhile isOfToken)
        else some ([], cs)
    | _ => some ([], cs)

def scalar : Scanner Value := do
  let cs ← token
  if cs = ['t', 'r', 'u', 'e'] then return .boolean true
  else if cs = ['f', 'a', 'l', 's', 'e'] then return .boolean false
  else if Moment.isDate cs then
    return .datetime (String.ofList (cs ++ (← clockAfterBlank)))
  else if Moment.isMoment cs then return .datetime (String.ofList cs)
  else
    match Number.float? cs, Number.integer? cs with
    | some x, _ => return .float x
    | none, some n => return .integer n
    | none, none => failure

def arrayItems (item : Scanner Value) : Scanner (List Value) := do
  skipLines
  if (← peek) = some ']' then return []
  let padded := do
    let v ← item
    skipLines
    return v
  let another := do
    if ← comma then
      skipLines
      return (← peek) ≠ some ']'
    else return false
  chain padded another

def assignment (item : Scanner Value) : Scanner (KeyPath × Value) := do
  let p ← path
  literal ['=']
  skipBlanks
  let v ← item
  return (p, v)

def inlineFields (item : Scanner Value) : Scanner Fields := do
  skipBlanks
  if (← peek) = some '\x7d' then return []
  let padded := do
    let a ← assignment item
    skipBlanks
    return a
  let assignments ← chain padded comma
  match Fields.ofAssignments assignments [] with
  | some fs => return fs
  | none => failure

def leaf : Scanner Value := do
  match ← peek with
  | some '"' => return .string (← quotation Quotation.any)
  | some '\'' => return .string (← quotation Quotation.any)
  | _ => scalar

def value : Nat → Scanner Value
  | 0 => leaf
  | d + 1 => do
      match ← peek with
      | some '[' => do
          literal ['[']
          let items ← arrayItems (value d)
          literal [']']
          return .array items
      | some '\x7b' => do
          literal ['\x7b']
          let fields ← inlineFields (value d)
          literal ['\x7d']
          return .table .inline fields
      | _ => leaf

def header : Scanner Statement := do
  match ← get with
  | '[' :: '[' :: cs => do
      set cs
      let p ← path
      literal [']', ']']
      return .element p
  | _ => do
      literal ['[']
      let p ← path
      literal [']']
      return .table p

def assigned : Scanner Statement := do
  let (p, v) ← assignment (value nestingLimit)
  return .assign p v

def statement : Scanner Statement := do
  let front ← peek
  let s ← if front = some '[' then header else assigned
  endLine
  return s

def statementsUpTo : Nat → Scanner (List Statement)
  | 0 => failure
  | n + 1 => do
      skipLines
      if ← atEnd then return []
      let s ← statement
      return s :: (← statementsUpTo n)

end Scanner

namespace Statement

def dropMark : List Char → List Char
  | '\ufeff' :: cs => cs
  | cs => cs

def ofText? (text : String) : Option (List Statement) :=
  let cs := dropMark text.toList
  ((Scanner.statementsUpTo (cs.length + 1)).run cs).map Prod.fst

end Statement

end DurableCalc.Toml
