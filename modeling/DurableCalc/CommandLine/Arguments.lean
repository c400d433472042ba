namespace DurableCalc.CommandLine

structure Options where
  dataDirectory : Option String
  journal : Option String
  reset : Bool
  inspect : Bool
  deriving DecidableEq, Repr

namespace Options

def none : Options :=
  ⟨.none, .none, false, false⟩

end Options

inductive Request where
  | start (options : Options)
  | help
  | version
  | refused
  deriving DecidableEq, Repr

inductive Argument where
  | plain (text : String)
  | separator
  | long (name : String) (value : Option String)
  | short (letter : Char)
  deriving DecidableEq, Repr

namespace Argument

def divide (before : List Char) : List Char → Argument
  | [] => .long (String.ofList before.reverse) none
  | '=' :: cs => .long (String.ofList before.reverse) (some (String.ofList cs))
  | c :: cs => divide (c :: before) cs

def ofString (s : String) : Argument :=
  match s.toList with
  | ['-', '-'] => .separator
  | '-' :: '-' :: cs => divide [] cs
  | '-' :: c :: _ => .short c
  | _ => .plain s

end Argument

namespace Options

def assign (name value : String) (o : Options) : Option Options :=
  if value = "" then .none
  else if name = "data-dir" then
    if o.dataDirectory.isSome then .none else some { o with dataDirectory := some value }
  else if name = "journal" then
    if o.journal.isSome then .none else some { o with journal := some value }
  else .none

def raise (name : String) (o : Options) : Option Options :=
  if name = "reset" then if o.reset then .none else some { o with reset := true }
  else if name = "inspect" then if o.inspect then .none else some { o with inspect := true }
  else .none

end Options

def takesValue (name : String) : Bool :=
  name = "data-dir" || name = "journal"

def readFrom (wanting : Option String) (o : Options) : List String → Request
  | [] => if wanting.isSome then .refused else .start o
  | a :: as =>
      match wanting, Argument.ofString a with
      | some name, .plain value =>
          match o.assign name value with
          | some o => readFrom none o as
          | none => .refused
      | some _, _ => .refused
      | none, .plain _ => .refused
      | none, .separator => if as = [] then .start o else .refused
      | none, .short c => if c = 'h' then .help else if c = 'V' then .version else .refused
      | none, .long name (some value) =>
          match o.assign name value with
          | some o => readFrom none o as
          | none => .refused
      | none, .long name none =>
          if takesValue name then readFrom (some name) o as
          else if name = "help" then .help
          else if name = "version" then .version
          else
            match o.raise name with
            | some o => readFrom none o as
            | none => .refused

def Request.ofArguments (args : List String) : Request :=
  readFrom none .none args

end DurableCalc.CommandLine
