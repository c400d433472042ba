import DurableCalc.Error
import DurableCalc.Generator
import DurableCalc.Median

namespace DurableCalc.Calculator

/-- What a line is taken for. `number missing known` is one of the numbers of a median: so many are
missing after it, and these came before it. -/
inductive Mode where
  | name
  | firstTerm
  | secondTerm (a : Int64)
  | medianCount
  | number (missing : Nat) (known : List Int64)
  | randCount
  | topic
  deriving DecidableEq, Repr

inductive Next where
  | listen (mode : Mode)
  | stop (result : Except Error Unit)

structure Reaction where
  shown : List String
  seed : Int64
  next : Next

def answer (seed : Int64) (shown : List String) : Reaction :=
  ⟨shown, seed, .listen .name⟩

def listen (seed : Int64) (mode : Mode) : Reaction :=
  ⟨[], seed, .listen mode⟩

def refuse (seed : Int64) (error : Error) : Reaction :=
  ⟨[], seed, .stop (.error error)⟩

def isBroken (line : String) : Bool :=
  line.toList.any fun c => c = '\n' || c = '\r'

def onNumber (seed : Int64) (line : String) (reaction : Int64 → Reaction) : Reaction :=
  match Numeral.read? line with
  | some n => reaction n
  | none => refuse seed (.notANumber line)

def onText (seed : Int64) (line : String) (reaction : Reaction) : Reaction :=
  if isBroken line then refuse seed (.invalidEntry line) else reaction

def command (seed : Int64) (name : String) : Reaction :=
  match name with
  | "add" => listen seed .firstTerm
  | "median" => listen seed .medianCount
  | "rand" => listen seed .randCount
  | "help" =>
      ⟨["Specify a command to see its help", "Available commands: add, median, rand",
        "To leave help mode, type end"], seed, .listen .topic⟩
  | "exit" => ⟨[], seed, .stop (.ok ())⟩
  | _ => answer seed ["no such command, use help for the command list"]

def medianOf (seed : Int64) : Nat → List Int64 → Reaction
  | 0, known => answer seed [Median.line known]
  | missing + 1, known => listen seed (.number missing known)

def successive : Nat → Int64 → List Int64 × Int64
  | 0, seed => ([], seed)
  | n + 1, seed => (seed :: (successive n (Generator.next seed)).1,
      (successive n (Generator.next seed)).2)

def random (seed : Int64) (n : Nat) : Reaction :=
  let (values, seed') := successive n seed
  answer seed' (values.map Int64.decimal)

def describe (seed : Int64) (shown : List String) : Reaction :=
  ⟨shown ++ ["To leave help mode, type end"], seed, .listen .topic⟩

def explain (seed : Int64) (name : String) : Reaction :=
  match name with
  | "end" => answer seed []
  | "add" => describe seed ["Computes the sum of two numbers"]
  | "median" => describe seed ["Computes the median of a list of numbers"]
  | "rand" => describe seed ["Generates a list of pseudo-random numbers"]
  | _ => describe seed ["No such command", "Available commands: add, median, rand"]

def react (seed : Int64) (mode : Mode) (line : String) : Reaction :=
  match mode with
  | .name => onText seed line (command seed line)
  | .firstTerm => onNumber seed line fun a => listen seed (.secondTerm a)
  | .secondTerm a => onNumber seed line fun b => answer seed [Numeral.write (a.toInt + b.toInt)]
  | .medianCount => onNumber seed line fun n => medianOf seed n.toInt.toNat []
  | .number missing known => onNumber seed line fun x => medianOf seed missing (known ++ [x])
  | .randCount => onNumber seed line fun n => random seed n.toInt.toNat
  | .topic => onText seed line (explain seed line)

structure Report where
  shown : List String
  unread : List String
  result : Except Error Unit
  seed : Int64

def play : Mode → Int64 → List String → Report
  | _, seed, [] => ⟨[], [], .error .inputClosed, seed⟩
  | mode, seed, line :: lines =>
      if Text.isBlank line then play mode seed lines
      else
        let r := react seed mode (Text.trim line)
        match r.next with
        | .stop result => ⟨r.shown, lines, result, r.seed⟩
        | .listen mode' =>
            let report := play mode' r.seed lines
            { report with shown := r.shown ++ report.shown }

end DurableCalc.Calculator
