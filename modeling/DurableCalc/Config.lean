import DurableCalc.Path
import DurableCalc.Session
import DurableCalc.Text.Quoted
import DurableCalc.Toml.Document

namespace DurableCalc

structure Config where
  journalPath : String
  defaultSeed : Int64
  exitPolicy : ExitPolicy
  deriving DecidableEq, Repr

inductive Misfit where
  | invalidType (found : String) (expected : String)
  | invalidLength (length : Nat) (expected : String)
  | unknownVariant (name : String)
  | noVariant
  | manyVariants
  | notAVariant
  | variantNotEmpty (kind : String)
  | variantNotATable (kind : String)
  deriving DecidableEq, Repr

namespace Misfit

def message : Misfit → String
  | .invalidType found expected => "invalid type: " ++ found ++ ", expected " ++ expected
  | .invalidLength n expected =>
      "invalid length " ++ Numeral.write n ++ ", expected " ++ expected
  | .unknownVariant name =>
      "unknown variant \x60" ++ name ++ "\x60, expected \x60compact\x60 or \x60clear\x60"
  | .noVariant => "wanted exactly 1 element, found 0 elements"
  | .manyVariants => "wanted exactly 1 element, more than 1 element"
  | .notAVariant => "wanted string or table"
  | .variantNotEmpty kind => "expected empty " ++ kind
  | .variantNotATable kind => "expected table, found " ++ kind

end Misfit

inductive ConfigError where
  | notToml
  | misfit (m : Misfit)
  deriving DecidableEq, Repr

namespace Config

open Toml (Value Fields)

def standard (journalPath : String) : Config :=
  ⟨journalPath, Journal.defaultSeed, .compact⟩

def IsStandard (journalPath : String) (c : Config) : Prop :=
  Path.Equivalent c.journalPath journalPath ∧ c.defaultSeed = Journal.defaultSeed ∧
    c.exitPolicy = .compact

instance (journalPath : String) (c : Config) : Decidable (IsStandard journalPath c) :=
  inferInstanceAs (Decidable (_ ∧ _))

def settings (c : Config) : Settings :=
  ⟨c.defaultSeed, c.exitPolicy⟩

def inQuotes (s : String) : String :=
  "\x60" ++ s ++ "\x60"

def floatText (x : Binary64) : String :=
  match x with
  | .finite .. => if x.toText.toList.contains '.' then x.toText else x.toText ++ ".0"
  | _ => x.toText

def found : Value → String
  | .string s => "string " ++ Text.quoted s
  | .integer n => "integer " ++ inQuotes n.decimal
  | .float x => "floating point " ++ inQuotes (floatText x)
  | .boolean b => "boolean " ++ inQuotes (if b then "true" else "false")
  | .array _ => "sequence"
  | .tables _ => "sequence"
  | .table _ _ => "map"
  | .datetime _ => "map"

def readPath : Value → Except Misfit String
  | .string s => .ok s
  | v => .error (.invalidType (found v) "path string")

def readSeed : Value → Except Misfit Int64
  | .integer n => .ok n
  | v => .error (.invalidType (found v) "i64")

def policyNamed (name : String) : Except Misfit ExitPolicy :=
  if name = "compact" then .ok .compact
  else if name = "clear" then .ok .clear
  else .error (.unknownVariant name)

def checkEmpty : Value → Except Misfit Unit
  | .table _ [] => .ok ()
  | .table _ _ => .error (.variantNotEmpty "table")
  | .array [] => .ok ()
  | .array _ => .error (.variantNotEmpty "table")
  | .tables [] => .ok ()
  | .tables _ => .error (.variantNotEmpty "array")
  | .string _ => .error (.variantNotATable "string")
  | .integer _ => .error (.variantNotATable "integer")
  | .float _ => .error (.variantNotATable "float")
  | .boolean _ => .error (.variantNotATable "boolean")
  | .datetime _ => .error (.variantNotATable "datetime")

def readPolicy : Value → Except Misfit ExitPolicy
  | .string s => policyNamed s
  | .table _ [] => .error .noVariant
  | .table _ [(name, v)] => do
      let policy ← policyNamed name
      checkEmpty v
      return policy
  | .table _ _ => .error .manyVariants
  | _ => .error .notAVariant

def readFields (step : Config → String → Value → Except Misfit Config) :
    Config → Fields → Except Misfit Config
  | c, [] => .ok c
  | c, (k, v) :: fs => do
      let c ← step c k v
      readFields step c fs

def setPath (c : Config) (v : Value) : Except Misfit Config := do
  return { c with journalPath := ← readPath v }

def setSeed (c : Config) (v : Value) : Except Misfit Config := do
  return { c with defaultSeed := ← readSeed v }

def setPolicy (c : Config) (v : Value) : Except Misfit Config := do
  return { c with exitPolicy := ← readPolicy v }

def journalField (c : Config) (key : String) (v : Value) : Except Misfit Config :=
  if key = "path" then setPath c v
  else if key = "default_seed" then setSeed c v
  else .ok c

def sessionField (c : Config) (key : String) (v : Value) : Except Misfit Config :=
  if key = "exit_policy" then setPolicy c v else .ok c

def journalItems (c : Config) : List Value → Except Misfit Config
  | [] => .error (.invalidLength 0 "struct TomlJournalConfig with 2 elements")
  | path :: rest => do
      let c ← setPath c path
      match rest with
      | [] => .error (.invalidLength 1 "struct TomlJournalConfig with 2 elements")
      | seed :: _ => setSeed c seed

def sessionItems (c : Config) : List Value → Except Misfit Config
  | [] => .error (.invalidLength 0 "struct TomlSessionConfig with 1 element")
  | policy :: _ => setPolicy c policy

def section? (expected : String) (field : Config → String → Value → Except Misfit Config)
    (items : Config → List Value → Except Misfit Config) (c : Config) :
    Value → Except Misfit Config
  | .table _ fs => readFields field c fs
  | .array vs => items c vs
  | .tables ts => items c (ts.map (Value.table .headed))
  | .datetime _ => .ok c
  | v => .error (.invalidType (found v) expected)

def topField (c : Config) (key : String) (v : Value) : Except Misfit Config :=
  if key = "journal" then section? "struct TomlJournalConfig" journalField journalItems c v
  else if key = "session" then section? "struct TomlSessionConfig" sessionField sessionItems c v
  else .ok c

def read (base : Config) (text : String) : Except ConfigError Config :=
  match Toml.document? text with
  | none => .error .notToml
  | some fs =>
      match readFields topField base fs with
      | .ok c => .ok c
      | .error m => .error (.misfit m)

def exampleFile : String :=
  Text.unlines
    ["# resumable-calc configuration",
      "#",
      "# Every key is optional; anything left out keeps its built-in default.",
      "",
      "[journal]",
      "# File holding the seed and the trace of the command in flight.",
      "# Defaults to <data dir>/journal.txt",
      "# path = \"/home/me/.resumable-calc/journal.txt\"",
      "",
      "# Seed written into a journal that has never been used.",
      "# default_seed = 420",
      "",
      "[session]",
      "# What \x60exit\x60 leaves behind:",
      "#   \"compact\" - keep the seed so \x60rand\x60 continues next session",
      "#   \"clear\"   - wipe the journal; the next session starts from default_seed",
      "# exit_policy = \"compact\""]

end Config

end DurableCalc
