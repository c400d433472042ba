import DurableCalc.Failure
import DurableCalc.Numeral
import DurableCalc.Text.Quoted

namespace DurableCalc

inductive Operation where
  | reading
  | appending
  | replacingSeed
  | compacting
  | clearing
  deriving DecidableEq, Repr

namespace Operation

def description : Operation → String
  | .reading => "reading journal"
  | .appending => "appending journal entry"
  | .replacingSeed => "replacing journal seed"
  | .compacting => "compacting journal"
  | .clearing => "clearing journal"

end Operation

inductive Error where
  | storage (operation : Operation) (cause : Failure)
  | transport (cause : Failure)
  | inputClosed
  | corruptJournal
  | corruptSeed (entry : Option String)
  | invalidEntry (entry : String)
  | notANumber (input : String)
  | replayMismatch (position : Nat) (expected recorded : String)
  | trailingTrace (position remaining : Nat)
  | outOfPatience
  deriving DecidableEq, Repr

namespace Error

def count (n : Nat) : String :=
  Numeral.write n

def entryText : Option String → String
  | none => "None"
  | some e => "Some(" ++ Text.quoted e ++ ")"

def message : Error → String
  | .storage o c => "Storage error while " ++ o.description ++ ": " ++ c.message
  | .transport c => "Console I/O error: " ++ c.message
  | .inputClosed => "Console input closed"
  | .corruptJournal => "Journal is not valid UTF-8"
  | .corruptSeed e => "Journal seed is missing or unparseable: " ++ entryText e
  | .invalidEntry e => "Entry cannot be stored in the journal: " ++ Text.quoted e
  | .notANumber s => "Expected an integer, got " ++ Text.quoted s
  | .replayMismatch p e r =>
      "Replay mismatch at entry " ++ count p ++ ": command produced " ++ Text.quoted e
        ++ ", journal recorded " ++ Text.quoted r
  | .trailingTrace p n =>
      "Command finished at entry " ++ count p ++ " but " ++ count n
        ++ " recorded entries were not replayed"
  | .outOfPatience => "Too many lines without an end of the session"

def cause? : Error → Option Failure
  | .storage _ c => some c
  | .transport c => some c
  | _ => none

end Error

end DurableCalc
