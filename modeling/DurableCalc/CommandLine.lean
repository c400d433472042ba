import DurableCalc.CommandLine.Arguments
import DurableCalc.CommandLine.LogFilter
import DurableCalc.Config
import DurableCalc.Files
import DurableCalc.Terminal

namespace DurableCalc

structure Locations where
  data : String
  deriving DecidableEq, Repr

namespace Locations

def directoryName : String :=
  ".resumable-calc"

def choose (given home : Option String) : Locations :=
  match given, home with
  | some d, _ => ⟨d⟩
  | none, some h => ⟨Path.join h directoryName⟩
  | none, none => ⟨directoryName⟩

def journal (l : Locations) : String :=
  Path.join l.data "journal.txt"

def logs (l : Locations) : String :=
  Path.join l.data "logs"

def logFile (l : Locations) : String :=
  Path.join l.logs "resumable-calc.log"

def config (l : Locations) : String :=
  Path.join l.data "config.toml"

end Locations

namespace Host

inductive Call where
  | files (c : Files.Call)
  | takeLine
  | print (bytes : ByteArray)
  | complain (text : String)

abbrev Reply : Call → Type
  | .files c => Files.Reply c
  | .takeLine => Except Failure ByteArray
  | .print _ => Except Failure Unit
  | .complain _ => Unit

end Host

abbrev Host : Interface := ⟨Host.Call, Host.Reply⟩

namespace Host

def onFiles {α : Type} (p : Program Files α) : Program Host α :=
  p.interpret fun c => Program.ask (I := Host) (.files c)

def takeLine : Program Host (Except Failure ByteArray) :=
  Program.ask (I := Host) .takeLine

def print (bytes : ByteArray) : Program Host (Except Failure Unit) :=
  Program.ask (I := Host) (.print bytes)

def complain (text : String) : Program Host Unit :=
  Program.ask (I := Host) (.complain text)

def device (journal : String) : (c : Device.Call) → Program Host (Device.Reply c)
  | .readLine => do
      match ← takeLine with
      | .ok bytes => return Terminal.decode bytes
      | .error f => return .error (.transport f)
  | .showLine line => do
      match ← print (Terminal.encode line) with
      | .ok () => return .ok ()
      | .error f => return .error (.transport f)
  | .load => onFiles (FileStore.load journal)
  | .store bytes => onFiles (FileStore.store journal bytes)

end Host

namespace CommandLine

def name : String := "resumable-calc"

def version : String := "0.1.0"

def versionText : String :=
  name ++ " " ++ version ++ "\n"

def helpText : String :=
  Text.unlines
    ["Crash-safe command-line calculator that resumes mid-command from a durable I/O journal",
      "",
      "Usage: resumable-calc [OPTIONS]",
      "",
      "Options:",
      "      --data-dir <DIR>  Data directory for config, logs and the default journal",
      "      --journal <PATH>  Journal file to use instead of the configured one",
      "      --reset           Wipe the journal before starting (repairs a corrupt seed)",
      "      --inspect         Print the journal entries and exit without running",
      "  -h, --help            Print help",
      "  -V, --version         Print version"]

structure Report where
  headline : String
  causes : List String
  deriving DecidableEq, Repr

namespace Report

def numbered : Nat → List String → String
  | _, [] => ""
  | n, c :: cs => "    " ++ Numeral.write n ++ ": " ++ c ++ "\n" ++ numbered (n + 1) cs

def causesText : List String → String
  | [] => ""
  | [c] => "\nCaused by:\n    " ++ c ++ "\n"
  | cs => "\nCaused by:\n" ++ numbered 0 cs

def text (r : Report) : String :=
  "Error: " ++ r.headline ++ "\n" ++ causesText r.causes

def chain (e : Error) : List String :=
  match e.cause? with
  | some f => [e.message, f.message]
  | none => [e.message]

end Report

abbrev Attempt (α : Type) := ExceptT Report (Program Host) α

def onFiles {α : Type} (report : Failure → Report) (p : Program Files (Except Failure α)) :
    Attempt α :=
  ExceptT.mk do
    match ← Host.onFiles p with
    | .ok a => return .ok a
    | .error f => return .error (report f)

def printLines : List String → Program Host Unit
  | [] => return ()
  | line :: lines => do
      let _ ← Host.print (Terminal.encode line)
      printLines lines

def complainAll : List String → Program Host Unit
  | [] => return ()
  | line :: lines => do
      Host.complain (line ++ "\n")
      complainAll lines

def provideConfig (path : String) : Program Files Unit := do
  if !(← Files.isThere path) then
    let parent := (Path.parent? path).getD ""
    match ← Files.makeDirectories parent with
    | .ok () => do
        let _ ← Files.write path Config.exampleFile.toUTF8
        return ()
    | .error _ => return ()

def loadConfig (l : Locations) : Program Files Config := do
  let standard := Config.standard l.journal
  provideConfig l.config
  match ← Files.read l.config with
  | .error _ => return standard
  | .ok bytes =>
      match String.fromUTF8? bytes with
      | none => return standard
      | some text =>
          match Config.read standard text with
          | .ok c => return c
          | .error _ => return standard

def inspect (journal : String) : Attempt Unit := do
  let bytes ← onFiles (fun f => ⟨"reading " ++ journal, [f.message]⟩) (FileStore.load journal)
  match Journal.parse bytes with
  | .ok entries => ExceptT.lift (printLines entries)
  | .error e => throw ⟨e.message, []⟩

def session (settings : Settings) (journal : String) (patience : Nat) : Attempt Unit := do
  match ← ExceptT.lift ((Session.run settings patience).run.interpret (Host.device journal)) with
  | .ok () => return ()
  | .error .inputClosed => return ()
  | .error e => throw ⟨"journal at " ++ journal, Report.chain e⟩

structure Environment where
  home : Option String
  logFilter : String
  deriving DecidableEq, Repr

def start (env : Environment) (o : Options) (patience : Nat) : Attempt Unit := do
  let l := Locations.choose o.dataDirectory env.home
  onFiles (fun f => ⟨f.message, []⟩) (Files.makeDirectories l.logs)
  onFiles (fun f => ⟨f.message, []⟩) (Files.openForAppend l.logFile)
  ExceptT.lift (complainAll (LogFilter.complaints env.logFilter))
  let config ← ExceptT.lift (Host.onFiles (loadConfig l))
  let journal := o.journal.getD config.journalPath
  if o.reset then
    onFiles (fun f => ⟨"resetting " ++ journal, [f.message]⟩)
      (FileStore.store journal ByteArray.empty)
  if o.inspect then inspect journal else session config.settings journal patience

def run (env : Environment) (args : List String) (patience : Nat) : Program Host Nat := do
  match Request.ofArguments args with
  | .help => do
      let _ ← Host.print helpText.toUTF8
      return 0
  | .version => do
      let _ ← Host.print versionText.toUTF8
      return 0
  | .refused => do
      Host.complain ("Usage: " ++ name ++ " [OPTIONS]\n")
      return 2
  | .start o =>
      match ← (start env o patience).run with
      | .ok () => return 0
      | .error r => do
          Host.complain r.text
          return 1

end CommandLine

end DurableCalc
