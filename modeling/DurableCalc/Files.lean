import DurableCalc.Device
import DurableCalc.Path

namespace DurableCalc

namespace Files

abbrev Temporary := List String

inductive Call where
  | makeDirectory (path : String)
  | isDirectory (path : String)
  | isThere (path : String)
  | read (path : String)
  | openForAppend (path : String)
  | write (path : String) (bytes : ByteArray)
  | createTemporary (directory : String)
  | writeTemporary (temporary : Temporary) (bytes : ByteArray)
  | syncTemporary (temporary : Temporary)
  | rename (temporary : Temporary) (target : String)
  | remove (temporary : Temporary)

abbrev Reply : Call → Type
  | .makeDirectory _ => Except Failure Unit
  | .isDirectory _ => Bool
  | .isThere _ => Bool
  | .read _ => Except Failure ByteArray
  | .openForAppend _ => Except Failure Unit
  | .write _ _ => Except Failure Unit
  | .createTemporary _ => Except Failure Temporary
  | .writeTemporary _ _ => Except Failure Unit
  | .syncTemporary _ => Except Failure Unit
  | .rename _ _ => Except Failure Unit
  | .remove _ => Unit

end Files

abbrev Files : Interface := ⟨Files.Call, Files.Reply⟩

namespace Files

def makeDirectory (path : String) : Program Files (Except Failure Unit) :=
  if Path.holdsNull path then return .error .nullInName
  else Program.ask (I := Files) (.makeDirectory path)

def isDirectory (path : String) : Program Files Bool :=
  if Path.holdsNull path then return false
  else Program.ask (I := Files) (.isDirectory path)

def isThere (path : String) : Program Files Bool :=
  if Path.holdsNull path then return false
  else Program.ask (I := Files) (.isThere path)

def read (path : String) : Program Files (Except Failure ByteArray) :=
  if Path.holdsNull path then return .error .nullInName
  else Program.ask (I := Files) (.read path)

def openForAppend (path : String) : Program Files (Except Failure Unit) :=
  if Path.holdsNull path then return .error .nullInName
  else Program.ask (I := Files) (.openForAppend path)

def write (path : String) (bytes : ByteArray) : Program Files (Except Failure Unit) :=
  if Path.holdsNull path then return .error .nullInName
  else Program.ask (I := Files) (.write path bytes)

def createTemporary (directory : String) : Program Files (Except Failure Temporary) :=
  if Path.holdsNull directory then return .error .nullInName
  else Program.ask (I := Files) (.createTemporary directory)

def writeTemporary (temporary : Temporary) (bytes : ByteArray) :
    Program Files (Except Failure Unit) :=
  Program.ask (I := Files) (.writeTemporary temporary bytes)

def syncTemporary (temporary : Temporary) : Program Files (Except Failure Unit) :=
  Program.ask (I := Files) (.syncTemporary temporary)

def rename (temporary : Temporary) (target : String) : Program Files (Except Failure Unit) :=
  if Path.holdsNull target then return .error .invalidArgument
  else Program.ask (I := Files) (.rename temporary target)

def remove (temporary : Temporary) : Program Files Unit :=
  Program.ask (I := Files) (.remove temporary)

def ensureDirectory (path : String) : Program Files (Except Failure Unit) := do
  match ← makeDirectory path with
  | .ok () => return .ok ()
  | .error f => if ← isDirectory path then return .ok () else return .error f

def makeWithin (path : String) : List String → Program Files (Except Failure Unit)
  | [] => ensureDirectory path
  | up :: above => do
      if path = "" then return .ok ()
      else
        match ← makeDirectory path with
        | .ok () => return .ok ()
        | .error .notFound => do
            match ← makeWithin up above with
            | .ok () => ensureDirectory path
            | .error f => return .error f
        | .error f => if ← isDirectory path then return .ok () else return .error f

def makeDirectories (path : String) : Program Files (Except Failure Unit) :=
  if path = "" then return .ok () else makeWithin path (Path.ancestors path)

end Files

namespace FileStore

def directory (path : String) : String :=
  match Path.parent? path with
  | none => "."
  | some "" => "."
  | some d => d

def load (path : String) : Program Files (Except Failure ByteArray) := do
  match ← Files.read path with
  | .error .notFound => return .ok ByteArray.empty
  | r => return r

def replace (temporary : Files.Temporary) (path : String) (bytes : ByteArray) :
    Program Files (Except Failure Unit) := do
  match ← Files.writeTemporary temporary bytes with
  | .error f => return .error f
  | .ok () =>
      match ← Files.syncTemporary temporary with
      | .error f => return .error f
      | .ok () => Files.rename temporary path

def store (path : String) (bytes : ByteArray) : Program Files (Except Failure Unit) := do
  match ← Files.makeDirectories (directory path) with
  | .error f => return .error f
  | .ok () =>
      match ← Files.createTemporary (directory path) with
      | .error f => return .error f
      | .ok temporary =>
          match ← replace temporary path bytes with
          | .ok () => return .ok ()
          | .error f => do
              Files.remove temporary
              return .error f

def storage {σ : Type} (files : Handler Files σ) (path : String) : Storage σ where
  load := (load path).run files
  store bytes := (store path bytes).run files

end FileStore

end DurableCalc
