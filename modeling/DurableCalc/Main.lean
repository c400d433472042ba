import DurableCalc.CommandLine

namespace DurableCalc.Process

def errorNumber (code : UInt32) : UInt32 :=
  min code (0 - code)

def failureOf : IO.Error → Failure
  | .noFileOrDirectory .. => .notFound
  | .alreadyExists .. => .alreadyExists
  | .resourceBusy .. => .busy
  | .inappropriateType _ code details =>
      match errorNumber code with
      | 20 => .notADirectory
      | 21 => .isADirectory
      | _ => .other details
  | .invalidArgument _ code details =>
      match errorNumber code with
      | 22 => .invalidArgument
      | 36 => .nameTooLong
      | _ => .other details
  | e => .other (toString e)

def attempt {α : Type} (act : IO α) : IO (Except Failure α) := do
  try
    return .ok (← act)
  catch e => return .error (failureOf e)

def isThere (path : String) : IO Bool := do
  try
    let _ ← IO.FS.realPath path
    return true
  catch _ => return false

def isDirectory (path : String) : IO Bool :=
  if path = "" then return false else isThere (path ++ "/.")

def createTemporary (directory : String) : IO Files.Temporary := do
  let name := ".tmp" ++ Numeral.write (Int.ofNat (← IO.rand 0 (Nat.pow 2 62)))
  let temporary := Path.names (← IO.FS.realPath directory).toString ++ [name]
  let _ ← IO.FS.Handle.mk (Path.ofNames true temporary) .writeNew
  return temporary

def syncTemporary (temporary : Files.Temporary) : IO Unit := do
  let handle ← IO.FS.Handle.mk (Path.ofNames true temporary) .append
  handle.flush

def files : (c : Files.Call) → IO (Files.Reply c)
  | .makeDirectory path => attempt (IO.FS.createDir path)
  | .isDirectory path => isDirectory path
  | .isThere path => isThere path
  | .read path => attempt (IO.FS.readBinFile path)
  | .openForAppend path =>
      attempt do
        let _ ← IO.FS.Handle.mk path .append
  | .write path bytes => attempt (IO.FS.writeBinFile path bytes)
  | .createTemporary directory => attempt (createTemporary directory)
  | .writeTemporary temporary bytes =>
      attempt (IO.FS.writeBinFile (Path.ofNames true temporary) bytes)
  | .syncTemporary temporary => attempt (syncTemporary temporary)
  | .rename temporary target => attempt (IO.FS.rename (Path.ofNames true temporary) target)
  | .remove temporary => do
      let _ ← attempt (IO.FS.removeFile (Path.ofNames true temporary))

partial def takeLine (input : IO.FS.Stream) (pending : IO.Ref ByteArray) : IO ByteArray := do
  let bytes ← pending.get
  match bytes.findIdx? fun b => b = Journal.terminator with
  | some i => do
      pending.set (bytes.extract (i + 1) bytes.size)
      return bytes.extract 0 (i + 1)
  | none => do
      let more ← input.read 4096
      if more.isEmpty then
        pending.set ByteArray.empty
        return bytes
      else
        pending.set (bytes ++ more)
        takeLine input pending

def print (bytes : ByteArray) : IO Unit := do
  let output ← IO.getStdout
  output.write bytes
  output.flush

def host (input : IO.FS.Stream) (pending : IO.Ref ByteArray) : (c : Host.Call) → IO (Host.Reply c)
  | .files c => files c
  | .takeLine => attempt (takeLine input pending)
  | .print bytes => attempt (print bytes)
  | .complain text => do
      let _ ← attempt (do (← IO.getStderr).putStr text)

def patience : Nat := Nat.pow 2 64

def filterVariable : String := "RUST_LOG"

def environment : IO CommandLine.Environment := do
  let home := (← IO.getEnv "HOME").filter fun h => h ≠ ""
  let filter := (← IO.getEnv filterVariable).getD ""
  return ⟨home, filter⟩

end DurableCalc.Process

def main (args : List String) : IO UInt32 := do
  let env ← DurableCalc.Process.environment
  let host := DurableCalc.Process.host (← IO.getStdin) (← IO.mkRef ByteArray.empty)
  let code ← (DurableCalc.CommandLine.run env args DurableCalc.Process.patience).interpret host
  return UInt32.ofNat code
