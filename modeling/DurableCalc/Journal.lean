import DurableCalc.Device
import DurableCalc.Journal.Format

namespace DurableCalc.Journal

def defaultSeed : Int64 := 420

def entries : Attempt (List String) := do
  let bytes ← Attempt.load
  Attempt.of (parse bytes)

def seed : Attempt Int64 := do
  let es ← entries
  Attempt.of (parseSeed es.head?)

def append (entry : String) : Attempt Unit := do
  Attempt.of (validate entry)
  let bytes ← Attempt.load
  Attempt.store .appending (extended bytes entry)

def ensureSeed (seed : Int64) : Attempt Unit := do
  let bytes ← Attempt.load
  if bytes.isEmpty then append seed.decimal

def replaceSeed (seed : Int64) : Attempt Unit := do
  let es ← entries
  match es with
  | [] => throw (.corruptSeed none)
  | _ :: trace => Attempt.store .replacingSeed (render (seed.decimal :: trace))

def compact : Attempt Unit := do
  let es ← entries
  let seed ← Attempt.of (parseSeed es.head?)
  Attempt.store .compacting (render [seed.decimal])

def clear : Attempt Unit :=
  Attempt.store .clearing ByteArray.empty

end DurableCalc.Journal
