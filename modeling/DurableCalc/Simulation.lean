import DurableCalc.Session

namespace DurableCalc

inductive Utterance where
  | line (text : String)
  | failure (text : String)
  deriving DecidableEq, Repr

/-- Which calls fail, by their number. A lost write leaves no trace; a crash comes after the bytes
have landed. -/
structure Schedule where
  userFails : Nat → Bool
  loses : Nat → Bool
  crashes : Nat → Bool
  loadFails : Nat → Bool

namespace Schedule

instance : Coe Bool (Nat → Bool) :=
  ⟨fun fault _ => fault⟩

def faultless : Schedule :=
  ⟨fun _ => false, fun _ => false, fun _ => false, fun _ => false⟩

end Schedule

inductive Event where
  | handedOut (line : String)
  | readFailed
  | ended
  | shown (line : String)
  | showFailed (line : String)
  | stored (bytes : ByteArray)
  | lost (bytes : ByteArray)
  | crashed (bytes : ByteArray)

namespace Event

def isOfStorage : Event → Bool
  | .stored _ | .lost _ | .crashed _ => true
  | _ => false

end Event

structure Simulation where
  script : List Utterance
  bytes : ByteArray
  calls : Nat
  loads : Nat
  writes : Nat
  log : List Event

namespace Simulation

def start (script : List Utterance) (bytes : ByteArray) : Simulation :=
  ⟨script, bytes, 0, 0, 0, []⟩

def note (w : Simulation) (e : Event) : Simulation :=
  { w with log := e :: w.log }

def readLine (s : Schedule) (w : Simulation) : Except Error String × Simulation :=
  let next := { w with calls := w.calls + 1 }
  if s.userFails w.calls then (.error (.transport .induced), next.note .readFailed)
  else
    match w.script with
    | [] => (.error .inputClosed, next.note .ended)
    | .failure text :: rest =>
        (.error (.transport (.other text)), { next with script := rest }.note .readFailed)
    | .line text :: rest => (.ok text, { next with script := rest }.note (.handedOut text))

def showLine (s : Schedule) (line : String) (w : Simulation) : Except Error Unit × Simulation :=
  let next := { w with calls := w.calls + 1 }
  if s.userFails w.calls then (.error (.transport .induced), next.note (.showFailed line))
  else (.ok (), next.note (.shown line))

def load (s : Schedule) (w : Simulation) : Except Failure ByteArray × Simulation :=
  let next := { w with loads := w.loads + 1 }
  if s.loadFails w.loads then (.error .induced, next) else (.ok w.bytes, next)

def store (s : Schedule) (bytes : ByteArray) (w : Simulation) : Except Failure Unit × Simulation :=
  let next := { w with writes := w.writes + 1 }
  if s.loses w.writes then (.error .induced, next.note (.lost bytes))
  else if s.crashes w.writes then (.error .induced, { next with bytes }.note (.crashed bytes))
  else (.ok (), { next with bytes }.note (.stored bytes))

def console (s : Schedule) : Console Simulation :=
  ⟨readLine s, showLine s⟩

def storage (s : Schedule) : Storage Simulation :=
  ⟨load s, store s⟩

def device (s : Schedule) : Handler Device Simulation :=
  Device.handler (console s) (storage s)

def patience (w : Simulation) : Nat :=
  w.script.length + w.bytes.size + 2

def run (s : Schedule) (settings : Settings) (w : Simulation) : Except Error Unit × Simulation :=
  (Session.run settings w.patience).run.run (device s) w

end Simulation

end DurableCalc
