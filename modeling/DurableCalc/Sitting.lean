import DurableCalc.Device.Pair
import DurableCalc.Simulation
import DurableCalc.Terminal

namespace DurableCalc

def Event.of : (c : Device.Call) → Device.Reply c → List Event
  | .readLine, .ok line => [.handedOut line]
  | .readLine, .error .inputClosed => [.ended]
  | .readLine, .error _ => [.readFailed]
  | .showLine line, .ok _ => [.shown line]
  | .showLine line, .error _ => [.showFailed line]
  | .load, _ => []
  | .store bytes, .ok _ => [.stored bytes]
  | .store bytes, .error _ => [.lost bytes]

def Device.observed {σ : Type} (h : Handler Device σ) : Handler Device (σ × List Event) :=
  fun c (s, log) => ((h c s).1, ((h c s).2, Event.of c (h c s).1 ++ log))

namespace Terminal

def left (t : Terminal) : Nat :=
  t.input.foldl (fun n c => n + c.size) 0

def closeLine (bs : List UInt8) : List UInt8 :=
  match bs.getLast? with
  | none => []
  | some b => if b = 10 then bs else bs ++ [10]

end Terminal

structure Sitting where
  input : List UInt8
  room : Option Nat
  flushFails : Nat → Bool

namespace Sitting

structure Outcome where
  result : Except Error Unit
  output : ByteArray
  events : List Event
  taken : List UInt8
  bytes : ByteArray

def terminal (p : Sitting) : Terminal :=
  .start [.bytes p.input] p.room

def device (p : Sitting) : Handler Device (Terminal × ByteArray) :=
  Device.handler (Terminal.console p.flushFails).first Storage.cell.second

def outcome (settings : Settings) (bytes : ByteArray) (p : Sitting) : Outcome :=
  let session := Session.run settings (p.terminal.patience + bytes.size + 1)
  let (result, (t, bytes), log) :=
    session.run.run (Device.observed p.device) ((p.terminal, bytes), [])
  ⟨result, t.output, log.reverse, p.input.take (p.input.length - t.left), bytes⟩

def outcomes (settings : Settings) : List Sitting → ByteArray → List Outcome
  | [], _ => []
  | p :: ps, bytes =>
      let out := p.outcome settings bytes
      out :: outcomes settings ps out.bytes

end Sitting

end DurableCalc
