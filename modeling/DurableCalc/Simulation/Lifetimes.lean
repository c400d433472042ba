import DurableCalc.Simulation

namespace DurableCalc.Simulation

structure Outcome where
  result : Except Error Unit
  events : List Event
  unread : Nat
  bytes : ByteArray

def outcome (s : Schedule) (settings : Settings) (w : Simulation) : Outcome × Simulation :=
  let (result, w) := w.run s settings
  (⟨result, w.log.reverse, w.script.length, w.bytes⟩, { w with log := [] })

structure Occasion where
  settings : Settings
  script : List Utterance
  schedule : Schedule

def lifetimes : List Occasion → ByteArray → List Outcome
  | [], _ => []
  | o :: os, bytes =>
      let (out, w) := (start o.script bytes).outcome o.schedule o.settings
      out :: lifetimes os w.bytes

theorem lifetimes_cons (o : Occasion) (os : List Occasion) (b : ByteArray) :
    lifetimes (o :: os) b
      = ((start o.script b).outcome o.schedule o.settings).1 ::
        lifetimes os ((start o.script b).outcome o.schedule o.settings).1.bytes := rfl

def isInduced : Except Error Unit → Bool
  | .ok _ => false
  | .error e => decide (e.cause? = some .induced)

def isRefusal : Except Error Unit → Bool
  | .error (.notANumber _) | .error (.invalidEntry _) => true
  | _ => false

def persist (again : Except Error Unit → Bool) (s : Schedule) (settings : Settings) :
    Nat → Simulation → List Outcome × Simulation
  | 0, w => ([], w)
  | n + 1, w =>
      let (out, w) := w.outcome s settings
      if again out.result then
        let (outs, w) := persist again s settings n w
        (out :: outs, w)
      else ([out], w)

def survive (s : Schedule) (settings : Settings) : Nat → Simulation → List Outcome × Simulation :=
  persist isInduced s settings

end DurableCalc.Simulation
