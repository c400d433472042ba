import DurableCalc.Replay.Console
import DurableCalc.Replay.Perform
import DurableCalc.Simulation

namespace DurableCalc

namespace Dialogue

abbrev Answer : Type 1 :=
  (c : Call) × Except Error (Reply c)

def chosen (choose : List Answer → Option Call) : Nat → List Answer → Dialogue Unit
  | 0, _ => stop .outOfPatience
  | n + 1, given =>
      match choose given with
      | none => pure ()
      | some c => .call c fun r => chosen choose n (given ++ [⟨c, .ok r⟩])

end Dialogue

structure Attendance (α : Type) : Type 1 where
  answers : List Dialogue.Answer
  result : Except Error α

namespace Replay

variable {σ α : Type}

def reopen (standard : Int64) : Attempt Replay := do
  Journal.ensureSeed standard
  resume

def attend (device : Handler Device σ) (patience : σ → Nat) :
    Dialogue α → Replay × σ → Attendance α × (Replay × σ)
  | .done a, s => (⟨[], .ok a⟩, s)
  | .call c next, s =>
      match runOn device (reply (patience s.2) c) s with
      | (.error e, s) => (⟨[⟨c, .error e⟩], .error e⟩, s)
      | (.ok r, s) =>
          let (x, s) := attend device patience (next r) s
          (⟨⟨c, .ok r⟩ :: x.answers, x.result⟩, s)

end Replay

namespace Simulation

variable {α : Type}

structure Visit (α : Type) : Type 1 where
  answers : List Dialogue.Answer
  result : Except Error α
  events : List Event
  bytes : ByteArray
  unread : List Utterance

def Visit.isInterrupted (v : Visit α) : Bool :=
  match v.events.getLast? with
  | some .readFailed | some (.showFailed _) | some (.lost _) | some (.crashed _) => true
  | _ => false

def attempt (s : Schedule) (standard : Int64) (d : Dialogue α) (w : Simulation) :
    Visit α × Simulation :=
  match (Replay.reopen standard).run.run (device s) w with
  | (.error e, w) => (⟨[], .error e, w.log.reverse, w.bytes, w.script⟩, { w with log := [] })
  | (.ok r, w) =>
      let (x, _, w) := Replay.attend (device s) patience d (r, w)
      (⟨x.answers, x.result, w.log.reverse, w.bytes, w.script⟩, { w with log := [] })

def attempts (s : Schedule) (standard : Int64) (d : Dialogue α) : Nat → Simulation → List (Visit α)
  | 0, _ => []
  | n + 1, w =>
      let (v, w) := attempt s standard d w
      if v.isInterrupted then v :: attempts s standard d n w else [v]

end Simulation

end DurableCalc
