import DurableCalc.Simulation.Client

namespace DurableCalc

variable {σ α : Type}

structure Reading (σ : Type) where
  before : Replay × σ
  after : Replay × σ

def Reading.isLive (x : Reading σ) : Bool :=
  x.before.1.phase = .live

structure Dispatch (σ : Type) where
  name : String
  reading : Reading σ
  questions : List (Reading σ)

def Dispatch.readings (d : Dispatch σ) : List (Reading σ) :=
  d.reading :: d.questions

structure Minutes (σ : Type) where
  dispatches : List (Dispatch σ)
  result : Except Error Unit
  left : σ

namespace Minutes

def readings (m : Minutes σ) : List (Reading σ) :=
  m.dispatches.flatMap Dispatch.readings

def cons (d : Dispatch σ) (m : Minutes σ) : Minutes σ :=
  { m with dispatches := d :: m.dispatches }

end Minutes

def Dialogue.Call.isAsk : Dialogue.Call → Bool
  | .ask _ => true
  | _ => false

def Replay.interview (device : Handler Device σ) (patience : Nat) :
    Dialogue α → Replay × σ → List (Reading σ) × (Except Error α × (Replay × σ))
  | .done a, s => ([], (.ok a, s))
  | .call c next, s =>
      match runOn device (reply patience c) s with
      | (.error e, t) => ([], (.error e, t))
      | (.ok r, t) =>
          let (readings, out) := interview device patience (next r) t
          (if c.isAsk then ⟨s, t⟩ :: readings else readings, out)

namespace Session

def minuted (device : Handler Device σ) (policy : ExitPolicy) (patience : Nat) :
    Nat → Replay × σ → Minutes σ
  | 0, s => ⟨[], .error .outOfPatience, s.2⟩
  | n + 1, s =>
      match Replay.runOn device (Replay.readLine patience) s with
      | (.error e, t) => ⟨[], .error e, t.2⟩
      | (.ok name, t) =>
          let command := Command.ofName name
          if command = .exit then
            let (result, u) := Replay.runOn device (leave policy) t
            ⟨[⟨name, ⟨s, t⟩, []⟩], result, u.2⟩
          else
            let (questions, out) := Replay.interview device patience (command.dialogue patience) t
            let dispatch : Dispatch σ := ⟨name, ⟨s, t⟩, questions⟩
            match out with
            | (.error e, u) => ⟨[dispatch], .error e, u.2⟩
            | (.ok (), u) =>
                match Replay.runOn device Replay.finish u with
                | (.error e, v) => ⟨[dispatch], .error e, v.2⟩
                | (.ok (), v) => (minuted device policy patience n v).cons dispatch

def minutes (device : Handler Device σ) (settings : Settings) (patience : Nat) (w : σ) : Minutes σ :=
  match (Replay.reopen settings.defaultSeed).run.run device w with
  | (.error e, w) => ⟨[], .error e, w⟩
  | (.ok r, w) => minuted device settings.exitPolicy patience patience (r, w)

end Session

end DurableCalc
