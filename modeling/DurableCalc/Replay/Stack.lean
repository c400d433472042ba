import DurableCalc.Simulation.Client

namespace DurableCalc.Replay

section

variable {σ : Type} (user : Console σ)

def lower : Handler Device (σ × ByteArray) :=
  Device.handler user.first Storage.cell.second

def upper (storage : Storage σ) (patience : σ → Nat) : Handler Device (Replay × σ × ByteArray) :=
  Device.handler (console (lower user) fun s => patience s.1) storage.first.second

end

inductive Action : Type 1 where
  | read {α : Type} (accept : String → Except Error α)
  | showLine (line : String)
  | advance (seed : Int64)
  | finish

namespace Action

abbrev Reply : Action → Type
  | @read α _ => α
  | _ => Unit

def op (patience : Nat) : (a : Action) → Op a.Reply
  | .read accept => Replay.read patience accept
  | .showLine line => Replay.showLine line
  | .advance seed => Replay.advance seed
  | .finish => Replay.finish

end Action

inductive Order : Type 1 where
  | act (a : Action)
  | reopen (standard : Int64)

namespace Order

abbrev Reply : Order → Type
  | .act a => a.Reply
  | .reopen _ => Unit

variable {τ : Type}

def serve (device : Handler Device τ) (patience : τ → Nat) :
    (o : Order) → Option Replay × τ → Option (Except Error o.Reply) × (Option Replay × τ)
  | .act _, (none, t) => (none, (none, t))
  | .act a, (some r, t) =>
      let (result, r, t) := runOn device (a.op (patience t)) (r, t)
      (some result, (some r, t))
  | .reopen standard, (_, t) =>
      match (Replay.reopen standard).run.run device t with
      | (.ok r, t) => (some (.ok ()), (some r, t))
      | (.error e, t) => (some (.error e), (none, t))

def after (device : Handler Device τ) (patience : τ → Nat) (os : List Order)
    (s : Option Replay × τ) : Option Replay × τ :=
  os.foldl (fun s o => (o.serve device patience s).2) s

end Order

end DurableCalc.Replay
