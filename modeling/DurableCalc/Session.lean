import DurableCalc.Command
import DurableCalc.Replay.Perform

namespace DurableCalc

inductive ExitPolicy where
  | compact
  | clear
  deriving DecidableEq, Repr

structure Settings where
  defaultSeed : Int64
  exitPolicy : ExitPolicy
  deriving DecidableEq, Repr

namespace Settings

def standard : Settings :=
  ⟨Journal.defaultSeed, .compact⟩

end Settings

namespace Session

def leave : ExitPolicy → Replay.Op Unit
  | .compact => Replay.finish
  | .clear => Replay.discard

def commands (policy : ExitPolicy) (patience : Nat) : Nat → Replay.Op Unit
  | 0 => throw .outOfPatience
  | n + 1 => do
      let name ← Replay.readLine patience
      match Command.ofName name with
      | .exit => leave policy
      | command =>
          Replay.perform patience (command.dialogue patience)
          Replay.finish
          commands policy patience n

def run (settings : Settings) (patience : Nat) : Attempt Unit := do
  Journal.ensureSeed settings.defaultSeed
  let r ← Replay.resume
  ExceptT.mk (Prod.fst <$> (commands settings.exitPolicy patience patience).run.run r)

end Session

end DurableCalc
