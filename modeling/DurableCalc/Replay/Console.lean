import DurableCalc.Device.Pair
import DurableCalc.Replay

namespace DurableCalc.Replay

variable {σ : Type}

def runOn {α : Type} (device : Handler Device σ) (op : Op α) (s : Replay × σ) :
    Except Error α × (Replay × σ) :=
  let ((result, r), t) := (op.run.run s.1).run device s.2
  (result, (r, t))

def console (device : Handler Device σ) (patience : σ → Nat) : Console (Replay × σ) where
  readLine s := runOn device (Replay.readLine (patience s.2)) s
  showLine line s := runOn device (Replay.showLine line) s

end DurableCalc.Replay
