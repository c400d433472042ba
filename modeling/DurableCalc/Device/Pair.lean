import DurableCalc.Device

namespace DurableCalc

variable {σ τ : Type}

def onFirst {α : Type} (f : σ → α × σ) (s : σ × τ) : α × (σ × τ) :=
  ((f s.1).1, ((f s.1).2, s.2))

def onSecond {α : Type} (f : τ → α × τ) (s : σ × τ) : α × (σ × τ) :=
  ((f s.2).1, (s.1, (f s.2).2))

def Console.first (c : Console σ) : Console (σ × τ) :=
  ⟨onFirst c.readLine, fun line => onFirst (c.showLine line)⟩

def Storage.first (s : Storage σ) : Storage (σ × τ) :=
  ⟨onFirst s.load, fun bytes => onFirst (s.store bytes)⟩

def Storage.second (s : Storage τ) : Storage (σ × τ) :=
  ⟨onSecond s.load, fun bytes => onSecond (s.store bytes)⟩

def Storage.cell : Storage ByteArray :=
  ⟨fun bytes => (.ok bytes, bytes), fun bytes _ => (.ok (), bytes)⟩

end DurableCalc
