import DurableCalc.Error
import DurableCalc.Program

namespace DurableCalc

namespace Dialogue

inductive Call : Type 1 where
  | ask {α : Type} (accept : String → Except Error α)
  | tell (line : String)
  | draw (previous : Option Int64)
  | stop (error : Error)

abbrev Reply : Call → Type
  | @Call.ask α _ => α
  | .tell _ => Unit
  | .draw _ => Int64
  | .stop _ => Empty

abbrev Exchange : Interface := ⟨Call, Reply⟩

end Dialogue

abbrev Dialogue (α : Type) := Program Dialogue.Exchange α

namespace Dialogue

def ask {α : Type} (accept : String → Except Error α) : Dialogue α :=
  Program.ask (I := Exchange) (.ask accept)

def askLine : Dialogue String :=
  ask .ok

def number (s : String) : Except Error Int64 :=
  match Numeral.readTrimmed? s with
  | some n => .ok n
  | none => .error (.notANumber s)

theorem number_eq_ok_iff {line : String} {n : Int64} :
    number line = .ok n ↔ Numeral.readTrimmed? line = some n := by
  unfold number
  split
  · next m hm => simp [hm]
  · next hm => simp [hm]

def askNumber : Dialogue Int64 :=
  ask number

def tell (line : String) : Dialogue Unit :=
  Program.ask (I := Exchange) (.tell line)

def draw (previous : Option Int64) : Dialogue Int64 :=
  Program.ask (I := Exchange) (.draw previous)

def stop {α : Type} (error : Error) : Dialogue α :=
  .call (.stop error) Empty.elim

end Dialogue

end DurableCalc
