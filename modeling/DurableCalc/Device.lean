import DurableCalc.Error
import DurableCalc.Program

namespace DurableCalc

structure Console (σ : Type) where
  readLine : σ → Except Error String × σ
  showLine : String → σ → Except Error Unit × σ

structure Storage (σ : Type) where
  load : σ → Except Failure ByteArray × σ
  store : ByteArray → σ → Except Failure Unit × σ

namespace Device

inductive Call where
  | readLine
  | showLine (line : String)
  | load
  | store (bytes : ByteArray)

abbrev Reply : Call → Type
  | .readLine => Except Error String
  | .showLine _ => Except Error Unit
  | .load => Except Failure ByteArray
  | .store _ => Except Failure Unit

end Device

abbrev Device : Interface := ⟨Device.Call, Device.Reply⟩

def Device.handler {σ : Type} (console : Console σ) (storage : Storage σ) : Handler Device σ
  | .readLine, s => console.readLine s
  | .showLine line, s => console.showLine line s
  | .load, s => storage.load s
  | .store bytes, s => storage.store bytes s

abbrev Attempt (α : Type) := ExceptT Error (Program Device) α

namespace Attempt

def of {α : Type} (r : Except Error α) : Attempt α :=
  ExceptT.mk (pure r)

def readLine : Attempt String :=
  ExceptT.mk (Program.ask (I := Device) .readLine)

def showLine (line : String) : Attempt Unit :=
  ExceptT.mk (Program.ask (I := Device) (.showLine line))

def blame {α : Type} (operation : Operation) : Except Failure α → Except Error α
  | .ok a => .ok a
  | .error f => .error (.storage operation f)

def load : Attempt ByteArray :=
  ExceptT.mk (blame .reading <$> Program.ask (I := Device) .load)

def store (operation : Operation) (bytes : ByteArray) : Attempt Unit :=
  ExceptT.mk (blame operation <$> Program.ask (I := Device) (.store bytes))

end Attempt

end DurableCalc
