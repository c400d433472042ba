import DurableCalc.Dialogue

namespace DurableCalc

structure Topic where
  name : String
  text : String
  deriving DecidableEq, Repr

structure Help where
  intro : String
  commandList : String
  exitHint : String
  unknownTopic : String
  endWord : String
  topics : List Topic
  deriving DecidableEq, Repr

namespace Help

def standard : Help where
  intro := "Specify a command to see its help"
  commandList := "Available commands: add, median, rand"
  exitHint := "To leave help mode, type end"
  unknownTopic := "No such command"
  endWord := "end"
  topics :=
    [⟨"add", "Computes the sum of two numbers"⟩,
      ⟨"median", "Computes the median of a list of numbers"⟩,
      ⟨"rand", "Generates a list of pseudo-random numbers"⟩]

def describe (h : Help) (name : String) : Option String :=
  (h.topics.find? fun t => t.name = name).map Topic.text

def answer (h : Help) (name : String) : List String :=
  match h.describe name with
  | some text => [text, h.exitHint]
  | none => [h.unknownTopic, h.commandList, h.exitHint]

def tellAll : List String → Dialogue Unit
  | [] => pure ()
  | line :: lines => do
      Dialogue.tell line
      tellAll lines

def questions (h : Help) : Nat → Dialogue Unit
  | 0 => Dialogue.stop .outOfPatience
  | n + 1 => do
      let name ← Dialogue.askLine
      if name = h.endWord then pure ()
      else do
        tellAll (h.answer name)
        h.questions n

def dialogue (h : Help) (patience : Nat) : Dialogue Unit := do
  tellAll [h.intro, h.commandList, h.exitHint]
  h.questions patience

end Help

end DurableCalc
