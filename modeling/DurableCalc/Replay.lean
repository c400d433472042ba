import DurableCalc.Journal

namespace DurableCalc

structure Replay where
  seed : Int64
  past : List String
  ahead : List String
  deriving DecidableEq, Repr

inductive Phase where
  | replaying
  | live
  deriving DecidableEq, Repr

namespace Replay

def cursor (r : Replay) : Nat :=
  r.past.length + 1

def peek (r : Replay) : Option String :=
  r.ahead.head?

def phase (r : Replay) : Phase :=
  if r.ahead = [] then .live else .replaying

def trace (r : Replay) : List String :=
  r.past.reverse ++ r.ahead

def consume (r : Replay) : Replay :=
  match r.ahead with
  | [] => r
  | e :: es => { r with past := e :: r.past, ahead := es }

def extend (r : Replay) (entry : String) : Replay :=
  { r with past := entry :: r.past }

@[simp] theorem trace_consume (r : Replay) : r.consume.trace = r.trace := by
  obtain ⟨seed, past, ahead⟩ := r
  cases ahead <;> simp [consume, trace]

theorem trace_extend {r : Replay} (h : r.ahead = []) (entry : String) :
    (r.extend entry).trace = r.trace ++ [entry] := by
  simp [extend, trace, h]

abbrev Op (α : Type) := ExceptT Error (StateT Replay (Program Device)) α

def lift {α : Type} (p : Attempt α) : Op α :=
  ExceptT.mk fun r => (fun a => (a, r)) <$> p.run

def of {α : Type} (r : Except Error α) : Op α :=
  ExceptT.mk (pure r)

def resume : Attempt Replay := do
  let es ← Journal.entries
  let seed ← Attempt.of (Journal.parseSeed es.head?)
  return ⟨seed, [], es.tail⟩

def record (entry : String) : Op Unit := do
  lift (Journal.append entry)
  modify fun r => r.extend entry

def nextLine : Nat → Attempt String
  | 0 => throw .outOfPatience
  | n + 1 => do
      let line ← Attempt.readLine
      if Text.isBlank line then nextLine n else return Text.trim line

def read {α : Type} (patience : Nat) (accept : String → Except Error α) : Op α := do
  match (← get).ahead with
  | line :: _ =>
      let a ← of (accept line)
      modify consume
      return a
  | [] =>
      let line ← lift (nextLine patience)
      let a ← of (accept line)
      record line
      return a

def readLine (patience : Nat) : Op String :=
  read patience .ok

def showLine (line : String) : Op Unit := do
  let r ← get
  match r.ahead with
  | recorded :: _ =>
      if recorded = line then modify consume
      else throw (.replayMismatch r.cursor line recorded)
  | [] =>
      of (Journal.validate line)
      lift (Attempt.showLine line)
      record line

def storedSeed : Op Int64 :=
  lift Journal.seed

def advance (seed : Int64) : Op Unit := do
  if (← storedSeed) ≠ seed then
    lift (Journal.replaceSeed seed)
    modify fun r => { r with seed }

def ensureFinished : Op Unit := do
  let r ← get
  if r.ahead ≠ [] then throw (.trailingTrace r.cursor r.ahead.length)

def finish : Op Unit := do
  ensureFinished
  lift Journal.compact
  modify fun r => { r with past := [] }

def discard : Op Unit := do
  ensureFinished
  lift Journal.clear

end Replay

end DurableCalc
