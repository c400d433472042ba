import DurableCalc.Simulation

namespace DurableCalc

def inTurn {ρ σ α : Type} (serve : ρ → σ → α × σ) : List ρ → σ → List (α × σ)
  | [], _ => []
  | q :: qs, s => serve q s :: inTurn serve qs (serve q s).2

namespace Journal

inductive Request where
  | ensureSeed (standard : Int64)
  | entries
  | seed
  | append (entry : String)
  | replaceSeed (seed : Int64)
  | compact
  | clear
  deriving DecidableEq, Repr

inductive Answer where
  | done
  | entries (es : List String)
  | seed (seed : Int64)
  deriving DecidableEq, Repr

namespace Request

def attempt : Request → Attempt Answer
  | .ensureSeed standard => (fun _ => .done) <$> Journal.ensureSeed standard
  | .entries => .entries <$> Journal.entries
  | .seed => .seed <$> Journal.seed
  | .append entry => (fun _ => .done) <$> Journal.append entry
  | .replaceSeed value => (fun _ => .done) <$> Journal.replaceSeed value
  | .compact => (fun _ => .done) <$> Journal.compact
  | .clear => (fun _ => .done) <$> Journal.clear

def onBytes (q : Request × Schedule) (bytes : ByteArray) : Except Error Answer × ByteArray :=
  let (result, w) := q.1.attempt.run.run (Simulation.device q.2) (Simulation.start [] bytes)
  (result, w.bytes)

inductive Intent where
  | refusal (error : Error)
  | answer (a : Answer)
  | change (operation : Operation) (es : List String)

def intent : Request → List String → Intent
  | .ensureSeed standard, [] => .change .appending [standard.decimal]
  | .ensureSeed _, _ :: _ => .answer .done
  | .entries, es => .answer (.entries es)
  | .seed, es =>
      match parseSeed es.head? with
      | .ok value => .answer (.seed value)
      | .error e => .refusal e
  | .append entry, es =>
      if Storable entry then .change .appending (es ++ [entry]) else .refusal (.invalidEntry entry)
  | .replaceSeed _, [] => .refusal (.corruptSeed none)
  | .replaceSeed value, _ :: trace => .change .replacingSeed (value.decimal :: trace)
  | .compact, es =>
      match parseSeed es.head? with
      | .ok value => .change .compacting [value.decimal]
      | .error e => .refusal e
  | .clear, _ => .change .clearing []

def loads : Request → List String → Nat
  | .ensureSeed _, [] => 2
  | .append entry, _ => if Storable entry then 1 else 0
  | .clear, _ => 0
  | _, _ => 1

def commit {τ : Type} (s : Schedule) (operation : Operation) (old new : τ) :
    Except Error Answer × τ :=
  if s.loses 0 then (.error (.storage operation .induced), old)
  else if s.crashes 0 then (.error (.storage operation .induced), new)
  else (.ok .done, new)

def carryOut (s : Schedule) (number loads : Nat) (es : List String) (i : Intent) :
    Except Error Answer × List String :=
  if (List.range' number loads).any s.loadFails then (.error (.storage .reading .induced), es)
  else
    match i with
    | .refusal e => (.error e, es)
    | .answer a => (.ok a, es)
    | .change operation es' => commit s operation es es'

def onEntries (q : Request × Schedule) (es : List String) : Except Error Answer × List String :=
  carryOut q.2 0 (q.1.loads es) es (q.1.intent es)

end Request

end Journal

end DurableCalc
