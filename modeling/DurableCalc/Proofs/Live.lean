import DurableCalc.Session

namespace DurableCalc

namespace Replay

variable {α β : Type}

def outcome (op : Op α) (r : Replay) : Attempt α :=
  ExceptT.mk (Prod.fst <$> op.run.run r)

theorem outcome_pure (a : α) (r : Replay) : outcome (pure a) r = pure a := rfl

theorem outcome_bind (op : Op α) (k : α → Op β) (r : Replay) :
    outcome (op >>= k) r = ExceptT.mk (op.run.run r >>= fun x =>
      match x.1 with
      | .ok a => (outcome (k a) x.2).run
      | .error e => pure (.error e)) := by
  apply ExceptT.ext
  simp only [outcome, ExceptT.run_bind, StateT.run_bind, map_bind, ExceptT.run_mk]
  congr 1
  funext x
  obtain ⟨x, r'⟩ := x
  cases x <;> rfl

theorem outcome_get_bind (k : Replay → Op β) (r : Replay) :
    outcome (get >>= k) r = outcome (k r) r := rfl

theorem outcome_modify_bind (f : Replay → Replay) (k : Unit → Op β) (r : Replay) :
    outcome (modify f >>= k) r = outcome (k ()) (f r) := rfl

theorem outcome_throw_bind (e : Error) (k : α → Op β) (r : Replay) :
    outcome (throw e >>= k) r = throw e := rfl

theorem outcome_of_bind (x : Except Error α) (k : α → Op β) (r : Replay) :
    outcome (of x >>= k) r = Attempt.of x >>= fun a => outcome (k a) r := by
  cases x <;> rfl

theorem outcome_lift_bind (p : Attempt α) (k : α → Op β) (r : Replay) :
    outcome (lift p >>= k) r = p >>= fun a => outcome (k a) r := by
  apply ExceptT.ext
  rw [outcome_bind]
  simp only [lift, ExceptT.run_mk, ExceptT.run_bind, StateT.run]
  rw [bind_map_left]
  congr 1
  funext x
  cases x <;> rfl

end Replay

namespace Live

def advance (seed : Int64) : Attempt Unit := do
  if (← Journal.seed) ≠ seed then Journal.replaceSeed seed

def settle (position : Nat) (value : Int64) : Attempt Unit := do
  let seed ← Journal.seed
  if seed = value then advance (Generator.next value)
  else if seed ≠ Generator.next value then
    throw (.replayMismatch position seed.decimal value.decimal)

def tell (line : String) : Attempt Unit := do
  Attempt.of (Journal.validate line)
  Attempt.showLine line
  Journal.append line

def ask {α : Type} (patience : Nat) (accept : String → Except Error α) : Attempt α := do
  let line ← Replay.nextLine patience
  let a ← Attempt.of (accept line)
  Journal.append line
  return a

def draw : Attempt Int64 := do
  let value ← Journal.seed
  tell value.decimal
  advance (Generator.next value)
  return value

def reply (patience : Nat) : (c : Dialogue.Call) → Attempt (Dialogue.Reply c)
  | .ask accept => ask patience accept
  | .tell line => tell line
  | .draw _ => draw
  | .stop error => throw error

end Live

def Dialogue.live {α : Type} (patience : Nat) (d : Dialogue α) : Attempt α :=
  d.interpret (Live.reply patience)

theorem Dialogue.live_call {α : Type} (patience : Nat) (c : Dialogue.Call)
    (next : Dialogue.Reply c → Dialogue α) :
    Dialogue.live patience (.call c next)
      = Live.reply patience c >>= fun r => (next r).live patience := rfl

namespace Replay

variable {α β : Type}

theorem outcome_advance_bind (seed : Int64) {k : Unit → Op β} {k' : Unit → Attempt β} {r : Replay}
    (hk : ∀ r', r'.ahead = r.ahead → outcome (k ()) r' = k' ()) :
    outcome (advance seed >>= k) r = Live.advance seed >>= k' := by
  simp only [advance, storedSeed, Live.advance, bind_assoc, outcome_lift_bind]
  refine bind_congr fun stored => ?_
  by_cases h : stored = seed
  · simp only [ne_eq, h, not_true_eq_false, if_false, pure_bind]
    exact hk r rfl
  · simp only [ne_eq, h, not_false_eq_true, if_true, bind_assoc, outcome_lift_bind,
      outcome_modify_bind]
    exact bind_congr fun _ => hk _ rfl

theorem outcome_settle_bind (position : Nat) (value : Int64) {k : Unit → Op β}
    {k' : Unit → Attempt β} {r : Replay} (hk : ∀ r', r'.ahead = r.ahead → outcome (k ()) r' = k' ()) :
    outcome (settle position value >>= k) r = Live.settle position value >>= k' := by
  simp only [settle, storedSeed, Live.settle, bind_assoc, outcome_lift_bind]
  refine bind_congr fun seed => ?_
  split
  · exact outcome_advance_bind _ hk
  · split
    · rfl
    · simp only [pure_bind]
      exact hk r rfl

theorem outcome_showLine_bind (line : String) {k : Unit → Op β} {k' : Unit → Attempt β}
    {r : Replay} (hr : r.ahead = []) (hk : ∀ r', r'.ahead = [] → outcome (k ()) r' = k' ()) :
    outcome (showLine line >>= k) r = Live.tell line >>= k' := by
  simp only [showLine, Live.tell, record, bind_assoc, outcome_get_bind, hr, outcome_of_bind,
    outcome_lift_bind, outcome_modify_bind]
  exact bind_congr fun _ => bind_congr fun _ => bind_congr fun _ => hk _ hr

theorem outcome_read_bind (patience : Nat) (accept : String → Except Error α) {k : α → Op β}
    {k' : α → Attempt β} {r : Replay} (hr : r.ahead = [])
    (hk : ∀ a r', r'.ahead = [] → outcome (k a) r' = k' a) :
    outcome (read patience accept >>= k) r = Live.ask patience accept >>= k' := by
  simp only [read, Live.ask, record, bind_assoc, outcome_get_bind, hr, outcome_of_bind,
    outcome_lift_bind, outcome_modify_bind, pure_bind]
  exact bind_congr fun _ => bind_congr fun _ => bind_congr fun _ => hk _ _ hr

theorem outcome_draw_bind (previous : Option Int64) {k : Int64 → Op β}
    {k' : Int64 → Attempt β} {r : Replay} (hr : r.ahead = [])
    (hk : ∀ a r', r'.ahead = [] → outcome (k a) r' = k' a) :
    outcome (draw previous >>= k) r = Live.draw >>= k' := by
  rw [draw, bind_assoc, outcome_get_bind, hr]
  simp only [bind_assoc, pure_bind]
  rw [storedSeed, outcome_lift_bind, Live.draw, bind_assoc]
  refine bind_congr fun value => ?_
  simp only [bind_assoc, pure_bind]
  apply outcome_showLine_bind _ hr
  intro r' hr'
  exact outcome_advance_bind _ fun r'' hr'' => hk value r'' (hr''.trans hr')

theorem outcome_perform_live (patience : Nat) (d : Dialogue α) {k : α → Op β} {k' : α → Attempt β}
    (hk : ∀ a r, r.ahead = [] → outcome (k a) r = k' a) {r : Replay} (hr : r.ahead = []) :
    outcome (perform patience d >>= k) r = d.live patience >>= k' := by
  induction d generalizing r with
  | done a => exact hk a r hr
  | call c next ih =>
      simp only [perform, Dialogue.live, Program.interpret, bind_assoc] at ih ⊢
      cases c with
      | ask accept => exact outcome_read_bind patience accept hr fun a _ => ih a
      | tell line => exact outcome_showLine_bind line hr fun _ => ih ()
      | draw previous => exact outcome_draw_bind previous hr fun a _ => ih a
      | stop error => rfl

end Replay

end DurableCalc
