import DurableCalc.Proofs.Resume

namespace DurableCalc

def Program.Forthright {α : Type} : Program Device (Except Error α) → Prop
  | .done _ => True
  | .call .readLine next =>
      (∀ e, next (.error e) = .done (.error e)) ∧ ∀ line, Forthright (next (.ok line))
  | .call (.showLine _) next =>
      (∀ e, next (.error e) = .done (.error e)) ∧ Forthright (next (.ok ()))
  | .call .load next =>
      (∀ cause, next (.error cause) = .done (.error (.storage .reading cause))) ∧
        ∀ bytes, Forthright (next (.ok bytes))
  | .call (.store _) next =>
      (∃ operation, ∀ cause, next (.error cause) = .done (.error (.storage operation cause))) ∧
        Forthright (next (.ok ()))

namespace Attempt

variable {α β : Type}

def Forthright (p : Attempt α) : Prop :=
  Program.Forthright p.run

theorem forthright_of (r : Except Error α) : Forthright (of r) := trivial

theorem forthright_pure (a : α) : Forthright (pure a) := trivial

theorem forthright_throw (e : Error) : Forthright (throw e : Attempt α) := trivial

theorem forthright_readLine : Forthright readLine := ⟨fun _ => rfl, fun _ => trivial⟩

theorem forthright_showLine (line : String) : Forthright (showLine line) :=
  ⟨fun _ => rfl, trivial⟩

theorem forthright_load : Forthright load := ⟨fun _ => rfl, fun _ => trivial⟩

theorem forthright_store (operation : Operation) (bytes : ByteArray) :
    Forthright (store operation bytes) := ⟨⟨operation, fun _ => rfl⟩, trivial⟩

theorem Forthright.bind {p : Attempt α} {f : α → Attempt β} (hp : Forthright p)
    (hf : ∀ a, Forthright (f a)) : Forthright (p >>= f) := by
  have hstop {q : Program Device (Except Error α)} {e : Error} (h : q = .done (.error e)) :
      q >>= ExceptT.bindCont f = .done (.error e) := by
    rw [h]
    rfl
  have key : ∀ q : Program Device (Except Error α), q.Forthright →
      Program.Forthright (q >>= ExceptT.bindCont f) := by
    intro q hq
    induction q with
    | done r =>
        cases r with
        | ok a => exact hf a
        | error e => trivial
    | call c next ih =>
        cases c with
        | readLine =>
            exact ⟨fun e => hstop (hq.1 e), fun line => ih _ (hq.2 line)⟩
        | showLine line =>
            exact ⟨fun e => hstop (hq.1 e), ih _ hq.2⟩
        | load =>
            exact ⟨fun cause => hstop (hq.1 cause), fun bytes => ih _ (hq.2 bytes)⟩
        | store bytes =>
            obtain ⟨⟨operation, hfails⟩, hnext⟩ := hq
            exact ⟨⟨operation, fun cause => hstop (hfails cause)⟩, ih _ hnext⟩
  exact key p.run hp

end Attempt

namespace Journal

open Attempt

theorem forthright_entries : Forthright entries :=
  forthright_load.bind fun _ => forthright_of _

theorem forthright_seed : Forthright Journal.seed :=
  forthright_entries.bind fun _ => forthright_of _

theorem forthright_append (entry : String) : Forthright (append entry) :=
  (forthright_of _).bind fun _ => forthright_load.bind fun _ => forthright_store _ _

theorem forthright_replaceSeed (seed : Int64) : Forthright (replaceSeed seed) := by
  refine forthright_entries.bind fun es => ?_
  cases es with
  | nil => exact forthright_throw _
  | cons e es => exact forthright_store _ _

theorem forthright_compact : Forthright compact :=
  forthright_entries.bind fun _ => (forthright_of _).bind fun _ => forthright_store _ _

theorem forthright_ensureSeed (seed : Int64) : Forthright (ensureSeed seed) := by
  refine forthright_load.bind fun bytes => ?_
  split
  · exact forthright_append _
  · exact forthright_pure _

end Journal

open Attempt

theorem Replay.forthright_nextLine (patience : Nat) : Forthright (nextLine patience) := by
  induction patience with
  | zero => exact forthright_throw _
  | succ n ih =>
      refine forthright_readLine.bind fun line => ?_
      split
      · exact ih
      · exact forthright_pure _

namespace Live

theorem forthright_advance (seed : Int64) : Forthright (advance seed) := by
  refine Journal.forthright_seed.bind fun stored => ?_
  split
  · exact Journal.forthright_replaceSeed seed
  · exact forthright_pure _

theorem forthright_settle (position : Nat) (value : Int64) : Forthright (settle position value) := by
  refine Journal.forthright_seed.bind fun stored => ?_
  split
  · exact forthright_advance _
  · split
    · exact forthright_throw _
    · exact forthright_pure _

theorem forthright_tell (line : String) : Forthright (tell line) :=
  (forthright_of _).bind fun _ => (forthright_showLine line).bind fun _ => Journal.forthright_append line

theorem forthright_reply (patience : Nat) (c : Dialogue.Call) : Forthright (reply patience c) := by
  cases c with
  | ask accept =>
      exact (Replay.forthright_nextLine patience).bind fun line => (forthright_of _).bind fun _ =>
        (Journal.forthright_append line).bind fun _ => forthright_pure _
  | tell line => exact forthright_tell line
  | draw previous =>
      exact Journal.forthright_seed.bind fun value => (forthright_tell _).bind fun _ =>
        (forthright_advance _).bind fun _ => forthright_pure _
  | stop e => exact forthright_throw e

end Live

theorem Dialogue.forthright_live {α : Type} (patience : Nat) (d : Dialogue α) :
    Forthright (d.live patience) := by
  induction d with
  | done a => exact forthright_pure a
  | call c next ih => exact (Live.forthright_reply patience c).bind ih

theorem Standing.forthright_settle {α : Type} (st : Standing α) : Forthright st.settle := by
  unfold settle
  split
  · exact forthright_pure _
  · exact Live.forthright_settle _ _

namespace Session

theorem forthright_ending (policy : ExitPolicy) : Forthright (ending policy) := by
  cases policy with
  | compact => exact Journal.forthright_compact
  | clear => exact forthright_store _ _

theorem forthright_goOn (policy : ExitPolicy) (patience n : Nat) :
    Forthright (goOn policy patience n) := by
  induction n with
  | zero => exact forthright_throw _
  | succ n ih =>
      refine (Dialogue.forthright_live patience _).bind fun exit => ?_
      split
      · exact forthright_ending policy
      · exact Journal.forthright_compact.bind fun _ => ih

theorem forthright_rest (policy : ExitPolicy) (patience n : Nat) (d : Dialogue Bool) :
    Forthright (rest policy patience n d) := by
  refine (Dialogue.forthright_live patience d).bind fun exit => ?_
  unfold closing
  split
  · exact forthright_ending policy
  · exact Journal.forthright_compact.bind fun _ => forthright_goOn policy patience n

theorem forthright_resume (policy : ExitPolicy) (patience n : Nat) (trace : List String) :
    Forthright (resume policy patience n trace) := by
  unfold resume
  split
  · exact (Standing.forthright_settle _).bind fun _ => forthright_rest policy patience n _
  · exact forthright_throw _

theorem forthright_run (settings : Settings) (n : Nat) : Forthright (run settings (n + 1)) := by
  rw [run_eq]
  exact (Journal.forthright_ensureSeed _).bind fun _ => Journal.forthright_entries.bind fun es =>
    (forthright_of _).bind fun _ => forthright_resume _ _ _ _

end Session

end DurableCalc
