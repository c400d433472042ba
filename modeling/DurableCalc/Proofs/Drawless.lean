import DurableCalc.Proofs.Retrace
import DurableCalc.Proofs.Resume

namespace DurableCalc

namespace Dialogue

variable {α β : Type}

def Drawless : Dialogue α → Prop
  | .done _ => True
  | .call (.ask _) next => ∀ a, Drawless (next a)
  | .call (.tell _) next => Drawless (next ())
  | .call (.draw _) _ => False
  | .call (.stop _) _ => True

theorem Drawless.bind {d : Dialogue α} {f : α → Dialogue β} (hd : Drawless d)
    (hf : ∀ a, Drawless (f a)) : Drawless (d >>= f) := by
  induction d with
  | done a => exact hf a
  | call c next ih =>
      cases c with
      | ask accept => exact fun a => ih a (hd a)
      | tell line => exact ih () hd
      | draw previous => cases hd
      | stop e => trivial

theorem drawless_ask (accept : String → Except Error α) : Drawless (ask accept) :=
  fun _ => trivial

theorem drawless_tell (line : String) : Drawless (tell line) :=
  trivial

theorem Drawless.retrace {d : Dialogue α} (h : Drawless d) {es : List String} {position : Nat}
    {st : Standing α} (hst : d.retrace es position none = .ok st) :
    st.drawn = none ∧ Drawless st.rest := by
  induction es generalizing d position with
  | nil =>
      obtain rfl := Except.ok.inj hst
      exact ⟨rfl, h⟩
  | cons e es ih =>
      cases d with
      | done a => cases hst
      | call c next =>
          cases c with
          | ask accept =>
              rw [Dialogue.retrace] at hst
              split at hst
              · exact ih (h _) hst
              · cases hst
          | tell line =>
              rw [Dialogue.retrace] at hst
              split at hst
              · have hnext : Drawless (next ()) := h
                exact ih hnext hst
              · cases hst
          | draw previous => cases h
          | stop e => cases hst

end Dialogue

open Dialogue (Drawless drawless_ask drawless_tell)

namespace Help

theorem drawless_tellAll (lines : List String) : Drawless (tellAll lines) := by
  induction lines with
  | nil => trivial
  | cons line lines ih => exact (drawless_tell line).bind fun _ => ih

theorem drawless_questions (h : Help) (n : Nat) : Drawless (h.questions n) := by
  induction n with
  | zero => trivial
  | succ n ih =>
      refine (drawless_ask _).bind fun name => ?_
      split
      · trivial
      · exact (drawless_tellAll _).bind fun _ => ih

theorem drawless_dialogue (h : Help) (patience : Nat) : Drawless (h.dialogue patience) :=
  (drawless_tellAll _).bind fun _ => h.drawless_questions patience

end Help

namespace Command

theorem drawless_askNumbers (n : Nat) (known : List Int64) : Drawless (askNumbers n known) := by
  induction n generalizing known with
  | zero => trivial
  | succ n ih => exact (drawless_ask _).bind fun x => ih (x :: known)

theorem drawless_medianOfMany : Drawless medianOfMany := by
  refine (drawless_ask _).bind fun n => ?_
  exact (drawless_askNumbers _ _).bind fun xs => drawless_tell _

theorem drawless_addition : Drawless addition := by
  refine (drawless_ask _).bind fun a => ?_
  exact (drawless_ask _).bind fun b => drawless_tell _

theorem drawless_dialogue {command : Command} (h : command ≠ .rand) (patience : Nat) :
    Drawless (command.dialogue patience) := by
  cases command with
  | add => exact drawless_addition
  | median => exact drawless_medianOfMany
  | rand => exact absurd rfl h
  | help => exact Help.standard.drawless_dialogue patience
  | exit => trivial
  | unknown name => exact drawless_tell _

end Command

namespace Session

theorem drawless_named {name : String} (h : Command.ofName name ≠ .rand) (patience : Nat) :
    Drawless (named patience name) := by
  unfold named
  cases hname : Command.ofName name with
  | exit => trivial
  | rand => exact absurd hname h
  | _ => exact (Command.drawless_dialogue (by simp) patience).bind fun _ => trivial

theorem rand_of_drawn {trace : List String} {st : Standing Bool} {patience : Nat}
    (hst : (turn patience).retrace trace 1 none = .ok st) (hdrawn : st.drawn ≠ none) :
    ∃ name rest, trace = name :: rest ∧ Command.ofName name = .rand := by
  cases trace with
  | nil =>
      obtain rfl := Except.ok.inj hst
      exact absurd rfl hdrawn
  | cons name rest =>
      rw [retrace_named] at hst
      by_cases hrand : Command.ofName name = .rand
      · exact ⟨name, rest, rfl, hrand⟩
      · exact absurd ((drawless_named hrand patience).retrace hst).1 hdrawn

end Session

end DurableCalc
