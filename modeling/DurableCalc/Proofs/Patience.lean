import DurableCalc.Proofs.Execution
import DurableCalc.Proofs.Resume

namespace DurableCalc

namespace Dialogue

variable {α β : Type}

inductive Within : Dialogue α → Dialogue α → Prop where
  | stop (next : Empty → Dialogue α) (d : Dialogue α) :
      Within (.call (.stop .outOfPatience) next) d
  | done (a : α) : Within (.done a) (.done a)
  | call (c : Call) {next next' : Reply c → Dialogue α} :
      (∀ r, Within (next r) (next' r)) → Within (.call c next) (.call c next')

theorem Within.refl (d : Dialogue α) : Within d d := by
  induction d with
  | done a => exact .done a
  | call c next ih => exact .call c ih

theorem Within.bind {d d' : Dialogue α} {f f' : α → Dialogue β} (h : Within d d')
    (hf : ∀ a, Within (f a) (f' a)) : Within (d >>= f) (d' >>= f') := by
  induction h with
  | stop next d => exact .stop _ _
  | done a => exact hf a
  | call c _ ih => exact .call c ih

end Dialogue

open Dialogue (Within)

theorem Help.within_questions (h : Help) {n m : Nat} (hle : n ≤ m) :
    Within (h.questions n) (h.questions m) := by
  induction n generalizing m with
  | zero => exact .stop _ _
  | succ n ih =>
      cases m with
      | zero => exact absurd hle (Nat.not_succ_le_zero n)
      | succ m =>
          refine (Within.refl _).bind fun name => ?_
          split
          · exact Within.refl _
          · exact (Within.refl _).bind fun _ => ih (Nat.le_of_succ_le_succ hle)

theorem Command.within_dialogue (command : Command) {n m : Nat} (hle : n ≤ m) :
    Within (command.dialogue n) (command.dialogue m) := by
  cases command with
  | help => exact (Within.refl _).bind fun _ => Help.standard.within_questions hle
  | _ => exact Within.refl _

theorem Session.within_turn {n m : Nat} (hle : n ≤ m) : Within (turn n) (turn m) := by
  refine (Within.refl _).bind fun name => ?_
  unfold named
  cases Command.ofName name with
  | exit => exact Within.refl _
  | _ => exact (Command.within_dialogue _ hle).bind fun _ => Within.refl _

namespace Dialogue

variable {α : Type}

theorem Within.retrace {d d' : Dialogue α} (h : Within d d') {es : List String} {position : Nat}
    {drawn : Option (Nat × Int64)} {st : Standing α} (hst : d.retrace es position drawn = .ok st) :
    ∃ rest, d'.retrace es position drawn = .ok ⟨st.drawn, rest⟩ ∧ Within st.rest rest := by
  induction es generalizing d d' position drawn with
  | nil =>
      obtain rfl := Except.ok.inj hst
      exact ⟨d', rfl, h⟩
  | cons e es ih =>
      cases h with
      | stop next d => cases hst
      | done a => cases hst
      | call c hnext =>
          cases c with
          | ask accept =>
              rw [Dialogue.retrace] at hst ⊢
              split at hst
              · exact ih (hnext _) hst
              · cases hst
          | tell line =>
              rw [Dialogue.retrace] at hst ⊢
              split at hst
              · next he =>
                  rw [if_pos he]
                  exact ih (hnext ()) hst
              · cases hst
          | draw previous =>
              rw [Dialogue.retrace] at hst ⊢
              split at hst
              · exact ih (hnext _) hst
              · cases hst
          | stop e => cases hst

theorem Within.retrace_error {d d' : Dialogue α} (h : Within d d') {es : List String}
    {position : Nat} {drawn : Option (Nat × Int64)} {e : Error}
    (he : d.retrace es position drawn = .error e) :
    e = .outOfPatience ∨ d'.retrace es position drawn = .error e := by
  induction es generalizing d d' position drawn with
  | nil => cases he
  | cons entry es ih =>
      cases h with
      | stop next d => exact .inl (Except.error.inj he).symm
      | done a => exact .inr he
      | call c hnext =>
          cases c with
          | ask accept =>
              rw [Dialogue.retrace] at he ⊢
              split at he
              · exact ih (hnext _) he
              · exact .inr he
          | tell line =>
              rw [Dialogue.retrace] at he ⊢
              split at he
              · next hentry =>
                  rw [if_pos hentry]
                  exact ih (hnext ()) he
              · next hentry =>
                  rw [if_neg hentry]
                  exact .inr he
          | draw previous =>
              rw [Dialogue.retrace] at he ⊢
              split at he
              · exact ih (hnext _) he
              · exact .inr he
          | stop e => exact .inr he

end Dialogue

namespace Attempt

variable {σ α β : Type} {h : Handler Device σ}

def Refines (h : Handler Device σ) (p q : Attempt α) : Prop :=
  ∀ s, (exec h p s).1 = .error .outOfPatience ∨ exec h p s = exec h q s

theorem Refines.refl (h : Handler Device σ) (p : Attempt α) : Refines h p p :=
  fun _ => .inr rfl

theorem refines_throw (h : Handler Device σ) (q : Attempt α) :
    Refines h (throw .outOfPatience) q :=
  fun _ => .inl rfl

theorem Refines.bind {p q : Attempt α} {f g : α → Attempt β} (hp : Refines h p q)
    (hf : ∀ a, Refines h (f a) (g a)) : Refines h (p >>= f) (q >>= g) := by
  intro s
  rw [exec_bind, exec_bind]
  rcases hp s with hspent | heq
  · left
    split
    · next a t hexec => rw [hexec] at hspent; cases hspent
    · next e t hexec =>
        rw [hexec] at hspent
        exact congrArg Except.error (Except.error.inj hspent)
  · rw [heq]
    split
    · next a t hexec => exact hf a t
    · exact .inr rfl

end Attempt

open Attempt (Refines refines_throw)

section

variable {σ : Type} (h : Handler Device σ)

theorem Replay.refines_nextLine {n m : Nat} (hle : n ≤ m) :
    Refines h (nextLine n) (nextLine m) := by
  induction n generalizing m with
  | zero => exact refines_throw h _
  | succ n ih =>
      cases m with
      | zero => exact absurd hle (Nat.not_succ_le_zero n)
      | succ m =>
          refine (Refines.refl h _).bind fun line => ?_
          split
          · exact ih (Nat.le_of_succ_le_succ hle)
          · exact Refines.refl h _

theorem Live.refines_reply {n m : Nat} (hle : n ≤ m) (c : Dialogue.Call) :
    Refines h (reply n c) (reply m c) := by
  cases c with
  | ask accept => exact (Replay.refines_nextLine h hle).bind fun _ => Refines.refl h _
  | _ => exact Refines.refl h _

theorem Dialogue.Within.refines_live {α : Type} {d d' : Dialogue α} (hd : Within d d') {n m : Nat}
    (hle : n ≤ m) : Refines h (d.live n) (d'.live m) := by
  induction hd with
  | stop next d => exact refines_throw h _
  | done a => exact Refines.refl h _
  | call c hnext ih => exact (Live.refines_reply h hle c).bind ih

namespace Session

theorem refines_goOn (policy : ExitPolicy) {patience patience' : Nat} (hp : patience ≤ patience')
    {n m : Nat} (hle : n ≤ m) : Refines h (goOn policy patience n) (goOn policy patience' m) := by
  induction n generalizing m with
  | zero => exact refines_throw h _
  | succ n ih =>
      cases m with
      | zero => exact absurd hle (Nat.not_succ_le_zero n)
      | succ m =>
          refine ((within_turn hp).refines_live h hp).bind fun exit => ?_
          split
          · exact Refines.refl h _
          · exact (Refines.refl h _).bind fun _ => ih (Nat.le_of_succ_le_succ hle)

theorem refines_rest (policy : ExitPolicy) {n m : Nat} (hle : n ≤ m) {d d' : Dialogue Bool}
    (hd : Within d d') : Refines h (rest policy (n + 1) n d) (rest policy (m + 1) m d') := by
  have hsucc : n + 1 ≤ m + 1 := Nat.succ_le_succ hle
  refine (hd.refines_live h hsucc).bind fun exit => ?_
  unfold closing
  split
  · exact Refines.refl h _
  · exact (Refines.refl h _).bind fun _ => refines_goOn h policy hsucc hle

theorem refines_resume (policy : ExitPolicy) {n m : Nat} (hle : n ≤ m) (trace : List String) :
    Refines h (resume policy (n + 1) n trace) (resume policy (m + 1) m trace) := by
  have hturn : Within (turn (n + 1)) (turn (m + 1)) := within_turn (Nat.succ_le_succ hle)
  unfold resume
  cases htrace : (turn (n + 1)).retrace trace 1 none with
  | error e =>
      rcases hturn.retrace_error htrace with rfl | htrace'
      · exact refines_throw h _
      · rw [htrace']
        exact Refines.refl h _
  | ok st =>
      obtain ⟨rest, htrace', hrest⟩ := hturn.retrace htrace
      rw [htrace']
      exact (Refines.refl h st.settle).bind fun _ => refines_rest h policy hle hrest

theorem refines_run (settings : Settings) {n m : Nat} (hle : n ≤ m) :
    Refines h (run settings (n + 1)) (run settings (m + 1)) := by
  rw [run_eq, run_eq]
  exact (Refines.refl h _).bind fun _ => (Refines.refl h _).bind fun es =>
    (Refines.refl h _).bind fun _ => refines_resume h settings.exitPolicy hle es.tail

end Session

end

end DurableCalc
