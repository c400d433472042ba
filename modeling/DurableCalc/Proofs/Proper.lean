import DurableCalc.Proofs.Resume
import DurableCalc.Proofs.Told

namespace DurableCalc

namespace Dialogue

variable {α β : Type}

def Proper : Nat → Option Int64 → Dialogue α → Prop
  | _, _, .done _ => True
  | asks, _, .call (.ask accept) next =>
      (∀ line e, accept line = .error e → e = .notANumber line) ∧
        ∀ a, Proper (asks - 1) none (next a)
  | asks, _, .call (.tell line) next => Journal.Storable line ∧ Proper asks none (next ())
  | asks, last, .call (.draw previous) next =>
      (∀ x, previous = some x → last = some x) ∧ ∀ value, Proper asks (some value) (next value)
  | asks, _, .call (.stop e) _ => asks = 0 ∧ e = .outOfPatience

theorem proper_done (asks : Nat) (last : Option Int64) (a : α) :
    Proper asks last (.done a : Dialogue α) := trivial

theorem proper_ask_bind {accept : String → Except Error α} {asks : Nat} {last : Option Int64}
    {f : α → Dialogue β} (h : ∀ line e, accept line = .error e → e = .notANumber line)
    (hf : ∀ a, Proper (asks - 1) none (f a)) : Proper asks last (ask accept >>= f) :=
  ⟨h, hf⟩

theorem proper_tell_bind {line : String} {asks : Nat} {last : Option Int64}
    {f : Unit → Dialogue β} (h : Journal.Storable line) (hf : Proper asks none (f ())) :
    Proper asks last (tell line >>= f) :=
  ⟨h, hf⟩

theorem proper_draw_bind {previous : Option Int64} {asks : Nat} {last : Option Int64}
    {f : Int64 → Dialogue β} (h : ∀ x, previous = some x → last = some x)
    (hf : ∀ value, Proper asks (some value) (f value)) :
    Proper asks last (draw previous >>= f) :=
  ⟨h, hf⟩

theorem Proper.weaken {d : Dialogue α} {asks asks' : Nat} {last : Option Int64}
    (h : Proper asks last d) (hle : asks' ≤ asks) : Proper asks' last d := by
  induction d generalizing asks asks' last with
  | done a => trivial
  | call c next ih =>
      cases c with
      | ask accept => exact ⟨h.1, fun a => ih a (h.2 a) (Nat.sub_le_sub_right hle 1)⟩
      | tell line => exact ⟨h.1, ih () h.2 hle⟩
      | draw previous => exact ⟨h.1, fun value => ih value (h.2 value) hle⟩
      | stop e => exact ⟨Nat.le_zero.mp (h.1 ▸ hle), h.2⟩

theorem number_refuses {line : String} {e : Error} (h : number line = .error e) :
    e = .notANumber line := by
  unfold number at h
  split at h
  · cases h
  · exact (Except.error.inj h).symm

end Dialogue

open Dialogue (Proper proper_done proper_ask_bind proper_tell_bind proper_draw_bind number_refuses)

namespace Command

variable {β : Type} {asks : Nat} {last : Option Int64}

theorem storable_noSuchCommand : Journal.Storable noSuchCommand := by
  decide

theorem proper_askNumbers_bind (n : Nat) (known : List Int64) {f : List Int64 → Dialogue β}
    (hf : ∀ xs asks last, Proper asks last (f xs)) (asks : Nat) (last : Option Int64) :
    Proper asks last (askNumbers n known >>= f) := by
  induction n generalizing known asks last with
  | zero => exact hf known asks last
  | succ n ih => exact proper_ask_bind (fun _ _ => number_refuses) fun x => ih (x :: known) _ _

theorem proper_draws_bind (n : Nat) {f : Unit → Dialogue β}
    (hf : ∀ asks last, Proper asks last (f ())) (asks : Nat) (last : Option Int64)
    (previous : Option Int64) (h : ∀ x, previous = some x → last = some x) :
    Proper asks last (draws n previous >>= f) := by
  induction n generalizing last previous with
  | zero => exact hf asks last
  | succ n ih =>
      refine proper_draw_bind h fun value => ?_
      exact ih (some value) (some value) fun _ h => h

end Command

namespace Help

variable {β : Type} {last : Option Int64}

theorem proper_tellAll_bind {lines : List String} {f : Unit → Dialogue β} {asks : Nat}
    (h : ∀ line ∈ lines, Journal.Storable line) (hf : ∀ last, Proper asks last (f ())) :
    Proper asks last (tellAll lines >>= f) := by
  induction lines generalizing last with
  | nil => exact hf last
  | cons line lines ih =>
      obtain ⟨hline, hlines⟩ := List.forall_mem_cons.mp h
      exact proper_tell_bind hline (ih hlines)

def Tellable (h : Help) : Prop :=
  ∀ line ∈ [h.intro, h.commandList, h.exitHint, h.unknownTopic] ++ h.topics.map Topic.text,
    Journal.Storable line

theorem tellable_standard : Tellable standard := by
  simp only [Tellable, standard, List.map_cons, List.map_nil, List.cons_append, List.nil_append,
    List.forall_mem_cons]
  decide

theorem storable_of_mem_answer {h : Help} (hh : h.Tellable) {name line : String}
    (hline : line ∈ h.answer name) : Journal.Storable line := by
  unfold answer describe at hline
  split at hline
  · next text htext =>
      obtain ⟨topic, hfind, rfl⟩ := Option.map_eq_some_iff.mp htext
      have htopic := List.mem_map_of_mem (f := Topic.text) (List.mem_of_find?_eq_some hfind)
      simp only [List.mem_cons, List.not_mem_nil, or_false] at hline
      rcases hline with rfl | rfl
      · exact hh _ (List.mem_append_right _ htopic)
      · exact hh _ (by simp)
  · simp only [List.mem_cons, List.not_mem_nil, or_false] at hline
    rcases hline with rfl | rfl | rfl <;> exact hh _ (by simp)

theorem proper_questions_bind {h : Help} (hh : h.Tellable) (n : Nat) {f : Unit → Dialogue β}
    (hf : ∀ asks last, Proper asks last (f ())) (last : Option Int64) :
    Proper n last (h.questions n >>= f) := by
  induction n generalizing last with
  | zero => exact ⟨rfl, rfl⟩
  | succ n ih =>
      rw [questions, bind_assoc]
      refine proper_ask_bind (fun _ _ h => nomatch h) fun name => ?_
      split
      · exact hf _ _
      · rw [bind_assoc]
        exact proper_tellAll_bind (fun line => storable_of_mem_answer hh) ih

end Help

theorem Command.proper_dialogue_bind {β : Type} (patience : Nat) (command : Command)
    {f : Unit → Dialogue β} (hf : ∀ asks last, Proper asks last (f ())) (last : Option Int64) :
    Proper patience last (command.dialogue patience >>= f) := by
  cases command with
  | add =>
      refine proper_ask_bind (fun _ _ => number_refuses) fun a => ?_
      refine proper_ask_bind (fun _ _ => number_refuses) fun b => ?_
      exact proper_tell_bind (Journal.storable_of_solid (Numeral.solid_write _)) (hf _ _)
  | median =>
      rw [dialogue, medianOfMany, bind_assoc]
      refine proper_ask_bind (fun _ _ => number_refuses) fun n => ?_
      rw [bind_assoc]
      refine proper_askNumbers_bind _ _ (fun xs asks last => ?_) _ _
      exact proper_tell_bind (Journal.storable_of_solid (Binary64.solid_toText _)) (hf _ _)
  | rand =>
      refine proper_ask_bind (fun _ _ => number_refuses) fun n => ?_
      exact proper_draws_bind _ hf _ _ none (fun _ h => nomatch h)
  | help =>
      rw [dialogue, Help.dialogue, bind_assoc]
      refine Help.proper_tellAll_bind (fun line hline => ?_) fun last => ?_
      · have hmem : [Help.standard.intro, Help.standard.commandList, Help.standard.exitHint]
            ⊆ [Help.standard.intro, Help.standard.commandList, Help.standard.exitHint,
              Help.standard.unknownTopic] := List.subset_append_left _ _
        exact Help.tellable_standard line (List.mem_append_left _ (hmem hline))
      · exact Help.proper_questions_bind Help.tellable_standard patience hf last
  | exit => exact hf _ _
  | unknown name => exact proper_tell_bind storable_noSuchCommand (hf _ _)

theorem Session.proper_named (patience : Nat) (name : String) :
    Proper patience none (named patience name) := by
  unfold named
  cases Command.ofName name with
  | exit => trivial
  | _ => exact Command.proper_dialogue_bind patience _ (fun _ _ => proper_done _ _ false) none

theorem Session.proper_turn (patience : Nat) : Proper (patience + 1) none (turn patience) :=
  proper_ask_bind (fun _ _ h => nomatch h) (proper_named patience)

namespace Dialogue

variable {α : Type}

theorem Proper.retrace {es : List String} {position asks : Nat} {drawn : Option (Nat × Int64)}
    {d : Dialogue α} (h : Proper asks (drawn.map Prod.snd) d) {st : Standing α}
    (hst : d.retrace es position drawn = .ok st) :
    Proper (asks - es.length) (st.drawn.map Prod.snd) st.rest := by
  induction es generalizing position asks drawn d with
  | nil =>
      obtain rfl := Except.ok.inj hst
      exact h
  | cons e es ih =>
      cases d with
      | done a => cases hst
      | call c next =>
          cases c with
          | ask accept =>
              rw [Dialogue.retrace] at hst
              split at hst
              · have := ih (h.2 _) hst
                rwa [Nat.sub_sub, Nat.add_comm 1] at this
              · cases hst
          | tell line =>
              rw [Dialogue.retrace] at hst
              split at hst
              · exact (ih h.2 hst).weaken (Nat.sub_le_sub_left (Nat.le_succ _) _)
              · cases hst
          | draw previous =>
              rw [Dialogue.retrace] at hst
              split at hst
              · exact (ih (h.2 _) hst).weaken (Nat.sub_le_sub_left (Nat.le_succ _) _)
              · cases hst
          | stop e => cases hst

theorem recordedDraw_refuses {position : Nat} {previous : Option Int64} {recorded : String}
    {error : Error} (h : Replay.recordedDraw position previous recorded = .error error) :
    ∃ expected, error = .replayMismatch position expected recorded := by
  unfold Replay.recordedDraw at h
  split at h
  · exact ⟨_, (Except.error.inj h).symm⟩
  · split at h
    · cases h
    · split at h
      · cases h
      · exact ⟨_, (Except.error.inj h).symm⟩

inductive Flaw (asks : Nat) (es : List String) : Error → Prop where
  | trailing (position remaining : Nat) : Flaw asks es (.trailingTrace position remaining)
  | mismatch (position : Nat) (expected recorded : String) :
      Flaw asks es (.replayMismatch position expected recorded)
  | notANumber (e : String) : e ∈ es → Flaw asks es (.notANumber e)
  | outOfPatience : asks < es.length → Flaw asks es .outOfPatience

theorem Flaw.cons {asks asks' : Nat} {es : List String} {error : Error} (h : Flaw asks es error)
    (e : String) (hle : asks' ≤ asks + 1) : Flaw asks' (e :: es) error := by
  cases h with
  | trailing position remaining => exact .trailing position remaining
  | mismatch position expected recorded => exact .mismatch position expected recorded
  | notANumber e' he' => exact .notANumber e' (List.mem_cons_of_mem e he')
  | outOfPatience h => exact .outOfPatience (Nat.lt_of_le_of_lt hle (Nat.succ_lt_succ h))

theorem Proper.flaw {es : List String} {position asks : Nat} {drawn : Option (Nat × Int64)}
    {last : Option Int64} {d : Dialogue α} (h : Proper asks last d) {error : Error}
    (herror : d.retrace es position drawn = .error error) : Flaw asks es error := by
  induction es generalizing position asks drawn last d with
  | nil => cases herror
  | cons e es ih =>
      cases d with
      | done a =>
          obtain rfl := Except.error.inj herror
          exact .trailing _ _
      | call c next =>
          cases c with
          | ask accept =>
              rw [Dialogue.retrace] at herror
              split at herror
              · exact (ih (h.2 _) herror).cons e (Nat.le_add_of_sub_le (Nat.le_refl _))
              · next e' he' =>
                  obtain rfl := Except.error.inj herror
                  rw [h.1 e e' he']
                  exact .notANumber e (List.mem_cons_self ..)
          | tell line =>
              rw [Dialogue.retrace] at herror
              split at herror
              · exact (ih h.2 herror).cons e (Nat.le_succ asks)
              · obtain rfl := Except.error.inj herror
                exact .mismatch _ _ _
          | draw previous =>
              rw [Dialogue.retrace] at herror
              split at herror
              · exact (ih (h.2 _) herror).cons e (Nat.le_succ asks)
              · next e' he' =>
                  obtain rfl := Except.error.inj herror
                  obtain ⟨expected, rfl⟩ := recordedDraw_refuses he'
                  exact .mismatch _ _ _
          | stop e' =>
              obtain rfl := Except.error.inj herror
              obtain ⟨rfl, rfl⟩ := h
              exact .outOfPatience (Nat.succ_pos _)

end Dialogue

end DurableCalc
