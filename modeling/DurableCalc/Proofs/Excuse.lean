import DurableCalc.Proofs.Execution
import DurableCalc.Proofs.Proper

namespace DurableCalc

namespace Simulation

open Attempt (exec exec_bind_ok exec_bind_error)

inductive Excused (w : Simulation) : Error → Prop where
  | storage (operation : Operation) (cause : Failure) : Excused w (.storage operation cause)
  | transport (cause : Failure) : Excused w (.transport cause)
  | inputClosed : Excused w .inputClosed
  | notANumber {line : String} {log : List Event} :
      w.log = .handedOut line :: log → Excused w (.notANumber (Text.trim line))
  | invalidEntry {line : String} {log : List Event} :
      w.log = .handedOut line :: log → Excused w (.invalidEntry (Text.trim line))

theorem Excused.of_log {w w' : Simulation} {e : Error} (h : Excused w e) (hlog : w'.log = w.log) :
    Excused w' e := by
  cases h with
  | storage operation cause => exact .storage operation cause
  | transport cause => exact .transport cause
  | inputClosed => exact .inputClosed
  | notANumber hline => exact .notANumber (hlog.trans hline)
  | invalidEntry hline => exact .invalidEntry (hlog.trans hline)

@[irreducible] def Yields {α : Type} (s : Schedule) (p : Attempt α) (w : Simulation)
    (Q : α → Simulation → Prop) : Prop :=
  match exec (steady s) p w with
  | (.ok a, w') => Q a w'
  | (.error e, w') => Excused w' e

variable {α β : Type} {s : Schedule} {p : Attempt α} {w w' : Simulation}
  {Q : α → Simulation → Prop}

theorem Yields.of_ok {a : α} (h : exec (steady s) p w = (.ok a, w')) (hQ : Q a w') :
    Yields s p w Q := by
  rw [Yields, h]
  exact hQ

theorem Yields.of_error {e : Error} (h : exec (steady s) p w = (.error e, w'))
    (he : Excused w' e) : Yields s p w Q := by
  rw [Yields, h]
  exact he

theorem Yields.of_eq {p' : Attempt α} (h : exec (steady s) p w = exec (steady s) p' w')
    (hp : Yields s p' w' Q) : Yields s p w Q := by
  rw [Yields] at hp ⊢
  rw [h]
  exact hp

theorem Yields.bind_ok {f : α → Attempt β} {a : α} {R : β → Simulation → Prop}
    (h : exec (steady s) p w = (.ok a, w')) (hf : Yields s (f a) w' R) :
    Yields s (p >>= f) w R := by
  rw [Yields] at hf ⊢
  rw [exec_bind_ok h]
  exact hf

theorem Yields.bind_error {f : α → Attempt β} {e : Error} {R : β → Simulation → Prop}
    (h : exec (steady s) p w = (.error e, w')) (he : Excused w' e) :
    Yields s (p >>= f) w R := by
  rw [Yields, exec_bind_error h]
  exact he

theorem Yields.bind {f : α → Attempt β} {R : β → Simulation → Prop} (hp : Yields s p w Q)
    (hf : ∀ a w', Q a w' → Yields s (f a) w' R) : Yields s (p >>= f) w R := by
  unfold Yields at hp
  split at hp
  · next a w' h => exact Yields.bind_ok h (hf a w' hp)
  · next e w' h => exact Yields.bind_error h hp

theorem Yields.mono {R : α → Simulation → Prop} (hp : Yields s p w Q)
    (h : ∀ a w', Q a w' → R a w') : Yields s p w R := by
  unfold Yields at hp ⊢
  split at hp
  · exact h _ _ hp
  · exact hp

theorem yields_of_bind {x : Except Error α} {f : α → Attempt β} {R : β → Simulation → Prop}
    (hok : ∀ a, x = .ok a → Yields s (f a) w R) (herror : ∀ e, x = .error e → Excused w e) :
    Yields s (Attempt.of x >>= f) w R := by
  cases x with
  | ok a => exact Yields.bind_ok rfl (hok a rfl)
  | error e => exact Yields.bind_error rfl (herror e rfl)

theorem yields_store {operation : Operation} {bytes : ByteArray} {Q : Unit → Simulation → Prop}
    (hQ : Q () (w.written (.stored bytes) bytes)) :
    Yields s (Attempt.store operation bytes) w Q := by
  rcases exec_store_cases s operation bytes w with h | h | h
  · exact Yields.of_ok h hQ
  · exact Yields.of_error h (.storage _ _)
  · exact Yields.of_error h (.storage _ _)

theorem yields_showLine {line : String} {Q : Unit → Simulation → Prop}
    (hQ : Q () (w.called (.shown line) w.script)) : Yields s (Attempt.showLine line) w Q := by
  rcases exec_showLine_cases s line w with h | h
  · exact Yields.of_error h (.transport _)
  · exact Yields.of_ok h hQ

theorem yields_nextLine {patience : Nat} (h : w.script.length < patience) :
    Yields s (Replay.nextLine patience) w fun entry w' =>
      w'.bytes = w.bytes ∧ w'.script.length < w.script.length ∧
        Excused w' (.notANumber entry) ∧ Excused w' (.invalidEntry entry) := by
  induction patience generalizing w with
  | zero => exact absurd h (Nat.not_lt_zero _)
  | succ n ih =>
      rw [Replay.nextLine]
      rcases exec_readLine_cases s w with hread | ⟨-, hread⟩ | ⟨text, rest, -, hread⟩ |
        ⟨line, rest, hscript, hread⟩
      · exact Yields.bind_error hread (.transport _)
      · exact Yields.bind_error hread .inputClosed
      · exact Yields.bind_error hread (.transport _)
      · have hlen : rest.length < w.script.length := by simp [hscript]
        refine Yields.bind_ok hread ?_
        split
        · refine (ih (Nat.lt_of_lt_of_le hlen (Nat.le_of_lt_succ h))).mono ?_
          rintro entry w' ⟨hbytes, hless, hexcused⟩
          exact ⟨hbytes, Nat.lt_trans hless hlen, hexcused⟩
        · exact Yields.of_ok rfl ⟨rfl, hlen, .notANumber rfl, .invalidEntry rfl⟩

def Readable (w : Simulation) : Prop :=
  ∃ seed trace, Journal.Opens w.bytes seed trace

theorem yields_append {entry : String} (hw : w.Readable)
    (h : ¬ Journal.Storable entry → Excused w (.invalidEntry entry)) :
    Yields s (Journal.append entry) w fun _ w' => w'.Readable ∧ w'.script = w.script := by
  by_cases hentry : Journal.Storable entry
  · obtain ⟨seed, trace, hopens⟩ := hw
    obtain ⟨trace', hextended⟩ := hopens.extended hentry
    refine Yields.of_eq (Journal.exec_append hentry) (yields_store ⟨?_, rfl⟩)
    exact ⟨seed, trace' ++ [entry], hextended⟩
  · exact Yields.of_error (Journal.exec_append_refused hentry) (h hentry)

theorem yields_seed (hw : w.Readable) :
    Yields s Journal.seed w fun _ w' => w' = w := by
  obtain ⟨seed, trace, hopens⟩ := hw
  exact Yields.of_ok (Journal.exec_seed hopens) rfl

theorem yields_advance (seed : Int64) (hw : w.Readable) :
    Yields s (Live.advance seed) w fun _ w' => w'.Readable ∧ w'.script = w.script := by
  refine (yields_seed hw).bind fun stored w' hw' => ?_
  subst hw'
  split
  · obtain ⟨stored', trace, hopens⟩ := hw
    obtain ⟨trace', hnew⟩ := Journal.opens_render_cons
      (Numeral.storable_decimal seed) (Numeral.readTrimmed?_decimal seed)
      trace
    exact Yields.of_eq (Journal.exec_replaceSeed hopens seed) (yields_store ⟨⟨seed, trace', hnew⟩, rfl⟩)
  · exact Yields.of_ok rfl ⟨hw, rfl⟩

theorem yields_compact (hw : w.Readable) :
    Yields s Journal.compact w fun _ w' => w'.Readable ∧ w'.script = w.script := by
  obtain ⟨seed, trace, hopens⟩ := hw
  have hnew := Journal.opens_render (Numeral.storable_decimal seed)
    (List.forall_mem_nil Journal.Storable) (Numeral.readTrimmed?_decimal seed)
  exact Yields.of_eq (Journal.exec_compact hopens) (yields_store ⟨⟨seed, [], hnew⟩, rfl⟩)

theorem yields_tell {line : String} (h : Journal.Storable line) (hw : w.Readable) :
    Yields s (Live.tell line) w fun _ w' => w'.Readable ∧ w'.script = w.script := by
  have hvalid : exec (steady s) (Attempt.of (Journal.validate line)) w = (.ok (), w) := by
    rw [Attempt.exec_of, Journal.validate_eq_ok_iff.mpr h]
  rw [Live.tell]
  refine Yields.bind_ok hvalid ?_
  refine (yields_showLine (Q := fun _ w' => w'.Readable ∧ w'.script = w.script) ⟨hw, rfl⟩).bind ?_
  rintro _ w' ⟨hw', hscript⟩
  rw [← hscript]
  exact yields_append hw' (absurd h)

theorem yields_ask {accept : String → Except Error α} {patience : Nat}
    (h : ∀ line e, accept line = .error e → e = .notANumber line) (hw : w.Readable)
    (hpatience : w.script.length < patience) :
    Yields s (Live.ask patience accept) w fun _ w' =>
      w'.Readable ∧ w'.script.length < w.script.length := by
  refine (yields_nextLine hpatience).bind ?_
  rintro entry w' ⟨hbytes, hscript, hnumber, hentry⟩
  have hw' : w'.Readable := by
    rw [Readable, hbytes]
    exact hw
  refine yields_of_bind (fun a _ => ?_) fun e he => ?_
  · refine (yields_append hw' fun _ => hentry).bind ?_
    rintro _ w'' ⟨hw'', hsame⟩
    rw [← hsame] at hscript
    exact Yields.of_ok rfl ⟨hw'', hscript⟩
  · rw [h entry e he]
    exact hnumber

theorem yields_draw (hw : w.Readable) :
    Yields s Live.draw w fun _ w' => w'.Readable ∧ w'.script = w.script := by
  have hcommit (value : Int64) (w' : Simulation) (hw' : w'.Readable) (hscript : w'.script = w.script) :
      Yields s (Live.advance (Generator.next value) >>= fun _ => (pure value : Attempt Int64)) w'
        fun _ w'' => w''.Readable ∧ w''.script = w.script := by
    refine (yields_advance _ hw').bind ?_
    rintro _ w'' ⟨hw'', hscript'⟩
    exact Yields.of_ok rfl ⟨hw'', hscript'.trans hscript⟩
  rw [Live.draw]
  refine (yields_seed hw).bind fun value w' hw' => ?_
  subst hw'
  have htell := yields_tell (s := s) (Numeral.storable_decimal value) hw
  refine htell.bind ?_
  rintro _ w' ⟨hw', hscript⟩
  exact hcommit value w' hw' hscript

theorem yields_live {patience asks : Nat} {last : Option Int64} {d : Dialogue α}
    (hd : d.Proper asks last) (hw : w.Readable) (hasks : w.script.length < asks)
    (hpatience : w.script.length < patience) :
    Yields s (d.live patience) w fun _ w' =>
      w'.Readable ∧ w'.script.length ≤ w.script.length := by
  induction d generalizing asks last w with
  | done a => exact Yields.of_ok rfl ⟨hw, Nat.le_refl _⟩
  | call c next ih =>
      rw [Dialogue.live_call]
      cases c with
      | ask accept =>
          refine (yields_ask hd.1 hw hpatience).bind ?_
          rintro a w' ⟨hw', hscript⟩
          refine (ih a (hd.2 a) hw' (by omega) (by omega)).mono ?_
          rintro _ w'' ⟨hw'', hscript'⟩
          exact ⟨hw'', Nat.le_of_lt (Nat.lt_of_le_of_lt hscript' hscript)⟩
      | tell line =>
          refine (yields_tell hd.1 hw).bind ?_
          rintro _ w' ⟨hw', hscript⟩
          rw [← hscript] at hasks hpatience ⊢
          exact ih () hd.2 hw' hasks hpatience
      | draw previous =>
          refine (yields_draw hw).bind ?_
          rintro value w' ⟨hw', hscript⟩
          rw [← hscript] at hasks hpatience ⊢
          exact ih value (hd.2 value) hw' hasks hpatience
      | stop e =>
          obtain rfl := hd.1
          exact absurd hasks (Nat.not_lt_zero _)

end Simulation

namespace Session

open Simulation (Yields Readable yields_ask yields_live yields_compact yields_store)

variable {s : Schedule} {w : Simulation} {policy : ExitPolicy} {patience n : Nat}

theorem yields_turn (hw : w.Readable) (hpatience : w.script.length < patience) :
    Yields s ((turn patience).live patience) w fun _ w' =>
      w'.Readable ∧ w'.script.length < w.script.length := by
  have hask (line : String) (e : Error) (h : (.ok line : Except Error String) = .error e) :
      e = .notANumber line := nomatch h
  rw [live_turn]
  refine (yields_ask hask hw hpatience).bind ?_
  rintro name w' ⟨hw', hscript⟩
  have hless := Nat.lt_trans hscript hpatience
  refine (yields_live (proper_named patience name) hw' hless hless).mono ?_
  rintro _ w'' ⟨hw'', hscript'⟩
  exact ⟨hw'', Nat.lt_of_le_of_lt hscript' hscript⟩

theorem yields_ending (policy : ExitPolicy) (hw : w.Readable) :
    Yields s (ending policy) w fun _ _ => True := by
  cases policy with
  | compact => exact (yields_compact hw).mono fun _ _ _ => trivial
  | clear => exact yields_store trivial

theorem yields_goOn (hw : w.Readable) (hpatience : w.script.length < patience)
    (hn : w.script.length < n) : Yields s (goOn policy patience n) w fun _ _ => True := by
  induction n generalizing w with
  | zero => exact absurd hn (Nat.not_lt_zero _)
  | succ n ih =>
      rw [goOn]
      refine (yields_turn hw hpatience).bind ?_
      rintro exit w' ⟨hw', hscript⟩
      cases exit with
      | true => exact yields_ending policy hw'
      | false =>
          refine (yields_compact hw').bind ?_
          rintro _ w'' ⟨hw'', hsame⟩
          rw [← hsame] at hscript
          exact ih hw'' (Nat.lt_trans hscript hpatience)
            (Nat.lt_of_lt_of_le hscript (Nat.le_of_lt_succ hn))

theorem yields_rest {asks : Nat} {last : Option Int64} {d : Dialogue Bool}
    (hd : d.Proper asks last) (hw : w.Readable) (hasks : w.script.length < asks)
    (hpatience : w.script.length < patience) (hn : w.script.length < n) :
    Yields s (rest policy patience n d) w fun _ _ => True := by
  refine (yields_live hd hw hasks hpatience).bind ?_
  rintro exit w' ⟨hw', hscript⟩
  cases exit with
  | true => exact yields_ending policy hw'
  | false =>
      refine (yields_compact hw').bind ?_
      rintro _ w'' ⟨hw'', hsame⟩
      rw [← hsame] at hscript
      exact yields_goOn hw'' (Nat.lt_of_le_of_lt hscript hpatience) (Nat.lt_of_le_of_lt hscript hn)

end Session

end DurableCalc
