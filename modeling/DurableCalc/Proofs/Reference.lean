import DurableCalc.Calculator
import DurableCalc.Proofs.Onward
import Mathlib.Control.Monad.Basic

namespace DurableCalc

namespace Median

theorem leq_antisymm {a b : Int64} (hab : leq a b = true) (hba : leq b a = true) : a = b := by
  simp only [leq, decide_eq_true_eq] at hab hba
  exact Int64.toInt_inj.mp (Int.le_antisymm hab hba)

theorem sorted_reverse (xs : List Int64) : sorted xs.reverse = sorted xs := by
  have hperm : (sorted xs.reverse).Perm (sorted xs) :=
    (sorted_perm xs.reverse).trans (xs.reverse_perm.trans (sorted_perm xs).symm)
  exact hperm.eq_of_pairwise (fun a b _ _ => leq_antisymm) (pairwise_sorted _) (pairwise_sorted _)

theorem line_reverse (xs : List Int64) : line xs.reverse = line xs := by
  rw [line, median, sorted_reverse]
  rfl

end Median

def finish (d : Dialogue Unit) : Dialogue Bool :=
  d >>= fun _ => pure false

namespace Calculator

def Mode.dialogue (patience questions : Nat) : Mode → Dialogue Bool
  | .name => Session.turn patience
  | .firstTerm => finish Command.addition
  | .secondTerm a =>
      finish (Dialogue.askNumber >>= fun b => Dialogue.tell (Numeral.write (Command.sum a b)))
  | .medianCount => finish Command.medianOfMany
  | .number missing known =>
      finish (Command.askNumbers (missing + 1) known.reverse >>= fun xs =>
        Dialogue.tell (Median.line xs))
  | .randCount => finish Command.randomNumbers
  | .topic => finish (Help.standard.questions questions)

end Calculator

namespace Simulation

open Attempt (exec exec_bind_ok exec_bind_error)
open Calculator (Mode Reaction Report play react)
open Calm (passedOver)

variable {policy : ExitPolicy} {patience n : Nat} {w w' : Simulation} {seed : Int64}
  {lines : List String} {out : Except Error Unit × Simulation}

def Leaves (policy : ExitPolicy) (seed : Int64) (before : ByteArray) (events : List Event)
    (bytes : ByteArray) : Except Error Unit → Prop
  | .error _ => ∃ trace, Journal.Opens bytes seed trace
  | .ok () =>
      match policy with
      | .compact => bytes = Journal.render [seed.decimal]
      | .clear => bytes = ByteArray.empty ∧
          ∃ es trace, events = es ++ [.stored ByteArray.empty] ∧
            Journal.Opens (held before es) seed trace

theorem Leaves.after {before bytes : ByteArray} {es fs : List Event} {result : Except Error Unit}
    (h : Leaves policy seed (held before es) fs bytes result) :
    Leaves policy seed before (es ++ fs) bytes result := by
  cases result with
  | error e => exact h
  | ok _ =>
      cases policy with
      | compact => exact h
      | clear =>
          obtain ⟨hempty, fs, trace, rfl, hopens⟩ := h
          rw [← held_append] at hopens
          exact ⟨hempty, es ++ fs, trace, (List.append_assoc _ _ _).symm, hopens⟩

structure Agrees (policy : ExitPolicy) (w : Simulation) (out : Except Error Unit × Simulation)
    (report : Report) : Prop where
  result : out.1 = report.result
  script : out.2.script = report.unread.map .line
  adds : ∃ es, Adds w out.2 es ∧ shownLines es = report.shown ∧
    Leaves policy report.seed w.bytes es out.2.bytes report.result

theorem Agrees.after {report : Report} {shown : List String} {seed : Int64} {lines : List String}
    (h : Agrees policy w' out report) (hpasses : Passes w w' shown seed lines) :
    Agrees policy w out { report with shown := shown ++ report.shown } := by
  obtain ⟨es, hadds, rfl⟩ := hpasses.adds
  obtain ⟨fs, hmore, hshown, hleaves⟩ := h.adds
  rw [hadds.bytes] at hleaves
  refine ⟨h.result, h.script, es ++ fs, hadds.trans hmore, ?_, hleaves.after⟩
  rw [shownLines_append, hshown]

theorem agrees_error {e : Error} (hpasses : Passes w w' [] seed lines) (hout : out = (.error e, w')) :
    Agrees policy w out ⟨[], lines, .error e, seed⟩ := by
  subst hout
  obtain ⟨es, hadds, hshown⟩ := hpasses.adds
  exact ⟨rfl, hpasses.stands.script, es, hadds, hshown, hpasses.stands.opens⟩

inductive Realizes (policy : ExitPolicy) (patience : Nat) (w : Simulation)
    (out : Except Error Unit × Simulation) (lines : List String) : Reaction → Prop where
  | stop {shown : List String} {seed : Int64} {result : Except Error Unit} :
      Agrees policy w out ⟨shown, lines, result, seed⟩ →
      Realizes policy patience w out lines ⟨shown, seed, .stop result⟩
  | listen {shown : List String} {seed : Int64} {mode : Mode} (n questions : Nat) {w' : Simulation} :
      lines.length < n → lines.length < questions → Passes w w' shown seed lines →
      out = onward policy patience n (mode.dialogue patience questions) w' →
      Realizes policy patience w out lines ⟨shown, seed, .listen mode⟩

theorem Realizes.after {reaction : Reaction} {shown : List String} {seed : Int64}
    (h : Realizes policy patience w' out lines reaction) (hpasses : Passes w w' shown seed lines) :
    Realizes policy patience w out lines
      ⟨shown ++ reaction.shown, reaction.seed, reaction.next⟩ := by
  cases h with
  | stop hagrees => exact .stop (hagrees.after hpasses)
  | listen n questions hn hquestions hmore hout =>
      exact .listen n questions hn hquestions (hpasses.trans hmore) hout

theorem realizes_listen (hw : Stands w seed lines) (hn : lines.length < n) (mode : Mode)
    {questions : Nat} (hquestions : lines.length < questions) :
    Realizes policy patience w (onward policy patience n (mode.dialogue patience questions) w) lines
      ⟨[], seed, .listen mode⟩ :=
  .listen n questions hn hquestions (.refl hw) rfl

theorem realizes_answer {shown : List String} (hpasses : Passes w w' shown seed lines)
    (hn : lines.length + 1 < n) :
    Realizes policy patience w (onward policy patience n (pure false) w') lines
      (Calculator.answer seed shown) := by
  obtain ⟨n, rfl⟩ := Nat.exists_eq_succ_of_ne_zero (Nat.ne_zero_of_lt hn)
  obtain ⟨w'', hmore, hout⟩ := onward_boundary policy patience n hpasses.stands
  have hall := hpasses.trans hmore
  rw [List.append_nil] at hall
  exact .listen n (lines.length + 1) (by omega) (Nat.lt_succ_self _) hall hout

theorem realizes_told (hw : Stands w seed lines) (hn : lines.length + 1 < n) {line : String}
    (hline : Journal.Storable line) :
    Realizes policy patience w (onward policy patience n (finish (Dialogue.tell line)) w) lines
      (Calculator.answer seed [line]) := by
  obtain ⟨w', hpasses, hout⟩ := onward_tell policy patience n hw hline fun _ => pure false
  have hshown : finish (Dialogue.tell line) = Dialogue.tell line >>= fun _ => pure false := rfl
  rw [hshown, hout]
  exact realizes_answer hpasses hn

theorem onward_tellAll (policy : ExitPolicy) (patience n : Nat) (hw : Stands w seed lines)
    {told : List String} (htold : ∀ line ∈ told, Journal.Storable line)
    (f : Unit → Dialogue Bool) :
    ∃ w', Passes w w' told seed lines ∧
      onward policy patience n (Help.tellAll told >>= f) w = onward policy patience n (f ()) w' := by
  induction told generalizing w with
  | nil => exact ⟨w, .refl hw, rfl⟩
  | cons line told ih =>
      obtain ⟨hline, hothers⟩ := List.forall_mem_cons.mp htold
      obtain ⟨w₁, hfirst, hout⟩ :=
        onward_tell policy patience n hw hline fun _ => Help.tellAll told >>= f
      obtain ⟨w₂, hrest, hout'⟩ := ih hfirst.stands hothers
      refine ⟨w₂, hfirst.trans hrest, ?_⟩
      rw [Help.tellAll, bind_assoc, hout, hout']

theorem onward_draws (hw : Stands w seed lines) (k : Nat) (previous : Option Int64)
    (f : Unit → Dialogue Bool) :
    ∃ w', Passes w w' ((Calculator.successive k seed).1.map Int64.decimal)
        (Calculator.successive k seed).2 lines ∧
      onward policy patience n (Command.draws k previous >>= f) w
        = onward policy patience n (f ()) w' := by
  induction k generalizing w seed previous with
  | zero => exact ⟨w, .refl hw, rfl⟩
  | succ k ih =>
      obtain ⟨w₁, hfirst, hout⟩ :=
        onward_draw policy patience n hw previous fun x => Command.draws k (some x) >>= f
      obtain ⟨w₂, hrest, hout'⟩ := ih hfirst.stands (some seed)
      refine ⟨w₂, hfirst.trans hrest, ?_⟩
      rw [Command.draws, bind_assoc, hout, hout']

theorem realizes_random (hw : Stands w seed lines) (hn : lines.length + 1 < n) (k : Nat) :
    Realizes policy patience w (onward policy patience n (finish (Command.draws k none)) w) lines
      (Calculator.random seed k) := by
  obtain ⟨w', hpasses, hout⟩ := onward_draws hw k none fun _ => pure false
  have hdraws : finish (Command.draws k none) = Command.draws k none >>= fun _ => pure false := rfl
  rw [hdraws, hout]
  exact realizes_answer hpasses hn

theorem realizes_medianOf (hw : Stands w seed lines) (hn : lines.length + 1 < n) (missing : Nat)
    (known : List Int64) :
    Realizes policy patience w
      (onward policy patience n (finish (Command.askNumbers missing known.reverse >>= fun xs =>
        Dialogue.tell (Median.line xs))) w) lines (Calculator.medianOf seed missing known) := by
  cases missing with
  | zero =>
      have hline : Journal.Storable (Median.line known) :=
        Journal.storable_of_solid (Binary64.solid_toText _)
      rw [Command.askNumbers, pure_bind, Median.line_reverse]
      exact realizes_told hw hn hline
  | succ missing =>
      exact realizes_listen hw (by omega) (.number missing known) (Nat.lt_succ_self _)

inductive Asked {α : Type} (policy : ExitPolicy) (w : Simulation) (seed : Int64)
    (lines : List String) (accept : String → Except Error α)
    (next : α → Simulation → Except Error Unit × Simulation) :
    Except Error Unit × Simulation → Prop where
  | closed {out : Except Error Unit × Simulation} :
      (∀ line ∈ lines, Text.isBlank line = true) →
      Agrees policy w out ⟨[], [], .error .inputClosed, seed⟩ →
      Asked policy w seed lines accept next out
  | refused {out : Except Error Unit × Simulation} (blanks rest : List String) {line : String}
      {e : Error} :
      lines = blanks ++ line :: rest → (∀ line ∈ blanks, Text.isBlank line = true) →
      Text.isBlank line = false →
      (accept (Text.trim line) = .error e ∨
        ¬ Journal.Storable (Text.trim line) ∧ e = .invalidEntry (Text.trim line) ∧
          ∃ a, accept (Text.trim line) = .ok a) →
      Agrees policy w out ⟨[], rest, .error e, seed⟩ → Asked policy w seed lines accept next out
  | taken (blanks rest : List String) {line : String} {a : α} {w' : Simulation} :
      lines = blanks ++ line :: rest → (∀ line ∈ blanks, Text.isBlank line = true) →
      Text.isBlank line = false → accept (Text.trim line) = .ok a →
      Journal.Storable (Text.trim line) → Passes w w' [] seed rest →
      Asked policy w seed lines accept next (next a w')

theorem onward_ask {α : Type} (hw : Stands w seed lines) (hpatience : lines.length < patience)
    (accept : String → Except Error α) (f : α → Dialogue Bool) :
    Asked policy w seed lines accept (fun a => onward policy patience n (f a))
      (onward policy patience n (Dialogue.ask accept >>= f) w) := by
  have hfaces : Faces .faultless w (exec quiet (Live.ask patience accept) w) _ _ :=
    faces_ask (fun _ => rfl) accept hw.script hpatience
  have hcomes := hfaces.comes
  have hcall : Session.rest policy patience n (Dialogue.ask accept >>= f)
      = Live.ask patience accept >>= fun a => Session.rest policy patience n (f a) :=
    Session.rest_call policy patience n (.ask accept) f
  rw [onward, hcall]
  rcases Calm.exists_line lines with hall | ⟨blanks, line, rest, rfl, hblanks, hline⟩
  · rw [Calm.ask_closed accept _ hall] at hcomes
    have hheld : w.bytes = held w.bytes (passedOver lines ++ [.ended]) := by
      rw [held_passedOver]
      rfl
    have hpasses := hcomes.passes hheld hw.opens
    rw [shownLines_passedOver] at hpasses
    rw [exec_bind_error (Prod.ext hcomes.result rfl)]
    exact .closed hall (agrees_error hpasses rfl)
  · rw [Calm.ask_past_blanks accept _ hblanks hline, Calm.take] at hcomes
    -- the lines that are passed over show nothing, and neither does the one that is heard
    have hquiet {t : Turnout α} (ht : shownLines t.events = []) :
        shownLines (t.after (passedOver blanks ++ [.handedOut line])).events = [] := by
      rw [Turnout.after, List.append_assoc, shownLines_passedOver]
      exact ht
    have hheld {t : Turnout α} (ht : t.bytes = held w.bytes t.events) :
        (t.after (passedOver blanks ++ [.handedOut line])).bytes
          = held w.bytes (t.after (passedOver blanks ++ [.handedOut line])).events := by
      rw [Turnout.after, List.append_assoc, held_passedOver]
      exact ht
    cases haccept : accept (Text.trim line) with
    | error e =>
        rw [haccept] at hcomes
        have hpasses := hcomes.passes (hheld rfl) hw.opens
        rw [hquiet rfl] at hpasses
        rw [exec_bind_error (Prod.ext hcomes.result rfl)]
        exact .refused blanks rest rfl hblanks hline (.inl haccept) (agrees_error hpasses rfl)
    | ok a =>
        rw [haccept] at hcomes
        by_cases hstorable : Journal.Storable (Text.trim line)
        · simp only [if_pos hstorable] at hcomes
          have hpasses := hcomes.passes (hheld rfl) (opens_extended hw.opens hstorable)
          rw [hquiet rfl] at hpasses
          rw [exec_bind_ok (Prod.ext hcomes.result rfl)]
          exact .taken blanks rest rfl hblanks hline haccept hstorable hpasses
        · simp only [if_neg hstorable] at hcomes
          have hpasses := hcomes.passes (hheld rfl) hw.opens
          rw [hquiet rfl] at hpasses
          rw [exec_bind_error (Prod.ext hcomes.result rfl)]
          exact .refused blanks rest rfl hblanks hline (.inr ⟨hstorable, rfl, a, haccept⟩)
            (agrees_error hpasses rfl)

inductive Answered (policy : ExitPolicy) (patience : Nat) (w : Simulation) (seed : Int64)
    (mode : Mode) (lines : List String) (out : Except Error Unit × Simulation) : Prop where
  | closed : (∀ line ∈ lines, Text.isBlank line = true) →
      Agrees policy w out ⟨[], [], .error .inputClosed, seed⟩ →
      Answered policy patience w seed mode lines out
  | reacted (blanks rest : List String) {line : String} : lines = blanks ++ line :: rest →
      (∀ line ∈ blanks, Text.isBlank line = true) → Text.isBlank line = false →
      Realizes policy patience w out rest (react seed mode (Text.trim line)) →
      Answered policy patience w seed mode lines out

theorem number_trim (line : String) :
    Dialogue.number (Text.trim line)
      = match Numeral.read? (Text.trim line) with
        | some x => .ok x
        | none => .error (.notANumber (Text.trim line)) := by
  have hread : Numeral.readTrimmed? (Text.trim line) = Numeral.read? (Text.trim line) := by
    rw [Numeral.readTrimmed?, Text.trim_trim]
  cases hnumber : Numeral.read? (Text.trim line) <;>
    simp only [Dialogue.number, hread, hnumber]

theorem length_lt_of_eq_append {blanks rest : List String} {line : String}
    (h : lines = blanks ++ line :: rest) : rest.length < lines.length := by
  rw [h, List.length_append, List.length_cons]
  omega

theorem answered_number (hw : Stands w seed lines) (hpatience : lines.length < patience)
    {mode : Mode} {f : Int64 → Dialogue Bool} {reaction : Int64 → Reaction}
    (hreact : ∀ line, react seed mode line = Calculator.onNumber seed line reaction)
    (h : ∀ x rest w', rest.length < lines.length → Stands w' seed rest →
      Realizes policy patience w' (onward policy patience n (f x) w') rest (reaction x)) :
    Answered policy patience w seed mode lines
      (onward policy patience n (Dialogue.askNumber >>= f) w) := by
  have hasked : Asked policy w seed lines Dialogue.number _
      (onward policy patience n (Dialogue.askNumber >>= f) w) :=
    onward_ask hw hpatience Dialogue.number f
  generalize onward policy patience n (Dialogue.askNumber >>= f) w = out at hasked ⊢
  cases hasked with
  | closed hall hagrees => exact .closed hall hagrees
  | refused blanks rest hlines hblanks hline hrefused hagrees =>
      refine .reacted blanks rest hlines hblanks hline ?_
      rw [hreact, Calculator.onNumber]
      rw [number_trim] at hrefused
      cases hread : Numeral.read? (Text.trim _) with
      | none =>
          rw [hread] at hrefused
          rcases hrefused with herror | ⟨-, -, a, ha⟩
          · cases herror
            exact .stop hagrees
          · cases ha
      | some x =>
          rw [hread] at hrefused
          rcases hrefused with herror | ⟨hbroken, -⟩
          · cases herror
          · exact absurd (Journal.storable_of_solid (Numeral.solid_of_read? hread)) hbroken
  | taken blanks rest hlines hblanks hline haccept hstorable hpasses =>
      refine .reacted blanks rest hlines hblanks hline ?_
      rw [hreact, Calculator.onNumber]
      rw [number_trim] at haccept
      cases hread : Numeral.read? (Text.trim _) with
      | none =>
          rw [hread] at haccept
          cases haccept
      | some x =>
          rw [hread] at haccept
          cases haccept
          exact (h _ rest _ (length_lt_of_eq_append hlines) hpasses.stands).after hpasses

theorem storable_trim_iff {line : String} (hline : Text.isBlank line = false) :
    Journal.Storable (Text.trim line) ↔ Calculator.isBroken (Text.trim line) = false := by
  have hblank : Text.isBlank (Text.trim line) = false := by
    rw [Bool.eq_false_iff, ne_eq, ← Text.trim_eq_empty_iff] at hline ⊢
    rwa [Text.trim_trim]
  rw [Calculator.isBroken, List.any_eq_false]
  constructor
  · intro hstorable c hc
    have hends := hstorable.2 c hc
    simp [hends.1, hends.2]
  · intro hends
    refine ⟨hblank, fun c hc => ?_⟩
    simpa using hends c hc

theorem answered_text (hw : Stands w seed lines) (hpatience : lines.length < patience)
    {mode : Mode} {f : String → Dialogue Bool} {reaction : String → Reaction}
    (hreact : ∀ line, react seed mode line = Calculator.onText seed line (reaction line))
    (h : ∀ text rest w', Text.trim text = text → rest.length < lines.length → Stands w' seed rest →
      Realizes policy patience w' (onward policy patience n (f text) w') rest (reaction text)) :
    Answered policy patience w seed mode lines
      (onward policy patience n (Dialogue.askLine >>= f) w) := by
  have hasked : Asked policy w seed lines .ok _
      (onward policy patience n (Dialogue.askLine >>= f) w) :=
    onward_ask hw hpatience .ok f
  generalize onward policy patience n (Dialogue.askLine >>= f) w = out at hasked ⊢
  cases hasked with
  | closed hall hagrees => exact .closed hall hagrees
  | refused blanks rest hlines hblanks hline hrefused hagrees =>
      refine .reacted blanks rest hlines hblanks hline ?_
      rcases hrefused with herror | ⟨hbroken, rfl, -⟩
      · cases herror
      · rw [storable_trim_iff hline, Bool.not_eq_false] at hbroken
        rw [hreact, Calculator.onText, if_pos hbroken]
        exact .stop hagrees
  | taken blanks rest hlines hblanks hline haccept hstorable hpasses =>
      refine .reacted blanks rest hlines hblanks hline ?_
      obtain rfl := Except.ok.inj haccept
      rw [storable_trim_iff hline] at hstorable
      rw [hreact, Calculator.onText, hstorable]
      exact (h _ rest _ (Text.trim_trim _) (length_lt_of_eq_append hlines) hpasses.stands).after
        hpasses

theorem ofName_unknown {name : String} (hname : Text.trim name = name)
    (h : name ∉ ["add", "median", "rand", "help", "exit"]) :
    Command.ofName name = .unknown name := by
  unfold Command.ofName
  rw [hname]
  split <;> first | rfl | exact absurd (by decide) h

theorem command_unknown {name : String} (h : name ∉ ["add", "median", "rand", "help", "exit"])
    (seed : Int64) :
    Calculator.command seed name = Calculator.answer seed [Command.noSuchCommand] := by
  unfold Calculator.command
  split <;> first | rfl | exact absurd (by decide) h

theorem command_cases {name : String} (hname : Text.trim name = name) (seed : Int64) :
    Command.ofName name = .add ∧
        Calculator.command seed name = Calculator.listen seed .firstTerm ∨
      Command.ofName name = .median ∧
        Calculator.command seed name = Calculator.listen seed .medianCount ∨
      Command.ofName name = .rand ∧
        Calculator.command seed name = Calculator.listen seed .randCount ∨
      Command.ofName name = .help ∧
        Calculator.command seed name = ⟨[Help.standard.intro, Help.standard.commandList,
          Help.standard.exitHint], seed, .listen .topic⟩ ∨
      Command.ofName name = .exit ∧
        Calculator.command seed name = ⟨[], seed, .stop (.ok ())⟩ ∨
      Command.ofName name = .unknown name ∧
        Calculator.command seed name = Calculator.answer seed [Command.noSuchCommand] := by
  by_cases hknown : name ∈ ["add", "median", "rand", "help", "exit"]
  · simp only [List.mem_cons, List.not_mem_nil, or_false] at hknown
    rcases hknown with rfl | rfl | rfl | rfl | rfl
    · exact .inl ⟨rfl, rfl⟩
    · exact .inr (.inl ⟨rfl, rfl⟩)
    · exact .inr (.inr (.inl ⟨rfl, rfl⟩))
    · exact .inr (.inr (.inr (.inl ⟨rfl, rfl⟩)))
    · exact .inr (.inr (.inr (.inr (.inl ⟨rfl, rfl⟩))))
  · refine .inr (.inr (.inr (.inr (.inr ⟨?_, ?_⟩))))
    · exact ofName_unknown hname hknown
    · exact command_unknown hknown seed

theorem storable_banner :
    ∀ line ∈ [Help.standard.intro, Help.standard.commandList, Help.standard.exitHint],
      Journal.Storable line := by
  decide

theorem agrees_left (hw : Stands w seed lines) :
    Agrees policy w (onward policy patience n (pure true) w) ⟨[], lines, .ok (), seed⟩ := by
  have hclosing : Session.rest policy patience n (pure true) = Session.ending policy := rfl
  rw [onward, hclosing]
  cases policy with
  | compact =>
      obtain ⟨w', hpasses, hbytes, hexec⟩ := compact_keeps hw
      have hending : exec quiet (Session.ending .compact) w = (.ok (), w') := hexec
      rw [hending]
      obtain ⟨es, hadds, hshown⟩ := hpasses.adds
      exact ⟨rfl, hpasses.stands.script, es, hadds, hshown, hbytes⟩
  | clear =>
      have hending : exec quiet (Session.ending .clear) w
          = (.ok (), w.written (.stored ByteArray.empty) ByteArray.empty) :=
        exec_store_stored rfl rfl .clearing ByteArray.empty
      rw [hending]
      obtain ⟨trace, hopens⟩ := hw.opens
      exact ⟨rfl, hw.script, [.stored _], adds_written w _, rfl, rfl, [], trace, rfl, hopens⟩

theorem realizes_banner (hw : Stands w seed lines) (hn : lines.length < n)
    (hpatience : lines.length < patience) :
    Realizes policy patience w
      (onward policy patience n (finish (Help.standard.dialogue patience)) w) lines
      ⟨[Help.standard.intro, Help.standard.commandList, Help.standard.exitHint], seed,
        .listen .topic⟩ := by
  obtain ⟨w', hpasses, hout⟩ := onward_tellAll policy patience n hw storable_banner fun _ =>
    finish (Help.standard.questions patience)
  refine .listen n patience hn hpatience hpasses ?_
  rw [finish, Help.dialogue, bind_assoc]
  exact hout

theorem explain_unknown {name : String} (h : name ∉ ["end", "add", "median", "rand"]) (seed : Int64) :
    Calculator.explain seed name = Calculator.describe seed
      ["No such command", "Available commands: add, median, rand"] := by
  unfold Calculator.explain
  split <;> first | rfl | exact absurd (by decide) h

theorem describe_unknown {name : String} (h : name ∉ ["end", "add", "median", "rand"]) :
    Help.standard.describe name = none := by
  rw [Help.describe, Option.map_eq_none_iff, List.find?_eq_none]
  intro topic htopic hname
  have hnames : Help.standard.topics.map Topic.name ⊆ ["end", "add", "median", "rand"] := by decide
  exact h (of_decide_eq_true hname ▸ hnames (List.mem_map_of_mem htopic))

theorem explain_eq (seed : Int64) (name : String) :
    Calculator.explain seed name
      = if name = Help.standard.endWord then Calculator.answer seed []
        else ⟨Help.standard.answer name, seed, .listen .topic⟩ := by
  by_cases hknown : name ∈ ["end", "add", "median", "rand"]
  · simp only [List.mem_cons, List.not_mem_nil, or_false] at hknown
    rcases hknown with rfl | rfl | rfl | rfl <;> rfl
  · have hend : name ≠ Help.standard.endWord := fun h => hknown (h ▸ List.mem_cons_self)
    rw [if_neg hend, explain_unknown hknown, Help.answer, describe_unknown hknown]
    rfl

theorem realizes_explain (hw : Stands w seed lines) (hn : lines.length + 1 < n) {questions : Nat}
    (hquestions : lines.length < questions) (name : String) :
    Realizes policy patience w (onward policy patience n (finish (if name = Help.standard.endWord
      then pure () else do
        Help.tellAll (Help.standard.answer name)
        Help.standard.questions questions)) w) lines (Calculator.explain seed name) := by
  rw [explain_eq]
  by_cases hend : name = Help.standard.endWord
  · rw [if_pos hend, if_pos hend]
    exact realizes_answer (.refl hw) hn
  · rw [if_neg hend, if_neg hend]
    have htold : ∀ line ∈ Help.standard.answer name, Journal.Storable line := fun line =>
      Help.storable_of_mem_answer Help.tellable_standard
    obtain ⟨w', hpasses, hout⟩ := onward_tellAll policy patience n hw htold fun _ =>
      finish (Help.standard.questions questions)
    have hsplit : finish (Help.tellAll (Help.standard.answer name) >>= fun _ =>
        Help.standard.questions questions)
        = Help.tellAll (Help.standard.answer name) >>= fun _ =>
          finish (Help.standard.questions questions) := bind_assoc _ _ _
    rw [hsplit, hout]
    exact .listen n questions (Nat.lt_of_succ_lt hn) hquestions hpasses rfl

theorem realizes_command (hw : Stands w seed lines) (hn : lines.length + 1 < n)
    (hpatience : lines.length < patience) {name : String} (hname : Text.trim name = name) :
    Realizes policy patience w (onward policy patience n (Session.named patience name) w) lines
      (Calculator.command seed name) := by
  have hlisten (mode : Mode) : Realizes policy patience w
      (onward policy patience n (mode.dialogue patience patience) w) lines ⟨[], seed, .listen mode⟩ :=
    realizes_listen hw (Nat.lt_of_succ_lt hn) mode hpatience
  rcases command_cases hname seed with h | h | h | h | h | h <;> rw [h.2, Session.named, h.1]
  · exact hlisten .firstTerm
  · exact hlisten .medianCount
  · exact hlisten .randCount
  · exact realizes_banner hw (Nat.lt_of_succ_lt hn) hpatience
  · exact .stop (agrees_left hw)
  · exact realizes_told hw hn Command.storable_noSuchCommand

theorem answered_mode (mode : Mode) (hw : Stands w seed lines) (hn : lines.length < n)
    (hpatience : lines.length < patience) {questions : Nat}
    (hquestions : lines.length < questions) :
    Answered policy patience w seed mode lines
      (onward policy patience n (mode.dialogue patience questions) w) := by
  cases mode with
  | name =>
      refine answered_text hw hpatience (fun _ => rfl) fun text rest w' htext hrest hw' => ?_
      exact realizes_command hw' (by omega) (by omega) htext
  | firstTerm =>
      refine answered_number hw hpatience (fun _ => rfl) fun a rest w' hrest hw' => ?_
      exact realizes_listen hw' (by omega) (.secondTerm a) (Nat.lt_succ_self _)
  | secondTerm a =>
      refine answered_number hw hpatience (fun _ => rfl) fun b rest w' hrest hw' => ?_
      exact realizes_told hw' (by omega) (Journal.storable_of_solid (Numeral.solid_write _))
  | medianCount =>
      refine answered_number hw hpatience (fun _ => rfl) fun k rest w' hrest hw' => ?_
      exact realizes_medianOf hw' (by omega) (Command.count k) []
  | number missing known =>
      refine answered_number hw hpatience (fun _ => rfl) fun x rest w' hrest hw' => ?_
      have hknown : x :: known.reverse = (known ++ [x]).reverse := by simp
      have hmore : Realizes policy patience w' _ rest
          (Calculator.medianOf seed missing (known ++ [x])) :=
        realizes_medianOf hw' (n := n) (by omega) missing (known ++ [x])
      rw [← hknown] at hmore
      exact hmore
  | randCount =>
      refine answered_number hw hpatience (fun _ => rfl) fun k rest w' hrest hw' => ?_
      exact realizes_random hw' (by omega) (Command.count k)
  | topic =>
      obtain ⟨m, rfl⟩ := Nat.exists_eq_succ_of_ne_zero (Nat.ne_zero_of_lt hquestions)
      refine answered_text hw hpatience (fun _ => rfl) fun text rest w' htext hrest hw' => ?_
      exact realizes_explain hw' (by omega) (by omega) text

end Simulation

end DurableCalc

namespace DurableCalc.Calculator

def Reaction.report (r : Reaction) (lines : List String) : Report :=
  match r.next with
  | .stop result => ⟨r.shown, lines, result, r.seed⟩
  | .listen mode =>
      { play mode r.seed lines with shown := r.shown ++ (play mode r.seed lines).shown }

variable {mode : Mode} {seed : Int64}

theorem play_blanks {blanks : List String} (hblanks : ∀ line ∈ blanks, Text.isBlank line = true)
    (lines : List String) : play mode seed (blanks ++ lines) = play mode seed lines := by
  induction blanks with
  | nil => rfl
  | cons line blanks ih =>
      obtain ⟨hblank, hothers⟩ := List.forall_mem_cons.mp hblanks
      rw [List.cons_append, play, if_pos hblank]
      exact ih hothers

theorem play_closed {lines : List String} (h : ∀ line ∈ lines, Text.isBlank line = true) :
    play mode seed lines = ⟨[], [], .error .inputClosed, seed⟩ := by
  have hall : play mode seed (lines ++ []) = play mode seed [] := play_blanks h []
  rw [List.append_nil] at hall
  rw [hall, play]

theorem play_line {blanks rest : List String} {line : String}
    (hblanks : ∀ line ∈ blanks, Text.isBlank line = true) (hline : Text.isBlank line = false) :
    play mode seed (blanks ++ line :: rest) = (react seed mode (Text.trim line)).report rest := by
  rw [play_blanks hblanks, play, hline]
  rfl

end DurableCalc.Calculator

namespace DurableCalc.Simulation

open Attempt (exec exec_bind_ok)
open Calculator (Mode play)

variable {policy : ExitPolicy} {patience n questions : Nat} {w : Simulation} {seed : Int64}
  {lines : List String}

theorem agrees_play (mode : Mode) (hw : Stands w seed lines) (hn : lines.length < n)
    (hpatience : lines.length < patience) (hquestions : lines.length < questions) :
    Agrees policy w (onward policy patience n (mode.dialogue patience questions) w)
      (play mode seed lines) := by
  -- one line is taken at least before the session goes on in some mode with the lines that are left
  induction hlength : lines.length using Nat.strongRecOn
    generalizing lines mode seed n questions w with
  | ind length ih =>
      have hanswered : Answered policy patience w seed mode lines _ :=
        answered_mode mode hw hn hpatience hquestions
      generalize onward policy patience n (mode.dialogue patience questions) w = out at hanswered ⊢
      cases hanswered with
      | closed hall hagrees =>
          rw [Calculator.play_closed hall]
          exact hagrees
      | reacted blanks rest hlines hblanks hline hrealizes =>
          have hless : rest.length < length := hlength ▸ length_lt_of_eq_append hlines
          rw [hlines, Calculator.play_line hblanks hline]
          generalize Calculator.react seed mode (Text.trim _) = reaction at hrealizes ⊢
          cases hrealizes with
          | stop hagrees => exact hagrees
          | @listen shown seed' mode' n' questions' w' hn' hquestions' hpasses hout =>
              have hrest := ih rest.length hless mode' hpasses.stands hn' (by omega) hquestions' rfl
              rw [← hout] at hrest
              exact hrest.after hpasses

theorem exec_run_fresh (settings : Settings) (n : Nat)
    (hbytes : w.bytes = ByteArray.empty ∧ settings.defaultSeed = seed ∨
      Journal.Opens w.bytes seed []) (hscript : w.script = lines.map .line) :
    ∃ w', Passes w w' [] seed lines ∧ exec quiet (Session.run settings (n + 1)) w
      = onward settings.exitPolicy (n + 1) n (Session.turn (n + 1)) w' := by
  rcases hbytes with ⟨hempty, rfl⟩ | hopens
  · have hensure := Journal.exec_ensureSeed_empty (s := .faultless) hempty settings.defaultSeed
    rw [exec_store_stored rfl rfl] at hensure
    have hopens := Session.opens_fresh settings.defaultSeed
    generalize hfresh : Journal.render [settings.defaultSeed.decimal] = fresh at hensure hopens
    have hopened : Journal.Opens (w.written (.stored fresh) fresh).bytes settings.defaultSeed [] :=
      hopens
    refine ⟨w.written (.stored fresh) fresh, passes_written hscript ⟨[], hopens⟩, ?_⟩
    rw [Session.run_eq, exec_bind_ok hensure]
    exact Session.exec_opened hopened _ _ _
  · refine ⟨w, .refl ⟨hscript, [], hopens⟩, ?_⟩
    exact Session.exec_run hopens settings n

/-- A session without faults on a journal without a trace shows and takes the lines that the
calculator shows and takes, ends as it does and leaves its seed. -/
theorem outcome_calculator (settings : Settings) (seed : Int64) (lines : List String)
    {bytes : ByteArray} (hbytes : bytes = ByteArray.empty ∧ settings.defaultSeed = seed ∨
      Journal.Opens bytes seed []) :
    let out := ((start (lines.map .line) bytes).outcome .faultless settings).1
    let report := Calculator.play .name seed lines
    shownLines out.events = report.shown ∧ out.unread = report.unread.length ∧
      out.result = report.result ∧
      Leaves settings.exitPolicy report.seed bytes out.events out.bytes out.result := by
  intro out report
  let w := start (lines.map .line) bytes
  have hlength : lines.length < w.patience - 1 := by
    simp only [w, patience, start, List.length_map]
    omega
  obtain ⟨w', hpasses, hexec⟩ := exec_run_fresh (w := w) settings (w.patience - 1) hbytes rfl
  have hwhole : exec quiet (Session.run settings w.patience) w
      = onward settings.exitPolicy w.patience (w.patience - 1) (Session.turn w.patience) w' := hexec
  have hplay : Agrees settings.exitPolicy w'
      (onward settings.exitPolicy w.patience (w.patience - 1) (Session.turn w.patience) w') report :=
    agrees_play .name hpasses.stands hlength (Nat.lt_succ_of_lt hlength) (Nat.lt_succ_self _)
  have hagrees := hplay.after hpasses
  rw [← hwhole] at hagrees
  have hgivesUp : (Session.run settings w.patience).GivesUp := Session.givesUp_run settings _
  obtain ⟨hresult, hsame⟩ := cut_lasting Schedule.lasting_faultless hgivesUp w
  have hout : out.result = report.result := hresult.trans hagrees.result
  obtain ⟨es, hadds, hshown, hleaves⟩ := hagrees.adds
  have hevents : out.events = es := by
    have hlog := hsame.log.trans hadds.log
    have hreverse := congrArg List.reverse hlog
    rw [List.reverse_append, List.reverse_reverse] at hreverse
    exact hreverse
  refine ⟨?_, ?_, hout, ?_⟩
  · rw [hevents]
    exact hshown
  · have hscript := hsame.script.trans hagrees.script
    have hcount := congrArg List.length hscript
    rw [List.length_map] at hcount
    exact hcount
  · rw [hout, hevents]
    rw [← hsame.bytes] at hleaves
    exact hleaves

deriving instance DecidableEq for Calculator.Report

theorem outcome_calculator_draw :
    let lines := ["help", " rand", "nosuch", "end", "rand", "", " 1", "exit", "add"]
    let shown := ["Specify a command to see its help", "Available commands: add, median, rand",
      "To leave help mode, type end", "Generates a list of pseudo-random numbers",
      "To leave help mode, type end", "No such command", "Available commands: add, median, rand",
      "To leave help mode, type end", "420"]
    let out := ((start (lines.map .line) (Journal.render ["420"])).outcome .faultless
      ⟨7, .compact⟩).1
    Journal.Opens (Journal.render ["420"]) 420 [] ∧ shownLines out.events = shown ∧
      out.unread = 1 ∧ out.result = .ok () ∧ out.bytes = Journal.render ["7058940"] := by
  intro lines shown
  have hopens : Journal.Opens (Journal.render ["420"]) 420 [] := Session.opens_fresh 420
  have hreport : Calculator.play .name 420 lines
      = ⟨shown, ["add"], .ok (), 7058940⟩ := by decide +kernel
  have hdecimal : Int64.decimal 7058940 = "7058940" := by decide +kernel
  have hout := outcome_calculator ⟨7, .compact⟩ 420 lines (.inr hopens)
  rw [hreport] at hout
  obtain ⟨hshown, hunread, hresult, hleaves⟩ := hout
  rw [hresult] at hleaves
  simp only [Leaves, hdecimal] at hleaves
  exact ⟨hopens, hshown, hunread, hresult, hleaves⟩

end DurableCalc.Simulation
