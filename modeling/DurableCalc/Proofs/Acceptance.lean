import DurableCalc.Proofs.Rehearsal
import DurableCalc.Proofs.Series

namespace DurableCalc

namespace Remark

def plain : Remark → Remark
  | .heard line => .heard (Text.trim line)
  | .told line | .drew line => .told line

end Remark

def Effect.remark? : Effect → Option Remark
  | .took line => some (.heard (Text.trim line))
  | .showed line => some (.told line)
  | .wrote _ => none

def exchanges (events : List Event) : List Remark :=
  (effects events).filterMap Effect.remark?

namespace Dialogue

variable {α β : Type}

def Lenient : Dialogue α → Prop
  | .done _ => True
  | .call (.ask accept) next =>
      (∀ line a, accept (Text.trim line) = .ok a ↔ accept line = .ok a) ∧ ∀ a, Lenient (next a)
  | .call (.tell _) next => Lenient (next ())
  | .call (.draw _) next => ∀ value, Lenient (next value)
  | .call (.stop _) _ => True

theorem Lenient.bind {d : Dialogue α} {f : α → Dialogue β} (hd : Lenient d)
    (hf : ∀ a, Lenient (f a)) : Lenient (d >>= f) := by
  induction d with
  | done a => exact hf a
  | call c next ih =>
      cases c with
      | ask accept => exact ⟨hd.1, fun a => ih a (hd.2 a)⟩
      | tell line => exact ih () hd
      | draw previous => exact fun value => ih value (hd value)
      | stop e => trivial

theorem lenient_askNumber : Lenient askNumber := by
  constructor
  · intro line n
    rw [number_eq_ok_iff, number_eq_ok_iff, Numeral.readTrimmed?, Text.trim_trim]
    rfl
  · intro n
    trivial

theorem lenient_tell (line : String) : Lenient (tell line) :=
  trivial

theorem lenient_draw (previous : Option Int64) : Lenient (draw previous) :=
  fun _ => trivial

theorem rehearse_trim {d : Dialogue α} {lines : List String}
    (h : Lenient d ∨ ∀ line ∈ lines, Text.trim line = line) (x : Int64) :
    (d.rehearse (lines.map Text.trim) x).map Remark.plain
      = (d.rehearse lines x).map Remark.plain := by
  rcases h with h | h
  · induction d generalizing lines x with
    | done a => rfl
    | call c next ih =>
        cases c with
        | ask accept =>
            cases lines with
            | nil => rfl
            | cons line lines =>
                rw [List.map_cons, rehearse, rehearse]
                cases haccept : accept line with
                | ok a =>
                    rw [(h.1 line a).mpr haccept]
                    simp only [List.map_cons, Remark.plain, Text.trim_trim, ih a x (h.2 a)]
                | error e =>
                    split
                    · next a htrim =>
                      rw [(h.1 line a).mp htrim] at haccept
                      cases haccept
                    · rfl
        | tell line => exact congrArg (List.cons (.told line)) (ih () x h)
        | draw previous => exact congrArg (List.cons (.told x.decimal)) (ih x _ (h x))
        | stop e => rfl
  · rw [List.map_congr_left h, List.map_id']

end Dialogue

open Dialogue (Lenient lenient_askNumber lenient_tell lenient_draw)

namespace Command

theorem lenient_askNumbers (n : Nat) (known : List Int64) : Lenient (askNumbers n known) := by
  induction n generalizing known with
  | zero => trivial
  | succ n ih => exact lenient_askNumber.bind fun x => ih (x :: known)

theorem lenient_draws (n : Nat) (previous : Option Int64) : Lenient (draws n previous) := by
  induction n generalizing previous with
  | zero => trivial
  | succ n ih => exact (lenient_draw previous).bind fun x => ih (some x)

theorem lenient_dialogue (patience : Nat) {command : Command} (h : command ≠ .help) :
    Lenient (command.dialogue patience) := by
  cases command with
  | add =>
      exact lenient_askNumber.bind fun a => lenient_askNumber.bind fun b => lenient_tell _
  | median =>
      refine lenient_askNumber.bind fun n => ?_
      exact (lenient_askNumbers (count n) []).bind fun xs => lenient_tell _
  | rand => exact lenient_askNumber.bind fun n => lenient_draws (count n) none
  | help => exact absurd rfl h
  | exit => trivial
  | unknown name => exact lenient_tell noSuchCommand

theorem ofName_trim (name : String) : ofName (Text.trim name) = ofName name := by
  rw [ofName, ofName, Text.trim_trim]

end Command

def Unpadded : List String → Prop
  | [] => True
  | name :: questions =>
      Command.ofName name = .help → ∀ question ∈ questions, Text.trim question = question

instance (lines : List String) : Decidable (Unpadded lines) :=
  match lines with
  | [] => inferInstanceAs (Decidable True)
  | name :: questions =>
      inferInstanceAs (Decidable (Command.ofName name = .help →
        ∀ question ∈ questions, Text.trim question = question))

namespace Session

-- a name that is a variable is of no command, however far it is unfolded
attribute [local irreducible] Command.ofName

theorem lenient_named {name : String} (h : Command.ofName name ≠ .help) (patience : Nat) :
    Lenient (named patience name) := by
  unfold named
  cases hname : Command.ofName name with
  | exit => trivial
  | help => exact absurd hname h
  | _ => exact (Command.lenient_dialogue patience (by simp)).bind fun _ => trivial

theorem rehearse_named (patience : Nat) (name : String) (lines : List String) (x : Int64) :
    (turn patience).rehearse (name :: lines) x
      = .heard name :: (named patience name).rehearse lines x := rfl

theorem rehearse_turn (patience : Nat) {lines : List String} (h : Unpadded lines) (x : Int64) :
    ((turn patience).rehearse (lines.map Text.trim) x).map Remark.plain
      = ((turn patience).rehearse lines x).map Remark.plain := by
  cases lines with
  | nil => rfl
  | cons name lines =>
      have hnamed : named patience (Text.trim name) = named patience name := by
        rw [named, named, Command.ofName_trim]
      have hrest : Lenient (named patience name) ∨ ∀ line ∈ lines, Text.trim line = line := by
        by_cases hname : Command.ofName name = .help
        · exact .inr (h hname)
        · exact .inl (lenient_named hname patience)
      rw [List.map_cons, rehearse_named, rehearse_named, hnamed, List.map_cons, List.map_cons,
        Dialogue.rehearse_trim hrest, Remark.plain, Remark.plain, Text.trim_trim]

open Attempt (exec)
open Dialogue (Chained)

variable {settings : Settings} {n : Nat} {y : Int64} {trace : List String}

theorem sound_canonical (h : Sound (Journal.render (y.decimal :: trace)))
    (htrace : ∀ e ∈ trace, Journal.Storable e) :
    ∃ st, (turn (trace.length + 1)).retrace trace 1 none = .ok st := by
  have hopens := opens_canonical y htrace
  rcases sound_iff.mp h with hempty | ⟨seed, trace', st', hsame, htrace', hst', -⟩
  · rw [hempty] at hopens
    cases hopens.not_isEmpty
  · have hparse : Journal.parse (Journal.render (seed.decimal :: trace'))
        = .ok (seed.decimal :: trace') :=
      Journal.parse_render (List.forall_mem_cons.mpr ⟨Numeral.storable_decimal seed, htrace'⟩)
    obtain ⟨e, hparse', -⟩ := hopens
    rw [hsame, hparse] at hparse'
    obtain ⟨-, rfl⟩ := List.cons.inj (Except.ok.inj hparse')
    exact ⟨st', hst'⟩

theorem due_turn (settings : Settings) {st : Standing Bool}
    (hsound : Sound (Journal.render (y.decimal :: trace)))
    (htrace : ∀ e ∈ trace, Journal.Storable e)
    (hst : (turn n).retrace trace 1 none = .ok st) (hn : trace.length + 1 ≤ n) :
    due settings (Journal.render (y.decimal :: trace))
      = taskAt settings.exitPolicy y trace st := by
  obtain ⟨st', hst'⟩ := sound_canonical hsound htrace
  obtain ⟨rest, hrest, hwithin⟩ := (within_turn hn).retrace hst'
  obtain rfl := Except.ok.inj (hrest.symm.trans hst)
  rw [due_of_opens settings (opens_canonical y htrace) hst']
  rcases taskAt_of_within hwithin with hsame | ⟨next, hstop⟩
  · exact hsame
  · have hproper := proper_rest hst'
    rw [hstop] at hproper
    exact absurd hproper.1 (Nat.succ_ne_zero 1)

theorem step_tell {b b' : ByteArray} {line : String}
    (hdue : due settings b = some (.tell line b')) (rest : List String) :
    step settings b ([] ++ rest) = some ⟨[.showed line, .wrote b'], none, b', rest⟩ := by
  simp only [step, hdue, List.nil_append]

theorem step_write {b b' : ByteArray} {operation : Operation}
    (hdue : due settings b = some (.write operation b' false)) (rest : List String) :
    step settings b ([] ++ rest) = some ⟨[.wrote b'], none, b', rest⟩ := by
  simp only [step, hdue, List.nil_append]
  rfl

theorem step_ask {b b' : ByteArray} {record : String → Except Error ByteArray} {line : String}
    (hdue : due settings b = some (.ask record)) (hblank : Text.isBlank line = false)
    (hrecord : record (Text.trim line) = .ok b') (rest : List String) :
    step settings b ([line] ++ rest) = some ⟨[.took line, .wrote b'], none, b', rest⟩ := by
  simp only [step, hdue, List.singleton_append, hblank, hrecord]
  rfl

structure Arrived (n : Nat) (y : Int64) (trace : List String) (last : Option Int64)
    (d : Dialogue Bool) : Prop where
  sound : Sound (Journal.render (y.decimal :: trace))
  storable : ∀ e ∈ trace, Journal.Storable e
  retraced : ∃ drawn, (turn n).retrace trace 1 none = .ok ⟨drawn, d⟩ ∧
    ∀ position value, drawn = some (position, value) → y = Generator.next value
  chained : Chained last d
  settled : ∀ value, last = some value → y = Generator.next value

section

variable {last : Option Int64} {d d' : Dialogue Bool}

theorem arrived_start (n : Nat) (y : Int64) : Arrived n y [] none (turn n) := by
  constructor
  · exact sound_fresh y
  · exact List.forall_mem_nil _
  · exact ⟨none, rfl, nofun⟩
  · exact chained_turn n
  · exact nofun

theorem Arrived.due (h : Arrived n y trace last d) (hn : trace.length + 1 ≤ n)
    (settings : Settings) :
    due settings (Journal.render (y.decimal :: trace))
      = nextTask settings.exitPolicy y trace d := by
  obtain ⟨drawn, hst, hdrawn⟩ := h.retraced
  rw [due_turn settings h.sound h.storable hst hn]
  cases drawn with
  | none => rfl
  | some drawn =>
      obtain ⟨position, value⟩ := drawn
      have hpending : ¬ Pending y value := fun hp => hp.2 (hdrawn position value rfl)
      exact if_neg hpending

theorem Arrived.proper (h : Arrived n y trace last d) :
    ∃ asks drawn, d.Proper asks drawn := by
  obtain ⟨drawn, hst, -⟩ := h.retraced
  exact ⟨_, _, (proper_turn n).retrace hst⟩

theorem Arrived.record (h : Arrived n y trace last d) {entry : String} {task : Task}
    (hdue : Session.due settings (Journal.render (y.decimal :: trace)) = some task)
    (hwrites : task.Writes (recorded y trace entry)) (hentry : Journal.Storable entry)
    (hstep : ∀ position drawn, d.retrace [entry] position drawn = .ok ⟨none, d'⟩)
    (hd' : Chained last d') : Arrived n y (trace ++ [entry]) last d' := by
  obtain ⟨drawn, hst, -⟩ := h.retraced
  constructor
  · exact h.sound.writes hdue hwrites
  · exact List.forall_mem_append.mpr ⟨h.storable, List.forall_mem_singleton.mpr hentry⟩
  · refine ⟨none, ?_, nofun⟩
    rw [Dialogue.retrace_append hst]
    exact hstep _ _
  · exact hd'
  · exact h.settled

theorem Arrived.ask {α : Type} {accept : String → Except Error α} {next : α → Dialogue Bool}
    (h : Arrived n y trace last (.call (.ask accept) next)) (hn : trace.length + 1 ≤ n)
    {line entry : String} {a : α} (haccept : accept entry = .ok a)
    (hblank : Text.isBlank line = false) (htrim : Text.trim line = entry)
    (hentry : Journal.Storable entry) :
    Leads settings (Journal.render (y.decimal :: trace)) [line]
        [.took line, .wrote (recorded y trace entry)] (recorded y trace entry) ∧
      Arrived n y (trace ++ [entry]) last (next a) := by
  have hdue := h.due hn settings
  have hrecord : recording accept y trace entry = .ok (recorded y trace entry) := by
    rw [recording, haccept]
    exact if_pos hentry
  constructor
  · refine .of_step (step_ask hdue hblank ?_)
    rw [htrim]
    exact hrecord
  · exact h.record hdue (.ask hrecord) hentry
      (fun position drawn => Dialogue.retrace_ask position drawn haccept) (h.chained a)

theorem Arrived.tell {line : String} {next : Unit → Dialogue Bool}
    (h : Arrived n y trace last (.call (.tell line) next)) (hn : trace.length + 1 ≤ n) :
    Leads settings (Journal.render (y.decimal :: trace)) []
        [.showed line, .wrote (recorded y trace line)] (recorded y trace line) ∧
      Arrived n y (trace ++ [line]) last (next ()) := by
  have hdue := h.due hn settings
  obtain ⟨asks, drawn, hproper⟩ := h.proper
  constructor
  · exact .of_step (step_tell hdue)
  · exact h.record hdue (.tell line _) hproper.1
      (fun position drawn => Dialogue.retrace_tell position drawn line next) h.chained

theorem Arrived.draw {previous : Option Int64} {next : Int64 → Dialogue Bool}
    (h : Arrived n y trace last (.call (.draw previous) next)) (hn : trace.length + 2 ≤ n) :
    ∃ fx, Leads settings (Journal.render (y.decimal :: trace)) [] fx
        (recorded (Generator.next y) trace y.decimal) ∧
      fx.filterMap Effect.remark? = [.told y.decimal] ∧
      Arrived n (Generator.next y) (trace ++ [y.decimal]) (some y) (next y) := by
  have hdue := h.due (Nat.le_of_succ_le hn) settings
  obtain ⟨drawn, hst, -⟩ := h.retraced
  obtain ⟨rfl, hnext⟩ := h.chained
  have htold : Leads settings (Journal.render (y.decimal :: trace)) [] _ _ :=
    .of_step (step_tell hdue)
  have hsound : Sound (recorded y trace y.decimal) := h.sound.writes hdue (.tell _ _)
  have hall : ∀ e ∈ trace ++ [y.decimal], Journal.Storable e :=
    List.forall_mem_append.mpr
      ⟨h.storable, List.forall_mem_singleton.mpr (Numeral.storable_decimal y)⟩
  have hstep : (turn n).retrace (trace ++ [y.decimal]) 1 none
      = .ok ⟨some (1 + trace.length, y), next y⟩ := by
    rw [Dialogue.retrace_append hst]
    exact Dialogue.retrace_draw _ _ (recordedDraw_decimal h.settled)
  have harrived (hmoved : Sound (recorded (Generator.next y) trace y.decimal)) :
      Arrived n (Generator.next y) (trace ++ [y.decimal]) (some y) (next y) := by
    constructor
    · exact hmoved
    · exact hall
    · refine ⟨_, hstep, ?_⟩
      intro position value hvalue
      obtain ⟨-, rfl⟩ := Prod.mk.inj (Option.some.inj hvalue)
      rfl
    · exact hnext y
    · intro value hvalue
      rw [Option.some.inj hvalue]
  have hlength : (trace ++ [y.decimal]).length + 1 ≤ n := by
    rw [List.length_append]
    exact hn
  have hmore := due_turn settings hsound hall hstep hlength
  by_cases hfixed : y = Generator.next y
  · rw [← hfixed] at harrived ⊢
    exact ⟨_, htold, rfl, harrived hsound⟩
  · have hpending : Pending y y := ⟨rfl, hfixed⟩
    rw [taskAt, if_pos hpending] at hmore
    exact ⟨_, htold.trans (.of_step (step_write hmore)), rfl,
      harrived (hsound.writes hmore (.write _ _ _))⟩

end

theorem isBlank_of_trim {line : String} (h : Journal.Storable (Text.trim line)) :
    Text.isBlank line = false := by
  have hblank := h.1
  rw [Bool.eq_false_iff, ne_eq, ← Text.trim_eq_empty_iff] at hblank ⊢
  rw [Text.trim_trim] at hblank
  exact hblank

theorem leads_rehearse (settings : Settings) {lines : List String} {d : Dialogue Bool}
    {last : Option Int64} (k : Nat) (h : Arrived n y trace last d) (hn : trace.length + k + 1 ≤ n)
    (hlines : ∀ line ∈ lines, Journal.Storable (Text.trim line)) :
    ∃ ls rest fx b, lines = ls ++ rest ∧
      Leads settings (Journal.render (y.decimal :: trace)) ls fx b ∧
      fx.filterMap Effect.remark?
        = ((d.rehearse (lines.map Text.trim) y).take k).map Remark.plain := by
  induction k generalizing y trace lines d last with
  | zero => exact ⟨[], lines, [], _, rfl, .refl _, rfl⟩
  | succ k ih =>
      have hnow : trace.length + 1 ≤ n := by omega
      have hlater (entry : String) : (trace ++ [entry]).length + k + 1 ≤ n := by
        rw [List.length_append, List.length_singleton]
        omega
      have hstays : ∃ ls rest fx b, lines = ls ++ rest ∧
          Leads settings (Journal.render (y.decimal :: trace)) ls fx b ∧
          fx.filterMap Effect.remark? = [] := ⟨[], lines, [], _, rfl, .refl _, rfl⟩
      cases d with
      | done a => exact hstays
      | call c next =>
          cases c with
          | ask accept =>
              cases lines with
              | nil => exact hstays
              | cons line lines =>
                  obtain ⟨hline, hlines⟩ := List.forall_mem_cons.mp hlines
                  cases haccept : accept (Text.trim line) with
                  | error e =>
                      rw [List.map_cons, Dialogue.rehearse, haccept]
                      exact hstays
                  | ok a =>
                      rw [List.map_cons, Dialogue.rehearse_ask haccept, List.take_succ_cons]
                      obtain ⟨hleads, hnext⟩ := h.ask hnow haccept (isBlank_of_trim hline) rfl hline
                      obtain ⟨ls, rest, fx, b, hsplit, hrest, hfx⟩ :=
                        ih hnext (hlater (Text.trim line)) hlines
                      refine ⟨line :: ls, rest, _, b, congrArg (line :: ·) hsplit,
                        hleads.trans hrest, ?_⟩
                      rw [List.filterMap_append, hfx, List.map_cons, Remark.plain, Text.trim_trim]
                      rfl
          | tell line =>
              rw [Dialogue.rehearse, List.take_succ_cons]
              obtain ⟨hleads, hnext⟩ := h.tell hnow
              obtain ⟨ls, rest, fx, b, hsplit, hrest, hfx⟩ := ih hnext (hlater line) hlines
              refine ⟨ls, rest, _, b, hsplit, hleads.trans hrest, ?_⟩
              rw [List.filterMap_append, hfx]
              rfl
          | draw previous =>
              rw [Dialogue.rehearse, List.take_succ_cons]
              obtain ⟨gx, hleads, hgx, hnext⟩ := h.draw (by omega)
              obtain ⟨ls, rest, fx, b, hsplit, hrest, hfx⟩ := ih hnext (hlater y.decimal) hlines
              refine ⟨ls, rest, _, b, hsplit, hleads.trans hrest, ?_⟩
              rw [List.filterMap_append, hgx, hfx]
              rfl
          | stop e => exact hstays

theorem Leads.begins {b b' b'' : ByteArray} {ls rest u : List String} {fx gx : List Effect}
    {r : Except Error Unit} (h : Leads settings b ls fx b')
    (hsmooth : Smooth settings b (ls ++ rest) gx r b'' u) :
    ∃ gx', gx = fx ++ gx' ∧ Smooth settings b' rest gx' r b'' u := by
  induction h generalizing gx with
  | refl b => exact ⟨gx, rfl, hsmooth⟩
  | step hstep _ ih =>
      rw [List.append_assoc] at hsmooth
      cases hsmooth with
      | stop hstep' =>
          obtain ⟨-, hr, -⟩ := Step.mk.inj (Option.some.inj ((hstep _).symm.trans hstep'))
          cases hr
      | go hstep' hrest =>
          obtain ⟨rfl, -, rfl, rfl⟩ := Step.mk.inj (Option.some.inj ((hstep _).symm.trans hstep'))
          obtain ⟨gx', rfl, hsmooth'⟩ := ih hrest
          exact ⟨gx', (List.append_assoc _ _ _).symm, hsmooth'⟩

theorem outcome_rehearsed (settings : Settings) (n : Nat) (x : Int64) {lines : List String} {k : Nat}
    (hk : k + 1 ≤ n) (hlines : ∀ line ∈ lines, Journal.Storable (Text.trim line))
    (hpadded : Unpadded lines) :
    let w := Simulation.start (lines.map .line) (Journal.render [x.decimal])
    (((turn n).rehearse lines x).take k).map Remark.plain
      <+: exchanges (w.outcome .faultless settings).1.events := by
  intro w
  have hn : ([] : List String).length + k + 1 ≤ n := by
    rw [List.length_nil, Nat.zero_add]
    exact hk
  obtain ⟨ls, rest, fx, b, hsplit, hleads, hfx⟩ :=
    leads_rehearse settings k (arrived_start n x) hn hlines
  have hscript : w.script = (ls ++ rest).map .line := by
    rw [← hsplit]
    rfl
  obtain ⟨_, -, hsmooth⟩ := smooth_outcome settings (sound_fresh x) rfl hscript
  obtain ⟨gx, hevents, -⟩ := hleads.begins hsmooth
  rw [List.map_take, rehearse_turn n hpadded x, ← List.map_take] at hfx
  rw [exchanges, hevents, List.filterMap_append, hfx]
  exact List.prefix_append _ _

theorem remarks_of_retrace {st : Standing Bool} (x : Int64)
    (hst : (turn n).retrace trace 1 none = .ok st) :
    ((turn n).remarks trace).map Remark.text = trace ∧
      List.Forall₂ Remark.Records ((turn n).remarks trace)
        (((turn n).retell trace x).take trace.length) := by
  obtain ⟨htexts, shown, z, hrecords, hrehearse⟩ :=
    Dialogue.rehearse_of_retrace (chained_turn n) (Dialogue.abreast_outset _ x) hst
  have hlength : shown.length = trace.length := by
    rw [← hrecords.length_eq, ← List.length_map Remark.text, htexts]
  refine ⟨htexts, ?_⟩
  rw [Dialogue.retell, hrehearse, ← hlength, List.take_left']
  · exact hrecords
  · rfl

theorem run_flawed {s : Schedule} (settings : Settings) {w : Simulation} {seed : Int64}
    (h : Journal.Opens w.bytes seed trace) (hloads : ∀ i, s.loadFails i = false) {e : Error}
    (he : (turn w.patience).retrace trace 1 none = .error e) :
    (w.run s settings).1 = .error e ∧ (w.run s settings).2.log = w.log ∧
      (w.run s settings).2.bytes = w.bytes := by
  have hpatience : w.patience = w.patience - 1 + 1 := rfl
  have hsteady : exec (Simulation.steady s) (run settings w.patience) w = (.error e, w) := by
    rw [hpatience, exec_run h, ← hpatience, resume, he]
    rfl
  have hcut : Simulation.Cut s (w.run s settings) _ :=
    Simulation.cut_exec (givesUp_run settings (w.patience - 1)) s (Simulation.Alike.refl w)
  rw [← hpatience, hsteady] at hcut
  cases hcut with
  | whole hresult hsame => exact ⟨hresult, hsame.log, hsame.bytes⟩
  | short i hi =>
      rw [hloads i] at hi
      cases hi

/-- A session that gets past the trace has found in it what the command comes to with the lines of the
trace: every line told as it is, every value drawn in some way of writing it. A session of its own that
is given these lines comes to the same, if they are recorded as they are given. An entry that records
anything else is a mismatch. -/
theorem run_accepts (s : Schedule) (settings : Settings) (script : List Utterance)
    (bytes : ByteArray) (x : Int64) :
    let w := Simulation.start script bytes
    let out := w.run s settings
    (out.2.log ≠ [] ∨ out.1 = .ok () → bytes = ByteArray.empty ∨
      ∃ seed trace, Journal.Opens bytes seed trace ∧
        let recorded := (turn w.patience).remarks trace
        let shown := ((turn w.patience).retell trace x).take trace.length
        let lines := heardLines recorded
        recorded.map Remark.text = trace ∧ List.Forall₂ Remark.Records recorded shown ∧
        ((∀ line ∈ lines, Journal.Storable (Text.trim line)) → Unpadded lines →
          let u := Simulation.start (lines.map .line)
            (Journal.render [(outset recorded x).decimal])
          shown.map Remark.plain <+: exchanges (u.outcome .faultless settings).1.events)) ∧
    ∀ seed trace, Journal.Opens bytes seed trace → (∀ i, s.loadFails i = false) →
      ∀ rs r rs' ss ts, (turn w.patience).remarks trace = rs ++ r :: rs' →
        (turn w.patience).retell trace x = ss ++ ts → List.Forall₂ Remark.Records rs ss →
        ∃ r' ts', ts = r' :: ts' ∧ (r.Records r' ∨
          ∃ expected, (expected = r'.text ∨ expected = "a generator value") ∧
            out.1 = .error (.replayMismatch (rs.length + 1) expected r.text) ∧
            out.2.log = [] ∧ out.2.bytes = bytes) := by
  intro w out
  constructor
  · intro hpast
    by_cases hne : bytes = ByteArray.empty
    · exact .inl hne
    have hempty : w.bytes.isEmpty = false := Bool.eq_false_iff.mpr (mt isEmpty_iff.mp hne)
    rcases exec_run_cases s settings (w.patience - 1) hempty with
      ⟨e, w', h, hsame, -⟩ | ⟨seed, trace, st, w', hopens, hst, -, -⟩
    · have hout : out = (.error e, w') := h
      rw [hout] at hpast
      rcases hpast with hlog | hok
      · exact absurd hsame.log hlog
      · cases hok
    · obtain ⟨htexts, hrecords⟩ := remarks_of_retrace x hst
      refine .inr ⟨seed, trace, hopens, htexts, hrecords, ?_⟩
      intro hlines hpadded
      have hsize := hopens.length_lt_size
      refine outcome_rehearsed settings w.patience _ ?_ hlines hpadded
      rw [Simulation.patience]
      omega
  · intro seed trace hopens hloads rs r rs' ss ts hrecorded hretold hbefore
    have hnext : ∃ r' ts', ts = r' :: ts' ∧
        Dialogue.Judged r r' (1 + rs.length) ((turn w.patience).retrace trace 1 none) :=
      Dialogue.judged_of_rehearse (chained_turn w.patience) (Dialogue.abreast_outset _ x) hrecorded
        hretold hbefore
    obtain ⟨r', ts', hts, hjudged⟩ := hnext
    refine ⟨r', ts', hts, ?_⟩
    generalize hretrace : (turn w.patience).retrace trace 1 none = result at hjudged
    cases hjudged with
    | recorded hr => exact .inl hr
    | @mismatch expected hexpected =>
        refine .inr ⟨expected, hexpected, ?_⟩
        have hw : Journal.Opens w.bytes seed trace := hopens
        obtain ⟨hresult, hlog, hbytes⟩ := run_flawed settings hw hloads hretrace
        rw [Nat.add_comm] at hresult
        exact ⟨hresult, hlog, hbytes⟩

theorem run_accepts_rand :
    let written := Journal.render ["420", "rand", "2", "+420"]
    let forged := Journal.render ["420", "rand", "2", "+420", "7058941"]
    let u := Simulation.start [.line "rand", .line "2"] (Journal.render [Int64.decimal 420])
    ((Simulation.start [] written).run .faultless .standard).2.log ≠ [] ∧
      [.heard "rand", .heard "2", .told "420"]
        <+: exchanges (u.outcome .faultless .standard).1.events ∧
      ∃ expected, ((Simulation.start [] forged).run .faultless .standard).1
        = .error (.replayMismatch 4 expected "7058941") := by
  intro written forged u
  have hparse : Journal.parse written = .ok ["420", "rand", "2", "+420"] := by decide +kernel
  have hopens : Journal.Opens forged 420 ["rand", "2", "+420", "7058941"] :=
    ⟨"420", by decide +kernel, by decide +kernel⟩
  have hlog : ((Simulation.start [] written).run .faultless .standard).2.log ≠ [] := by
    rw [← List.isEmpty_eq_false_iff]
    decide +kernel
  obtain ⟨haccepts, -⟩ := run_accepts .faultless .standard [] written 0
  obtain ⟨-, hrejects⟩ := run_accepts .faultless .standard [] forged 0
  refine ⟨hlog, ?_, ?_⟩
  · rcases haccepts (.inl hlog) with hempty | ⟨seed, trace, ⟨e, htrace, -⟩, -, -, hbegins⟩
    · have hsize : written.isEmpty = false := by decide +kernel
      rw [hempty] at hsize
      cases hsize
    · obtain ⟨-, rfl⟩ := List.cons.inj (Except.ok.inj (htrace.symm.trans hparse))
      have hrecorded : (turn (Simulation.start [] written).patience).remarks ["rand", "2", "+420"]
          = [.heard "rand", .heard "2", .drew "+420"] := by decide +kernel
      have hretold : ((turn (Simulation.start [] written).patience).retell
          ["rand", "2", "+420"] 0).take ["rand", "2", "+420"].length
            = [.heard "rand", .heard "2", .drew "420"] := by decide +kernel
      have houtset : outset [.heard "rand", .heard "2", .drew "+420"] 0 = 420 := by decide +kernel
      have hplain : [Remark.heard "rand", .heard "2", .drew "420"].map Remark.plain
          = [.heard "rand", .heard "2", .told "420"] := by decide +kernel
      rw [hrecorded, houtset, hretold, hplain] at hbegins
      have hu : u = Simulation.start ((heardLines [.heard "rand", .heard "2", .drew "+420"]).map
          .line) (Journal.render [Int64.decimal 420]) := rfl
      rw [hu]
      exact hbegins (by decide +kernel) (by decide +kernel)
  · have hagree : List.Forall₂ Remark.Records [.heard "rand", .heard "2", .drew "+420"]
        [.heard "rand", .heard "2", .drew (Int64.decimal 420)] :=
      .cons (.heard _) (.cons (.heard _) (.cons (.drew (by decide +kernel)) .nil))
    obtain ⟨r', ts', hts, hr | ⟨expected, -, hresult, -⟩⟩ := hrejects 420 _ hopens (fun _ => rfl)
      [.heard "rand", .heard "2", .drew "+420"] (.drew "7058941") [] _
      [.drew "7058940"] (by decide +kernel) (by decide +kernel) hagree
    · obtain ⟨rfl, -⟩ := List.cons.inj hts
      obtain ⟨value, hread, hvalue⟩ := hr.exists_value
      have hforged : Numeral.read? "7058941" = some 7058941 := by decide +kernel
      obtain rfl := Option.some.inj (hforged.symm.trans hread)
      exact absurd hvalue (by decide +kernel)
    · exact ⟨expected, hresult⟩

def Verbatim (settings : Settings) (script : List Utterance) (bytes : ByteArray) (x : Int64)
    (trace : List String) : Prop :=
  let w := Simulation.start script bytes
  let recorded := (turn w.patience).remarks trace
  let u := Simulation.start ((heardLines recorded).map .line)
    (Journal.render [(outset recorded x).decimal])
  Journal.Opens bytes x trace → (w.run .faultless settings).2.log ≠ [] →
    recorded.map Remark.plain <+: exchanges (u.outcome .faultless settings).1.events

theorem not_verbatim_render {trace : List String}
    (hparse : Journal.parse (Journal.render ("420" :: trace)) = .ok ("420" :: trace))
    (hlog : ((Simulation.start [] (Journal.render ("420" :: trace))).run .faultless
      .standard).2.log.isEmpty = false)
    (hother :
      let recorded := (turn (Simulation.start [] (Journal.render ("420" :: trace))).patience).remarks
        trace
      let u := Simulation.start ((heardLines recorded).map .line)
        (Journal.render [(outset recorded 420).decimal])
      ¬ recorded.map Remark.plain <+: exchanges (u.outcome .faultless .standard).1.events) :
    ¬ Verbatim .standard [] (Journal.render ("420" :: trace)) 420 trace := by
  intro h
  have hopens : Journal.Opens (Journal.render ("420" :: trace)) 420 trace :=
    ⟨"420", hparse, by decide +kernel⟩
  exact hother (h hopens (List.isEmpty_eq_false_iff.mp hlog))

theorem not_verbatim :
    ¬ Verbatim .standard [] (Journal.render ["420", "rand", "1", "+420"]) 420 ["rand", "1", "+420"] ∧
      ¬ Verbatim .standard [] (Journal.render ["420", "help", Help.standard.intro,
          Help.standard.commandList, Help.standard.exitHint, " end ", Help.standard.unknownTopic]) 420
        ["help", Help.standard.intro, Help.standard.commandList, Help.standard.exitHint, " end ",
          Help.standard.unknownTopic] ∧
      ¬ Verbatim .standard [] (Journal.render ["420", "foo\rbar", Command.noSuchCommand]) 420
        ["foo\rbar", Command.noSuchCommand] := by
  refine ⟨?_, ?_, ?_⟩
  · exact not_verbatim_render (by decide +kernel) (by decide +kernel) (by decide +kernel)
  · exact not_verbatim_render (by decide +kernel) (by decide +kernel) (by decide +kernel)
  · exact not_verbatim_render (by decide +kernel) (by decide +kernel) (by decide +kernel)

end Session

end DurableCalc
