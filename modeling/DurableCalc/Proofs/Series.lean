import DurableCalc.Proofs.Ending

namespace DurableCalc

namespace Simulation

variable {s : Schedule} {settings : Settings} {w : Simulation}

def Willing (w : Simulation) : Prop :=
  ∃ lines : List String, w.script = lines.map .line

def Allows (s : Schedule) (w : Simulation) : Event → Prop
  | .readFailed | .showFailed _ => s.userFails w.calls = true
  | .lost _ => s.loses w.writes = true
  | .crashed _ => s.crashes w.writes = true
  | _ => True

theorem Willing.step (h : w.Willing) (s : Schedule) (c : Device.Call) :
    (device s c w).2.Willing ∧
      ((device s c w).2.log = w.log ∧ (device s c w).2.calls = w.calls ∨
        ∃ e, (device s c w).2.log = e :: w.log ∧ Allows s w e ∧
          (device s c w).2.calls = w.calls + if e.isOfStorage then 0 else 1) := by
  cases c with
  | readLine =>
      simp only [device, Device.handler, console, readLine]
      split
      · next hfails => exact ⟨h, .inr ⟨_, rfl, hfails, rfl⟩⟩
      · obtain ⟨lines, hlines⟩ := h
        cases lines with
        | nil =>
            rw [List.map_nil] at hlines
            simp only [hlines]
            exact ⟨⟨[], rfl⟩, .inr ⟨_, rfl, trivial, rfl⟩⟩
        | cons line lines =>
            rw [List.map_cons] at hlines
            simp only [hlines]
            exact ⟨⟨lines, rfl⟩, .inr ⟨_, rfl, trivial, rfl⟩⟩
  | showLine line =>
      simp only [device, Device.handler, console, showLine]
      split
      · next hfails => exact ⟨h, .inr ⟨_, rfl, hfails, rfl⟩⟩
      · exact ⟨h, .inr ⟨_, rfl, trivial, rfl⟩⟩
  | load =>
      simp only [device, Device.handler, storage, load]
      split <;> exact ⟨h, .inl ⟨rfl, rfl⟩⟩
  | store bytes =>
      simp only [device, Device.handler, storage, store]
      split
      · next hloses => exact ⟨h, .inr ⟨_, rfl, hloses, rfl⟩⟩
      · split
        · next hcrashes => exact ⟨h, .inr ⟨_, rfl, hcrashes, rfl⟩⟩
        · exact ⟨h, .inr ⟨_, rfl, trivial, rfl⟩⟩

theorem forall_events {P : Event → Prop} (hallows : ∀ w' e, Allows s w' e → P e)
    (settings : Settings) (hscript : w.Willing) (hlog : w.log = []) :
    (w.outcome s settings).2.Willing ∧ ∀ e ∈ (w.outcome s settings).1.events, P e := by
  have hstep (c : Device.Call) (w' : Simulation) (h : w'.Willing ∧ ∀ e ∈ w'.log, P e) :
      (device s c w').2.Willing ∧ ∀ e ∈ (device s c w').2.log, P e := by
    obtain ⟨hscript', ⟨hlog', -⟩ | ⟨e, hlog', hallowed, -⟩⟩ := h.1.step s c
    · rw [hlog']
      exact ⟨hscript', h.2⟩
    · rw [hlog']
      exact ⟨hscript', List.forall_mem_cons.mpr ⟨hallows w' e hallowed, h.2⟩⟩
  have hstart : w.Willing ∧ ∀ e ∈ w.log, P e := by
    rw [hlog]
    exact ⟨hscript, List.forall_mem_nil _⟩
  have hrun := Program.run_preserves (P := fun w' : Simulation => w'.Willing ∧ ∀ e ∈ w'.log, P e)
    hstep (Session.run settings w.patience).run hstart
  refine ⟨hrun.1, ?_⟩
  intro e he
  exact hrun.2 e (List.mem_reverse.mp he)

theorem persist_cases (again : Except Error Unit → Bool) (s : Schedule) (settings : Settings)
    (n : Nat) (w : Simulation) :
    let out := w.outcome s settings
    let others := persist again s settings n out.2
    again out.1.result = true ∧
        persist again s settings (n + 1) w = (out.1 :: others.1, others.2) ∨
      again out.1.result = false ∧ persist again s settings (n + 1) w = ([out.1], out.2) := by
  intro out others
  cases hagain : again out.1.result with
  | true =>
      refine .inl ⟨rfl, ?_⟩
      rw [persist]
      exact if_pos hagain
  | false =>
      refine .inr ⟨rfl, ?_⟩
      rw [persist]
      exact if_neg (Bool.eq_false_iff.mp hagain)

theorem forall_events_persist {P : Event → Prop} (hallows : ∀ w' e, Allows s w' e → P e)
    (again : Except Error Unit → Bool) (settings : Settings) (n : Nat) (hscript : w.Willing)
    (hlog : w.log = []) : ∀ out ∈ (persist again s settings n w).1, ∀ e ∈ out.events, P e := by
  induction n generalizing w with
  | zero => exact List.forall_mem_nil _
  | succ n ih =>
      obtain ⟨hscript', hevents⟩ := forall_events hallows settings hscript hlog
      have hnext := ih (w := (w.outcome s settings).2) hscript' rfl
      rcases persist_cases again s settings n w with ⟨-, h⟩ | ⟨-, h⟩
      · rw [h]
        exact List.forall_mem_cons.mpr ⟨hevents, hnext⟩
      · rw [h]
        exact List.forall_mem_singleton.mpr hevents

structure Retries (again : Except Error Unit → Bool) : Prop where
  induced : ∀ result, isInduced result = true → again result = true
  only : ∀ result, again result = true → isInduced result = true ∨ isRefusal result = true

theorem retries_isInduced : Retries isInduced :=
  ⟨fun _ h => h, fun _ h => .inl h⟩

theorem not_isRefusal_of_isInduced {result : Except Error Unit} (h : isInduced result = true) :
    isRefusal result = false := by
  cases result with
  | ok a => cases h
  | error e => cases e <;> first | rfl | cases h

def Outcome.kept (again : Except Error Unit → Bool) (out : Outcome) : List Event :=
  if again out.result && isRefusal out.result then (confirmed out.events).dropLast
  else confirmed out.events

end Simulation

namespace Session

open Simulation (Outcome Retries isInduced isRefusal persist)

variable {s : Schedule} {settings : Settings} {w : Simulation} {again : Except Error Unit → Bool}

inductive Series (settings : Settings) (again : Except Error Unit → Bool) : ByteArray →
    List Utterance → List Outcome → ByteArray → List Utterance → Prop where
  | nil (b : ByteArray) (u : List Utterance) : Series settings again b u [] b u
  | last {b : ByteArray} {u u' : List Utterance} {out : Outcome} :
      Course settings b u out.events out.result out.bytes u' → again out.result = false →
      Series settings again b u [out] out.bytes u'
  | more {b b' : ByteArray} {u u' u'' : List Utterance} {out : Outcome} {outs : List Outcome} :
      Course settings b u out.events out.result out.bytes u' → again out.result = true →
      Series settings again out.bytes u' outs b' u'' →
      Series settings again b u (out :: outs) b' u''

theorem course_outcome (settings : Settings) (hsound : Sound w.bytes) (hlog : w.log = [])
    (hloads : ∀ i, s.loadFails i = false) :
    Course settings w.bytes w.script (w.outcome s settings).1.events
      (w.outcome s settings).1.result (w.outcome s settings).1.bytes
      (w.outcome s settings).2.script := by
  obtain ⟨out, ⟨es, hcourse, hes⟩, hcut⟩ := run_course s settings hsound
  cases hcut with
  | whole hresult hsame =>
      have hevents : (w.run s settings).2.log.reverse = es := by
        rw [hsame.log, hes, hlog, List.append_nil, List.reverse_reverse]
      rw [← hevents, ← hresult, ← hsame.bytes, ← hsame.script] at hcourse
      exact hcourse
  | short i hi =>
      rw [hloads i] at hi
      cases hi

theorem Course.sound_bytes {b b' : ByteArray} {u u' : List Utterance} {es : List Event}
    {result : Except Error Unit} (h : Course settings b u es result b' u') (hsound : Sound b) :
    Sound b' := by
  rw [h.bytes_eq]
  exact sound_held hsound (h.sound hsound)

theorem Series.sound_bytes {b b' : ByteArray} {u u' : List Utterance} {outs : List Outcome}
    (h : Series settings again b u outs b' u') (hsound : Sound b) : Sound b' := by
  induction h with
  | nil b u => exact hsound
  | last hcourse hagain => exact hcourse.sound_bytes hsound
  | more hcourse hagain hseries ih => exact ih (hcourse.sound_bytes hsound)

theorem series_persist (settings : Settings) (hloads : ∀ i, s.loadFails i = false) (n : Nat)
    (hsound : Sound w.bytes) (hlog : w.log = []) :
    Series settings again w.bytes w.script (persist again s settings n w).1
      (persist again s settings n w).2.bytes (persist again s settings n w).2.script := by
  induction n generalizing w with
  | zero => exact .nil w.bytes w.script
  | succ n ih =>
      have hcourse := course_outcome settings hsound hlog hloads
      rcases Simulation.persist_cases again s settings n w with ⟨hagain, h⟩ | ⟨hagain, h⟩
      · rw [h]
        have hnext := ih (w := (w.outcome s settings).2) (hcourse.sound_bytes hsound) rfl
        exact .more hcourse hagain hnext
      · rw [h]
        exact .last hcourse hagain

theorem Course.retried {b : ByteArray} {u u' : List Utterance} {out : Outcome}
    (h : Course settings b u out.events out.result out.bytes u') (hretries : Retries again)
    (hagain : again out.result = true) (hsound : Sound b) {lines : List String}
    (hlines : u = lines.map .line) (hquiet : unconfirmedExit b out.events = false) :
    Leads settings b (taken (out.kept again)) (effects (out.kept again)) out.bytes := by
  obtain ⟨hending, -⟩ := h.ending hsound hlines
  rw [Outcome.kept, hagain, Bool.true_and]
  generalize out.result = result at hending hagain
  cases hending with
  | interrupted hinduced hfault _ hleads =>
      rw [Simulation.not_isRefusal_of_isInduced hinduced]
      exact hleads
  | unconfirmed hinduced hevents hbefore hexiting hsmooth =>
      rw [hevents, unconfirmedExit_of_exiting hexiting] at hquiet
      cases hquiet
  | refused hrefusal hevents hquiet hsame hleads hsmooth =>
      rw [hrefusal, if_pos rfl, hsame, hevents, List.dropLast_concat]
      exact hleads
  | left => rcases hretries.only _ hagain with h | h <;> cases h
  | closed => rcases hretries.only _ hagain with h | h <;> cases h

theorem Course.final {b : ByteArray} {u u' : List Utterance} {out : Outcome}
    (h : Course settings b u out.events out.result out.bytes u') (hretries : Retries again)
    (hagain : again out.result = false) (hsound : Sound b) {lines : List String}
    (hlines : u = lines.map .line) :
    unconfirmedExit b out.events = false ∧ out.kept again = out.events ∧
      ∀ rest : List String, u' = rest.map .line →
        Smooth settings b (taken out.events ++ rest) (effects out.events) out.result out.bytes
          rest := by
  obtain ⟨hending, -⟩ := h.ending hsound hlines
  rw [Outcome.kept, hagain, Bool.false_and, if_neg Bool.false_ne_true]
  have hinduced : isInduced out.result = false := by
    cases hresult : isInduced out.result with
    | true => rw [hretries.induced _ hresult] at hagain; exact hagain
    | false => rfl
  generalize out.result = result at hending hinduced
  cases hending with
  | interrupted hcause => rw [hcause] at hinduced; cases hinduced
  | unconfirmed hcause => rw [hcause] at hinduced; cases hinduced
  | refused _ _ hquiet hsame _ hsmooth => exact ⟨hquiet, hsame, fun rest _ => hsmooth rest⟩
  | left hquiet hsame hsmooth => exact ⟨hquiet, hsame, fun rest _ => hsmooth rest⟩
  | closed hquiet hsame hsmooth =>
      refine ⟨hquiet, hsame, fun rest hrest => ?_⟩
      obtain rfl := List.map_eq_nil_iff.mp hrest.symm
      rw [List.append_nil]
      exact hsmooth

theorem Course.unconfirmed {b b' : ByteArray} {u u' : List Utterance} {es : List Event}
    {result : Except Error Unit} (h : Course settings b u es result b' u') (hsound : Sound b)
    {lines : List String} (hlines : u = lines.map .line) (hexit : unconfirmedExit b es = true) :
    ∃ fs, es = fs ++ [.crashed b'] ∧ unconfirmedExit b fs = false ∧ exiting (held b fs) = true ∧
      ∀ rest, Smooth settings b (taken es ++ rest) (effects es) (.ok ()) b' rest := by
  obtain ⟨hending, -⟩ := h.ending hsound hlines
  cases hending with
  | unconfirmed _ hevents hbefore hexiting hsmooth =>
      exact ⟨_, hevents, hbefore, hexiting, hsmooth⟩
  | interrupted _ _ hquiet => rw [hquiet] at hexit; cases hexit
  | refused _ _ hquiet => rw [hquiet] at hexit; cases hexit
  | left hquiet => rw [hquiet] at hexit; cases hexit
  | closed hquiet => rw [hquiet] at hexit; cases hexit

theorem Course.exists_lines {b b' : ByteArray} {u u' : List Utterance} {es : List Event}
    {result : Except Error Unit} (h : Course settings b u es result b' u') (hsound : Sound b)
    {lines : List String} (hlines : u = lines.map .line) :
    ∃ rest : List String, u' = rest.map .line ∧ lines = taken es ++ rest := by
  have htaken := (h.ending hsound hlines).2
  obtain ⟨ms, rest, hsplit, hms, hrest⟩ := List.map_eq_append_iff.mp (hlines.symm.trans htaken)
  refine ⟨rest, hrest.symm, ?_⟩
  rw [hsplit, (List.map_inj_right fun _ _ h => Utterance.line.inj h).mp hms]

theorem Series.smooth {b b' : ByteArray} {u u' : List Utterance} {outs : List Outcome}
    (h : Series settings again b u outs b' u') (hretries : Retries again) (hsound : Sound b)
    {lines : List String} (hlines : u = lines.map .line)
    (hquiet : unconfirmedExit b (outs.flatMap Outcome.events) = false) :
    ∃ rest : List String, u' = rest.map .line ∧
      lines = taken (outs.flatMap Outcome.events) ++ rest ∧
      ((∀ out ∈ outs, again out.result = true) ∧
        Leads settings b (taken (outs.flatMap (Outcome.kept again)))
          (effects (outs.flatMap (Outcome.kept again))) b' ∨
      ∃ out, outs.getLast? = some out ∧ again out.result = false ∧ out.bytes = b' ∧
        Smooth settings b (taken (outs.flatMap (Outcome.kept again)) ++ rest)
          (effects (outs.flatMap (Outcome.kept again))) out.result b' rest) := by
  induction h generalizing lines with
  | nil b u => exact ⟨lines, hlines, rfl, .inl ⟨nofun, .refl b⟩⟩
  | @last b u u' out hcourse hagain =>
      obtain ⟨rest, hrest, htaken⟩ := hcourse.exists_lines hsound hlines
      obtain ⟨-, hkept, hsmooth⟩ := hcourse.final hretries hagain hsound hlines
      rw [List.flatMap_singleton, List.flatMap_singleton, hkept]
      exact ⟨rest, hrest, htaken, .inr ⟨out, rfl, hagain, rfl, hsmooth rest hrest⟩⟩
  | @more b b' u u' u'' out outs hcourse hagain hseries ih =>
      rw [List.flatMap_cons, unconfirmedExit_append, ← hcourse.bytes_eq, Bool.or_eq_false_iff]
        at hquiet
      obtain ⟨ls, hls, htaken⟩ := hcourse.exists_lines hsound hlines
      have hleads := hcourse.retried hretries hagain hsound hlines hquiet.1
      obtain ⟨rest, hrest, hmore, hupshot⟩ := ih (hcourse.sound_bytes hsound) hls hquiet.2
      refine ⟨rest, hrest, ?_, ?_⟩
      · rw [List.flatMap_cons, taken_append, List.append_assoc, ← hmore, htaken]
      rw [List.flatMap_cons, taken_append, effects_append]
      rcases hupshot with ⟨hall, hleads'⟩ | ⟨out', hlast, hagain', hbytes, hsmooth⟩
      · exact .inl ⟨List.forall_mem_cons.mpr ⟨hagain, hall⟩, hleads.trans hleads'⟩
      · refine .inr ⟨out', ?_, hagain', hbytes, ?_⟩
        · rw [List.getLast?_cons, hlast]
          rfl
        · rw [List.append_assoc]
          exact hleads.smooth hsmooth

theorem Course.exists_fault {b b' : ByteArray} {u u' : List Utterance} {es : List Event}
    {result : Except Error Unit} (h : Course settings b u es result b' u') (hsound : Sound b)
    {lines : List String} (hlines : u = lines.map .line) (hinduced : isInduced result = true) :
    ∃ e ∈ es, isFault e = true := by
  obtain ⟨hending, -⟩ := h.ending hsound hlines
  cases hending with
  | interrupted _ hfault => exact List.any_eq_true.mp hfault
  | unconfirmed _ hevents =>
      rw [hevents]
      exact ⟨_, List.mem_append_right _ List.mem_cons_self, rfl⟩
  | refused hrefusal =>
      rw [Simulation.not_isRefusal_of_isInduced hinduced] at hrefusal
      cases hrefusal
  | left => cases hinduced
  | closed => cases hinduced

theorem isFault_of_faultless {e : Event} (h : Simulation.Allows .faultless w e) :
    isFault e = false := by
  cases e with
  | readFailed | showFailed | lost | crashed => cases h
  | handedOut | ended | shown | stored => rfl

theorem smooth_outcome (settings : Settings) (hsound : Sound w.bytes) (hlog : w.log = [])
    {lines : List String} (hlines : w.script = lines.map .line) :
    ∃ rest : List String, (w.outcome .faultless settings).2.script = rest.map .line ∧
      Smooth settings w.bytes lines (effects (w.outcome .faultless settings).1.events)
        (w.outcome .faultless settings).1.result (w.outcome .faultless settings).1.bytes rest := by
  have hcourse := course_outcome settings hsound hlog (s := .faultless) fun _ => rfl
  obtain ⟨rest, hrest, htaken⟩ := hcourse.exists_lines hsound hlines
  have hagain : isInduced (w.outcome .faultless settings).1.result = false := by
    cases hinduced : isInduced (w.outcome .faultless settings).1.result with
    | false => rfl
    | true =>
        obtain ⟨e, he, hfault⟩ := hcourse.exists_fault hsound hlines hinduced
        obtain ⟨-, hnone⟩ := Simulation.forall_events (fun _ _ => isFault_of_faultless) settings
          ⟨lines, hlines⟩ hlog
        rw [hnone e he] at hfault
        cases hfault
  obtain ⟨-, -, hsmooth⟩ := hcourse.final Simulation.retries_isInduced hagain hsound hlines
  refine ⟨rest, hrest, ?_⟩
  rw [htaken]
  exact hsmooth rest hrest

theorem exists_smooth (settings : Settings) {bytes : ByteArray} (hsound : Sound bytes)
    (lines : List String) : ∃ fx result b rest, Smooth settings bytes lines fx result b rest := by
  obtain ⟨rest, -, hsmooth⟩ := smooth_outcome (w := .start (lines.map .line) bytes) settings hsound
    rfl rfl
  exact ⟨_, _, _, rest, hsmooth⟩

end Session

end DurableCalc
