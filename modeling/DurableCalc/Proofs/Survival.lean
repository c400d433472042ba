import DurableCalc.Proofs.Integrity
import DurableCalc.Proofs.Series
import Mathlib.Data.List.Basic

namespace DurableCalc

def Event.isUserFault : Event → Bool
  | .readFailed | .showFailed _ => true
  | _ => false

theorem confirmed_of_not_lost {es : List Event} (h : ∀ e ∈ es, e.isLost = false) :
    confirmed es = es := by
  induction es with
  | nil => rfl
  | cons e es ih =>
      obtain ⟨-, hes⟩ := List.forall_mem_cons.mp h
      have hnext : lostNext es = false := by
        cases es with
        | nil => rfl
        | cons e' es => exact hes e' List.mem_cons_self
      rw [confirmed, hnext, Bool.and_false, if_neg Bool.false_ne_true, ih hes]

theorem countP_isCrash_le (es : List Event) : es.countP Event.isCrash ≤ (effects es).length := by
  induction es with
  | nil => exact Nat.le_refl 0
  | cons e es ih =>
      rw [List.countP_cons, effects, List.filterMap_cons]
      cases e with
      | crashed bytes => exact Nat.succ_le_succ ih
      | handedOut | shown | stored => exact Nat.le_succ_of_le ih
      | readFailed | ended | showFailed | lost => exact ih

namespace Simulation

variable {s : Schedule} {settings : Settings} {w : Simulation} {N k : Nat}

def Bounded (N k : Nat) (w : Simulation) : Prop :=
  w.Willing ∧ w.log.countP Event.isUserFault + (N - w.calls) ≤ k

theorem Bounded.step (hfails : ∀ i, N ≤ i → s.userFails i = false) (h : Bounded N k w)
    (c : Device.Call) : Bounded N k (device s c w).2 := by
  obtain ⟨hscript, hcount⟩ := h
  obtain ⟨hscript', ⟨hlog, hcalls⟩ | ⟨e, hlog, hallowed, hcalls⟩⟩ := hscript.step s c
  · refine ⟨hscript', ?_⟩
    rw [hlog, hcalls]
    exact hcount
  · refine ⟨hscript', ?_⟩
    have hless (hw : s.userFails w.calls = true) : w.calls < N := by
      by_contra hle
      rw [hfails w.calls (Nat.le_of_not_lt hle)] at hw
      cases hw
    rw [hlog, hcalls, List.countP_cons]
    cases e with
    | readFailed | showFailed =>
        have hN := hless hallowed
        simp only [Event.isUserFault, Event.isOfStorage, if_true, Bool.false_eq_true, if_false]
        omega
    | handedOut | ended | shown | stored | lost | crashed =>
        simp only [Event.isUserFault, Event.isOfStorage, if_true, Bool.false_eq_true, if_false]
        omega

theorem countP_isUserFault_persist (again : Except Error Unit → Bool) (settings : Settings)
    (hfails : ∀ i, N ≤ i → s.userFails i = false) (n : Nat) (hscript : w.Willing)
    (hlog : w.log = []) :
    ((persist again s settings n w).1.flatMap Outcome.events).countP Event.isUserFault
      ≤ N - w.calls := by
  induction n generalizing w with
  | zero => exact Nat.zero_le _
  | succ n ih =>
      have hstart : Bounded N (N - w.calls) w := by
        refine ⟨hscript, ?_⟩
        rw [hlog]
        exact Nat.le_of_eq (Nat.zero_add _)
      have hrun : Bounded N (N - w.calls) (w.run s settings).2 :=
        Program.run_preserves (fun c w' h => h.step hfails c) _ hstart
      have hevents : (w.outcome s settings).1.events.countP Event.isUserFault
          = (w.run s settings).2.log.countP Event.isUserFault := List.countP_reverse
      have hcalls : (w.outcome s settings).2.calls = (w.run s settings).2.calls := rfl
      have hcount := hrun.2
      have hnext := ih (w := (w.outcome s settings).2) hrun.1 rfl
      rcases persist_cases again s settings n w with ⟨-, h⟩ | ⟨-, h⟩
      · rw [h, List.flatMap_cons, List.countP_append]
        omega
      · rw [h, List.flatMap_singleton]
        omega

end Simulation

namespace Simulation

structure Faithful (outs : List Outcome) (smooth : Outcome) : Prop where
  begun : effects (outs.flatMap Outcome.events) <+: effects smooth.events
  ended : ∀ out, outs.getLast? = some out → isInduced out.result = false →
    effects (outs.flatMap Outcome.events) = effects smooth.events ∧
      out.result = smooth.result ∧ out.bytes = smooth.bytes

def FaithfulUntilExit (bytes : ByteArray) (outs : List Outcome) (smooth : Outcome) : Prop :=
  ∃ before after, outs.flatMap Outcome.events = before ++ .crashed smooth.bytes :: after ∧
    unconfirmedExit bytes before = false ∧ exiting (held bytes before) = true ∧
    effects (before ++ [.crashed smooth.bytes]) = effects smooth.events ∧ smooth.result = .ok ()

end Simulation

namespace Session

open Simulation (Outcome isInduced isRefusal Faithful FaithfulUntilExit)

variable {settings : Settings}

theorem kept_isInduced {out : Outcome} (h : ∀ e ∈ out.events, e.isLost = false) :
    out.kept isInduced = out.events := by
  have hnever : (isInduced out.result && isRefusal out.result) = false := by
    cases hinduced : isInduced out.result with
    | false => rfl
    | true => rw [Simulation.not_isRefusal_of_isInduced hinduced, Bool.and_false]
  rw [Outcome.kept, hnever, if_neg Bool.false_ne_true, confirmed_of_not_lost h]

theorem Series.length_le {b b' : ByteArray} {u u' : List Utterance} {outs : List Outcome}
    (h : Series settings isInduced b u outs b' u') (hsound : Sound b) {lines : List String}
    (hlines : u = lines.map .line) (hlost : ∀ out ∈ outs, ∀ e ∈ out.events, e.isLost = false)
    (hall : ∀ out ∈ outs, isInduced out.result = true) :
    outs.length ≤ (outs.flatMap Outcome.events).countP Event.isUserFault +
      (outs.flatMap Outcome.events).countP Event.isCrash := by
  induction h generalizing lines with
  | nil b u => exact Nat.le_refl 0
  | last hcourse hagain =>
      rw [hall _ List.mem_cons_self] at hagain
      cases hagain
  | @more b b' u u' u'' out outs hcourse hagain hseries ih =>
      obtain ⟨hfirst, hothers⟩ := List.forall_mem_cons.mp hlost
      obtain ⟨ls, hls, -⟩ := hcourse.exists_lines hsound hlines
      have hrest := ih (hcourse.sound_bytes hsound) hls hothers
        (List.forall_mem_cons.mp hall).2
      obtain ⟨e, he, hfault⟩ := hcourse.exists_fault hsound hlines hagain
      have hone : 0 < out.events.countP Event.isUserFault + out.events.countP Event.isCrash := by
        cases e with
        | readFailed | showFailed =>
            exact Nat.add_pos_left (List.countP_pos_iff.mpr ⟨_, he, rfl⟩) _
        | crashed bytes => exact Nat.add_pos_right _ (List.countP_pos_iff.mpr ⟨_, he, rfl⟩)
        | lost bytes => cases hfirst _ he
        | handedOut | ended | shown | stored => cases hfault
      rw [List.flatMap_cons, List.countP_append, List.countP_append, List.length_cons]
      omega

theorem Series.unconfirmed {b b' : ByteArray} {u u' : List Utterance} {outs : List Outcome}
    (h : Series settings isInduced b u outs b' u') (hsound : Sound b) {lines : List String}
    (hlines : u = lines.map .line) (hlost : ∀ out ∈ outs, ∀ e ∈ out.events, e.isLost = false)
    (hexit : unconfirmedExit b (outs.flatMap Outcome.events) = true) :
    ∃ before bytes after rest, outs.flatMap Outcome.events = before ++ .crashed bytes :: after ∧
      unconfirmedExit b before = false ∧ exiting (held b before) = true ∧
      Smooth settings b lines (effects (before ++ [.crashed bytes])) (.ok ()) bytes rest := by
  induction h generalizing lines with
  | nil b u => cases hexit
  | last hcourse hagain =>
      rw [List.flatMap_singleton, (hcourse.final Simulation.retries_isInduced hagain hsound
        hlines).1] at hexit
      cases hexit
  | @more b b' u u' u'' out outs hcourse hagain hseries ih =>
      obtain ⟨hfirst, hothers⟩ := List.forall_mem_cons.mp hlost
      obtain ⟨ls, hls, htaken⟩ := hcourse.exists_lines hsound hlines
      rw [List.flatMap_cons, unconfirmedExit_append, ← hcourse.bytes_eq, Bool.or_eq_true] at hexit
      rw [List.flatMap_cons]
      cases hquiet : unconfirmedExit b out.events with
      | false =>
          have hleads := hcourse.retried Simulation.retries_isInduced hagain hsound hlines hquiet
          rw [kept_isInduced hfirst] at hleads
          rw [hquiet] at hexit
          obtain ⟨before, bytes, after, rest, hevents, hbefore, hexiting, hsmooth⟩ :=
            ih (hcourse.sound_bytes hsound) hls hothers (hexit.resolve_left Bool.false_ne_true)
          refine ⟨out.events ++ before, bytes, after, rest, ?_, ?_, ?_, ?_⟩
          · rw [hevents, List.append_assoc]
          · rw [unconfirmedExit_append, hquiet, ← hcourse.bytes_eq, hbefore]
            rfl
          · rw [held_append, ← hcourse.bytes_eq]
            exact hexiting
          · rw [List.append_assoc, effects_append, htaken]
            exact hleads.smooth hsmooth
      | true =>
          obtain ⟨fs, hevents, hbefore, hexiting, hsmooth⟩ :=
            hcourse.unconfirmed hsound hlines hquiet
          refine ⟨fs, out.bytes, outs.flatMap Outcome.events, ls, ?_, hbefore, hexiting, ?_⟩
          · rw [hevents, List.append_assoc]
            rfl
          · rw [htaken, ← hevents]
            exact hsmooth ls

theorem Series.faithful {b b' : ByteArray} {u u' : List Utterance} {outs : List Outcome}
    (h : Series settings isInduced b u outs b' u') (hsound : Sound b) {lines : List String}
    (hlines : u = lines.map .line) (hlost : ∀ out ∈ outs, ∀ e ∈ out.events, e.isLost = false)
    (hquiet : unconfirmedExit b (outs.flatMap Outcome.events) = false) {smooth : Outcome}
    {rest : List String}
    (hsmooth : Smooth settings b lines (effects smooth.events) smooth.result smooth.bytes rest) :
    Faithful outs smooth := by
  obtain ⟨rest', hrest, htaken, hupshot⟩ :=
    h.smooth Simulation.retries_isInduced hsound hlines hquiet
  have hkept : outs.flatMap (Outcome.kept isInduced) = outs.flatMap Outcome.events :=
    List.flatMap_congr fun out hout => kept_isInduced (hlost out hout)
  rw [hkept] at hupshot
  rw [htaken] at hsmooth
  rcases hupshot with ⟨hall, hleads⟩ | ⟨out, hlast, hagain, hbytes, hends⟩
  · obtain ⟨fx, result, bytes, rest'', hgoes⟩ := exists_smooth settings (h.sound_bytes hsound) rest'
    obtain ⟨heffects, -⟩ := (hleads.smooth hgoes).unique hsmooth
    constructor
    · rw [← heffects]
      exact List.prefix_append _ _
    · intro out hlast hagain
      rw [hall out (List.mem_of_getLast? hlast)] at hagain
      cases hagain
  · obtain ⟨heffects, hresult, hsame, -⟩ := hends.unique hsmooth
    constructor
    · exact heffects ▸ List.prefix_refl _
    · intro out' hlast' hagain'
      obtain rfl := Option.some.inj (hlast.symm.trans hlast')
      exact ⟨heffects, hresult, hbytes.trans hsame⟩

theorem Series.faithfulUntilExit {b b' : ByteArray} {u u' : List Utterance} {outs : List Outcome}
    (h : Series settings isInduced b u outs b' u') (hsound : Sound b) {lines : List String}
    (hlines : u = lines.map .line) (hlost : ∀ out ∈ outs, ∀ e ∈ out.events, e.isLost = false)
    (hexit : unconfirmedExit b (outs.flatMap Outcome.events) = true) {smooth : Outcome}
    {rest : List String}
    (hsmooth : Smooth settings b lines (effects smooth.events) smooth.result smooth.bytes rest) :
    FaithfulUntilExit b outs smooth := by
  obtain ⟨before, bytes, after, rest', hevents, hbefore, hexiting, hends⟩ :=
    h.unconfirmed hsound hlines hlost hexit
  obtain ⟨heffects, hresult, rfl, -⟩ := hends.unique hsmooth
  exact ⟨before, after, hevents, hbefore, hexiting, heffects, hresult.symm⟩

end Session

namespace Simulation

open Session (Sound Series smooth_outcome series_persist)

variable {s : Schedule} {settings : Settings} {w : Simulation}

theorem length_survive {n : Nat}
    (hall : ∀ out ∈ (survive s settings n w).1, isInduced out.result = true) :
    (survive s settings n w).1.length = n := by
  unfold survive at hall ⊢
  induction n generalizing w with
  | zero => rfl
  | succ n ih =>
      rcases persist_cases isInduced s settings n w with ⟨-, h⟩ | ⟨hagain, h⟩
      · rw [h] at hall ⊢
        rw [List.length_cons, ih (List.forall_mem_cons.mp hall).2]
      · rw [h] at hall
        rw [hall _ List.mem_cons_self] at hagain
        cases hagain

/-- All is taken, shown and written once and in order, whatever calls of the user fail and whatever
writes land but are reported to have failed. The program need not be started more often than there
are calls to fail and writes to be made. -/
theorem survive_faithful (os : List Occasion) (s : Schedule) (settings : Settings)
    (lines : List String) (n : Nat) (hloses : ∀ i, s.loses i = false)
    (hloads : ∀ i, s.loadFails i = false) :
    let bytes := residue os ByteArray.empty
    let w := start (lines.map .line) bytes
    let smooth := (w.outcome .faultless settings).1
    let outs := (survive s settings n w).1
    (unconfirmedExit bytes (outs.flatMap Outcome.events) = false → Faithful outs smooth) ∧
      (unconfirmedExit bytes (outs.flatMap Outcome.events) = true →
        FaithfulUntilExit bytes outs smooth) ∧
      ∀ N, (∀ i, N ≤ i → s.userFails i = false) → N + (effects smooth.events).length < n →
        unconfirmedExit bytes (outs.flatMap Outcome.events) = true ∨
          ∃ out, outs.getLast? = some out ∧ isInduced out.result = false := by
  intro bytes w smooth outs
  have hsound : Sound w.bytes := sound_residue os .empty
  have hlines : w.script = lines.map .line := rfl
  obtain ⟨rest, -, hsmooth⟩ := smooth_outcome settings hsound rfl hlines
  have hseries : Series settings isInduced bytes w.script outs _ _ :=
    series_persist settings hloads n hsound rfl
  have hlost : ∀ out ∈ outs, ∀ e ∈ out.events, e.isLost = false := by
    refine forall_events_persist (fun w' e hallowed => ?_) isInduced settings n ⟨lines, rfl⟩ rfl
    cases e with
    | lost bytes =>
        have hloses' : s.loses w'.writes = true := hallowed
        rw [hloses w'.writes] at hloses'
        cases hloses'
    | _ => rfl
  refine ⟨fun hquiet => ?_, fun hexit => ?_, fun N hfails hn => ?_⟩
  · exact hseries.faithful hsound rfl hlost hquiet hsmooth
  · exact hseries.faithfulUntilExit hsound rfl hlost hexit hsmooth
  · cases hexit : unconfirmedExit bytes (outs.flatMap Outcome.events) with
    | true => exact .inl rfl
    | false =>
        obtain ⟨-, -, -, ⟨hall, -⟩ | ⟨out, hlast, hagain, -⟩⟩ :=
          hseries.smooth retries_isInduced hsound rfl hexit
        -- each of these sessions has had a fault, and there are not as many faults as sessions
        · have hlength : outs.length = n := length_survive hall
          have hle := hseries.length_le hsound rfl hlost hall
          have hcalls : (outs.flatMap Outcome.events).countP Event.isUserFault ≤ N :=
            countP_isUserFault_persist isInduced settings hfails n ⟨lines, rfl⟩ rfl
          have hwrites := countP_isCrash_le (outs.flatMap Outcome.events)
          have hbegun : (effects (outs.flatMap Outcome.events)).length
              ≤ (effects smooth.events).length :=
            (hseries.faithful hsound rfl hlost hexit hsmooth).begun.length_le
          omega
        · exact .inr ⟨out, hlast, hagain⟩

theorem survive_faithful_sum :
    let s : Schedule := ⟨(· == 1), fun _ => false, fun _ => true, fun _ => false⟩
    let w := start ([.line "add", .line "15", .line "60"]) ByteArray.empty
    let outs := (survive s ⟨420, .compact⟩ 9 w).1
    (∀ i, s.loses i = false) ∧ (∀ i, s.loadFails i = false) ∧ outs.length = 8 ∧
      Faithful outs (w.outcome .faultless ⟨420, .compact⟩).1 := by
  intro s w outs
  have hloses (i : Nat) : s.loses i = false := rfl
  have hloads (i : Nat) : s.loadFails i = false := rfl
  have hall := survive_faithful [] s ⟨420, .compact⟩ ["add", "15", "60"] 9 hloses hloads
  have hquiet : unconfirmedExit ByteArray.empty (outs.flatMap Outcome.events) = false := by
    decide +kernel
  have hlength : outs.length = 8 := by decide +kernel
  exact ⟨hloses, hloads, hlength, hall.1 hquiet⟩

end Simulation

end DurableCalc
