import DurableCalc.Proofs.Outcome

namespace DurableCalc

namespace Session

variable {w : Simulation}

theorem error_run (s : Schedule) (settings : Settings) (hsound : Sound w.bytes) (hlog : w.log = [])
    {e : Error} (he : (w.run s settings).1 = .error e) :
    (∃ operation cause, e = .storage operation cause) ∨ (∃ cause, e = .transport cause) ∨
      e = .inputClosed ∨ ∃ fs line, (w.run s settings).2.log.reverse = fs ++ [.handedOut line] ∧
        (e = .notANumber (Text.trim line) ∨ e = .invalidEntry (Text.trim line)) := by
  obtain ⟨out, ⟨es, hcourse, hes⟩, hcut⟩ := run_course s settings hsound
  cases hcut with
  | whole hresult hsame =>
      have hevents : (w.run s settings).2.log.reverse = es := by
        rw [hsame.log, hes, hlog, List.append_nil, List.reverse_reverse]
      rw [hevents]
      obtain ⟨fs, gs, b, u, rfl, hhalt⟩ := hcourse.exists_halt
      rcases hhalt.error_cases (hresult.symm.trans he) with h | h | h | ⟨line, rfl, h⟩
      · exact .inl h
      · exact .inr (.inl h)
      · exact .inr (.inr (.inl h))
      · exact .inr (.inr (.inr ⟨fs, line, rfl, h⟩))
  | short i hi hresult hsuffix =>
      exact .inl ⟨_, _, (Except.error.inj (hresult.symm.trans he)).symm⟩

end Session

namespace Simulation

open Session (Sound sound_run error_run)

def residue : List Occasion → ByteArray → ByteArray
  | [], bytes => bytes
  | o :: os, bytes => residue os ((start o.script bytes).run o.schedule o.settings).2.bytes

theorem sound_residue (os : List Occasion) {bytes : ByteArray} (h : Sound bytes) :
    Sound (residue os bytes) := by
  induction os generalizing bytes with
  | nil => exact h
  | cons o os ih => exact ih (sound_run (w := start o.script bytes) o.schedule o.settings h rfl)

theorem mem_lifetimes {os : List Occasion} {bytes : ByteArray} (h : Sound bytes) {out : Outcome}
    (hout : out ∈ lifetimes os bytes) :
    ∃ (o : Occasion) (before : ByteArray), Sound before ∧
      out = ((start o.script before).outcome o.schedule o.settings).1 := by
  induction os generalizing bytes with
  | nil => exact absurd hout List.not_mem_nil
  | cons o os ih =>
      rcases List.mem_cons.mp hout with rfl | hout
      · exact ⟨o, bytes, h, rfl⟩
      · exact ih (sound_run (w := start o.script bytes) o.schedule o.settings h rfl) hout

/-- No session is ever put off by its own journal. Only a line that it has been given itself can be
refused, at the moment at which it is given. -/
theorem lifetimes_blameless (os : List Occasion) :
    ∀ out ∈ lifetimes os ByteArray.empty,
      (∀ e, out.result = .error e → e.isOfJournal = false ∧ e ≠ .outOfPatience) ∧
      ∀ x, out.result = .error (.notANumber x) ∨ out.result = .error (.invalidEntry x) →
        ∃ events line, out.events = events ++ [.handedOut line] ∧ x = Text.trim line := by
  intro out hout
  obtain ⟨o, bytes, hsound, rfl⟩ := mem_lifetimes .empty hout
  have herror {e : Error} := error_run (w := start o.script bytes) o.schedule o.settings hsound rfl
    (e := e)
  refine ⟨fun e he => ?_, fun x hx => ?_⟩
  · rcases herror he with ⟨_, _, rfl⟩ | ⟨_, rfl⟩ | rfl | ⟨_, _, _, rfl | rfl⟩ <;>
      exact ⟨rfl, nofun⟩
  · rcases hx with hx | hx
    · rcases herror hx with ⟨_, _, h⟩ | ⟨_, h⟩ | h | ⟨events, line, hevents, h | h⟩
      · cases h
      · cases h
      · cases h
      · exact ⟨events, line, hevents, Error.notANumber.inj h⟩
      · cases h
    · rcases herror hx with ⟨_, _, h⟩ | ⟨_, h⟩ | h | ⟨events, line, hevents, h | h⟩
      · cases h
      · cases h
      · cases h
      · cases h
      · exact ⟨events, line, hevents, Error.invalidEntry.inj h⟩

theorem lifetimes_blameless_notANumber :
    let first : Occasion := ⟨⟨420, .compact⟩, [.line "add", .line "15"],
      ⟨fun _ => false, fun _ => false, (· == 2), fun _ => false⟩⟩
    let second : Occasion := ⟨⟨7, .clear⟩, [],
      ⟨(· == 0), fun _ => false, fun _ => false, fun _ => false⟩⟩
    let third : Occasion := ⟨⟨7, .clear⟩, [.line " x "], .faultless⟩
    let out := ((start first.script ByteArray.empty).outcome first.schedule first.settings).1
    let out' := ((start second.script out.bytes).outcome second.schedule second.settings).1
    let out'' := ((start third.script out'.bytes).outcome third.schedule third.settings).1
    lifetimes [first, second, third] ByteArray.empty = [out, out', out''] ∧
      isInduced out.result = true ∧ isInduced out'.result = true ∧
      out''.result = .error (.notANumber "x") ∧
      ∃ events line, out''.events = events ++ [.handedOut line] ∧ "x" = Text.trim line := by
  intro first second third out out' out''
  have hlater : lifetimes [second, third] out.bytes = [out', out''] :=
    (lifetimes_cons second [third] _).trans (congrArg (List.cons out') (lifetimes_cons third [] _))
  have hruns : lifetimes [first, second, third] ByteArray.empty = [out, out', out''] :=
    (lifetimes_cons first [second, third] _).trans (congrArg (List.cons out) hlater)
  have hmem : out'' ∈ lifetimes [first, second, third] ByteArray.empty := by
    rw [hruns]
    exact List.mem_cons_of_mem out (List.mem_cons_of_mem out' List.mem_cons_self)
  have hresults : isInduced out.result = true ∧ isInduced out'.result = true ∧
      out''.result = .error (.notANumber "x") := by decide +kernel
  obtain ⟨hfirst, hsecond, hthird⟩ := hresults
  exact ⟨hruns, hfirst, hsecond, hthird,
    (lifetimes_blameless [first, second, third] out'' hmem).2 "x" (.inl hthird)⟩

end Simulation

end DurableCalc
