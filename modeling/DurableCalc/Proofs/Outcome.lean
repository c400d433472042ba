import DurableCalc.Proofs.Course
import DurableCalc.Simulation.Lifetimes

namespace DurableCalc

namespace Session

open Attempt (exec)
open Simulation (device steady)

variable {s : Schedule} {settings : Settings} {n : Nat} {w : Simulation}

theorem Barred.ne_outOfPatience {bytes : ByteArray} {patience : Nat} (hsize : bytes.size ≤ patience)
    {e : Error} (h : Barred bytes patience e) : e ≠ .outOfPatience := by
  cases h with
  | unread => nofun
  | corruptJournal => nofun
  | corruptSeed entry => nofun
  | @flaw es _ hparse hflaw =>
      cases hflaw with
      | trailing => nofun
      | mismatch => nofun
      | notANumber => nofun
      | outOfPatience hless =>
          have hlength := Journal.length_le_size_of_parse hparse
          rw [List.length_tail] at hless
          omega

theorem Verdict.ne_outOfPatience {patience : Nat} {out : Except Error Unit × Simulation}
    (h : Verdict w patience out) (hsize : w.bytes.size ≤ patience) :
    out.1 ≠ .error .outOfPatience := by
  cases h with
  | ok w' => nofun
  | barred _ hbarred =>
      intro he
      exact hbarred.ne_outOfPatience hsize (Except.error.inj he)
  | mismatch => nofun
  | excused hexcused => cases hexcused <;> nofun

def readable (s : Schedule) : Schedule :=
  { s with loadFails := fun _ => false }

theorem steady_readable (s : Schedule) : steady (readable s) = steady s := by
  funext c w
  cases c <;> rfl

theorem exec_steady_ne_outOfPatience (s : Schedule) (settings : Settings) (w : Simulation)
    (hn : w.script.length + w.bytes.size < n) :
    (exec (steady s) (run settings (n + 1)) w).1 ≠ .error .outOfPatience := by
  have hverdict := verdict_run (readable s) settings w hn
  rw [← steady_readable]
  cases Simulation.cut_exec (givesUp_run settings n) (readable s) (Simulation.Alike.refl w) with
  | whole hresult hsame =>
      rw [← hresult]
      exact hverdict.ne_outOfPatience (by omega)
  | short i hi => cases hi

theorem run_course (s : Schedule) (settings : Settings) (hsound : Sound w.bytes) :
    ∃ out, Charted settings w out ∧ Simulation.Cut s (w.run s settings) out := by
  have hn : w.script.length + w.bytes.size < w.patience - 1 := by
    rw [Simulation.patience]
    omega
  exact ⟨_, charted_run s settings _ w hsound (exec_steady_ne_outOfPatience s settings w hn),
    Simulation.cut_exec (givesUp_run settings _) s (Simulation.Alike.refl w)⟩

end Session

def Event.landed? : Event → Option ByteArray
  | .stored bytes | .crashed bytes => some bytes
  | _ => none

def held : ByteArray → List Event → ByteArray
  | bytes, [] => bytes
  | bytes, e :: es => held (e.landed?.getD bytes) es

theorem held_append (bytes : ByteArray) (es fs : List Event) :
    held bytes (es ++ fs) = held (held bytes es) fs := by
  induction es generalizing bytes with
  | nil => rfl
  | cons e es ih => exact ih _

namespace Session

variable {s : Schedule} {settings : Settings} {w : Simulation}

theorem Reaches.landed {b b' : ByteArray} {u u' : List Utterance} {es : List Event}
    {operation : Operation} {last : Bool} (h : Reaches settings b u es operation b' last u') :
    es.filterMap Event.landed? = [] := by
  cases h <;> rfl

theorem Reaches.sound {b b' : ByteArray} {u u' : List Utterance} {es : List Event}
    {operation : Operation} {last : Bool} (h : Reaches settings b u es operation b' last u')
    (hsound : Sound b) : Sound b' := by
  obtain ⟨task, hdue, hwrites⟩ := h.writes
  exact hsound.writes hdue hwrites

theorem Halt.sound {b b' : ByteArray} {u u' : List Utterance} {es : List Event}
    {result : Except Error Unit} (h : Halt settings b u es result b' u') (hsound : Sound b) :
    ∀ bytes ∈ es.filterMap Event.landed?, Sound bytes := by
  cases h with
  | left hreaches =>
      rw [List.filterMap_append, hreaches.landed, List.nil_append]
      exact List.forall_mem_singleton.mpr (hreaches.sound hsound)
  | lost hreaches =>
      rw [List.filterMap_append, hreaches.landed]
      exact nofun
  | crashed hreaches =>
      rw [List.filterMap_append, hreaches.landed, List.nil_append]
      exact List.forall_mem_singleton.mpr (hreaches.sound hsound)
  | refused | closed | unheard | broken | unshown => exact nofun

theorem Course.sound {b b' : ByteArray} {u u' : List Utterance} {es : List Event}
    {result : Except Error Unit} (h : Course settings b u es result b' u') (hsound : Sound b) :
    ∀ bytes ∈ es.filterMap Event.landed?, Sound bytes := by
  induction h with
  | stored hreaches hcourse ih =>
      rw [List.filterMap_append, hreaches.landed, List.nil_append]
      exact List.forall_mem_cons.mpr ⟨hreaches.sound hsound, ih (hreaches.sound hsound)⟩
  | blank hdue hblank hcourse ih => exact ih hsound
  | halt hhalt => exact hhalt.sound hsound

end Session

namespace Simulation

theorem held_step {before : ByteArray} {w : Simulation}
    (h : w.bytes = held before w.log.reverse) (s : Schedule) (c : Device.Call) :
    (device s c w).2.bytes = held before (device s c w).2.log.reverse := by
  have hnote {w' : Simulation} {e : Event} (hlog : w'.log = e :: w.log)
      (hbytes : w'.bytes = e.landed?.getD w.bytes) : w'.bytes = held before w'.log.reverse := by
    rw [hlog, List.reverse_cons, held_append, ← h]
    exact hbytes
  cases c with
  | readLine =>
      simp only [device, Device.handler, console, readLine]
      split
      · exact hnote rfl rfl
      · split <;> exact hnote rfl rfl
  | showLine line =>
      simp only [device, Device.handler, console, showLine]
      split <;> exact hnote rfl rfl
  | load =>
      simp only [device, Device.handler, storage, load]
      split <;> exact h
  | store bytes =>
      simp only [device, Device.handler, storage, store]
      split
      · exact hnote rfl rfl
      · split <;> exact hnote rfl rfl

theorem held_run (s : Schedule) (settings : Settings) {w : Simulation} (hlog : w.log = []) :
    (w.run s settings).2.bytes = held w.bytes (w.run s settings).2.log.reverse := by
  refine Program.run_preserves (P := fun w' : Simulation => w'.bytes = held w.bytes w'.log.reverse)
    (fun c w' h => held_step h s c) _ ?_
  rw [hlog]
  rfl

end Simulation

namespace Session

variable {s : Schedule} {settings : Settings} {w : Simulation}

theorem sound_held {b : ByteArray} (hsound : Sound b) {es : List Event}
    (h : ∀ bytes ∈ es.filterMap Event.landed?, Sound bytes) : Sound (held b es) := by
  induction es generalizing b with
  | nil => exact hsound
  | cons e es ih =>
      rw [held]
      cases hlanded : e.landed? with
      | none =>
          rw [List.filterMap_cons_none hlanded] at h
          exact ih hsound h
      | some bytes =>
          rw [List.filterMap_cons_some hlanded] at h
          obtain ⟨hfirst, hothers⟩ := List.forall_mem_cons.mp h
          exact ih hfirst hothers

theorem sound_run (s : Schedule) (settings : Settings) (hsound : Sound w.bytes)
    (hlog : w.log = []) : Sound (w.run s settings).2.bytes := by
  obtain ⟨out, ⟨es, hcourse, hes⟩, hcut⟩ := run_course s settings hsound
  rw [hlog, List.append_nil] at hes
  have hsuffix : (w.run s settings).2.log <:+ es.reverse := by
    rw [← hes]
    cases hcut with
    | whole hresult hsame => exact hsame.log ▸ List.suffix_refl _
    | short i hi hresult hsuffix => exact hsuffix
  have hbegun : (w.run s settings).2.log.reverse <+: es := by
    rw [← List.reverse_suffix, List.reverse_reverse]
    exact hsuffix
  rw [Simulation.held_run s settings hlog]
  refine sound_held hsound fun bytes hbytes => hcourse.sound hsound bytes ?_
  exact (hbegun.filterMap Event.landed?).subset hbytes

end Session

end DurableCalc
