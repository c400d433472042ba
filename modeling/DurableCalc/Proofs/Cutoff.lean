import DurableCalc.Proofs.Execution
import DurableCalc.Proofs.Forthright

namespace DurableCalc

def Program.GivesUp {α : Type} : Program Device (Except Error α) → Prop
  | .done _ => True
  | .call .load next =>
      (∀ cause, next (.error cause) = .done (.error (.storage .reading cause))) ∧
        ∀ bytes, GivesUp (next (.ok bytes))
  | .call .readLine next => ∀ r, GivesUp (next r)
  | .call (.showLine _) next => ∀ r, GivesUp (next r)
  | .call (.store _) next => ∀ r, GivesUp (next r)

theorem Program.Forthright.givesUp {α : Type} {p : Program Device (Except Error α)}
    (h : p.Forthright) : p.GivesUp := by
  induction p with
  | done r => trivial
  | call c next ih =>
      cases c with
      | load => exact ⟨h.1, fun bytes => ih _ (h.2 bytes)⟩
      | readLine =>
          rintro (e | line)
          · rw [h.1 e]
            trivial
          · exact ih _ (h.2 line)
      | showLine line =>
          rintro (e | -)
          · rw [h.1 e]
            trivial
          · exact ih _ h.2
      | store bytes =>
          obtain ⟨⟨operation, hfails⟩, hnext⟩ := h
          rintro (cause | -)
          · rw [hfails cause]
            trivial
          · exact ih _ hnext

namespace Attempt

variable {α : Type}

def GivesUp (p : Attempt α) : Prop :=
  Program.GivesUp p.run

theorem Forthright.givesUp {p : Attempt α} (h : p.Forthright) : p.GivesUp :=
  Program.Forthright.givesUp h

end Attempt

open Attempt

theorem Session.givesUp_run (settings : Settings) (n : Nat) :
    GivesUp (run settings (n + 1)) :=
  (forthright_run settings n).givesUp

namespace Simulation

theorem suffix_steady (s : Schedule) (c : Device.Call) (w : Simulation) :
    w.log <:+ (steady s c w).2.log := by
  have hself (e : Event) : w.log <:+ e :: w.log := List.suffix_cons e w.log
  cases c with
  | readLine =>
      simp only [steady, readLine]
      split
      · exact hself _
      · split <;> exact hself _
  | showLine line =>
      simp only [steady, showLine]
      split <;> exact hself _
  | load => exact List.suffix_refl _
  | store bytes =>
      simp only [steady, store]
      split
      · exact hself _
      · split <;> exact hself _

theorem suffix_run {α : Type} (s : Schedule) (p : Program Device α) (w : Simulation) :
    w.log <:+ (p.run (steady s) w).2.log := by
  refine Program.run_preserves (P := fun w' : Simulation => w.log <:+ w'.log)
    (fun c w' h => ?_) p (List.suffix_refl _)
  exact h.trans (suffix_steady s c w')

def Alike (w w' : Simulation) : Prop :=
  w = { w' with loads := w.loads }

theorem Alike.refl (w : Simulation) : Alike w w := rfl

theorem Alike.trans {w w' w'' : Simulation} (h : Alike w w') (h' : Alike w' w'') : Alike w w'' := by
  rw [h, h']
  rfl

theorem Alike.step {w w' : Simulation} (h : Alike w w') (s : Schedule) {c : Device.Call}
    (hc : c ≠ .load) :
    (device s c w).1 = (steady s c w').1 ∧ Alike (device s c w).2 (steady s c w').2 := by
  rw [h]
  cases c with
  | readLine =>
      simp only [device, Device.handler, console, steady, readLine]
      split
      · exact ⟨rfl, rfl⟩
      · split <;> exact ⟨rfl, rfl⟩
  | showLine line =>
      simp only [device, Device.handler, console, steady, showLine]
      split <;> exact ⟨rfl, rfl⟩
  | load => exact absurd rfl hc
  | store bytes =>
      simp only [device, Device.handler, storage, steady, store]
      split
      · exact ⟨rfl, rfl⟩
      · split <;> exact ⟨rfl, rfl⟩

theorem Alike.log {w w' : Simulation} (h : Alike w w') : w.log = w'.log := by
  rw [h]

theorem Alike.bytes {w w' : Simulation} (h : Alike w w') : w.bytes = w'.bytes := by
  rw [h]

theorem Alike.script {w w' : Simulation} (h : Alike w w') : w.script = w'.script := by
  rw [h]

inductive Cut {α : Type} (s : Schedule) (x y : Except Error α × Simulation) : Prop where
  | whole : x.1 = y.1 → Alike x.2 y.2 → Cut s x y
  | short (i : Nat) : s.loadFails i = true → x.1 = .error (.storage .reading .induced) →
      x.2.log <:+ y.2.log → Cut s x y

theorem cut_run {α : Type} {p : Program Device (Except Error α)} (hp : p.GivesUp) (s : Schedule)
    {w w' : Simulation} (h : Alike w w') : Cut s (p.run (device s) w) (p.run (steady s) w') := by
  induction p generalizing w w' with
  | done r => exact .whole rfl h
  | call c next ih =>
      cases c with
      | load =>
          by_cases hfault : s.loadFails w.loads = true
          -- this run is over, the other one goes on and can only add to the log
          · have hload : device s .load w = (.error .induced, { w with loads := w.loads + 1 }) := by
              simp only [device, Device.handler, storage, load, hfault, if_true]
            rw [Program.run_call, Program.run_call, hload, hp.1]
            refine .short w.loads hfault rfl ?_
            rw [Program.run_done]
            show w.log <:+ _
            rw [h.log]
            exact suffix_run s _ w'
          · have hload : device s .load w = (.ok w'.bytes, { w with loads := w.loads + 1 }) := by
              rw [← h.bytes]
              simp only [device, Device.handler, storage, load, hfault, if_false,
                Bool.false_eq_true]
            rw [Program.run_call, Program.run_call, hload]
            refine ih (.ok w'.bytes) (hp.2 _) ?_
            rw [h]
            rfl
      | readLine =>
          obtain ⟨hreply, hstate⟩ := h.step s (c := .readLine) nofun
          rw [Program.run_call, Program.run_call, hreply]
          exact ih _ (hp _) hstate
      | showLine line =>
          obtain ⟨hreply, hstate⟩ := h.step s (c := .showLine line) nofun
          rw [Program.run_call, Program.run_call, hreply]
          exact ih _ (hp _) hstate
      | store bytes =>
          obtain ⟨hreply, hstate⟩ := h.step s (c := .store bytes) nofun
          rw [Program.run_call, Program.run_call, hreply]
          exact ih _ (hp _) hstate

theorem cut_exec {α : Type} {p : Attempt α} (hp : p.GivesUp) (s : Schedule) {w w' : Simulation}
    (h : Alike w w') : Cut s (exec (device s) p w) (exec (steady s) p w') :=
  cut_run hp s h

end Simulation

end DurableCalc
