import DurableCalc.Proofs.Coherence
import DurableCalc.Proofs.Outcome
import DurableCalc.Proofs.Patience
import DurableCalc.Session.Minutes

namespace DurableCalc

namespace Event

def isLine : Event → Bool
  | .handedOut _ => true
  | _ => false

def isInVain : Event → Bool
  | .ended | .readFailed => true
  | _ => false

end Event

def Reading.Takes (x : Reading Simulation) (line : String) : Prop :=
  Text.isBlank line = false ∧ ∃ (blanks : List String) (bytes : ByteArray), (∀ b ∈ blanks, Text.isBlank b = true) ∧
    x.after.2.log = .stored bytes :: .handedOut line :: (blanks.map .handedOut ++ x.before.2.log)

theorem Reading.Takes.countP_lt {x : Reading Simulation} {line : String} (h : x.Takes line) :
    x.before.2.log.countP Event.isLine < x.after.2.log.countP Event.isLine := by
  obtain ⟨-, blanks, bytes, -, hlog⟩ := h
  rw [hlog, List.countP_cons_of_neg (by nofun), List.countP_cons_of_pos rfl, List.countP_append]
  omega

theorem Reading.isLive_iff {σ : Type} {x : Reading σ} :
    x.isLive = true ↔ x.before.1.ahead = [] := by
  rw [isLive, decide_eq_true_iff, Replay.phase_eq_live_iff]

open Attempt (exec exec_bind)
open Replay (runOn runOn_bind runOn_lift runOn_get_bind)
open Simulation (device)

section

variable {σ α β : Type} {h : Handler Device σ}

theorem Attempt.exists_of_exec_bind_ok {p : Attempt α} {f : α → Attempt β} {s t : σ} {b : β}
    (hexec : exec h (p >>= f) s = (.ok b, t)) :
    ∃ a u, exec h p s = (.ok a, u) ∧ exec h (f a) u = (.ok b, t) := by
  rw [exec_bind] at hexec
  split at hexec
  · next a u hp => exact ⟨a, u, hp, hexec⟩
  · cases hexec

theorem Replay.exists_of_runOn_bind_ok {op : Op α} {k : α → Op β} {s t : Replay × σ} {b : β}
    (hrun : runOn h (op >>= k) s = (.ok b, t)) :
    ∃ a u, runOn h op s = (.ok a, u) ∧ runOn h (k a) u = (.ok b, t) := by
  rw [runOn_bind] at hrun
  split at hrun
  · next a u hop => exact ⟨a, u, hop, hrun⟩
  · cases hrun

end

namespace Simulation

variable {s : Schedule} {w w' : Simulation}

theorem device_log (s : Schedule) (c : Device.Call) (w : Simulation) :
    (device s c w).2.log = w.log ∨ ∃ e, (device s c w).2.log = e :: w.log := by
  cases c with
  | readLine =>
      simp only [device, Device.handler, console, readLine]
      split
      · exact .inr ⟨_, rfl⟩
      · split <;> exact .inr ⟨_, rfl⟩
  | showLine line =>
      simp only [device, Device.handler, console, showLine]
      split <;> exact .inr ⟨_, rfl⟩
  | load =>
      simp only [device, Device.handler, storage, load]
      split <;> exact .inl rfl
  | store bytes =>
      simp only [device, Device.handler, storage, store]
      split
      · exact .inr ⟨_, rfl⟩
      · split <;> exact .inr ⟨_, rfl⟩

theorem suffix_device {α : Type} (s : Schedule) (p : Program Device α) (w : Simulation) :
    w.log <:+ (p.run (device s) w).2.log := by
  refine Program.run_preserves (P := fun w' : Simulation => w.log <:+ w'.log)
    (fun c w' h => ?_) p (List.suffix_refl _)
  rcases device_log s c w' with hlog | ⟨e, hlog⟩
  · rwa [hlog]
  · rw [hlog]
    exact h.trans (List.suffix_cons e w'.log)

theorem countP_le_of_runOn {α : Type} {op : Replay.Op α} {t u : Replay × Simulation}
    {result : Except Error α} (hrun : runOn (device s) op t = (result, u)) (p : Event → Bool) :
    t.2.log.countP p ≤ u.2.log.countP p := by
  have hsuffix := suffix_device s (op.run.run t.1) t.2
  obtain rfl := congrArg Prod.snd hrun
  exact hsuffix.sublist.countP_le

theorem device_readLine_ok {line : String} (h : device s .readLine w = (.ok line, w')) :
    w'.log = .handedOut line :: w.log := by
  simp only [device, Device.handler, console, readLine] at h
  split at h
  · cases h
  · split at h
    · cases h
    · cases h
    · cases h
      rfl

theorem device_store_ok {bytes : ByteArray} (h : device s (.store bytes) w = (.ok (), w')) :
    w'.log = .stored bytes :: w.log := by
  simp only [device, Device.handler, storage, store] at h
  split at h
  · cases h
  · split at h
    · cases h
    · cases h
      rfl

theorem device_load (s : Schedule) (w : Simulation) : (device s .load w).2.log = w.log := by
  simp only [device, Device.handler, storage, load]
  split <;> rfl

theorem countP_isInVain_device (s : Schedule) {c : Device.Call} (hc : c ≠ .readLine)
    (w : Simulation) :
    (device s c w).2.log.countP Event.isInVain = w.log.countP Event.isInVain := by
  cases c with
  | readLine => exact absurd rfl hc
  | showLine line =>
      simp only [device, Device.handler, console, showLine]
      split <;> exact List.countP_cons_of_neg Bool.false_ne_true
  | load => rw [device_load]
  | store bytes =>
      simp only [device, Device.handler, storage, store]
      split
      · exact List.countP_cons_of_neg Bool.false_ne_true
      · split <;> exact List.countP_cons_of_neg Bool.false_ne_true

end Simulation

namespace Replay

variable {s : Schedule} {w w' : Simulation}

theorem exec_nextLine_ok {n : Nat} {line : String}
    (h : exec (device s) (nextLine n) w = (.ok line, w')) :
    ∃ (raw : String) (blanks : List String), Text.isBlank raw = false ∧ line = Text.trim raw ∧
      (∀ b ∈ blanks, Text.isBlank b = true) ∧
      w'.log = .handedOut raw :: (blanks.map .handedOut ++ w.log) := by
  induction n generalizing w with
  | zero => cases h
  | succ n ih =>
      obtain ⟨raw, u, hread, hrest⟩ := Attempt.exists_of_exec_bind_ok h
      have hlog := Simulation.device_readLine_ok hread
      by_cases hblank : Text.isBlank raw = true
      · rw [if_pos hblank] at hrest
        obtain ⟨raw', blanks, hraw', hline, hblanks, hlog'⟩ := ih hrest
        refine ⟨raw', blanks ++ [raw], hraw', hline, ?_, ?_⟩
        · exact List.forall_mem_append.mpr ⟨hblanks, List.forall_mem_singleton.mpr hblank⟩
        · rw [hlog', hlog, List.map_append, List.append_assoc]
          rfl
      · rw [if_neg hblank] at hrest
        cases hrest
        exact ⟨raw, [], Bool.eq_false_iff.mpr hblank, rfl, nofun, hlog⟩

theorem exec_append_ok {entry : String}
    (h : exec (device s) (Journal.append entry) w = (.ok (), w')) :
    ∃ bytes, w'.log = .stored bytes :: w.log := by
  obtain ⟨_, u, hvalid, hrest⟩ := Attempt.exists_of_exec_bind_ok h
  obtain ⟨bytes, v, hload, hstore⟩ := Attempt.exists_of_exec_bind_ok hrest
  have hu : w = u := (Prod.mk.inj hvalid).2
  have hv : v.log = u.log := by
    rw [← Simulation.device_load s u]
    exact congrArg Simulation.log (Prod.mk.inj hload).2.symm
  rw [Attempt.exec_store] at hstore
  cases hcall : device s (.store (Journal.extended bytes entry)) v with
  | mk result t =>
      rw [hcall] at hstore
      cases result with
      | error f => cases hstore
      | ok _ =>
          obtain rfl : t = w' := (Prod.mk.inj hstore).2
          exact ⟨_, by rw [Simulation.device_store_ok hcall, hv, ← hu]⟩

theorem read_takes {α : Type} {n : Nat} {accept : String → Except Error α} {a : α}
    {t u : Replay × Simulation} (h : runOn (device s) (read n accept) t = (.ok a, u))
    (hlive : t.1.ahead = []) :
    ∃ line, Reading.Takes ⟨t, u⟩ line ∧ accept (Text.trim line) = .ok a := by
  obtain ⟨r, w⟩ := t
  have hdrawless : Dialogue.Drawless (.call (.ask accept) fun a => .done a) := fun _ => trivial
  have hacts : ActsAs (device s) r (reply n (.ask accept)) (Live.reply n (.ask accept)) :=
    actsAs_reply n hdrawless hlive
  obtain ⟨r', -, hacts⟩ := hacts w
  rw [reply, h] at hacts
  obtain ⟨hresult, hu⟩ := Prod.mk.inj hacts
  have hask : exec (device s) (Live.ask n accept) w = (.ok a, u.2) := by
    rw [hu]
    exact Prod.ext hresult.symm rfl
  obtain ⟨line, w₁, hline, hrest⟩ := Attempt.exists_of_exec_bind_ok hask
  obtain ⟨b, w₂, hof, hrest⟩ := Attempt.exists_of_exec_bind_ok hrest
  obtain ⟨_, w₃, happend, hdone⟩ := Attempt.exists_of_exec_bind_ok hrest
  obtain ⟨raw, blanks, hraw, rfl, hblanks, hlog⟩ := exec_nextLine_ok hline
  obtain ⟨bytes, hstored⟩ := exec_append_ok happend
  obtain ⟨haccept, rfl⟩ := Prod.mk.inj hof
  obtain ⟨hb, rfl⟩ := Prod.mk.inj hdone
  obtain rfl := Except.ok.inj hb
  exact ⟨raw, ⟨hraw, blanks, bytes, hblanks, by rw [hstored, hlog]⟩, haccept⟩

theorem finish_ahead {t u : Replay × Simulation} (h : runOn (device s) finish t = (.ok (), u)) :
    u.1.ahead = [] := by
  obtain ⟨r, w⟩ := t
  obtain ⟨_, u₁, hensure, hrest⟩ := exists_of_runOn_bind_ok h
  rw [ensureFinished, runOn_get_bind] at hensure
  by_cases hr : r.ahead = []
  · simp only [hr, ne_eq, not_true_eq_false, if_false] at hensure
    obtain rfl := (Prod.mk.inj hensure).2
    obtain ⟨_, u₂, hcompact, hmodify⟩ := exists_of_runOn_bind_ok hrest
    rw [runOn_lift] at hcompact
    obtain rfl := (Prod.mk.inj hcompact).2
    obtain rfl := (Prod.mk.inj hmodify).2
    exact hr
  · simp only [ne_eq, hr, not_false_eq_true, if_true] at hensure
    cases hensure

end Replay

theorem Program.Forthright.countP_isInVain_le {α : Type} {p : Program Device (Except Error α)}
    (hp : p.Forthright) (s : Schedule) (w : Simulation) :
    (p.run (device s) w).2.log.countP Event.isInVain ≤ w.log.countP Event.isInVain + 1 := by
  induction p generalizing w with
  | done r => exact Nat.le_succ _
  | call c next ih =>
      rw [Program.run_call]
      cases c with
      | readLine =>
          have hlog := Simulation.device_log s .readLine w
          cases hcall : device s .readLine w with
          | mk result w' =>
              rw [hcall] at hlog
              cases result with
              | error e =>
                  rw [hp.1 e, Program.run_done]
                  rcases hlog with hlog | ⟨e, hlog⟩
                  · exact hlog ▸ Nat.le_succ _
                  · rw [hlog, List.countP_cons]
                    split <;> omega
              | ok line =>
                  have hnext := ih (.ok line) (hp.2 line) w'
                  rwa [Simulation.device_readLine_ok hcall] at hnext
      | showLine line =>
          rw [← Simulation.countP_isInVain_device s (c := .showLine line) nofun w]
          cases (device s (.showLine line) w).1 with
          | error e =>
              rw [hp.1 e]
              exact Nat.le_succ _
          | ok _ => exact ih (.ok ()) hp.2 _
      | load =>
          rw [← Simulation.countP_isInVain_device s (c := .load) nofun w]
          cases (device s .load w).1 with
          | error cause =>
              rw [hp.1 cause]
              exact Nat.le_succ _
          | ok bytes => exact ih (.ok bytes) (hp.2 bytes) _
      | store bytes =>
          obtain ⟨⟨operation, hfails⟩, hnext⟩ := hp
          rw [← Simulation.countP_isInVain_device s (c := .store bytes) nofun w]
          cases (device s (.store bytes) w).1 with
          | error cause =>
              rw [hfails cause]
              exact Nat.le_succ _
          | ok _ => exact ih (.ok ()) hnext _

namespace Replay

variable {σ α : Type} {s : Schedule}

theorem interview_perform (device : Handler Device σ) (patience : Nat) (d : Dialogue α)
    (t : Replay × σ) :
    (interview device patience d t).2 = runOn device (perform patience d) t := by
  induction d generalizing t with
  | done a => rfl
  | call c next ih =>
      rw [perform, Program.interpret, runOn_bind, interview]
      cases runOn device (reply patience c) t with
      | mk result u =>
          cases result with
          | ok a => exact ih a u
          | error e => rfl

theorem interview_takes (n : Nat) (d : Dialogue α) (t : Replay × Simulation) :
    ∀ x ∈ (interview (device s) n d t).1, x.isLive = true → ∃ line, x.Takes line := by
  induction d generalizing t with
  | done a => exact nofun
  | call c next ih =>
      rw [interview]
      cases hreply : runOn (device s) (reply n c) t with
      | mk result u =>
          cases result with
          | error e => exact nofun
          | ok a =>
              cases c with
              | ask accept =>
                  refine List.forall_mem_cons.mpr ⟨fun hlive => ?_, ih a u⟩
                  obtain ⟨line, htakes, -⟩ := read_takes hreply (Reading.isLive_iff.mp hlive)
                  exact ⟨line, htakes⟩
              | tell line => exact ih a u
              | draw previous => exact ih a u
              | stop e => cases a

theorem countP_interview (n : Nat) (d : Dialogue α) (t : Replay × Simulation) :
    t.2.log.countP Event.isLine + (interview (device s) n d t).1.countP Reading.isLive
      ≤ (interview (device s) n d t).2.2.2.log.countP Event.isLine := by
  induction d generalizing t with
  | done a => exact Nat.le_refl _
  | call c next ih =>
      rw [interview]
      cases hreply : runOn (device s) (reply n c) t with
      | mk result u =>
          have hgrows := Simulation.countP_le_of_runOn hreply Event.isLine
          cases result with
          | error e => exact hgrows
          | ok a =>
              have hrest := ih a u
              cases c with
              | ask accept =>
                  simp only [Dialogue.Call.isAsk, if_true, List.countP_cons]
                  by_cases hlive : Reading.isLive ⟨t, u⟩ = true
                  · obtain ⟨line, htakes, -⟩ := read_takes hreply (Reading.isLive_iff.mp hlive)
                    have hmore : t.2.log.countP Event.isLine < u.2.log.countP Event.isLine :=
                      htakes.countP_lt
                    rw [if_pos hlive]
                    omega
                  · rw [if_neg hlive]
                    omega
              | tell line => exact Nat.le_trans (Nat.add_le_add_right hgrows _) hrest
              | draw previous => exact Nat.le_trans (Nat.add_le_add_right hgrows _) hrest
              | stop e => cases a

end Replay

namespace Session

open Replay (interview interview_perform)

theorem minuted_commands {σ : Type} (device : Handler Device σ) (policy : ExitPolicy)
    (patience n : Nat) (t : Replay × σ) :
    let m := minuted device policy patience n t
    let out := runOn device (commands policy patience n) t
    m.result = out.1 ∧ m.left = out.2.2 := by
  induction n generalizing t with
  | zero => exact ⟨rfl, rfl⟩
  | succ n ih =>
      rw [commands, runOn_bind, minuted]
      cases runOn device (Replay.readLine patience) t with
      | mk result u =>
          cases result with
          | error e => exact ⟨rfl, rfl⟩
          | ok name =>
              by_cases hexit : Command.ofName name = .exit
              · simp only [hexit, if_true, and_self]
              · simp only [if_neg hexit]
                rw [runOn_bind, ← interview_perform]
                obtain ⟨questions, result, v⟩ :=
                  interview device patience ((Command.ofName name).dialogue patience) u
                cases result with
                | error e => exact ⟨rfl, rfl⟩
                | ok _ =>
                    simp only [runOn_bind]
                    cases runOn device Replay.finish v with
                    | mk result x =>
                        cases result with
                        | error e => exact ⟨rfl, rfl⟩
                        | ok _ => exact ih x

end Session

structure Minutes.Advances (t : Replay × Simulation) (m : Minutes Simulation) : Prop where
  first : ∀ d ∈ m.dispatches.head?, d.reading.before = t
  later : ∀ d ∈ m.dispatches.tail, d.reading.isLive = true
  named : ∀ d ∈ m.dispatches, d.reading.isLive = true →
    ∃ line, d.reading.Takes line ∧ d.name = Text.trim line
  asked : ∀ d ∈ m.dispatches, ∀ x ∈ d.questions, x.isLive = true → ∃ line, x.Takes line
  lines : t.2.log.countP Event.isLine + m.readings.countP Reading.isLive
    ≤ m.left.log.countP Event.isLine

namespace Minutes.Advances

open Replay (readLine read_takes)

variable {s : Schedule} {t u v : Replay × Simulation} {m : Minutes Simulation}

theorem idle {result : Except Error Unit} {left : Simulation}
    (h : t.2.log.countP Event.isLine ≤ left.log.countP Event.isLine) :
    Advances t ⟨[], result, left⟩ :=
  ⟨nofun, nofun, nofun, nofun, h⟩

theorem live (h : Advances t m) (ht : t.1.ahead = []) :
    ∀ d ∈ m.dispatches, d.reading.isLive = true := by
  obtain ⟨dispatches, result, left⟩ := m
  cases dispatches with
  | nil => exact nofun
  | cons d ds =>
      refine List.forall_mem_cons.mpr ⟨?_, h.later⟩
      rw [Reading.isLive_iff, h.first d rfl]
      exact ht

theorem length_le (h : Advances t m) :
    m.dispatches.length ≤ m.readings.countP Reading.isLive + 1 := by
  have hlater {ds : List (Dispatch Simulation)} (hds : ∀ d ∈ ds, d.reading.isLive = true) :
      ds.length ≤ (ds.flatMap Dispatch.readings).countP Reading.isLive := by
    induction ds with
    | nil => exact Nat.le_refl _
    | cons d ds ih =>
        obtain ⟨hd, hds⟩ := List.forall_mem_cons.mp hds
        rw [List.flatMap_cons, Dispatch.readings, List.cons_append, List.countP_cons_of_pos hd,
          List.countP_append]
        have hrest := ih hds
        rw [List.length_cons]
        omega
  obtain ⟨dispatches, result, left⟩ := m
  cases dispatches with
  | nil => exact Nat.zero_le _
  | cons d ds =>
      have htail := hlater h.later
      rw [Minutes.readings, List.flatMap_cons, List.countP_append]
      exact Nat.succ_le_succ (Nat.le_trans htail (Nat.le_add_left _ _))

theorem cons {n : Nat} {name : String} {questions : List (Reading Simulation)}
    (hread : runOn (device s) (readLine n) t = (.ok name, u))
    (hquestions : ∀ x ∈ questions, x.isLive = true → ∃ line, x.Takes line)
    (hlines : u.2.log.countP Event.isLine + questions.countP Reading.isLive
      ≤ v.2.log.countP Event.isLine)
    (hlive : ∀ d ∈ m.dispatches, d.reading.isLive = true) (h : Advances v m) :
    Advances t (m.cons ⟨name, ⟨t, u⟩, questions⟩) := by
  have hnamed (hx : Reading.isLive ⟨t, u⟩ = true) :
      ∃ line, Reading.Takes ⟨t, u⟩ line ∧ name = Text.trim line := by
    obtain ⟨line, htakes, hname⟩ := read_takes hread (Reading.isLive_iff.mp hx)
    exact ⟨line, htakes, (Except.ok.inj hname).symm⟩
  have hreading : t.2.log.countP Event.isLine + (if Reading.isLive ⟨t, u⟩ = true then 1 else 0)
      ≤ u.2.log.countP Event.isLine := by
    split
    · next hx =>
        obtain ⟨line, htakes, -⟩ := hnamed hx
        exact htakes.countP_lt
    · exact Simulation.countP_le_of_runOn hread Event.isLine
  constructor
  · intro d hd
    obtain rfl := Option.some.inj hd
    rfl
  · exact hlive
  · exact List.forall_mem_cons.mpr ⟨hnamed, h.named⟩
  · exact List.forall_mem_cons.mpr ⟨hquestions, h.asked⟩
  · have hrest := h.lines
    have hreadings : (m.cons ⟨name, ⟨t, u⟩, questions⟩).readings
        = ⟨t, u⟩ :: (questions ++ m.readings) := rfl
    have hleft : (m.cons ⟨name, ⟨t, u⟩, questions⟩).left = m.left := rfl
    rw [hreadings, hleft, List.countP_cons, List.countP_append]
    omega

theorem last {n : Nat} {name : String} {questions : List (Reading Simulation)}
    {result : Except Error Unit} {left : Simulation}
    (hread : runOn (device s) (readLine n) t = (.ok name, u))
    (hquestions : ∀ x ∈ questions, x.isLive = true → ∃ line, x.Takes line)
    (hlines : u.2.log.countP Event.isLine + questions.countP Reading.isLive
      ≤ left.log.countP Event.isLine) :
    Advances t ⟨[⟨name, ⟨t, u⟩, questions⟩], result, left⟩ :=
  cons (v := (t.1, left)) (m := ⟨[], result, left⟩) hread hquestions hlines (List.forall_mem_nil _)
    (idle (Nat.le_refl _))

end Minutes.Advances

namespace Session

open Replay (interview interview_perform)

variable (s : Schedule)

theorem minuted_advances (policy : ExitPolicy) (patience n : Nat) (t : Replay × Simulation) :
    (minuted (device s) policy patience n t).Advances t := by
  induction n generalizing t with
  | zero => exact .idle (Nat.le_refl _)
  | succ n ih =>
      rw [minuted]
      cases hread : runOn (device s) (Replay.readLine patience) t with
      | mk result u =>
          cases result with
          | error e => exact .idle (Simulation.countP_le_of_runOn hread _)
          | ok name =>
              by_cases hexit : Command.ofName name = .exit
              · simp only [hexit, if_true]
                cases hleave : runOn (device s) (leave policy) u with
                | mk result v =>
                    exact .last hread (List.forall_mem_nil _) (Simulation.countP_le_of_runOn hleave _)
              · simp only [if_neg hexit]
                have hquestions := Replay.interview_takes (s := s) patience
                  ((Command.ofName name).dialogue patience) u
                have hlines := Replay.countP_interview (s := s) patience
                  ((Command.ofName name).dialogue patience) u
                generalize interview (device s) patience ((Command.ofName name).dialogue patience) u
                  = noted at hquestions hlines
                obtain ⟨questions, result, v⟩ := noted
                simp only at hquestions hlines ⊢
                cases result with
                | error e => exact .last hread hquestions hlines
                | ok _ =>
                    simp only
                    cases hfinish : runOn (device s) Replay.finish v with
                    | mk result x =>
                        have hmore := Nat.le_trans hlines (Simulation.countP_le_of_runOn hfinish _)
                        cases result with
                        | error e => exact .last hread hquestions hmore
                        | ok _ =>
                            exact .cons hread hquestions hmore
                              ((ih x).live (Replay.finish_ahead hfinish)) (ih x)

theorem run_eq_reopen (settings : Settings) (n : Nat) :
    run settings n = Replay.reopen settings.defaultSeed >>= fun r =>
      Replay.outcome (commands settings.exitPolicy n n) r :=
  (bind_assoc _ _ _).symm

theorem exec_run_eq_minutes {σ : Type} (device : Handler Device σ) (settings : Settings) (n : Nat)
    (w : σ) :
    exec device (run settings n) w
      = ((minutes device settings n w).result, (minutes device settings n w).left) := by
  rw [run_eq_reopen, exec_bind, minutes]
  simp only [exec]
  obtain ⟨opened, w'⟩ := (Replay.reopen settings.defaultSeed).run.run device w
  cases opened with
  | error e => rfl
  | ok r =>
      obtain ⟨hresult, hleft⟩ := minuted_commands device settings.exitPolicy n n (r, w')
      simp only
      rw [hresult, hleft]
      exact Replay.exec_outcome (commands settings.exitPolicy n n) r w'

theorem minutes_advances (settings : Settings) (n : Nat) (w : Simulation) :
    ∃ t, (minutes (device s) settings n w).Advances t := by
  rw [minutes]
  obtain ⟨opened, w'⟩ := (Replay.reopen settings.defaultSeed).run.run (device s) w
  cases opened with
  | error e => exact ⟨(⟨settings.defaultSeed, [], []⟩, w'), .idle (Nat.le_refl _)⟩
  | ok r => exact ⟨(r, w'), minuted_advances s settings.exitPolicy n n (r, w')⟩

/-- A session comes to an end that more patience would not put off. The journal can name its first
command only; every later one, and every question with nothing left to replay, takes a line of its own,
and once the lines have run out, the user is not asked again. -/
theorem run_progresses (settings : Settings) (script : List Utterance) (bytes : ByteArray) :
    let w := Simulation.start script bytes
    let m := minutes (device s) settings w.patience w
    w.run s settings = (m.result, m.left) ∧
    m.result ≠ .error .outOfPatience ∧
    (∀ n ≥ w.patience, exec (device s) (run settings n) w = w.run s settings) ∧
    (∀ d ∈ m.dispatches.tail, d.reading.isLive = true) ∧
    (∀ d ∈ m.dispatches, d.reading.isLive = true →
      ∃ line, d.reading.Takes line ∧ d.name = Text.trim line) ∧
    (∀ d ∈ m.dispatches, ∀ x ∈ d.questions, x.isLive = true → ∃ line, x.Takes line) ∧
    m.readings.countP Reading.isLive ≤ m.left.log.countP Event.isLine ∧
    m.dispatches.length ≤ m.left.log.countP Event.isLine + 1 ∧
    m.left.log.countP Event.isInVain ≤ 1 := by
  intro w m
  have hrun : w.run s settings = (m.result, m.left) := exec_run_eq_minutes (device s) settings _ w
  have hends : m.result ≠ .error .outOfPatience := by
    have hverdict : Verdict w w.patience (w.run s settings) :=
      verdict_run s settings w (Nat.lt_succ_self _)
    rw [hrun] at hverdict
    exact hverdict.ne_outOfPatience (by rw [Simulation.patience]; omega)
  obtain ⟨t, hm⟩ := minutes_advances s settings w.patience w
  have hlines : m.readings.countP Reading.isLive ≤ m.left.log.countP Event.isLine :=
    Nat.le_trans (Nat.le_add_left _ _) hm.lines
  refine ⟨hrun, hends, ?_, hm.later, hm.named, hm.asked, ?_, ?_, ?_⟩
  · intro n hn
    obtain ⟨n, rfl⟩ := Nat.exists_eq_add_of_le' (Nat.lt_of_lt_of_le (Nat.succ_pos _) hn)
    rcases refines_run (device s) settings (Nat.le_of_succ_le_succ hn) w with hspent | heq
    · exact absurd ((congrArg Prod.fst hrun).symm.trans hspent) hends
    · exact heq.symm
  · exact hlines
  · exact Nat.le_trans hm.length_le (Nat.add_le_add_right hlines 1)
  · have hvain := (forthright_run settings (w.patience - 1)).countP_isInVain_le s w
    have hleft : (w.run s settings).2 = m.left := congrArg Prod.snd hrun
    rw [← hleft]
    exact hvain

end Session

end DurableCalc
