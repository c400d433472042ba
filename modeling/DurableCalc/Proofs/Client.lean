import DurableCalc.Proofs.Calm
import DurableCalc.Proofs.Drawless
import DurableCalc.Simulation.Client

namespace DurableCalc

open Dialogue (Drawless Answer)

namespace Dialogue

def Keeps : (c : Call) → String → Reply c → Prop
  | .ask accept, entry, a => accept entry = .ok a
  | .tell line, entry, _ => entry = line
  | .draw _, _, _ | .stop _, _, _ => False

variable {α : Type}

theorem Drawless.next {c : Call} {next : Reply c → Dialogue α} (h : Drawless (.call c next))
    (r : Reply c) : Drawless (next r) := by
  cases c with
  | ask accept => exact h r
  | tell line => exact h
  | draw previous => cases h
  | stop e => cases r

theorem drawless_chosen {choose : List Answer → Option Call}
    (h : ∀ given previous, choose given ≠ some (.draw previous)) (n : Nat) (given : List Answer) :
    Drawless (chosen choose n given) := by
  induction n generalizing given with
  | zero => trivial
  | succ n ih =>
      rw [chosen]
      cases hchoose : choose given with
      | none => trivial
      | some c =>
          cases c with
          | ask accept => exact fun a => ih _
          | tell line => exact ih _
          | draw previous => exact absurd hchoose (h given previous)
          | stop e => trivial

inductive Recalled : Dialogue α → List String → List Answer → Dialogue α → Prop where
  | start (d : Dialogue α) : Recalled d [] [] d
  | entry {c : Call} {next : Reply c → Dialogue α} {e : String} {r : Reply c} {es : List String}
      {answers : List Answer} {rest : Dialogue α} : Keeps c e r →
      Recalled (next r) es answers rest →
      Recalled (.call c next) (e :: es) (⟨c, .ok r⟩ :: answers) rest

theorem Recalled.append {d rest rest' : Dialogue α} {es es' : List String}
    {answers answers' : List Answer} (h : Recalled d es answers rest)
    (h' : Recalled rest es' answers' rest') :
    Recalled d (es ++ es') (answers ++ answers') rest' := by
  induction h with
  | start d => exact h'
  | entry hkeeps hrest ih => exact .entry hkeeps (ih h')

theorem Recalled.drawless {d rest : Dialogue α} {es : List String} {answers : List Answer}
    (h : Recalled d es answers rest) (hd : Drawless d) : Drawless rest := by
  induction h with
  | start d => exact hd
  | entry hkeeps hrest ih => exact ih (hd.next _)

end Dialogue

namespace Replay

open Attempt (exec)
open Dialogue (Keeps Recalled)

variable {σ α β : Type} {device : Handler Device σ} {r : Replay} {w : σ}

theorem runOn_bind (op : Op α) (k : α → Op β) (s : Replay × σ) :
    runOn device (op >>= k) s
      = match runOn device op s with
        | (.ok a, t) => runOn device (k a) t
        | (.error e, t) => (.error e, t) := by
  simp only [runOn, ExceptT.run_bind, StateT.run_bind, Program.run_bind]
  obtain ⟨⟨result, r⟩, w⟩ := Program.run device (op.run.run s.1) s.2
  cases result <;> rfl

theorem runOn_get_bind (k : Replay → Op β) (s : Replay × σ) :
    runOn device (get >>= k) s = runOn device (k s.1) s := rfl

theorem runOn_lift (p : Attempt α) (r : Replay) (w : σ) :
    runOn device (lift p) (r, w) = ((exec device p w).1, (r, (exec device p w).2)) := by
  simp only [runOn, lift, exec, ExceptT.run_mk, StateT.run, ← bind_pure_comp, Program.run_bind]
  rfl

theorem exec_outcome (op : Op α) (r : Replay) (w : σ) :
    exec device (outcome op r) w
      = ((runOn device op (r, w)).1, (runOn device op (r, w)).2.2) := by
  rw [outcome, exec, ExceptT.run_mk, ← bind_pure_comp, Program.run_bind]
  rfl

def ActsAs (device : Handler Device σ) (r : Replay) (op : Op α) (p : Attempt α) : Prop :=
  ∀ w, ∃ r', r'.ahead = [] ∧
    runOn device op (r, w) = ((exec device p w).1, (r', (exec device p w).2))

theorem actsAs_lift_bind (hr : r.ahead = []) (p : Attempt α) {k : α → Op β} {q : α → Attempt β}
    (h : ∀ a, ActsAs device r (k a) (q a)) : ActsAs device r (lift p >>= k) (p >>= q) := by
  intro w
  rw [runOn_bind, runOn_lift, Attempt.exec_bind]
  obtain ⟨result, w'⟩ := exec device p w
  cases result with
  | ok a => exact h a w'
  | error e => exact ⟨r, hr, rfl⟩

theorem actsAs_of_bind (hr : r.ahead = []) (x : Except Error α) {k : α → Op β} {q : α → Attempt β}
    (h : ∀ a, ActsAs device r (k a) (q a)) : ActsAs device r (of x >>= k) (Attempt.of x >>= q) := by
  intro w
  cases x with
  | ok a => exact h a w
  | error e => exact ⟨r, hr, rfl⟩

theorem actsAs_record (hr : r.ahead = []) (line : String) (a : α) :
    ActsAs device r (record line >>= fun _ => pure a) (Journal.append line >>= fun _ => pure a) := by
  rw [record, bind_assoc]
  exact actsAs_lift_bind hr (Journal.append line) fun _ w => ⟨r.extend line, hr, rfl⟩

theorem actsAs_reply (patience : Nat) {c : Dialogue.Call} {next : Dialogue.Reply c → Dialogue α}
    (hd : Drawless (.call c next)) (hr : r.ahead = []) :
    ActsAs device r (reply patience c) (Live.reply patience c) := by
  cases c with
  | ask accept =>
      intro w
      rw [reply, read, runOn_get_bind, hr]
      refine actsAs_lift_bind hr (nextLine patience) (fun line => ?_) w
      exact actsAs_of_bind hr (accept line) fun a => actsAs_record hr line a
  | tell line =>
      intro w
      rw [reply, showLine, runOn_get_bind, hr]
      refine actsAs_of_bind hr (Journal.validate line) (fun _ => ?_) w
      refine actsAs_lift_bind hr (Attempt.showLine line) fun _ => ?_
      have hrecord : ActsAs device r _ _ := actsAs_record hr line ()
      rwa [bind_pure, bind_pure] at hrecord
  | draw previous => cases hd
  | stop e => exact fun w => ⟨r, hr, rfl⟩

theorem runOn_reply_recorded (patience : Nat) {c : Dialogue.Call} {e : String}
    {a : Dialogue.Reply c} (hkeeps : Keeps c e a) {es : List String} (hr : r.ahead = e :: es)
    (w : σ) : runOn device (reply patience c) (r, w) = (.ok a, (r.consume, w)) := by
  cases c with
  | ask accept =>
      have haccept : accept e = .ok a := hkeeps
      rw [reply, read, runOn_get_bind, hr]
      simp only [haccept]
      rfl
  | tell line =>
      obtain rfl : e = line := hkeeps
      rw [reply, showLine, runOn_get_bind, hr]
      simp only [if_true]
      rfl
  | draw previous => cases hkeeps
  | stop e => cases hkeeps

section

variable (patience : σ → Nat)

theorem attend_error {c : Dialogue.Call} {next : Dialogue.Reply c → Dialogue α} {t : Replay × σ}
    {e : Error} (h : runOn device (reply (patience w) c) (r, w) = (.error e, t)) :
    attend device patience (.call c next) (r, w) = (⟨[⟨c, .error e⟩], .error e⟩, t) := by
  rw [attend, h]

theorem attend_ok {c : Dialogue.Call} {next : Dialogue.Reply c → Dialogue α} {t : Replay × σ}
    {a : Dialogue.Reply c} (h : runOn device (reply (patience w) c) (r, w) = (.ok a, t)) :
    attend device patience (.call c next) (r, w)
      = (⟨⟨c, .ok a⟩ :: (attend device patience (next a) t).1.answers,
          (attend device patience (next a) t).1.result⟩, (attend device patience (next a) t).2) := by
  rw [attend, h]

theorem attend_perform (n : Nat) (d : Dialogue α) (s : Replay × σ) :
    ((attend device (fun _ => n) d s).1.result, (attend device (fun _ => n) d s).2)
      = runOn device (perform n d) s := by
  induction d generalizing s with
  | done a => rfl
  | call c next ih =>
      rw [perform, Program.interpret, runOn_bind, attend]
      cases runOn device (reply n c) s with
      | mk result t =>
          cases result with
          | ok a => exact ih a t
          | error e => rfl

variable (device) in
theorem attend_recalled {d rest : Dialogue α} {es : List String} {answers : List Answer}
    (h : Recalled d es answers rest) (hr : r.ahead = es) (w : σ) :
    ∃ r', r'.ahead = [] ∧ attend device patience d (r, w)
      = (⟨answers ++ (attend device patience rest (r', w)).1.answers,
          (attend device patience rest (r', w)).1.result⟩,
          (attend device patience rest (r', w)).2) := by
  induction h generalizing r with
  | start d => exact ⟨r, hr, rfl⟩
  | @entry c next e a es answers rest hkeeps hrest ih =>
      obtain ⟨r', hr', hattend⟩ := ih (ahead_consume hr)
      refine ⟨r', hr', ?_⟩
      rw [attend_ok patience (runOn_reply_recorded (patience w) hkeeps hr w), hattend]
      rfl

end

end Replay

namespace Calm

open Dialogue (Keeps)
open Simulation (Visit)

variable {α : Type}

def reply : (c : Dialogue.Call) → ByteArray → List String → Turnout (Dialogue.Reply c)
  | .ask accept, bytes, lines => ask accept bytes lines
  | .tell line, bytes, lines => tell line bytes lines
  -- there is no generator here to draw from
  | .draw _, bytes, lines => ⟨.error .outOfPatience, [], bytes, lines⟩
  | .stop e, bytes, lines => ⟨.error e, [], bytes, lines⟩

end Calm

namespace Simulation.Visit

variable {α : Type}

def after (answers : List Answer) (events : List Event) (v : Visit α) : Visit α :=
  { v with answers := answers ++ v.answers, events := events ++ v.events }

@[simp] theorem after_nil (v : Visit α) : v.after [] [] = v := rfl

@[simp] theorem after_after (answers answers' : List Answer) (es es' : List Event) (v : Visit α) :
    (v.after answers' es').after answers es = v.after (answers ++ answers') (es ++ es') := by
  simp [after]

end Simulation.Visit

namespace Calm

open Dialogue (Keeps)
open Simulation (Visit)

variable {α : Type}

def visit : Dialogue α → ByteArray → List String → Visit α
  | .done a, bytes, lines => ⟨[], .ok a, [], bytes, lines.map .line⟩
  | .call c next, bytes, lines =>
      let t := reply c bytes lines
      match t.result with
      | .error e => ⟨[⟨c, .error e⟩], .error e, t.events, t.bytes, t.lines.map .line⟩
      | .ok a => (visit (next a) t.bytes t.lines).after [⟨c, .ok a⟩] t.events

variable {c : Dialogue.Call} {next : Dialogue.Reply c → Dialogue α} {bytes : ByteArray}
  {lines : List String}

theorem visit_error {e : Error} (h : (reply c bytes lines).result = .error e) :
    visit (.call c next) bytes lines
      = ⟨[⟨c, .error e⟩], .error e, (reply c bytes lines).events, (reply c bytes lines).bytes,
          (reply c bytes lines).lines.map .line⟩ := by
  simp only [visit, h]

theorem visit_ok {a : Dialogue.Reply c} (h : (reply c bytes lines).result = .ok a) :
    visit (.call c next) bytes lines
      = (visit (next a) (reply c bytes lines).bytes (reply c bytes lines).lines).after
          [⟨c, .ok a⟩] (reply c bytes lines).events := by
  simp only [visit, h]

theorem visit_after {lines' : List String} {es : List Event}
    (h : reply c bytes lines = (reply c bytes lines').after es) :
    visit (.call c next) bytes lines = (visit (.call c next) bytes lines').after [] es := by
  simp only [visit, h, Turnout.after]
  split
  · rfl
  · rw [Visit.after_after]
    rfl

theorem ask_keeps {β : Type} {accept : String → Except Error β} {b : β}
    (h : (ask accept bytes lines).result = .ok b) :
    ∃ entry, Journal.Storable entry ∧ accept entry = .ok b ∧
      (ask accept bytes lines).bytes = Journal.extended bytes entry := by
  rw [ask] at h ⊢
  cases hheard : (hear bytes lines).result with
  | error e =>
      rw [hheard] at h
      cases h
  | ok line =>
      simp only [hheard, take] at h ⊢
      cases haccept : accept line with
      | error e =>
          rw [haccept] at h
          cases h
      | ok b' =>
          simp only [haccept] at h ⊢
          by_cases hline : Journal.Storable line
          · rw [if_pos hline] at h ⊢
            cases h
            exact ⟨line, hline, haccept, by rw [hear_bytes]⟩
          · rw [if_neg hline] at h
            cases h

theorem reply_keeps {a : Dialogue.Reply c} (h : (reply c bytes lines).result = .ok a) :
    ∃ entry, Journal.Storable entry ∧ Keeps c entry a ∧
      (reply c bytes lines).bytes = Journal.extended bytes entry := by
  cases c with
  | ask accept => exact ask_keeps h
  | tell line =>
      by_cases hline : Journal.Storable line
      · refine ⟨line, hline, rfl, ?_⟩
        simp only [reply, tell, if_pos hline]
      · simp only [reply, tell, if_neg hline] at h
        cases h
  | draw previous => cases h
  | stop e => cases h

end Calm

end DurableCalc
