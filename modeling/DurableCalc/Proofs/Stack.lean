import DurableCalc.Proofs.Client
import DurableCalc.Replay.Stack

namespace DurableCalc

open Attempt (exec exec_bind exec_bind_ok exec_bind_error)
open Journal (Storable validate)

section

variable {α β : Type}

def Program.Plain {α : Type} : Program Device α → Prop
  | .done _ => True
  | .call .readLine _ => False
  | .call (.showLine line) next => Storable line ∧ ∀ r, Plain (next r)
  | .call .load next => ∀ r, Plain (next r)
  | .call (.store _) next => ∀ r, Plain (next r)

theorem Program.Plain.bind {p : Program Device α} {f : α → Program Device β} (hp : p.Plain)
    (hf : ∀ a, (f a).Plain) : (p >>= f).Plain := by
  induction p with
  | done a => exact hf a
  | call c next ih =>
      cases c with
      | readLine => exact hp
      | showLine line => exact ⟨hp.1, fun r => ih r (hp.2 r)⟩
      | load => exact fun r => ih r (hp r)
      | store bytes => exact fun r => ih r (hp r)

namespace Attempt

def Plain (p : Attempt α) : Prop :=
  Program.Plain p.run

theorem plain_of (x : Except Error α) : Plain (of x) := trivial

theorem plain_pure (a : α) : Plain (pure a) := trivial

theorem plain_throw (e : Error) : Plain (throw e : Attempt α) := trivial

theorem plain_load : Plain load := fun _ => trivial

theorem plain_store (operation : Operation) (bytes : ByteArray) : Plain (store operation bytes) :=
  fun _ => trivial

theorem plain_showLine {line : String} (h : Storable line) : Plain (showLine line) :=
  ⟨h, fun _ => trivial⟩

theorem Plain.bind {p : Attempt α} {f : α → Attempt β} (hp : Plain p) (hf : ∀ a, Plain (f a)) :
    Plain (p >>= f) := by
  refine Program.Plain.bind hp fun x => ?_
  cases x with
  | ok a => exact hf a
  | error e => trivial

end Attempt

namespace Journal

open Attempt

theorem plain_entries : Plain entries :=
  plain_load.bind fun _ => plain_of _

theorem plain_seed : Plain Journal.seed :=
  plain_entries.bind fun _ => plain_of _

theorem plain_append (entry : String) : Plain (append entry) :=
  (plain_of _).bind fun _ => plain_load.bind fun _ => plain_store _ _

theorem plain_replaceSeed (seed : Int64) : Plain (replaceSeed seed) := by
  refine plain_entries.bind fun es => ?_
  cases es with
  | nil => exact plain_throw _
  | cons e es => exact plain_store _ _

theorem plain_compact : Plain compact :=
  plain_entries.bind fun _ => (plain_of _).bind fun _ => plain_store _ _

theorem plain_ensureSeed (seed : Int64) : Plain (ensureSeed seed) := by
  refine plain_load.bind fun bytes => ?_
  split
  · exact plain_append _
  · exact plain_pure _

end Journal

namespace Replay

open Attempt (Plain plain_of plain_pure plain_showLine)

theorem plain_reopen (standard : Int64) : Plain (reopen standard) :=
  (Journal.plain_ensureSeed standard).bind fun _ =>
    Journal.plain_entries.bind fun _ => (plain_of _).bind fun _ => plain_pure _

def PlainAt (op : Op α) (r : Replay) : Prop :=
  (op.run.run r).Plain

theorem PlainAt.bind {op : Op α} {k : α → Op β} {r : Replay} (hop : PlainAt op r)
    (hk : ∀ a r', PlainAt (k a) r') : PlainAt (op >>= k) r := by
  rw [PlainAt, ExceptT.run_bind, StateT.run_bind]
  refine Program.Plain.bind hop fun x => ?_
  obtain ⟨result, r'⟩ := x
  cases result with
  | ok a => exact hk a r'
  | error e => trivial

theorem plainAt_get_bind {k : Replay → Op α} {r : Replay} (h : PlainAt (k r) r) :
    PlainAt (get >>= k) r := h

theorem plainAt_lift {p : Attempt α} (hp : Plain p) (r : Replay) : PlainAt (lift p) r :=
  Program.Plain.bind hp fun _ => trivial

theorem plainAt_record (line : String) (r : Replay) : PlainAt (record line) r :=
  (plainAt_lift (Journal.plain_append line) r).bind fun _ _ => trivial

theorem plainAt_read_recorded {r : Replay} {e : String} {es : List String} (hr : r.ahead = e :: es)
    (patience : Nat) (accept : String → Except Error α) : PlainAt (read patience accept) r := by
  refine plainAt_get_bind ?_
  rw [hr]
  cases haccept : accept e <;> simp only [haccept] <;> trivial

theorem plainAt_showLine (line : String) (r : Replay) : PlainAt (showLine line) r := by
  refine plainAt_get_bind ?_
  cases hr : r.ahead with
  | cons recorded rest =>
      simp only
      split <;> trivial
  | nil =>
      simp only [validate]
      by_cases hline : Storable line
      · rw [if_pos hline]
        exact (plainAt_lift (plain_showLine hline) r).bind fun _ r' => plainAt_record line r'
      · rw [if_neg hline]
        trivial

theorem plainAt_advance (seed : Int64) (r : Replay) : PlainAt (advance seed) r := by
  refine (plainAt_lift Journal.plain_seed r).bind fun stored r => ?_
  split
  · exact (plainAt_lift (Journal.plain_replaceSeed seed) r).bind fun _ _ => trivial
  · trivial

theorem plainAt_finish (r : Replay) : PlainAt finish r := by
  have hensure : PlainAt ensureFinished r := by
    refine plainAt_get_bind ?_
    split <;> trivial
  exact hensure.bind fun _ r => (plainAt_lift Journal.plain_compact r).bind fun _ _ => trivial

end Replay

end

namespace Replay

variable {σ α : Type} {user : Console σ} {storage : Storage σ} {patience : σ → Nat}

structure Beneath (s : σ) (t : Replay × σ × ByteArray) : Prop where
  live : t.1.ahead = []
  same : t.2.1 = s

def Alike (x : α × σ) (y : α × (Replay × σ × ByteArray)) : Prop :=
  y.1 = x.1 ∧ Beneath x.2 y.2

theorem exec_lower_append {entry : String} (h : Storable entry) (s : σ) (bytes : ByteArray) :
    exec (lower user) (Journal.append entry) (s, bytes)
      = (.ok (), (s, Journal.extended bytes entry)) := by
  have hvalid : validate entry = .ok () := Journal.validate_eq_ok_iff.mpr h
  rw [Journal.append, hvalid]
  rfl

theorem exec_lower_append_refused {entry : String} (h : ¬ Storable entry) (s : σ)
    (bytes : ByteArray) :
    exec (lower user) (Journal.append entry) (s, bytes)
      = (.error (.invalidEntry entry), (s, bytes)) := by
  have hvalid : validate entry = .error (.invalidEntry entry) := if_neg h
  rw [Journal.append, hvalid]
  rfl

theorem exec_lower_reopen (standard : Int64) (s : σ) :
    exec (lower user) (reopen standard) (s, ByteArray.empty)
      = (.ok ⟨standard, [], []⟩, (s, Journal.render [standard.decimal])) := by
  have hbytes : Journal.extended ByteArray.empty standard.decimal
      = Journal.render [standard.decimal] := Journal.extended_render [] standard.decimal
  have hensure : exec (lower user) (Journal.ensureSeed standard) (s, ByteArray.empty)
      = (.ok (), (s, Journal.render [standard.decimal])) := by
    rw [← hbytes, ← exec_lower_append (Numeral.storable_decimal standard)]
    rfl
  have hparse : Journal.parse (Journal.render [standard.decimal]) = .ok [standard.decimal] :=
    Journal.parse_render (List.forall_mem_singleton.mpr (Numeral.storable_decimal standard))
  have hentries : exec (lower user) Journal.entries (s, Journal.render [standard.decimal])
      = (.ok [standard.decimal], (s, Journal.render [standard.decimal])) := by
    rw [← hparse]
    rfl
  have hseed : Journal.parseSeed [standard.decimal].head? = .ok standard := by
    rw [List.head?_cons, Journal.parseSeed, Numeral.readTrimmed?_decimal]
  rw [reopen, exec_bind_ok hensure, resume, exec_bind_ok hentries, hseed]
  rfl

theorem exec_lower_nextLine (storage : Storage σ) (n : Nat) (s : σ) (bytes : ByteArray) :
    let x := exec (Device.handler user storage) (nextLine n) s
    exec (lower user) (nextLine n) (s, bytes) = (x.1, (x.2, bytes)) := by
  induction n generalizing s with
  | zero => rfl
  | succ n ih =>
      simp only [nextLine, exec_bind, Attempt.exec_readLine]
      have hread : lower user .readLine (s, bytes)
          = ((user.readLine s).1, ((user.readLine s).2, bytes)) := rfl
      have hdirect : Device.handler user storage .readLine s = user.readLine s := rfl
      rw [hread, hdirect]
      obtain ⟨result, s'⟩ := user.readLine s
      cases result with
      | error e => rfl
      | ok line =>
          simp only
          split
          · exact ih s'
          · rfl

theorem exec_lower_tell (user : Console σ) {line : String} (hline : Storable line) (s : σ) (bytes : ByteArray) :
    ∃ bytes', exec (lower user) (Live.tell line) (s, bytes)
      = ((user.showLine line s).1, ((user.showLine line s).2, bytes')) := by
  have hvalid : validate line = .ok () := Journal.validate_eq_ok_iff.mpr hline
  have hshow : lower user (.showLine line) (s, bytes)
      = ((user.showLine line s).1, ((user.showLine line s).2, bytes)) := rfl
  rw [Live.tell, hvalid, exec_bind, Attempt.exec_of]
  simp only
  rw [exec_bind, Attempt.exec_showLine, hshow]
  obtain ⟨result, s'⟩ := user.showLine line s
  cases result with
  | error e => exact ⟨bytes, rfl⟩
  | ok u =>
      refine ⟨Journal.extended bytes line, ?_⟩
      simp only
      rw [exec_lower_append hline]

def vetted : Except Error String → Except Error String
  | .ok line => if Storable line then .ok line else .error (.invalidEntry line)
  | .error e => .error e

theorem exec_lower_ask (storage : Storage σ) (n : Nat) (s : σ) (bytes : ByteArray) :
    let x := exec (Device.handler user storage) (nextLine n) s
    ∃ bytes', exec (lower user) (Live.ask n .ok) (s, bytes) = (vetted x.1, (x.2, bytes')) := by
  rw [Live.ask, exec_bind, exec_lower_nextLine storage]
  simp only
  obtain ⟨result, s'⟩ := exec (Device.handler user storage) (nextLine n) s
  cases result with
  | error e => exact ⟨bytes, rfl⟩
  | ok line =>
      simp only
      rw [exec_bind, Attempt.exec_of]
      simp only
      by_cases hline : Storable line
      · refine ⟨Journal.extended bytes line, ?_⟩
        rw [exec_bind_ok (exec_lower_append hline s' bytes), vetted, if_pos hline]
        rfl
      · refine ⟨bytes, ?_⟩
        rw [exec_bind_error (exec_lower_append_refused hline s' bytes), vetted, if_neg hline]

theorem alike_showLine {line : String} (hline : Storable line) {s : σ} {t : Replay × σ × ByteArray}
    (h : Beneath s t) :
    Alike (Device.handler user storage (.showLine line) s)
      (upper user storage patience (.showLine line) t) := by
  obtain ⟨r, s, bytes⟩ := t
  obtain ⟨hr, rfl⟩ := h
  have hdrawless : Dialogue.Drawless (.call (.tell line) fun u => .done u) := trivial
  have hacts : ActsAs (lower user) r (showLine line) (Live.tell line) := actsAs_reply 0 hdrawless hr
  obtain ⟨r', hr', hacts⟩ := hacts (s, bytes)
  obtain ⟨bytes', htell⟩ := exec_lower_tell user hline s bytes
  have hupper : upper user storage patience (.showLine line) (r, s, bytes)
      = runOn (lower user) (showLine line) (r, (s, bytes)) := rfl
  rw [hupper, hacts, htell]
  exact ⟨rfl, hr', rfl⟩

theorem alike_readLine {s : σ} {t : Replay × σ × ByteArray} (h : Beneath s t) :
    let x := exec (Device.handler user storage) (nextLine (patience s)) s
    Alike (vetted x.1, x.2) (upper user storage patience .readLine t) := by
  obtain ⟨r, s, bytes⟩ := t
  obtain ⟨hr, rfl⟩ := h
  have hdrawless : Dialogue.Drawless (.call (.ask .ok) fun (a : String) => .done a) :=
    fun _ => trivial
  have hacts : ActsAs (lower user) r (readLine (patience s)) (Live.ask (patience s) .ok) :=
    actsAs_reply (patience s) hdrawless hr
  obtain ⟨r', hr', hacts⟩ := hacts (s, bytes)
  obtain ⟨bytes', hask⟩ := exec_lower_ask storage (patience s) s bytes
  have hupper : upper user storage patience .readLine (r, s, bytes)
      = runOn (lower user) (readLine (patience s)) (r, (s, bytes)) := rfl
  intro x
  rw [hupper, hacts, hask]
  exact ⟨rfl, hr', rfl⟩

theorem alike_run (user : Console σ) (storage : Storage σ) (patience : σ → Nat)
    {p : Program Device α} (hp : p.Plain) {s : σ} {t : Replay × σ × ByteArray} (h : Beneath s t) :
    Alike (p.run (Device.handler user storage) s) (p.run (upper user storage patience) t) := by
  induction p generalizing s t with
  | done a => exact ⟨rfl, h⟩
  | call c next ih =>
      rw [Program.run_call, Program.run_call]
      have hcall : Alike (Device.handler user storage c s) (upper user storage patience c t) := by
        cases c with
        | readLine => exact absurd hp id
        | showLine line => exact alike_showLine hp.1 h
        | load =>
            have hload := congrArg storage.load h.same
            exact ⟨congrArg Prod.fst hload, h.live, congrArg Prod.snd hload⟩
        | store bytes =>
            have hstore := congrArg (storage.store bytes) h.same
            exact ⟨congrArg Prod.fst hstore, h.live, congrArg Prod.snd hstore⟩
      rw [hcall.1]
      refine ih _ ?_ hcall.2
      cases c with
      | readLine => exact absurd hp id
      | showLine line => exact hp.2 _
      | load => exact hp _
      | store bytes => exact hp _

theorem trim_nextLine {device : Handler Device σ} {n : Nat} {s s' : σ} {line : String}
    (h : exec device (nextLine n) s = (.ok line, s')) :
    Text.isBlank line = false ∧ Text.trim line = line := by
  induction n generalizing s with
  | zero => cases h
  | succ n ih =>
      rw [nextLine, exec_bind] at h
      split at h
      · next raw u hraw =>
          by_cases hblank : Text.isBlank raw = true
          · rw [if_pos hblank] at h
            exact ih h
          · rw [if_neg hblank] at h
            obtain rfl : Text.trim raw = line := Except.ok.inj (Prod.mk.inj h).1
            refine ⟨?_, Text.trim_trim raw⟩
            rw [Bool.eq_false_iff, ne_eq, ← Text.trim_eq_empty_iff, Text.trim_trim,
              Text.trim_eq_empty_iff]
            exact hblank
      · cases h

theorem alike_nextLine (user : Console σ) (storage : Storage σ) (patience : σ → Nat) {s : σ}
    {t : Replay × σ × ByteArray} (h : Beneath s t) :
    let x := exec (Device.handler user storage) (nextLine (patience s)) s
    Alike (vetted x.1, x.2) (exec (upper user storage patience) (nextLine (patience s)) t) := by
  intro x
  have hx : x = exec (Device.handler user storage) (nextLine (patience s)) s := rfl
  have hread : Alike (vetted x.1, x.2) (upper user storage patience .readLine t) := alike_readLine h
  cases hn : patience s with
  | zero =>
      rw [hx, hn]
      exact ⟨rfl, h⟩
  | succ n =>
      rw [nextLine, exec_bind, Attempt.exec_readLine]
      generalize upper user storage patience .readLine t = y at hread ⊢
      obtain ⟨answer, t'⟩ := y
      obtain ⟨result, s'⟩ := x
      obtain ⟨rfl, hs'⟩ : answer = vetted result ∧ Beneath s' t' := hread
      cases result with
      | error e => exact ⟨rfl, hs'⟩
      | ok line =>
          obtain ⟨hblank, htrim⟩ := trim_nextLine hx.symm
          simp only [vetted] at hs' ⊢
          by_cases hline : Storable line
          · simp only [if_pos hline, hblank, Bool.false_eq_true, if_false, htrim]
            exact ⟨rfl, hs'⟩
          · simp only [if_neg hline]
            exact ⟨rfl, hs'⟩

def keep (accept : String → Except Error α) (line : String) : Op α := do
  let a ← of (accept line)
  record line
  return a

theorem runOn_read_live (device : Handler Device σ) {r : Replay} (hr : r.ahead = []) (n : Nat)
    (accept : String → Except Error α) (s : σ) :
    runOn device (read n accept) (r, s)
      = match exec device (nextLine n) s with
        | (.ok line, s') => runOn device (keep accept line) (r, s')
        | (.error e, s') => (.error e, (r, s')) := by
  rw [read, runOn_get_bind, hr]
  simp only
  rw [runOn_bind, runOn_lift]
  obtain ⟨result, s'⟩ := exec device (nextLine n) s
  cases result <;> rfl

theorem plainAt_keep (accept : String → Except Error α) (line : String) (r : Replay) :
    PlainAt (keep accept line) r := by
  rw [keep]
  cases accept line with
  | error e => trivial
  | ok a => exact (plainAt_record line r).bind fun _ _ => trivial

theorem runOn_keep_refused (device : Handler Device σ) {accept : String → Except Error α}
    {line : String} (hline : ¬ Storable line) {a : α} (haccept : accept line = .ok a)
    (s : Replay × σ) : runOn device (keep accept line) s = (.error (.invalidEntry line), s) := by
  have hvalid : validate line = .error (.invalidEntry line) := if_neg hline
  rw [keep, haccept, record, Journal.append, hvalid]
  rfl

def Agree (x : Except Error α × (Replay × σ))
    (y : Except Error α × (Replay × (Replay × σ × ByteArray))) : Prop :=
  y.1 = x.1 ∧ y.2.1 = x.2.1 ∧ Beneath x.2.2 y.2.2

theorem agree_runOn {op : Op α} {r : Replay} (hop : PlainAt op r) {s : σ}
    {t : Replay × σ × ByteArray} (h : Beneath s t) :
    Agree (runOn (Device.handler user storage) op (r, s))
      (runOn (upper user storage patience) op (r, t)) := by
  obtain ⟨hresult, hbeneath⟩ := alike_run user storage patience hop h
  exact ⟨congrArg Prod.fst hresult, congrArg Prod.snd hresult, hbeneath⟩

namespace Order

structure Same (s : Option Replay × σ) (t : Option Replay × (Replay × σ × ByteArray)) : Prop where
  console : t.1 = s.1
  beneath : Beneath s.2 t.2

inductive Agrees (device : Handler Device σ) (patience : σ → Nat) (s : Option Replay × σ) :
    (o : Order) → Option (Except Error o.Reply) → Option (Except Error o.Reply) → Prop where
  | same {o : Order} (x : Option (Except Error o.Reply)) : Agrees device patience s o x x
  | refused {α : Type} {accept : String → Except Error α} {r : Replay} {s' : σ} {line : String}
      {e : Error} : s.1 = some r → r.ahead = [] →
      exec device (nextLine (patience s.2)) s.2 = (.ok line, s') →
      '\n' ∈ line.toList ∨ '\r' ∈ line.toList → accept line = .error e →
      serve device patience (.act (.read accept)) s = (some (.error e), (some r, s')) →
      Agrees device patience s (.act (.read accept)) (some (.error e))
        (some (.error (.invalidEntry line)))

def Served (user : Console σ) (storage : Storage σ) (patience : σ → Nat) (o : Order)
    (s : Option Replay × σ) (t : Option Replay × (Replay × σ × ByteArray)) : Prop :=
  Agrees (Device.handler user storage) patience s o
      (o.serve (Device.handler user storage) patience s).1
      (o.serve (upper user storage patience) (fun t => patience t.2.1) t).1 ∧
    Same (o.serve (Device.handler user storage) patience s).2
      (o.serve (upper user storage patience) (fun t => patience t.2.1) t).2

variable {s : σ} {t : Replay × σ × ByteArray}

theorem served_act {a : Action} {r : Replay}
    (h : Agree (runOn (Device.handler user storage) (a.op (patience s)) (r, s))
      (runOn (upper user storage patience) (a.op (patience t.2.1)) (r, t))) :
    Served user storage patience (.act a) (some r, s) (some r, t) := by
  obtain ⟨hresult, hconsole, hbeneath⟩ := h
  simp only [Served, serve]
  rw [hresult, hconsole]
  exact ⟨.same _, rfl, hbeneath⟩

theorem served_read_live {r : Replay} (hr : r.ahead = []) (h : Beneath s t)
    (accept : String → Except Error α) :
    Served user storage patience (.act (.read accept)) (some r, s) (some r, t) := by
  have hpatience : patience t.2.1 = patience s := congrArg patience h.same
  have hdirect := runOn_read_live (Device.handler user storage) hr (patience s) accept s
  have hupper := runOn_read_live (upper user storage patience) hr (patience s) accept t
  have hask := alike_nextLine user storage patience h
  cases hx : exec (Device.handler user storage) (nextLine (patience s)) s with
  | mk result s' =>
  rw [hx] at hdirect hask
  generalize exec (upper user storage patience) (nextLine (patience s)) t = y at hupper hask
  obtain ⟨answer, t'⟩ := y
  obtain ⟨rfl, hs'⟩ : answer = vetted result ∧ Beneath s' t' := hask
  cases result with
  | error e =>
      apply served_act
      rw [hpatience, Action.op, hdirect, hupper]
      exact ⟨rfl, rfl, hs'⟩
  | ok line =>
      by_cases hline : Storable line
      · apply served_act
        rw [hpatience, Action.op, hdirect, hupper, vetted, if_pos hline]
        exact agree_runOn (plainAt_keep accept line r) hs'
      · rw [vetted, if_neg hline] at hupper
        cases haccept : accept line with
        | ok a =>
            apply served_act
            rw [hpatience, Action.op, hdirect, hupper]
            simp only
            rw [runOn_keep_refused _ hline haccept]
            exact ⟨rfl, rfl, hs'⟩
        | error e =>
            have hkeep : runOn (Device.handler user storage) (keep accept line) (r, s')
                = (.error e, (r, s')) := by
              rw [keep, haccept]
              rfl
            have hserve : serve (Device.handler user storage) patience (.act (.read accept))
                (some r, s) = (some (.error e), (some r, s')) := by
              rw [serve, Action.op, hdirect]
              simp only
              rw [hkeep]
            have hserve' : serve (upper user storage patience) (fun t => patience t.2.1)
                (.act (.read accept)) (some r, t)
                = (some (.error (.invalidEntry line)), (some r, t')) := by
              rw [serve, Action.op, hpatience, hupper]
            have hbroken : '\n' ∈ line.toList ∨ '\r' ∈ line.toList := by
              by_contra hwhole
              rw [not_or] at hwhole
              refine hline ⟨(trim_nextLine hx).1, fun c hc => ⟨?_, ?_⟩⟩
              · rintro rfl
                exact hwhole.1 hc
              · rintro rfl
                exact hwhole.2 hc
            rw [Served, hserve, hserve']
            exact ⟨.refused rfl hr hx hbroken haccept hserve, rfl, hs'⟩

theorem served (o : Order) {s : Option Replay × σ} {t : Option Replay × (Replay × σ × ByteArray)}
    (h : Same s t) : Served user storage patience o s t := by
  obtain ⟨console, s⟩ := s
  obtain ⟨console', t⟩ := t
  obtain ⟨rfl, hbeneath⟩ : console' = console ∧ Beneath s t := ⟨h.console, h.beneath⟩
  cases o with
  | act a =>
      cases console' with
      | none => exact ⟨.same _, rfl, hbeneath⟩
      | some r =>
          have hpatience : patience t.2.1 = patience s := congrArg patience hbeneath.same
          cases a with
          | read accept =>
              cases hr : r.ahead with
              | nil => exact served_read_live hr hbeneath accept
              | cons e es =>
                  apply served_act
                  rw [hpatience]
                  exact agree_runOn (plainAt_read_recorded hr _ accept) hbeneath
          | showLine line => exact served_act (agree_runOn (plainAt_showLine line r) hbeneath)
          | advance seed => exact served_act (agree_runOn (plainAt_advance seed r) hbeneath)
          | finish => exact served_act (agree_runOn (plainAt_finish r) hbeneath)
  | reopen standard =>
      have hreopen := alike_run user storage patience (plain_reopen standard) hbeneath
      simp only [Served, serve]
      generalize (Replay.reopen standard).run.run (Device.handler user storage) s = x at hreopen ⊢
      generalize (Replay.reopen standard).run.run (upper user storage patience) t = y at hreopen ⊢
      obtain ⟨result, s'⟩ := x
      obtain ⟨result', t'⟩ := y
      obtain ⟨rfl, hs'⟩ : result' = result ∧ Beneath s' t' := hreopen
      cases result' with
      | ok r => exact ⟨.same _, rfl, hs'⟩
      | error e => exact ⟨.same _, rfl, hs'⟩

theorem same_after (user : Console σ) (storage : Storage σ) (patience : σ → Nat) (os : List Order)
    {s : Option Replay × σ} {t : Option Replay × (Replay × σ × ByteArray)} (h : Same s t) :
    Same (after (Device.handler user storage) patience os s)
      (after (upper user storage patience) (fun t => patience t.2.1) os t) := by
  induction os generalizing s t with
  | nil => exact h
  | cons o os ih => exact ih (served o h).2

end Order

/-- Whatever is asked of a replaying console, it makes no difference that there is another one between
it and its user, but for the name of an error. -/
theorem stack_transparent (user : Console σ) (storage : Storage σ) (patience : σ → Nat)
    (standard : Int64) (s : σ) :
    let direct := Device.handler user storage
    let stacked := upper user storage patience
    let (opened, start) := exec (lower user) (reopen standard) (s, ByteArray.empty)
    ∃ r, opened = .ok r ∧ start.1 = s ∧
      ∀ (os : List Order) (o : Order),
        let d := Order.after direct patience os (none, s)
        let u := Order.after stacked (fun t => patience t.2.1) os (none, (r, start))
        u.1 = d.1 ∧ u.2.2.1 = d.2 ∧
          Order.Agrees direct patience d o (o.serve direct patience d).1
            (o.serve stacked (fun t => patience t.2.1) u).1 := by
  rw [exec_lower_reopen]
  refine ⟨⟨standard, [], []⟩, rfl, rfl, fun os o => ?_⟩
  have hstart : Order.Same (none, s)
      (none, ((⟨standard, [], []⟩ : Replay), (s, Journal.render [standard.decimal]))) :=
    ⟨rfl, rfl, rfl⟩
  have hafter := Order.same_after user storage patience os hstart
  exact ⟨hafter.console, hafter.beneath.same, (Order.served o hafter).1⟩

theorem stack_names_line :
    let user := Simulation.console .faultless
    let direct := Device.handler user (Simulation.storage .faultless)
    let stacked := upper user (Simulation.storage .faultless) Simulation.patience
    let w := Simulation.start [.line "a\rb"] ByteArray.empty
    let start := (exec (lower user) (reopen 7) (w, ByteArray.empty)).2
    let d := Order.after direct Simulation.patience [.reopen 420] (none, w)
    let u := Order.after stacked (fun t => t.2.1.patience) [.reopen 420] (none, (⟨7, [], []⟩, start))
    let seed := Order.act (.read fun line => Journal.parseSeed (some line))
    let x := (seed.serve direct Simulation.patience d).1
    let y := (seed.serve stacked (fun t => t.2.1.patience) u).1
    x = some (.error (.corruptSeed (some "a\rb"))) ∧ y = some (.error (.invalidEntry "a\rb")) ∧
      ¬ (y = x ∨ ∃ input, x = some (.error (.notANumber input))) := by
  intro user direct stacked w start d u seed x y
  have hx : x = some (.error (.corruptSeed (some "a\rb"))) := by decide +kernel
  have hy : y = some (.error (.invalidEntry "a\rb")) := by decide +kernel
  refine ⟨hx, hy, ?_⟩
  rw [hx, hy]
  rintro (h | ⟨input, h⟩) <;> cases h

end Replay

end DurableCalc
