import DurableCalc.Journal.Request
import DurableCalc.Proofs.Client

namespace DurableCalc

variable {σ α β : Type}

structure Device.Dependable (device : Handler Device σ) (stored : σ → ByteArray) : Prop where
  readLine : ∀ s, stored (device .readLine s).2 = stored s
  showLine : ∀ line s, stored (device (.showLine line) s).2 = stored s
  load : ∀ s, stored (device .load s).2 = stored s ∧
    ((device .load s).1 = .ok (stored s) ∨ ∃ f, (device .load s).1 = .error f)
  store : ∀ bytes s,
    ((device (.store bytes) s).1 = .ok () ∧ stored (device (.store bytes) s).2 = bytes) ∨
    ∃ f, (device (.store bytes) s).1 = .error f ∧ stored (device (.store bytes) s).2 = stored s

theorem Simulation.dependable {s : Schedule} (h : ∀ i, s.crashes i = false) :
    Device.Dependable (device s) Simulation.bytes := by
  constructor
  · intro w
    simp only [device, Device.handler, console, readLine]
    split
    · rfl
    · split <;> rfl
  · intro line w
    simp only [device, Device.handler, console, showLine]
    split <;> rfl
  · intro w
    simp only [device, Device.handler, storage, load]
    split
    · exact ⟨rfl, .inr ⟨_, rfl⟩⟩
    · exact ⟨rfl, .inl rfl⟩
  · intro bytes w
    simp only [device, Device.handler, storage, store, h]
    split
    · exact .inr ⟨_, rfl, rfl⟩
    · exact .inl ⟨rfl, rfl⟩

namespace Replay

inductive Request : Type 1 where
  | read {α : Type} (patience : Nat) (accept : String → Except Error α)
  | showLine (line : String)
  | advance (seed : Int64)
  | finish

def Request.op : Request → Op Unit
  | .read patience accept => (fun _ => ()) <$> Replay.read patience accept
  | .showLine line => Replay.showLine line
  | .advance seed => Replay.advance seed
  | .finish => Replay.finish

def after (device : Handler Device σ) (qs : List Request) (s : Replay × σ) : Replay × σ :=
  qs.foldl (fun s q => (runOn device q.op s).2) s

theorem phase_eq_live_iff {r : Replay} : r.phase = .live ↔ r.ahead = [] := by
  unfold phase
  split <;> simp_all

structure Coherent (bytes : ByteArray) (r : Replay) : Prop where
  opens : Journal.Opens bytes r.seed r.trace
  one_le : 1 ≤ r.cursor
  le_length : r.cursor ≤ r.trace.length + 1
  peek_eq : ∀ es, Journal.parse bytes = .ok es → r.peek = es[r.cursor]?

def Cached (bytes : ByteArray) (r : Replay) : Prop :=
  ∃ first, bytes = Journal.render (first :: r.trace) ∧ Numeral.readTrimmed? first = some r.seed ∧
    ∀ e ∈ first :: r.trace, Journal.Storable e

namespace Cached

variable {bytes : ByteArray} {r : Replay}

theorem opens (h : Cached bytes r) : Journal.Opens bytes r.seed r.trace := by
  obtain ⟨first, rfl, hseed, hstorable⟩ := h
  exact ⟨first, Journal.parse_render hstorable, hseed⟩

theorem coherent (h : Cached bytes r) : Coherent bytes r := by
  constructor
  · exact h.opens
  · exact Nat.le_add_left 1 r.past.length
  · simp only [cursor, trace, List.length_append, List.length_reverse]
    omega
  · intro es hes
    obtain ⟨first, hparse, -⟩ := h.opens
    obtain rfl : first :: r.trace = es := Except.ok.inj (hparse.symm.trans hes)
    rw [cursor, List.getElem?_cons_succ, trace, peek,
      List.getElem?_append_right (by rw [List.length_reverse]), List.length_reverse, Nat.sub_self]
    cases r.ahead <;> rfl

theorem consume (h : Cached bytes r) : Cached bytes r.consume := by
  obtain ⟨first, hbytes, hseed, hstorable⟩ := h
  have hkeeps : r.consume.seed = r.seed := by
    unfold Replay.consume
    split <;> rfl
  refine ⟨first, ?_, ?_, ?_⟩
  · rw [trace_consume]
    exact hbytes
  · rw [hkeeps]
    exact hseed
  · rw [trace_consume]
    exact hstorable

theorem extend (h : Cached bytes r) (hr : r.ahead = []) {e : String} (he : Journal.Storable e) :
    Cached (Journal.extended bytes e) (r.extend e) := by
  obtain ⟨first, rfl, hseed, hstorable⟩ := h
  refine ⟨first, ?_, hseed, ?_⟩
  · rw [Journal.extended_render, trace_extend hr, List.cons_append]
  · rw [trace_extend hr, ← List.cons_append]
    exact List.forall_mem_append.mpr ⟨hstorable, List.forall_mem_singleton.mpr he⟩

theorem reseed (h : Cached bytes r) (seed : Int64) :
    Cached (Journal.render (seed.decimal :: r.trace)) { r with seed } := by
  obtain ⟨first, -, -, hstorable⟩ := h
  refine ⟨seed.decimal, rfl, Numeral.readTrimmed?_decimal seed, ?_⟩
  exact List.forall_mem_cons.mpr
    ⟨Numeral.storable_decimal seed, fun e he => hstorable e (List.mem_cons_of_mem first he)⟩

theorem compacted {seed : Int64} (hr : r.ahead = []) (hseed : r.seed = seed) :
    Cached (Journal.render [seed.decimal]) { r with past := [] } := by
  have htrace : ({ r with past := [] } : Replay).trace = [] := hr
  refine ⟨seed.decimal, by rw [htrace], by rw [← hseed]; exact Numeral.readTrimmed?_decimal _, ?_⟩
  rw [htrace]
  exact List.forall_mem_singleton.mpr (Numeral.storable_decimal seed)

end Cached

end Replay

def AllOrNothing {τ ν : Type} (view : τ → ν) (t : τ) (x : Except Error α × τ)
    (Q : α → ν → Prop) : Prop :=
  match x with
  | (.ok a, t') => Q a (view t')
  | (.error _, t') => view t' = view t

namespace AllOrNothing

variable {τ ν : Type} {view : τ → ν} {t : τ} {x : Except Error α × τ}

theorem bind {y : Except Error β × τ} {k : α → τ → Except Error β × τ} {R : α → Prop}
    {Q : β → ν → Prop} (hx : AllOrNothing view t x fun a v => v = view t ∧ R a)
    (hk : ∀ a t', R a → view t' = view t → AllOrNothing view t' (k a t') Q)
    (herror : ∀ e t', x = (.error e, t') → y = (.error e, t'))
    (hok : ∀ a t', x = (.ok a, t') → y = k a t') : AllOrNothing view t y Q := by
  obtain ⟨result, t'⟩ := x
  cases result with
  | error e =>
      rw [herror e t' rfl]
      exact hx
  | ok a =>
      obtain ⟨hview, ha⟩ := hx
      have hrest := hk a t' ha hview
      rw [hok a t' rfl]
      simp only [AllOrNothing] at hrest ⊢
      rwa [hview] at hrest

theorem mono {Q Q' : α → ν → Prop} (hx : AllOrNothing view t x Q)
    (h : ∀ a v, Q a v → Q' a v) : AllOrNothing view t x Q' := by
  obtain ⟨result, t'⟩ := x
  cases result with
  | error e => exact hx
  | ok a => exact h a _ hx

theorem view_eq_or {P : ν → Prop} (hx : AllOrNothing view t x fun _ v => P v) :
    view x.2 = view t ∨ P (view x.2) := by
  obtain ⟨result, t'⟩ := x
  cases result with
  | error e => exact .inl hx
  | ok a => exact .inr hx

theorem view_eq_of_error {Q : α → ν → Prop} (hx : AllOrNothing view t x Q) {e : Error}
    (he : x.1 = .error e) : view x.2 = view t := by
  obtain ⟨result, t'⟩ := x
  cases he
  exact hx

end AllOrNothing

open Attempt (exec exec_bind_ok exec_bind_error)

variable {device : Handler Device σ} {stored : σ → ByteArray} {s : σ}

namespace Attempt

theorem allOrNothing_bind {p : Attempt α} {f : α → Attempt β} {R : α → Prop}
    {Q : β → ByteArray → Prop}
    (hp : AllOrNothing stored s (exec device p s) fun a b => b = stored s ∧ R a)
    (hf : ∀ a t, R a → stored t = stored s → AllOrNothing stored t (exec device (f a) t) Q) :
    AllOrNothing stored s (exec device (p >>= f) s) Q :=
  hp.bind hf (fun _ _ h => exec_bind_error h f) fun _ _ h => exec_bind_ok h f

theorem allOrNothing_of (x : Except Error α) :
    AllOrNothing stored s (exec device (of x) s) fun a b => b = stored s ∧ x = .ok a := by
  cases x with
  | ok a => exact ⟨rfl, rfl⟩
  | error e => rfl

end Attempt

section

variable (hd : Device.Dependable device stored)

include hd

open Attempt (allOrNothing_bind allOrNothing_of)

namespace Attempt

theorem allOrNothing_readLine :
    AllOrNothing stored s (exec device readLine s) fun _ b => b = stored s ∧ True := by
  have hsame := hd.readLine s
  rw [exec_readLine]
  cases hcall : device .readLine s with
  | mk result t =>
      rw [hcall] at hsame
      cases result with
      | ok line => exact ⟨hsame, trivial⟩
      | error e => exact hsame

theorem allOrNothing_showLine (line : String) :
    AllOrNothing stored s (exec device (showLine line) s) fun _ b => b = stored s ∧ True := by
  have hsame := hd.showLine line s
  rw [exec_showLine]
  cases hcall : device (.showLine line) s with
  | mk result t =>
      rw [hcall] at hsame
      cases result with
      | ok u => exact ⟨hsame, trivial⟩
      | error e => exact hsame

theorem allOrNothing_load :
    AllOrNothing stored s (exec device load s) fun a b => b = stored s ∧ a = stored s := by
  rw [exec_load]
  obtain ⟨hsame, hok | ⟨f, herror⟩⟩ := hd.load s
  · rw [hok]
    exact ⟨hsame, rfl⟩
  · rw [herror]
    exact hsame

theorem allOrNothing_store (operation : Operation) (bytes : ByteArray) :
    AllOrNothing stored s (exec device (store operation bytes) s) fun _ b => b = bytes := by
  rw [exec_store]
  rcases hd.store bytes s with ⟨hok, hbytes⟩ | ⟨f, herror, hsame⟩
  · rw [hok]
    exact hbytes
  · rw [herror]
    exact hsame

end Attempt

open Attempt (allOrNothing_load allOrNothing_store allOrNothing_readLine)

namespace Journal

variable {seed : Int64} {trace : List String}

theorem allOrNothing_entries :
    AllOrNothing stored s (exec device entries s) fun es b =>
      b = stored s ∧ parse (stored s) = .ok es := by
  apply allOrNothing_bind (allOrNothing_load hd)
  intro bytes t hbytes hsame
  rw [hbytes, ← hsame]
  exact allOrNothing_of _

theorem allOrNothing_seed (h : Opens (stored s) seed trace) :
    AllOrNothing stored s (exec device Journal.seed s) fun x b => b = stored s ∧ x = seed := by
  obtain ⟨first, hparse, hseed⟩ := h
  apply allOrNothing_bind (allOrNothing_entries hd)
  intro es t hes hsame
  obtain rfl : first :: trace = es := Except.ok.inj (hparse.symm.trans hes)
  rw [List.head?_cons, parseSeed, hseed]
  exact ⟨hsame, rfl⟩

theorem allOrNothing_append (entry : String) :
    AllOrNothing stored s (exec device (append entry) s) fun _ b =>
      Storable entry ∧ b = extended (stored s) entry := by
  apply allOrNothing_bind (allOrNothing_of (validate entry))
  intro u t hvalid hsame
  apply allOrNothing_bind (allOrNothing_load hd)
  intro bytes t' hbytes hsame'
  apply (allOrNothing_store hd .appending (extended bytes entry)).mono
  rintro u b rfl
  exact ⟨validate_eq_ok_iff.mp hvalid, by rw [hbytes, hsame]⟩

theorem allOrNothing_replaceSeed (h : Opens (stored s) seed trace) (next : Int64) :
    AllOrNothing stored s (exec device (replaceSeed next) s) fun _ b =>
      b = render (next.decimal :: trace) := by
  obtain ⟨first, hparse, -⟩ := h
  apply allOrNothing_bind (allOrNothing_entries hd)
  intro es t hes hsame
  obtain rfl : first :: trace = es := Except.ok.inj (hparse.symm.trans hes)
  exact allOrNothing_store hd .replacingSeed _

theorem allOrNothing_compact (h : Opens (stored s) seed trace) :
    AllOrNothing stored s (exec device compact s) fun _ b => b = render [seed.decimal] := by
  obtain ⟨first, hparse, hseed⟩ := h
  apply allOrNothing_bind (allOrNothing_entries hd)
  intro es t hes hsame
  obtain rfl : first :: trace = es := Except.ok.inj (hparse.symm.trans hes)
  rw [List.head?_cons, parseSeed, hseed]
  exact allOrNothing_store hd .compacting _

end Journal

namespace Replay

theorem allOrNothing_resume {seed : Int64} {trace : List String}
    (h : Journal.Opens (stored s) seed trace) :
    AllOrNothing stored s (exec device resume s) fun r b =>
      b = stored s ∧ r = ⟨seed, [], trace⟩ := by
  obtain ⟨first, hparse, hseed⟩ := h
  apply allOrNothing_bind (Journal.allOrNothing_entries hd)
  intro es t hes hsame
  obtain rfl : first :: trace = es := Except.ok.inj (hparse.symm.trans hes)
  rw [List.head?_cons, Journal.parseSeed, hseed]
  exact ⟨hsame, rfl⟩

theorem allOrNothing_nextLine (n : Nat) :
    AllOrNothing stored s (exec device (nextLine n) s) fun _ b => b = stored s ∧ True := by
  induction n generalizing s with
  | zero => rfl
  | succ n ih =>
      apply allOrNothing_bind (allOrNothing_readLine hd)
      intro line t _ hsame
      rw [← hsame]
      by_cases hblank : Text.isBlank line = true
      · rw [if_pos hblank]
        exact ih
      · rw [if_neg hblank]
        exact ⟨rfl, trivial⟩

end Replay

end

namespace Replay

open Journal (allOrNothing_seed allOrNothing_append allOrNothing_replaceSeed allOrNothing_compact)

def seen (stored : σ → ByteArray) (t : Replay × σ) : Replay × ByteArray :=
  (t.1, stored t.2)

variable {r : Replay}

theorem allOrNothing_lift {p : Attempt α} {Q : α → Replay × ByteArray → Prop}
    (hp : AllOrNothing stored s (exec device p s) fun a b => Q a (r, b)) :
    AllOrNothing (seen stored) (r, s) (runOn device (lift p) (r, s)) Q := by
  rw [runOn_lift]
  cases hcall : exec device p s with
  | mk result t =>
      rw [hcall] at hp
      cases result with
      | error e => exact congrArg (Prod.mk r) hp
      | ok a => exact hp

theorem allOrNothing_runOn_bind {op : Op α} {k : α → Op β} {R : α → Prop}
    {Q : β → Replay × ByteArray → Prop}
    (hop : AllOrNothing (seen stored) (r, s) (runOn device op (r, s)) fun a v =>
      v = (r, stored s) ∧ R a)
    (hk : ∀ a t, R a → stored t = stored s →
      AllOrNothing (seen stored) (r, t) (runOn device (k a) (r, t)) Q) :
    AllOrNothing (seen stored) (r, s) (runOn device (op >>= k) (r, s)) Q := by
  refine AllOrNothing.bind (k := fun a t => runOn device (k a) t) hop ?_ ?_ ?_
  · rintro a ⟨r', t⟩ ha hsame
    obtain ⟨rfl, hstored⟩ := Prod.mk.inj hsame
    exact hk a t ha hstored
  · intro e t h
    rw [runOn_bind, h]
  · intro a t h
    rw [runOn_bind, h]

theorem allOrNothing_lift_bind {p : Attempt α} {k : α → Op β} {R : α → Prop}
    {Q : β → Replay × ByteArray → Prop}
    (hp : AllOrNothing stored s (exec device p s) fun a b => b = stored s ∧ R a)
    (hk : ∀ a t, R a → stored t = stored s →
      AllOrNothing (seen stored) (r, t) (runOn device (k a) (r, t)) Q) :
    AllOrNothing (seen stored) (r, s) (runOn device (lift p >>= k) (r, s)) Q := by
  refine allOrNothing_runOn_bind (allOrNothing_lift (hp.mono ?_)) hk
  rintro a b ⟨rfl, ha⟩
  exact ⟨rfl, ha⟩

theorem allOrNothing_of_bind {x : Except Error α} {k : α → Op β}
    {Q : β → Replay × ByteArray → Prop}
    (hk : ∀ a, x = .ok a → AllOrNothing (seen stored) (r, s) (runOn device (k a) (r, s)) Q) :
    AllOrNothing (seen stored) (r, s) (runOn device (of x >>= k) (r, s)) Q := by
  cases x with
  | ok a => exact hk a rfl
  | error e => rfl

theorem allOrNothing_lift_modify {p : Attempt Unit} {f : Replay → Replay} (a : α)
    {Q : α → Replay × ByteArray → Prop}
    (hp : AllOrNothing stored s (exec device p s) fun _ b => Q a (f r, b)) :
    AllOrNothing (seen stored) (r, s)
      (runOn device (lift p >>= fun _ => modify f >>= fun _ => pure a) (r, s)) Q := by
  rw [runOn_bind, runOn_lift]
  cases hcall : exec device p s with
  | mk result t =>
      rw [hcall] at hp
      cases result with
      | error e => exact congrArg (Prod.mk r) hp
      | ok u => exact hp

def Holds (r : Replay) (v : Replay × ByteArray) : Prop :=
  Cached v.2 v.1 ∧ (r.ahead = [] → v.1.ahead = [])

section

variable (hd : Device.Dependable device stored) (hr : Cached (stored s) r)

include hd hr

theorem allOrNothing_record (hlive : r.ahead = []) (line : String) (a : α) :
    AllOrNothing (seen stored) (r, s) (runOn device (record line >>= fun _ => pure a) (r, s))
      fun _ v => Holds r v := by
  rw [record, bind_assoc]
  apply allOrNothing_lift_modify a
  apply (allOrNothing_append hd line).mono
  rintro u b ⟨hline, rfl⟩
  exact ⟨hr.extend hlive hline, fun _ => hlive⟩

theorem allOrNothing_read (patience : Nat) (accept : String → Except Error α) :
    AllOrNothing (seen stored) (r, s) (runOn device (read patience accept) (r, s))
      fun _ v => Holds r v := by
  rw [read, runOn_get_bind]
  cases hahead : r.ahead with
  | nil =>
      apply allOrNothing_lift_bind (allOrNothing_nextLine hd patience)
      intro line t _ hsame
      apply allOrNothing_of_bind
      intro a _
      rw [← hsame] at hr
      exact allOrNothing_record hd hr hahead line a
  | cons e es =>
      apply allOrNothing_of_bind
      intro a _
      refine ⟨hr.consume, fun hlive => ?_⟩
      rw [hahead] at hlive
      cases hlive

theorem allOrNothing_showLine (line : String) :
    AllOrNothing (seen stored) (r, s) (runOn device (showLine line) (r, s))
      fun _ v => Holds r v := by
  rw [showLine, runOn_get_bind]
  cases hahead : r.ahead with
  | nil =>
      apply allOrNothing_of_bind
      intro _ _
      apply allOrNothing_lift_bind (Attempt.allOrNothing_showLine hd line)
      intro _ t _ hsame
      rw [← hsame] at hr
      rw [← bind_pure (record line)]
      exact allOrNothing_record hd hr hahead line ()
  | cons e es =>
      by_cases hline : e = line
      · simp only [if_pos hline]
        refine ⟨hr.consume, fun hlive => ?_⟩
        rw [hahead] at hlive
        cases hlive
      · simp only [if_neg hline]
        rfl

theorem allOrNothing_advance (seed : Int64) :
    AllOrNothing (seen stored) (r, s) (runOn device (advance seed) (r, s))
      fun _ v => Holds r v := by
  apply allOrNothing_lift_bind (allOrNothing_seed hd hr.opens)
  intro x t _ hsame
  rw [← hsame] at hr
  by_cases hx : x ≠ seed
  · rw [if_pos hx, ← bind_pure (modify _)]
    apply allOrNothing_lift_modify ()
    apply (allOrNothing_replaceSeed hd hr.opens seed).mono
    rintro u b rfl
    exact ⟨hr.reseed seed, id⟩
  · rw [if_neg hx]
    exact ⟨hr, id⟩

theorem allOrNothing_finish :
    AllOrNothing (seen stored) (r, s) (runOn device finish (r, s))
      fun _ v => Holds r v := by
  rw [finish, ensureFinished, bind_assoc, runOn_get_bind]
  by_cases hahead : r.ahead ≠ []
  · simp only [if_pos hahead]
    rfl
  · have hlive : r.ahead = [] := not_not.mp hahead
    simp only [if_neg hahead, pure_bind]
    rw [← bind_pure (modify _)]
    apply allOrNothing_lift_modify ()
    apply (allOrNothing_compact hd hr.opens).mono
    rintro u b rfl
    exact ⟨.compacted hlive rfl, fun _ => hlive⟩

theorem allOrNothing_op (q : Request) :
    AllOrNothing (seen stored) (r, s) (runOn device q.op (r, s)) fun _ v => Holds r v := by
  cases q with
  | read patience accept =>
      have hread := allOrNothing_read hd hr patience accept
      rw [Request.op, ← bind_pure_comp, runOn_bind]
      generalize runOn device (read patience accept) (r, s) = x at hread ⊢
      obtain ⟨result, t⟩ := x
      cases result with
      | ok a => exact hread
      | error e => exact hread
  | showLine line => exact allOrNothing_showLine hd hr line
  | advance seed => exact allOrNothing_advance hd hr seed
  | finish => exact allOrNothing_finish hd hr

theorem holds_op (q : Request) : Holds r (seen stored (runOn device q.op (r, s)).2) := by
  rcases (allOrNothing_op hd hr q).view_eq_or with hsame | hholds
  · rw [hsame]
    exact ⟨hr, id⟩
  · exact hholds

theorem cached_after (qs : List Request) :
    Cached (stored (after device qs (r, s)).2) (after device qs (r, s)).1 := by
  induction qs generalizing r s with
  | nil => exact hr
  | cons q qs ih => exact ih (holds_op hd hr q).1

end

/-- From a console opened on valid entries, and after any calls whatever they came to: what is known
is what is stored; a call that fails leaves the console and the stored bytes as they were; and a
console that is live stays so. -/
theorem after_coherent (hd : Device.Dependable device stored) {first : String}
    {es : List String} {seed : Int64} (hstorable : ∀ e ∈ first :: es, Journal.Storable e)
    (hseed : Numeral.readTrimmed? first = some seed)
    (hs : stored s = Journal.render (first :: es)) {t : σ}
    (hopen : exec device resume s = (.ok r, t)) (qs : List Request) (q : Request) :
    let u := after device qs (r, t)
    let x := runOn device q.op u
    Coherent (stored u.2) u.1 ∧ Coherent (stored x.2.2) x.2.1 ∧
      (∀ e, x.1 = .error e → x.2.1 = u.1 ∧ stored x.2.2 = stored u.2) ∧
      (u.1.phase = .live → x.2.1.phase = .live) := by
  intro u x
  have hopens : Journal.Opens (stored s) seed es := by
    rw [hs]
    exact ⟨first, Journal.parse_render hstorable, hseed⟩
  have hresume := allOrNothing_resume hd hopens
  rw [hopen] at hresume
  obtain ⟨hsame, rfl⟩ := hresume
  have hcached : Cached (stored t) ⟨seed, [], es⟩ := ⟨first, hsame.trans hs, hseed, hstorable⟩
  have hu : Cached (stored u.2) u.1 := cached_after hd hcached qs
  have hx : Holds u.1 (x.2.1, stored x.2.2) := holds_op hd hu q
  refine ⟨hu.coherent, hx.1.coherent, fun e he => ?_, fun hlive => ?_⟩
  · have hunchanged : (x.2.1, stored x.2.2) = (u.1, stored u.2) :=
      (allOrNothing_op hd hu q).view_eq_of_error he
    exact Prod.mk.inj hunchanged
  · rw [phase_eq_live_iff] at hlive ⊢
    exact hx.2 hlive

theorem after_coherent_unread :
    let device := Simulation.device ⟨(· == 2), (· == 1), fun _ => false, (· == 4)⟩
    let w := Simulation.start ([" x ", "1"].map .line) (Journal.render ["+7", "add"])
    let r : Replay := ⟨7, [], ["add"]⟩
    let qs : List Request :=
      [.read 5 .ok, .read 5 Dialogue.number, .read 5 Dialogue.number, .advance 8]
    let t := (exec device resume w).2
    let u := after device qs (r, t)
    let x := runOn device (Request.advance 8).op u
    Device.Dependable device Simulation.bytes ∧ (∀ e ∈ ["+7", "add"], Journal.Storable e) ∧
      Numeral.readTrimmed? "+7" = some 7 ∧ exec device resume w = (.ok r, t) ∧
      x.1 = .error (.storage .reading .induced) ∧ u.1 = ⟨7, ["1", "add"], []⟩ ∧
      u.2.bytes = Journal.render ["+7", "add", "1"] ∧ Coherent u.2.bytes u.1 ∧ x.2.1 = u.1 ∧
      x.2.2.bytes = u.2.bytes := by
  intro device w r qs t u x
  have hd : Device.Dependable device Simulation.bytes := Simulation.dependable fun _ => rfl
  have hstorable : ∀ e ∈ ["+7", "add"], Journal.Storable e := by decide
  have hseed : Numeral.readTrimmed? "+7" = some 7 := by decide
  have hresult : (exec device resume w).1 = .ok r := by decide +kernel
  have hopen : exec device resume w = (.ok r, t) := Prod.ext hresult rfl
  have herror : x.1 = .error (.storage .reading .induced) := by decide +kernel
  have hknown : u.1 = ⟨7, ["1", "add"], []⟩ := by decide +kernel
  have hbytes : u.2.bytes = Journal.render ["+7", "add", "1"] := by decide +kernel
  have hu : u = after device qs (r, t) := rfl
  have hx : x = runOn device (Request.advance 8).op u := rfl
  obtain ⟨hcoherent, -, hunchanged, -⟩ :=
    after_coherent hd hstorable hseed rfl hopen qs (.advance 8)
  rw [← hu] at hcoherent hunchanged
  rw [← hx] at hunchanged
  exact ⟨hd, hstorable, hseed, hopen, herror, hknown, hbytes, hcoherent, hunchanged _ herror⟩

end Replay

end DurableCalc
