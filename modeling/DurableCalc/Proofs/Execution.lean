import DurableCalc.Proofs.Told
import DurableCalc.Proofs.Wire
import DurableCalc.Simulation

namespace DurableCalc

namespace Attempt

variable {σ α β : Type}

def exec (h : Handler Device σ) (p : Attempt α) (s : σ) : Except Error α × σ :=
  p.run.run h s

variable (h : Handler Device σ)

@[simp] theorem exec_pure (a : α) (s : σ) : exec h (pure a) s = (.ok a, s) := rfl

@[simp] theorem exec_throw (e : Error) (s : σ) : exec h (throw e : Attempt α) s = (.error e, s) :=
  rfl

@[simp] theorem exec_of (x : Except Error α) (s : σ) : exec h (of x) s = (x, s) := rfl

@[simp] theorem exec_readLine (s : σ) : exec h readLine s = h .readLine s := rfl

@[simp] theorem exec_showLine (line : String) (s : σ) :
    exec h (showLine line) s = h (.showLine line) s := rfl

@[simp] theorem exec_load (s : σ) :
    exec h load s = (blame .reading (h .load s).1, (h .load s).2) := rfl

@[simp] theorem exec_store (operation : Operation) (bytes : ByteArray) (s : σ) :
    exec h (store operation bytes) s
      = (blame operation (h (.store bytes) s).1, (h (.store bytes) s).2) := rfl

theorem exec_bind (p : Attempt α) (f : α → Attempt β) (s : σ) :
    exec h (p >>= f) s
      = match exec h p s with
        | (.ok a, t) => exec h (f a) t
        | (.error e, t) => (.error e, t) := by
  simp only [exec, ExceptT.run_bind, Program.run_bind]
  obtain ⟨result, t⟩ := Program.run h p.run s
  cases result <;> rfl

variable {h}

theorem exec_bind_ok {p : Attempt α} {s t : σ} {a : α} (hp : exec h p s = (.ok a, t))
    (f : α → Attempt β) : exec h (p >>= f) s = exec h (f a) t := by
  rw [exec_bind, hp]

theorem exec_bind_error {p : Attempt α} {s t : σ} {e : Error} (hp : exec h p s = (.error e, t))
    (f : α → Attempt β) : exec h (p >>= f) s = (.error e, t) := by
  rw [exec_bind, hp]

end Attempt

theorem Program.run_preserves {I : Interface} {σ α : Type} {h : Handler I σ} {P : σ → Prop}
    (hstep : ∀ c s, P s → P (h c s).2) (p : Program I α) {s : σ} (hs : P s) :
    P (p.run h s).2 := by
  induction p generalizing s with
  | done a => exact hs
  | call c next ih => exact ih _ (hstep c s hs)

namespace Simulation

def steady (s : Schedule) : Handler Device Simulation
  | .readLine, w => readLine s w
  | .showLine line, w => showLine s line w
  | .load, w => (.ok w.bytes, w)
  | .store bytes, w => store s bytes w

def called (w : Simulation) (e : Event) (script : List Utterance) : Simulation :=
  { w with script, calls := w.calls + 1, log := e :: w.log }

def written (w : Simulation) (e : Event) (bytes : ByteArray) : Simulation :=
  { w with bytes, writes := w.writes + 1, log := e :: w.log }

section

variable (w : Simulation) (e : Event) (script : List Utterance) (bytes : ByteArray)

@[simp] theorem called_bytes : (w.called e script).bytes = w.bytes := rfl
@[simp] theorem called_script : (w.called e script).script = script := rfl
@[simp] theorem called_calls : (w.called e script).calls = w.calls + 1 := rfl
@[simp] theorem called_writes : (w.called e script).writes = w.writes := rfl
@[simp] theorem called_log : (w.called e script).log = e :: w.log := rfl
@[simp] theorem written_bytes : (w.written e bytes).bytes = bytes := rfl
@[simp] theorem written_script : (w.written e bytes).script = w.script := rfl
@[simp] theorem written_calls : (w.written e bytes).calls = w.calls := rfl
@[simp] theorem written_writes : (w.written e bytes).writes = w.writes + 1 := rfl
@[simp] theorem written_log : (w.written e bytes).log = e :: w.log := rfl

end

open Attempt (exec)

theorem exec_readLine_cases (s : Schedule) (w : Simulation) :
    exec (steady s) Attempt.readLine w
        = (.error (.transport .induced), w.called .readFailed w.script) ∨
    (w.script = [] ∧
      exec (steady s) Attempt.readLine w = (.error .inputClosed, w.called .ended [])) ∨
    (∃ text rest, w.script = .failure text :: rest ∧ exec (steady s) Attempt.readLine w
        = (.error (.transport (.other text)), w.called .readFailed rest)) ∨
    ∃ line rest, w.script = .line line :: rest ∧
      exec (steady s) Attempt.readLine w = (.ok line, w.called (.handedOut line) rest) := by
  obtain ⟨script, bytes, calls, loads, writes, log⟩ := w
  simp only [Attempt.exec_readLine, steady, readLine]
  split
  · exact .inl rfl
  · refine .inr ?_
    match script with
    | [] => exact .inl ⟨rfl, rfl⟩
    | .failure text :: rest => exact .inr (.inl ⟨text, rest, rfl, rfl⟩)
    | .line line :: rest => exact .inr (.inr ⟨line, rest, rfl, rfl⟩)

theorem exec_showLine_cases (s : Schedule) (line : String) (w : Simulation) :
    exec (steady s) (Attempt.showLine line) w
        = (.error (.transport .induced), w.called (.showFailed line) w.script) ∨
    exec (steady s) (Attempt.showLine line) w = (.ok (), w.called (.shown line) w.script) := by
  simp only [Attempt.exec_showLine, steady, showLine]
  split
  · exact .inl rfl
  · exact .inr rfl

theorem exec_store_cases (s : Schedule) (operation : Operation) (bytes : ByteArray)
    (w : Simulation) :
    exec (steady s) (Attempt.store operation bytes) w
        = (.ok (), w.written (.stored bytes) bytes) ∨
    exec (steady s) (Attempt.store operation bytes) w
        = (.error (.storage operation .induced), w.written (.lost bytes) w.bytes) ∨
    exec (steady s) (Attempt.store operation bytes) w
        = (.error (.storage operation .induced), w.written (.crashed bytes) bytes) := by
  simp only [Attempt.exec_store, steady, store]
  split
  · exact .inr (.inl rfl)
  · split
    · exact .inr (.inr rfl)
    · exact .inl rfl

end Simulation

namespace Journal

open Attempt (exec exec_bind_ok exec_bind_error)
open Simulation (steady)

variable {s : Schedule} {w : Simulation} {seed : Int64} {trace : List String}

theorem exec_entries (s : Schedule) (w : Simulation) :
    exec (steady s) entries w = (parse w.bytes, w) := rfl

theorem exec_seed (h : Opens w.bytes seed trace) :
    exec (steady s) Journal.seed w = (.ok seed, w) := by
  obtain ⟨e, hparse, hseed⟩ := h
  have hentries : exec (steady s) entries w = (.ok (e :: trace), w) := by
    rw [exec_entries, hparse]
  rw [Journal.seed, exec_bind_ok hentries, List.head?_cons, parseSeed, hseed]
  rfl

theorem exec_append {entry : String} (h : Storable entry) :
    exec (steady s) (append entry) w
      = exec (steady s) (Attempt.store .appending (extended w.bytes entry)) w := by
  have hvalid : exec (steady s) (Attempt.of (validate entry)) w = (.ok (), w) := by
    rw [Attempt.exec_of, validate_eq_ok_iff.mpr h]
  rw [append, exec_bind_ok hvalid]
  rfl

theorem exec_append_refused {entry : String} (h : ¬ Storable entry) :
    exec (steady s) (append entry) w = (.error (.invalidEntry entry), w) := by
  have hinvalid : exec (steady s) (Attempt.of (validate entry)) w
      = (.error (.invalidEntry entry), w) := by
    rw [Attempt.exec_of, validate, if_neg h]
  rw [append, exec_bind_error hinvalid]

theorem exec_ensureSeed (h : Opens w.bytes seed trace) (standard : Int64) :
    exec (steady s) (ensureSeed standard) w = (.ok (), w) := by
  have hload : exec (steady s) Attempt.load w = (.ok w.bytes, w) := rfl
  rw [ensureSeed, exec_bind_ok hload, h.not_isEmpty]
  rfl

theorem exec_ensureSeed_empty (h : w.bytes = ByteArray.empty) (standard : Int64) :
    exec (steady s) (ensureSeed standard) w
      = exec (steady s) (Attempt.store .appending (render [standard.decimal])) w := by
  have hload : exec (steady s) Attempt.load w = (.ok ByteArray.empty, w) := by rw [← h]; rfl
  have hextended : extended w.bytes standard.decimal = render [standard.decimal] := by
    rw [h]
    exact extended_render [] standard.decimal
  rw [ensureSeed, exec_bind_ok hload, ← hextended,
    ← exec_append (Numeral.storable_decimal standard)]
  rfl

theorem exec_replaceSeed (h : Opens w.bytes seed trace) (next : Int64) :
    exec (steady s) (replaceSeed next) w
      = exec (steady s) (Attempt.store .replacingSeed (render (next.decimal :: trace))) w := by
  obtain ⟨e, hparse, -⟩ := h
  have hentries : exec (steady s) entries w = (.ok (e :: trace), w) := by
    rw [exec_entries, hparse]
  rw [replaceSeed, exec_bind_ok hentries]

theorem exec_compact (h : Opens w.bytes seed trace) :
    exec (steady s) compact w
      = exec (steady s) (Attempt.store .compacting (render [seed.decimal])) w := by
  obtain ⟨e, hparse, hseed⟩ := h
  have hentries : exec (steady s) entries w = (.ok (e :: trace), w) := by
    rw [exec_entries, hparse]
  have hof : exec (steady s) (Attempt.of (parseSeed (e :: trace).head?)) w = (.ok seed, w) := by
    rw [Attempt.exec_of, List.head?_cons, parseSeed, hseed]
  rw [compact, exec_bind_ok hentries, exec_bind_ok hof]

end Journal

end DurableCalc
