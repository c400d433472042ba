import DurableCalc.Proofs.Delivery
import DurableCalc.Proofs.Forthright
import DurableCalc.Proofs.Intake

namespace DurableCalc

open Session (isFault)
open Simulation (steady)
open Terminal (Reads Holds cut cut_append decode encode)

variable {α : Type}

def Schedule.failsAt (k : Option Nat) : Schedule :=
  ⟨fun i => decide (k = some i), fun _ => false, fun _ => false, fun _ => false⟩

theorem Device.run_observed {σ β : Type} (h : Handler Device σ) (p : Program Device β) (s : σ)
    (log : List Event) :
    let out := p.run (Device.observed h) (s, log)
    (out.1, out.2.1) = p.run h s := by
  induction p generalizing s log with
  | done r => rfl
  | call c next ih => exact ih (h c s).1 (h c s).2 (Event.of c (h c s).1 ++ log)

structure Echoes (p : Program Device (Except Error α)) (lines : List String) (stored : ByteArray)
    (c : Nat) (k : Option Nat) (r : Except Error α) (stored' : ByteArray) (es : List Event) :
    Prop where
  late : ∀ i, k = some i → c ≤ i
  run : ∀ w : Simulation, w.bytes = stored → w.script = lines.map .line → w.calls = c →
    ∃ w', p.run (steady (.failsAt k)) w = (r, w') ∧ w'.bytes = stored' ∧ w'.script = [] ∧
      w'.log = es.reverse ++ w.log

section

variable {lines : List String} {stored stored' : ByteArray} {c : Nat} {k : Option Nat}
  {r : Except Error α} {es : List Event} {line : String}

theorem echoes_done (r : Except Error α) (stored : ByteArray) (c : Nat) :
    Echoes (.done r) [] stored c none r stored [] := by
  constructor
  · intro i h
    cases h
  · intro w hbytes hscript _
    exact ⟨w, rfl, hbytes, hscript, rfl⟩

theorem Echoes.passes {p : Program Device (Except Error α)}
    (h : Echoes p lines stored (c + 1) k r stored' es) : k ≠ some c := by
  intro hk
  exact absurd (h.late c hk) (Nat.not_succ_le_self c)

theorem Echoes.read {next : Except Error String → Program Device (Except Error α)}
    (h : Echoes (next (.ok line)) lines stored (c + 1) k r stored' es) :
    Echoes (.call .readLine next) (line :: lines) stored c k r stored' (.handedOut line :: es) := by
  have hpasses := h.passes
  constructor
  · intro i hi
    exact Nat.le_of_succ_le (h.late i hi)
  · intro w hbytes hscript hcalls
    obtain ⟨w', hrun, hbytes', hscript', hlog⟩ :=
      h.run (w.called (.handedOut line) (lines.map .line)) hbytes rfl (congrArg (· + 1) hcalls)
    refine ⟨w', ?_, hbytes', hscript', ?_⟩
    · rw [← hrun]
      simp [steady, Simulation.readLine, hscript, hcalls, Schedule.failsAt, hpasses,
        Simulation.called, Simulation.note]
    · simp [hlog]

theorem Echoes.show {next : Except Error Unit → Program Device (Except Error α)}
    (h : Echoes (next (.ok ())) lines stored (c + 1) k r stored' es) :
    Echoes (.call (.showLine line) next) lines stored c k r stored' (.shown line :: es) := by
  have hpasses := h.passes
  constructor
  · intro i hi
    exact Nat.le_of_succ_le (h.late i hi)
  · intro w hbytes hscript hcalls
    obtain ⟨w', hrun, hbytes', hscript', hlog⟩ :=
      h.run (w.called (.shown line) w.script) hbytes hscript (congrArg (· + 1) hcalls)
    refine ⟨w', ?_, hbytes', hscript', ?_⟩
    · rw [← hrun]
      simp [steady, Simulation.showLine, hcalls, Schedule.failsAt, hpasses, Simulation.called,
        Simulation.note]
    · simp [hlog]

theorem Echoes.load {next : Except Failure ByteArray → Program Device (Except Error α)}
    (h : Echoes (next (.ok stored)) lines stored c k r stored' es) :
    Echoes (.call .load next) lines stored c k r stored' es := by
  constructor
  · exact h.late
  · intro w hbytes hscript hcalls
    obtain ⟨w', hrun, hrest⟩ := h.run w hbytes hscript hcalls
    refine ⟨w', ?_, hrest⟩
    rw [← hrun, ← hbytes]
    rfl

theorem Echoes.store {bytes : ByteArray}
    {next : Except Failure Unit → Program Device (Except Error α)}
    (h : Echoes (next (.ok ())) lines bytes c k r stored' es) :
    Echoes (.call (.store bytes) next) lines stored c k r stored' (.stored bytes :: es) := by
  constructor
  · exact h.late
  · intro w _ hscript hcalls
    obtain ⟨w', hrun, hbytes', hscript', hlog⟩ :=
      h.run (w.written (.stored bytes) bytes) rfl hscript hcalls
    refine ⟨w', ?_, hbytes', hscript', ?_⟩
    · rw [← hrun]
      simp [steady, Simulation.store, Schedule.failsAt, Simulation.written, Simulation.note]
    · simp [hlog]

theorem echoes_ended {next : Except Error String → Program Device (Except Error α)}
    (h : next (.error .inputClosed) = .done (.error .inputClosed)) (stored : ByteArray) (c : Nat) :
    Echoes (.call .readLine next) [] stored c none (.error .inputClosed) stored [.ended] := by
  constructor
  · intro i hi
    cases hi
  · intro w hbytes hscript _
    refine ⟨w.called .ended [], ?_, hbytes, rfl, rfl⟩
    simp [steady, Simulation.readLine, hscript, Schedule.failsAt, h, Simulation.called,
      Simulation.note]

theorem echoes_unshown {next : Except Error Unit → Program Device (Except Error α)}
    (h : ∀ e, next (.error e) = .done (.error e)) (line : String) (stored : ByteArray) (c : Nat) :
    Echoes (.call (.showLine line) next) [] stored c (some c) (.error (.transport .induced)) stored
      [.showFailed line] := by
  constructor
  · intro i hi
    exact Nat.le_of_eq (Option.some.inj hi)
  · intro w hbytes hscript hcalls
    refine ⟨w.called (.showFailed line) [], ?_, hbytes, rfl, rfl⟩
    simp [steady, Simulation.showLine, hscript, hcalls, Schedule.failsAt, h, Simulation.called,
      Simulation.note]

end

theorem Terminal.write_cases (bytes : ByteArray) (t : Terminal) :
    (∃ room, t.write bytes = (.ok (), { t with output := t.output ++ bytes, room }) ∧
      (t.room = none → room = none)) ∨
    ∃ n, t.room = some n ∧ t.write bytes = (.error (.other "sink full"),
      { t with output := t.output ++ bytes.extract 0 n, room := some (n - bytes.size) }) := by
  unfold write
  cases hroom : t.room with
  | none => exact .inl ⟨none, by simp, fun _ => rfl⟩
  | some n =>
      by_cases hsize : bytes.size ≤ n
      · have hwhole : bytes.extract 0 n = bytes := by
          apply ByteArray.ext
          simp only [ByteArray.data_extract, Array.extract_eq_self_iff]
          exact .inr ⟨trivial, hsize⟩
        refine .inl ⟨some (n - bytes.size), ?_, nofun⟩
        simp [hsize, hwhole]
      · exact .inr ⟨n, rfl, by simp [hsize]⟩

theorem Terminal.showLine_cases (fails : Nat → Bool) (line : String) (t : Terminal) :
    (∃ t', t.showLine fails line = (.ok (), t') ∧ t'.input = t.input ∧
      t'.output = t.output ++ encode line ∧ (t.room = none → t'.room = none)) ∨
    ∃ text leftover rest t', t.showLine fails line = (.error (.transport (.other text)), t') ∧
      t'.input = t.input ∧ t'.output = t.output ++ leftover ∧ encode line = leftover ++ rest ∧
      (t.room ≠ none ∨ ∃ i, fails i = true) := by
  unfold showLine
  rcases t.write_cases (encode line) with ⟨room, hwrite, hroom⟩ | ⟨n, hroom, hwrite⟩
  · rw [hwrite]
    cases hfails : fails t.flushes with
    | false =>
        refine .inl ⟨{ t with output := t.output ++ encode line, room, flushes := t.flushes + 1 }, ?_,
          rfl, rfl, hroom⟩
        simp [flush, hfails]
    | true =>
        refine .inr ⟨"flush failed", encode line, ByteArray.empty,
          { t with output := t.output ++ encode line, room, flushes := t.flushes + 1 }, ?_, rfl, rfl,
          ByteArray.append_empty.symm, .inr ⟨_, hfails⟩⟩
        simp [flush, hfails]
  · rw [hwrite]
    refine .inr ⟨_, _, (encode line).extract n (encode line).size, _, rfl, rfl, rfl, ?_, ?_⟩
    · simp [ByteArray.extract_append_extract]
    · simp [hroom]

namespace Sitting

def printout (es : List Event) : ByteArray :=
  (Text.unlines (shownLines es)).toUTF8

inductive Printed (p : Sitting) (room : Option Nat) (before after : ByteArray) (r : Except Error α)
    (es : List Event) : Except Error α → Prop
  | whole : (∀ e ∈ es, isFault e = false) → after = before ++ printout es →
      Printed p room before after r es r
  | torn {fs : List Event} {line text : String} {leftover rest : ByteArray} :
      r = .error (.transport (.other text)) → es = fs ++ [.showFailed line] →
      (∀ e ∈ fs, isFault e = false) → after = before ++ printout es ++ leftover →
      encode line = leftover ++ rest → (room ≠ none ∨ ∃ i, p.flushFails i = true) →
      Printed p room before after r es (.error (.transport .induced))

variable {p : Sitting} {t t₁ t' : Terminal} {r r' : Except Error α} {es : List Event}

theorem printout_append (es fs : List Event) : printout (es ++ fs) = printout es ++ printout fs := by
  rw [printout, shownLines_append]
  exact Journal.render_append (shownLines es) (shownLines fs)

theorem printout_nil : printout [] = ByteArray.empty := by
  simp [printout, shownLines, Text.unlines]

theorem append_silent {e : Event} (h : e.shown? = none) (bytes : ByteArray) :
    bytes ++ printout [e] = bytes := by
  rw [printout, shownLines, List.filterMap_cons_none h]
  simp [Text.unlines]

theorem printout_shown (line : String) : printout [.shown line] = encode line := by
  have hlines : Text.unlines (shownLines [.shown line]) = line ++ "\n" := by
    simp [shownLines, List.filterMap_cons_some (f := Event.shown?) (a := .shown line) rfl,
      Text.unlines]
  rw [printout, hlines, encode]

theorem Printed.cons {room room₁ : Option Nat} {before after : ByteArray} {e : Event}
    (h : Printed p room₁ (before ++ printout [e]) after r es r') (he : isFault e = false)
    (hroom : room = none → room₁ = none) : Printed p room before after r (e :: es) r' := by
  have hmore : before ++ printout [e] ++ printout es = before ++ printout (e :: es) := by
    rw [ByteArray.append_assoc, ← printout_append]
    rfl
  cases h with
  | whole hes hafter =>
      refine .whole (List.forall_mem_cons.mpr ⟨he, hes⟩) ?_
      rw [hafter, hmore]
  | @torn fs line text leftover rest hr hes hfs hafter hline hfault =>
      refine .torn hr ?_ (List.forall_mem_cons.mpr ⟨he, hfs⟩) ?_ hline ?_
      · rw [hes, List.cons_append]
      · rw [hafter, hmore]
      · rcases hfault with hlimit | hflush
        · exact .inl fun hnone => hlimit (hroom hnone)
        · exact .inr hflush

structure Typed (p : Sitting) (program : Program Device (Except Error α)) (t : Terminal)
    (bs : List UInt8) (stored : ByteArray) (c : Nat) (log : List Event)
    (out : Except Error α × (Terminal × ByteArray) × List Event) (lines : List String)
    (k : Option Nat) (r : Except Error α) (es : List Event) : Prop where
  echoes : Echoes program lines stored c k r out.2.1.2 es
  log_eq : out.2.2 = es.reverse ++ log
  printed : Printed p t.room t.output out.2.1.1.output out.1 es r
  reads : ∃ rest, Reads bs lines rest ∧ out.2.1.1.Holds rest ∧ (.ended ∈ es → rest = [])

theorem Typed.cons {program next : Program Device (Except Error α)} {bs bs₁ : List UInt8}
    {stored stored₁ : ByteArray} {c c₁ : Nat} {log : List Event} {e : Event}
    {out : Except Error α × (Terminal × ByteArray) × List Event} {lines lines₁ : List String}
    {k : Option Nat}
    (h : p.Typed next t₁ bs₁ stored₁ c₁ (e :: log) out lines₁ k r es)
    (hechoes : Echoes program lines stored c k r out.2.1.2 (e :: es))
    (hreads : ∀ rest, Reads bs₁ lines₁ rest → Reads bs lines rest)
    (he : isFault e = false) (hended : e ≠ .ended)
    (hfirst : t₁.output = t.output ++ printout [e]) (hroom : t.room = none → t₁.room = none) :
    p.Typed program t bs stored c log out lines k r (e :: es) := by
  constructor
  · exact hechoes
  · simp [h.log_eq]
  · have hprinted := h.printed
    rw [hfirst] at hprinted
    exact hprinted.cons he hroom
  · obtain ⟨rest, hrest, hholds, hend⟩ := h.reads
    refine ⟨rest, hreads rest hrest, hholds, fun hmem => hend ?_⟩
    rcases List.mem_cons.mp hmem with hsame | hmem
    · exact absurd hsame.symm hended
    · exact hmem

def Garbled (bs : List UInt8) (result : Except Error α) : Prop :=
  result = .error (.transport .invalidText) ∧
    ∃ lines rest e, Reads bs lines rest ∧ rest ≠ [] ∧ decode (cut rest).1.toByteArray = .error e

theorem Garbled.cons {bs : List UInt8} {line : String} {result : Except Error α} (hne : bs ≠ [])
    (hdecode : decode (cut bs).1.toByteArray = .ok line)
    (h : Garbled ((cut bs).2.getD []) result) : Garbled bs result := by
  obtain ⟨hresult, lines, rest, e, hreads, hrest⟩ := h
  exact ⟨hresult, line :: lines, rest, e, .line hne hdecode hreads, hrest⟩

theorem typed_done (r : Except Error α) {bs : List UInt8} (ht : t.Holds bs) (stored : ByteArray)
    (c : Nat) (log : List Event) :
    p.Typed (.done r) t bs stored c log (r, (t, stored), log) [] none r [] := by
  constructor
  · exact echoes_done r stored c
  · rfl
  · refine .whole (List.forall_mem_nil _) ?_
    rw [printout_nil, ByteArray.append_empty]
  · exact ⟨bs, .nil bs, ht, fun h => absurd h List.not_mem_nil⟩

theorem typed_ended {next : Except Error String → Program Device (Except Error α)}
    (h : ∀ e, next (.error e) = .done (.error e)) (stored : ByteArray) (c : Nat)
    (log : List Event) (input : List Terminal.Chunk) (hinput : Terminal.Holds { t with input } []) :
    p.Typed (.call .readLine next) t [] stored c log
      (.error .inputClosed, ({ t with input }, stored), .ended :: log) [] none
      (.error .inputClosed) [.ended] := by
  constructor
  · exact echoes_ended (h .inputClosed) stored c
  · rfl
  · exact .whole (by simp [isFault]) (append_silent rfl _).symm
  · exact ⟨[], .nil [], hinput, fun _ => rfl⟩

theorem typed_unshown {line text : String} {leftover rest : ByteArray}
    {next : Except Error Unit → Program Device (Except Error α)}
    (h : ∀ e, next (.error e) = .done (.error e)) {bs : List UInt8} (ht : t.Holds bs)
    (stored : ByteArray) (c : Nat) (log : List Event) (hinput : t'.input = t.input)
    (hout : t'.output = t.output ++ leftover) (hline : encode line = leftover ++ rest)
    (hfault : t.room ≠ none ∨ ∃ i, p.flushFails i = true) :
    p.Typed (.call (.showLine line) next) t bs stored c log
      (.error (.transport (.other text)), (t', stored), .showFailed line :: log) [] (some c)
      (.error (.transport .induced)) [.showFailed line] := by
  constructor
  · exact echoes_unshown h line stored c
  · rfl
  · refine .torn rfl (List.nil_append _).symm (List.forall_mem_nil _) ?_ hline hfault
    rw [append_silent rfl]
    exact hout
  · exact ⟨bs, .nil bs, ht.of_input hinput, fun h => by simp at h⟩

theorem run_typed (p : Sitting) {program : Program Device (Except Error α)}
    (hprogram : program.Forthright) {t : Terminal} {bs : List UInt8} (ht : t.Holds bs)
    (stored : ByteArray) (c : Nat) (log : List Event) :
    let out := program.run (Device.observed p.device) ((t, stored), log)
    Garbled bs out.1 ∨ ∃ lines k r es, p.Typed program t bs stored c log out lines k r es := by
  -- what is typed for a call goes before what is typed for the program that is left after it
  induction program generalizing t bs stored c log with
  | done r => exact .inr ⟨[], none, r, [], typed_done r ht stored c log⟩
  | call call next ih =>
      cases call with
      | readLine =>
          obtain ⟨herror, hnext⟩ := hprogram
          obtain ⟨input, hread, hinput⟩ := ht.readLine
          have hcall : Device.observed p.device .readLine ((t, stored), log)
              = (decode (cut bs).1.toByteArray, (({ t with input }, stored),
                  Event.of .readLine (decode (cut bs).1.toByteArray) ++ log)) := by
            simp [Device.observed, device, Device.handler, Console.first, onFirst, Terminal.console,
              hread]
          rw [Program.run_call, hcall]
          cases hdecode : decode (cut bs).1.toByteArray with
          | ok line =>
              have hne : bs ≠ [] := by
                rintro rfl
                cases hdecode
              have hmore := ih (.ok line) (hnext line) hinput stored (c + 1) (.handedOut line :: log)
              rcases hmore with hgarbled | ⟨lines, k, r, es, htyped⟩
              · exact .inl (hgarbled.cons hne hdecode)
              · refine .inr ⟨line :: lines, k, r, .handedOut line :: es, ?_⟩
                exact htyped.cons htyped.echoes.read (fun _ => .line hne hdecode) rfl (by simp)
                  (append_silent rfl _).symm fun h => h
          | error e =>
              rw [herror e]
              by_cases hbs : bs = []
              · subst hbs
                obtain rfl := Except.error.inj hdecode
                exact .inr ⟨[], none, _, [.ended], typed_ended herror stored c log input hinput⟩
              · left
                obtain rfl := Terminal.decode_garbled (Terminal.cut_ne_nil hbs) hdecode
                exact ⟨rfl, [], bs, _, .nil bs, hbs, hdecode⟩
      | showLine line =>
          obtain ⟨herror, hnext⟩ := hprogram
          have hcall : Device.observed p.device (.showLine line) ((t, stored), log)
              = ((t.showLine p.flushFails line).1, (((t.showLine p.flushFails line).2, stored),
                  Event.of (.showLine line) (t.showLine p.flushFails line).1 ++ log)) := rfl
          rw [Program.run_call, hcall]
          rcases t.showLine_cases p.flushFails line with
            ⟨t₁, hshow, hinput, hout, hroom⟩ |
            ⟨text, leftover, rest, t₁, hshow, hinput, hout, hline, hfault⟩
          · have hmore := ih (.ok ()) hnext (ht.of_input hinput) stored (c + 1) (.shown line :: log)
            rw [hshow]
            rcases hmore with hgarbled | ⟨lines, k, r, es, htyped⟩
            · exact .inl hgarbled
            · refine .inr ⟨lines, k, r, .shown line :: es, ?_⟩
              refine htyped.cons htyped.echoes.show (fun _ h => h) rfl (by simp) ?_ hroom
              rw [hout, printout_shown]
          · rw [hshow, herror]
            refine .inr ⟨[], some c, .error (.transport .induced), [.showFailed line], ?_⟩
            exact typed_unshown herror ht stored c log hinput hout hline hfault
      | load =>
          rcases ih (.ok stored) (hprogram.2 stored) ht stored c log with
            hgarbled | ⟨lines, k, r, es, htyped⟩
          · exact .inl hgarbled
          · refine .inr ⟨lines, k, r, es, ?_⟩
            exact ⟨htyped.echoes.load, htyped.log_eq, htyped.printed, htyped.reads⟩
      | store bytes =>
          rcases ih (.ok ()) hprogram.2 ht bytes c (.stored bytes :: log) with
            hgarbled | ⟨lines, k, r, es, htyped⟩
          · exact .inl hgarbled
          · refine .inr ⟨lines, k, r, .stored bytes :: es, ?_⟩
            exact htyped.cons htyped.echoes.store (fun _ h => h) rfl (by simp)
              (append_silent rfl _).symm fun h => h

end Sitting

end DurableCalc
