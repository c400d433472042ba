import DurableCalc.Proofs.Cutoff
import DurableCalc.Proofs.Excuse

namespace DurableCalc

def Error.isOfJournal : Error → Bool
  | .corruptJournal | .corruptSeed _ | .replayMismatch _ _ _ | .trailingTrace _ _ => true
  | _ => false

namespace Session

open Attempt (exec exec_bind_ok exec_bind_error)
open Simulation (device steady Alike Readable Yields yields_advance yields_store)

inductive Barred (bytes : ByteArray) (patience : Nat) : Error → Prop where
  | unread : Barred bytes patience (.storage .reading .induced)
  | corruptJournal : Barred bytes patience .corruptJournal
  | corruptSeed (entry : Option String) : Barred bytes patience (.corruptSeed entry)
  | flaw {es : List String} {e : Error} : Journal.parse bytes = .ok es →
      Dialogue.Flaw (patience + 1) es.tail e → Barred bytes patience e

variable {s : Schedule} {settings : Settings} {n : Nat} {w : Simulation}

theorem isEmpty_iff {bytes : ByteArray} : bytes.isEmpty = true ↔ bytes = ByteArray.empty := by
  rw [ByteArray.isEmpty, beq_iff_eq, ByteArray.size_eq_zero_iff]

theorem load_cases (s : Schedule) (w : Simulation) :
    (∃ w', Alike w' w ∧ exec (device s) Attempt.load w = (.error (.storage .reading .induced), w')) ∨
      ∃ w', Alike w' w ∧ exec (device s) Attempt.load w = (.ok w.bytes, w') := by
  by_cases h : s.loadFails w.loads = true
  · refine .inl ⟨{ w with loads := w.loads + 1 }, rfl, ?_⟩
    simp only [Attempt.exec_load, device, Device.handler, Simulation.storage, Simulation.load, h,
      if_true, Attempt.blame]
  · refine .inr ⟨{ w with loads := w.loads + 1 }, rfl, ?_⟩
    simp only [Attempt.exec_load, device, Device.handler, Simulation.storage, Simulation.load, h,
      if_false, Attempt.blame, Bool.false_eq_true]

theorem parse_error {bytes : ByteArray} {e : Error} (h : Journal.parse bytes = .error e) :
    e = .corruptJournal := by
  unfold Journal.parse at h
  split at h
  · cases h
  · exact (Except.error.inj h).symm

theorem parseSeed_error {entry : Option String} {e : Error}
    (h : Journal.parseSeed entry = .error e) : ∃ x, e = .corruptSeed x := by
  unfold Journal.parseSeed at h
  split at h
  · exact ⟨_, (Except.error.inj h).symm⟩
  · split at h
    · cases h
    · exact ⟨_, (Except.error.inj h).symm⟩

theorem opens_of_parse {bytes : ByteArray} {es : List String} {seed : Int64}
    (h : Journal.parse bytes = .ok es) (hseed : Journal.parseSeed es.head? = .ok seed) :
    Journal.Opens bytes seed es.tail := by
  cases es with
  | nil => cases hseed
  | cons e es =>
      refine ⟨e, h, ?_⟩
      unfold Journal.parseSeed at hseed
      rw [List.head?_cons] at hseed
      simp only at hseed
      split at hseed
      · next seed' hread =>
          rw [hread, Except.ok.inj hseed]
      · cases hseed

theorem ensureSeed_cases (s : Schedule) (standard : Int64) (hne : w.bytes.isEmpty = false) :
    (∃ w', Alike w' w ∧
      exec (device s) (Journal.ensureSeed standard) w = (.error (.storage .reading .induced), w')) ∨
    ∃ w', Alike w' w ∧ exec (device s) (Journal.ensureSeed standard) w = (.ok (), w') := by
  rw [Journal.ensureSeed]
  rcases load_cases s w with ⟨w', hw', hload⟩ | ⟨w', hw', hload⟩
  · exact .inl ⟨w', hw', exec_bind_error hload _⟩
  · refine .inr ⟨w', hw', (exec_bind_ok hload _).trans ?_⟩
    rw [hne]
    rfl

theorem entries_cases (s : Schedule) (w : Simulation) :
    (∃ w', Alike w' w ∧
      exec (device s) Journal.entries w = (.error (.storage .reading .induced), w')) ∨
    ∃ w', Alike w' w ∧ exec (device s) Journal.entries w = (Journal.parse w.bytes, w') := by
  rw [Journal.entries]
  rcases load_cases s w with ⟨w', hw', hload⟩ | ⟨w', hw', hload⟩
  · exact .inl ⟨w', hw', exec_bind_error hload _⟩
  · exact .inr ⟨w', hw', exec_bind_ok hload _⟩

theorem exec_run_cases (s : Schedule) (settings : Settings) (n : Nat)
    (hne : w.bytes.isEmpty = false) :
    (∃ e w', exec (device s) (run settings (n + 1)) w = (.error e, w') ∧ Alike w' w ∧
      Barred w.bytes (n + 1) e) ∨
    ∃ seed trace st w', Journal.Opens w.bytes seed trace ∧
      (turn (n + 1)).retrace trace 1 none = .ok st ∧ Alike w' w ∧
      exec (device s) (run settings (n + 1)) w
        = exec (device s) (st.settle >>= fun _ => rest settings.exitPolicy (n + 1) n st.rest) w' := by
  rw [run_eq]
  rcases ensureSeed_cases s settings.defaultSeed hne with ⟨w₁, hw₁, hensure⟩ | ⟨w₁, hw₁, hensure⟩
  · exact .inl ⟨_, w₁, exec_bind_error hensure _, hw₁, .unread⟩
  rw [exec_bind_ok hensure]
  rcases entries_cases s w₁ with ⟨w₂, hw₂, hentries⟩ | ⟨w₂, hw₂, hentries⟩
  · exact .inl ⟨_, w₂, exec_bind_error hentries _, hw₂.trans hw₁, .unread⟩
  replace hw₂ := hw₂.trans hw₁
  rw [hw₁.bytes] at hentries
  cases hparse : Journal.parse w.bytes with
  | error e =>
      obtain rfl := parse_error hparse
      rw [hparse] at hentries
      exact .inl ⟨_, w₂, exec_bind_error hentries _, hw₂, .corruptJournal⟩
  | ok es =>
      rw [hparse] at hentries
      rw [exec_bind_ok hentries]
      cases hseed : Journal.parseSeed es.head? with
      | error e =>
          obtain ⟨x, rfl⟩ := parseSeed_error hseed
          exact .inl ⟨_, w₂, exec_bind_error (Attempt.exec_of ..) _, hw₂, .corruptSeed x⟩
      | ok seed =>
          rw [exec_bind_ok (Attempt.exec_of ..), resume]
          have hopens := opens_of_parse hparse hseed
          cases htrace : (turn (n + 1)).retrace es.tail 1 none with
          | error e =>
              have hflaw := (proper_turn (n + 1)).flaw htrace
              exact .inl ⟨e, w₂, rfl, hw₂, .flaw hparse hflaw⟩
          | ok st => exact .inr ⟨seed, es.tail, st, w₂, hopens, htrace, hw₂, rfl⟩

theorem settle_cases (position : Nat) (value : Int64) (hw : w.Readable) :
    (∃ expected recorded, exec (steady s) (Live.settle position value) w
        = (.error (.replayMismatch position expected recorded), w)) ∨
      Yields s (Live.settle position value) w fun _ w' =>
        w'.Readable ∧ w'.script = w.script := by
  obtain ⟨seed, trace, hopens⟩ := hw
  have hseed := Journal.exec_seed (s := s) hopens
  have hw : w.Readable := ⟨seed, trace, hopens⟩
  rw [Live.settle]
  by_cases hvalue : seed = value
  · refine .inr (Yields.bind_ok hseed ?_)
    rw [if_pos hvalue]
    exact yields_advance _ hw
  · by_cases hnext : seed = Generator.next value
    · refine .inr (Yields.bind_ok hseed ?_)
      rw [if_neg hvalue, if_neg (not_not_intro hnext)]
      exact Yields.of_ok rfl ⟨hw, rfl⟩
    · refine .inl ⟨seed.decimal, value.decimal, (exec_bind_ok hseed _).trans ?_⟩
      rw [if_neg hvalue, if_pos hnext]
      rfl

theorem exec_resumed {seed : Int64} {trace : List String} {st : Standing Bool}
    (hopens : Journal.Opens w.bytes seed trace)
    (hst : (turn (n + 1)).retrace trace 1 none = .ok st)
    (hn : w.script.length + w.bytes.size ≤ n) (policy : ExitPolicy) :
    (∃ position expected recorded,
      exec (steady s) (st.settle >>= fun _ => rest policy (n + 1) n st.rest) w
        = (.error (.replayMismatch position expected recorded), w)) ∨
      Yields s (st.settle >>= fun _ => rest policy (n + 1) n st.rest) w fun _ _ => True := by
  have hw : w.Readable := ⟨seed, trace, hopens⟩
  have hsize := hopens.length_lt_size
  have hproper := (proper_turn (n + 1)).retrace hst
  have hrest (w' : Simulation) (hw' : w'.Readable) (hscript : w'.script = w.script) :
      Yields s (rest policy (n + 1) n st.rest) w' fun _ _ => True := by
    rw [← hscript] at hn
    exact yields_rest hproper hw' (by omega) (by omega) (by omega)
  obtain ⟨drawn, d⟩ := st
  cases drawn with
  | none => exact .inr (hrest w hw rfl)
  | some drawn =>
      obtain ⟨position, value⟩ := drawn
      rcases settle_cases (s := s) position value hw with ⟨expected, recorded, h⟩ | h
      · exact .inl ⟨position, expected, recorded, exec_bind_error h _⟩
      · refine .inr (h.bind ?_)
        rintro _ w' ⟨hw', hscript⟩
        exact hrest w' hw' hscript

theorem exec_opened {seed : Int64} {trace : List String} (h : Journal.Opens w.bytes seed trace)
    (policy : ExitPolicy) (patience n : Nat) :
    exec (steady s) (do
      let es ← Journal.entries
      let _ ← Attempt.of (Journal.parseSeed es.head?)
      resume policy patience n es.tail) w = exec (steady s) (resume policy patience n trace) w := by
  obtain ⟨e, hparse, hseed⟩ := h
  have hentries : exec (steady s) Journal.entries w = (.ok (e :: trace), w) := by
    rw [Journal.exec_entries, hparse]
  have hof : exec (steady s) (Attempt.of (Journal.parseSeed (e :: trace).head?)) w
      = (.ok seed, w) := by
    rw [Attempt.exec_of, List.head?_cons, Journal.parseSeed, hseed]
  rw [exec_bind_ok hentries, exec_bind_ok hof]
  rfl

theorem exec_run {seed : Int64} {trace : List String} (h : Journal.Opens w.bytes seed trace)
    (settings : Settings) (n : Nat) :
    exec (steady s) (run settings (n + 1)) w
      = exec (steady s) (resume settings.exitPolicy (n + 1) n trace) w := by
  rw [run_eq, exec_bind_ok (Journal.exec_ensureSeed h _), exec_opened h]

theorem opens_fresh (seed : Int64) : Journal.Opens (Journal.render [seed.decimal]) seed [] :=
  Journal.opens_render (Numeral.storable_decimal seed)
    (fun _ h => nomatch h) (Numeral.readTrimmed?_decimal seed)

theorem yields_run_empty (h : w.bytes = ByteArray.empty) (hn : w.script.length < n) :
    Yields s (run settings (n + 1)) w fun _ _ => True := by
  have hensure : Yields s (Journal.ensureSeed settings.defaultSeed) w fun _ w' =>
      w'.bytes = Journal.render [settings.defaultSeed.decimal] ∧ w'.script = w.script :=
    Yields.of_eq (Journal.exec_ensureSeed_empty h _) (yields_store ⟨rfl, rfl⟩)
  rw [run_eq]
  refine hensure.bind ?_
  rintro _ w' ⟨hbytes, hscript⟩
  have hopens : Journal.Opens w'.bytes settings.defaultSeed [] := by
    rw [hbytes]
    exact opens_fresh settings.defaultSeed
  rw [← hscript] at hn
  refine Yields.of_eq (exec_opened hopens _ _ _) ?_
  exact yields_rest (proper_turn (n + 1)) ⟨_, _, hopens⟩ (by omega) (by omega) hn

inductive Verdict (w : Simulation) (patience : Nat) : Except Error Unit × Simulation → Prop where
  | ok (w' : Simulation) : Verdict w patience (.ok (), w')
  | barred {e : Error} {w' : Simulation} : Alike w' w → Barred w.bytes patience e →
      Verdict w patience (.error e, w')
  | mismatch {w' : Simulation} (position : Nat) (expected recorded : String) : Alike w' w →
      Verdict w patience (.error (.replayMismatch position expected recorded), w')
  | excused {e : Error} {w' : Simulation} : w'.Excused e → Verdict w patience (.error e, w')

theorem Verdict.of_cut {x y : Except Error Unit × Simulation} {w₀ : Simulation}
    (h : Simulation.Cut s x y) (hy : Verdict w₀ n y) : Verdict w₀ n x := by
  obtain ⟨r, w'⟩ := x
  cases h with
  | short i hi hr hlog =>
      obtain rfl : r = .error (.storage .reading .induced) := hr
      exact .excused (.storage _ _)
  | whole hr hw' =>
      cases hy with
      | ok w'' =>
          obtain rfl : r = .ok () := hr
          exact .ok w'
      | barred hsame hbarred =>
          obtain rfl := hr
          exact .barred (hw'.trans hsame) hbarred
      | mismatch position expected recorded hsame =>
          obtain rfl := hr
          exact .mismatch position expected recorded (hw'.trans hsame)
      | excused hexcused =>
          obtain rfl := hr
          exact .excused (hexcused.of_log hw'.log)

theorem Verdict.of_yields {p : Attempt Unit} {w₀ : Simulation} {Q : Unit → Simulation → Prop}
    (h : Yields s p w Q) : Verdict w₀ n (exec (steady s) p w) := by
  unfold Simulation.Yields at h
  split at h
  · next w' hp => rw [hp]; exact .ok w'
  · next e w' hp => rw [hp]; exact .excused h

theorem verdict_run (s : Schedule) (settings : Settings) (w : Simulation)
    (hn : w.script.length + w.bytes.size < n) :
    Verdict w (n + 1) (exec (device s) (run settings (n + 1)) w) := by
  cases hempty : w.bytes.isEmpty with
  | true =>
      have hbytes := isEmpty_iff.mp hempty
      refine .of_cut (Simulation.cut_exec (givesUp_run settings n) s (Alike.refl w)) ?_
      exact .of_yields (yields_run_empty hbytes (by omega))
  | false =>
      rcases exec_run_cases s settings n hempty with
        ⟨e, w', h, hsame, hbarred⟩ | ⟨seed, trace, st, w', hopens, hst, hsame, h⟩
      · rw [h]
        exact .barred hsame hbarred
      · rw [h]
        have hforthright := st.forthright_settle.bind fun _ =>
          forthright_rest settings.exitPolicy (n + 1) n st.rest
        refine .of_cut (Simulation.cut_exec hforthright.givesUp s hsame) ?_
        rcases exec_resumed (s := s) hopens hst (Nat.le_of_lt hn) settings.exitPolicy with
          ⟨position, expected, recorded, h⟩ | h
        · rw [h]
          exact .mismatch position expected recorded (Alike.refl w)
        · exact .of_yields h

theorem Barred.notANumber {bytes : ByteArray} {patience : Nat} {x : String}
    (h : Barred bytes patience (.notANumber x)) :
    ∃ es, Journal.parse bytes = .ok es ∧ x ∈ es.tail := by
  cases h with
  | flaw hparse hflaw =>
      cases hflaw with
      | notANumber x hx => exact ⟨_, hparse, hx⟩

/-- Nothing happens on the device before every entry of the trace has been taken by a call of the
command in progress, and nothing at all if the journal is no good. -/
theorem run_silent (s : Schedule) (settings : Settings) (script : List Utterance)
    (bytes : ByteArray) :
    let w := Simulation.start script bytes
    let out := w.run s settings
    (bytes ≠ ByteArray.empty →
      (out.2.log = [] ∧ out.2.bytes = bytes) ∨
      ∃ seed trace st n, Journal.Opens bytes seed trace ∧
        (turn w.patience).retrace trace 1 none = .ok st ∧
        out = exec (device s)
          (st.settle >>= fun _ => rest settings.exitPolicy w.patience (w.patience - 1) st.rest)
          { w with loads := n }) ∧
    (∀ e, out.1 = .error e → e.isOfJournal → out.2.log = [] ∧ out.2.bytes = bytes) ∧
    (∀ x, out.1 = .error (.notANumber x) →
      (out.2.log = [] ∧ out.2.bytes = bytes ∧
        ∃ es, Journal.parse bytes = .ok es ∧ x ∈ es.tail) ∨
      ∃ line log, out.2.log = .handedOut line :: log ∧ x = Text.trim line) := by
  intro w out
  have hn : w.script.length + w.bytes.size < w.patience - 1 := by
    rw [Simulation.patience]
    omega
  have hverdict : Verdict w w.patience out := verdict_run s settings w hn
  refine ⟨fun hne => ?_, fun e he hjournal => ?_, fun x hx => ?_⟩
  · have hempty : w.bytes.isEmpty = false := Bool.eq_false_iff.mpr (mt isEmpty_iff.mp hne)
    rcases exec_run_cases s settings (w.patience - 1) hempty with
      ⟨e, w', h, hsame, -⟩ | ⟨seed, trace, st, w', hopens, hst, hsame, h⟩
    · have hout : out = (.error e, w') := h
      rw [hout]
      exact .inl ⟨hsame.log, hsame.bytes⟩
    · exact .inr ⟨seed, trace, st, w'.loads, hopens, hst, by rw [← hsame]; exact h⟩
  · obtain ⟨r, w'⟩ := out
    cases hverdict with
    | ok w' => cases he
    | barred hsame => exact ⟨hsame.log, hsame.bytes⟩
    | mismatch position expected recorded hsame => exact ⟨hsame.log, hsame.bytes⟩
    | excused hexcused =>
        obtain rfl := Except.error.inj he
        cases hexcused <;> cases hjournal
  · obtain ⟨r, w'⟩ := out
    cases hverdict with
    | ok w' => cases hx
    | barred hsame hbarred =>
        obtain rfl := Except.error.inj hx
        exact .inl ⟨hsame.log, hsame.bytes, hbarred.notANumber⟩
    | mismatch position expected recorded hsame => cases hx
    | excused hexcused =>
        obtain rfl := Except.error.inj hx
        cases hexcused with
        | notANumber hlog => exact .inr ⟨_, _, hlog, rfl⟩

end Session

end DurableCalc
