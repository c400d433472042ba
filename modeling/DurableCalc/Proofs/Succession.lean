import DurableCalc.Proofs.Reference
import Mathlib.Data.List.Chain
import Mathlib.Logic.Function.Iterate

namespace DurableCalc

open Command (count draws)

namespace Calculator

theorem successive_next (k : Nat) (x : Int64) :
    successive k (Generator.next x) = (Generator.orbit k x, Generator.next^[k + 1] x) := by
  induction k generalizing x with
  | zero => rfl
  | succ k ih =>
      rw [successive, ih]
      rfl

end Calculator

def Generator.Follows (x y : Int64) : Prop :=
  y = next x

namespace Dialogue

open Generator (Follows)

variable {α : Type} {previous : Option Int64} {values : List Int64} {k position : Nat}
  {drawn : Option (Nat × Int64)} {f : Unit → Dialogue α}

theorem retrace_draws (hne : values ≠ [])
    (h : List.IsChain Follows (previous.toList ++ values)) :
    (draws (values.length + k) previous >>= f).retrace (values.map Int64.decimal) position drawn
      = .ok ⟨some (position + values.length - 1, values.getLast hne),
          draws k (some (values.getLast hne)) >>= f⟩ := by
  induction values generalizing previous position drawn with
  | nil => exact absurd rfl hne
  | cons value values ih =>
      have hvalue : ∀ x, previous = some x → Follows x value := by
        rintro x rfl
        exact h.rel
      have hrest : List.IsChain Follows ((some value).toList ++ values) := by
        cases previous with
        | none => exact h
        | some x => exact h.tail
      have hdraw : Replay.recordedDraw position previous value.decimal = .ok value :=
        Session.recordedDraw_decimal hvalue
      rw [List.length_cons, Nat.add_right_comm, draws, bind_assoc, List.map_cons]
      show Dialogue.retrace _ position drawn (.call (.draw previous) _) = _
      rw [Dialogue.retrace, hdraw]
      by_cases hvalues : values = []
      · subst hvalues
        rw [List.length_nil, Nat.zero_add]
        rfl
      · rw [List.getLast_cons hvalues, Nat.add_comm values.length 1, ← Nat.add_assoc]
        exact ih hvalues hrest

end Dialogue

namespace Session

open Generator (Follows)

variable {values : List Int64} {n : Int64} {patience : Nat}

def randTrace (n : Int64) (values : List Int64) : List String :=
  "rand" :: n.decimal :: values.map Int64.decimal

theorem storable_randTrace (n : Int64) (values : List Int64) :
    ∀ e ∈ randTrace n values, Journal.Storable e := by
  refine List.forall_mem_cons.mpr ⟨by decide, List.forall_mem_cons.mpr
    ⟨Numeral.storable_decimal n, fun e he => ?_⟩⟩
  obtain ⟨value, -, rfl⟩ := List.mem_map.mp he
  exact Numeral.storable_decimal value

theorem retrace_rand (values : List Int64) :
    (turn patience).retrace (randTrace n values) 1 none
      = (draws (count n) none >>= fun _ => pure false).retrace (values.map Int64.decimal) 3 none := by
  have hname : Command.ofName "rand" = .rand := by decide
  have hnamed : named patience "rand"
      = Dialogue.askNumber >>= fun m => draws (count m) none >>= fun _ => pure false := by
    rw [named, hname]
    rfl
  have hcount : Dialogue.number n.decimal = .ok n := by
    rw [Dialogue.number, Numeral.readTrimmed?_decimal]
  rw [randTrace, retrace_named, hnamed]
  show Dialogue.retrace _ 2 none (.call (.ask Dialogue.number) _) = _
  rw [Dialogue.retrace, hcount]
  rfl

structure Breaks (asked : Nat) (values : List Int64) (j : Nat) (before value : Int64) : Prop where
  two_le : 2 ≤ j
  le_asked : j ≤ asked
  at_before : values[j - 2]? = some before
  at_value : values[j - 1]? = some value
  ne_next : value ≠ Generator.next before

theorem isChain_take {asked k : Nat} (hk : k ≤ asked)
    (h : ∀ j ≤ k, ∀ before value, ¬ Breaks asked values j before value) :
    List.IsChain Follows (values.take k) := by
  rw [List.isChain_iff_getElem]
  intro i hi
  by_contra hbreaks
  rw [List.length_take] at hi
  refine h (i + 2) (by omega) values[i] values[i + 1] ⟨by omega, by omega, ?_, ?_, ?_⟩
  · exact List.getElem?_eq_getElem _
  · exact List.getElem?_eq_getElem _
  · intro hvalue
    apply hbreaks
    rw [List.getElem_take, List.getElem_take]
    exact hvalue

theorem retrace_values {k : Nat} {last : Int64} (hk : 0 < k) (hasked : k ≤ count n)
    (hlast : values[k - 1]? = some last) (h : List.IsChain Follows (values.take k)) :
    (turn patience).retrace (randTrace n values) 1 none
      = (draws (count n - k) (some last) >>= fun _ => pure false).retrace
          ((values.drop k).map Int64.decimal) (3 + k) (some (2 + k, last)) := by
  obtain ⟨hless, rfl⟩ := List.getElem?_eq_some_iff.mp hlast
  have hlength : (values.take k).length = k := by
    rw [List.length_take]
    omega
  have hne : values.take k ≠ [] := by
    rw [← List.length_pos_iff, hlength]
    exact hk
  have hgone : (draws ((values.take k).length + (count n - k)) none >>= fun _ => pure false).retrace
      ((values.take k).map Int64.decimal) 3 none = _ := Dialogue.retrace_draws hne h
  have hend : (values.take k).getLast hne = values[k - 1] := by
    rw [List.getLast_eq_getElem, List.getElem_take]
    congr 1
    omega
  rw [hlength, hend, Nat.add_sub_cancel' hasked] at hgone
  have hall : Dialogue.retrace (_ ++ (values.drop k).map Int64.decimal) 3 none _ = _ :=
    Dialogue.retrace_append hgone
  rw [← List.map_append, List.take_append_drop, List.length_map, hlength] at hall
  have hposition : 3 + k - 1 = 2 + k := by omega
  rw [retrace_rand, hall, hposition]

theorem retrace_broken {j : Nat} {before value : Int64}
    (h : Breaks (count n) values j before value)
    (hfirst : ∀ i < j, ∀ b v, ¬ Breaks (count n) values i b v) :
    (turn patience).retrace (randTrace n values) 1 none
      = .error (.replayMismatch (2 + j) (Generator.next before).decimal value.decimal) := by
  have htwo := h.two_le
  have hasked := h.le_asked
  obtain ⟨hless, hvalue⟩ := List.getElem?_eq_some_iff.mp h.at_value
  have hchain : List.IsChain Follows (values.take (j - 1)) :=
    isChain_take (by omega) fun i hi => hfirst i (by omega)
  have hrest : values.drop (j - 1) = value :: values.drop j := by
    rw [List.drop_eq_getElem_cons hless, hvalue]
    congr 2
    omega
  have hbefore : values[j - 1 - 1]? = some before := h.at_before
  rw [retrace_values (k := j - 1) (by omega) (by omega) hbefore hchain, hrest]
  obtain ⟨k, hk⟩ : ∃ k, count n - (j - 1) = k + 1 := ⟨count n - j, by omega⟩
  have hdraw : Replay.recordedDraw (3 + (j - 1)) (some before) value.decimal
      = .error (.replayMismatch (2 + j) (Generator.next before).decimal value.decimal) := by
    have hposition : 3 + (j - 1) = 2 + j := by omega
    have hread : Numeral.read? value.decimal = some value := Numeral.read?_write value
    simp only [Replay.recordedDraw, hread, if_neg h.ne_next.symm, hposition]
  rw [hk, draws, bind_assoc, List.map_cons]
  show Dialogue.retrace _ _ _ (.call (.draw _) _) = _
  rw [Dialogue.retrace, hdraw]

theorem retrace_excess (hmore : count n < values.length)
    (h : ∀ j before value, ¬ Breaks (count n) values j before value) :
    (turn patience).retrace (randTrace n values) 1 none
      = .error (.trailingTrace (3 + count n) (values.length - count n)) := by
  obtain ⟨next, hnext⟩ : ∃ next, values.drop (count n) = next :: values.drop (count n + 1) :=
    ⟨values[count n], List.drop_eq_getElem_cons hmore⟩
  have hleft : ((values.drop (count n + 1)).map Int64.decimal).length + 1
      = values.length - count n := by
    rw [List.length_map, List.length_drop]
    omega
  rcases Nat.eq_zero_or_pos (count n) with hzero | hpos
  · rw [hzero] at hnext hleft ⊢
    have hmap : values.map Int64.decimal = (next :: values.drop 1).map Int64.decimal :=
      congrArg (List.map Int64.decimal) hnext
    rw [retrace_rand, hzero, hmap, ← hleft]
    rfl
  · have hlast : values[count n - 1]? = some values[count n - 1] := List.getElem?_eq_getElem _
    rw [retrace_values hpos (Nat.le_refl _) hlast (isChain_take (Nat.le_refl _) fun j _ => h j),
      hnext, Nat.sub_self, ← hleft]
    rfl

theorem retrace_whole (hne : values ≠ []) (hasked : values.length ≤ count n)
    (h : ∀ j before value, ¬ Breaks (count n) values j before value) :
    (turn patience).retrace (randTrace n values) 1 none
      = .ok ⟨some (2 + values.length, values.getLast hne),
          draws (count n - values.length) (some (values.getLast hne)) >>= fun _ => pure false⟩ := by
  have hpos := List.length_pos_iff.mpr hne
  have hlast : values[values.length - 1]? = some (values.getLast hne) := by
    rw [← List.getLast?_eq_getElem?, List.getLast?_eq_some_getLast hne]
  rw [retrace_values hpos hasked hlast (isChain_take hasked fun j _ => h j), List.drop_length]
  rfl

end Session

namespace Simulation

open Attempt (exec exec_bind_ok exec_bind_error)
open Session (randTrace Breaks)

variable {w w' : Simulation} {seed n : Int64} {values : List Int64} {lines : List String}

theorem settle_moves (hw : Stands w seed lines) (position : Nat) {value : Int64}
    (h : seed = value ∨ seed = Generator.next value) :
    ∃ w', Passes w w' [] (Generator.next value) lines ∧
      exec quiet (Live.settle position value) w = (.ok (), w') := by
  obtain ⟨trace, hopens⟩ := hw.opens
  rw [Live.settle, exec_bind_ok (Journal.exec_seed hopens)]
  by_cases hvalue : seed = value
  · rw [if_pos hvalue]
    exact advance_moves hw (Generator.next value)
  · obtain rfl := h.resolve_left hvalue
    rw [if_neg hvalue, if_neg (not_not_intro rfl)]
    exact ⟨w, .refl hw, rfl⟩

theorem settle_refuses (hw : Stands w seed lines) (position : Nat) {value : Int64}
    (hvalue : seed ≠ value) (hnext : seed ≠ Generator.next value) :
    exec quiet (Live.settle position value) w
      = (.error (.replayMismatch position seed.decimal value.decimal), w) := by
  obtain ⟨trace, hopens⟩ := hw.opens
  rw [Live.settle, exec_bind_ok (Journal.exec_seed hopens), if_neg hvalue, if_pos hnext]
  rfl

theorem boundary_stores (policy : ExitPolicy) (patience k : Nat) (hw : Stands w seed lines) :
    ∃ w', Stands w' seed lines ∧ Adds w w' [.stored (Journal.render [seed.decimal])] ∧
      onward policy patience (k + 1) (pure false) w
        = onward policy patience k (Session.turn patience) w' := by
  obtain ⟨trace, hopens⟩ := hw.opens
  have hexec := Journal.exec_compact (s := .faultless) hopens
  rw [exec_store_stored rfl rfl] at hexec
  refine ⟨w.written (.stored _) _, ⟨hw.script, [], Session.opens_fresh seed⟩, adds_written _ _, ?_⟩
  have hclosing : Session.rest policy patience (k + 1) (pure false)
      = Journal.compact >>= fun _ => Session.goOn policy patience (k + 1) := rfl
  rw [onward, hclosing, exec_bind_ok hexec, Session.goOn_succ]
  rfl

theorem draws_finish (policy : ExitPolicy) {patience k : Nat} (hw : Stands w seed lines)
    (position missing : Nat) {last : Int64} (hseed : seed = last ∨ seed = Generator.next last)
    (hk : lines.length < k) (hpatience : lines.length < patience) :
    let out := exec quiet (Live.settle position last >>= fun _ =>
      Session.rest policy patience (k + 1) (draws missing (some last) >>= fun _ => pure false)) w
    let seed' := Generator.next^[missing + 1] last
    let report := Calculator.play .name seed' lines
    ∃ es later, Adds w out.2 (es ++ .stored (Journal.render [seed'.decimal]) :: later) ∧
      shownLines es = (Generator.orbit missing last).map Int64.decimal ∧
      shownLines later = report.shown ∧ out.2.script = report.unread.map .line ∧
      out.1 = report.result := by
  intro out seed' report
  obtain ⟨w₁, hsettled, hsettle⟩ := settle_moves hw position hseed
  obtain ⟨w₂, hdrawn, hdraws⟩ :=
    onward_draws hsettled.stands missing (some last) fun _ => pure false
  rw [Calculator.successive_next] at hdrawn
  obtain ⟨es, hadds, hshown⟩ := (hsettled.trans hdrawn).adds
  obtain ⟨w₃, hw₃, hstored, hboundary⟩ := boundary_stores policy patience k hdrawn.stands
  have hplay : Agrees policy w₃ (onward policy patience k (Session.turn patience) w₃) report :=
    agrees_play .name hw₃ hk hpatience (Nat.lt_succ_self _)
  have hout : out = onward policy patience k (Session.turn patience) w₃ :=
    (exec_bind_ok hsettle _).trans (hdraws.trans hboundary)
  rw [← hout] at hplay
  obtain ⟨later, hlater, hreport, -⟩ := hplay.adds
  exact ⟨es, later, hadds.trans (hstored.trans hlater), hshown, hreport, hplay.script,
    hplay.result⟩

theorem outcome_of_exec {settings : Settings} {out : Except Error Unit × Simulation} {es : List Event}
    (hexec : exec quiet (Session.run settings w.patience) w = out) (hlog : w.log = [])
    (h : Adds w out.2 es) :
    (w.outcome .faultless settings).1 = ⟨out.1, es, out.2.script.length, out.2.bytes⟩ := by
  have hgivesUp : (Session.run settings w.patience).GivesUp := Session.givesUp_run settings _
  obtain ⟨hresult, hsame⟩ := cut_lasting Schedule.lasting_faultless hgivesUp w
  rw [hexec] at hresult hsame
  have hevents : (w.run .faultless settings).2.log.reverse = es := by
    have hall := hsame.log.trans h.log
    rw [hlog, List.append_nil] at hall
    have hreverse := congrArg List.reverse hall
    rwa [List.reverse_reverse] at hreverse
  have hrun : (w.outcome .faultless settings).1
      = ⟨(w.run .faultless settings).1, (w.run .faultless settings).2.log.reverse,
          (w.run .faultless settings).2.script.length, (w.run .faultless settings).2.bytes⟩ := rfl
  have hrunresult : (w.run .faultless settings).1 = out.1 := hresult
  have hrunsame : Alike (w.run .faultless settings).2 out.2 := hsame
  rw [hrun, hrunresult, hevents, hrunsame.script, hrunsame.bytes]

/-- A session that takes up `rand` goes through the values recorded, if they follow from each other, if so
many have been asked for and if the seed is at the last of them or one step past it. It then shows the
rest of the orbit, ends the command and goes on with the seed that this leaves, as the calculator
does. Otherwise it names the first entry that is amiss, and nothing happens. -/
theorem outcome_takes_up_rand (settings : Settings) (seed n : Int64) {values : List Int64}
    (hne : values ≠ []) (lines : List String) :
    let bytes := Journal.render (seed.decimal :: randTrace n values)
    let out := ((start (lines.map .line) bytes).outcome .faultless settings).1
    let last := values.getLast hne
    let refused (e : Error) := out.result = .error e ∧ out.events = [] ∧ out.bytes = bytes
    (∀ j before value, Breaks (count n) values j before value →
      (∀ i < j, ∀ b v, ¬ Breaks (count n) values i b v) →
      refused (.replayMismatch (2 + j) (Generator.next before).decimal value.decimal)) ∧
    ((∀ j before value, ¬ Breaks (count n) values j before value) →
      (count n < values.length →
        refused (.trailingTrace (3 + count n) (values.length - count n))) ∧
      (values.length ≤ count n → seed ≠ last → seed ≠ Generator.next last →
        refused (.replayMismatch (2 + values.length) seed.decimal last.decimal)) ∧
      (values.length ≤ count n → seed = last ∨ seed = Generator.next last →
        let seed' := Generator.next^[count n - values.length + 1] last
        let report := Calculator.play .name seed' lines
        ∃ es later, out.events = es ++ .stored (Journal.render [seed'.decimal]) :: later ∧
          shownLines es = (Generator.orbit (count n - values.length) last).map Int64.decimal ∧
          shownLines later = report.shown ∧ out.unread = report.unread.length ∧
          out.result = report.result)) := by
  intro bytes out last refused
  let w := start (lines.map .line) bytes
  let patience := w.patience
  have hopens : Journal.Opens w.bytes seed (randTrace n values) :=
    Session.opens_canonical seed (Session.storable_randTrace n values)
  have hw : Stands w seed lines := ⟨rfl, _, hopens⟩
  have hresume : exec quiet (Session.run settings patience) w
      = exec quiet (Session.resume settings.exitPolicy patience (patience - 1) (randTrace n values)) w :=
    Session.exec_run hopens settings (patience - 1)
  have hstays {e : Error} (h : exec quiet (Session.run settings patience) w = (.error e, w)) :
      refused e := by
    have hquiet : Adds w w [] := ⟨rfl, rfl⟩
    have hout : out = _ := outcome_of_exec h rfl hquiet
    show out.result = _ ∧ out.events = [] ∧ out.bytes = bytes
    rw [hout]
    exact ⟨rfl, rfl, rfl⟩
  have hflawed {e : Error}
      (h : (Session.turn patience).retrace (randTrace n values) 1 none = .error e) : refused e := by
    apply hstays
    rw [hresume, Session.resume, h]
    rfl
  refine ⟨fun j before value hbreaks hfirst => hflawed (Session.retrace_broken hbreaks hfirst),
    fun hchained => ⟨fun hmore => hflawed (Session.retrace_excess hmore hchained),
      fun hasked hlast hnext => ?_, fun hasked hseed => ?_⟩⟩
  · apply hstays
    rw [hresume, Session.resume, Session.retrace_whole hne hasked hchained]
    exact exec_bind_error (settle_refuses hw _ hlast hnext) _
  · intro seed' report
    obtain ⟨k, hk, hlength⟩ : ∃ k, patience - 1 = k + 1 ∧ lines.length < k := by
      have hsize : 0 < bytes.size := Nat.zero_lt_of_lt hopens.length_lt_size
      refine ⟨lines.length + bytes.size, ?_, by omega⟩
      simp only [patience, w, Simulation.patience, start, List.length_map]
      omega
    have hpatience : lines.length < patience := by omega
    obtain ⟨es, later, hadds, hshown, hreport, hscript, hresult⟩ :=
      draws_finish settings.exitPolicy hw (2 + values.length) (count n - values.length) hseed
        hlength hpatience
    rw [Session.resume, Session.retrace_whole hne hasked hchained, hk] at hresume
    change _ = exec quiet (Live.settle (2 + values.length) last >>= _) w at hresume
    have hout : out = _ := outcome_of_exec hresume rfl hadds
    refine ⟨es, later, ?_, hshown, hreport, ?_, ?_⟩
    · rw [hout]
    · rw [hout, hscript, List.length_map]
    · rw [hout]
      exact hresult

theorem outcome_takes_up_rand_420 :
    let session (seed n : Int64) (values : List Int64) (lines : List String) :=
      ((start (lines.map .line) (Journal.render (seed.decimal :: randTrace n values))).outcome
        .faultless ⟨7, .compact⟩).1
    ([420, 7058941] : List Int64) ≠ [] ∧ ([420] : List Int64) ≠ [] ∧
      Breaks (count 3) [420, 7058941] 2 420 7058941 ∧
      (∀ i < 2, ∀ b v, ¬ Breaks (count 3) [420, 7058941] i b v) ∧
      (session 528003995 3 [420, 7058941] ["exit"]).result
        = .error (.replayMismatch 4 "7058940" "7058941") ∧
      (∀ n j b v, ¬ Breaks (count n) [420] j b v) ∧
      (session 420 0 [420] ["exit"]).result = .error (.trailingTrace 3 1) ∧
      (session 5 1 [420] ["exit"]).result = .error (.replayMismatch 3 "5" "420") ∧
      ∃ es later, (session 420 2 [420] ["exit", "add"]).events
          = es ++ .stored (Journal.render ["528003995"]) :: later ∧
        shownLines es = ["7058940"] ∧ shownLines later = [] ∧
        (session 420 2 [420] ["exit", "add"]).unread = 1 ∧
        (session 420 2 [420] ["exit", "add"]).result = .ok () := by
  intro session
  have htwo : ([420, 7058941] : List Int64) ≠ [] := by decide
  have hone : ([420] : List Int64) ≠ [] := by decide
  have hbreaks : Breaks (count 3) [420, 7058941] 2 420 7058941 :=
    ⟨by decide, by decide, rfl, rfl, by decide⟩
  have hfirst : ∀ i < 2, ∀ b v, ¬ Breaks (count 3) [420, 7058941] i b v := fun i hi b v h =>
    absurd h.two_le (by omega)
  have hchained : ∀ n j b v, ¬ Breaks (count n) [420] j b v := by
    intro n j b v h
    have htwo := h.two_le
    have hnone : ([420] : List Int64)[j - 1]? = none := List.getElem?_eq_none (by simp; omega)
    cases hnone.symm.trans h.at_value
  obtain ⟨hbroken, -⟩ := outcome_takes_up_rand ⟨7, .compact⟩ 528003995 3 htwo ["exit"]
  obtain ⟨-, hnone⟩ := outcome_takes_up_rand ⟨7, .compact⟩ 420 0 hone ["exit"]
  obtain ⟨-, hastray⟩ := outcome_takes_up_rand ⟨7, .compact⟩ 5 1 hone ["exit"]
  obtain ⟨-, hresumed⟩ := outcome_takes_up_rand ⟨7, .compact⟩ 420 2 hone ["exit", "add"]
  obtain ⟨hexcess, -⟩ := hnone (hchained 0)
  obtain ⟨-, hseed, -⟩ := hastray (hchained 1)
  obtain ⟨-, -, hgoes⟩ := hresumed (hchained 2)
  obtain ⟨es, later, hevents, hshown, hlater, hunread, hend⟩ := hgoes (by decide) (.inl rfl)
  have hlast : ([420] : List Int64).getLast hone = 420 := rfl
  have hplay : Calculator.play .name (Generator.next^[count 2 - 1 + 1] 420) ["exit", "add"]
      = ⟨[], ["add"], .ok (), 528003995⟩ := by decide +kernel
  have hstored : Journal.render [(Generator.next^[count 2 - 1 + 1] 420).decimal]
      = Journal.render ["528003995"] := by decide +kernel
  rw [hlast, List.length_singleton] at hevents hshown hlater hunread hend
  rw [hplay] at hlater hunread hend
  rw [hstored] at hevents
  refine ⟨htwo, hone, hbreaks, hfirst, ?_, hchained, ?_, ?_, es, later, hevents, ?_, hlater,
    hunread, hend⟩
  · exact (hbroken 2 420 7058941 hbreaks hfirst).1.trans (by decide +kernel)
  · exact (hexcess (by decide)).1
  · have hstray : (5 : Int64) ≠ 420 ∧ (5 : Int64) ≠ Generator.next 420 := by decide
    have hrefused := (hseed (by decide) hstray.1 hstray.2).1
    rw [hlast] at hrefused
    exact hrefused.trans (by decide +kernel)
  · exact hshown.trans (by decide +kernel)

end Simulation

end DurableCalc
