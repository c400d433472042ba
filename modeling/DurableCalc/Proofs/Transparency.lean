import DurableCalc.Proofs.Client

namespace DurableCalc

open Dialogue (Drawless Answer Recalled)

namespace Journal

structure Kept (bytes : ByteArray) (seed : Int64) (trace : List String) : Prop where
  opens : Opens bytes seed trace
  ends : trace = [] ∨ terminated bytes = bytes

theorem terminated_extended (bytes : ByteArray) (e : String) :
    terminated (extended bytes e) = extended bytes e := by
  have hpush : extended bytes e = (terminated bytes ++ e.toUTF8).push terminator := by
    rw [extended, render_line, ← push_terminator, ← ByteArray.append_toByteArray_singleton,
      ← ByteArray.append_toByteArray_singleton, ByteArray.append_assoc]
  rw [hpush, terminated_push, if_pos rfl]

theorem parse_extended_terminated {bytes : ByteArray} {es : List String} {e : String}
    (h : parse bytes = .ok es) (hends : terminated bytes = bytes) (he : Storable e) :
    parse (extended bytes e) = .ok (es ++ [e]) := by
  obtain ⟨text, rfl, rfl⟩ := exists_text_of_parse h
  rw [extended]
  rcases terminated_toUTF8 text with ⟨rfl, ht⟩ | ⟨start, rfl, ht⟩ | ht
  · have hrender := parse_render (List.forall_mem_singleton.mpr he)
    have hnone : entriesOf "" = [] := rfl
    rw [ht, hnone]
    simpa using hrender
  · rw [ht, parse_newline_append he]
  · have hlonger : (text ++ "\n").toUTF8 = text.toUTF8 := ht.symm.trans hends
    have hsize := congrArg ByteArray.size hlonger
    simp at hsize

theorem Kept.extended {bytes : ByteArray} {seed : Int64} {trace : List String} {e : String}
    (h : Kept bytes seed trace) (he : Storable e) : Kept (extended bytes e) seed (trace ++ [e]) := by
  obtain ⟨first, hparse, hseed⟩ := h.opens
  refine ⟨?_, .inr (terminated_extended bytes e)⟩
  rcases h.ends with rfl | hends
  · obtain ⟨es, hes, htrim⟩ := parse_extended hparse he
    obtain ⟨first', rfl, hfirst⟩ := List.map_eq_singleton_iff.mp htrim
    refine ⟨first', hes, ?_⟩
    rw [Numeral.readTrimmed?, hfirst]
    exact hseed
  · exact ⟨first, parse_extended_terminated hparse hends he, hseed⟩

theorem Kept.extended_all {bytes : ByteArray} {seed : Int64} {trace es : List String}
    (h : Kept bytes seed trace) (hes : ∀ e ∈ es, Storable e) :
    Kept (es.foldl Journal.extended bytes) seed (trace ++ es) := by
  induction es generalizing bytes trace with
  | nil =>
      rw [List.append_nil]
      exact h
  | cons e es ih =>
      obtain ⟨he, hothers⟩ := List.forall_mem_cons.mp hes
      rw [List.append_cons]
      exact ih (h.extended he) hothers

end Journal

namespace Calm

open Session (isFault)

variable {α : Type}

theorem hear_unharmed (bytes : ByteArray) (lines : List String) :
    ∀ e ∈ (hear bytes lines).events, isFault e = false := by
  induction lines with
  | nil => exact List.forall_mem_singleton.mpr rfl
  | cons line lines ih =>
      rw [hear]
      split
      · exact List.forall_mem_cons.mpr ⟨rfl, ih⟩
      · exact List.forall_mem_singleton.mpr rfl

theorem reply_unharmed (c : Dialogue.Call) (bytes : ByteArray) (lines : List String) :
    ∀ e ∈ (reply c bytes lines).events, isFault e = false := by
  cases c with
  | ask accept =>
      have hheard := hear_unharmed bytes lines
      rw [reply, ask]
      split
      · exact hheard
      · rw [take]
        split
        · exact hheard
        · split
          · exact List.forall_mem_append.mpr ⟨hheard, List.forall_mem_singleton.mpr rfl⟩
          · exact hheard
  | tell line =>
      rw [reply, tell]
      split
      · exact List.forall_mem_cons.mpr ⟨rfl, List.forall_mem_singleton.mpr rfl⟩
      · exact List.forall_mem_nil _
  | draw previous => exact List.forall_mem_nil _
  | stop e => exact List.forall_mem_nil _

theorem visit_unharmed (d : Dialogue α) (bytes : ByteArray) (lines : List String) :
    ∀ e ∈ (visit d bytes lines).events, isFault e = false := by
  induction d generalizing bytes lines with
  | done a => exact List.forall_mem_nil _
  | call c next ih =>
      have hreply := reply_unharmed c bytes lines
      cases hresult : (reply c bytes lines).result with
      | error e =>
          rw [visit_error hresult]
          exact hreply
      | ok a =>
          rw [visit_ok hresult]
          exact List.forall_mem_append.mpr ⟨hreply, ih a _ _⟩

end Calm

namespace Schedule

def Harms (s : Schedule) : Prop :=
  ∃ i, s.userFails i = true ∨ s.crashes i = true

theorem not_harms_faultless : ¬ Schedule.faultless.Harms := by
  rintro ⟨i, hfails | hcrashes⟩
  · cases hfails
  · cases hcrashes

end Schedule

namespace Simulation

open Attempt (exec exec_bind_ok)
open Session (isFault)

variable {ρ α : Type} {s : Schedule} {w : Simulation}

theorem Comes.alike {out out' : Except Error ρ × Simulation} {t : Turnout ρ} (h : Comes w out t)
    (hresult : out'.1 = out.1) (hsame : Alike out'.2 out.2) : Comes w out' t where
  result := hresult.trans h.result
  log := hsame.log.trans h.log
  bytes := hsame.bytes.trans h.bytes
  script := hsame.script.trans h.script

theorem Faces.alike {out out' : Except Error ρ × Simulation}
    {again : ByteArray → List String → Turnout ρ} {t : Turnout ρ} (h : Faces s w out again t)
    (hresult : out'.1 = out.1) (hsame : Alike out'.2 out.2) : Faces s w out' again t := by
  cases h with
  | calm hcomes => exact .calm (hcomes.alike hresult hsame)
  | unheard es fault lines hfails hnothing hfault ht hcomes =>
      exact .unheard es fault lines hfails hnothing hfault ht (hcomes.alike hresult hsame)
  | crashed es hcrashes hok hevents hcomes =>
      exact .crashed es hcrashes hok hevents (hcomes.alike hresult hsame)

theorem faces_reply (hs : s.Lasting) {c : Dialogue.Call}
    {next : Dialogue.Reply c → Dialogue α} (hd : Drawless (.call c next)) {lines : List String}
    (hscript : w.script = lines.map .line) :
    Faces s w (exec (device s) (Live.reply w.patience c) w) (Calm.reply c)
      (Calm.reply c w.bytes lines) := by
  obtain ⟨hresult, hsame⟩ := cut_lasting hs (Live.forthright_reply w.patience c).givesUp w
  refine Faces.alike ?_ hresult hsame
  cases c with
  | ask accept =>
      have hpatience : lines.length < w.patience := by
        rw [patience, hscript, List.length_map]
        omega
      exact faces_ask hs.loses accept hscript hpatience
  | tell line => exact faces_tell hs.loses line hscript
  | draw previous => cases hd
  | stop e => exact .calm ⟨rfl, rfl, rfl, hscript⟩

structure Made (w : Simulation) (out : Attendance α × (Replay × Simulation)) (v : Visit α) :
    Prop where
  answers : out.1.answers = v.answers
  result : out.1.result = v.result
  log : out.2.2.log = v.events.reverse ++ w.log
  bytes : out.2.2.bytes = v.bytes
  script : out.2.2.script = v.unread

inductive Fares (s : Schedule) (w : Simulation) (d : Dialogue α) (lines : List String)
    (out : Attendance α × (Replay × Simulation)) : Prop where
  | calm : Made w out (Calm.visit d w.bytes lines) → Fares s w d lines out
  | cut {es : List String} {answers : List Answer} {rest : Dialogue α} (events fs : List Event)
      {fault : Event} {lines' : List String} : s.Harms → Recalled d es answers rest →
      (∀ e ∈ es, Journal.Storable e) → isFault fault = true →
      out.2.2.log = (events ++ [fault]).reverse ++ w.log →
      out.2.2.bytes = es.foldl Journal.extended w.bytes → out.2.2.script = lines'.map .line →
      Calm.visit d w.bytes lines = (Calm.visit rest out.2.2.bytes lines').after answers fs →
      effects fs = effects (events ++ [fault]) → Fares s w d lines out

theorem Fares.call {c : Dialogue.Call} {next : Dialogue.Reply c → Dialogue α} {a : Dialogue.Reply c}
    {lines : List String} {w' : Simulation} {x : Attendance α} {z : Replay × Simulation}
    (hcomes : Comes w (.ok a, w') (Calm.reply c w.bytes lines))
    (h : Fares s w' (next a) (Calm.reply c w.bytes lines).lines (x, z)) :
    Fares s w (.call c next) lines (⟨⟨c, .ok a⟩ :: x.answers, x.result⟩, z) := by
  obtain ⟨entry, hstorable, hkeeps, hbytes⟩ := Calm.reply_keeps hcomes.result.symm
  have hvisit : Calm.visit (.call c next) w.bytes lines = _ := Calm.visit_ok hcomes.result.symm
  cases h with
  | calm hmade =>
      rw [hcomes.bytes] at hmade
      refine .calm ?_
      rw [hvisit]
      refine ⟨congrArg (_ :: ·) hmade.answers, hmade.result, ?_, hmade.bytes, hmade.script⟩
      rw [hmade.log, hcomes.log, Visit.after, List.reverse_append, List.append_assoc]
  | cut events fs hharms hrest hes hfault hlog hz hscript hleft heffects =>
      rw [hcomes.bytes] at hz hleft
      have hes' := List.forall_mem_cons.mpr ⟨hstorable, hes⟩
      refine .cut ((Calm.reply c w.bytes lines).events ++ events)
        ((Calm.reply c w.bytes lines).events ++ fs) hharms (.entry hkeeps hrest) hes' hfault ?_ ?_
        hscript ?_ ?_
      · rw [hlog, hcomes.log]
        simp only [List.reverse_append, List.append_assoc]
      · rw [hz, hbytes, List.foldl_cons]
      · rw [hvisit, hleft, Visit.after_after]
        rfl
      · rw [effects_append, heffects, List.append_assoc, effects_append _ (events ++ _)]

theorem fares_attend (hs : s.Lasting) {d : Dialogue α} (hd : Drawless d) {lines : List String}
    {r : Replay} (hr : r.ahead = []) (hscript : w.script = lines.map .line) :
    Fares s w d lines (Replay.attend (device s) patience d (r, w)) := by
  -- a call that is unheard is still to be made, one that has crashed is on record
  induction d generalizing w r lines with
  | done a => exact .calm ⟨rfl, rfl, rfl, rfl, hscript⟩
  | call c next ih =>
      have hfaces := faces_reply hs hd hscript
      have hacts : Replay.ActsAs (device s) r _ _ := Replay.actsAs_reply w.patience hd hr
      obtain ⟨r', hr', hcall⟩ := hacts w
      generalize exec (device s) (Live.reply w.patience c) w = out at hfaces hcall
      obtain ⟨result, w'⟩ := out
      cases hfaces with
      | calm hcomes =>
          cases result with
          | ok a =>
              rw [Replay.attend_ok patience hcall]
              exact Fares.call hcomes (ih a (hd.next a) hr' hcomes.script)
          | error e =>
              rw [Replay.attend_error patience hcall]
              refine .calm ?_
              rw [Calm.visit_error hcomes.result.symm]
              exact ⟨rfl, rfl, hcomes.log, hcomes.bytes, hcomes.script⟩
      | unheard es fault lines' hfails hnothing hfault ht hcomes =>
          obtain rfl := hcomes.result
          rw [Replay.attend_error patience hcall]
          refine .cut es es ⟨_, .inl hfails⟩ (.start _) (List.forall_mem_nil _) hfault hcomes.log
            hcomes.bytes hcomes.script ?_ ?_
          · rw [Calm.visit_after ht, hcomes.bytes]
          · have hnone : effects [fault] = [] := List.filterMap_cons_none hnothing
            rw [effects_append, hnone, List.append_nil]
      | crashed es hcrashes hok hevents hcomes =>
          obtain rfl := hcomes.result
          obtain ⟨entry, hstorable, hkeeps, hbytes⟩ := Calm.reply_keeps hok
          rw [Replay.attend_error patience hcall]
          refine .cut es (Calm.reply c w.bytes lines).events ⟨_, .inr hcrashes⟩
            (.entry hkeeps (.start _)) (List.forall_mem_singleton.mpr hstorable) rfl hcomes.log
            (hcomes.bytes.trans hbytes) hcomes.script ?_ ?_
          · rw [Calm.visit_ok hok, hcomes.bytes]
          · rw [hevents, effects_append, effects_append]
            rfl

theorem forthright_reopen (standard : Int64) : (Replay.reopen standard).Forthright := by
  refine (Journal.forthright_ensureSeed standard).bind fun _ => ?_
  refine Journal.forthright_entries.bind fun es => ?_
  exact (Attempt.forthright_of _).bind fun seed => Attempt.forthright_pure _

theorem exec_reopen (hs : s.Lasting) {seed : Int64} {trace : List String}
    (h : Journal.Opens w.bytes seed trace) (standard : Int64) :
    ∃ w', Alike w' w ∧ exec (device s) (Replay.reopen standard) w = (.ok ⟨seed, [], trace⟩, w') := by
  obtain ⟨hresult, hsame⟩ := cut_lasting hs (forthright_reopen standard).givesUp w
  obtain ⟨first, hparse, hseed⟩ := id h
  have hentries : exec (steady s) Journal.entries w = (.ok (first :: trace), w) := by
    rw [Journal.exec_entries, hparse]
  have hof : exec (steady s) (Attempt.of (Journal.parseSeed (first :: trace).head?)) w
      = (.ok seed, w) := by
    rw [Attempt.exec_of, List.head?_cons, Journal.parseSeed, hseed]
  have hsteady : exec (steady s) (Replay.reopen standard) w = (.ok ⟨seed, [], trace⟩, w) := by
    rw [Replay.reopen, exec_bind_ok (Journal.exec_ensureSeed h standard), Replay.resume,
      exec_bind_ok hentries, exec_bind_ok hof]
    rfl
  rw [hsteady] at hresult hsame
  exact ⟨_, hsame, Prod.ext hresult rfl⟩

theorem attempt_eq {standard : Int64} {w' : Simulation} {r : Replay}
    (h : exec (device s) (Replay.reopen standard) w = (.ok r, w')) (d : Dialogue α) :
    let out := Replay.attend (device s) patience d (r, w')
    attempt s standard d w
      = (⟨out.1.answers, out.1.result, out.2.2.log.reverse, out.2.2.bytes, out.2.2.script⟩,
          { out.2.2 with log := [] }) := by
  have hopened : (Replay.reopen standard).run.run (device s) w = (.ok r, w') := h
  rw [attempt, hopened]

theorem isInterrupted_of_fault {v : Visit α} {es : List Event} {fault : Event}
    (h : v.events = es ++ [fault]) (hfault : isFault fault = true) : v.isInterrupted = true := by
  rw [Visit.isInterrupted, h, List.getLast?_concat]
  cases fault with
  | readFailed => rfl
  | showFailed line => rfl
  | lost bytes => rfl
  | crashed bytes => rfl
  | handedOut line => cases hfault
  | ended => cases hfault
  | shown line => cases hfault
  | stored bytes => cases hfault

theorem isInterrupted_of_unharmed {v : Visit α} (h : ∀ e ∈ v.events, isFault e = false) :
    v.isInterrupted = false := by
  rw [Visit.isInterrupted]
  cases hlast : v.events.getLast? with
  | none => rfl
  | some e =>
      have hcalm := h e (List.mem_of_getLast? hlast)
      cases e with
      | readFailed => cases hcalm
      | showFailed line => cases hcalm
      | lost bytes => cases hcalm
      | crashed bytes => cases hcalm
      | handedOut line => rfl
      | ended => rfl
      | shown line => rfl
      | stored bytes => rfl

structure Underway (d : Dialogue α) (seed : Int64) (answers : List Answer) (rest : Dialogue α)
    (lines : List String) (w : Simulation) : Prop where
  log : w.log = []
  script : w.script = lines.map .line
  kept : ∃ trace, Journal.Kept w.bytes seed trace ∧ Recalled d trace answers rest

section

variable {d rest : Dialogue α} {seed : Int64} {answers : List Answer} {lines : List String}

theorem attempt_cases (hs : s.Lasting) (hd : Drawless d) (h : Underway d seed answers rest lines w)
    (standard : Int64) :
    let v := (Calm.visit rest w.bytes lines).after answers []
    let out := attempt s standard d w
    out.1 = v ∨ s.Harms ∧ out.1.isInterrupted = true ∧
      ∃ answers' rest' lines' fs, Underway d seed answers' rest' lines' out.2 ∧
        v = (Calm.visit rest' out.2.bytes lines').after answers' fs ∧
        effects fs = effects out.1.events := by
  intro v out
  obtain ⟨trace, hkept, hrecalled⟩ := h.kept
  obtain ⟨w', hsame, hopened⟩ := exec_reopen hs hkept.opens standard
  have hahead : (Replay.mk seed [] trace).ahead = trace := rfl
  obtain ⟨r, hr, hattend⟩ := Replay.attend_recalled (device s) patience hrecalled hahead w'
  have hscript : w'.script = lines.map .line := hsame.script.trans h.script
  have hlog : w'.log = [] := hsame.log.trans h.log
  have hfares := fares_attend hs (hrecalled.drawless hd) hr hscript
  have hout : out = _ := attempt_eq hopened d
  rw [hattend] at hout
  generalize Replay.attend (device s) patience rest (r, w') = result at hfares hout
  cases hfares with
  | calm hmade =>
      rw [hsame.bytes] at hmade
      left
      rw [hout]
      simp only [hmade.answers, hmade.result, hmade.log, hmade.bytes, hmade.script, hlog,
        List.append_nil, List.reverse_reverse]
      rfl
  | @cut es answers' rest' events fs fault lines' hharms hmore hes hfault hlog' hbytes hscript'
      hleft heffects =>
      rw [hsame.bytes] at hbytes hleft
      have hevents : out.1.events = events ++ [fault] := by
        rw [hout]
        simp only [hlog', hlog, List.append_nil, List.reverse_reverse]
      right
      refine ⟨hharms, isInterrupted_of_fault hevents hfault, answers ++ answers', rest', lines', fs,
        ?_, ?_, ?_⟩
      · rw [hout]
        refine ⟨rfl, hscript', trace ++ es, ?_, hrecalled.append hmore⟩
        rw [hbytes]
        exact hkept.extended_all hes
      · rw [hout]
        exact (congrArg (Visit.after answers []) hleft).trans (Visit.after_after _ _ _ _ _)
      · rw [hevents, heffects]

structure Amount (outs : List (Visit α)) (last v : Visit α) : Prop where
  answers : last.answers = v.answers
  result : last.result = v.result
  bytes : last.bytes = v.bytes
  unread : last.unread = v.unread
  effects : effects (outs.flatMap Visit.events) = effects v.events

theorem attempts_amount (hs : s.Lasting) (hd : Drawless d) (standard : Int64) (n : Nat)
    {last : Visit α} (h : Underway d seed answers rest lines w)
    (hlast : (attempts s standard d n w).getLast? = some last) (hends : last.isInterrupted = false) :
    Amount (attempts s standard d n w) last ((Calm.visit rest w.bytes lines).after answers []) := by
  -- what is left of the client shrinks, but what comes of all of it stays what it was
  induction n generalizing w answers rest lines with
  | zero => cases hlast
  | succ n ih =>
      rw [attempts] at hlast ⊢
      have hcases := attempt_cases hs hd h standard
      generalize attempt s standard d w = out at hcases hlast ⊢
      obtain ⟨v, w'⟩ := out
      rcases hcases with rfl | ⟨-, hinterrupted, answers', rest', lines', fs, hnext, hleft, heffects⟩
      · have hnot := isInterrupted_of_unharmed (v := (Calm.visit rest w.bytes lines).after answers [])
          (Calm.visit_unharmed rest w.bytes lines)
        simp only [hnot, Bool.false_eq_true, if_false] at hlast ⊢
        obtain rfl := Option.some.inj hlast
        exact ⟨rfl, rfl, rfl, rfl, congrArg effects (List.append_nil _)⟩
      · simp only [hinterrupted, if_true, List.getLast?_cons] at hlast ⊢
        cases hlater : (attempts s standard d n w').getLast? with
        | none =>
            rw [hlater] at hlast
            obtain rfl := Option.some.inj hlast
            exact absurd (hinterrupted.symm.trans hends) (by decide)
        | some u =>
            rw [hlater] at hlast
            obtain rfl := Option.some.inj hlast
            have hamount := ih hnext hlater
            rw [hleft]
            refine ⟨hamount.answers, hamount.result, hamount.bytes, hamount.unread, ?_⟩
            rw [List.flatMap_cons, effects_append, hamount.effects, ← heffects]
            exact (effects_append _ _).symm

end

/-- Any client of a replaying console that draws no random numbers is carried through crashes. Calls of
the user may fail before the user hears of them and writes may land and be reported to have failed;
when an attempt is not interrupted, its calls have given what they give without faults, and all
attempts together have had the same effects, in the same order. The help mode is such a client, and so
is one that goes on for ever, up to any number of calls. -/
theorem attempts_transparent (userFails crashes : Nat → Bool) (standard : Int64)
    (lines : List String) {bytes : ByteArray} {seed : Int64}
    (hbytes : Journal.Opens bytes seed []) :
    (∀ {α : Type} (d : Dialogue α), Drawless d → ∀ (n : Nat) (last : Visit α),
      let w := start (lines.map .line) bytes
      let outs := attempts ⟨userFails, fun _ => false, crashes, fun _ => false⟩ standard d n w
      let whole := (attempt .faultless standard d w).1
      outs.getLast? = some last → last.isInterrupted = false →
        last.answers = whole.answers ∧ last.result = whole.result ∧ last.bytes = whole.bytes ∧
          last.unread = whole.unread ∧
          effects (outs.flatMap Visit.events) = effects whole.events) ∧
      (∀ (h : Help) (n : Nat), Drawless (h.dialogue n)) ∧
      ∀ choose : List Answer → Option Dialogue.Call,
        (∀ given previous, choose given ≠ some (.draw previous)) →
          ∀ n : Nat, Drawless (Dialogue.chosen choose n []) := by
  refine ⟨?_, fun h n => h.drawless_dialogue n, fun choose h n => Dialogue.drawless_chosen h n []⟩
  intro α d hd n last w outs whole hlast hends
  have hstart : Underway d seed [] d lines w :=
    ⟨rfl, rfl, [], ⟨hbytes, .inl rfl⟩, .start d⟩
  have hlasting : Schedule.Lasting ⟨userFails, fun _ => false, crashes, fun _ => false⟩ :=
    ⟨fun _ => rfl, fun _ => rfl⟩
  have hamount := attempts_amount hlasting hd standard n hstart hlast hends
  have hwhole : whole = (Calm.visit d w.bytes lines).after [] [] := by
    rcases attempt_cases Schedule.lasting_faultless hd hstart standard with
      hcalm | ⟨hharms, -⟩
    · exact hcalm
    · exact absurd hharms Schedule.not_harms_faultless
  rw [← hwhole] at hamount
  exact ⟨hamount.answers, hamount.result, hamount.bytes, hamount.unread, hamount.effects⟩

theorem attempts_transparent_help :
    let h : Help := ⟨"hello", "a", "bye to leave", "what?", "bye", [⟨"a", "first letter"⟩]⟩
    let w := start ([" a ", "bye"].map .line) (Journal.render ["420"])
    let outs := attempts ⟨(· == 1), fun _ => false, (· == 3), fun _ => false⟩ 7 (h.dialogue 9) 9 w
    let whole := (attempt .faultless 7 (h.dialogue 9) w).1
    Journal.Opens (Journal.render ["420"]) 420 [] ∧
      outs.map Visit.isInterrupted = [true, true, false] ∧
      ∃ last, outs.getLast? = some last ∧ last.isInterrupted = false ∧
        last.answers = whole.answers ∧ last.result = whole.result ∧ last.bytes = whole.bytes ∧
        last.unread = whole.unread ∧ effects (outs.flatMap Visit.events) = effects whole.events := by
  intro h w outs whole
  have hw : w = start ([" a ", "bye"].map .line) (Journal.render ["420"]) := rfl
  have hwhole : whole = (attempt .faultless 7 (h.dialogue 9) w).1 := rfl
  have hopens : Journal.Opens (Journal.render ["420"]) 420 [] := Session.opens_fresh 420
  have houts : outs.map Visit.isInterrupted = [true, true, false] := by decide +kernel
  have hends : outs.getLast?.map Visit.isInterrupted = some false := by
    rw [← List.getLast?_map, houts]
    rfl
  obtain ⟨last, hlast, hcalm⟩ := Option.map_eq_some_iff.mp hends
  have htransparent := (attempts_transparent (· == 1) (· == 3) 7 [" a ", "bye"] hopens).1
    (h.dialogue 9) (h.drawless_dialogue 9) 9 last hlast hcalm
  rw [← hw, ← hwhole] at htransparent
  exact ⟨hopens, houts, last, hlast, hcalm, htransparent⟩

end Simulation

end DurableCalc
