import DurableCalc.Proofs.Chronicle

namespace DurableCalc

-- named, so that no other instance is taken where there are several
local instance decidableEqBytes : DecidableEq ByteArray :=
  ByteArray.instDecidableEq

deriving instance DecidableEq for Event

def unrecorded : List Event → List String
  | [] => []
  | e :: es =>
      if (es.head?.bind Event.landed?).isSome then unrecorded es
      else e.step?.toList ++ unrecorded es

theorem length_unrecorded_le (es : List Event) :
    (unrecorded es).length ≤ (es.filterMap Event.step?).length := by
  induction es with
  | nil => exact Nat.le_refl 0
  | cons e es ih =>
      have hmore : (es.filterMap Event.step?).length ≤ ((e :: es).filterMap Event.step?).length :=
        ((List.sublist_cons_self e es).filterMap Event.step?).length_le
      rw [unrecorded]
      split
      · exact Nat.le_trans ih hmore
      · cases hstep : e.step? with
        | none =>
            rw [List.filterMap_cons_none hstep]
            exact ih
        | some entry =>
            rw [List.filterMap_cons_some hstep]
            simpa using ih

theorem step?_of_landed {e : Event} {bytes : ByteArray} (h : e.landed? = some bytes) :
    e.step? = none := by
  cases e <;> first | rfl | cases h

theorem unrecorded_cons_of_none {e : Event} (h : e.step? = none) (es : List Event) :
    unrecorded (e :: es) = unrecorded es := by
  rw [unrecorded, h]
  split <;> rfl

namespace Session

variable {settings : Settings} {w : Simulation}

theorem Reaches.unrecorded_eq {b b' : ByteArray} {u u' : List Utterance} {es : List Event}
    {operation : Operation} {last : Bool} (h : Reaches settings b u es operation b' last u')
    {e : Event} (he : e.landed? = some b') (fs : List Event) :
    unrecorded (es ++ e :: fs) = unrecorded fs := by
  have hlanded : unrecorded (e :: fs) = unrecorded fs :=
    unrecorded_cons_of_none (step?_of_landed he) fs
  have hrecorded (x : Event) : unrecorded (x :: e :: fs) = unrecorded fs := by
    rw [unrecorded, List.head?_cons, Option.bind_some, he]
    exact hlanded
  cases h with
  | write => exact hlanded
  | tell => exact hrecorded _
  | ask => exact hrecorded _

theorem Trail.unrecorded_append {b b' : ByteArray} {es : List Event}
    (h : Trail settings b es b') (fs : List Event) : unrecorded (es ++ fs) = unrecorded fs := by
  induction h with
  | nil b => rfl
  | landed hreaches he htrail ih =>
      rw [List.append_assoc, List.cons_append, hreaches.unrecorded_eq he]
      exact ih
  | blank hdue hblank htrail ih =>
      have hnone : (Event.handedOut _).step? = none := if_pos hblank
      rw [List.cons_append, unrecorded_cons_of_none hnone]
      exact ih

theorem Trail.unrecorded_eq_nil {b b' : ByteArray} {es : List Event}
    (h : Trail settings b es b') : unrecorded es = [] := by
  have happend := h.unrecorded_append []
  rw [List.append_nil] at happend
  exact happend

theorem TrailBegun.length_unrecorded {b : ByteArray} {es : List Event}
    (h : TrailBegun settings b es) : (unrecorded es).length ≤ 1 := by
  obtain ⟨before, rest, b₁, rfl, htrail, hidle⟩ := h
  rw [htrail.unrecorded_append]
  exact Nat.le_trans (length_unrecorded_le rest) hidle.entries

theorem outcome_begins (s : Schedule) (settings : Settings) (hsound : Sound w.bytes)
    (hlog : w.log = []) :
    ∃ es result b' u', Course settings w.bytes w.script es result b' u' ∧
      (w.outcome s settings).1.events <+: es ∧
      ((w.outcome s settings).1.result = .ok () →
        result = .ok () ∧ (w.outcome s settings).1.events = es) := by
  obtain ⟨out, ⟨es, hcourse, hes⟩, hcut⟩ := run_course s settings hsound
  rw [hlog, List.append_nil] at hes
  refine ⟨es, out.1, out.2.bytes, out.2.script, hcourse, ?_⟩
  cases hcut with
  | whole hresult hsame =>
      have hevents : (w.outcome s settings).1.events = es := by
        have hlogs : (w.run s settings).2.log = es.reverse := hsame.log.trans hes
        exact (congrArg List.reverse hlogs).trans es.reverse_reverse
      rw [hevents]
      exact ⟨List.prefix_refl es, fun hok => ⟨hresult.symm.trans hok, rfl⟩⟩
  | short i hi hresult hsuffix =>
      have hbegun : (w.run s settings).2.log.reverse <+: es := by
        rw [← List.reverse_suffix, List.reverse_reverse, ← hes]
        exact hsuffix
      refine ⟨hbegun, fun hok => ?_⟩
      cases hresult.symm.trans hok

theorem outcome_trailBegun (s : Schedule) (settings : Settings) (hsound : Sound w.bytes)
    (hlog : w.log = []) {es : List Event} (hes : es <+: (w.outcome s settings).1.events) :
    TrailBegun settings w.bytes es := by
  obtain ⟨fs, result, b', u', hcourse, hbegun, -⟩ := outcome_begins s settings hsound hlog
  exact hcourse.trailBegun (hes.trans hbegun)

theorem outcome_calledAfter (s : Schedule) (settings : Settings) (hsound : Sound w.bytes)
    (hlog : w.log = []) {before after : List Event} {e : Event}
    (hes : (w.outcome s settings).1.events = before ++ e :: after) (he : e.isOfStorage = false) :
    CalledAfter settings w.bytes before e := by
  obtain ⟨fs, result, b', u', hcourse, ⟨gs, rfl⟩, -⟩ := outcome_begins s settings hsound hlog
  have hall : (w.outcome s settings).1.events ++ gs = before ++ e :: (after ++ gs) := by
    rw [hes, List.append_assoc, List.cons_append]
  exact hcourse.calledAfter hall he

theorem eq_nil_of_turn {steps : List String} {st : Standing Bool} {patience n : Nat}
    (hst : (turn patience).retrace steps 1 none = .ok st) (hrest : st.rest = turn n) :
    steps = [] := by
  cases steps with
  | nil => rfl
  | cons name steps =>
      rw [retrace_named] at hst
      by_cases hexit : Command.ofName name = .exit
      · rw [named_exit hexit] at hst
        cases steps with
        | nil =>
            obtain rfl := Except.ok.inj hst
            cases hrest
        | cons step steps => cases hst
      · -- a command that has been named cannot be the last one, but `turn` may come to `exit`
        have hends := (endsWith_named hexit patience).retrace hst
        rw [hrest] at hends
        have hleaves : (named n "exit").EndsWith false := hends "exit"
        have hname : Command.ofName "exit" = .exit := by decide +kernel
        rw [named_exit hname] at hleaves
        cases hleaves

def Makes (seed : Int64) : Event → Dialogue Bool → Prop
  | .shown line, .call (.tell told) _ => line = told
  | .showFailed line, .call (.tell told) _ => line = told
  | .shown line, .call (.draw _) _ => line = seed.decimal
  | .showFailed line, .call (.draw _) _ => line = seed.decimal
  | .handedOut _, .call (.ask _) _ => True
  | .readFailed, .call (.ask _) _ => True
  | .ended, .call (.ask _) _ => True
  | _, _ => False

theorem makes_of_tell {policy : ExitPolicy} {seed : Int64} {trace : List String}
    {d : Dialogue Bool} {line : String} {bytes : ByteArray}
    (h : nextTask policy seed trace d = some (.tell line bytes)) :
    Makes seed (.shown line) d ∧ Makes seed (.showFailed line) d := by
  obtain ⟨call, next, rfl⟩ := call_of_nextTask h nofun
  cases call with
  | tell told =>
      obtain ⟨rfl, -⟩ := Task.tell.inj (Option.some.inj h)
      exact ⟨rfl, rfl⟩
  | draw previous =>
      obtain ⟨rfl, -⟩ := Task.tell.inj (Option.some.inj h)
      exact ⟨rfl, rfl⟩
  | ask accept => cases h
  | stop e => cases h

theorem makes_of_ask {policy : ExitPolicy} {seed : Int64} {trace : List String}
    {d : Dialogue Bool} {record : String → Except Error ByteArray}
    (h : nextTask policy seed trace d = some (.ask record)) (line : String) :
    Makes seed (.handedOut line) d ∧ Makes seed .readFailed d ∧ Makes seed .ended d := by
  obtain ⟨call, next, rfl⟩ := call_of_nextTask h nofun
  cases call with
  | ask accept => exact ⟨trivial, trivial, trivial⟩
  | tell told => cases h
  | draw previous => cases h
  | stop e => cases h

def Transcribed (c : Chronicle) (b : ByteArray) (e : Event) : Prop :=
  ∃ seed d, c.seed = some seed ∧ standing c.flight = some d ∧ Makes seed e d ∧
    b = Journal.render (seed.decimal :: c.flight) ∧
      ((∃ n, d = turn n) → b = Journal.render [seed.decimal])

theorem Calls.transcribed {b : ByteArray} {e : Event} (h : Calls settings b e) {c : Chronicle}
    (hfits : c.Fits b) : Transcribed c b e := by
  have hpoised {task : Task} (hdue : due settings b = some task)
      (htask : ∀ operation bytes last, task ≠ .write operation bytes last)
      (hmakes : ∀ seed d, nextTask settings.exitPolicy seed c.flight d = some task →
        Makes seed e d) : Transcribed c b e := by
    obtain ⟨seed, st, -, hst, -, hseed, hbytes, hnext⟩ := hfits.poised hdue htask
    refine ⟨seed, st.rest, hseed, standing_eq hst, hmakes seed st.rest hnext, hbytes, ?_⟩
    rintro ⟨n, hturn⟩
    rw [eq_nil_of_turn hst hturn] at hbytes
    exact hbytes
  cases h with
  | shown hdue => exact hpoised hdue nofun fun seed d hnext => (makes_of_tell hnext).1
  | showFailed hdue => exact hpoised hdue nofun fun seed d hnext => (makes_of_tell hnext).2
  | handedOut line hdue => exact hpoised hdue nofun fun seed d hnext => (makes_of_ask hnext line).1
  | readFailed hdue => exact hpoised hdue nofun fun seed d hnext => (makes_of_ask hnext "").2.1
  | ended hdue => exact hpoised hdue nofun fun seed d hnext => (makes_of_ask hnext "").2.2

end Session

namespace Simulation

open Session (Transcribed)

def toldBy (c : Chronicle) (outs : List Outcome) : Chronicle :=
  outs.foldl (fun c out => (c.along out.events).rested) c

theorem fits_outcome {c : Chronicle} {w : Simulation} (hfits : c.Fits w.bytes) (hlog : w.log = [])
    (s : Schedule) (settings : Settings) :
    (c.along (w.outcome s settings).1.events).rested.Fits (w.run s settings).2.bytes := by
  have hbegun := Session.outcome_trailBegun s settings hfits.sound hlog (List.prefix_refl _)
  rw [held_run s settings hlog]
  exact hfits.begun hbegun

theorem exists_occasion {os : List Occasion} {b : ByteArray} {c : Chronicle} (hfits : c.Fits b)
    {earlier later : List Outcome} {out : Outcome} (h : lifetimes os b = earlier ++ out :: later) :
    ∃ o ∈ os, ∃ b₁, (toldBy c earlier).Fits b₁ ∧
      b₁ = held b (earlier.flatMap Outcome.events) ∧
        out = ((start o.script b₁).outcome o.schedule o.settings).1 := by
  induction earlier generalizing os b c with
  | nil =>
      cases os with
      | nil => cases h
      | cons o os =>
          obtain ⟨rfl, -⟩ := List.cons.inj h
          exact ⟨o, List.mem_cons_self, b, hfits, rfl, rfl⟩
  | cons first earlier ih =>
      cases os with
      | nil => cases h
      | cons o os =>
          obtain ⟨rfl, hrest⟩ := List.cons.inj h
          have hnext := fits_outcome (w := start o.script b) hfits rfl o.schedule o.settings
          obtain ⟨o', ho', b₁, hfits', hheld, hout⟩ := ih hnext hrest
          refine ⟨o', List.mem_cons_of_mem o ho', b₁, hfits', ?_, hout⟩
          rw [List.flatMap_cons, held_append]
          have hrun := held_run (w := start o.script b) o.schedule o.settings rfl
          rw [hheld, hrun]
          rfl

theorem fits_start : Chronicle.start.Fits ByteArray.empty :=
  .empty rfl rfl rfl

/-- Whenever a session calls the user, all steps of the command in flight are recorded and nothing
else is, whatever has befallen this session and those before it. At no time is more than one step
unrecorded. -/
theorem lifetimes_transcribed {os : List Occasion} {earlier later : List Outcome} {out : Outcome}
    (h : lifetimes os ByteArray.empty = earlier ++ out :: later) :
    (∀ before, before <+: out.events → (unrecorded before).length ≤ 1) ∧
      ∀ before e after, out.events = before ++ e :: after → e.isOfStorage = false →
        unrecorded before = [] ∧
          Transcribed ((toldBy .start earlier).along before)
            (held ByteArray.empty (earlier.flatMap Outcome.events ++ before)) e := by
  obtain ⟨o, -, b, hfits, hheld, rfl⟩ := exists_occasion fits_start h
  have hsound := hfits.sound
  refine ⟨fun before hbefore => ?_, fun before e after hes he => ?_⟩
  · exact (Session.outcome_trailBegun (w := start o.script b) o.schedule o.settings hsound rfl
      hbefore).length_unrecorded
  · obtain ⟨b₁, htrail, hcalls⟩ :=
      Session.outcome_calledAfter (w := start o.script b) o.schedule o.settings hsound rfl hes he
    have hbytes : held ByteArray.empty (earlier.flatMap Outcome.events ++ before) = b₁ := by
      rw [held_append, ← hheld]
      exact htrail.held_eq
    rw [hbytes]
    exact ⟨htrail.unrecorded_eq_nil, hcalls.transcribed (hfits.trail htrail)⟩

theorem lifetimes_transcribed_sum :
    let first : Occasion := ⟨⟨420, .compact⟩, [.line " add "],
      ⟨fun _ => false, fun _ => false, (· == 1), fun _ => false⟩⟩
    let second : Occasion := ⟨⟨7, .clear⟩, [.line "15\t"], .faultless⟩
    let out := ((start first.script ByteArray.empty).outcome first.schedule first.settings).1
    let out' := ((start second.script out.bytes).outcome second.schedule second.settings).1
    let before := out'.events.take 2
    let c := (toldBy .start [out]).along before
    let bytes := held ByteArray.empty ([out].flatMap Outcome.events ++ before)
    lifetimes [first, second] ByteArray.empty = [out] ++ out' :: [] ∧
      out'.events = before ++ .ended :: [] ∧
      bytes = Journal.render ["420", "add", "15"] ∧
      unrecorded before = [] ∧ Transcribed c bytes .ended := by
  intro first second out out' before c bytes
  have hruns : lifetimes [first, second] ByteArray.empty = [out] ++ out' :: [] :=
    (lifetimes_cons first [second] _).trans (congrArg (List.cons out) (lifetimes_cons second [] _))
  have hevents : out'.events = before ++ .ended :: [] := by decide +kernel
  have hbytes : bytes = Journal.render ["420", "add", "15"] := by decide +kernel
  have hcalled := (lifetimes_transcribed hruns).2 before .ended [] hevents rfl
  exact ⟨hruns, hevents, hbytes, hcalled⟩

end Simulation

end DurableCalc
