import DurableCalc.Proofs.Chronicle
import DurableCalc.Proofs.Typed

namespace DurableCalc

open Session (Sound Course Halt Reaches Ending Leads Smooth due isFault recorded)
open Terminal (Reads closeLine encode)

namespace Session

variable {settings : Settings} {b b' : ByteArray} {u u' : List Utterance} {es : List Event}
  {result : Except Error Unit} {line : String} {operation : Operation} {last : Bool}

theorem nextTask_tell {policy : ExitPolicy} {seed : Int64} {trace : List String}
    {d : Dialogue Bool} {bytes : ByteArray}
    (h : nextTask policy seed trace d = some (.tell line bytes)) :
    bytes = recorded seed trace line := by
  obtain ⟨call, next, rfl⟩ := call_of_nextTask h nofun
  cases call with
  | tell told =>
      obtain ⟨rfl, rfl⟩ := Task.tell.inj (Option.some.inj h)
      rfl
  | draw previous =>
      obtain ⟨rfl, rfl⟩ := Task.tell.inj (Option.some.inj h)
      rfl
  | ask accept => cases h
  | stop e => cases h

theorem due_tell {bytes : ByteArray} (hsound : Sound b)
    (h : due settings b = some (.tell line bytes)) : bytes = b ++ encode line := by
  rcases sound_iff.mp hsound with rfl | ⟨seed, trace, st, rfl, htrace, hst, -⟩
  · cases h
  · rw [due_of_opens settings (opens_canonical seed htrace) hst] at h
    rcases taskAt_cases h with ⟨_, _, _, _, htask⟩ | ⟨-, hnext⟩
    · cases htask
    · have hline : encode line = Journal.render [line] := by
        simp [encode, Journal.render, Text.unlines]
      rw [nextTask_tell hnext, hline, ← Journal.render_append]
      rfl

def Recorded : ByteArray → List Event → Prop
  | _, [] => True
  | b, e :: es =>
      (∀ line, e = .shown line → ∃ rest, es = .stored (b ++ encode line) :: rest) ∧
        Recorded (e.landed?.getD b) es

theorem Recorded.cons {e : Event} (h : Recorded (e.landed?.getD b) es) (he : e.shown? = none) :
    Recorded b (e :: es) := by
  refine ⟨fun line hshown => ?_, h⟩
  subst hshown
  cases he

theorem Recorded.shown (h : Recorded (b ++ encode line) es) :
    Recorded b (.shown line :: .stored (b ++ encode line) :: es) := by
  refine ⟨fun line' hshown => ?_, Recorded.cons h rfl⟩
  obtain rfl := Event.shown.inj hshown
  exact ⟨es, rfl⟩

def Unharmed (es : List Event) : Prop :=
  ∀ e ∈ es, e.isLost = false ∧ e.isCrash = false

theorem unharmed_of_clean (h : ∀ e ∈ es, isFault e = false) : Unharmed es := by
  intro e he
  have hfault := h e he
  cases e <;> first | exact ⟨rfl, rfl⟩ | cases hfault

theorem Unharmed.confirmed (h : Unharmed es) : confirmed es = es := by
  induction es with
  | nil => rfl
  | cons e es ih =>
      obtain ⟨-, hes⟩ := List.forall_mem_cons.mp h
      have hlost : lostNext es = false := by
        cases es with
        | nil => rfl
        | cons e' es => exact (hes e' List.mem_cons_self).1
      rw [DurableCalc.confirmed, hlost, Bool.and_false, ih hes]
      rfl

theorem Reaches.recorded (hsound : Sound b)
    (h : Reaches settings b u es operation b' last u') {fs : List Event} (hfs : Recorded b' fs) :
    Recorded b (es ++ .stored b' :: fs) := by
  have hrest (b₀ : ByteArray) : Recorded b₀ (.stored b' :: fs) := Recorded.cons hfs rfl
  cases h with
  | write => exact hrest b
  | tell hdue =>
      obtain rfl := due_tell hsound hdue
      exact Recorded.shown hfs
  | ask => exact Recorded.cons (hrest b) rfl

theorem Halt.recorded (hsound : Sound b) (h : Halt settings b u es result b' u')
    (hes : Unharmed es) : Recorded b es := by
  cases h with
  | left hreaches => exact hreaches.recorded hsound trivial
  | lost => cases (hes _ (List.mem_append_right _ List.mem_cons_self)).1
  | crashed => cases (hes _ (List.mem_append_right _ List.mem_cons_self)).2
  | refused | closed | unheard | broken | unshown => exact Recorded.cons trivial rfl

theorem Course.recorded (hsound : Sound b) (h : Course settings b u es result b' u')
    (hes : Unharmed es) : Recorded b es := by
  induction h with
  | stored hreaches _ ih =>
      have hrest := ih (hreaches.sound hsound) fun e he =>
        hes e (List.mem_append_right _ (List.mem_cons_of_mem _ he))
      exact hreaches.recorded hsound hrest
  | blank _ _ _ ih =>
      have hrest := ih hsound fun e he => hes e (List.mem_cons_of_mem _ he)
      exact Recorded.cons hrest rfl
  | halt hhalt => exact hhalt.recorded hsound hes

theorem Course.due_of_torn {fs : List Event}
    (h : Course settings b u (fs ++ [.showFailed line]) result b' u') :
    ∃ bytes, due settings b' = some (.tell line bytes) := by
  obtain ⟨es, gs, b₁, u₁, hsplit, hhalt⟩ := h.exists_halt
  have hlast : (es ++ gs).getLast? = some (.showFailed line) := by
    rw [← hsplit]
    simp
  cases hhalt with
  | unshown hdue =>
      obtain rfl : _ = line := by simpa using hlast
      exact ⟨_, hdue⟩
  | left | lost | crashed => simp [← List.append_assoc] at hlast
  | refused | closed | unheard | broken => simp at hlast

theorem Course.ended_of_closed (h : Course settings b u es (.error .inputClosed) b' u') :
    .ended ∈ es := by
  obtain ⟨fs, gs, b₁, u₁, rfl, hhalt⟩ := h.exists_halt
  cases hhalt with
  | closed => simp
  | refused hdue _ hrecord => rcases due_refuses hdue hrecord with h | h <;> cases h

theorem Course.smooth {lines rest : List String}
    (h : Course settings b (lines.map .line) es result b' []) (hsound : Sound b)
    (hes : ∀ e ∈ es, isFault e = false) (hrest : .ended ∈ es → rest = []) :
    Smooth settings b (lines ++ rest) (effects es) result b' rest := by
  obtain ⟨hending, htaken⟩ := h.ending hsound rfl
  rw [List.append_nil, List.map_inj_right fun _ _ h => Utterance.line.inj h] at htaken
  subst htaken
  cases hending with
  | interrupted _ hfault =>
      obtain ⟨e, he, hfaulty⟩ := List.any_eq_true.mp hfault
      rw [hes e he] at hfaulty
      cases hfaulty
  | unconfirmed _ hevents =>
      have hcrash := hes (.crashed b') (by simp [hevents])
      cases hcrash
  | refused _ _ _ _ _ hsmooth => exact hsmooth rest
  | left _ _ hsmooth => exact hsmooth rest
  | closed _ _ hsmooth =>
      obtain rfl := hrest h.ended_of_closed
      rw [List.append_nil]
      exact hsmooth

theorem Course.leads_of_torn {lines : List String} {fs : List Event}
    (h : Course settings b (lines.map .line) (fs ++ [.showFailed line]) (.error (.transport .induced))
      b' []) (hsound : Sound b) (hfs : ∀ e ∈ fs, isFault e = false) :
    Leads settings b lines (effects fs) b' := by
  obtain ⟨hending, htaken⟩ := h.ending hsound rfl
  rw [List.append_nil, List.map_inj_right fun _ _ h => Utterance.line.inj h] at htaken
  subst htaken
  have hunharmed : Unharmed (fs ++ [.showFailed line]) :=
    List.forall_mem_append.mpr ⟨unharmed_of_clean hfs, List.forall_mem_singleton.mpr ⟨rfl, rfl⟩⟩
  have heffects : effects (fs ++ [.showFailed line]) = effects fs := by
    simp [effects, Event.effect?]
  cases hending with
  | interrupted _ _ _ hleads =>
      rw [hunharmed.confirmed, heffects] at hleads
      exact hleads
  | unconfirmed _ hevents =>
      have hlast := congrArg List.getLast? hevents
      simp at hlast
  | refused hrefusal => cases hrefusal

theorem step_go {ls ls' : List String} {fx : List Effect}
    (h : step settings b ls = some ⟨fx, none, b', ls'⟩) :
    ∃ ms, ls = ms ++ ls' ∧ ∀ rest, step settings b (ms ++ rest) = some ⟨fx, none, b', rest⟩ := by
  unfold step at h ⊢
  split at h
  · cases h
  · next last hdue =>
      cases last with
      | true => cases h
      | false =>
          obtain ⟨rfl, -, rfl, rfl⟩ := Step.mk.inj (Option.some.inj h)
          exact ⟨[], rfl, fun rest => by simp⟩
  · next hdue =>
      obtain ⟨rfl, -, rfl, rfl⟩ := Step.mk.inj (Option.some.inj h)
      exact ⟨[], rfl, fun rest => by simp⟩
  · next record hdue =>
      split at h
      · cases h
      · next line ls =>
          split at h
          · next hblank =>
              obtain ⟨rfl, -, rfl, rfl⟩ := Step.mk.inj (Option.some.inj h)
              exact ⟨[line], rfl, fun rest => by simp [hblank]⟩
          · next hblank =>
              split at h
              · cases h
              · next bytes hrecord =>
                  obtain ⟨rfl, -, rfl, rfl⟩ := Step.mk.inj (Option.some.inj h)
                  exact ⟨[line], rfl, fun rest => by simp [hblank, hrecord]⟩

theorem step_closed {ls ls' : List String} {fx : List Effect}
    (h : step settings b ls = some ⟨fx, some (.error .inputClosed), b', ls'⟩) :
    ls = [] ∧ fx = [] ∧ b' = b := by
  unfold step at h
  split at h
  · cases h
  · next last hdue => cases last <;> cases h
  · cases h
  · next record hdue =>
      split at h
      · obtain ⟨rfl, -, rfl, -⟩ := Step.mk.inj (Option.some.inj h)
        exact ⟨rfl, rfl, rfl⟩
      · split at h
        · cases h
        · split at h
          · next e hrecord =>
              obtain ⟨-, hresult, -⟩ := Step.mk.inj (Option.some.inj h)
              obtain rfl := Except.error.inj (Option.some.inj hresult)
              rcases due_refuses hdue hrecord with h | h <;> cases h
          · cases h

theorem Smooth.leads {ls : List String} {fx : List Effect}
    (h : Smooth settings b ls fx (.error .inputClosed) b' []) : Leads settings b ls fx b' := by
  generalize hresult : (.error .inputClosed : Except Error Unit) = r at h
  generalize hrest : ([] : List String) = rest at h
  induction h with
  | stop hstep =>
      subst hresult
      obtain ⟨rfl, rfl, rfl⟩ := step_closed hstep
      exact .refl _
  | go hstep _ ih =>
      obtain ⟨ms, rfl, hstep'⟩ := step_go hstep
      exact .step hstep' (ih hresult hrest)

end Session

namespace Sitting

open Session (Recorded Unharmed)

variable {settings : Settings} {bytes : ByteArray} {p : Sitting}

def Outcome.lines (out : Outcome) : List String :=
  shownLines out.events

def Outcome.feed (out : Outcome) : List UInt8 :=
  closeLine out.taken

structure Follows (settings : Settings) (bytes : ByteArray) (p : Sitting) (out : Outcome)
    (lines : List String) (result : Except Error Unit) (rest : List UInt8) : Prop where
  course : Course settings bytes (lines.map .line) out.events result out.bytes []
  printed : Printed p p.room ByteArray.empty out.output out.result out.events result
  reads : Reads p.input lines rest
  feed : ∀ more, Reads (out.feed ++ more) lines more
  ended : .ended ∈ out.events → rest = []

theorem Echoes.course {lines : List String} {k : Option Nat} {r : Except Error Unit}
    {stored : ByteArray} {es : List Event} {n : Nat}
    (h : Echoes (Session.run settings (n + 1)).run lines bytes 0 k r stored es)
    (hsound : Sound bytes) (hn : lines.length + bytes.size < n) :
    Course settings bytes (lines.map .line) es r stored [] := by
  let w := Simulation.start (lines.map .line) bytes
  obtain ⟨w', hrun, rfl, hscript, hlog⟩ := h.run w rfl rfl rfl
  have hexec : Attempt.exec (Simulation.steady (.failsAt k)) (Session.run settings (n + 1)) w
      = (r, w') := hrun
  have hsize : w.script.length + w.bytes.size < n := by
    rw [← List.length_map Utterance.line] at hn
    exact hn
  obtain ⟨events, hcourse, hevents⟩ := Session.charted_run (.failsAt k) settings n w hsound
    (Session.exec_steady_ne_outOfPatience _ settings w hsize)
  rw [hexec] at hcourse hevents
  have hsame : events = es := by
    have hlogs : events.reverse ++ w.log = es.reverse ++ w.log := hevents.symm.trans hlog
    exact List.reverse_inj.mp (List.append_cancel_right hlogs)
  rw [← hscript, ← hsame]
  exact hcourse

theorem outcome_follows (settings : Settings) (hsound : Sound bytes) (p : Sitting) :
    let out := p.outcome settings bytes
    Garbled p.input out.result ∨
      ∃ lines result rest, Follows settings bytes p out lines result rest := by
  intro out
  have hforthright := Session.forthright_run settings (1 + p.input.length + bytes.size)
  have hholds : p.terminal.Holds p.input := .inl rfl
  rcases p.run_typed hforthright hholds bytes 0 [] with hgarbled | ⟨lines, k, r, es, htyped⟩
  · exact .inl hgarbled
  · obtain ⟨rest, hreads, hrest, hended⟩ := htyped.reads
    obtain ⟨taken, htaken, hfeed⟩ := hreads.closeLine
    have hlength := hreads.length_le
    have hevents : out.events = es := by
      have hlog := congrArg List.reverse htyped.log_eq
      rw [List.append_nil, List.reverse_reverse] at hlog
      exact hlog
    have hbytes : out.taken = taken := by
      have hleft : out.taken = p.input.take (p.input.length - rest.length) := by
        rw [← hrest.left]
        rfl
      rw [hleft, htaken]
      simp
    refine .inr ⟨lines, r, rest, ?_⟩
    constructor
    · rw [hevents]
      exact Echoes.course htyped.echoes hsound (by omega)
    · rw [hevents]
      exact htyped.printed
    · exact hreads
    · rw [Outcome.feed, hbytes]
      exact hfeed
    · rw [hevents]
      exact hended

end Sitting

end DurableCalc
