import DurableCalc.Proofs.Relay

namespace DurableCalc.Sitting

open Session (Sound Smooth Leads Recorded Unharmed due isFault unharmed_of_clean)
open Simulation (isRefusal)
open Terminal (Reads encode)

def isInterrupted : Except Error Unit → Bool
  | .error .inputClosed | .error (.transport (.other _)) => true
  | _ => false

def isSettled : Except Error Unit → Bool
  | .ok _ | .error .inputClosed | .error (.notANumber _) | .error (.invalidEntry _) => true
  | _ => false

def Relay : List Outcome → Prop
  | [] => False
  | out :: outs => isSettled out.result = true ∧ outs = [] ∨ isInterrupted out.result = true ∧ Relay outs

inductive Awaited (line : String) : List Outcome → Prop
  | shown {out : Outcome} {outs : List Outcome} :
      out.events.head? = some (.shown line) → Awaited line (out :: outs)
  | failed {out : Outcome} {outs : List Outcome} :
      out.events = [.showFailed line] → Awaited line outs → Awaited line (out :: outs)

inductive Accounted : ByteArray → List Outcome → Prop
  | nil (b : ByteArray) : Accounted b []
  | whole {b : ByteArray} {out : Outcome} {outs : List Outcome} :
      (∀ text, out.result ≠ .error (.transport (.other text))) → Recorded b out.events →
      out.output = (Text.unlines out.lines).toUTF8 → Accounted out.bytes outs →
      Accounted b (out :: outs)
  | torn {b : ByteArray} {out : Outcome} {outs : List Outcome} {line text : String}
      {leftover rest : ByteArray} :
      out.result = .error (.transport (.other text)) → Recorded b out.events →
      out.events.getLast? = some (.showFailed line) →
      out.output = (Text.unlines out.lines).toUTF8 ++ leftover → encode line = leftover ++ rest →
      Awaited line outs → Accounted out.bytes outs → Accounted b (out :: outs)

theorem closed_of_settled {result : Except Error Unit} (h : isSettled result = true)
    (hstops : isInterrupted result = true) : result = .error .inputClosed := by
  unfold isInterrupted at hstops
  split at hstops
  · rfl
  · cases h
  · cases hstops

theorem Garbled.not_go_on {bs : List UInt8} {result : Except Error Unit} (h : Garbled bs result) :
    isSettled result = false ∧ isInterrupted result = false := by
  obtain ⟨rfl, -⟩ := h
  exact ⟨rfl, rfl⟩

variable {settings : Settings} {bytes : ByteArray} {p : Sitting} {out : Outcome}
  {outs : List Outcome} {lines : List String} {result : Except Error Unit} {rest : List UInt8}

theorem isSettled_of_smooth {b b' : ByteArray} {ls ls' : List String} {fx : List Effect}
    (h : Smooth settings b ls fx result b' ls') : isSettled result = true := by
  rcases h.result_cases with rfl | rfl | hrefusal
  · rfl
  · rfl
  · unfold isRefusal at hrefusal
    split at hrefusal
    · rfl
    · rfl
    · cases hrefusal

theorem outcome_run (settings : Settings) (bytes : ByteArray) (p : Sitting) :
    let out := p.outcome settings bytes
    let session := Session.run settings (p.terminal.patience + bytes.size + 1)
    ∃ t, session.run.run p.device (p.terminal, bytes) = (out.result, t, out.bytes) ∧
      t.output = out.output := by
  intro out session
  have hplain := Device.run_observed p.device session.run (p.terminal, bytes) []
  exact ⟨_, hplain.symm, rfl⟩

namespace Follows

theorem smooth (h : Follows settings bytes p out lines out.result rest) (hsound : Sound bytes)
    (hclean : ∀ e ∈ out.events, isFault e = false) :
    Smooth settings bytes lines (effects out.events) out.result out.bytes [] := by
  rw [← List.append_nil lines]
  exact h.course.smooth hsound hclean fun _ => rfl

theorem whole_of_settled (h : Follows settings bytes p out lines result rest)
    (hsettled : isSettled out.result = true) :
    result = out.result ∧ ∀ e ∈ out.events, isFault e = false := by
  cases h.printed with
  | whole hclean _ => exact ⟨rfl, hclean⟩
  | torn hresult =>
      rw [hresult] at hsettled
      cases hsettled

theorem leads (h : Follows settings bytes p out lines result rest) (hsound : Sound bytes)
    (hstops : isInterrupted out.result = true) :
    Leads settings bytes lines (effects out.events) out.bytes := by
  have hcourse := h.course
  cases h.printed with
  | whole hclean _ =>
      have hsmooth := h.smooth hsound hclean
      rw [closed_of_settled (isSettled_of_smooth hsmooth) hstops] at hsmooth
      exact hsmooth.leads
  | @torn fs line text leftover rest' hresult hevents hfs =>
      -- the line that was cut short has not been recorded, so nothing has come of it
      rw [hevents] at hcourse
      have hleads := hcourse.leads_of_torn hsound hfs
      have heffects : effects out.events = effects fs := by
        rw [hevents, effects_append]
        exact List.append_nil _
      rw [heffects]
      exact hleads

theorem recorded (h : Follows settings bytes p out lines result rest) (hsound : Sound bytes) :
    Recorded bytes out.events := by
  refine h.course.recorded hsound ?_
  cases h.printed with
  | whole hclean _ => exact unharmed_of_clean hclean
  | torn _ hevents hfs =>
      rw [hevents]
      refine List.forall_mem_append.mpr ⟨unharmed_of_clean hfs, ?_⟩
      exact List.forall_mem_singleton.mpr ⟨rfl, rfl⟩

theorem accounted (h : Follows settings bytes p out lines result rest) (hsound : Sound bytes)
    (hawaited : isSettled out.result = false → ∀ line b',
      due settings out.bytes = some (.tell line b') → Awaited line outs)
    (hrest : Accounted out.bytes outs) : Accounted bytes (out :: outs) := by
  have hrecorded := h.recorded hsound
  have hcourse := h.course
  cases h.printed with
  | whole hclean houtput =>
      rw [ByteArray.empty_append] at houtput
      have hsettled := isSettled_of_smooth (h.smooth hsound hclean)
      refine .whole (fun text hfailed => ?_) hrecorded houtput hrest
      rw [hfailed] at hsettled
      cases hsettled
  | torn hresult hevents _ houtput hline =>
      rw [ByteArray.empty_append] at houtput
      rw [hevents] at hcourse
      obtain ⟨b', hdue⟩ := hcourse.due_of_torn
      have hfailed : isSettled out.result = false := by
        rw [hresult]
        rfl
      refine .torn hresult hrecorded ?_ houtput hline (hawaited hfailed _ b' hdue) hrest
      rw [hevents]
      simp

end Follows

structure Chain (settings : Settings) (bytes : ByteArray) (outs : List Outcome)
    (lines : List String) (fx : List Effect) (last : Outcome) : Prop where
  last_eq : outs.getLast? = some last
  feed : Reads (outs.flatMap Outcome.feed) lines []
  smooth : Smooth settings bytes lines fx last.result last.bytes []
  shown : fx.filterMap Effect.shown? = outs.flatMap Outcome.lines
  accounted : Accounted bytes outs
  awaited : ∀ line b', due settings bytes = some (.tell line b') → Awaited line outs

theorem Follows.chain_last (h : Follows settings bytes p out lines result rest)
    (hsound : Sound bytes) (hsettled : isSettled out.result = true) :
    Chain settings bytes [out] lines (effects out.events) out := by
  obtain ⟨rfl, hclean⟩ := h.whole_of_settled hsettled
  constructor
  · rfl
  · rw [List.flatMap_singleton, ← List.append_nil out.feed]
    exact h.feed []
  · exact h.smooth hsound hclean
  · rw [List.flatMap_singleton]
    exact (shownLines_eq out.events).symm
  · refine h.accounted hsound (fun hfailed => ?_) (.nil _)
    rw [hsettled] at hfailed
    cases hfailed
  · intro line b' hdue
    rcases h.course.first_of_tell hdue with hshown | ⟨hevents, -⟩
    · exact .shown hshown
    · have hfault := hclean (.showFailed line) (by simp [hevents])
      cases hfault

theorem Follows.chain_more {fx : List Effect} {more : List String} {last : Outcome}
    (h : Follows settings bytes p out lines result rest) (hsound : Sound bytes)
    (hstops : isInterrupted out.result = true)
    (hchain : Chain settings out.bytes outs more fx last) :
    Chain settings bytes (out :: outs) (lines ++ more) (effects out.events ++ fx) last := by
  constructor
  · have hlast := hchain.last_eq
    cases outs with
    | nil => cases hlast
    | cons out' outs => exact hlast
  · rw [List.flatMap_cons]
    exact (h.feed _).append hchain.feed
  · exact (h.leads hsound hstops).smooth hchain.smooth
  · rw [List.filterMap_append, List.flatMap_cons, hchain.shown, ← shownLines_eq]
    rfl
  · exact h.accounted hsound (fun _ => hchain.awaited) hchain.accounted
  · intro line b' hdue
    rcases h.course.first_of_tell hdue with hshown | ⟨hevents, hsame, -⟩
    · exact .shown hshown
    -- it has failed at the line and left the journal alone, so the line is due again
    · rw [hsame] at hchain
      exact .failed hevents (hchain.awaited line b' hdue)

theorem exists_chain (settings : Settings) (ps : List Sitting) {bytes : ByteArray}
    (hsound : Sound bytes) (hrelay : Relay (outcomes settings ps bytes)) :
    ∃ lines fx last, Chain settings bytes (outcomes settings ps bytes) lines fx last := by
  induction ps generalizing bytes with
  | nil => exact absurd hrelay id
  | cons p ps ih =>
      rcases p.outcome_follows settings hsound with hgarbled | ⟨lines, result, rest, hfollows⟩
      · obtain ⟨hunsettled, huninterrupted⟩ := hgarbled.not_go_on
        rcases hrelay with ⟨hsettled, -⟩ | ⟨hstops, -⟩
        · cases hsettled.symm.trans hunsettled
        · cases hstops.symm.trans huninterrupted
      · rcases hrelay with ⟨hsettled, hnone⟩ | ⟨hstops, hrest⟩
        · rw [outcomes, hnone]
          exact ⟨_, _, _, hfollows.chain_last hsound hsettled⟩
        · obtain ⟨more, fx, last, hchain⟩ := ih (hfollows.course.sound_bytes hsound) hrest
          exact ⟨_, _, _, hfollows.chain_more hsound hstops hchain⟩

theorem outcome_smooth (settings : Settings) (hsound : Sound bytes) {input : List UInt8}
    (hinput : Reads input lines []) :
    let out := (Sitting.mk input none fun _ => false).outcome settings bytes
    out.output = (Text.unlines out.lines).toUTF8 ∧
      ∃ rest, Smooth settings bytes lines (effects out.events) out.result out.bytes rest := by
  intro out
  rcases outcome_follows settings hsound (Sitting.mk input none fun _ => false) with
    hgarbled | ⟨ls, result, rest, hfollows⟩
  -- every line of the input has been read as text before
  · obtain ⟨-, ls, rest, e, hreads, hne, hdecode⟩ := hgarbled
    obtain ⟨ms, -, hms⟩ := hreads.split hinput
    cases hms with
    | nil => exact absurd rfl hne
    | line _ hdecode' => cases hdecode.symm.trans hdecode'
  · obtain ⟨hcourse, hprinted, hreads, -, hended⟩ := hfollows
    obtain ⟨ms, rfl, hms⟩ := hreads.split hinput
    cases hprinted with
    | whole hclean houtput =>
        rw [ByteArray.empty_append] at houtput
        have hnone (h : .ended ∈ out.events) : ms = [] := by
          rw [hended h] at hms
          exact (Terminal.reads_nil hms).1
        exact ⟨houtput, ms, hcourse.smooth hsound hclean hnone⟩
    | torn _ _ _ _ _ hfault =>
        rcases hfault with hlimit | ⟨i, hflush⟩
        · exact absurd rfl hlimit
        · cases hflush

/-- Text sessions that take over from each other add up to one whose output does not fail, and which is
given the lines that they have taken. -/
theorem outcomes_add_up (os : List Simulation.Occasion) (settings : Settings)
    (ps : List Sitting) :
    let bytes := Simulation.residue os ByteArray.empty
    let outs := outcomes settings ps bytes
    let one := (Sitting.mk (outs.flatMap Outcome.feed) none fun _ => false).outcome settings bytes
    Relay outs → Accounted bytes outs ∧
      one.output = (Text.unlines (outs.flatMap Outcome.lines)).toUTF8 ∧
      ∃ last, outs.getLast? = some last ∧ one.result = last.result ∧ one.bytes = last.bytes := by
  intro bytes outs one hrelay
  have hsound : Sound bytes := Simulation.sound_residue os .empty
  obtain ⟨lines, fx, last, hchain⟩ := exists_chain settings ps hsound hrelay
  obtain ⟨houtput, rest, hsmooth⟩ := outcome_smooth settings hsound hchain.feed
  obtain ⟨heffects, hresult, hbytes, -⟩ := hsmooth.unique hchain.smooth
  have hlines : one.lines = outs.flatMap Outcome.lines := by
    rw [← hchain.shown, ← heffects]
    exact shownLines_eq one.events
  refine ⟨hchain.accounted, ?_, last, hchain.last_eq, hresult, hbytes⟩
  rw [← hlines]
  exact houtput

theorem outcomes_add_up_torn :
    let ps : List Sitting := [⟨"add\n15\n60\n".toUTF8.data.toList, some 1, fun _ => false⟩,
      ⟨[], none, fun i => i == 0⟩, ⟨"exit\n".toUTF8.data.toList, none, fun _ => false⟩]
    let outs := outcomes ⟨420, .compact⟩ ps ByteArray.empty
    Relay outs ∧ outs.map Outcome.output = ["7".toUTF8, "75\n".toUTF8, "75\n".toUTF8] ∧
      outs.flatMap Outcome.lines = ["75"] ∧ Accounted ByteArray.empty outs := by
  intro ps outs
  have hrelay : Relay outs := by
    refine .inr ⟨?_, .inr ⟨?_, .inl ⟨?_, rfl⟩⟩⟩
    all_goals decide +kernel
  have houtputs : outs.map Outcome.output = ["7".toUTF8, "75\n".toUTF8, "75\n".toUTF8] := by
    decide +kernel
  have hlines : outs.flatMap Outcome.lines = ["75"] := by decide +kernel
  obtain ⟨haccounted, -⟩ := outcomes_add_up [] ⟨420, .compact⟩ ps hrelay
  exact ⟨hrelay, houtputs, hlines, haccounted⟩

end DurableCalc.Sitting
