import DurableCalc.Proofs.Integrity
import DurableCalc.Proofs.Series

namespace DurableCalc

def Effect.shown? : Effect → Option String
  | .showed line => some line
  | _ => none

def Event.shown? : Event → Option String
  | .shown line => some line
  | _ => none

def shownLines (events : List Event) : List String :=
  events.filterMap Event.shown?

theorem shownLines_eq (es : List Event) : shownLines es = (effects es).filterMap Effect.shown? := by
  rw [shownLines, effects, List.filterMap_filterMap]
  congr 1
  funext e
  cases e <;> rfl

theorem shownLines_append (es fs : List Event) :
    shownLines (es ++ fs) = shownLines es ++ shownLines fs :=
  List.filterMap_append

def Owed (line : String) (events : List Event) : Prop :=
  ∃ before after, events = before ++ .shown line :: after ∧ effects before = []

def Repeated (events : List Event) : Prop :=
  ∀ line bytes after, .shown line :: .lost bytes :: after <:+ events → Owed line after

theorem Owed.append {line : String} {es : List Event} (h : Owed line es) (fs : List Event) :
    Owed line (es ++ fs) := by
  obtain ⟨before, after, rfl, hbefore⟩ := h
  exact ⟨before, after ++ fs, List.append_assoc _ _ _, hbefore⟩

theorem Repeated.nil : Repeated [] := by
  intro line bytes after h
  cases List.suffix_nil.mp h

theorem Repeated.cons {e : Event} {es : List Event} (h : Repeated es)
    (hfirst : ∀ line bytes after, e = .shown line → es = .lost bytes :: after → Owed line after) :
    Repeated (e :: es) := by
  intro line bytes after hsuffix
  rcases List.suffix_cons_iff.mp hsuffix with hsame | hrest
  · obtain ⟨he, hes⟩ := List.cons.inj hsame
    exact hfirst line bytes after he.symm hes.symm
  · exact h line bytes after hrest

theorem Repeated.cons_of_kept {e : Event} {es : List Event} (h : Repeated es)
    (he : e.shown? = none ∨ lostNext es = false) : Repeated (e :: es) := by
  refine h.cons fun line bytes after hshown hlost => ?_
  subst hshown hlost
  rcases he with he | he <;> cases he

namespace Session

open Simulation (Outcome Retries isInduced isRefusal)

variable {settings : Settings} {again : Except Error Unit → Bool}

theorem Reaches.repeated {b b' : ByteArray} {u u' : List Utterance} {es fs : List Event}
    {operation : Operation} {last : Bool} (h : Reaches settings b u es operation b' last u')
    {e : Event} (hshown : e.shown? = none) (hlost : e.isLost = false) (hfs : Repeated fs) :
    Repeated (es ++ e :: fs) := by
  have hrest : Repeated (e :: fs) := hfs.cons_of_kept (.inl hshown)
  cases h with
  | write => exact hrest
  | tell => exact hrest.cons_of_kept (.inr hlost)
  | ask => exact hrest.cons_of_kept (.inl rfl)

theorem Halt.repeated {b b' : ByteArray} {u u' : List Utterance} {es fs : List Event}
    {result : Except Error Unit} (h : Halt settings b u es result b' u') (hfs : Repeated fs)
    (howed : isInduced result = true → ∀ line bytes, due settings b' = some (.tell line bytes) →
      Owed line fs) : Repeated (es ++ fs) := by
  cases h with
  | left hreaches =>
      rw [List.append_assoc]
      exact hreaches.repeated rfl rfl hfs
  | crashed hreaches =>
      rw [List.append_assoc]
      exact hreaches.repeated rfl rfl hfs
  | lost hreaches =>
      have hrest (bytes : ByteArray) : Repeated (.lost bytes :: fs) := hfs.cons_of_kept (.inl rfl)
      cases hreaches with
      | write => exact hrest _
      | ask => exact (hrest _).cons_of_kept (.inl rfl)
      | tell hdue =>
          refine (hrest _).cons fun line bytes after hshown hlost => ?_
          obtain rfl := Event.shown.inj hshown
          obtain ⟨-, rfl⟩ := List.cons.inj hlost
          exact howed rfl _ _ hdue
  | refused | closed | unheard | broken | unshown => exact hfs.cons_of_kept (.inl rfl)

theorem Course.repeated {b b' : ByteArray} {u u' : List Utterance} {es fs : List Event}
    {result : Except Error Unit} (h : Course settings b u es result b' u') (hfs : Repeated fs)
    (howed : isInduced result = true → ∀ line bytes, due settings b' = some (.tell line bytes) →
      Owed line fs) : Repeated (es ++ fs) := by
  induction h with
  | stored hreaches hcourse ih =>
      rw [List.append_assoc]
      exact hreaches.repeated rfl rfl (ih howed)
  | blank hdue hblank hcourse ih => exact (ih howed).cons_of_kept (.inl rfl)
  | halt hhalt => exact hhalt.repeated hfs howed

theorem Course.first_of_tell {b b' : ByteArray} {u u' : List Utterance} {es : List Event}
    {result : Except Error Unit} (h : Course settings b u es result b' u') {line : String}
    {bytes : ByteArray} (hdue : due settings b = some (.tell line bytes)) :
    es.head? = some (.shown line) ∨
      es = [.showFailed line] ∧ b' = b ∧ result = .error (.transport .induced) := by
  have hshows {b₁ : ByteArray} {u₁ : List Utterance} {fs gs : List Event} {operation : Operation}
      {last : Bool} (hreaches : Reaches settings b u fs operation b₁ last u₁) :
      (fs ++ gs).head? = some (.shown line) := by
    cases hreaches with
    | write hwrite => cases hdue.symm.trans hwrite
    | ask hask => cases hdue.symm.trans hask
    | tell htell =>
        obtain ⟨rfl, -⟩ := Task.tell.inj (Option.some.inj (hdue.symm.trans htell))
        rfl
  cases h with
  | stored hreaches => exact .inl (hshows hreaches)
  | blank hask => cases hdue.symm.trans hask
  | halt hhalt =>
      cases hhalt with
      | left hreaches => exact .inl (hshows hreaches)
      | lost hreaches => exact .inl (hshows hreaches)
      | crashed hreaches => exact .inl (hshows hreaches)
      | unshown htell =>
          obtain ⟨rfl, -⟩ := Task.tell.inj (Option.some.inj (hdue.symm.trans htell))
          exact .inr ⟨rfl, rfl, rfl⟩
      | refused hask | closed hask | unheard hask | broken hask => cases hdue.symm.trans hask

theorem Course.owed {b b' : ByteArray} {u u' : List Utterance} {es : List Event}
    {result : Except Error Unit} (h : Course settings b u es result b' u') {line : String}
    {bytes : ByteArray} (hdue : due settings b = some (.tell line bytes)) :
    Owed line es ∨ effects es = [] ∧ b' = b ∧ isInduced result = true := by
  rcases h.first_of_tell hdue with hfirst | ⟨rfl, rfl, rfl⟩
  · obtain ⟨after, rfl⟩ := List.head?_eq_some_iff.mp hfirst
    exact .inl ⟨[], after, rfl, rfl⟩
  · exact .inr ⟨rfl, rfl, rfl⟩

def Ended (again : Except Error Unit → Bool) (outs : List Outcome) : Prop :=
  ∃ out, outs.getLast? = some out ∧ again out.result = false

theorem Ended.tail {out : Outcome} {outs : List Outcome} (h : Ended again (out :: outs))
    (hagain : again out.result = true) : Ended again outs := by
  obtain ⟨last, hlast, hends⟩ := h
  cases outs with
  | nil =>
      have hsame : out = last := Option.some.inj hlast
      rw [← hsame, hagain] at hends
      cases hends
  | cons out' outs =>
      rw [List.getLast?_cons_cons] at hlast
      exact ⟨last, hlast, hends⟩

theorem Series.owed {b b' : ByteArray} {u u' : List Utterance} {outs : List Outcome}
    (h : Series settings again b u outs b' u') (hretries : Retries again)
    (hended : Ended again outs) {line : String} {bytes : ByteArray}
    (hdue : due settings b = some (.tell line bytes)) :
    Owed line (outs.flatMap Outcome.events) := by
  induction h with
  | nil b u =>
      obtain ⟨out, hlast, -⟩ := hended
      cases hlast
  | last hcourse hagain =>
      rw [List.flatMap_singleton]
      rcases hcourse.owed hdue with howed | ⟨-, -, hinduced⟩
      · exact howed
      · rw [hretries.induced _ hinduced] at hagain
        cases hagain
  | @more _ _ _ _ _ out outs hcourse hagain hseries ih =>
      rw [List.flatMap_cons]
      rcases hcourse.owed hdue with howed | ⟨hnothing, hsame, -⟩
      · exact howed.append _
      · rw [← hsame] at hdue
        obtain ⟨before, after, hevents, hbefore⟩ := ih (hended.tail hagain) hdue
        refine ⟨out.events ++ before, after, ?_, ?_⟩
        · rw [hevents, List.append_assoc]
        · rw [effects_append, hnothing, hbefore]
          rfl

theorem Series.repeated {b b' : ByteArray} {u u' : List Utterance} {outs : List Outcome}
    (h : Series settings again b u outs b' u') (hretries : Retries again)
    (hended : Ended again outs) : Repeated (outs.flatMap Outcome.events) := by
  induction h with
  | nil b u => exact .nil
  | last hcourse hagain =>
      rw [List.flatMap_cons]
      refine hcourse.repeated .nil fun hinduced => ?_
      rw [hretries.induced _ hinduced] at hagain
      cases hagain
  | more hcourse hagain hseries ih =>
      rw [List.flatMap_cons]
      have hrest := hended.tail hagain
      exact hcourse.repeated (ih hrest) fun _ line bytes hdue => hseries.owed hretries hrest hdue

theorem Smooth.result_cases {b b' : ByteArray} {ls ls' : List String} {fx : List Effect}
    {result : Except Error Unit} (h : Smooth settings b ls fx result b' ls') :
    result = .ok () ∨ result = .error .inputClosed ∨ isRefusal result = true := by
  induction h with
  | go hstep hrest ih => exact ih
  | @stop b b' ls ls' fx result hstep =>
      unfold step at hstep
      split at hstep
      · cases hstep
      · next last hdue =>
          obtain ⟨-, hresult, -⟩ := Step.mk.inj (Option.some.inj hstep)
          cases last with
          | true => exact .inl (Option.some.inj hresult).symm
          | false => cases hresult
      · cases hstep
      · next record hdue =>
          split at hstep
          · obtain ⟨-, hresult, -⟩ := Step.mk.inj (Option.some.inj hstep)
            exact .inr (.inl (Option.some.inj hresult).symm)
          · split at hstep
            · cases hstep
            · split at hstep
              · next e hrecord =>
                  obtain ⟨-, hresult, -⟩ := Step.mk.inj (Option.some.inj hstep)
                  rw [← Option.some.inj hresult]
                  exact .inr (.inr (isRefusal_of_due hdue hrecord))
              · cases hstep

end Session

namespace Simulation

open Session (Sound Series Ended smooth_outcome series_persist)

def isRetried (result : Except Error Unit) : Bool :=
  isInduced result || isRefusal result

theorem retries_isRetried : Retries isRetried := by
  constructor
  · intro result h
    rw [isRetried, h, Bool.true_or]
  · intro result h
    exact (Bool.or_eq_true _ _).mp h

structure Delivered (outs : List Outcome) (out smooth : Outcome) : Prop where
  shown : shownLines (outs.flatMap (Outcome.kept isRetried)) = shownLines smooth.events
  effects : effects (outs.flatMap (Outcome.kept isRetried)) = effects smooth.events
  result : out.result = smooth.result
  bytes : out.bytes = smooth.bytes
  repeated : Repeated (outs.flatMap Outcome.events)

/-- Lines that were not recorded might as well not have been given, and every line is shown until it
has been recorded. -/
theorem persist_delivers (os : List Occasion) (s : Schedule) (settings : Settings)
    (lines : List String) (n : Nat) (hloads : ∀ i, s.loadFails i = false) :
    let bytes := residue os ByteArray.empty
    let outs := (persist isRetried s settings n (start (lines.map .line) bytes)).1
    unconfirmedExit bytes (outs.flatMap Outcome.events) = false →
      ∀ out, outs.getLast? = some out → isRetried out.result = false →
        (out.result = .ok () ∨ out.result = .error .inputClosed) ∧
          ∃ rest, lines = taken (outs.flatMap Outcome.events) ++ rest ∧
            let heard := taken (outs.flatMap (Outcome.kept isRetried)) ++ rest
            Delivered outs out ((start (heard.map .line) bytes).outcome .faultless settings).1 := by
  intro bytes outs hquiet out hlast hended
  have hsound : Sound bytes := sound_residue os .empty
  have hseries : Series settings isRetried bytes (lines.map .line) outs _ _ :=
    series_persist settings hloads n (w := start (lines.map .line) bytes) hsound rfl
  obtain ⟨rest, -, htaken, ⟨hall, -⟩ | ⟨out', hlast', -, hbytes, hends⟩⟩ :=
    hseries.smooth retries_isRetried hsound rfl hquiet
  · rw [hall out (List.mem_of_getLast? hlast)] at hended
    cases hended
  · obtain rfl := Option.some.inj (hlast.symm.trans hlast')
    constructor
    · rcases hends.result_cases with hok | hclosed | hrefusal
      · exact .inl hok
      · exact .inr hclosed
      · rw [isRetried, hrefusal, Bool.or_true] at hended
        cases hended
    · refine ⟨rest, htaken, ?_⟩
      intro heard
      have hheard : (start (heard.map .line) bytes).script = heard.map .line := rfl
      obtain ⟨rest', -, hsmooth⟩ := smooth_outcome settings hsound rfl hheard
      obtain ⟨heffects, hresult, hsame, -⟩ := hends.unique hsmooth
      constructor
      · rw [shownLines_eq, heffects, shownLines_eq]
      · exact heffects
      · exact hresult
      · exact hbytes.trans hsame
      · exact hseries.repeated retries_isRetried ⟨out, hlast, hended⟩

theorem persist_delivers_sum :
    let s : Schedule := ⟨fun _ => false, (· == 4), fun _ => false, fun _ => false⟩
    let w := start [.line "add", .line "15", .line "x", .line "60", .line "exit"] ByteArray.empty
    let outs := (persist isRetried s ⟨420, .compact⟩ 4 w).1
    (∀ i, s.loadFails i = false) ∧ shownLines (outs.flatMap Outcome.events) = ["75", "75"] ∧
      ∃ out smooth, outs.getLast? = some out ∧ Delivered outs out smooth := by
  intro s w outs
  have hloads (i : Nat) : s.loadFails i = false := rfl
  have hshown : shownLines (outs.flatMap Outcome.events) = ["75", "75"] := by decide +kernel
  have hquiet : unconfirmedExit ByteArray.empty (outs.flatMap Outcome.events) = false := by
    decide +kernel
  have hended : outs.getLast?.map (fun out => isRetried out.result) = some false := by
    decide +kernel
  obtain ⟨out, hlast, hresult⟩ := Option.map_eq_some_iff.mp hended
  obtain ⟨-, rest, -, hdelivered⟩ := persist_delivers [] s ⟨420, .compact⟩
    ["add", "15", "x", "60", "exit"] 4 hloads hquiet out hlast hresult
  exact ⟨hloads, hshown, out, _, hlast, hdelivered⟩

end Simulation

end DurableCalc
