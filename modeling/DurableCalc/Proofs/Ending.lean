import DurableCalc.Proofs.Smooth

namespace DurableCalc

def exiting (bytes : ByteArray) : Bool :=
  match Journal.parse bytes with
  | .ok [_, name] => decide (Command.ofName name = .exit)
  | _ => false

namespace Dialogue

variable {α β : Type}

def EndsWith (a : α) : Dialogue α → Prop
  | .done b => b = a
  | .call _ next => ∀ r, EndsWith a (next r)

theorem endsWith_bind (d : Dialogue β) (a : α) : EndsWith a (d >>= fun _ => pure a) := by
  induction d with
  | done b => rfl
  | call c next ih => exact ih

theorem EndsWith.retrace {a : α} {d : Dialogue α} (h : EndsWith a d) {es : List String}
    {position : Nat} {drawn : Option (Nat × Int64)} {st : Standing α}
    (hst : d.retrace es position drawn = .ok st) : EndsWith a st.rest := by
  induction es generalizing d position drawn with
  | nil =>
      obtain rfl := Except.ok.inj hst
      exact h
  | cons e es ih =>
      cases d with
      | done b => cases hst
      | call c next =>
          cases c with
          | ask accept =>
              rw [Dialogue.retrace] at hst
              split at hst
              · exact ih (h _) hst
              · cases hst
          | tell line =>
              rw [Dialogue.retrace] at hst
              split at hst
              · exact ih (h ()) hst
              · cases hst
          | draw previous =>
              rw [Dialogue.retrace] at hst
              split at hst
              · exact ih (h _) hst
              · cases hst
          | stop e => cases hst

end Dialogue

namespace Session

variable {settings : Settings}

theorem named_exit {name : String} (h : Command.ofName name = .exit) (patience : Nat) :
    named patience name = .done true := by
  rw [named, h]
  rfl

theorem endsWith_named {name : String} (h : Command.ofName name ≠ .exit) (patience : Nat) :
    (named patience name).EndsWith false := by
  rw [named]
  cases hname : Command.ofName name with
  | exit => exact absurd hname h
  | _ => exact Dialogue.endsWith_bind _ _

theorem exiting_render {seed : Int64} {trace : List String}
    (htrace : ∀ e ∈ trace, Journal.Storable e) :
    exiting (Journal.render (seed.decimal :: trace)) = true ↔
      ∃ name, trace = [name] ∧ Command.ofName name = .exit := by
  have hparse : Journal.parse (Journal.render (seed.decimal :: trace))
      = .ok (seed.decimal :: trace) :=
    Journal.parse_render (List.forall_mem_cons.mpr ⟨Numeral.storable_decimal seed, htrace⟩)
  simp only [exiting, hparse]
  constructor
  · intro h
    split at h
    · next first name heq =>
        obtain ⟨rfl, rfl⟩ := List.cons.inj (Except.ok.inj heq)
        exact ⟨name, rfl, of_decide_eq_true h⟩
    · cases h
  · rintro ⟨name, rfl, h⟩
    exact decide_eq_true h

theorem standing_exit {name : String} (h : Command.ofName name = .exit) {st : Standing Bool}
    {patience : Nat} (hst : (turn patience).retrace [name] 1 none = .ok st) :
    st = ⟨none, .done true⟩ := by
  rw [retrace_named, named_exit h] at hst
  exact (Except.ok.inj hst).symm

theorem done_true_iff {trace : List String} {st : Standing Bool} {patience : Nat}
    (hst : (turn patience).retrace trace 1 none = .ok st) :
    st.rest = .done true ↔ ∃ name, trace = [name] ∧ Command.ofName name = .exit := by
  constructor
  · intro hdone
    cases trace with
    | nil =>
        obtain rfl := Except.ok.inj hst
        cases hdone
    | cons name es =>
        rw [retrace_named] at hst
        by_cases hexit : Command.ofName name = .exit
        · rw [named_exit hexit] at hst
          cases es with
          | nil => exact ⟨name, rfl, hexit⟩
          | cons e es => cases hst
        · have hends := (endsWith_named hexit patience).retrace hst
          rw [hdone] at hends
          cases hends
  · rintro ⟨name, rfl, hexit⟩
    rw [standing_exit hexit hst]

def Task.isLast : Task → Bool
  | .write _ _ last => last
  | _ => false

theorem isLast_nextTask {policy : ExitPolicy} {seed : Int64} {trace : List String}
    {d : Dialogue Bool} {task : Task} (h : nextTask policy seed trace d = some task) :
    task.isLast = true ↔ d = .done true := by
  cases d with
  | done exit =>
      cases exit with
      | true =>
          obtain rfl := Option.some.inj h
          cases policy <;> exact ⟨fun _ => rfl, fun _ => rfl⟩
      | false =>
          obtain rfl := Option.some.inj h
          exact ⟨nofun, nofun⟩
  | call c next =>
      cases c with
      | stop e => cases h
      | _ =>
          obtain rfl := Option.some.inj h
          exact ⟨nofun, nofun⟩

theorem isLast_due {bytes : ByteArray} (h : Sound bytes) {task : Task}
    (hdue : due settings bytes = some task) : task.isLast = exiting bytes := by
  rcases sound_iff.mp h with rfl | ⟨seed, trace, st, rfl, htrace, hst, -⟩
  · obtain rfl := Option.some.inj hdue
    rfl
  · rw [due_of_opens settings (opens_canonical seed htrace) hst] at hdue
    rw [Bool.eq_iff_iff, exiting_render htrace, ← done_true_iff hst]
    rcases taskAt_cases hdue with ⟨position, value, hdrawn, -, rfl⟩ | ⟨-, hnext⟩
    · refine ⟨nofun, fun hdone => ?_⟩
      obtain ⟨name, rfl, hexit⟩ := (done_true_iff hst).mp hdone
      rw [standing_exit hexit hst] at hdrawn
      cases hdrawn
    · exact isLast_nextTask hnext

theorem Reaches.last_eq {b b' : ByteArray} {u u' : List Utterance} {es : List Event}
    {operation : Operation} {last : Bool} (h : Reaches settings b u es operation b' last u')
    (hsound : Sound b) : last = exiting b := by
  cases h with
  | write hdue => exact isLast_due hsound hdue
  | tell hdue => exact isLast_due hsound hdue
  | ask hdue hblank hrecord => exact isLast_due hsound hdue

end Session

def Event.isExchange : Event → Bool
  | .handedOut _ | .shown _ => true
  | _ => false

def Event.isLost : Event → Bool
  | .lost _ => true
  | _ => false

def Event.isCrash : Event → Bool
  | .crashed _ => true
  | _ => false

def lostNext (events : List Event) : Bool :=
  events.head?.any Event.isLost

def confirmed : List Event → List Event
  | [] => []
  | e :: es => if e.isExchange && lostNext es then confirmed es else e :: confirmed es

def unconfirmedExit : ByteArray → List Event → Bool
  | _, [] => false
  | bytes, e :: es =>
      e.isCrash && exiting bytes || unconfirmedExit (e.landed?.getD bytes) es

theorem unconfirmedExit_append (bytes : ByteArray) (es fs : List Event) :
    unconfirmedExit bytes (es ++ fs)
      = (unconfirmedExit bytes es || unconfirmedExit (held bytes es) fs) := by
  induction es generalizing bytes with
  | nil => rfl
  | cons e es ih => simp only [List.cons_append, unconfirmedExit, held, ih, Bool.or_assoc]

theorem unconfirmedExit_of_exiting {bytes : ByteArray} {es : List Event}
    (h : exiting (held bytes es) = true) (bytes' : ByteArray) :
    unconfirmedExit bytes (es ++ [.crashed bytes']) = true := by
  rw [unconfirmedExit_append]
  simp [unconfirmedExit, Event.isCrash, h]

namespace Session

open Simulation (isInduced isRefusal)

variable {settings : Settings}

def isFault : Event → Bool
  | .readFailed | .showFailed _ | .lost _ | .crashed _ => true
  | _ => false

inductive Ending (settings : Settings) (b : ByteArray) (es : List Event) :
    Except Error Unit → ByteArray → List Utterance → Prop where
  | interrupted {e : Error} {b' : ByteArray} {u' : List Utterance} :
      isInduced (.error e) = true → es.any isFault = true → unconfirmedExit b es = false →
      Leads settings b (taken (confirmed es)) (effects (confirmed es)) b' →
      Ending settings b es (.error e) b' u'
  | unconfirmed {e : Error} {fs : List Event} {b' : ByteArray} {u' : List Utterance} :
      isInduced (.error e) = true → es = fs ++ [.crashed b'] → unconfirmedExit b fs = false →
      exiting (held b fs) = true →
      (∀ rest, Smooth settings b (taken es ++ rest) (effects es) (.ok ()) b' rest) →
      Ending settings b es (.error e) b' u'
  | refused {e : Error} {fs : List Event} {line : String} {b' : ByteArray} {u' : List Utterance} :
      isRefusal (.error e) = true → es = fs ++ [.handedOut line] → unconfirmedExit b es = false →
      confirmed es = es → Leads settings b (taken fs) (effects fs) b' →
      (∀ rest, Smooth settings b (taken es ++ rest) (effects es) (.error e) b' rest) →
      Ending settings b es (.error e) b' u'
  | left {b' : ByteArray} {u' : List Utterance} :
      unconfirmedExit b es = false → confirmed es = es →
      (∀ rest, Smooth settings b (taken es ++ rest) (effects es) (.ok ()) b' rest) →
      Ending settings b es (.ok ()) b' u'
  | closed {b' : ByteArray} :
      unconfirmedExit b es = false → confirmed es = es →
      Smooth settings b (taken es) (effects es) (.error .inputClosed) b' [] →
      Ending settings b es (.error .inputClosed) b' []

theorem Ending.prepend {b b₁ b' : ByteArray} {u' : List Utterance} {es fs : List Event}
    {result : Except Error Unit} (h : Ending settings b₁ fs result b' u')
    (hstep : ∀ rest, step settings b (taken es ++ rest) = some ⟨effects es, none, b₁, rest⟩)
    (hheld : held b es = b₁) (hexit : unconfirmedExit b es = false)
    (hconfirmed : confirmed (es ++ fs) = es ++ confirmed fs) :
    Ending settings b (es ++ fs) result b' u' := by
  have hleads := Leads.of_step hstep
  have hall (hfs : unconfirmedExit b₁ fs = false) : unconfirmedExit b (es ++ fs) = false := by
    rw [unconfirmedExit_append, hexit, hheld, hfs]
    rfl
  have hsmooth {ls : List String} {fx : List Effect} {result : Except Error Unit}
      {rest : List String} (h : Smooth settings b₁ ls fx result b' rest) :
      Smooth settings b (taken es ++ ls) (effects es ++ fx) result b' rest :=
    .go (hstep ls) h
  cases h with
  | interrupted hcause hfault hquiet hrest =>
      refine .interrupted hcause ?_ (hall hquiet) ?_
      · rw [List.any_append, hfault, Bool.or_true]
      · rw [hconfirmed, taken_append, effects_append]
        exact hleads.trans hrest
  | @unconfirmed e gs _ _ hcause hfs hquiet hexiting hrest =>
      subst hfs
      refine .unconfirmed hcause (List.append_assoc _ _ _).symm ?_ ?_ fun rest => ?_
      · rw [unconfirmedExit_append, hexit, hheld, hquiet]
        rfl
      · rw [held_append, hheld]
        exact hexiting
      · rw [taken_append, effects_append, List.append_assoc]
        exact hsmooth (hrest rest)
  | @refused e gs line _ _ hrefusal hfs hquiet hsame hbefore hrest =>
      have hlast : es ++ fs = es ++ gs ++ [.handedOut line] := by rw [hfs, List.append_assoc]
      refine .refused hrefusal hlast (hall hquiet) ?_ ?_ fun rest => ?_
      · rw [hconfirmed, hsame]
      · rw [taken_append, effects_append]
        exact hleads.trans hbefore
      · rw [taken_append, effects_append, List.append_assoc]
        exact hsmooth (hrest rest)
  | left hquiet hsame hrest =>
      refine .left (hall hquiet) (by rw [hconfirmed, hsame]) fun rest => ?_
      rw [taken_append, effects_append, List.append_assoc]
      exact hsmooth (hrest rest)
  | closed hquiet hsame hrest =>
      refine .closed (hall hquiet) (by rw [hconfirmed, hsame]) ?_
      rw [taken_append, effects_append]
      exact hsmooth hrest

theorem Reaches.quiet {b b' : ByteArray} {u u' : List Utterance} {es : List Event}
    {operation : Operation} {last : Bool} (h : Reaches settings b u es operation b' last u')
    (e : Event) :
    held b es = b ∧ unconfirmedExit b (es ++ [e]) = (e.isCrash && exiting b) := by
  cases h <;> exact ⟨rfl, Bool.or_false _⟩

theorem Reaches.confirmed_failed {b b' : ByteArray} {u u' : List Utterance} {es : List Event}
    {operation : Operation} {last : Bool} (h : Reaches settings b u es operation b' last u') :
    confirmed (es ++ [.lost b']) = [.lost b'] ∧
      confirmed (es ++ [.crashed b']) = es ++ [.crashed b'] := by
  cases h <;> exact ⟨rfl, rfl⟩

theorem Reaches.confirmed_stored {b b' : ByteArray} {u u' : List Utterance} {es : List Event}
    {operation : Operation} {last : Bool} (h : Reaches settings b u es operation b' last u')
    (fs : List Event) :
    confirmed (es ++ [.stored b'] ++ fs) = es ++ [.stored b'] ++ confirmed fs := by
  cases h <;> rfl

theorem Reaches.script_append {b b' : ByteArray} {u u' : List Utterance} {es : List Event}
    {operation : Operation} {last : Bool} (h : Reaches settings b u es operation b' last u')
    {e : Event} (he : e.taken? = none) : u = (taken (es ++ [e])).map .line ++ u' := by
  have hlast : taken [e] = [] := by
    rw [taken, List.filterMap_cons_none he]
    rfl
  rw [taken_append, hlast, List.append_nil]
  exact h.script

theorem isRefusal_of_due {b : ByteArray} {record : String → Except Error ByteArray}
    {entry : String} {e : Error} (hdue : due settings b = some (.ask record))
    (he : record entry = .error e) : isRefusal (.error e) = true := by
  rcases due_refuses hdue he with rfl | rfl <;> rfl

theorem Reaches.ending_crashed {b b' : ByteArray} {u u' : List Utterance} {es : List Event}
    {operation : Operation} {last : Bool} (h : Reaches settings b u es operation b' last u')
    (hsound : Sound b) :
    Ending settings b (es ++ [.crashed b']) (.error (.storage operation .induced)) b' u' := by
  have hlast := h.last_eq hsound
  have hquiet := h.quiet (.crashed b')
  have hstep (rest : List String) := h.step rest
  cases last with
  | true =>
      refine .unconfirmed rfl rfl ?_ ?_ fun rest => .stop ?_
      · cases h
        rfl
      · rw [hquiet.1, ← hlast]
      · rw [taken_append, effects_append, List.append_assoc]
        exact hstep rest
  | false =>
      refine .interrupted rfl ?_ ?_ ?_
      · rw [List.any_append]
        exact Bool.or_true _
      · rw [hquiet.2, ← hlast]
        rfl
      · rw [h.confirmed_failed.2]
        refine Leads.of_step fun rest => ?_
        rw [taken_append, effects_append, List.append_assoc]
        exact hstep rest

theorem Halt.ending {b b' : ByteArray} {u u' : List Utterance} {es : List Event}
    {result : Except Error Unit} (h : Halt settings b u es result b' u') (hsound : Sound b)
    {ls : List String} (hlines : u = ls.map .line) :
    Ending settings b es result b' u' ∧ u = (taken es).map .line ++ u' := by
  cases h with
  | left hreaches =>
      refine ⟨.left ?_ ?_ fun rest => .stop ?_, hreaches.script_append rfl⟩
      · rw [(hreaches.quiet _).2]
        rfl
      · simpa [confirmed] using hreaches.confirmed_stored []
      · rw [taken_append, effects_append, List.append_assoc]
        exact hreaches.step rest
  | lost hreaches =>
      refine ⟨.interrupted rfl ?_ ?_ ?_, hreaches.script_append rfl⟩
      · rw [List.any_append]
        exact Bool.or_true _
      · rw [(hreaches.quiet _).2]
        rfl
      · rw [hreaches.confirmed_failed.1]
        exact .refl b
  | crashed hreaches => exact ⟨hreaches.ending_crashed hsound, hreaches.script_append rfl⟩
  | refused hdue hblank hrecord =>
      refine ⟨.refused (isRefusal_of_due hdue hrecord) (List.nil_append _).symm rfl rfl (.refl b)
        fun rest => .stop ?_, rfl⟩
      simp only [step, hdue, taken, List.filterMap_cons, List.filterMap_nil, Event.taken?,
        List.cons_append, List.nil_append, hblank, hrecord]
      rfl
  | closed hdue =>
      refine ⟨.closed rfl rfl (.stop ?_), rfl⟩
      simp only [step, hdue]
      rfl
  | unheard hdue => exact ⟨.interrupted rfl rfl rfl (.refl b), rfl⟩
  | broken hdue => cases ls <;> cases hlines
  | unshown hdue => exact ⟨.interrupted rfl rfl rfl (.refl b), rfl⟩

theorem Halt.bytes_eq {b b' : ByteArray} {u u' : List Utterance} {es : List Event}
    {result : Except Error Unit} (h : Halt settings b u es result b' u') : b' = held b es := by
  cases h with
  | left hreaches =>
      rw [held_append]
      rfl
  | lost hreaches =>
      rw [held_append]
      exact (hreaches.quiet (.lost b)).1.symm
  | crashed hreaches =>
      rw [held_append]
      rfl
  | refused | closed | unheard | broken | unshown => rfl

theorem Course.bytes_eq {b b' : ByteArray} {u u' : List Utterance} {es : List Event}
    {result : Except Error Unit} (h : Course settings b u es result b' u') : b' = held b es := by
  induction h with
  | stored hreaches hcourse ih =>
      rw [held_append]
      exact ih
  | blank hdue hblank hcourse ih => exact ih
  | halt hhalt => exact hhalt.bytes_eq

theorem Halt.lostNext_of_ask {b b' : ByteArray} {u u' : List Utterance} {es : List Event}
    {result : Except Error Unit} (h : Halt settings b u es result b' u')
    {record : String → Except Error ByteArray} (hdue : due settings b = some (.ask record)) :
    lostNext es = false := by
  cases h with
  | left hreaches =>
      cases hreaches
      rfl
  | lost hreaches =>
      cases hreaches with
      | write hwrite => cases hdue.symm.trans hwrite
      | tell htell => cases hdue.symm.trans htell
      | ask => rfl
  | crashed hreaches => cases hreaches <;> rfl
  | refused | closed | unheard | broken | unshown => rfl

theorem Course.lostNext_of_ask {b b' : ByteArray} {u u' : List Utterance} {es : List Event}
    {result : Except Error Unit} (h : Course settings b u es result b' u')
    {record : String → Except Error ByteArray} (hdue : due settings b = some (.ask record)) :
    lostNext es = false := by
  cases h with
  | stored hreaches hcourse =>
      cases hreaches with
      | write => rfl
      | tell => rfl
      | ask => rfl
  | blank => rfl
  | halt hhalt => exact hhalt.lostNext_of_ask hdue

theorem step_blank {b : ByteArray} {record : String → Except Error ByteArray} {line : String}
    (hdue : due settings b = some (.ask record)) (hblank : Text.isBlank line = true)
    (rest : List String) :
    step settings b (taken [.handedOut line] ++ rest)
      = some ⟨effects [.handedOut line], none, b, rest⟩ := by
  simp only [step, hdue, taken, List.filterMap_cons, List.filterMap_nil, Event.taken?,
    List.cons_append, List.nil_append, hblank]
  rfl

theorem Course.ending {b b' : ByteArray} {u u' : List Utterance} {es : List Event}
    {result : Except Error Unit} (h : Course settings b u es result b' u') (hsound : Sound b)
    {ls : List String} (hlines : u = ls.map .line) :
    Ending settings b es result b' u' ∧ u = (taken es).map .line ++ u' := by
  induction h generalizing ls with
  | @stored b b₁ b' u u₁ u' es fs operation result hreaches hcourse ih =>
      have hscript : u = (taken (es ++ [.stored b₁])).map .line ++ u₁ := hreaches.script_append rfl
      obtain ⟨ms, rest, -, -, hrest⟩ := List.map_eq_append_iff.mp (hlines.symm.trans hscript)
      obtain ⟨hending, htaken⟩ := ih (hreaches.sound hsound) hrest.symm
      have happend : es ++ .stored b₁ :: fs = es ++ [.stored b₁] ++ fs := by simp
      rw [happend]
      constructor
      · refine hending.prepend ?_ ?_ ?_ (hreaches.confirmed_stored fs)
        · intro rest
          rw [taken_append, effects_append, List.append_assoc]
          exact hreaches.step rest
        · rw [held_append]
          rfl
        · rw [(hreaches.quiet _).2]
          rfl
      · rw [taken_append, List.map_append, List.append_assoc, ← htaken]
        exact hscript
  | @blank b b' u u' fs result record line hdue hblank hcourse ih =>
      cases ls with
      | nil => cases hlines
      | cons l ls =>
          obtain ⟨hending, htaken⟩ := ih hsound (List.cons.inj hlines).2
          have happend : .handedOut line :: fs = [.handedOut line] ++ fs := rfl
          rw [happend]
          constructor
          · refine hending.prepend (step_blank hdue hblank) rfl rfl ?_
            rw [List.singleton_append, confirmed, hcourse.lostNext_of_ask hdue]
            rfl
          · rw [taken_append, List.map_append, List.append_assoc, ← htaken]
            rfl
  | halt hhalt => exact hhalt.ending hsound hlines

end Session

end DurableCalc
