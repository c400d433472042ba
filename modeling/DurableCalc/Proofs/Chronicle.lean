import DurableCalc.Proofs.Trail

namespace DurableCalc

namespace Session

def standing (steps : List String) : Option (Dialogue Bool) :=
  match (turn (steps.length + 1)).retrace steps 1 none with
  | .ok st => some st.rest
  | .error _ => none

def isOver (steps : List String) : Bool :=
  match standing steps with
  | some (.done _) => true
  | _ => false

def isDrawing (steps : List String) : Bool :=
  match standing steps with
  | some (.call (.draw _) _) => true
  | _ => false

def inFlight (steps : List String) : List String :=
  if isOver steps then [] else steps

end Session

def Journal.seed? (bytes : ByteArray) : Option Int64 :=
  match parse bytes with
  | .ok (e :: _) => Numeral.readTrimmed? e
  | _ => none

structure Chronicle where
  seed : Option Int64
  flight : List String
  draws : Nat
  unrecorded : Option String

namespace Chronicle

open Session (isDrawing inFlight)

def start : Chronicle :=
  ⟨none, [], 0, none⟩

def record (c : Chronicle) (entry : String) : Chronicle :=
  if isDrawing c.flight then
    ⟨c.seed.map Generator.next, inFlight (c.flight ++ [entry]), c.draws + 1, none⟩
  else ⟨c.seed, inFlight (c.flight ++ [entry]), c.draws, none⟩

def land (c : Chronicle) (bytes : ByteArray) : Chronicle :=
  match c.unrecorded with
  | some entry => c.record entry
  | none =>
      if c.seed = none ∨ bytes.isEmpty then { c with seed := Journal.seed? bytes } else c

def next (c : Chronicle) (e : Event) : Chronicle :=
  match e.landed? with
  | some bytes => c.land bytes
  | none => { c with unrecorded := e.step? }

def along (c : Chronicle) (events : List Event) : Chronicle :=
  events.foldl next c

def rested (c : Chronicle) : Chronicle :=
  { c with unrecorded := none }

@[simp] theorem along_nil (c : Chronicle) : c.along [] = c := rfl

@[simp] theorem along_cons (c : Chronicle) (e : Event) (es : List Event) :
    c.along (e :: es) = (c.next e).along es := rfl

@[simp] theorem along_append (c : Chronicle) (es fs : List Event) :
    c.along (es ++ fs) = (c.along es).along fs :=
  List.foldl_append ..

theorem next_of_landed (c : Chronicle) {e : Event} {bytes : ByteArray}
    (he : e.landed? = some bytes) : c.next e = c.land bytes := by
  simp [next, he]

theorem rested_along_of_idle {es : List Event} (h : Session.Idle es) (c : Chronicle) :
    (c.along es).rested = c.rested := by
  have hlanded := h.landed
  clear h
  induction es generalizing c with
  | nil => rfl
  | cons e es ih =>
      obtain ⟨he, hes⟩ := List.forall_mem_cons.mp hlanded
      rw [along_cons, ih (c.next e) hes, next, he]
      rfl

theorem held_of_idle {es : List Event} (h : Session.Idle es) (b : ByteArray) : held b es = b := by
  have hlanded := h.landed
  clear h
  induction es with
  | nil => rfl
  | cons e es ih =>
      obtain ⟨he, hes⟩ := List.forall_mem_cons.mp hlanded
      rw [held, he]
      exact ih hes

end Chronicle

namespace Session

def settled (st : Standing Bool) (seed : Int64) : Int64 :=
  match st.drawn with
  | none => seed
  | some (_, value) => if Pending seed value then Generator.next value else seed

variable {seed : Int64} {trace : List String} {st : Standing Bool}

theorem standing_eq
    (hst : (turn (trace.length + 1)).retrace trace 1 none = .ok st) :
    standing trace = some st.rest := by
  simp only [standing, hst]

theorem settled_of_not_pending
    (h : ∀ position value, st.drawn = some (position, value) → ¬ Pending seed value) :
    settled st seed = seed := by
  obtain ⟨drawn, d⟩ := st
  cases drawn with
  | none => rfl
  | some drawn => exact if_neg (h drawn.1 drawn.2 rfl)

theorem settled_drawn (position : Nat) (seed : Int64) (d : Dialogue Bool) :
    settled ⟨some (position, seed), d⟩ seed = Generator.next seed := by
  simp only [settled]
  split
  · rfl
  · next hpending => exact eq_next_of_not_pending (.inl rfl) hpending

theorem settled_next {position : Nat} {value : Int64}
    (h : st.drawn = some (position, value)) :
    settled st (Generator.next value) = Generator.next value := by
  simp only [settled, h]
  exact if_neg fun hpending => hpending.2 rfl

theorem inFlight_of_call
    (hst : (turn (trace.length + 1)).retrace trace 1 none = .ok st) {call : Dialogue.Call}
    {next : Dialogue.Reply call → Dialogue Bool} (hrest : st.rest = .call call next) :
    inFlight trace = trace := by
  simp [inFlight, isOver, standing_eq hst, hrest]

theorem inFlight_of_done
    (hst : (turn (trace.length + 1)).retrace trace 1 none = .ok st) {exit : Bool}
    (hrest : st.rest = .done exit) : inFlight trace = [] := by
  simp [inFlight, isOver, standing_eq hst, hrest]

theorem isDrawing_eq
    (hst : (turn (trace.length + 1)).retrace trace 1 none = .ok st) :
    isDrawing trace = true ↔ ∃ previous next, st.rest = .call (.draw previous) next := by
  rw [isDrawing, standing_eq hst]
  constructor
  · intro h
    split at h
    · next previous next heq => exact ⟨previous, next, Option.some.inj heq⟩
    · cases h
  · rintro ⟨previous, next, hrest⟩
    rw [hrest]

theorem not_isDrawing (hst : (turn (trace.length + 1)).retrace trace 1 none = .ok st)
    (h : ∀ previous next, st.rest ≠ .call (.draw previous) next) : isDrawing trace = false := by
  rw [← Bool.not_eq_true, isDrawing_eq hst]
  rintro ⟨previous, next, hdraw⟩
  exact h previous next hdraw

theorem call_of_nextTask {policy : ExitPolicy} {d : Dialogue Bool} {task : Task}
    (h : nextTask policy seed trace d = some task)
    (htask : ∀ operation bytes last, task ≠ .write operation bytes last) :
    ∃ call next, d = .call call next := by
  cases d with
  | done exit =>
      cases exit with
      | true =>
          obtain rfl := Option.some.inj h
          cases policy with
          | compact => exact absurd rfl (htask _ _ _)
          | clear => exact absurd rfl (htask _ _ _)
      | false =>
          obtain rfl := Option.some.inj h
          exact absurd rfl (htask _ _ _)
  | call call next => exact ⟨call, next, rfl⟩

end Session

namespace Chronicle

open Session

variable {settings : Settings} {c : Chronicle}

inductive Fits (c : Chronicle) : ByteArray → Prop where
  | empty : c.seed = none → c.flight = [] → c.unrecorded = none → Fits c ByteArray.empty
  | journal {seed : Int64} {trace : List String} {st : Standing Bool} :
      (∀ e ∈ trace, Journal.Storable e) →
      (turn (trace.length + 1)).retrace trace 1 none = .ok st →
      (∀ position value, st.drawn = some (position, value) →
        seed = value ∨ seed = Generator.next value) →
      c.seed = some (settled st seed) → c.flight = inFlight trace → c.unrecorded = none →
      Fits c (Journal.render (seed.decimal :: trace))

theorem Fits.sound {b : ByteArray} (h : Fits c b) : Sound b := by
  cases h with
  | empty => exact .empty
  | journal htrace hst hdrawn => exact .journal htrace hst hdrawn

theorem Fits.recorded_all {b : ByteArray} (h : Fits c b) : c.unrecorded = none := by
  cases h with
  | empty hseed hflight hnone => exact hnone
  | journal htrace hst hdrawn hseed hflight hnone => exact hnone

theorem fits_fresh {seed : Int64} (hseed : c.seed = some seed) (hflight : c.flight = [])
    (hnone : c.unrecorded = none) : Fits c (Journal.render [seed.decimal]) :=
  @Fits.journal c seed [] ⟨none, turn 1⟩ nofun rfl nofun hseed hflight hnone

theorem Fits.record {seed : Int64} {trace : List String} {st st' : Standing Bool} {entry : String}
    (htrace : ∀ e ∈ trace, Journal.Storable e) (hentry : Journal.Storable entry)
    (hst : (turn (trace.length + 1)).retrace trace 1 none = .ok st)
    (hst' : st.rest.retrace [entry] (1 + trace.length) st.drawn = .ok st')
    (hdrawn : ∀ position value, st'.drawn = some (position, value) →
      seed = value ∨ seed = Generator.next value)
    (hflight : c.flight = trace) (hseed : (c.record entry).seed = some (settled st' seed)) :
    Fits (c.record entry) (recorded seed trace entry) := by
  have hmore : Dialogue.Within (turn (trace.length + 1)) (turn ((trace ++ [entry]).length + 1)) :=
    within_turn (by simp)
  obtain ⟨rest, hrest, hwithin⟩ := hmore.retrace hst
  obtain ⟨rest', hrest', -⟩ := hwithin.retrace hst'
  have hst'' := (Dialogue.retrace_append hrest).trans hrest'
  have hall : ∀ e ∈ trace ++ [entry], Journal.Storable e := by
    intro e he
    rcases List.mem_append.mp he with he | he
    · exact htrace e he
    · rw [List.mem_singleton.mp he]
      exact hentry
  have hsteps : (c.record entry).flight = inFlight (trace ++ [entry]) := by
    rw [Chronicle.record, hflight]
    split <;> rfl
  have hnone : (c.record entry).unrecorded = none := by
    rw [Chronicle.record]
    split <;> rfl
  exact .journal hall hst'' hdrawn hseed hsteps hnone

structure Poised (settings : Settings) (c : Chronicle) (b : ByteArray) (seed : Int64)
    (st : Standing Bool) (task : Task) : Prop where
  storable : ∀ e ∈ c.flight, Journal.Storable e
  retraced : (turn (c.flight.length + 1)).retrace c.flight 1 none = .ok st
  drawn : ∀ position value, st.drawn = some (position, value) → seed = Generator.next value
  seed_eq : c.seed = some seed
  bytes : b = Journal.render (seed.decimal :: c.flight)
  next : nextTask settings.exitPolicy seed c.flight st.rest = some task

theorem Fits.poised {b : ByteArray} (h : Fits c b) {task : Task}
    (hdue : due settings b = some task)
    (htask : ∀ operation bytes last, task ≠ .write operation bytes last) :
    ∃ seed st, Poised settings c b seed st task := by
  cases h with
  | empty =>
      obtain rfl := Option.some.inj hdue
      exact absurd rfl (htask _ _ _)
  | @journal seed trace st htrace hst hdrawn hseed hflight hnone =>
      rw [due_of_opens settings (opens_canonical seed htrace) hst] at hdue
      rcases taskAt_cases hdue with ⟨position, value, -, -, rfl⟩ | ⟨hpending, hnext⟩
      · exact absurd rfl (htask _ _ _)
      · obtain ⟨call, next, hrest⟩ := call_of_nextTask hnext htask
        have hall : c.flight = trace := hflight.trans (inFlight_of_call hst hrest)
        rw [settled_of_not_pending hpending] at hseed
        subst hall
        refine ⟨seed, st, htrace, hst, ?_, hseed, rfl, hnext⟩
        intro position value hvalue
        exact eq_next_of_not_pending (hdrawn position value hvalue) (hpending position value hvalue)

theorem record_seed_of_drawing {entry : String} (h : isDrawing c.flight = true) :
    (c.record entry).seed = c.seed.map Generator.next := by
  rw [Chronicle.record, if_pos h]

theorem record_seed_of_not_drawing {entry : String} (h : isDrawing c.flight = false) :
    (c.record entry).seed = c.seed := by
  rw [Chronicle.record, h]
  rfl

theorem Poised.fits_told {b b' : ByteArray} {seed : Int64} {st : Standing Bool} {line : String}
    (h : Poised settings c b seed st (.tell line b')) : Fits (c.record line) b' := by
  obtain ⟨hall, hst, hdrawn, hseed, -, hnext⟩ := h
  have hproper := proper_rest hst
  obtain ⟨drawn, d⟩ := st
  cases d with
  | done exit =>
      obtain ⟨call, next, hcall⟩ := call_of_nextTask hnext nofun
      cases hcall
  | call call next =>
      cases call with
      | ask accept => cases hnext
      | tell told =>
          obtain ⟨rfl, rfl⟩ := Task.tell.inj (Option.some.inj hnext)
          have hstep := Dialogue.retrace_tell (1 + c.flight.length) drawn told next
          have hquiet : isDrawing c.flight = false := not_isDrawing hst nofun
          refine .record hall hproper.1 hst hstep Standing.undrawn rfl ?_
          rw [record_seed_of_not_drawing hquiet]
          exact hseed
      | draw previous =>
          obtain ⟨rfl, rfl⟩ := Task.tell.inj (Option.some.inj hnext)
          have hprevious (x : Int64) (hx : previous = some x) : seed = Generator.next x := by
            obtain ⟨⟨position, value⟩, hvalue, rfl⟩ := Option.map_eq_some_iff.mp (hproper.1 x hx)
            exact hdrawn position value hvalue
          have hstep : Dialogue.retrace [seed.decimal] (1 + c.flight.length) drawn
              (.call (.draw previous) next : Dialogue Bool) = _ :=
            Dialogue.retrace_draw _ _ (recordedDraw_decimal hprevious)
          refine .record hall (Numeral.storable_decimal seed) hst hstep ?_ rfl ?_
          · intro position value hvalue
            obtain ⟨-, rfl⟩ := Prod.mk.inj (Option.some.inj hvalue)
            exact .inl rfl
          · rw [record_seed_of_drawing ((isDrawing_eq hst).mpr ⟨previous, next, rfl⟩), hseed,
              settled_drawn]
            rfl
      | stop e => cases hnext

theorem Poised.fits_asked {b b' : ByteArray} {seed : Int64} {st : Standing Bool}
    {record : String → Except Error ByteArray} (h : Poised settings c b seed st (.ask record))
    {entry : String} (hrecord : record entry = .ok b') : Fits (c.record entry) b' := by
  obtain ⟨hall, hst, hdrawn, hseed, -, hnext⟩ := h
  obtain ⟨drawn, d⟩ := st
  cases d with
  | done exit =>
      obtain ⟨call, next, hcall⟩ := call_of_nextTask hnext nofun
      cases hcall
  | call call next =>
      cases call with
      | ask accept =>
          obtain rfl := Task.ask.inj (Option.some.inj hnext)
          obtain ⟨a, haccept, hentry, rfl⟩ := recording_eq_ok hrecord
          have hstep : Dialogue.retrace [entry] (1 + c.flight.length) drawn
              (.call (.ask accept) next : Dialogue Bool) = _ := Dialogue.retrace_ask _ _ haccept
          have hquiet : isDrawing c.flight = false := not_isDrawing hst nofun
          refine .record hall hentry hst hstep Standing.undrawn rfl ?_
          rw [record_seed_of_not_drawing hquiet]
          exact hseed
      | tell line => cases hnext
      | draw previous => cases hnext
      | stop e => cases hnext

theorem land_of_none {bytes : ByteArray} (h : c.unrecorded = none) :
    c.land bytes
      = if c.seed = none ∨ bytes.isEmpty then { c with seed := Journal.seed? bytes } else c := by
  rw [land, h]

theorem seed?_of_opens {bytes : ByteArray} {seed : Int64} {trace : List String}
    (h : Journal.Opens bytes seed trace) : Journal.seed? bytes = some seed := by
  obtain ⟨e, hparse, hseed⟩ := h
  rw [Journal.seed?, hparse]
  exact hseed

theorem isEmpty_render (seed : Int64) {trace : List String}
    (h : ∀ e ∈ trace, Journal.Storable e) :
    (Journal.render (seed.decimal :: trace)).isEmpty = false :=
  (opens_canonical seed h).not_isEmpty

theorem land_render {seed : Int64} {trace : List String} (hnone : c.unrecorded = none)
    (hseed : c.seed = some seed) (htrace : ∀ e ∈ trace, Journal.Storable e) (seed' : Int64) :
    c.land (Journal.render (seed'.decimal :: trace)) = c := by
  rw [land_of_none hnone, isEmpty_render seed' htrace, if_neg (by simp [hseed])]

theorem fits_first (hseed : c.seed = none) (hflight : c.flight = []) (hnone : c.unrecorded = none)
    (seed : Int64) :
    Fits (c.land (Journal.render [seed.decimal])) (Journal.render [seed.decimal]) := by
  rw [land_of_none hnone, if_pos (.inl hseed)]
  exact fits_fresh (seed?_of_opens (opens_canonical seed nofun)) hflight hnone

theorem fits_boundary {seed : Int64} (hseed : c.seed = some seed) (hflight : c.flight = [])
    (hnone : c.unrecorded = none) :
    Fits (c.land (Journal.render [seed.decimal])) (Journal.render [seed.decimal]) := by
  have hnil : ∀ e ∈ ([] : List String), Journal.Storable e := nofun
  rw [land_render hnone hseed hnil seed]
  exact fits_fresh hseed hflight hnone

theorem fits_wiped (hflight : c.flight = []) (hnone : c.unrecorded = none) :
    Fits (c.land ByteArray.empty) ByteArray.empty := by
  rw [land_of_none hnone, if_pos (.inr rfl)]
  exact .empty rfl hflight hnone

theorem fits_nextTask {policy : ExitPolicy} {seed : Int64} {trace : List String}
    {st : Standing Bool} (hst : (turn (trace.length + 1)).retrace trace 1 none = .ok st)
    (hseed : c.seed = some seed) (hflight : c.flight = inFlight trace) (hnone : c.unrecorded = none)
    {operation : Operation} {bytes : ByteArray} {last : Bool}
    (h : nextTask policy seed trace st.rest = some (.write operation bytes last)) :
    Fits (c.land bytes) bytes := by
  obtain ⟨drawn, d⟩ := st
  cases d with
  | done exit =>
      rw [inFlight_of_done hst rfl] at hflight
      cases exit with
      | false =>
          cases h
          exact fits_boundary hseed hflight hnone
      | true =>
          cases policy with
          | compact =>
              cases h
              exact fits_boundary hseed hflight hnone
          | clear =>
              cases h
              exact fits_wiped hflight hnone
  | call call next => cases call <;> cases h

theorem Fits.written {b b' : ByteArray} (h : Fits c b) {operation : Operation} {last : Bool}
    (hdue : due settings b = some (.write operation b' last)) : Fits (c.land b') b' := by
  cases h with
  | empty hseed hflight hnone =>
      cases hdue
      exact fits_first hseed hflight hnone settings.defaultSeed
  | @journal seed trace st htrace hst hdrawn hseed hflight hnone =>
      rw [due_of_opens settings (opens_canonical seed htrace) hst] at hdue
      rcases taskAt_cases hdue with ⟨position, value, hvalue, hpending, htask⟩ | ⟨hpending, hnext⟩
      · cases htask
        rw [land_render hnone hseed htrace]
        have hmoved : settled st seed = settled st (Generator.next value) := by
          rw [settled_next hvalue]
          simp only [settled, hvalue]
          exact if_pos hpending
        refine .journal htrace hst ?_ (hseed.trans (congrArg some hmoved)) hflight hnone
        intro position' value' hvalue'
        obtain ⟨rfl, rfl⟩ := Prod.mk.inj (Option.some.inj (hvalue.symm.trans hvalue'))
        exact .inr rfl
      · rw [settled_of_not_pending hpending] at hseed
        exact fits_nextTask hst hseed hflight hnone hnext

theorem next_recording {e e' : Event} {entry : String} {bytes : ByteArray}
    (hentry : e.step? = some entry) (he : e.landed? = none) (he' : e'.landed? = some bytes) :
    (c.next e).next e' = c.record entry := by
  simp only [next, he, he', hentry, land]
  rfl

theorem Fits.landed {b b' : ByteArray} (h : Fits c b) {u u' : List Utterance} {es : List Event}
    {operation : Operation} {last : Bool} (hreaches : Reaches settings b u es operation b' last u')
    {e : Event} (he : e.landed? = some b') : Fits ((c.along es).next e) b' := by
  cases hreaches with
  | write hdue =>
      rw [along_nil, next_of_landed c he]
      exact h.written hdue
  | tell hdue =>
      obtain ⟨seed, st, hpoised⟩ := h.poised hdue nofun
      rw [along_cons, along_nil, next_recording rfl rfl he]
      exact hpoised.fits_told
  | @ask _ record line _ hdue hblank hrecord =>
      obtain ⟨seed, st, hpoised⟩ := h.poised hdue nofun
      have hentry : (Event.handedOut line).step? = some (Text.trim line) := by
        simp [Event.step?, hblank]
      rw [along_cons, along_nil, next_recording hentry rfl he]
      exact hpoised.fits_asked hrecord

theorem Fits.next_blank {b : ByteArray} (h : Fits c b) {line : String}
    (hblank : Text.isBlank line = true) : c.next (.handedOut line) = c := by
  have hnone := h.recorded_all
  obtain ⟨seed, flight, draws, unrecorded⟩ := c
  subst hnone
  simp [next, Event.landed?, Event.step?, hblank]

theorem Fits.trail {b b' : ByteArray} {es : List Event} (htrail : Trail settings b es b')
    (h : Fits c b) : Fits (c.along es) b' := by
  induction htrail generalizing c with
  | nil b => exact h
  | landed hreaches he htrail ih =>
      rw [along_append, along_cons]
      exact ih (h.landed hreaches he)
  | blank hdue hblank htrail ih =>
      rw [along_cons, h.next_blank hblank]
      exact ih h

theorem Fits.rested_eq {b : ByteArray} (h : Fits c b) : c.rested = c := by
  have hnone := h.recorded_all
  obtain ⟨seed, flight, draws, unrecorded⟩ := c
  subst hnone
  rfl

theorem Fits.begun {b : ByteArray} (h : Fits c b) {es : List Event}
    (hbegun : TrailBegun settings b es) : Fits (c.along es).rested (held b es) := by
  obtain ⟨before, rest, b₁, rfl, htrail, hidle⟩ := hbegun
  have hfits := h.trail htrail
  rw [along_append, rested_along_of_idle hidle, hfits.rested_eq, held_append, htrail.held_eq,
    held_of_idle hidle]
  exact hfits

end Chronicle

end DurableCalc
