import DurableCalc.Proofs.Drawless
import DurableCalc.Proofs.Transcript
import Mathlib.Logic.Function.Iterate

namespace DurableCalc

def Journal.command? (bytes : ByteArray) : Option Command :=
  match parse bytes with
  | .ok (_ :: name :: _) => some (Command.ofName name)
  | _ => none

def firstSeed (events : List Event) : Option Int64 :=
  events.findSome? fun e => e.landed?.bind Journal.seed?

theorem firstSeed_append (es fs : List Event) :
    firstSeed (es ++ fs) = (firstSeed es).or (firstSeed fs) :=
  List.findSome?_append

theorem firstSeed_of_idle {es : List Event} (h : Session.Idle es) : firstSeed es = none := by
  rw [firstSeed, List.findSome?_eq_none_iff]
  intro e he
  rw [h.landed e he]
  rfl

theorem firstSeed_cons_landed {e : Event} {bytes : ByteArray} (he : e.landed? = some bytes)
    (es : List Event) : firstSeed (e :: es) = (Journal.seed? bytes).or (firstSeed es) := by
  rw [firstSeed, List.findSome?_cons, he, Option.bind_some]
  cases Journal.seed? bytes <;> rfl

namespace Session

variable {settings : Settings} {seed : Int64} {trace : List String} {st : Standing Bool}

theorem seed?_render (seed : Int64) (htrace : ∀ e ∈ trace, Journal.Storable e) :
    Journal.seed? (Journal.render (seed.decimal :: trace)) = some seed :=
  Chronicle.seed?_of_opens (opens_canonical seed htrace)

theorem isEmpty_of_seed? {bytes : ByteArray} (h : Journal.seed? bytes = some seed) :
    bytes.isEmpty = false := by
  rw [Journal.seed?] at h
  split at h
  · next e es hparse => exact Journal.Opens.not_isEmpty ⟨e, hparse, h⟩
  · cases h

theorem command?_of_drawn (htrace : ∀ e ∈ trace, Journal.Storable e)
    (hst : (turn (trace.length + 1)).retrace trace 1 none = .ok st) (hdrawn : st.drawn ≠ none)
    (seed : Int64) :
    Journal.command? (Journal.render (seed.decimal :: trace)) = some .rand := by
  obtain ⟨name, rest, rfl, hname⟩ := rand_of_drawn hst hdrawn
  have hparse : Journal.parse (Journal.render (seed.decimal :: name :: rest))
      = .ok (seed.decimal :: name :: rest) :=
    Journal.parse_render (List.forall_mem_cons.mpr ⟨Numeral.storable_decimal seed, htrace⟩)
  simp only [Journal.command?, hparse, hname]

theorem seed?_nextTask (htrace : ∀ e ∈ trace, Journal.Storable e) {asks : Nat} {last : Option Int64}
    {d : Dialogue Bool} (hd : d.Proper asks last) {task : Task}
    (h : nextTask .compact seed trace d = some task) {bytes : ByteArray}
    (hwrites : task.Writes bytes) : Journal.seed? bytes = some seed := by
  have hmore {entry : String} (hentry : Journal.Storable entry) :
      Journal.seed? (recorded seed trace entry) = some seed := by
    refine seed?_render seed fun e he => ?_
    rcases List.mem_append.mp he with he | he
    · exact htrace e he
    · rw [List.mem_singleton.mp he]
      exact hentry
  have hfresh : Journal.seed? (Journal.render [seed.decimal]) = some seed :=
    seed?_render seed (List.forall_mem_nil _)
  cases d with
  | done exit =>
      cases exit with
      | true =>
          obtain rfl := Option.some.inj h
          cases hwrites
          exact hfresh
      | false =>
          obtain rfl := Option.some.inj h
          cases hwrites
          exact hfresh
  | call c next =>
      cases c with
      | ask accept =>
          obtain rfl := Option.some.inj h
          cases hwrites with
          | ask hrecord =>
              obtain ⟨a, haccept, hentry, rfl⟩ := recording_eq_ok hrecord
              exact hmore hentry
      | tell line =>
          obtain rfl := Option.some.inj h
          cases hwrites
          exact hmore hd.1
      | draw previous =>
          obtain rfl := Option.some.inj h
          cases hwrites
          exact hmore (Numeral.storable_decimal seed)
      | stop e => cases h

inductive Moves (b b' : ByteArray) : Prop where
  | first (seed : Int64) : b = ByteArray.empty → b' = Journal.render [seed.decimal] → Moves b b'
  | stays (seed : Int64) : Journal.seed? b = some seed → Journal.seed? b' = some seed → Moves b b'
  | steps (seed : Int64) : Journal.seed? b = some seed → Journal.command? b = some .rand →
      Journal.seed? b' = some (Generator.next seed) → Moves b b'

theorem Moves.seed? {b b' : ByteArray} (h : Moves b b') : ∃ seed, Journal.seed? b' = some seed := by
  cases h with
  | first seed hb hb' =>
      rw [hb']
      exact ⟨seed, seed?_render seed (List.forall_mem_nil _)⟩
  | stays seed hb hb' => exact ⟨seed, hb'⟩
  | steps seed hb hcommand hb' => exact ⟨_, hb'⟩

theorem Reaches.moves {b b' : ByteArray} {u u' : List Utterance} {es : List Event}
    {operation : Operation} {last : Bool} (h : Reaches settings b u es operation b' last u')
    (hsound : Sound b) (hcompact : settings.exitPolicy = .compact) : Moves b b' := by
  obtain ⟨task, hdue, hwrites⟩ := h.writes
  cases hsound with
  | empty =>
      obtain rfl := Option.some.inj hdue
      cases hwrites
      exact .first settings.defaultSeed rfl rfl
  | @journal seed trace st htrace hst hdrawn =>
      rw [due_of_opens settings (opens_canonical seed htrace) hst, hcompact] at hdue
      have hseed := seed?_render seed htrace
      rcases taskAt_cases hdue with ⟨position, value, hvalue, hpending, rfl⟩ | ⟨-, hnext⟩
      · cases hwrites
        have hrand : st.drawn ≠ none := by
          rw [hvalue]
          exact nofun
        refine .steps seed hseed (command?_of_drawn htrace hst hrand seed) ?_
        rw [hpending.1]
        exact seed?_render _ htrace
      · exact .stays seed hseed (seed?_nextTask htrace (proper_rest hst) hnext hwrites)

end Session

namespace Chronicle

open Session

variable {settings : Settings} {c : Chronicle}

structure Rooted (first : Option Int64) (c : Chronicle) : Prop where
  seed : c.seed = first.map (Generator.next^[c.draws])
  draws : first = none → c.draws = 0

theorem Rooted.start : Rooted none start :=
  ⟨rfl, fun _ => rfl⟩

theorem Rooted.rested {first : Option Int64} (h : Rooted first c) : Rooted first c.rested :=
  ⟨h.seed, h.draws⟩

theorem Rooted.record {first : Int64} (h : Rooted (some first) c) (entry : String) :
    Rooted (some first) (c.record entry) := by
  refine ⟨?_, nofun⟩
  cases hdrawing : isDrawing c.flight with
  | true =>
      have hdraws : (c.record entry).draws = c.draws + 1 := by rw [Chronicle.record, if_pos hdrawing]
      rw [record_seed_of_drawing hdrawing, h.seed, hdraws, Option.map_some, Option.map_some,
        Option.map_some, Function.iterate_succ_apply']
  | false =>
      have hdraws : (c.record entry).draws = c.draws := by
        rw [Chronicle.record, hdrawing]
        rfl
      rw [record_seed_of_not_drawing hdrawing, h.seed, hdraws]

theorem Rooted.seed_eq {first : Option Int64} (h : Rooted first c) {seed : Int64}
    (hseed : c.seed = some seed) :
    ∃ s₀, first = some s₀ ∧ seed = Generator.next^[c.draws] s₀ := by
  obtain ⟨s₀, hfirst, hsteps⟩ := Option.map_eq_some_iff.mp (h.seed.symm.trans hseed)
  exact ⟨s₀, hfirst, hsteps.symm⟩

theorem Rooted.first {first : Option Int64} (h : Rooted first c) (hseed : c.seed = none)
    (hnone : c.unrecorded = none) {bytes : ByteArray} :
    Rooted (Journal.seed? bytes) (c.land bytes) := by
  have hfirst : first = none := Option.map_eq_none_iff.mp (h.seed.symm.trans hseed)
  have hdraws : c.draws = 0 := h.draws hfirst
  rw [land_of_none hnone, if_pos (.inl hseed)]
  refine ⟨?_, fun _ => hdraws⟩
  simp [hdraws]

theorem Fits.eq_empty {b : ByteArray} (h : Fits c b) (hseed : c.seed = none) :
    b = ByteArray.empty := by
  cases h with
  | empty => rfl
  | journal htrace hst hdrawn hsome => cases hseed.symm.trans hsome

theorem Fits.seed_of_opens {b : ByteArray} {seed : Int64} (h : Fits c b)
    (hopens : Journal.Opens b seed []) : c.seed = some seed := by
  cases h with
  | empty => cases hopens.not_isEmpty
  | @journal seed' trace st htrace hst hdrawn hsome =>
      obtain ⟨e, hparse, hread⟩ := hopens
      obtain ⟨e', hparse', hread'⟩ := opens_canonical seed' htrace
      obtain ⟨rfl, rfl⟩ := List.cons.inj (Except.ok.inj (hparse.symm.trans hparse'))
      obtain rfl := Option.some.inj (hread.symm.trans hread')
      obtain rfl := Except.ok.inj hst
      exact hsome

theorem reaches_empty {b' : ByteArray} {u u' : List Utterance} {es : List Event}
    {operation : Operation} {last : Bool}
    (h : Reaches settings ByteArray.empty u es operation b' last u') : es = [] := by
  cases h with
  | write => rfl
  | tell hdue => cases hdue
  | ask hdue => cases hdue

theorem Rooted.landed {first : Option Int64} {b b' : ByteArray} (h : Rooted first c)
    (hfits : Fits c b) {u u' : List Utterance} {es : List Event} {operation : Operation}
    {last : Bool} (hreaches : Reaches settings b u es operation b' last u') {e : Event}
    (he : e.landed? = some b') (hcompact : settings.exitPolicy = .compact) :
    Rooted (first.or (Journal.seed? b')) ((c.along es).next e) := by
  cases hseed : c.seed with
  | none =>
      have hfirst : first = none := Option.map_eq_none_iff.mp (h.seed.symm.trans hseed)
      obtain rfl := hfits.eq_empty hseed
      rw [reaches_empty hreaches, along_nil, next_of_landed c he, hfirst, Option.none_or]
      exact h.first hseed hfits.recorded_all
  | some seed =>
      obtain ⟨s₀, rfl, -⟩ := h.seed_eq hseed
      rw [Option.some_or]
      obtain ⟨seed', hseed'⟩ := (hreaches.moves hfits.sound hcompact).seed?
      cases hreaches with
      | write hdue =>
          rw [along_nil, next_of_landed c he, land_of_none hfits.recorded_all,
            isEmpty_of_seed? hseed', if_neg (by simp [hseed])]
          exact h
      | tell hdue =>
          rw [along_cons, along_nil, next_recording rfl rfl he]
          exact h.record _
      | @ask _ record line _ hdue hblank hrecord =>
          have hstep : (Event.handedOut line).step? = some (Text.trim line) := by
            simp [Event.step?, hblank]
          rw [along_cons, along_nil, next_recording hstep rfl he]
          exact h.record _

theorem firstSeed_landed {b b' : ByteArray} {u u' : List Utterance} {es : List Event}
    {operation : Operation} {last : Bool} (hreaches : Reaches settings b u es operation b' last u')
    {e : Event} (he : e.landed? = some b') (fs : List Event) :
    firstSeed (es ++ e :: fs) = (Journal.seed? b').or (firstSeed fs) := by
  rw [firstSeed_append, firstSeed_of_idle hreaches.idle, Option.none_or, firstSeed_cons_landed he]

theorem Rooted.trail {first : Option Int64} {b b' : ByteArray} {es : List Event}
    (htrail : Trail settings b es b') (h : Rooted first c) (hfits : Fits c b)
    (hcompact : settings.exitPolicy = .compact) :
    Rooted (first.or (firstSeed es)) (c.along es) := by
  induction htrail generalizing first c with
  | nil b =>
      have hnone : firstSeed [] = none := rfl
      rw [hnone, Option.or_none]
      exact h
  | landed hreaches he htrail ih =>
      rw [along_append, along_cons, firstSeed_landed hreaches he, ← Option.or_assoc]
      exact ih (h.landed hfits hreaches he hcompact) (hfits.landed hreaches he)
  | @blank b b' fs record line hdue hblank htrail ih =>
      have hsame : firstSeed (.handedOut line :: fs) = firstSeed fs := rfl
      rw [along_cons, hfits.next_blank hblank, hsame]
      exact ih h hfits

theorem Rooted.begun {first : Option Int64} {b : ByteArray} {es : List Event}
    (hbegun : TrailBegun settings b es) (h : Rooted first c) (hfits : Fits c b)
    (hcompact : settings.exitPolicy = .compact) :
    Rooted (first.or (firstSeed es)) (c.along es).rested := by
  obtain ⟨before, rest, b₁, rfl, htrail, hidle⟩ := hbegun
  rw [along_append, rested_along_of_idle hidle, firstSeed_append, firstSeed_of_idle hidle,
    Option.or_none]
  exact (h.trail htrail hfits hcompact).rested

end Chronicle

namespace Session

variable {settings : Settings}

theorem Reaches.last_bytes {b b' : ByteArray} {u u' : List Utterance} {es : List Event}
    {operation : Operation} (h : Reaches settings b u es operation b' true u') (hsound : Sound b)
    (hcompact : settings.exitPolicy = .compact) :
    ∃ seed : Int64, b' = Journal.render [seed.decimal] := by
  cases h with
  | write hdue =>
      cases hsound with
      | empty => cases hdue
      | @journal seed trace st htrace hst hdrawn =>
          rw [due_of_opens settings (opens_canonical seed htrace) hst, hcompact] at hdue
          rcases taskAt_cases hdue with ⟨position, value, -, -, htask⟩ | ⟨-, hnext⟩
          · cases htask
          · have hdone := (isLast_nextTask hnext).mp rfl
            rw [hdone] at hnext
            cases hnext
            exact ⟨seed, rfl⟩

theorem Course.trail {b b' : ByteArray} {u u' : List Utterance} {es : List Event}
    (h : Course settings b u es (.ok ()) b' u') (hsound : Sound b)
    (hcompact : settings.exitPolicy = .compact) :
    Trail settings b es b' ∧ ∃ seed : Int64, b' = Journal.render [seed.decimal] := by
  generalize hok : Except.ok () = result at h
  induction h with
  | stored hreaches hcourse ih =>
      obtain ⟨htrail, hend⟩ := ih (hreaches.sound hsound) hok
      exact ⟨.landed hreaches rfl htrail, hend⟩
  | blank hdue hblank hcourse ih =>
      obtain ⟨htrail, hend⟩ := ih hsound hok
      exact ⟨.blank hdue hblank htrail, hend⟩
  | halt hhalt =>
      cases hhalt with
      | left hreaches => exact ⟨.single hreaches rfl, hreaches.last_bytes hsound hcompact⟩
      | lost | crashed | refused | closed | unheard | broken | unshown => cases hok

theorem Trail.last_landed {b b' : ByteArray} {before : List Event} {e : Event}
    (h : Trail settings b (before ++ [e]) b') {bytes : ByteArray} (he : e.landed? = some bytes) :
    ∃ way rest b₁ u u' operation last, before = way ++ rest ∧ Trail settings b way b₁ ∧
      Reaches settings b₁ u rest operation bytes last u' := by
  generalize hes : before ++ [e] = es at h
  induction h generalizing before with
  | nil b => simp at hes
  | @landed b b₁ b' u u' es fs e' operation last hreaches he' htrail ih =>
      rcases append_cons_eq_append_cons hes.symm with ⟨zs, rfl⟩ | ⟨rfl, rfl⟩ | ⟨zs, rfl, hfs⟩
      · have hquiet := hreaches.idle.landed e (by simp)
        cases hquiet.symm.trans he
      · obtain rfl := Option.some.inj (he'.symm.trans he)
        exact ⟨[], before, b, u, u', operation, last, rfl, .nil b, hreaches⟩
      · obtain ⟨way, rest, b₂, v, v', operation', last', rfl, hway, hlast⟩ := ih hfs.symm
        refine ⟨es ++ e' :: way, rest, b₂, v, v', operation', last', by simp, ?_, hlast⟩
        exact .landed hreaches he' hway
  | @blank b b' fs record line hdue hblank htrail ih =>
      cases before with
      | nil =>
          obtain ⟨rfl, -⟩ := List.cons.inj hes
          cases he
      | cons x before =>
          obtain ⟨rfl, hfs⟩ := List.cons.inj hes
          obtain ⟨way, rest, b₁, u, u', operation, last, rfl, hway, hlast⟩ := ih hfs
          exact ⟨.handedOut line :: way, rest, b₁, u, u', operation, last, rfl,
            .blank hdue hblank hway, hlast⟩

theorem TrailBegun.moves {b : ByteArray} {before : List Event} {e : Event} {bytes : ByteArray}
    (h : TrailBegun settings b (before ++ [e])) (hsound : Sound b)
    (hcompact : settings.exitPolicy = .compact) (he : e.landed? = some bytes) :
    Moves (held b before) bytes := by
  obtain ⟨way, rest, b₁, hsplit, htrail, hidle⟩ := h
  rcases List.eq_nil_or_concat rest with rfl | ⟨rest, x, rfl⟩
  · rw [List.append_nil] at hsplit
    rw [← hsplit] at htrail
    obtain ⟨way', rest, b₂, u, u', operation, last, rfl, hway, hreaches⟩ := htrail.last_landed he
    rw [held_append, hway.held_eq, Chronicle.held_of_idle hreaches.idle]
    exact hreaches.moves (hway.sound hsound) hcompact
  · -- the event would be one of those that leave the storage as it was
    rw [List.concat_eq_append, ← List.append_assoc] at hsplit
    obtain ⟨-, rfl⟩ := List.append_singleton_inj.mp hsplit
    have hquiet := hidle.landed e (by simp)
    cases hquiet.symm.trans he

end Session

namespace Simulation

open Session (isDrawing Moves)
open Chronicle (Rooted)

theorem rooted_toldBy {os : List Occasion}
    (hcompact : ∀ o ∈ os, o.settings.exitPolicy = .compact) {b : ByteArray} {c : Chronicle}
    (hfits : c.Fits b) {first : Option Int64} (hrooted : Rooted first c)
    {earlier later : List Outcome} (h : lifetimes os b = earlier ++ later) :
    Rooted (first.or (firstSeed (earlier.flatMap Outcome.events))) (toldBy c earlier) := by
  induction earlier generalizing os b c first with
  | nil =>
      have hnone : firstSeed ([].flatMap Outcome.events) = none := rfl
      rw [hnone, Option.or_none]
      exact hrooted
  | cons out earlier ih =>
      cases os with
      | nil => cases h
      | cons o os =>
          obtain ⟨hpolicy, hothers⟩ := List.forall_mem_cons.mp hcompact
          rw [lifetimes_cons] at h
          obtain ⟨rfl, hrest⟩ := List.cons.inj h
          have hbegun := Session.outcome_trailBegun (w := start o.script b) o.schedule o.settings
            hfits.sound rfl (List.prefix_refl _)
          have hnext := fits_outcome (w := start o.script b) hfits rfl o.schedule o.settings
          have hroot := hrooted.begun hbegun hfits hpolicy
          rw [List.flatMap_cons, firstSeed_append, ← Option.or_assoc]
          exact ih hothers hnext hroot hrest

theorem firstSeed_lifetimes {os : List Occasion} {b : ByteArray} {earlier later : List Outcome}
    {out : Outcome} (h : lifetimes os b = earlier ++ out :: later) {es : List Event}
    (hes : es <+: out.events) {seed : Int64}
    (hseed : (firstSeed (earlier.flatMap Outcome.events)).or (firstSeed es) = some seed) :
    firstSeed ((lifetimes os b).flatMap Outcome.events) = some seed := by
  obtain ⟨rest, hrest⟩ := hes
  rw [h, List.flatMap_append, List.flatMap_cons, ← hrest, firstSeed_append, List.append_assoc,
    firstSeed_append, ← Option.or_assoc, hseed, Option.some_or]

/-- Every random number shown is as many steps from the first seed as random numbers have been
recorded before it, in whichever session; a session that has come to its end leaves the seed that
many steps on; and nothing but the command for random numbers moves the seed. -/
theorem lifetimes_orbit {os : List Occasion}
    (hcompact : ∀ o ∈ os, o.settings.exitPolicy = .compact) {earlier later : List Outcome}
    {out : Outcome} (h : lifetimes os ByteArray.empty = earlier ++ out :: later) :
    let first := firstSeed ((lifetimes os ByteArray.empty).flatMap Outcome.events)
    let c := toldBy .start earlier
    (∀ before line after, out.events = before ++ .shown line :: after →
      isDrawing (c.along before).flight = true →
        ∃ s₀, first = some s₀ ∧ line = (Generator.next^[(c.along before).draws] s₀).decimal) ∧
      (out.result = .ok () →
        ∃ s₀, first = some s₀ ∧
          out.bytes = ((Generator.next^[(c.along out.events).draws] s₀).decimal ++ "\n").toUTF8) ∧
      ∀ before e after bytes, out.events = before ++ e :: after → e.landed? = some bytes →
        Moves (held ByteArray.empty (earlier.flatMap Outcome.events ++ before)) bytes := by
  intro first c
  have hrooted : Rooted (firstSeed (earlier.flatMap Outcome.events)) c :=
    rooted_toldBy hcompact fits_start Rooted.start h
  obtain ⟨o, ho, b, hfits, hheld, hout⟩ := exists_occasion fits_start h
  have hpolicy := hcompact o ho
  have hsound := hfits.sound
  refine ⟨fun before line after hes hdrawing => ?_, fun hok => ?_,
    fun before e after bytes hes he => ?_⟩
  · rw [hout] at hes
    obtain ⟨b₁, htrail, hcalls⟩ :=
      Session.outcome_calledAfter (w := start o.script b) o.schedule o.settings hsound rfl hes rfl
    obtain ⟨seed, d, hseed, hstanding, hmakes, -⟩ := hcalls.transcribed (hfits.trail htrail)
    have hline : line = seed.decimal := by
      rw [isDrawing, hstanding] at hdrawing
      split at hdrawing
      · next previous next heq =>
          obtain rfl := Option.some.inj heq
          exact hmakes
      · cases hdrawing
    obtain ⟨s₀, hfirst, hsteps⟩ := (hrooted.trail htrail hfits hpolicy).seed_eq hseed
    refine ⟨s₀, firstSeed_lifetimes h ?_ hfirst, by rw [hline, hsteps]⟩
    rw [hout]
    exact ⟨_, hes.symm⟩
  · obtain ⟨es, result, b', u', hcourse, -, hall⟩ :=
      Session.outcome_begins (w := start o.script b) o.schedule o.settings hsound rfl
    rw [hout] at hok
    obtain ⟨rfl, hevents⟩ := hall hok
    rw [← hout] at hevents
    obtain ⟨htrail, seed, hb'⟩ := hcourse.trail hsound hpolicy
    have hopens : Journal.Opens b' seed [] := by
      rw [hb']
      exact Session.opens_canonical seed (List.forall_mem_nil _)
    have hseed := (hfits.trail htrail).seed_of_opens hopens
    obtain ⟨s₀, hfirst, hsteps⟩ := (hrooted.trail htrail hfits hpolicy).seed_eq hseed
    have hbytes : out.bytes = b' := by
      have hrun := held_run (w := start o.script b) o.schedule o.settings rfl
      have hlog : ((start o.script b).run o.schedule o.settings).2.log.reverse = es := by
        rw [← hevents, hout]
        rfl
      rw [hlog] at hrun
      rw [hout, ← htrail.held_eq]
      exact hrun
    refine ⟨s₀, firstSeed_lifetimes h (List.prefix_refl _) (hevents ▸ hfirst), ?_⟩
    rw [hbytes, hb', hevents, hsteps]
    rfl
  · have hbegun : before ++ [e] <+: out.events := ⟨after, by simp [hes]⟩
    rw [hout] at hbegun
    rw [held_append, ← hheld]
    exact (Session.outcome_trailBegun (w := start o.script b) o.schedule o.settings hsound rfl
      hbegun).moves hsound hpolicy he

theorem lifetimes_orbit_interrupted :
    let first : Occasion := ⟨⟨420, .compact⟩, [.line "rand", .line "3"],
      ⟨fun _ => false, fun _ => false, (· == 5), fun _ => false⟩⟩
    let second : Occasion := ⟨⟨7, .compact⟩, [.line "exit"], .faultless⟩
    let out := ((start first.script ByteArray.empty).outcome first.schedule first.settings).1
    let out' := ((start second.script out.bytes).outcome second.schedule second.settings).1
    let seed := firstSeed ((lifetimes [first, second] ByteArray.empty).flatMap Outcome.events)
    let c := toldBy .start [out]
    let before := out'.events.take 1
    (∀ o ∈ [first, second], o.settings.exitPolicy = .compact) ∧
      lifetimes [first, second] ByteArray.empty = [out] ++ out' :: [] ∧
      out'.events = before ++ .shown "528003995" :: out'.events.drop 2 ∧
      isDrawing (c.along before).flight = true ∧ (c.along before).draws = 2 ∧
      (∃ s₀, seed = some s₀ ∧ "528003995" = (Generator.next^[(c.along before).draws] s₀).decimal) ∧
      out'.result = .ok () ∧ (c.along out'.events).draws = 3 ∧
      ∃ s₀, seed = some s₀ ∧ out'.bytes =
        ((Generator.next^[(c.along out'.events).draws] s₀).decimal ++ "\n").toUTF8 := by
  intro first second out out' seed c before
  have hcompact : ∀ o ∈ [first, second], o.settings.exitPolicy = .compact := by decide
  have hruns : lifetimes [first, second] ByteArray.empty = [out] ++ out' :: [] :=
    (lifetimes_cons first [second] _).trans (congrArg (List.cons out) (lifetimes_cons second [] _))
  have hrun : out'.events = before ++ .shown "528003995" :: out'.events.drop 2 ∧
      isDrawing (c.along before).flight = true ∧ (c.along before).draws = 2 ∧
      out'.result = .ok () ∧ (c.along out'.events).draws = 3 := by decide +kernel
  obtain ⟨hevents, hdrawing, hbefore, hok, hafter⟩ := hrun
  obtain ⟨hshown, hend, -⟩ := lifetimes_orbit hcompact hruns
  exact ⟨hcompact, hruns, hevents, hdrawing, hbefore, hshown _ _ _ hevents hdrawing, hok, hafter,
    hend hok⟩

end Simulation

end DurableCalc
