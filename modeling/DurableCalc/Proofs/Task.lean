import DurableCalc.Proofs.Patience
import DurableCalc.Proofs.Silence

namespace DurableCalc.Session

inductive Task where
  | write (operation : Operation) (bytes : ByteArray) (last : Bool)
  | tell (line : String) (bytes : ByteArray)
  | ask (record : String → Except Error ByteArray)

def recorded (seed : Int64) (trace : List String) (entry : String) : ByteArray :=
  Journal.render (seed.decimal :: (trace ++ [entry]))

def recording {α : Type} (accept : String → Except Error α) (seed : Int64) (trace : List String)
    (entry : String) : Except Error ByteArray :=
  match accept entry with
  | .error e => .error e
  | .ok _ =>
      if Journal.Storable entry then .ok (recorded seed trace entry)
      else .error (.invalidEntry entry)

theorem recording_eq_ok {α : Type} {accept : String → Except Error α} {seed : Int64}
    {trace : List String} {entry : String} {bytes : ByteArray}
    (h : recording accept seed trace entry = .ok bytes) :
    ∃ a, accept entry = .ok a ∧ Journal.Storable entry ∧ bytes = recorded seed trace entry := by
  unfold recording at h
  split at h
  · cases h
  · next a ha =>
      split at h
      · next hentry => exact ⟨a, ha, hentry, (Except.ok.inj h).symm⟩
      · cases h

def leaving (seed : Int64) : ExitPolicy → Task
  | .compact => .write .compacting (Journal.render [seed.decimal]) true
  | .clear => .write .clearing ByteArray.empty true

def nextTask (policy : ExitPolicy) (seed : Int64) (trace : List String) :
    Dialogue Bool → Option Task
  | .done true => some (leaving seed policy)
  | .done false => some (.write .compacting (Journal.render [seed.decimal]) false)
  | .call (.ask accept) _ => some (.ask (recording accept seed trace))
  | .call (.tell line) _ => some (.tell line (recorded seed trace line))
  | .call (.draw _) _ => some (.tell seed.decimal (recorded seed trace seed.decimal))
  | .call (.stop _) _ => none

def Pending (seed value : Int64) : Prop :=
  seed = value ∧ seed ≠ Generator.next value

instance (seed value : Int64) : Decidable (Pending seed value) :=
  inferInstanceAs (Decidable (_ ∧ _))

def taskAt (policy : ExitPolicy) (seed : Int64) (trace : List String) :
    Standing Bool → Option Task
  | ⟨none, d⟩ => nextTask policy seed trace d
  | ⟨some (_, value), d⟩ =>
      if Pending seed value then
        some (.write .replacingSeed (Journal.render ((Generator.next value).decimal :: trace)) false)
      else nextTask policy seed trace d

def due (settings : Settings) (bytes : ByteArray) : Option Task :=
  if bytes.isEmpty then
    some (.write .appending (Journal.render [settings.defaultSeed.decimal]) false)
  else
    match Journal.parse bytes with
    | .ok (e :: trace) =>
        match Numeral.readTrimmed? e, (turn (trace.length + 1)).retrace trace 1 none with
        | some seed, .ok st => taskAt settings.exitPolicy seed trace st
        | _, _ => none
    | _ => none

inductive Sound : ByteArray → Prop where
  | empty : Sound ByteArray.empty
  | journal {seed : Int64} {trace : List String} {st : Standing Bool} :
      (∀ e ∈ trace, Journal.Storable e) →
      (turn (trace.length + 1)).retrace trace 1 none = .ok st →
      (∀ position value, st.drawn = some (position, value) →
        seed = value ∨ seed = Generator.next value) →
      Sound (Journal.render (seed.decimal :: trace))

theorem sound_iff {bytes : ByteArray} : Sound bytes ↔
    bytes = ByteArray.empty ∨ ∃ (seed : Int64) (trace : List String) (st : Standing Bool),
      bytes = Journal.render (seed.decimal :: trace) ∧ (∀ e ∈ trace, Journal.Storable e) ∧
      (turn (trace.length + 1)).retrace trace 1 none = .ok st ∧
      ∀ position value, st.drawn = some (position, value) →
        seed = value ∨ seed = Generator.next value := by
  constructor
  · intro h
    cases h with
    | empty => exact .inl rfl
    | journal htrace hst hdrawn => exact .inr ⟨_, _, _, rfl, htrace, hst, hdrawn⟩
  · rintro (rfl | ⟨seed, trace, st, rfl, htrace, hst, hdrawn⟩)
    · exact .empty
    · exact .journal htrace hst hdrawn

theorem sound_fresh (seed : Int64) : Sound (Journal.render [seed.decimal]) :=
  @Sound.journal seed [] _ (fun _ h => nomatch h) rfl fun _ _ h => nomatch h

theorem opens_canonical (seed : Int64) {trace : List String}
    (h : ∀ e ∈ trace, Journal.Storable e) :
    Journal.Opens (Journal.render (seed.decimal :: trace)) seed trace :=
  Journal.opens_render (Numeral.storable_decimal seed) h (Numeral.readTrimmed?_decimal seed)

theorem due_of_opens (settings : Settings) {bytes : ByteArray} {seed : Int64} {trace : List String}
    {st : Standing Bool} (h : Journal.Opens bytes seed trace)
    (hst : (turn (trace.length + 1)).retrace trace 1 none = .ok st) :
    due settings bytes = taskAt settings.exitPolicy seed trace st := by
  have hempty := h.not_isEmpty
  obtain ⟨e, hparse, hseed⟩ := h
  simp only [due, hempty, Bool.false_eq_true, if_false, hparse, hseed, hst]

theorem sound_recorded {seed : Int64} {trace : List String} {st : Standing Bool} {entry : String}
    (htrace : ∀ e ∈ trace, Journal.Storable e) (hentry : Journal.Storable entry)
    (hst : (turn (trace.length + 1)).retrace trace 1 none = .ok st) {st' : Standing Bool}
    (hst' : st.rest.retrace [entry] (1 + trace.length) st.drawn = .ok st')
    (hdrawn : ∀ position value, st'.drawn = some (position, value) →
      seed = value ∨ seed = Generator.next value) :
    Sound (recorded seed trace entry) := by
  have hmore : Dialogue.Within (turn (trace.length + 1)) (turn ((trace ++ [entry]).length + 1)) :=
    within_turn (by simp)
  obtain ⟨rest, hrest, hwithin⟩ := hmore.retrace hst
  obtain ⟨rest', hrest', -⟩ := hwithin.retrace hst'
  have hst'' := (Dialogue.retrace_append hrest).trans hrest'
  refine .journal ?_ hst'' hdrawn
  intro e he
  rcases List.mem_append.mp he with he | he
  · exact htrace e he
  · obtain rfl := List.mem_singleton.mp he
    exact hentry

inductive Reaches (settings : Settings) (bytes : ByteArray) :
    List Utterance → List Event → Operation → ByteArray → Bool → List Utterance → Prop where
  | write {script : List Utterance} {operation : Operation} {bytes' : ByteArray} {last : Bool} :
      due settings bytes = some (.write operation bytes' last) →
      Reaches settings bytes script [] operation bytes' last script
  | tell {script : List Utterance} {line : String} {bytes' : ByteArray} :
      due settings bytes = some (.tell line bytes') →
      Reaches settings bytes script [.shown line] .appending bytes' false script
  | ask {script : List Utterance} {record : String → Except Error ByteArray} {line : String}
      {bytes' : ByteArray} :
      due settings bytes = some (.ask record) → Text.isBlank line = false →
      record (Text.trim line) = .ok bytes' →
      Reaches settings bytes (.line line :: script) [.handedOut line] .appending bytes' false script

inductive Task.Writes : Task → ByteArray → Prop where
  | write (operation : Operation) (bytes : ByteArray) (last : Bool) :
      Writes (.write operation bytes last) bytes
  | tell (line : String) (bytes : ByteArray) : Writes (.tell line bytes) bytes
  | ask {record : String → Except Error ByteArray} {entry : String} {bytes : ByteArray} :
      record entry = .ok bytes → Writes (.ask record) bytes

theorem Reaches.writes {settings : Settings} {bytes bytes' : ByteArray}
    {script script' : List Utterance} {events : List Event} {operation : Operation} {last : Bool}
    (h : Reaches settings bytes script events operation bytes' last script') :
    ∃ task, due settings bytes = some task ∧ task.Writes bytes' := by
  cases h with
  | write hdue => exact ⟨_, hdue, .write _ _ _⟩
  | tell hdue => exact ⟨_, hdue, .tell _ _⟩
  | ask hdue _ hrecord => exact ⟨_, hdue, .ask hrecord⟩

theorem recordedDraw_decimal {position : Nat} {previous : Option Int64} {seed : Int64}
    (h : ∀ x, previous = some x → seed = Generator.next x) :
    Replay.recordedDraw position previous seed.decimal = .ok seed := by
  rw [Replay.recordedDraw_eq_ok_iff]
  exact ⟨Numeral.read?_write seed, h⟩

theorem taskAt_cases {policy : ExitPolicy} {seed : Int64} {trace : List String}
    {st : Standing Bool} {task : Task} (h : taskAt policy seed trace st = some task) :
    (∃ position value, st.drawn = some (position, value) ∧ Pending seed value ∧
      task = .write .replacingSeed
        (Journal.render ((Generator.next value).decimal :: trace)) false) ∨
    ((∀ position value, st.drawn = some (position, value) → ¬ Pending seed value) ∧
      nextTask policy seed trace st.rest = some task) := by
  obtain ⟨drawn, d⟩ := st
  cases drawn with
  | none => exact .inr ⟨nofun, h⟩
  | some drawn =>
      obtain ⟨position, value⟩ := drawn
      by_cases hpending : Pending seed value
      · rw [taskAt, if_pos hpending] at h
        exact .inl ⟨position, value, rfl, hpending, (Option.some.inj h).symm⟩
      · rw [taskAt, if_neg hpending] at h
        refine .inr ⟨?_, h⟩
        intro position' value' he
        obtain ⟨rfl, rfl⟩ := Prod.mk.inj (Option.some.inj he)
        exact hpending

theorem sound_leaving (seed : Int64) (policy : ExitPolicy) {bytes : ByteArray}
    (h : (leaving seed policy).Writes bytes) : Sound bytes := by
  cases policy with
  | compact =>
      cases h
      exact sound_fresh seed
  | clear =>
      cases h
      exact .empty

theorem eq_next_of_not_pending {seed value : Int64}
    (h : seed = value ∨ seed = Generator.next value) (hpending : ¬ Pending seed value) :
    seed = Generator.next value := by
  rcases h with rfl | h
  · exact Decidable.not_not.mp fun hne => hpending ⟨rfl, hne⟩
  · exact h

theorem sound_nextTask {policy : ExitPolicy} {seed : Int64} {trace : List String}
    {st : Standing Bool} (htrace : ∀ e ∈ trace, Journal.Storable e)
    (hst : (turn (trace.length + 1)).retrace trace 1 none = .ok st)
    (hdrawn : ∀ position value, st.drawn = some (position, value) → seed = Generator.next value)
    {task : Task} (htask : nextTask policy seed trace st.rest = some task) {bytes : ByteArray}
    (hwrites : task.Writes bytes) : Sound bytes := by
  have hproper := (proper_turn (trace.length + 1)).retrace hst
  obtain ⟨drawn, d⟩ := st
  cases d with
  | done exit =>
      cases exit with
      | true =>
          obtain rfl := Option.some.inj htask
          exact sound_leaving seed policy hwrites
      | false =>
          obtain rfl := Option.some.inj htask
          cases hwrites
          exact sound_fresh seed
  | call c next =>
      cases c with
      | ask accept =>
          obtain rfl := Option.some.inj htask
          cases hwrites with
          | @ask _ entry _ hrecord =>
              obtain ⟨a, haccept, hentry, rfl⟩ := recording_eq_ok hrecord
              exact sound_recorded htrace hentry hst (Dialogue.retrace_ask _ _ haccept)
                Standing.undrawn
      | tell line =>
          obtain rfl := Option.some.inj htask
          cases hwrites
          exact sound_recorded htrace hproper.1 hst (Dialogue.retrace_tell _ _ line next)
            Standing.undrawn
      | draw previous =>
          obtain rfl := Option.some.inj htask
          cases hwrites
          have hprevious (x : Int64) (hx : previous = some x) : seed = Generator.next x := by
            obtain ⟨⟨position, value⟩, hvalue, rfl⟩ := Option.map_eq_some_iff.mp (hproper.1 x hx)
            exact hdrawn position value hvalue
          have hstep : Dialogue.retrace [seed.decimal] (1 + trace.length) drawn
              (.call (.draw previous) next : Dialogue Bool) = _ :=
            Dialogue.retrace_draw _ _ (recordedDraw_decimal hprevious)
          refine sound_recorded htrace (Numeral.storable_decimal seed) hst hstep ?_
          intro position value hvalue
          obtain ⟨-, rfl⟩ := Prod.mk.inj (Option.some.inj hvalue)
          exact .inl rfl
      | stop e => cases htask

theorem Sound.writes {settings : Settings} {bytes bytes' : ByteArray} {task : Task}
    (h : Sound bytes) (hdue : due settings bytes = some task) (htask : task.Writes bytes') :
    Sound bytes' := by
  cases h with
  | empty =>
      obtain rfl := Option.some.inj hdue
      cases htask
      exact sound_fresh _
  | @journal seed trace st htrace hst hdrawn =>
      rw [due_of_opens settings (opens_canonical seed htrace) hst] at hdue
      rcases taskAt_cases hdue with ⟨position, value, hvalue, hpending, rfl⟩ | ⟨hpending, hnext⟩
      · cases htask
        refine .journal htrace hst ?_
        intro position' value' hvalue'
        obtain ⟨rfl, rfl⟩ := Prod.mk.inj (Option.some.inj (hvalue.symm.trans hvalue'))
        exact .inr rfl
      · refine sound_nextTask htrace hst ?_ hnext htask
        intro position value hvalue
        exact eq_next_of_not_pending (hdrawn position value hvalue) (hpending position value hvalue)

theorem nextTask_of_within {policy : ExitPolicy} {seed : Int64} {trace : List String}
    {d d' : Dialogue Bool} (h : Dialogue.Within d d') :
    nextTask policy seed trace d = nextTask policy seed trace d' ∨
      ∃ next, d = .call (.stop .outOfPatience) next := by
  cases h with
  | stop next d => exact .inr ⟨next, rfl⟩
  | done exit => exact .inl rfl
  | call c hnext => cases c <;> exact .inl rfl

theorem taskAt_of_within {policy : ExitPolicy} {seed : Int64} {trace : List String}
    {drawn : Option (Nat × Int64)} {d d' : Dialogue Bool} (h : Dialogue.Within d d') :
    taskAt policy seed trace ⟨drawn, d⟩ = taskAt policy seed trace ⟨drawn, d'⟩ ∨
      ∃ next, d = .call (.stop .outOfPatience) next := by
  rcases nextTask_of_within h with hnext | hstop
  · left
    cases drawn with
    | none => exact hnext
    | some drawn => rw [taskAt, taskAt, hnext]
  · exact .inr hstop

theorem nextTask_ne_none {policy : ExitPolicy} {seed : Int64} {trace : List String} {asks : Nat}
    {last : Option Int64} {d : Dialogue Bool} (h : d.Proper (asks + 1) last) :
    ∃ task, nextTask policy seed trace d = some task := by
  cases d with
  | done exit => cases exit <;> exact ⟨_, rfl⟩
  | call c next =>
      cases c with
      | stop e => exact absurd h.1 (Nat.succ_ne_zero asks)
      | _ => exact ⟨_, rfl⟩

theorem recording_refuses {α : Type} {accept : String → Except Error α} {seed : Int64}
    {trace : List String} {entry : String} {e : Error}
    (h : ∀ line e, accept line = .error e → e = .notANumber line)
    (he : recording accept seed trace entry = .error e) :
    e = .notANumber entry ∨ e = .invalidEntry entry := by
  unfold recording at he
  split at he
  · next e' haccept =>
      obtain rfl := Except.error.inj he
      exact .inl (h entry _ haccept)
  · split at he
    · cases he
    · exact .inr (Except.error.inj he).symm

theorem nextTask_refuses {policy : ExitPolicy} {seed : Int64} {trace : List String} {asks : Nat}
    {last : Option Int64} {d : Dialogue Bool} (hd : d.Proper asks last)
    {record : String → Except Error ByteArray}
    (h : nextTask policy seed trace d = some (.ask record)) {entry : String} {e : Error}
    (he : record entry = .error e) : e = .notANumber entry ∨ e = .invalidEntry entry := by
  cases d with
  | done exit =>
      cases exit with
      | true => cases policy <;> cases h
      | false => cases h
  | call c next =>
      cases c with
      | ask accept =>
          obtain rfl := Task.ask.inj (Option.some.inj h)
          exact recording_refuses hd.1 he
      | _ => cases h

theorem proper_rest {trace : List String} {st : Standing Bool}
    (hst : (turn (trace.length + 1)).retrace trace 1 none = .ok st) :
    st.rest.Proper 2 (st.drawn.map Prod.snd) := by
  have h := (proper_turn (trace.length + 1)).retrace hst
  have htwo : trace.length + 1 + 1 - trace.length = 2 := by omega
  rwa [htwo] at h

theorem taskAt_ne_none {policy : ExitPolicy} {seed : Int64} {trace : List String}
    {st : Standing Bool} (hst : (turn (trace.length + 1)).retrace trace 1 none = .ok st) :
    ∃ task, taskAt policy seed trace st = some task := by
  have hrest := proper_rest hst
  obtain ⟨drawn, d⟩ := st
  cases drawn with
  | none => exact nextTask_ne_none hrest
  | some drawn =>
      rw [taskAt]
      split
      · exact ⟨_, rfl⟩
      · exact nextTask_ne_none hrest

theorem Sound.due {bytes : ByteArray} (h : Sound bytes) (settings : Settings) :
    ∃ task, due settings bytes = some task := by
  cases h with
  | empty => exact ⟨_, rfl⟩
  | @journal seed trace st htrace hst hdrawn =>
      rw [due_of_opens settings (opens_canonical seed htrace) hst]
      exact taskAt_ne_none hst

theorem retrace_turn {policy : ExitPolicy} {seed : Int64} {trace : List String}
    {st : Standing Bool} (hst : (turn (trace.length + 1)).retrace trace 1 none = .ok st)
    {task : Task} (htask : taskAt policy seed trace st = some task) (patience : Nat) :
    (turn patience).retrace trace 1 none = .error .outOfPatience ∨
      ∃ d, (turn patience).retrace trace 1 none = .ok ⟨st.drawn, d⟩ ∧
        (taskAt policy seed trace ⟨st.drawn, d⟩ = some task ∨
          ∃ next, d = .call (.stop .outOfPatience) next) := by
  rcases Nat.le_total patience (trace.length + 1) with hle | hle
  · cases h : (turn patience).retrace trace 1 none with
    | error e =>
        rcases (within_turn hle).retrace_error h with rfl | herror
        · exact .inl rfl
        · rw [hst] at herror
          cases herror
    | ok st' =>
        obtain ⟨rest, hrest, hwithin⟩ := (within_turn hle).retrace h
        obtain rfl := Except.ok.inj (hst.symm.trans hrest)
        refine .inr ⟨st'.rest, rfl, ?_⟩
        rw [← htask]
        exact taskAt_of_within hwithin
  · obtain ⟨rest, hrest, hwithin⟩ := (within_turn hle).retrace hst
    refine .inr ⟨rest, hrest, .inl ?_⟩
    rw [← htask]
    rcases taskAt_of_within hwithin with heq | ⟨next, hstop⟩
    · exact heq.symm
    · have hproper := proper_rest hst
      rw [hstop] at hproper
      exact absurd hproper.1 (Nat.succ_ne_zero 1)

end DurableCalc.Session
