import DurableCalc.Proofs.Task

namespace DurableCalc.Session

open Attempt (exec exec_bind exec_bind_ok exec_bind_error Refines)
open Simulation (steady exec_readLine_cases exec_showLine_cases exec_store_cases)

inductive Halt (settings : Settings) : ByteArray → List Utterance → List Event →
    Except Error Unit → ByteArray → List Utterance → Prop where
  | left {b b' : ByteArray} {u u' : List Utterance} {es : List Event} {operation : Operation} :
      Reaches settings b u es operation b' true u' →
      Halt settings b u (es ++ [.stored b']) (.ok ()) b' u'
  | lost {b b' : ByteArray} {u u' : List Utterance} {es : List Event} {operation : Operation}
      {last : Bool} :
      Reaches settings b u es operation b' last u' →
      Halt settings b u (es ++ [.lost b']) (.error (.storage operation .induced)) b u'
  | crashed {b b' : ByteArray} {u u' : List Utterance} {es : List Event} {operation : Operation}
      {last : Bool} :
      Reaches settings b u es operation b' last u' →
      Halt settings b u (es ++ [.crashed b']) (.error (.storage operation .induced)) b' u'
  | refused {b : ByteArray} {u : List Utterance} {record : String → Except Error ByteArray}
      {line : String} {e : Error} :
      due settings b = some (.ask record) → Text.isBlank line = false →
      record (Text.trim line) = .error e →
      Halt settings b (.line line :: u) [.handedOut line] (.error e) b u
  | closed {b : ByteArray} {record : String → Except Error ByteArray} :
      due settings b = some (.ask record) →
      Halt settings b [] [.ended] (.error .inputClosed) b []
  | unheard {b : ByteArray} {u : List Utterance} {record : String → Except Error ByteArray} :
      due settings b = some (.ask record) →
      Halt settings b u [.readFailed] (.error (.transport .induced)) b u
  | broken {b : ByteArray} {u : List Utterance} {record : String → Except Error ByteArray}
      {text : String} :
      due settings b = some (.ask record) →
      Halt settings b (.failure text :: u) [.readFailed] (.error (.transport (.other text))) b u
  | unshown {b b' : ByteArray} {u : List Utterance} {line : String} :
      due settings b = some (.tell line b') →
      Halt settings b u [.showFailed line] (.error (.transport .induced)) b u

inductive Course (settings : Settings) : ByteArray → List Utterance → List Event →
    Except Error Unit → ByteArray → List Utterance → Prop where
  | stored {b b' b'' : ByteArray} {u u' u'' : List Utterance} {es fs : List Event}
      {operation : Operation} {result : Except Error Unit} :
      Reaches settings b u es operation b' false u' → Course settings b' u' fs result b'' u'' →
      Course settings b u (es ++ .stored b' :: fs) result b'' u''
  | blank {b b' : ByteArray} {u u' : List Utterance} {fs : List Event}
      {result : Except Error Unit} {record : String → Except Error ByteArray} {line : String} :
      due settings b = some (.ask record) → Text.isBlank line = true →
      Course settings b u fs result b' u' →
      Course settings b (.line line :: u) (.handedOut line :: fs) result b' u'
  | halt {b b' : ByteArray} {u u' : List Utterance} {es : List Event}
      {result : Except Error Unit} :
      Halt settings b u es result b' u' → Course settings b u es result b' u'

variable {s : Schedule} {settings : Settings} {n : Nat} {w w' : Simulation}
  {out : Except Error Unit × Simulation}

def Charted (settings : Settings) (w : Simulation) (out : Except Error Unit × Simulation) : Prop :=
  ∃ events, Course settings w.bytes w.script events out.1 out.2.bytes out.2.script ∧
    out.2.log = events.reverse ++ w.log

theorem charted_store {es : List Event} {operation : Operation} {bytes : ByteArray} {last : Bool}
    (hreaches : Reaches settings w.bytes w.script es operation bytes last w'.script)
    (hbytes : w'.bytes = w.bytes) (hlog : w'.log = es.reverse ++ w.log) {k : Unit → Attempt Unit}
    (hexec : exec (steady s) (Attempt.store operation bytes >>= k) w' = out)
    (hlast : last = true → k () = pure ())
    (hgo : last = false → exec (steady s) (k ()) (w'.written (.stored bytes) bytes) = out →
      Charted settings (w'.written (.stored bytes) bytes) out) :
    Charted settings w out := by
  rcases exec_store_cases s operation bytes w' with hstore | hstore | hstore
  · rw [exec_bind_ok hstore] at hexec
    cases last with
    | true =>
        rw [hlast rfl] at hexec
        subst hexec
        exact ⟨es ++ [.stored bytes], .halt (.left hreaches), by simp [hlog]⟩
    | false =>
        obtain ⟨fs, hcourse, hlog'⟩ := hgo rfl hexec
        exact ⟨es ++ .stored bytes :: fs, .stored hreaches hcourse, by simp [hlog, hlog']⟩
  · rw [exec_bind_error hstore] at hexec
    subst hexec
    refine ⟨es ++ [.lost bytes], ?_, by simp [hlog]⟩
    simp only [Simulation.written_bytes, Simulation.written_script, hbytes]
    exact .halt (.lost hreaches)
  · rw [exec_bind_error hstore] at hexec
    subst hexec
    exact ⟨es ++ [.crashed bytes], .halt (.crashed hreaches), by simp [hlog]⟩

section

variable (policy : ExitPolicy) (patience : Nat)

theorem rest_call (n : Nat) (c : Dialogue.Call) (next : Dialogue.Reply c → Dialogue Bool) :
    rest policy patience n (.call c next)
      = Live.reply patience c >>= fun r => rest policy patience n (next r) := by
  rw [rest, Dialogue.live_call, bind_assoc]
  rfl

theorem rest_ask {α : Type} (n : Nat) (accept : String → Except Error α)
    (next : α → Dialogue Bool) :
    rest policy patience n (.call (.ask accept) next)
      = Replay.nextLine patience >>= fun line => Attempt.of (accept line) >>= fun a =>
          Journal.append line >>= fun _ => rest policy patience n (next a) := by
  rw [rest_call, Live.reply, Live.ask]
  simp only [bind_assoc, pure_bind]

theorem rest_draw (n : Nat) (previous : Option Int64) (next : Int64 → Dialogue Bool) :
    rest policy patience n (.call (.draw previous) next)
      = Journal.seed >>= fun value => Live.tell value.decimal >>= fun _ =>
          Live.advance (Generator.next value) >>= fun _ =>
            rest policy patience n (next value) := by
  rw [rest_call, Live.reply, Live.draw]
  simp only [bind_assoc, pure_bind]

end

theorem exec_bind_congr {σ α β : Type} {h : Handler Device σ} {p q : Attempt α} {t : σ}
    (heq : exec h p t = exec h q t) (f : α → Attempt β) :
    exec h (p >>= f) t = exec h (q >>= f) t := by
  rw [exec_bind, exec_bind, heq]

theorem exec_run_journal {seed : Int64} {trace : List String} {st : Standing Bool}
    (hbytes : w.bytes = Journal.render (seed.decimal :: trace))
    (htrace : ∀ e ∈ trace, Journal.Storable e)
    (hst : (turn (n + 1)).retrace trace 1 none = .ok st) :
    exec (steady s) (run settings (n + 1)) w
      = exec (steady s) (st.settle >>= fun _ => rest settings.exitPolicy (n + 1) n st.rest) w := by
  have hopens : Journal.Opens w.bytes seed trace := by
    rw [hbytes]
    exact opens_canonical seed htrace
  rw [exec_run hopens, resume, hst]

theorem exec_settle {seed : Int64} {trace : List String} (h : Journal.Opens w.bytes seed trace)
    (position : Nat) {value : Int64} (hvalue : seed = Generator.next value) :
    exec (steady s) (Live.settle position value) w = (.ok (), w) := by
  have hseed := Journal.exec_seed (s := s) h
  rw [Live.settle, exec_bind_ok hseed]
  split
  · rw [Live.advance, exec_bind_ok hseed, if_neg (not_not_intro hvalue)]
    rfl
  · rw [if_neg (not_not_intro hvalue)]
    rfl

theorem exec_settle_pending {seed : Int64} {trace : List String}
    (h : Journal.Opens w.bytes seed trace) (position : Nat) :
    exec (steady s) (Live.settle position seed) w
      = exec (steady s) (Live.advance (Generator.next seed)) w := by
  rw [Live.settle, exec_bind_ok (Journal.exec_seed h), if_pos rfl]

theorem exec_run_settled {seed : Int64} {trace : List String} {st : Standing Bool}
    (hbytes : w.bytes = Journal.render (seed.decimal :: trace))
    (htrace : ∀ e ∈ trace, Journal.Storable e)
    (hst : (turn (n + 1)).retrace trace 1 none = .ok st)
    (hdrawn : ∀ position value, st.drawn = some (position, value) → seed = Generator.next value) :
    exec (steady s) (run settings (n + 1)) w
      = exec (steady s) (rest settings.exitPolicy (n + 1) n st.rest) w := by
  have hopens : Journal.Opens w.bytes seed trace := by
    rw [hbytes]
    exact opens_canonical seed htrace
  rw [exec_run_journal hbytes htrace hst]
  obtain ⟨drawn, d⟩ := st
  cases drawn with
  | none => rfl
  | some drawn => exact exec_bind_ok (exec_settle hopens drawn.1 (hdrawn _ _ rfl)) _

end DurableCalc.Session

namespace DurableCalc.Simulation

def rank (w : Simulation) : Nat :=
  w.calls + w.writes

theorem rank_called (w : Simulation) (e : Event) (script : List Utterance) :
    (w.called e script).rank = w.rank + 1 := by
  simp only [rank, called_calls, called_writes]
  omega

theorem rank_written (w : Simulation) (e : Event) (bytes : ByteArray) :
    (w.written e bytes).rank = w.rank + 1 := rfl

theorem rank_le_steady (s : Schedule) (c : Device.Call) (w : Simulation) :
    w.rank ≤ (steady s c w).2.rank := by
  cases c with
  | readLine =>
      rcases exec_readLine_cases s w with h | ⟨-, h⟩ | ⟨_, _, -, h⟩ | ⟨_, _, -, h⟩ <;>
        (rw [Attempt.exec_readLine] at h; rw [h, rank_called]; exact Nat.le_succ _)
  | showLine line =>
      rcases exec_showLine_cases s line w with h | h <;>
        (rw [Attempt.exec_showLine] at h; rw [h, rank_called]; exact Nat.le_succ _)
  | load => exact Nat.le_refl _
  | store bytes =>
      simp only [steady, store]
      split
      · exact Nat.le_succ _
      · split <;> exact Nat.le_succ _

theorem rank_le_exec {α : Type} (s : Schedule) (p : Attempt α) (w : Simulation) :
    w.rank ≤ (Attempt.exec (steady s) p w).2.rank := by
  refine Program.run_preserves (P := fun w' : Simulation => w.rank ≤ w'.rank)
    (fun c w' h => ?_) p.run (Nat.le_refl _)
  exact Nat.le_trans h (rank_le_steady s c w')

end DurableCalc.Simulation

namespace DurableCalc.Session

open Attempt (exec exec_bind exec_bind_ok exec_bind_error Refines)
open Simulation (steady exec_readLine_cases exec_showLine_cases exec_store_cases)

variable {s : Schedule} {settings : Settings} {n : Nat} {w w' : Simulation}
  {out : Except Error Unit × Simulation}

def ChartedAfter (s : Schedule) (settings : Settings) (n : Nat) (w : Simulation)
    (out : Except Error Unit × Simulation) : Prop :=
  ∀ w', Sound w'.bytes → w.rank < w'.rank →
    exec (steady s) (run settings (n + 1)) w' = out → Charted settings w' out

theorem charted_write (hsound : Sound w.bytes) (hafter : ChartedAfter s settings n w out)
    {es : List Event} {operation : Operation} {bytes : ByteArray} {last : Bool}
    (hreaches : Reaches settings w.bytes w.script es operation bytes last w'.script)
    (hbytes : w'.bytes = w.bytes) (hlog : w'.log = es.reverse ++ w.log) (hrank : w.rank ≤ w'.rank)
    {k : Unit → Attempt Unit} (hexec : exec (steady s) (Attempt.store operation bytes >>= k) w' = out)
    (hlast : last = true → k () = pure ())
    (hgo : last = false → exec (steady s) (k ()) (w'.written (.stored bytes) bytes) = out →
      exec (steady s) (run settings (n + 1)) (w'.written (.stored bytes) bytes) = out) :
    Charted settings w out := by
  refine charted_store hreaches hbytes hlog hexec hlast fun hmore hk => ?_
  obtain ⟨task, hdue, hwrites⟩ := hreaches.writes
  refine hafter _ (hsound.writes hdue hwrites) ?_ (hgo hmore hk)
  rw [Simulation.rank_written]
  exact Nat.lt_succ_of_le hrank

section

variable {seed : Int64} {trace : List String} {drawn : Option (Nat × Int64)} {d : Dialogue Bool}

theorem charted_leaving (hsound : Sound w.bytes) (hafter : ChartedAfter s settings n w out)
    (hopens : Journal.Opens w.bytes seed trace)
    (hdue : due settings w.bytes = some (leaving seed settings.exitPolicy))
    (hexec : exec (steady s) (ending settings.exitPolicy) w = out) : Charted settings w out := by
  rw [← bind_pure (ending settings.exitPolicy)] at hexec
  cases hpolicy : settings.exitPolicy with
  | compact =>
      rw [hpolicy] at hdue hexec
      rw [ending, exec_bind_congr (Journal.exec_compact hopens)] at hexec
      exact charted_write hsound hafter (.write hdue) rfl rfl (Nat.le_refl _) hexec (fun _ => rfl)
        fun hlast => absurd hlast.symm Bool.false_ne_true
  | clear =>
      rw [hpolicy] at hdue hexec
      exact charted_write hsound hafter (.write hdue) rfl rfl (Nat.le_refl _) hexec (fun _ => rfl)
        fun hlast => absurd hlast.symm Bool.false_ne_true

theorem charted_boundary (hsound : Sound w.bytes) (hafter : ChartedAfter s settings n w out)
    (hne : out.1 ≠ .error .outOfPatience) (hopens : Journal.Opens w.bytes seed trace)
    (hdue : due settings w.bytes
      = some (.write .compacting (Journal.render [seed.decimal]) false))
    (hexec : exec (steady s) (rest settings.exitPolicy (n + 1) n (.done false)) w = out) :
    Charted settings w out := by
  have hrest : rest settings.exitPolicy (n + 1) n (.done false)
      = Journal.compact >>= fun _ => goOn settings.exitPolicy (n + 1) n := rfl
  rw [hrest, exec_bind_congr (Journal.exec_compact hopens)] at hexec
  refine charted_write hsound hafter (.write hdue) rfl rfl (Nat.le_refl _) hexec
    (fun hlast => absurd hlast Bool.false_ne_true) ?_
  intro _ hk
  rcases Session.refines_goOn (steady s) settings.exitPolicy (Nat.le_refl (n + 1)) (Nat.le_succ n)
    (w.written (.stored (Journal.render [seed.decimal])) (Journal.render [seed.decimal])) with
    hspent | heq
  · rw [hk] at hspent
    exact absurd hspent hne
  · rw [hk] at heq
    rw [heq, goOn_succ]
    have hfresh : (turn (n + 1)).retrace [] 1 none = .ok ⟨none, turn (n + 1)⟩ := rfl
    exact exec_run_settled rfl (List.forall_mem_nil _) hfresh Standing.undrawn

theorem charted_append (hsound : Sound w.bytes) (hafter : ChartedAfter s settings n w out)
    {es : List Event} {entry : String} (hentry : Journal.Storable entry)
    (hreaches : Reaches settings w.bytes w.script es .appending (recorded seed trace entry) false
      w'.script)
    (hjournal : w.bytes = Journal.render (seed.decimal :: trace)) (hbytes : w'.bytes = w.bytes)
    (hlog : w'.log = es.reverse ++ w.log) (hrank : w.rank ≤ w'.rank) {k : Unit → Attempt Unit}
    (hexec : exec (steady s) (Journal.append entry >>= k) w' = out)
    (hgo : ∀ w'', w''.bytes = recorded seed trace entry → exec (steady s) (k ()) w'' = out →
      exec (steady s) (run settings (n + 1)) w'' = out) : Charted settings w out := by
  have hextended : Journal.extended w'.bytes entry = recorded seed trace entry := by
    rw [hbytes, hjournal, Journal.extended_render]
    rfl
  rw [exec_bind_congr (Journal.exec_append hentry), hextended] at hexec
  exact charted_write hsound hafter hreaches hbytes hlog hrank hexec
    (fun hlast => absurd hlast Bool.false_ne_true) fun _ => hgo _ rfl

theorem charted_tell (hsound : Sound w.bytes) (hafter : ChartedAfter s settings n w out)
    {line : String} (hline : Journal.Storable line)
    (hdue : due settings w.bytes = some (.tell line (recorded seed trace line)))
    (hjournal : w.bytes = Journal.render (seed.decimal :: trace)) {k : Unit → Attempt Unit}
    (hexec : exec (steady s) (Live.tell line >>= k) w = out)
    (hgo : ∀ w', w'.bytes = recorded seed trace line → exec (steady s) (k ()) w' = out →
      exec (steady s) (run settings (n + 1)) w' = out) : Charted settings w out := by
  have hvalid : exec (steady s) (Attempt.of (Journal.validate line)) w = (.ok (), w) := by
    rw [Attempt.exec_of, Journal.validate_eq_ok_iff.mpr hline]
  rw [Live.tell, bind_assoc, exec_bind_ok hvalid, bind_assoc] at hexec
  rcases exec_showLine_cases s line w with hshow | hshow
  · rw [exec_bind_error hshow] at hexec
    subst hexec
    exact ⟨[.showFailed line], .halt (.unshown hdue), rfl⟩
  · rw [exec_bind_ok hshow] at hexec
    have hrank : w.rank ≤ (w.called (.shown line) w.script).rank := by
      rw [Simulation.rank_called]
      exact Nat.le_succ _
    have hreaches : Reaches settings w.bytes w.script [.shown line] .appending
        (recorded seed trace line) false (w.called (.shown line) w.script).script := .tell hdue
    exact charted_append hsound hafter hline hreaches hjournal rfl rfl hrank hexec hgo

theorem charted_draw (hsound : Sound w.bytes) (hafter : ChartedAfter s settings n w out)
    {previous : Option Int64} {next : Int64 → Dialogue Bool}
    (htrace : ∀ e ∈ trace, Journal.Storable e)
    (hst : (turn (n + 1)).retrace trace 1 none = .ok ⟨drawn, .call (.draw previous) next⟩)
    (hprevious : ∀ x, previous = some x → seed = Generator.next x)
    (hdue : due settings w.bytes = some (.tell seed.decimal (recorded seed trace seed.decimal)))
    (hjournal : w.bytes = Journal.render (seed.decimal :: trace))
    (hexec : exec (steady s)
      (rest settings.exitPolicy (n + 1) n (.call (.draw previous) next)) w = out) :
    Charted settings w out := by
  have hopens : Journal.Opens w.bytes seed trace := by
    rw [hjournal]
    exact opens_canonical seed htrace
  have hall : ∀ e ∈ trace ++ [seed.decimal], Journal.Storable e := by
    simpa [or_imp, forall_and] using ⟨htrace, Numeral.storable_decimal seed⟩
  have hstep : (turn (n + 1)).retrace (trace ++ [seed.decimal]) 1 none
      = .ok ⟨some (1 + trace.length, seed), next seed⟩ := by
    rw [Dialogue.retrace_append hst]
    exact Dialogue.retrace_draw _ _ (recordedDraw_decimal hprevious)
  rw [rest_draw, exec_bind_ok (Journal.exec_seed hopens)] at hexec
  refine charted_tell hsound hafter (Numeral.storable_decimal seed) hdue hjournal hexec ?_
  intro w' hbytes hk
  have hopens' : Journal.Opens w'.bytes seed (trace ++ [seed.decimal]) := by
    rw [hbytes]
    exact opens_canonical seed hall
  rw [exec_run_journal hbytes hall hstep, ← hk]
  exact exec_bind_congr (exec_settle_pending hopens' (1 + trace.length)) _

theorem charted_answer {α : Type} (hsound : Sound w.bytes)
    (hafter : ChartedAfter s settings n w out) {accept : String → Except Error α}
    {next : α → Dialogue Bool} (htrace : ∀ e ∈ trace, Journal.Storable e)
    (hst : (turn (n + 1)).retrace trace 1 none = .ok ⟨drawn, .call (.ask accept) next⟩)
    (hdue : due settings w.bytes = some (.ask (recording accept seed trace)))
    (hjournal : w.bytes = Journal.render (seed.decimal :: trace)) {line entry : String}
    {script : List Utterance} (hscript : w.script = .line line :: script)
    (hblank : Text.isBlank line = false) (htrim : Text.trim line = entry)
    (hexec : exec (steady s) (Attempt.of (accept entry) >>= fun a =>
      Journal.append entry >>= fun _ =>
        rest settings.exitPolicy (n + 1) n (next a)) (w.called (.handedOut line) script) = out) :
    Charted settings w out := by
  have hrefused (e : Error) (he : recording accept seed trace entry = .error e)
      (hout : (.error e, w.called (.handedOut line) script) = out) : Charted settings w out := by
    subst hout
    refine ⟨[.handedOut line], ?_, rfl⟩
    rw [hscript]
    rw [← htrim] at he
    exact .halt (.refused hdue hblank he)
  cases haccept : accept entry with
  | error e =>
      rw [haccept, exec_bind_error (Attempt.exec_of ..)] at hexec
      refine hrefused e ?_ hexec
      rw [recording, haccept]
  | ok a =>
      rw [haccept, exec_bind_ok (Attempt.exec_of ..)] at hexec
      by_cases hentry : Journal.Storable entry
      · have hrecord : recording accept seed trace entry
            = .ok (recorded seed trace entry) := by
          rw [recording, haccept]
          exact if_pos hentry
        have hreaches : Reaches settings w.bytes w.script [.handedOut line] .appending
            (recorded seed trace entry) false script := by
          rw [hscript]
          rw [← htrim] at hrecord ⊢
          exact .ask hdue hblank hrecord
        have hrank : w.rank ≤ (w.called (.handedOut line) script).rank := by
          rw [Simulation.rank_called]
          exact Nat.le_succ _
        have hbytes : (w.called (.handedOut line) script).bytes = w.bytes := rfl
        refine charted_append hsound hafter hentry hreaches hjournal hbytes rfl hrank hexec ?_
        · intro w' hbytes hk
          have hall : ∀ e ∈ trace ++ [entry], Journal.Storable e := by
            simpa [or_imp, forall_and] using ⟨htrace, hentry⟩
          have hstep : (turn (n + 1)).retrace (trace ++ [entry]) 1 none
              = .ok ⟨none, next a⟩ := by
            rw [Dialogue.retrace_append hst]
            exact Dialogue.retrace_ask _ _ haccept
          rw [exec_run_settled hbytes hall hstep Standing.undrawn]
          exact hk
      · rw [exec_bind_error (Journal.exec_append_refused hentry)] at hexec
        refine hrefused _ ?_ hexec
        rw [recording, haccept]
        exact if_neg hentry

theorem charted_ask {α : Type} (hsound : Sound w.bytes) (hafter : ChartedAfter s settings n w out)
    (hne : out.1 ≠ .error .outOfPatience) {accept : String → Except Error α}
    {next : α → Dialogue Bool} (htrace : ∀ e ∈ trace, Journal.Storable e)
    (hst : (turn (n + 1)).retrace trace 1 none = .ok ⟨drawn, .call (.ask accept) next⟩)
    (hdrawn : ∀ position value, drawn = some (position, value) → seed = Generator.next value)
    (hdue : due settings w.bytes = some (.ask (recording accept seed trace)))
    (hjournal : w.bytes = Journal.render (seed.decimal :: trace))
    (hexec : exec (steady s)
      (rest settings.exitPolicy (n + 1) n (.call (.ask accept) next)) w = out) :
    Charted settings w out := by
  have hrun (w' : Simulation) (hbytes : w'.bytes = w.bytes) :
      exec (steady s) (run settings (n + 1)) w'
        = exec (steady s) (rest settings.exitPolicy (n + 1) n (.call (.ask accept) next)) w' :=
    exec_run_settled (hbytes.trans hjournal) htrace hst hdrawn
  rw [rest_ask, Replay.nextLine, bind_assoc] at hexec
  rcases exec_readLine_cases s w with hread | ⟨hscript, hread⟩ | ⟨text, script, hscript, hread⟩ |
    ⟨line, script, hscript, hread⟩
  · rw [exec_bind_error hread] at hexec
    subst hexec
    exact ⟨[.readFailed], .halt (.unheard hdue), rfl⟩
  · rw [exec_bind_error hread] at hexec
    subst hexec
    refine ⟨[.ended], ?_, rfl⟩
    rw [hscript]
    exact .halt (.closed hdue)
  · rw [exec_bind_error hread] at hexec
    subst hexec
    refine ⟨[.readFailed], ?_, rfl⟩
    rw [hscript]
    exact .halt (.broken hdue)
  · rw [exec_bind_ok hread] at hexec
    cases hblank : Text.isBlank line with
    | true =>
        rw [hblank, if_pos rfl] at hexec
        -- the lines still to come are those that a session started here would wait for
        have hmore := (Replay.refines_nextLine (steady s) (Nat.le_succ n)).bind fun line =>
          Refines.refl (steady s) (Attempt.of (accept line) >>= fun a =>
            Journal.append line >>= fun _ => rest settings.exitPolicy (n + 1) n (next a))
        rcases hmore (w.called (.handedOut line) script) with hspent | heq
        · rw [hexec] at hspent
          exact absurd hspent hne
        · rw [hexec, ← rest_ask, ← hrun (w.called (.handedOut line) script) rfl] at heq
          have hrank : w.rank < (w.called (.handedOut line) script).rank := by
            rw [Simulation.rank_called]
            exact Nat.lt_succ_self _
          obtain ⟨fs, hcourse, hlog⟩ := hafter (w.called (.handedOut line) script) hsound hrank heq.symm
          refine ⟨.handedOut line :: fs, ?_, by simp [hlog]⟩
          rw [hscript]
          exact .blank hdue hblank hcourse
    | false =>
        rw [hblank, if_neg (by decide), pure_bind] at hexec
        exact charted_answer hsound hafter htrace hst hdue hjournal hscript hblank rfl hexec

theorem charted_next (hsound : Sound w.bytes) (hafter : ChartedAfter s settings n w out)
    (hne : out.1 ≠ .error .outOfPatience) (htrace : ∀ e ∈ trace, Journal.Storable e)
    (hst : (turn (n + 1)).retrace trace 1 none = .ok ⟨drawn, d⟩)
    (hdrawn : ∀ position value, drawn = some (position, value) → seed = Generator.next value)
    (hjournal : w.bytes = Journal.render (seed.decimal :: trace))
    (hdue : due settings w.bytes = nextTask settings.exitPolicy seed trace d)
    (hexec : exec (steady s) (rest settings.exitPolicy (n + 1) n d) w = out) :
    Charted settings w out := by
  have hproper := (proper_turn (n + 1)).retrace hst
  have hopens : Journal.Opens w.bytes seed trace := by
    rw [hjournal]
    exact opens_canonical seed htrace
  cases d with
  | done exit =>
      cases exit with
      | true => exact charted_leaving hsound hafter hopens hdue hexec
      | false => exact charted_boundary hsound hafter hne hopens hdue hexec
  | call c next =>
      cases c with
      | ask accept => exact charted_ask hsound hafter hne htrace hst hdrawn hdue hjournal hexec
      | tell line =>
          rw [rest_call] at hexec
          refine charted_tell hsound hafter hproper.1 hdue hjournal hexec fun w' hbytes hk => ?_
          have hall : ∀ e ∈ trace ++ [line], Journal.Storable e := by
            simpa [or_imp, forall_and] using ⟨htrace, hproper.1⟩
          have hstep : (turn (n + 1)).retrace (trace ++ [line]) 1 none = .ok ⟨none, next ()⟩ := by
            rw [Dialogue.retrace_append hst]
            exact Dialogue.retrace_tell _ _ line next
          rw [exec_run_settled hbytes hall hstep Standing.undrawn]
          exact hk
      | draw previous =>
          refine charted_draw hsound hafter htrace hst (fun x hx => ?_) hdue hjournal hexec
          obtain ⟨⟨position, value⟩, hvalue, rfl⟩ := Option.map_eq_some_iff.mp (hproper.1 x hx)
          exact hdrawn position value hvalue
      | stop e =>
          have hspent : out.1 = .error e := by
            rw [← hexec]
            rfl
          rw [hproper.2] at hspent
          exact absurd hspent hne

theorem charted_pending (hsound : Sound w.bytes) (hafter : ChartedAfter s settings n w out)
    (htrace : ∀ e ∈ trace, Journal.Storable e) {position : Nat}
    (hst : (turn (n + 1)).retrace trace 1 none = .ok ⟨some (position, seed), d⟩)
    (hpending : seed ≠ Generator.next seed)
    (hjournal : w.bytes = Journal.render (seed.decimal :: trace))
    (hdue : due settings w.bytes = some (.write .replacingSeed
      (Journal.render ((Generator.next seed).decimal :: trace)) false))
    (hexec : exec (steady s) (run settings (n + 1)) w = out) : Charted settings w out := by
  have hopens : Journal.Opens w.bytes seed trace := by
    rw [hjournal]
    exact opens_canonical seed htrace
  have hadvance : exec (steady s) (Live.settle position seed) w
      = exec (steady s) (Attempt.store .replacingSeed
          (Journal.render ((Generator.next seed).decimal :: trace))) w := by
    rw [exec_settle_pending hopens, Live.advance, exec_bind_ok (Journal.exec_seed hopens),
      if_pos hpending, Journal.exec_replaceSeed hopens]
  rw [exec_run_journal hjournal htrace hst, Standing.settle, exec_bind_congr hadvance] at hexec
  refine charted_write hsound hafter (.write hdue) rfl rfl (Nat.le_refl _) hexec
    (fun hlast => absurd hlast Bool.false_ne_true) ?_
  intro _ hk
  rw [exec_run_settled rfl htrace hst ?_]
  · exact hk
  · intro position' value hvalue
    obtain ⟨rfl, rfl⟩ := Prod.mk.inj (Option.some.inj hvalue)
    rfl

end

theorem charted_first (hsound : Sound w.bytes) (hafter : ChartedAfter s settings n w out)
    (hempty : w.bytes = ByteArray.empty)
    (hexec : exec (steady s) (run settings (n + 1)) w = out) : Charted settings w out := by
  have hdue : due settings w.bytes
      = some (.write .appending (Journal.render [settings.defaultSeed.decimal]) false) := by
    rw [hempty]
    rfl
  rw [run_eq, exec_bind_congr (Journal.exec_ensureSeed_empty hempty _)] at hexec
  have hopens := opens_fresh settings.defaultSeed
  generalize Journal.render [settings.defaultSeed.decimal] = fresh at hdue hexec hopens
  refine charted_write hsound hafter (.write hdue) rfl rfl (Nat.le_refl _) hexec
    (fun hlast => absurd hlast Bool.false_ne_true) ?_
  intro _ hk
  rw [run_eq, exec_bind_ok (Journal.exec_ensureSeed hopens _)]
  exact hk

theorem charted_journal {seed : Int64} {trace : List String} {st : Standing Bool}
    (hsound : Sound w.bytes) (hafter : ChartedAfter s settings n w out)
    (hne : out.1 ≠ .error .outOfPatience) (htrace : ∀ e ∈ trace, Journal.Storable e)
    (hst : (turn (trace.length + 1)).retrace trace 1 none = .ok st)
    (hdrawn : ∀ position value, st.drawn = some (position, value) →
      seed = value ∨ seed = Generator.next value)
    (hjournal : w.bytes = Journal.render (seed.decimal :: trace))
    (hexec : exec (steady s) (run settings (n + 1)) w = out) : Charted settings w out := by
  have hopens : Journal.Opens w.bytes seed trace := by
    rw [hjournal]
    exact opens_canonical seed htrace
  obtain ⟨task, htask⟩ := @taskAt_ne_none settings.exitPolicy seed _ _ hst
  have hdue : due settings w.bytes = some task := (due_of_opens settings hopens hst).trans htask
  rcases retrace_turn hst htask (n + 1) with hspent | ⟨d, hretrace, hhead⟩
  · have hout : out.1 = .error .outOfPatience := by
      rw [← hexec, exec_run hopens, resume, hspent]
      rfl
    exact absurd hout hne
  rcases taskAt_cases htask with ⟨position, value, hvalue, ⟨rfl, hpending⟩, rfl⟩ | ⟨hpending, -⟩
  · rw [hvalue] at hretrace
    exact charted_pending hsound hafter htrace hretrace hpending hjournal hdue hexec
  · have hsettled (position : Nat) (value : Int64) (hvalue : st.drawn = some (position, value)) :
        seed = Generator.next value :=
      eq_next_of_not_pending (hdrawn position value hvalue) (hpending position value hvalue)
    rw [exec_run_settled hjournal htrace hretrace hsettled] at hexec
    rcases hhead with hsame | ⟨next, rfl⟩
    · rcases taskAt_cases hsame with ⟨position, value, hvalue, hstill, -⟩ | ⟨-, hnext⟩
      · exact absurd hstill (hpending position value hvalue)
      · exact charted_next hsound hafter hne htrace hretrace hsettled hjournal
          (hdue.trans hnext.symm) hexec
    · have hout : out.1 = .error .outOfPatience := by
        rw [← hexec]
        rfl
      exact absurd hout hne

theorem charted_run (s : Schedule) (settings : Settings) (n : Nat) (w : Simulation)
    (hsound : Sound w.bytes)
    (hne : (exec (steady s) (run settings (n + 1)) w).1 ≠ .error .outOfPatience) :
    Charted settings w (exec (steady s) (run settings (n + 1)) w) := by
  generalize hexec : exec (steady s) (run settings (n + 1)) w = out at hne ⊢
  -- what follows a task is a session started on what the task has left, with less of the log to come
  induction hk : out.2.rank - w.rank using Nat.strongRecOn generalizing w with
  | ind k ih =>
      have hafter : ChartedAfter s settings n w out := by
        intro w' hsound' hrank hexec'
        have hle := Simulation.rank_le_exec s (run settings (n + 1)) w'
        rw [hexec'] at hle
        exact ih (out.2.rank - w'.rank) (by omega) w' hsound' hexec' rfl
      rcases sound_iff.mp hsound with hempty | ⟨seed, trace, st, hjournal, htrace, hst, hdrawn⟩
      · exact charted_first hsound hafter hempty hexec
      · exact charted_journal hsound hafter hne htrace hst hdrawn hjournal hexec

theorem due_refuses {bytes : ByteArray} {record : String → Except Error ByteArray}
    (hdue : due settings bytes = some (.ask record)) {entry : String} {e : Error}
    (he : record entry = .error e) : e = .notANumber entry ∨ e = .invalidEntry entry := by
  unfold due at hdue
  split at hdue
  · cases hdue
  · split at hdue
    · next first trace hparse =>
        split at hdue
        · next seed st hseed hst =>
            have hrest := proper_rest hst
            rcases taskAt_cases hdue with ⟨_, _, _, _, htask⟩ | ⟨-, hnext⟩
            · cases htask
            · exact nextTask_refuses hrest hnext he
        · cases hdue
    · cases hdue

theorem Halt.error_cases {b b' : ByteArray} {u u' : List Utterance} {es : List Event}
    {result : Except Error Unit} (h : Halt settings b u es result b' u') {e : Error}
    (he : result = .error e) :
    (∃ operation cause, e = .storage operation cause) ∨ (∃ cause, e = .transport cause) ∨
      e = .inputClosed ∨ ∃ line, es = [.handedOut line] ∧
        (e = .notANumber (Text.trim line) ∨ e = .invalidEntry (Text.trim line)) := by
  cases h with
  | left hreaches => cases he
  | lost hreaches => exact .inl ⟨_, _, (Except.error.inj he).symm⟩
  | crashed hreaches => exact .inl ⟨_, _, (Except.error.inj he).symm⟩
  | refused hdue hblank hrecord =>
      obtain rfl := Except.error.inj he
      exact .inr (.inr (.inr ⟨_, rfl, due_refuses hdue hrecord⟩))
  | closed hdue => exact .inr (.inr (.inl (Except.error.inj he).symm))
  | unheard hdue => exact .inr (.inl ⟨_, (Except.error.inj he).symm⟩)
  | broken hdue => exact .inr (.inl ⟨_, (Except.error.inj he).symm⟩)
  | unshown hdue => exact .inr (.inl ⟨_, (Except.error.inj he).symm⟩)

theorem Course.exists_halt {b b' : ByteArray} {u u' : List Utterance} {es : List Event}
    {result : Except Error Unit} (h : Course settings b u es result b' u') :
    ∃ fs gs b₁ u₁, es = fs ++ gs ∧ Halt settings b₁ u₁ gs result b' u' := by
  induction h with
  | stored hreaches hcourse ih =>
      obtain ⟨fs, gs, b₁, u₁, rfl, hhalt⟩ := ih
      exact ⟨_, gs, b₁, u₁, (List.append_assoc _ (_ :: fs) gs).symm, hhalt⟩
  | blank hdue hblank hcourse ih =>
      obtain ⟨fs, gs, b₁, u₁, rfl, hhalt⟩ := ih
      exact ⟨_ :: fs, gs, b₁, u₁, rfl, hhalt⟩
  | halt hhalt => exact ⟨[], _, _, _, rfl, hhalt⟩

end DurableCalc.Session
