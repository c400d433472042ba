import DurableCalc.Proofs.Retrace

namespace DurableCalc.Session

def named (patience : Nat) (name : String) : Dialogue Bool :=
  match Command.ofName name with
  | .exit => pure true
  | command => do
      command.dialogue patience
      pure false

def turn (patience : Nat) : Dialogue Bool :=
  Dialogue.askLine >>= named patience

theorem retrace_named (patience : Nat) (name : String) (es : List String) :
    (turn patience).retrace (name :: es) 1 none = (named patience name).retrace es 2 none := rfl

theorem live_turn (patience : Nat) :
    (turn patience).live patience
      = Live.ask patience .ok >>= fun name => (named patience name).live patience := rfl

def ending : ExitPolicy → Attempt Unit
  | .compact => Journal.compact
  | .clear => Journal.clear

def goOn (policy : ExitPolicy) (patience : Nat) : Nat → Attempt Unit
  | 0 => throw .outOfPatience
  | n + 1 => do
      let exit ← (turn patience).live patience
      if exit then ending policy
      else do
        Journal.compact
        goOn policy patience n

def closing (policy : ExitPolicy) (patience n : Nat) (exit : Bool) : Attempt Unit :=
  if exit then ending policy
  else do
    Journal.compact
    goOn policy patience n

def rest (policy : ExitPolicy) (patience n : Nat) (d : Dialogue Bool) : Attempt Unit :=
  d.live patience >>= closing policy patience n

theorem goOn_succ (policy : ExitPolicy) (patience n : Nat) :
    goOn policy patience (n + 1) = rest policy patience n (turn patience) := rfl

def resume (policy : ExitPolicy) (patience n : Nat) (trace : List String) : Attempt Unit :=
  match (turn patience).retrace trace 1 none with
  | .ok s => s.settle >>= fun _ => rest policy patience n s.rest
  | .error error => throw error

theorem commands_succ (policy : ExitPolicy) (patience n : Nat) :
    commands policy patience (n + 1) = (do
      let exit ← Replay.perform patience (turn patience)
      if exit then leave policy
      else do
        Replay.finish
        commands policy patience n) := by
  have hname : Replay.perform patience Dialogue.askLine = Replay.readLine patience :=
    bind_pure (Replay.readLine patience)
  rw [commands, turn, Replay.perform, Program.interpret_bind]
  simp only [Replay.perform] at hname ⊢
  rw [hname, bind_assoc]
  refine bind_congr fun name => ?_
  unfold named
  cases Command.ofName name with
  | exit => rfl
  | _ =>
      rw [Program.interpret_bind, bind_assoc]
      exact bind_congr fun _ => rfl

theorem outcome_finish_bind {β : Type} {k : Unit → Replay.Op β} {k' : Unit → Attempt β} {r : Replay}
    (hr : r.ahead = []) (hk : ∀ r', r'.ahead = [] → Replay.outcome (k ()) r' = k' ()) :
    Replay.outcome (Replay.finish >>= k) r = Journal.compact >>= k' := by
  simp only [Replay.finish, Replay.ensureFinished, bind_assoc, Replay.outcome_get_bind, hr, ne_eq,
    not_true_eq_false, if_false, pure_bind, Replay.outcome_lift_bind, Replay.outcome_modify_bind]
  exact bind_congr fun _ => hk _ rfl

theorem outcome_leave (policy : ExitPolicy) {r : Replay} (hr : r.ahead = []) :
    Replay.outcome (leave policy) r = ending policy := by
  cases policy with
  | compact =>
      have := outcome_finish_bind hr fun r' _ => Replay.outcome_pure () r'
      rw [bind_pure, bind_pure] at this
      exact this
  | clear =>
      have := Replay.outcome_lift_bind Journal.clear pure r
      simp only [bind_pure, Replay.outcome_pure] at this
      simp only [leave, Replay.discard, Replay.ensureFinished, bind_assoc, Replay.outcome_get_bind,
        hr, ne_eq, not_true_eq_false, if_false, pure_bind, this]
      rfl

theorem outcome_ensureFinished_bind {β : Type} (k : Unit → Replay.Op β) {r : Replay}
    (hr : r.ahead ≠ []) :
    Replay.outcome (Replay.ensureFinished >>= k) r
      = throw (.trailingTrace r.cursor r.ahead.length) := by
  simp only [Replay.ensureFinished, bind_assoc, Replay.outcome_get_bind, ne_eq, hr,
    not_false_eq_true, if_true, Replay.outcome_throw_bind]

theorem outcome_commands_live (policy : ExitPolicy) (patience n : Nat) {r : Replay}
    (hr : r.ahead = []) :
    Replay.outcome (commands policy patience n) r = goOn policy patience n := by
  induction n generalizing r with
  | zero => rfl
  | succ n ih =>
      rw [commands_succ]
      refine Replay.outcome_perform_live patience (turn patience) (fun exit r' hr' => ?_) hr
      cases exit with
      | true => exact outcome_leave policy hr'
      | false => exact outcome_finish_bind hr' fun r'' hr'' => ih hr''

theorem outcome_commands (policy : ExitPolicy) (patience n : Nat) {r : Replay} (hr : r.past = []) :
    Replay.outcome (commands policy patience (n + 1)) r = resume policy patience n r.ahead := by
  have hcursor : r.cursor = 1 := by simp [Replay.cursor, hr]
  have hlive (exit : Bool) (r : Replay) (hr : r.ahead = []) :
      Replay.outcome (if exit then leave policy else do
        Replay.finish
        commands policy patience n) r = closing policy patience n exit := by
    cases exit with
    | true => exact outcome_leave policy hr
    | false =>
        exact outcome_finish_bind hr fun r' hr' => outcome_commands_live policy patience n hr'
  have hleft (exit : Bool) (r : Replay) (hr : r.ahead ≠ []) :
      Replay.outcome (if exit then leave policy else do
        Replay.finish
        commands policy patience n) r = throw (.trailingTrace r.cursor r.ahead.length) := by
    cases exit with
    | true => cases policy <;> exact outcome_ensureFinished_bind _ hr
    | false =>
        simp only [Bool.false_eq_true, if_false, Replay.finish, bind_assoc]
        exact outcome_ensureFinished_bind _ hr
  rw [commands_succ, Replay.outcome_perform patience hlive hleft (turn patience) r.ahead none rfl
    fun _ => rfl, hcursor, resume]
  cases (turn patience).retrace r.ahead 1 none <;> rfl

theorem run_eq (settings : Settings) (n : Nat) :
    run settings (n + 1) = (do
      Journal.ensureSeed settings.defaultSeed
      let es ← Journal.entries
      let _ ← Attempt.of (Journal.parseSeed es.head?)
      resume settings.exitPolicy (n + 1) n es.tail) := by
  simp only [run, Replay.resume, bind_assoc, pure_bind]
  refine bind_congr fun _ => bind_congr fun es => bind_congr fun seed => ?_
  exact outcome_commands settings.exitPolicy (n + 1) n rfl

end DurableCalc.Session
