import DurableCalc.Proofs.Live

namespace DurableCalc

structure Standing (α : Type) where
  drawn : Option (Nat × Int64)
  rest : Dialogue α

namespace Standing

theorem undrawn {α : Type} {rest : Dialogue α} {P : Nat → Int64 → Prop} (position : Nat)
    (value : Int64) (h : (⟨none, rest⟩ : Standing α).drawn = some (position, value)) :
    P position value := by
  cases h

def settle {α : Type} (s : Standing α) : Attempt Unit :=
  match s.drawn with
  | none => pure ()
  | some (position, value) => Live.settle position value

end Standing

def Dialogue.retrace {α : Type} :
    List String → Nat → Option (Nat × Int64) → Dialogue α → Except Error (Standing α)
  | [], _, drawn, d => .ok ⟨drawn, d⟩
  | _ :: es, position, _, .done _ => .error (.trailingTrace position (es.length + 1))
  | e :: es, position, _, .call (.ask accept) next =>
      match accept e with
      | .ok a => retrace es (position + 1) none (next a)
      | .error error => .error error
  | e :: es, position, _, .call (.tell line) next =>
      if e = line then retrace es (position + 1) none (next ())
      else .error (.replayMismatch position line e)
  | e :: es, position, _, .call (.draw previous) next =>
      match Replay.recordedDraw position previous e with
      | .ok value => retrace es (position + 1) (some (position, value)) (next value)
      | .error error => .error error
  | _ :: _, _, _, .call (.stop error) _ => .error error

theorem Dialogue.retrace_append {α : Type} {es fs : List String} {position : Nat}
    {drawn : Option (Nat × Int64)} {d : Dialogue α} {st : Standing α}
    (h : d.retrace es position drawn = .ok st) :
    d.retrace (es ++ fs) position drawn
      = st.rest.retrace fs (position + es.length) st.drawn := by
  induction es generalizing position drawn d with
  | nil =>
      obtain rfl := Except.ok.inj h
      rfl
  | cons e es ih =>
      rw [List.length_cons, Nat.add_comm es.length, ← Nat.add_assoc]
      cases d with
      | done a => cases h
      | call c next =>
          cases c with
          | ask accept =>
              rw [List.cons_append, retrace]
              rw [retrace] at h
              split at h
              · exact ih h
              · cases h
          | tell line =>
              rw [List.cons_append, retrace]
              rw [retrace] at h
              split at h
              · next he =>
                  rw [if_pos he]
                  exact ih h
              · cases h
          | draw previous =>
              rw [List.cons_append, retrace]
              rw [retrace] at h
              split at h
              · exact ih h
              · cases h
          | stop e => cases h

section

variable {α β : Type} (position : Nat) (drawn : Option (Nat × Int64))

theorem Dialogue.retrace_ask {accept : String → Except Error β} {next : β → Dialogue α}
    {entry : String} {b : β} (h : accept entry = .ok b) :
    Dialogue.retrace [entry] position drawn (.call (.ask accept) next) = .ok ⟨none, next b⟩ := by
  rw [Dialogue.retrace, h]
  rfl

theorem Dialogue.retrace_tell (line : String) (next : Unit → Dialogue α) :
    Dialogue.retrace [line] position drawn (.call (.tell line) next) = .ok ⟨none, next ()⟩ := by
  rw [Dialogue.retrace, if_pos rfl]
  rfl

theorem Dialogue.retrace_draw {previous : Option Int64} {next : Int64 → Dialogue α} {entry : String}
    {value : Int64} (h : Replay.recordedDraw position previous entry = .ok value) :
    Dialogue.retrace [entry] position drawn (.call (.draw previous) next)
      = .ok ⟨some (position, value), next value⟩ := by
  rw [Dialogue.retrace, h]
  rfl

end

namespace Replay

theorem recordedDraw_eq_ok_iff {position : Nat} {previous : Option Int64} {e : String}
    {value : Int64} : recordedDraw position previous e = .ok value ↔
      Numeral.read? e = some value ∧ ∀ x, previous = some x → value = Generator.next x := by
  unfold recordedDraw
  cases Numeral.read? e with
  | none => simp
  | some value' =>
      cases previous with
      | none => simp
      | some x =>
          by_cases hnext : Generator.next x = value'
          · simp [hnext, eq_comm]
          · simp only [if_neg hnext]
            constructor
            · intro h
              cases h
            · rintro ⟨hread, hvalue⟩
              obtain rfl := Option.some.inj hread
              exact absurd (hvalue x rfl).symm hnext

variable {α β : Type}

@[simp] theorem ahead_consume {r : Replay} {e : String} {es : List String} (h : r.ahead = e :: es) :
    r.consume.ahead = es := by
  simp [consume, h]

@[simp] theorem cursor_consume {r : Replay} {e : String} {es : List String}
    (h : r.ahead = e :: es) : r.consume.cursor = r.cursor + 1 := by
  simp [consume, cursor, h]

theorem outcome_read_recorded (patience : Nat) (accept : String → Except Error α) (k : α → Op β)
    {r : Replay} {e : String} {es : List String} (hr : r.ahead = e :: es) :
    outcome (read patience accept >>= k) r
      = Attempt.of (accept e) >>= fun a => outcome (k a) r.consume := by
  simp only [read, bind_assoc, outcome_get_bind, hr, outcome_of_bind, outcome_modify_bind,
    pure_bind]

theorem outcome_showLine_recorded (line : String) (k : Unit → Op β) {r : Replay} {e : String}
    {es : List String} (hr : r.ahead = e :: es) :
    outcome (showLine line >>= k) r
      = if e = line then outcome (k ()) r.consume else throw (.replayMismatch r.cursor line e) := by
  simp only [showLine, bind_assoc, outcome_get_bind, hr]
  split
  · exact outcome_modify_bind _ _ _
  · rfl

theorem outcome_draw_recorded (previous : Option Int64) {k : Int64 → Op β} {k' : Int64 → Attempt β}
    {r : Replay} {e : String} {es : List String} (hr : r.ahead = e :: es)
    (hk : es = [] → ∀ a r', r'.ahead = [] → outcome (k a) r' = k' a) :
    outcome (draw previous >>= k) r
      = Attempt.of (recordedDraw r.cursor previous e) >>= fun value =>
          if es = [] then Live.settle r.cursor value >>= fun _ => k' value
          else outcome (k value) r.consume := by
  rw [draw, bind_assoc, outcome_get_bind, hr]
  simp only [bind_assoc]
  rw [outcome_of_bind]
  refine bind_congr fun value => ?_
  rw [outcome_modify_bind]
  split
  · next hes =>
      rw [bind_assoc]
      refine outcome_settle_bind _ _ fun r' hr' => ?_
      rw [pure_bind]
      exact hk hes value r' (hr'.trans ((ahead_consume hr).trans hes))
  · simp only [pure_bind]

theorem outcome_perform (patience : Nat) {k : α → Op β} {k' : α → Attempt β}
    (hlive : ∀ a r, r.ahead = [] → outcome (k a) r = k' a)
    (hleft : ∀ a r, r.ahead ≠ [] → outcome (k a) r = throw (.trailingTrace r.cursor r.ahead.length))
    (d : Dialogue α) (es : List String) (drawn : Option (Nat × Int64)) {r : Replay}
    (hr : r.ahead = es) (h : es = [] → drawn = none) :
    outcome (perform patience d >>= k) r
      = match d.retrace es r.cursor drawn with
        | .ok s => s.settle >>= fun _ => s.rest.live patience >>= k'
        | .error error => throw error := by
  induction es generalizing d drawn r with
  | nil =>
      rw [h rfl, outcome_perform_live patience d hlive hr]
      rfl
  | cons e es ih =>
      have hahead := ahead_consume hr
      have hcursor := cursor_consume hr
      cases d with
      | done a =>
          refine (hleft a r (by simp [hr])).trans ?_
          rw [hr]
          rfl
      | call c next =>
          simp only [perform, Program.interpret, bind_assoc] at ih ⊢
          cases c with
          | ask accept =>
              rw [reply, outcome_read_recorded patience accept _ hr, Dialogue.retrace]
              cases accept e with
              | error error => rfl
              | ok a =>
                  have := ih (next a) none hahead fun _ => rfl
                  rw [hcursor] at this
                  exact this
          | tell line =>
              rw [reply, outcome_showLine_recorded line _ hr, Dialogue.retrace]
              split
              · have := ih (next ()) none hahead fun _ => rfl
                rw [hcursor] at this
                exact this
              · rfl
          | draw previous =>
              have hlast : es = [] → ∀ a r', r'.ahead = [] →
                  outcome (Program.interpret (reply patience) (next a) >>= k) r'
                    = Dialogue.live patience (next a) >>= k' := fun _ a r' hr' =>
                outcome_perform_live patience (next a) hlive hr'
              rw [reply, outcome_draw_recorded previous hr hlast, Dialogue.retrace]
              cases recordedDraw r.cursor previous e with
              | error error => rfl
              | ok value =>
                  by_cases hes : es = []
                  · subst hes
                    rfl
                  · have := ih (next value) (some (r.cursor, value)) hahead fun he => absurd he hes
                    rw [hcursor] at this
                    simp only [hes, if_false]
                    exact this
          | stop error => rfl

end Replay

end DurableCalc
