import DurableCalc.Proofs.Ending

namespace DurableCalc

structure Turnout (ρ : Type) where
  result : Except Error ρ
  events : List Event
  bytes : ByteArray
  lines : List String

namespace Turnout

variable {ρ : Type}

def after (events : List Event) (t : Turnout ρ) : Turnout ρ :=
  { t with events := events ++ t.events }

@[simp] theorem after_nil (t : Turnout ρ) : t.after [] = t := rfl

@[simp] theorem after_after (es fs : List Event) (t : Turnout ρ) :
    (t.after fs).after es = t.after (es ++ fs) := by
  simp [after]

end Turnout

namespace Calm

variable {α : Type}

def hear (bytes : ByteArray) : List String → Turnout String
  | [] => ⟨.error .inputClosed, [.ended], bytes, []⟩
  | line :: lines =>
      if Text.isBlank line then (hear bytes lines).after [.handedOut line]
      else ⟨.ok (Text.trim line), [.handedOut line], bytes, lines⟩

def take (accept : String → Except Error α) (heard : Turnout String) (line : String) : Turnout α :=
  match accept line with
  | .error e => ⟨.error e, heard.events, heard.bytes, heard.lines⟩
  | .ok a =>
      if Journal.Storable line then
        ⟨.ok a, heard.events ++ [.stored (Journal.extended heard.bytes line)],
          Journal.extended heard.bytes line, heard.lines⟩
      else ⟨.error (.invalidEntry line), heard.events, heard.bytes, heard.lines⟩

def ask (accept : String → Except Error α) (bytes : ByteArray) (lines : List String) : Turnout α :=
  match (hear bytes lines).result with
  | .error e => ⟨.error e, (hear bytes lines).events, bytes, (hear bytes lines).lines⟩
  | .ok line => take accept (hear bytes lines) line

def tell (line : String) (bytes : ByteArray) (lines : List String) : Turnout Unit :=
  if Journal.Storable line then
    ⟨.ok (), [.shown line, .stored (Journal.extended bytes line)], Journal.extended bytes line,
      lines⟩
  else ⟨.error (.invalidEntry line), [], bytes, lines⟩

theorem hear_bytes (bytes : ByteArray) (lines : List String) : (hear bytes lines).bytes = bytes := by
  induction lines with
  | nil => rfl
  | cons line lines ih =>
      rw [hear]
      split
      · exact ih
      · rfl

theorem take_after (accept : String → Except Error α) (heard : Turnout String) (line : String)
    (es : List Event) : take accept (heard.after es) line = (take accept heard line).after es := by
  simp only [take, Turnout.after]
  split
  · rfl
  · split
    · simp
    · rfl

theorem ask_blank (accept : String → Except Error α) (bytes : ByteArray) {line : String}
    (hblank : Text.isBlank line = true) (lines : List String) :
    ask accept bytes (line :: lines) = (ask accept bytes lines).after [.handedOut line] := by
  have hheard : hear bytes (line :: lines) = (hear bytes lines).after [.handedOut line] := by
    rw [hear, if_pos hblank]
  simp only [ask, hheard, take_after]
  simp only [Turnout.after]
  split <;> rfl

def passedOver (lines : List String) : List Event :=
  lines.map .handedOut

theorem ask_blanks (accept : String → Except Error α) (bytes : ByteArray) {blanks : List String}
    (hblanks : ∀ line ∈ blanks, Text.isBlank line = true) (lines : List String) :
    ask accept bytes (blanks ++ lines) = (ask accept bytes lines).after (passedOver blanks) := by
  induction blanks with
  | nil => rfl
  | cons line blanks ih =>
      obtain ⟨hblank, hothers⟩ := List.forall_mem_cons.mp hblanks
      rw [List.cons_append, ask_blank accept bytes hblank, ih hothers, Turnout.after_after]
      rfl

theorem ask_line (accept : String → Except Error α) (bytes : ByteArray) {line : String}
    (hblank : Text.isBlank line = false) (lines : List String) :
    ask accept bytes (line :: lines)
      = (take accept ⟨.ok (Text.trim line), [], bytes, lines⟩ (Text.trim line)).after
          [.handedOut line] := by
  rw [← take_after]
  simp [ask, hear, hblank, Turnout.after]

theorem exists_line (lines : List String) :
    (∀ line ∈ lines, Text.isBlank line = true) ∨
      ∃ blanks line rest, lines = blanks ++ line :: rest ∧
        (∀ line ∈ blanks, Text.isBlank line = true) ∧ Text.isBlank line = false := by
  induction lines with
  | nil => exact .inl (List.forall_mem_nil _)
  | cons line lines ih =>
      cases hblank : Text.isBlank line with
      | false => exact .inr ⟨[], line, lines, rfl, List.forall_mem_nil _, hblank⟩
      | true =>
          rcases ih with hall | ⟨blanks, line', rest, rfl, hblanks, hline⟩
          · exact .inl (List.forall_mem_cons.mpr ⟨hblank, hall⟩)
          · refine .inr ⟨line :: blanks, line', rest, rfl, ?_, hline⟩
            exact List.forall_mem_cons.mpr ⟨hblank, hblanks⟩

theorem ask_closed (accept : String → Except Error α) (bytes : ByteArray)
    {lines : List String} (h : ∀ line ∈ lines, Text.isBlank line = true) :
    ask accept bytes lines
      = ⟨.error .inputClosed, passedOver lines ++ [.ended], bytes, []⟩ := by
  have hall := ask_blanks accept bytes h []
  rw [List.append_nil] at hall
  rw [hall]
  rfl

theorem ask_past_blanks (accept : String → Except Error α) (bytes : ByteArray)
    {blanks rest : List String} {line : String}
    (hblanks : ∀ line ∈ blanks, Text.isBlank line = true) (hline : Text.isBlank line = false) :
    ask accept bytes (blanks ++ line :: rest)
      = (take accept ⟨.ok (Text.trim line), [], bytes, rest⟩ (Text.trim line)).after
          (passedOver blanks ++ [.handedOut line]) := by
  rw [ask_blanks accept bytes hblanks, ask_line accept bytes hline, Turnout.after_after]

end Calm

namespace Schedule

structure Lasting (s : Schedule) : Prop where
  loses : ∀ i, s.loses i = false
  loadFails : ∀ i, s.loadFails i = false

theorem lasting_faultless : Schedule.faultless.Lasting :=
  ⟨fun _ => rfl, fun _ => rfl⟩

end Schedule

namespace Simulation

variable {ρ α : Type} {s : Schedule} {w : Simulation}

structure Comes (w : Simulation) (out : Except Error ρ × Simulation) (t : Turnout ρ) : Prop where
  result : out.1 = t.result
  log : out.2.log = t.events.reverse ++ w.log
  bytes : out.2.bytes = t.bytes
  script : out.2.script = t.lines.map .line

inductive Faces (s : Schedule) (w : Simulation) (out : Except Error ρ × Simulation)
    (again : ByteArray → List String → Turnout ρ) (t : Turnout ρ) : Prop where
  | calm : Comes w out t → Faces s w out again t
  | unheard (es : List Event) (fault : Event) (lines : List String) {i : Nat} :
      s.userFails i = true → fault.effect? = none → Session.isFault fault = true →
      t = (again w.bytes lines).after es →
      Comes w out ⟨.error (.transport .induced), es ++ [fault], w.bytes, lines⟩ →
      Faces s w out again t
  | crashed (es : List Event) {a : ρ} {i : Nat} :
      s.crashes i = true → t.result = .ok a → t.events = es ++ [.stored t.bytes] →
      Comes w out ⟨.error (.storage .appending .induced), es ++ [.crashed t.bytes], t.bytes,
        t.lines⟩ →
      Faces s w out again t

theorem Faces.comes {ρ : Type} {out : Except Error ρ × Simulation}
    {again : ByteArray → List String → Turnout ρ} {t : Turnout ρ}
    (h : Faces .faultless w out again t) : Comes w out t := by
  cases h with
  | calm hcomes => exact hcomes
  | unheard es fault lines hfails => cases hfails
  | crashed es hcrashes => cases hcrashes

open Attempt (exec exec_bind_ok exec_bind_error)

theorem exec_readLine_failed (h : s.userFails w.calls = true) :
    exec (steady s) Attempt.readLine w
      = (.error (.transport .induced), w.called .readFailed w.script) := by
  simp only [Attempt.exec_readLine, steady, readLine, h, if_true]
  rfl

theorem exec_readLine_ended (h : s.userFails w.calls = false) (hscript : w.script = []) :
    exec (steady s) Attempt.readLine w = (.error .inputClosed, w.called .ended []) := by
  simp only [Attempt.exec_readLine, steady, readLine, h, hscript, Bool.false_eq_true, if_false]
  rw [called, ← hscript]
  rfl

theorem exec_readLine_line (h : s.userFails w.calls = false) {line : String}
    {rest : List Utterance} (hscript : w.script = .line line :: rest) :
    exec (steady s) Attempt.readLine w = (.ok line, w.called (.handedOut line) rest) := by
  simp only [Attempt.exec_readLine, steady, readLine, h, hscript, Bool.false_eq_true, if_false]
  rfl

theorem exec_showLine_failed (h : s.userFails w.calls = true) (line : String) :
    exec (steady s) (Attempt.showLine line) w
      = (.error (.transport .induced), w.called (.showFailed line) w.script) := by
  simp only [Attempt.exec_showLine, steady, showLine, h, if_true]
  rfl

theorem exec_showLine_shown (h : s.userFails w.calls = false) (line : String) :
    exec (steady s) (Attempt.showLine line) w = (.ok (), w.called (.shown line) w.script) := by
  simp only [Attempt.exec_showLine, steady, showLine, h, Bool.false_eq_true, if_false]
  rfl

theorem exec_store_stored (hloses : s.loses w.writes = false) (hcrashes : s.crashes w.writes = false)
    (operation : Operation) (bytes : ByteArray) :
    exec (steady s) (Attempt.store operation bytes) w
      = (.ok (), w.written (.stored bytes) bytes) := by
  simp only [Attempt.exec_store, steady, store, hloses, hcrashes, Bool.false_eq_true, if_false]
  rfl

theorem exec_store_crashed (hloses : s.loses w.writes = false) (hcrashes : s.crashes w.writes = true)
    (operation : Operation) (bytes : ByteArray) :
    exec (steady s) (Attempt.store operation bytes) w
      = (.error (.storage operation .induced), w.written (.crashed bytes) bytes) := by
  simp only [Attempt.exec_store, steady, store, hloses, hcrashes, Bool.false_eq_true, if_false,
    if_true]
  rfl

theorem Comes.after {w' : Simulation} {out : Except Error ρ × Simulation} {t : Turnout ρ}
    {es : List Event} (h : Comes w' out t) (hlog : w'.log = es.reverse ++ w.log) :
    Comes w out (t.after es) where
  result := h.result
  log := by
    rw [h.log, hlog, Turnout.after, List.reverse_append, List.append_assoc]
  bytes := h.bytes
  script := h.script

theorem Faces.after {w' : Simulation} {out : Except Error ρ × Simulation}
    {again : ByteArray → List String → Turnout ρ} {t : Turnout ρ} {es : List Event}
    (h : Faces s w' out again t) (hlog : w'.log = es.reverse ++ w.log)
    (hbytes : w'.bytes = w.bytes) : Faces s w out again (t.after es) := by
  cases h with
  | calm hcomes => exact .calm (hcomes.after hlog)
  | @unheard fs fault lines i hfails hnothing hfault ht hcomes =>
      rw [hbytes] at ht hcomes
      refine .unheard (es ++ fs) fault lines hfails hnothing hfault ?_ ?_
      · rw [ht, Turnout.after_after]
      · simpa [Turnout.after] using hcomes.after hlog
  | @crashed fs a i hcrashes hresult hevents hcomes =>
      refine .crashed (es ++ fs) hcrashes hresult ?_ ?_
      · rw [Turnout.after, hevents, List.append_assoc]
      · simpa [Turnout.after] using hcomes.after hlog

end Simulation

def Live.take {α : Type} (accept : String → Except Error α) (line : String) : Attempt α := do
  let a ← Attempt.of (accept line)
  Journal.append line
  return a

theorem Live.ask_succ {α : Type} (patience : Nat) (accept : String → Except Error α) :
    Live.ask (patience + 1) accept = Attempt.readLine >>= fun line =>
      if Text.isBlank line then Live.ask patience accept
      else Live.take accept (Text.trim line) := by
  rw [Live.ask, Replay.nextLine, bind_assoc]
  refine bind_congr fun line => ?_
  split
  · rfl
  · rw [pure_bind, Live.take]

namespace Simulation

open Attempt (exec exec_bind_ok exec_bind_error)

variable {ρ α : Type} {s : Schedule} {w : Simulation}

theorem exec_append_cases (hloses : ∀ i, s.loses i = false) {entry : String}
    (hentry : Journal.Storable entry) :
    exec (steady s) (Journal.append entry) w
        = (.ok (), w.written (.stored (Journal.extended w.bytes entry))
            (Journal.extended w.bytes entry)) ∨
      (∃ i, s.crashes i = true) ∧ exec (steady s) (Journal.append entry) w
        = (.error (.storage .appending .induced),
            w.written (.crashed (Journal.extended w.bytes entry))
              (Journal.extended w.bytes entry)) := by
  rw [Journal.exec_append hentry]
  cases hcrashes : s.crashes w.writes with
  | false => exact .inl (exec_store_stored (hloses _) hcrashes _ _)
  | true => exact .inr ⟨⟨_, hcrashes⟩, exec_store_crashed (hloses _) hcrashes _ _⟩

theorem faces_take (hloses : ∀ i, s.loses i = false) (accept : String → Except Error α)
    (line : String) {lines : List String} (hscript : w.script = lines.map .line)
    (again : ByteArray → List String → Turnout α) :
    Faces s w (exec (steady s) (Live.take accept line) w) again
      (Calm.take accept ⟨.ok line, [], w.bytes, lines⟩ line) := by
  rw [Live.take, Calm.take]
  cases haccept : accept line with
  | error e =>
      have hof : exec (steady s) (Attempt.of (Except.error e : Except Error α)) w
          = (.error e, w) := rfl
      rw [exec_bind_error hof]
      exact .calm ⟨rfl, rfl, rfl, hscript⟩
  | ok a =>
      have hof : exec (steady s) (Attempt.of (Except.ok a : Except Error α)) w = (.ok a, w) := rfl
      rw [exec_bind_ok hof]
      by_cases hline : Journal.Storable line
      · simp only [if_pos hline]
        rcases exec_append_cases (w := w) hloses hline with hstored | ⟨⟨i, hcrashes⟩, hcrashed⟩
        · rw [exec_bind_ok hstored]
          exact .calm ⟨rfl, rfl, rfl, hscript⟩
        · rw [exec_bind_error hcrashed]
          exact .crashed [] hcrashes rfl rfl ⟨rfl, rfl, rfl, hscript⟩
      · simp only [if_neg hline]
        rw [exec_bind_error (Journal.exec_append_refused hline)]
        exact .calm ⟨rfl, rfl, rfl, hscript⟩

theorem faces_ask (hloses : ∀ i, s.loses i = false) (accept : String → Except Error α)
    {patience : Nat} {lines : List String} (hscript : w.script = lines.map .line)
    (hpatience : lines.length < patience) :
    Faces s w (exec (steady s) (Live.ask patience accept) w) (Calm.ask accept)
      (Calm.ask accept w.bytes lines) := by
  induction lines generalizing w patience with
  | nil =>
      obtain ⟨n, rfl⟩ := Nat.exists_eq_succ_of_ne_zero (Nat.ne_of_gt hpatience)
      rw [Nat.succ_eq_add_one, Live.ask_succ]
      cases hfails : s.userFails w.calls with
      | true =>
          rw [exec_bind_error (exec_readLine_failed hfails)]
          exact .unheard [] .readFailed _ hfails rfl rfl (Turnout.after_nil _).symm
            ⟨rfl, rfl, rfl, hscript⟩
      | false =>
          rw [exec_bind_error (exec_readLine_ended hfails hscript)]
          exact .calm ⟨rfl, rfl, rfl, rfl⟩
  | cons line lines ih =>
      obtain ⟨n, rfl⟩ := Nat.exists_eq_succ_of_ne_zero (Nat.ne_zero_of_lt hpatience)
      rw [Nat.succ_eq_add_one, Live.ask_succ]
      cases hfails : s.userFails w.calls with
      | true =>
          rw [exec_bind_error (exec_readLine_failed hfails)]
          exact .unheard [] .readFailed _ hfails rfl rfl (Turnout.after_nil _).symm
            ⟨rfl, rfl, rfl, hscript⟩
      | false =>
          rw [exec_bind_ok (exec_readLine_line hfails hscript)]
          cases hblank : Text.isBlank line with
          | true =>
              rw [Calm.ask_blank accept _ hblank]
              have hrest := ih (w := w.called (.handedOut line) (lines.map .line)) rfl
                (Nat.lt_of_succ_lt_succ hpatience)
              exact hrest.after rfl rfl
          | false =>
              rw [Calm.ask_line accept _ hblank]
              have htake := faces_take (w := w.called (.handedOut line) (lines.map .line)) hloses
                accept (Text.trim line) rfl (Calm.ask accept)
              exact htake.after rfl rfl

theorem faces_tell (hloses : ∀ i, s.loses i = false) (line : String) {lines : List String}
    (hscript : w.script = lines.map .line) :
    Faces s w (exec (steady s) (Live.tell line) w) (Calm.tell line)
      (Calm.tell line w.bytes lines) := by
  rw [Live.tell, Calm.tell]
  by_cases hline : Journal.Storable line
  · have hof : exec (steady s) (Attempt.of (Journal.validate line)) w = (.ok (), w) := by
      rw [Attempt.exec_of, Journal.validate_eq_ok_iff.mpr hline]
    rw [exec_bind_ok hof, if_pos hline]
    cases hfails : s.userFails w.calls with
    | true =>
        rw [exec_bind_error (exec_showLine_failed hfails line)]
        refine .unheard [] (.showFailed line) lines hfails rfl rfl ?_ ⟨rfl, rfl, rfl, hscript⟩
        rw [Turnout.after_nil, Calm.tell, if_pos hline]
    | false =>
        rw [exec_bind_ok (exec_showLine_shown hfails line)]
        rcases exec_append_cases (w := w.called (.shown line) w.script) hloses hline with
          hstored | ⟨⟨i, hcrashes⟩, hcrashed⟩
        · rw [hstored]
          exact .calm ⟨rfl, rfl, rfl, hscript⟩
        · rw [hcrashed]
          exact .crashed [.shown line] hcrashes rfl rfl ⟨rfl, rfl, rfl, hscript⟩
  · have hof : exec (steady s) (Attempt.of (Journal.validate line)) w
        = (.error (.invalidEntry line), w) := by
      rw [Attempt.exec_of, Journal.validate, if_neg hline]
    rw [exec_bind_error hof, if_neg hline]
    exact .calm ⟨rfl, rfl, rfl, hscript⟩

theorem cut_lasting (hs : s.Lasting) {p : Attempt ρ} (hp : p.GivesUp) (w : Simulation) :
    (exec (device s) p w).1 = (exec (steady s) p w).1 ∧
      Alike (exec (device s) p w).2 (exec (steady s) p w).2 := by
  have hcut := cut_exec hp s (Alike.refl w)
  cases hcut with
  | whole hresult hsame => exact ⟨hresult, hsame⟩
  | short i hi =>
      rw [hs.loadFails i] at hi
      cases hi

end Simulation

end DurableCalc
