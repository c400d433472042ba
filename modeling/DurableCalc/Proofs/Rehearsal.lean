import DurableCalc.Proofs.Drawless
import Mathlib.Data.List.Forall2

universe u

namespace DurableCalc

inductive Remark where
  | heard (line : String)
  | told (line : String)
  | drew (line : String)
  deriving DecidableEq, Repr

namespace Remark

def text : Remark → String
  | .heard line | .told line | .drew line => line

def heard? : Remark → Option String
  | .heard line => some line
  | _ => none

def value? : Remark → Option Int64
  | .drew line => Numeral.read? line
  | _ => none

inductive Records : Remark → Remark → Prop where
  | heard (line : String) : Records (.heard line) (.heard line)
  | told (line : String) : Records (.told line) (.told line)
  | drew {line : String} {value : Int64} : Numeral.read? line = some value →
      Records (.drew line) (.drew value.decimal)

theorem Records.exists_value {line line' : String} (h : Records (.drew line) (.drew line')) :
    ∃ value : Int64, Numeral.read? line = some value ∧ line' = value.decimal := by
  cases h with
  | drew hread => exact ⟨_, hread, rfl⟩

end Remark

def heardLines (rs : List Remark) : List String :=
  rs.filterMap Remark.heard?

def firstValue (rs : List Remark) : Option Int64 :=
  rs.findSome? Remark.value?

def outset (rs : List Remark) (x : Int64) : Int64 :=
  (firstValue rs).getD x

namespace Dialogue

variable {α β : Type}

def remarks : Dialogue α → List String → List Remark
  | _, [] => []
  | .done _, _ => []
  | .call (.ask accept) next, e :: es =>
      match accept e with
      | .ok a => .heard e :: remarks (next a) es
      | .error _ => []
  | .call (.tell _) next, e :: es => .told e :: remarks (next ()) es
  | .call (.draw _) next, e :: es =>
      .drew e ::
        match Numeral.read? e with
        | some value => remarks (next value) es
        | none => []
  | .call (.stop _) _, _ => []

def rehearse : Dialogue α → List String → Int64 → List Remark
  | .done _, _, _ => []
  | .call (.ask _) _, [], _ => []
  | .call (.ask accept) next, line :: lines, x =>
      match accept line with
      | .ok a => .heard line :: rehearse (next a) lines x
      | .error _ => []
  | .call (.tell line) next, lines, x => .told line :: rehearse (next ()) lines x
  | .call (.draw _) next, lines, x => .drew x.decimal :: rehearse (next x) lines (Generator.next x)
  | .call (.stop _) _, _, _ => []

def retell (d : Dialogue α) (trace : List String) (x : Int64) : List Remark :=
  d.rehearse (heardLines (d.remarks trace)) (outset (d.remarks trace) x)

def Chained : Option Int64 → Dialogue α → Prop
  | _, .done _ => True
  | last, .call (.ask _) next => ∀ a, Chained last (next a)
  | last, .call (.tell _) next => Chained last (next ())
  | last, .call (.draw previous) next => previous = last ∧ ∀ value, Chained (some value) (next value)
  | _, .call (.stop _) _ => True

theorem Drawless.chained {d : Dialogue α} (h : Drawless d) (last : Option Int64) :
    Chained last d := by
  induction d with
  | done a => trivial
  | call c next ih =>
      cases c with
      | ask accept => exact fun a => ih a (h a)
      | tell line => exact ih () h
      | draw previous => cases h
      | stop e => trivial

end Dialogue

open Dialogue (Chained)

theorem Command.chained_draws {β : Type} (n : Nat) (last : Option Int64) (b : β) :
    Chained last (draws n last >>= fun _ => pure b) := by
  induction n generalizing last with
  | zero => trivial
  | succ n ih => exact ⟨rfl, fun value => ih (some value)⟩

section

-- a name that is a variable is of no command, however far it is unfolded
attribute [local irreducible] Command.ofName

theorem Session.chained_named (patience : Nat) (name : String) :
    Chained none (named patience name) := by
  by_cases hname : Command.ofName name = .rand
  · unfold named
    rw [hname]
    exact fun n => Command.chained_draws (Command.count n) none false
  · exact (drawless_named hname patience).chained none

theorem Session.chained_turn (patience : Nat) : Chained none (turn patience) :=
  chained_named patience

end

namespace Dialogue

variable {α : Type}

structure Abreast (last : Option Int64) (x : Int64) (rs : List Remark) : Prop where
  next : ∀ value, last = some value → x = Generator.next value
  first : last = none → ∀ value, firstValue rs = some value → x = value

theorem abreast_outset (rs : List Remark) (x : Int64) :
    Abreast none (outset rs x) rs := by
  constructor
  · exact nofun
  · intro _ value hvalue
    rw [outset, hvalue]
    rfl

theorem abreast_drawn (value : Int64) (rs : List Remark) :
    Abreast (some value) (Generator.next value) rs := by
  constructor
  · intro value' h
    rw [Option.some.inj h]
  · intro h
    cases h

theorem Abreast.tail {last : Option Int64} {x : Int64} {r : Remark} {rs : List Remark}
    (h : Abreast last x (r :: rs)) (hr : r.value? = none) : Abreast last x rs := by
  constructor
  · exact h.next
  · intro hlast value hvalue
    apply h.first hlast
    rw [firstValue, List.findSome?_cons, hr]
    exact hvalue

section

variable {accept : String → Except Error β} {next : β → Dialogue α} {e : String} {a : β}

theorem remarks_ask (h : accept e = .ok a) (es : List String) :
    remarks (.call (.ask accept) next) (e :: es) = .heard e :: remarks (next a) es := by
  rw [remarks, h]

theorem rehearse_ask (h : accept e = .ok a) (lines : List String) (x : Int64) :
    rehearse (.call (.ask accept) next) (e :: lines) x = .heard e :: rehearse (next a) lines x := by
  rw [rehearse, h]

end

theorem remarks_draw {previous : Option Int64} {next : Int64 → Dialogue α} {e : String}
    {value : Int64} (h : Numeral.read? e = some value) (es : List String) :
    remarks (.call (.draw previous) next) (e :: es) = .drew e :: remarks (next value) es := by
  rw [remarks, h]

theorem Abreast.eq_value {last : Option Int64} {x : Int64} {e : String} {rs : List Remark}
    (h : Abreast last x (.drew e :: rs)) {value : Int64} (hread : Numeral.read? e = some value)
    (hnext : ∀ y, last = some y → value = Generator.next y) : x = value := by
  cases last with
  | none =>
      apply h.first rfl
      rw [firstValue, List.findSome?_cons, Remark.value?, hread]
  | some y => rw [h.next y rfl, hnext y rfl]

theorem Abreast.mismatch {last : Option Int64} {x : Int64} {e : String} {rs : List Remark}
    (h : Abreast last x (.drew e :: rs)) (hr : ¬ Remark.Records (.drew e) (.drew x.decimal))
    (position : Nat) :
    ∃ expected, (expected = x.decimal ∨ expected = "a generator value") ∧
      Replay.recordedDraw position last e = .error (.replayMismatch position expected e) := by
  rw [Replay.recordedDraw]
  cases hread : Numeral.read? e with
  | none => exact ⟨_, .inr rfl, rfl⟩
  | some value =>
      have hne : value ≠ x := by
        rintro rfl
        exact hr (.drew hread)
      cases last with
      | none =>
          have hsame : x = value := h.eq_value hread nofun
          exact absurd hsame.symm hne
      | some y =>
          obtain rfl := h.next y rfl
          exact ⟨_, .inl rfl, if_neg hne.symm⟩

theorem decimal_inj {x y : Int64} (h : x.decimal = y.decimal) : x = y := by
  have hread : Numeral.read? x.decimal = some y := by
    rw [h]
    exact Numeral.read?_write y
  exact Option.some.inj ((Numeral.read?_write x).symm.trans hread)

theorem rehearse_of_retrace {es : List String} {position : Nat} {drawn : Option (Nat × Int64)}
    {d : Dialogue α} {st : Standing α} {last : Option Int64} {x : Int64} (hd : Chained last d)
    (hx : Abreast last x (d.remarks es)) (hst : d.retrace es position drawn = .ok st) :
    (d.remarks es).map Remark.text = es ∧ ∃ shown y,
      List.Forall₂ Remark.Records (d.remarks es) shown ∧
      d.rehearse (heardLines (d.remarks es)) x = shown ++ st.rest.rehearse [] y := by
  induction es generalizing d position drawn last x with
  | nil =>
      obtain rfl := Except.ok.inj hst
      have hnone : d.remarks [] = [] := by cases d <;> rfl
      rw [hnone]
      exact ⟨rfl, [], x, .nil, rfl⟩
  | cons e es ih =>
      cases d with
      | done a => cases hst
      | call c next =>
          cases c with
          | ask accept =>
              rw [Dialogue.retrace] at hst
              split at hst
              · next a haccept =>
                rw [remarks_ask haccept] at hx ⊢
                obtain ⟨htexts, shown, y, hrecords, hrehearse⟩ := ih (hd a) (hx.tail rfl) hst
                refine ⟨congrArg (e :: ·) htexts, .heard e :: shown, y,
                  .cons (.heard e) hrecords, ?_⟩
                exact (rehearse_ask haccept _ x).trans (congrArg (.heard e :: ·) hrehearse)
              · cases hst
          | tell line =>
              rw [Dialogue.retrace] at hst
              split at hst
              · next hline =>
                subst hline
                have hnext : Chained last (next ()) := hd
                rw [remarks] at hx ⊢
                obtain ⟨htexts, shown, y, hrecords, hrehearse⟩ := ih hnext (hx.tail rfl) hst
                refine ⟨congrArg (e :: ·) htexts, .told e :: shown, y,
                  .cons (.told e) hrecords, ?_⟩
                exact congrArg (.told e :: ·) hrehearse
              · cases hst
          | draw previous =>
              obtain ⟨rfl, hnext⟩ := hd
              rw [Dialogue.retrace] at hst
              split at hst
              · next value hdraw =>
                obtain ⟨hread, hfollows⟩ := Replay.recordedDraw_eq_ok_iff.mp hdraw
                rw [remarks_draw hread] at hx ⊢
                obtain rfl := hx.eq_value hread hfollows
                obtain ⟨htexts, shown, y, hrecords, hrehearse⟩ :=
                  ih (hnext x) (abreast_drawn x _) hst
                refine ⟨congrArg (e :: ·) htexts, .drew x.decimal :: shown, y,
                  .cons (.drew hread) hrecords, ?_⟩
                exact congrArg (.drew x.decimal :: ·) hrehearse
              · cases hst
          | stop error => cases hst

theorem agreement_cases {q q' r : Remark} {qs qs' rs rs' ss ts : List Remark}
    (hrecorded : q :: qs = rs ++ r :: rs') (hrehearsed : q' :: qs' = ss ++ ts)
    (h : List.Forall₂ Remark.Records rs ss) :
    (rs = [] ∧ r = q ∧ ts = q' :: qs') ∨
      ∃ ps ps', rs = q :: ps ∧ q.Records q' ∧ qs = ps ++ r :: rs' ∧ qs' = ps' ++ ts ∧
        List.Forall₂ Remark.Records ps ps' := by
  cases h with
  | nil =>
      obtain ⟨rfl, -⟩ := List.cons.inj hrecorded
      exact .inl ⟨rfl, rfl, hrehearsed.symm⟩
  | cons hq hqs =>
      obtain ⟨rfl, hrest⟩ := List.cons.inj hrecorded
      obtain ⟨rfl, hrest'⟩ := List.cons.inj hrehearsed
      exact .inr ⟨_, _, rfl, hq, hrest, hrest', hqs⟩

inductive Judged {σ : Type u} (r r' : Remark) (position : Nat) : Except Error σ → Prop where
  | recorded {result : Except Error σ} : r.Records r' → Judged r r' position result
  | mismatch {expected : String} : expected = r'.text ∨ expected = "a generator value" →
      Judged r r' position (.error (.replayMismatch position expected r.text))

theorem judged_of_rehearse {es : List String} {position : Nat} {drawn : Option (Nat × Int64)}
    {d : Dialogue α} {last : Option Int64} {x : Int64} (hd : Chained last d)
    (hx : Abreast last x (d.remarks es)) {rs rs' ss ts : List Remark} {r : Remark}
    (hrecorded : d.remarks es = rs ++ r :: rs')
    (hrehearsed : d.rehearse (heardLines (d.remarks es)) x = ss ++ ts)
    (hbefore : List.Forall₂ Remark.Records rs ss) :
    ∃ r' ts', ts = r' :: ts' ∧ Judged r r' (position + rs.length) (d.retrace es position drawn) := by
  induction es generalizing d position drawn last x rs ss with
  | nil => cases d <;> simp [remarks] at hrecorded
  | cons e es ih =>
      have hlater {q : Remark} {ps : List Remark} (hrs : rs = q :: ps) :
          position + rs.length = position + 1 + ps.length := by
        rw [hrs, List.length_cons]
        omega
      cases d with
      | done a => simp [remarks] at hrecorded
      | call c next =>
          cases c with
          | ask accept =>
              rw [Dialogue.retrace]
              cases haccept : accept e with
              | error error => simp [remarks, haccept] at hrecorded
              | ok a =>
                  rw [remarks_ask haccept] at hx hrecorded hrehearsed
                  rcases agreement_cases hrecorded
                    ((rehearse_ask haccept _ x).symm.trans hrehearsed) hbefore with
                    ⟨-, rfl, hts⟩ | ⟨ps, ps', hrs, -, hrest, hrest', hagree⟩
                  · exact ⟨_, _, hts, .recorded (.heard e)⟩
                  · rw [hlater hrs]
                    exact ih (hd a) (hx.tail rfl) hrest hrest' hagree
          | tell line =>
              have hnext : Chained last (next ()) := hd
              rw [remarks] at hx hrecorded hrehearsed
              rw [Dialogue.retrace]
              rcases agreement_cases hrecorded hrehearsed hbefore with
                ⟨rfl, rfl, hts⟩ | ⟨ps, ps', hrs, hsame, hrest, hrest', hagree⟩
              · refine ⟨_, _, hts, ?_⟩
                by_cases hline : e = line
                · subst hline
                  exact .recorded (.told e)
                · rw [if_neg hline]
                  exact .mismatch (.inl rfl)
              · cases hsame
                rw [if_pos rfl, hlater hrs]
                exact ih hnext (hx.tail rfl) hrest hrest' hagree
          | draw previous =>
              obtain ⟨rfl, hnext⟩ := hd
              rw [Dialogue.retrace]
              rw [remarks] at hx hrecorded hrehearsed
              rcases agreement_cases hrecorded hrehearsed hbefore with
                ⟨rfl, rfl, hts⟩ | ⟨ps, ps', hrs, hsame, hrest, hrest', hagree⟩
              · refine ⟨_, _, hts, ?_⟩
                by_cases hr : Remark.Records (.drew e) (.drew x.decimal)
                · exact .recorded hr
                · obtain ⟨expected, hexpected, hdraw⟩ := hx.mismatch hr position
                  rw [hdraw]
                  exact .mismatch hexpected
              · obtain ⟨value, hread, hvalue⟩ := hsame.exists_value
                obtain rfl := decimal_inj hvalue
                rw [Replay.recordedDraw_eq_ok_iff.mpr ⟨hread, hx.next⟩, hlater hrs]
                rw [hread] at hrest hrest'
                exact ih (hnext x) (abreast_drawn x _) hrest hrest' hagree
          | stop error => simp [remarks] at hrecorded

end Dialogue

end DurableCalc
