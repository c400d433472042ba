import DurableCalc.Proofs.Outcome

namespace DurableCalc

inductive Effect where
  | took (line : String)
  | showed (line : String)
  | wrote (bytes : ByteArray)

def Event.effect? : Event → Option Effect
  | .handedOut line => some (.took line)
  | .shown line => some (.showed line)
  | .stored bytes | .crashed bytes => some (.wrote bytes)
  | _ => none

def Event.taken? : Event → Option String
  | .handedOut line => some line
  | _ => none

def effects (events : List Event) : List Effect :=
  events.filterMap Event.effect?

def taken (events : List Event) : List String :=
  events.filterMap Event.taken?

@[simp] theorem effects_append (es fs : List Event) : effects (es ++ fs) = effects es ++ effects fs :=
  List.filterMap_append

@[simp] theorem taken_append (es fs : List Event) : taken (es ++ fs) = taken es ++ taken fs :=
  List.filterMap_append

namespace Session

structure Step where
  effects : List Effect
  result : Option (Except Error Unit)
  bytes : ByteArray
  lines : List String

def step (settings : Settings) (bytes : ByteArray) (lines : List String) : Option Step :=
  match due settings bytes with
  | none => none
  | some (.write _ bytes' last) =>
      some ⟨[.wrote bytes'], if last then some (.ok ()) else none, bytes', lines⟩
  | some (.tell line bytes') => some ⟨[.showed line, .wrote bytes'], none, bytes', lines⟩
  | some (.ask record) =>
      match lines with
      | [] => some ⟨[], some (.error .inputClosed), bytes, []⟩
      | line :: lines =>
          if Text.isBlank line then some ⟨[.took line], none, bytes, lines⟩
          else
            match record (Text.trim line) with
            | .error e => some ⟨[.took line], some (.error e), bytes, lines⟩
            | .ok bytes' => some ⟨[.took line, .wrote bytes'], none, bytes', lines⟩

inductive Smooth (settings : Settings) : ByteArray → List String → List Effect →
    Except Error Unit → ByteArray → List String → Prop where
  | stop {b b' : ByteArray} {ls ls' : List String} {fx : List Effect} {result : Except Error Unit} :
      step settings b ls = some ⟨fx, some result, b', ls'⟩ →
      Smooth settings b ls fx result b' ls'
  | go {b b' b'' : ByteArray} {ls ls' ls'' : List String} {fx gx : List Effect}
      {result : Except Error Unit} :
      step settings b ls = some ⟨fx, none, b', ls'⟩ → Smooth settings b' ls' gx result b'' ls'' →
      Smooth settings b ls (fx ++ gx) result b'' ls''

inductive Leads (settings : Settings) : ByteArray → List String → List Effect → ByteArray → Prop where
  | refl (b : ByteArray) : Leads settings b [] [] b
  | step {b b' b'' : ByteArray} {ls ms : List String} {fx gx : List Effect} :
      (∀ rest, step settings b (ls ++ rest) = some ⟨fx, none, b', rest⟩) →
      Leads settings b' ms gx b'' → Leads settings b (ls ++ ms) (fx ++ gx) b''

variable {settings : Settings}

theorem Smooth.unique {b b₁ b₂ : ByteArray} {ls u₁ u₂ : List String} {fx₁ fx₂ : List Effect}
    {r₁ r₂ : Except Error Unit} (h₁ : Smooth settings b ls fx₁ r₁ b₁ u₁)
    (h₂ : Smooth settings b ls fx₂ r₂ b₂ u₂) : fx₁ = fx₂ ∧ r₁ = r₂ ∧ b₁ = b₂ ∧ u₁ = u₂ := by
  induction h₁ generalizing fx₂ with
  | stop hstep =>
      cases h₂ with
      | stop hstep' =>
          obtain ⟨rfl, hr, rfl, rfl⟩ := Step.mk.inj (Option.some.inj (hstep.symm.trans hstep'))
          exact ⟨rfl, Option.some.inj hr, rfl, rfl⟩
      | go hstep' hrest =>
          obtain ⟨-, hr, -⟩ := Step.mk.inj (Option.some.inj (hstep.symm.trans hstep'))
          cases hr
  | go hstep hrest ih =>
      cases h₂ with
      | stop hstep' =>
          obtain ⟨-, hr, -⟩ := Step.mk.inj (Option.some.inj (hstep.symm.trans hstep'))
          cases hr
      | go hstep' hrest' =>
          obtain ⟨rfl, -, rfl, rfl⟩ := Step.mk.inj (Option.some.inj (hstep.symm.trans hstep'))
          obtain ⟨rfl, hrest⟩ := ih hrest'
          exact ⟨rfl, hrest⟩

theorem Leads.smooth {b b' b'' : ByteArray} {ls rest u : List String} {fx gx : List Effect}
    {r : Except Error Unit} (h : Leads settings b ls fx b') (hrest : Smooth settings b' rest gx r b'' u) :
    Smooth settings b (ls ++ rest) (fx ++ gx) r b'' u := by
  induction h with
  | refl b => exact hrest
  | step hstep _ ih =>
      rw [List.append_assoc, List.append_assoc]
      exact .go (hstep _) (ih hrest)

theorem Leads.trans {b b' b'' : ByteArray} {ls ms : List String} {fx gx : List Effect}
    (h : Leads settings b ls fx b') (h' : Leads settings b' ms gx b'') :
    Leads settings b (ls ++ ms) (fx ++ gx) b'' := by
  induction h with
  | refl b => exact h'
  | step hstep _ ih =>
      rw [List.append_assoc, List.append_assoc]
      exact .step hstep (ih h')

theorem Leads.of_step {b b' : ByteArray} {ls : List String} {fx : List Effect}
    (h : ∀ rest, Session.step settings b (ls ++ rest) = some ⟨fx, none, b', rest⟩) :
    Leads settings b ls fx b' := by
  have := Leads.step h (.refl b')
  rwa [List.append_nil, List.append_nil] at this

theorem Reaches.step {b b' : ByteArray} {u u' : List Utterance} {es : List Event}
    {operation : Operation} {last : Bool} (h : Reaches settings b u es operation b' last u')
    (rest : List String) :
    step settings b (taken es ++ rest)
      = some ⟨effects es ++ [.wrote b'], if last then some (.ok ()) else none, b', rest⟩ := by
  cases h with
  | write hdue => simp only [Session.step, hdue]; rfl
  | tell hdue => simp only [Session.step, hdue]; rfl
  | ask hdue hblank hrecord =>
      simp only [Session.step, hdue, taken, List.filterMap_cons, List.filterMap_nil, Event.taken?,
        List.cons_append, List.nil_append, hblank, hrecord]
      rfl

theorem Reaches.script {b b' : ByteArray} {u u' : List Utterance} {es : List Event}
    {operation : Operation} {last : Bool} (h : Reaches settings b u es operation b' last u') :
    u = (taken es).map .line ++ u' := by
  cases h <;> rfl

end Session

end DurableCalc
