import DurableCalc.Proofs.Ending

namespace DurableCalc

def Event.step? : Event → Option String
  | .handedOut line => if Text.isBlank line then none else some (Text.trim line)
  | .shown line => some line
  | _ => none

theorem append_cons_eq_append_cons {α : Type} {xs ys before after : List α} {x e : α}
    (h : xs ++ x :: ys = before ++ e :: after) :
    (∃ zs, xs = before ++ e :: zs) ∨ (before = xs ∧ e = x) ∨
      ∃ zs, before = xs ++ x :: zs ∧ ys = zs ++ e :: after := by
  rcases List.append_eq_append_iff.mp h with ⟨zs, hbefore, hrest⟩ | ⟨zs, hxs, hrest⟩
  · rcases List.cons_eq_append_iff.mp hrest with ⟨rfl, hcons⟩ | ⟨zs', rfl, hys⟩
    · obtain ⟨rfl, -⟩ := List.cons.inj hcons
      simp [hbefore]
    · exact .inr (.inr ⟨zs', hbefore, hys⟩)
  · cases zs with
    | nil =>
        obtain ⟨rfl, -⟩ := List.cons.inj hrest
        simp [hxs]
    | cons z zs =>
        obtain ⟨rfl, -⟩ := List.cons.inj hrest
        exact .inl ⟨zs, hxs⟩

end DurableCalc

namespace DurableCalc.Session

variable {settings : Settings}

inductive Trail (settings : Settings) : ByteArray → List Event → ByteArray → Prop where
  | nil (b : ByteArray) : Trail settings b [] b
  | landed {b b' b'' : ByteArray} {u u' : List Utterance} {es fs : List Event} {e : Event}
      {operation : Operation} {last : Bool} :
      Reaches settings b u es operation b' last u' → e.landed? = some b' →
      Trail settings b' fs b'' → Trail settings b (es ++ e :: fs) b''
  | blank {b b' : ByteArray} {fs : List Event} {record : String → Except Error ByteArray}
      {line : String} :
      due settings b = some (.ask record) → Text.isBlank line = true →
      Trail settings b fs b' → Trail settings b (.handedOut line :: fs) b'

theorem Trail.single {b b' : ByteArray} {u u' : List Utterance} {es : List Event} {e : Event}
    {operation : Operation} {last : Bool} (h : Reaches settings b u es operation b' last u')
    (he : e.landed? = some b') : Trail settings b (es ++ [e]) b' :=
  .landed h he (.nil b')

theorem Trail.held_eq {b b' : ByteArray} {es : List Event} (h : Trail settings b es b') :
    held b es = b' := by
  induction h with
  | nil b => rfl
  | @landed b b' b'' u u' es fs e operation last hreaches he htrail ih =>
      have hquiet : held b es = b := (hreaches.quiet e).1
      rw [held_append, hquiet, held, he]
      exact ih
  | blank hdue hblank htrail ih => exact ih

theorem Trail.sound {b b' : ByteArray} {es : List Event} (h : Trail settings b es b')
    (hsound : Sound b) : Sound b' := by
  induction h with
  | nil b => exact hsound
  | landed hreaches he htrail ih => exact ih (hreaches.sound hsound)
  | blank hdue hblank htrail ih => exact ih hsound

inductive Calls (settings : Settings) (b : ByteArray) : Event → Prop where
  | shown {line : String} {bytes : ByteArray} :
      due settings b = some (.tell line bytes) → Calls settings b (.shown line)
  | showFailed {line : String} {bytes : ByteArray} :
      due settings b = some (.tell line bytes) → Calls settings b (.showFailed line)
  | handedOut {record : String → Except Error ByteArray} (line : String) :
      due settings b = some (.ask record) → Calls settings b (.handedOut line)
  | readFailed {record : String → Except Error ByteArray} :
      due settings b = some (.ask record) → Calls settings b .readFailed
  | ended {record : String → Except Error ByteArray} :
      due settings b = some (.ask record) → Calls settings b .ended

theorem Reaches.calls {b b' : ByteArray} {u u' : List Utterance} {es : List Event}
    {operation : Operation} {last : Bool} (h : Reaches settings b u es operation b' last u') :
    es = [] ∨ ∃ e, es = [e] ∧ Calls settings b e := by
  cases h with
  | write hdue => exact .inl rfl
  | tell hdue => exact .inr ⟨_, rfl, .shown hdue⟩
  | ask hdue hblank hrecord => exact .inr ⟨_, rfl, .handedOut _ hdue⟩

def CalledAfter (settings : Settings) (b : ByteArray) (before : List Event) (e : Event) : Prop :=
  ∃ b₁, Trail settings b before b₁ ∧ Calls settings b₁ e

theorem Reaches.calledAfter {b b' : ByteArray} {u u' : List Utterance} {es : List Event}
    {operation : Operation} {last : Bool} (h : Reaches settings b u es operation b' last u')
    {before after : List Event} {e : Event} (hes : es = before ++ e :: after) :
    CalledAfter settings b before e := by
  rcases h.calls with rfl | ⟨e', rfl, hcalls⟩
  · simp at hes
  · rcases List.singleton_eq_append_iff.mp hes with ⟨rfl, hone⟩ | ⟨-, hnone⟩
    · obtain ⟨rfl, -⟩ := List.cons.inj hone
      exact ⟨b, .nil b, hcalls⟩
    · cases hnone

theorem CalledAfter.landed {b b' : ByteArray} {u u' : List Utterance} {es fs : List Event}
    {e e' : Event} {operation : Operation} {last : Bool}
    (hreaches : Reaches settings b u es operation b' last u') (he : e.landed? = some b')
    (h : CalledAfter settings b' fs e') : CalledAfter settings b (es ++ e :: fs) e' := by
  obtain ⟨b₁, htrail, hcalls⟩ := h
  exact ⟨b₁, .landed hreaches he htrail, hcalls⟩

theorem Halt.calledAfter {b b' : ByteArray} {u u' : List Utterance} {es : List Event}
    {result : Except Error Unit} (h : Halt settings b u es result b' u')
    {before after : List Event} {e : Event} (hes : es = before ++ e :: after)
    (he : e.isOfStorage = false) : CalledAfter settings b before e := by
  -- the last event of these is a write, so that `e` is one of those on the way to it
  have hwrite {fs : List Event} {x : Event} {b₁ : ByteArray} {u₁ : List Utterance}
      {operation : Operation} {last : Bool} (hreaches : Reaches settings b u fs operation b₁ last u₁)
      (hx : x.isOfStorage = true) (hsplit : fs ++ [x] = before ++ e :: after) :
      CalledAfter settings b before e := by
    rcases append_cons_eq_append_cons hsplit with ⟨zs, hfs⟩ | ⟨-, rfl⟩ | ⟨zs, -, hnil⟩
    · exact hreaches.calledAfter hfs
    · rw [hx] at he
      cases he
    · simp at hnil
  have hcall {x : Event} (hsplit : [x] = before ++ e :: after) (hcalls : Calls settings b x) :
      CalledAfter settings b before e := by
    have hfirst : [] ++ x :: [] = before ++ e :: after := hsplit
    rcases append_cons_eq_append_cons hfirst with ⟨zs, hnil⟩ | ⟨rfl, rfl⟩ | ⟨zs, -, hnil⟩
    · simp at hnil
    · exact ⟨b, .nil b, hcalls⟩
    · simp at hnil
  cases h with
  | left hreaches => exact hwrite hreaches rfl hes
  | lost hreaches => exact hwrite hreaches rfl hes
  | crashed hreaches => exact hwrite hreaches rfl hes
  | refused hdue => exact hcall hes (.handedOut _ hdue)
  | closed hdue => exact hcall hes (.ended hdue)
  | unheard hdue => exact hcall hes (.readFailed hdue)
  | broken hdue => exact hcall hes (.readFailed hdue)
  | unshown hdue => exact hcall hes (.showFailed hdue)

theorem Course.calledAfter {b b' : ByteArray} {u u' : List Utterance} {es : List Event}
    {result : Except Error Unit} (h : Course settings b u es result b' u')
    {before after : List Event} {e : Event} (hes : es = before ++ e :: after)
    (he : e.isOfStorage = false) : CalledAfter settings b before e := by
  induction h generalizing before with
  | stored hreaches hcourse ih =>
      rcases append_cons_eq_append_cons hes with ⟨zs, hway⟩ | ⟨-, rfl⟩ | ⟨zs, rfl, hrest⟩
      · exact hreaches.calledAfter hway
      · cases he
      · exact (ih hrest).landed hreaches rfl
  | @blank b b' u u' fs result record line hdue hblank hcourse ih =>
      have hfirst : [] ++ .handedOut line :: fs = before ++ e :: after := hes
      rcases append_cons_eq_append_cons hfirst with ⟨zs, hnil⟩ | ⟨rfl, rfl⟩ | ⟨zs, rfl, hrest⟩
      · simp at hnil
      · exact ⟨_, .nil _, .handedOut _ hdue⟩
      · obtain ⟨b₁, htrail, hcalls⟩ := ih hrest
        exact ⟨b₁, .blank hdue hblank htrail, hcalls⟩
  | halt hhalt => exact hhalt.calledAfter hes he

structure Idle (es : List Event) : Prop where
  landed : ∀ e ∈ es, e.landed? = none
  entries : (es.filterMap Event.step?).length ≤ 1

theorem Idle.mono {es fs : List Event} (h : Idle fs) (hes : es <+: fs) : Idle es where
  landed e he := h.landed e (hes.subset he)
  entries := Nat.le_trans (hes.filterMap Event.step?).length_le h.entries

theorem Idle.nil : Idle [] :=
  ⟨nofun, Nat.zero_le 1⟩

theorem Idle.single {e : Event} (h : e.landed? = none) : Idle [e] where
  landed _ he := List.mem_singleton.mp he ▸ h
  entries := List.length_filterMap_le Event.step? [e]

theorem Idle.append_lost {es : List Event} (h : Idle es) (bytes : ByteArray) :
    Idle (es ++ [.lost bytes]) where
  landed e he := by
    rcases List.mem_append.mp he with he | he
    · exact h.landed e he
    · rw [List.mem_singleton.mp he]
      rfl
  entries := by
    have hlost : [Event.lost bytes].filterMap Event.step? = [] := rfl
    rw [List.filterMap_append, hlost, List.append_nil]
    exact h.entries

theorem Reaches.idle {b b' : ByteArray} {u u' : List Utterance} {es : List Event}
    {operation : Operation} {last : Bool} (h : Reaches settings b u es operation b' last u') :
    Idle es := by
  cases h with
  | write => exact .nil
  | tell => exact .single rfl
  | ask => exact .single rfl

def TrailBegun (settings : Settings) (b : ByteArray) (es : List Event) : Prop :=
  ∃ before rest b₁, es = before ++ rest ∧ Trail settings b before b₁ ∧ Idle rest

theorem TrailBegun.of_idle {es : List Event} (h : Idle es) (b : ByteArray) :
    TrailBegun settings b es :=
  ⟨[], es, b, rfl, .nil b, h⟩

theorem TrailBegun.landed {b b' : ByteArray} {u u' : List Utterance} {es fs : List Event}
    {e : Event} {operation : Operation} {last : Bool}
    (hreaches : Reaches settings b u es operation b' last u') (he : e.landed? = some b')
    (h : TrailBegun settings b' fs) : TrailBegun settings b (es ++ e :: fs) := by
  obtain ⟨before, rest, b₁, rfl, htrail, hidle⟩ := h
  exact ⟨es ++ e :: before, rest, b₁, by simp, .landed hreaches he htrail, hidle⟩

theorem Reaches.trailBegun {b b' : ByteArray} {u u' : List Utterance} {es fs p : List Event}
    {e : Event} {operation : Operation} {last : Bool}
    (hreaches : Reaches settings b u es operation b' last u') (he : e.landed? = some b')
    (hp : p <+: es ++ e :: fs) (hrest : ∀ q, q <+: fs → TrailBegun settings b' q) :
    TrailBegun settings b p := by
  obtain ⟨rest, hsplit⟩ := hp
  rcases List.append_eq_append_iff.mp hsplit with ⟨way, hway, -⟩ | ⟨q, rfl, hq⟩
  · exact .of_idle (hreaches.idle.mono ⟨way, hway.symm⟩) b
  · cases q with
    | nil =>
        rw [List.append_nil]
        exact .of_idle hreaches.idle b
    | cons e' q =>
        obtain ⟨rfl, hfs⟩ := List.cons.inj hq
        exact (hrest q ⟨rest, hfs.symm⟩).landed hreaches he

theorem Halt.trailBegun {b b' : ByteArray} {u u' : List Utterance} {es p : List Event}
    {result : Except Error Unit} (h : Halt settings b u es result b' u') (hp : p <+: es) :
    TrailBegun settings b p := by
  have hend (b₁ : ByteArray) (q : List Event) (hq : q <+: []) : TrailBegun settings b₁ q := by
    obtain rfl := List.prefix_nil.mp hq
    exact .of_idle .nil b₁
  cases h with
  | left hreaches => exact hreaches.trailBegun rfl hp (hend _)
  | crashed hreaches => exact hreaches.trailBegun rfl hp (hend _)
  | lost hreaches => exact .of_idle ((hreaches.idle.append_lost _).mono hp) b
  | refused | closed | unheard | broken | unshown =>
      exact .of_idle (Idle.mono (.single rfl) hp) b

theorem Course.trailBegun {b b' : ByteArray} {u u' : List Utterance} {es p : List Event}
    {result : Except Error Unit} (h : Course settings b u es result b' u') (hp : p <+: es) :
    TrailBegun settings b p := by
  induction h generalizing p with
  | stored hreaches hcourse ih => exact hreaches.trailBegun rfl hp fun q hq => ih hq
  | @blank b b' u u' fs result record line hdue hblank hcourse ih =>
      cases p with
      | nil => exact .of_idle .nil b
      | cons e p =>
          obtain ⟨rfl, hq⟩ := List.cons_prefix_cons.mp hp
          obtain ⟨before, rest, b₁, rfl, htrail, hidle⟩ := ih hq
          exact ⟨_ :: before, rest, b₁, rfl, .blank hdue hblank htrail, hidle⟩
  | halt hhalt => exact hhalt.trailBegun hp

end DurableCalc.Session
