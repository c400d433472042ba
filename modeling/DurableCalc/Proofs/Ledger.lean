import DurableCalc.Journal.Request
import DurableCalc.Proofs.Execution

namespace DurableCalc

theorem inTurn_map {ρ σ τ α : Type} {serve : ρ → σ → α × σ} {serve' : ρ → τ → α × τ} {f : τ → σ}
    {P : τ → Prop} (hstep : ∀ q t, P t →
      serve q (f t) = Prod.map id f (serve' q t) ∧ P (serve' q t).2)
    (qs : List ρ) {t : τ} (ht : P t) :
    inTurn serve qs (f t) = (inTurn serve' qs t).map (Prod.map id f) ∧
      ∀ x ∈ inTurn serve' qs t, P x.2 := by
  induction qs generalizing t with
  | nil => exact ⟨rfl, List.forall_mem_nil _⟩
  | cons q qs ih =>
      obtain ⟨heq, hP⟩ := hstep q t ht
      obtain ⟨hrest, hall⟩ := ih hP
      have hleft : (serve q (f t)).2 = f (serve' q t).2 := by rw [heq]; rfl
      constructor
      · rw [inTurn, inTurn, List.map_cons, hleft, hrest, heq]
      · exact List.forall_mem_cons.mpr ⟨hP, hall⟩

namespace Simulation

open Attempt (exec)

variable {α β : Type} (s : Schedule)

def yield (p : Attempt α) (w : Simulation) : Except Error α × ByteArray :=
  ((exec (device s) p w).1, (exec (device s) p w).2.bytes)

def loaded (w : Simulation) : Simulation :=
  { w with loads := w.loads + 1 }

theorem yield_load_bind (k : ByteArray → Attempt β) (w : Simulation) :
    yield s (Attempt.load >>= k) w
      = if s.loadFails w.loads then (.error (.storage .reading .induced), w.bytes)
        else yield s (k w.bytes) w.loaded := by
  rw [yield, Attempt.exec_bind, Attempt.exec_load, device]
  simp only [Device.handler, storage, load]
  by_cases h : s.loadFails w.loads = true
  · simp only [if_pos h]
    rfl
  · simp only [if_neg h]
    rfl

end Simulation

namespace Journal.Request

open Simulation (yield yield_load_bind loaded)

variable {s : Schedule} {w : Simulation} {es : List String} {p : Attempt Answer} {n : Nat}
  {i : Intent}

theorem isEmpty_render (h : ∀ e ∈ es, Storable e) : (render es).isEmpty = es.isEmpty := by
  cases es with
  | nil => rfl
  | cons e es =>
      have hsize := length_le_size_of_parse (parse_render h)
      rw [List.length_cons] at hsize
      rw [ByteArray.isEmpty, List.isEmpty_cons, Bool.eq_false_iff, ne_eq, beq_iff_eq]
      omega

def Fulfils (s : Schedule) (w : Simulation) (es : List String) (p : Attempt Answer) (n : Nat)
    (i : Intent) : Prop :=
  w.bytes = render es → w.writes = 0 →
    yield s p w = Prod.map id render (carryOut s w.loads n es i)

theorem fulfils_answer (a : Answer) : Fulfils s w es (pure a) 0 (.answer a) := by
  intro hw hwrites
  exact congrArg (Prod.mk (Except.ok a)) hw

theorem fulfils_refusal (e : Error) : Fulfils s w es (throw e) 0 (.refusal e) := by
  intro hw hwrites
  exact congrArg (Prod.mk (Except.error e)) hw

theorem fulfils_change (operation : Operation) (es' : List String) :
    Fulfils s w es ((fun _ => .done) <$> Attempt.store operation (render es')) 0
      (.change operation es') := by
  intro hw hwrites
  rw [yield, ← bind_pure_comp, Attempt.exec_bind, Attempt.exec_store]
  simp only [Simulation.device, Device.handler, Simulation.storage, Simulation.store, hwrites,
    carryOut, commit]
  by_cases hloses : s.loses 0 = true
  · simp [hloses, hw, Attempt.blame, Simulation.note]
  · by_cases hcrashes : s.crashes 0 = true
    · simp [hloses, hcrashes, Attempt.blame, Simulation.note]
    · simp [hloses, hcrashes, Attempt.blame, Simulation.note]

theorem Fulfils.load_bind {k : ByteArray → Attempt Answer}
    (h : Fulfils s w.loaded es (k (render es)) n i) :
    Fulfils s w es (Attempt.load >>= k) (n + 1) i := by
  intro hw hwrites
  have hrest := h hw hwrites
  rw [yield_load_bind, hw, hrest]
  unfold carryOut
  rw [List.range'_succ, List.any_cons]
  by_cases hfails : s.loadFails w.loads = true
  · rw [if_pos hfails, hfails, Bool.true_or, if_pos rfl]
    rfl
  · rw [if_neg hfails, Bool.eq_false_iff.mpr hfails, Bool.false_or]
    rfl

theorem Fulfils.entries_bind (hes : ∀ e ∈ es, Storable e) {k : List String → Attempt Answer}
    (h : Fulfils s w.loaded es (k es) n i) :
    Fulfils s w es (Journal.entries >>= k) (n + 1) i := by
  rw [Journal.entries, bind_assoc]
  apply Fulfils.load_bind
  rw [parse_render hes]
  exact h

theorem fulfils_append {entry : String} (h : Storable entry) :
    Fulfils s w es (append entry).attempt 1 (.change .appending (es ++ [entry])) := by
  have hchange : Fulfils s w.loaded es _ 0 _ := fulfils_change .appending (es ++ [entry])
  rw [← extended_render] at hchange
  have hvalid : Attempt.of (validate entry) = pure () := by rw [validate_eq_ok_iff.mpr h]; rfl
  rw [attempt, Journal.append, hvalid, pure_bind, map_bind]
  exact Fulfils.load_bind hchange

theorem fulfils_append_refused {entry : String} (h : ¬ Storable entry) :
    Fulfils s w es (append entry).attempt 0 (.refusal (.invalidEntry entry)) := by
  have hinvalid : Attempt.of (validate entry) = throw (.invalidEntry entry) := by
    rw [validate, if_neg h]
    rfl
  rw [attempt, Journal.append, hinvalid]
  exact fulfils_refusal _

theorem fulfils_ensureSeed_nil (standard : Int64) :
    Fulfils s w [] (ensureSeed standard).attempt 2 (.change .appending [standard.decimal]) := by
  rw [attempt, Journal.ensureSeed, map_bind]
  apply Fulfils.load_bind
  exact fulfils_append (Numeral.storable_decimal standard)

theorem fulfils_ensureSeed_cons {e : String} (hes : ∀ e' ∈ e :: es, Storable e')
    (standard : Int64) : Fulfils s w (e :: es) (ensureSeed standard).attempt 1 (.answer .done) := by
  rw [attempt, Journal.ensureSeed, map_bind]
  apply Fulfils.load_bind
  rw [isEmpty_render hes]
  exact fulfils_answer .done

theorem fulfils_parseSeed_bind {k : Int64 → Attempt Answer} {f : Int64 → Intent}
    (h : ∀ value, Fulfils s w es (k value) 0 (f value)) :
    Fulfils s w es (Attempt.of (parseSeed es.head?) >>= k) 0
      (match parseSeed es.head? with
        | .ok value => f value
        | .error e => .refusal e) := by
  cases parseSeed es.head? with
  | ok value => exact h value
  | error e => exact fulfils_refusal e

theorem fulfils (q : Request) (hes : ∀ e ∈ es, Storable e) :
    Fulfils s w es q.attempt (q.loads es) (q.intent es) := by
  cases q with
  | ensureSeed standard =>
      cases es with
      | nil => exact fulfils_ensureSeed_nil standard
      | cons e es => exact fulfils_ensureSeed_cons hes standard
  | entries =>
      have hbind : Request.entries.attempt = Journal.entries >>= fun es => pure (.entries es) :=
        (bind_pure_comp _ _).symm
      rw [hbind]
      exact Fulfils.entries_bind hes (fulfils_answer (.entries es))
  | seed =>
      rw [attempt, Journal.seed, map_bind]
      apply Fulfils.entries_bind hes
      rw [← bind_pure_comp]
      exact fulfils_parseSeed_bind fun value => fulfils_answer (.seed value)
  | append entry =>
      rw [loads, intent]
      by_cases hentry : Storable entry
      · rw [if_pos hentry, if_pos hentry]
        exact fulfils_append hentry
      · rw [if_neg hentry, if_neg hentry]
        exact fulfils_append_refused hentry
  | replaceSeed value =>
      rw [attempt, Journal.replaceSeed, map_bind]
      apply Fulfils.entries_bind hes
      cases es with
      | nil => exact fulfils_refusal _
      | cons e es => exact fulfils_change .replacingSeed (value.decimal :: es)
  | compact =>
      rw [attempt, Journal.compact, map_bind]
      apply Fulfils.entries_bind hes
      rw [map_bind]
      exact fulfils_parseSeed_bind fun value => fulfils_change .compacting [value.decimal]
  | clear => exact fulfils_change .clearing []

theorem onBytes_render (q : Request × Schedule) (hes : ∀ e ∈ es, Storable e) :
    onBytes q (render es) = Prod.map id render (onEntries q es) :=
  fulfils q.1 hes rfl rfl

theorem commit_cases {τ : Type} (s : Schedule) (operation : Operation) (old new : τ) :
    (commit s operation old new).2 = old ∨ (commit s operation old new).2 = new := by
  unfold commit
  split
  · exact .inl rfl
  · split
    · exact .inr rfl
    · exact .inr rfl

theorem storable_change {q : Request} {operation : Operation} {es' : List String}
    (hes : ∀ e ∈ es, Storable e) (h : q.intent es = .change operation es') :
    ∀ e ∈ es', Storable e := by
  cases q with
  | ensureSeed standard =>
      cases es with
      | nil =>
          cases h
          exact List.forall_mem_singleton.mpr (Numeral.storable_decimal standard)
      | cons e es => cases h
  | entries => cases h
  | seed =>
      rw [intent] at h
      split at h <;> cases h
  | append entry =>
      rw [intent] at h
      split at h
      · next hentry =>
        cases h
        exact List.forall_mem_append.mpr ⟨hes, List.forall_mem_singleton.mpr hentry⟩
      · cases h
  | replaceSeed value =>
      cases es with
      | nil => cases h
      | cons e es =>
          cases h
          exact List.forall_mem_cons.mpr
            ⟨Numeral.storable_decimal value, fun e' he' => hes e' (List.mem_cons_of_mem e he')⟩
  | compact =>
      rw [intent] at h
      split at h
      · next value hvalue =>
        cases h
        exact List.forall_mem_singleton.mpr (Numeral.storable_decimal value)
      · cases h
  | clear =>
      cases h
      exact List.forall_mem_nil _

theorem storable_onEntries (q : Request × Schedule) (hes : ∀ e ∈ es, Storable e) :
    ∀ e ∈ (onEntries q es).2, Storable e := by
  unfold onEntries carryOut
  split
  · exact hes
  · split
    · exact hes
    · exact hes
    · next operation es' hintent =>
      rcases commit_cases q.2 operation es es' with h | h
      · rwa [h]
      · rw [h]
        exact storable_change hes hintent

/-- Requests made of a journal of valid entries, each with faults of its own, come to what they come
to for the list of entries, and the bytes after each of them are the rendering of that list. A
journal in which nothing is stored is the empty list. -/
theorem inTurn_render {es : List String} (hes : ∀ e ∈ es, Storable e)
    (qs : List (Request × Schedule)) :
    inTurn onBytes qs (render es) = (inTurn onEntries qs es).map (Prod.map id render) ∧
      ∀ x ∈ inTurn onEntries qs es, ∀ e ∈ x.2, Storable e :=
  inTurn_map (fun q _ h => ⟨onBytes_render q h, storable_onEntries q h⟩) qs hes

theorem inTurn_render_faults :
    let crash : Schedule := ⟨fun _ => false, fun _ => false, (· == 0), fun _ => false⟩
    let lost : Schedule := ⟨fun _ => false, (· == 0), fun _ => false, fun _ => false⟩
    let unread : Schedule := ⟨fun _ => false, fun _ => false, fun _ => false, (· == 1)⟩
    let qs : List (Request × Schedule) :=
      [(.ensureSeed 7, unread), (.ensureSeed 7, crash), (.append "add", .faultless),
        (.append " ", .faultless), (.replaceSeed 8, lost), (.replaceSeed 8, crash),
        (.entries, .faultless), (.compact, .faultless)]
    (∀ e ∈ ([] : List String), Storable e) ∧
      inTurn onBytes qs ByteArray.empty
        = [(.error (.storage .reading .induced), render []),
          (.error (.storage .appending .induced), render ["7"]),
          (.ok .done, render ["7", "add"]),
          (.error (.invalidEntry " "), render ["7", "add"]),
          (.error (.storage .replacingSeed .induced), render ["7", "add"]),
          (.error (.storage .replacingSeed .induced), render ["8", "add"]),
          (.ok (.entries ["8", "add"]), render ["8", "add"]),
          (.ok .done, render ["8"])] := by
  intro crash lost unread qs
  have hnone : ∀ e ∈ ([] : List String), Storable e := List.forall_mem_nil _
  exact ⟨hnone, (inTurn_render hnone qs).1⟩

end Journal.Request

end DurableCalc
