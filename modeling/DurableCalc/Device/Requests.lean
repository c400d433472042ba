import DurableCalc.Device

namespace DurableCalc.Storage

inductive Request where
  | load
  | store (bytes : ByteArray)

variable {σ : Type}

def serve (st : Storage σ) : Option ByteArray × σ → Request → Option ByteArray × σ
  | (last, s), .load => (last, (st.load s).2)
  | (last, s), .store bytes =>
      match st.store bytes s with
      | (.ok (), s) => (some bytes, s)
      | (.error _, s) => (last, s)

def after (st : Storage σ) (qs : List Request) (s : σ) : Option ByteArray × σ :=
  qs.foldl (serve st) (none, s)

theorem serve_load (st : Storage σ) (x : Option ByteArray × σ) :
    (serve st x .load).2 = (st.load x.2).2 := rfl

theorem serve_store (st : Storage σ) (x : Option ByteArray × σ) (bytes : ByteArray) :
    (serve st x (.store bytes)).2 = (st.store bytes x.2).2 := by
  simp only [serve]
  split <;> next h => rw [h]

theorem serve_congr (st : Storage σ) {x y : Option ByteArray × σ} (h : x.2 = y.2) (q : Request) :
    (serve st x q).2 = (serve st y q).2 := by
  cases q with
  | load => rw [serve_load, serve_load, h]
  | store bytes => rw [serve_store, serve_store, h]

theorem after_cons (st : Storage σ) (q : Request) (qs : List Request) (s : σ) :
    (st.after (q :: qs) s).2 = (st.after qs (st.serve (none, s) q).2).2 := by
  have hall (x y : Option ByteArray × σ) (h : x.2 = y.2) :
      (qs.foldl (serve st) x).2 = (qs.foldl (serve st) y).2 := by
    induction qs generalizing x y with
    | nil => exact h
    | cons q qs ih => exact ih _ _ (serve_congr st h q)
  exact hall _ _ rfl

/-- Whatever is asked of the storage from here on, its writes succeed. -/
def Accepts (st : Storage σ) (s : σ) : Prop :=
  ∀ qs bytes, (st.store bytes (st.after qs s).2).1 = .ok ()

theorem Accepts.serve {st : Storage σ} {s : σ} (h : Accepts st s) (q : Request) :
    Accepts st (st.serve (none, s) q).2 := by
  intro qs bytes
  rw [← after_cons]
  exact h (q :: qs) bytes

end DurableCalc.Storage
