namespace DurableCalc

universe u v

structure Interface where
  Call : Type u
  Reply : Call → Type

inductive Program (I : Interface.{u}) (α : Type) : Type u where
  | done (value : α)
  | call (c : I.Call) (next : I.Reply c → Program I α)

abbrev Handler (I : Interface.{u}) (σ : Type) :=
  (c : I.Call) → σ → I.Reply c × σ

namespace Program

variable {I : Interface.{u}} {α β : Type}

def bind : Program I α → (α → Program I β) → Program I β
  | .done a, f => f a
  | .call c next, f => .call c fun r => (next r).bind f

instance : Monad (Program I) where
  pure := .done
  bind := .bind

def ask (c : I.Call) : Program I (I.Reply c) :=
  .call c .done

@[simp] theorem done_bind (a : α) (f : α → Program I β) : (done a >>= f) = f a := rfl

@[simp] theorem call_bind (c : I.Call) (next : I.Reply c → Program I α) (f : α → Program I β) :
    (call c next >>= f) = call c fun r => next r >>= f := rfl

theorem bind_done (p : Program I α) : (p >>= done) = p := by
  induction p with
  | done a => rfl
  | call c next ih => simp [ih]

theorem bind_assoc {γ : Type} (p : Program I α) (f : α → Program I β) (g : β → Program I γ) :
    (p >>= f >>= g) = p >>= fun a => f a >>= g := by
  induction p with
  | done a => rfl
  | call c next ih => simp [ih]

instance : LawfulMonad (Program I) :=
  LawfulMonad.mk' (Program I) bind_done done_bind bind_assoc

def run {σ : Type} (h : Handler I σ) : Program I α → σ → α × σ
  | .done a, s => (a, s)
  | .call c next, s => (next (h c s).1).run h (h c s).2

section

variable {σ : Type} (h : Handler I σ)

@[simp] theorem run_done (a : α) (s : σ) : run h (done a) s = (a, s) := rfl

@[simp] theorem run_call (c : I.Call) (next : I.Reply c → Program I α) (s : σ) :
    run h (call c next) s = run h (next (h c s).1) (h c s).2 := rfl

theorem run_bind (p : Program I α) (f : α → Program I β) (s : σ) :
    run h (p >>= f) s = run h (f (run h p s).1) (run h p s).2 := by
  induction p generalizing s with
  | done a => rfl
  | call c next ih => exact ih (h c s).1 (h c s).2

end

def interpret {m : Type → Type v} [Monad m] (h : (c : I.Call) → m (I.Reply c)) :
    Program I α → m α
  | .done a => pure a
  | .call c next => h c >>= fun r => (next r).interpret h

theorem interpret_bind {m : Type → Type v} [Monad m] [LawfulMonad m]
    (h : (c : I.Call) → m (I.Reply c)) (p : Program I α) (f : α → Program I β) :
    interpret h (p >>= f) = interpret h p >>= fun a => interpret h (f a) := by
  induction p with
  | done a => simp [interpret]
  | call c next ih => simp [interpret, ih]

end Program

end DurableCalc
