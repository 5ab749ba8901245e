import Mathlib

/-! # Imperative code that may return early

Straight-line code over a state in which a check may end the whole computation, leaving the state as
it is at that point.

* **`Prog`** — such code, as `OptionT` over a state monad, with its four kinds of statement: `step`
  changes the state, `ask` looks at it, `rejectIf` may return early, `whenever` guards a block.
* **`exec`** — the outcome of running code from a state. The `exec_*_bind` lemmas run it statement
  by statement; `exec_bind_of_some` and `exec_bind_of_none` run a whole block. -/

namespace EarlyReturn

/-- Code over states `σ` that results in an `α` unless it returns early. -/
abbrev Prog (σ : Type) := OptionT (StateM σ)

variable {σ α β : Type}

/-- The outcome: the result, or `none` after an early return, and the final state. -/
def exec (x : Prog σ α) (s : σ) : Option α × σ := x.run.run s

/-! ## Statements -/

/-- Change the state. -/
def step (f : σ → σ) : Prog σ Unit := modify f

/-- Look at the state. -/
def ask (g : σ → α) : Prog σ α := g <$> get

/-- Return early if the condition holds. -/
def rejectIf (c : Prop) [Decidable c] : Prog σ Unit := if c then failure else pure ()

/-- Run a block if the condition holds. -/
def whenever (c : Prop) [Decidable c] (x : Prog σ Unit) : Prog σ Unit := if c then x else pure ()

/-! ## Running code -/

@[simp] theorem exec_pure (a : α) (s : σ) : exec (pure a : Prog σ α) s = (some a, s) := rfl

@[simp] theorem exec_step (f : σ → σ) (s : σ) : exec (step f) s = (some (), f s) := rfl

@[simp] theorem exec_ask (g : σ → α) (s : σ) : exec (ask g) s = (some (g s), s) := rfl

/-- Sequencing: the second part runs if the first has not returned early. -/
theorem exec_bind (x : Prog σ α) (f : α → Prog σ β) (s : σ) :
    exec (x >>= f) s =
      match exec x s with
      | (some a, s') => exec (f a) s'
      | (none, s') => (none, s') := by
  rw [exec, OptionT.run_bind, Option.elimM, StateT.run_bind]
  show ((exec x s).1.elim (pure none) fun a => (f a).run).run (exec x s).2 = _
  rcases exec x s with ⟨_ | a, s'⟩
  · rfl
  · rfl

/-- A block that comes to its end hands over its result and state. -/
theorem exec_bind_of_some {x : Prog σ α} {s s' : σ} {a : α} (h : exec x s = (some a, s'))
    (f : α → Prog σ β) : exec (x >>= f) s = exec (f a) s' := by
  rw [exec_bind, h]

/-- A block that returns early ends the code. -/
theorem exec_bind_of_none {x : Prog σ α} {s s' : σ} (h : exec x s = (none, s'))
    (f : α → Prog σ β) : exec (x >>= f) s = (none, s') := by
  rw [exec_bind, h]

@[simp] theorem exec_step_bind (f : σ → σ) (k : Unit → Prog σ β) (s : σ) :
    exec (step f >>= k) s = exec (k ()) (f s) :=
  exec_bind_of_some (exec_step f s) k

@[simp] theorem exec_ask_bind (g : σ → α) (k : α → Prog σ β) (s : σ) :
    exec (ask g >>= k) s = exec (k (g s)) s :=
  exec_bind_of_some (exec_ask g s) k

section Checks

variable {c : Prop} [Decidable c]

/-- A check that fails ends the program. -/
theorem exec_rejectIf_of_pos (h : c) (s : σ) : exec (rejectIf c) s = (none, s) := by
  rw [rejectIf, if_pos h]
  rfl

/-- A check that passes does nothing. -/
theorem exec_rejectIf_of_neg (h : ¬ c) (s : σ) : exec (rejectIf c) s = (some (), s) := by
  rw [rejectIf, if_neg h]
  rfl

/-- Behind a check that fails nothing is executed. -/
theorem exec_rejectIf_bind_of_pos (h : c) (k : Unit → Prog σ β) (s : σ) :
    exec (rejectIf c >>= k) s = (none, s) :=
  exec_bind_of_none (exec_rejectIf_of_pos h s) k

/-- Behind a check that passes the program goes on. -/
theorem exec_rejectIf_bind_of_neg (h : ¬ c) (k : Unit → Prog σ β) (s : σ) :
    exec (rejectIf c >>= k) s = exec (k ()) s :=
  exec_bind_of_some (exec_rejectIf_of_neg h s) k

/-- A guarded block with a known outcome. -/
theorem exec_whenever (x : Prog σ Unit) (s : σ) :
    exec (whenever c x) s = if c then exec x s else (some (), s) := by
  unfold whenever
  by_cases h : c
  · rw [if_pos h, if_pos h]
  · rw [if_neg h, if_neg h, exec_pure]

end Checks

end EarlyReturn
