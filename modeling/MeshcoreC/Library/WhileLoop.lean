import Mathlib

/-! # While loops that need not terminate

A `while (guard) body` loop over an arbitrary state type, with its big-step semantics.

* **`WhileLoop.Exits s t`** — started in `s`, the loop leaves in `t` after finitely many
  iterations; `WhileLoop.Halts s` — it leaves at all.
* **`WhileLoop.runFuel`** — the executable runner, sound for `Exits` (`exits_of_runFuel`).
* **`Exits.value_eq`** — a quantity that no iteration changes has its initial value at the exit.
* **`halts_of_measure`** — an invariant under which a measure drops forces termination.
* **`WhileLoop.Visits s t`** — the loop passes through `t`, whether or not it is ever left;
  `exists_visits_of_drop` finds a state of a given kind.
* **`exits_iff_of_value`** — the two combined: a loop whose iterations preserve a partial value
  computes exactly that partial value, and diverges exactly where it is undefined.
* **`range'_induction`** — a counted loop advances what every one of its iterations advances. -/

namespace Loops

/-- A `while (guard) body` loop over states `σ`. -/
structure WhileLoop (σ : Type*) where
  /-- The loop condition, tested before every iteration. -/
  guard : σ → Bool
  /-- One execution of the loop body. -/
  body : σ → σ

namespace WhileLoop

variable {σ γ : Type*} (L : WhileLoop σ)

/-- Big-step semantics: the loop started in the first state is left in the second. -/
inductive Exits : σ → σ → Prop
  /-- The guard fails: the loop is left at once. -/
  | done {s : σ} (hguard : L.guard s = false) : Exits s s
  /-- The guard holds: one iteration, then the rest of the loop. -/
  | iterate {s t : σ} (hguard : L.guard s = true) (hrest : Exits (L.body s) t) : Exits s t

/-- The loop started in `s` is left after finitely many iterations. -/
def Halts (s : σ) : Prop := ∃ t, L.Exits s t

/-- The states the loop passes through, whether or not it is ever left. -/
inductive Visits : σ → σ → Prop
  /-- The state it is started in. -/
  | start (s : σ) : Visits s s
  /-- The guard holds: one iteration, then a state the rest of the loop passes through. -/
  | iterate {s t : σ} (hguard : L.guard s = true) (hrest : Visits (L.body s) t) : Visits s t

/-- Run at most `n` iterations; `none` when the guard still holds after them. -/
def runFuel : ℕ → σ → Option σ
  | 0, s => if L.guard s then none else some s
  | n + 1, s => if L.guard s then runFuel n (L.body s) else some s

variable {L}

/-- What the fuelled runner returns, the loop exits in. -/
theorem exits_of_runFuel {n : ℕ} {s t : σ} (h : L.runFuel n s = some t) : L.Exits s t := by
  induction n generalizing s with
  | zero =>
      rw [runFuel] at h
      split at h
      · exact absurd h (by simp)
      · rename_i hguard
        obtain rfl := Option.some.inj h
        exact .done (by simpa using hguard)
  | succ n ih =>
      rw [runFuel] at h
      split at h
      · rename_i hguard
        exact .iterate hguard (ih h)
      · rename_i hguard
        obtain rfl := Option.some.inj h
        exact .done (by simpa using hguard)

/-- At the exit the guard fails. -/
theorem Exits.guard_eq_false {s t : σ} (h : L.Exits s t) : L.guard t = false := by
  induction h with
  | done hguard => exact hguard
  | iterate _ _ ih => exact ih

/-- **Invariant rule.** A quantity that no iteration changes has at the exit the value it had at
the start. -/
theorem Exits.value_eq {val : σ → γ} (hstep : ∀ s, L.guard s = true → val (L.body s) = val s)
    {s t : σ} (h : L.Exits s t) : val t = val s := by
  induction h with
  | done => rfl
  | iterate hguard _ ih => rw [ih, hstep _ hguard]

/-- The same for every state on the way. -/
theorem Visits.value_eq {val : σ → γ} (hstep : ∀ s, L.guard s = true → val (L.body s) = val s)
    {s t : σ} (h : L.Visits s t) : val t = val s := by
  induction h with
  | start => rfl
  | iterate hguard _ ih => rw [ih, hstep _ hguard]

/-- A loop passes through the state it is left in. -/
theorem Exits.visits {s t : σ} (h : L.Exits s t) : L.Visits s t := by
  induction h with
  | done => exact .start _
  | iterate hguard _ ih => exact .iterate hguard ih

/-- **Progress rule.** If the guard holds and a measure drops wherever the aim is not yet reached,
the loop passes through a state that reaches it. -/
theorem exists_visits_of_drop {aim : σ → Prop} (μ : σ → ℕ)
    (hdrop : ∀ s, ¬ aim s → L.guard s = true ∧ μ (L.body s) < μ s) (s : σ) :
    ∃ t, L.Visits s t ∧ aim t := by
  induction hn : μ s using Nat.strongRecOn generalizing s with
  | _ n ih =>
      by_cases hs : aim s
      · exact ⟨s, .start s, hs⟩
      · obtain ⟨hguard, hlt⟩ := hdrop s hs
        obtain ⟨t, ht, haim⟩ := ih _ (hn ▸ hlt) (L.body s) rfl
        exact ⟨t, .iterate hguard ht, haim⟩

/-- **Termination rule.** If an invariant is kept by every iteration and a measure drops under it,
the loop is left. -/
theorem halts_of_measure (I : σ → Prop) (μ : σ → ℕ)
    (hinv : ∀ s, I s → L.guard s = true → I (L.body s))
    (hdrop : ∀ s, I s → L.guard s = true → μ (L.body s) < μ s) {s : σ} (hs : I s) :
    L.Halts s := by
  induction hn : μ s using Nat.strongRecOn generalizing s with
  | _ n ih =>
      by_cases hguard : L.guard s = true
      · have hlt : μ (L.body s) < n := hn ▸ hdrop s hs hguard
        obtain ⟨t, ht⟩ := ih _ hlt (hinv s hs hguard) rfl
        exact ⟨t, .iterate hguard ht⟩
      · exact ⟨s, .done (by simpa using hguard)⟩

/-- **A loop computes the partial value its iterations preserve.** `val` is the value the loop
should end with when started in `s`, `none` where it should not end. If every iteration keeps it,
if a state that fails the guard has itself as its value, and if a measure drops wherever the value
is defined, then the loop exits exactly with that value. -/
theorem exits_iff_of_value {val : σ → Option σ} {μ : σ → ℕ}
    (hstep : ∀ s, L.guard s = true → val (L.body s) = val s)
    (hdone : ∀ s, L.guard s = false → val s = some s)
    (hdrop : ∀ s, (val s).isSome → L.guard s = true → μ (L.body s) < μ s) (s t : σ) :
    L.Exits s t ↔ val s = some t := by
  constructor
  · intro h
    rw [← h.value_eq hstep, hdone t h.guard_eq_false]
  · intro h
    have hhalt : L.Halts s :=
      halts_of_measure (fun s => (val s).isSome) μ
        (fun s hs hguard => by rw [hstep s hguard]; exact hs) hdrop (by simp [h])
    obtain ⟨t', ht'⟩ := hhalt
    have hval : some t' = some t := by
      rw [← h, ← ht'.value_eq hstep, hdone t' ht'.guard_eq_false]
    obtain rfl := Option.some.inj hval
    exact ht'

end WhileLoop

/-- **Counted loops.** What iteration `k` of `for (i = a; ...; i += d)` advances from `k` to
`k + 1`, `n` iterations advance from 0 to `n`. -/
theorem strided_induction {β : Type*} {P : ℕ → β → Prop} {f : β → ℕ → β} {a n d : ℕ}
    (hstep : ∀ k < n, ∀ b, P k b → P (k + 1) (f b (a + d * k))) {b : β} (h : P 0 b) :
    P n ((List.range' a n d).foldl f b) := by
  induction n with
  | zero => exact h
  | succ n ih =>
      rw [List.range'_concat, List.foldl_append, List.foldl_cons, List.foldl_nil]
      exact hstep n (Nat.lt_succ_self n) _ (ih fun k hk => hstep k (hk.trans (Nat.lt_succ_self n)))

/-- What every iteration of `for (i = a; i < a + n; i++)` advances from `i` to `i + 1`, the loop
advances from `a` to `a + n`. -/
theorem range'_induction {β : Type*} {P : ℕ → β → Prop} {f : β → ℕ → β} {a n : ℕ}
    (hstep : ∀ i, a ≤ i → i < a + n → ∀ b, P i b → P (i + 1) (f b i)) {b : β} (h : P a b) :
    P (a + n) ((List.range' a n).foldl f b) := by
  apply strided_induction (P := fun k b => P (a + k) b) _ h
  intro k hk b hb
  rw [one_mul]
  exact hstep (a + k) (by omega) (by omega) b hb

end Loops
