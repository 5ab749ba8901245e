import Mathlib

/-! # Byte-driven transducers that may get stuck

A transducer reads one symbol at a time and answers with its next state and a list of outputs, or
gets stuck. Stuckness stands for a computation that never comes back, so it is absorbing.

* **`Transducer.run`** — feed a whole stream; `run_append` cuts it anywhere.
* **`Transducer.runChunks`** — feed a list of chunks; `runChunks_eq_run_flatten` says that the
  cutting does not matter.
* **`Transducer.outputs`** — what a stream makes the transducer answer, up to the symbol it gets
  stuck on; `exists_run_outputs` says that a run on some front part of the stream answers just that.
* **`Transducer.pipe`** — the outputs of one transducer fed to a second, with `run_pipe`.
* **`Transducer.Simulates`** — a step-wise simulation up to a view of the outputs, lifted to whole
  runs by `Simulates.run`. -/

namespace Streams

/-- A transducer with states `σ`, input symbols `β` and outputs `ω`; `none` is "never returns". -/
structure Transducer (σ β ω : Type*) where
  /-- Consume one symbol. -/
  feed : σ → β → Option (σ × List ω)

/-- Put earlier outputs in front of a result. -/
def prepend {σ ω : Type*} (out : List ω) (r : Option (σ × List ω)) : Option (σ × List ω) :=
  r.map fun q => (q.1, out ++ q.2)

section Prepend

variable {σ ω : Type*}

@[simp] theorem prepend_none (out : List ω) : prepend out (none : Option (σ × List ω)) = none := rfl

@[simp] theorem prepend_some (out : List ω) (q : σ × List ω) :
    prepend out (some q) = some (q.1, out ++ q.2) := rfl

@[simp] theorem prepend_nil (r : Option (σ × List ω)) : prepend [] r = r := by
  cases r <;> rfl

/-- Prepending twice is prepending the concatenation. -/
theorem prepend_prepend (out out' : List ω) (r : Option (σ × List ω)) :
    prepend out (prepend out' r) = prepend (out ++ out') r := by
  cases r with
  | none => rfl
  | some q => simp [prepend]

/-- Prepending outputs does not create or remove a result. -/
@[simp] theorem prepend_eq_none {out : List ω} {r : Option (σ × List ω)} :
    prepend out r = none ↔ r = none := by
  cases r <;> simp [prepend]

/-- A result with outputs in front is a result with these outputs in front. -/
theorem prepend_eq_some_iff {out out' : List ω} {r : Option (σ × List ω)} {s : σ} :
    prepend out r = some (s, out') ↔ ∃ rest, r = some (s, rest) ∧ out' = out ++ rest := by
  rw [prepend, Option.map_eq_some_iff]
  constructor
  · rintro ⟨⟨s', rest⟩, hr, heq⟩
    obtain ⟨rfl, rfl⟩ := Prod.mk.inj heq
    exact ⟨rest, hr, rfl⟩
  · rintro ⟨rest, hr, rfl⟩
    exact ⟨(s, rest), hr, rfl⟩

end Prepend

namespace Transducer

variable {σ τ β ω ν : Type*} (T : Transducer σ β ω)

/-- Feed a stream symbol by symbol, collecting the outputs in order. -/
def run : σ → List β → Option (σ × List ω)
  | s, [] => some (s, [])
  | s, b :: bs => (T.feed s b).bind fun r => prepend r.2 (run r.1 bs)

@[simp] theorem run_nil (s : σ) : T.run s [] = some (s, []) := rfl

/-- Cons reading of `run`. -/
theorem run_cons (s : σ) (b : β) (bs : List β) :
    T.run s (b :: bs) = (T.feed s b).bind fun r => prepend r.2 (T.run r.1 bs) := rfl

/-- A step that succeeds, followed by the rest of the stream. -/
theorem run_cons_of_feed {s s' : σ} {b : β} {out : List ω} (h : T.feed s b = some (s', out))
    (bs : List β) : T.run s (b :: bs) = prepend out (T.run s' bs) := by
  rw [run_cons, h]; rfl

/-- A run over a stream that is not empty is a step and a run over the rest. -/
theorem run_cons_eq_some_iff {s s' : σ} {b : β} {bs : List β} {out : List ω} :
    T.run s (b :: bs) = some (s', out) ↔ ∃ s₁ out₁ out₂, T.feed s b = some (s₁, out₁) ∧
      T.run s₁ bs = some (s', out₂) ∧ out = out₁ ++ out₂ := by
  rw [run_cons, Option.bind_eq_some_iff]
  constructor
  · rintro ⟨⟨s₁, out₁⟩, hfeed, hrest⟩
    obtain ⟨out₂, hrun, hout⟩ := prepend_eq_some_iff.mp hrest
    exact ⟨s₁, out₁, out₂, hfeed, hrun, hout⟩
  · rintro ⟨s₁, out₁, out₂, hfeed, hrun, hout⟩
    exact ⟨(s₁, out₁), hfeed, prepend_eq_some_iff.mpr ⟨out₂, hrun, hout⟩⟩

/-- **Runs compose**: a stream may be cut at any place. -/
theorem run_append (s : σ) (xs ys : List β) :
    T.run s (xs ++ ys) = (T.run s xs).bind fun r => prepend r.2 (T.run r.1 ys) := by
  induction xs generalizing s with
  | nil => simp
  | cons x xs ih =>
      rw [List.cons_append, run_cons, run_cons]
      cases T.feed s x with
      | none => rfl
      | some r =>
          simp only [Option.bind_some, ih]
          cases T.run r.1 xs with
          | none => rfl
          | some q => simp [prepend_prepend]

/-- The continuation of a run whose first part is known. -/
theorem run_append_of_run {s s' : σ} {xs : List β} {out : List ω}
    (h : T.run s xs = some (s', out)) (ys : List β) :
    T.run s (xs ++ ys) = prepend out (T.run s' ys) := by
  rw [run_append, h]; rfl

/-- A run over a concatenation is a run over each part. -/
theorem run_append_eq_some_iff {s s' : σ} {xs ys : List β} {out : List ω} :
    T.run s (xs ++ ys) = some (s', out) ↔ ∃ s₁ out₁ out₂, T.run s xs = some (s₁, out₁) ∧
      T.run s₁ ys = some (s', out₂) ∧ out = out₁ ++ out₂ := by
  rw [run_append, Option.bind_eq_some_iff]
  constructor
  · rintro ⟨⟨s₁, out₁⟩, hfirst, hrest⟩
    obtain ⟨out₂, hsecond, hout⟩ := prepend_eq_some_iff.mp hrest
    exact ⟨s₁, out₁, out₂, hfirst, hsecond, hout⟩
  · rintro ⟨s₁, out₁, out₂, hfirst, hsecond, hout⟩
    exact ⟨(s₁, out₁), hfirst, prepend_eq_some_iff.mpr ⟨out₂, hsecond, hout⟩⟩

/-- Feed a list of chunks, one after the other. -/
def runChunks : σ → List (List β) → Option (σ × List ω)
  | s, [] => some (s, [])
  | s, c :: cs => (T.run s c).bind fun r => prepend r.2 (runChunks r.1 cs)

/-- **Chunking does not matter**: feeding the chunks is feeding their concatenation. -/
theorem runChunks_eq_run_flatten (s : σ) (cs : List (List β)) :
    T.runChunks s cs = T.run s cs.flatten := by
  induction cs generalizing s with
  | nil => rfl
  | cons c cs ih => simp only [runChunks, List.flatten_cons, run_append, ih]

/-! ## Outputs of runs that may get stuck -/

/-- The outputs of a stream, up to the symbol on which the transducer gets stuck if it does. -/
def outputs : σ → List β → List ω
  | _, [] => []
  | s, b :: bs =>
      match T.feed s b with
      | none => []
      | some r => r.2 ++ outputs r.1 bs

@[simp] theorem outputs_nil (s : σ) : T.outputs s [] = [] := rfl

/-- A step that succeeds puts its outputs in front. -/
theorem outputs_cons_of_feed {s s' : σ} {b : β} {out : List ω} (h : T.feed s b = some (s', out))
    (bs : List β) : T.outputs s (b :: bs) = out ++ T.outputs s' bs := by
  rw [outputs, h]

/-- A step that gets stuck has no outputs. -/
theorem outputs_cons_of_none {s : σ} {b : β} (h : T.feed s b = none) (bs : List β) :
    T.outputs s (b :: bs) = [] := by
  rw [outputs, h]

/-- The continuation of a run whose first part is known. -/
theorem outputs_append_of_run {s s' : σ} {xs : List β} {out : List ω}
    (h : T.run s xs = some (s', out)) (ys : List β) :
    T.outputs s (xs ++ ys) = out ++ T.outputs s' ys := by
  induction xs generalizing s out with
  | nil =>
      obtain ⟨rfl, rfl⟩ := Prod.mk.inj (Option.some.inj h)
      rfl
  | cons x xs ih =>
      obtain ⟨s₁, out₁, out₂, hfeed, hrun, rfl⟩ := T.run_cons_eq_some_iff.mp h
      rw [List.cons_append, T.outputs_cons_of_feed hfeed, ih hrun, List.append_assoc]

/-- Behind a stream on which the transducer gets stuck, nothing is answered. -/
theorem outputs_append_of_stuck {s : σ} {xs : List β} (h : T.run s xs = none) (ys : List β) :
    T.outputs s (xs ++ ys) = T.outputs s xs := by
  induction xs generalizing s with
  | nil => cases h
  | cons x xs ih =>
      rw [List.cons_append]
      cases hfeed : T.feed s x with
      | none => rw [T.outputs_cons_of_none hfeed, T.outputs_cons_of_none hfeed]
      | some r =>
          rw [T.run_cons_of_feed hfeed, prepend_eq_none] at h
          rw [T.outputs_cons_of_feed hfeed, T.outputs_cons_of_feed hfeed, ih h]

/-- A run that succeeds gives its outputs. -/
theorem outputs_of_run {s s' : σ} {bs : List β} {out : List ω} (h : T.run s bs = some (s', out)) :
    T.outputs s bs = out := by
  have happend := T.outputs_append_of_run h []
  rwa [List.append_nil, outputs_nil, List.append_nil] at happend

/-- The outputs are those of a run on some front part of the stream. -/
theorem exists_run_outputs (s : σ) (bs : List β) :
    ∃ xs ys s', bs = xs ++ ys ∧ T.run s xs = some (s', T.outputs s bs) := by
  induction bs generalizing s with
  | nil => exact ⟨[], [], s, rfl, rfl⟩
  | cons b bs ih =>
      cases hfeed : T.feed s b with
      | none => exact ⟨[], b :: bs, s, rfl, by rw [T.outputs_cons_of_none hfeed]; rfl⟩
      | some r =>
          obtain ⟨xs, ys, s', rfl, hrun⟩ := ih r.1
          refine ⟨b :: xs, ys, s', rfl, ?_⟩
          rw [T.run_cons_of_feed hfeed, hrun, T.outputs_cons_of_feed hfeed]
          rfl

/-! ## Composition -/

/-- The outputs of `T`, in order, are the inputs of `U`. -/
def pipe (U : Transducer τ ω ν) : Transducer (σ × τ) β ν where
  feed s b := (T.feed s.1 b).bind fun r => (U.run s.2 r.2).map fun q => ((r.1, q.1), q.2)

/-- **A piped run is the second transducer run on the first one's outputs.** -/
theorem run_pipe (U : Transducer τ ω ν) (s : σ) (t : τ) (bs : List β) :
    (T.pipe U).run (s, t) bs
      = (T.run s bs).bind fun r => (U.run t r.2).map fun q => ((r.1, q.1), q.2) := by
  induction bs generalizing s t with
  | nil => rfl
  | cons b bs ih =>
      rw [run_cons, run_cons]
      simp only [pipe]
      cases T.feed s b with
      | none => rfl
      | some r =>
          simp only [Option.bind_some]
          cases hU : U.run t r.2 with
          | none =>
              -- `U` is stuck on the first outputs, hence on any longer list of them
              cases T.run r.1 bs with
              | none => rfl
              | some q => simp [prepend, run_append, hU]
          | some u =>
              simp only [Option.map_some, Option.bind_some]
              have hih := ih r.1 u.1
              simp only [pipe] at hih
              rw [hih]
              cases T.run r.1 bs with
              | none => rfl
              | some q =>
                  simp only [prepend_some, Option.bind_some, run_append, hU]
                  cases U.run u.1 q.2 <;> rfl

/-! ## Simulation -/

variable {T}

/-- `U` simulates `T` along `R`: from related states both get stuck on a symbol, or both move to
related states and the outputs of `T`, seen through `view`, are those of `U`. -/
def Simulates (T : Transducer σ β ω) (U : Transducer τ β ν) (R : σ → τ → Prop)
    (view : ω → Option ν) : Prop :=
  ∀ s t b, R s t →
    Option.Rel (fun r q => R r.1 q.1 ∧ r.2.filterMap view = q.2) (T.feed s b) (U.feed t b)

/-- **Step-wise simulation lifts to runs.** -/
theorem Simulates.run {U : Transducer τ β ν} {R : σ → τ → Prop} {view : ω → Option ν}
    (h : T.Simulates U R view) {s : σ} {t : τ} (hst : R s t) (bs : List β) :
    Option.Rel (fun r q => R r.1 q.1 ∧ r.2.filterMap view = q.2) (T.run s bs) (U.run t bs) := by
  induction bs generalizing s t with
  | nil => exact .some ⟨hst, rfl⟩
  | cons b bs ih =>
      rw [run_cons, run_cons]
      have hb := h s t b hst
      generalize T.feed s b = x at hb
      generalize U.feed t b = y at hb
      cases hb with
      | none => exact .none
      | @some r q hrq =>
          simp only [Option.bind_some]
          have hrest := ih hrq.1
          generalize T.run r.1 bs = x at hrest
          generalize U.run q.1 bs = y at hrest
          cases hrest with
          | none => exact .none
          | some hrest' =>
              refine .some ⟨hrest'.1, ?_⟩
              rw [List.filterMap_append, hrq.2, hrest'.2]

end Transducer

end Streams
