import MeshcoreC.Library.Framing

/-! # How a deframer reads a stream

A run that does not get stuck reads the whole stream: nothing is lost between the bodies it emits
and the symbols it still holds.

* **`SplitsAs`** — a stream as whole segments and a rest; the bodies of the segments are unique when
  there is no rest (`SplitsAs.unique`).
* **`ReadsAs`** — the same with the rest that an open state holds; `run_readsAs` says that every run
  from an open state gives such a reading.
* **`held_header_iff`**, **`mem_bodies_iff`** — what the final state and the emitted bodies say
  about the stream, as equivalences.
* **`run_noise`** — symbols other than the start symbol bring the deframer back to rest, at the
  pace of one symbol a step. -/

namespace Framing

open Streams Format

variable {β : Type*} {F : Format β}

/-! ## Readings -/

/-- The stream `w` is a list of whole segments with the given bodies, and behind them the symbols
`rest`. -/
def SplitsAs (F : Format β) (w : List β) (bodies : List (List β)) (rest : List β) : Prop :=
  ∃ segs, (∀ g ∈ segs, Segment.Valid F g) ∧ segmentBodies segs = bodies ∧
    w = segmentBytes F segs ++ rest

section SplitsAs

variable {w rest : List β} {bodies bodies' : List (List β)}

/-- Nothing is split before anything is received. -/
theorem splitsAs_nil : SplitsAs F [] [] [] := ⟨[], by simp, rfl, rfl⟩

/-- More of the stream is more of the rest. -/
theorem SplitsAs.receive (h : SplitsAs F w bodies rest) (more : List β) :
    SplitsAs F (w ++ more) bodies (rest ++ more) := by
  obtain ⟨segs, hsegs, hbodies, rfl⟩ := h
  exact ⟨segs, hsegs, hbodies, List.append_assoc ..⟩

/-- A rest that is a segment is one segment more. -/
theorem SplitsAs.segment {g : Segment β} (h : SplitsAs F w bodies (g.bytes F)) (hg : g.Valid F) :
    SplitsAs F w (bodies ++ g.bodies) [] := by
  obtain ⟨segs, hsegs, rfl, rfl⟩ := h
  refine ⟨segs ++ [g], ?_, ?_, ?_⟩
  · simpa [or_imp, forall_and] using ⟨hsegs, hg⟩
  · rw [segmentBodies_append, segmentBodies_cons, segmentBodies_nil, List.append_nil]
  · rw [segmentBytes_append, segmentBytes_cons, segmentBytes_nil, List.append_nil, List.append_nil]

/-- **A stream of segments has one list of bodies.** -/
theorem SplitsAs.unique [DecidableEq β] (h : SplitsAs F w bodies [])
    (h' : SplitsAs F w bodies' []) : bodies = bodies' := by
  -- both are what the deframer emits when one more symbol arrives
  have hrun : ∀ bs, SplitsAs F w bs [] →
      F.deframer.run .idle (w ++ [F.start]) = some (F.scan F.start, bs) := by
    rintro bs ⟨segs, hsegs, rfl, rfl⟩
    have hlast : F.deframer.run .idle [F.start] = some (F.scan F.start, []) := rfl
    rw [List.append_nil, run_segments_append hsegs (List.cons_ne_nil _ _), hlast, prepend_some,
      List.append_nil]
  have heq := (hrun bodies h).symm.trans (hrun bodies' h')
  exact (Prod.mk.inj (Option.some.inj heq)).2

end SplitsAs

/-- The stream `w` is a list of whole segments with the given bodies, and behind them the symbols
that the open state `p` holds. -/
def ReadsAs (F : Format β) (w : List β) (bodies : List (List β)) (p : Pending β) : Prop :=
  ∃ segs, (∀ g ∈ segs, Segment.Valid F g) ∧ w = segmentBytes F segs ++ F.bytes p ∧
    bodies = segmentBodies segs ∧ F.Open p

/-- A reading of the first part of a stream is continued by one of the held rest and the second
part. -/
theorem ReadsAs.append {w w' : List β} {bodies bodies' : List (List β)} {p p' : Pending β}
    (h : ReadsAs F w bodies p) (h' : ReadsAs F (F.bytes p ++ w') bodies' p') :
    ReadsAs F (w ++ w') (bodies ++ bodies') p' := by
  obtain ⟨segs, hsegs, rfl, rfl, -⟩ := h
  obtain ⟨segs', hsegs', hw', rfl, hopen⟩ := h'
  refine ⟨segs ++ segs', ?_, ?_, (segmentBodies_append segs segs').symm, hopen⟩
  · intro g hg
    rcases List.mem_append.mp hg with hg | hg
    · exact hsegs g hg
    · exact hsegs' g hg
  · rw [List.append_assoc, hw', segmentBytes_append, List.append_assoc]

/-- Symbols that are all held are no segments yet. -/
theorem readsAs_bytes {p : Pending β} (hp : F.Open p) : ReadsAs F (F.bytes p) [] p :=
  ⟨[], by simp, rfl, rfl, hp⟩

/-- A whole segment reads as itself. -/
theorem readsAs_segment {g : Segment β} (hg : g.Valid F) : ReadsAs F (g.bytes F) g.bodies .idle :=
  ⟨[g], by simpa using hg, by simp [Format.bytes], by simp, trivial⟩

/-- A stream of segments whose last one is not settled ends in a bare header, of a frame without a
body or of one that is skipped. -/
theorem exists_header_of_not_settled {segs : List (Segment β)} (hsegs : ∀ g ∈ segs, g.Valid F)
    (h : ¬ ∀ g ∈ segs.getLast?, g.Settled) :
    ∃ init lo hi, (∀ g ∈ init, Segment.Valid F g) ∧
      (F.verdict lo hi = .skip ∨ F.verdict lo hi = .body 0) ∧
      segmentBytes F segs = segmentBytes F init ++ [F.start, lo, hi] := by
  push Not at h
  obtain ⟨g, hlast, hg⟩ := h
  obtain ⟨init, rfl⟩ := List.getLast?_eq_some_iff.mp hlast
  have hinit : ∀ g ∈ init, Segment.Valid F g := fun g' hg' => hsegs g' (by simp [hg'])
  have hvalid : g.Valid F := hsegs g (by simp)
  cases g with
  | noise => exact absurd trivial hg
  | skipped lo hi =>
      refine ⟨init, lo, hi, hinit, .inl hvalid, ?_⟩
      rw [segmentBytes_append]
      rfl
  | frame lo hi body =>
      obtain rfl : body = [] := not_not.mp hg
      refine ⟨init, lo, hi, hinit, .inr hvalid, ?_⟩
      rw [segmentBytes_append]
      rfl

section Deframer

variable [DecidableEq β]

/-- A symbol between frames is noise or begins a frame. -/
theorem readsAs_scan (b : β) : ReadsAs F [b] [] (F.scan b) := by
  unfold scan
  split
  · rename_i hb
    subst hb
    exact readsAs_bytes (p := .opened) trivial
  · rename_i hb
    exact ⟨[.noise b], by simpa [Segment.Valid] using hb, rfl, rfl, trivial⟩

/-- **A step loses nothing**: the symbols held and the symbol fed are the segments completed and the
symbols still held. -/
theorem feed_readsAs {p p' : Pending β} {b : β} {out : List (List β)} (hp : F.Open p)
    (h : F.deframer.feed p b = some (p', out)) : ReadsAs F (F.bytes p ++ [b]) out p' := by
  cases fed_of_feed h with
  | idle => exact readsAs_scan b
  | opened => exact readsAs_bytes (p := .half b) trivial
  | half lo => exact readsAs_bytes (p := .inside lo b []) (.inl rfl)
  | skipped hv got =>
      -- nothing of the body is held, since the header does not announce one
      obtain rfl : got = [] := by
        rcases hp with hgot | ⟨n, hn, -⟩
        · exact hgot
        · rw [hv] at hn
          cases hn
      exact (readsAs_segment (g := .skipped _ _) hv).append (readsAs_scan b)
  | @complete lo hi got hv =>
      -- only an empty body is complete without `b`
      obtain rfl : got = [] := by
        rcases hp with hgot | ⟨n, hn, hlt⟩
        · exact hgot
        · rw [hv] at hn
          exact absurd (Verdict.body.inj hn) hlt.ne
      exact (readsAs_segment (g := .frame lo hi []) hv).append (readsAs_scan b)
  | @last lo hi got hv =>
      have hframe : (Segment.frame lo hi (got ++ [b])).Valid F := by
        rw [Segment.Valid, hv, List.length_append, List.length_singleton]
      exact readsAs_segment hframe
  | @more lo hi n hv got hne hne' =>
      refine readsAs_bytes (p := .inside lo hi (got ++ [b])) (.inr ⟨n, hv, ?_⟩)
      rw [List.length_append, List.length_singleton]
      rcases hp with rfl | ⟨m, hm, hlt⟩
      · simp only [List.length_nil] at hne hne' ⊢
        omega
      · rw [hv] at hm
        obtain rfl := Verdict.body.inj hm
        omega

/-- **A run loses nothing.** -/
theorem run_readsAs {p p' : Pending β} {w : List β} {out : List (List β)} (hp : F.Open p)
    (h : F.deframer.run p w = some (p', out)) : ReadsAs F (F.bytes p ++ w) out p' := by
  induction w generalizing p out with
  | nil =>
      obtain ⟨rfl, rfl⟩ := Prod.mk.inj (Option.some.inj h)
      rw [List.append_nil]
      exact readsAs_bytes hp
  | cons b w ih =>
      obtain ⟨p₁, out₁, out₂, hfeed, hrun, rfl⟩ := F.deframer.run_cons_eq_some_iff.mp h
      have hstep := feed_readsAs hp hfeed
      have hopen : F.Open p₁ := hstep.choose_spec.2.2.2
      have hsplit : F.bytes p ++ b :: w = F.bytes p ++ [b] ++ w := by simp
      rw [hsplit]
      exact hstep.append (ih hopen hrun)

/-- The deframer holds a bare header exactly when the stream ends in one, behind whole segments. -/
theorem held_header_iff {w : List β} {p : Pending β} {out : List (List β)}
    (h : F.deframer.run .idle w = some (p, out)) (lo hi : β) :
    p = .inside lo hi [] ↔ ∃ segs, (∀ g ∈ segs, Segment.Valid F g) ∧
      w = segmentBytes F segs ++ [F.start, lo, hi] := by
  constructor
  · rintro rfl
    obtain ⟨segs, hsegs, hw, -, -⟩ := run_readsAs (p := .idle) trivial h
    exact ⟨segs, hsegs, hw⟩
  · rintro ⟨segs, hsegs, rfl⟩
    rw [run_segments_append hsegs (by simp), run_header] at h
    exact (Prod.mk.inj (Option.some.inj h)).1.symm

/-- Whole segments and then a frame with a body leave the deframer idle, all bodies emitted. -/
theorem run_segments_frame {segs : List (Segment β)} (hsegs : ∀ g ∈ segs, g.Valid F) {lo hi : β}
    {body : List β} (hframe : (Segment.frame lo hi body).Valid F) (hbody : body ≠ []) :
    F.deframer.run .idle (segmentBytes F segs ++ F.start :: lo :: hi :: body)
      = some (.idle, segmentBodies segs ++ [body]) := by
  have hall : ∀ g ∈ segs ++ [.frame lo hi body], Segment.Valid F g := by
    intro g hg
    rcases List.mem_append.mp hg with hg | hg
    · exact hsegs g hg
    · rw [List.mem_singleton.mp hg]
      exact hframe
  have hlast : ∀ g ∈ (segs ++ [Segment.frame lo hi body]).getLast?, g.Settled := by
    rw [List.getLast?_concat]
    rintro g ⟨⟩
    exact hbody
  have hrun := run_segments hall hlast
  rw [segmentBytes_append, segmentBodies_append, segmentBytes_cons, segmentBytes_nil,
    List.append_nil] at hrun
  exact hrun

/-- The bodies that are emitted are those of the frames in the stream, behind whole segments. -/
theorem mem_bodies_iff {w : List β} {p : Pending β} {out : List (List β)}
    (h : F.deframer.run .idle w = some (p, out)) {body : List β} (hbody : body ≠ []) :
    body ∈ out ↔ ∃ segs lo hi rest, (∀ g ∈ segs, Segment.Valid F g) ∧
      (Segment.frame lo hi body).Valid F ∧
      w = segmentBytes F segs ++ (F.start :: lo :: hi :: body) ++ rest := by
  constructor
  · intro hmem
    obtain ⟨segs, hsegs, hw, rfl, -⟩ := run_readsAs (p := .idle) trivial h
    obtain ⟨g, hg, hgbody⟩ := List.mem_flatMap.mp hmem
    obtain ⟨before, after, rfl⟩ := List.append_of_mem hg
    cases g with
    | noise => simp [Segment.bodies] at hgbody
    | skipped => simp [Segment.bodies] at hgbody
    | frame lo hi body' =>
        obtain rfl : body = body' := by simpa [Segment.bodies] using hgbody
        refine ⟨before, lo, hi, segmentBytes F after ++ F.bytes p, ?_, hsegs _ hg, ?_⟩
        · exact fun g' hg' => hsegs g' (List.mem_append_left _ hg')
        · have hw' : w = segmentBytes F (before ++ .frame lo hi body :: after) ++ F.bytes p := hw
          rw [hw', segmentBytes_append, segmentBytes_cons]
          simp only [Segment.bytes, List.append_assoc]
  · rintro ⟨segs, lo, hi, rest, hsegs, hframe, rfl⟩
    obtain ⟨p₁, out₁, out₂, hfirst, -, rfl⟩ := F.deframer.run_append_eq_some_iff.mp h
    rw [run_segments_frame hsegs hframe hbody] at hfirst
    obtain ⟨-, rfl⟩ := Prod.mk.inj (Option.some.inj hfirst)
    simp

end Deframer

/-! ## Noise -/

/-- How many symbols other than the start symbol a state needs, at most, to come to rest, in a
format whose bodies have no more than `N` symbols. -/
def Format.need (F : Format β) (N : ℕ) : Pending β → ℕ
  | .idle => 0
  | .opened => N + 2
  | .half _ => N + 1
  | .inside lo hi got =>
      match F.verdict lo hi with
      | .body n => max 1 (n - got.length)
      | _ => 1

/-- How many frames a state can complete without another start symbol. -/
def Pending.frames : Pending β → ℕ
  | .idle => 0
  | _ => 1

variable {N : ℕ}

/-- No state needs more than a header's rest and the longest body. -/
theorem need_le (hmax : ∀ lo hi n, F.verdict lo hi = .body n → n ≤ N) (p : Pending β) :
    F.need N p ≤ N + 2 := by
  cases p with
  | idle => exact Nat.zero_le _
  | opened => exact le_rfl
  | half lo => exact Nat.le_succ _
  | inside lo hi got =>
      rw [need]
      split
      · rename_i n hv
        have hn := hmax lo hi n hv
        omega
      · omega

/-- Only the idle state needs nothing. -/
theorem eq_idle_of_need {p : Pending β} (h : F.need N p = 0) : p = .idle := by
  cases p with
  | idle => rfl
  | opened => cases h
  | half lo => cases h
  | inside lo hi got =>
      rw [need] at h
      split at h
      · omega
      · cases h

variable [DecidableEq β]

/-- **A symbol of noise is one symbol less to go**, and completes no frame that was not begun. -/
theorem feed_noise (hmax : ∀ lo hi n, F.verdict lo hi = .body n → n ≤ N) (hN : 1 ≤ N)
    {p p' : Pending β} {b : β} {out : List (List β)} (hp : F.Open p) (hb : b ≠ F.start)
    (h : F.deframer.feed p b = some (p', out)) :
    F.need N p' ≤ F.need N p - 1 ∧ out.length + p'.frames ≤ p.frames := by
  have hscan : F.scan b = .idle := if_neg hb
  cases fed_of_feed h with
  | idle =>
      rw [hscan]
      exact ⟨le_rfl, le_rfl⟩
  | opened => exact ⟨le_rfl, le_rfl⟩
  | half lo =>
      refine ⟨?_, le_rfl⟩
      show F.need N (.inside lo b []) ≤ N
      rw [need]
      split
      · rename_i n hv
        have hn := hmax lo b n hv
        rw [List.length_nil]
        omega
      · exact hN
  | skipped =>
      rw [hscan]
      exact ⟨Nat.zero_le _, Nat.zero_le _⟩
  | complete =>
      rw [hscan]
      exact ⟨Nat.zero_le _, le_rfl⟩
  | last => exact ⟨Nat.zero_le _, le_rfl⟩
  | @more lo hi n hv got hne hne' =>
      -- the body goes on, so that it still lacks two symbols before `b`
      refine ⟨?_, le_rfl⟩
      have hle : got.length ≤ n := by
        rcases hp with rfl | ⟨m, hm, hlt⟩
        · exact Nat.zero_le n
        · rw [hv] at hm
          obtain rfl := Verdict.body.inj hm
          exact hlt.le
      simp only [need, hv, List.length_append, List.length_singleton]
      omega

/-- **A run of noise brings the deframer to rest** at the pace of its symbols, and completes no more
than the frame that was begun before. -/
theorem run_noise (hmax : ∀ lo hi n, F.verdict lo hi = .body n → n ≤ N) (hN : 1 ≤ N)
    {p p' : Pending β} {w : List β} {out : List (List β)} (hp : F.Open p)
    (hw : ∀ b ∈ w, b ≠ F.start) (h : F.deframer.run p w = some (p', out)) :
    F.need N p' ≤ F.need N p - w.length ∧ out.length + p'.frames ≤ p.frames := by
  induction w generalizing p out with
  | nil =>
      obtain ⟨rfl, rfl⟩ := Prod.mk.inj (Option.some.inj h)
      exact ⟨le_rfl, (Nat.zero_add _).le⟩
  | cons b w ih =>
      obtain ⟨p₁, out₁, out₂, hfeed, hrun, rfl⟩ := F.deframer.run_cons_eq_some_iff.mp h
      have hopen : F.Open p₁ := (feed_readsAs hp hfeed).choose_spec.2.2.2
      obtain ⟨hneed, hframes⟩ := feed_noise hmax hN hp (hw b (by simp)) hfeed
      obtain ⟨hneed', hframes'⟩ := ih hopen (fun b' hb' => hw b' (by simp [hb'])) hrun
      rw [List.length_cons, List.length_append]
      omega

/-- **Noise of the length of a frame resynchronises**: it leaves the deframer idle, with at most one
frame completed on the way. -/
theorem run_noise_idle (hmax : ∀ lo hi n, F.verdict lo hi = .body n → n ≤ N) (hN : 1 ≤ N)
    {p p' : Pending β} {w : List β} {out : List (List β)} (hp : F.Open p)
    (hw : ∀ b ∈ w, b ≠ F.start) (hlen : N + 2 ≤ w.length)
    (h : F.deframer.run p w = some (p', out)) : p' = .idle ∧ out.length ≤ 1 := by
  obtain ⟨hneed, hframes⟩ := run_noise hmax hN hp hw h
  have hle := need_le hmax p
  have hone : p.frames ≤ 1 := by
    cases p with
    | idle => exact Nat.zero_le 1
    | _ => exact le_rfl
  refine ⟨eq_idle_of_need (F := F) (N := N) ?_, ?_⟩
  · omega
  · omega

end Framing
