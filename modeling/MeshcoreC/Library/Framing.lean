import MeshcoreC.Library.Transducer

/-! # Length-prefixed framing of a stream

Frames on a stream are a start symbol, a two-symbol header and a body whose length the header
announces. A format says, for every header, whether it announces a body, is to be skipped, or
wedges the receiver for good.

* **`Format.deframer`** — the transducer that turns the stream into frame bodies. A complete header
  is only judged when one more symbol arrives. `Fed` lists what a step can do.
* **`Segment`** — the grammar of streams: noise, skipped headers and frames; `run_segments_append`
  says that a stream of segments yields exactly the bodies of its frames, in order.
* **`run_eq_none_iff`** — the deframer gets stuck exactly on the streams that hold a wedging header
  in frame position, followed by at least one symbol.
* **`run_pending`** — from any open state the deframer behaves as if the symbols it still holds
  were fed again to the idle one.
* **`run_starts_le`** — the start symbols of the emitted frames, heads included, are all start
  symbols of the stream. -/

namespace Framing

open Streams

/-- What the two header symbols announce. -/
inductive Verdict
  /-- A body of that many symbols follows. -/
  | body (n : ℕ)
  /-- Not a frame: the header is dropped and the next symbol is looked at afresh. -/
  | skip
  /-- The receiver never comes back. -/
  | wedge
  deriving DecidableEq, Repr

/-- A framing format over the alphabet `β`. -/
structure Format (β : Type*) where
  /-- The start symbol. -/
  start : β
  /-- The verdict on a header. -/
  verdict : β → β → Verdict

/-- What the deframer holds of the frame it is inside of. -/
inductive Pending (β : Type*)
  /-- Between frames. -/
  | idle
  /-- The start symbol. -/
  | opened
  /-- The start symbol and the first header symbol. -/
  | half (lo : β)
  /-- The start symbol, the header and the first symbols of the body. -/
  | inside (lo hi : β) (got : List β)
  deriving DecidableEq, Repr

variable {β : Type*} {F : Format β}

namespace Format

/-- The symbols of the stream a state stands for. -/
def bytes (F : Format β) : Pending β → List β
  | .idle => []
  | .opened => [F.start]
  | .half lo => [F.start, lo]
  | .inside lo hi got => F.start :: lo :: hi :: got

/-- States the deframer is found in: a body, once begun, is never complete. -/
def Open (F : Format β) : Pending β → Prop
  | .inside lo hi got => got = [] ∨ ∃ n, F.verdict lo hi = .body n ∧ got.length < n
  | _ => True

end Format

/-! ## The grammar of streams -/

/-- A piece of a stream. -/
inductive Segment (β : Type*)
  /-- A symbol between frames that starts nothing. -/
  | noise (b : β)
  /-- A start symbol and a header that is skipped. -/
  | skipped (lo hi : β)
  /-- A whole frame. -/
  | frame (lo hi : β) (body : List β)
  deriving DecidableEq, Repr

namespace Segment

/-- What makes a segment one of its kind. -/
def Valid (F : Format β) : Segment β → Prop
  | .noise b => b ≠ F.start
  | .skipped lo hi => F.verdict lo hi = .skip
  | .frame lo hi body => F.verdict lo hi = .body body.length

/-- The symbols of a segment. -/
def bytes (F : Format β) : Segment β → List β
  | .noise b => [b]
  | .skipped lo hi => [F.start, lo, hi]
  | .frame lo hi body => F.start :: lo :: hi :: body

/-- The frame bodies of a segment. -/
def bodies : Segment β → List (List β)
  | .frame _ _ body => [body]
  | _ => []

/-- Segments after which the deframer is idle at once, without waiting for one more symbol. -/
def Settled : Segment β → Prop
  | .noise _ => True
  | .skipped _ _ => False
  | .frame _ _ body => body ≠ []

end Segment

/-- The symbols of a list of segments. -/
def segmentBytes (F : Format β) (segs : List (Segment β)) : List β :=
  segs.flatMap (Segment.bytes F)

/-- The frame bodies of a list of segments, in order. -/
def segmentBodies (segs : List (Segment β)) : List (List β) := segs.flatMap Segment.bodies

@[simp] theorem segmentBytes_nil : segmentBytes F [] = [] := rfl

@[simp] theorem segmentBodies_nil : segmentBodies ([] : List (Segment β)) = [] := rfl

@[simp] theorem segmentBytes_cons (g : Segment β) (segs : List (Segment β)) :
    segmentBytes F (g :: segs) = g.bytes F ++ segmentBytes F segs := rfl

@[simp] theorem segmentBodies_cons (g : Segment β) (segs : List (Segment β)) :
    segmentBodies (g :: segs) = g.bodies ++ segmentBodies segs := rfl

/-- Every segment has symbols. -/
theorem Segment.bytes_ne_nil (g : Segment β) : g.bytes F ≠ [] := by
  cases g with
  | noise b => exact List.cons_ne_nil _ _
  | skipped lo hi => exact List.cons_ne_nil _ _
  | frame lo hi body => exact List.cons_ne_nil _ _

/-- The symbols of a concatenation of segment lists. -/
theorem segmentBytes_append (segs segs' : List (Segment β)) :
    segmentBytes F (segs ++ segs') = segmentBytes F segs ++ segmentBytes F segs' :=
  List.flatMap_append

/-- The bodies of a concatenation of segment lists. -/
theorem segmentBodies_append (segs segs' : List (Segment β)) :
    segmentBodies (segs ++ segs') = segmentBodies segs ++ segmentBodies segs' :=
  List.flatMap_append

/-- The stream holds, in frame position, a header that wedges the receiver, and a symbol after
it. -/
def Wedges (F : Format β) (w : List β) : Prop :=
  ∃ segs lo hi b rest, (∀ g ∈ segs, Segment.Valid F g) ∧ F.verdict lo hi = .wedge ∧
    w = segmentBytes F segs ++ F.start :: lo :: hi :: b :: rest

/-- A leading segment does not change whether the stream wedges. -/
theorem Wedges.append {g : Segment β} (hg : g.Valid F) {w : List β} (h : Wedges F w) :
    Wedges F (g.bytes F ++ w) := by
  obtain ⟨segs, lo, hi, b, rest, hsegs, hv, rfl⟩ := h
  refine ⟨g :: segs, lo, hi, b, rest, ?_, hv, by simp⟩
  intro g' hg'
  rcases List.mem_cons.mp hg' with rfl | hg'
  exacts [hg, hsegs g' hg']

/-! ## The deframer -/

variable [DecidableEq β]

namespace Format

/-- Look at a symbol between frames. -/
def scan (F : Format β) (b : β) : Pending β := if b = F.start then .opened else .idle

/-- The deframer: a stream in, the bodies of its frames out. -/
def deframer (F : Format β) : Transducer (Pending β) β (List β) where
  feed
    | .idle, b => some (F.scan b, [])
    | .opened, b => some (.half b, [])
    | .half lo, b => some (.inside lo b [], [])
    | .inside lo hi got, b =>
        match F.verdict lo hi with
        | .wedge => none
        | .skip => some (F.scan b, [])
        | .body n =>
            -- an empty body is complete before `b` is looked at
            if got.length = n then some (F.scan b, [got])
            else if got.length + 1 = n then some (.idle, [got ++ [b]])
            else some (.inside lo hi (got ++ [b]), [])

end Format

open Format

/-! ## Running the deframer over the parts of a frame -/

@[simp] theorem feed_idle (b : β) : F.deframer.feed .idle b = some (F.scan b, []) := rfl

@[simp] theorem feed_opened (b : β) : F.deframer.feed .opened b = some (.half b, []) := rfl

@[simp] theorem feed_half (lo b : β) :
    F.deframer.feed (.half lo) b = some (.inside lo b [], []) := rfl

/-- The reading of a symbol inside a frame. -/
theorem feed_inside (lo hi : β) (got : List β) (b : β) :
    F.deframer.feed (.inside lo hi got) b =
      match F.verdict lo hi with
      | .wedge => none
      | .skip => some (F.scan b, [])
      | .body n =>
          if got.length = n then some (F.scan b, [got])
          else if got.length + 1 = n then some (.idle, [got ++ [b]])
          else some (.inside lo hi (got ++ [b]), []) := rfl

/-- What a step of the deframer can do: `Fed F p b p' out` reads the symbol `b` in state `p`. -/
inductive Fed (F : Format β) : Pending β → β → Pending β → List (List β) → Prop
  /-- Between frames: noise, or the start of a frame. -/
  | idle (b : β) : Fed F .idle b (F.scan b) []
  /-- The first header symbol. -/
  | opened (b : β) : Fed F .opened b (.half b) []
  /-- The second header symbol. -/
  | half (lo b : β) : Fed F (.half lo) b (.inside lo b []) []
  /-- The header is dropped, and `b` read as between frames. -/
  | skipped {lo hi : β} (hv : F.verdict lo hi = .skip) (got : List β) (b : β) :
      Fed F (.inside lo hi got) b (F.scan b) []
  /-- The body was complete before, and `b` is read as between frames. -/
  | complete {lo hi : β} {got : List β} (hv : F.verdict lo hi = .body got.length) (b : β) :
      Fed F (.inside lo hi got) b (F.scan b) [got]
  /-- The last symbol of a body. -/
  | last {lo hi : β} {got : List β} (hv : F.verdict lo hi = .body (got.length + 1)) (b : β) :
      Fed F (.inside lo hi got) b .idle [got ++ [b]]
  /-- Any other symbol of a body. -/
  | more {lo hi : β} {n : ℕ} (hv : F.verdict lo hi = .body n) {got : List β} (hne : got.length ≠ n)
      (hne' : got.length + 1 ≠ n) (b : β) :
      Fed F (.inside lo hi got) b (.inside lo hi (got ++ [b])) []

/-- **Every step that is not stuck is one of these.** -/
theorem fed_of_feed {p p' : Pending β} {b : β} {out : List (List β)}
    (h : F.deframer.feed p b = some (p', out)) : Fed F p b p' out := by
  cases p with
  | idle =>
      obtain ⟨rfl, rfl⟩ := Prod.mk.inj (Option.some.inj h)
      exact .idle b
  | opened =>
      obtain ⟨rfl, rfl⟩ := Prod.mk.inj (Option.some.inj h)
      exact .opened b
  | half lo =>
      obtain ⟨rfl, rfl⟩ := Prod.mk.inj (Option.some.inj h)
      exact .half lo b
  | inside lo hi got =>
      rw [feed_inside] at h
      cases hv : F.verdict lo hi with
      | wedge => simp [hv] at h
      | skip =>
          simp only [hv, Option.some.injEq, Prod.mk.injEq] at h
          obtain ⟨rfl, rfl⟩ := h
          exact .skipped hv got b
      | body n =>
          simp only [hv] at h
          by_cases hcomplete : got.length = n
          · rw [if_pos hcomplete] at h
            obtain ⟨rfl, rfl⟩ := Prod.mk.inj (Option.some.inj h)
            exact .complete (hcomplete ▸ hv) b
          rw [if_neg hcomplete] at h
          by_cases hlast : got.length + 1 = n
          · rw [if_pos hlast] at h
            obtain ⟨rfl, rfl⟩ := Prod.mk.inj (Option.some.inj h)
            exact .last (hlast ▸ hv) b
          · rw [if_neg hlast] at h
            obtain ⟨rfl, rfl⟩ := Prod.mk.inj (Option.some.inj h)
            exact .more hv hcomplete hlast b

/-- A start symbol and a header take the idle deframer inside the frame. -/
@[simp] theorem run_header (lo hi : β) :
    F.deframer.run .idle [F.start, lo, hi] = some (.inside lo hi [], []) := by
  simp [Transducer.run_cons, scan]

/-- The first symbols of a body are collected. -/
theorem run_inside_part {lo hi : β} {n : ℕ} (hv : F.verdict lo hi = .body n) (got more : List β)
    (hlt : got.length + more.length < n) :
    F.deframer.run (.inside lo hi got) more = some (.inside lo hi (got ++ more), []) := by
  induction more generalizing got with
  | nil => simp
  | cons b more ih =>
      rw [List.length_cons] at hlt
      have hfeed : F.deframer.feed (.inside lo hi got) b
          = some (.inside lo hi (got ++ [b]), []) := by
        rw [feed_inside, hv]
        simp only
        rw [if_neg (by omega), if_neg (by omega)]
      rw [Transducer.run_cons_of_feed _ hfeed, ih _ (by simp; omega)]
      simp

/-- The last symbols of a body complete the frame. -/
theorem run_inside_rest {lo hi : β} {n : ℕ} (hv : F.verdict lo hi = .body n) (got more : List β)
    (hne : more ≠ []) (hlen : got.length + more.length = n) :
    F.deframer.run (.inside lo hi got) more = some (.idle, [got ++ more]) := by
  -- all but the last symbol only fill the body
  obtain ⟨init, b, rfl⟩ := List.eq_nil_or_concat more |>.resolve_left hne
  rw [List.concat_eq_append] at hlen ⊢
  rw [List.length_append, List.length_singleton] at hlen
  have hpart := run_inside_part hv got init (by omega)
  rw [Transducer.run_append_of_run _ hpart, prepend_nil]
  have hfeed : F.deframer.feed (.inside lo hi (got ++ init)) b
      = some (.idle, [got ++ init ++ [b]]) := by
    rw [feed_inside, hv]
    simp only [List.length_append]
    rw [if_neg (by omega), if_pos (by omega)]
  rw [Transducer.run_cons_of_feed _ hfeed]
  simp

/-! ## Running over segments -/

/-- A settled segment leaves the deframer idle, with its bodies emitted. -/
theorem run_settled {g : Segment β} (hg : g.Valid F) (hs : g.Settled) :
    F.deframer.run .idle (g.bytes F) = some (.idle, g.bodies) := by
  cases g with
  | noise b =>
      have hb : b ≠ F.start := hg
      simp [Segment.bytes, Segment.bodies, Transducer.run_cons, scan, hb]
  | skipped => exact hs.elim
  | frame lo hi body =>
      have hbytes : (Segment.frame lo hi body).bytes F = [F.start, lo, hi] ++ body := rfl
      rw [hbytes, Transducer.run_append_of_run _ (run_header lo hi), prepend_nil,
        run_inside_rest hg [] body hs (by simp)]
      rfl

/-- A segment followed by more of the stream is consumed whole, and its bodies are emitted. -/
theorem run_segment_append {g : Segment β} (hg : g.Valid F) {rest : List β} (hrest : rest ≠ []) :
    F.deframer.run .idle (g.bytes F ++ rest) = prepend g.bodies (F.deframer.run .idle rest) := by
  by_cases hs : g.Settled
  · exact Transducer.run_append_of_run _ (run_settled hg hs) rest
  · -- a skipped header or an empty frame is judged when the first symbol of `rest` arrives
    obtain ⟨b, rest, rfl⟩ := List.exists_cons_of_ne_nil hrest
    have hheader : ∀ lo hi : β, ∀ out : List (List β),
        F.deframer.feed (.inside lo hi []) b = some (F.scan b, out) →
        F.deframer.run .idle ([F.start, lo, hi] ++ b :: rest)
          = prepend out (F.deframer.run .idle (b :: rest)) := by
      intro lo hi out hfeed
      rw [Transducer.run_append_of_run _ (run_header lo hi), prepend_nil,
        Transducer.run_cons_of_feed _ hfeed, Transducer.run_cons_of_feed _ (feed_idle b),
        prepend_nil]
    cases g with
    | noise => exact absurd trivial hs
    | skipped lo hi =>
        have hv : F.verdict lo hi = .skip := hg
        exact hheader lo hi [] (by rw [feed_inside, hv])
    | frame lo hi body =>
        obtain rfl : body = [] := not_not.mp hs
        have hv : F.verdict lo hi = .body 0 := hg
        exact hheader lo hi [[]] (by rw [feed_inside, hv]; rfl)

/-- **A stream of segments yields exactly its frames.** Followed by more of the stream, the
segments are consumed whole and the bodies of their frames are emitted in order. -/
theorem run_segments_append {segs : List (Segment β)} (hsegs : ∀ g ∈ segs, g.Valid F)
    {rest : List β} (hrest : rest ≠ []) :
    F.deframer.run .idle (segmentBytes F segs ++ rest)
      = prepend (segmentBodies segs) (F.deframer.run .idle rest) := by
  induction segs with
  | nil => simp
  | cons g segs ih =>
      have hg : g.Valid F := hsegs g (by simp)
      rw [segmentBytes_cons, List.append_assoc, run_segment_append hg (by simp [hrest]),
        ih (fun g' hg' => hsegs g' (by simp [hg'])), prepend_prepend, segmentBodies_cons]

/-- A stream of segments that ends in a settled one leaves the deframer idle. -/
theorem run_segments {segs : List (Segment β)} (hsegs : ∀ g ∈ segs, g.Valid F)
    (hlast : ∀ g ∈ segs.getLast?, g.Settled) :
    F.deframer.run .idle (segmentBytes F segs) = some (.idle, segmentBodies segs) := by
  rcases List.eq_nil_or_concat segs with rfl | ⟨init, g, rfl⟩
  · rfl
  · rw [List.concat_eq_append] at hsegs hlast ⊢
    -- the last segment is what follows the others, so that they are consumed whole
    have hg : g.Valid F := hsegs g (by simp)
    have hs : g.Settled := hlast g (by simp)
    have hne : segmentBytes F [g] ≠ [] := by
      rw [segmentBytes_cons, segmentBytes_nil, List.append_nil]
      exact g.bytes_ne_nil
    rw [segmentBytes_append, run_segments_append (fun g' hg' => hsegs g' (by simp [hg'])) hne,
      segmentBodies_append]
    simp [run_settled hg hs]

/-- A stream of segments that ends in a skipped header leaves the deframer holding that header. -/
theorem run_segments_skipped {segs : List (Segment β)} (hsegs : ∀ g ∈ segs, g.Valid F)
    (lo hi : β) :
    F.deframer.run .idle (segmentBytes F (segs ++ [.skipped lo hi]))
      = some (.inside lo hi [], segmentBodies (segs ++ [.skipped lo hi])) := by
  have hbytes : segmentBytes F [.skipped lo hi] = [F.start, lo, hi] := rfl
  rw [segmentBytes_append, hbytes, run_segments_append hsegs (by simp), run_header,
    segmentBodies_append]
  rfl

/-! ## Where the deframer gets stuck -/

/-- Behind a header that announces a body, a stream on which the deframer gets stuck holds the whole
body and more. -/
theorem exists_frame_of_stuck {lo hi : β} {n : ℕ} (hv : F.verdict lo hi = .body n) {w : List β}
    (hne : w ≠ []) (hrun : F.deframer.run (.inside lo hi []) w = none) :
    ∃ body rest, body.length = n ∧ rest ≠ [] ∧ w = body ++ rest := by
  by_cases hn : n < w.length
  · refine ⟨w.take n, w.drop n, ?_, ?_, (List.take_append_drop n w).symm⟩
    · rw [List.length_take]
      omega
    · rw [Ne, List.drop_eq_nil_iff]
      omega
  · -- the stream is over before the frame is, or at its end: the run is not stuck
    exfalso
    rcases Nat.lt_or_eq_of_le (not_lt.mp hn) with hlt | heq
    · rw [run_inside_part hv [] w (by simpa using hlt)] at hrun
      exact absurd hrun (by simp)
    · rw [run_inside_rest hv [] w hne (by simpa using heq)] at hrun
      exact absurd hrun (by simp)

/-- A stream on which the deframer gets stuck begins with a wedging header and one more symbol, or
with a whole segment and more of the stream. -/
theorem cases_of_stuck {w : List β} (hrun : F.deframer.run .idle w = none) :
    (∃ lo hi b rest, F.verdict lo hi = .wedge ∧ w = F.start :: lo :: hi :: b :: rest) ∨
      ∃ g rest, Segment.Valid F g ∧ rest ≠ [] ∧ w = g.bytes F ++ rest := by
  match w, hrun with
  | [], hrun => exact absurd hrun (by simp)
  | b :: w, hrun =>
      by_cases hb : b = F.start
      · subst hb
        -- a start symbol and an incomplete or unjudged header do not get the deframer stuck
        match w, hrun with
        | [], hrun => exact absurd hrun (by simp [Transducer.run_cons])
        | [lo], hrun => exact absurd hrun (by simp [Transducer.run_cons, scan])
        | [lo, hi], hrun => exact absurd hrun (by simp)
        | lo :: hi :: c :: w, hrun =>
            cases hv : F.verdict lo hi with
            | wedge => exact .inl ⟨lo, hi, c, w, hv, rfl⟩
            | skip => exact .inr ⟨.skipped lo hi, c :: w, hv, List.cons_ne_nil _ _, rfl⟩
            | body n =>
                have hsplit : F.start :: lo :: hi :: c :: w = [F.start, lo, hi] ++ c :: w := rfl
                rw [hsplit, Transducer.run_append_of_run _ (run_header lo hi), prepend_nil] at hrun
                obtain ⟨body, rest, rfl, hrest, heq⟩ :=
                  exists_frame_of_stuck hv (List.cons_ne_nil _ _) hrun
                refine .inr ⟨.frame lo hi body, rest, hv, hrest, ?_⟩
                rw [heq]
                rfl
      · refine .inr ⟨.noise b, w, hb, ?_, rfl⟩
        rintro rfl
        exact absurd hrun (by simp [Transducer.run_cons])

/-- A stream on which the deframer gets stuck wedges. -/
theorem wedges_of_stuck (w : List β) (hrun : F.deframer.run .idle w = none) : Wedges F w := by
  -- by induction on the length: each segment that is stripped leaves a shorter stuck stream
  induction hn : w.length using Nat.strongRecOn generalizing w with
  | _ n ih =>
      rcases cases_of_stuck hrun with ⟨lo, hi, b, rest, hv, rfl⟩ | ⟨g, rest, hg, hrest, rfl⟩
      · exact ⟨[], lo, hi, b, rest, by simp, hv, rfl⟩
      · have hlt : rest.length < n := by
          have hpos := List.length_pos_of_ne_nil (g.bytes_ne_nil (F := F))
          rw [← hn, List.length_append]
          omega
        rw [run_segment_append hg hrest, prepend_eq_none] at hrun
        exact (ih _ hlt rest hrun rfl).append hg

/-- **The deframer gets stuck exactly on wedging streams.** -/
theorem run_eq_none_iff (w : List β) : F.deframer.run .idle w = none ↔ Wedges F w := by
  refine ⟨wedges_of_stuck w, ?_⟩
  rintro ⟨segs, lo, hi, b, rest, hsegs, hv, rfl⟩
  have hfeed : F.deframer.feed (.inside lo hi []) b = none := by rw [feed_inside, hv]
  have hrun : F.deframer.run .idle (F.start :: lo :: hi :: b :: rest) = none := by
    have hsplit : F.start :: lo :: hi :: b :: rest = [F.start, lo, hi] ++ b :: rest := rfl
    rw [hsplit, Transducer.run_append_of_run _ (run_header lo hi), Transducer.run_cons, hfeed]
    rfl
  rw [run_segments_append hsegs (by simp), hrun, prepend_none]

/-! ## Open states -/

/-- The idle deframer, fed the symbols of an open state, is in that state. -/
theorem run_bytes {p : Pending β} (hp : F.Open p) :
    F.deframer.run .idle (F.bytes p) = some (p, []) := by
  cases p with
  | idle => rfl
  | opened => simp [Format.bytes, Transducer.run_cons, scan]
  | half lo => simp [Format.bytes, Transducer.run_cons, scan]
  | inside lo hi got =>
      have hbytes : F.bytes (.inside lo hi got) = [F.start, lo, hi] ++ got := rfl
      rw [hbytes, Transducer.run_append_of_run _ (run_header lo hi), prepend_nil]
      rcases hp with rfl | ⟨n, hv, hlt⟩
      · rfl
      · rw [run_inside_part hv [] got (by simpa using hlt), List.nil_append]

/-- **An open state stands for the symbols it holds**: running from it is running the idle deframer
on these symbols and then on the stream. -/
theorem run_pending {p : Pending β} (hp : F.Open p) (w : List β) :
    F.deframer.run p w = F.deframer.run .idle (F.bytes p ++ w) := by
  rw [Transducer.run_append_of_run _ (run_bytes hp), prepend_nil]

/-! ## Start symbols inside bodies -/

/-- The start symbols a list of emitted frames accounts for: its own and those of its body. -/
def frameStarts (F : Format β) (bodies : List (List β)) : ℕ :=
  (bodies.map fun body => body.count F.start + 1).sum

/-- A step accounts for no more start symbols than it has seen. -/
theorem feed_starts_le {p p' : Pending β} {b : β} {out : List (List β)}
    (h : F.deframer.feed p b = some (p', out)) :
    frameStarts F out + (F.bytes p').count F.start
      ≤ (F.bytes p).count F.start + [b].count F.start := by
  have hscan : (F.bytes (F.scan b)).count F.start ≤ [b].count F.start := by
    unfold scan
    split
    · rename_i hb
      simp [Format.bytes, hb]
    · simp [Format.bytes]
  cases fed_of_feed h with
  | idle => simpa [frameStarts, Format.bytes] using hscan
  | opened => simp [frameStarts, Format.bytes, List.count_cons]
  | half lo =>
      simp [frameStarts, Format.bytes, List.count_cons]
      omega
  | skipped =>
      -- the symbols of the header are dropped and only `b` is kept
      simp only [frameStarts, List.map_nil, List.sum_nil]
      omega
  | complete =>
      -- the frame and its start symbol are emitted
      simp only [frameStarts, Format.bytes, List.count_cons, List.map_cons, List.map_nil,
        List.sum_cons, List.sum_nil, beq_self_eq_true, if_true] at hscan ⊢
      omega
  | last =>
      simp only [frameStarts, Format.bytes, List.count_append, List.count_cons, List.count_nil,
        List.map_cons, List.map_nil, List.sum_cons, List.sum_nil, beq_self_eq_true, if_true]
      omega
  | more =>
      simp only [frameStarts, Format.bytes, List.count_append, List.count_cons, List.count_nil,
        List.map_nil, List.sum_nil, beq_self_eq_true, if_true]
      omega

/-- **The start symbols of the emitted frames are start symbols of the stream.** -/
theorem run_starts_le {p p' : Pending β} {w : List β} {out : List (List β)}
    (h : F.deframer.run p w = some (p', out)) :
    frameStarts F out + (F.bytes p').count F.start
      ≤ (F.bytes p).count F.start + w.count F.start := by
  induction w generalizing p out with
  | nil =>
      obtain ⟨rfl, rfl⟩ := Prod.mk.inj (Option.some.inj h)
      simp [frameStarts]
  | cons b w ih =>
      obtain ⟨p₁, out₁, out₂, hfeed, hrun, rfl⟩ := F.deframer.run_cons_eq_some_iff.mp h
      have hstep := feed_starts_le hfeed
      have hrun' := ih hrun
      have hcons : (b :: w).count F.start = [b].count F.start + w.count F.start := by
        rw [← List.count_append]; rfl
      simp only [frameStarts, List.map_append, List.sum_append] at hstep hrun' ⊢
      omega

end Framing
