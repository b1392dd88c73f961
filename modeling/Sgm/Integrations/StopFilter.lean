/-
# Masking stop sequences in a stream

`SlidingWindowStopFilter` of `daemon/integrations/tgi.py`: the text comes in
chunks, and what may still turn out to be a stop sequence is held back. While
no stop sequence has been completed, what was emitted and what is held make up
the text, and what is held is the longest suffix of the text that begins a
stop sequence (`Open`). The chunk that completes one closes the filter: the
text is cut where the first *listed* stop sequence found in it starts
(`Open.feed_hit`), which depends on where the chunk ends when the list has
another order than the text.

Key definitions: `SlidingWindowStopFilter`, `feed`, `flushFinal`, `feeds`, `emitted`, `Open`,
`Closed`, `Masked`, `OneStart`.
Key theorems: `Open.feed_hit`, `Open.feed_miss`, `feeds_exact`, `masked_iff`, `oneStart_singleton`.
-/
import Sgm.Lib.Occurrence
import Sgm.Lib.PyStr

namespace Sgm

open Occurrence

/-- Holds back what may be a part of a stop sequence. Text is a Python
string. -/
structure SlidingWindowStopFilter where
  stopSequences : List PyStr
  buffer : PyStr := []
  matchedStop : Bool := false
  nonempty : ∀ stop ∈ stopSequences, stop ≠ []

namespace SlidingWindowStopFilter

def new (stopSequences : Option (List PyStr)) : SlidingWindowStopFilter where
  stopSequences := (stopSequences.getD []).filter fun s => s ≠ []
  nonempty := by simp

/-- `any(stop.startswith(s) for stop in self.stop_sequences)` -/
def startsStop (f : SlidingWindowStopFilter) (s : PyStr) : Bool :=
  f.stopSequences.any fun stop => s.isPrefixOf stop

/-- The length of the longest suffix of `candidate`, not the whole of it, that
begins a stop sequence. -/
def longestMatchingSuffixLen (f : SlidingWindowStopFilter) (candidate : PyStr) : ℕ :=
  match (List.range' 1 (candidate.length - 1)).find? fun i => f.startsStop (candidate.drop i) with
  | some i => (candidate.drop i).length
  | none => 0

/-- The filter after a chunk, and the strings that are safe to emit. -/
def feed (f : SlidingWindowStopFilter) (text : PyStr) : SlidingWindowStopFilter × List PyStr :=
  if f.matchedStop ∨ text = [] then (f, [])
  else if f.stopSequences = [] then (f, [text])
  else
    let candidate := f.buffer ++ text
    match listed? f.stopSequences candidate with
    | some idx =>
      let prefixSafe := candidate.take idx
      ({ f with buffer := [], matchedStop := true }, if prefixSafe ≠ [] then [prefixSafe] else [])
    | none =>
      if f.startsStop candidate then ({ f with buffer := candidate }, [])
      else
        let longest := f.longestMatchingSuffixLen candidate
        if 0 < longest then
          let safeLen := candidate.length - longest
          let safeText := candidate.take safeLen
          ({ f with buffer := candidate.drop safeLen }, if safeText ≠ [] then [safeText] else [])
        else ({ f with buffer := [] }, [candidate])

/-- What is left at the end of the generation. -/
def flushFinal (f : SlidingWindowStopFilter) : SlidingWindowStopFilter × List PyStr :=
  if f.matchedStop ∨ f.buffer = [] then ({ f with buffer := [] }, [])
  else
    match f.stopSequences.find? fun stop => stop.isSuffixOf f.buffer with
    | some stop =>
      let trimmed := f.buffer.take (f.buffer.length - stop.length)
      ({ f with buffer := [] }, if trimmed ≠ [] then [trimmed] else [])
    | none =>
      if f.startsStop f.buffer then ({ f with buffer := [] }, [])
      else ({ f with buffer := [] }, [f.buffer])

/-- Chunks fed one after the other. -/
def feeds (f : SlidingWindowStopFilter) : List PyStr → SlidingWindowStopFilter × List PyStr
  | [] => (f, [])
  | chunk :: chunks =>
    let fed := f.feed chunk
    let rest := fed.1.feeds chunks
    (rest.1, fed.2 ++ rest.2)

/-- Everything a fresh filter emits for the chunks and the end of the stream. -/
def emitted (stopSequences : List PyStr) (chunks : List PyStr) : PyStr :=
  let fed := (new (some stopSequences)).feeds chunks
  (fed.2 ++ fed.1.flushFinal.2).flatten

/-! ### Before a stop sequence is completed -/

theorem startsStop_iff {f : SlidingWindowStopFilter} {s : PyStr} :
    f.startsStop s = true ↔ ∃ w ∈ f.stopSequences, s <+: w := by
  simp [startsStop]

/-- What the search over the suffixes keeps, when the whole does not begin a
stop sequence. -/
theorem held_drop {f : SlidingWindowStopFilter} {candidate : PyStr}
    (hn : f.startsStop candidate = false) :
    Held f.stopSequences candidate
      (candidate.drop (candidate.length - f.longestMatchingSuffixLen candidate)) := by
  -- a suffix that begins a stop sequence is not the whole
  have hproper : ∀ x, x <:+ candidate → (∃ w ∈ f.stopSequences, x <+: w) →
      x.length < candidate.length := by
    intro x hx hw
    by_contra hle
    have : x = candidate := hx.eq_of_length_le (by omega)
    subst this
    rw [startsStop_iff.mpr hw] at hn
    cases hn
  unfold longestMatchingSuffixLen
  cases hfind : (List.range' 1 (candidate.length - 1)).find?
      fun i => f.startsStop (candidate.drop i) with
  | none =>
    have hnone := List.find?_eq_none.mp hfind
    have hempty : candidate.drop (candidate.length - 0) = [] := by simp
    show Held f.stopSequences candidate (candidate.drop (candidate.length - 0))
    rw [hempty]
    refine ⟨List.nil_suffix, fun h => absurd rfl h, ?_⟩
    intro x hx hw
    by_contra hpos
    have hlt := hproper x hx hw
    have hx' : x = candidate.drop (candidate.length - x.length) := List.suffix_iff_eq_drop.mp hx
    refine hnone (candidate.length - x.length) ?_ ?_
    · rw [List.mem_range'_1]
      simp only [List.length_nil] at hpos
      omega
    · rw [← hx']
      exact startsStop_iff.mpr hw
  | some i =>
    obtain ⟨hi, hmem, hmin⟩ := List.find?_range'_eq_some.mp hfind
    rw [List.mem_range'_1] at hmem
    have hback : candidate.length - (candidate.drop i).length = i := by
      rw [List.length_drop]
      omega
    show Held f.stopSequences candidate (candidate.drop (candidate.length - (candidate.drop i).length))
    rw [hback]
    refine ⟨List.drop_suffix i candidate, fun _ => startsStop_iff.mp hi, ?_⟩
    intro x hx hw
    by_contra hlong
    have hlt := hproper x hx hw
    rw [List.length_drop] at hlong
    have hx' : x = candidate.drop (candidate.length - x.length) := List.suffix_iff_eq_drop.mp hx
    have := hmin (candidate.length - x.length) (by omega) (by omega)
    rw [← hx', startsStop_iff.mpr hw] at this
    simp at this

/-- No stop sequence is complete in `text`: what was emitted and what is held
make it up, and no more is held than must be. -/
structure Open (stops : List PyStr) (text out : PyStr) (f : SlidingWindowStopFilter) :
    Prop where
  stops_eq : f.stopSequences = stops
  unmatched : f.matchedStop = false
  none_yet : ¬ Hit stops text
  held : Held stops text f.buffer
  whole : out ++ f.buffer = text

/-- A stop sequence was completed in `text`, and the output ends where the
first listed one starts in a part `p` that holds one. -/
structure Closed (stops : List PyStr) (text out : PyStr) (f : SlidingWindowStopFilter) :
    Prop where
  matched : f.matchedStop = true
  cut : ∃ p i, p <+: text ∧ listed? stops p = some i ∧ out = text.take i

section Feed

variable {stops : List PyStr} {text out : PyStr} {f : SlidingWindowStopFilter}

theorem open_new (stopSequences : List PyStr) :
    Open (stopSequences.filter fun s => s ≠ []) [] [] (new (some stopSequences)) := by
  refine ⟨rfl, rfl, not_hit_nil ?_, Held.nil, rfl⟩
  exact (new (some stopSequences)).nonempty

theorem flatten_ite (s : PyStr) : (if s ≠ [] then [s] else []).flatten = s := by
  by_cases h : s = []
  · simp [h]
  · simp [h]

/-- The chunk that completes a stop sequence. -/
theorem Open.feed_hit (h : Open stops text out f) {chunk : PyStr} {i : ℕ}
    (hi : listed? stops (text ++ chunk) = some i) :
    (f.feed chunk).1.matchedStop = true ∧
      out ++ (f.feed chunk).2.flatten = (text ++ chunk).take i := by
  have hne : chunk ≠ [] := by
    intro hc
    subst hc
    rw [List.append_nil] at hi
    exact h.none_yet (hit_of_listed? hi)
  have hstops : stops ≠ [] := by
    intro hs
    subst hs
    cases hi
  -- the search finds it from the buffer on
  rw [h.held.listed?_append h.none_yet chunk] at hi
  obtain ⟨k, hk, hki⟩ := Option.map_eq_some_iff.mp hi
  have hout : out.length = text.length - f.buffer.length := by
    rw [← h.whole, List.length_append]
    omega
  have hcut : (text ++ chunk).take i = out ++ (f.buffer ++ chunk).take k := by
    rw [← h.whole, List.append_assoc, ← hki, ← hout, List.take_append,
      List.take_of_length_le (by omega), Nat.add_sub_cancel_left]
  have hfeed : f.feed chunk = ({ f with buffer := [], matchedStop := true },
      if (f.buffer ++ chunk).take k ≠ [] then [(f.buffer ++ chunk).take k] else []) := by
    simp [feed, h.unmatched, hne, h.stops_eq, hstops, hk]
  rw [hfeed, hcut, flatten_ite]
  exact ⟨rfl, rfl⟩

/-- A chunk that completes none. -/
theorem Open.feed_miss (h : Open stops text out f) {chunk : PyStr} (hn : ¬ Hit stops (text ++ chunk)) :
    Open stops (text ++ chunk) (out ++ (f.feed chunk).2.flatten) (f.feed chunk).1 := by
  by_cases hc : chunk = []
  · subst hc
    have hfeed : f.feed [] = (f, []) := by simp [feed]
    rw [hfeed]
    simpa using h
  by_cases hs : stops = []
  · have hfeed : f.feed chunk = (f, [chunk]) := by simp [feed, h.unmatched, hc, h.stops_eq, hs]
    have hbuf : f.buffer = [] := by
      by_contra hb
      obtain ⟨w, hw, _⟩ := h.held.begins hb
      rw [hs] at hw
      cases hw
    rw [hfeed]
    refine ⟨h.stops_eq, h.unmatched, hn, ?_, ?_⟩
    · show Held stops (text ++ chunk) f.buffer
      rw [hbuf, hs]
      refine ⟨List.nil_suffix, fun h => absurd rfl h, ?_⟩
      intro x _ hw
      obtain ⟨w, hw, _⟩ := hw
      cases hw
    · have hw := h.whole
      rw [hbuf, List.append_nil] at hw ⊢
      rw [hw]
      simp
  obtain ⟨candidate, hcand⟩ : ∃ candidate, f.buffer ++ chunk = candidate := ⟨_, rfl⟩
  have happend : ∀ {b}, Held stops candidate b → Held stops (text ++ chunk) b := by
    intro b hb
    rw [← hcand] at hb
    exact h.held.append hb
  have hlisted : listed? stops candidate = none := by
    have := h.held.listed?_append h.none_yet chunk
    rw [listed?_eq_none_iff.mpr hn, hcand] at this
    exact Option.map_eq_none_iff.mp this.symm
  have htext : out ++ candidate = text ++ chunk := by
    rw [← hcand, ← List.append_assoc, h.whole]
  by_cases hwhole : f.startsStop candidate = true
  · -- the whole candidate may be a stop sequence
    have hheld : Held stops candidate candidate := by
      refine ⟨List.suffix_rfl, fun _ => ?_, fun x hx _ => hx.length_le⟩
      rw [← h.stops_eq]
      exact startsStop_iff.mp hwhole
    have hfeed : f.feed chunk = ({ f with buffer := candidate }, []) := by
      simp [feed, h.unmatched, hc, h.stops_eq, hs, hcand, hlisted, hwhole]
    rw [hfeed]
    exact ⟨h.stops_eq, h.unmatched, hn, happend hheld, by simpa using htext⟩
  have hnot : f.startsStop candidate = false := by simpa using hwhole
  have hheld := held_drop hnot
  rw [h.stops_eq] at hheld
  obtain ⟨safeLen, hsafe⟩ : ∃ n, candidate.length - f.longestMatchingSuffixLen candidate = n := ⟨_, rfl⟩
  rw [hsafe] at hheld
  by_cases hpos : 0 < f.longestMatchingSuffixLen candidate
  · have hfeed : f.feed chunk = ({ f with buffer := candidate.drop safeLen },
        if candidate.take safeLen ≠ [] then [candidate.take safeLen] else []) := by
      simp [feed, h.unmatched, hc, h.stops_eq, hs, hcand, hlisted, hwhole, hpos, hsafe]
    rw [hfeed, flatten_ite]
    refine ⟨h.stops_eq, h.unmatched, hn, happend hheld, ?_⟩
    show out ++ candidate.take safeLen ++ candidate.drop safeLen = text ++ chunk
    rw [List.append_assoc, List.take_append_drop, htext]
  · have hdrop : candidate.drop safeLen = [] := List.drop_eq_nil_of_le (by omega)
    have hfeed : f.feed chunk = ({ f with buffer := [] }, [candidate]) := by
      simp [feed, h.unmatched, hc, h.stops_eq, hs, hcand, hlisted, hwhole, hpos]
    rw [hdrop] at hheld
    rw [hfeed]
    exact ⟨h.stops_eq, h.unmatched, hn, happend hheld, by simpa using htext⟩

theorem feed_matched (h : f.matchedStop = true) (chunk : PyStr) : f.feed chunk = (f, []) := by
  simp [feed, h]

theorem feeds_matched (h : f.matchedStop = true) (chunks : List PyStr) :
    f.feeds chunks = (f, []) := by
  induction chunks with
  | nil => rfl
  | cons chunk chunks ih => simp [feeds, feed_matched h, ih]

/-- Of any chunks: no stop sequence is complete in the text, or the filter is
closed. -/
theorem Open.feeds (h : Open stops text out f) (hstops : ∀ s ∈ stops, s ≠ []) (chunks : List PyStr) :
    Open stops (text ++ chunks.flatten) (out ++ (f.feeds chunks).2.flatten) (f.feeds chunks).1 ∨
    Closed stops (text ++ chunks.flatten) (out ++ (f.feeds chunks).2.flatten) (f.feeds chunks).1 := by
  induction chunks generalizing text out f with
  | nil =>
    left
    simpa [SlidingWindowStopFilter.feeds] using h
  | cons chunk chunks ih =>
    have htext : text ++ (chunk :: chunks).flatten = text ++ chunk ++ chunks.flatten := by simp
    cases hi : listed? stops (text ++ chunk) with
    | none =>
      have := ih (h.feed_miss (listed?_eq_none_iff.mp hi))
      rw [htext]
      simpa [SlidingWindowStopFilter.feeds] using this
    | some i =>
      right
      obtain ⟨hmatched, hout⟩ := h.feed_hit hi
      have hfeeds : f.feeds (chunk :: chunks) = ((f.feed chunk).1, (f.feed chunk).2) := by
        simp [SlidingWindowStopFilter.feeds, feeds_matched hmatched]
      rw [hfeeds, htext]
      refine ⟨hmatched, text ++ chunk, i, List.prefix_append _ _, hi, ?_⟩
      rw [hout, List.take_append_of_le_length (listed?_lt hstops hi).le]

theorem Open.flushFinal (h : Open stops text out f) : f.flushFinal.2 = [] := by
  unfold SlidingWindowStopFilter.flushFinal
  by_cases hb : f.buffer = []
  · simp [hb]
  rw [if_neg (by simp [h.unmatched, hb])]
  have hnone : f.stopSequences.find? (fun stop => stop.isSuffixOf f.buffer) = none := by
    rw [List.find?_eq_none]
    intro stop hstop hsuf
    have h1 : stop <:+ f.buffer := by simpa using hsuf
    exact h.none_yet ⟨stop, h.stops_eq ▸ hstop, (h1.trans h.held.suffix).isInfix⟩
  have hstart : f.startsStop f.buffer = true := by
    rw [startsStop_iff, h.stops_eq]
    exact h.held.begins hb
  rw [hnone]
  simp [hstart]

theorem flushFinal_matched (h : f.matchedStop = true) : f.flushFinal.2 = [] := by
  simp [SlidingWindowStopFilter.flushFinal, h]

/-! ### At every point of a stream -/

/-- A filter as some stream leaves it. -/
def Used (f : SlidingWindowStopFilter) : Prop :=
  f.matchedStop = true ∨ ∃ stops text out, Open stops text out f

theorem used_new (stopSequences : Option (List PyStr)) : Used (new stopSequences) := by
  cases stopSequences with
  | none => exact Or.inr ⟨_, _, _, open_new []⟩
  | some stops => exact Or.inr ⟨_, _, _, open_new stops⟩

theorem Used.feed (h : Used f) (chunk : PyStr) : Used (f.feed chunk).1 := by
  rcases h with hmatched | ⟨stops, text, out, hopen⟩
  · rw [feed_matched hmatched]
    exact Or.inl hmatched
  · cases hi : listed? stops (text ++ chunk) with
    | some i => exact Or.inl (hopen.feed_hit hi).1
    | none => exact Or.inr ⟨_, _, _, hopen.feed_miss (listed?_eq_none_iff.mp hi)⟩

/-- Nothing is left to flush. -/
theorem Used.flushFinal (h : Used f) : f.flushFinal.2 = [] := by
  rcases h with hmatched | ⟨stops, text, out, hopen⟩
  · exact flushFinal_matched hmatched
  · exact hopen.flushFinal

theorem length_ite (s : PyStr) : (if s ≠ [] then [s] else []).length ≤ 1 := by
  split <;> simp

/-- A chunk lets one string through at most. -/
theorem length_feed (f : SlidingWindowStopFilter) (chunk : PyStr) : (f.feed chunk).2.length ≤ 1 := by
  unfold SlidingWindowStopFilter.feed
  split
  · exact Nat.zero_le 1
  · split
    · exact Nat.le_refl 1
    · dsimp only
      split
      · exact length_ite _
      · split
        · exact Nat.zero_le 1
        · split
          · exact length_ite _
          · exact Nat.le_refl 1

end Feed

/-! ### Whole streams -/

section Stream

variable {stops : List PyStr}

theorem hit_filter_iff {text : PyStr} :
    Hit (stops.filter fun s => s ≠ []) text ↔ ∃ s ∈ stops, s ≠ [] ∧ s <:+: text := by
  simp [Hit, and_assoc]

theorem held_filter {text b : PyStr} (h : Held (stops.filter fun s => s ≠ []) text b) :
    Held stops text b := by
  refine ⟨h.suffix, ?_, ?_⟩
  · intro hb
    obtain ⟨w, hw, hp⟩ := h.begins hb
    exact ⟨w, (List.mem_filter.mp hw).1, hp⟩
  · intro x hx hw
    obtain ⟨w, hw, hp⟩ := hw
    by_cases hx0 : x = []
    · simp [hx0]
    · have hne : w ≠ [] := by
        intro hw0
        rw [hw0] at hp
        exact hx0 (List.prefix_nil.mp hp)
      exact h.longest x hx ⟨w, List.mem_filter.mpr ⟨hw, by simpa using hne⟩, hp⟩

theorem filter_nonempty : ∀ w ∈ stops.filter fun s => s ≠ [], w ≠ [] := by simp

/-- What a fresh filter has done with some chunks. -/
theorem feeds_cases (stops chunks : List PyStr) :
    Open (stops.filter fun s => s ≠ []) chunks.flatten ((new (some stops)).feeds chunks).2.flatten
      ((new (some stops)).feeds chunks).1 ∨
    Closed (stops.filter fun s => s ≠ []) chunks.flatten ((new (some stops)).feeds chunks).2.flatten
      ((new (some stops)).feeds chunks).1 := by
  have h := (open_new stops).feeds filter_nonempty chunks
  rw [List.nil_append, List.nil_append] at h
  exact h

/-- **Detection is exact and nothing is lost before a match.** After any
chunks, the filter has matched exactly when some nonempty stop sequence occurs
in the text fed so far; until then what was emitted and what is held make up
the text, what is held is the longest suffix that begins a stop sequence, and
in every case nothing is left to flush. -/
theorem feeds_exact (stops chunks : List PyStr) :
    (((new (some stops)).feeds chunks).1.matchedStop = true ↔
      ∃ s ∈ stops, s ≠ [] ∧ s <:+: chunks.flatten) ∧
    (((new (some stops)).feeds chunks).1.matchedStop = false →
      ((new (some stops)).feeds chunks).2.flatten ++ ((new (some stops)).feeds chunks).1.buffer =
        chunks.flatten ∧
      Held stops chunks.flatten ((new (some stops)).feeds chunks).1.buffer) ∧
    ((new (some stops)).feeds chunks).1.flushFinal.2 = [] := by
  rw [← hit_filter_iff]
  rcases feeds_cases stops chunks with h | h
  · refine ⟨?_, fun _ => ⟨h.whole, held_filter h.held⟩, h.flushFinal⟩
    rw [h.unmatched]
    exact ⟨fun hf => Bool.noConfusion hf, fun hit => absurd hit h.none_yet⟩
  · obtain ⟨p, i, hp, hi, _⟩ := h.cut
    refine ⟨⟨fun _ => (hit_of_listed? hi).mono hp.isInfix, fun _ => h.matched⟩, ?_,
      flushFinal_matched h.matched⟩
    rw [h.matched]
    exact fun hf => Bool.noConfusion hf

/-! ### Stop sequences never leak, and chunking does not matter -/

/-- For every way of cutting `text` into chunks: what is emitted holds no stop
sequence and nothing from behind one, and is the same for all of them. -/
structure Masked (stops : List PyStr) (text : PyStr) : Prop where
  clean : ∀ chunks : List PyStr, chunks.flatten = text →
    ∀ s ∈ stops, s ≠ [] → ¬ s <:+: emitted stops chunks
  stopped : ∀ chunks : List PyStr, chunks.flatten = text →
    ∀ before s after, s ∈ stops → s ≠ [] → text = before ++ s ++ after →
      emitted stops chunks <+: before ++ s
  uniform : ∀ chunks chunks' : List PyStr, chunks.flatten = text → chunks'.flatten = text →
    emitted stops chunks = emitted stops chunks'

/-- The stop sequences that occur in the text, but for those that one listed
earlier is completed no later than, all start at one place. -/
def OneStart (stops : List PyStr) (text : PyStr) : Prop :=
  ∀ i j, Unshadowed (stops.filter fun s => s ≠ []) text i →
    Unshadowed (stops.filter fun s => s ≠ []) text j → i = j

/-- What a fresh filter emits in all: the text without what is held at its
end, or the text up to where some part of it finds a stop sequence. -/
theorem emitted_cases (stops chunks : List PyStr) :
    (¬ Hit (stops.filter fun s => s ≠ []) chunks.flatten ∧
      ∃ b, Held (stops.filter fun s => s ≠ []) chunks.flatten b ∧
        emitted stops chunks ++ b = chunks.flatten) ∨
    ∃ p i, p <+: chunks.flatten ∧ listed? (stops.filter fun s => s ≠ []) p = some i ∧
      emitted stops chunks = chunks.flatten.take i := by
  have hflush : ∀ {f : SlidingWindowStopFilter}, f.flushFinal.2 = [] →
      ((new (some stops)).feeds chunks).1 = f →
      emitted stops chunks = ((new (some stops)).feeds chunks).2.flatten := by
    intro f hf heq
    rw [emitted, heq, hf, List.append_nil]
  rcases feeds_cases stops chunks with h | h
  · left
    rw [hflush h.flushFinal rfl]
    exact ⟨h.none_yet, _, h.held, h.whole⟩
  · right
    rw [hflush (flushFinal_matched h.matched) rfl]
    exact h.cut

/-- A text fed in two chunks, the first of which completes a stop sequence. -/
theorem emitted_two {p rest : PyStr} {i : ℕ}
    (hi : listed? (stops.filter fun s => s ≠ []) p = some i) :
    emitted stops [p, rest] = (p ++ rest).take i := by
  have hi' : listed? (stops.filter fun s => s ≠ []) ([] ++ p) = some i := hi
  obtain ⟨hmatched, hout⟩ := (open_new stops).feed_hit hi'
  have hlt := listed?_lt filter_nonempty hi
  have hflush := flushFinal_matched hmatched
  rw [List.nil_append, List.nil_append] at hout
  rw [List.take_append_of_le_length hlt.le, ← hout]
  simp [emitted, feeds, feed_matched hmatched, hflush]

/-- **Masking.** The emitted text is free of stop sequences, of what follows
them and of the chunking exactly for the texts in which all answers of the
search start at one place. -/
theorem masked_iff (stops : List PyStr) (text : PyStr) : Masked stops text ↔ OneStart stops text := by
  unfold OneStart
  simp only [unshadowed_iff filter_nonempty]
  constructor
  · intro h i j hi hj
    obtain ⟨p, ⟨r, hr⟩, hi⟩ := hi
    obtain ⟨q, ⟨r', hr'⟩, hj⟩ := hj
    have hsame := h.uniform [p, r] [q, r'] (by simpa using hr) (by simpa using hr')
    rw [emitted_two hi, emitted_two hj, hr, hr'] at hsame
    have hip := listed?_lt filter_nonempty hi
    have hjq := listed?_lt filter_nonempty hj
    have hp : p.length ≤ text.length := by rw [← hr]; simp
    have hq : q.length ≤ text.length := by rw [← hr']; simp
    have hlen := congrArg List.length hsame
    rw [List.length_take, List.length_take] at hlen
    omega
  · intro h
    have huniform : ∀ chunks chunks' : List PyStr, chunks.flatten = text →
        chunks'.flatten = text → emitted stops chunks = emitted stops chunks' := by
      intro chunks chunks' hc hc'
      have h1 := emitted_cases stops chunks
      have h2 := emitted_cases stops chunks'
      rw [hc] at h1
      rw [hc'] at h2
      rcases h1 with ⟨hn, b, hb, hout⟩ | ⟨p, i, hp, hi, hout⟩
      · rcases h2 with ⟨_, b', hb', hout'⟩ | ⟨p', i', hp', hi', _⟩
        · rw [← hb.eq hb', ← hout] at hout'
          exact (List.append_cancel_right hout').symm
        · exact absurd ((hit_of_listed? hi').mono hp'.isInfix) hn
      · rcases h2 with ⟨hn, _⟩ | ⟨p', i', hp', hi', hout'⟩
        · exact absurd ((hit_of_listed? hi).mono hp.isInfix) hn
        · rw [hout, hout', h i i' ⟨p, hp, hi⟩ ⟨p', hp', hi'⟩]
    refine ⟨?_, ?_, huniform⟩
    · intro chunks hc s hs hne hin
      have hhit : Hit (stops.filter fun s => s ≠ []) (emitted stops chunks) :=
        hit_filter_iff.mpr ⟨s, hs, hne, hin⟩
      have h1 := emitted_cases stops chunks
      rw [hc] at h1
      rcases h1 with ⟨hn, b, _, hout⟩ | ⟨p, i, hp, hi, hout⟩
      · exact hn (hhit.mono ⟨[], b, by simpa using hout⟩)
      · -- the output holds a stop sequence, so its own search starts inside it
        rw [hout] at hhit
        obtain ⟨j, hj⟩ := hhit.listed?
        have hlt := listed?_lt filter_nonempty hj
        have hij := h i j ⟨p, hp, hi⟩ ⟨text.take i, List.take_prefix _ _, hj⟩
        rw [List.length_take] at hlt
        omega
    · intro chunks hc before s after hs hne htext
      have hq : before ++ s <+: text := ⟨after, htext.symm⟩
      have hhit : Hit (stops.filter fun s => s ≠ []) (before ++ s) :=
        hit_filter_iff.mpr ⟨s, hs, hne, ⟨before, [], by simp⟩⟩
      have h1 := emitted_cases stops chunks
      rw [hc] at h1
      rcases h1 with ⟨hn, _⟩ | ⟨p, i, hp, hi, hout⟩
      · exact absurd (hhit.mono hq.isInfix) hn
      · obtain ⟨j, hj⟩ := hhit.listed?
        have hlt := listed?_lt filter_nonempty hj
        have hij := h i j ⟨p, hp, hi⟩ ⟨before ++ s, hq, hj⟩
        rw [hout]
        refine List.prefix_of_prefix_length_le (List.take_prefix i text) hq ?_
        rw [List.length_take]
        omega

/-- With the default stop sequences, in one chunk: the later one is found
first, and the earlier one is emitted. -/
theorem not_masked_twoStops :
    ¬ Masked ["<|eot_id|>", "</s>"] "Hi</s> x<|eot_id|>" := by
  intro h
  refine h.clean ["Hi</s> x<|eot_id|>"] (by simp) "</s>" (by simp) (by decide) ?_
  decide

/-- A single stop sequence starts at one place in every text. -/
theorem oneStart_singleton (stop text : PyStr) : OneStart [stop] text := by
  intro i j hi hj
  obtain ⟨pre, w, post, hw, hi, _⟩ := hi
  obtain ⟨pre', w', post', hw', hj, _⟩ := hj
  have hlen : ∀ {l : List PyStr} {x y z}, l.length ≤ 1 → l = x ++ y :: z → l = [y] := by
    intro l x y z hl he
    have := congrArg List.length he
    simp only [List.length_append, List.length_cons] at this
    have hx : x = [] := List.length_eq_zero_iff.mp (by omega)
    have hz : z = [] := List.length_eq_zero_iff.mp (by omega)
    rw [he, hx, hz]
    rfl
  have hle : ([stop].filter fun s => s ≠ []).length ≤ 1 := List.length_filter_le _ _
  have h1 := hlen hle hw
  have h2 := hlen hle hw'
  rw [h1] at h2
  rw [List.cons.inj h2 |>.1] at hi
  exact Option.some.inj (hi.symm.trans hj)

end Stream

end SlidingWindowStopFilter
end Sgm
