/-
# The deduplicator over its calls, and the replay window

Any calls of `filter_chunk` and `reset_request`, for any requests, with any
sequence ids. A request's history is the list of its chunks accepted since it
was last reset. The deduplicator tracks every history (`Tracks`): the chunks
are numbered from 0, the last flushed id is that of the last of them, and the
ring buffer is a window on the history, which shows its last `capacity` chunks
(`Shows`). A write moves the window by one: the slot that is written over is
that of the chunk that leaves it.

Key definitions: `window`, `RingBuffer.Shows`, `TokenDeduplicator.performAll`,
`TokenDeduplicator.acceptedSince`, `TokenDeduplicator.Tracks`.
Key theorems: `RingBuffer.Shows.put`, `RingBuffer.Shows.getSlice`,
`TokenDeduplicator.tracks_performAll`, `TokenDeduplicator.replay_window`.
-/
import Sgm.Lib.InOrder
import Sgm.Proxy.Buffer

namespace Sgm

/-! ### Windows on a history -/

section Window

variable {τ : Type*}

/-- The last `capacity` items of a history, each under its number. -/
def window (capacity : ℕ) (l : List τ) (seq : ℤ) : Option τ :=
  if max 0 ((l.length : ℤ) - capacity) ≤ seq ∧ seq ≤ l.length - 1 then l[seq.toNat]? else none

theorem window_nil (capacity : ℕ) (seq : ℤ) : window capacity ([] : List τ) seq = none := by
  rw [window, if_neg]
  intro h
  have h1 := le_max_left 0 ((([] : List τ).length : ℤ) - capacity)
  have h2 : seq ≤ ((0 : ℕ) : ℤ) - 1 := h.2
  omega

/-- One more item: it is seen, and the oldest no longer, when the window was full. -/
theorem window_concat {capacity : ℕ} (hc : 0 < capacity) (l : List τ) (x : τ) (seq : ℤ) :
    window capacity (l ++ [x]) seq =
      if seq = l.length then some x
      else if seq = (l.length : ℤ) - capacity then none else window capacity l seq := by
  have hlen : ((l ++ [x]).length : ℤ) = l.length + 1 := by simp
  unfold window
  rw [hlen]
  rcases lt_trichotomy seq l.length with h | h | h
  · have hlast : seq ≠ l.length := h.ne
    rw [if_neg hlast]
    by_cases hout : seq = (l.length : ℤ) - capacity
    · have hpast : ¬ (max 0 ((l.length : ℤ) + 1 - capacity) ≤ seq ∧ seq ≤ l.length + 1 - 1) := by omega
      rw [if_pos hout, if_neg hpast]
    · have hsame : (max 0 ((l.length : ℤ) + 1 - capacity) ≤ seq ∧ seq ≤ l.length + 1 - 1) ↔
          (max 0 ((l.length : ℤ) - capacity) ≤ seq ∧ seq ≤ l.length - 1) := by omega
      rw [if_neg hout]
      by_cases hin : max 0 ((l.length : ℤ) - capacity) ≤ seq ∧ seq ≤ l.length - 1
      · rw [if_pos hin, if_pos (hsame.mpr hin), List.getElem?_append_left (by omega)]
      · rw [if_neg hin, if_neg fun hp => hin (hsame.mp hp)]
  · have hin : max 0 ((l.length : ℤ) + 1 - capacity) ≤ seq ∧ seq ≤ l.length + 1 - 1 := by omega
    rw [if_pos h, if_pos hin, h, Int.toNat_natCast, List.getElem?_concat_length]
  · have hpast : ¬ (max 0 ((l.length : ℤ) + 1 - capacity) ≤ seq ∧ seq ≤ l.length + 1 - 1) := by omega
    have hlast : seq ≠ l.length := h.ne'
    rw [if_neg hpast, if_neg hlast]
    split
    · rfl
    · rw [if_neg (by omega)]

end Window

/-! ### The ring buffer as a window -/

namespace RingBuffer

variable {τ : Type*}

theorem index_lt (b : RingBuffer τ) (seq : ℤ) : b.index seq < b.capacity := by
  have hpos : (0 : ℤ) < b.capacity := by exact_mod_cast b.capacity_pos
  have h0 := Int.emod_nonneg seq hpos.ne'
  have hlt := Int.emod_lt_of_pos seq hpos
  unfold index
  omega

/-- Less than the capacity apart, ids have slots of their own. -/
theorem index_ne (b : RingBuffer τ) {s t : ℤ} (hlt : s < t) (h : t < s + b.capacity) :
    b.index s ≠ b.index t := by
  have hpos : (0 : ℤ) < b.capacity := by exact_mod_cast b.capacity_pos
  intro he
  have hmod : s % b.capacity = t % b.capacity := by
    have hs := Int.emod_nonneg s hpos.ne'
    have ht := Int.emod_nonneg t hpos.ne'
    unfold index at he
    omega
  have hdvd : (b.capacity : ℤ) ∣ t - s := Int.dvd_of_emod_eq_zero (Int.emod_eq_emod_iff_emod_sub_eq_zero.mp hmod.symm)
  have := Int.le_of_dvd (by omega) hdvd
  omega

@[simp] theorem get_new (capacity : ℕ) (h : 0 < capacity) (seq : ℤ) :
    (new capacity h : RingBuffer τ).get seq = none := by
  have hslot : ∀ i, (List.replicate capacity (none : Option τ)).getD i none = none := by
    intro i
    rw [List.getD_eq_getElem?_getD, List.getElem?_replicate]
    split <;> rfl
  unfold get
  split
  · exact hslot _
  · rfl

theorem get_put (b : RingBuffer τ) (s : ℤ) (x : τ) (t : ℤ) :
    (b.put s x).get t =
      if t = s then some x else if b.index t = b.index s then none else b.get t := by
  have hindex : (b.put s x).index t = b.index t := rfl
  have hslots : b.index s < b.slots.length := by rw [b.slots_length]; exact b.index_lt s
  have hseqIds : b.index s < b.seqIds.length := by rw [b.seqIds_length]; exact b.index_lt s
  unfold get
  rw [hindex]
  show (if (b.seqIds.set (b.index s) s).getD (b.index t) (-1) = t then
    (b.slots.set (b.index s) (some x)).getD (b.index t) none else none) = _
  simp only [List.getD_eq_getElem?_getD]
  by_cases hst : b.index t = b.index s
  · rw [hst, List.getElem?_set_self hslots, List.getElem?_set_self hseqIds]
    by_cases ht : t = s
    · rw [if_pos ht, ht]
      exact if_pos rfl
    · rw [if_neg ht, if_pos rfl]
      exact if_neg fun he => ht he.symm
  · have ht : t ≠ s := fun he => hst (congrArg b.index he)
    rw [if_neg ht, if_neg hst, List.getElem?_set_ne (Ne.symm hst), List.getElem?_set_ne (Ne.symm hst)]

/-- The buffer shows the end of the history. -/
structure Shows (b : RingBuffer τ) (l : List τ) : Prop where
  get : ∀ seq, b.get seq = window b.capacity l seq

theorem shows_new (capacity : ℕ) (h : 0 < capacity) : (new capacity h : RingBuffer τ).Shows [] where
  get seq := by rw [get_new, window_nil]

/-- Storing the next item. An id with the same slot is at least the capacity
away, so it has left the window, or was never in it. -/
theorem Shows.put {b : RingBuffer τ} {l : List τ} (h : b.Shows l) (x : τ) :
    (b.put l.length x).Shows (l ++ [x]) where
  get seq := by
    have hcap : (b.put l.length x).capacity = b.capacity := rfl
    rw [get_put, hcap, window_concat b.capacity_pos, h.get]
    by_cases hlast : seq = l.length
    · rw [if_pos hlast, if_pos hlast]
    rw [if_neg hlast, if_neg hlast]
    by_cases hslot : b.index seq = b.index l.length
    · rw [if_pos hslot]
      split
      · rfl
      · rename_i hne
        rw [window, if_neg]
        rintro ⟨hlo, hhi⟩
        exact b.index_ne (by omega) (by omega) hslot
    · rw [if_neg hslot, if_neg]
      rintro rfl
      apply hslot
      unfold index
      rw [Int.sub_emod_right]

/-- What is read from an id of the window on. -/
theorem Shows.getFrom {b : RingBuffer τ} {l : List τ} (h : b.Shows l) : ∀ (n : ℕ) {a : ℕ},
    max 0 ((l.length : ℤ) - b.capacity) ≤ a → b.getFrom n a = (l.drop a).take n
  | 0, a, _ => by rw [List.take_zero]; rfl
  | n + 1, a, ha => by
    by_cases hlt : a < l.length
    · have hget : b.get a = some l[a] := by
        rw [h.get, window, if_pos ⟨ha, by omega⟩, Int.toNat_natCast, List.getElem?_eq_getElem hlt]
      have ih := h.getFrom n (a := a + 1) (by omega)
      rw [RingBuffer.getFrom, hget, List.drop_eq_getElem_cons hlt, List.take_succ_cons, ← ih]
      rfl
    · have hget : b.get a = none := by
        rw [h.get, window, if_neg (by omega)]
      rw [RingBuffer.getFrom, hget, List.drop_of_length_le (by omega), List.take_nil]

/-- A slice that starts in the window runs to the end asked for, or to the end
of the history. -/
theorem Shows.getSlice {b : RingBuffer τ} {l : List τ} (h : b.Shows l) {s e : ℤ}
    (hlo : max 0 ((l.length : ℤ) - b.capacity) ≤ s) (hse : s ≤ e) :
    b.getSlice s e = (l.take (min e (l.length - 1) + 1).toNat).drop s.toNat := by
  obtain ⟨a, rfl⟩ := Int.eq_ofNat_of_zero_le (le_trans (le_max_left _ _) hlo)
  rw [RingBuffer.getSlice, h.getFrom _ hlo, Int.toNat_natCast, List.drop_take]
  rcases le_total e (l.length - 1) with he | he
  · rw [min_eq_left he]
    congr 1
    omega
  · -- both reach the end of the history
    rw [min_eq_right he, List.take_of_length_le (by rw [List.length_drop]; omega),
      List.take_of_length_le (by rw [List.length_drop]; omega)]

theorem Shows.getSlice_outside {b : RingBuffer τ} {l : List τ} (h : b.Shows l) {s : ℤ} (e : ℤ)
    (hout : ¬ (max 0 ((l.length : ℤ) - b.capacity) ≤ s ∧ s ≤ l.length - 1)) :
    b.getSlice s e = [] := by
  have hget : b.get s = none := by rw [h.get, window, if_neg hout]
  unfold RingBuffer.getSlice
  cases (e + 1 - s).toNat with
  | zero => rfl
  | succ n => rw [RingBuffer.getFrom, hget]

end RingBuffer

/-! ### The deduplicator over its calls -/

namespace TokenDeduplicator

open InOrder

inductive Call
  | filterChunk (requestId : String) (chunk : TokenChunk)
  | resetRequest (requestId : String)

def Call.requestId : Call → String
  | .filterChunk r _ => r
  | .resetRequest r => r

/-- What a call returns or raises. -/
abbrev Outcome := Except Exc (Option TokenChunk)

/-- One call on the deduplicator, which the caller keeps when it raises. -/
def perform (d : TokenDeduplicator) : Call → Outcome × TokenDeduplicator
  | .filterChunk r c =>
    match d.filterChunk r c with
    | .ok (chunk, d') => (.ok chunk, d')
    | .error e => (.error e, d)
  | .resetRequest r => (.ok none, d.resetRequest r)

/-- The calls in turn, with what each of them returned or raised. -/
def performAll (d : TokenDeduplicator) (calls : List Call) :
    List (Call × Outcome) × TokenDeduplicator :=
  calls.foldl (fun s call => (s.1 ++ [(call, (s.2.perform call).1)], (s.2.perform call).2)) ([], d)

/-- The history of request `r` after one more call. -/
def note (r : String) (l : List TokenChunk) : Call × Outcome → List TokenChunk
  | (.filterChunk r' _, .ok (some c)) => if r' = r then l ++ [c] else l
  | (.filterChunk _ _, _) => l
  | (.resetRequest r', _) => if r' = r then [] else l

/-- The chunks of request `r` accepted since it was last reset. -/
def acceptedSince (r : String) (log : List (Call × Outcome)) : List TokenChunk :=
  log.foldl (note r) []

/-- What is kept of request `r` is its history `l`. -/
structure Tracks (d : TokenDeduplicator) (r : String) (l : List TokenChunk) : Prop where
  numbered : Numbered TokenChunk.sequenceId 0 l
  flushed : d.getLastFlushed r = l.length - 1
  capacity : (d.bufferOf r).capacity = d.bufferCapacity
  shows : (d.bufferOf r).Shows l
  made : l ≠ [] → d.buffers.get? r = some (d.bufferOf r)

theorem tracks_of_none {d : TokenDeduplicator} {r : String} (hf : d.lastFlushed.get? r = none)
    (hb : d.buffers.get? r = none) : d.Tracks r [] := by
  have hnew : d.bufferOf r = RingBuffer.new d.bufferCapacity d.bufferCapacity_pos := by
    rw [bufferOf, hb]
    rfl
  constructor
  · trivial
  · rw [getLastFlushed, hf]
    rfl
  · rw [hnew]
    rfl
  · rw [hnew]
    exact RingBuffer.shows_new _ _
  · intro h
    exact absurd rfl h

theorem perform_filterChunk_of_ok {d d' : TokenDeduplicator} {r : String} {c : TokenChunk}
    {o : Option TokenChunk} (h : d.filterChunk r c = .ok (o, d')) :
    d.perform (.filterChunk r c) = (.ok o, d') := by
  rw [perform, h]

theorem perform_filterChunk_of_error {d : TokenDeduplicator} {r : String} {c : TokenChunk}
    {e : Exc} (h : d.filterChunk r c = .error e) :
    d.perform (.filterChunk r c) = (.error e, d) := by
  rw [perform, h]

/-- A call does not touch what is kept of other requests. -/
theorem perform_elsewhere (d : TokenDeduplicator) (call : Call) :
    SameElsewhere call.requestId d (d.perform call).2 ∧
      (d.perform call).2.bufferCapacity = d.bufferCapacity := by
  cases call with
  | resetRequest r => exact ⟨sameElsewhere_resetRequest d r, rfl⟩
  | filterChunk r c =>
    rcases filterChunk_spec d r c with ⟨_, h⟩ | ⟨hnext, _⟩ | ⟨_, _, h⟩
    · rw [perform_filterChunk_of_ok h]
      exact ⟨SameElsewhere.refl r d, rfl⟩
    · rw [perform_filterChunk_of_ok (filterChunk_next hnext)]
      exact ⟨fun r' hr' => ⟨Dict.get?_set_ne _ hr' _, Dict.get?_set_ne _ hr' _⟩, rfl⟩
    · rw [perform_filterChunk_of_error h]
      exact ⟨SameElsewhere.refl r d, rfl⟩

theorem Tracks.elsewhere {d d' : TokenDeduplicator} {r s : String} {l : List TokenChunk}
    (h : d.Tracks r l) (hs : SameElsewhere s d d') (hc : d'.bufferCapacity = d.bufferCapacity)
    (hne : r ≠ s) : d'.Tracks r l := by
  obtain ⟨hf, hb⟩ := hs r hne
  have hbuffer : d'.bufferOf r = d.bufferOf r := by
    simp only [bufferOf, hb, hc]
  exact ⟨h.numbered, by rw [getLastFlushed, hf]; exact h.flushed, by rw [hbuffer, hc]; exact h.capacity,
    by rw [hbuffer]; exact h.shows, by rw [hbuffer, hb]; exact h.made⟩

/-- The next chunk is accepted into the history. -/
theorem Tracks.next {d : TokenDeduplicator} {r : String} {l : List TokenChunk} {c : TokenChunk}
    (h : d.Tracks r l) (hc : c.sequenceId = d.getLastFlushed r + 1) :
    Tracks { d with
      lastFlushed := d.lastFlushed.set r c.sequenceId
      buffers := d.buffers.set r ((d.bufferOf r).put c.sequenceId c) } r (l ++ [c]) := by
  have hseq : c.sequenceId = l.length := by
    rw [hc, h.flushed]
    omega
  have hbuffer : bufferOf { d with
      lastFlushed := d.lastFlushed.set r c.sequenceId
      buffers := d.buffers.set r ((d.bufferOf r).put c.sequenceId c) } r =
      (d.bufferOf r).put c.sequenceId c := by
    simp only [bufferOf, Dict.get?_set_self, Option.getD_some]
  constructor
  · exact numbered_append.mpr ⟨h.numbered, by simpa [Numbered] using hseq⟩
  · simp [getLastFlushed, hseq]
  · rw [hbuffer]
    exact h.capacity
  · rw [hbuffer, hseq]
    exact h.shows.put c
  · intro _
    rw [hbuffer]
    exact Dict.get?_set_self _ _ _

/-- One call: the history and what is kept of it stay together. -/
theorem Tracks.perform {d : TokenDeduplicator} {r : String} {l : List TokenChunk}
    (h : d.Tracks r l) (call : Call) :
    (d.perform call).2.Tracks r (note r l (call, (d.perform call).1)) := by
  by_cases hr : r = call.requestId
  · cases call with
    | resetRequest r' =>
      obtain rfl : r = r' := hr
      have hnote : note r l (.resetRequest r, (d.perform (.resetRequest r)).1) = [] := if_pos rfl
      rw [hnote]
      exact tracks_of_none (Dict.get?_pop_self _ _) (Dict.get?_pop_self _ _)
    | filterChunk r' c =>
      obtain rfl : r = r' := hr
      rcases filterChunk_spec d r c with ⟨_, hf⟩ | ⟨hnext, _⟩ | ⟨_, _, hf⟩
      · rw [perform_filterChunk_of_ok hf]
        exact h
      · have hnote : note r l (.filterChunk r c, .ok (some c)) = l ++ [c] := if_pos rfl
        rw [perform_filterChunk_of_ok (filterChunk_next hnext), hnote]
        exact h.next hnext
      · rw [perform_filterChunk_of_error hf]
        exact h
  · obtain ⟨hsame, hcap⟩ := perform_elsewhere d call
    have hnote : ∀ o, note r l (call, o) = l := by
      intro o
      cases call with
      | resetRequest r' => exact if_neg fun he => hr he.symm
      | filterChunk r' c =>
        rcases o with e | _ | c'
        · rfl
        · rfl
        · exact if_neg fun he => hr he.symm
    rw [hnote]
    exact h.elsewhere hsame hcap hr

theorem performAll_concat (d : TokenDeduplicator) (calls : List Call) (call : Call) :
    d.performAll (calls ++ [call]) =
      ((d.performAll calls).1 ++ [(call, ((d.performAll calls).2.perform call).1)],
        ((d.performAll calls).2.perform call).2) := by
  rw [performAll, List.foldl_append]
  rfl

/-- After any calls, each request is tracked. -/
theorem tracks_performAll {capacity : ℕ} (h : 0 < capacity) (calls : List Call) (r : String) :
    ((new capacity h).performAll calls).2.Tracks r
        (acceptedSince r ((new capacity h).performAll calls).1) ∧
      ((new capacity h).performAll calls).2.bufferCapacity = capacity := by
  induction calls using List.reverseRecOn with
  | nil => exact ⟨tracks_of_none rfl rfl, rfl⟩
  | append_singleton calls call ih =>
    obtain ⟨htracks, hcap⟩ := ih
    rw [performAll_concat, acceptedSince, List.foldl_append]
    exact ⟨htracks.perform call, (perform_elsewhere _ call).2.trans hcap⟩

/-- **State and replay window.** After any calls, the chunks of a request
accepted since its last reset are numbered from 0, the last flushed id is the
last of theirs, and the ring buffer gives the last `capacity` of them and no
others, one by one and in slices. The next call touches no other request, and
nothing at all if it filters a chunk out or raises. -/
theorem replay_window {capacity : ℕ} (h : 0 < capacity) (calls : List Call)
    {log : List (Call × Outcome)} {d : TokenDeduplicator}
    (hd : (new capacity h).performAll calls = (log, d)) :
    (∀ r, (acceptedSince r log).map TokenChunk.sequenceId =
        (List.range (acceptedSince r log).length).map Int.ofNat ∧
      d.getLastFlushed r = (acceptedSince r log).length - 1 ∧
      ∀ m : ℤ, m = (acceptedSince r log).length → 1 ≤ m →
        ∃ b, d.buffers.get? r = some b ∧
          (∀ seq, b.get seq =
            if max 0 (m - capacity) ≤ seq ∧ seq ≤ m - 1 then (acceptedSince r log)[seq.toNat]?
            else none) ∧
          (∀ s e, max 0 (m - capacity) ≤ s ∧ s ≤ m - 1 → s ≤ e →
            b.getSlice s e = ((acceptedSince r log).take (min e (m - 1) + 1).toNat).drop s.toNat) ∧
          ∀ s e, ¬ (max 0 (m - capacity) ≤ s ∧ s ≤ m - 1) → b.getSlice s e = []) ∧
    (∀ call, SameElsewhere call.requestId d (d.perform call).2) ∧
    ∀ r c, ((d.perform (.filterChunk r c)).1 = .ok none ∨
        ∃ msg, (d.perform (.filterChunk r c)).1 = .error (.tokenSequenceGapError msg)) →
      (d.perform (.filterChunk r c)).2 = d := by
  refine ⟨fun r => ?_, fun call => (perform_elsewhere d call).1, fun r c => ?_⟩
  · have htracks := tracks_performAll h calls r
    rw [hd] at htracks
    obtain ⟨htracks, hcap⟩ := htracks
    refine ⟨map_seq_of_numbered htracks.numbered, htracks.flushed, ?_⟩
    rintro m rfl hm
    have hne : acceptedSince r log ≠ [] := by
      intro he
      rw [he] at hm
      exact absurd hm (by decide)
    have hcap' : (d.bufferOf r).capacity = capacity := htracks.capacity.trans hcap
    have hshows := htracks.shows
    refine ⟨d.bufferOf r, htracks.made hne, ?_, ?_, ?_⟩
    · intro seq
      rw [hshows.get, hcap', window]
    · intro s e hs hse
      rw [← hcap'] at hs
      exact hshows.getSlice hs.1 hse
    · intro s e hs
      rw [← hcap'] at hs
      exact hshows.getSlice_outside e hs
  · rcases filterChunk_spec d r c with ⟨_, hf⟩ | ⟨hnext, _⟩ | ⟨_, _, hf⟩
    · intro _
      rw [perform_filterChunk_of_ok hf]
    · rw [perform_filterChunk_of_ok (filterChunk_next hnext)]
      rintro (ho | ⟨_, ho⟩)
      · cases ho
      · cases ho
    · intro _
      rw [perform_filterChunk_of_error hf]

def sampleChunk (n : ℤ) : TokenChunk := { requestId := "r", sequenceId := n, token := "t" }

/-- Three chunks, a duplicate and a gap in between, and another request that
is reset. -/
def sampleCalls : List Call :=
  [.filterChunk "r" (sampleChunk 0), .filterChunk "q" (sampleChunk 0),
    .filterChunk "r" (sampleChunk 0), .filterChunk "r" (sampleChunk 1),
    .filterChunk "r" (sampleChunk 5), .resetRequest "q", .filterChunk "r" (sampleChunk 2)]

/-- A buffer of two shows the last two of the three. -/
theorem replay_window_three :
    ∃ b, ((new 2 Nat.two_pos).performAll sampleCalls).2.buffers.get? "r" = some b ∧
      b.getSlice 1 9 = [sampleChunk 1, sampleChunk 2] ∧ b.getSlice 0 9 = [] := by
  have hacc : acceptedSince "r" ((new 2 Nat.two_pos).performAll sampleCalls).1 =
      [sampleChunk 0, sampleChunk 1, sampleChunk 2] := by decide +kernel
  obtain ⟨b, hb, -, hin, hout⟩ := ((replay_window Nat.two_pos sampleCalls
    (Prod.eta _).symm).1 "r").2.2 3 (by rw [hacc]; rfl) (by decide)
  rw [hacc] at hin
  exact ⟨b, hb, hin 1 9 (by decide) (by decide), hout 0 9 (by decide)⟩

end TokenDeduplicator
end Sgm
