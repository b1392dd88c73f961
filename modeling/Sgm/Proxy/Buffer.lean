/-
# The token ring buffer and the deduplicator

`proxy/buffer.py`. The ring buffer keeps the last `capacity` items under the
remainder of their sequence id, beside an array of the ids, where -1 marks an
empty slot. The deduplicator keeps one buffer and one last flushed id for each
request, and lets a chunk pass when its id is the next one (`filterChunk`).
Everything the multiplexer needs of it is `filterChunk_spec`: what a chunk
does to the last flushed id of its own request, and that no other request is
touched.

Key definitions: `RingBuffer`, `TokenDeduplicator`, `TokenDeduplicator.filterChunk`.
Key theorems: `TokenDeduplicator.filterChunk_spec`,
`TokenDeduplicator.getLastFlushed_resetRequest`.
-/
import Sgm.Lib.Dict
import Sgm.Models

namespace Sgm

/-! ### The ring buffer -/

/-- A circular buffer indexed by sequence id. -/
structure RingBuffer (τ : Type*) where
  capacity : ℕ
  slots : List (Option τ)
  seqIds : List ℤ
  capacity_pos : 0 < capacity
  slots_length : slots.length = capacity
  seqIds_length : seqIds.length = capacity

namespace RingBuffer

variable {τ : Type*}

def new (capacity : ℕ) (h : 0 < capacity) : RingBuffer τ where
  capacity := capacity
  slots := List.replicate capacity none
  seqIds := List.replicate capacity (-1)
  capacity_pos := h
  slots_length := List.length_replicate
  seqIds_length := List.length_replicate

/-- `sequence_id % capacity`, which is not negative for a positive capacity. -/
def index (b : RingBuffer τ) (sequenceId : ℤ) : ℕ := (sequenceId % b.capacity).toNat

/-- Stores an item at the position of its id. -/
def put (b : RingBuffer τ) (sequenceId : ℤ) (item : τ) : RingBuffer τ where
  capacity := b.capacity
  slots := b.slots.set (b.index sequenceId) (some item)
  seqIds := b.seqIds.set (b.index sequenceId) sequenceId
  capacity_pos := b.capacity_pos
  slots_length := by rw [List.length_set, b.slots_length]
  seqIds_length := by rw [List.length_set, b.seqIds_length]

/-- The item of an id, if it has not been overwritten. -/
def get (b : RingBuffer τ) (sequenceId : ℤ) : Option τ :=
  if b.seqIds.getD (b.index sequenceId) (-1) = sequenceId then
    b.slots.getD (b.index sequenceId) none
  else none

/-- `get` at `start`, `start + 1`, ..., up to `n` ids, until one is missing. -/
def getFrom (b : RingBuffer τ) : ℕ → ℤ → List τ
  | 0, _ => []
  | n + 1, seq =>
    match b.get seq with
    | some item => item :: b.getFrom n (seq + 1)
    | none => []

/-- The contiguous items of `[startSeq, endSeq]`, from `startSeq` on. -/
def getSlice (b : RingBuffer τ) (startSeq endSeq : ℤ) : List τ :=
  b.getFrom (endSeq + 1 - startSeq).toNat startSeq

def clear (b : RingBuffer τ) : RingBuffer τ := new b.capacity b.capacity_pos

end RingBuffer

/-! ### The deduplicator -/

structure TokenDeduplicator where
  bufferCapacity : ℕ
  lastFlushed : Dict String ℤ
  buffers : Dict String (RingBuffer TokenChunk)
  bufferCapacity_pos : 0 < bufferCapacity

namespace TokenDeduplicator

def new (bufferCapacity : ℕ) (h : 0 < bufferCapacity) : TokenDeduplicator where
  bufferCapacity := bufferCapacity
  lastFlushed := Dict.empty
  buffers := Dict.empty
  bufferCapacity_pos := h

/-- The id of the last token emitted downstream, -1 before the first. -/
def getLastFlushed (d : TokenDeduplicator) (requestId : String) : ℤ :=
  (d.lastFlushed.get? requestId).getD (-1)

def recordFlushed (d : TokenDeduplicator) (requestId : String) (seqId : ℤ) : TokenDeduplicator :=
  if seqId > (d.lastFlushed.get? requestId).getD (-1) then
    { d with lastFlushed := d.lastFlushed.set requestId seqId }
  else d

/-- The buffer of a request, made at its first accepted chunk. -/
def bufferOf (d : TokenDeduplicator) (requestId : String) : RingBuffer TokenChunk :=
  (d.buffers.get? requestId).getD (RingBuffer.new d.bufferCapacity d.bufferCapacity_pos)

/-- A chunk at or below the last flushed id is dropped, the next one is
accepted and stored, a later one is a gap, which raises before anything is
written. -/
def filterChunk (d : TokenDeduplicator) (requestId : String) (chunk : TokenChunk) :
    Except Exc (Option TokenChunk × TokenDeduplicator) :=
  let lastFlushed := d.getLastFlushed requestId
  if chunk.sequenceId ≤ lastFlushed then
    .ok (none, d)
  else
    let expectedSeq := lastFlushed + 1
    let received := chunk.sequenceId
    if received ≠ expectedSeq then
      .error (.tokenSequenceGapError
        s!"Stream gap detected for {requestId}: expected {expectedSeq}, received {received}")
    else
      let buffer := (d.bufferOf requestId).put chunk.sequenceId chunk
      let d := { d with buffers := d.buffers.set requestId buffer }
      .ok (some chunk, d.recordFlushed requestId chunk.sequenceId)

/-- Forgets a completed or aborted request. -/
def resetRequest (d : TokenDeduplicator) (requestId : String) : TokenDeduplicator :=
  { d with lastFlushed := d.lastFlushed.pop requestId, buffers := d.buffers.pop requestId }

@[simp] theorem getLastFlushed_new (c : ℕ) (h : 0 < c) (r : String) :
    (new c h).getLastFlushed r = -1 := rfl

@[simp] theorem getLastFlushed_resetRequest (d : TokenDeduplicator) (r : String) :
    (d.resetRequest r).getLastFlushed r = -1 := by
  simp [getLastFlushed, resetRequest]

/-- `d'` keeps what `d` knows of every request but `r`. -/
def SameElsewhere (r : String) (d d' : TokenDeduplicator) : Prop :=
  ∀ r', r' ≠ r → d'.lastFlushed.get? r' = d.lastFlushed.get? r' ∧
    d'.buffers.get? r' = d.buffers.get? r'

theorem SameElsewhere.refl (r : String) (d : TokenDeduplicator) : SameElsewhere r d d :=
  fun _ _ => ⟨rfl, rfl⟩

theorem sameElsewhere_resetRequest (d : TokenDeduplicator) (r : String) :
    SameElsewhere r d (d.resetRequest r) :=
  fun _ h => ⟨Dict.get?_pop_ne _ h, Dict.get?_pop_ne _ h⟩

/-- The next chunk is stored, and its id is the last flushed. -/
theorem filterChunk_next {d : TokenDeduplicator} {r : String} {c : TokenChunk}
    (h : c.sequenceId = d.getLastFlushed r + 1) :
    d.filterChunk r c = .ok (some c, { d with
      lastFlushed := d.lastFlushed.set r c.sequenceId
      buffers := d.buffers.set r ((d.bufferOf r).put c.sequenceId c) }) := by
  have hlt : ¬ c.sequenceId ≤ d.getLastFlushed r := by omega
  have hgt : c.sequenceId > (d.lastFlushed.get? r).getD (-1) := by
    unfold getLastFlushed at h
    omega
  unfold filterChunk
  dsimp only
  rw [if_neg hlt, if_neg (not_not.mpr h), recordFlushed, if_pos hgt]

/-- What `filterChunk` does, in the three cases of the chunk's id. -/
theorem filterChunk_spec (d : TokenDeduplicator) (r : String) (c : TokenChunk) :
    (c.sequenceId ≤ d.getLastFlushed r ∧ d.filterChunk r c = .ok (none, d)) ∨
    (c.sequenceId = d.getLastFlushed r + 1 ∧ ∃ d', d.filterChunk r c = .ok (some c, d') ∧
      d'.lastFlushed.get? r = some c.sequenceId ∧ SameElsewhere r d d') ∨
    (d.getLastFlushed r + 1 < c.sequenceId ∧
      ∃ msg, d.filterChunk r c = .error (.tokenSequenceGapError msg)) := by
  rcases lt_trichotomy c.sequenceId (d.getLastFlushed r + 1) with h | h | h
  · have hle : c.sequenceId ≤ d.getLastFlushed r := by omega
    exact Or.inl ⟨hle, if_pos hle⟩
  · exact Or.inr (Or.inl ⟨h, _, filterChunk_next h, Dict.get?_set_self _ _ _,
      fun r' hr' => ⟨Dict.get?_set_ne _ hr' _, Dict.get?_set_ne _ hr' _⟩⟩)
  · have hlt : ¬ c.sequenceId ≤ d.getLastFlushed r := by omega
    have hne : c.sequenceId ≠ d.getLastFlushed r + 1 := by omega
    unfold filterChunk
    exact Or.inr (Or.inr ⟨h, _, by simp only [if_neg hlt, if_pos hne]; rfl⟩)

end TokenDeduplicator
end Sgm
