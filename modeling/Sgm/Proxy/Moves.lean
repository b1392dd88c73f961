/-
# What one move of the multiplexer can do

`Resumed` lists the outcomes of one resumption of a generator, with the guards
of the branch taken; `Resumed.of_eq` is the inversion of `streamWithHandover`
that every invariant below is proved from. The rest is what a move leaves
alone: a generator touches the table entries of its own request only, and its
entries are there only while it is live (`Resumed.moved`).

Key definitions: `Resumed`, `Generator.Live`, `Moved`, `Tables`, `Owned`.
Key theorems: `Resumed.of_eq`, `Resumed.moved`, `tables_step`, `owned_step`.
-/
import Sgm.Proxy.Upstream

namespace Sgm

open StreamMultiplexer

/-! ### The log -/

namespace Event

def pulled? : Event → Option TokenChunk
  | .pulled c => some c
  | _ => none

def sent? : Event → Option SseItem
  | .sent x => some x
  | _ => none

end Event

def SseItem.chunk? : SseItem → Option TokenChunk
  | .data c => some c
  | _ => none

/-- The data events among the items. -/
def SseItem.chunks (items : List SseItem) : List TokenChunk := items.filterMap SseItem.chunk?

namespace Event

/-- The chunks pulled, from either upstream. -/
def pulledIn (log : List Event) : List TokenChunk := log.filterMap pulled?

/-- The items yielded. -/
def sentIn (log : List Event) : List SseItem := log.filterMap sent?

@[simp] theorem pulledIn_append (l l' : List Event) :
    pulledIn (l ++ l') = pulledIn l ++ pulledIn l' := List.filterMap_append ..

@[simp] theorem sentIn_append (l l' : List Event) : sentIn (l ++ l') = sentIn l ++ sentIn l' :=
  List.filterMap_append ..

variable (l : List Event)

@[simp] theorem pulledIn_nil : pulledIn [] = [] := rfl
@[simp] theorem pulledIn_pulled (c : TokenChunk) : pulledIn (.pulled c :: l) = c :: pulledIn l := rfl
@[simp] theorem pulledIn_sent (x : SseItem) : pulledIn (.sent x :: l) = pulledIn l := rfl
@[simp] theorem pulledIn_connected : pulledIn (.connected :: l) = pulledIn l := rfl
@[simp] theorem pulledIn_upstreamEnded (e : UpstreamEnd) :
    pulledIn (.upstreamEnded e :: l) = pulledIn l := rfl

@[simp] theorem sentIn_nil : sentIn [] = [] := rfl
@[simp] theorem sentIn_sent (x : SseItem) : sentIn (.sent x :: l) = x :: sentIn l := rfl
@[simp] theorem sentIn_pulled (c : TokenChunk) : sentIn (.pulled c :: l) = sentIn l := rfl
@[simp] theorem sentIn_connected : sentIn (.connected :: l) = sentIn l := rfl
@[simp] theorem sentIn_upstreamEnded (e : UpstreamEnd) :
    sentIn (.upstreamEnded e :: l) = sentIn l := rfl

end Event

namespace SseItem

@[simp] theorem chunks_append (l l' : List SseItem) : chunks (l ++ l') = chunks l ++ chunks l' :=
  List.filterMap_append ..

@[simp] theorem chunks_nil : chunks [] = [] := rfl

@[simp] theorem chunks_data (c : TokenChunk) (l : List SseItem) :
    chunks (.data c :: l) = c :: chunks l := rfl

@[simp] theorem chunks_keepAlive (l : List SseItem) : chunks (.keepAlive :: l) = chunks l := rfl
@[simp] theorem chunks_done (l : List SseItem) : chunks (.done :: l) = chunks l := rfl

/-- Before the end of stream signal there are data events and keep-alive
comments only. -/
theorem filter_ne_keepAlive {l : List SseItem} (h : SseItem.done ∉ l) :
    l.filter (· ≠ .keepAlive) = (chunks l).map .data := by
  induction l with
  | nil => rfl
  | cons x l ih =>
    have hl := ih fun hd => h (List.mem_cons_of_mem x hd)
    cases x with
    | data c => simpa using hl
    | keepAlive => simpa using hl
    | done => simp at h

end SseItem

namespace Generator

def pulled (g : Generator) : List TokenChunk := Event.pulledIn g.log

def items (g : Generator) : List SseItem := Event.sentIn g.log

/-- The chunks yielded. -/
def delivered (g : Generator) : List TokenChunk := SseItem.chunks g.items

/-- The body runs: it has started and not ended. -/
def Live (g : Generator) : Prop :=
  match g.point with
  | .absent | .created | .ended _ => False
  | _ => True

instance (g : Generator) : Decidable g.Live := by
  unfold Live
  split <;> infer_instance

/-- In the loop over the active upstream. -/
def InPhase1 (g : Generator) : Prop :=
  match g.point with
  | .pullActive | .yieldedActive _ => True
  | _ => False

instance (g : Generator) : Decidable g.InPhase1 := by
  unfold InPhase1
  split <;> infer_instance

/-- Between the two upstreams. -/
def Buffering (g : Generator) : Prop :=
  match g.point with
  | .waitReady _ | .yieldedKeepAlive _ | .callStandby => True
  | _ => False

/-- In the loop over the standby upstream. -/
def InPhase3 (g : Generator) : Prop :=
  match g.point with
  | .pullStandby | .yieldedStandby => True
  | _ => False

theorem live_iff (g : Generator) :
    g.Live ↔ g.InPhase1 ∨ g.Buffering ∨ g.InPhase3 ∨ g.point = .yieldedDone := by
  unfold Live InPhase1 Buffering InPhase3
  cases g.point <;> simp

theorem InPhase1.live {g : Generator} (h : g.InPhase1) : g.Live := (live_iff g).mpr (Or.inl h)

theorem Buffering.live {g : Generator} (h : g.Buffering) : g.Live :=
  (live_iff g).mpr (Or.inr (Or.inl h))

end Generator

/-! ### One resumption -/

/-- The outcomes of a resumption of generator `i` at time `now`. -/
inductive Resumed (now i : ℕ) (m : StreamMultiplexer) (g : Generator) :
    StreamMultiplexer × Generator → Prop
  | start (hp : g.point = .created) :
    Resumed now i m g ((m.getOrCreateSession g.requestId i).1,
      { g.record .connected with
        session := (m.getOrCreateSession g.requestId i).2, lastActivityTime := now
        point := .pullActive })
  | dropActive (c : TokenChunk) (rest : List TokenChunk) (hp : g.point = .pullActive)
    (hc : g.active.chunks = c :: rest)
    (hs : c.sequenceId ≤ m.deduplicator.getLastFlushed g.requestId) :
    Resumed now i m g
      (checkCutoff now m { g.record (.pulled c) with active := ⟨rest, g.active.ending⟩ } c)
  | acceptActive (c : TokenChunk) (rest : List TokenChunk) (d : TokenDeduplicator)
    (hp : g.point = .pullActive) (hc : g.active.chunks = c :: rest)
    (hs : c.sequenceId = m.deduplicator.getLastFlushed g.requestId + 1)
    (hd : d.lastFlushed.get? g.requestId = some c.sequenceId)
    (he : TokenDeduplicator.SameElsewhere g.requestId m.deduplicator d) :
    Resumed now i m g ({ m with deduplicator := d },
      ({ g.record (.pulled c) with active := ⟨rest, g.active.ending⟩ } : Generator).emit
        (.data c) (.yieldedActive c))
  | gapActive (c : TokenChunk) (rest : List TokenChunk) (msg : String)
    (hp : g.point = .pullActive) (hc : g.active.chunks = c :: rest)
    (hs : m.deduplicator.getLastFlushed g.requestId + 1 < c.sequenceId) :
    Resumed now i m g
      (raise m { g.record (.pulled c) with active := ⟨rest, g.active.ending⟩ }
        (.tokenSequenceGapError msg))
  | endActive (hp : g.point = .pullActive) (hc : g.active.chunks = [])
    (he : g.active.ending = .done ∨ g.active.ending = .closed) :
    Resumed now i m g (afterActive now m (g.record (.upstreamEnded g.active.ending)))
  | raiseActive (e : Exc) (hp : g.point = .pullActive) (hc : g.active.chunks = [])
    (he : g.active.ending = .raised e) :
    Resumed now i m g (raise m (g.record (.upstreamEnded g.active.ending)) e)
  | resumeActive (c : TokenChunk) (hp : g.point = .yieldedActive c) :
    Resumed now i m g (checkCutoff now m { g with lastActivityTime := now } c)
  | resumeKeepAlive (t : ℕ) (hp : g.point = .yieldedKeepAlive t) :
    Resumed now i m g (m, { g with lastActivityTime := t, point := .waitReady now })
  | wake (since : ℕ) (hp : g.point = .waitReady since)
    (hw : (m.heap g.session).handoverReady ∨ since + waitTick ≤ now) :
    Resumed now i m g (bufferingLoop now m g)
  | connectStandby (u : Upstream) (hp : g.point = .callStandby)
    (hu : g.standbyFactory (m.deduplicator.getLastFlushed g.requestId) = .ok u) :
    Resumed now i m g (m, { g.record .connected with standby := u, point := .pullStandby })
  | failStandby (e : Exc) (hp : g.point = .callStandby)
    (hu : g.standbyFactory (m.deduplicator.getLastFlushed g.requestId) = .error e) :
    Resumed now i m g (raise m g e)
  | dropStandby (c : TokenChunk) (rest : List TokenChunk) (hp : g.point = .pullStandby)
    (hc : g.standby.chunks = c :: rest)
    (hs : c.sequenceId ≤ m.deduplicator.getLastFlushed g.requestId) :
    Resumed now i m g
      (m, { g.record (.pulled c) with standby := ⟨rest, g.standby.ending⟩ })
  | acceptStandby (c : TokenChunk) (rest : List TokenChunk) (d : TokenDeduplicator)
    (hp : g.point = .pullStandby) (hc : g.standby.chunks = c :: rest)
    (hs : c.sequenceId = m.deduplicator.getLastFlushed g.requestId + 1)
    (hd : d.lastFlushed.get? g.requestId = some c.sequenceId)
    (he : TokenDeduplicator.SameElsewhere g.requestId m.deduplicator d) :
    Resumed now i m g ({ m with deduplicator := d },
      ({ g.record (.pulled c) with standby := ⟨rest, g.standby.ending⟩ } : Generator).emit
        (.data c) .yieldedStandby)
  | gapStandby (c : TokenChunk) (rest : List TokenChunk) (msg : String)
    (hp : g.point = .pullStandby) (hc : g.standby.chunks = c :: rest)
    (hs : m.deduplicator.getLastFlushed g.requestId + 1 < c.sequenceId) :
    Resumed now i m g
      (raise m { g.record (.pulled c) with standby := ⟨rest, g.standby.ending⟩ }
        (.tokenSequenceGapError msg))
  | endStandby (hp : g.point = .pullStandby) (hc : g.standby.chunks = [])
    (he : g.standby.ending = .done ∨ g.standby.ending = .closed) :
    Resumed now i m g (endOfStream m (g.record (.upstreamEnded g.standby.ending)))
  | raiseStandby (e : Exc) (hp : g.point = .pullStandby) (hc : g.standby.chunks = [])
    (he : g.standby.ending = .raised e) :
    Resumed now i m g (raise m (g.record (.upstreamEnded g.standby.ending)) e)
  | resumeStandby (hp : g.point = .yieldedStandby) :
    Resumed now i m g (m, { g with lastActivityTime := now, point := .pullStandby })
  | finish (hp : g.point = .yieldedDone) :
    Resumed now i m g
      ((m.modifySession g.session fun session => { session with isCompleted := true }).cleanup
        g.requestId, g.at_ (.ended .completed))

theorem Resumed.of_eq {now i : ℕ} {m : StreamMultiplexer} {g : Generator}
    {r : StreamMultiplexer × Generator} (h : m.streamWithHandover now i g = some r) :
    Resumed now i m g r := by
  unfold streamWithHandover at h
  split at h
  · cases h
  · cases h
  · rename_i hp
    obtain rfl := Option.some.inj h
    exact .start hp
  · rename_i hp
    split at h
    · rename_i c rest hc
      rcases m.deduplicator.filterChunk_spec g.requestId c with
        ⟨hs, hf⟩ | ⟨hs, d, hf, hd, he⟩ | ⟨hs, msg, hf⟩
      · simp only [Generator.record, hf, Option.some.injEq] at h
        subst h
        exact .dropActive c rest hp hc hs
      · simp only [Generator.record, hf, Option.some.injEq] at h
        subst h
        exact .acceptActive c rest d hp hc hs hd he
      · simp only [Generator.record, hf, Option.some.injEq] at h
        subst h
        exact .gapActive c rest msg hp hc hs
    · rename_i hc
      simp only at h
      split at h
      · rename_i e he
        obtain rfl := Option.some.inj h
        exact .raiseActive e hp hc he
      · rename_i he
        obtain rfl := Option.some.inj h
        exact .endActive hp hc (Or.inl he)
      · rename_i he
        obtain rfl := Option.some.inj h
        exact .endActive hp hc (Or.inr he)
  · rename_i c hp
    obtain rfl := Option.some.inj h
    exact .resumeActive c hp
  · rename_i t hp
    obtain rfl := Option.some.inj h
    exact .resumeKeepAlive t hp
  · rename_i since hp
    split at h
    · rename_i hw
      obtain rfl := Option.some.inj h
      exact .wake since hp hw
    · cases h
  · rename_i hp
    split at h
    · rename_i e hu
      obtain rfl := Option.some.inj h
      exact .failStandby e hp hu
    · rename_i u hu
      obtain rfl := Option.some.inj h
      exact .connectStandby u hp hu
  · rename_i hp
    split at h
    · rename_i c rest hc
      rcases m.deduplicator.filterChunk_spec g.requestId c with
        ⟨hs, hf⟩ | ⟨hs, d, hf, hd, he⟩ | ⟨hs, msg, hf⟩
      · simp only [Generator.record, hf, Option.some.injEq] at h
        subst h
        exact .dropStandby c rest hp hc hs
      · simp only [Generator.record, hf, Option.some.injEq] at h
        subst h
        exact .acceptStandby c rest d hp hc hs hd he
      · simp only [Generator.record, hf, Option.some.injEq] at h
        subst h
        exact .gapStandby c rest msg hp hc hs
    · rename_i hc
      simp only at h
      split at h
      · rename_i e he
        obtain rfl := Option.some.inj h
        exact .raiseStandby e hp hc he
      · rename_i he
        obtain rfl := Option.some.inj h
        exact .endStandby hp hc (Or.inl he)
      · rename_i he
        obtain rfl := Option.some.inj h
        exact .endStandby hp hc (Or.inr he)
  · rename_i hp
    obtain rfl := Option.some.inj h
    exact .resumeStandby hp
  · rename_i hp
    obtain rfl := Option.some.inj h
    exact .finish hp

/-! ### Into the buffering phase -/

/-- The generator goes on in the buffering phase. -/
structure Buffered (m : StreamMultiplexer) (g : Generator) (r : StreamMultiplexer × Generator) :
    Prop where
  deduplicator : r.1.deduplicator = m.deduplicator
  requestId : r.2.requestId = g.requestId
  standbyFactory : r.2.standbyFactory = g.standbyFactory
  buffering : r.2.Buffering
  log : r.2.log = g.log ∨ r.2.log = g.log ++ [.sent .keepAlive]

theorem buffered_bufferingLoop (now : ℕ) (m : StreamMultiplexer) (g : Generator) :
    Buffered m g (m.bufferingLoop now g) := by
  unfold bufferingLoop
  split_ifs
  · exact ⟨rfl, rfl, rfl, trivial, Or.inl rfl⟩
  · exact ⟨rfl, rfl, rfl, trivial, Or.inl rfl⟩
  · exact ⟨rfl, rfl, rfl, trivial, Or.inr rfl⟩
  · exact ⟨rfl, rfl, rfl, trivial, Or.inl rfl⟩

theorem afterActive_spec (now : ℕ) (m : StreamMultiplexer) (g : Generator) :
    ((m.heap g.session).preemptionSignaled = true ∧ Buffered m g (m.afterActive now g)) ∨
    ((m.heap g.session).preemptionSignaled = false ∧ m.afterActive now g = m.endOfStream g) := by
  unfold afterActive
  split_ifs with h
  · have hb := buffered_bufferingLoop now m { g with bufferingStart := now }
    exact Or.inl ⟨h, hb.deduplicator, hb.requestId, hb.standbyFactory, hb.buffering, hb.log⟩
  · exact Or.inr ⟨by simpa using h, rfl⟩

theorem checkCutoff_spec (now : ℕ) (m : StreamMultiplexer) (g : Generator) (c : TokenChunk) :
    ((m.heap g.session).preemptionSignaled = true ∧ Buffered m g (m.checkCutoff now g c)) ∨
    m.checkCutoff now g c = (m, g.at_ .pullActive) := by
  unfold checkCutoff
  simp only
  split_ifs with h
  · rcases afterActive_spec now m g with hb | ⟨hns, -⟩
    · exact Or.inl hb
    · rw [hns] at h
      simp at h
  · exact Or.inr rfl

/-- What is left of the active upstream is left alone by the phases after it. -/
@[simp] theorem active_bufferingLoop (now : ℕ) (m : StreamMultiplexer) (g : Generator) :
    (m.bufferingLoop now g).2.active = g.active := by
  unfold bufferingLoop
  split_ifs <;> rfl

@[simp] theorem active_afterActive (now : ℕ) (m : StreamMultiplexer) (g : Generator) :
    (m.afterActive now g).2.active = g.active := by
  unfold afterActive
  split_ifs
  · exact active_bufferingLoop now m { g with bufferingStart := now }
  · rfl

@[simp] theorem active_checkCutoff (now : ℕ) (m : StreamMultiplexer) (g : Generator) (c : TokenChunk) :
    (m.checkCutoff now g c).2.active = g.active := by
  unfold checkCutoff
  dsimp only
  split_ifs
  · exact active_afterActive now m g
  · rfl

@[simp] theorem active_raise (m : StreamMultiplexer) (g : Generator) (e : Exc) :
    (m.raise g e).2.active = g.active := by
  cases e <;> rfl

theorem raise_spec (m : StreamMultiplexer) (g : Generator) (e : Exc) :
    (∃ e', (m.raise g e).2.point = .ended (.raised e')) ∧ (m.raise g e).2.log = g.log := by
  unfold StreamMultiplexer.raise
  split
  · exact ⟨⟨_, rfl⟩, rfl⟩
  · exact ⟨⟨_, rfl⟩, rfl⟩
  · exact ⟨⟨_, rfl⟩, rfl⟩

/-! ### What a generator reads from -/

/-- The upstreams, and how the standby is connected to. -/
def Generator.sources (g : Generator) : Upstream × Upstream × (ℤ → Except Exc Upstream) :=
  (g.active, g.standby, g.standbyFactory)

theorem sources_bufferingLoop (now : ℕ) (m : StreamMultiplexer) (g : Generator) :
    (m.bufferingLoop now g).2.sources = g.sources := by
  unfold bufferingLoop
  split_ifs <;> rfl

theorem sources_afterActive (now : ℕ) (m : StreamMultiplexer) (g : Generator) :
    (m.afterActive now g).2.sources = g.sources := by
  unfold afterActive
  split_ifs
  · exact sources_bufferingLoop now m { g with bufferingStart := now }
  · rfl

theorem sources_checkCutoff (now : ℕ) (m : StreamMultiplexer) (g : Generator) (c : TokenChunk) :
    (m.checkCutoff now g c).2.sources = g.sources := by
  unfold checkCutoff
  simp only
  split_ifs
  · exact sources_afterActive now m g
  · rfl

theorem sources_raise (m : StreamMultiplexer) (g : Generator) (e : Exc) :
    (m.raise g e).2.sources = g.sources := by
  unfold StreamMultiplexer.raise
  split <;> rfl

/-! ### What a move leaves alone -/

/-- What a session is told from outside; the generators never change it. -/
def StreamSessionState.signals (s : StreamSessionState) : String × Bool × ℤ :=
  (s.requestId, s.preemptionSignaled, s.cutoffSequenceId)

/-- A live generator of request `rid` with session `ref` has moved: other
requests' entries and other sessions are as they were, and its own entries are
there as long as it is live. -/
structure Moved (m : StreamMultiplexer) (rid : String) (ref : ℕ)
    (r : StreamMultiplexer × Generator) : Prop where
  requestId : r.2.requestId = rid
  session : r.2.session = ref
  heap : ∀ k, k ≠ ref → r.1.heap k = m.heap k
  signals : (r.1.heap ref).signals = (m.heap ref).signals
  elsewhere : TokenDeduplicator.SameElsewhere rid m.deduplicator r.1.deduplicator
  sessions : ∀ r', r' ≠ rid → r.1.activeSessions.get? r' = m.activeSessions.get? r'
  live : (r.2.Live ∧ r.1.activeSessions = m.activeSessions) ∨
    ((∃ o, r.2.point = .ended o) ∧ r.1.activeSessions.get? rid = none ∧
      r.1.deduplicator.lastFlushed.get? rid = none)

/-- A move that stays in the body and writes to the deduplicator at most. -/
theorem Moved.of_live {m m' : StreamMultiplexer} {g : Generator} (hh : m'.heap = m.heap)
    (ha : m'.activeSessions = m.activeSessions)
    (hd : TokenDeduplicator.SameElsewhere g.requestId m.deduplicator m'.deduplicator)
    (hl : g.Live) : Moved m g.requestId g.session (m', g) where
  requestId := rfl
  session := rfl
  heap _ _ := by rw [hh]
  signals := by rw [hh]
  elsewhere := hd
  sessions _ _ := by rw [ha]
  live := Or.inl ⟨hl, ha⟩

/-- The end of a generator, whatever it last wrote to its session. -/
theorem Moved.of_cleanup (m : StreamMultiplexer) (g : Generator) (o : Outcome)
    {f : StreamSessionState → StreamSessionState} (hf : ∀ s, (f s).signals = s.signals) :
    Moved m g.requestId g.session
      ((m.modifySession g.session f).cleanup g.requestId, g.at_ (.ended o)) where
  requestId := rfl
  session := rfl
  heap k hk := by simp [cleanup, modifySession, Function.update_of_ne hk]
  signals := by simp [cleanup, modifySession, hf]
  elsewhere := TokenDeduplicator.sameElsewhere_resetRequest _ _
  sessions r' hr' := Dict.get?_pop_ne _ hr'
  live := Or.inr ⟨⟨o, rfl⟩, Dict.get?_pop_self _ _, Dict.get?_pop_self _ _⟩

theorem modifySession_id (m : StreamMultiplexer) (ref : ℕ) : m.modifySession ref id = m := by
  simp [modifySession]

theorem Moved.cleanup (m : StreamMultiplexer) (g : Generator) (o : Outcome) :
    Moved m g.requestId g.session (m.cleanup g.requestId, g.at_ (.ended o)) := by
  have h := Moved.of_cleanup m g o (f := id) (fun _ => rfl)
  rwa [modifySession_id] at h

theorem moved_raise (m : StreamMultiplexer) (g : Generator) (e : Exc) :
    Moved m g.requestId g.session (m.raise g e) := by
  unfold StreamMultiplexer.raise
  split
  · exact Moved.cleanup m g _
  · exact Moved.cleanup m g _
  · exact Moved.of_cleanup m g _ (fun _ => rfl)

theorem moved_endOfStream (m : StreamMultiplexer) (g : Generator) :
    Moved m g.requestId g.session (m.endOfStream g) :=
  Moved.of_live (g := g.emit .done .yieldedDone) rfl rfl (.refl _ _) trivial

theorem moved_bufferingLoop (now : ℕ) (m : StreamMultiplexer) (g : Generator) :
    Moved m g.requestId g.session (m.bufferingLoop now g) := by
  unfold bufferingLoop
  split_ifs
  · exact Moved.of_live (g := g.at_ .callStandby) rfl rfl (.refl _ _) trivial
  · exact {
      requestId := rfl
      session := rfl
      heap := fun k hk => by simp [modifySession, Function.update_of_ne hk]
      signals := by simp [modifySession, StreamSessionState.signals]
      elsewhere := .refl _ _
      sessions := fun _ _ => rfl
      live := Or.inl ⟨trivial, rfl⟩ }
  · exact Moved.of_live (g := g.emit .keepAlive (.yieldedKeepAlive now)) rfl rfl (.refl _ _) trivial
  · exact Moved.of_live (g := g.at_ (.waitReady now)) rfl rfl (.refl _ _) trivial

theorem moved_afterActive (now : ℕ) (m : StreamMultiplexer) (g : Generator) :
    Moved m g.requestId g.session (m.afterActive now g) := by
  unfold afterActive
  split_ifs
  · exact moved_bufferingLoop now m { g with bufferingStart := now }
  · exact moved_endOfStream m g

theorem moved_checkCutoff (now : ℕ) (m : StreamMultiplexer) (g : Generator) (c : TokenChunk) :
    Moved m g.requestId g.session (m.checkCutoff now g c) := by
  unfold checkCutoff
  simp only
  split_ifs
  · exact moved_afterActive now m g
  · exact Moved.of_live (g := g.at_ .pullActive) rfl rfl (.refl _ _) trivial

/-- A live generator's resumption. -/
theorem Resumed.moved {now i : ℕ} {m : StreamMultiplexer} {g : Generator}
    {r : StreamMultiplexer × Generator} (h : Resumed now i m g r) (hl : g.Live) :
    Moved m g.requestId g.session r := by
  cases h with
  | start hp => simp [Generator.Live, hp] at hl
  | dropActive c rest =>
    exact moved_checkCutoff now m { g.record (.pulled c) with active := ⟨rest, g.active.ending⟩ } c
  | acceptActive c rest d hp hc hs hd he =>
    exact Moved.of_live (m := m)
      (g := ({ g.record (.pulled c) with active := ⟨rest, g.active.ending⟩ } : Generator).emit
        (.data c) (.yieldedActive c)) rfl rfl he trivial
  | gapActive c rest msg =>
    exact moved_raise m { g.record (.pulled c) with active := ⟨rest, g.active.ending⟩ } _
  | endActive => exact moved_afterActive now m (g.record (.upstreamEnded g.active.ending))
  | raiseActive e => exact moved_raise m (g.record (.upstreamEnded g.active.ending)) e
  | resumeActive c => exact moved_checkCutoff now m { g with lastActivityTime := now } c
  | resumeKeepAlive t =>
    exact Moved.of_live (g := { g with lastActivityTime := t, point := .waitReady now }) rfl rfl
      (.refl _ _) trivial
  | wake since => exact moved_bufferingLoop now m g
  | connectStandby u =>
    exact Moved.of_live (g := { g.record .connected with standby := u, point := .pullStandby }) rfl
      rfl (.refl _ _) trivial
  | failStandby e => exact moved_raise m g e
  | dropStandby c rest =>
    exact Moved.of_live (g := { g.record (.pulled c) with standby := ⟨rest, g.standby.ending⟩ }) rfl
      rfl (.refl _ _) hl
  | acceptStandby c rest d hp hc hs hd he =>
    exact Moved.of_live (m := m)
      (g := ({ g.record (.pulled c) with standby := ⟨rest, g.standby.ending⟩ } : Generator).emit
        (.data c) .yieldedStandby) rfl rfl he trivial
  | gapStandby c rest msg =>
    exact moved_raise m { g.record (.pulled c) with standby := ⟨rest, g.standby.ending⟩ } _
  | endStandby => exact moved_endOfStream m (g.record (.upstreamEnded g.standby.ending))
  | raiseStandby e => exact moved_raise m (g.record (.upstreamEnded g.standby.ending)) e
  | resumeStandby =>
    exact Moved.of_live (g := { g with lastActivityTime := now, point := .pullStandby }) rfl rfl
      (.refl _ _) trivial
  | finish => exact Moved.of_cleanup m g .completed (fun _ => rfl)

/-! ### One step of the system -/

/-- The body has been entered, or never will be. -/
def Generator.Started (g : Generator) : Prop := g.point ≠ .absent ∧ g.point ≠ .created

theorem Generator.Live.started {g : Generator} (h : g.Live) : g.Started := by
  unfold Generator.Live at h
  constructor <;> intro hp <;> simp [hp] at h

theorem Generator.Started.live_or_ended {g : Generator} (h : g.Started) :
    g.Live ∨ ∃ o, g.point = .ended o := by
  unfold Generator.Live
  cases hp : g.point with
  | absent => exact absurd hp h.1
  | created => exact absurd hp h.2
  | ended o => exact Or.inr ⟨o, rfl⟩
  | _ => exact Or.inl trivial

/-- What generator `i` does when it is resumed or closed. -/
inductive Turn (i : ℕ) (m : StreamMultiplexer) (g : Generator) (r : StreamMultiplexer × Generator) :
    Prop
  | starts (hp : g.point = .created) (hm : r.1 = (m.getOrCreateSession g.requestId i).1)
    (hr : r.2.requestId = g.requestId) (hs : r.2.session = (m.getOrCreateSession g.requestId i).2)
    (hl : r.2.Live)
  | dies (hp : g.point = .created) (hr : r = (m, g.at_ (.ended .closed)))
  | moves (hl : g.Live) (h : Moved m g.requestId g.session r)

theorem Resumed.live_or_created {now i : ℕ} {m : StreamMultiplexer} {g : Generator}
    {r : StreamMultiplexer × Generator} (h : Resumed now i m g r) :
    g.Live ∨ g.point = .created := by
  cases h <;> simp_all [Generator.Live]

theorem Resumed.live_of_created {now i : ℕ} {m : StreamMultiplexer} {g : Generator}
    {r : StreamMultiplexer × Generator} (h : Resumed now i m g r) (hp : g.point = .created) :
    r.2.Live ∧ r.2.requestId = g.requestId := by
  cases h with
  | start _ => exact ⟨trivial, rfl⟩
  | _ => simp_all

theorem turn_of_resume {now i : ℕ} {m : StreamMultiplexer} {g : Generator}
    {r : StreamMultiplexer × Generator} (h : m.streamWithHandover now i g = some r) :
    Turn i m g r := by
  have h := Resumed.of_eq h
  rcases h.live_or_created with hl | hp
  · exact .moves hl (h.moved hl)
  · cases h with
    | start _ => exact .starts hp rfl rfl rfl trivial
    | _ => simp_all

theorem turn_of_close {i : ℕ} {m : StreamMultiplexer} {g : Generator}
    {r : StreamMultiplexer × Generator} (h : m.close g = some r) : Turn i m g r := by
  unfold StreamMultiplexer.close at h
  split at h
  · cases h
  · cases h
  · exact .dies ‹_› (Option.some.inj h).symm
  · have hl : g.Live := by
      unfold Generator.Live
      split <;> simp_all
    obtain rfl := Option.some.inj h
    exact .moves hl (Moved.cleanup m g .closed)

/-- A message to a session: it keeps its request, and no signal is taken back. -/
structure Tells (f : StreamSessionState → StreamSessionState) : Prop where
  requestId : ∀ s, (f s).requestId = s.requestId
  preemptionSignaled : ∀ s, s.preemptionSignaled → (f s).preemptionSignaled
  handoverReady : ∀ s, s.handoverReady → (f s).handoverReady

/-- The system after a step: a generator object has been made, or a generator
has moved, or at most one session has been told something and time has passed. -/
theorem step_cases {s t : System} {l : Label} (h : s.step l = some t) :
    (∃ i rid a b, l = .call i rid a b ∧ (s.generators i).point = .absent ∧
      t = s.put i (s.mux, { requestId := rid, active := a, standbyFactory := b })) ∨
    (∃ i r, (l = .resume i ∨ l = .close i) ∧ Turn i s.mux (s.generators i) r ∧ t = s.put i r) ∨
    (∃ ref f dt, Tells f ∧
      t = { s with mux := s.mux.modifySession ref f, clock := s.clock + dt }) := by
  cases l with
  | call i rid a b =>
    simp only [System.step] at h
    split at h
    · rename_i hp
      exact Or.inl ⟨i, rid, a, b, rfl, hp, (Option.some.inj h).symm⟩
    · cases h
  | resume i =>
    obtain ⟨r, hr, rfl⟩ := Option.map_eq_some_iff.mp h
    exact Or.inr (Or.inl ⟨i, r, Or.inl rfl, turn_of_resume hr, rfl⟩)
  | close i =>
    obtain ⟨r, hr, rfl⟩ := Option.map_eq_some_iff.mp h
    exact Or.inr (Or.inl ⟨i, r, Or.inr rfl, turn_of_close hr, rfl⟩)
  | triggerPreemption rid cutoff =>
    obtain rfl := Option.some.inj h
    refine Or.inr (Or.inr ?_)
    unfold StreamMultiplexer.triggerPreemption
    split
    · refine ⟨_, _, 0, ?_, rfl⟩
      exact ⟨fun _ => rfl, fun _ _ => rfl, fun _ h => h⟩
    · exact ⟨0, id, 0, ⟨fun _ => rfl, fun _ h => h, fun _ h => h⟩, by rw [modifySession_id]; rfl⟩
  | triggerHandoverReady rid =>
    obtain rfl := Option.some.inj h
    refine Or.inr (Or.inr ?_)
    unfold StreamMultiplexer.triggerHandoverReady
    split
    · refine ⟨_, _, 0, ?_, rfl⟩
      exact ⟨fun _ => rfl, fun _ h => h, fun _ _ => rfl⟩
    · exact ⟨0, id, 0, ⟨fun _ => rfl, fun _ h => h, fun _ h => h⟩, by rw [modifySession_id]; rfl⟩
  | elapse dt =>
    obtain rfl := Option.some.inj h
    refine Or.inr (Or.inr ⟨0, id, dt, ⟨fun _ => rfl, fun _ h => h, fun _ h => h⟩, ?_⟩)
    rw [modifySession_id]

@[simp] theorem System.put_mux (s : System) (i : ℕ) (r : StreamMultiplexer × Generator) :
    (s.put i r).mux = r.1 := rfl

@[simp] theorem System.put_self (s : System) (i : ℕ) (r : StreamMultiplexer × Generator) :
    (s.put i r).generators i = r.2 := Function.update_self ..

theorem System.put_of_ne (s : System) {i j : ℕ} (h : j ≠ i) (r : StreamMultiplexer × Generator) :
    (s.put i r).generators j = s.generators j := Function.update_of_ne h ..

/-! ### What the tables know -/

/-- The tables have entries of live requests only, and every session in use is
that of its request. -/
structure Tables (s : System) : Prop where
  flushed : ∀ rid, s.mux.deduplicator.lastFlushed.get? rid ≠ none →
    ∃ j, (s.generators j).Live ∧ (s.generators j).requestId = rid
  sessions : ∀ rid k, s.mux.activeSessions.get? rid = some k →
    (s.generators k).Started ∧ (s.mux.heap k).requestId = rid ∧
      ∃ j, (s.generators j).Live ∧ (s.generators j).requestId = rid
  refs : ∀ j, (s.generators j).Live → (s.generators (s.generators j).session).Started ∧
    (s.mux.heap (s.generators j).session).requestId = (s.generators j).requestId

theorem tables_init (c : ℕ) (h : 0 < c) (ka : ℕ) : Tables (System.init c h ka) where
  flushed _ hf := absurd rfl hf
  sessions _ _ hs := by cases hs
  refs _ hj := hj.elim

theorem Moved.heap_requestId {m : StreamMultiplexer} {rid : String} {ref : ℕ}
    {r : StreamMultiplexer × Generator} (h : Moved m rid ref r) (k : ℕ) :
    (r.1.heap k).requestId = (m.heap k).requestId := by
  by_cases hk : k = ref
  · subst hk
    exact congrArg Prod.fst h.signals
  · rw [h.heap k hk]

theorem Moved.started {m : StreamMultiplexer} {rid : String} {ref : ℕ}
    {r : StreamMultiplexer × Generator} (h : Moved m rid ref r) : r.2.Started := by
  rcases h.live with ⟨hl, -⟩ | ⟨⟨o, ho⟩, -⟩
  · exact hl.started
  · simp [Generator.Started, ho]

theorem started_put {s : System} {i k : ℕ} {r : StreamMultiplexer × Generator} (hr : r.2.Started)
    (hk : (s.generators k).Started) : ((s.put i r).generators k).Started := by
  by_cases h : k = i
  · subst h
    rwa [System.put_self]
  · rwa [System.put_of_ne s h]

/-- A request with another live generator has it after the move too. -/
theorem live_put_of_ne {s : System} {i : ℕ} {r : StreamMultiplexer × Generator} {rid : String}
    (h : ∃ j, (s.generators j).Live ∧ (s.generators j).requestId = rid)
    (hne : rid ≠ (s.generators i).requestId) :
    ∃ j, ((s.put i r).generators j).Live ∧ ((s.put i r).generators j).requestId = rid := by
  obtain ⟨j, hj, hrid⟩ := h
  have hji : j ≠ i := by
    rintro rfl
    exact hne hrid.symm
  exact ⟨j, by rwa [System.put_of_ne s hji], by rwa [System.put_of_ne s hji]⟩

theorem tables_moves {s : System} {i : ℕ} {r : StreamMultiplexer × Generator} (ht : Tables s)
    (hl : (s.generators i).Live)
    (h : Moved s.mux (s.generators i).requestId (s.generators i).session r) :
    Tables (s.put i r) where
  flushed rid hf := by
    by_cases hrid : rid = (s.generators i).requestId
    · subst hrid
      rcases h.live with ⟨hl', -⟩ | ⟨-, -, hnone⟩
      · exact ⟨i, by rwa [System.put_self], by rw [System.put_self, h.requestId]⟩
      · exact absurd hnone hf
    · rw [System.put_mux, (h.elsewhere rid hrid).1] at hf
      exact live_put_of_ne (ht.flushed rid hf) hrid
  sessions rid k hk := by
    rw [System.put_mux] at hk ⊢
    rw [h.heap_requestId k]
    by_cases hrid : rid = (s.generators i).requestId
    · subst hrid
      rcases h.live with ⟨hl', ha⟩ | ⟨-, hnone, -⟩
      · rw [ha] at hk
        obtain ⟨h1, h2, -⟩ := ht.sessions _ k hk
        exact ⟨started_put h.started h1, h2, i, by rwa [System.put_self],
          by rw [System.put_self, h.requestId]⟩
      · rw [hnone] at hk
        cases hk
    · rw [h.sessions rid hrid] at hk
      obtain ⟨h1, h2, h3⟩ := ht.sessions rid k hk
      exact ⟨started_put h.started h1, h2, live_put_of_ne h3 hrid⟩
  refs j hj := by
    rw [System.put_mux, h.heap_requestId]
    by_cases hji : j = i
    · subst hji
      rw [System.put_self, h.session, h.requestId]
      exact ⟨started_put h.started (ht.refs j hl).1, (ht.refs j hl).2⟩
    · rw [System.put_of_ne s hji] at hj ⊢
      exact ⟨started_put h.started (ht.refs j hj).1, (ht.refs j hj).2⟩

/-- The session a starting generator gets: its own request's, or a new one. -/
theorem getOrCreateSession_spec (m : StreamMultiplexer) (rid : String) (fresh : ℕ) :
    (m.getOrCreateSession rid fresh).1.deduplicator = m.deduplicator ∧
    (m.getOrCreateSession rid fresh).1.activeSessions.get? rid =
      some (m.getOrCreateSession rid fresh).2 ∧
    (∀ rid', rid' ≠ rid →
      (m.getOrCreateSession rid fresh).1.activeSessions.get? rid' = m.activeSessions.get? rid') ∧
    (∀ k, k ≠ fresh → (m.getOrCreateSession rid fresh).1.heap k = m.heap k) ∧
    ((m.activeSessions.get? rid = some (m.getOrCreateSession rid fresh).2 ∧
        (m.getOrCreateSession rid fresh).1 = m) ∨
      (m.activeSessions.get? rid = none ∧ (m.getOrCreateSession rid fresh).2 = fresh ∧
        (m.getOrCreateSession rid fresh).1.heap fresh = { requestId := rid })) := by
  unfold getOrCreateSession
  split
  · rename_i ref href
    exact ⟨rfl, href, fun _ _ => rfl, fun _ _ => rfl, Or.inl ⟨href, rfl⟩⟩
  · rename_i hnone
    exact ⟨rfl, Dict.get?_set_self _ _ _, fun _ h => Dict.get?_set_ne _ h _,
      fun _ h => Function.update_of_ne h .., Or.inr ⟨hnone, rfl, Function.update_self ..⟩⟩

theorem tables_starts {s : System} {i : ℕ} {r : StreamMultiplexer × Generator} (ht : Tables s)
    (hp : (s.generators i).point = .created)
    (hm : r.1 = (s.mux.getOrCreateSession (s.generators i).requestId i).1)
    (hr : r.2.requestId = (s.generators i).requestId)
    (hs : r.2.session = (s.mux.getOrCreateSession (s.generators i).requestId i).2)
    (hl : r.2.Live) : Tables (s.put i r) := by
  obtain ⟨hd, hself, helse, hheap, hcase⟩ :=
    getOrCreateSession_spec s.mux (s.generators i).requestId i
  have hi : ((s.put i r).generators i).Live ∧
      ((s.put i r).generators i).requestId = (s.generators i).requestId := by
    rw [System.put_self]
    exact ⟨hl, hr⟩
  -- a session in use before is not the one allocated here
  have hne : ∀ k, (s.generators k).Started → k ≠ i := by
    rintro k hk rfl
    exact hk.2 hp
  have hnew : ((s.put i r).generators (s.mux.getOrCreateSession (s.generators i).requestId i).2).Started
      ∧ (r.1.heap (s.mux.getOrCreateSession (s.generators i).requestId i).2).requestId =
        (s.generators i).requestId := by
    rcases hcase with ⟨hold, hsame⟩ | ⟨-, href, hh⟩
    · obtain ⟨h1, h2, -⟩ := ht.sessions _ _ hold
      exact ⟨started_put hl.started h1, by rw [hm, hsame, h2]⟩
    · rw [href, System.put_self, hm, hh]
      exact ⟨hl.started, rfl⟩
  constructor
  · intro rid hf
    rw [System.put_mux, hm, hd] at hf
    by_cases hrid : rid = (s.generators i).requestId
    · exact ⟨i, hi.1, hi.2.trans hrid.symm⟩
    · exact live_put_of_ne (ht.flushed rid hf) hrid
  · intro rid k hk
    rw [System.put_mux] at hk ⊢
    by_cases hrid : rid = (s.generators i).requestId
    · subst hrid
      rw [hm, hself] at hk
      obtain rfl := Option.some.inj hk
      exact ⟨hnew.1, hnew.2, i, hi⟩
    · rw [hm, helse rid hrid] at hk
      obtain ⟨h1, h2, h3⟩ := ht.sessions rid k hk
      rw [hm, hheap k (hne k h1)]
      exact ⟨started_put hl.started h1, h2, live_put_of_ne h3 hrid⟩
  · intro j hj
    by_cases hji : j = i
    · subst hji
      rw [System.put_self, hs, hr]
      exact hnew
    · rw [System.put_of_ne s hji] at hj ⊢
      obtain ⟨h1, h2⟩ := ht.refs j hj
      rw [System.put_mux, hm, hheap _ (hne _ h1)]
      exact ⟨started_put hl.started h1, h2⟩

theorem live_of_put {s : System} {i : ℕ} {r : StreamMultiplexer × Generator} {rid : String}
    (hi : ¬ (s.generators i).Live)
    (h : ∃ j, (s.generators j).Live ∧ (s.generators j).requestId = rid) :
    ∃ j, ((s.put i r).generators j).Live ∧ ((s.put i r).generators j).requestId = rid := by
  obtain ⟨j, hj, hrid⟩ := h
  have hji : j ≠ i := by
    rintro rfl
    exact hi hj
  exact ⟨j, by rwa [System.put_of_ne s hji], by rwa [System.put_of_ne s hji]⟩

/-- A generator that has not started may be replaced by one that does not run. -/
theorem tables_idle {s : System} {i : ℕ} {g : Generator} (ht : Tables s)
    (hi : ¬ (s.generators i).Started) (hg : ¬ g.Live) : Tables (s.put i (s.mux, g)) := by
  have hl : ¬ (s.generators i).Live := fun h => hi h.started
  have hk : ∀ k, (s.generators k).Started → ((s.put i (s.mux, g)).generators k).Started := by
    intro k hk
    have hki : k ≠ i := by
      rintro rfl
      exact hi hk
    rwa [System.put_of_ne s hki]
  constructor
  · exact fun rid hf => live_of_put hl (ht.flushed rid hf)
  · intro rid k h
    obtain ⟨h1, h2, h3⟩ := ht.sessions rid k h
    exact ⟨hk k h1, h2, live_of_put hl h3⟩
  · intro j hj
    have hji : j ≠ i := by
      rintro rfl
      rw [System.put_self] at hj
      exact hg hj
    rw [System.put_of_ne s hji] at hj ⊢
    exact ⟨hk _ (ht.refs j hj).1, (ht.refs j hj).2⟩

theorem tables_tells {s : System} {ref : ℕ} {f : StreamSessionState → StreamSessionState}
    (ht : Tables s) (hf : Tells f) (dt : ℕ) :
    Tables { s with mux := s.mux.modifySession ref f, clock := s.clock + dt } := by
  have hh : ∀ k, ((s.mux.modifySession ref f).heap k).requestId = (s.mux.heap k).requestId := by
    intro k
    by_cases hk : k = ref
    · subst hk
      simp [modifySession, hf.requestId]
    · simp [modifySession, Function.update_of_ne hk]
  exact ⟨ht.flushed, fun rid k hk => by
      rw [hh]
      exact ht.sessions rid k hk, fun j hj => by
      rw [hh]
      exact ht.refs j hj⟩

theorem tables_step {s t : System} {l : Label} (ht : Tables s) (h : s.step l = some t) :
    Tables t := by
  rcases step_cases h with ⟨i, rid, a, b, -, hp, rfl⟩ | ⟨i, r, -, hr, rfl⟩ | ⟨ref, f, dt, hf, rfl⟩
  · exact tables_idle ht (fun hs => hs.1 hp) id
  · cases hr with
    | starts hp hm hr hs hl => exact tables_starts ht hp hm hr hs hl
    | dies hp hr =>
      subst hr
      exact tables_idle ht (fun hs => hs.2 hp) id
    | moves hl h => exact tables_moves ht hl h
  · exact tables_tells ht hf dt

/-! ### A request of one's own -/

/-- While generator `i` is live, no other live generator has its request. -/
def Apart (i : ℕ) (s : System) : Prop :=
  ∀ j, j ≠ i → (s.generators j).Live → (s.generators i).Live →
    (s.generators j).requestId ≠ (s.generators i).requestId

/-- The tables are in order, and generator `i` has its request, and the session
made at its start, for itself. -/
structure Owned (i : ℕ) (s : System) : Prop where
  tables : Tables s
  apart : Apart i s
  session : (s.generators i).Live → (s.generators i).session = i ∧
    s.mux.activeSessions.get? (s.generators i).requestId = some i

/-- Another's move, as generator `i` sees it: its session may have been told
something. -/
structure Elsewhere (i : ℕ) (s t : System) : Prop where
  generator : t.generators i = s.generators i
  clock : s.clock ≤ t.clock
  flushed : (s.generators i).Live →
    t.mux.deduplicator.getLastFlushed (s.generators i).requestId =
      s.mux.deduplicator.getLastFlushed (s.generators i).requestId
  sessions : (s.generators i).Live → t.mux.activeSessions.get? (s.generators i).requestId =
    s.mux.activeSessions.get? (s.generators i).requestId
  heap : (s.generators i).Live → ∃ f, Tells f ∧ t.mux.heap i = f (s.mux.heap i)

theorem tells_id : Tells id := ⟨fun _ => rfl, fun _ h => h, fun _ h => h⟩

theorem owned_init (c : ℕ) (h : 0 < c) (ka i : ℕ) : Owned i (System.init c h ka) :=
  ⟨tables_init c h ka, fun _ _ h => h.elim, fun h => h.elim⟩

/-- A request that only a generator about to start has is in no table. -/
theorem fresh_of_starts {s : System} {i : ℕ} {r : StreamMultiplexer × Generator} (ht : Tables s)
    (hp : (s.generators i).point = .created) (hr : r.2.requestId = (s.generators i).requestId)
    (hl : r.2.Live) (ha : Apart i (s.put i r)) :
    s.mux.deduplicator.lastFlushed.get? (s.generators i).requestId = none ∧
      s.mux.activeSessions.get? (s.generators i).requestId = none := by
  have hno : ¬ ∃ j, (s.generators j).Live ∧ (s.generators j).requestId = (s.generators i).requestId := by
    rintro ⟨j, hj, hrid⟩
    have hji : j ≠ i := by
      rintro rfl
      exact hj.started.2 hp
    have := ha j hji
    rw [System.put_of_ne s hji, System.put_self, hr] at this
    exact this hj hl hrid
  constructor
  · by_contra hf
    exact hno (ht.flushed _ hf)
  · by_contra hf
    obtain ⟨k, hk⟩ := Option.ne_none_iff_exists'.mp hf
    exact hno (ht.sessions _ k hk).2.2

/-- Another generator that starts or moves does not have this one's request. -/
theorem ne_of_turn {s : System} {i j : ℕ} {r : StreamMultiplexer × Generator} (hji : j ≠ i)
    (hl : r.2.Live) (hrid : r.2.requestId = (s.generators j).requestId) (ha : Apart i (s.put j r))
    (hi : (s.generators i).Live) : (s.generators i).requestId ≠ (s.generators j).requestId := by
  intro heq
  have hg := s.put_of_ne (Ne.symm hji) r
  refine ha j hji (by rwa [System.put_self]) (by rwa [hg]) ?_
  rw [System.put_self, hg, hrid, heq]

/-- A turn of another generator does not touch the session. -/
theorem heap_of_turn {s : System} {i j : ℕ} {r : StreamMultiplexer × Generator} (ho : Owned i s)
    (hji : j ≠ i) (hr : Turn j s.mux (s.generators j) r) (hi : (s.generators i).Live) :
    r.1.heap i = s.mux.heap i := by
  cases hr with
  | starts hp hm hrid hs hl =>
    rw [hm]
    exact (getOrCreateSession_spec s.mux (s.generators j).requestId j).2.2.2.1 i (Ne.symm hji)
  | dies hp hr =>
    subst hr
    rfl
  | moves hl hm =>
    -- two live generators with one session would have one request
    refine hm.heap i fun heq => ho.apart j hji hl hi ?_
    rw [← (ho.tables.refs i hi).2, ← (ho.tables.refs j hl).2, ← heq, (ho.session hi).1]

/-- A turn of another generator. -/
theorem elsewhere_of_turn {s : System} {i j : ℕ} {r : StreamMultiplexer × Generator}
    (ho : Owned i s) (hji : j ≠ i) (hr : Turn j s.mux (s.generators j) r)
    (ha : Apart i (s.put j r)) : Elsewhere i s (s.put j r) := by
  have hg := s.put_of_ne (Ne.symm hji) r
  have hheap : (s.generators i).Live → ∃ f, Tells f ∧ r.1.heap i = f (s.mux.heap i) :=
    fun hi => ⟨id, tells_id, heap_of_turn ho hji hr hi⟩
  cases hr with
  | starts hp hm hrid hs hl =>
    obtain ⟨hd, -, helse, -, -⟩ := getOrCreateSession_spec s.mux (s.generators j).requestId j
    refine ⟨hg, le_rfl, fun _ => ?_, fun hi => ?_, hheap⟩
    · rw [System.put_mux, hm, hd]
    · rw [System.put_mux, hm, helse _ (ne_of_turn hji hl hrid ha hi)]
  | dies hp hr =>
    subst hr
    exact ⟨hg, le_rfl, fun _ => rfl, fun _ => rfl, hheap⟩
  | moves hl hm =>
    have hne : (s.generators i).Live → (s.generators i).requestId ≠ (s.generators j).requestId :=
      fun hi heq => ho.apart j hji hl hi heq.symm
    refine ⟨hg, le_rfl, fun hi => ?_, fun hi => ?_, hheap⟩
    · simp only [System.put_mux, TokenDeduplicator.getLastFlushed, (hm.elsewhere _ (hne hi)).1]
    · rw [System.put_mux, hm.sessions _ (hne hi)]

/-- A turn of the generator's own. -/
theorem owned_of_turn {s : System} {i : ℕ} {r : StreamMultiplexer × Generator} (ho : Owned i s)
    (hr : Turn i s.mux (s.generators i) r) (ht : Tables (s.put i r)) (ha : Apart i (s.put i r)) :
    Owned i (s.put i r) := by
  refine ⟨ht, ha, fun hi => ?_⟩
  rw [System.put_self] at hi ⊢
  cases hr with
  | starts hp hm hrid hs hl =>
    obtain ⟨-, hself, -, -, hcase⟩ := getOrCreateSession_spec s.mux (s.generators i).requestId i
    rcases hcase with ⟨hold, -⟩ | ⟨-, href, -⟩
    · rw [(fresh_of_starts ho.tables hp hrid hl ha).2] at hold
      cases hold
    · rw [System.put_mux, hs, href, hrid, hm, hself, href]
      exact ⟨rfl, rfl⟩
  | dies hp hr =>
    subst hr
    exact hi.elim
  | moves hl hm =>
    rcases hm.live with ⟨-, hact⟩ | ⟨⟨o, hend⟩, -⟩
    · rw [System.put_mux, hact, hm.session, hm.requestId]
      exact ho.session hl
    · simp [Generator.Live, hend] at hi

/-- A step, seen from a generator that has its request for itself. -/
theorem owned_step {s t : System} {l : Label} {i : ℕ} (ho : Owned i s) (h : s.step l = some t)
    (ha : Apart i t) :
    Owned i t ∧ ((l = .resume i ∨ l = .close i) ∨
      (∃ rid a b, l = .call i rid a b ∧ (s.generators i).point = .absent) ∨ Elsewhere i s t) := by
  have ht' : Tables t := tables_step ho.tables h
  rcases step_cases h with ⟨j, rid, a, b, rfl, hp, rfl⟩ | ⟨j, r, hl, hr, rfl⟩ | ⟨ref, f, dt, hf, rfl⟩
  · by_cases hji : j = i
    · subst hji
      refine ⟨⟨ht', ha, fun hlive => ?_⟩, Or.inr (Or.inl ⟨rid, a, b, rfl, hp⟩)⟩
      rw [System.put_self] at hlive
      exact hlive.elim
    · have hg := s.put_of_ne (Ne.symm hji)
        (s.mux, { requestId := rid, active := a, standbyFactory := b })
      refine ⟨⟨ht', ha, fun hlive => ?_⟩, Or.inr (Or.inr ?_)⟩
      · rw [hg] at hlive ⊢
        exact ho.session hlive
      · exact ⟨hg, le_rfl, fun _ => rfl, fun _ => rfl, fun _ => ⟨id, tells_id, rfl⟩⟩
  · by_cases hji : j = i
    · subst hji
      exact ⟨owned_of_turn ho hr ht' ha, Or.inl hl⟩
    · have he := elsewhere_of_turn ho hji hr ha
      refine ⟨⟨ht', ha, fun hlive => ?_⟩, Or.inr (Or.inr he)⟩
      rw [he.generator] at hlive ⊢
      rw [he.sessions hlive]
      exact ho.session hlive
  · refine ⟨⟨ht', ha, ho.session⟩, Or.inr (Or.inr ?_)⟩
    refine ⟨rfl, Nat.le_add_right .., fun _ => rfl, fun _ => rfl, fun _ => ?_⟩
    by_cases hi : i = ref
    · subst hi
      exact ⟨f, hf, Function.update_self ..⟩
    · exact ⟨id, tells_id, Function.update_of_ne hi ..⟩

/-- The label is not about another generator. -/
def Label.About (i : ℕ) : Label → Prop
  | .call j _ _ _ | .resume j | .close j => j = i
  | _ => True

theorem absent_step {s t : System} {l : Label} {i : ℕ}
    (hs : ∀ j, j ≠ i → (s.generators j).point = .absent) (ht : s.step l = some t)
    (hl : l.About i) : ∀ j, j ≠ i → (t.generators j).point = .absent := by
  intro j hj
  rcases step_cases ht with ⟨k, _, _, _, rfl, -, rfl⟩ | ⟨k, r, hk, -, rfl⟩ | ⟨_, _, _, -, rfl⟩
  · obtain rfl : k = i := hl
    rw [System.put_of_ne s hj]
    exact hs j hj
  · obtain rfl : k = i := by rcases hk with rfl | rfl <;> exact hl
    rw [System.put_of_ne s hj]
    exact hs j hj
  · exact hs j hj

/-- A request served by one generator only is not concurrently in use. -/
theorem apart_of_about {i c ka : ℕ} {hc : 0 < c} {ls : List Label} (h : ∀ l ∈ ls, l.About i) :
    Machine.Along System.step (fun _ _ t => Apart i t) (System.init c hc ka) ls := by
  refine Machine.Along.of_inv (I := fun s => ∀ j, j ≠ i → (s.generators j).point = .absent)
    (Q := fun _ l _ => l.About i) (fun _ _ _ hs ht hl => absent_step hs ht hl) ?_
    (fun _ _ => rfl) (Machine.Along.of_labels h)
  exact fun s l t hs ht hl j hj hlive =>
    absurd (absent_step hs ht hl j hj) hlive.started.1

end Sgm
