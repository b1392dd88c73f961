/-
# Aborting resumed streams

The hooks of TensorRT-LLM and TGI keep the response of each resumed stream
under its request id, so that `abort_request` can close it. The machine here is
one hook with any number of `stream_resumed` generators and of calls of
`abort_request`; a step takes one of them from one suspension to the next.
Closing a response ends the iteration of its content.

A handle is registered when the headers have come, and taken away by the
`finally` clause of any stream of the same id. So every open response has its
handle exactly in the runs where, whenever a response comes or a stream cleans
up, no response of the same id is open (`registered_iff`). An abort is final in
those of them where it does not come while a stream of its id waits for the
headers (`abort_final`).

Key definitions: `HandleHook`, `ResumedStream.next`, `Handles.step`, `Registered`, `Orderly`,
`AbortsFinal`.
Key theorems: `Sound.next`, `Silent.next`, `registered_iff`, `abort_final`.
-/
import Sgm.Integrations.Streaming
import Sgm.Lib.Machine

namespace Sgm

/-! ### A stream -/

/-- What the machine needs of a hook: the parser of a stream's lines, by the
format and the request id, the local variables it begins with, and whether
`abort_request` posts a request where it finds no handle. -/
structure HandleHook (σ : Type) where
  parser : Bool → String → LineParser σ
  start : InferenceSession → σ
  fallsBack : Bool

/-- Where a `stream_resumed` generator is suspended. -/
inductive StreamPoint
  | absent
  /-- called, and not yet started -/
  | created
  /-- in `__aenter__`, waiting for the headers -/
  | connecting
  /-- in the iteration of the content -/
  | pulling
  /-- at a `yield`, with what the same line still yields, and whether the next
  line is read after that -/
  | yielded (rest : List TokenChunk) (goesOn : Bool)
  /-- in `__aexit__`, with the response released -/
  | leaving
  | ended
  deriving DecidableEq

/-- A generator and its response. The chunks are a log of what it has yielded. -/
structure ResumedStream (σ : Type) [Inhabited σ] where
  requestId : String := ""
  compat : Bool := false
  point : StreamPoint := .absent
  isOpen : Bool := false
  vars : σ := default
  chunks : List TokenChunk := []

inductive StreamLabel
  | call (session : InferenceSession) (compat : Bool)
  | start
  | respond (status : ℕ)
  | line (lineBytes : Bytes)
  | eof
  /-- an exception where the generator is suspended: of the network, of a
  content whose response was closed, a cancellation, or `aclose` -/
  | throw
  /-- the consumer asks for the next chunk -/
  | resume
  | finish

namespace ResumedStream

variable {σ : Type} [Inhabited σ] (hook : HandleHook σ) (k : ResumedStream σ)

def parser : LineParser σ := hook.parser k.compat k.requestId

def close : ResumedStream σ := { k with isOpen := false }

/-- Out of the `async with` block. -/
def leave : ResumedStream σ := { k with point := .leaving, isOpen := false }

/-- On to the next chunk, or to what follows the last one. -/
def advance (out : List TokenChunk) (goesOn : Bool) : ResumedStream σ :=
  match out with
  | chunk :: rest => { k with point := .yielded rest goesOn, chunks := k.chunks ++ [chunk] }
  | [] => if goesOn then { k with point := .pulling } else k.leave

def next : StreamLabel → Option (ResumedStream σ)
  | .call session compat =>
    if k.point = .absent then
      some { requestId := session.requestId, compat := compat, point := .created,
             vars := hook.start session }
    else none
  | .start => if k.point = .created then some { k with point := .connecting } else none
  | .respond status =>
    if k.point = .connecting then
      some (if status = 200 then { k with point := .pulling, isOpen := true } else k.leave)
    else none
  | .line lineBytes =>
    if k.point = .pulling ∧ k.isOpen = true then
      let (vars, out, goesOn) := (k.parser hook).read k.vars lineBytes
      some (advance { k with vars := vars } out goesOn)
    else none
  | .eof =>
    if k.point = .pulling then some (k.advance ((k.parser hook).conclude k.vars) false) else none
  | .throw =>
    match k.point with
    | .created | .connecting => some { k with point := .ended }
    | .pulling | .yielded _ _ => some k.leave
    | .absent | .leaving | .ended => none
  | .resume =>
    match k.point with
    | .yielded rest goesOn => some (k.advance rest goesOn)
    | _ => none
  | .finish => if k.point = .leaving then some { k with point := .ended } else none

/-- What the step of stream `i` does to `_active_streams`: the response is
registered when it comes, and the `finally` clause unregisters the id. -/
def registry (i : ℕ) (activeStreams : Dict String ℕ) : StreamLabel → Dict String ℕ
  | .respond _ => activeStreams.set k.requestId i
  | .finish => activeStreams.pop k.requestId
  | .throw => if k.point = .connecting then activeStreams.pop k.requestId else activeStreams
  | .call _ _ | .start | .line _ | .eof | .resume => activeStreams

/-- The generator has been started. -/
def Begun : Prop := k.point ≠ .absent ∧ k.point ≠ .created

end ResumedStream

/-! ### The hook -/

/-- A call of `abort_request`. -/
inductive AbortPoint
  | absent
  /-- in the request that stands in for closing a response -/
  | posting (requestId : String)
  | returned (requestId : String) (success : Bool)
  deriving DecidableEq

structure Handles (σ : Type) [Inhabited σ] where
  activeStreams : Dict String ℕ := .empty
  streams : ℕ → ResumedStream σ := fun _ => {}
  aborts : ℕ → AbortPoint := fun _ => .absent

inductive HandleLabel
  | stream (i : ℕ) (label : StreamLabel)
  | abort (a : ℕ) (requestId : String)
  | abortReply (a : ℕ) (success : Bool)

namespace Handles

variable {σ : Type} [Inhabited σ] (hook : HandleHook σ) (s : Handles σ)

def put (i : ℕ) (k : ResumedStream σ) : Handles σ := { s with streams := Function.update s.streams i k }

@[simp] theorem put_self (i : ℕ) (k : ResumedStream σ) : (s.put i k).streams i = k :=
  Function.update_self ..

theorem put_of_ne {i j : ℕ} (h : j ≠ i) (k : ResumedStream σ) : (s.put i k).streams j = s.streams j :=
  Function.update_of_ne h ..

def setAbort (a : ℕ) (point : AbortPoint) : Handles σ :=
  { s with aborts := Function.update s.aborts a point }

/-- `abort_request` up to its first suspension, or to its end. -/
def abortRequest (a : ℕ) (requestId : String) : Handles σ :=
  match s.activeStreams.get? requestId with
  | some i =>
    ({ s with activeStreams := s.activeStreams.pop requestId }.put i (s.streams i).close).setAbort a
      (.returned requestId true)
  | none => s.setAbort a (if hook.fallsBack then .posting requestId else .returned requestId true)

def step (s : Handles σ) : HandleLabel → Option (Handles σ)
  | .stream i label =>
    ((s.streams i).next hook label).map fun k =>
      { s with activeStreams := (s.streams i).registry i s.activeStreams label }.put i k
  | .abort a requestId => if s.aborts a = .absent then some (s.abortRequest hook a requestId) else none
  | .abortReply a success =>
    match s.aborts a with
    | .posting requestId => some (s.setAbort a (.returned requestId success))
    | .absent | .returned _ _ => none

/-- No response of the id is open. -/
def NoneOpen (requestId : String) : Prop :=
  ∀ j, (s.streams j).requestId = requestId → (s.streams j).isOpen = false

/-- A response comes, or a stream cleans up, only when no response of the id is
open. -/
def KeepsHandles : HandleLabel → Prop
  | .stream i (.respond _) | .stream i .finish => s.NoneOpen (s.streams i).requestId
  | .stream i .throw => (s.streams i).point = .connecting → s.NoneOpen (s.streams i).requestId
  | _ => True

/-- An abort does not come while a stream of its id waits for the headers. -/
def NoneConnecting : HandleLabel → Prop
  | .abort _ requestId => ∀ j, (s.streams j).requestId = requestId → (s.streams j).point ≠ .connecting
  | _ => True

def Orderly (label : HandleLabel) : Prop := s.KeepsHandles label ∧ s.NoneConnecting label

/-- Every open response has its handle. -/
def Registered : Prop :=
  ∀ i, (s.streams i).isOpen = true → s.activeStreams.get? (s.streams i).requestId = some i

end Handles

/-! ### One chunk for a line -/

/-- A parser that yields one chunk for a line at most, and none after the loop,
where the local variables are `good`. -/
structure LineParser.Single {σ : Type} (p : LineParser σ) (good : σ → Prop) : Prop where
  line : ∀ s l, good s → (p.line s l).2.1.length ≤ 1 ∧ good (p.line s l).1
  conclude : ∀ s, good s → p.conclude s = []

theorem LineParser.Single.read {σ : Type} {p : LineParser σ} {good : σ → Prop} (h : p.Single good)
    {s : σ} (hs : good s) (l : Bytes) : (p.read s l).2.1.length ≤ 1 ∧ good (p.read s l).1 := by
  obtain ⟨hlen, hgood⟩ := h.line s l hs
  rcases hline : p.line s l with ⟨s', out, after⟩
  rw [hline] at hlen hgood
  cases after with
  | next =>
    rw [LineParser.read_next hline]
    exact ⟨hlen, hgood⟩
  | failed =>
    rw [LineParser.read_failed hline]
    exact ⟨hlen, hgood⟩
  | stop =>
    rw [LineParser.read_stop hline, h.conclude s' hgood, List.append_nil]
    exact ⟨hlen, hgood⟩

theorem TensorRTLLMEngineHook.single_lines (requestId : String) :
    (TensorRTLLMEngineHook.parser requestId).Single fun _ => True := by
  refine ⟨?_, fun _ _ => rfl⟩
  intro nextSeq l _
  refine ⟨?_, trivial⟩
  show (parseLine requestId nextSeq l).2.1.length ≤ 1
  rcases parseLine_cases requestId nextSeq l with ⟨after, h⟩ | ⟨token, isFinal, h⟩
  · rw [h]
    exact Nat.zero_le 1
  · rw [h]
    exact Nat.le_refl 1

namespace TGIEngineHook

theorem used_feed {f f' : SlidingWindowStopFilter} {raw : Json} {tokens : List PyStr} (hf : f.Used)
    (h : feed f raw = some (f', tokens)) : f'.Used ∧ tokens.length ≤ 1 := by
  unfold feed at h
  split at h
  · obtain ⟨rfl, rfl⟩ := Prod.mk.inj (Option.some.inj h)
    exact ⟨hf, Nat.zero_le 1⟩
  · split at h
    · rename_i text
      have hpair := Option.some.inj h
      have hused := hf.feed text
      have hlen := f.length_feed text
      rw [hpair] at hused hlen
      exact ⟨hused, hlen⟩
    · split at h
      · cases h
      · obtain ⟨rfl, rfl⟩ := Prod.mk.inj (Option.some.inj h)
        exact ⟨hf, Nat.zero_le 1⟩

theorem single_lines (compat : Bool) (requestId : String) :
    (parser compat requestId).Single fun s => s.stopFilter.Used := by
  constructor
  · intro s l hs
    show (parseLine compat requestId s l).2.1.length ≤ 1 ∧
      (parseLine compat requestId s l).1.stopFilter.Used
    rcases parseLine_cases compat requestId s l with ⟨after, h⟩ | ⟨_, _, tokens, after, hfeed, h⟩
    · rw [h]
      exact ⟨Nat.zero_le 1, hs⟩
    · obtain ⟨hused, hlen⟩ := used_feed hs hfeed
      rw [h]
      refine ⟨?_, hused⟩
      rw [length_numberTokens]
      exact hlen
  · intro s hs
    show numberTokens requestId true [] s.nextSeq s.stopFilter.flushFinal.2 = []
    rw [SlidingWindowStopFilter.Used.flushFinal hs]
    rfl

end TGIEngineHook

/-! ### The hooks -/

instance : Inhabited TGIEngineHook.StreamState := ⟨⟨0, .new none⟩⟩

def TensorRTLLMEngineHook.handles : HandleHook ℤ where
  parser := fun _ requestId => TensorRTLLMEngineHook.parser requestId
  start := InferenceSession.resumeSeq
  fallsBack := true

def TGIEngineHook.handles : HandleHook TGIEngineHook.StreamState where
  parser := TGIEngineHook.parser
  start := TGIEngineHook.startState
  fallsBack := false

/-- The local variables are good from the start on, and stay so. -/
structure HandleHook.Settled {σ : Type} [Inhabited σ] (hook : HandleHook σ) (good : σ → Prop) : Prop where
  absent : good default
  start : ∀ session, good (hook.start session)
  single : ∀ compat requestId, (hook.parser compat requestId).Single good

theorem TensorRTLLMEngineHook.settled_handles : TensorRTLLMEngineHook.handles.Settled fun _ => True :=
  ⟨trivial, fun _ => trivial, fun _ requestId => TensorRTLLMEngineHook.single_lines requestId⟩

theorem TGIEngineHook.settled_handles :
    TGIEngineHook.handles.Settled fun s => s.stopFilter.Used :=
  ⟨SlidingWindowStopFilter.used_new none, fun _ => SlidingWindowStopFilter.used_new _,
    TGIEngineHook.single_lines⟩

/-! ### The steps of a stream -/

namespace ResumedStream

variable {σ : Type} [Inhabited σ] {hook : HandleHook σ} {good : σ → Prop} {k k' : ResumedStream σ}
  {label : StreamLabel}

/-- What holds of a stream at every point. -/
structure Sound (good : σ → Prop) (k : ResumedStream σ) : Prop where
  vars : good k.vars
  rest : ∀ rest goesOn, k.point = .yielded rest goesOn → rest = []
  opened : k.isOpen = true → k.point = .pulling ∨ ∃ rest goesOn, k.point = .yielded rest goesOn

theorem Sound.leave (h : good k.vars) : k.leave.Sound good :=
  ⟨h, fun _ _ hp => (by cases hp), fun ho => (by cases ho)⟩

theorem Sound.close (h : k.Sound good) : k.close.Sound good :=
  ⟨h.vars, h.rest, fun ho => (by cases ho)⟩

theorem Sound.advance {out : List TokenChunk} (h : good k.vars) (hout : out.length ≤ 1) (goesOn : Bool) :
    (k.advance out goesOn).Sound good := by
  cases out with
  | nil =>
    cases goesOn with
    | true => exact ⟨h, fun _ _ hp => (by cases hp), fun _ => Or.inl rfl⟩
    | false => exact .leave h
  | cons chunk rest =>
    have hrest : rest = [] := List.length_eq_zero_iff.mp (by rw [List.length_cons] at hout; omega)
    refine ⟨h, ?_, fun _ => Or.inr ⟨rest, goesOn, rfl⟩⟩
    intro rest' goesOn' hp
    obtain ⟨rfl, -⟩ := StreamPoint.yielded.inj hp
    exact hrest

/-- Where the stream does not read, its response is not open. -/
theorem Sound.closed (h : k.Sound good) (hp : k.point ≠ .pulling)
    (hy : ∀ rest goesOn, k.point ≠ .yielded rest goesOn) : k.isOpen = false := by
  by_contra ho
  rcases h.opened (by simpa using ho) with hpull | ⟨rest, goesOn, hyield⟩
  · exact hp hpull
  · exact hy rest goesOn hyield

/-- A stream whose response is not open moves to a point where nothing is yielded. -/
theorem Sound.moved (h : k.Sound good) (hp : k.point ≠ .pulling)
    (hy : ∀ rest goesOn, k.point ≠ .yielded rest goesOn) {point : StreamPoint}
    (hpoint : ∀ rest goesOn, point ≠ .yielded rest goesOn) :
    ResumedStream.Sound good { k with point := point } := by
  have hclosed := h.closed hp hy
  refine ⟨h.vars, fun rest goesOn hr => absurd hr (hpoint rest goesOn), fun ho => ?_⟩
  rw [show k.isOpen = true from ho] at hclosed
  cases hclosed

/-- The steps of a stream by what they do to it. -/
inductive Moved (hook : HandleHook σ) (good : σ → Prop) (k : ResumedStream σ) :
    StreamLabel → ResumedStream σ → Prop
  | called (session : InferenceSession) (compat : Bool) (hp : k.point = .absent) :
    Moved hook good k (.call session compat)
      { requestId := session.requestId, compat := compat, point := .created, vars := hook.start session }
  /-- a stream that does not read goes to another point -/
  | passed (label : StreamLabel) (point : StreamPoint) (hp : k.point ≠ .pulling)
    (hy : ∀ rest goesOn, k.point ≠ .yielded rest goesOn)
    (hpoint : point = .ended ∨ k.point = .created ∧ point = .connecting) :
    Moved hook good k label { k with point := point }
  | answered (status : ℕ) (hp : k.point = .connecting) :
    Moved hook good k (.respond status) { k with point := .pulling, isOpen := true }
  /-- only an open response brings a chunk -/
  | advanced (label : StreamLabel) (vars : σ) (out : List TokenChunk) (goesOn : Bool) (hgood : good vars)
    (hlen : out.length ≤ 1) (hopen : k.isOpen = false → out = [])
    (hreg : ∀ i activeStreams, k.registry i activeStreams label = activeStreams) :
    Moved hook good k label (advance { k with vars := vars } out goesOn)
  | left (label : StreamLabel) : Moved hook good k label k.leave

theorem Moved.of_next (hsettled : hook.Settled good) (h : k.Sound good)
    (hk : k.next hook label = some k') : Moved hook good k label k' := by
  cases label with
  | call session compat =>
    simp only [next] at hk
    split_ifs at hk with hp
    obtain rfl := Option.some.inj hk
    exact .called session compat hp
  | start =>
    simp only [next] at hk
    split_ifs at hk with hp
    obtain rfl := Option.some.inj hk
    exact .passed _ .connecting (by rw [hp]; decide) (by rw [hp]; simp) (Or.inr ⟨hp, rfl⟩)
  | respond status =>
    simp only [next] at hk
    split_ifs at hk with hp
    · obtain rfl := Option.some.inj hk
      exact .answered status hp
    · obtain rfl := Option.some.inj hk
      exact .left _
  | line l =>
    simp only [next] at hk
    split_ifs at hk with hp
    obtain rfl := Option.some.inj hk
    obtain ⟨hlen, hgood⟩ := (hsettled.single k.compat k.requestId).read h.vars l
    refine .advanced _ _ _ _ hgood hlen (fun hclosed => ?_) fun _ _ => rfl
    rw [hp.2] at hclosed
    cases hclosed
  | eof =>
    simp only [next] at hk
    split_ifs at hk
    obtain rfl := Option.some.inj hk
    have hend : (k.parser hook).conclude k.vars = [] :=
      (hsettled.single k.compat k.requestId).conclude k.vars h.vars
    rw [hend]
    exact .advanced _ k.vars [] false h.vars (Nat.zero_le 1) (fun _ => rfl) fun _ _ => rfl
  | throw =>
    simp only [next] at hk
    split at hk
    · rename_i hp
      obtain rfl := Option.some.inj hk
      exact .passed _ .ended (by rw [hp]; decide) (by rw [hp]; simp) (Or.inl rfl)
    · rename_i hp
      obtain rfl := Option.some.inj hk
      exact .passed _ .ended (by rw [hp]; decide) (by rw [hp]; simp) (Or.inl rfl)
    · obtain rfl := Option.some.inj hk
      exact .left _
    · obtain rfl := Option.some.inj hk
      exact .left _
    · cases hk
    · cases hk
    · cases hk
  | resume =>
    simp only [next] at hk
    split at hk
    · rename_i rest goesOn hp
      obtain rfl := Option.some.inj hk
      obtain rfl := h.rest rest goesOn hp
      exact .advanced _ k.vars [] goesOn h.vars (Nat.zero_le 1) (fun _ => rfl) fun _ _ => rfl
    · cases hk
  | finish =>
    simp only [next] at hk
    split_ifs at hk with hp
    obtain rfl := Option.some.inj hk
    exact .passed _ .ended (by rw [hp]; decide) (by rw [hp]; simp) (Or.inl rfl)

theorem Sound.next (hsettled : hook.Settled good) (h : k.Sound good)
    (hk : k.next hook label = some k') : k'.Sound good := by
  cases Moved.of_next hsettled h hk with
  | called session compat hp =>
    exact ⟨hsettled.start session, fun _ _ hp => (by cases hp), fun ho => (by cases ho)⟩
  | passed _ point hp hy hpoint =>
    apply h.moved hp hy
    rcases hpoint with rfl | ⟨-, rfl⟩
    · simp
    · simp
  | answered status hp => exact ⟨h.vars, fun _ _ hp => (by cases hp), fun _ => Or.inl rfl⟩
  | advanced _ vars out goesOn hgood hlen _ _ => exact .advance hgood hlen goesOn
  | left => exact .leave h.vars

/-- Started, and with no response that is open or to come. -/
structure Silent (k : ResumedStream σ) : Prop where
  closed : k.isOpen = false
  begun : k.Begun
  answered : k.point ≠ .connecting

theorem Silent.close (h : k.Silent) : k.close.Silent := ⟨rfl, h.begun, h.answered⟩

theorem Silent.advance_nil (h : k.isOpen = false) (goesOn : Bool) : (k.advance [] goesOn).Silent := by
  cases goesOn with
  | true => exact ⟨h, ⟨by simp [advance], by simp [advance]⟩, by simp [advance]⟩
  | false => exact ⟨rfl, ⟨by simp [advance, leave], by simp [advance, leave]⟩, by simp [advance, leave]⟩

theorem chunks_advance_nil (goesOn : Bool) : (k.advance [] goesOn).chunks = k.chunks := by
  cases goesOn <;> rfl

/-- A silent stream yields nothing any more. -/
theorem Silent.next (hsettled : hook.Settled good) (h : k.Sound good) (hs : k.Silent)
    (hk : k.next hook label = some k') : k'.Silent ∧ k'.chunks = k.chunks := by
  cases Moved.of_next hsettled h hk with
  | called session compat hp => exact absurd hp hs.begun.1
  | passed _ point hp hy hpoint =>
    rcases hpoint with rfl | ⟨hcreated, -⟩
    · exact ⟨⟨hs.closed, ⟨by simp, by simp⟩, by simp⟩, rfl⟩
    · exact absurd hcreated hs.begun.2
  | answered status hp => exact absurd hp hs.answered
  | advanced _ vars out goesOn _ _ hopen _ =>
    rw [hopen hs.closed]
    exact ⟨@Silent.advance_nil σ _ { k with vars := vars } hs.closed goesOn, chunks_advance_nil goesOn⟩
  | left => exact ⟨@Silent.advance_nil σ _ k hs.closed false, rfl⟩

theorem isOpen_advance {out : List TokenChunk} {goesOn : Bool} (ho : (k.advance out goesOn).isOpen = true) :
    (k.advance out goesOn).requestId = k.requestId ∧ k.isOpen = true := by
  cases out with
  | cons chunk rest => exact ⟨rfl, ho⟩
  | nil =>
    cases goesOn with
    | true => exact ⟨rfl, ho⟩
    | false => cases ho

/-- How a response comes to be open after a step: it has just come, or it was
open, and then the step leaves the handles alone. -/
theorem next_open (hsettled : hook.Settled good) (h : k.Sound good) (hk : k.next hook label = some k')
    (ho : k'.isOpen = true) : k'.requestId = k.requestId ∧ ((∃ status, label = .respond status) ∨
      k.isOpen = true ∧ ∀ i activeStreams, k.registry i activeStreams label = activeStreams) := by
  cases Moved.of_next hsettled h hk with
  | called session compat hp => cases ho
  | passed _ point hp hy hpoint =>
    have hclosed := h.closed hp hy
    rw [show k.isOpen = true from ho] at hclosed
    cases hclosed
  | answered status hp => exact ⟨rfl, Or.inl ⟨status, rfl⟩⟩
  | advanced _ vars out goesOn _ _ _ hreg =>
    obtain ⟨hid, ho⟩ := isOpen_advance ho
    exact ⟨hid, Or.inr ⟨ho, hreg⟩⟩
  | left => cases ho

end ResumedStream

/-! ### The steps of the hook -/

namespace Handles

open ResumedStream

variable {σ : Type} [Inhabited σ] {hook : HandleHook σ} {good : σ → Prop} {s t : Handles σ}
  {label : HandleLabel}

/-- The steps of the hook by what they do to the streams and the handles. -/
inductive Stepped (hook : HandleHook σ) (s t : Handles σ) : HandleLabel → Prop
  | moved (i : ℕ) (l : StreamLabel) (hk : (s.streams i).next hook l = some (t.streams i))
    (hother : ∀ j, j ≠ i → t.streams j = s.streams j)
    (hactive : t.activeStreams = (s.streams i).registry i s.activeStreams l) :
    Stepped hook s t (.stream i l)
  | closed (a : ℕ) (r : String) (i : ℕ) (hget : s.activeStreams.get? r = some i)
    (hclose : t.streams i = (s.streams i).close) (hother : ∀ j, j ≠ i → t.streams j = s.streams j)
    (hactive : t.activeStreams = s.activeStreams.pop r) : Stepped hook s t (.abort a r)
  | missed (a : ℕ) (r : String) (hget : s.activeStreams.get? r = none) (hstreams : t.streams = s.streams)
    (hactive : t.activeStreams = s.activeStreams) : Stepped hook s t (.abort a r)
  | replied (a : ℕ) (success : Bool) (hstreams : t.streams = s.streams)
    (hactive : t.activeStreams = s.activeStreams) : Stepped hook s t (.abortReply a success)

theorem Stepped.of_eq (h : s.step hook label = some t) : Stepped hook s t label := by
  cases label with
  | stream i l =>
    obtain ⟨k, hk, rfl⟩ := Option.map_eq_some_iff.mp h
    refine .moved i l ?_ (fun j hj => put_of_ne _ hj k) rfl
    rw [put_self]
    exact hk
  | abort a r =>
    simp only [step] at h
    split_ifs at h
    obtain rfl := Option.some.inj h
    unfold abortRequest
    split
    · rename_i i hget
      exact .closed a r i hget (put_self _ i _) (fun j hj => put_of_ne _ hj _) rfl
    · rename_i hget
      exact .missed a r hget rfl rfl
  | abortReply a success =>
    simp only [step] at h
    split at h
    · obtain rfl := Option.some.inj h
      exact .replied a success rfl rfl
    · cases h
    · cases h

theorem Stepped.stream {i : ℕ} {l : StreamLabel} (h : Stepped hook s t (.stream i l)) :
    (s.streams i).next hook l = some (t.streams i) ∧ (∀ j, j ≠ i → t.streams j = s.streams j) ∧
      t.activeStreams = (s.streams i).registry i s.activeStreams l := by
  cases h with
  | moved _ _ hk hother hactive => exact ⟨hk, hother, hactive⟩

/-- A step of the hook, for each stream: nothing, its own step, or the closing
of its response. -/
theorem step_stream (h : s.step hook label = some t) (j : ℕ) :
    t.streams j = s.streams j ∨
      (∃ l, label = .stream j l ∧ (s.streams j).next hook l = some (t.streams j)) ∨
      t.streams j = (s.streams j).close := by
  cases Stepped.of_eq h with
  | moved i l hk hother =>
    by_cases hj : j = i
    · subst hj
      exact Or.inr (Or.inl ⟨l, rfl, hk⟩)
    · exact Or.inl (hother j hj)
  | closed a r i hget hclose hother =>
    by_cases hj : j = i
    · subst hj
      exact Or.inr (Or.inr hclose)
    · exact Or.inl (hother j hj)
  | missed a r hget hstreams => exact Or.inl (congrFun hstreams j)
  | replied a success hstreams => exact Or.inl (congrFun hstreams j)

theorem sound_step (hsettled : hook.Settled good) (hs : ∀ i, (s.streams i).Sound good)
    (h : s.step hook label = some t) : ∀ i, (t.streams i).Sound good := by
  intro i
  rcases step_stream h i with heq | ⟨l, -, hk⟩ | heq
  · rw [heq]
    exact hs i
  · exact (hs i).next hsettled hk
  · rw [heq]
    exact (hs i).close

theorem silent_step (hsettled : hook.Settled good) (hs : ∀ i, (s.streams i).Sound good) {i : ℕ}
    (hsilent : (s.streams i).Silent) (h : s.step hook label = some t) :
    (t.streams i).Silent ∧ (t.streams i).chunks = (s.streams i).chunks := by
  rcases step_stream h i with heq | ⟨l, -, hk⟩ | heq
  · rw [heq]
    exact ⟨hsilent, rfl⟩
  · exact hsilent.next hsettled (hs i) hk
  · rw [heq]
    exact ⟨hsilent.close, rfl⟩

theorem sound_run (hsettled : hook.Settled good) {as : List HandleLabel}
    (hs : ∀ i, (s.streams i).Sound good) (h : Machine.run (step hook) s as = some t) :
    ∀ i, (t.streams i).Sound good :=
  Machine.run_inv (I := fun s : Handles σ => ∀ i, (s.streams i).Sound good)
    (fun _ _ _ hs h => sound_step hsettled hs h) hs h

/-- A silent stream yields nothing in a whole run. -/
theorem silent_run (hsettled : hook.Settled good) {as : List HandleLabel}
    (hs : ∀ i, (s.streams i).Sound good) {i : ℕ} (hsilent : (s.streams i).Silent)
    (h : Machine.run (step hook) s as = some t) :
    (t.streams i).Silent ∧ (t.streams i).chunks = (s.streams i).chunks := by
  have hrun := Machine.run_inv
    (I := fun t : Handles σ => (∀ j, (t.streams j).Sound good) ∧ (t.streams i).Silent ∧
      (t.streams i).chunks = (s.streams i).chunks) ?_ ⟨hs, hsilent, rfl⟩ h
  · exact hrun.2
  · rintro u l v ⟨hu, hsil, hchunks⟩ hstep
    obtain ⟨hsil', hchunks'⟩ := silent_step hsettled hu hsil hstep
    exact ⟨sound_step hsettled hu hstep, hsil', hchunks'.trans hchunks⟩

theorem sound_init (hsettled : hook.Settled good) : ∀ i, (({} : Handles σ).streams i).Sound good :=
  fun _ => ⟨hsettled.absent, fun _ _ hp => (by cases hp), fun ho => (by cases ho)⟩

theorem registered_init : ({} : Handles σ).Registered := fun _ ho => (by cases ho)

/-! ### Which runs keep the handles -/

theorem NoneOpen.ne {r : String} {j : ℕ} (h : s.NoneOpen r) (ho : (s.streams j).isOpen = true) :
    (s.streams j).requestId ≠ r := by
  intro hid
  rw [h j hid] at ho
  cases ho

/-- A step that keeps the handles leaves those of the other open responses. -/
theorem get?_registry {i j : ℕ} {l : StreamLabel} (hkeep : s.KeepsHandles (.stream i l))
    (ho : (s.streams j).isOpen = true) :
    ((s.streams i).registry i s.activeStreams l).get? (s.streams j).requestId =
      s.activeStreams.get? (s.streams j).requestId := by
  cases l with
  | respond status => exact Dict.get?_set_ne _ (NoneOpen.ne hkeep ho) i
  | finish => exact Dict.get?_pop_ne _ (NoneOpen.ne hkeep ho)
  | throw =>
    unfold registry
    split_ifs with hp
    · exact Dict.get?_pop_ne _ (NoneOpen.ne (hkeep hp) ho)
    · rfl
  | _ => rfl

theorem registered_step (hsettled : hook.Settled good) (hs : ∀ i, (s.streams i).Sound good)
    (hreg : s.Registered) (hkeep : s.KeepsHandles label) (h : s.step hook label = some t) :
    t.Registered := by
  intro j ho
  cases Stepped.of_eq h with
  | moved i l hk hother hactive =>
    rw [hactive]
    by_cases hj : j = i
    · subst hj
      obtain ⟨hid, ⟨status, rfl⟩ | ⟨ho, hsame⟩⟩ := next_open hsettled (hs j) hk ho
      · rw [hid]
        exact Dict.get?_set_self _ _ _
      · rw [hid, hsame]
        exact hreg j ho
    · rw [hother j hj] at ho ⊢
      rw [get?_registry hkeep ho]
      exact hreg j ho
  | closed a r i hget hclose hother hactive =>
    have hj : j ≠ i := by
      rintro rfl
      rw [hclose] at ho
      cases ho
    rw [hother j hj] at ho ⊢
    have hself := hreg j ho
    have hid : (s.streams j).requestId ≠ r := by
      intro heq
      rw [heq, hget] at hself
      exact hj (Option.some.inj hself).symm
    rw [hactive, Dict.get?_pop_ne _ hid]
    exact hself
  | missed a r hget hstreams hactive =>
    rw [hstreams] at ho ⊢
    rw [hactive]
    exact hreg j ho
  | replied a success hstreams hactive =>
    rw [hstreams] at ho ⊢
    rw [hactive]
    exact hreg j ho

/-- When a response comes and when a stream cleans up, the stream itself has no
open response, and what is then registered under its id is at most itself. So
only the others of the id can be in the way. -/
theorem keeps_of_others {i : ℕ} {l : StreamLabel} (hs : ∀ i, (s.streams i).Sound good)
    (h : s.step hook (.stream i l) = some t)
    (hothers : (∀ j, j ≠ i → t.activeStreams.get? (s.streams i).requestId ≠ some j) →
      ∀ j, j ≠ i → (s.streams j).requestId = (s.streams i).requestId → (s.streams j).isOpen = false) :
    s.KeepsHandles (.stream i l) := by
  obtain ⟨hk, -, hactive⟩ := (Stepped.of_eq h).stream
  rw [hactive] at hothers
  have hnone : (s.streams i).isOpen = false →
      (∀ j, j ≠ i → ((s.streams i).registry i s.activeStreams l).get? (s.streams i).requestId ≠ some j) →
      s.NoneOpen (s.streams i).requestId := by
    intro hclosed hget j hid
    by_cases hj : j = i
    · rw [hj]
      exact hclosed
    · exact hothers hget j hj hid
  have hclosed : ∀ point, (s.streams i).point = point → point ≠ .pulling →
      (∀ rest goesOn, point ≠ .yielded rest goesOn) → (s.streams i).isOpen = false := by
    rintro point rfl hp hy
    exact (hs i).closed hp hy
  cases l with
  | respond status =>
    simp only [next] at hk
    split_ifs at hk with hp
    all_goals
      apply hnone (hclosed _ hp (by decide) (by simp))
      intro j hj hget
      rw [registry, Dict.get?_set_self] at hget
      exact hj (Option.some.inj hget).symm
  | finish =>
    simp only [next] at hk
    split_ifs at hk with hp
    apply hnone (hclosed _ hp (by decide) (by simp))
    intro j hj hget
    rw [registry, Dict.get?_pop_self] at hget
    cases hget
  | throw =>
    intro hp
    apply hnone (hclosed _ hp (by decide) (by simp))
    intro j hj hget
    rw [registry, if_pos hp, Dict.get?_pop_self] at hget
    cases hget
  | _ => trivial

/-- Where all handles are kept by a step, it was one that keeps them. -/
theorem keeps_of_registered (hs : ∀ i, (s.streams i).Sound good) (hreg : t.Registered)
    (h : s.step hook label = some t) : s.KeepsHandles label := by
  cases Stepped.of_eq h with
  | moved i l hk hother hactive =>
    apply keeps_of_others hs h
    intro hget j hj hid
    by_contra ho
    -- another stream of the id would still be open, under a handle that is not its own
    have hsame := hother j hj
    have hfound := hreg j (by rw [hsame]; simpa using ho)
    rw [hsame, hid] at hfound
    exact hget j hj hfound
  | closed a r => trivial
  | missed a r => trivial
  | replied a success => trivial

/-- Of all streams, only `i` has been called. -/
def Alone (i : ℕ) (s : Handles σ) : Prop := ∀ j, j ≠ i → (s.streams j).point = .absent

theorem Alone.step {i : ℕ} (halone : s.Alone i) (hl : ∀ j x, label = .stream j x → j = i)
    (h : s.step hook label = some t) : t.Alone i := by
  intro j hj
  rcases step_stream h j with heq | ⟨x, hx, -⟩ | heq
  · rw [heq]
    exact halone j hj
  · exact absurd (hl j x hx) hj
  · rw [heq]
    exact halone j hj

/-- A stream that runs alone is orderly, if the abort does not come too early. -/
theorem Alone.orderly {i : ℕ} (hs : ∀ i, (s.streams i).Sound good) (halone : s.Alone i)
    (hl : ∀ j x, label = .stream j x → j = i)
    (hp : ∀ a r, label = .abort a r → (s.streams i).point ≠ .connecting)
    (h : s.step hook label = some t) : s.Orderly label := by
  cases label with
  | stream j x =>
    obtain rfl := hl j x rfl
    refine ⟨keeps_of_others hs h ?_, trivial⟩
    intro _ j' hj' _
    have habsent := halone j' hj'
    exact (hs j').closed (by rw [habsent]; decide) (by rw [habsent]; simp)
  | abort a r =>
    refine ⟨trivial, ?_⟩
    intro j _ hconnecting
    by_cases hj : j = i
    · rw [hj] at hconnecting
      exact hp a r rfl hconnecting
    · rw [halone j hj] at hconnecting
      cases hconnecting
  | abortReply a success => exact ⟨trivial, trivial⟩

theorem Alone.run {i : ℕ} {labels : List HandleLabel} (halone : s.Alone i)
    (hl : ∀ l ∈ labels, ∃ x, l = .stream i x) (h : Machine.run (Handles.step hook) s labels = some t) :
    t.Alone i := by
  refine Machine.run_inv_along (I := fun s => s.Alone i) (Q := fun _ l _ => ∃ x, l = .stream i x) ?_ halone
    (Machine.Along.of_labels hl) h
  rintro u l v hu hstep ⟨x, rfl⟩
  exact hu.step (fun j x hx => (HandleLabel.stream.inj hx).1.symm) hstep

theorem Alone.along {i : ℕ} {labels : List HandleLabel} (hsettled : hook.Settled good)
    (hs : ∀ i, (s.streams i).Sound good) (halone : s.Alone i)
    (hl : ∀ l ∈ labels, ∃ x, l = .stream i x) :
    Machine.Along (Handles.step hook) (fun s l _ => s.Orderly l) s labels := by
  have hown : ∀ x j y, HandleLabel.stream i x = .stream j y → j = i :=
    fun x j y h => (HandleLabel.stream.inj h).1.symm
  refine Machine.Along.of_inv (I := fun s => (∀ j, (s.streams j).Sound good) ∧ s.Alone i)
    (Q := fun _ l _ => ∃ x, l = .stream i x) ?_ ?_ ⟨hs, halone⟩ (Machine.Along.of_labels hl)
  · rintro u l v ⟨hu, halone⟩ hstep ⟨x, rfl⟩
    exact ⟨sound_step hsettled hu hstep, halone.step (hown x) hstep⟩
  · rintro u l v ⟨hu, halone⟩ hstep ⟨x, rfl⟩
    exact halone.orderly hu (hown x) (fun _ _ h => (by cases h)) hstep

/-- Every open response has its handle in all states of a run exactly if every
step of the run keeps the handles. -/
theorem registered_iff (hsettled : hook.Settled good) {as : List HandleLabel}
    (h : Machine.run (step hook) {} as = some s) :
    (∀ bs cs t, as = bs ++ cs → Machine.run (step hook) {} bs = some t → t.Registered) ↔
      Machine.Along (step hook) (fun s l _ => s.KeepsHandles l) {} as := by
  constructor
  · intro hreg
    apply Machine.Along.of_splits
    rintro bs a cs t u rfl ht hu
    refine keeps_of_registered (sound_run hsettled (sound_init hsettled) ht) (hreg (bs ++ [a]) cs u ?_ ?_) hu
    · rw [List.append_assoc]
      rfl
    · exact Machine.run_concat_eq_some.mpr ⟨t, ht, hu⟩
  · rintro halong bs cs t rfl ht
    exact (Machine.run_inv_along
      (I := fun s : Handles σ => (∀ i, (s.streams i).Sound good) ∧ s.Registered)
      (fun u l v hu hstep hkeep => ⟨sound_step hsettled hu.1 hstep,
        registered_step hsettled hu.1 hu.2 hkeep hstep⟩)
      ⟨sound_init hsettled, registered_init⟩ halong.append_left ht).2

/-! ### Aborts -/

/-- An abort closes what its id has open, if nothing of it is still to come. -/
theorem silent_of_abort {a i : ℕ} {r : String} (hreg : s.Registered)
    (hconn : s.NoneConnecting (.abort a r)) (h : s.step hook (.abort a r) = some t)
    (hid : (s.streams i).requestId = r) (hbegun : (s.streams i).Begun) : (t.streams i).Silent := by
  have hanswered := hconn i hid
  have hself : (s.streams i).isOpen = true → s.activeStreams.get? r = some i := fun ho => hid ▸ hreg i ho
  cases Stepped.of_eq h with
  | missed _ _ hget hstreams =>
    rw [hstreams]
    refine ⟨?_, hbegun, hanswered⟩
    by_contra ho
    have hsome := hself (by simpa using ho)
    rw [hget] at hsome
    cases hsome
  | closed _ _ j hget hclose hother =>
    by_cases hj : i = j
    · subst hj
      rw [hclose]
      exact ⟨rfl, hbegun, hanswered⟩
    · rw [hother i hj]
      refine ⟨?_, hbegun, hanswered⟩
      by_contra ho
      have hsome := hself (by simpa using ho)
      rw [hget] at hsome
      exact hj (Option.some.inj hsome).symm

theorem silent_after_abort (hsettled : hook.Settled good) {a : ℕ} {r : String} {mid : List HandleLabel}
    (hs : ∀ i, (s.streams i).Sound good) (hreg : s.Registered) (hconn : s.NoneConnecting (.abort a r))
    (h : Machine.run (step hook) s (.abort a r :: mid) = some t) {i : ℕ}
    (hid : (s.streams i).requestId = r) (hbegun : (s.streams i).Begun) : (t.streams i).Silent := by
  obtain ⟨u, hu, hrun⟩ := Machine.run_cons_eq_some.mp h
  exact (silent_run hsettled (sound_step hsettled hs hu) (silent_of_abort hreg hconn hu hid hbegun) hrun).1

end Handles

/-- The hooks whose `abort_request` closes a response. -/
inductive AbortableHook
  | tensorrtLlm
  | tgi

namespace AbortableHook

def Vars : AbortableHook → Type
  | .tensorrtLlm => ℤ
  | .tgi => TGIEngineHook.StreamState

instance : (hook : AbortableHook) → Inhabited hook.Vars
  | .tensorrtLlm => inferInstanceAs (Inhabited ℤ)
  | .tgi => inferInstanceAs (Inhabited TGIEngineHook.StreamState)

def handles : (hook : AbortableHook) → HandleHook hook.Vars
  | .tensorrtLlm => TensorRTLLMEngineHook.handles
  | .tgi => TGIEngineHook.handles

theorem exists_settled : ∀ hook : AbortableHook, ∃ good, hook.handles.Settled good
  | .tensorrtLlm => ⟨_, TensorRTLLMEngineHook.settled_handles⟩
  | .tgi => ⟨_, TGIEngineHook.settled_handles⟩

/-- The machine of a hook, from where nothing has been called. -/
abbrev run (hook : AbortableHook) (labels : List HandleLabel) : Option (Handles hook.Vars) :=
  Machine.run (Handles.step hook.handles) {} labels

/-- Every step of the run satisfies `Orderly`. -/
abbrev OrderlyRun (hook : AbortableHook) (labels : List HandleLabel) : Prop :=
  Machine.Along (Handles.step hook.handles) (fun s l _ => s.Orderly l) {} labels

/-- In the run to `s`, when an abort has returned success, the streams of its id
that had begun before it yield no chunk. -/
def AbortsFinal (hook : AbortableHook) (labels : List HandleLabel) (s : Handles hook.Vars) : Prop :=
  ∀ (before mid after : List HandleLabel) (a : ℕ) (r : String) (s₀ s₁ : Handles hook.Vars),
    labels = before ++ .abort a r :: mid ++ after →
    hook.run before = some s₀ → hook.run (before ++ .abort a r :: mid) = some s₁ →
    s₁.aborts a = .returned r true →
    ∀ i, (s₀.streams i).requestId = r → (s₀.streams i).Begun →
      (s.streams i).chunks = (s₁.streams i).chunks

theorem registered_of_orderly {hook : AbortableHook} {labels : List HandleLabel}
    {s : Handles hook.Vars} (hr : hook.run labels = some s) (ho : hook.OrderlyRun labels) :
    s.Registered := by
  obtain ⟨good, hsettled⟩ := hook.exists_settled
  have hkeep := ho.mono fun _ _ _ h => h.1
  exact (Handles.registered_iff hsettled hr).mpr hkeep labels [] s (List.append_nil _).symm hr

/-- **A successful abort is final in an orderly run.** If, whenever a response
comes or a stream cleans up, no response of the same id is open, and no abort
comes while a stream of its id waits for the headers, then every open response
has its handle, and no stream yields a chunk after a successful abort of its id
that came when it had begun. -/
theorem abort_final {hook : AbortableHook} {labels : List HandleLabel} {s : Handles hook.Vars}
    (hr : hook.run labels = some s) (ho : hook.OrderlyRun labels) :
    s.Registered ∧ hook.AbortsFinal labels s := by
  refine ⟨registered_of_orderly hr ho, ?_⟩
  rintro before mid after a r s₀ s₁ rfl h0 h1 _ i hid hbegun
  obtain ⟨good, hsettled⟩ := hook.exists_settled
  -- the run in its three parts
  obtain ⟨_, h1', hlast⟩ := Machine.run_append_eq_some.mp hr
  obtain rfl : s₁ = _ := Option.some.inj (h1.symm.trans h1')
  obtain ⟨_, h0', hmid⟩ := Machine.run_append_eq_some.mp h1
  obtain rfl : s₀ = _ := Option.some.inj (h0.symm.trans h0')
  have hfirst := ho.append_left
  have hreg : s₀.Registered := registered_of_orderly h0 hfirst.append_left
  obtain ⟨t, ht, -⟩ := Machine.run_cons_eq_some.mp hmid
  have hconn : s₀.NoneConnecting (.abort a r) := ((hfirst.append_right h0) t ht).1.2
  have hsound := Handles.sound_run hsettled (Handles.sound_init hsettled) h0
  have hsilent := Handles.silent_after_abort hsettled hsound hreg hconn hmid hid hbegun
  exact (Handles.silent_run hsettled (Handles.sound_run hsettled hsound hmid) hsilent hlast).2

/-- A line with a token for TGI, and one for TensorRT-LLM. -/
def tokenLine : Bytes :=
  textLine (dataLine (Json.dumps (.obj [("token".toList, .obj [("text".toList, .text ['a'])])])))

def outputLine : Bytes :=
  textLine (Json.dumps (.obj [("text_output".toList, .text ['a'])]))

/-- A stream of the id `r`, up to its response. -/
def opened (i : ℕ) : List HandleLabel :=
  [.stream i (.call { requestId := "r" } false), .stream i .start, .stream i (.respond 200)]

/-- One stream, aborted after a token. -/
def abortedRun : List HandleLabel :=
  (opened 0 ++ [HandleLabel.stream 0 (.line tokenLine)]) ++ HandleLabel.abort 0 "r" ::
    [HandleLabel.stream 0 .resume, .stream 0 .throw, .stream 0 .finish]

theorem abortedRun_facts :
    (run .tgi (opened 0 ++ [.stream 0 (.line tokenLine)])).map (fun s =>
      ((s.streams 0).point, (s.streams 0).chunks.map (·.token), s.aborts 0)) =
        some (.yielded [] true, [PyStr.ofString "a"], .absent) ∧
    (run .tgi abortedRun).map (fun s =>
      (s.aborts 0, (s.streams 0).chunks.map (·.token))) = some (.returned "r" true, [PyStr.ofString "a"]) := by
  decide +kernel

theorem orderly_abortedRun : OrderlyRun .tgi abortedRun := by
  have hsettled := TGIEngineHook.settled_handles
  have halone : ({} : Handles TGIEngineHook.StreamState).Alone 0 := fun _ _ => rfl
  have hfirst : ∀ l ∈ opened 0 ++ [HandleLabel.stream 0 (.line tokenLine)], ∃ x, l = .stream 0 x := by
    simp [opened]
  obtain ⟨s, hs, hfacts⟩ := Option.map_eq_some_iff.mp abortedRun_facts.1
  have hsound := Handles.sound_run hsettled (Handles.sound_init hsettled) hs
  apply Machine.Along.append (Handles.Alone.along hsettled (Handles.sound_init hsettled) halone hfirst)
  intro t ht u hu
  obtain rfl : s = t := Option.some.inj (hs.symm.trans ht)
  have halone' : s.Alone 0 := Handles.Alone.run halone hfirst hs
  refine ⟨halone'.orderly hsound (fun _ _ h => (by cases h)) ?_ hu, ?_⟩
  · intro _ _ _ hp
    rw [(Prod.mk.inj hfacts).1] at hp
    cases hp
  · exact Handles.Alone.along hsettled (Handles.sound_step hsettled hsound hu)
      (halone'.step (fun _ _ h => (by cases h)) hu) (by simp)

theorem abort_final_aborted : ∃ s, run .tgi abortedRun = some s ∧
    s.aborts 0 = .returned "r" true ∧ s.Registered ∧ AbortsFinal .tgi abortedRun s := by
  obtain ⟨s, hs, hfacts⟩ := Option.map_eq_some_iff.mp abortedRun_facts.2
  exact ⟨s, hs, (Prod.mk.inj hfacts).1, abort_final hs orderly_abortedRun⟩

theorem not_registered {σ : Type} [Inhabited σ] {s : Handles σ} {i : ℕ}
    (ho : (s.streams i).isOpen = true) (hget : s.activeStreams.get? (s.streams i).requestId = none) :
    ¬ s.Registered := by
  intro hreg
  have hself := hreg i ho
  rw [hget] at hself
  cases hself

/-- A chunk after a successful abort. -/
theorem not_abortsFinal {hook : AbortableHook} {before mid after : List HandleLabel} {a i : ℕ}
    {r : String} {point : StreamPoint} {s : Handles hook.Vars}
    (hpoint : point ≠ .absent ∧ point ≠ .created)
    (hbefore : (hook.run before).map (fun s => ((s.streams i).requestId, (s.streams i).point)) =
      some (r, point))
    (hmid : (hook.run (before ++ .abort a r :: mid)).map (fun s => (s.aborts a, (s.streams i).chunks.length)) =
      some (.returned r true, 0))
    (hchunks : (s.streams i).chunks.length ≠ 0) :
    ¬ hook.AbortsFinal (before ++ .abort a r :: mid ++ after) s := by
  intro hfinal
  obtain ⟨s₀, h0, hfacts0⟩ := Option.map_eq_some_iff.mp hbefore
  obtain ⟨s₁, h1, hfacts1⟩ := Option.map_eq_some_iff.mp hmid
  obtain ⟨hid, hp⟩ := Prod.mk.inj hfacts0
  obtain ⟨hreturned, hnone⟩ := Prod.mk.inj hfacts1
  have hbegun : (s₀.streams i).Begun := ⟨hp ▸ hpoint.1, hp ▸ hpoint.2⟩
  have hsame := hfinal before mid after a r s₀ s₁ rfl h0 h1 hreturned i hid hbegun
  rw [hsame] at hchunks
  exact hchunks hnone

/-- The first stream of an id cleans up when the second has its response. -/
def lateCleanup : List HandleLabel :=
  opened 0 ++ HandleLabel.abort 0 "r" :: opened 1 ++ [HandleLabel.stream 0 .throw, .stream 0 .finish]

/-- The second is aborted then, and a line comes. -/
def abortedLate (mid : List HandleLabel) (lineBytes : Bytes) : List HandleLabel :=
  lateCleanup ++ HandleLabel.abort 1 "r" :: mid ++ [HandleLabel.stream 1 (.line lineBytes)]

theorem abortedLate_fails {hook : AbortableHook} {mid : List HandleLabel} {lineBytes : Bytes}
    (hbefore : (hook.run lateCleanup).map (fun s => ((s.streams 1).requestId, (s.streams 1).point)) =
      some ("r", .pulling))
    (hmid : (hook.run (lateCleanup ++ .abort 1 "r" :: mid)).map (fun s =>
      (s.aborts 1, (s.streams 1).chunks.length)) = some (.returned "r" true, 0))
    (hlast : (hook.run (abortedLate mid lineBytes)).map (fun s => ((s.streams 1).isOpen,
      s.activeStreams.get? (s.streams 1).requestId, (s.streams 1).chunks.length)) = some (true, none, 1)) :
    ∃ s, hook.run (abortedLate mid lineBytes) = some s ∧ ¬ s.Registered ∧
      ¬ hook.AbortsFinal (abortedLate mid lineBytes) s := by
  obtain ⟨s, hs, hfacts⟩ := Option.map_eq_some_iff.mp hlast
  obtain ⟨ho, hrest⟩ := Prod.mk.inj hfacts
  obtain ⟨hget, hchunks⟩ := Prod.mk.inj hrest
  exact ⟨s, hs, not_registered ho hget, not_abortsFinal (by simp) hbefore hmid (by simp [hchunks])⟩

/-- The headers come after the abort, and then a line. -/
def abortedEarly : List HandleLabel :=
  (opened 0).take 2 ++ HandleLabel.abort 0 "r" :: [] ++
    [HandleLabel.stream 0 (.respond 200), .stream 0 (.line tokenLine)]

/-- In both hooks a stream that cleans up late takes the handle of the next one
away, whose abort then closes nothing; nor does an abort before the headers. -/
theorem abort_not_final :
    (∃ s, run .tgi (abortedLate [] tokenLine) = some s ∧ ¬ s.Registered ∧
      ¬ AbortsFinal .tgi (abortedLate [] tokenLine) s) ∧
    (∃ s, run .tensorrtLlm (abortedLate [.abortReply 1 true] outputLine) = some s ∧ ¬ s.Registered ∧
      ¬ AbortsFinal .tensorrtLlm (abortedLate [.abortReply 1 true] outputLine) s) ∧
    ∃ s, run .tgi abortedEarly = some s ∧
      ¬ AbortsFinal .tgi abortedEarly s := by
  refine ⟨?_, ?_, ?_⟩
  · apply abortedLate_fails
    all_goals decide +kernel
  · apply abortedLate_fails
    all_goals decide +kernel
  · have hrun : (run .tgi abortedEarly).map (fun s =>
        (s.streams 0).chunks.length) = some 1 := by decide +kernel
    obtain ⟨s, hs, hchunks⟩ := Option.map_eq_some_iff.mp hrun
    have hbefore : (run .tgi ((opened 0).take 2)).map (fun s =>
        ((s.streams 0).requestId, (s.streams 0).point)) = some ("r", .connecting) := by decide +kernel
    have hmid : (run .tgi ((opened 0).take 2 ++ .abort 0 "r" :: [])).map (fun s =>
        (s.aborts 0, (s.streams 0).chunks.length)) = some (.returned "r" true, 0) := by decide +kernel
    exact ⟨s, hs, not_abortsFinal (by simp) hbefore hmid (by simp [hchunks])⟩

end AbortableHook

end Sgm
