/-
# The mock engine as a server

The handlers of any number of requests, and those that pause, abort and resume,
share the flag `is_paused`; a step takes a handler from one suspension to the
next, and the steps interleave freely. A write and the delay after it are one
suspension, since nothing shared is touched between them.

Key definitions: `EngineHandler`, `EngineServer.step`, `emitted`.
Key theorems: `EngineServer.served_of_returned`, `EngineServer.told_of_paused`,
`EngineServer.frozen_run`.
-/
import Sgm.Lib.Machine
import Sgm.Simulator.MockEngine

namespace Sgm

open Text

/-! ### The handlers -/

/-- Where the handler of a completion request is suspended, or how it ended. -/
inductive EnginePoint
  | absent
  /-- in `request.json()` -/
  | reading
  /-- in `response.prepare` -/
  | preparing
  /-- in the write of token `idx`, or in the delay after it -/
  | emitting (idx : ℕ)
  /-- in the write of `[DONE]` -/
  | closing
  | returned
  | failed
  deriving DecidableEq

/-- A handler with its local variables. -/
structure EngineHandler where
  point : EnginePoint := .absent
  body : List (List Char × Json) := []
  /-- when the body came in, in milliseconds -/
  nowMs : ℤ := 0
  requestId : PyStr := []
  startSeq : ℤ := 0
  tokensToEmit : List PyStr := []
  /-- what has been written to a streaming response -/
  written : Bytes := []
  reply : Option ServerResponse := none

namespace MockLLMEngine

/-- From the body to the first suspension after it. -/
def accept (engine : MockLLMEngine) (show_ : Json → List Char) (nowMs : ℤ)
    (body : List (List Char × Json)) : EngineHandler :=
  let isStreaming := (Json.field? body "stream".toList).getD (.bool true)
  let requestId := requestIdOf show_ nowMs body
  match ((Json.field? body "start_seq_id".toList).getD (.int 0)).toInt,
      ((Json.field? body "max_tokens".toList).getD (.int engine.corpus.length)).toInt with
  | some startSeq, some maxTokens =>
    let tokensToEmit :=
      if startSeq < engine.corpus.length then pySlice engine.corpus startSeq (startSeq + maxTokens)
      else []
    let x : EngineHandler := { body, nowMs, requestId, startSeq, tokensToEmit }
    if isStreaming.truthy then { x with point := .preparing }
    else { x with
      point := .returned
      reply := some ⟨200, encodeUtf8 (Json.dumps (.obj [
        ("id".toList, .str (.ofString "chatcmpl-" ++ requestId)),
        ("object".toList, .text "chat.completion".toList),
        ("choices".toList, .arr [.obj [("message".toList, .obj [
          ("role".toList, .text "assistant".toList),
          ("content".toList, .str tokensToEmit.flatten)])]])]))⟩ }
  | _, _ => { body, nowMs, point := .returned, reply := some { status := 500 } }

end MockLLMEngine

namespace EngineHandler

variable (x : EngineHandler)

def finish : EngineHandler :=
  { x with point := .returned, reply := some ⟨200, x.written⟩ }

/-- The head of the loop at `idx`, or the check behind it. -/
def check (isPaused : Bool) (idx : ℕ) : EngineHandler :=
  match x.tokensToEmit[idx]? with
  | some token =>
    -- no other task runs between the break and the last check
    if isPaused then x.finish
    else { x with
      point := .emitting idx
      written := x.written ++ MockLLMEngine.event x.requestId token (x.startSeq + idx)
        (decide (idx + 1 = x.tokensToEmit.length)) }
  | none =>
    if isPaused then x.finish
    else { x with point := .closing, written := x.written ++ MockLLMEngine.doneLine }

/-- A handler goes on from where it is suspended. -/
def resume (isPaused : Bool) : Option EngineHandler :=
  match x.point with
  | .preparing => some (x.check isPaused 0)
  | .emitting idx => some (x.check isPaused (idx + 1))
  | .closing => some x.finish
  | _ => none

/-- The client is gone, or the handler is cancelled. -/
def fail : Option EngineHandler :=
  match x.point with
  | .absent | .returned | .failed => none
  | _ => some { x with point := .failed }

end EngineHandler

/-! ### The server -/

structure EngineServer where
  isPaused : Bool := false
  handlers : ℕ → EngineHandler := fun _ => {}

inductive EngineLabel
  | request (h : ℕ)
  /-- the body of a request comes in at `nowMs`; it is `none` where it is no JSON -/
  | body (h : ℕ) (nowMs : ℤ) (json : Option Json)
  | resume (h : ℕ)
  | fail (h : ℕ)
  | handlePause
  | handleAbort
  | handleResume

namespace EngineServer

def put (s : EngineServer) (h : ℕ) (x : EngineHandler) : EngineServer :=
  { s with handlers := Function.update s.handlers h x }

variable (engine : MockLLMEngine) (show_ : Json → List Char)

def step (s : EngineServer) : EngineLabel → Option EngineServer
  | .request h =>
    match (s.handlers h).point with
    | .absent => some (s.put h { point := .reading })
    | _ => none
  | .body h nowMs json =>
    match (s.handlers h).point with
    | .reading =>
      match json with
      | none => some (s.put h (engine.accept show_ nowMs []))
      | some (.obj body) => some (s.put h (engine.accept show_ nowMs body))
      -- `body.get` raises
      | some _ => some (s.put h { point := .failed })
    | _ => none
  | .resume h => ((s.handlers h).resume s.isPaused).map (s.put h)
  | .fail h => (s.handlers h).fail.map (s.put h)
  | .handlePause | .handleAbort => some { s with isPaused := true }
  | .handleResume => some { s with isPaused := false }

end EngineServer

/-! ### The bytes of a stream -/

namespace MockLLMEngine

/-- The events of the first `k` tokens. -/
def emitted (requestId : PyStr) : ℤ → List PyStr → ℕ → Bytes
  | _, _, 0 => []
  | _, [], _ + 1 => []
  | seq, token :: rest, k + 1 =>
    event requestId token seq rest.isEmpty ++ emitted requestId (seq + 1) rest k

@[simp] theorem emitted_zero (rid : PyStr) (seq : ℤ) (tokens : List PyStr) :
    emitted rid seq tokens 0 = [] := by
  cases tokens <;> rfl

theorem emitted_concat (rid : PyStr) {token : PyStr} : ∀ {tokens : List PyStr} {seq : ℤ} {k : ℕ},
    tokens[k]? = some token → emitted rid seq tokens (k + 1) =
      emitted rid seq tokens k ++ event rid token (seq + k) (decide (k + 1 = tokens.length))
  | [], _, _, h => by cases h
  | t :: rest, seq, 0, h => by
    obtain rfl : t = token := by simpa using h
    have hlast : rest.isEmpty = decide (0 + 1 = (t :: rest).length) := by
      cases rest <;> simp
    simp [emitted, hlast]
  | t :: rest, seq, k + 1, h => by
    have ih := @emitted_concat rid token rest (seq + 1) k (by simpa using h)
    calc emitted rid seq (t :: rest) (k + 1 + 1)
        = event rid t seq rest.isEmpty ++ emitted rid (seq + 1) rest (k + 1) := rfl
      _ = event rid t seq rest.isEmpty ++ (emitted rid (seq + 1) rest k ++
            event rid token (seq + 1 + k) (decide (k + 1 = rest.length))) := by rw [ih]
      _ = emitted rid seq (t :: rest) (k + 1) ++
            event rid token (seq + (k + 1 : ℕ)) (decide (k + 1 + 1 = (t :: rest).length)) := by
          rw [← List.append_assoc, MockLLMEngine.add_one_add_cast]
          simp [emitted]

/-- The stream of a response that sees the pause at its check `p`. -/
theorem stream_pausedFrom (rid : PyStr) (p : ℕ) : ∀ (tokens : List PyStr) (idx : ℕ) (seq : ℤ),
    stream rid (pausedFrom (idx + p)) idx seq tokens =
      if p ≤ tokens.length then emitted rid seq tokens p
      else emitted rid seq tokens tokens.length ++ doneLine
  | [], idx, seq => by
    cases p with
    | zero => simp [stream, pausedFrom]
    | succ p => simp [stream, pausedFrom]
  | token :: rest, idx, seq => by
    cases p with
    | zero => simp [stream, pausedFrom]
    | succ p =>
      have ih := stream_pausedFrom rid p rest (idx + 1) (seq + 1)
      rw [show idx + 1 + p = idx + (p + 1) by omega] at ih
      rw [stream, ih, if_neg (by simp [pausedFrom])]
      simp only [List.length_cons, Nat.add_le_add_iff_right, emitted]
      split <;> simp

end MockLLMEngine

/-! ### One handler -/

section
variable {engine : MockLLMEngine} {show_ : Json → List Char} {body : List (List Char × Json)}
  {x y : EngineHandler} {isPaused : Bool} {k : ℕ}

namespace EngineHandler

/-- The response to the body is the stream of the tokens. -/
def Streams (engine : MockLLMEngine) (show_ : Json → List Char) (x : EngineHandler) : Prop :=
  ∀ paused, engine.handleChatCompletions show_ x.nowMs paused x.body =
    ⟨200, MockLLMEngine.stream x.requestId paused 0 x.startSeq x.tokensToEmit⟩

/-- `k` tokens are written, and no more. -/
structure Written (engine : MockLLMEngine) (show_ : Json → List Char) (x : EngineHandler) (k : ℕ) :
    Prop where
  le : k ≤ x.tokensToEmit.length
  streams : x.Streams engine show_
  written : x.written = MockLLMEngine.emitted x.requestId x.startSeq x.tokensToEmit k

/-- The response is that of a handler which sees the pause at its check `p`. -/
def Answers (engine : MockLLMEngine) (show_ : Json → List Char) (x : EngineHandler) (p : ℕ) : Prop :=
  x.reply = some (engine.handleChatCompletions show_ x.nowMs (MockLLMEngine.pausedFrom p) x.body)

/-- What a handler has written and returned, by where it is. -/
inductive Sound (engine : MockLLMEngine) (show_ : Json → List Char) (x : EngineHandler) : Prop
  | unread (hp : x.point = .absent ∨ x.point = .reading) (hw : x.written = [])
  | preparing (hp : x.point = .preparing) (hw : x.Written engine show_ 0)
  | emitting (idx : ℕ) (hp : x.point = .emitting idx) (hw : x.Written engine show_ (idx + 1))
  | closing (hp : x.point = .closing) (hs : x.Streams engine show_)
    (hw : x.written = MockLLMEngine.emitted x.requestId x.startSeq x.tokensToEmit
      x.tokensToEmit.length ++ MockLLMEngine.doneLine)
  | returned (hp : x.point = .returned) (p : ℕ) (ha : x.Answers engine show_ p)
  | failed (hp : x.point = .failed)

end EngineHandler

/-- A body is answered at once, whatever the flag, or its stream is prepared. -/
theorem MockLLMEngine.accept_spec (engine : MockLLMEngine) (show_ : Json → List Char) (nowMs : ℤ)
    (body : List (List Char × Json)) : ∃ x, engine.accept show_ nowMs body = x ∧ x.body = body ∧
      x.nowMs = nowMs ∧ x.written = [] ∧
      ((x.point = .returned ∧
          ∀ paused, x.reply = some (engine.handleChatCompletions show_ nowMs paused body)) ∨
        (x.point = .preparing ∧ ∀ paused, engine.handleChatCompletions show_ nowMs paused body =
          ⟨200, stream x.requestId paused 0 x.startSeq x.tokensToEmit⟩)) := by
  refine ⟨_, rfl, ?_⟩
  unfold accept handleChatCompletions
  cases ((Json.field? body "start_seq_id".toList).getD (.int 0)).toInt with
  | none => exact ⟨rfl, rfl, rfl, Or.inl ⟨rfl, fun _ => rfl⟩⟩
  | some startSeq =>
    cases ((Json.field? body "max_tokens".toList).getD (.int engine.corpus.length)).toInt with
    | none => exact ⟨rfl, rfl, rfl, Or.inl ⟨rfl, fun _ => rfl⟩⟩
    | some maxTokens =>
      dsimp only
      split
      · exact ⟨rfl, rfl, rfl, Or.inr ⟨rfl, fun _ => rfl⟩⟩
      · exact ⟨rfl, rfl, rfl, Or.inl ⟨rfl, fun _ => rfl⟩⟩

theorem MockLLMEngine.sound_accept (engine : MockLLMEngine) (show_ : Json → List Char) (nowMs : ℤ)
    (body : List (List Char × Json)) : (engine.accept show_ nowMs body).written = [] ∧
      (engine.accept show_ nowMs body).Sound engine show_ ∧
      ((engine.accept show_ nowMs body).point = .returned → ∀ p,
        (engine.accept show_ nowMs body).Answers engine show_ p) := by
  obtain ⟨x, hx, hbody, hnow, hw, hcase⟩ := accept_spec engine show_ nowMs body
  rw [hx]
  rcases hcase with ⟨hp, ha⟩ | ⟨hp, hs⟩
  · have hanswers (p : ℕ) : x.Answers engine show_ p := by
      rw [EngineHandler.Answers, hbody, hnow]
      exact ha _
    exact ⟨hw, .returned hp 0 (hanswers 0), fun _ => hanswers⟩
  · have hstreams : x.Streams engine show_ := by
      rw [EngineHandler.Streams, hbody, hnow]
      exact hs
    refine ⟨hw, .preparing hp ⟨Nat.zero_le _, hstreams, ?_⟩, fun hret => ?_⟩
    · rw [hw, emitted_zero]
    · rw [hp] at hret
      cases hret

namespace EngineHandler

theorem Written.finish (h : x.Written engine show_ k) : x.finish.Answers engine show_ k := by
  have hstream := MockLLMEngine.stream_pausedFrom x.requestId k x.tokensToEmit 0 x.startSeq
  rw [Nat.zero_add, if_pos h.le, ← h.written] at hstream
  exact congrArg some ((h.streams _).trans (by rw [hstream])).symm

/-- At a check the response ends if the flag is set, and else goes on. -/
theorem Written.check (h : x.Written engine show_ k) (isPaused : Bool) :
    (x.check isPaused k).Sound engine show_ ∧
    (x.check isPaused k).body = x.body ∧ (isPaused = true → (x.check isPaused k).written = x.written) ∧
    ((x.check isPaused k).point = .returned → isPaused = true) := by
  unfold EngineHandler.check
  cases ht : x.tokensToEmit[k]? with
  | some token =>
    cases isPaused with
    | true => exact ⟨.returned rfl k h.finish, rfl, fun _ => rfl, fun _ => rfl⟩
    | false =>
      have hlt : k < x.tokensToEmit.length := (List.getElem?_eq_some_iff.mp ht).1
      refine ⟨.emitting k rfl ⟨hlt, h.streams, ?_⟩, rfl, fun hp => ?_, fun hp => ?_⟩
      · show x.written ++ MockLLMEngine.event x.requestId token _ _ = MockLLMEngine.emitted x.requestId
          x.startSeq x.tokensToEmit (k + 1)
        rw [MockLLMEngine.emitted_concat x.requestId ht, h.written]
      · cases hp
      · cases hp
  | none =>
    cases isPaused with
    | true => exact ⟨.returned rfl k h.finish, rfl, fun _ => rfl, fun _ => rfl⟩
    | false =>
      have hlen : k = x.tokensToEmit.length := h.le.antisymm (List.getElem?_eq_none_iff.mp ht)
      subst hlen
      refine ⟨.closing rfl h.streams ?_, rfl, fun hp => ?_, fun hp => ?_⟩
      · exact congrArg (· ++ MockLLMEngine.doneLine) h.written
      · cases hp
      · cases hp

theorem finish_closing (hs : x.Streams engine show_)
    (hw : x.written = MockLLMEngine.emitted x.requestId x.startSeq x.tokensToEmit
      x.tokensToEmit.length ++ MockLLMEngine.doneLine) :
    x.finish.Answers engine show_ (x.tokensToEmit.length + 1) := by
  have hstream := MockLLMEngine.stream_pausedFrom x.requestId (x.tokensToEmit.length + 1)
    x.tokensToEmit 0 x.startSeq
  rw [Nat.zero_add, if_neg (by omega), ← hw] at hstream
  exact congrArg some ((hs _).trans (by rw [hstream])).symm

/-- A handler that goes on keeps sound, and writes nothing where the flag is set.
It ends early only there. -/
theorem Sound.resume (h : x.Sound engine show_) (hy : x.resume isPaused = some y) :
    y.Sound engine show_ ∧ (isPaused = true → y.written = x.written) ∧
      (y.point = .returned → isPaused = false → y.Answers engine show_ (y.tokensToEmit.length + 1)) := by
  cases h with
  | preparing hp hw =>
    simp only [EngineHandler.resume, hp, Option.some.injEq] at hy
    obtain ⟨hsound, -, hkeep, hend⟩ := hw.check isPaused
    subst hy
    exact ⟨hsound, hkeep, fun hret hno => by simp [hend hret] at hno⟩
  | emitting idx hp hw =>
    simp only [EngineHandler.resume, hp, Option.some.injEq] at hy
    obtain ⟨hsound, -, hkeep, hend⟩ := hw.check isPaused
    subst hy
    exact ⟨hsound, hkeep, fun hret hno => by simp [hend hret] at hno⟩
  | closing hp hs hw =>
    simp only [EngineHandler.resume, hp, Option.some.injEq] at hy
    subst hy
    exact ⟨.returned rfl _ (finish_closing hs hw), fun _ => rfl, fun _ _ => finish_closing hs hw⟩
  | unread hp =>
    rcases hp with hp | hp <;> simp [EngineHandler.resume, hp] at hy
  | returned hp | failed hp => simp [EngineHandler.resume, hp] at hy

end EngineHandler
end

/-! ### The server -/

namespace EngineServer

variable {engine : MockLLMEngine} {show_ : Json → List Char} {s t u : EngineServer} {l : EngineLabel}
  {h : ℕ} {ls : List EngineLabel}

/-- What a step of the server is to a handler. -/
inductive Moved (engine : MockLLMEngine) (show_ : Json → List Char) (isPaused : Bool)
    (x : EngineHandler) : EngineHandler → Prop
  | kept : Moved engine show_ isPaused x x
  | asked (hp : x.point = .absent) : Moved engine show_ isPaused x { point := .reading }
  | accepted (hp : x.point = .reading) (nowMs : ℤ) (body : List (List Char × Json)) :
    Moved engine show_ isPaused x (engine.accept show_ nowMs body)
  | refused (hp : x.point = .reading) : Moved engine show_ isPaused x { point := .failed }
  | resumed {y : EngineHandler} (hy : x.resume isPaused = some y) : Moved engine show_ isPaused x y
  | failed {y : EngineHandler} (hy : x.fail = some y) : Moved engine show_ isPaused x y

theorem put_handlers (s : EngineServer) (h j : ℕ) (x : EngineHandler) :
    (s.put h x).handlers j = if j = h then x else s.handlers j := by
  simp [put, Function.update_apply]

/-- A step sets the flag, or moves one handler. -/
theorem moved_of_step (hs : s.step engine show_ l = some t) :
    (∀ h, Moved engine show_ s.isPaused (s.handlers h) (t.handlers h)) ∧
      (t.isPaused = s.isPaused ∨ (l = .handlePause ∨ l = .handleAbort) ∧ t.isPaused = true ∨
        l = .handleResume ∧ t.isPaused = false) := by
  have hput {j : ℕ} {x : EngineHandler} (hx : Moved engine show_ s.isPaused (s.handlers j) x)
      (ht : s.put j x = t) : (∀ h, Moved engine show_ s.isPaused (s.handlers h) (t.handlers h)) ∧
        (t.isPaused = s.isPaused ∨ (l = .handlePause ∨ l = .handleAbort) ∧ t.isPaused = true ∨
          l = .handleResume ∧ t.isPaused = false) := by
    subst ht
    refine ⟨fun h => ?_, Or.inl rfl⟩
    rw [put_handlers]
    split
    · rename_i hj
      exact hj ▸ hx
    · exact .kept
  cases l with
  | request j =>
    simp only [step] at hs
    split at hs
    · rename_i hp
      exact hput (.asked hp) (Option.some.inj hs)
    · cases hs
  | body j nowMs json =>
    simp only [step] at hs
    split at hs
    · rename_i hp
      split at hs
      · exact hput (.accepted hp nowMs []) (Option.some.inj hs)
      · exact hput (.accepted hp nowMs _) (Option.some.inj hs)
      · exact hput (.refused hp) (Option.some.inj hs)
    · cases hs
  | resume j =>
    obtain ⟨x, hx, ht⟩ := Option.map_eq_some_iff.mp hs
    exact hput (.resumed hx) ht
  | fail j =>
    obtain ⟨x, hx, ht⟩ := Option.map_eq_some_iff.mp hs
    exact hput (.failed hx) ht
  | handlePause =>
    obtain rfl := Option.some.inj hs
    exact ⟨fun _ => .kept, Or.inr (Or.inl ⟨Or.inl rfl, rfl⟩)⟩
  | handleAbort =>
    obtain rfl := Option.some.inj hs
    exact ⟨fun _ => .kept, Or.inr (Or.inl ⟨Or.inr rfl, rfl⟩)⟩
  | handleResume =>
    obtain rfl := Option.some.inj hs
    exact ⟨fun _ => .kept, Or.inr (Or.inr ⟨rfl, rfl⟩)⟩

theorem fail_eq {x y : EngineHandler} (hy : x.fail = some y) :
    y = { x with point := .failed } ∧ x.point ≠ .returned := by
  unfold EngineHandler.fail at hy
  split at hy
  · cases hy
  · cases hy
  · cases hy
  · rename_i hret _
    exact ⟨(Option.some.inj hy).symm, hret⟩

/-- A move keeps a handler sound; where the flag is set, it writes nothing. -/
theorem Moved.sound {isPaused : Bool} {x y : EngineHandler} (hm : Moved engine show_ isPaused x y)
    (hx : x.Sound engine show_) :
    y.Sound engine show_ ∧ (isPaused = true → y.written = x.written) ∧
      (x.point ≠ .returned → y.point = .returned → isPaused = false →
        y.Answers engine show_ (y.tokensToEmit.length + 1)) := by
  have hnil (hp : x.point = .absent ∨ x.point = .reading) : x.written = [] := by
    cases hx with
    | unread _ hw => exact hw
    | preparing hq | emitting _ hq | closing hq | returned hq | failed hq =>
      rcases hp with hp | hp <;> rw [hp] at hq <;> cases hq
  cases hm with
  | kept => exact ⟨hx, fun _ => rfl, fun hno hret => absurd hret hno⟩
  | asked hp =>
    exact ⟨.unread (Or.inr rfl) rfl, fun _ => (hnil (Or.inl hp)).symm, fun _ hret => by cases hret⟩
  | accepted hp nowMs body =>
    obtain ⟨hw, hsound, ha⟩ := engine.sound_accept show_ nowMs body
    exact ⟨hsound, fun _ => hw.trans (hnil (Or.inr hp)).symm, fun _ hret _ => ha hret _⟩
  | refused hp =>
    exact ⟨.failed rfl, fun _ => (hnil (Or.inr hp)).symm, fun _ hret => by cases hret⟩
  | resumed hy =>
    obtain ⟨hsound, hkeep, hend⟩ := hx.resume hy
    exact ⟨hsound, hkeep, fun _ => hend⟩
  | failed hy =>
    obtain ⟨rfl, -⟩ := fail_eq hy
    exact ⟨.failed rfl, fun _ => rfl, fun _ hret => by cases hret⟩

/-- A handler that has returned stays as it is. -/
theorem Moved.of_returned {isPaused : Bool} {x y : EngineHandler}
    (hm : Moved engine show_ isPaused x y) (hx : x.point = .returned) : y = x := by
  cases hm with
  | kept => rfl
  | asked hp | accepted hp | refused hp =>
    rw [hx] at hp
    cases hp
  | resumed hy => simp [EngineHandler.resume, hx] at hy
  | failed hy => exact absurd hx (fail_eq hy).2

theorem sound_run (hr : Machine.run (step engine show_) {} ls = some s) (h : ℕ) :
    (s.handlers h).Sound engine show_ :=
  Machine.run_inv (I := fun s => ∀ h, (s.handlers h).Sound engine show_)
    (fun _ _ _ hI hs h => (((moved_of_step hs).1 h).sound (hI h)).1)
    (fun _ => .unread (Or.inl rfl) rfl) hr h

/-- Where the flag is set, a pause or an abort has been handled, and no resume
since. -/
theorem told_of_paused : ∀ {ls : List EngineLabel} {s : EngineServer},
    Machine.run (step engine show_) {} ls = some s → s.isPaused = true →
      ∃ bs l cs, ls = bs ++ l :: cs ∧ (l = .handlePause ∨ l = .handleAbort) ∧
        ∀ l' ∈ cs, l' ≠ .handleResume := by
  intro ls
  induction ls using List.reverseRecOn with
  | nil =>
    intro s hr hp
    obtain rfl : {} = s := Option.some.inj hr
    cases hp
  | append_singleton ls l ih =>
    intro t hr hp
    obtain ⟨s, hr, hs⟩ := Machine.run_concat_eq_some.mp hr
    rcases (moved_of_step hs).2 with hsame | ⟨hl, -⟩ | ⟨-, hno⟩
    · obtain ⟨bs, l', cs, rfl, hl', hcs⟩ := ih hr (hsame ▸ hp)
      by_cases hres : l = .handleResume
      · subst hres
        obtain rfl := Option.some.inj hs
        cases hp
      · refine ⟨bs, l', cs ++ [l], by simp, hl', fun k hk => ?_⟩
        rcases List.mem_append.mp hk with hk | hk
        · exact hcs k hk
        · exact List.mem_singleton.mp hk ▸ hres
    · exact ⟨ls, l, [], rfl, hl, fun _ hk => by cases hk⟩
    · rw [hno] at hp
      cases hp

/-- **Every response is that of one request alone, up to the pause.** However
the handlers and the requests that pause, abort and resume interleave: a
response that is returned is the one that `handle_chat_completions` makes of its
body where the pause is seen at a check `p`, and for good; and where it is cut
there, a pause or an abort was handled before, and no resume between that and
the step in which the response ended. -/
theorem served_of_returned (hr : Machine.run (step engine show_) {} ls = some s)
    (hret : (s.handlers h).point = .returned) : ∃ p, (s.handlers h).Answers engine show_ p ∧
      (p ≤ (s.handlers h).tokensToEmit.length → ∃ bs l cs e ds t u,
        ls = bs ++ l :: cs ++ e :: ds ∧ (l = .handlePause ∨ l = .handleAbort) ∧
          (∀ l' ∈ cs, l' ≠ .handleResume) ∧
          Machine.run (step engine show_) {} (bs ++ l :: cs) = some t ∧
            (t.handlers h).point ≠ .returned ∧
          t.step engine show_ e = some u ∧ (u.handlers h).point = .returned) := by
  obtain ⟨bs, l, t, v, ⟨ds, rfl⟩, ht, hv, hno, hyes⟩ := Machine.exists_step
    (Φ := fun s : EngineServer => (s.handlers h).point = .returned) hr (fun he => by cases he) hret
  obtain ⟨v', hv', hrest⟩ := Machine.run_append_eq_some.mp hr
  obtain rfl : v = v' := Option.some.inj ((Machine.run_concat_eq_some.mpr ⟨t, ht, hv⟩).symm.trans hv')
  have hsame : s.handlers h = v.handlers h := by
    have hkeep : ∀ (w : EngineServer) (l : EngineLabel) (w' : EngineServer),
        w.handlers h = v.handlers h → w.step engine show_ l = some w' → w'.handlers h = v.handlers h :=
      fun w l w' hw hs => (((moved_of_step hs).1 h).of_returned (hw ▸ hyes)).trans hw
    exact Machine.run_inv (I := fun w : EngineServer => w.handlers h = v.handlers h) hkeep rfl hrest
  obtain ⟨hsound, -, hend⟩ := ((moved_of_step hv).1 h).sound (sound_run ht h)
  rw [hsame]
  cases hpaused : t.isPaused with
  | false => exact ⟨_, hend hno hyes hpaused, fun hle => by omega⟩
  | true =>
    cases hsound with
    | returned _ p ha =>
      refine ⟨p, ha, fun _ => ?_⟩
      obtain ⟨bs', l', cs, rfl, hl', hcs⟩ := told_of_paused ht hpaused
      exact ⟨bs', l', cs, l, ds, t, v, by simp, hl', hcs, ht, hno, hv, hyes⟩
    | unread hp =>
      rcases hp with hp | hp <;> rw [hyes] at hp <;> cases hp
    | preparing hp | emitting _ hp | closing hp | failed hp =>
      rw [hyes] at hp
      cases hp

def abCorpus : List PyStr := ["a", "b"]

theorem abCorpus_ne : abCorpus ≠ [] := List.cons_ne_nil _ _

theorem abCorpus_length : abCorpus.length < 2 ^ 63 := by decide

theorem abCorpus_unpaired : ∀ token ∈ abCorpus, token.Unpaired := by decide

def abEngine : MockLLMEngine := ⟨abCorpus, abCorpus_ne, abCorpus_length, abCorpus_unpaired⟩

/-- A stream that is paused after its first token. -/
def pausedRun : List EngineLabel :=
  [.request 0, .body 0 1700000000000 (some (.obj [])), .resume 0, .handlePause, .resume 0]

theorem served_of_returned_paused : ∃ s p, Machine.run (step abEngine fun _ => []) {} pausedRun = some s ∧
    (s.handlers 0).written = MockLLMEngine.event "mock-1700000000000" "a" 0 false ∧
    (s.handlers 0).Answers abEngine (fun _ => []) p := by
  have hsome : (Machine.run (step abEngine fun _ => []) {} pausedRun).map (fun s =>
      ((s.handlers 0).point, (s.handlers 0).written)) =
        some (.returned, MockLLMEngine.event "mock-1700000000000" "a" 0 false) := by decide +kernel
  obtain ⟨s, hr, hs⟩ := Option.map_eq_some_iff.mp hsome
  obtain ⟨hret, hw⟩ := Prod.mk.inj hs
  obtain ⟨p, ha, -⟩ := served_of_returned hr hret
  exact ⟨s, p, hr, hw, ha⟩

/-- Where the flag is set, no stream gets another byte until it is taken back. -/
theorem frozen_run (hs : ∀ h, (s.handlers h).Sound engine show_) (hp : s.isPaused = true)
    (hr : Machine.run (step engine show_) s ls = some t) (hl : ∀ l ∈ ls, l ≠ .handleResume) :
    t.isPaused = true ∧ ∀ h, (t.handlers h).written = (s.handlers h).written := by
  have hinv : (∀ h, (t.handlers h).Sound engine show_) ∧ t.isPaused = true ∧
      ∀ h, (t.handlers h).written = (s.handlers h).written := by
    refine Machine.run_inv_along (I := fun t : EngineServer => (∀ h, (t.handlers h).Sound engine show_) ∧
        t.isPaused = true ∧ ∀ h, (t.handlers h).written = (s.handlers h).written)
      (Q := fun _ l _ => l ≠ .handleResume) ?_ ⟨hs, hp, fun _ => rfl⟩ (Machine.Along.of_labels hl) hr
    intro t l u ⟨hsound, hpaused, hw⟩ hstep hl
    obtain ⟨hmoved, hflag⟩ := moved_of_step hstep
    refine ⟨fun h => ((hmoved h).sound (hsound h)).1, ?_, fun h => ?_⟩
    · rcases hflag with hsame | ⟨-, hset⟩ | ⟨he, -⟩
      · exact hsame.trans hpaused
      · exact hset
      · exact absurd he hl
    · exact (((hmoved h).sound (hsound h)).2.1 hpaused).trans (hw h)
  exact hinv.2

end EngineServer
end Sgm
