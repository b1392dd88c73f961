/-
# Pausing the engine through its hook

`pause_request` and `abort_request` of the vLLM hook, which that of the mock
engine inherits, against the server of the engine. A POST is handled once at
most, at any time after it has been sent, also when the call has given it up; a
call gets a status only of what has been handled, and an exception at any time.
The latencies of the results are left out.

Key definitions: `AbortResult`, `EngineControl`, `EngineControl.step`.
Key theorems: `EngineControl.honest_step`, `EngineControl.frozen_of_success`.
-/
import Sgm.Integrations.Payload
import Sgm.Simulator.EngineServer

namespace Sgm

/-! ### The calls -/

structure AbortResult where
  success : Bool
  statusCode : ℕ := 200
  requestId : String := ""
  message : String := ""
  backend : Option BackendType := none
  deriving DecidableEq

/-- What an awaited POST brings; a timeout with the milliseconds, as they are shown. -/
inductive PostOutcome
  | status (code : ℕ)
  | timeout (elapsedMs : String)
  | error (text : String)

/-- How far a POST is. -/
inductive PostState
  | unsent | sent | handled
  deriving DecidableEq

/-- Where a call is suspended, or how it ended. -/
inductive HookPoint
  | absent
  | pausing
  | aborting
  | returned (result : AbortResult)
  | cancelled
  deriving DecidableEq

structure HookCall where
  point : HookPoint := .absent
  requestId : String := ""
  pausePost : PostState := .unsent
  abortPost : PostState := .unsent

namespace VLLMInferenceEngineHook

/-- The result of `abort_request`. -/
def abortResult (requestId : String) : PostOutcome → AbortResult
  | .status code => {
      success := decide (code ∈ [200, 204, 404])
      statusCode := code
      requestId := requestId
      message := "HTTP " ++ toString code }
  | .timeout elapsedMs => {
      success := false
      statusCode := 408
      requestId := requestId
      message := "Timeout after " ++ elapsedMs ++ "ms" }
  | .error text => { success := false, statusCode := 500, requestId := requestId, message := text }

def abortRequest (k : HookCall) : HookCall := { k with point := .aborting, abortPost := .sent }

def pauseRequest (k : HookCall) : HookCall := { k with point := .pausing, pausePost := .sent }

/-- A call goes on with what its POST has brought. Where `/pause` is not there,
the request is aborted. -/
def answered (k : HookCall) (outcome : PostOutcome) : Option HookCall :=
  match k.point, outcome with
  | .pausing, .status 200 => some { k with
      point := .returned {
        success := true, statusCode := 200, requestId := k.requestId, message := "HTTP 200" } }
  | .pausing, _ => some (abortRequest k)
  | .aborting, outcome => some { k with point := .returned (abortResult k.requestId outcome) }
  | _, _ => none

end VLLMInferenceEngineHook

/-! ### The engine and the calls -/

structure EngineControl where
  engine : EngineServer := {}
  calls : ℕ → HookCall := fun _ => {}

inductive ControlLabel
  /-- the engine, with its other clients -/
  | engine (l : EngineLabel)
  | pauseRequest (c : ℕ) (requestId : String)
  | abortRequest (c : ℕ) (requestId : String)
  /-- the engine handles a POST of call `c` -/
  | handlePause (c : ℕ)
  | handleAbort (c : ℕ)
  | answered (c : ℕ) (outcome : PostOutcome)
  | cancel (c : ℕ)

namespace HookCall

/-- The engine answers what it has handled, with status 200. -/
def admits (k : HookCall) : PostOutcome → Bool
  | .status code => decide (code = 200) &&
    match k.point with
    | .pausing => decide (k.pausePost = .handled)
    | .aborting => decide (k.abortPost = .handled)
    | _ => false
  | _ => true

/-- The engine has handled a POST of the call. -/
def Handled (k : HookCall) : Prop := k.pausePost = .handled ∨ k.abortPost = .handled

end HookCall

namespace EngineControl

def put (s : EngineControl) (c : ℕ) (k : HookCall) : EngineControl :=
  { s with calls := Function.update s.calls c k }

variable (engine : MockLLMEngine) (show_ : Json → List Char)

/-- The server handles a POST of call `c`, which is then `k`. -/
def handle (s : EngineControl) (l : EngineLabel) (c : ℕ) (k : HookCall) : Option EngineControl :=
  (s.engine.step engine show_ l).map fun e => { s.put c k with engine := e }

def step (s : EngineControl) : ControlLabel → Option EngineControl
  | .engine l => (s.engine.step engine show_ l).map fun e => { s with engine := e }
  | .pauseRequest c requestId =>
    if (s.calls c).point = .absent then
      some (s.put c (VLLMInferenceEngineHook.pauseRequest { requestId := requestId }))
    else none
  | .abortRequest c requestId =>
    if (s.calls c).point = .absent then
      some (s.put c (VLLMInferenceEngineHook.abortRequest { requestId := requestId }))
    else none
  | .handlePause c =>
    if (s.calls c).pausePost = .sent then
      s.handle engine show_ .handlePause c { s.calls c with pausePost := .handled }
    else none
  | .handleAbort c =>
    if (s.calls c).abortPost = .sent then
      s.handle engine show_ .handleAbort c { s.calls c with abortPost := .handled }
    else none
  | .answered c outcome =>
    if (s.calls c).admits outcome then
      (VLLMInferenceEngineHook.answered (s.calls c) outcome).map (s.put c)
    else none
  | .cancel c =>
    match (s.calls c).point with
    | .pausing | .aborting => some (s.put c { s.calls c with point := .cancelled })
    | _ => none

/-! ### A call that succeeds -/

variable {engine show_} {s t u : EngineControl} {l : ControlLabel} {c : ℕ}
  {ls as bs : List ControlLabel}

/-- What a step is to the server: a step of its own, or nothing. -/
theorem engine_step (hs : s.step engine show_ l = some t) : t.engine = s.engine ∨
    ∃ el, s.engine.step engine show_ el = some t.engine ∧ (l = .engine el ∨ el ≠ .handleResume) := by
  cases l with
  | engine el =>
    obtain ⟨e, he, rfl⟩ := Option.map_eq_some_iff.mp hs
    exact Or.inr ⟨el, he, Or.inl rfl⟩
  | pauseRequest c' rid | abortRequest c' rid =>
    simp only [step] at hs
    split at hs
    · exact Or.inl (Option.some.inj hs ▸ rfl)
    · cases hs
  | handlePause c' | handleAbort c' =>
    simp only [step] at hs
    split at hs
    · obtain ⟨e, he, rfl⟩ := Option.map_eq_some_iff.mp hs
      exact Or.inr ⟨_, he, Or.inr fun hno => by cases hno⟩
    · cases hs
  | answered c' outcome =>
    simp only [step] at hs
    split at hs
    · obtain ⟨k, -, rfl⟩ := Option.map_eq_some_iff.mp hs
      exact Or.inl rfl
    · cases hs
  | cancel c' =>
    simp only [step] at hs
    split at hs
    · exact Or.inl (Option.some.inj hs ▸ rfl)
    · exact Or.inl (Option.some.inj hs ▸ rfl)
    · cases hs

/-- A call that has not begun has posted nothing; only a call of which a POST has
been handled succeeds. -/
structure Honest (k : HookCall) : Prop where
  idle : k.point = .absent → k.pausePost = .unsent ∧ k.abortPost = .unsent
  success : ∀ r, k.point = .returned r → r.success = true → k.Handled

theorem honest_answered {k k' : HookCall} {outcome : PostOutcome}
    (ha : k.admits outcome = true) (h : VLLMInferenceEngineHook.answered k outcome = some k') :
    Honest k' ∧ (k'.Handled → k.Handled) := by
  unfold VLLMInferenceEngineHook.answered at h
  split at h
  · -- the POST to `/pause` has brought status 200
    rename_i hp
    obtain rfl := Option.some.inj h
    have hhandled : k.pausePost = .handled := by
      simpa [HookCall.admits, hp] using ha
    exact ⟨⟨fun he => (by cases he), fun _ _ _ => Or.inl hhandled⟩, id⟩
  · -- the request is aborted instead
    rename_i hp _
    obtain rfl := Option.some.inj h
    refine ⟨⟨fun he => (by cases he), fun r hr => (by cases hr)⟩, fun hh => ?_⟩
    rcases hh with hh | hh
    · exact Or.inl hh
    · cases hh
  · rename_i outcome _ _ hp
    obtain rfl := Option.some.inj h
    refine ⟨⟨fun he => (by cases he), fun r hr hsucc => ?_⟩, id⟩
    obtain rfl := HookPoint.returned.inj hr
    cases outcome with
    | status code =>
      have hhandled : code = 200 ∧ k.abortPost = .handled := by
        simpa [HookCall.admits, hp] using ha
      exact Or.inr hhandled.2
    | timeout elapsedMs => cases hsucc
    | error text => cases hsucc
  · cases h

/-- A step keeps the calls honest; a POST that it has handled sets the flag. -/
theorem honest_step (hc : Honest (s.calls c)) (hs : s.step engine show_ l = some t) :
    Honest (t.calls c) ∧ ((t.calls c).Handled → (s.calls c).Handled ∨ t.engine.isPaused = true) := by
  have hput {k : HookCall} {c' : ℕ} (hk : c = c' → Honest k ∧ (k.Handled → (s.calls c).Handled ∨
      t.engine.isPaused = true)) (ht : t.calls = Function.update s.calls c' k) :
      Honest (t.calls c) ∧ ((t.calls c).Handled → (s.calls c).Handled ∨ t.engine.isPaused = true) := by
    rw [ht, Function.update_apply]
    split
    · rename_i hcc
      exact hk hcc
    · exact ⟨hc, Or.inl⟩
  cases l with
  | engine el =>
    obtain ⟨e, he, rfl⟩ := Option.map_eq_some_iff.mp hs
    exact ⟨hc, Or.inl⟩
  | pauseRequest c' rid | abortRequest c' rid =>
    simp only [step] at hs
    split at hs
    · obtain rfl := Option.some.inj hs
      refine hput (fun _ => ⟨⟨fun he => (by cases he), fun r hr => (by cases hr)⟩, fun hh => ?_⟩) rfl
      rcases hh with hh | hh <;> cases hh
    · cases hs
  | handlePause c' =>
    simp only [step] at hs
    split at hs
    · rename_i hsent
      obtain ⟨e, he, rfl⟩ := Option.map_eq_some_iff.mp hs
      obtain rfl := Option.some.inj he
      refine hput (fun hcc => ?_) rfl
      subst hcc
      refine ⟨⟨fun hp => ?_, fun _ _ _ => Or.inl rfl⟩, fun _ => Or.inr rfl⟩
      rw [(hc.idle hp).1] at hsent
      cases hsent
    · cases hs
  | handleAbort c' =>
    simp only [step] at hs
    split at hs
    · rename_i hsent
      obtain ⟨e, he, rfl⟩ := Option.map_eq_some_iff.mp hs
      obtain rfl := Option.some.inj he
      refine hput (fun hcc => ?_) rfl
      subst hcc
      refine ⟨⟨fun hp => ?_, fun _ _ _ => Or.inr rfl⟩, fun _ => Or.inr rfl⟩
      rw [(hc.idle hp).2] at hsent
      cases hsent
    · cases hs
  | answered c' outcome =>
    simp only [step] at hs
    split at hs
    · rename_i hadm
      obtain ⟨k, hk, rfl⟩ := Option.map_eq_some_iff.mp hs
      refine hput (fun hcc => ?_) rfl
      subst hcc
      obtain ⟨hhonest, hkeep⟩ := honest_answered hadm hk
      exact ⟨hhonest, fun hh => Or.inl (hkeep hh)⟩
    · cases hs
  | cancel c' =>
    simp only [step] at hs
    split at hs
    · obtain rfl := Option.some.inj hs
      refine hput (fun hcc => ?_) rfl
      subst hcc
      exact ⟨⟨fun he => (by cases he), fun r hr => (by cases hr)⟩, Or.inl⟩
    · obtain rfl := Option.some.inj hs
      refine hput (fun hcc => ?_) rfl
      subst hcc
      exact ⟨⟨fun he => (by cases he), fun r hr => (by cases hr)⟩, Or.inl⟩
    · cases hs

theorem isPaused_step (hs : s.step engine show_ l = some t) (hl : l ≠ .engine .handleResume)
    (hp : s.engine.isPaused = true) : t.engine.isPaused = true := by
  rcases engine_step hs with he | ⟨el, he, hel⟩
  · rw [he, hp]
  · rcases (EngineServer.moved_of_step he).2 with hsame | ⟨-, hset⟩ | ⟨hres, -⟩
    · rw [hsame, hp]
    · exact hset
    · rcases hel with rfl | hel
      · exact absurd (hres ▸ rfl) hl
      · exact absurd hres hel

theorem honest_run (hr : Machine.run (step engine show_) {} ls = some s) :
    (∀ c, Honest (s.calls c)) ∧ ∀ h, (s.engine.handlers h).Sound engine show_ := by
  refine Machine.run_inv (I := fun s : EngineControl => (∀ c, Honest (s.calls c)) ∧
    ∀ h, (s.engine.handlers h).Sound engine show_) (fun s l t hI hs => ?_) ?_ hr
  · refine ⟨fun c => (honest_step (hI.1 c) hs).1, fun h => ?_⟩
    rcases engine_step hs with he | ⟨el, he, -⟩
    · rw [he]
      exact hI.2 h
    · exact (((EngineServer.moved_of_step he).1 h).sound (hI.2 h)).1
  · exact ⟨fun c => ⟨fun _ => ⟨rfl, rfl⟩, fun r hr => (by cases hr)⟩, fun h => .unread (Or.inl rfl) rfl⟩

/-- Where the flag is set, no stream gets another byte until it is taken back. -/
theorem frozen_run (hsound : ∀ h, (s.engine.handlers h).Sound engine show_)
    (hp : s.engine.isPaused = true) (hr : Machine.run (step engine show_) s ls = some t)
    (hl : ∀ l ∈ ls, l ≠ .engine .handleResume) :
    t.engine.isPaused = true ∧ ∀ h, (t.engine.handlers h).written = (s.engine.handlers h).written := by
  refine (Machine.run_inv_along (I := fun t : EngineControl =>
      (∀ h, (t.engine.handlers h).Sound engine show_) ∧ t.engine.isPaused = true ∧
        ∀ h, (t.engine.handlers h).written = (s.engine.handlers h).written)
    (Q := fun _ l _ => l ≠ .engine .handleResume) (fun t l u hI hs hl => ?_)
    ⟨hsound, hp, fun _ => rfl⟩ (Machine.Along.of_labels hl) hr).2
  obtain ⟨hsound, hpaused, hw⟩ := hI
  have hflag := isPaused_step hs hl hpaused
  rcases engine_step hs with he | ⟨el, he, -⟩
  · rw [he]
    exact ⟨hsound, hpaused, hw⟩
  · have hmoved (h : ℕ) := ((EngineServer.moved_of_step he).1 h).sound (hsound h)
    exact ⟨fun h => (hmoved h).1, hflag, fun h => ((hmoved h).2.1 hpaused).trans (hw h)⟩

/-- **A pause that succeeds is final until a resume.** However the calls of the
hook, the handlers of the engine and its other clients interleave: where a call
of `pause_request` or `abort_request` has returned a success, and no resume has
been handled since it began, the engine is paused, and until a resume is handled
no stream of it, old or new, gets another byte. -/
theorem frozen_of_success {r : AbortResult} (hr : Machine.run (step engine show_) {} ls = some s)
    (hbegin : (s.calls c).point = .absent) (has : Machine.run (step engine show_) s as = some t)
    (hret : (t.calls c).point = .returned r) (hsucc : r.success = true)
    (hbs : Machine.run (step engine show_) t bs = some u)
    (hno : ∀ l ∈ as ++ bs, l ≠ .engine .handleResume) :
    u.engine.isPaused = true ∧ ∀ h, (u.engine.handlers h).written = (t.engine.handlers h).written := by
  have hnone : ¬ (s.calls c).Handled := by
    obtain ⟨hpause, habort⟩ := ((honest_run hr).1 c).idle hbegin
    rintro (hh | hh)
    · rw [hpause] at hh
      cases hh
    · rw [habort] at hh
      cases hh
  -- while the call goes on, a POST of it that is handled leaves the flag set
  have hinv : Honest (t.calls c) ∧ ((t.calls c).Handled → t.engine.isPaused = true) :=
    Machine.run_inv_along (I := fun t : EngineControl =>
        Honest (t.calls c) ∧ ((t.calls c).Handled → t.engine.isPaused = true))
      (Q := fun _ l _ => l ≠ .engine .handleResume)
      (fun _ _ _ hI hs hl => ⟨(honest_step hI.1 hs).1, fun hh =>
        ((honest_step hI.1 hs).2 hh).elim (fun hold => isPaused_step hs hl (hI.2 hold)) id⟩)
      ⟨(honest_run hr).1 c, fun hh => absurd hh hnone⟩
      (Machine.Along.of_labels fun l hl => hno l (List.mem_append_left bs hl)) has
  have hpaused : t.engine.isPaused = true := hinv.2 (hinv.1.success r hret hsucc)
  have hsound := (honest_run (Machine.run_append_eq_some.mpr ⟨s, hr, has⟩)).2
  exact frozen_run hsound hpaused hbs fun l hl => hno l (List.mem_append_right as hl)

/-- A stream begins, and a pause, of which the POST to `/pause` is late. -/
def lateBegin : List ControlLabel :=
  [.engine (.request 0), .engine (.body 0 0 (some (.obj [("request_id".toList, .text ['r'])]))),
    .engine (.resume 0)]

def lateCall : List ControlLabel :=
  [.pauseRequest 0 "r", .answered 0 (.timeout "50.0"), .handleAbort 0, .answered 0 (.status 200)]

def lateEnd : List ControlLabel := [.handlePause 0, .engine (.resume 0)]

theorem frozen_of_success_late : ∃ s t u,
    Machine.run (step EngineServer.abEngine fun _ => []) {} lateBegin = some s ∧
      Machine.run (step EngineServer.abEngine fun _ => []) s lateCall = some t ∧
      Machine.run (step EngineServer.abEngine fun _ => []) t lateEnd = some u ∧
      (u.engine.handlers 0).written = MockLLMEngine.event "r" "a" 0 false := by
  have hsome : (Machine.run (step EngineServer.abEngine fun _ => []) {}
      (lateBegin ++ lateCall ++ lateEnd)).isSome := by decide +kernel
  obtain ⟨u, hu⟩ := Option.isSome_iff_exists.mp hsome
  obtain ⟨t, ht, hbs⟩ := Machine.run_append_eq_some.mp hu
  obtain ⟨s, hr, has⟩ := Machine.run_append_eq_some.mp ht
  have hbegin : (Machine.run (step EngineServer.abEngine fun _ => []) {} lateBegin).map
      (fun s => (s.calls 0).point) = some .absent := by decide +kernel
  have hend : (Machine.run (step EngineServer.abEngine fun _ => []) {} (lateBegin ++ lateCall)).map
      (fun t => ((t.calls 0).point, (t.engine.handlers 0).written)) = some (.returned {
        success := true, statusCode := 200, requestId := "r", message := "HTTP 200" },
        MockLLMEngine.event "r" "a" 0 false) := by decide +kernel
  rw [hr] at hbegin
  rw [ht] at hend
  obtain ⟨hret, hw⟩ := Prod.mk.inj (Option.some.inj hend)
  have hno : ∀ l ∈ lateCall ++ lateEnd, l ≠ .engine .handleResume := by
    simp [lateCall, lateEnd]
  obtain ⟨-, hfrozen⟩ := frozen_of_success hr (Option.some.inj hbegin) has hret rfl hbs hno
  exact ⟨s, t, u, hr, has, hbs, (hfrozen 0).trans hw⟩

end EngineControl
end Sgm
