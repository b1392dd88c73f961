/-
# Consumers of a stream that arrives in pieces

A consumer waits until enough of the stream is there, takes it, and goes on.
If more of the stream never changes what it does with what is there
(`step_append`), then what it makes of a stream does not depend on how the
stream was cut into pieces (`foldl_feed`).

Key definitions: `Consumer`, `Consumer.drain`, `Consumer.feed`.
Key theorems: `Consumer.drain_append`, `Consumer.foldl_feed`.
-/
import Mathlib

namespace Sgm

/-- In a state, with some items there, the next state and the items left, or
nothing while there are too few. Its steps come to an end. -/
structure Consumer (σ β : Type*) where
  step : σ → List β → Option (σ × List β)
  effort : σ → List β → ℕ
  step_append : ∀ {s s' b b'}, step s b = some (s', b') → ∀ c, step s (b ++ c) = some (s', b' ++ c)
  effort_lt : ∀ {s s' b b'}, step s b = some (s', b') → effort s' b' < effort s b

namespace Consumer

variable {σ β : Type*} (C : Consumer σ β)

/-- All the steps that can be taken with the items there. -/
def drain (s : σ) (b : List β) : σ × List β :=
  match _h : C.step s b with
  | none => (s, b)
  | some (s', b') => drain s' b'
termination_by C.effort s b
decreasing_by exact C.effort_lt _h

variable {C}

theorem drain_of_none {s : σ} {b : List β} (h : C.step s b = none) : C.drain s b = (s, b) := by
  rw [drain]
  split
  · rfl
  · rename_i heq
    rw [h] at heq
    cases heq

theorem drain_of_some {s s' : σ} {b b' : List β} (h : C.step s b = some (s', b')) :
    C.drain s b = C.drain s' b' := by
  rw [drain]
  split
  · rename_i heq
    rw [h] at heq
    cases heq
  · rename_i heq
    rw [h] at heq
    cases heq
    rfl

/-- More items can be drained after what is there. -/
theorem drain_append (s : σ) (b c : List β) :
    C.drain s (b ++ c) = C.drain (C.drain s b).1 ((C.drain s b).2 ++ c) := by
  induction hn : C.effort s b using Nat.strong_induction_on generalizing s b with
  | _ n ih =>
    cases hs : C.step s b with
    | none => rw [drain_of_none hs]
    | some p =>
      obtain ⟨s', b'⟩ := p
      rw [drain_of_some hs, drain_of_some (C.step_append hs c)]
      exact ih _ (hn ▸ C.effort_lt hs) s' b' rfl

variable (C) in
/-- A piece arrives. -/
def feed (p : σ × List β) (piece : List β) : σ × List β := C.drain p.1 (p.2 ++ piece)

/-- A stream that arrives in pieces is consumed like the whole of it. -/
theorem foldl_feed (s : σ) (pieces : List (List β)) :
    pieces.foldl C.feed (C.drain s []) = C.drain s pieces.flatten := by
  have hgen : ∀ b : List β, pieces.foldl C.feed (C.drain s b) = C.drain s (b ++ pieces.flatten) := by
    induction pieces with
    | nil => intro b; simp
    | cons piece pieces ih =>
      intro b
      rw [List.foldl_cons, feed, ← drain_append, ih, List.flatten_cons, List.append_assoc]
  exact hgen []

end Consumer
end Sgm
