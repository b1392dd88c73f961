/-
# Machines with labelled steps, and their runs

A machine is a partial step function: in a state, a label leads to one state
or is not possible. A run is a list of labels possible one after the other.
Concurrency is in the labels: each names the party that moves, so the runs of
the machine are all interleavings of its parties.

Key definitions: `Machine.run`, `Machine.Along`.
Key theorems: `Machine.run_inv` (an invariant of the steps holds after every
run), `Machine.run_inv_along` (the same for the runs whose steps all satisfy a
condition), `Machine.exists_step` (what comes about in a run comes about in one
of its steps), `Machine.unwind` (steps that a party does not see can be left out),
`Machine.count_le` (a measure that some steps decrease bounds how
many of them a run takes), `Machine.exists_run_of_measure` (a machine that can
always move on until it is done, at the cost of a measure, gets there),
`Machine.exists_component_run` and `Machine.exists_whole_run` (between the runs
of a machine and those of a part of it).
-/
import Mathlib

namespace Sgm
namespace Machine

variable {σ α : Type*} (step : σ → α → Option σ)

/-- The state after the labels, each step taken in turn. -/
def run : σ → List α → Option σ
  | s, [] => some s
  | s, a :: as => (step s a).bind fun t => run t as

@[simp] theorem run_nil (s : σ) : run step s [] = some s := rfl

theorem run_cons (s : σ) (a : α) (as : List α) :
    run step s (a :: as) = (step s a).bind fun t => run step t as := rfl

variable {step}

theorem run_cons_eq_some {s u : σ} {a : α} {as : List α} :
    run step s (a :: as) = some u ↔ ∃ t, step s a = some t ∧ run step t as = some u := by
  simp [run_cons, Option.bind_eq_some_iff]

theorem run_append {s : σ} {as bs : List α} :
    run step s (as ++ bs) = (run step s as).bind fun t => run step t bs := by
  induction as generalizing s with
  | nil => rfl
  | cons a as ih =>
    simp only [List.cons_append, run_cons]
    cases h : step s a with
    | none => rfl
    | some t => simpa using ih

theorem run_append_eq_some {s u : σ} {as bs : List α} :
    run step s (as ++ bs) = some u ↔ ∃ t, run step s as = some t ∧ run step t bs = some u := by
  simp [run_append, Option.bind_eq_some_iff]

theorem run_concat_eq_some {s u : σ} {as : List α} {a : α} :
    run step s (as ++ [a]) = some u ↔ ∃ t, run step s as = some t ∧ step t a = some u := by
  simp [run_append_eq_some, run_cons_eq_some]

/-! ### Conditions along a run -/

variable (step) in
/-- Every step of the run satisfies `Q`, which reads the state before, the
label and the state after. -/
def Along (Q : σ → α → σ → Prop) : σ → List α → Prop
  | _, [] => True
  | s, a :: as => ∀ t, step s a = some t → Q s a t ∧ Along Q t as

theorem Along.of_forall {Q : σ → α → σ → Prop} (h : ∀ s a t, step s a = some t → Q s a t) :
    ∀ (s : σ) (as : List α), Along step Q s as
  | _, [] => trivial
  | _, _ :: as => fun t ht => ⟨h _ _ t ht, Along.of_forall h t as⟩

theorem Along.of_labels {P : α → Prop} : ∀ {s : σ} {as : List α}, (∀ a ∈ as, P a) →
    Along step (fun _ a _ => P a) s as
  | _, [], _ => trivial
  | _, _ :: _, h => fun _ _ =>
    ⟨h _ List.mem_cons_self, Along.of_labels fun a ha => h a (List.mem_cons_of_mem _ ha)⟩

theorem Along.labels {P : α → Prop} : ∀ {s u : σ} {as : List α},
    Along step (fun _ a _ => P a) s as → run step s as = some u → ∀ a ∈ as, P a
  | _, _, [], _, _ => fun _ ha => by cases ha
  | s, u, b :: as, h, hr => by
    obtain ⟨t, ht, hr⟩ := run_cons_eq_some.mp hr
    intro a ha
    rcases List.mem_cons.mp ha with rfl | ha
    · exact (h t ht).1
    · exact (h t ht).2.labels hr a ha

theorem Along.cons_iff {Q : σ → α → σ → Prop} {s t : σ} {a : α} {as : List α}
    (h : step s a = some t) : Along step Q s (a :: as) ↔ Q s a t ∧ Along step Q t as := by
  constructor
  · exact fun hA => hA t h
  · intro hA t' ht'
    obtain rfl : t = t' := by simpa [h] using ht'
    exact hA

instance Along.decidable {Q : σ → α → σ → Prop} [∀ s a t, Decidable (Q s a t)] :
    ∀ (s : σ) (as : List α), Decidable (Along step Q s as)
  | _, [] => isTrue trivial
  | s, a :: as =>
    match h : step s a with
    | none => isTrue fun t ht => absurd (h.symm.trans ht) (by simp)
    | some t =>
      have := Along.decidable (Q := Q) t as
      decidable_of_iff _ (Along.cons_iff h).symm

/-- A condition holds along a run if it holds of every step that a beginning
of the run leads to. -/
theorem Along.of_splits {Q : σ → α → σ → Prop} : ∀ {s : σ} {as : List α},
    (∀ bs a cs t u, as = bs ++ a :: cs → run step s bs = some t → step t a = some u → Q t a u) →
    Along step Q s as
  | _, [], _ => trivial
  | s, a :: as, h => fun t ht => ⟨h [] a as s t rfl rfl ht, Along.of_splits fun bs b cs u v has hu hv =>
      h (a :: bs) b cs u v (by rw [has]; rfl) (run_cons_eq_some.mpr ⟨t, ht, hu⟩) hv⟩

/-- A condition holds along a run if it holds of every step from which the
rest of the run leads to the end. -/
theorem Along.of_rest {Q : σ → α → σ → Prop} : ∀ {s u : σ} {as : List α}, run step s as = some u →
    (∀ t a v cs, step t a = some v → run step v cs = some u → Q t a v) → Along step Q s as
  | _, _, [], _, _ => trivial
  | _, _, _ :: _, hr, h => fun t ht => by
    rw [run_cons, ht, Option.bind_some] at hr
    exact ⟨h _ _ t _ ht hr, Along.of_rest hr h⟩

/-- What holds of every state of a run holds before and after each step. -/
theorem Along.of_states {Φ : σ → Prop} {s : σ} {as : List α}
    (h : ∀ bs t, bs <+: as → run step s bs = some t → Φ t) :
    Along step (fun s _ t => Φ s ∧ Φ t) s as :=
  Along.of_splits fun bs a cs t u has hr hs =>
    ⟨h bs t ⟨a :: cs, has.symm⟩ hr,
      h (bs ++ [a]) u ⟨cs, by rw [has]; simp⟩ (run_concat_eq_some.mpr ⟨t, hr, hs⟩)⟩

theorem Along.mono {Q R : σ → α → σ → Prop} (h : ∀ s a t, Q s a t → R s a t) :
    ∀ {s : σ} {as : List α}, Along step Q s as → Along step R s as
  | _, [], _ => trivial
  | _, _ :: _, hQ => fun t ht => ⟨h _ _ _ (hQ t ht).1, ((hQ t ht).2).mono h⟩

theorem Along.and {Q R : σ → α → σ → Prop} : ∀ {s : σ} {as : List α}, Along step Q s as →
    Along step R s as → Along step (fun s a t => Q s a t ∧ R s a t) s as
  | _, [], _, _ => trivial
  | _, _ :: _, hQ, hR => fun t ht =>
    ⟨⟨(hQ t ht).1, (hR t ht).1⟩, (hQ t ht).2.and (hR t ht).2⟩

theorem Along.append_left {Q : σ → α → σ → Prop} :
    ∀ {s : σ} {as bs : List α}, Along step Q s (as ++ bs) → Along step Q s as
  | _, [], _, _ => trivial
  | _, _ :: _, _, h => fun t ht => ⟨(h t ht).1, (h t ht).2.append_left⟩

theorem Along.append_right {Q : σ → α → σ → Prop} : ∀ {s t : σ} {as bs : List α},
    Along step Q s (as ++ bs) → run step s as = some t → Along step Q t bs
  | s, t, [], _, h, hr => by
    obtain rfl : s = t := by simpa using hr
    exact h
  | _, _, _ :: _, _, h, hr => by
    obtain ⟨u, hu, hr⟩ := run_cons_eq_some.mp hr
    exact (h u hu).2.append_right hr

theorem Along.append {Q : σ → α → σ → Prop} : ∀ {s : σ} {as bs : List α},
    Along step Q s as → (∀ t, run step s as = some t → Along step Q t bs) →
    Along step Q s (as ++ bs)
  | s, [], _, _, h => h s rfl
  | _, _ :: _, _, h, hb => fun t ht =>
    ⟨(h t ht).1, (h t ht).2.append fun u hu => hb u (run_cons_eq_some.mpr ⟨t, ht, hu⟩)⟩

/-! ### Invariants -/

/-- What the steps that satisfy `Q` preserve holds after every run all of
whose steps satisfy `Q`. -/
theorem run_inv_along {I : σ → Prop} {Q : σ → α → σ → Prop}
    (h : ∀ s a t, I s → step s a = some t → Q s a t → I t) :
    ∀ {s u : σ} {as : List α}, I s → Along step Q s as → run step s as = some u → I u
  | s, u, [], hs, _, hr => by
    obtain rfl : s = u := by simpa using hr
    exact hs
  | s, u, a :: as, hs, hQ, hr => by
    obtain ⟨t, ht, hr⟩ := run_cons_eq_some.mp hr
    exact run_inv_along h (h s a t hs ht (hQ t ht).1) (hQ t ht).2 hr

/-- What every step preserves holds after every run. -/
theorem run_inv {I : σ → Prop} (h : ∀ s a t, I s → step s a = some t → I t) {s u : σ} {as : List α}
    (hs : I s) (hr : run step s as = some u) : I u :=
  run_inv_along (Q := fun _ _ _ => True) (fun s a t hs ht _ => h s a t hs ht) hs
    (Along.of_forall (fun _ _ _ _ => trivial) s as) hr

/-- An invariant holds at every step of a run, so a condition it implies can
be assumed along. -/
theorem Along.of_inv {I : σ → Prop} {Q R : σ → α → σ → Prop}
    (h : ∀ s a t, I s → step s a = some t → Q s a t → I t)
    (hR : ∀ s a t, I s → step s a = some t → Q s a t → R s a t) :
    ∀ {s : σ} {as : List α}, I s → Along step Q s as → Along step R s as
  | _, [], _, _ => trivial
  | _, _ :: _, hs, hQ => fun t ht =>
    ⟨hR _ _ t hs ht (hQ t ht).1, Along.of_inv h hR (h _ _ t hs ht (hQ t ht).1) (hQ t ht).2⟩

/-- What holds after a run, and did not before it, has come about in one of its
steps. -/
theorem exists_step {Φ : σ → Prop} : ∀ {s u : σ} {as : List α}, run step s as = some u → ¬ Φ s →
    Φ u → ∃ bs a t v, bs ++ [a] <+: as ∧ run step s bs = some t ∧ step t a = some v ∧ ¬ Φ t ∧ Φ v
  | s, u, [], hr, hs, hu => by
    obtain rfl : s = u := by simpa using hr
    exact absurd hu hs
  | s, u, a :: as, hr, hs, hu => by
    obtain ⟨t, ht, hr⟩ := run_cons_eq_some.mp hr
    by_cases hΦ : Φ t
    · exact ⟨[], a, s, t, List.prefix_append [a] as, rfl, ht, hs, hΦ⟩
    · obtain ⟨bs, b, v, w, hbs, hv, hw, hno, hyes⟩ := exists_step hr hΦ hu
      exact ⟨a :: bs, b, v, w, List.prefix_cons_inj a |>.mpr hbs,
        run_cons_eq_some.mpr ⟨t, ht, hv⟩, hw, hno, hyes⟩

/-! ### Components -/

/-- Where a machine is a part of another, and each step of the other is a run of
the part, so is each run. -/
theorem exists_component_run {τ β : Type*} {whole : τ → β → Option τ} (part : τ → σ)
    (h : ∀ x b y, whole x b = some y → ∃ as, run step (part x) as = some (part y)) :
    ∀ {x y : τ} {bs : List β}, run whole x bs = some y →
      ∃ as, run step (part x) as = some (part y)
  | x, y, [], hr => by
    obtain rfl : x = y := by simpa using hr
    exact ⟨[], rfl⟩
  | x, y, b :: bs, hr => by
    obtain ⟨z, hz, hr⟩ := run_cons_eq_some.mp hr
    obtain ⟨as, has⟩ := h x b z hz
    obtain ⟨as', has'⟩ := exists_component_run part h hr
    exact ⟨as ++ as', run_append_eq_some.mpr ⟨part z, has, has'⟩⟩

/-- Where a machine is a part of another, and the other can do as the part does,
a run of the part is one of the other. -/
theorem exists_whole_run {τ β : Type*} {whole : τ → β → Option τ} (part : τ → σ) (lift : α → β)
    {P : α → Prop} (h : ∀ x a s, P a → step (part x) a = some s →
      ∃ y, whole x (lift a) = some y ∧ part y = s) :
    ∀ {x : τ} {s : σ} {as : List α}, (∀ a ∈ as, P a) → run step (part x) as = some s →
      ∃ y, run whole x (as.map lift) = some y ∧ part y = s
  | x, s, [], _, hr => ⟨x, rfl, by simpa using hr⟩
  | x, s, a :: as, ha, hr => by
    obtain ⟨t, ht, hr⟩ := run_cons_eq_some.mp hr
    obtain ⟨y, hy, rfl⟩ := h x a t (ha a List.mem_cons_self) ht
    obtain ⟨z, hz, hs⟩ := exists_whole_run part lift h
      (fun b hb => ha b (List.mem_cons_of_mem a hb)) hr
    exact ⟨z, run_cons_eq_some.mpr ⟨y, hy, hz⟩, hs⟩

/-! ### Two runs -/

/-- States and labels are mapped, and each step of a run goes along: so does the
run, with what holds of its steps. -/
theorem run_map {τ β : Type*} {other : τ → β → Option τ} (f : σ → τ) (ρ : α → β) {Q : σ → α → σ → Prop}
    {R : τ → β → τ → Prop} (h : ∀ s a t, step s a = some t → Q s a t →
      other (f s) (ρ a) = some (f t) ∧ R (f s) (ρ a) (f t)) :
    ∀ {s u : σ} {as : List α}, run step s as = some u → Along step Q s as →
      run other (f s) (as.map ρ) = some (f u) ∧ Along other R (f s) (as.map ρ)
  | s, u, [], hr, _ => by
    obtain rfl : s = u := by simpa using hr
    exact ⟨rfl, trivial⟩
  | s, u, a :: as, hr, hq => by
    obtain ⟨t, ht, hr⟩ := run_cons_eq_some.mp hr
    obtain ⟨hqt, hqs⟩ := hq t ht
    obtain ⟨hstep, hR⟩ := h s a t ht hqt
    obtain ⟨hrun, halong⟩ := run_map f ρ h hr hqs
    exact ⟨run_cons_eq_some.mpr ⟨f t, hstep, hrun⟩, (Along.cons_iff hstep).mpr ⟨hR, halong⟩⟩

/-- Unwinding. The steps of a run that are a party's own can be taken by
another state that looks the same to the party, and the others change nothing
that it sees. So its own steps alone are a run, and look the same at the end. -/
theorem unwind {R : σ → σ → Prop} {Q : σ → α → σ → Prop} {own : α → Prop} [DecidablePred own]
    (hown : ∀ s s' t a, R s t → step s a = some s' → Q s a s' → own a →
      ∃ t', step t a = some t' ∧ R s' t')
    (hother : ∀ s s' t a, R s t → step s a = some s' → Q s a s' → ¬ own a → R s' t) :
    ∀ {s u t : σ} {as : List α}, R s t → Along step Q s as → run step s as = some u →
      ∃ v, run step t (as.filter (own ·)) = some v ∧ R u v
  | s, u, t, [], hR, _, hr => by
    obtain rfl : s = u := by simpa using hr
    exact ⟨t, rfl, hR⟩
  | s, u, t, a :: as, hR, hQ, hr => by
    obtain ⟨s', hs', hr⟩ := run_cons_eq_some.mp hr
    obtain ⟨hq, hQ⟩ := hQ s' hs'
    by_cases ha : own a
    · obtain ⟨t', ht', hR'⟩ := hown s s' t a hR hs' hq ha
      obtain ⟨v, hv, hRv⟩ := unwind hown hother hR' hQ hr
      refine ⟨v, ?_, hRv⟩
      rw [List.filter_cons_of_pos (by simpa using ha)]
      exact run_cons_eq_some.mpr ⟨t', ht', hv⟩
    · rw [List.filter_cons_of_neg (by simpa using ha)]
      exact unwind hown hother (hother s s' t a hR hs' hq ha) hQ hr

/-! ### Measures -/

/-- A measure that the steps labelled `p` decrease, and no step increases,
bounds the number of steps labelled `p`. -/
theorem count_le {I : σ → Prop} {Q : σ → α → σ → Prop} (p : α → Bool) (μ : σ → ℕ)
    (h : ∀ s a t, I s → step s a = some t → Q s a t → I t)
    (hμ : ∀ s a t, I s → step s a = some t → Q s a t → μ t + (if p a then 1 else 0) ≤ μ s) :
    ∀ {s u : σ} {as : List α}, I s → Along step Q s as → run step s as = some u →
      μ u + as.countP p ≤ μ s
  | s, u, [], _, _, hr => by
    obtain rfl : s = u := by simpa using hr
    simp
  | s, u, a :: as, hs, hQ, hr => by
    obtain ⟨t, ht, hr⟩ := run_cons_eq_some.mp hr
    have h1 := hμ s a t hs ht (hQ t ht).1
    have h2 := count_le p μ h hμ (h s a t hs ht (hQ t ht).1) (hQ t ht).2 hr
    rw [List.countP_cons]
    omega

/-- A machine that, until it is done, can always take a step that satisfies
`Q` and lowers the measure, has a run of such steps to where it is done. -/
theorem exists_run_of_measure {I done : σ → Prop} {Q : σ → α → σ → Prop} (μ : σ → ℕ)
    (hI : ∀ s a t, I s → step s a = some t → Q s a t → I t)
    (h : ∀ s, I s → ¬ done s → ∃ a t, step s a = some t ∧ Q s a t ∧ μ t < μ s) (s : σ) (hs : I s) :
    ∃ as u, run step s as = some u ∧ Along step Q s as ∧ done u := by
  by_cases hd : done s
  · exact ⟨[], s, rfl, trivial, hd⟩
  · obtain ⟨a, t, ht, hQ, hlt⟩ := h s hs hd
    obtain ⟨as, u, hr, hA, hu⟩ := exists_run_of_measure μ hI h t (hI s a t hs ht hQ)
    refine ⟨a :: as, u, run_cons_eq_some.mpr ⟨t, ht, hr⟩, fun t' ht' => ?_, hu⟩
    obtain rfl : t = t' := by simpa [ht] using ht'
    exact ⟨hQ, hA⟩
  termination_by μ s

end Machine
end Sgm
