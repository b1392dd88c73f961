/-
# Clients that question a server which others change

A client's program is a tree: it asks, and what it does next depends on the
reply, on what it sees of the world when the reply comes, and on the state it
shares with the other clients. A request may fail, whether the server had it
or not. Between two moves of a client the server serves others and changes on
its own.

`Course` says what one client may come to when all that is known of the rest
is a condition `P` on every move of the server, and an invariant `K` of the
server with the shared state. `Pool.course_of_run` is the rule: what a client
of a pool comes to in a run, it comes to by a course. So a property of a client
is proved of its tree, by the cases of its courses, and no interleaving.

Key definitions: `Dialogue`, `Pool`, `Pool.step`, `Moves`, `Course`.
Key theorems: `Pool.course_of_run`, `Pool.course_of_along`.
-/
import Sgm.Lib.Machine

namespace Sgm

/-- A program of requests `Q` and replies `R`: `V` is what it sees of the world,
`L` is the state that it shares with others, `A` is its result. `none` stands
for the reply to a request that failed. -/
inductive Dialogue (Q R V L A : Type)
  | done (a : A)
  | ask (q : Q) (update : Option R → V → L → L) (next : Option R → V → L → Dialogue Q R V L A)

/-- A server: what it does on its own, how it answers (`C` are the choices it
has), and what the clients see without asking. -/
structure Server (S E C Q R V : Type) where
  env : S → E → Option S
  serve : S → Q → C → Option (S × R)
  view : S → V

namespace Server

variable {S E C Q R V : Type}

/-- A move of a server. -/
inductive Move (E C Q : Type)
  | env (e : E)
  | serve (q : Q) (c : C)

def move (srv : Server S E C Q R V) (s : S) : Move E C Q → Option S
  | .env e => srv.env s e
  | .serve q c => (srv.serve s q c).map Prod.fst

end Server

open Server (Move)

/-- Where a client is: `asking` and `answered` keep the program up to the
request that is under way. -/
inductive Client (Q R V L A : Type)
  | idle
  | asking (d : Dialogue Q R V L A)
  | answered (r : R) (d : Dialogue Q R V L A)
  | finished (a : A)

/-- The client that has come to `d`. -/
def Dialogue.settle {Q R V L A : Type} : Dialogue Q R V L A → Client Q R V L A
  | .done a => .finished a
  | .ask q update next => .asking (.ask q update next)

/-- Every request of the program satisfies `ok`. -/
def Dialogue.Asks {Q R V L A : Type} (ok : Q → Prop) : Dialogue Q R V L A → Prop
  | .done _ => True
  | .ask q _ next => ok q ∧ ∀ r v l, (next r v l).Asks ok

def Client.Asks {Q R V L A : Type} (ok : Q → Prop) : Client Q R V L A → Prop
  | .asking d | .answered _ d => d.Asks ok
  | _ => True

def Client.result? {Q R V L A : Type} : Client Q R V L A → Option A
  | .finished a => some a
  | _ => none

theorem Client.of_result? {Q R V L A : Type} {x : Client Q R V L A} {a : A}
    (h : x.result? = some a) : x = .finished a := by
  cases x with
  | finished a' =>
    obtain rfl : a' = a := Option.some.inj h
    rfl
  | _ => cases h

theorem Dialogue.Asks.settle {Q R V L A : Type} {ok : Q → Prop} {d : Dialogue Q R V L A}
    (h : d.Asks ok) : d.settle.Asks ok := by
  cases d with
  | done a => trivial
  | ask q update next => exact h

/-- A server, the state the clients share, and the clients. -/
structure Pool (S Q R V L A : Type) where
  server : S
  shared : L
  clients : ℕ → Client Q R V L A

inductive PoolLabel (E C : Type)
  | env (e : E)
  | begin (t : ℕ)
  /-- the server answers the request of client `t` -/
  | serve (t : ℕ) (c : C)
  /-- the reply reaches client `t` -/
  | receive (t : ℕ)
  /-- the request of client `t` fails, or the reply is lost -/
  | fail (t : ℕ)

/-- A request of client `t` fails. -/
def PoolLabel.fails {E C : Type} (t : ℕ) : PoolLabel E C → Bool
  | .fail t' => t' = t
  | _ => false

section

variable {S E C Q R V L A : Type}

namespace Pool

def setClient (p : Pool S Q R V L A) (t : ℕ) (x : Client Q R V L A) : Pool S Q R V L A :=
  { p with clients := Function.update p.clients t x }

@[simp] theorem setClient_server (p : Pool S Q R V L A) (t : ℕ) (x : Client Q R V L A) :
    (p.setClient t x).server = p.server := rfl

@[simp] theorem setClient_shared (p : Pool S Q R V L A) (t : ℕ) (x : Client Q R V L A) :
    (p.setClient t x).shared = p.shared := rfl

@[simp] theorem setClient_self (p : Pool S Q R V L A) (t : ℕ) (x : Client Q R V L A) :
    (p.setClient t x).clients t = x := Function.update_self ..

@[simp] theorem setClient_of_ne (p : Pool S Q R V L A) {t t' : ℕ} (h : t' ≠ t)
    (x : Client Q R V L A) : (p.setClient t x).clients t' = p.clients t' :=
  Function.update_of_ne h ..

/-- Client `t` goes on from `ask q update next`, with the reply or without. -/
def resume (srv : Server S E C Q R V) (p : Pool S Q R V L A) (t : ℕ) (r : Option R) :
    Dialogue Q R V L A → Option (Pool S Q R V L A)
  | .done _ => none
  | .ask _ update next => some (setClient
      { p with shared := update r (srv.view p.server) p.shared } t
      (next r (srv.view p.server) p.shared).settle)

/-- `program` is what each client runs: its first part reads the world and the
shared state. -/
def step (srv : Server S E C Q R V) (program : V → L → Dialogue Q R V L A) (p : Pool S Q R V L A) :
    PoolLabel E C → Option (Pool S Q R V L A)
  | .env e => (srv.env p.server e).map fun s => { p with server := s }
  | .begin t =>
    match p.clients t with
    | .idle => some (p.setClient t (program (srv.view p.server) p.shared).settle)
    | _ => none
  | .serve t c =>
    match p.clients t with
    | .asking (.ask q update next) => (srv.serve p.server q c).map fun sr =>
        setClient { p with server := sr.1 } t (.answered sr.2 (.ask q update next))
    | _ => none
  | .receive t =>
    match p.clients t with
    | .answered r d => resume srv p t (some r) d
    | _ => none
  | .fail t =>
    match p.clients t with
    | .asking d => resume srv p t none d
    | .answered _ d => resume srv p t none d
    | _ => none

end Pool

/-! ### Courses -/

variable (srv : Server S E C Q R V)

/-- The server gets from `s` to `s'` by moves that satisfy `P`. -/
def Moves (P : S → Move E C Q → S → Prop) (s s' : S) : Prop :=
  ∃ ms, Machine.run srv.move s ms = some s' ∧ Machine.Along srv.move P s ms

/-- A client that is at `d` when the server is at `s` may come to the result
`a`, if the moves of the server satisfy `P` and the server and the shared state
satisfy `K` at each move of the client; the number is that of its requests that
fail. -/
inductive Course (P : S → Move E C Q → S → Prop) (K : S → L → Prop) :
    ℕ → S → Dialogue Q R V L A → A → Prop
  | done (s : S) (a : A) : Course P K 0 s (.done a) a
  | reply {n : ℕ} {s s₁ s₂ s₃ : S} {q : Q} {c : C} {r : R} {l : L} {a : A}
    {update : Option R → V → L → L} {next : Option R → V → L → Dialogue Q R V L A}
    (before : Moves srv P s s₁) (served : srv.serve s₁ q c = some (s₂, r))
    (move : P s₁ (.serve q c) s₂) (after : Moves srv P s₂ s₃) (known : K s₃ l)
    (rest : Course P K n s₃ (next (some r) (srv.view s₃) l) a) :
    Course P K n s (.ask q update next) a
  | fail {n : ℕ} {s s₁ : S} {q : Q} {l : L} {a : A}
    {update : Option R → V → L → L} {next : Option R → V → L → Dialogue Q R V L A}
    (before : Moves srv P s s₁) (known : K s₁ l)
    (rest : Course P K n s₁ (next none (srv.view s₁) l) a) :
    Course P K (n + 1) s (.ask q update next) a

variable {srv} {P P' : S → Move E C Q → S → Prop} {K : S → L → Prop} {n : ℕ}

theorem Moves.refl (s : S) : Moves srv P s s := ⟨[], rfl, trivial⟩

theorem Moves.head {s s' s'' : S} {m : Move E C Q} (h : srv.move s m = some s') (hP : P s m s')
    (hm : Moves srv P s' s'') : Moves srv P s s'' := by
  obtain ⟨ms, hr, hA⟩ := hm
  refine ⟨m :: ms, Machine.run_cons_eq_some.mpr ⟨s', h, hr⟩, fun t ht => ?_⟩
  obtain rfl : s' = t := by simpa [h] using ht
  exact ⟨hP, hA⟩

/-- The move by which a request is served. -/
theorem Moves.served {s s' : S} {q : Q} {c : C} {r : R} (h : srv.serve s q c = some (s', r))
    (hP : P s (.serve q c) s') : Moves srv P s s' :=
  .head (by simp [Server.move, h]) hP (.refl s')

theorem Moves.trans {s s' s'' : S} (h : Moves srv P s s') (h' : Moves srv P s' s'') :
    Moves srv P s s'' := by
  obtain ⟨ms, hr, hA⟩ := h
  obtain ⟨ms', hr', hA'⟩ := h'
  refine ⟨ms ++ ms', Machine.run_append_eq_some.mpr ⟨s', hr, hr'⟩, hA.append fun t ht => ?_⟩
  obtain rfl : s' = t := by simpa [hr] using ht
  exact hA'

/-- What each move preserves holds after the moves. -/
theorem Moves.inv {I : S → Prop} (hI : ∀ s m s', I s → srv.move s m = some s' → P s m s' → I s')
    {s s' : S} (h : Moves srv P s s') (hs : I s) : I s' := by
  obtain ⟨ms, hr, hA⟩ := h
  exact Machine.run_inv_along hI hs hA hr

/-- A move of the server before a request is served may be counted to it. -/
theorem Course.head {s s' : S} {m : Move E C Q} {d : Dialogue Q R V L A} {a : A}
    (h : srv.move s m = some s') (hP : P s m s') (hc : Course srv P K n s' d a) :
    Course srv P K n s d a := by
  cases hc with
  | done => exact .done s a
  | reply before served move after known rest =>
    exact .reply (before.head h hP) served move after known rest
  | fail before known rest => exact .fail (before.head h hP) known rest

/-! ### A client of a pool runs a course -/

namespace Pool

variable {program : V → L → Dialogue Q R V L A}

/-- A condition on the moves of the server, as one on the steps of the pool. -/
def Keeps (P : S → Move E C Q → S → Prop) (p : Pool S Q R V L A) (l : PoolLabel E C)
    (p' : Pool S Q R V L A) : Prop :=
  match l with
  | .env e => P p.server (.env e) p'.server
  | .serve t c => ∀ q update next, p.clients t = .asking (.ask q update next) →
      P p.server (.serve q c) p'.server
  | _ => True

theorem resume_eq_some {p p' : Pool S Q R V L A} {t : ℕ} {r : Option R} {d : Dialogue Q R V L A}
    (h : resume srv p t r d = some p') : ∃ q update next, d = .ask q update next ∧
      p' = setClient { p with shared := update r (srv.view p.server) p.shared } t
        (next r (srv.view p.server) p.shared).settle := by
  cases d with
  | done a => simp [resume] at h
  | ask q update next =>
    obtain rfl := Option.some.inj h
    exact ⟨q, update, next, rfl, rfl⟩

theorem Keeps.trivial {p p' : Pool S Q R V L A} {l : PoolLabel E C} :
    Keeps (fun _ _ _ => True) p l p' := by
  cases l with
  | serve t c => exact fun _ _ _ _ => True.intro
  | _ => exact True.intro

/-- What is known of each move, with what is known of the server before and
after each step. -/
theorem Keeps.and {F G : S → Prop} {p p' : Pool S Q R V L A} {l : PoolLabel E C}
    (h : Keeps P p l p') (hF : F p.server) (hG : G p'.server) :
    Keeps (fun s m s' => P s m s' ∧ F s ∧ G s') p l p' := by
  cases l with
  | env e => exact ⟨h, hF, hG⟩
  | serve t c => exact fun q update next ht => ⟨h q update next ht, hF, hG⟩
  | _ => exact True.intro

theorem Keeps.mono (hPP' : ∀ s m s', P s m s' → P' s m s') {p p' : Pool S Q R V L A}
    {l : PoolLabel E C} (h : Keeps P p l p') : Keeps P' p l p' := by
  cases l with
  | env e => exact hPP' _ _ _ h
  | serve t c => exact fun q update next ht => hPP' _ _ _ (h q update next ht)
  | _ => exact True.intro

/-- The server moves or stays as it is. -/
theorem server_step {p p' : Pool S Q R V L A} {l : PoolLabel E C}
    (h : step srv program p l = some p') (hP : Keeps P p l p') :
    p'.server = p.server ∨ ∃ m, srv.move p.server m = some p'.server ∧ P p.server m p'.server := by
  cases l with
  | env e =>
    obtain ⟨s, hs, rfl⟩ := Option.map_eq_some_iff.mp h
    exact .inr ⟨.env e, hs, hP⟩
  | serve t c =>
    simp only [step] at h
    split at h
    · rename_i q update next hask
      obtain ⟨⟨s, r⟩, hs, rfl⟩ := Option.map_eq_some_iff.mp h
      exact .inr ⟨.serve q c, by simp [Server.move, hs], hP q update next hask⟩
    · cases h
  | begin t =>
    simp only [step] at h
    split at h
    · obtain rfl := Option.some.inj h
      exact .inl rfl
    · cases h
  | receive t =>
    simp only [step] at h
    split at h
    · obtain ⟨q, update, next, rfl, rfl⟩ := resume_eq_some h
      exact .inl rfl
    · cases h
  | fail t =>
    simp only [step] at h
    split at h
    · obtain ⟨q, update, next, rfl, rfl⟩ := resume_eq_some h
      exact .inl rfl
    · obtain ⟨q, update, next, rfl, rfl⟩ := resume_eq_some h
      exact .inl rfl
    · cases h

theorem moves_of_run : ∀ {p p' : Pool S Q R V L A} {ls : List (PoolLabel E C)},
    Machine.Along (step srv program) (Keeps P) p ls →
    Machine.run (step srv program) p ls = some p' → Moves srv P p.server p'.server
  | p, p', [], _, hr => by
    obtain rfl : p = p' := by simpa using hr
    exact Moves.refl _
  | p, p', l :: ls, hA, hr => by
    obtain ⟨p₁, hs, hr⟩ := Machine.run_cons_eq_some.mp hr
    have hm := moves_of_run (hA p₁ hs).2 hr
    rcases server_step hs (hA p₁ hs).1 with he | ⟨m, hmove, hP⟩
    · rwa [he] at hm
    · exact hm.head hmove hP

/-! What the clients ask is among what their program asks. -/

theorem asks_setClient {ok : Q → Prop} {p : Pool S Q R V L A} (h : ∀ t, (p.clients t).Asks ok) {t : ℕ}
    {x : Client Q R V L A} (hx : x.Asks ok) (t' : ℕ) : ((p.setClient t x).clients t').Asks ok := by
  rcases eq_or_ne t' t with rfl | hne
  · rwa [setClient_self]
  · rw [setClient_of_ne _ hne]
    exact h t'

theorem asks_resume {ok : Q → Prop} {p p' : Pool S Q R V L A} {t : ℕ} {r : Option R}
    {d : Dialogue Q R V L A} (h : ∀ t, (p.clients t).Asks ok) (hd : d.Asks ok)
    (hr : resume srv p t r d = some p') (t' : ℕ) : (p'.clients t').Asks ok := by
  obtain ⟨q, update, next, rfl, rfl⟩ := resume_eq_some hr
  exact asks_setClient (p := { p with shared := _ }) h (hd.2 _ _ _).settle t'

theorem asks_step {ok : Q → Prop} (hprogram : ∀ v l, (program v l).Asks ok) {p p' : Pool S Q R V L A}
    {l : PoolLabel E C} (h : ∀ t, (p.clients t).Asks ok) (hs : step srv program p l = some p') :
    ∀ t, (p'.clients t).Asks ok := by
  cases l with
  | env e =>
    obtain ⟨s, -, rfl⟩ := Option.map_eq_some_iff.mp hs
    exact h
  | begin t =>
    simp only [step] at hs
    split at hs
    · obtain rfl := Option.some.inj hs
      exact asks_setClient h (hprogram _ _).settle
    · cases hs
  | serve t c =>
    simp only [step] at hs
    split at hs
    · rename_i q update next hask
      obtain ⟨⟨s, r⟩, -, rfl⟩ := Option.map_eq_some_iff.mp hs
      have hd := h t
      rw [hask] at hd
      exact asks_setClient (p := { p with server := s }) h hd
    · cases hs
  | receive t =>
    simp only [step] at hs
    split at hs
    · rename_i r d hans
      have hd := h t
      rw [hans] at hd
      exact asks_resume h hd hs
    · cases hs
  | fail t =>
    simp only [step] at hs
    split at hs
    · rename_i d hask
      have hd := h t
      rw [hask] at hd
      exact asks_resume h hd hs
    · rename_i r d hans
      have hd := h t
      rw [hans] at hd
      exact asks_resume h hd hs
    · cases hs

theorem asks_run {ok : Q → Prop} (hprogram : ∀ v l, (program v l).Asks ok) {p p' : Pool S Q R V L A}
    {ls : List (PoolLabel E C)} (h : ∀ t, (p.clients t).Asks ok)
    (hr : Machine.run (step srv program) p ls = some p') : ∀ t, (p'.clients t).Asks ok :=
  Machine.run_inv (I := fun p => ∀ t, (p.clients t).Asks ok)
    (fun _ _ _ hp hs => asks_step hprogram hp hs) h hr

/-- A condition on moves that holds of what the clients ask need only be
required of what the server does on its own. -/
theorem keeps_of_asks {ok : Q → Prop} (hprogram : ∀ v l, (program v l).Asks ok)
    (hok : ∀ s q c s', ok q → P s (.serve q c) s') {p : Pool S Q R V L A} {ls : List (PoolLabel E C)}
    (h : ∀ t, (p.clients t).Asks ok) (henv : ∀ e s s', PoolLabel.env e ∈ ls → P s (.env e) s') :
    Machine.Along (step srv program) (Keeps P) p ls := by
  refine (Machine.Along.of_labels (P := fun l => l ∈ ls) fun _ h => h).of_inv
    (I := fun p => ∀ t, (p.clients t).Asks ok) (fun _ _ _ hp hs _ => asks_step hprogram hp hs) ?_ h
  intro p l p' hp _ hl
  cases l with
  | env e => exact henv e _ _ hl
  | serve t c =>
    intro q update next hask
    have hd := hp t
    rw [hask] at hd
    exact hok _ _ _ _ hd.1
  | _ => trivial

/-- What holds of the server in every state of a run is known of its moves. -/
theorem keeps_of_states {F : S → Prop} {p : Pool S Q R V L A} {ls : List (PoolLabel E C)}
    (h : ∀ bs q, bs <+: ls → Machine.run (step srv program) p bs = some q → F q.server) :
    Machine.Along (step srv program) (Keeps fun s _ s' => F s ∧ F s') p ls :=
  (Machine.Along.of_states h).mono fun _ _ _ h =>
    (Keeps.and (P := fun _ _ _ => True) .trivial h.1 h.2).mono fun _ _ _ h => h.2

/-- The courses that are open to a client, with `n` failures. -/
def Open (srv : Server S E C Q R V) (P : S → Move E C Q → S → Prop) (K : S → L → Prop)
    (n : ℕ) (s : S) : Client Q R V L A → A → Prop
  | .idle, _ => True
  | .asking d, a => Course srv P K n s d a
  | .answered r d, a => ∃ q update next, d = .ask q update next ∧ ∃ s₁ l, Moves srv P s s₁ ∧ K s₁ l ∧
      (Course srv P K n s₁ (next (some r) (srv.view s₁) l) a ∨
        ∃ k, n = k + 1 ∧ Course srv P K k s₁ (next none (srv.view s₁) l) a)
  | .finished a', a => n = 0 ∧ a' = a

theorem Open.settle {s : S} {d : Dialogue Q R V L A} {a : A}
    (h : Open srv P K n s d.settle a) : Course srv P K n s d a := by
  cases d with
  | done a' =>
    obtain ⟨rfl, rfl⟩ := h
    exact .done s a'
  | ask q update next => exact h

theorem Open.head {s s' : S} {m : Move E C Q} {x : Client Q R V L A} {a : A}
    (h : srv.move s m = some s') (hP : P s m s') (ho : Open srv P K n s' x a) :
    Open srv P K n s x a := by
  cases x with
  | idle => trivial
  | asking d => exact Course.head h hP ho
  | answered r d =>
    obtain ⟨q, update, next, rfl, s₁, l, hm, hK, hc⟩ := ho
    exact ⟨q, update, next, rfl, s₁, l, hm.head h hP, hK, hc⟩
  | finished a' => exact ho

theorem resume_setClient_ne {p p' : Pool S Q R V L A} {t t' : ℕ} {r : Option R}
    {d : Dialogue Q R V L A} (h : resume srv p t' r d = some p') (hne : t ≠ t') :
    p'.server = p.server ∧ p'.clients t = p.clients t := by
  obtain ⟨q, update, next, rfl, rfl⟩ := resume_eq_some h
  exact ⟨rfl, setClient_of_ne _ hne _⟩

/-- A step of the pool, for one of its clients: the server moves, or another
client does, or it is the client's own. -/
theorem open_step {p p' : Pool S Q R V L A} {l : PoolLabel E C} {t : ℕ} {a : A}
    (hK : K p.server p.shared) (h : step srv program p l = some p') (hP : Keeps P p l p')
    (ho : Open srv P K n p'.server (p'.clients t) a) :
    Open srv P K (n + if l.fails t then 1 else 0) p.server (p.clients t) a := by
  cases l with
  | env e =>
    obtain ⟨s, hs, rfl⟩ := Option.map_eq_some_iff.mp h
    exact ho.head (m := .env e) hs hP
  | begin t' =>
    simp only [step] at h
    split at h
    · rename_i hidle
      obtain rfl := Option.some.inj h
      rcases eq_or_ne t t' with rfl | hne
      · rw [hidle]; trivial
      · simpa [hne, PoolLabel.fails] using ho
    · cases h
  | serve t' c =>
    simp only [step] at h
    split at h
    · rename_i q update next hask
      obtain ⟨⟨s, r⟩, hs, rfl⟩ := Option.map_eq_some_iff.mp h
      have hPs : P p.server (.serve q c) s := hP q update next hask
      rcases eq_or_ne t t' with rfl | hne
      · rw [hask]
        rw [setClient_self] at ho
        obtain ⟨q', update', next', he, s₁, l, hm, hKl, hc⟩ := ho
        obtain ⟨rfl, rfl, rfl⟩ := Dialogue.ask.inj he
        rcases hc with hc | ⟨k, rfl, hc⟩
        · exact .reply (Moves.refl _) hs hPs hm hKl hc
        · exact .fail ((Moves.served hs hPs).trans hm) hKl hc
      · rw [setClient_of_ne _ hne] at ho
        exact ho.head (m := .serve q c) (by simp [Server.move, hs]) hPs
    · cases h
  | receive t' =>
    simp only [step] at h
    split at h
    · rename_i r d hans
      rcases eq_or_ne t t' with rfl | hne
      · obtain ⟨q, update, next, rfl, rfl⟩ := resume_eq_some h
        rw [hans]
        rw [setClient_self] at ho
        exact ⟨q, update, next, rfl, p.server, p.shared, Moves.refl _, hK, .inl ho.settle⟩
      · obtain ⟨hs, hc⟩ := resume_setClient_ne h hne
        rw [hs, hc] at ho
        exact ho
    · cases h
  | fail t' =>
    simp only [step] at h
    split at h
    · rename_i d hask
      rcases eq_or_ne t t' with rfl | hne
      · obtain ⟨q, update, next, rfl, rfl⟩ := resume_eq_some h
        rw [setClient_self] at ho
        simp only [PoolLabel.fails, decide_true, if_true, hask]
        exact .fail (Moves.refl _) hK ho.settle
      · obtain ⟨hs, hc⟩ := resume_setClient_ne h hne
        rw [hs, hc] at ho
        simpa [PoolLabel.fails, hne.symm] using ho
    · rename_i r d hans
      rcases eq_or_ne t t' with rfl | hne
      · obtain ⟨q, update, next, rfl, rfl⟩ := resume_eq_some h
        rw [setClient_self] at ho
        simp only [PoolLabel.fails, decide_true, if_true, hans]
        exact ⟨q, update, next, rfl, p.server, p.shared, Moves.refl _, hK, .inr ⟨n, rfl, ho.settle⟩⟩
      · obtain ⟨hs, hc⟩ := resume_setClient_ne h hne
        rw [hs, hc] at ho
        simpa [PoolLabel.fails, hne.symm] using ho
    · cases h

theorem open_run {Q' : Pool S Q R V L A → PoolLabel E C → Pool S Q R V L A → Prop}
    {I : Pool S Q R V L A → Prop} (hI : ∀ p l p', I p → step srv program p l = some p' →
      Q' p l p' → I p') (hIK : ∀ p, I p → K p.server p.shared)
    (hQ : ∀ p l p', I p → step srv program p l = some p' → Q' p l p' → Keeps P p l p')
    {t : ℕ} {a : A} : ∀ {p p' : Pool S Q R V L A} {ls : List (PoolLabel E C)}, I p →
      Machine.Along (step srv program) Q' p ls → Machine.run (step srv program) p ls = some p' →
      p'.clients t = .finished a →
      Open srv P K (ls.countP (·.fails t)) p.server (p.clients t) a
  | p, p', [], _, _, hr, hf => by
    obtain rfl : p = p' := by simpa using hr
    rw [hf]
    exact ⟨rfl, rfl⟩
  | p, p', l :: ls, hp, hA, hr, hf => by
    obtain ⟨p₁, hs, hr⟩ := Machine.run_cons_eq_some.mp hr
    obtain ⟨hq, hA⟩ := hA p₁ hs
    have ho := open_run hI hIK hQ (hI p l p₁ hp hs hq) hA hr hf
    rw [List.countP_cons]
    exact open_step (hIK p hp) hs (hQ p l p₁ hp hs hq) ho

/-- **What a client comes to in a run, it comes to by a course**, from the
state of the server in which it began. -/
theorem course_of_run {Q' : Pool S Q R V L A → PoolLabel E C → Pool S Q R V L A → Prop}
    {I : Pool S Q R V L A → Prop} (hI : ∀ p l p', I p → step srv program p l = some p' →
      Q' p l p' → I p') (hIK : ∀ p, I p → K p.server p.shared)
    (hQ : ∀ p l p', I p → step srv program p l = some p' → Q' p l p' → Keeps P p l p')
    {t : ℕ} {a : A} {p p' : Pool S Q R V L A} {ls : List (PoolLabel E C)} (hp : I p)
    (hA : Machine.Along (step srv program) Q' p (.begin t :: ls))
    (hr : Machine.run (step srv program) p (.begin t :: ls) = some p')
    (hf : p'.clients t = .finished a) :
    Course srv P K (ls.countP (·.fails t)) p.server (program (srv.view p.server) p.shared) a := by
  obtain ⟨p₁, hs, hr⟩ := Machine.run_cons_eq_some.mp hr
  obtain ⟨hq, hA⟩ := hA p₁ hs
  have ho := open_run hI hIK hQ (hI p _ p₁ hp hs hq) hA hr hf
  simp only [step] at hs
  split at hs
  · obtain rfl := Option.some.inj hs
    rw [setClient_self] at ho
    exact ho.settle
  · cases hs

/-- The same where nothing is known of the shared state. -/
theorem course_of_along {t : ℕ} {a : A} {p p' : Pool S Q R V L A} {ls : List (PoolLabel E C)}
    (hA : Machine.Along (step srv program) (Keeps P) p (.begin t :: ls))
    (hr : Machine.run (step srv program) p (.begin t :: ls) = some p')
    (hf : p'.clients t = .finished a) :
    Course srv P (fun _ _ => True) (ls.countP (·.fails t)) p.server
      (program (srv.view p.server) p.shared) a :=
  course_of_run (I := fun _ => True) (fun _ _ _ _ _ _ => True.intro) (fun _ _ => True.intro)
    (fun _ _ _ _ _ h => h) True.intro hA hr hf

end Pool

end

end Sgm
