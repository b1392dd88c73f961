/-
# Preemption alerts

What an alert does to the requests that are there and to those that come
after it. A request is in the table of the proxy before its session exists,
and its upstream is chosen, its generator made and its session allocated with
no suspension in between. So an alert finds both, or the choice is still to be
made, and then it falls on the standby (`alert_reaches`).

The handler of an alert does not look at the node that it comes from: every
alert moves the traffic to the standby's upstream, also one from the standby.
In a run in which the standby sends none, no traffic goes to a node after its
alert (`alert_spares`).

Key definitions: `Signaled`, `Kept`, `Warned`, `ChoseActive`, `contacted`, `Spares`.
Key theorems: `signaled_step`, `signaled_of_triggers`, `Warned.step`, `alert_reaches`,
`alert_spares`.
-/
import Sgm.Proxy.Course

namespace Sgm

/-! ### The session of a generator that has been signaled -/

theorem owned_run {i : ℕ} {s t : System} {ls : List Label} (ho : Owned i s)
    (ha : Machine.Along System.step (fun _ _ t => Apart i t) s ls)
    (hr : Machine.run System.step s ls = some t) : Owned i t :=
  Machine.run_inv_along (fun _ _ _ ho ht ha => (owned_step ho ht ha).1) ho ha hr

/-- Generator `i` has started, and its session has the signal. -/
structure Signaled (i : ℕ) (s : System) : Prop where
  owned : Owned i s
  started : (s.generators i).Started
  signaled : (s.generators i).Live → (s.mux.heap i).preemptionSignaled = true

/-- No step takes the signal back. -/
theorem signaled_step {i : ℕ} {s t : System} {l : Label} (hs : Signaled i s) (h : s.step l = some t)
    (ha : Apart i t) : Signaled i t := by
  obtain ⟨howned, hcase⟩ := owned_step hs.owned h ha
  rcases hcase with hown | ⟨rid, a, b, -, habs⟩ | he
  · obtain ⟨r, hr, rfl⟩ : ∃ r, Turn i s.mux (s.generators i) r ∧ t = s.put i r := by
      rcases hown with rfl | rfl
      · obtain ⟨r, hr, rfl⟩ := Option.map_eq_some_iff.mp h
        exact ⟨r, turn_of_resume hr, rfl⟩
      · obtain ⟨r, hr, rfl⟩ := Option.map_eq_some_iff.mp h
        exact ⟨r, turn_of_close hr, rfl⟩
    cases hr with
    | starts hp => exact absurd hp hs.started.2
    | dies hp => exact absurd hp hs.started.2
    | moves hl hm =>
      refine ⟨howned, ?_, fun _ => ?_⟩
      · rw [System.put_self]
        exact hm.started
      · have hsig := hm.signals
        rw [(hs.owned.session hl).1] at hsig
        rw [System.put_mux, signaled_of_signals hsig]
        exact hs.signaled hl
  · exact absurd habs hs.started.1
  · refine ⟨howned, by rw [he.generator]; exact hs.started, fun hl => ?_⟩
    rw [he.generator] at hl
    obtain ⟨f, hf, hheap⟩ := he.heap hl
    rw [hheap]
    exact hf.preemptionSignaled _ (hs.signaled hl)

theorem signaled_run {i : ℕ} {s t : System} {ls : List Label} (hs : Signaled i s)
    (ha : Machine.Along System.step (fun _ _ t => Apart i t) s ls)
    (hr : Machine.run System.step s ls = some t) : Signaled i t :=
  Machine.run_inv_along (fun _ _ _ hs ht ha => signaled_step hs ht ha) hs ha hr

/-- The signal reaches the session of a live generator whose request it is
for. -/
theorem signaled_of_trigger {i : ℕ} {s : System} (ho : Owned i s) (hl : (s.generators i).Live) (c : ℤ) :
    (s.mux.triggerPreemption (s.generators i).requestId c).heap i =
      { s.mux.heap i with cutoffSequenceId := c, preemptionSignaled := true } := by
  unfold StreamMultiplexer.triggerPreemption
  rw [(ho.session hl).2]
  simp [StreamMultiplexer.modifySession]

/-- An alert signals every request of the table. -/
theorem signaled_of_triggers {i : ℕ} {s t : System} {ks : List String} {c : ℤ} (ho : Owned i s)
    (hl : (s.generators i).Live) (hk : (s.generators i).requestId ∈ ks)
    (ha : Machine.Along System.step (fun _ _ t => Apart i t) s (ks.map (.triggerPreemption · c)))
    (hr : Machine.run System.step s (ks.map (.triggerPreemption · c)) = some t) : Signaled i t := by
  obtain ⟨ks₁, ks₂, rfl⟩ := List.append_of_mem hk
  rw [List.map_append, List.map_cons] at ha hr
  obtain ⟨s₁, hr₁, hr₂⟩ := Machine.run_append_eq_some.mp hr
  obtain ⟨s₂, hstep, hr₂⟩ := Machine.run_cons_eq_some.mp hr₂
  have hg : s₁.generators = s.generators := by
    refine IngressProxy.run_tells (fun x hx j => ?_) hr₁
    obtain ⟨rid, -, rfl⟩ := List.mem_map.mp hx
    trivial
  have ho₁ := owned_run ho ha.append_left hr₁
  have ha₂ := (ha.append_right hr₁) s₂ hstep
  have ho₂ := (owned_step ho₁ hstep ha₂.1).1
  refine signaled_run ?_ ha₂.2 hr₂
  obtain rfl := Option.some.inj hstep
  have hl₁ : (s₁.generators i).Live := by rwa [hg]
  refine ⟨ho₂, hl₁.started, fun _ => ?_⟩
  have hheap := signaled_of_trigger ho₁ hl₁ c
  rw [hg] at hheap
  show (((s₁.mux.triggerPreemption (s.generators i).requestId c)).heap i).preemptionSignaled = true
  rw [hheap]

namespace IngressProxy

variable {env : Env} {h : ℕ} {p q : IngressProxy} {l : ProxyLabel}

/-! ### A request in the table -/

/-- A request whose id is not concurrently in use is in the table from its
body on to the end of its relay loop. -/
structure Kept (h : ℕ) (p : IngressProxy) : Prop where
  linked : Linked p
  sole : Sole h p
  owned : Owned h p.system
  inFlight : (p.handlers h).point = .preparing ∨ (p.handlers h).point = .relaying →
    p.inFlightRequests.get? (p.handlers h).requestId ≠ none

theorem kept_new (a b : String) : Kept h (new a b) where
  linked := linked_new a b
  sole := sole_new a b h
  owned := owned_init 1024 (by decide) 800000000 h
  inFlight hp := by rcases hp with hp | hp <;> cases hp

theorem Kept.busy (hp : Kept h p)
    (hw : (p.handlers h).point = .preparing ∨ (p.handlers h).point = .relaying) : p.Busy h := by
  rcases hw with hw | hw
  · exact Or.inl hw
  · exact Or.inr (hp.linked.relaying hw).1

theorem Kept.step (hp : Kept h p) (hq : Stepped env p l q) (hs : Sole h q) : Kept h q := by
  have hlinked := hq.linked hp.linked
  refine ⟨hlinked, hs, owned_run hp.owned (hq.along_apart hp.linked hp.sole hs) hq.run, ?_⟩
  intro hw
  have hgo : (q.handlers h).point ≠ .returned := by rcases hw with hw | hw <;> simp [hw]
  rcases hq.handler h with hh | ⟨-, hh⟩ | ⟨body, -, -, rfl⟩ | ⟨-, hprep, hh⟩ | ⟨-, hh⟩
  · rw [hh] at hw ⊢
    exact hq.inFlight hp.linked hp.sole (hp.busy hw) hgo (hp.inFlight hw)
  · rw [hh] at hw
    simp at hw
  · rw [accept_handlers_self]
    simp [accept]
  · rw [hh]
    exact hq.inFlight hp.linked hp.sole (Or.inl hprep) hgo (hp.inFlight (Or.inl hprep))
  · rw [hh] at hw
    simp at hw

theorem kept_run {a b : String} {ls : List ProxyLabel}
    (hs : Machine.Along (IngressProxy.step env) (fun _ _ q => Sole h q) (new a b) ls)
    (hr : Machine.run (IngressProxy.step env) (new a b) ls = some p) : Kept h p :=
  Machine.run_inv_along (fun _ _ _ hp hq hs => hp.step (.of_step hq) hs) (kept_new a b) hs hr

/-! ### An alert that finds the request -/

/-- Handler `h` has chosen the active upstream. While it relays, its session
has the signal if there has been an alert. -/
structure Warned (h : ℕ) (p : IngressProxy) : Prop where
  kept : Kept h p
  chosen : ((p.handlers h).point = .relaying ∨ (p.handlers h).point = .returned) ∧
    (p.handlers h).initialUrl = p.activeUpstreamUrl
  signaled : (p.handlers h).point = .relaying → p.isPreemptionActive = true → Signaled h p.system

theorem Warned.chosen_step (hp : Warned h p) (hq : Stepped env p l q) :
    ((q.handlers h).point = .relaying ∨ (q.handlers h).point = .returned) ∧
      (q.handlers h).initialUrl = q.activeUpstreamUrl := by
  have hchosen := hp.chosen
  rw [hq.urls.1]
  rcases hq.handler h with hh | ⟨habs, -⟩ | ⟨body, -, hread, -⟩ | ⟨-, hprep, -⟩ | ⟨-, hh⟩
  · rw [hh]
    exact hchosen
  · simp [habs] at hchosen
  · simp [hread] at hchosen
  · simp [hprep] at hchosen
  · rw [hh]
    exact ⟨Or.inr rfl, hchosen.2⟩

/-- An alert signals the session of every request that is being relayed, and
nothing takes the signal back. -/
theorem Warned.step (hp : Warned h p) (hq : Stepped env p l q)
    (hcut : ∀ data, l = .preemptionAlert data → (cutoffOf data).isSome) (hs : Sole h q) :
    Warned h q := by
  refine ⟨hp.kept.step hq hs, hp.chosen_step hq, ?_⟩
  intro hr hflag
  have hrp : (p.handlers h).point = .relaying := by
    rcases hq.relaying hr with hh | ⟨-, hprep, -⟩
    · rwa [hh] at hr
    · have hchosen := hp.chosen
      simp [hprep] at hchosen
  have halong := hq.along_apart hp.kept.linked hp.kept.sole hs
  have hrun := hq.run
  rcases hq.flag with hsame | ⟨⟨data, rfl⟩, -⟩
  · rw [hsame] at hflag
    exact signaled_run (hp.signaled hrp hflag) halong hrun
  · -- the request is in the table, so the alert is passed on to its session
    obtain ⟨c, hc⟩ := Option.isSome_iff_exists.mp (hcut data rfl)
    have hmoves : p.moves env (.preemptionAlert data) =
        p.inFlightRequests.keys.map (.triggerPreemption · c) := by simp only [moves, hc]
    obtain ⟨hlive, hrid⟩ := hp.kept.linked.relaying hrp
    have hin : (p.system.generators h).requestId ∈ p.inFlightRequests.keys := by
      rw [hrid, Dict.mem_keys, Option.isSome_iff_ne_none]
      exact hp.kept.inFlight (Or.inr hrp)
    rw [hmoves] at halong hrun
    exact signaled_of_triggers hp.kept.owned hlive hin halong hrun

/-- Right after the choice of the active upstream. -/
theorem warned_prepared (hp : Kept h p) (hq : Stepped env p (.prepared h) q) (hs : Sole h q)
    (hflag : p.isPreemptionActive = false) : Warned h q := by
  have hchosen : (q.handlers h).point = .relaying ∧ (q.handlers h).initialUrl = p.routeUrl := by
    obtain ⟨s, -, -, rfl⟩ := hq.prepared_inv
    rw [put_handlers_self]
    exact ⟨rfl, rfl⟩
  have hsame : q.isPreemptionActive = false := by
    rcases hq.flag with hsame | ⟨⟨data, hdata⟩, -⟩
    · rw [hsame, hflag]
    · cases hdata
  have hurl : p.routeUrl = q.activeUpstreamUrl := by
    rw [hq.urls.1, routeUrl, hflag]
    rfl
  refine ⟨hp.step hq hs, ⟨Or.inl hchosen.1, hchosen.2.trans hurl⟩, fun _ hf => ?_⟩
  rw [hsame] at hf
  cases hf

theorem warned_run {ls : List ProxyLabel} (hp : Warned h p)
    (hs : Machine.Along (IngressProxy.step env) (fun _ _ q => Sole h q) p ls)
    (hcut : ∀ data, .preemptionAlert data ∈ ls → (cutoffOf data).isSome)
    (hr : Machine.run (IngressProxy.step env) p ls = some q) : Warned h q := by
  have hlabels : Machine.Along (IngressProxy.step env)
      (fun _ l _ => ∀ data, l = .preemptionAlert data → (cutoffOf data).isSome) p ls :=
    Machine.Along.of_labels fun l hl data hdata => hcut data (hdata ▸ hl)
  exact Machine.run_inv_along (fun _ _ _ hp hq hc => hp.step (.of_step hq) hc.2 hc.1) hp
    (hs.and hlabels) hr

/-! ### The upstream of a request -/

/-- When handler `h` chose its upstream, no alert had come. -/
def ChoseActive (env : Env) (a b : String) (ls : List ProxyLabel) (h : ℕ) : Prop :=
  ∃ as bs p, ls = as ++ .prepared h :: bs ∧
    Machine.run (IngressProxy.step env) (new a b) as = some p ∧ p.isPreemptionActive = false

theorem ChoseActive.snoc {a b : String} {ls : List ProxyLabel} (hc : ChoseActive env a b ls h)
    (l : ProxyLabel) : ChoseActive env a b (ls ++ [l]) h := by
  obtain ⟨as, bs, p, rfl, hr, hf⟩ := hc
  exact ⟨as, bs ++ [l], p, by simp, hr, hf⟩

/-- A relaying handler that did not choose the active upstream reads the
standby's. -/
theorem initialUrl_of_relaying {a b : String} {ls : List ProxyLabel}
    (hr : Machine.run (IngressProxy.step env) (new a b) ls = some p)
    (hp : (p.handlers h).point = .relaying) (hc : ¬ ChoseActive env a b ls h) :
    (p.handlers h).initialUrl = p.standbyUpstreamUrl := by
  induction ls using List.reverseRecOn generalizing p with
  | nil =>
    obtain rfl := Option.some.inj hr
    cases hp
  | append_singleton ls l ih =>
    obtain ⟨r, hrun, hq⟩ := Machine.run_concat_eq_some.mp hr
    have hq := Stepped.of_step hq
    rcases hq.relaying hp with hh | ⟨rfl, -, hh⟩
    · rw [hh] at hp ⊢
      rw [hq.urls.2]
      exact ih hrun hp fun hcls => hc (hcls.snoc l)
    · rw [hh, hq.urls.2]
      by_cases hf : r.isPreemptionActive = true
      · exact if_pos hf
      · exact absurd ⟨ls, [], r, rfl, hrun, by simpa using hf⟩ hc

theorem flag_run {ls : List ProxyLabel} (hf : p.isPreemptionActive = true)
    (hr : Machine.run (IngressProxy.step env) p ls = some q) : q.isPreemptionActive = true := by
  refine Machine.run_inv (I := fun p => p.isPreemptionActive = true) (fun p l q hf hq => ?_) hf hr
  rcases (Stepped.of_step hq).flag with hsame | ⟨-, hset⟩
  · rw [hsame, hf]
  · exact hset

theorem urls_run {ls : List ProxyLabel} (hr : Machine.run (IngressProxy.step env) p ls = some q) :
    q.activeUpstreamUrl = p.activeUpstreamUrl ∧ q.standbyUpstreamUrl = p.standbyUpstreamUrl := by
  refine Machine.run_inv (I := fun q => q.activeUpstreamUrl = p.activeUpstreamUrl ∧
    q.standbyUpstreamUrl = p.standbyUpstreamUrl) (fun r l q hurls hq => ?_) ⟨rfl, rfl⟩ hr
  have hq := Stepped.of_step hq
  rw [hq.urls.1, hq.urls.2]
  exact hurls

/-- The choice of an upstream after an alert. -/
theorem initialUrl_of_prepared (hq : IngressProxy.step env p (.prepared h) = some q)
    (hf : p.isPreemptionActive = true) : (q.handlers h).initialUrl = p.standbyUpstreamUrl := by
  obtain ⟨s, -, -, rfl⟩ := (Stepped.of_step hq).prepared_inv
  rw [put_handlers_self]
  show p.routeUrl = _
  rw [routeUrl, if_pos hf]

/-! ### No alert is lost -/

/-- **No alert is lost.** Request ids are not concurrently in use, and the
alerts have an integer cutoff. After an alert, each stream that is relayed
from the active upstream has the signal, and each request that chooses its
upstream from then on chooses the standby. -/
theorem alert_reaches (env : Env) (a b : String) (ls : List ProxyLabel)
    (hs : ∀ h, Machine.Along (IngressProxy.step env) (fun _ _ q => Sole h q) (new a b) ls)
    (hcut : ∀ data, .preemptionAlert data ∈ ls → (cutoffOf data).isSome) (p : IngressProxy)
    (hr : Machine.run (IngressProxy.step env) (new a b) ls = some p)
    (hflag : p.isPreemptionActive = true) :
    (∀ h, (p.handlers h).point = .relaying →
      (ChoseActive env a b ls h → (p.handlers h).initialUrl = p.activeUpstreamUrl ∧
        (p.system.mux.heap (p.system.generators h).session).preemptionSignaled = true) ∧
      (¬ ChoseActive env a b ls h → (p.handlers h).initialUrl = p.standbyUpstreamUrl)) ∧
    ∀ ms q h q', Machine.run (IngressProxy.step env) p ms = some q →
      IngressProxy.step env q (.prepared h) = some q' →
      (q'.handlers h).initialUrl = p.standbyUpstreamUrl := by
  constructor
  · intro h hp
    refine ⟨fun hc => ?_, initialUrl_of_relaying hr hp⟩
    obtain ⟨as, bs, r, rfl, hr₁, hf⟩ := hc
    obtain ⟨r', hr', hr₂⟩ := Machine.run_append_eq_some.mp hr
    obtain rfl : r' = r := Option.some.inj (hr'.symm.trans hr₁)
    obtain ⟨u, hu, hr₂⟩ := Machine.run_cons_eq_some.mp hr₂
    have halong := ((hs h).append_right hr₁) u hu
    have hwarned := warned_prepared (kept_run (hs h).append_left hr₁) (.of_step hu) halong.1 hf
    have hafter := warned_run hwarned halong.2 (fun data hd => hcut data (by simp [hd])) hr₂
    have hlive := (hafter.kept.linked.relaying hp).1
    rw [(hafter.kept.owned.session hlive).1]
    exact ⟨hafter.chosen.2, (hafter.signaled hp hflag).signaled hlive⟩
  · intro ms q h q' hq hq'
    rw [initialUrl_of_prepared hq' (flag_run hflag hq), (urls_run hq).2]

/-- Every upstream refuses the connection. -/
def refusingEnv : Env := ⟨fun _ _ _ _ => .refused, fun _ => [], fun _ => "u"⟩

/-- An alert finds a stream that has just begun. -/
def alertedRun : List ProxyLabel :=
  [.request 0, .body 0 (some (.obj [])), .prepared 0, .preemptionAlert (.obj [])]

theorem sole_of_alone_other {j : ℕ} (hp : Alone j p) : Sole h p := by
  by_cases hj : h = j
  · subst hj
    exact sole_of_alone hp
  · intro hb
    rcases hb with hb | hb
    · rw [(hp h hj).1] at hb
      cases hb
    · exact absurd (hp h hj).2 hb.started.1

theorem along_sole_alertedRun (env : Env) (a b : String) (h : ℕ) :
    Machine.Along (IngressProxy.step env) (fun _ _ q => Sole h q) (new a b) alertedRun := by
  have habout : ∀ l ∈ alertedRun, About 0 l := by
    intro l hl
    simp only [alertedRun, List.mem_cons, List.not_mem_nil, or_false] at hl
    rcases hl with rfl | rfl | rfl | rfl <;> trivial
  refine Machine.Along.of_inv (I := Alone 0) (Q := fun _ l _ => About 0 l)
    (fun _ _ _ hp hq hl => alone_step (.of_step hq) hl hp) ?_ (fun _ _ => ⟨rfl, rfl⟩)
    (Machine.Along.of_labels habout)
  exact fun _ _ _ hp hq hl => sole_of_alone_other (alone_step (.of_step hq) hl hp)

theorem alert_reaches_one :
    ∃ p, Machine.run (IngressProxy.step refusingEnv) (new "http://a" "http://b") alertedRun = some p ∧
      (p.system.mux.heap (p.system.generators 0).session).preemptionSignaled = true := by
  refine ⟨_, rfl, ?_⟩
  have hcut : ∀ data, ProxyLabel.preemptionAlert data ∈ alertedRun → (cutoffOf data).isSome := by
    intro data hd
    simp only [alertedRun, List.mem_cons, List.not_mem_nil, or_false, reduceCtorEq, false_or,
      ProxyLabel.preemptionAlert.injEq] at hd
    subst hd
    rfl
  have hchose : ChoseActive refusingEnv "http://a" "http://b" alertedRun 0 :=
    ⟨[.request 0, .body 0 (some (.obj []))], [.preemptionAlert (.obj [])], _, rfl, rfl, rfl⟩
  exact (((alert_reaches refusingEnv "http://a" "http://b" alertedRun
    (along_sole_alertedRun _ _ _) hcut _ rfl rfl).1 0 rfl).1 hchose).2

/-! ### Traffic and the node of an alert -/

def activeNodeId : String := "node-active"

def standbyNodeId : String := "node-standby"

/-- The node that an alert comes from. The handler does not read it. -/
def alertNode : Json → Option String
  | .obj data =>
    match Json.field? data "node_id".toList with
    | some (.str node) => node.toText?.map String.ofList
    | _ => none
  | _ => none

def upstreamOf (p : IngressProxy) (node : String) : Option String :=
  if node = activeNodeId then some p.activeUpstreamUrl
  else if node = standbyNodeId then some p.standbyUpstreamUrl
  else none

/-- The upstream that a move from `p` to `q` sends a new request to, or
switches a stream to: `standby_factory` connects to the standby's. -/
def contacted (p q : IngressProxy) : ProxyLabel → Option String
  | .prepared h => some (q.handlers h).initialUrl
  | .body h _ =>
    if (q.handlers h).point = .forwarding then some (q.handlers h).initialUrl else none
  | .resume h =>
    if (p.system.generators h).point = .callStandby ∧ (q.system.generators h).point = .pullStandby then
      some p.standbyUpstreamUrl
    else none
  | _ => none

/-- After an alert from a node, no move of the run contacts its upstream. -/
def Spares (env : Env) (a b : String) (ls : List ProxyLabel) : Prop :=
  ∀ as data bs l cs p p' q q' node url, ls = as ++ .preemptionAlert data :: (bs ++ l :: cs) →
    Machine.run (IngressProxy.step env) (new a b) as = some p →
    IngressProxy.step env p (.preemptionAlert data) = some p' →
    Machine.run (IngressProxy.step env) p' bs = some q → IngressProxy.step env q l = some q' →
    alertNode data = some node → upstreamOf p' node = some url → contacted q q' l ≠ some url

/-- After an alert, all that is contacted is the standby's upstream. -/
theorem contacted_standby (hq : IngressProxy.step env p l = some q) (hf : p.isPreemptionActive = true)
    {url : String} (hc : contacted p q l = some url) : url = p.standbyUpstreamUrl := by
  have hroute : p.routeUrl = p.standbyUpstreamUrl := if_pos hf
  cases l with
  | prepared h =>
    rw [← initialUrl_of_prepared hq hf]
    exact (Option.some.inj hc).symm
  | body h data =>
    simp only [contacted] at hc
    by_cases hfwd : (q.handlers h).point = .forwarding
    · rw [if_pos hfwd] at hc
      rw [← Option.some.inj hc, ← hroute]
      cases Stepped.of_step hq with
      | accepted _ body hr =>
        rw [accept_handlers_self] at hfwd ⊢
        dsimp only at hfwd ⊢
        split at hfwd
        · cases hfwd
        · rw [if_neg ‹_›]
      | returned _ _ _ hl =>
        rcases hl with ⟨_, hl, -⟩ | hl | hl | ⟨hl, -⟩
        · cases hl
          simp at hfwd
        · cases hl
        · cases hl
        · cases hl
      | failed _ _ _ _ hl => simp at hl
      | signaled _ _ _ hl => simp at hl
    · rw [if_neg hfwd] at hc
      cases hc
  | resume h =>
    simp only [contacted] at hc
    by_cases hswap : (p.system.generators h).point = .callStandby ∧
        (q.system.generators h).point = .pullStandby
    · rw [if_pos hswap] at hc
      exact (Option.some.inj hc).symm
    · rw [if_neg hswap] at hc
      cases hc
  | _ => cases hc

theorem flag_of_alert {data : Json} (hq : IngressProxy.step env p (.preemptionAlert data) = some q) :
    q.isPreemptionActive = true := by
  obtain ⟨s, -, rfl⟩ := (Stepped.of_step hq).alert_inv
  rfl

/-- **No traffic to a node after its alert**, in every run in which the
standby sends none. The two nodes have different upstreams. -/
theorem alert_spares (env : Env) (a b : String) (hab : rstripSlash a ≠ rstripSlash b)
    (ls : List ProxyLabel)
    (hnode : ∀ data, .preemptionAlert data ∈ ls → alertNode data ≠ some standbyNodeId) :
    Spares env a b ls := by
  intro as data bs l cs p p' q q' node url hls hp hp' hq hq' hdata hurl hc
  have hne : node ≠ standbyNodeId := by
    intro he
    exact hnode data (by simp [hls]) (he ▸ hdata)
  have hactive : url = p'.activeUpstreamUrl := by
    unfold upstreamOf at hurl
    by_cases ha : node = activeNodeId
    · rw [if_pos ha] at hurl
      exact (Option.some.inj hurl).symm
    · rw [if_neg ha, if_neg hne] at hurl
      cases hurl
  have hstandby := contacted_standby hq' (flag_run (flag_of_alert hp') hq) hc
  have hrun : Machine.run (IngressProxy.step env) (new a b) (as ++ [.preemptionAlert data]) = some p' :=
    Machine.run_concat_eq_some.mpr ⟨p, hp, hp'⟩
  rw [(urls_run hq).2, (urls_run hrun).2] at hstandby
  rw [(urls_run hrun).1] at hactive
  exact hab (hactive.symm.trans hstandby)

/-- A request that comes after an alert from this node. -/
def afterAlertFrom (node : String) : List ProxyLabel :=
  [.preemptionAlert (.obj [("node_id".toList, .text node.toList)]), .request 0,
    .body 0 (some (.obj [])), .prepared 0]

theorem alert_spares_active : Spares refusingEnv "http://a" "http://b" (afterAlertFrom activeNodeId) := by
  refine alert_spares _ _ _ (by decide +kernel) _ ?_
  intro data hd
  simp only [afterAlertFrom, List.mem_cons, List.not_mem_nil, or_false, reduceCtorEq,
    ProxyLabel.preemptionAlert.injEq] at hd
  subst hd
  decide +kernel

/-- The standby is preempted, and the next request goes to it. -/
theorem not_spares_standby :
    ¬ Spares refusingEnv "http://a" "http://b" (afterAlertFrom standbyNodeId) := by
  intro h
  exact h [] _ [.request 0, .body 0 (some (.obj []))] (.prepared 0) [] _ _ _ _ standbyNodeId
    (rstripSlash "http://b") rfl rfl rfl rfl rfl (by decide +kernel) rfl rfl

end IngressProxy
end Sgm
