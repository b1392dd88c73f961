/-
# What the standby adopts

The handler refuses an altered frame and goes on. So it adopts what is left of
the call as soon as the HANDOVER_FIN gets there, and the sender, who reads the
refusal, raises. Adoption is all or nothing just in case this cannot happen:
no frame is altered, or every state is, or the HANDOVER_FIN does not get there.

Key definitions: `SendSessions.FinArrives`, `P2P.AdoptsWhole`.
Key theorems: `P2P.adoptsWhole_iff`, `P2P.not_adoptsWhole_second`.
-/
import Sgm.Transport.Acknowledged

namespace Sgm

open SendSessions

/-- The HANDOVER_FIN gets to the handler, and is accepted. -/
structure SendSessions.FinArrives (env : P2PEnv) (srv : P2PServer) (c : ℕ) (call : SendSessions) :
    Prop where
  fits : ∀ i < call.total, (call.frame env c i).Fits env
  nackFits : call.NacksFit env srv c call.total
  fin : ¬ call.Altered env c (call.sessions.length + 1)

/-- The callbacks are called with the complete list, or not at all; and not at
all where the sender has read that a frame was refused. -/
structure P2P.AdoptsWhole (env : P2PEnv) (srv : P2PServer) (peers : ℕ → Option SendSessions)
    (c : ℕ) (call : SendSessions) : Prop where
  whole : ∀ ls q, Machine.run (P2P.step env) (P2P.new srv peers) ls = some q →
    ∀ x ∈ (q.conns c).handler.invocations, x.2 = call.sessions
  rejected : ∀ ls q e, Machine.run (P2P.step env) (P2P.new srv peers) ls = some q →
    (q.conns c).client = .raised e → Rejected e → (q.conns c).handler.invocations = []

section
variable {env : P2PEnv} {srv : P2PServer} {c : ℕ} {call : SendSessions} {q : P2P}
  {peers : ℕ → Option SendSessions}

/-- The callbacks are called once at most, and only when the HANDOVER_FIN has
got there. -/
theorem Handover.invocations_eq {k : P2PConn} {ok : Prop} {w r : ℕ} {out : Bytes}
    (h : Handover env srv c call ok k w r out) : k.handler.invocations = [] ∨
      k.handler.invocations = call.calls env srv c ∧ call.FinArrives env srv c := by
  have harrive : call.Finished env c r → call.NacksFit env srv c r → call.FinArrives env srv c := by
    intro hfin hn
    have hr := hfin.all
    have hw := h.written.le
    have hle := h.read_le
    exact ⟨fun i hi => h.fits i (by omega), hr ▸ hn, hfin.intact⟩
  cases h.served with
  | absent _ _ _ hi | serving _ _ hi => exact Or.inl hi
  | gathering _ _ hi _ hn hr | acked _ hi _ hn hr => exact Or.inr ⟨hi, harrive hr hn⟩
  | dead _ hi =>
    rcases hi with hi | ⟨hi, hr, hn⟩
    · exact Or.inl hi
    · exact Or.inr ⟨hi, harrive hr hn⟩

theorem SendSessions.mem_calls {x : SessionHandlerCallback × List InferenceSession}
    (hx : x ∈ call.calls env srv c) : x.2 = call.ingested env c call.total := by
  unfold calls P2PServer.callsFor at hx
  split at hx
  · cases hx
  · obtain ⟨cb, -, rfl⟩ := List.mem_map.mp hx
    rfl

theorem SendSessions.calls_ne_nil (hcb : srv.sessionCallbacks ≠ [])
    (hne : call.ingested env c call.total ≠ []) : call.calls env srv c ≠ [] := by
  unfold calls P2PServer.callsFor
  rw [if_neg hne]
  simpa using hcb

/-- Where the HANDOVER_FIN gets there, a connection that does not fail ends with
the callbacks called; the sender has raised if a frame was altered. -/
theorem P2P.exists_adopted (hc : peers c = some call) (hl : call.Loads env srv c)
    (hrun : srv.running = true) (hU : call.Unhindered env srv c) :
    ∃ ls q, Machine.run (P2P.step env) (P2P.new srv peers) ls = some q ∧
      (q.conns c).handler.invocations = call.calls env srv c ∧
      ((∃ i < call.total, call.Altered env c i) →
        ∃ e, (q.conns c).client = .raised e ∧ Rejected e) := by
  obtain ⟨ls, q, hr, hclean, hend, hclosed⟩ :=
    P2P.exists_complete_run hl hc (Machine.run_nil (P2P.step env) (P2P.new srv peers))
  obtain ⟨w, r, out, h⟩ := P2P.exists_unhindered hl hc hU hrun hclean hr
  refine ⟨ls, q, hr, h.of_closed hclosed, ?_⟩
  rintro ⟨i, hi, ha⟩
  rcases h.of_ended hend with ⟨ack, hack⟩ | ⟨e, he, hrej | ⟨hall, -⟩⟩
  · exact absurd ha ((h.returned ack hack).1 i hi)
  · exact ⟨e, he, hrej⟩
  · exact absurd ha (hall i hi)

/-- A server that has been started accepts what it would accept. -/
theorem P2P.AdoptsWhole.start (h : P2P.AdoptsWhole env srv peers c call) :
    P2P.AdoptsWhole env { srv with running := true } peers c call where
  whole := fun ls q hr => h.whole (.start :: ls) q (Machine.run_cons_eq_some.mpr ⟨_, rfl, hr⟩)
  rejected := fun ls q e hr =>
    h.rejected (.start :: ls) q e (Machine.run_cons_eq_some.mpr ⟨_, rfl, hr⟩)

/-- The standby adopts all or nothing just in case there is no callback, or the
HANDOVER_FIN does not get there, or every state is altered, or no frame is. -/
theorem P2P.adoptsWhole_iff (hc : peers c = some call) (hl : call.Loads env srv c)
    (hinit : env.handoverInit.Keeps (call.initPayload (env.clientTimeNs c)))
    (hnack : ∀ i < call.total, call.Altered env c i →
      env.handoverNack.Keeps (call.nackOf env srv c i)) :
    P2P.AdoptsWhole env srv peers c call ↔
      srv.sessionCallbacks = [] ∨ ¬ call.FinArrives env srv c ∨
        (∀ i < call.sessions.length, call.Altered env c (i + 1)) ∨
        ∀ i < call.total, ¬ call.Altered env c i := by
  constructor
  · intro h
    by_contra hn
    push Not at hn
    obtain ⟨hcb, harr, ⟨j, hj, hja⟩, i, hi, hia⟩ := hn
    have hne : call.ingested env c call.total ≠ [] :=
      fun hnil => absurd (ingested_eq_nil_iff.mp hnil j hj) hja
    have hcalls : call.calls env srv c ≠ [] := calls_ne_nil hcb hne
    have hU : call.Unhindered env { srv with running := true } c :=
      ⟨harr.fits, harr.nackFits, hnack, hinit, harr.fin⟩
    have hl' : call.Loads env { srv with running := true } c := ⟨hl.session, hl.zlib, hl.ack⟩
    obtain ⟨ls, q, hr, hinv, hrej⟩ := P2P.exists_adopted hc hl' rfl hU
    obtain ⟨e, he, hrej⟩ := hrej ⟨i, hi, hia⟩
    have hnil := h.start.rejected ls q e hr he hrej
    exact hcalls (hinv.symm.trans hnil)
  · intro h
    -- in each case the callbacks are not called, or nothing has been altered
    have hcases : ∀ ls q, Machine.run (P2P.step env) (P2P.new srv peers) ls = some q →
        (q.conns c).handler.invocations = [] ∨
          ((q.conns c).handler.invocations = call.calls env srv c ∧
            ∀ i < call.total, ¬ call.Altered env c i) := by
      intro ls q hr
      obtain ⟨w, r, out, hh⟩ := P2P.exists_handover hl hc hr
      rcases hh.invocations_eq with hinv | ⟨hinv, harr⟩
      · exact Or.inl hinv
      · rcases h with hcb | hnarr | hall | hall
        · left
          rw [hinv, calls, P2PServer.callsFor, hcb]
          split <;> rfl
        · exact absurd harr hnarr
        · left
          rw [hinv, calls, P2PServer.callsFor, if_pos (ingested_eq_nil_iff.mpr hall)]
        · exact Or.inr ⟨hinv, hall⟩
    constructor
    · intro ls q hr x hx
      rcases hcases ls q hr with hinv | ⟨hinv, hall⟩
      · rw [hinv] at hx
        cases hx
      · rw [hinv] at hx
        exact (mem_calls hx).trans (ingested_of_intact hall)
    · intro ls q e hr he hrej
      rcases hcases ls q hr with hinv | ⟨hinv, hall⟩
      · exact hinv
      · obtain ⟨w, r, out, hh⟩ := P2P.exists_handover hl hc hr
        obtain ⟨i, hi, ha⟩ := (hh.raised e he).1 hrej
        exact absurd ha (hall i hi)

end

/-- Nothing is altered: the standby adopts both sessions or none. -/
theorem P2P.adoptsWhole_intact :
    P2P.AdoptsWhole (sampleEnv (.flip fun _ => false)) sampleServer samplePeers 0 sampleCall := by
  have hl := sample_loads (.flip fun _ => false)
  have hinit := sample_initLoads (.flip fun _ => false)
  have hall : ∀ i < sampleCall.total, ¬ sampleCall.Altered (sampleEnv (.flip fun _ => false)) 0 i :=
    fun i hi ha => by simpa using (sample_altered hi).mp ha
  have hpeers : samplePeers 0 = some sampleCall := rfl
  apply (P2P.adoptsWhole_iff hpeers hl hinit fun i hi ha => absurd ha (hall i hi)).mpr
  exact Or.inr (Or.inr (Or.inr hall))

/-! ### Two sessions, the second altered -/

/-- The payload of the second session is altered. -/
def secondAltered : Transit := .flip fun key => decide (key = .requestState 1 0)

theorem secondAltered_iff {i : ℕ} (hi : i < sampleCall.total) :
    sampleCall.Altered (sampleEnv secondAltered) 0 i ↔ i = 2 := by
  rw [secondAltered, sample_altered hi]
  have hi' : i = 0 ∨ i = 1 ∨ i = 2 ∨ i = 3 := by
    have ht : sampleCall.total = 4 := rfl
    omega
  rcases hi' with rfl | rfl | rfl | rfl <;> simp [frame, sampleCall]

/-- The standby adopts the first session alone, and the sender raises. -/
theorem P2P.not_adoptsWhole_second :
    (∃ ls q e, Machine.run (P2P.step (sampleEnv secondAltered))
        (P2P.new sampleServer samplePeers) ls = some q ∧
      (q.conns 0).handler.invocations = [(0, [sampleA])] ∧
      (q.conns 0).client = .raised e ∧ Rejected e) ∧
    ¬ P2P.AdoptsWhole (sampleEnv secondAltered) sampleServer samplePeers 0 sampleCall := by
  have h0 := (secondAltered_iff (i := 0) (by decide)).not.mpr (by decide)
  have h1 := (secondAltered_iff (i := 1) (by decide)).not.mpr (by decide)
  have h2 := (secondAltered_iff (i := 2) (by decide)).mpr rfl
  have h3 := (secondAltered_iff (i := 3) (by decide)).not.mpr (by decide)
  have hU := sample_unhindered secondAltered h3 fun i _ _ => sample_nackFits secondAltered i
  have hing : sampleCall.ingested (sampleEnv secondAltered) 0 sampleCall.total = [sampleA] := by
    have ht : sampleCall.sessions.length + 1 = 3 := rfl
    rw [ingested_total, ht, ingested_succ, ingested_succ, ingested_succ, if_neg h0, if_neg h1,
      if_pos h2]
    rfl
  have hpeers : samplePeers 0 = some sampleCall := rfl
  obtain ⟨ls, q, hr, hinv, hrej⟩ :=
    P2P.exists_adopted hpeers (sample_loads secondAltered) rfl hU
  obtain ⟨e, he, hrej⟩ := hrej ⟨2, by decide, h2⟩
  have hcalls : (q.conns 0).handler.invocations = [(0, [sampleA])] := by
    rw [hinv, calls, hing]
    rfl
  refine ⟨⟨ls, q, e, hr, hcalls, he, hrej⟩, fun h => ?_⟩
  have hnil := h.rejected ls q e hr he hrej
  rw [hcalls] at hnil
  cases hnil

end Sgm
