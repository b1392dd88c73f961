/-
# Refused states are not sent again

The sender has a loop over three attempts at each state, but it leaves the loop
after the first write, and reads no reply before all frames are written. So a
state whose first transmission is altered is missing, and its refusal ends the
call, however intact a second transmission would be. Where no first
transmission is altered the call succeeds, and this is the only case.

Key definitions: `SendSessions.Recoverable`, `P2P.Recovers`.
Key theorems: `P2P.recovers_iff`, `P2P.not_recovers_first`.
-/
import Sgm.Transport.Acknowledged

namespace Sgm

open SendSessions

namespace SendSessions

variable (env : P2PEnv) (c : ℕ) (call : SendSessions)

/-- An attempt at the frame of a session is altered, if it is made. -/
def AlteredAt (idx attempt : ℕ) : Prop :=
  (env.transit c).arrive (.requestState idx attempt) ((call.frame env c (idx + 1)).body env) ≠
    (call.frame env c (idx + 1)).body env

/-- For each state there is an attempt within the retries that is intact, after
altered ones; nothing else is altered. -/
structure Recoverable : Prop where
  init : ¬ call.Altered env c 0
  states : ∀ i < call.sessions.length, ∃ attempt ≤ maxRetries,
    (∀ j < attempt, call.AlteredAt env c i j) ∧ ¬ call.AlteredAt env c i attempt
  fin : ¬ call.Altered env c (call.sessions.length + 1)

variable {env c call}

theorem alteredAt_zero {i : ℕ} (hi : i < call.sessions.length) :
    call.AlteredAt env c i 0 ↔ call.Altered env c (i + 1) := by
  unfold AlteredAt Altered Outgoing.Altered
  rw [frame_state hi]

/-- Nothing is altered if the states are not. -/
theorem Recoverable.intact (h : call.Recoverable env c)
    (h0 : ∀ i < call.sessions.length, ¬ call.AlteredAt env c i 0) :
    ∀ i < call.total, ¬ call.Altered env c i := by
  intro i hi
  rcases i with _ | i
  · exact h.init
  · by_cases hi' : i < call.sessions.length
    · exact fun ha => h0 i hi' ((alteredAt_zero hi').mpr ha)
    · obtain rfl : i = call.sessions.length := by
        unfold total at hi
        omega
      exact h.fin

end SendSessions

/-- The call comes to an end, and returns the acknowledgement of all its
sessions, which the callbacks have been called with, if the connection does not
fail. -/
structure P2P.Recovers (env : P2PEnv) (srv : P2PServer) (peers : ℕ → Option SendSessions) (c : ℕ)
    (call : SendSessions) : Prop where
  bounded : ∀ ls q, Machine.run (P2P.step env) (P2P.new srv peers) ls = some q →
    ls.countP (fun l => l.conn = some c) ≤ call.effort
  ends : ∀ ls p, Machine.run (P2P.step env) (P2P.new srv peers) ls = some p →
    ∃ ls' q, Machine.run (P2P.step env) p ls' = some q ∧ (∀ l ∈ ls', l.Clean c) ∧ (q.conns c).done
  acknowledged : ∀ ls q, Machine.run (P2P.step env) (P2P.new srv peers) ls = some q →
    (∀ l ∈ ls, l.Clean c) → (q.conns c).client.ended = true →
    ∃ ack, (q.conns c).client = .returned ack ∧
      ack.acceptedRequestIds = call.sessions.map (·.requestId) ∧
      (q.conns c).handler.invocations = srv.callsFor call.sessions

section
variable {env : P2PEnv} {srv : P2PServer} {c : ℕ} {call : SendSessions} {q : P2P}
  {peers : ℕ → Option SendSessions}

/-- A sender that has returned has written every frame, within the limit. -/
theorem Handover.fits_of_returned {k : P2PConn} {ok : Prop} {w r : ℕ} {out : Bytes}
    (h : Handover env srv c call ok k w r out) {ack : HandoverAck} (hk : k.client = .returned ack) :
    ∀ i < call.total, (call.frame env c i).Fits env := by
  have hw : w = call.total := by
    have := h.written
    rwa [hk] at this
  exact hw ▸ h.fits

/-- The call recovers from altered states just in case no first transmission is
altered, and the frames and the acknowledgement are within the limit. -/
theorem P2P.recovers_iff (hc : peers c = some call) (hl : call.Loads env srv c)
    (hinit : env.handoverInit.Keeps (call.initPayload (env.clientTimeNs c)))
    (hrun : srv.running = true) (hf : call.Recoverable env c) :
    P2P.Recovers env srv peers c call ↔
      (∀ i < call.sessions.length, ¬ call.AlteredAt env c i 0) ∧
        (∀ i < call.total, (call.frame env c i).Fits env) ∧ call.AckFits env srv c := by
  constructor
  · intro h
    obtain ⟨ls, q, hr, hclean, hend, -⟩ := h.ends [] _ (Machine.run_nil _ _)
    obtain ⟨ack, hack, -, -⟩ := h.acknowledged ls q hr hclean hend
    obtain ⟨w, r, out, hh⟩ := P2P.exists_handover hl hc hr
    obtain ⟨hall, -, hfit, -, -⟩ := hh.returned ack hack
    refine ⟨fun i hi ha => ?_, hh.fits_of_returned hack, hfit⟩
    have hlt : i + 1 < call.total := by
      unfold total
      omega
    exact hall (i + 1) hlt ((alteredAt_zero hi).mp ha)
  · rintro ⟨h0, hfits, hfit⟩
    have hall := hf.intact h0
    have hU : call.Unhindered env srv c := {
      fits := hfits
      nackFits := fun i hi ha => absurd ha (hall i hi)
      nackLoads := fun i hi ha => absurd ha (hall i hi)
      initLoads := hinit
      fin := hf.fin }
    constructor
    · exact fun ls q hr => P2P.steps_le hl hc hr
    · exact fun ls p hr => P2P.exists_complete_run hl hc hr
    · intro ls q hr hclean hend
      obtain ⟨ack, hack⟩ := P2P.returns_of_intact hc hl hrun hU hall hfit hr hclean hend
      obtain ⟨w, r, out, hh⟩ := P2P.exists_handover hl hc hr
      obtain ⟨hinv, hids⟩ := hh.of_returned hack
      exact ⟨ack, hack, hids, hinv⟩

end

/-- Nothing is altered: the sample recovers. -/
theorem P2P.recovers_intact :
    P2P.Recovers (sampleEnv (.flip fun _ => false)) sampleServer samplePeers 0 sampleCall := by
  have hl := sample_loads (.flip fun _ => false)
  have hinit := sample_initLoads (.flip fun _ => false)
  have h0 : ∀ i < sampleCall.sessions.length,
      ¬ sampleCall.AlteredAt (sampleEnv (.flip fun _ => false)) 0 i 0 := by
    intro i hi ha
    have hlt : i + 1 < sampleCall.total := by
      unfold total
      omega
    exact sample_intact (i + 1) hlt ((alteredAt_zero hi).mp ha)
  have hf : sampleCall.Recoverable (sampleEnv (.flip fun _ => false)) 0 :=
    ⟨sample_intact 0 (by decide), fun i hi => ⟨0, by decide, fun j hj => absurd hj (by omega), h0 i hi⟩,
      sample_intact 3 (by decide)⟩
  have hpeers : samplePeers 0 = some sampleCall := rfl
  apply (P2P.recovers_iff hpeers hl hinit rfl hf).mpr
  exact ⟨h0, fun _ hi => (sample_body _ hi).2, sample_ackFits⟩

/-! ### One altered transmission -/

/-- The first transmission of the first state is altered, the next is not. -/
def firstAltered : Transit := .flip fun key => decide (key = .requestState 0 0)

theorem firstAltered_iff {i : ℕ} (hi : i < sampleCall.total) :
    sampleCall.Altered (sampleEnv firstAltered) 0 i ↔ i = 1 := by
  rw [firstAltered, sample_altered hi]
  have hi' : i = 0 ∨ i = 1 ∨ i = 2 ∨ i = 3 := by
    have ht : sampleCall.total = 4 := rfl
    omega
  rcases hi' with rfl | rfl | rfl | rfl <;> simp [frame, sampleCall]

theorem firstAltered_recoverable : sampleCall.Recoverable (sampleEnv firstAltered) 0 where
  init := (firstAltered_iff (i := 0) (by decide)).not.mpr (by decide)
  states := by
    intro i hi
    have hkeep : ∀ attempt, ¬ (i = 0 ∧ attempt = 0) →
        ¬ sampleCall.AlteredAt (sampleEnv firstAltered) 0 i attempt := by
      intro attempt hne ha
      apply ha
      show Transit.arrive firstAltered _ _ = _
      unfold firstAltered Transit.flip
      exact if_neg (by simpa using hne)
    by_cases h0 : i = 0
    · subst h0
      refine ⟨1, by decide, fun j hj => ?_, hkeep 1 (by decide)⟩
      obtain rfl : j = 0 := by omega
      exact (alteredAt_zero hi).mpr ((firstAltered_iff (by decide)).mpr rfl)
    · exact ⟨0, by decide, fun j hj => absurd hj (by omega), hkeep 0 fun h => h0 h.1⟩
  fin := (firstAltered_iff (i := 3) (by decide)).not.mpr (by decide)

/-- One retransmission would do, and the call fails. -/
theorem P2P.not_recovers_first : sampleCall.Recoverable (sampleEnv firstAltered) 0 ∧
    ¬ P2P.Recovers (sampleEnv firstAltered) sampleServer samplePeers 0 sampleCall := by
  refine ⟨firstAltered_recoverable, fun h => ?_⟩
  obtain ⟨ls, q, hr, hclean, hend, -⟩ := h.ends [] _ (Machine.run_nil _ _)
  obtain ⟨ack, hack, -, -⟩ := h.acknowledged ls q hr hclean hend
  have hpeers : samplePeers 0 = some sampleCall := rfl
  obtain ⟨w, r, out, hh⟩ := P2P.exists_handover (sample_loads firstAltered) hpeers hr
  exact (hh.returned ack hack).1 1 (by decide) ((firstAltered_iff (by decide)).mpr rfl)

end Sgm
