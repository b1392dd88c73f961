/-
# Resumption with engines that send no numbers

OpenAI-compatible engines send plain events: no `seq` field and no `id:` line.
The parser numbers them from 0 on each connection, whatever `start_seq_id` the
request asked for. So the first tokens of a standby's continuation, as many as
have been delivered before, are dropped as duplicates: the client loses them.
Nothing is lost only where nothing had been delivered or nothing comes after.

Key definitions: `PlainReply`, `StandbyNumbered`, `Lossless`.
Key theorems: `PlainReply.carries`, `delivered_of_handover`,
`IngressProxy.handleChatCompletions_plain`.
-/
import Sgm.Proxy.Course

namespace Sgm

open InOrder StreamMultiplexer

/-! ### Plain replies -/

/-- What may come after the events: `[DONE]`, or nothing. -/
def PlainTail (tail : List Bytes) : Prop :=
  tail = [] ∨ tail = [textLine (dataLine "[DONE]".toList), textLine []]

/-- The lines handed out are plain events with these tokens, and then `[DONE]`
or nothing. -/
def PlainReply (r : Reply) (tokens : List PyStr) : Prop :=
  ∃ payloads tail e, r = .response 200 (plainLines payloads ++ tail) e ∧
    List.Forall₂ PlainEvent payloads tokens ∧ PlainTail tail

/-- An engine that sends such lines, none of them over the limit of the reader. -/
theorem plainReply_of_handsOut {reader : LineReader} {limit : ℕ} (hreader : reader.HandsOut limit)
    {payloads : List (List Char)} {tokens : List PyStr} {tail : List Bytes}
    (hplain : List.Forall₂ PlainEvent payloads tokens) (htail : PlainTail tail)
    (hfit : ∀ l ∈ plainLines payloads ++ tail, l.length ≤ limit) :
    PlainReply (reader.reply ⟨200, (plainLines payloads ++ tail).flatten⟩) tokens := by
  have hlines : contentLines (plainLines payloads ++ tail).flatten = plainLines payloads ++ tail := by
    have hdone : contentLines [textLine (dataLine "[DONE]".toList), textLine []].flatten =
        [textLine (dataLine "[DONE]".toList), textLine []] := by decide +kernel
    rw [List.flatten_append, contentLines_plain hplain]
    rcases htail with rfl | rfl
    · rfl
    · rw [hdone]
  refine ⟨payloads, tail, .eof, ?_, hplain, htail⟩
  rw [hreader.reply_eq (by rw [hlines]; exact hfit), hlines]

theorem readLines_tail {tail : List Bytes} (h : PlainTail tail) (rid : String) (seq : ℤ) :
    (readLines rid tail seq).chunks = [] ∧
      ((readLines rid tail seq).ending = .done ∨ (readLines rid tail seq).ending = .closed) := by
  rcases h with rfl | rfl
  · exact ⟨rfl, Or.inr rfl⟩
  · rw [readLines, readLine_done]
    exact ⟨rfl, Or.inl rfl⟩

/-- Of a plain reply the parser makes chunks numbered from 0. -/
theorem PlainReply.carries {r : Reply} {tokens : List PyStr} (h : PlainReply r tokens)
    {post : String → Json → Reply} {url : String} {body : Json} (hr : post url body = r)
    (rid : String) : (sseChunkGenerator post url body rid).Carries 0 tokens := by
  obtain ⟨payloads, tail, e, rfl, hplain, htail⟩ := h
  obtain ⟨chunks, seq, hread, hnum, htok⟩ := readLines_plain rid tail payloads tokens 0 hplain
  obtain ⟨hnil, hend⟩ := readLines_tail htail rid seq
  have hgen : sseChunkGenerator post url body rid = ⟨chunks, (readLines rid tail seq).ending⟩ := by
    rw [sseChunkGenerator, hr]
    simp only [ne_eq, not_true_eq_false, if_false]
    rw [hread, hnil, List.append_nil]
  rw [hgen]
  exact ⟨hend, hnum, htok⟩

namespace IngressProxy

/-- Both engines answer request `h` of a client that sends `body` with plain
events, the standby, called with start id `s`, with the tokens `B s`. -/
structure PlainEngines (env : Env) (h : ℕ) (body : List (List Char × Json)) (b : String)
    (B : ℕ → List PyStr) : Prop where
  active : ∀ url, ∃ A, PlainReply (env.post h .active url
    (.obj (withRequestId body (requestIdOf env h body)))) A
  standby : ∀ s : ℕ, PlainReply (env.post h .standby (completionsUrl b)
    (.obj (standbyBody (withRequestId body (requestIdOf env h body)) ((s : ℤ) - 1)))) (B s)

/-- The chunks read from the standby that is called with start id `s` are
numbered from `s` on. -/
def StandbyNumbered (env : Env) (h : ℕ) (body : List (List Char × Json)) (b : String) (s : ℕ) :
    Prop :=
  ∀ u, clientStandby env h body b ((s : ℤ) - 1) = .ok u → Numbered TokenChunk.sequenceId s u.chunks

/-- From `p` on the client gets the tokens `B` after those delivered, and the
end of stream signal, and nothing else: in every run that comes to an end, and
the relay loop does come to its end with the time that passes. -/
def Lossless (env : Env) (h : ℕ) (body : List (List Char × Json)) (p : IngressProxy)
    (B : List PyStr) : Prop :=
  ∀ ls q, Machine.run (step env) p ls = some q →
    Machine.Along (step env) (fun _ _ q => Sole h q) p ls → (∀ l ∈ ls, l.Reads h body) →
    (∀ o, (q.system.generators h).point = .ended o → o = .completed ∧
      (q.system.generators h).delivered.map TokenChunk.token =
        (p.system.generators h).delivered.map TokenChunk.token ++ B ∧
      (q.system.generators h).items.filter (· ≠ .keepAlive) =
        (q.system.generators h).delivered.map .data ++ [.done]) ∧
    ((q.handlers h).point = .relaying → ∃ k q',
      Machine.run (step env) q (List.replicate k (relayTick h)).flatten = some q' ∧
        (q'.system.generators h).point = .ended .completed)

section
variable {env : Env} {h : ℕ} {a b : String} {body : List (List Char × Json)}
  {B : ℕ → List PyStr} {p q : IngressProxy}

theorem PlainEngines.active_carries (he : PlainEngines env h body b B) (url : String) :
    ∃ tokens, (clientActive env h body url).Carries 0 tokens := by
  obtain ⟨A, hA⟩ := he.active (completionsUrl url)
  exact ⟨_, hA.carries rfl (requestIdOf env h body)⟩

theorem PlainEngines.standby_carries (he : PlainEngines env h body b B) (s : ℕ) :
    ∃ u, clientStandby env h body b ((s : ℤ) - 1) = .ok u ∧ u.Carries 0 (B s) :=
  ⟨_, rfl, (he.standby s).carries rfl _⟩

theorem PlainEngines.smooth (he : PlainEngines env h body b B) (url : String) :
    Smooth (clientActive env h body url) (clientStandby env h body b) := by
  obtain ⟨tokens, hA⟩ := he.active_carries url
  refine hA.smooth fun d _ => ?_
  obtain ⟨u, hu, hc⟩ := he.standby_carries d
  exact ⟨0, u, _, Nat.zero_le d, hu, hc⟩

theorem standbyNumbered_iff (he : PlainEngines env h body b B) (s : ℕ) :
    StandbyNumbered env h body b s ↔ s = 0 ∨ B s = [] := by
  obtain ⟨u, hu, hc⟩ := he.standby_carries s
  have hlen := congrArg List.length hc.tokens
  rw [List.length_map] at hlen
  constructor
  · intro hn
    have hs := hn u hu
    have h0 := hc.numbered
    cases hchunks : u.chunks with
    | nil =>
      rw [hchunks] at hlen
      exact Or.inr (List.length_eq_zero_iff.mp hlen.symm)
    | cons c cs =>
      rw [hchunks] at hs h0
      have h1 := hs.1
      have h2 := h0.1
      left
      simp only [CharP.cast_eq_zero] at h2
      omega
  · rintro (rfl | hB) u' hu'
    · obtain rfl := Except.ok.inj (hu.symm.trans hu')
      exact hc.numbered
    · obtain rfl := Except.ok.inj (hu.symm.trans hu')
      rw [hB, List.length_nil] at hlen
      rw [List.length_eq_zero_iff.mp hlen]
      trivial

/-- After a handover at `s` tokens the client gets the continuation without its
first `s` tokens. -/
theorem delivered_of_handover {url : String} {d : ℕ} (he : PlainEngines env h body (rstripSlash b) B)
    (hd : AtSwap (clientActive env h body url) d)
    (hq : Course env h body (rstripSlash a) (rstripSlash b) (clientActive env h body url) (· = d)
      False q) (ho : (q.system.generators h).point = .ended .completed) :
    (q.system.generators h).delivered.map TokenChunk.token =
      ((clientActive env h body url).chunks.take d).map TokenChunk.token ++ (B d).drop d := by
  obtain ⟨-, hroute, hdel, -⟩ := tracked_ended hq.tracked ho
  obtain ⟨tokens, hA⟩ := he.active_carries url
  obtain ⟨u, hu, hc⟩ := he.standby_carries d
  rcases hroute with ⟨_, u', rfl, -, hu', hpull⟩ | ⟨hf, -⟩
  · obtain rfl := Except.ok.inj (hu.symm.trans hu')
    rw [hdel, hpull, hA.accepted_tokens hc hd.1 (Nat.zero_le _), List.map_take, hA.tokens,
      Nat.sub_zero]
  · exact hf.elim

theorem Course.handover {url : String} (he : PlainEngines env h body (rstripSlash b) B)
    (hp : Course env h body (rstripSlash a) (rstripSlash b) (clientActive env h body url)
      (fun _ => True) True p) (hcall : (p.system.generators h).point = .callStandby) :
    ∃ d, AtSwap (clientActive env h body url) d ∧
      (p.system.generators h).delivered = (clientActive env h body url).chunks.take d ∧
      (p.system.generators h).delivered.length = d ∧
      Course env h body (rstripSlash a) (rstripSlash b) (clientActive env h body url) (· = d)
        False p := by
  obtain ⟨d, hd, hdel, ht⟩ := tracked_handover (he.smooth url) hp.tracked hcall
  refine ⟨d, hd, hdel, ?_, hp.linked, hp.sole, hp.activeUrl, hp.standbyUrl, ht, hp.source,
    hp.handler⟩
  rw [hdel, List.length_take, Nat.min_eq_left hd.1]

/-- Plain engines. Where the standby is called after `s` tokens have been
delivered, its chunks are numbered from `s` on if and only if `s` is 0 or there
are none; and in the same cases, and no others, the client gets the whole
continuation. -/
theorem handleChatCompletions_plain {ls : List ProxyLabel}
    (hstream : ((Json.field? body "stream".toList).getD (.bool true)).truthy)
    (he : PlainEngines env h body (rstripSlash b) B)
    (hr : Machine.run (step env) (new a b) ls = some p)
    (hs : Machine.Along (step env) (fun _ _ q => Sole h q) (new a b) ls)
    (hl : ∀ l ∈ ls, l.Reads h body) (hcall : (p.system.generators h).point = .callStandby) :
    (StandbyNumbered env h body (rstripSlash b) (p.system.generators h).delivered.length ↔
      (p.system.generators h).delivered.length = 0 ∨
        B (p.system.generators h).delivered.length = []) ∧
    (Lossless env h body p (B (p.system.generators h).delivered.length) ↔
      (p.system.generators h).delivered.length = 0 ∨
        B (p.system.generators h).delivered.length = []) := by
  refine ⟨standbyNumbered_iff he _, ?_⟩
  obtain ⟨url, hany⟩ := course_any he.smooth hstream hr hs hl
  obtain ⟨d, hd, hdel, hlen, hp⟩ := hany.handover he hcall
  obtain ⟨n, hn⟩ := exists_bounded (clientActive env h body url)
    (clientStandby env h body (rstripSlash b))
  have hpres : (p.system.generators h).point ≠ .absent := by simp [hcall]
  rw [hlen]
  constructor
  · intro hloss
    obtain ⟨k, q, hq, hsole, hcq, hret⟩ := course_completes (he.smooth url) hstream hn p hp
      (hp.relaying (by simp [Generator.Live, hcall]))
    have htok := ((hloss _ q hq hsole fun l hl => (quiet_ticks h body k l hl).1).1 _
      (hcq.returned hret)).2.1
    rw [delivered_of_handover he hd hcq (hcq.returned hret), hdel] at htok
    have hdrop := congrArg List.length (List.append_cancel_left htok)
    rw [List.length_drop] at hdrop
    by_cases hd0 : d = 0
    · exact Or.inl hd0
    · right
      apply List.length_eq_zero_iff.mp
      omega
  · intro hcond ls q hq hsole hreads
    have hcq := course_run_started (he.smooth url) hstream hp hpres hq hsole hreads
    refine course_outcome (he.smooth url) hstream hcq fun ho => ?_
    rw [delivered_of_handover he hd hcq ho, hdel]
    rcases hcond with rfl | hB
    · rw [List.drop_zero]
    · rw [hB, List.drop_nil]

end

/-- What an engine sends that serves one token and closes. -/
def plainToken (token : PyStr) : ServerResponse := ⟨200, (plainLines [plainPayload token] ++ []).flatten⟩

/-- The active engine sends the token `a` and closes, the standby `b`. -/
def plainEnv : Env where
  post _ c _ _ :=
    match c with
    | .active => (LineReader.bounded LineReader.usualLimit).reply (plainToken "a")
    | .standby => (LineReader.bounded LineReader.usualLimit).reply (plainToken "b")
  show_ _ := []
  uuid _ := "u"

def plainBody : List (List Char × Json) := [("request_id".toList, .text ['r'])]

/-- Up to the call of the standby, after one token. -/
def handedOver : List ProxyLabel :=
  [.request 0, .body 0 (some (.obj plainBody)), .prepared 0, .preemptionAlert (.obj []), .resume 0,
    .resume 0, .resume 0, .handoverReady (.obj [("request_id".toList, .text ['r'])]), .resume 0]

theorem plainReply_plainToken {token : PyStr} (h : token.Unpaired)
    (hfit : (textLine (dataLine (plainPayload token))).length ≤ LineReader.usualLimit) :
    PlainReply ((LineReader.bounded LineReader.usualLimit).reply (plainToken token)) [token] := by
  refine plainReply_of_handsOut (LineReader.handsOut_bounded LineReader.usualLimit)
    (.cons (plainEvent_plainPayload h) .nil) (Or.inl rfl) ?_
  have hlines : plainLines [plainPayload token] ++ [] =
      [textLine (dataLine (plainPayload token)), textLine []] := rfl
  rw [hlines]
  simpa using ⟨hfit, by decide⟩

theorem plainEngines_plainEnv (b : String) : PlainEngines plainEnv 0 plainBody b fun _ => ["b"] where
  active _ := ⟨["a"], plainReply_plainToken (by decide) (by decide +kernel)⟩
  standby _ := plainReply_plainToken (by decide) (by decide +kernel)

theorem handedOver_callStandby :
    (Machine.run (step plainEnv) (new "http://a" "http://b") handedOver).map (fun p =>
      ((p.system.generators 0).point, (p.system.generators 0).delivered.map TokenChunk.token)) =
      some (.callStandby, [PyStr.ofString "a"]) := by decide +kernel

theorem handleChatCompletions_plain_handedOver :
    ∃ p, Machine.run (step plainEnv) (new "http://a" "http://b") handedOver = some p ∧
      (StandbyNumbered plainEnv 0 plainBody (rstripSlash "http://b")
          (p.system.generators 0).delivered.length ↔
        (p.system.generators 0).delivered.length = 0 ∨ [PyStr.ofString "b"] = []) ∧
      (Lossless plainEnv 0 plainBody p [PyStr.ofString "b"] ↔
        (p.system.generators 0).delivered.length = 0 ∨ [PyStr.ofString "b"] = []) := by
  obtain ⟨p, hp, hres⟩ := Option.map_eq_some_iff.mp handedOver_callStandby
  exact ⟨p, hp, handleChatCompletions_plain rfl (plainEngines_plainEnv _) hp
    (along_sole_of_about (by simp [handedOver, About])) (by simp [handedOver, ProxyLabel.Reads])
    (Prod.mk.inj hres).1⟩

/-- The client loses the standby's token. -/
theorem not_lossless_handedOver :
    ∃ p, Machine.run (step plainEnv) (new "http://a" "http://b") handedOver = some p ∧
      (p.system.generators 0).point = .callStandby ∧
      ¬ StandbyNumbered plainEnv 0 plainBody (rstripSlash "http://b")
        (p.system.generators 0).delivered.length ∧
      ¬ Lossless plainEnv 0 plainBody p [PyStr.ofString "b"] := by
  obtain ⟨p, hp, hres⟩ := Option.map_eq_some_iff.mp handedOver_callStandby
  obtain ⟨hpoint, htokens⟩ := Prod.mk.inj hres
  have hlen : (p.system.generators 0).delivered.length = 1 := by
    rw [← List.length_map TokenChunk.token, htokens]
    rfl
  refine ⟨p, hp, hpoint, ?_, fun hloss => ?_⟩
  · rw [standbyNumbered_iff (plainEngines_plainEnv _), hlen]
    simp
  · -- connect, read and drop the token, read the end, and return
    let rest : List ProxyLabel := [.resume 0, .resume 0, .resume 0, .resume 0]
    have hend : (Machine.run (step plainEnv) (new "http://a" "http://b") (handedOver ++ rest)).map
        (fun q => ((q.system.generators 0).point,
          (q.system.generators 0).delivered.map TokenChunk.token)) =
        some (.ended .completed, [PyStr.ofString "a"]) := by decide +kernel
    obtain ⟨q, hq, hres⟩ := Option.map_eq_some_iff.mp hend
    obtain ⟨hdone, htokens'⟩ := Prod.mk.inj hres
    obtain ⟨p', hp', hrest⟩ := Machine.run_append_eq_some.mp hq
    obtain rfl := Option.some.inj (hp.symm.trans hp')
    have halong := @along_sole_of_about plainEnv 0 "http://a" "http://b" (handedOver ++ rest)
      (by simp [handedOver, rest, About])
    have htok := ((hloss rest q hrest (halong.append_right hp) (by simp [rest, ProxyLabel.Reads])).1 _
      hdone).2.1
    rw [htokens', htokens] at htok
    cases htok

end IngressProxy
end Sgm
