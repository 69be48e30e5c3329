import NexusRelay.Connections.Replies
import NexusRelay.Delivery.Provenance
import NexusRelay.Model.JsonText

/-! # The order of acknowledgements

In every interleaving, a client's replies come in the order of its frames, a subscription is
acknowledged before it delivers, and a publication is delivered before it is acknowledged.
-/
namespace NexusRelay
open Shared
variable {X : Deps}

/-! ## Around one frame -/

theorem run_handleText_some {text str : String} {client : Option (Node X)} {tx : Sender}
    {w w₁ : Shared} {j reply : JsonRpc} (hp : X.parse text = some j)
    (hr : (responseTo j client tx).run w = .ok reply w₁) (hs : X.render reply = some str) :
    (handleText text client tx).run w = .ok (w₁.channels tx.chan).rxOpen (w₁.replied tx str) := by
  simp only [handleText,hp,EStateM.run_bind,hr,hs,Fallible.unwrap_some,Exec.run_ofFallible_ok,
    run_sendReply]

theorem Event.mem_acknowledged {s : RelayState} {tx : Sender} {text : String} {node : Node X}
    {sub : Subscription X} (h : sub ∈ (Event.frame tx text node).acknowledged s) :
    ∃ j request topic, X.parse text = some j ∧ NexusRequest.tryFrom X j = .ok request ∧
      request.method = .subscribe ∧ request.topic = .ok topic ∧
      sub = ⟨request.params,topic,s.shared.nextSender tx.chan⟩ := by
  simp only [acknowledged] at h
  split at h
  · cases h
  · next j hp =>
    split at h
    · next request _ _ hr hok =>
      split at h
      · next topic hm ht =>
        exact ⟨j,request,topic,hp,hr,hm,ht,List.mem_singleton.mp h⟩
      · cases h
    · cases h

/-- A frame is answered with `published` only once its text is in the logs of everyone who
was subscribed and there. -/
theorem responseTo_published (hX : X.RenderTotal) (network : Network) {text : String} {j : JsonRpc}
    (hp : X.parse text = some j) {node : Node X} {tx : Sender} {w w₁ : Shared} (hw : w.Healthy)
    {id : JsonRpc.Id}
    (h : (responseTo j (some node) tx).run w = .ok (.success id (.string "published")) w₁) :
    ∃ t m, Published network [.frame tx text node] t m ∧ w₁ = w.published t m := by
  rcases processMessage_cases hX j (some node) tx with
    ⟨request,response,changes,hr,hs,hproc⟩ | ⟨f,hproc⟩
  · obtain ⟨val,hval⟩ := hs.toJsonRpc
    have hreq : (Event.frame tx text node).Requests node request := ⟨tx,text,j,rfl,hp,hr⟩
    rw [run_responseTo_ok (hproc w hw) hval] at h
    cases h
    cases hs with
    | subscribe hm ht => simp [NexusResponse.newSubscribed,NexusResponse.toJsonRpc] at hval
    | ping hm hparams => simp [NexusResponse.newPong,NexusResponse.toJsonRpc] at hval
    | proposal hm hparams hv ht =>
      exact ⟨_,_,.proposal (List.mem_singleton_self _) hreq hparams hv ht,rfl⟩
    | any hm hparams hc ht =>
      exact ⟨_,_,.any (List.mem_singleton_self _) hreq hparams hc ht,rfl⟩
  · cases f with
    | err e =>
      rw [run_responseTo_err hw (hproc w hw)] at h
      cases e <;> cases h
    | panic =>
      rw [run_responseTo_panic (hproc w hw)] at h
      cases h

/-- What is enqueued before what when client `i` has its frame handled in `s₁`, which leads to
`s₂`, as seen later in `s`. -/
structure InOrder (network : Network) (s₁ s₂ s : RelayState) (i : ℕ) (text : String)
    (node : Node X) : Prop where
  subscribed : ∀ sub ∈ (Event.frame ⟨i,.clientTxClone⟩ text node).acknowledged s₁,
    ∀ (k : ℕ) (e : Entry) (t : Topic), (s.shared.channels i).log[k]? = some e →
      e.origin = .delivery t sub.sender.handle →
      ∃ j id str, X.parse text = some j ∧ parseId j = .ok id ∧
        X.render (.success (.num id.toNat) (.string "subscribed")) = some str ∧
        (s₁.shared.channels i).log.length < k ∧
        (s.shared.channels i).log[(s₁.shared.channels i).log.length]? = some ⟨str,.reply⟩
  published : ∀ j id w₁, X.parse text = some j →
    (responseTo j (some node) ⟨i,.clientTxClone⟩).run s₁.shared =
      .ok (.success id (.string "published")) w₁ →
    ∃ t m str, Published network [.frame ⟨i,.clientTxClone⟩ text node] t m ∧
      (∀ c, (w₁.channels c).log =
        (s₁.shared.channels c).log ++ deliveries t m (s₁.shared.receivers t) c) ∧
      X.render (.success id (.string "published")) = some str ∧
      s₂.shared = w₁.replied ⟨i,.clientTxClone⟩ str
  grows : Extends s₂.shared s.shared

theorem System.step_extends (hX : X.RenderTotal) {network : Network} {s s' : System}
    (hw : s.relay.shared.Healthy) {a : Act X} (h : s.step network a = some s') :
    Extends s.relay.shared s'.relay.shared := by
  cases step_steps h with
  | accept | text | otherFrame | stop | join => exact Extends.refl _
  | handle | forward | drained | zmq => exact RelayState.step_extends hX network hw _
  | @forwardFails i =>
    have hrecv : (s.relay.step network (.recv i : Event X)).shared.Healthy := hw
    exact (RelayState.step_extends hX network hw _).trans
      (RelayState.step_extends hX network hrecv _)

theorem System.run_extends (hX : X.RenderTotal) {network : Network} {txCacheSize : ℕ}
    {s₂ s : System} (hr : Machine.Reachable (step (X := X) network) (start txCacheSize) s₂)
    {later : List (Act X)} (h : Machine.run (step network) s₂ later = some s) :
    Extends s₂.relay.shared s.relay.shared := by
  refine (Machine.run_invariant (P := fun _ s => Extends s₂.relay.shared s.relay.shared)
    (Extends.refl _) ?_ h).2
  intro past s a s' hreach hext hs
  exact hext.trans (step_extends hX (reachable_healthy hX (hr.trans hreach)) hs)

/-- A reply that is enqueued comes before everything of a kind the log did not have. -/
theorem Shared.Extends.reply_first {w w' : Shared} {tx : Sender} {str : String}
    (h : Extends (w.replied tx str) w') {handle : Handle}
    (hfresh : ∀ e ∈ (w.channels tx.chan).log, ∀ t, e.origin ≠ .delivery t handle) {k : ℕ} {e : Entry}
    {t : Topic} (hk : (w'.channels tx.chan).log[k]? = some e) (ho : e.origin = .delivery t handle) :
    (w.channels tx.chan).log.length < k ∧
      (w'.channels tx.chan).log[(w.channels tx.chan).log.length]? = some ⟨str,.reply⟩ := by
  have hlog := apply_log w (.reply tx str) tx.chan
  cases hopen : (w.channels tx.chan).rxOpen with
  | true =>
    obtain ⟨more,hmore⟩ := (h tx.chan).1
    have hnow : (w'.channels tx.chan).log =
        (w.channels tx.chan).log ++ ⟨str,.reply⟩ :: more := by
      rw [hmore,← apply,hlog]
      simp [added,hopen]
    rw [hnow] at hk ⊢
    refine ⟨?_,by simp⟩
    by_contra hle
    rcases Nat.lt_or_eq_of_le (Nat.le_of_not_lt hle) with hlt | rfl
    · rw [List.getElem?_append_left hlt] at hk
      exact hfresh e (List.mem_of_getElem? hk) t ho
    · have he : e = ⟨str,.reply⟩ := by simpa using hk.symm
      rw [he] at ho
      cases ho
  | false =>
    have hnow : (w'.channels tx.chan).log = (w.channels tx.chan).log := by
      rw [((h tx.chan).2 (by simp [replied,hopen])).2]
      simp [replied,hopen]
    rw [hnow] at hk
    exact absurd ho (hfresh e (List.mem_of_getElem? hk) t)

theorem System.handle_inOrder (hX : X.RenderTotal) {network : Network} {txCacheSize : ℕ}
    {s₁ : System} (hr : Machine.Reachable (step (X := X) network) (start txCacheSize) s₁) {i : ℕ}
    (conn : Connection) (text : String) (node : Node X) {s : RelayState}
    (hgrows : Extends (s₁.handle network i conn text node).relay.shared s.shared) :
    InOrder network s₁.relay (s₁.handle network i conn text node).relay s i text node := by
  have hw := reachable_healthy hX hr
  refine ⟨?_,?_,hgrows⟩
  · intro sub hsub k e t hk ho
    obtain ⟨j,request,topic,hp,hreq,hm,ht,rfl⟩ := Event.mem_acknowledged hsub
    obtain ⟨str,hstr⟩ := hX.eq_some (.success (.num request.id.toNat) (.string "subscribed"))
    refine ⟨j,request.id,str,hp,(NexusRequest.tryFrom_eq_ok.mp hreq).1,hstr,?_⟩
    have hresp := run_responseTo_ok
      (run_processMessage_subscribe hw hreq hm ht (some node) ⟨i,.clientTxClone⟩) rfl
    have hs := RelayState.step_frame_shared network (run_handleText_some hp hresp hstr)
    rw [handle,hs] at hgrows
    obtain ⟨events,hevents⟩ := reachable_run hr
    have hfresh := RelayState.run_fresh hX network txCacheSize events i
    rw [← hevents] at hfresh
    exact hgrows.reply_first (w := s₁.relay.shared.subscribed topic i) hfresh hk ho
  · intro j id w₁ hp hresp
    obtain ⟨str,hstr⟩ := hX.eq_some (.success id (.string "published"))
    obtain ⟨t,m,hpub,rfl⟩ := responseTo_published hX network hp hw hresp
    refine ⟨t,m,str,hpub,fun c => ?_,hstr,?_⟩
    · rw [published_channels,Channels.deliver_log]
    · exact RelayState.step_frame_shared network (run_handleText_some hp hresp hstr)

/-- In every interleaving: every client's replies answer its handled frames, one each and in
their order; a subscription is acknowledged before anything is delivered through it; and a
publication is in the log of every subscriber of its topic that was registered and there when
it took the lock, before it is acknowledged. -/
theorem acknowledgement_order (hX : X.RenderTotal) (network : Network) (txCacheSize : ℕ)
    (acts : List (Act X)) (s : System)
    (h : Machine.run (System.step network) (System.start txCacheSize) acts = some s) :
    (∀ i, RepliesInOrder acts s i) ∧
    ∀ past i node later, acts = past ++ .handle i node :: later →
      ∃ s₁ s₂ text,
        Machine.run (System.step network) (System.start txCacheSize) past = some s₁ ∧
        s₁.inHand i = [text] ∧ s₁.step network (.handle i node) = some s₂ ∧
        InOrder network s₁.relay s₂.relay s.relay i text node := by
  refine ⟨System.run_repliesInOrder hX h,?_⟩
  rintro past i node later rfl
  rw [Machine.run_append] at h
  obtain ⟨s₁,hpast,h⟩ := Option.bind_eq_some_iff.mp h
  obtain ⟨s₂,hstep,hlater⟩ := Option.bind_eq_some_iff.mp h
  have hr := Machine.reachable_of_run hpast
  have hgrows := System.run_extends hX (hr.step hstep) hlater
  cases System.step_steps hstep with
  | @handle _ conn text hc hp =>
    have hhand : s₁.inHand i = [text] := by
      rw [(System.inHand_eq hc).1,Connection.inHand,hp]
    exact ⟨s₁,_,text,hpast,hhand,hstep,System.handle_inOrder hX hr conn text node hgrows⟩

/-! ## A subscription, and a publication on its topic -/

def Sample.subscribeText : String :=
  Sample.print (Sample.request "subscribe" "any" (.object [("topic",.string "t")]))

def Sample.publishText : String :=
  Sample.print (Sample.request "publish" "any"
    (.object [("content",.string "hello"),("topic",.string "t")]))

/-- Client 0 subscribes to a topic, and client 1 publishes on it. -/
def Sample.relayActs : List (Act Deps.text) :=
  [.accept,.accept,.text 0 Sample.subscribeText,.handle 0 Sample.textNode,
    .text 1 Sample.publishText,.handle 1 Sample.textNode]

/-- What a run reaches with its first acts. -/
def Sample.relayed? (n : ℕ) : Option System :=
  Machine.run (System.step .elementsRegtest) (System.start 1000) (Sample.relayActs.take n)

theorem Sample.relayed_succ {n : ℕ} {s s' : System} {a : Act Deps.text}
    (h : relayed? n = some s) (ha : relayActs.take (n + 1) = relayActs.take n ++ [a])
    (hs : s.step .elementsRegtest a = some s') : relayed? (n + 1) = some s' := by
  rw [relayed?,ha,Machine.run_append,← relayed?,h]
  simp [Machine.run,hs]

/-- The subscription is acknowledged before it delivers, and the publication is delivered to it
before it is acknowledged. -/
theorem relay_in_order : ∃ s, Sample.relayed? 6 = some s ∧
    (∀ i, RepliesInOrder Sample.relayActs s i) ∧
    (∃ s₁ s₂, Sample.relayed? 3 = some s₁ ∧ Sample.relayed? 4 = some s₂ ∧
      InOrder .elementsRegtest s₁.relay s₂.relay s.relay 0 Sample.subscribeText Sample.textNode) ∧
    (∃ s₁ s₂, Sample.relayed? 5 = some s₁ ∧ Sample.relayed? 6 = some s₂ ∧
      InOrder .elementsRegtest s₁.relay s₂.relay s.relay 1 Sample.publishText Sample.textNode) ∧
    (s.relay.shared.channels 0).log =
      [⟨Sample.print (.success (.num 1) (.string "subscribed")),.reply⟩,
        ⟨Sample.print (.success (.num (-1)) (.string "hello")),
          .delivery (.unvalidated "t") (.subscription 0)⟩] ∧
    (s.relay.shared.channels 1).log =
      [⟨Sample.print (.success (.num 1) (.string "published")),.reply⟩] := by
  have hlogs : (Sample.relayed? 6).map (fun s =>
      ((s.relay.shared.channels 0).log,(s.relay.shared.channels 1).log)) =
      some ([⟨Sample.print (.success (.num 1) (.string "subscribed")),.reply⟩,
        ⟨Sample.print (.success (.num (-1)) (.string "hello")),
          .delivery (.unvalidated "t") (.subscription 0)⟩],
        [⟨Sample.print (.success (.num 1) (.string "published")),.reply⟩]) := by
    decide +kernel
  have hsubscribe : ((Sample.relayed? 3).map fun s => s.inHand 0) =
      some [Sample.subscribeText] := by decide +kernel
  have hpublish : ((Sample.relayed? 5).map fun s => s.inHand 1) =
      some [Sample.publishText] := by decide +kernel
  obtain ⟨s,hs,hlog⟩ := Option.map_eq_some_iff.mp hlogs
  obtain ⟨hlog₀,hlog₁⟩ := Prod.mk.inj hlog
  obtain ⟨hreplies,horder⟩ := acknowledgement_order Deps.text_renderTotal .elementsRegtest 1000
    Sample.relayActs s hs
  obtain ⟨s₃,s₄,text₀,h₃,hhand₀,hstep₀,hin₀⟩ :=
    horder (Sample.relayActs.take 3) 0 Sample.textNode (Sample.relayActs.drop 4) rfl
  obtain ⟨s₅,s₆,text₁,h₅,hhand₁,hstep₁,hin₁⟩ :=
    horder (Sample.relayActs.take 5) 1 Sample.textNode (Sample.relayActs.drop 6) rfl
  have htext₀ : text₀ = Sample.subscribeText := by
    rw [Sample.relayed?,h₃,Option.map_some,hhand₀] at hsubscribe
    simpa using hsubscribe
  have htext₁ : text₁ = Sample.publishText := by
    rw [Sample.relayed?,h₅,Option.map_some,hhand₁] at hpublish
    simpa using hpublish
  subst htext₀ htext₁
  exact ⟨s,hs,hreplies,⟨s₃,s₄,h₃,Sample.relayed_succ h₃ rfl hstep₀,hin₀⟩,
    ⟨s₅,s₆,h₅,Sample.relayed_succ h₅ rfl hstep₁,hin₁⟩,hlog₀,hlog₁⟩

end NexusRelay
