import NexusRelay.Delivery.History
import NexusRelay.Model.Relay

/-! # Where deliveries come from

Every text that reaches a client through a subscription is followed back to the event that
published it, and the subscription to the request that was acknowledged for it. The
invariant keeps the operations of the registry beside the events of the run.
-/
namespace NexusRelay
open Shared PubSub
variable {X : Deps}

variable (X) in
/-- A subscribe request that was acknowledged, with the sender registered for it. -/
structure Subscription where
  params : Params X
  topic : Topic
  sender : Sender

/-- The subscription that the handling of an event makes, if it makes one. -/
def Event.acknowledged (s : RelayState) : Event X → List (Subscription X)
  | .frame tx text node =>
    match X.parse text with
    | none => []
    | some j =>
      match NexusRequest.tryFrom X j, (processMessage j (some node) tx).run s.shared with
      | .ok request, .ok _ _ =>
        match request.method, request.topic with
        | .subscribe, .ok topic => [⟨request.params,topic,s.shared.nextSender tx.chan⟩]
        | _, _ => []
      | _, _ => []
  | _ => []

def RelayState.subscriptions (network : Network) (txCacheSize : ℕ) (events : List (Event X)) :
    List (Subscription X) :=
  History.collect (step network) Event.acknowledged (start txCacheSize) events

theorem Event.acknowledged_subscribe {s : RelayState} (hw : s.shared.Healthy) {tx : Sender}
    {text : String} {node : Node X} {j : JsonRpc} {request : NexusRequest X} {topic : Topic}
    (hp : X.parse text = some j) (hr : NexusRequest.tryFrom X j = .ok request)
    (hm : request.method = .subscribe) (ht : request.topic = .ok topic) :
    (Event.frame tx text node).acknowledged s =
      [⟨request.params,topic,s.shared.nextSender tx.chan⟩] := by
  simp only [acknowledged,hp,hr,run_processMessage_subscribe hw hr hm ht (some node) tx,hm,ht]

/-- The entry was put into the channel by a publication, through this sender. -/
def Shared.DeliveredThrough (w : Shared) (sender : Sender) (e : Entry) : Prop :=
  e ∈ (w.channels sender.chan).log ∧ ∃ t, e.origin = .delivery t sender.handle

/-! ## Publications -/

/-- The transaction is the one of a `rawtx` message, or one of a `rawblock` message. -/
def DecodedFrom (msg : List Bytes) (tx : X.Transaction) : Where → Prop
  | .mempool => msg[0]? = some rawtx ∧ ∃ data, msg[1]? = some data ∧
      X.decodeTransaction data = .ok tx
  | .block => msg[0]? = some rawblock ∧ ∃ data block, msg[1]? = some data ∧
      X.decodeBlock data = .ok block ∧ tx ∈ X.txdata block

def Event.Requests (e : Event X) (node : Node X) (request : NexusRequest X) : Prop :=
  ∃ tx text j, e = .frame tx text node ∧ X.parse text = some j ∧
    NexusRequest.tryFrom X j = .ok request

/-- The events account for the publication of a text under a topic. -/
inductive Published (network : Network) (events : List (Event X)) : Topic → String → Prop
  | tx {msg : List Bytes} {tx : X.Transaction} {where_ : Where} (he : .zmq msg ∈ events)
      (hd : DecodedFrom msg tx where_) :
      Published network events (.validated (X.txidString (X.txid tx)))
        (noticeText X (TxSeen.toValue ⟨X.txidString (X.txid tx),X.serializeHex tx,where_⟩))
  | address {msg : List Bytes} {tx : X.Transaction} {where_ : Where} {address : String}
      (he : .zmq msg ∈ events) (hd : DecodedFrom msg tx where_)
      (ha : address ∈ getOutputAddresses X tx network) :
      Published network events (.validated address) (noticeText X
        (AddressSeen.toValue ⟨address,X.txidString (X.txid tx),X.serializeHex tx,where_⟩))
  | proposal {e : Event X} {node : Node X} {request : NexusRequest X} {p : X.Unvalidated}
      {v : X.Validated} {text : String} (he : e ∈ events) (hr : e.Requests node request)
      (hp : request.params = .proposal p) (hv : Validates p (some node) v)
      (ht : proposalText v = some text) :
      Published network events (.validated (pairString X v)) text
  | any {e : Event X} {node : Node X} {request : NexusRequest X} {a : Any}
      {content text : String} (he : e ∈ events) (hr : e.Requests node request)
      (hp : request.params = .any a) (hc : a.content = some content)
      (ht : X.render (.success (.num (-1)) (.string content)) = some text) :
      Published network events (.unvalidated a.topic) text

theorem Published.mono {network : Network} {events more : List (Event X)} {t : Topic} {m : String}
    (h : Published network events t m) (hsub : events ⊆ more) : Published network more t m := by
  cases h with
  | tx he hd => exact .tx (hsub he) hd
  | address he hd ha => exact .address (hsub he) hd ha
  | proposal he hr hp hv ht => exact .proposal (hsub he) hr hp hv ht
  | any he hr hp hc ht => exact .any (hsub he) hr hp hc ht

theorem published_of_notices {network : Network} {msg : List Bytes} {tx : X.Transaction}
    {where_ : Where} (hd : DecodedFrom msg tx where_) {t : Topic} {m : String}
    (h : Change.publish t m ∈ notices X network where_ tx) :
    Published (X := X) network [.zmq msg] t m := by
  rw [notices,List.mem_cons,List.mem_map] at h
  rcases h with h | ⟨a,ha,h⟩
  · cases h
    exact .tx (List.mem_singleton_self _) hd
  · cases h
    exact .address (List.mem_singleton_self _) hd ha

theorem Causes.published {network : Network} {seen seen' : BoundedSet String} {e : Event X}
    {changes : List Change} (hc : Causes network seen e changes seen') {t : Topic} {m : String}
    (h : Change.publish t m ∈ changes) : Published network [e] t m := by
  cases hc with
  | @answered tx text str node reply changes ha hs =>
    have hmem : Change.publish t m ∈ changes := by simpa using h
    cases ha with
    | unparsed hp => simp at hmem
    | failed hp he => simp at hmem
    | served hp hr hserved hok hreply =>
      have hreq : (Event.frame tx text node).Requests node _ := ⟨tx,text,_,rfl,hp,hr⟩
      cases hserved with
      | subscribe hm ht => simp at hmem
      | ping hm hparams => simp at hmem
      | proposal hm hparams hv ht =>
        cases List.mem_singleton.mp hmem
        exact .proposal (List.mem_singleton_self _) hreq hparams hv ht
      | any hm hparams hcontent ht =>
        cases List.mem_singleton.mp hmem
        exact .any (List.mem_singleton_self _) hreq hparams hcontent ht
  | panicked hp he => simp at h
  | @zmq msg _ _ _ ho =>
    cases ho with
    | @mempool data tx ht hd htx hnew =>
      have hfrom : DecodedFrom msg tx .mempool := ⟨ht,data,hd,htx⟩
      exact published_of_notices hfrom h
    | @block data block ht hd hb =>
      obtain ⟨tx,htx,hmem⟩ := List.mem_flatMap.mp h
      have hfrom : DecodedFrom msg tx .block := ⟨ht,data,block,hd,hb,htx⟩
      exact published_of_notices hfrom hmem
    | missing | known | badTx | badBlock | unknown => simp at h
  | recv c => simp at h
  | close c => simp at h

/-- An event makes one subscription, which it acknowledges, or none. -/
theorem Causes.subscribed {network : Network} {s : RelayState} (hw : s.shared.Healthy)
    {e : Event X} {changes : List Change} {seen' : BoundedSet String}
    (hc : Causes network s.txsSeen e changes seen') :
    (∃ params topic tx str, topicFromParams params = .ok topic ∧
      params.validateForMethod .subscribe = .ok () ∧
      changes = [.subscribe topic tx.chan,.reply tx str] ∧
      e.acknowledged s = [⟨params,topic,s.shared.nextSender tx.chan⟩]) ∨
    ((∀ t c, Change.subscribe t c ∉ changes) ∧ e.acknowledged s = []) := by
  cases hc with
  | @answered tx text str node reply changes ha hs =>
    cases ha with
    | unparsed hp => exact Or.inr ⟨by simp,by simp [Event.acknowledged,hp]⟩
    | failed hp he =>
      refine Or.inr ⟨by simp,?_⟩
      simp only [Event.acknowledged,hp,he s.shared hw]
      split <;> simp_all
    | @served j _ request _ _ hp hr hserved hok hreply =>
      have hrun := hok s.shared hw
      cases hserved with
      | @subscribe topic hm ht =>
        have haccepted := (NexusRequest.tryFrom_eq_ok.mp hr).2.2.2
        rw [hm] at haccepted
        refine Or.inl ⟨request.params,topic,tx,str,ht,haccepted,rfl,?_⟩
        simp [Event.acknowledged,hp,hr,hrun,hm,NexusRequest.topic,ht]
      | ping hm hparams =>
        exact Or.inr ⟨by simp,by simp [Event.acknowledged,hp,hr,hrun,hm]⟩
      | proposal hm hparams hv ht =>
        exact Or.inr ⟨by simp,by simp [Event.acknowledged,hp,hr,hrun,hm]⟩
      | any hm hparams hcontent ht =>
        exact Or.inr ⟨by simp,by simp [Event.acknowledged,hp,hr,hrun,hm]⟩
  | panicked hp he =>
    refine Or.inr ⟨by simp,?_⟩
    simp only [Event.acknowledged,hp,he s.shared hw]
    split <;> simp_all
  | zmq ho =>
    refine Or.inr ⟨?_,rfl⟩
    cases ho with
    | mempool => simp [notices,txNotice,addressNotice]
    | block => simp [notices,txNotice,addressNotice]
    | missing | known | badTx | badBlock | unknown => simp
  | recv c => exact Or.inr ⟨by simp,rfl⟩
  | close c => exact Or.inr ⟨by simp,rfl⟩

/-! ## The invariant -/

/-- The state is what the operations made of it, every publication among them is accounted
for by the events, and every subscription among them is an acknowledged one. -/
structure Explains (network : Network) (events : List (Event X)) (subs : List (Subscription X))
    (ops : List RegistryOp) (w : Shared) : Prop where
  tracks : Tracks ops w.registry w.channels
  published : ∀ t m, .publish t m ∈ ops → Published network events t m
  subscribed : ∀ t s, .subscribe t s ∈ ops → ∃ sub ∈ subs, sub.topic = t ∧ sub.sender = s
  topics : ∀ sub ∈ subs, topicFromParams sub.params = .ok sub.topic ∧
    sub.params.validateForMethod .subscribe = .ok ()
  numbered : ∀ sub ∈ subs, ∃ n < w.clones, sub.sender.handle = .subscription n
  unique : ∀ a ∈ subs, ∀ b ∈ subs, a.sender.handle = b.sender.handle → a = b

namespace Explains
variable {network : Network} {events : List (Event X)} {subs : List (Subscription X)}
  {ops : List RegistryOp} {w : Shared}

theorem start (network : Network) : Explains (X := X) network [] [] [] Shared.start where
  tracks := Tracks.start
  published t m h := by simp at h
  subscribed t s h := by simp at h
  topics sub h := by simp at h
  numbered sub h := by simp at h
  unique a h := by simp at h

theorem mono (h : Explains network events subs ops w) (e : Event X) :
    ∀ t m, .publish t m ∈ ops → Published network (events ++ [e]) t m :=
  fun t m hmem => (h.published t m hmem).mono (List.subset_append_left _ _)

theorem quiet (h : Explains network events subs ops w) {e : Event X} {changes : List Change}
    (hpub : ∀ t m, Change.publish t m ∈ changes → Published network [e] t m)
    (hsub : ∀ t c, Change.subscribe t c ∉ changes) :
    Explains network (events ++ [e]) subs (ops ++ w.ops changes) (w.applyAll changes) := by
  obtain ⟨hops,hclones⟩ := ops_of_no_subscribe (w := w) hsub
  refine ⟨h.tracks.applyAll changes,?_,?_,h.topics,?_,h.unique⟩
  · intro t m hmem
    rcases List.mem_append.mp hmem with hmem | hmem
    · exact h.mono e t m hmem
    · exact (hpub t m (publish_mem_ops.mp hmem)).mono (List.subset_append_right _ _)
  · intro t s hmem
    rcases List.mem_append.mp hmem with hmem | hmem
    · exact h.subscribed t s hmem
    · exact absurd hmem (hops t s)
  · intro sub hmem
    rw [hclones]
    exact h.numbered sub hmem

/-- An acknowledged subscription gets the next handle, which no earlier one has. -/
theorem subscribe (h : Explains network events subs ops w) (e : Event X) {params : Params X}
    {topic : Topic} (ht : topicFromParams params = .ok topic)
    (hv : params.validateForMethod .subscribe = .ok ()) (tx : Sender) (str : String) :
    Explains network (events ++ [e]) (subs ++ [⟨params,topic,w.nextSender tx.chan⟩])
      (ops ++ w.ops [.subscribe topic tx.chan,.reply tx str])
      (w.applyAll [.subscribe topic tx.chan,.reply tx str]) := by
  have hops : w.ops [.subscribe topic tx.chan,.reply tx str] =
      [.subscribe topic (w.nextSender tx.chan)] := rfl
  have hclones : (w.applyAll [.subscribe topic tx.chan,.reply tx str]).clones = w.clones + 1 :=
    replied_clones _ tx str
  have hold : ∀ sub ∈ subs, sub.sender.handle ≠ .subscription w.clones := by
    intro sub hmem heq
    obtain ⟨n,hn,hhandle⟩ := h.numbered sub hmem
    rw [heq] at hhandle
    cases hhandle
    omega
  refine ⟨h.tracks.applyAll _,?_,?_,?_,?_,?_⟩
  · intro t m hmem
    rw [hops] at hmem
    rcases List.mem_append.mp hmem with hmem | hmem
    · exact h.mono e t m hmem
    · simp at hmem
  · intro t s hmem
    rw [hops] at hmem
    rcases List.mem_append.mp hmem with hmem | hmem
    · obtain ⟨sub,hsub,h1,h2⟩ := h.subscribed t s hmem
      exact ⟨sub,List.mem_append_left _ hsub,h1,h2⟩
    · cases List.mem_singleton.mp hmem
      exact ⟨_,List.mem_append_right _ (List.mem_singleton_self _),rfl,rfl⟩
  · intro sub hmem
    rcases List.mem_append.mp hmem with hmem | hmem
    · exact h.topics sub hmem
    · cases List.mem_singleton.mp hmem
      exact ⟨ht,hv⟩
  · intro sub hmem
    rw [hclones]
    rcases List.mem_append.mp hmem with hmem | hmem
    · obtain ⟨n,hn,hhandle⟩ := h.numbered sub hmem
      exact ⟨n,by omega,hhandle⟩
    · cases List.mem_singleton.mp hmem
      exact ⟨w.clones,by omega,rfl⟩
  · intro a ha b hb heq
    rcases List.mem_append.mp ha with ha | ha
    · rcases List.mem_append.mp hb with hb | hb
      · exact h.unique a ha b hb heq
      · cases List.mem_singleton.mp hb
        exact absurd heq (hold a ha)
    · cases List.mem_singleton.mp ha
      rcases List.mem_append.mp hb with hb | hb
      · exact absurd heq.symm (hold b hb)
      · exact (List.mem_singleton.mp hb).symm

theorem delivered (h : Explains network events subs ops w) {sub : Subscription X}
    (hsub : sub ∈ subs) {e : Entry} (he : w.DeliveredThrough sub.sender e) :
    Published network events sub.topic e.text := by
  obtain ⟨hmem,t,horigin⟩ := he
  obtain ⟨hpub,hreg⟩ := h.tracks.origins _ e hmem t _ horigin
  obtain ⟨sub',hsub',ht,hs⟩ := h.subscribed t _ hreg
  have hsame : sub' = sub := h.unique sub' hsub' sub hsub (by rw [hs])
  rw [← hsame,ht]
  exact h.published t e.text hpub

end Explains

/-- The rule for what holds of the events, the acknowledged subscriptions and the shared state
of every run: an event makes one subscription, or none and only publications of its own. -/
theorem RelayState.run_subscriptions (hX : X.RenderTotal) (network : Network) (txCacheSize : ℕ)
    {P : List (Event X) → List (Subscription X) → Shared → Prop} (init : P [] [] Shared.start)
    (quiet : ∀ past subs w e changes, P past subs w →
      (∀ t m, Change.publish t m ∈ changes → Published network [e] t m) →
      (∀ t c, Change.subscribe t c ∉ changes) → P (past ++ [e]) subs (w.applyAll changes))
    (subscribe : ∀ past subs (w : Shared) e params topic (tx : Sender) str, P past subs w →
      topicFromParams params = .ok topic → params.validateForMethod .subscribe = .ok () →
      P (past ++ [e]) (subs ++ [⟨params,topic,w.nextSender tx.chan⟩])
        (w.applyAll [.subscribe topic tx.chan,.reply tx str]))
    (events : List (Event X)) :
    P events (subscriptions network txCacheSize events) (run network txCacheSize events).shared := by
  refine (run_invariant network txCacheSize hX (P := fun past s =>
    P past (subscriptions network txCacheSize past) s.shared) init ?_ events).2
  intro past s e changes seen' hs hw hp hc _
  have hsubs : subscriptions network txCacheSize (past ++ [e]) =
      subscriptions network txCacheSize past ++ e.acknowledged s := by
    rw [hs]
    exact History.collect_snoc _ _ _ past e
  rw [hsubs]
  rcases hc.subscribed hw with ⟨params,topic,tx,str,ht,hv,rfl,hack⟩ | ⟨hsub,hack⟩
  · rw [hack]
    exact subscribe past _ _ e params topic tx str hp ht hv
  · rw [hack,List.append_nil]
    exact quiet past _ _ e changes hp (fun t m => hc.published) hsub

theorem RelayState.run_explains (hX : X.RenderTotal) (network : Network) (txCacheSize : ℕ)
    (events : List (Event X)) :
    ∃ ops, Explains network events (subscriptions network txCacheSize events) ops
      (run network txCacheSize events).shared := by
  refine run_subscriptions hX network txCacheSize
    (P := fun past subs w => ∃ ops, Explains network past subs ops w)
    ⟨[],Explains.start network⟩ ?_ ?_ events
  · rintro past subs w e changes ⟨ops,hex⟩ hpub hsub
    exact ⟨ops ++ w.ops changes,hex.quiet hpub hsub⟩
  · rintro past subs w e params topic tx str ⟨ops,hex⟩ ht hv
    exact ⟨_,hex.subscribe e ht hv tx str⟩

/-- The next subscription has delivered nothing so far. -/
theorem RelayState.run_fresh (hX : X.RenderTotal) (network : Network) (txCacheSize : ℕ)
    (events : List (Event X)) (c : ℕ) :
    let w := (run network txCacheSize events).shared
    ∀ e ∈ (w.channels c).log, ∀ t, e.origin ≠ .delivery t (w.nextSender c).handle := by
  intro w e he t ho
  obtain ⟨ops,hex⟩ := run_explains hX network txCacheSize events
  obtain ⟨sub,hsub,-,hsender⟩ := hex.subscribed t _ (hex.tracks.origins c e he t _ ho).2
  obtain ⟨n,hn,hhandle⟩ := hex.numbered sub hsub
  rw [hsender] at hhandle
  injection hhandle with hclones
  exact absurd hn (by rw [← hclones]; exact lt_irrefl _)

/-! ## One publication in a log -/

/-- A publication reaches the log of everyone who is subscribed and there. -/
theorem Shared.delivered_published {w : Shared} {sender : Sender} {t : Topic}
    (h : sender ∈ w.receivers t) (m : String) :
    ⟨m,.delivery t sender.handle⟩ ∈ ((w.published t m).channels sender.chan).log := by
  rw [published_channels,Channels.deliver_log]
  exact List.mem_append_right _ (mem_deliveries.mpr ⟨sender,h,rfl,rfl⟩)

theorem Shared.kept_published {w : Shared} {c : ℕ} {e : Entry} (h : e ∈ (w.channels c).log)
    (t : Topic) (m : String) : e ∈ ((w.published t m).channels c).log := by
  rw [published_channels,Channels.deliver_log]
  exact List.mem_append_left _ h

theorem RelayState.step_mempool (hX : X.RenderTotal) (network : Network) {s : RelayState}
    (hw : s.shared.Healthy) {msg : List Bytes} {data : Bytes} {tx : X.Transaction}
    (ht : msg[0]? = some rawtx) (hd : msg[1]? = some data) (htx : X.decodeTransaction data = .ok tx)
    (hnew : s.txsSeen.contains (X.txidString (X.txid tx)) = false) :
    step network s (.zmq msg : Event X) = ⟨s.shared.applyAll (notices X network .mempool tx),
      (s.txsSeen.insert (X.txidString (X.txid tx))).2⟩ := by
  simp [step,processZmqMessage,ht,hd,htx,run_processTx hX hw,hnew]

/-! ## A small run -/

def Sample.addressFrame (address : String) : Event Deps.sample :=
  .frame ⟨0,.clientTxClone⟩ (Sample.print (Sample.request "subscribe" "address"
    (.string address))) Sample.node

/-- Client 0 subscribes to an address, then the payment enters the mempool. -/
def Sample.addressRun (address : String) : List (Event Deps.sample) :=
  [addressFrame address,.zmq [rawtx,Sample.txBytes]]

def Sample.addressSubscription (address : String) : Subscription Deps.sample :=
  ⟨.address address,.validated address,⟨0,.subscription 0⟩⟩

theorem Sample.address_acknowledged {address : String}
    (hp : Deps.sample.parse (Sample.print (Sample.request "subscribe" "address"
      (.string address))) = some (Sample.request "subscribe" "address" (.string address))) :
    Sample.addressSubscription address ∈
      RelayState.subscriptions .elementsRegtest 1000 (Sample.addressRun address) := by
  have hrequest : NexusRequest.tryFrom Deps.sample
      (Sample.request "subscribe" "address" (.string address)) =
      .ok ⟨1,.subscribe,.address address⟩ := rfl
  have hack : (Sample.addressFrame address).acknowledged (.start 1000) =
      [Sample.addressSubscription address] :=
    Event.acknowledged_subscribe start_healthy hp hrequest rfl rfl
  rw [RelayState.subscriptions,Sample.addressRun,History.collect,hack]
  exact List.mem_cons_self

/-- The state in which the payment is met. -/
def Sample.watchingRun (address : String) : RelayState :=
  RelayState.run .elementsRegtest 1000 [addressFrame address]

/-- The payment is published under its txid and under the address it pays. -/
theorem Sample.addressRun_shared {watched : String}
    (hnew : (watchingRun watched).txsSeen.contains txid = false) :
    (RelayState.run .elementsRegtest 1000 (addressRun watched)).shared =
      ((watchingRun watched).shared.apply (txNotice Deps.sample .mempool Transaction.payment)).apply
        (addressNotice Deps.sample .mempool Transaction.payment address) := by
  have hw : (watchingRun watched).shared.Healthy :=
    RelayState.run_healthy _ _ Deps.sample_renderTotal _
  have hsplit : addressRun watched = [addressFrame watched] ++ [.zmq [rawtx,txBytes]] := rfl
  have hnotices : notices Deps.sample .elementsRegtest .mempool Transaction.payment =
      [txNotice Deps.sample .mempool Transaction.payment,
        addressNotice Deps.sample .mempool Transaction.payment address] := rfl
  rw [hsplit,RelayState.run_snoc,← watchingRun,RelayState.step_mempool Deps.sample_renderTotal
    .elementsRegtest hw rfl rfl decodeTransaction_txBytes hnew,hnotices,applyAll_cons,
    applyAll_cons,applyAll_nil]

def Sample.addressEntry : Entry :=
  ⟨noticeText Deps.sample (AddressSeen.toValue ⟨Sample.address,Sample.txid,Sample.txHex,.mempool⟩),
    .delivery (.validated Sample.address) (.subscription 0)⟩

theorem Sample.address_delivered : Sample.addressEntry ∈
    ((RelayState.run .elementsRegtest 1000 (Sample.addressRun Sample.address)).shared.channels
      0).log := by
  have hnew : (watchingRun address).txsSeen.contains txid = false := by decide +kernel
  have hthere : ⟨0,.subscription 0⟩ ∈ (((watchingRun address).shared.apply
      (txNotice Deps.sample .mempool Transaction.payment)).receivers
        (.validated address)) := by decide +kernel
  rw [addressRun_shared hnew]
  exact Shared.delivered_published hthere _

end NexusRelay
