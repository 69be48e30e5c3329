import NexusRelay.Delivery.Provenance

/-! # Integrity of validated topics

A subscription to a validated topic receives what the listener decoded and proposals that
were validated, and nothing that a client made up.
-/
namespace NexusRelay
open Shared
variable {X : Deps}

/-- The text is a notification of a decoded transaction, and `s` is the txid or the address
it names. -/
def ZmqNotice (network : Network) (events : List (Event X)) (s text : String) : Prop :=
  ∃ (msg : List Bytes) (tx : X.Transaction) (where_ : Where),
    .zmq msg ∈ events ∧ DecodedFrom msg tx where_ ∧
    ((s = X.txidString (X.txid tx) ∧
      text = noticeText X (TxSeen.toValue ⟨s,X.serializeHex tx,where_⟩)) ∨
    (s ∈ getOutputAddresses X tx network ∧
      text = noticeText X
        (AddressSeen.toValue ⟨s,X.txidString (X.txid tx),X.serializeHex tx,where_⟩)))

/-- The text is a proposal that validated on the transaction the node returned for it, and
`s` is its pair of assets. -/
def ProposalNotice (events : List (Event X)) (s text : String) : Prop :=
  ∃ e ∈ events, ∃ node request p v txid tx, e.Requests node request ∧
    request.params = .proposal p ∧ X.neededTx p = .ok txid ∧ node.tx txid = .ok tx ∧
    X.validate p tx = .ok v ∧
    s = X.assetString (X.inputAsset v) ++ ":" ++ X.assetString (X.outputAsset v) ∧
    proposalText v = some text

theorem Published.validated {network : Network} {events : List (Event X)} {s m : String}
    (h : Published network events (.validated s) m) :
    ZmqNotice network events s m ∨ ProposalNotice events s m := by
  cases h with
  | tx he hd => exact Or.inl ⟨_,_,_,he,hd,Or.inl ⟨rfl,rfl⟩⟩
  | address he hd ha => exact Or.inl ⟨_,_,_,he,hd,Or.inr ⟨ha,rfl⟩⟩
  | proposal he hr hp hv ht =>
    obtain ⟨txid,tx,hn,htx,hval⟩ := hv
    exact Or.inr ⟨_,he,_,_,_,_,txid,tx,hr,hp,hn,htx,hval,rfl,ht⟩

/-! ## Requests with `any` params -/

/-- The event is a frame whose params are `any`, with any topic and content. -/
def Event.CarriesAny (e : Event X) : Prop :=
  ∃ tx text node j a, e = .frame tx text node ∧ X.parse text = some j ∧
    (parseParams j : Fallible RequestError (Params X)) = .ok (.any a)

def validatedIn (ch : Channel) : List Entry :=
  ch.log.filter fun e =>
    match e.origin with
    | .delivery (.validated _) _ => true
    | _ => false

theorem Event.CarriesAny.not_validated {network : Network} {e : Event X} (h : e.CarriesAny)
    {s m : String} : ¬ Published network [e] (.validated s) m := by
  obtain ⟨tx,text,node,j,a,rfl,hp,hany⟩ := h
  intro hpub
  cases hpub with
  | tx he hd => simp at he
  | address he hd ha => simp at he
  | proposal he hr hparams hv ht =>
    cases List.mem_singleton.mp he
    obtain ⟨tx',text',j',heq,hp',hr'⟩ := hr
    cases heq
    rw [hp] at hp'
    cases hp'
    rw [(NexusRequest.tryFrom_eq_ok.mp hr').2.2.1,hparams] at hany
    cases hany

theorem validatedIn_apply {w : Shared} {x : Change} (hx : ∀ s m, x ≠ .publish (.validated s) m)
    (c : ℕ) : validatedIn ((w.apply x).channels c) = validatedIn (w.channels c) := by
  cases x with
  | subscribe t d => rfl
  | publish t m =>
    cases t with
    | validated s => exact absurd rfl (hx s m)
    | unvalidated s =>
      have hnil : validatedIn ⟨deliveries (.unvalidated s) m (w.receivers (.unvalidated s)) c,0,
          true⟩ = [] := by
        refine List.filter_eq_nil_iff.mpr fun e he => ?_
        obtain ⟨sender,-,-,rfl⟩ := mem_deliveries.mp he
        simp
      unfold validatedIn at hnil ⊢
      simp only [apply,published_channels,Channels.deliver_log,List.filter_append,hnil,
        List.append_nil]
  | reply tx text =>
    simp only [apply,replied]
    split
    · by_cases hc : c = tx.chan
      · subst hc; simp [validatedIn,Channel.put]
      · simp [hc]
    · rfl
  | take d => simp [apply,validatedIn]
  | close d => simp [apply,validatedIn]

theorem validatedIn_applyAll {w : Shared} {xs : List Change}
    (hxs : ∀ s m, Change.publish (.validated s) m ∉ xs) (c : ℕ) :
    validatedIn ((w.applyAll xs).channels c) = validatedIn (w.channels c) := by
  induction xs generalizing w with
  | nil => rfl
  | cons x rest ih =>
    rw [applyAll_cons,ih fun s m h => hxs s m (List.mem_cons_of_mem x h)]
    exact validatedIn_apply (fun s m h => hxs s m (by simp [h])) c

theorem run_anys (hX : X.RenderTotal) (network : Network) (txCacheSize : ℕ)
    (events anys : List (Event X)) (hany : ∀ e ∈ anys, e.CarriesAny) (c : ℕ) :
    validatedIn ((RelayState.run network txCacheSize (events ++ anys)).shared.channels c) =
      validatedIn ((RelayState.run network txCacheSize events).shared.channels c) := by
  induction anys using List.reverseRecOn with
  | nil => rw [List.append_nil]
  | append_singleton anys e ih =>
    rw [← ih fun e' he' => hany e' (List.mem_append_left _ he'),← List.append_assoc,
      RelayState.run_snoc]
    have hw := RelayState.run_healthy network txCacheSize hX (events ++ anys)
    obtain ⟨changes,seen',hc,hnow⟩ := RelayState.step_caused hX network hw e
    rw [hnow]
    refine validatedIn_applyAll (fun s m hmem => ?_) c
    exact (hany e (List.mem_append_right _ (List.mem_singleton_self e))).not_validated
      (hc.published hmem)

/-- In every run, what is delivered through a subscription to a validated topic is a notice of
a decoded transaction that names the topic, or a proposal validated on the node's transaction
whose pair is the topic; and requests with `any` params, whatever their strings, deliver
nothing under a validated topic. -/
theorem validated_topics_integrity (hX : X.RenderTotal) (network : Network) (txCacheSize : ℕ)
    (events : List (Event X)) :
    (∀ sub ∈ RelayState.subscriptions network txCacheSize events, ∀ s,
      sub.topic = .validated s → ∀ e,
        (RelayState.run network txCacheSize events).shared.DeliveredThrough sub.sender e →
          ZmqNotice network events s e.text ∨ ProposalNotice events s e.text) ∧
    ∀ anys : List (Event X), (∀ e ∈ anys, e.CarriesAny) → ∀ c,
      validatedIn ((RelayState.run network txCacheSize (events ++ anys)).shared.channels c) =
        validatedIn ((RelayState.run network txCacheSize events).shared.channels c) := by
  constructor
  · intro sub hsub s hs e he
    obtain ⟨ops,hex⟩ := RelayState.run_explains hX network txCacheSize events
    have hpub := hex.delivered hsub he
    rw [hs] at hpub
    exact hpub.validated
  · intro anys hany c
    exact run_anys hX network txCacheSize events anys hany c

/-! ## A run that delivers -/

theorem address_notice_integrity :
    ZmqNotice .elementsRegtest (Sample.addressRun Sample.address) Sample.address
        Sample.addressEntry.text ∨
      ProposalNotice (Sample.addressRun Sample.address) Sample.address Sample.addressEntry.text :=
  (validated_topics_integrity Deps.sample_renderTotal .elementsRegtest 1000
    (Sample.addressRun Sample.address)).1
    (Sample.addressSubscription Sample.address)
    (Sample.address_acknowledged rfl) _ rfl Sample.addressEntry ⟨Sample.address_delivered,_,rfl⟩

end NexusRelay
