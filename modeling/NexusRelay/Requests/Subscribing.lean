import NexusRelay.Delivery.Kinds

/-! # Which subscriptions can ever be notified

A subscription is acknowledged for any string. The server publishes on the renderings of
addresses, txids and asset pairs, and on no other validated topic.
-/
namespace NexusRelay
open Shared
variable {X : Deps}

/-- The string of the subscription is one the server publishes on, for its kind: an address
of some script on the configured network, a txid, or a pair of asset ids. -/
def Publishable (network : Network) (params : Params X) : Prop :=
  match params with
  | .address a => ∃ script, X.addressString script network.addressParams = some a
  | .tx t => ∃ txid, X.txidString txid = t.txid
  | .pair p => ∃ input output,
      p.input ++ ":" ++ p.output = X.assetString input ++ ":" ++ X.assetString output
  | _ => True

variable (X) in
/-- A subscribe request for a validated topic is acknowledged only if the server can publish on
it, and answered with an error otherwise. -/
def NoDeadSubscription (network : Network) (j : JsonRpc) : Prop :=
  ∀ request : NexusRequest X, NexusRequest.tryFrom X j = .ok request →
    request.method = .subscribe → ∀ s, request.topic = .ok (.validated s) →
    ∀ (client : Option (Node X)) (tx : Sender) (w : Shared), w.Healthy →
      (∀ response w', (processMessage j client tx).run w = .ok response w' →
        Publishable network request.params) ∧
      (¬ Publishable network request.params →
        ∃ e w', (processMessage j client tx).run w = .error (.err e) w')

/-- For every network and message: the message makes no dead subscription exactly when the
string it asks for, if it is a subscribe request for an address, a txid or a pair, is one the
server publishes on. -/
theorem noDeadSubscription_iff (network : Network) (j : JsonRpc) :
    NoDeadSubscription X network j ↔ ∀ request : NexusRequest X,
      NexusRequest.tryFrom X j = .ok request → request.method = .subscribe →
      Publishable network request.params := by
  constructor
  · intro h request hr hm
    have hack : ∀ s, request.topic = .ok (.validated s) → Publishable network request.params := by
      intro s hs
      have hrun := run_processMessage_subscribe start_healthy hr hm hs none ⟨0,.clientTxClone⟩
      exact (h request hr hm s hs none ⟨0,.clientTxClone⟩ _ start_healthy).1 _ _ hrun
    rcases request with ⟨id,method,params⟩
    cases params with
    | address a => exact hack a rfl
    | tx t => exact hack t.txid rfl
    | pair p => exact hack (p.input ++ ":" ++ p.output) rfl
    | any | wallet | empty | proposal | pset | ping => trivial
  · intro h request hr hm s hs client tx w hw
    have hpub := h request hr hm
    exact ⟨fun _ _ _ => hpub,fun hnot => absurd hpub hnot⟩

/-! ## What a dead subscription receives -/

/-- The string is no rendering at all. -/
def Unpublished (X : Deps) (network : Network) (s : String) : Prop :=
  (∀ script, X.addressString script network.addressParams ≠ some s) ∧
    (∀ txid, X.txidString txid ≠ s) ∧ ∀ v, pairString X v ≠ s

theorem Published.not_unpublished {network : Network} {events : List (Event X)} {s m : String}
    (h : Published network events (.validated s) m) : ¬ Unpublished X network s := by
  rintro ⟨haddress,htxid,hpair⟩
  rcases h.kind with ⟨tx,-,hs,-⟩ | ⟨script,-,-,hs,-⟩ | ⟨v,hs,-⟩
  · exact htxid _ hs.symm
  · exact haddress script hs
  · exact hpair v hs.symm

/-- In every run, a subscription to such a string receives nothing. -/
theorem unpublished_receives_nothing (hX : X.RenderTotal) (network : Network) (txCacheSize : ℕ)
    (events : List (Event X)) :
    ∀ sub ∈ RelayState.subscriptions network txCacheSize events, ∀ s,
      sub.topic = .validated s → Unpublished X network s → ∀ e,
        ¬ (RelayState.run network txCacheSize events).shared.DeliveredThrough sub.sender e := by
  intro sub hsub s hs hdead e he
  obtain ⟨ops,hex⟩ := RelayState.run_explains hX network txCacheSize events
  have hpub := hex.delivered hsub he
  rw [hs] at hpub
  exact hpub.not_unpublished hdead

/-! ## An address that is none -/

def Sample.subscribeTest : JsonRpc := Sample.request "subscribe" "address" (.string "test")

/-- The string is acknowledged and registered, and in no run does a subscription to it receive
anything. -/
theorem unknown_address_acknowledged :
    (∃ w', (processMessage Sample.subscribeTest (some Sample.node) ⟨0,.clientTxClone⟩).run
        Shared.start = .ok (.newSubscribed 1) w' ∧
      ⟨0,.subscription 0⟩ ∈ w'.registry.entryOrDefault (.validated "test")) ∧
    (∀ events, ∀ sub ∈ RelayState.subscriptions (X := Deps.sample) .elementsRegtest 1000 events,
      sub.topic = .validated "test" → ∀ e,
        ¬ (RelayState.run .elementsRegtest 1000 events).shared.DeliveredThrough sub.sender e) ∧
    ¬ NoDeadSubscription Deps.sample .elementsRegtest Sample.subscribeTest := by
  have hr : NexusRequest.tryFrom Deps.sample Sample.subscribeTest =
      .ok ⟨1,.subscribe,.address "test"⟩ := rfl
  have haddress : Sample.address ≠ "test" := by decide +kernel
  have htxid : ∀ tx : Sample.Transaction, tx.txid ≠ "test" := by
    intro tx
    cases tx with
    | coinbase | payment | split => decide +kernel
  have hscript : ∀ script, Deps.sample.addressString script .elements ≠ some "test" := by
    intro script h
    simp only [Deps.sample,Option.ite_none_right_eq_some] at h
    exact haddress (Option.some.inj h.2)
  have hpair : ∀ a b : Bool, Sample.assetString a ++ ":" ++ Sample.assetString b ≠ "test" := by
    decide +kernel
  have hrun := run_processMessage_subscribe start_healthy hr rfl rfl (some Sample.node)
    ⟨0,.clientTxClone⟩
  have hdead : Unpublished Deps.sample .elementsRegtest "test" :=
    ⟨hscript,htxid,fun v => hpair v.1 v.2⟩
  refine ⟨⟨_,hrun,List.mem_singleton_self _⟩,fun events sub hsub ht =>
    unpublished_receives_nothing Deps.sample_renderTotal .elementsRegtest 1000 events sub hsub
      "test" ht hdead,fun h => ?_⟩
  obtain ⟨script,hs⟩ := (h _ hr rfl "test" rfl _ _ _ start_healthy).1 _ _ hrun
  exact hscript script hs

end NexusRelay
