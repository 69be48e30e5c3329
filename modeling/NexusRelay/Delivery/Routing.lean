import NexusRelay.Delivery.Kinds
import NexusRelay.Delivery.Subscribers
import NexusRelay.Model.JsonText

/-! # Proposals and the pairs they trade

A pair is one string, made by two functions. Asset ids have no separator, so the string of a
proposal is the topic of one pair only, and no txid and no address is one.
-/
namespace NexusRelay
open Shared
variable {X : Deps}

/-! ## Subscriptions that a publication passes by -/

/-- The client is gone, or the sender is registered once, under this topic. -/
def Shared.Subscriber (w : Shared) (sender : Sender) (topic : Topic) : Prop :=
  (w.channels sender.chan).rxOpen = true → w.Subscribed sender topic

namespace Shared.Subscriber
variable {w : Shared} {sender : Sender} {topic : Topic}

theorem published (h : w.Subscriber sender topic) (t : Topic) (m : String) :
    (w.published t m).Subscriber sender topic := by
  intro hopen
  rw [published_channels] at hopen
  exact (h hopen).published t m

theorem received_published_ne (h : w.Subscriber sender topic) {t : Topic} (ht : t ≠ topic)
    (m : String) : (w.published t m).received sender = w.received sender := by
  cases hopen : (w.channels sender.chan).rxOpen with
  | true => rw [(h hopen).received_published,if_neg ht,List.append_nil]
  | false =>
    rw [received,published_channels,Channels.deliver_log,textsThrough_append,
      textsThrough_deliveries,receivers,countP_live_of_closed hopen]
    exact List.append_nil _

theorem received_publishes (h : w.Subscriber sender topic) {changes : List Change}
    (hne : ∀ x ∈ changes, ∃ t m, x = .publish t m ∧ t ≠ topic) :
    (w.applyAll changes).received sender = w.received sender := by
  induction changes generalizing w with
  | nil => rfl
  | cons x rest ih =>
    obtain ⟨t,m,rfl,ht⟩ := hne _ (List.mem_cons_self)
    rw [applyAll_cons,apply,ih (h.published t m) fun x hx => hne x (List.mem_cons_of_mem _ hx),
      h.received_published_ne ht]

end Shared.Subscriber

/-- A message makes publications only. -/
theorem Observed.publishes {network : Network} {msg : List Bytes} {seen seen' : BoundedSet String}
    {result : Fallible (Error X) Unit} {changes : List Change}
    (h : Observed network msg seen result changes seen') :
    ∀ x ∈ changes, ∃ t m, x = .publish t m := by
  have hnotices : ∀ place (tx : X.Transaction), ∀ x ∈ notices X network place tx,
      ∃ t m, x = .publish t m := by
    intro place tx x hx
    rw [notices,List.mem_cons,List.mem_map] at hx
    rcases hx with rfl | ⟨a,-,rfl⟩
    · exact ⟨_,_,rfl⟩
    · exact ⟨_,_,rfl⟩
  cases h with
  | mempool => exact hnotices _ _
  | block =>
    intro x hx
    obtain ⟨tx,-,hx⟩ := List.mem_flatMap.mp hx
    exact hnotices _ tx x hx
  | missing | known | badTx | badBlock | unknown => simp

/-! ## The topic of a pair -/

theorem pair_topic_iff (hids : X.IdsAreHex) (pair : Pair) (v : X.Validated) :
    Topic.validated (pairString X v) = pair.topic ↔
      X.assetString (X.inputAsset v) = pair.input ∧
        X.assetString (X.outputAsset v) = pair.output := by
  constructor
  · intro h
    injection h with h
    exact pair_injective (hids.2 _).no_colon (hids.2 _).no_colon h
  · rintro ⟨h1,h2⟩
    rw [pairString,h1,h2]
    rfl

/-- What a message publishes has no separator in its topic. -/
theorem zmq_topic_ne_pair (hids : X.IdsAreHex) (haddr : X.AddressesHaveNoColon) {network : Network}
    {msg : List Bytes} {t : Topic} {m : String} (h : Published (X := X) network [.zmq msg] t m)
    (pair : Pair) : t ≠ pair.topic := by
  have hcolon := colon_mem_pair pair.input pair.output
  intro ht
  cases h with
  | tx he hd =>
    injection ht with hs
    rw [← hs] at hcolon
    exact (hids.1 _).no_colon hcolon
  | address he hd ha =>
    injection ht with hs
    obtain ⟨script,hscript⟩ := mem_getOutputAddresses ha
    rw [← hs] at hcolon
    exact haddr _ _ _ hscript hcolon
  | proposal he hr | any he hr =>
    cases List.mem_singleton.mp he
    obtain ⟨tx,text,j,heq,-⟩ := hr
    cases heq

theorem RelayState.run_pairSubscriber (hX : X.RenderTotal) (network : Network) (txCacheSize : ℕ)
    (events : List (Event X)) {sub : Subscription X}
    (hsub : sub ∈ subscriptions network txCacheSize events) {pair : Pair}
    (hpair : sub.params = .pair pair) :
    (run network txCacheSize events).shared.Subscriber sub.sender pair.topic := by
  obtain ⟨ops,hex⟩ := run_explains hX network txCacheSize events
  have ht := (hex.topics sub hsub).1
  rw [hpair] at ht
  have htopic : sub.topic = pair.topic := (Except.ok.inj ht).symm
  intro hopen
  have hs := run_subscribed hX network txCacheSize events sub hsub hopen
  rwa [htopic] at hs

/-- No message of the listener delivers anything through a subscription to a pair. -/
theorem RelayState.zmq_passes_pair (hX : X.RenderTotal) (hids : X.IdsAreHex)
    (haddr : X.AddressesHaveNoColon) (network : Network) {s : RelayState} (hw : s.shared.Healthy)
    {sender : Sender} {pair : Pair} (hs : s.shared.Subscriber sender pair.topic)
    (msg : List Bytes) :
    (s.step network (.zmq msg : Event X)).shared.received sender = s.shared.received sender := by
  obtain ⟨changes,seen',hc,hnow⟩ := step_caused hX network hw (.zmq msg)
  rw [hnow]
  refine hs.received_publishes fun x hx => ?_
  cases hc with
  | zmq ho =>
    obtain ⟨t,m,rfl⟩ := ho.publishes x hx
    exact ⟨t,m,rfl,zmq_topic_ne_pair hids haddr ((Causes.zmq ho).published hx) pair⟩

/-- In every run and for every acknowledged pair subscription: a proposal that is published is
delivered through it, once, exactly when it trades the pair in this direction, if the client is
still there; and no message of the listener delivers anything through it. -/
theorem proposals_reach_their_pair (hX : X.RenderTotal) (hids : X.IdsAreHex)
    (haddr : X.AddressesHaveNoColon) (network : Network) (txCacheSize : ℕ)
    (events : List (Event X)) :
    ∀ sub ∈ RelayState.subscriptions network txCacheSize events, ∀ pair,
      sub.params = .pair pair →
      (((RelayState.run network txCacheSize events).shared.channels sub.sender.chan).rxOpen = true →
        ∀ (proposal : X.Unvalidated) (client : Option (Node X)) (id : UInt32) response w',
          (processPublishProposal proposal client id).run
              (RelayState.run network txCacheSize events).shared = .ok response w' →
          ∃ v text, Validates proposal client v ∧ proposalText v = some text ∧
            w'.received sub.sender =
              (RelayState.run network txCacheSize events).shared.received sub.sender ++
                if X.assetString (X.inputAsset v) = pair.input ∧
                  X.assetString (X.outputAsset v) = pair.output then [text] else []) ∧
      ∀ msg, (RelayState.run network txCacheSize (events ++ [.zmq msg])).shared.received sub.sender =
        (RelayState.run network txCacheSize events).shared.received sub.sender := by
  intro sub hsub pair hpair
  have hw := RelayState.run_healthy network txCacheSize hX events
  have hsubscriber := RelayState.run_pairSubscriber hX network txCacheSize events hsub hpair
  constructor
  · intro hopen proposal client id response w' hrun
    rw [run_processPublishProposal hw] at hrun
    cases hv : validateProposal proposal client with
    | error f => simp [hv] at hrun
    | ok v =>
      cases ht : proposalText v with
      | none => simp [hv,ht] at hrun
      | some text =>
        simp only [hv,ht] at hrun
        cases hrun
        refine ⟨v,text,validateProposal_eq_ok.mp hv,ht,?_⟩
        rw [(hsubscriber hopen).received_published]
        simp only [pair_topic_iff hids]
  · intro msg
    rw [RelayState.run_snoc]
    exact RelayState.zmq_passes_pair hX hids haddr network hw hsubscriber msg

/-! ## A pair that is traded -/

def Sample.pair : Pair := ⟨Sample.inputAsset,Sample.outputAsset⟩

def Sample.subscribePair : JsonRpc :=
  Sample.request "subscribe" "pair"
    (.object [("input",.string Sample.inputAsset),("output",.string Sample.outputAsset)])

/-- Client 0 subscribes to the pair. -/
def Sample.pairRun : List (Event Deps.text) :=
  [.frame ⟨0,.clientTxClone⟩ (Sample.print Sample.subscribePair) Sample.textNode]

theorem Sample.subscribePair_parses :
    Deps.text.parse (Sample.print Sample.subscribePair) = some Sample.subscribePair := by
  have hkeys : "input" < "output" := by decide
  obtain ⟨text,hrender,hparse⟩ := Deps.text_requestsReadBack 1 "subscribe" "pair" _
    (isI64_of_uint32 1) (wellFormed_two hkeys Sample.inputAsset Sample.outputAsset)
  cases hrender
  exact hparse

def Sample.pairSubscription : Subscription Deps.text :=
  ⟨.pair Sample.pair,Sample.pair.topic,⟨0,.subscription 0⟩⟩

theorem Sample.pair_acknowledged :
    RelayState.subscriptions .elementsRegtest 1000 Sample.pairRun = [Sample.pairSubscription] := by
  have hrequest : NexusRequest.tryFrom Deps.text Sample.subscribePair =
      .ok ⟨1,.subscribe,.pair Sample.pair⟩ := rfl
  have hack : (Event.frame ⟨0,.clientTxClone⟩ (Sample.print Sample.subscribePair)
      Sample.textNode).acknowledged (.start 1000) = [Sample.pairSubscription] :=
    Event.acknowledged_subscribe start_healthy Sample.subscribePair_parses hrequest rfl rfl
  rw [RelayState.subscriptions,Sample.pairRun,History.collect,hack]
  rfl

theorem Sample.pair_open : ((RelayState.run .elementsRegtest 1000 Sample.pairRun).shared.channels
    Sample.pairSubscription.sender.chan).rxOpen = true := by
  rw [RelayState.run,Sample.pairRun,List.foldl_cons,List.foldl_nil]
  exact RelayState.step_frame_rxOpen Deps.text_renderTotal .elementsRegtest start_healthy _ _ _ _

def Sample.assetsText : Deps.text.Unvalidated := Sample.assets

theorem pair_receives_its_proposal :
    let w := (RelayState.run .elementsRegtest 1000 Sample.pairRun).shared
    ∃ response w' text, (processPublishProposal Sample.assetsText none 2).run w =
        .ok response w' ∧
      w'.received Sample.pairSubscription.sender =
        w.received Sample.pairSubscription.sender ++ [text] := by
  intro w
  have hmem : Sample.pairSubscription ∈
      RelayState.subscriptions .elementsRegtest 1000 Sample.pairRun := by
    rw [Sample.pair_acknowledged]
    exact List.mem_singleton_self _
  have hw : w.Healthy :=
    RelayState.run_healthy .elementsRegtest 1000 Deps.text_renderTotal Sample.pairRun
  have hrun := run_processPublishProposal hw Sample.assetsText none 2
  have hrouted := (proposals_reach_their_pair Deps.text_renderTotal Deps.text_idsAreHex
    Deps.text_addressesHaveNoColon .elementsRegtest 1000 Sample.pairRun Sample.pairSubscription
    hmem Sample.pair rfl).1 Sample.pair_open Sample.assetsText none 2 _ _ hrun
  obtain ⟨v,text,hv,-,hnew⟩ := hrouted
  cases hv
  exact ⟨_,_,text,hrun,hnew⟩

end NexusRelay
