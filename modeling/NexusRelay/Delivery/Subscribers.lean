import NexusRelay.Delivery.Provenance
import NexusRelay.Listener.Notices

/-! # What one subscription receives

The sender cloned for a subscription stands once in the registry, under the topic of the
subscription, for as long as its channel is open. So it receives every publication of that
topic once, in order, and nothing else.
-/
namespace NexusRelay
open Shared PubSub
variable {X : Deps}

/-- The texts delivered through this sender, in order. -/
def Shared.received (w : Shared) (sender : Sender) : List String :=
  textsThrough (fun h => decide (h = sender.handle)) (w.channels sender.chan).log

/-- The sender is registered once, under this topic, and its channel is open. -/
structure Shared.Subscribed (w : Shared) (sender : Sender) (topic : Topic) : Prop where
  rxOpen : (w.channels sender.chan).rxOpen = true
  registered : ∀ t, (w.registry.entryOrDefault t).count sender = if t = topic then 1 else 0

theorem countP_onChannel (sender : Sender) (ss : List Sender) :
    ss.countP (onChannel sender.chan fun h => decide (h = sender.handle)) = ss.count sender := by
  rw [List.count_eq_countP]
  refine List.countP_congr fun s _ => ?_
  rcases s with ⟨c,h⟩
  rcases sender with ⟨d,k⟩
  simp [onChannel]

namespace Shared.Subscribed
variable {w : Shared} {sender : Sender} {topic : Topic}

theorem receivers_count (h : w.Subscribed sender topic) (t : Topic) :
    (w.receivers t).count sender = if t = topic then 1 else 0 := by
  rw [← h.registered t,← countP_onChannel,← countP_onChannel,receivers,
    countP_live_of_open h.rxOpen]

theorem received_published (h : w.Subscribed sender topic) (t : Topic) (m : String) :
    (w.published t m).received sender = w.received sender ++ if t = topic then [m] else [] := by
  rw [received,published_channels,Channels.deliver_log,textsThrough_append,
    textsThrough_deliveries,countP_onChannel,h.receivers_count]
  by_cases ht : t = topic
  · simp [received,ht]
  · simp [received,ht]

theorem published (h : w.Subscribed sender topic) (t : Topic) (m : String) :
    (w.published t m).Subscribed sender topic where
  rxOpen := by
    rw [published_channels]
    exact h.rxOpen
  registered t' := by
    rw [published_registry,TopicRegistry.entryOrDefault_insert]
    by_cases ht : t' = t
    · rw [if_pos ht,h.receivers_count,ht]
    · rw [if_neg ht,h.registered]

/-- A list of notifications delivers those of the topic, in order. -/
theorem received_notices (h : w.Subscribed sender topic) (ns : List Notice) :
    (w.applyAll (ns.map (Notice.publication X))).received sender =
      w.received sender ++ (ns.filter fun n => decide (n.topic = topic)).map (Notice.text X) := by
  induction ns generalizing w with
  | nil => simp
  | cons n rest ih =>
    rw [List.map_cons,applyAll_cons]
    change ((w.published n.topic (n.text X)).applyAll _).received sender = _
    rw [ih (h.published _ _),h.received_published]
    by_cases ht : n.topic = topic
    · simp [ht]
    · simp [ht]

end Shared.Subscribed

/-! ## Acknowledged subscriptions -/

/-- Among the operations, each of these senders subscribed once, to its topic. -/
def SubscribedOnce (subs : List (Subscription X)) (ops : List RegistryOp) : Prop :=
  ∀ sub ∈ subs, ∀ t,
    subscriptions (onChannel sub.sender.chan fun h => decide (h = sub.sender.handle)) t ops =
      if t = sub.topic then 1 else 0

theorem subscriptions_append_of_no_subscribe {p : Sender → Bool} {t : Topic}
    {past ops : List RegistryOp} (h : ∀ t s, Op.subscribe t s ∉ ops) :
    subscriptions p t (past ++ ops) = subscriptions p t past := by
  have hnone : ops.countP (joins p t) = 0 := by
    rw [List.countP_eq_zero]
    intro op hmem
    cases op with
    | subscribe t' s => exact absurd hmem (h t' s)
    | publish | close => simp [joins]
  rw [subscriptions,List.countP_append,hnone]
  rfl

theorem subscriptions_eq_zero {p : Sender → Bool} {t : Topic} {ops : List RegistryOp}
    (h : ∀ t s, Op.subscribe t s ∈ ops → p s = false) : subscriptions p t ops = 0 := by
  rw [subscriptions,List.countP_eq_zero]
  intro op hmem
  cases op with
  | subscribe t' s => simp [joins,h t' s hmem]
  | publish | close => simp [joins]

/-- The sender of an acknowledged subscription is a new one, so it subscribes once. -/
theorem SubscribedOnce.subscribe {network : Network} {events : List (Event X)}
    {subs : List (Subscription X)} {ops : List RegistryOp} {w : Shared}
    (hex : Explains network events subs ops w) (h : SubscribedOnce subs ops) (params : Params X)
    (topic : Topic) (c : ℕ) :
    SubscribedOnce (subs ++ [⟨params,topic,w.nextSender c⟩])
      (ops ++ [.subscribe topic (w.nextSender c)]) := by
  intro sub hmem t
  have hother : ∀ old ∈ subs, old.sender.handle ≠ .subscription w.clones := by
    intro old hold heq
    obtain ⟨n,hn,hhandle⟩ := hex.numbered old hold
    rw [heq] at hhandle
    cases hhandle
    omega
  rw [subscriptions_snoc]
  rcases List.mem_append.mp hmem with hmem | hmem
  · have hne : (w.nextSender c).handle ≠ sub.sender.handle := fun e => hother sub hmem e.symm
    simp [h sub hmem t,joins,onChannel,hne]
  · cases List.mem_singleton.mp hmem
    have hfresh : subscriptions
        (onChannel (w.nextSender c).chan fun h => decide (h = (w.nextSender c).handle)) t ops = 0 := by
      refine subscriptions_eq_zero fun t' s hs => ?_
      obtain ⟨old,hold,-,rfl⟩ := hex.subscribed t' s hs
      have hne : old.sender.handle ≠ (w.nextSender c).handle := hother old hold
      simp [onChannel,hne]
    rw [hfresh]
    by_cases ht : topic = t
    · simp [joins,onChannel,ht]
    · have ht' : t ≠ topic := fun e => ht e.symm
      simp [joins,onChannel,ht,ht']

/-- In every run, an acknowledged subscription of an open client is registered once, under its
topic. -/
theorem RelayState.run_subscribed (hX : X.RenderTotal) (network : Network) (txCacheSize : ℕ)
    (events : List (Event X)) :
    ∀ sub ∈ subscriptions network txCacheSize events,
      ((run network txCacheSize events).shared.channels sub.sender.chan).rxOpen = true →
      (run network txCacheSize events).shared.Subscribed sub.sender sub.topic := by
  have h := run_subscriptions hX network txCacheSize
    (P := fun past subs w => ∃ ops, Explains network past subs ops w ∧ SubscribedOnce subs ops)
    ⟨[],Explains.start network,fun sub hsub => by cases hsub⟩ ?_ ?_ events
  · obtain ⟨ops,hex,honce⟩ := h
    intro sub hsub hopen
    refine ⟨hopen,fun t => ?_⟩
    have hlive := (hex.tracks.rxOpen sub.sender.chan).symm.trans hopen
    rw [← countP_onChannel,hex.tracks.senders _ _ t hlive]
    exact honce sub hsub t
  · rintro past subs w e changes ⟨ops,hex,honce⟩ hpub hsub
    refine ⟨ops ++ w.ops changes,hex.quiet hpub hsub,fun sub hmem t => ?_⟩
    rw [subscriptions_append_of_no_subscribe (ops_of_no_subscribe hsub).1]
    exact honce sub hmem t
  · rintro past subs w e params topic tx str ⟨ops,hex,honce⟩ ht hv
    exact ⟨_,hex.subscribe e ht hv tx str,honce.subscribe hex params topic tx.chan⟩

end NexusRelay
