import NexusRelay.Delivery.Lag
import NexusRelay.Delivery.Refinement
import NexusRelay.Delivery.Subscribers

/-! # What a subscription receives is a window of its topic

All that is ever posted under a topic, by whatever client or by the listener, in the order of the
run: a subscription receives the part from its acknowledgement to the end of its channel, each
text once and none of another topic.
-/
namespace NexusRelay
open Shared
variable {X : Deps}

def postedOn? (t : Topic) : ServiceAction → Option String
  | .post t' m => if t' = t then some m else none
  | _ => none

def postedBy (t : Topic) (actions : List ServiceAction) : List String :=
  actions.filterMap (postedOn? t)

/-- Everything posted under a topic in a run of the service. -/
def Service.posted (network : Network) (n : ℕ) (t : Topic) (events : List (Event X)) : List String :=
  History.collect (step network n) (fun s e => postedBy t (actions network n s.announced e)) start events

theorem Service.posted_snoc (network : Network) (n : ℕ) (t : Topic) (events : List (Event X))
    (e : Event X) : posted network n t (events ++ [e]) = posted network n t events ++
      postedBy t (actions network n (run network n events).announced e) :=
  History.collect_snoc _ _ _ events e

def Event.closes (c : ℕ) : Event X → Bool
  | .close d => decide (d = c)
  | _ => false

/-- The events before the receiver of channel `c` is dropped. -/
def untilClosed (c : ℕ) (events : List (Event X)) : List (Event X) :=
  events.takeWhile fun e => !e.closes c

/-! ## One change -/

namespace Shared
variable {w : Shared} {sender : Sender} {topic : Topic}

theorem received_of_log {w' : Shared} {more : List Entry}
    (h : (w'.channels sender.chan).log = (w.channels sender.chan).log ++ more)
    (hmore : ∀ e ∈ more, e.origin = .reply) : w'.received sender = w.received sender := by
  have hnone : textsThrough (fun h => decide (h = sender.handle)) more = [] := by
    rw [textsThrough,List.map_eq_nil_iff,List.filter_eq_nil_iff]
    intro e he
    simp [Entry.through,hmore e he]
  rw [received,received,h,textsThrough_append,hnone,List.append_nil]

/-- A change that publishes nothing delivers nothing. -/
theorem received_apply_quiet (w : Shared) (sender : Sender) {x : Change}
    (hx : ∀ t m, x ≠ .publish t m) : (w.apply x).received sender = w.received sender := by
  refine received_of_log (apply_log w x sender.chan) fun e he => ?_
  rcases mem_added he with ⟨t,k,hpub,-⟩ | ⟨tx,-,-,ho⟩
  · exact absurd hpub (hx t e.text)
  · exact ho

theorem Subscribed.apply (h : w.Subscribed sender topic) {x : Change}
    (hsub : ∀ t c, x ≠ .subscribe t c) (hclose : x ≠ .close sender.chan) :
    (w.apply x).Subscribed sender topic ∧
      (w.apply x).received sender = w.received sender ++ postedBy topic [x.action] := by
  have hopen := (apply_rxOpen w hclose).trans h.rxOpen
  cases x with
  | subscribe t c => exact absurd rfl (hsub t c)
  | publish t m =>
    refine ⟨h.published t m,?_⟩
    rw [Shared.apply,h.received_published]
    by_cases ht : t = topic
    · simp [postedBy,postedOn?,Change.action,ht]
    · simp [postedBy,postedOn?,Change.action,ht]
  | reply tx text =>
    have hquiet := received_apply_quiet w sender (x := .reply tx text) (by simp)
    have hregistry := w.replied_registry tx text
    refine ⟨⟨hopen,fun t => ?_⟩,hquiet.trans (List.append_nil _).symm⟩
    rw [Shared.apply,hregistry]
    exact h.registered t
  | take c =>
    have hquiet := received_apply_quiet w sender (x := .take c) (by simp)
    exact ⟨⟨hopen,h.registered⟩,hquiet.trans (List.append_nil _).symm⟩
  | close c =>
    have hquiet := received_apply_quiet w sender (x := .close c) (by simp)
    exact ⟨⟨hopen,h.registered⟩,hquiet.trans (List.append_nil _).symm⟩

theorem Subscribed.received_applyAll (h : w.Subscribed sender topic) {xs : List Change}
    (hsub : ∀ t c, Change.subscribe t c ∉ xs) (hclose : Change.close sender.chan ∉ xs) :
    (w.applyAll xs).received sender =
      w.received sender ++ postedBy topic (xs.map Change.action) := by
  induction xs generalizing w with
  | nil => exact (List.append_nil _).symm
  | cons x rest ih =>
    obtain ⟨hnext,hreceived⟩ := h.apply (x := x) (fun t c e => hsub t c (e ▸ List.mem_cons_self))
      fun e => hclose (e ▸ List.mem_cons_self)
    have hrest := ih hnext (fun t c hmem => hsub t c (List.mem_cons_of_mem x hmem))
      fun hmem => hclose (List.mem_cons_of_mem x hmem)
    rw [applyAll_cons,hrest,hreceived,List.append_assoc]
    congr 1
    exact (List.filterMap_append (l := [x.action])).symm

end Shared

/-! ## One event -/

/-- Only the drop of its receiver closes a channel. -/
theorem Causes.keepsOpen {network : Network} {seen seen' : BoundedSet String} {e : Event X}
    {changes : List Change} (h : Causes network seen e changes seen') {c : ℕ}
    (he : e.closes c = false) : Change.close c ∉ changes := by
  cases h with
  | @answered tx text str node reply changes ha hs =>
    exact (ha.forwardsNothing.reply tx str).close c
  | panicked hp hf => exact List.not_mem_nil
  | zmq ho => exact ho.forwardsNothing.close c
  | recv d => simp
  | close d =>
    have hd : d ≠ c := of_decide_eq_false he
    simpa using fun e : c = d => hd e.symm

namespace RelayState
variable {network : Network} {n : ℕ}

theorem mem_subscriptions_append {past : List (Event X)} {sub : Subscription X}
    (h : sub ∈ subscriptions network n past) (later : List (Event X)) :
    sub ∈ subscriptions network n (past ++ later) := by
  rw [subscriptions,History.collect_append]
  exact List.mem_append_left _ h

/-- While its channel is open, an event delivers to a subscription what it posts under the topic. -/
theorem received_snoc (hX : X.RenderTotal) (hn : 0 < n) {past : List (Event X)}
    {sub : Subscription X} (hsub : sub ∈ subscriptions network n past)
    (hopen : ((run network n past).shared.channels sub.sender.chan).rxOpen = true) {e : Event X}
    (he : e.closes sub.sender.chan = false) :
    ((run network n (past ++ [e])).shared.channels sub.sender.chan).rxOpen = true ∧
      (run network n (past ++ [e])).shared.received sub.sender =
        (run network n past).shared.received sub.sender ++
          postedBy sub.topic (Service.actions network n (Service.run network n past).announced e) := by
  have hw := run_healthy network n hX past
  obtain ⟨changes,seen',hc,hs⟩ := step_caused hX network hw e
  have hkept := hc.keepsOpen he
  rw [run_snoc,hs,← (hc.actions hX hn (run_shows hX network hn past).2).1]
  refine ⟨(applyAll_rxOpen _ hkept).trans hopen,?_⟩
  rcases hc.subscribed hw with ⟨params,topic,tx,str,-,-,rfl,-⟩ | ⟨hnone,-⟩
  · have hreply := received_apply_quiet ((run network n past).shared.apply (.subscribe topic tx.chan))
      sub.sender (x := .reply tx str) (by simp)
    have hsubscribe := received_apply_quiet (run network n past).shared sub.sender
      (x := .subscribe topic tx.chan) (by simp)
    exact (hreply.trans hsubscribe).trans (List.append_nil _).symm
  · exact (run_subscribed hX network n past sub hsub hopen).received_applyAll hnone hkept

/-- Nothing is delivered through a closed channel. -/
theorem received_closed (hX : X.RenderTotal) {past : List (Event X)} {sender : Sender}
    (hclosed : ((run network n past).shared.channels sender.chan).rxOpen = false)
    (later : List (Event X)) : (run network n (past ++ later)).shared.received sender =
      (run network n past).shared.received sender := by
  have hext : Extends (run network n past).shared (run network n (past ++ later)).shared := by
    induction later using List.reverseRecOn with
    | nil =>
      rw [List.append_nil]
      exact Extends.refl _
    | append_singleton more e ih =>
      rw [← List.append_assoc,run_snoc]
      exact ih.trans (step_extends hX network (run_healthy network n hX _) e)
  rw [received,received,((hext sender.chan).2 hclosed).2]

/-- What a subscription receives after its acknowledgement while nobody drops its receiver. -/
theorem received_while_open (hX : X.RenderTotal) (hn : 0 < n) {past : List (Event X)}
    {sub : Subscription X} (hsub : sub ∈ subscriptions network n past)
    (hopen : ((run network n past).shared.channels sub.sender.chan).rxOpen = true)
    (hnew : (run network n past).shared.received sub.sender = []) (later : List (Event X))
    (hlater : ∀ e ∈ later, e.closes sub.sender.chan = false) :
    ((run network n (past ++ later)).shared.channels sub.sender.chan).rxOpen = true ∧
      Service.posted network n sub.topic (past ++ later) =
        Service.posted network n sub.topic past ++
          (run network n (past ++ later)).shared.received sub.sender := by
  induction later using List.reverseRecOn with
  | nil =>
    rw [List.append_nil,hnew,List.append_nil]
    exact ⟨hopen,rfl⟩
  | append_singleton more e ih =>
    obtain ⟨hstill,hposted⟩ := ih fun e he => hlater e (List.mem_append_left _ he)
    obtain ⟨hopen',hreceived⟩ := received_snoc hX hn (mem_subscriptions_append hsub more) hstill
      (hlater e (List.mem_append_right _ (List.mem_singleton_self e)))
    rw [← List.append_assoc]
    refine ⟨hopen',?_⟩
    rw [Service.posted_snoc,hposted,hreceived,List.append_assoc]

/-- The subscription of an acknowledgement has received nothing yet. -/
theorem acknowledged_fresh (hX : X.RenderTotal) {past : List (Event X)} {e : Event X}
    {sub : Subscription X} (hack : sub ∈ e.acknowledged (run network n past))
    (hopen : ((run network n past).shared.channels sub.sender.chan).rxOpen = true) :
    sub ∈ subscriptions network n (past ++ [e]) ∧
      ((run network n (past ++ [e])).shared.channels sub.sender.chan).rxOpen = true ∧
      (run network n (past ++ [e])).shared.received sub.sender = [] := by
  have hw := run_healthy network n hX past
  refine ⟨?_,?_⟩
  · rw [subscriptions,History.collect_snoc]
    exact List.mem_append_right _ hack
  · obtain ⟨changes,seen',hc,hs⟩ := step_caused hX network hw e
    rw [run_snoc,hs]
    rcases hc.subscribed hw with ⟨params,topic,tx,str,-,-,rfl,hnew⟩ | ⟨-,hnone⟩
    · rw [hnew] at hack
      cases List.mem_singleton.mp hack
      refine ⟨(applyAll_rxOpen _ (by simp)).trans hopen,?_⟩
      have hreply := received_apply_quiet
        ((run network n past).shared.apply (.subscribe topic tx.chan))
        ((run network n past).shared.nextSender tx.chan) (x := .reply tx str) (by simp)
      have hsubscribe := received_apply_quiet (run network n past).shared
        ((run network n past).shared.nextSender tx.chan) (x := .subscribe topic tx.chan) (by simp)
      refine (hreply.trans hsubscribe).trans ?_
      rw [received,textsThrough,List.map_eq_nil_iff,List.filter_eq_nil_iff]
      intro entry hentry
      have hfresh := run_fresh hX network n past tx.chan entry hentry
      cases ho : entry.origin with
      | reply => simp [Entry.through,ho]
      | delivery t h =>
        have hne : h ≠ ((run network n past).shared.nextSender tx.chan).handle :=
          fun heq => hfresh t (heq ▸ ho)
        simp [Entry.through,ho,hne]
    · rw [hnone] at hack
      cases hack

/-- The drop of its receiver ends what a subscription receives. -/
theorem received_close (hX : X.RenderTotal) (past rest : List (Event X)) (sender : Sender) :
    (run network n (past ++ .close sender.chan :: rest)).shared.received sender =
      (run network n past).shared.received sender := by
  have hstep := run_snoc network n past (.close sender.chan : Event X)
  have hclosed : ((run network n (past ++ [.close sender.chan])).shared.channels
      sender.chan).rxOpen = false := by
    rw [hstep]
    simp [step,Channels.close]
  have hsame : (run network n (past ++ [.close sender.chan])).shared.received sender =
      (run network n past).shared.received sender := by
    rw [hstep]
    exact received_apply_quiet _ sender (x := .close sender.chan) (by simp)
  have hsplit : past ++ .close sender.chan :: rest = past ++ [.close sender.chan] ++ rest := by simp
  rw [hsplit,received_closed hX hclosed,hsame]

end RelayState

theorem untilClosed_cases (c : ℕ) (events : List (Event X)) :
    (∀ e ∈ untilClosed c events, e.closes c = false) ∧
      (events = untilClosed c events ∨ ∃ rest, events = untilClosed c events ++ .close c :: rest) := by
  constructor
  · intro e he
    have hkept := List.mem_takeWhile_imp he
    simpa using hkept
  · have hsplit := List.takeWhile_append_dropWhile (p := fun e : Event X => !e.closes c) (l := events)
    cases hrest : events.dropWhile fun e : Event X => !e.closes c with
    | nil =>
      rw [hrest,List.append_nil] at hsplit
      exact Or.inl hsplit.symm
    | cons e rest =>
      have hcloses : e.closes c = true := by
        have hhead := List.head_dropWhile_not (fun e : Event X => !e.closes c)
          (by rw [hrest]; exact List.cons_ne_nil e rest)
        simpa [hrest] using hhead
      cases e with
      | close d =>
        rw [of_decide_eq_true hcloses] at hrest
        rw [hrest] at hsplit
        exact Or.inr ⟨rest,hsplit.symm⟩
      | frame | zmq | recv => cases hcloses

/-- In every run, a subscription that is acknowledged while its client is there receives exactly
what is posted under its topic from then on until the receiver of its channel is dropped, each
text once and in the order of the run. -/
theorem subscription_receives_window (hX : X.RenderTotal) (network : Network) {n : ℕ} (hn : 0 < n)
    (past later : List (Event X)) (e : Event X) :
    ∀ sub ∈ e.acknowledged (RelayState.run network n past),
      ((RelayState.run network n past).shared.channels sub.sender.chan).rxOpen = true →
      Service.posted network n sub.topic (past ++ e :: untilClosed sub.sender.chan later) =
        Service.posted network n sub.topic (past ++ [e]) ++
          (RelayState.run network n (past ++ e :: later)).shared.received sub.sender := by
  intro sub hack hopen
  obtain ⟨hsub,hopen',hnew⟩ := RelayState.acknowledged_fresh hX hack hopen
  obtain ⟨hkept,hcases⟩ := untilClosed_cases sub.sender.chan later
  have hwindow := (RelayState.received_while_open hX hn hsub hopen' hnew _ hkept).2
  have hmore : ∀ xs : List (Event X), past ++ [e] ++ xs = past ++ e :: xs :=
    fun xs => by rw [List.append_assoc]; rfl
  rw [hmore] at hwindow
  rw [hwindow]
  congr 1
  rcases hcases with hall | ⟨rest,hall⟩
  · rw [← hall]
  · have hclosed := @RelayState.received_close X network n hX
      (past ++ e :: untilClosed sub.sender.chan later) rest sub.sender
    rw [List.append_assoc,List.cons_append,← hall] at hclosed
    exact hclosed.symm

/-! ## A subscription that is closed between two publications -/

def Sample.watch : Event Deps.sample := Sample.addressFrame Sample.address

/-- The payment enters the mempool, the client leaves, and a block confirms the payment. -/
def Sample.watched : List (Event Deps.sample) :=
  [.zmq [rawtx,Sample.txBytes],.close 0,.zmq [rawblock,Sample.blockBytes]]

/-- Four texts are posted for the address, and the client receives the one before it leaves. -/
theorem watched_window :
    Service.posted .elementsRegtest 1000 (.validated Sample.address)
        (Sample.watch :: untilClosed 0 Sample.watched) =
      Service.posted .elementsRegtest 1000 (.validated Sample.address) [Sample.watch] ++
        (RelayState.run .elementsRegtest 1000 (Sample.watch :: Sample.watched)).shared.received
          ⟨0,.subscription 0⟩ ∧
    ((RelayState.run .elementsRegtest 1000 (Sample.watch :: Sample.watched)).shared.received
      ⟨0,.subscription 0⟩).length = 1 ∧
    (Service.posted .elementsRegtest 1000 (.validated Sample.address)
      (Sample.watch :: Sample.watched)).length = 4 := by
  have hrequest : NexusRequest.tryFrom Deps.sample
      (Sample.request "subscribe" "address" (.string Sample.address)) =
      .ok ⟨1,.subscribe,.address Sample.address⟩ := rfl
  have hack : Sample.addressSubscription Sample.address ∈
      Sample.watch.acknowledged
        (RelayState.run .elementsRegtest 1000 ([] : List (Event Deps.sample))) := by
    rw [Sample.watch,Sample.addressFrame,
      Event.acknowledged_subscribe start_healthy rfl hrequest rfl rfl]
    exact List.mem_singleton_self _
  exact ⟨subscription_receives_window Deps.sample_renderTotal .elementsRegtest (n := 1000)
    (by decide) [] Sample.watched Sample.watch _ hack rfl,by decide +kernel,by decide +kernel⟩

end NexusRelay
