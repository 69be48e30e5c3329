import NexusRelay.Delivery.Windows

/-! # What stays in the registry

The senders of a client that left are not removed when it leaves. Each stays in the vector of its
topic until the first publication on that topic afterwards, however long that takes, and the
senders of the others stay in the order in which they subscribed.
-/
namespace NexusRelay
open Shared
variable {X : Deps}

/-- The event posts something under the topic. -/
def Service.Posts (network : Network) (n : ℕ) (past : List (Event X)) (e : Event X) (t : Topic) :
    Prop :=
  postedBy t (actions network n (run network n past).announced e) ≠ []

/-- Something was posted under the topic of the subscription after its client left. -/
def Swept (network : Network) (n : ℕ) (sub : Subscription X) (events : List (Event X)) : Prop :=
  ∃ past e later, events = past ++ e :: later ∧ sub ∈ RelayState.subscriptions network n past ∧
    ((RelayState.run network n past).shared.channels sub.sender.chan).rxOpen = false ∧
    Service.Posts network n past e sub.topic

namespace Swept
variable {network : Network} {n : ℕ} {sub : Subscription X} {past : List (Event X)}

theorem subscribed (h : Swept network n sub past) : sub ∈ RelayState.subscriptions network n past := by
  obtain ⟨before,e,later,rfl,hsub,-⟩ := h
  exact RelayState.mem_subscriptions_append hsub _

theorem snoc_iff (e : Event X) : Swept network n sub (past ++ [e]) ↔ Swept network n sub past ∨
    (sub ∈ RelayState.subscriptions network n past ∧
      ((RelayState.run network n past).shared.channels sub.sender.chan).rxOpen = false ∧
      Service.Posts network n past e sub.topic) := by
  constructor
  · rintro ⟨before,e',later,heq,hsub,hclosed,hposts⟩
    rcases List.eq_nil_or_concat' later with rfl | ⟨middle,last,rfl⟩
    · obtain ⟨rfl,hlast⟩ := List.append_inj' heq rfl
      cases hlast
      exact Or.inr ⟨hsub,hclosed,hposts⟩
    · have hsplit : past ++ [e] = (before ++ e' :: middle) ++ [last] := by simpa using heq
      obtain ⟨hpast,-⟩ := List.append_inj' hsplit rfl
      exact Or.inl ⟨before,e',middle,hpast,hsub,hclosed,hposts⟩
  · rintro (⟨before,e',later,rfl,hsub,hclosed,hposts⟩ | ⟨hsub,hclosed,hposts⟩)
    · exact ⟨before,e',later ++ [e],by simp,hsub,hclosed,hposts⟩
    · exact ⟨past,e,[],rfl,hsub,hclosed,hposts⟩

end Swept

/-! ## One event -/

namespace Shared

/-- A publication drops the closed senders of its topic, and no others. -/
theorem receivers_published (w : Shared) (t t' : Topic) (m : String) :
    (w.published t' m).receivers t = w.receivers t := by
  have hlive : ∀ ss, (w.published t' m).channels.live ss = w.channels.live ss := by
    refine fun ss => Channels.live_congr (fun c => ?_) ss
    rw [published_channels]
    rfl
  rw [receivers,hlive,published_registry,TopicRegistry.entryOrDefault_insert]
  split
  · next ht =>
    subst ht
    simp [receivers,Channels.live,List.filter_filter]
  · rfl

theorem receivers_apply (w : Shared) {x : Change} (hsub : ∀ t c, x ≠ .subscribe t c)
    (hclose : ∀ c, x ≠ .close c) (t : Topic) : (w.apply x).receivers t = w.receivers t := by
  have hopen : ∀ c, ((w.apply x).channels c).rxOpen = (w.channels c).rxOpen :=
    fun c => apply_rxOpen w (hclose c)
  cases x with
  | subscribe t' c => exact absurd rfl (hsub t' c)
  | close c => exact absurd rfl (hclose c)
  | publish t' m => exact receivers_published w t t' m
  | take c => exact Channels.live_congr hopen _
  | reply tx text =>
    rw [receivers,apply,replied_registry]
    exact Channels.live_congr hopen _

/-- Changes that close nothing leave a vector alone, or only its open senders. -/
theorem entryOrDefault_applyAll (w : Shared) {xs : List Change}
    (hsub : ∀ t c, Change.subscribe t c ∉ xs) (hclose : ∀ c, Change.close c ∉ xs) (t : Topic) :
    (w.applyAll xs).registry.entryOrDefault t =
      if postedBy t (xs.map Change.action) = [] then w.registry.entryOrDefault t
      else w.receivers t := by
  induction xs generalizing w with
  | nil => rfl
  | cons x rest ih =>
    have hrest := ih (w.apply x) (fun t c hmem => hsub t c (List.mem_cons_of_mem x hmem))
      fun c hmem => hclose c (List.mem_cons_of_mem x hmem)
    have hreceivers := receivers_apply w (fun t c e => hsub t c (e ▸ List.mem_cons_self))
      (fun c e => hclose c (e ▸ List.mem_cons_self)) t
    rw [applyAll_cons,hrest,hreceivers]
    cases x with
    | subscribe t' c => exact absurd List.mem_cons_self (hsub t' c)
    | close c => exact absurd List.mem_cons_self (hclose c)
    | take c => rfl
    | reply tx text =>
      rw [apply,replied_registry]
      rfl
    | publish t' m =>
      rw [apply,published_registry,TopicRegistry.entryOrDefault_insert]
      by_cases ht : t = t'
      · subst ht
        simp [postedBy,postedOn?,Change.action]
      · have ht' : t' ≠ t := fun e => ht e.symm
        simp [postedBy,postedOn?,Change.action,ht,ht']

end Shared

/-! ## Runs -/

/-- The vector of each topic: its order, and which senders are still in it. -/
structure Sweeps (network : Network) (n : ℕ) (past : List (Event X)) (r : TopicRegistry) : Prop where
  ordered : ∀ t, (r.entryOrDefault t).Sublist
    (((RelayState.subscriptions network n past).filter fun sub => decide (sub.topic = t)).map
      Subscription.sender)
  once : ∀ t, (r.entryOrDefault t).Nodup
  kept : ∀ sub ∈ RelayState.subscriptions network n past,
    sub.sender ∈ r.entryOrDefault sub.topic ↔ ¬ Swept network n sub past

namespace Sweeps
variable {network : Network} {n : ℕ} {past : List (Event X)} {w : Shared} {e : Event X}

/-- A new subscription goes to the end of the vector. -/
theorem subscribe (h : Sweeps network n past w.registry) (sub : Subscription X) {tx : Sender}
    {str : String} (hnew : sub.sender = w.nextSender tx.chan)
    (hsubs : RelayState.subscriptions network n (past ++ [e]) =
      RelayState.subscriptions network n past ++ [sub])
    (hfresh : ∀ old ∈ RelayState.subscriptions network n past, old.sender ≠ sub.sender)
    (hquiet : ∀ t, ¬ Service.Posts network n past e t) :
    Sweeps network n (past ++ [e])
      (w.applyAll [.subscribe sub.topic tx.chan,.reply tx str]).registry := by
  have hentry : ∀ t, (w.applyAll [.subscribe sub.topic tx.chan,.reply tx str]).registry.entryOrDefault
      t = w.registry.entryOrDefault t ++ if t = sub.topic then [sub.sender] else [] := by
    intro t
    simp only [applyAll_cons,applyAll_nil,apply,replied_registry,subscribed,TopicRegistry.subscribe,
      TopicRegistry.entryOrDefault_insert,hnew]
    by_cases ht : t = sub.topic
    · simp [ht]
    · simp [ht]
  have hswept : ∀ old, Swept network n old (past ++ [e]) ↔ Swept network n old past := by
    intro old
    rw [Swept.snoc_iff]
    exact or_iff_left fun hposts => hquiet _ hposts.2.2
  have hnotin : ∀ t, sub.sender ∉ w.registry.entryOrDefault t := by
    intro t hmem
    obtain ⟨old,hold,heq⟩ := List.mem_map.mp ((h.ordered t).subset hmem)
    exact hfresh old (List.mem_filter.mp hold).1 heq
  refine ⟨fun t => ?_,fun t => ?_,fun old hold => ?_⟩
  · rw [hentry,hsubs,List.filter_append,List.map_append]
    refine (h.ordered t).append ?_
    by_cases ht : sub.topic = t
    · simp [ht]
    · have ht' : t ≠ sub.topic := fun e => ht e.symm
      simp [ht,ht']
  · rw [hentry]
    refine (h.once t).append ?_ ?_
    · split
      · exact List.nodup_singleton _
      · exact List.nodup_nil
    · intro sender hold hnew
      split at hnew
      · cases List.mem_singleton.mp hnew
        exact hnotin t hold
      · cases hnew
  · rw [hsubs] at hold
    rw [hentry,hswept,List.mem_append]
    rcases List.mem_append.mp hold with hold | hold
    · have hne := hfresh old hold
      rw [← h.kept old hold]
      refine or_iff_left fun hmem => ?_
      split at hmem
      · exact hne (List.mem_singleton.mp hmem)
      · cases hmem
    · cases List.mem_singleton.mp hold
      exact iff_of_true (Or.inr (by simp)) fun hs => hfresh sub hs.subscribed rfl

/-- An event that subscribes nobody sweeps the topics it posts under. -/
theorem sweep (h : Sweeps network n past w.registry) {w' : Shared}
    (hsubs : RelayState.subscriptions network n (past ++ [e]) =
      RelayState.subscriptions network n past)
    (hw : w = (RelayState.run network n past).shared)
    (hposts : ∀ t, Service.Posts network n past e t →
      w'.registry.entryOrDefault t = w.receivers t)
    (hidle : ∀ t, ¬ Service.Posts network n past e t →
      w'.registry.entryOrDefault t = w.registry.entryOrDefault t) :
    Sweeps network n (past ++ [e]) w'.registry := by
  refine ⟨fun t => ?_,fun t => ?_,fun sub hsub => ?_⟩
  · rw [hsubs]
    by_cases ht : Service.Posts network n past e t
    · rw [hposts t ht]
      exact List.filter_sublist.trans (h.ordered t)
    · rw [hidle t ht]
      exact h.ordered t
  · by_cases ht : Service.Posts network n past e t
    · rw [hposts t ht]
      exact (h.once t).filter _
    · rw [hidle t ht]
      exact h.once t
  · rw [hsubs] at hsub
    have hold := h.kept sub hsub
    rw [Swept.snoc_iff,← hw]
    by_cases ht : Service.Posts network n past e sub.topic
    · rw [hposts _ ht,receivers,Channels.live,List.mem_filter,hold]
      simp [hsub,ht,not_or]
    · rw [hidle _ ht,hold]
      simp [ht]

end Sweeps

/-- The changes of an event sweep exactly the topics under which it posts. -/
theorem Causes.sweeps (hX : X.RenderTotal) {network : Network} {seen seen' : BoundedSet String}
    {e : Event X} {changes : List Change} (hc : Causes network seen e changes seen') {n : ℕ}
    (hn : 0 < n) {past : List (Event X)} (hseen : seen.Holds n (Service.run network n past).announced)
    (hsub : ∀ t c, Change.subscribe t c ∉ changes) (w : Shared) (t : Topic) :
    (Service.Posts network n past e t →
      (w.applyAll changes).registry.entryOrDefault t = w.receivers t) ∧
    (¬ Service.Posts network n past e t →
      (w.applyAll changes).registry.entryOrDefault t = w.registry.entryOrDefault t) := by
  have hactions := (hc.actions hX hn hseen).1
  rw [Service.Posts,← hactions]
  cases e with
  | close d =>
    cases hc
    exact ⟨fun hposts => absurd rfl hposts,fun _ => rfl⟩
  | frame | zmq | recv =>
    rw [entryOrDefault_applyAll w hsub fun c => hc.keepsOpen rfl]
    exact ⟨fun hposts => if_neg hposts,fun hidle => if_pos (not_not.mp hidle)⟩

/-- In every run the vector of a topic holds the senders of the subscriptions to it that were
acknowledged, in their order and each once, but for those whose client had left when something was
posted under the topic. So a client that leaves keeps its senders in the registry exactly until
the next publication on each of its topics. -/
theorem registry_keeps_until_posted (hX : X.RenderTotal) (network : Network) {n : ℕ} (hn : 0 < n)
    (events : List (Event X)) :
    Sweeps network n events (RelayState.run network n events).shared.registry := by
  refine (RelayState.run_invariant network n hX
    (P := fun past s => Sweeps network n past s.shared.registry) ⟨?_,?_,?_⟩ ?_ events).2
  · intro t
    exact List.nil_sublist _
  · intro t
    exact List.nodup_nil
  · intro sub hsub
    cases hsub
  · rintro past s e changes seen' rfl hw hsweeps hc -
    have hseen := (RelayState.run_shows hX network hn past).2
    have hsubs : RelayState.subscriptions network n (past ++ [e]) =
        RelayState.subscriptions network n past ++ e.acknowledged (RelayState.run network n past) :=
      History.collect_snoc _ _ _ past e
    rcases hc.subscribed hw with ⟨params,topic,tx,str,-,-,rfl,hack⟩ | ⟨hsub,hack⟩
    · have hactions := (hc.actions hX hn hseen).1
      rw [hack] at hsubs
      refine hsweeps.subscribe ⟨params,topic,_⟩ rfl hsubs ?_ ?_
      · intro old hold heq
        obtain ⟨ops,hex⟩ := RelayState.run_explains hX network n past
        obtain ⟨k,hk,hhandle⟩ := hex.numbered old hold
        rw [heq] at hhandle
        cases hhandle
        omega
      · intro t hposts
        rw [Service.Posts,← hactions] at hposts
        exact hposts rfl
    · rw [hack,List.append_nil] at hsubs
      exact hsweeps.sweep hsubs rfl (fun t => (hc.sweeps hX hn hseen hsub _ t).1)
        fun t => (hc.sweeps hX hn hseen hsub _ t).2

/-- The client has left, and its sender is dropped when its address is paid. -/
theorem watched_swept :
    Sweeps .elementsRegtest 1000 [Sample.watch,.close 0]
      (RelayState.run .elementsRegtest 1000 [Sample.watch,.close 0]).shared.registry ∧
    (RelayState.run .elementsRegtest 1000 [Sample.watch,.close 0]).shared.registry.entryOrDefault
      (.validated Sample.address) = [⟨0,.subscription 0⟩] ∧
    (RelayState.run .elementsRegtest 1000
      [Sample.watch,.close 0,.zmq [rawtx,Sample.txBytes]]).shared.registry.entryOrDefault
      (.validated Sample.address) = [] :=
  ⟨registry_keeps_until_posted Deps.sample_renderTotal .elementsRegtest (n := 1000) (by decide)
    [Sample.watch,.close 0],by decide +kernel,by decide +kernel⟩

end NexusRelay
