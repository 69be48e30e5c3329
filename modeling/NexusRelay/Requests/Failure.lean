import NexusRelay.Model.Relay
import NexusRelay.Requests.Publishing

/-! # Failed requests leave no trace

A run with failed requests is compared with the run of the same events without them. The
two differ in the channels of the clients that made the failed requests, and there in the
replies only.
-/
namespace NexusRelay
open Shared
variable {X : Deps}

def publicationsIn (ch : Channel) : List Entry := ch.log.filter fun e => decide (e.origin ≠ .reply)

/-- Two shared states that differ at most in the channels in `bad`, and there neither in what
was published nor in being open. -/
structure SameBut (bad : List ℕ) (w w' : Shared) : Prop where
  registry : w.registry = w'.registry
  mutex : w.mutex = w'.mutex
  clones : w.clones = w'.clones
  rxOpen : ∀ c, (w.channels c).rxOpen = (w'.channels c).rxOpen
  publications : ∀ c, publicationsIn (w.channels c) = publicationsIn (w'.channels c)
  channels : ∀ c, c ∉ bad → w.channels c = w'.channels c

namespace SameBut
variable {bad : List ℕ} {w w' : Shared}

theorem refl (bad : List ℕ) (w : Shared) : SameBut bad w w :=
  ⟨rfl,rfl,rfl,fun _ => rfl,fun _ => rfl,fun _ _ => rfl⟩

theorem mono (h : SameBut bad w w') {worse : List ℕ} (hsub : bad ⊆ worse) :
    SameBut worse w w' :=
  { h with channels := fun c hc => h.channels c fun hmem => hc (hsub hmem) }

theorem healthy (h : SameBut bad w w') (hw : w.Healthy) : w'.Healthy := h.mutex.symm.trans hw

theorem receivers (h : SameBut bad w w') (t : Topic) : w.receivers t = w'.receivers t := by
  unfold Shared.receivers
  rw [h.registry]
  exact Channels.live_congr h.rxOpen _

theorem publicationsIn_put_reply (ch : Channel) (text : String) :
    publicationsIn (ch.put ⟨text,.reply⟩) = publicationsIn ch := by
  simp [publicationsIn,Channel.put]

theorem reply (h : SameBut bad w w') (tx : Sender) (text : String) :
    SameBut bad (w.replied tx text) (w'.replied tx text) := by
  unfold replied
  rw [h.rxOpen tx.chan]
  split
  · refine ⟨h.registry,h.mutex,h.clones,fun c => ?_,fun c => ?_,fun c hc => ?_⟩
    · by_cases hx : c = tx.chan
      · subst hx; simpa [Channel.put] using h.rxOpen _
      · simpa [hx] using h.rxOpen c
    · by_cases hx : c = tx.chan
      · subst hx; simpa [publicationsIn_put_reply] using h.publications _
      · simpa [hx] using h.publications c
    · by_cases hx : c = tx.chan
      · subst hx; simp [h.channels _ hc]
      · simpa [hx] using h.channels c hc
  · exact h

theorem reply_left (h : SameBut bad w w') {tx : Sender} (hx : tx.chan ∈ bad) (text : String) :
    SameBut bad (w.replied tx text) w' := by
  unfold replied
  split
  · refine ⟨h.registry,h.mutex,h.clones,fun c => ?_,fun c => ?_,fun c hc => ?_⟩
    · by_cases hc : c = tx.chan
      · subst hc; simpa [Channel.put] using h.rxOpen _
      · simpa [hc] using h.rxOpen c
    · by_cases hc : c = tx.chan
      · subst hc; simpa [publicationsIn_put_reply] using h.publications _
      · simpa [hc] using h.publications c
    · have hne : c ≠ tx.chan := fun e => hc (e ▸ hx)
      simpa [hne] using h.channels c hc
  · exact h

theorem publish (h : SameBut bad w w') (t : Topic) (m : String) :
    SameBut bad (w.published t m) (w'.published t m) where
  registry := by rw [published_registry,published_registry,h.registry,h.receivers]
  mutex := h.mutex
  clones := h.clones
  rxOpen c := by simpa [published_channels] using h.rxOpen c
  publications c := by
    have hc := h.publications c
    unfold publicationsIn at hc ⊢
    simp only [published_channels,Channels.deliver_log,List.filter_append,hc,h.receivers]
  channels c hc := by
    simp only [published_channels,Channels.deliver,h.channels c hc,h.receivers]

theorem apply (h : SameBut bad w w') (x : Change) : SameBut bad (w.apply x) (w'.apply x) := by
  cases x with
  | subscribe t c =>
    refine ⟨?_,h.mutex,congrArg (· + 1) h.clones,h.rxOpen,h.publications,h.channels⟩
    simp only [Shared.apply,subscribed,nextSender,h.registry,h.clones]
  | publish t m => exact h.publish t m
  | reply tx text => exact h.reply tx text
  | take c =>
    refine ⟨h.registry,h.mutex,h.clones,fun d => ?_,fun d => ?_,fun d hd => ?_⟩
    · simpa [Shared.apply] using h.rxOpen d
    · simpa [Shared.apply,publicationsIn] using h.publications d
    · by_cases he : d = c
      · subst he; simp [Shared.apply,Channels.take,h.channels _ hd]
      · simpa [Shared.apply,Channels.take,he] using h.channels d hd
  | close c =>
    refine ⟨h.registry,h.mutex,h.clones,fun d => ?_,fun d => ?_,fun d hd => ?_⟩
    · by_cases hd : d = c
      · subst hd; simp [Shared.apply,Channels.close]
      · simpa [Shared.apply,Channels.close,hd] using h.rxOpen d
    · simpa [Shared.apply,publicationsIn] using h.publications d
    · by_cases he : d = c
      · subst he; simp [Shared.apply,Channels.close,h.channels _ hd]
      · simpa [Shared.apply,Channels.close,he] using h.channels d hd

theorem applyAll (h : SameBut bad w w') (xs : List Change) :
    SameBut bad (w.applyAll xs) (w'.applyAll xs) := by
  induction xs generalizing w w' with
  | nil => exact h
  | cons x rest ih => exact ih (h.apply x)

end SameBut

/-! ## The run without the failed requests -/

/-- The request of this event failed: `process_message` returned an error or panicked. -/
def Event.fails (s : RelayState) : Event X → Bool
  | .frame tx text node =>
    match X.parse text with
    | some j =>
      match (processMessage j (some node) tx).run s.shared with
      | .ok _ _ => false
      | .error _ _ => true
    | none => false
  | _ => false

def Event.surviving (s : RelayState) (e : Event X) : List (Event X) :=
  if e.fails s then [] else [e]

def Event.failedChannel (s : RelayState) (e : Event X) : List ℕ :=
  match e with
  | .frame tx _ _ => if e.fails s then [tx.chan] else []
  | _ => []

namespace RelayState
variable (network : Network) (txCacheSize : ℕ)

/-- The events whose requests did not fail where the run met them. -/
def survivors (events : List (Event X)) : List (Event X) :=
  History.collect (step network) Event.surviving (start txCacheSize) events

def failedChannels (events : List (Event X)) : List ℕ :=
  History.collect (step network) Event.failedChannel (start txCacheSize) events

end RelayState

/-- A failed request is a frame that changes nothing but its own reply. -/
theorem Causes.of_fails {network : Network} {s : RelayState} (hw : s.shared.Healthy)
    {e : Event X} {changes : List Change} {seen' : BoundedSet String}
    (h : Causes network s.txsSeen e changes seen') (hf : e.fails s = true) :
    seen' = s.txsSeen ∧ ∃ tx text node, e = .frame tx text node ∧
      (changes = [] ∨ ∃ str, changes = [.reply tx str]) := by
  cases h with
  | @answered tx text str node reply changes ha hs =>
    refine ⟨rfl,tx,text,node,rfl,Or.inr ⟨str,?_⟩⟩
    cases ha with
    | unparsed hp => rfl
    | failed hp he => rfl
    | served hp hr hserved hok hreply =>
      have hrun := hok s.shared hw
      simp [Event.fails,hp,hrun] at hf
  | panicked hp he => exact ⟨rfl,_,_,_,rfl,Or.inl rfl⟩
  | zmq ho => simp [Event.fails] at hf
  | recv c => simp [Event.fails] at hf
  | close c => simp [Event.fails] at hf

theorem Event.failedChannel_of_not_fails {s : RelayState} {e : Event X}
    (h : e.fails s = false) : e.failedChannel s = [] := by
  cases e with
  | frame tx text node => simp [failedChannel,h]
  | zmq msg | recv c | close c => rfl

/-- Dropping the failed requests from a run leaves the registry, the cache of the listener
and everything published as they were, and the channels of all other clients in full. -/
theorem run_survivors (hX : X.RenderTotal) (network : Network) (txCacheSize : ℕ)
    (events : List (Event X)) :
    let s := RelayState.run network txCacheSize events
    let s' := RelayState.run network txCacheSize (RelayState.survivors network txCacheSize events)
    SameBut (RelayState.failedChannels network txCacheSize events) s.shared s'.shared ∧
      s.txsSeen = s'.txsSeen := by
  refine (RelayState.run_invariant network txCacheSize hX
    (P := fun past s =>
      let s' := RelayState.run network txCacheSize (RelayState.survivors network txCacheSize past)
      SameBut (RelayState.failedChannels network txCacheSize past) s.shared s'.shared ∧
        s.txsSeen = s'.txsSeen)
    ⟨SameBut.refl _ _,rfl⟩ ?_ events).2
  rintro past s e changes seen' hs hw ⟨hsame,hseen⟩ hc hstep
  have hkept : RelayState.survivors network txCacheSize (past ++ [e]) =
      RelayState.survivors network txCacheSize past ++ Event.surviving s e := by
    rw [hs]
    exact History.collect_snoc _ _ _ past e
  have hbad : RelayState.failedChannels network txCacheSize (past ++ [e]) =
      RelayState.failedChannels network txCacheSize past ++ Event.failedChannel s e := by
    rw [hs]
    exact History.collect_snoc _ _ _ past e
  rw [hkept,hbad]
  cases hf : e.fails s with
  | true =>
    -- the run without the request does not move; the other one at most sends its reply
    obtain ⟨hseen',tx,text,node,rfl,hchanges⟩ := hc.of_fails hw hf
    have hmem : tx.chan ∈ RelayState.failedChannels network txCacheSize past ++
        Event.failedChannel s (.frame tx text node) := by
      simp [Event.failedChannel,hf]
    have hsub := hsame.mono (List.subset_append_left _ (Event.failedChannel s
      (.frame tx text node)))
    simp only [Event.surviving,hf,↓reduceIte,List.append_nil]
    refine ⟨?_,hseen'.trans hseen⟩
    rcases hchanges with rfl | ⟨str,rfl⟩
    · exact hsub
    · exact hsub.reply_left hmem str
  | false =>
    have hother := hstep _ (hsame.healthy hw)
    rw [hseen] at hother
    simp only [Event.surviving,hf,Bool.false_eq_true,↓reduceIte,
      Event.failedChannel_of_not_fails hf,List.append_nil,RelayState.run_snoc]
    rw [show RelayState.step network _ e = _ from hother]
    exact ⟨hsame.applyAll changes,rfl⟩

/-- A request that fails, by an error or a panic, leaves the registry and the channels as they
were and holds no lock where it fails; the publish functions of the listener do not fail. In
every run the mutex is never poisoned, and what is not a reply to a failed request is as in
the run without the failed requests. -/
theorem failed_requests_leave_no_trace (hX : X.RenderTotal) :
    (∀ (j : JsonRpc) (client : Option (Node X)) (tx : Sender) (w : Shared), w.Healthy →
      ∀ f w', (processMessage j client tx).run w = .error f w' →
        w'.registry = w.registry ∧ w'.channels = w.channels ∧ w'.mutex.held = false) ∧
    (∀ (address txid : String) (tx : X.Transaction) (where_ : Where) (w : Shared), w.Healthy →
      (∃ w', w'.Healthy ∧
        (publishAddressSeen address txid tx where_ : Exec Shared (Error X) Unit).run w =
          .ok () w') ∧
      ∃ w', w'.Healthy ∧
        (publishTxSeen txid tx where_ : Exec Shared (Error X) Unit).run w = .ok () w') ∧
    ∀ (network : Network) (txCacheSize : ℕ) (events : List (Event X)),
      let s := RelayState.run network txCacheSize events
      let s' := RelayState.run network txCacheSize
        (RelayState.survivors network txCacheSize events)
      s.shared.mutex = {} ∧ s.txsSeen = s'.txsSeen ∧
        SameBut (RelayState.failedChannels network txCacheSize events) s.shared s'.shared := by
  refine ⟨?_,?_,?_⟩
  · intro j client tx w hw f w' h
    rcases processMessage_cases hX j client tx with ⟨request,response,changes,-,-,hrun⟩ | ⟨f',hrun⟩
    · rw [hrun w hw] at h; cases h
    · rw [hrun w hw] at h
      cases h
      exact ⟨rfl,rfl,by rw [hw]⟩
  · intro address txid tx where_ w hw
    exact ⟨⟨_,hw.apply _,run_publishSeen hX hw _ _⟩,⟨_,hw.apply _,run_publishSeen hX hw _ _⟩⟩
  · intro network txCacheSize events
    obtain ⟨hsame,hseen⟩ := run_survivors hX network txCacheSize events
    exact ⟨RelayState.run_healthy network txCacheSize hX events,hseen,hsame⟩

/-! ## A node that does not answer -/

def Sample.pairTopic : Topic := Pair.topic ⟨Sample.inputAsset,Sample.outputAsset⟩

/-- Client 0 is subscribed to the pair that is proposed. -/
def Sample.trading : Shared := Shared.start.subscribed Sample.pairTopic 0

/-- The subscriber is still registered, and nothing is in its channel or anyone's. -/
theorem dead_node_leaves_no_trace :
    ∃ w', (processMessage (Sample.request "publish" "proposal" (Sample.proposalValue Sample.assets))
        (some Sample.deadNode) ⟨1,.clientTxClone⟩).run Sample.trading = .error .panic w' ∧
      w'.registry = Sample.trading.registry ∧ w'.channels = Sample.trading.channels ∧
      w'.mutex.held = false ∧
      w'.registry.entryOrDefault Sample.pairTopic = [⟨0,.subscription 0⟩] := by
  have hrun : ∃ w', (processMessage (Sample.request "publish" "proposal"
      (Sample.proposalValue Sample.assets)) (some Sample.deadNode) ⟨1,.clientTxClone⟩).run
      Sample.trading = .error .panic w' := ⟨_,rfl⟩
  obtain ⟨w',hrun⟩ := hrun
  obtain ⟨hregistry,hchannels,hheld⟩ := (failed_requests_leave_no_trace
    Deps.sample_renderTotal).1 _ _ _ Sample.trading rfl _ _ hrun
  refine ⟨w',hrun,hregistry,hchannels,hheld,?_⟩
  simp only [hregistry,Sample.trading,subscribed,TopicRegistry.subscribe,
    TopicRegistry.entryOrDefault_insert,↓reduceIte]
  rfl

end NexusRelay
