import NexusRelay.Foundation.History
import NexusRelay.Foundation.PubSub
import NexusRelay.Model.Shared

/-! # The registry against the history of operations

The invariant that ties the map of sender vectors to the operations that made it.
Closed senders are pruned lazily, so the vectors are only determined on the open
channels; the logs are determined on all of them.
-/
namespace NexusRelay
open PubSub

abbrev RegistryOp := PubSub.Op Topic Sender ℕ String

/-- The senders of channel `c` whose handle is in `p`. -/
def onChannel (c : ℕ) (p : Handle → Bool) (s : Sender) : Bool := decide (s.chan = c) && p s.handle

/-- Whether an entry came through a subscription whose handle is in `p`. -/
def Entry.through (p : Handle → Bool) (e : Entry) : Bool :=
  match e.origin with
  | .delivery _ h => p h
  | .reply => false

/-- The texts that publications put into a channel through the handles in `p`. -/
def textsThrough (p : Handle → Bool) (entries : List Entry) : List String :=
  (entries.filter (Entry.through p)).map Entry.text

theorem textsThrough_append (p : Handle → Bool) (xs ys : List Entry) :
    textsThrough p (xs ++ ys) = textsThrough p xs ++ textsThrough p ys := by
  simp [textsThrough]

theorem textsThrough_deliveries (p : Handle → Bool) (t : Topic) (m : String) (ss : List Sender)
    (c : ℕ) :
    textsThrough p (deliveries t m ss c) = List.replicate (ss.countP (onChannel c p)) m := by
  induction ss with
  | nil => rfl
  | cons s rest ih =>
    simp only [textsThrough,deliveries] at ih
    by_cases hc : s.chan = c
    · by_cases hp : p s.handle
      · simp [textsThrough,deliveries,onChannel,hc,hp,Entry.through,ih,List.replicate_succ]
      · simp [textsThrough,deliveries,onChannel,hc,hp,Entry.through,ih]
    · simp [textsThrough,deliveries,onChannel,hc,ih]

/-- Pruning keeps every sender of an open channel. -/
theorem countP_live_of_open {chs : Channels} {c : ℕ} (hc : (chs c).rxOpen = true)
    (p : Handle → Bool) (ss : List Sender) :
    (chs.live ss).countP (onChannel c p) = ss.countP (onChannel c p) := by
  rw [Channels.live,List.countP_filter]
  apply List.countP_congr
  intro s _
  by_cases h : s.chan = c
  · simp [onChannel,h,hc]
  · simp [onChannel,h]

theorem countP_live_of_closed {chs : Channels} {c : ℕ} (hc : (chs c).rxOpen = false)
    (p : Handle → Bool) (ss : List Sender) : (chs.live ss).countP (onChannel c p) = 0 := by
  rw [Channels.live,List.countP_filter,List.countP_eq_zero]
  intro s _
  by_cases h : s.chan = c
  · simp [h,hc]
  · simp [onChannel,h]

/-- The registry and the channels are what the operations `past` made of them. -/
structure Tracks (past : List RegistryOp) (r : TopicRegistry) (chs : Channels) : Prop where
  rxOpen : ∀ c, (chs c).rxOpen = isOpen c past
  senders : ∀ c p t, isOpen c past = true →
    (r.entryOrDefault t).countP (onChannel c p) = subscriptions (onChannel c p) t past
  texts : ∀ c p, textsThrough p (chs c).log = PubSub.log (onChannel c p) c past
  subscribed : ∀ t, ∀ s ∈ r.entryOrDefault t, Op.subscribe t s ∈ past
  origins : ∀ c, ∀ e ∈ (chs c).log, ∀ t h, e.origin = .delivery t h →
    Op.publish t e.text ∈ past ∧ Op.subscribe t ⟨c,h⟩ ∈ past

theorem Tracks.start : Tracks [] .new fun _ => {} where
  rxOpen _ := rfl
  senders _ _ _ _ := rfl
  texts _ _ := rfl
  subscribed t s hs := by simp at hs
  origins c e he := by simp at he

variable {past : List RegistryOp} {r : TopicRegistry} {chs : Channels}

theorem Tracks.subscribe (h : Tracks past r chs) (t : Topic) (s : Sender) :
    Tracks (past ++ [.subscribe t s]) (r.subscribe t s) chs where
  rxOpen c := by rw [isOpen_snoc,h.rxOpen]; simp [closes]
  senders c p t' hc := by
    have hc' : isOpen c past = true := by simpa [isOpen_snoc,closes] using hc
    rw [subscriptions_snoc,← h.senders c p t' hc',TopicRegistry.subscribe,
      TopicRegistry.entryOrDefault_insert]
    by_cases ht : t' = t
    · subst ht
      simp [joins,List.countP_append,List.countP_singleton]
    · have ht' : t ≠ t' := fun e => ht e.symm
      simp [joins,ht,ht']
  texts c p := by rw [log_snoc,h.texts]; simp [owed]
  subscribed t' s' hs := by
    rw [TopicRegistry.subscribe,TopicRegistry.entryOrDefault_insert] at hs
    by_cases ht : t' = t
    · subst ht
      rw [if_pos rfl,List.mem_append] at hs
      rcases hs with hs | hs
      · exact List.mem_append_left _ (h.subscribed _ _ hs)
      · rw [List.mem_singleton.mp hs]
        exact List.mem_append_right _ (List.mem_singleton_self _)
    · rw [if_neg ht] at hs
      exact List.mem_append_left _ (h.subscribed _ _ hs)
  origins c e he t' k hk := by
    obtain ⟨hp,hs⟩ := h.origins c e he t' k hk
    exact ⟨List.mem_append_left _ hp,List.mem_append_left _ hs⟩

theorem Tracks.publish (h : Tracks past r chs) (t : Topic) (m : String) :
    Tracks (past ++ [.publish t m]) ⟨r.topics.insert t (chs.live (r.entryOrDefault t))⟩
      (chs.deliver t m (chs.live (r.entryOrDefault t))) where
  rxOpen c := by rw [isOpen_snoc,Channels.deliver_rxOpen,h.rxOpen]; simp [closes]
  senders c p t' hc := by
    have hc' : isOpen c past = true := by simpa [isOpen_snoc,closes] using hc
    have hrx : (chs c).rxOpen = true := (h.rxOpen c).trans hc'
    rw [subscriptions_snoc,← h.senders c p t' hc',TopicRegistry.entryOrDefault_insert]
    by_cases ht : t' = t
    · subst ht
      simp [joins,countP_live_of_open hrx]
    · simp [joins,ht]
  texts c p := by
    rw [Channels.deliver_log,textsThrough_append,textsThrough_deliveries,h.texts,log_snoc]
    congr 1
    cases hc : isOpen c past with
    | true =>
      have hrx : (chs c).rxOpen = true := (h.rxOpen c).trans hc
      rw [countP_live_of_open hrx,h.senders c p t hc]
      simp [owed,hc]
    | false =>
      have hrx : (chs c).rxOpen = false := (h.rxOpen c).trans hc
      rw [countP_live_of_closed hrx]
      simp [owed,hc]
  subscribed t' s hs := by
    rw [TopicRegistry.entryOrDefault_insert] at hs
    apply List.mem_append_left
    by_cases ht : t' = t
    · subst ht
      rw [if_pos rfl] at hs
      exact h.subscribed _ _ (List.mem_filter.mp hs).1
    · rw [if_neg ht] at hs
      exact h.subscribed _ _ hs
  origins c e he t' k hk := by
    rw [Channels.deliver_log,List.mem_append] at he
    rcases he with he | he
    · obtain ⟨hp,hs⟩ := h.origins c e he t' k hk
      exact ⟨List.mem_append_left _ hp,List.mem_append_left _ hs⟩
    · obtain ⟨s,hs,rfl,rfl⟩ := mem_deliveries.mp he
      cases hk
      have hsub := h.subscribed t s (List.mem_filter.mp hs).1
      exact ⟨List.mem_append_right _ (List.mem_singleton_self _),List.mem_append_left _ hsub⟩

theorem Tracks.close (h : Tracks past r chs) (c : ℕ) :
    Tracks (past ++ [.close c]) r (chs.close c) where
  rxOpen d := by
    rw [isOpen_snoc,Channels.close,← h.rxOpen]
    by_cases hd : d = c
    · subst hd; simp [closes]
    · have hd' : c ≠ d := fun e => hd e.symm
      simp [closes,hd,hd']
  senders d p t hd := by
    have hd' : isOpen d past = true := by
      rw [isOpen_snoc,Bool.and_eq_true] at hd
      exact hd.1
    rw [subscriptions_snoc,← h.senders d p t hd']
    simp [joins]
  texts d p := by
    rw [log_snoc,← h.texts,Channels.close]
    by_cases hd : d = c
    · subst hd; simp [owed]
    · simp [owed,hd]
  subscribed t s hs := List.mem_append_left _ (h.subscribed t s hs)
  origins d e he t k hk := by
    have he' : e ∈ (chs d).log := by
      rw [Channels.close] at he
      by_cases hd : d = c
      · subst hd; simpa using he
      · simpa [hd] using he
    obtain ⟨hp,hs⟩ := h.origins d e he' t k hk
    exact ⟨List.mem_append_left _ hp,List.mem_append_left _ hs⟩

/-- What does not publish and closes nothing keeps the history: a reply, a text taken. -/
theorem Tracks.congr (h : Tracks past r chs) {chs' : Channels}
    (hopen : ∀ c, (chs' c).rxOpen = (chs c).rxOpen)
    (hlog : ∀ c, ∃ replies, (chs' c).log = (chs c).log ++ replies ∧
      ∀ e ∈ replies, e.origin = .reply) : Tracks past r chs' where
  rxOpen c := (hopen c).trans (h.rxOpen c)
  senders := h.senders
  texts c p := by
    obtain ⟨replies,hl,hr⟩ := hlog c
    have hnone : textsThrough p replies = [] := by
      rw [textsThrough,List.map_eq_nil_iff,List.filter_eq_nil_iff]
      intro e he
      simp [Entry.through,hr e he]
    rw [hl,textsThrough_append,h.texts,hnone,List.append_nil]
  subscribed := h.subscribed
  origins c e he t k hk := by
    obtain ⟨replies,hl,hr⟩ := hlog c
    rw [hl,List.mem_append] at he
    rcases he with he | he
    · exact h.origins c e he t k hk
    · rw [hr e he] at hk
      cases hk

/-! ## Changes as operations -/

def Shared.op (w : Shared) : Shared.Change → List RegistryOp
  | .subscribe t c => [.subscribe t (w.nextSender c)]
  | .publish t m => [.publish t m]
  | .close c => [.close c]
  | .reply _ _ | .take _ => []

def Shared.ops : Shared → List Shared.Change → List RegistryOp :=
  History.collect Shared.apply Shared.op

theorem Tracks.reply {w : Shared} (h : Tracks past w.registry w.channels) (tx : Sender)
    (text : String) : Tracks past (w.replied tx text).registry (w.replied tx text).channels := by
  unfold Shared.replied
  split
  · refine h.congr (fun c => ?_) fun c => ?_
    · by_cases hc : c = tx.chan
      · subst hc; simp [Channel.put]
      · simp [hc]
    · by_cases hc : c = tx.chan
      · subst hc
        exact ⟨[⟨text,.reply⟩],by simp [Channel.put],by simp⟩
      · exact ⟨[],by simp [hc],by simp⟩
  · exact h

theorem Tracks.apply {w : Shared} (h : Tracks past w.registry w.channels) (x : Shared.Change) :
    Tracks (past ++ w.op x) (w.apply x).registry (w.apply x).channels := by
  cases x with
  | subscribe t c => exact h.subscribe t (w.nextSender c)
  | publish t m =>
    simp only [Shared.apply,Shared.published_registry,Shared.published_channels]
    exact h.publish t m
  | close c => exact h.close c
  | reply tx text =>
    rw [Shared.op,List.append_nil]
    exact h.reply tx text
  | take c =>
    rw [Shared.op,List.append_nil]
    exact h.congr (fun d => Channels.take_rxOpen _ c d) fun d =>
      ⟨[],by simp [Shared.apply],by simp⟩

theorem Tracks.applyAll {w : Shared} (h : Tracks past w.registry w.channels)
    (xs : List Shared.Change) :
    Tracks (past ++ w.ops xs) (w.applyAll xs).registry (w.applyAll xs).channels := by
  induction xs generalizing past w with
  | nil => simpa [Shared.ops] using h
  | cons x rest ih =>
    have hrest := ih (h.apply x)
    rwa [List.append_assoc] at hrest

theorem Shared.publish_mem_ops {w : Shared} {xs : List Shared.Change} {t : Topic} {m : String} :
    Op.publish t m ∈ w.ops xs ↔ Shared.Change.publish t m ∈ xs := by
  induction xs generalizing w with
  | nil => simp [Shared.ops]
  | cons x rest ih =>
    have hrest := ih (w := w.apply x)
    simp only [Shared.ops] at hrest ⊢
    rw [History.collect,List.mem_append,hrest,List.mem_cons]
    cases x <;> simp [Shared.op]

theorem Shared.ops_of_no_subscribe {w : Shared} {xs : List Shared.Change}
    (h : ∀ t c, Shared.Change.subscribe t c ∉ xs) :
    (∀ t s, Op.subscribe t s ∉ w.ops xs) ∧ (w.applyAll xs).clones = w.clones := by
  induction xs generalizing w with
  | nil => simp [Shared.ops]
  | cons x rest ih =>
    obtain ⟨hops,hclones⟩ := ih (w := w.apply x) fun t c hmem => h t c (List.mem_cons_of_mem x hmem)
    have hx : ∀ t c, x ≠ .subscribe t c := fun t c e => h t c (by simp [e])
    constructor
    · intro t s hmem
      rw [Shared.ops,History.collect,List.mem_append] at hmem
      rcases hmem with hmem | hmem
      · cases x with
        | subscribe t' c => exact hx t' c rfl
        | publish | close | reply | take => simp [Shared.op] at hmem
      · exact hops t s hmem
    · rw [Shared.applyAll_cons,hclones]
      cases x with
      | subscribe t c => exact absurd rfl (hx t c)
      | reply tx text => exact Shared.replied_clones w tx text
      | publish | close | take => rfl

end NexusRelay
