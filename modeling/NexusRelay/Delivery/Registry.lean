import NexusRelay.Delivery.History
import NexusRelay.Foundation.History
import Mathlib.Algebra.BigOperators.Group.Finset.Basic

/-! # The registry refines the ideal log

Whole runs of `subscribe`, `publish` and dropped receivers from `TopicRegistry::new()`:
what every channel receives, and how many keys the map holds.
-/
namespace NexusRelay
open PubSub

structure Hub where
  registry : TopicRegistry
  channels : Channels

namespace Hub

def start : Hub := ⟨.new,fun _ => {}⟩

def step (hub : Hub) : RegistryOp → Hub
  | .subscribe t s => { hub with registry := hub.registry.subscribe t s }
  | .publish t m =>
    let (registry,channels,_) := hub.registry.publish t m hub.channels
    ⟨registry,channels⟩
  | .close c => { hub with channels := hub.channels.close c }

def run (ops : List RegistryOp) : Hub := ops.foldl step start

theorem run_snoc (ops : List RegistryOp) (op : RegistryOp) :
    run (ops ++ [op]) = (run ops).step op := by
  simp [run]

theorem step_publish (hub : Hub) (t : Topic) (m : String) :
    hub.step (.publish t m) =
      ⟨⟨hub.registry.topics.insert t (hub.channels.live (hub.registry.entryOrDefault t))⟩,
        hub.channels.deliver t m (hub.channels.live (hub.registry.entryOrDefault t))⟩ := by
  simp only [step,TopicRegistry.publish_eq]

theorem step_tracks {past : List RegistryOp} {hub : Hub} (op : RegistryOp)
    (h : Tracks past hub.registry hub.channels) :
    Tracks (past ++ [op]) (hub.step op).registry (hub.step op).channels := by
  cases op with
  | subscribe t s => exact h.subscribe t s
  | publish t m => rw [step_publish]; exact h.publish t m
  | close c => exact h.close c

theorem run_tracks (ops : List RegistryOp) :
    Tracks ops (run ops).registry (run ops).channels :=
  History.run_induction (P := fun past (hub : Hub) => Tracks past hub.registry hub.channels)
    Tracks.start (fun _ _ op h => step_tracks op h) ops

end Hub

theorem sum_deliveries (t : Topic) (m : String) (ss : List Sender) (S : Finset ℕ)
    (hS : ∀ s ∈ ss, s.chan ∈ S) :
    ∑ c ∈ S, (deliveries t m ss c).length = ss.length := by
  have hcount : ∀ c, (deliveries t m ss c).length = (ss.map Sender.chan : Multiset ℕ).count c := by
    intro c
    rw [deliveries,List.length_map,Multiset.coe_count,List.count,List.countP_map,
      List.countP_eq_length_filter]
    rfl
  simp only [hcount]
  rw [Multiset.sum_count_eq_card]
  · simp
  · intro c hc
    obtain ⟨s,hs,rfl⟩ := List.mem_map.mp (Multiset.mem_coe.mp hc)
    exact hS s hs

def TopicRegistry.channelsUnder (r : TopicRegistry) (t : Topic) : Finset ℕ :=
  ((r.entryOrDefault t).map Sender.chan).toFinset

theorem publish_sentCount (r : TopicRegistry) (t : Topic) (m : String) (chs : Channels) :
    (r.publish t m chs).2.2 = ∑ c ∈ r.channelsUnder t,
      (((r.publish t m chs).2.1 c).log.length - (chs c).log.length) := by
  have hS : ∀ s ∈ chs.live (r.entryOrDefault t), s.chan ∈ r.channelsUnder t := by
    intro s hs
    rw [TopicRegistry.channelsUnder,List.mem_toFinset]
    exact List.mem_map_of_mem (List.mem_filter.mp hs).1
  rw [TopicRegistry.publish_eq]
  simp only [Channels.deliver_log,List.length_append,Nat.add_sub_cancel_left]
  exact (sum_deliveries t m _ _ hS).symm

theorem publish_other_channel (r : TopicRegistry) (t : Topic) (m : String) (chs : Channels)
    {c : ℕ} (hc : c ∉ r.channelsUnder t) : (r.publish t m chs).2.1 c = chs c := by
  have hnil : deliveries t m (chs.live (r.entryOrDefault t)) c = [] := by
    rw [deliveries,List.map_eq_nil_iff,List.filter_eq_nil_iff]
    intro s hs
    rw [decide_eq_true_eq]
    rintro rfl
    apply hc
    rw [TopicRegistry.channelsUnder,List.mem_toFinset]
    exact List.mem_map_of_mem (List.mem_filter.mp hs).1
  rw [TopicRegistry.publish_eq]
  simp [Channels.deliver,hnil]

/-- After any history, every channel has received exactly the ideal log of the history.
The next `publish` keeps exactly the open senders under its topic and touches no other
topic, and the number it returns is the number of senders it keeps and the number of
texts it adds over all channels. -/
theorem registry_refines_log (ops : List RegistryOp) :
    (∀ c, textsThrough (fun _ => true) ((Hub.run ops).channels c).log =
      PubSub.log (fun s => decide (s.chan = c)) c ops) ∧
    ∀ (t : Topic) (m : String), let hub := Hub.run ops
      let out := hub.registry.publish t m hub.channels
      out.2.2 = (∑ c ∈ hub.registry.channelsUnder t,
        ((out.2.1 c).log.length - (hub.channels c).log.length)) ∧
      (∀ c ∉ hub.registry.channelsUnder t, out.2.1 c = hub.channels c) ∧
      out.2.2 = (out.1.entryOrDefault t).length ∧
      out.1.entryOrDefault t =
        (hub.registry.entryOrDefault t).filter (fun s => (hub.channels s.chan).rxOpen) ∧
      ∀ t', t' ≠ t → out.1.entryOrDefault t' = hub.registry.entryOrDefault t' := by
  constructor
  · intro c
    have h := (Hub.run_tracks ops).texts c (fun _ => true)
    have hp : onChannel c (fun _ => true) = fun s => decide (s.chan = c) := by
      funext s
      simp [onChannel]
    rwa [hp] at h
  · intro t m
    dsimp only
    refine ⟨publish_sentCount _ t m _,fun c hc => publish_other_channel _ t m _ hc,?_,?_,?_⟩
    · rw [TopicRegistry.publish_eq,TopicRegistry.entryOrDefault_insert,if_pos rfl]
    · rw [TopicRegistry.publish_eq,TopicRegistry.entryOrDefault_insert,if_pos rfl]
      rfl
    · intro t' ht
      rw [TopicRegistry.publish_eq,TopicRegistry.entryOrDefault_insert,if_neg ht]

/-! ## The keys of the map -/

def subscribedTopic : RegistryOp → Option Topic
  | .subscribe t _ => some t
  | _ => none

def publishedTopic : RegistryOp → Option Topic
  | .publish t _ => some t
  | _ => none

def subscribedTopics (ops : List RegistryOp) : Finset Topic :=
  (ops.filterMap subscribedTopic).toFinset

def publishedTopics (ops : List RegistryOp) : Finset Topic :=
  (ops.filterMap publishedTopic).toFinset

/-- Publishing creates a key as much as subscribing does, and no key is ever removed. -/
theorem Hub.run_keys (ops : List RegistryOp) :
    (Hub.run ops).registry.topics.keys = subscribedTopics ops ∪ publishedTopics ops := by
  induction ops using List.reverseRecOn with
  | nil => rfl
  | append_singleton past op ih =>
    rw [Hub.run_snoc]
    ext t
    have ih' : t ∈ (Hub.run past).registry.topics ↔
        t ∈ subscribedTopics past ∨ t ∈ publishedTopics past := by
      rw [← Finmap.mem_keys,ih,Finset.mem_union]
    cases op with
    | subscribe t' s =>
      simp only [Hub.step,TopicRegistry.subscribe,Finmap.mem_keys,Finmap.mem_insert,ih']
      simp [subscribedTopics,publishedTopics,subscribedTopic,publishedTopic]
    | publish t' m =>
      rw [Hub.step_publish]
      simp only [Finmap.mem_keys,Finmap.mem_insert,ih']
      simp [subscribedTopics,publishedTopics,subscribedTopic,publishedTopic]
    | close c =>
      simp only [Hub.step,Finmap.mem_keys,ih']
      simp [subscribedTopics,publishedTopics,subscribedTopic,publishedTopic]

/-- Publishing where nobody listens changes the map exactly when the topic is no key yet. -/
theorem publish_topics_eq_iff (r : TopicRegistry) (t : Topic) (m : String) (chs : Channels)
    (h : r.entryOrDefault t = []) : (r.publish t m chs).1.topics = r.topics ↔ t ∈ r.topics := by
  have hlive : chs.live ([] : List Sender) = [] := rfl
  rw [TopicRegistry.publish_eq,h,hlive]
  constructor
  · intro he
    rw [← he]
    exact Finmap.mem_insert.mpr (Or.inl rfl)
  · intro ht
    obtain ⟨ss,hss⟩ := Finmap.mem_iff.mp ht
    have hnil : ss = [] := by simpa [TopicRegistry.entryOrDefault,hss] using h
    apply Finmap.ext_lookup
    intro t'
    by_cases he : t' = t
    · subst he
      rw [Finmap.lookup_insert,hss,hnil]
    · rw [Finmap.lookup_insert_of_ne _ he]

/-- At every reachable registry, publishing where no sender is registered returns 0 and
leaves the map as it was exactly when the topic is already a key of it. The map of a run
has no more keys than the run subscribes topics exactly when every topic the run publishes
on is one that it subscribes. -/
theorem publish_growth (ops : List RegistryOp) :
    (∀ (t : Topic) (m : String), (Hub.run ops).registry.entryOrDefault t = [] →
      let out := (Hub.run ops).registry.publish t m (Hub.run ops).channels
      (out.2.2 = 0 ∧ out.1.topics = (Hub.run ops).registry.topics ↔
        t ∈ (Hub.run ops).registry.topics)) ∧
    ((Hub.run ops).registry.topics.keys.card ≤ (subscribedTopics ops).card ↔
      publishedTopics ops ⊆ subscribedTopics ops) := by
  constructor
  · intro t m h
    have hzero : ((Hub.run ops).registry.publish t m (Hub.run ops).channels).2.2 = 0 := by
      rw [TopicRegistry.publish_eq,h]
      rfl
    exact (and_iff_right hzero).trans (publish_topics_eq_iff _ t m _ h)
  · rw [Hub.run_keys]
    constructor
    · intro hcard
      have heq : subscribedTopics ops = subscribedTopics ops ∪ publishedTopics ops :=
        Finset.eq_of_subset_of_card_le Finset.subset_union_left hcard
      rw [heq]
      exact Finset.subset_union_right
    · intro hsub
      rw [Finset.union_eq_left.mpr hsub]

theorem publish_growth_pruned :
    let ops : List RegistryOp := [.subscribe (.validated "a") ⟨0,.subscription 0⟩,.close 0,
      .publish (.validated "a") "m"]
    let out := (Hub.run ops).registry.publish (.validated "a") "n" (Hub.run ops).channels
    out.2.2 = 0 ∧ out.1.topics = (Hub.run ops).registry.topics :=
  ((publish_growth [.subscribe (.validated "a") ⟨0,.subscription 0⟩,.close 0,
    .publish (.validated "a") "m"]).1 (.validated "a") "n" (by decide)).mpr (by decide)

/-- The first publication on a fresh topic, with no subscriber anywhere, leaves a key. -/
theorem publish_leaves_key :
    let hub := Hub.run [.publish (.unvalidated "a") "m"]
    Hub.start.registry.entryOrDefault (.unvalidated "a") = [] ∧
    hub.registry.topics ≠ Hub.start.registry.topics ∧
    ¬ hub.registry.topics.keys.card ≤
      (subscribedTopics [.publish (.unvalidated "a") "m"]).card := by
  decide

end NexusRelay
