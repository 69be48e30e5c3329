import NexusRelay.Delivery.Provenance
import NexusRelay.Delivery.Refinement

/-! # Clients do not interfere

What a client receives depends on its own frames, on what is published, and on nothing else of
the others: they can subscribe, send what is no request, be refused, read slowly or leave, at any
time, and no text, no order and no repetition changes for it.
-/
namespace NexusRelay
open Shared
variable {X : Deps}

def Answer.publishes (a : Answer) : Bool :=
  match a.operation with
  | some (.publish _ _) => true
  | _ => false

/-- The events that may matter to client `c`: its own, the frames that publish, and the messages
of the node. -/
def Event.concerns (c : ℕ) : Event X → Bool
  | .frame tx text node => decide (tx.chan = c) || ((answerText text node).any Answer.publishes)
  | .zmq _ => true
  | .recv d | .close d => decide (d = c)

namespace Service
variable (network : Network) (n : ℕ)

/-- The service as client `c` sees it. -/
def view (c : ℕ) (s : Service) : Mailbox Topic String × List String := (s.mailbox c,s.announced)

def viewStep (c : ℕ) (v : Mailbox Topic String × List String) (e : Event X) :
    Mailbox Topic String × List String :=
  (v.1.run c (actions network n v.2 e),v.2 ++ announces network n v.2 e)

theorem actions_of_not_concerns {c : ℕ} {e : Event X} (h : e.concerns c = false)
    (past : List String) : ∀ a ∈ actions network n past e, a.concerns c = false := by
  intro a ha
  cases e with
  | zmq msg => cases h
  | recv d | close d =>
    cases List.mem_singleton.mp ha
    exact h
  | frame tx text node =>
    obtain ⟨hother,hquiet⟩ := Bool.or_eq_false_iff.mp h
    cases hanswer : answerText text node with
    | none => simp [actions,hanswer] at ha
    | some answer =>
      rw [hanswer,Option.any_some] at hquiet
      simp only [actions,hanswer,Option.map_some,Option.getD_some,Answer.actions] at ha
      split at ha
      · next str hstr =>
        rcases List.mem_append.mp ha with ha | ha
        · obtain ⟨operation,hop,rfl⟩ := Option.map_eq_some_iff.mp (Option.mem_toList.mp ha)
          cases operation with
          | subscribe t => exact hother
          | publish t m => simp [Answer.publishes,hop] at hquiet
        · cases List.mem_singleton.mp ha
          exact hother
      · cases ha

theorem viewStep_of_not_concerns {c : ℕ} {e : Event X} (h : e.concerns c = false)
    (v : Mailbox Topic String × List String) : viewStep network n c v e = v := by
  have hnone : announces network n v.2 e = [] := by
    cases e with
    | zmq msg => cases h
    | frame | recv | close => rfl
  rw [viewStep,hnone,List.append_nil,
    Mailbox.run_of_not_concerns (actions_of_not_concerns network n h v.2)]

theorem run_filter_concerns (events : List (Event X)) (c : ℕ) :
    (run network n (events.filter (Event.concerns c))).view c = (run network n events).view c := by
  have hview : ∀ (s : Service) (e : Event X),
      (step network n s e).view c = viewStep network n c (s.view c) e := fun _ _ => rfl
  rw [run,run,History.foldl_view hview,History.foldl_view hview]
  exact History.foldl_filter (fun v e he => viewStep_of_not_concerns network n he v) events _

end Service

theorem BoundedSet.Holds.unique {s s' : BoundedSet String} {c : ℕ} {taken : List String}
    (h : s.Holds c taken) (h' : s'.Holds c taken) : s = s' := by
  have hset : s.set = s'.set := Finset.ext fun x => by rw [h.set,h'.set]
  rcases s with ⟨set,queue,capacity⟩
  rcases s' with ⟨set',queue',capacity'⟩
  cases hset
  cases h.queue.trans h'.queue.symm
  cases h.capacity.trans h'.capacity.symm
  rfl

/-- Without the frames of the other clients that publish nothing, and without what is read from
their channels and who of them leaves, every run is the same for a client: its channel gets the
same texts in the same order, it has read as many of them, and it is open if it was. The
listener's cache is the same too. -/
theorem clients_do_not_interfere (hX : X.RenderTotal) (network : Network) {n : ℕ} (hn : 0 < n)
    (events : List (Event X)) (c : ℕ) :
    let alone := RelayState.run network n (events.filter (Event.concerns c))
    let all := RelayState.run network n events
    (alone.shared.channels c).log.map Entry.text = (all.shared.channels c).log.map Entry.text ∧
      (alone.shared.channels c).received = (all.shared.channels c).received ∧
      (alone.shared.channels c).rxOpen = (all.shared.channels c).rxOpen ∧
      alone.txsSeen = all.txsSeen := by
  intro alone all
  obtain ⟨hshows,hholds⟩ := RelayState.run_shows hX network hn (events.filter (Event.concerns c))
  obtain ⟨hshows',hholds'⟩ := RelayState.run_shows hX network hn events
  have hview := Service.run_filter_concerns network n events c
  have hmailbox := congrArg Prod.fst hview
  have hannounced := congrArg Prod.snd hview
  simp only [Service.view] at hmailbox hannounced
  have halone := hshows c
  have hall := hshows' c
  rw [hmailbox] at halone
  rw [hannounced] at hholds
  exact ⟨halone.texts.trans hall.texts.symm,halone.received.trans hall.received.symm,
    halone.rxOpen.trans hall.rxOpen.symm,hholds.unique hholds'⟩

/-- A client subscribes to an address, while another one sends no request and leaves. -/
def Sample.busyRun : List (Event Deps.sample) :=
  .frame ⟨1,.clientTxClone⟩ "" Sample.node :: .close 1 :: Sample.addressRun Sample.address

theorem busyRun_alone :
    (Sample.busyRun.filter (Event.concerns 0)).length = 2 ∧
    ((RelayState.run .elementsRegtest 1000 (Sample.busyRun.filter (Event.concerns 0))).shared.channels
      0).log.map Entry.text =
    ((RelayState.run .elementsRegtest 1000 Sample.busyRun).shared.channels 0).log.map Entry.text :=
  ⟨by decide +kernel,(clients_do_not_interfere Deps.sample_renderTotal .elementsRegtest
    (n := 1000) (by decide) Sample.busyRun 0).1⟩

end NexusRelay
