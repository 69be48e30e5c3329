import Mathlib.Algebra.BigOperators.Group.Finset.Basic
import Mathlib.Algebra.Order.BigOperators.Group.Finset
import NexusRelay.Connections.Sockets

/-! # The server left to itself

While no frame and no message comes in, the tasks have finitely many steps to take, whatever
the node answers and the sockets do, and where none is left every socket took what its channel
got.
-/
namespace NexusRelay
open Shared
variable {X : Deps}

/-- The step waits for no new frame: the node answers, a text is taken or sent, or a task ends
with another. -/
def PeerReady.internal : PeerReady X → Bool
  | .answered _ | .received | .drained | .sent _ | .joined => true
  | .text _ | .otherFrame | .ended => false

def Ready.internal : Ready X → Bool
  | .peer _ ready => ready.internal
  | _ => false

/-! ## What is left to do -/

def Waiting.asks : Waiting X → ℕ
  | .node _ => 1
  | _ => 0

def Waiting.joins : Waiting X → ℕ
  | .forwardTask => 1
  | _ => 0

/-- The steps of the forward task: two for a queued text, and one to end. -/
def Forward.left (queued : ℕ) : Forward → ℕ
  | .receiving => 2 * queued + 1
  | .sending _ => 2 * queued + 2
  | .ended => 0

def Peer.left (peer : Peer X) (ch : Channel) : ℕ :=
  peer.forward.left (ch.log.length - ch.received) + peer.waiting.joins

namespace Server
variable {s : Server X}

def weight (f : Peer X → Channel → ℕ) (s : Server X) (i : ℕ) : ℕ :=
  (s.peers[i]?.map fun peer => f peer (s.relay.shared.channels i)).getD 0

def total (f : Peer X → Channel → ℕ) (s : Server X) : ℕ :=
  ∑ i ∈ Finset.range s.peers.length, s.weight f i

/-- The questions that await an answer, and the steps left without another answer. -/
def left (s : Server X) : ℕ × ℕ :=
  (s.total fun peer _ => peer.waiting.asks,s.total Peer.left)

theorem weight_moved {f : Peer X → Channel → ℕ} {i j : ℕ} (h : j ≠ i) {out : Peer X × Shared}
    (hf : ∀ peer, f peer (out.2.channels j) = f peer (s.relay.shared.channels j)) :
    (s.moved i out).weight f j = s.weight f j := by
  have hother := moved_other (s := s) h out
  unfold weight
  rw [hother]
  exact congrArg (Option.getD · 0) (congrArg (Option.map · s.peers[j]?) (funext hf))

theorem total_moved_eq {f : Peer X → Channel → ℕ} {i : ℕ} {peer : Peer X}
    (hp : s.peers[i]? = some peer) {out : Peer X × Shared}
    (hf : ∀ j, j ≠ i → ∀ peer, f peer (out.2.channels j) = f peer (s.relay.shared.channels j))
    (hsame : f out.1 (out.2.channels i) = f peer (s.relay.shared.channels i)) :
    (s.moved i out).total f = s.total f := by
  have hlen : (s.moved i out).peers.length = s.peers.length := List.length_set
  have hself := moved_self hp out
  rw [total,total,hlen]
  refine Finset.sum_congr rfl fun j _ => ?_
  by_cases hj : j = i
  · subst hj
    rw [weight,weight,hself,hp]
    exact hsame
  · exact weight_moved hj (hf j hj)

theorem total_moved_lt {f : Peer X → Channel → ℕ} {i : ℕ} {peer : Peer X}
    (hp : s.peers[i]? = some peer) {out : Peer X × Shared}
    (hf : ∀ j, j ≠ i → ∀ peer, f peer (out.2.channels j) = f peer (s.relay.shared.channels j))
    (hless : f out.1 (out.2.channels i) < f peer (s.relay.shared.channels i)) :
    (s.moved i out).total f < s.total f := by
  have hlen : (s.moved i out).peers.length = s.peers.length := List.length_set
  have hself := moved_self hp out
  have hown : (s.moved i out).weight f i < s.weight f i := by
    rw [weight,weight,hself,hp]
    exact hless
  have hi : i ∈ Finset.range s.peers.length :=
    Finset.mem_range.mpr (List.getElem?_eq_some_iff.mp hp).1
  rw [total,total,hlen]
  refine Finset.sum_lt_sum (fun j _ => ?_) ⟨i,hi,hown⟩
  by_cases hj : j = i
  · subst hj
    exact hown.le
  · exact (weight_moved hj (hf j hj)).le

/-- A step of a connection that answers no question and leaves less to do. -/
theorem left_moved {i : ℕ} {peer : Peer X} (hp : s.peers[i]? = some peer) {out : Peer X × Shared}
    (hch : ∀ j, j ≠ i → out.2.channels j = s.relay.shared.channels j)
    (hasks : out.1.waiting.asks = peer.waiting.asks)
    (hless : out.1.left (out.2.channels i) < peer.left (s.relay.shared.channels i)) :
    Prod.Lex (· < ·) (· < ·) (s.moved i out).left s.left := by
  have hsame : (s.moved i out).total (fun peer _ => peer.waiting.asks) =
      s.total fun peer _ => peer.waiting.asks := total_moved_eq hp (fun _ _ _ => rfl) hasks
  have hlower := total_moved_lt hp (fun j hj peer => by rw [hch j hj]) hless
  rw [left,left,hsame]
  exact .right _ hlower

end Server

theorem Peer.resumed_asks (peer : Peer X) (result : EStateM.Result (Fail (Error X)) Shared Bool) :
    (peer.resumed result).1.waiting.asks = 0 := by
  rcases result with ⟨_ | _,w⟩ | ⟨f,w⟩ <;> rfl

namespace Server
variable {s s' : Server X}

theorem left_peer {i : ℕ} {peer : Peer X} (hp : s.peers[i]? = some peer) {ready : PeerReady X}
    {out : Peer X × Shared} (hi : ready.internal = true)
    (hs : peer.Steps i s.relay.shared (s.released i) ready out) :
    Prod.Lex (· < ·) (· < ·) (s.moved i out).left s.left := by
  cases hs with
  | asks hwait | handles hwait | otherFrame hwait | ended hwait => cases hi
  | answered hwait hout =>
    have hnone : out.1.waiting.asks = 0 := by
      rw [hout ⟨"",fun _ => _⟩ rfl]
      exact peer.resumed_asks _
    refine .left _ _ (total_moved_lt hp (fun _ _ _ => rfl) ?_)
    rw [hnone,hwait,Waiting.asks]
    exact Nat.one_pos
  | joined hwait hf =>
    refine left_moved hp (fun _ _ => rfl) (by rw [hwait]; rfl) ?_
    simp [Peer.left,Peer.leave,hwait,hf,Waiting.joins,Forward.left]
  | received hf hm =>
    have hlen := (List.getElem?_eq_some_iff.mp hm).1
    refine left_moved hp (fun _ hj => take_other hj) rfl ?_
    simp only [Peer.left,hf,Forward.left,apply,Channels.take,Function.update_self,Channel.take,hlen,
      ↓reduceIte]
    omega
  | drained hf =>
    refine left_moved hp (fun _ hj => close_other hj) rfl ?_
    simp only [Peer.left,hf,Forward.left]
    omega
  | sent hf =>
    refine left_moved hp (fun _ _ => rfl) rfl ?_
    simp only [Peer.left,hf,Forward.left]
    omega
  | refused hf =>
    refine left_moved hp (fun _ hj => close_other hj) rfl ?_
    simp only [Peer.left,hf,Forward.left]
    omega

theorem left_step {network : Network} {ready : Ready X} (hi : ready.internal = true)
    (hs : s.step network ready = some s') : Prod.Lex (· < ·) (· < ·) s'.left s.left := by
  cases (step_steps hs).2 with
  | peer hp hstep => exact left_peer hp hi hstep
  | accepted | acceptFailed | upgraded | upgradeFailed | zmq | zmqError | zmqEnded => cases hi

end Server

/-! ## Where nothing is left to do -/

/-- The connection asks the node nothing, and its forward task is over or waits at the end of
the channel for a sender that is alive. -/
def Peer.Idle (peer : Peer X) (ch : Channel) (released : Bool) : Prop :=
  peer.waiting.asks = 0 ∧ (peer.forward = .ended → peer.waiting.joins = 0) ∧
    (peer.forward ≠ .ended →
      peer.forward = .receiving ∧ ch.received = ch.log.length ∧ released = false)

instance (peer : Peer X) (ch : Channel) (released : Bool) : Decidable (peer.Idle ch released) := by
  unfold Peer.Idle
  infer_instance

theorem Peer.idle_of_none {i : ℕ} {peer : Peer X} {w : Shared} {released : Bool}
    (h : ∀ ready : PeerReady X, ready.internal = true → peer.step i w released ready = none)
    (hr : (w.channels i).received ≤ (w.channels i).log.length) :
    peer.Idle (w.channels i) released := by
  refine ⟨?_,fun hf => ?_,fun hf => ?_⟩
  · cases hwait : peer.waiting with
    | node asking =>
      have hstep := h (.answered (.ok (.ok []))) rfl
      simp [Peer.step,hwait] at hstep
    | frame | forwardTask | returned | panicked => rfl
  · cases hwait : peer.waiting with
    | forwardTask =>
      have hstep := h .joined rfl
      simp [Peer.step,hwait,hf] at hstep
    | frame | node asking | returned | panicked => rfl
  · cases hforward : peer.forward with
    | ended => exact absurd hforward hf
    | sending text =>
      have hstep := h (.sent true) rfl
      simp [Peer.step,hforward] at hstep
    | receiving =>
      have hqueued := h .received rfl
      have hended := h .drained rfl
      simp only [Peer.step,hforward] at hqueued hended
      have hlast : (w.channels i).received = (w.channels i).log.length := by
        by_contra hne
        have hlt : (w.channels i).received < (w.channels i).log.length := by omega
        rw [List.getElem?_eq_getElem hlt] at hqueued
        cases hqueued
      refine ⟨rfl,hlast,?_⟩
      cases hreleased : released with
      | false => rfl
      | true => simp [hlast,hreleased] at hended

theorem Peer.Idle.none {i : ℕ} {peer : Peer X} {w : Shared} {released : Bool}
    (h : peer.Idle (w.channels i) released) {ready : PeerReady X} (hi : ready.internal = true) :
    peer.step i w released ready = none := by
  obtain ⟨hasks,hjoins,hopen⟩ := h
  have hforward : peer.forward = .ended ∨ peer.forward = .receiving := by
    by_cases hf : peer.forward = .ended
    · exact Or.inl hf
    · exact Or.inr (hopen hf).1
  cases ready with
  | text _ | otherFrame | ended => cases hi
  | answered answer =>
    cases hwait : peer.waiting with
    | node asking => simp [hwait,Waiting.asks] at hasks
    | frame | forwardTask | returned | panicked => simp [Peer.step,hwait]
  | joined =>
    rcases hforward with hf | hf
    · have hnot := hjoins hf
      cases hwait : peer.waiting with
      | forwardTask => simp [hwait,Waiting.joins] at hnot
      | frame | node asking | returned | panicked => simp [Peer.step,hwait]
    · cases hwait : peer.waiting <;> simp [Peer.step,hwait,hf]
  | received =>
    rcases hforward with hf | hf
    · simp [Peer.step,hf]
    · obtain ⟨-,hlast,-⟩ := hopen (by simp [hf])
      simp [Peer.step,hf,hlast]
  | drained =>
    rcases hforward with hf | hf
    · simp [Peer.step,hf]
    · obtain ⟨-,-,hreleased⟩ := hopen (by simp [hf])
      simp [Peer.step,hf,hreleased]
  | sent ok => rcases hforward with hf | hf <;> simp [Peer.step,hf]

namespace Server
variable {s : Server X}

/-- All connections are idle. -/
def Settled (s : Server X) : Prop :=
  ∀ i, (h : i < s.peers.length) → (s.peers[i]).Idle (s.relay.shared.channels i) (s.released i)

instance (s : Server X) : Decidable s.Settled := by
  unfold Settled
  infer_instance

theorem settled_iff {network : Network} (hr : s.running = true)
    (hlen : ∀ i, (s.relay.shared.channels i).received ≤ (s.relay.shared.channels i).log.length) :
    s.Settled ↔ ∀ ready : Ready X, ready.internal = true → s.step network ready = none := by
  constructor
  · intro h ready hi
    cases ready with
    | peer i ready =>
      by_cases hp : i < s.peers.length
      · have hnone := (h i hp).none hi
        simp [step,hr,hp,hnone]
      · simp [step,hr,hp]
    | accepted | acceptFailed | upgraded | upgradeFailed | zmq | zmqError | zmqEnded => cases hi
  · intro h i hi
    refine Peer.idle_of_none (fun ready hinternal => ?_) (hlen i)
    have hnone := h (.peer i ready) hinternal
    cases hstep : (s.peers[i]).step i s.relay.shared (s.released i) ready with
    | none => rfl
    | some out => simp [step,hr,hi,hstep] at hnone

end Server

/-- Where no such step is left, no question awaits its answer and the sockets took all there was. -/
theorem Server.settled_sockets (hX : X.RenderTotal) {network : Network} {txCacheSize : ℕ}
    {readies : List (Ready X)} {s : Server X}
    (h : Machine.run (Server.step network) (Server.start txCacheSize) readies = some s)
    (hr : s.running = true)
    (hnone : ∀ ready : Ready X, ready.internal = true → s.step network ready = none) {i : ℕ}
    {peer : Peer X} (hp : s.peers[i]? = some peer) : (∀ asking, peer.waiting ≠ .node asking) ∧
      (peer.forward ≠ .ended → s.released i = false ∧
        socketTexts i true (Machine.outputs (Server.step network) Server.visible
          (Server.start txCacheSize) readies) =
          (s.relay.shared.channels i).log.map Entry.text) := by
  have hstream := Server.run_streamed hX h
  have hsettled := (Server.settled_iff hr fun j => (hstream j).received).mpr hnone
  obtain ⟨hi,rfl⟩ := List.getElem?_eq_some_iff.mp hp
  obtain ⟨hasks,-,hidle⟩ := hsettled i hi
  refine ⟨fun asking hwait => by simp [hwait,Waiting.asks] at hasks,fun hf => ?_⟩
  obtain ⟨hforward,hlast,hreleased⟩ := hidle hf
  refine ⟨hreleased,?_⟩
  have htexts := (hstream i).texts
  have hrefused := (hstream i).none_refused
  rw [Server.forwardOf_eq hp] at htexts hrefused
  rw [hrefused hf,hforward,hlast,List.take_length] at htexts
  simpa [Forward.sending?] using htexts

/-- Left to itself the server settles: steps that need no new frame and no message come to an
end, in every order and with every answer. Where none is left no question awaits its answer,
and every socket whose forward task is not over took all texts of its channel. -/
theorem server_settles (hX : X.RenderTotal) (network : Network) (txCacheSize : ℕ) :
    (∀ states : ℕ → Server X, ∃ n, ∀ ready : Ready X, ready.internal = true →
      (states n).step network ready ≠ some (states (n + 1))) ∧
    ∀ (readies : List (Ready X)) (s : Server X),
      Machine.run (Server.step network) (Server.start txCacheSize) readies = some s →
      s.running = true →
      (∀ ready : Ready X, ready.internal = true → s.step network ready = none) →
      ∀ i peer, s.peers[i]? = some peer → (∀ asking, peer.waiting ≠ .node asking) ∧
        (peer.forward ≠ .ended → s.released i = false ∧
          socketTexts i true (Machine.outputs (Server.step network) Server.visible
            (Server.start txCacheSize) readies) =
            (s.relay.shared.channels i).log.map Entry.text) := by
  refine ⟨fun states => ?_,fun readies s h hr hnone i peer hp => ?_⟩
  · have hwf := WellFounded.prod_lex Nat.lt_wfRel.wf Nat.lt_wfRel.wf
    exact Machine.allowed_stop hwf Server.left (fun ready : Ready X => ready.internal = true)
      (fun _ _ _ hi hs => Server.left_step hi hs) states
  · exact Server.settled_sockets hX h hr hnone hp

/-- A client subscribes to an address, and a transaction that pays it arrives. -/
def Sample.delivery : List (Ready Deps.sample) :=
  [.accepted,.upgraded,
    .peer 0 (.text (Sample.print (Sample.request "subscribe" "address" (.string Sample.address)))),
    .peer 0 .received,.peer 0 (.sent true),.zmq [rawtx,Sample.txBytes],.peer 0 .received,
    .peer 0 (.sent true)]

theorem delivery_settles : ∃ s : Server Deps.sample,
    Machine.run (Server.step .elementsRegtest) (Server.start 1000) Sample.delivery = some s ∧
      s.peers.length = 1 ∧ ∀ i peer, s.peers[i]? = some peer → peer.forward ≠ .ended →
        socketTexts i true (Machine.outputs (Server.step .elementsRegtest) Server.visible
          (Server.start 1000) Sample.delivery) =
          (s.relay.shared.channels i).log.map Entry.text := by
  have hrun : (Machine.run (Server.step .elementsRegtest) (Server.start 1000)
      Sample.delivery).any (fun s => decide (s.running = true ∧ s.peers.length = 1 ∧ s.Settled)) =
        true := by decide +kernel
  obtain ⟨s,hs,hchecked⟩ := (Option.any_eq_true ..).mp hrun
  obtain ⟨hr,hlen,hsettled⟩ := of_decide_eq_true hchecked
  have hstream := Server.run_streamed Deps.sample_renderTotal hs
  have hnone : ∀ ready : Ready Deps.sample, ready.internal = true →
      s.step .elementsRegtest ready = none :=
    (Server.settled_iff hr fun j => (hstream j).received).mp hsettled
  have hsettles := (server_settles Deps.sample_renderTotal .elementsRegtest 1000).2 Sample.delivery s
    hs hr hnone
  exact ⟨s,hs,hlen,fun i peer hp hf => ((hsettles i peer hp).2 hf).2⟩

end NexusRelay
