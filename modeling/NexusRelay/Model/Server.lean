import NexusRelay.Foundation.Machine
import NexusRelay.Model.Await

/-! # The server between two awaits

`async_main` with all its tasks on the single-threaded runtime of `main.rs`: a step is what a
task does from the await it is at to its next one that can pend. Peer `i` owns channel `i`,
which is created when its WebSocket handshake is over.
-/
namespace NexusRelay
open Shared
variable {X : Deps}

variable (X) in
/-- A frame whose handling awaits the node. -/
structure Asking where
  text : String
  pending : Pending X
  asked : questionOf text = some pending

variable (X) in
/-- The await `handle_connection` is at: `ws_rx.next()`, `client.tx(txid)` below it, or
`forward_task`; or how it ended. -/
inductive Waiting where
  | frame
  | node (asking : Asking X)
  | forwardTask
  | returned
  | panicked

/-- The await the forward task is at: `client_rx.recv()`, or `ws_tx.send(..)` with a text. Past
its end its receiver is dropped. -/
inductive Forward where
  | receiving
  | sending (text : String)
  | ended
  deriving DecidableEq, Repr

variable (X) in
/-- The two tasks of a connection, and which of the local senders are alive. -/
structure Peer where
  waiting : Waiting X := .frame
  clientTx : Bool := true
  clientTxClone : Bool := true
  forward : Forward := .receiving

variable (X) in
/-- What a task of a connection waits for. `answered` is the node's answer, `sent` whether the
socket took the text, `ended` an error or the end of the stream. -/
inductive PeerReady where
  | text (text : String)
  | otherFrame
  | ended
  | answered (answer : HttpAnswer X)
  | joined
  | received
  | drained
  | sent (ok : Bool)

namespace Peer

/-- After the loop: `drop(client_tx_clone)`, then `forward_task.await`. -/
def leaveLoop (peer : Peer X) : Peer X :=
  { peer with waiting := .forwardTask, clientTxClone := false }

def leave (peer : Peer X) (waiting : Waiting X) : Peer X :=
  { peer with waiting := waiting, clientTx := false, clientTxClone := false }

/-- What follows the handling of a frame. -/
def resumed (peer : Peer X) : EStateM.Result (Fail (Error X)) Shared Bool → Peer X × Shared
  | .ok true w => ({ peer with waiting := .frame },w)
  | .ok false w => (peer.leaveLoop,w)
  | .error f w => (peer.leave .panicked,w.unwind f)

/-- A text frame is handled at once, unless it comes to the await of the node. -/
def begun (i : ℕ) (peer : Peer X) (text : String) (w : Shared) : Peer X × Shared :=
  match h : (beginText text ⟨i,.clientTxClone⟩).run w with
  | .ok (.inl pending) w' =>
    ({ peer with waiting := .node ⟨text,pending,questionOf_of_run_beginText h⟩ },w')
  | .ok (.inr goesOn) w' => peer.resumed (.ok goesOn w')
  | .error f w' => peer.resumed (.error f w')

/-- What one of the two tasks does when it is woken. `released` is whether all senders of the
channel are dropped. -/
def step (i : ℕ) (peer : Peer X) (w : Shared) (released : Bool) :
    PeerReady X → Option (Peer X × Shared)
  | .text text =>
    match peer.waiting with
    | .frame => some (peer.begun i text w)
    | _ => none
  | .otherFrame =>
    match peer.waiting with
    | .frame => some (peer,w)
    | _ => none
  | .ended =>
    match peer.waiting with
    | .frame => some (peer.leaveLoop,w)
    | _ => none
  | .answered answer =>
    match peer.waiting with
    | .node asking =>
      some (peer.resumed ((finishText ⟨i,.clientTxClone⟩ asking.pending answer).run w))
    | _ => none
  | .joined =>
    match peer.waiting, peer.forward with
    | .forwardTask, .ended => some (peer.leave .returned,w)
    | _, _ => none
  | .received =>
    match peer.forward, (w.channels i).log[(w.channels i).received]? with
    | .receiving, some msg =>
      some ({ peer with forward := .sending msg.text },{ w with channels := w.channels.take i })
    | _, _ => none
  | .drained =>
    match peer.forward with
    | .receiving =>
      if (w.channels i).received = (w.channels i).log.length ∧ released = true then
        some ({ peer with forward := .ended },{ w with channels := w.channels.close i })
      else none
    | _ => none
  | .sent ok =>
    match peer.forward with
    | .sending _ =>
      if ok then some ({ peer with forward := .receiving },w)
      else some ({ peer with forward := .ended },{ w with channels := w.channels.close i })
    | _ => none

theorem begun_asks {text : String} {pending : Pending X} (h : questionOf text = some pending) (i : ℕ)
    (peer : Peer X) (w : Shared) :
    peer.begun i text w = ({ peer with waiting := .node ⟨text,pending,h⟩ },w) := by
  have hrun := run_beginText_of_question h ⟨i,.clientTxClone⟩ w
  unfold begun
  split
  · next pending' w' h' =>
    rw [hrun] at h'
    cases h'
    rfl
  · next goesOn w' h' =>
    rw [hrun] at h'
    cases h'
  · next f w' h' =>
    rw [hrun] at h'
    cases h'

theorem begun_handles {text : String} (h : questionOf (X := X) text = none) (i : ℕ) (peer : Peer X)
    (w : Shared) (node : Node X) :
    peer.begun i text w = peer.resumed ((handleText text (some node) ⟨i,.clientTxClone⟩).run w) := by
  have hrun := run_beginText_of_no_question h ⟨i,.clientTxClone⟩ w node
  unfold begun
  split
  · next pending w' h' =>
    rw [questionOf_of_run_beginText h'] at h
    cases h
  · next goesOn w' h' =>
    rw [hrun] at h'
    cases hh : (handleText text (some node) ⟨i,.clientTxClone⟩).run w with
    | ok goesOn' w₁ =>
      rw [hh] at h'
      cases h'
      rfl
    | error f w₁ =>
      rw [hh] at h'
      cases h'
  · next f w' h' =>
    rw [hrun] at h'
    cases hh : (handleText text (some node) ⟨i,.clientTxClone⟩).run w with
    | ok goesOn' w₁ =>
      rw [hh] at h'
      cases h'
    | error f' w₁ =>
      rw [hh] at h'
      cases h'
      rfl

/-- Everything a step of a connection can do, with the guard it has. A frame is handled as by
`handleText`, at once or when the node has answered. -/
inductive Steps (i : ℕ) (peer : Peer X) (w : Shared) (released : Bool) :
    PeerReady X → Peer X × Shared → Prop
  | asks {text : String} {pending : Pending X} (hw : peer.waiting = .frame)
      (hq : questionOf text = some pending) :
      Steps i peer w released (.text text) ({ peer with waiting := .node ⟨text,pending,hq⟩ },w)
  | handles {text : String} {out : Peer X × Shared} (hw : peer.waiting = .frame)
      (hq : questionOf (X := X) text = none) (hout : ∀ node : Node X,
        out = peer.resumed ((handleText text (some node) ⟨i,.clientTxClone⟩).run w)) :
      Steps i peer w released (.text text) out
  | answered {asking : Asking X} (hw : peer.waiting = .node asking) {answer : HttpAnswer X}
      {out : Peer X × Shared} (hout : ∀ node : Node X, asking.pending.answer node = answer →
        out = peer.resumed ((handleText asking.text (some node) ⟨i,.clientTxClone⟩).run w)) :
      Steps i peer w released (.answered answer) out
  | otherFrame (hw : peer.waiting = .frame) : Steps i peer w released .otherFrame (peer,w)
  | ended (hw : peer.waiting = .frame) : Steps i peer w released .ended (peer.leaveLoop,w)
  | joined (hw : peer.waiting = .forwardTask) (hf : peer.forward = .ended) :
      Steps i peer w released .joined (peer.leave .returned,w)
  | received {msg : Entry} (hf : peer.forward = .receiving)
      (hm : (w.channels i).log[(w.channels i).received]? = some msg) :
      Steps i peer w released .received
        ({ peer with forward := .sending msg.text },w.apply (.take i))
  | drained (hf : peer.forward = .receiving)
      (he : (w.channels i).received = (w.channels i).log.length) (hr : released = true) :
      Steps i peer w released .drained ({ peer with forward := .ended },w.apply (.close i))
  | sent {text : String} (hf : peer.forward = .sending text) :
      Steps i peer w released (.sent true) ({ peer with forward := .receiving },w)
  | refused {text : String} (hf : peer.forward = .sending text) :
      Steps i peer w released (.sent false) ({ peer with forward := .ended },w.apply (.close i))

theorem step_steps {i : ℕ} {peer : Peer X} {w : Shared} {released : Bool} {ready : PeerReady X}
    {out : Peer X × Shared} (h : peer.step i w released ready = some out) :
    peer.Steps i w released ready out := by
  cases ready with
  | text text =>
    simp only [step] at h
    split at h
    · next hw =>
      cases h
      cases hq : questionOf (X := X) text with
      | none => exact .handles hw hq fun node => begun_handles hq i peer w node
      | some pending =>
        rw [begun_asks hq]
        exact .asks hw hq
    · cases h
  | otherFrame =>
    simp only [step] at h
    split at h
    · next hw =>
      cases h
      exact .otherFrame hw
    · cases h
  | ended =>
    simp only [step] at h
    split at h
    · next hw =>
      cases h
      exact .ended hw
    · cases h
  | answered answer =>
    simp only [step] at h
    split at h
    · next asking hw =>
      cases h
      refine .answered hw fun node hn => ?_
      rw [run_handleText_of_question asking.asked,hn]
    · cases h
  | joined =>
    simp only [step] at h
    split at h
    · next hw hf =>
      cases h
      exact .joined hw hf
    · cases h
  | received =>
    simp only [step] at h
    split at h
    · next msg hf hm =>
      cases h
      exact .received hf hm
    · cases h
  | drained =>
    simp only [step] at h
    split at h
    · next hf =>
      split at h
      · next hr =>
        cases h
        exact .drained hf hr.1 hr.2
      · cases h
    · cases h
  | sent ok =>
    simp only [step] at h
    split at h
    · next text hf =>
      cases ok with
      | true =>
        cases h
        exact .sent hf
      | false =>
        cases h
        exact .refused hf
    · cases h

end Peer

variable (X) in
/-- The accept loop, the handshakes under way, the listener and the connections. -/
structure Server where
  relay : RelayState
  running : Bool
  handshakes : ℕ
  listening : Bool
  peers : List (Peer X)

variable (X) in
/-- What a task waits for. When `listener.accept()` fails, `async_main` returns and the runtime
drops every task; the socket of the listener may yield a message, an error or its end. -/
inductive Ready where
  | accepted
  | acceptFailed
  | upgraded
  | upgradeFailed
  | peer (i : ℕ) (ready : PeerReady X)
  | zmq (msg : List Bytes)
  | zmqError
  | zmqEnded

namespace Server

def start (txCacheSize : ℕ) : Server X := ⟨.start txCacheSize,true,0,true,[]⟩

def locals (s : Server X) (i : ℕ) : List Sender :=
  match s.peers[i]? with
  | none => []
  | some peer =>
    (if peer.clientTx then [⟨i,.clientTx⟩] else []) ++
      if peer.clientTxClone then [⟨i,.clientTxClone⟩] else []

/-- No sender of the channel is alive, as a local variable or inside the registry. -/
def released (s : Server X) (i : ℕ) : Bool :=
  decide (s.locals i = [] ∧ ∀ t ∈ s.relay.shared.registry.topics.keys,
    ∀ sender ∈ s.relay.shared.registry.entryOrDefault t, sender.chan ≠ i)

/-- One message for `process_zmq_message`: an error is only logged, a panic ends the task. -/
def listen (network : Network) (s : Server X) (msg : List Bytes) : Server X :=
  match (processZmqMessage msg network : Exec _ (Error X) Unit).run
    (s.relay.shared,s.relay.txsSeen) with
  | .ok _ (w,seen) => { s with relay := ⟨w,seen⟩ }
  | .error (.err e) (w,seen) => { s with relay := ⟨w.unwind (.err e),seen⟩ }
  | .error .panic (w,seen) => { s with
      relay := ⟨w.unwind (.panic : Fail (Error X)),seen⟩
      listening := false }

def step (network : Network) (s : Server X) (ready : Ready X) : Option (Server X) :=
  if s.running then
    match ready with
    | .accepted => some { s with handshakes := s.handshakes + 1 }
    | .acceptFailed => some { s with running := false }
    | .upgraded =>
      match s.handshakes with
      | n + 1 => some { s with handshakes := n, peers := s.peers ++ [{}] }
      | 0 => none
    | .upgradeFailed =>
      match s.handshakes with
      | n + 1 => some { s with handshakes := n }
      | 0 => none
    | .peer i ready =>
      match s.peers[i]? with
      | some peer =>
        match peer.step i s.relay.shared (s.released i) ready with
        | some (peer,w) => some { s with
            peers := s.peers.set i peer
            relay := { s.relay with shared := w } }
        | none => none
      | none => none
    | .zmq msg => if s.listening then some (s.listen network msg) else none
    | .zmqError => if s.listening then some s else none
    | .zmqEnded => if s.listening then some { s with listening := false } else none
  else none

inductive Steps (network : Network) (s : Server X) : Ready X → Server X → Prop
  | accepted : Steps network s .accepted { s with handshakes := s.handshakes + 1 }
  | acceptFailed : Steps network s .acceptFailed { s with running := false }
  | upgraded {n : ℕ} (hn : s.handshakes = n + 1) :
      Steps network s .upgraded { s with handshakes := n, peers := s.peers ++ [{}] }
  | upgradeFailed {n : ℕ} (hn : s.handshakes = n + 1) :
      Steps network s .upgradeFailed { s with handshakes := n }
  | peer {i : ℕ} {peer peer' : Peer X} {w : Shared} {ready : PeerReady X}
      (hp : s.peers[i]? = some peer)
      (hs : peer.Steps i s.relay.shared (s.released i) ready (peer',w)) :
      Steps network s (.peer i ready) { s with
        peers := s.peers.set i peer'
        relay := { s.relay with shared := w } }
  | zmq (hl : s.listening = true) (msg : List Bytes) :
      Steps network s (.zmq msg) (s.listen network msg)
  | zmqError (hl : s.listening = true) : Steps network s .zmqError s
  | zmqEnded (hl : s.listening = true) : Steps network s .zmqEnded { s with listening := false }

theorem step_steps {network : Network} {s s' : Server X} {ready : Ready X}
    (h : s.step network ready = some s') : s.running = true ∧ s.Steps network ready s' := by
  unfold step at h
  split at h
  · next hr =>
    refine ⟨hr,?_⟩
    cases ready with
    | accepted =>
      cases h
      exact .accepted
    | acceptFailed =>
      cases h
      exact .acceptFailed
    | upgraded =>
      simp only at h
      split at h
      · next n hn =>
        cases h
        exact .upgraded hn
      · cases h
    | upgradeFailed =>
      simp only at h
      split at h
      · next n hn =>
        cases h
        exact .upgradeFailed hn
      · cases h
    | peer i ready =>
      simp only at h
      split at h
      · next peer hp =>
        split at h
        · next peer' w hs =>
          cases h
          exact .peer hp (Peer.step_steps hs)
        · cases h
      · cases h
    | zmq msg =>
      simp only at h
      split at h
      · next hl =>
        cases h
        exact .zmq hl msg
      · cases h
    | zmqError =>
      simp only at h
      split at h
      · next hl =>
        cases h
        exact .zmqError hl
      · cases h
    | zmqEnded =>
      simp only at h
      split at h
      · next hl =>
        cases h
        exact .zmqEnded hl
      · cases h
  · cases h

end Server

end NexusRelay
