import NexusRelay.Foundation.Machine
import NexusRelay.Model.Relay

/-! # Connections and their tasks

`handle_connection` with its receive loop and its forward task, next to the listener's
task. Tasks switch where a frame, the node or the socket is awaited. What precedes the
await of the node in `process_message` neither reads nor writes the shared state, so a
frame whose request needs the node is handled in one piece when the node has answered.
Connection `i` owns channel `i`.
-/
namespace NexusRelay
open Shared
variable {X : Deps}

/-- Where `handle_connection` is: at `ws_rx.next()`, with a text frame in hand, at
`forward_task.await`, or past its end. -/
inductive Phase where
  | reading
  | handling (text : String)
  | joining
  | returned
  | panicked
  deriving DecidableEq, Repr

/-- One connection: which of its local senders are alive, and whether its forward task,
which owns the receiver, is still running. -/
structure Connection where
  phase : Phase := .reading
  clientTx : Bool := true
  clientTxClone : Bool := true
  forwarding : Bool := true
  deriving DecidableEq, Repr

namespace Connection

/-- After the loop: `drop(client_tx_clone)`, then `forward_task.await`. -/
def leaveLoop (conn : Connection) : Connection :=
  { conn with phase := .joining, clientTxClone := false }

/-- The function is left and its locals are dropped. -/
def leave (conn : Connection) (phase : Phase) : Connection :=
  { conn with phase := phase, clientTx := false, clientTxClone := false }

/-- What follows the handling of a frame: the next frame, the end of the loop when the reply
cannot be sent, or the end of the task. -/
def resume (conn : Connection) : EStateM.Result (Fail (Error X)) Shared Bool → Connection
  | .ok true _ => { conn with phase := .reading }
  | .ok false _ => conn.leaveLoop
  | .error _ _ => conn.leave .panicked

inductive Moves : Connection → Connection → Prop
  | receives {conn : Connection} (h : conn.phase = .reading) (text : String) :
      Moves conn { conn with phase := .handling text }
  | answered {conn : Connection} {text : String} (h : conn.phase = .handling text) :
      Moves conn { conn with phase := .reading }
  | leavesLoop {conn : Connection} (h : conn.phase = .reading ∨ ∃ text, conn.phase = .handling text) :
      Moves conn conn.leaveLoop
  | panics {conn : Connection} {text : String} (h : conn.phase = .handling text) :
      Moves conn (conn.leave .panicked)
  | stopsForwarding (conn : Connection) : Moves conn { conn with forwarding := false }
  | returns {conn : Connection} (h : conn.phase = .joining) (hf : conn.forwarding = false) :
      Moves conn (conn.leave .returned)

theorem resume_moves {conn : Connection} {text : String} (h : conn.phase = .handling text)
    (result : EStateM.Result (Fail (Error X)) Shared Bool) : conn.Moves (conn.resume result) := by
  cases result with
  | ok goesOn w =>
    cases goesOn with
    | true => exact .answered h
    | false => exact .leavesLoop (Or.inr ⟨text,h⟩)
  | error f w => exact .panics h

end Connection

structure System where
  relay : RelayState
  listening : Bool
  connections : List Connection

variable (X) in
/-- What may happen next. `node` is what the node answers to the request in hand, `sent`
whether the socket takes the text. -/
inductive Act where
  | accept
  | text (i : ℕ) (text : String)
  | otherFrame (i : ℕ)
  | handle (i : ℕ) (node : Node X)
  | stop (i : ℕ)
  | forward (i : ℕ) (sent : Bool)
  | drained (i : ℕ)
  | join (i : ℕ)
  | zmq (msg : List Bytes)

namespace System

def start (txCacheSize : ℕ) : System := ⟨.start txCacheSize,true,[]⟩

def locals (s : System) (i : ℕ) : List Sender :=
  match s.connections[i]? with
  | none => []
  | some conn =>
    (if conn.clientTx then [⟨i,.clientTx⟩] else []) ++
      if conn.clientTxClone then [⟨i,.clientTxClone⟩] else []

/-- A sender is alive as a local variable or inside the registry. -/
def Alive (s : System) (sender : Sender) : Prop :=
  sender ∈ s.locals sender.chan ∨ ∃ t, sender ∈ s.relay.shared.registry.entryOrDefault t

def Released (s : System) (i : ℕ) : Prop := ∀ sender : Sender, sender.chan = i → ¬ s.Alive sender

def hasSender (s : System) (i : ℕ) : Bool :=
  decide (s.locals i ≠ [] ∨ ∃ t ∈ s.relay.shared.registry.topics.keys,
    ∃ sender ∈ s.relay.shared.registry.entryOrDefault t, sender.chan = i)

def setConnection (s : System) (i : ℕ) (conn : Connection) : System :=
  { s with connections := s.connections.set i conn }

def handle (network : Network) (s : System) (i : ℕ) (conn : Connection) (text : String)
    (node : Node X) : System :=
  let tx : Sender := ⟨i,.clientTxClone⟩
  let result := (handleText text (some node) tx).run s.relay.shared
  { s.setConnection i (conn.resume result) with
    relay := s.relay.step network (.frame tx text node) }

/-- `process_zmq_message` returned: an error is only logged, a panic ends the task. -/
def listens (network : Network) (s : System) (msg : List Bytes) : Bool :=
  match (processZmqMessage msg network : Exec _ (Error X) Unit).run
    (s.relay.shared,s.relay.txsSeen) with
  | .error .panic _ => false
  | _ => true

def step (network : Network) (s : System) : Act X → Option System
  | .accept => some { s with connections := s.connections ++ [{}] }
  | .text i text =>
    match s.connections[i]? with
    | some conn =>
      if conn.phase = .reading then some (s.setConnection i { conn with phase := .handling text })
      else none
    | none => none
  | .otherFrame i =>
    match s.connections[i]? with
    | some conn => if conn.phase = .reading then some s else none
    | none => none
  | .handle i node =>
    match s.connections[i]? with
    | some conn =>
      match conn.phase with
      | .handling text => some (s.handle network i conn text node)
      | _ => none
    | none => none
  | .stop i =>
    match s.connections[i]? with
    | some conn =>
      if conn.phase = .reading then some (s.setConnection i conn.leaveLoop) else none
    | none => none
  | .forward i sent =>
    match s.connections[i]? with
    | some conn =>
      let ch := s.relay.shared.channels i
      if conn.forwarding ∧ ch.received < ch.log.length then
        let relay := s.relay.step network (.recv i : Event X)
        if sent then some { s with relay := relay }
        else some { s.setConnection i { conn with forwarding := false } with
          relay := relay.step network (.close i : Event X) }
      else none
    | none => none
  | .drained i =>
    match s.connections[i]? with
    | some conn =>
      let ch := s.relay.shared.channels i
      if conn.forwarding ∧ ch.received = ch.log.length ∧ s.hasSender i = false then
        some { s.setConnection i { conn with forwarding := false } with
          relay := s.relay.step network (.close i : Event X) }
      else none
    | none => none
  | .join i =>
    match s.connections[i]? with
    | some conn =>
      if conn.phase = .joining ∧ conn.forwarding = false then
        some (s.setConnection i (conn.leave .returned))
      else none
    | none => none
  | .zmq msg =>
    if s.listening then
      some { s with
        relay := s.relay.step network (.zmq msg : Event X)
        listening := s.listens (X := X) network msg }
    else none

/-- Everything a step can do, with the guard it has. -/
inductive Steps (network : Network) (s : System) : Act X → System → Prop
  | accept : Steps network s .accept { s with connections := s.connections ++ [{}] }
  | text {i : ℕ} {conn : Connection} (hc : s.connections[i]? = some conn)
      (hp : conn.phase = .reading) (text : String) :
      Steps network s (.text i text) (s.setConnection i { conn with phase := .handling text })
  | otherFrame {i : ℕ} {conn : Connection} (hc : s.connections[i]? = some conn)
      (hp : conn.phase = .reading) : Steps network s (.otherFrame i) s
  | handle {i : ℕ} {conn : Connection} {text : String} (hc : s.connections[i]? = some conn)
      (hp : conn.phase = .handling text) (node : Node X) :
      Steps network s (.handle i node) (s.handle network i conn text node)
  | stop {i : ℕ} {conn : Connection} (hc : s.connections[i]? = some conn)
      (hp : conn.phase = .reading) : Steps network s (.stop i) (s.setConnection i conn.leaveLoop)
  | forward {i : ℕ} {conn : Connection} (hc : s.connections[i]? = some conn)
      (hf : conn.forwarding = true) :
      Steps network s (.forward i true)
        { s with relay := s.relay.step network (.recv i : Event X) }
  | forwardFails {i : ℕ} {conn : Connection} (hc : s.connections[i]? = some conn)
      (hf : conn.forwarding = true) :
      Steps network s (.forward i false)
        { s.setConnection i { conn with forwarding := false } with
          relay := (s.relay.step network (.recv i : Event X)).step network (.close i : Event X) }
  | drained {i : ℕ} {conn : Connection} (hc : s.connections[i]? = some conn)
      (hf : conn.forwarding = true) (hs : s.hasSender i = false) :
      Steps network s (.drained i) { s.setConnection i { conn with forwarding := false } with
        relay := s.relay.step network (.close i : Event X) }
  | join {i : ℕ} {conn : Connection} (hc : s.connections[i]? = some conn)
      (hp : conn.phase = .joining) (hf : conn.forwarding = false) :
      Steps network s (.join i) (s.setConnection i (conn.leave .returned))
  | zmq (hl : s.listening = true) (msg : List Bytes) :
      Steps network s (.zmq msg) { s with
        relay := s.relay.step network (.zmq msg : Event X)
        listening := s.listens (X := X) network msg }

theorem step_steps {network : Network} {s s' : System} {a : Act X}
    (h : s.step network a = some s') : s.Steps network a s' := by
  cases a with
  | accept =>
    cases h
    exact .accept
  | text i text =>
    simp only [step] at h
    split at h
    · next conn hc =>
      split at h
      · next hp =>
        cases h
        exact .text hc hp text
      · cases h
    · cases h
  | otherFrame i =>
    simp only [step] at h
    split at h
    · next conn hc =>
      split at h
      · next hp =>
        cases h
        exact .otherFrame hc hp
      · cases h
    · cases h
  | handle i node =>
    simp only [step] at h
    split at h
    · next conn hc =>
      split at h
      · next text hp =>
        cases h
        exact .handle hc hp node
      · cases h
    · cases h
  | stop i =>
    simp only [step] at h
    split at h
    · next conn hc =>
      split at h
      · next hp =>
        cases h
        exact .stop hc hp
      · cases h
    · cases h
  | forward i sent =>
    simp only [step] at h
    split at h
    · next conn hc =>
      split at h
      · next hf =>
        cases sent with
        | true =>
          cases h
          exact .forward hc hf.1
        | false =>
          cases h
          exact .forwardFails hc hf.1
      · cases h
    · cases h
  | drained i =>
    simp only [step] at h
    split at h
    · next conn hc =>
      split at h
      · next hf =>
        cases h
        exact .drained hc hf.1 hf.2.2
      · cases h
    · cases h
  | join i =>
    simp only [step] at h
    split at h
    · next conn hc =>
      split at h
      · next hp =>
        cases h
        exact .join hc hp.1 hp.2
      · cases h
    · cases h
  | zmq msg =>
    simp only [step] at h
    split at h
    · next hl =>
      cases h
      exact .zmq hl msg
    · cases h

theorem alive_of_hasSender_eq_false {s : System} {i : ℕ} (h : s.hasSender i = false) :
    s.Released i := by
  rintro sender rfl halive
  have hnot := of_decide_eq_false h
  rcases halive with hlocal | ⟨t,ht⟩
  · exact hnot (Or.inl (List.ne_nil_of_mem hlocal))
  · refine hnot (Or.inr ⟨t,?_,sender,ht,rfl⟩)
    rw [Finmap.mem_keys,Finmap.mem_iff]
    cases hl : s.relay.shared.registry.topics.lookup t with
    | none => simp [TopicRegistry.entryOrDefault,hl] at ht
    | some ss => exact ⟨ss,rfl⟩

/-! ## The relay inside -/

/-- What an action does to the shared state is what some events do. -/
theorem step_relay {network : Network} {s s' : System} {a : Act X}
    (h : s.step network a = some s') :
    ∃ events : List (Event X), s'.relay = List.foldl (RelayState.step network) s.relay events := by
  cases step_steps h with
  | accept | text | otherFrame | stop | join => exact ⟨[],rfl⟩
  | @handle i conn text hc hp node => exact ⟨[.frame ⟨i,.clientTxClone⟩ text node],rfl⟩
  | @forward i => exact ⟨[.recv i],rfl⟩
  | @forwardFails i => exact ⟨[.recv i,.close i],rfl⟩
  | @drained i => exact ⟨[.close i],rfl⟩
  | zmq hl msg => exact ⟨[.zmq msg],rfl⟩

/-- The shared state of every interleaving of the tasks is the state of a run of events. -/
theorem reachable_run {network : Network} {txCacheSize : ℕ} {s : System}
    (h : Machine.Reachable (step (X := X) network) (start txCacheSize) s) :
    ∃ events : List (Event X), s.relay = RelayState.run network txCacheSize events :=
  h.simulation fun _ _ _ hs => step_relay hs

theorem reachable_healthy (hX : X.RenderTotal) {network : Network} {txCacheSize : ℕ} {s : System}
    (h : Machine.Reachable (step (X := X) network) (start txCacheSize) s) :
    s.relay.shared.Healthy := by
  obtain ⟨events,heq⟩ := reachable_run h
  rw [heq]
  exact RelayState.run_healthy network txCacheSize hX events

/-! ## The connections -/

/-- A step accepts a connection, moves one, or leaves them all alone. -/
theorem step_connections {network : Network} {s s' : System} {a : Act X}
    (h : s.step network a = some s') :
    s'.connections = s.connections ∨ s'.connections = s.connections ++ [({} : Connection)] ∨
      ∃ i conn conn', s.connections[i]? = some conn ∧ conn.Moves conn' ∧
        s'.connections = s.connections.set i conn' := by
  cases step_steps h with
  | accept => exact Or.inr (Or.inl rfl)
  | otherFrame | forward | zmq => exact Or.inl rfl
  | text hc hp text => exact Or.inr (Or.inr ⟨_,_,_,hc,.receives hp text,rfl⟩)
  | handle hc hp node => exact Or.inr (Or.inr ⟨_,_,_,hc,Connection.resume_moves hp _,rfl⟩)
  | stop hc hp => exact Or.inr (Or.inr ⟨_,_,_,hc,.leavesLoop (Or.inl hp),rfl⟩)
  | forwardFails hc | drained hc => exact Or.inr (Or.inr ⟨_,_,_,hc,.stopsForwarding _,rfl⟩)
  | join hc hp hf => exact Or.inr (Or.inr ⟨_,_,_,hc,.returns hp hf,rfl⟩)

theorem reachable_connections {network : Network} {txCacheSize : ℕ} {P : Connection → Prop}
    (new : P ({} : Connection)) (moves : ∀ conn conn', P conn → conn.Moves conn' → P conn') {s : System}
    (h : Machine.Reachable (step (X := X) network) (start txCacheSize) s) :
    ∀ conn ∈ s.connections, P conn := by
  refine h.invariant (P := fun s => ∀ conn ∈ s.connections, P conn) (by simp [start]) ?_
  intro s a s' ih hs conn hmem
  rcases step_connections hs with heq | heq | ⟨i,old,conn',hold,hmoves,heq⟩
  · rw [heq] at hmem
    exact ih conn hmem
  · rw [heq] at hmem
    rcases List.mem_append.mp hmem with hmem | hmem
    · exact ih conn hmem
    · rw [List.mem_singleton.mp hmem]
      exact new
  · rw [heq] at hmem
    rcases List.mem_or_eq_of_mem_set hmem with hmem | rfl
    · exact ih conn hmem
    · exact moves old _ (ih old (List.mem_of_getElem? hold)) hmoves

end System

end NexusRelay
