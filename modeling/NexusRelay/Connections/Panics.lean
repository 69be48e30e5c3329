import NexusRelay.Connections.Serving
import NexusRelay.Requests.Diagnosis

/-! # Which handlers panic

A handler dies of a frame of its own client, of the last one it handles, and of no other. What
the other clients send, the listener's messages and the sockets cannot make it panic.
-/
namespace NexusRelay
open Shared
variable {X : Deps}

def Event.handled? (i : ℕ) : Event X → Option (String × Node X)
  | .frame tx text node => if tx.chan = i then some (text,node) else none
  | _ => none

/-- The frames of client `i` that were handled, each with the node it met. -/
def handledBy (i : ℕ) (events : List (Event X)) : List (String × Node X) :=
  events.filterMap (Event.handled? i)

def Crashes (frame : String × Node X) : Prop := Diagnosed frame.1 frame.2 .panicked

/-! ## One frame -/

theorem verdictOf_eq_panicked (result : EStateM.Result (Fail (Error X)) Shared JsonRpc) :
    verdictOf result = some .panicked ↔ ∃ f w, result = .error f w := by
  cases result with
  | ok reply w => cases reply <;> simp [verdictOf,JsonRpc.verdict]
  | error f w => simp [verdictOf]

theorem handleText_crashes (hX : X.RenderTotal) (hS : X.ProposalSerializes) (text : String)
    (node : Node X) (tx : Sender) {w : Shared} (hw : w.Healthy) :
    (∃ f w', (handleText text (some node) tx).run w = .error f w') ↔ Crashes (text,node) := by
  rw [Crashes,← verdictOf_eq_iff hX hS tx hw,verdictOf_eq_panicked,handleText_eq,EStateM.run_bind]
  cases (responseToText text (some node) tx).run w with
  | error f w' => simp
  | ok reply w' =>
    obtain ⟨str,hstr⟩ := hX.eq_some reply
    simp [sendPrinted,hstr,run_sendReply]

theorem Peer.resumed_panicked (peer : Peer X)
    (result : EStateM.Result (Fail (Error X)) Shared Bool) :
    (peer.resumed result).1.waiting = .panicked ↔ ∃ f w, result = .error f w := by
  rcases result with ⟨_ | _,w⟩ | ⟨f,w⟩
  · simp [resumed,leaveLoop]
  · simp [resumed]
  · simp [resumed,leave]

/-! ## One step -/

/-- A step handles no frame of its client and kills no handler, or it handles one frame, which
decides whether the handler lives. -/
theorem Peer.Steps.crashes (hX : X.RenderTotal) (hS : X.ProposalSerializes) {i : ℕ} {peer : Peer X}
    {w : Shared} (hw : w.Healthy) {released : Bool} {ready : PeerReady X} {out : Peer X × Shared}
    (h : peer.Steps i w released ready out) :
    (handledBy i (ready.events i peer.waiting) = [] ∧
      (out.1.waiting = .panicked ↔ peer.waiting = .panicked)) ∨
    peer.waiting ≠ .panicked ∧ ∃ frame, handledBy i (ready.events i peer.waiting) = [frame] ∧
      (out.1.waiting = .panicked ↔ Crashes frame) := by
  cases h with
  | @asks text pending hwait hq =>
    left
    simp [handledBy,PeerReady.events,hq,hwait]
  | @handles text out hwait hq hout =>
    right
    refine ⟨by simp [hwait],(text,⟨"",fun _ => .ok (.ok [])⟩),?_,?_⟩
    · simp [handledBy,PeerReady.events,hq,Event.handled?]
    · rw [hout ⟨"",fun _ => .ok (.ok [])⟩,peer.resumed_panicked,handleText_crashes hX hS _ _ _ hw]
  | @answered asking hwait answer out hout =>
    right
    refine ⟨by simp [hwait],(asking.text,⟨"",fun _ => answer⟩),?_,?_⟩
    · simp [handledBy,PeerReady.events,hwait,Event.handled?]
    · rw [hout ⟨"",fun _ => answer⟩ rfl,peer.resumed_panicked,handleText_crashes hX hS _ _ _ hw]
  | otherFrame hwait => exact Or.inl ⟨rfl,Iff.rfl⟩
  | ended hwait =>
    left
    simp [handledBy,PeerReady.events,leaveLoop,hwait]
  | joined hwait hf =>
    left
    simp [handledBy,PeerReady.events,leave,hwait]
  | received | drained | sent | refused => exact Or.inl ⟨rfl,Iff.rfl⟩

/-! ## Runs -/

/-- No frame but the last crashed, and the last one did if the handler is dead. -/
structure HandlerFate (dead : Prop) (frames : List (String × Node X)) : Prop where
  before : ∀ frame ∈ frames.dropLast, ¬ Crashes frame
  last : dead ↔ ∃ frame, frames.getLast? = some frame ∧ Crashes frame

namespace HandlerFate
variable {dead dead' : Prop} {frames : List (String × Node X)}

theorem congr (h : HandlerFate dead frames) (hd : dead' ↔ dead) : HandlerFate dead' frames :=
  ⟨h.before,hd.trans h.last⟩

/-- While the handler lives, no frame crashed. -/
theorem alive (h : HandlerFate dead frames) (hd : ¬ dead) : ∀ frame ∈ frames, ¬ Crashes frame := by
  intro frame hmem hcrash
  obtain ⟨earlier,last,rfl⟩ := (List.eq_nil_or_concat' frames).resolve_left
    (List.ne_nil_of_mem hmem)
  rcases List.mem_append.mp hmem with hearlier | hlast
  · exact h.before frame (by simpa using hearlier) hcrash
  · cases List.mem_singleton.mp hlast
    exact hd (h.last.mpr ⟨frame,by simp,hcrash⟩)

theorem handled (h : HandlerFate dead frames) (hd : ¬ dead) {frame : String × Node X}
    (hnew : dead' ↔ Crashes frame) : HandlerFate dead' (frames ++ [frame]) := by
  refine ⟨?_,?_⟩
  · rw [List.dropLast_concat]
    exact h.alive hd
  · rw [hnew]
    simp

end HandlerFate

theorem Event.client_of_handled? {i : ℕ} {e : Event X} {frame : String × Node X}
    (h : e.handled? i = some frame) : e.client? = some i := by
  cases e with
  | frame tx text node =>
    by_cases hj : tx.chan = i
    · exact congrArg some hj
    · simp [handled?,hj] at h
  | zmq | recv | close => cases h

namespace Server
variable {s s' : Server X} {i : ℕ} {frames : List (String × Node X)}

/-- A step of client `i` may decide the fate of its handler, no other step does. -/
theorem moved_fate (hX : X.RenderTotal) (hS : X.ProposalSerializes) {j : ℕ} {peer : Peer X}
    (hw : s.relay.shared.Healthy) (hp : s.peers[j]? = some peer) {ready : PeerReady X}
    {out : Peer X × Shared} (hs : peer.Steps j s.relay.shared (s.released j) ready out)
    (h : HandlerFate (s.waitingOf i = .panicked) frames) :
    HandlerFate ((s.moved j out).waitingOf i = .panicked)
      (frames ++ handledBy i (s.events (.peer j ready))) := by
  by_cases hj : j = i
  · subst hj
    have hold := waitingOf_eq hp
    have hnew := waitingOf_moved hp out
    rw [events,hold,hnew]
    rw [hold] at h
    rcases hs.crashes hX hS hw with ⟨hnone,hsame⟩ | ⟨halive,frame,hone,hdies⟩
    · rw [hnone,List.append_nil]
      exact h.congr hsame
    · rw [hone]
      exact h.handled halive hdies
  · have hnone : handledBy i (s.events (.peer j ready)) = [] :=
      filterMap_other hj (fun _ _ => Event.client_of_handled?) fun e => PeerReady.events_client
    rw [hnone,List.append_nil,waitingOf_moved_other (fun e => hj e.symm) out]
    exact h

theorem step_fate (hX : X.RenderTotal) (hS : X.ProposalSerializes) {network : Network}
    {ready : Ready X} (hw : s.relay.shared.Healthy) (hs : s.step network ready = some s')
    (h : HandlerFate (s.waitingOf i = .panicked) frames) :
    HandlerFate (s'.waitingOf i = .panicked) (frames ++ handledBy i (s.events ready)) := by
  have quiet : handledBy i (s.events ready) = [] → s'.waitingOf i = s.waitingOf i →
      HandlerFate (s'.waitingOf i = .panicked) (frames ++ handledBy i (s.events ready)) := by
    intro hnone hsame
    rw [hnone,hsame,List.append_nil]
    exact h
  cases (step_steps hs).2 with
  | accepted | acceptFailed | upgradeFailed | zmqError | zmqEnded => exact quiet rfl rfl
  | upgraded hn => exact quiet rfl (waitingOf_upgraded rfl i)
  | zmq hl msg => exact quiet rfl (by rw [waitingOf,waitingOf,listen_peers])
  | peer hp hstep => exact moved_fate hX hS hw hp hstep h

end Server

/-- In every run of the server a handler has panicked exactly when the last frame of its client
that was handled is one of those that crash, and no frame before it was. So no client, message,
node or socket makes the handler of another client panic, and a handler that meets no such frame
never does. -/
theorem handlers_die_of_their_frames (hX : X.RenderTotal) (hS : X.ProposalSerializes)
    (network : Network) (txCacheSize : ℕ) (readies : List (Ready X)) (s : Server X)
    (h : Machine.run (Server.step network) (Server.start txCacheSize) readies = some s) (i : ℕ) :
    HandlerFate (s.waitingOf i = .panicked) (handledBy i (Machine.outputs (Server.step network)
      Server.events (Server.start txCacheSize) readies)) := by
  refine Machine.outputs_invariant (P := fun events s =>
    HandlerFate (s.waitingOf i = .panicked) (handledBy i events)) ⟨?_,?_⟩ ?_ h
  · exact fun _ hmem => absurd hmem List.not_mem_nil
  · simp [handledBy,Server.waitingOf,Server.start]
  · intro events s ready s' hr ih hs
    rw [handledBy,List.filterMap_append]
    exact Server.step_fate hX hS (Server.reachable_healthy hX hr) hs ih

/-- The node does not answer, and the proposal that asked it kills the handler of its client. -/
def Sample.unanswered : List (Ready Deps.sample) :=
  [.accepted,.upgraded,
    .peer 0 (.text (Sample.print (Sample.request "publish" "proposal"
      (Sample.proposalValue (true,false))))),
    .peer 0 (.answered (.error ()))]

theorem unanswered_fate : ∃ s : Server Deps.sample,
    Machine.run (Server.step .elementsRegtest) (Server.start 1000) Sample.unanswered = some s ∧
      s.locals 0 = [] ∧
      HandlerFate (s.waitingOf 0 = .panicked) (handledBy 0 (Machine.outputs
        (Server.step .elementsRegtest) Server.events (Server.start 1000) Sample.unanswered)) := by
  have hrun : (Machine.run (Server.step .elementsRegtest) (Server.start 1000)
      Sample.unanswered).any (fun s => decide (s.locals 0 = [])) = true := by decide +kernel
  obtain ⟨s,hs,hlocals⟩ := (Option.any_eq_true ..).mp hrun
  exact ⟨s,hs,of_decide_eq_true hlocals,handlers_die_of_their_frames Deps.sample_renderTotal
    Deps.sample_proposalSerializes .elementsRegtest 1000 Sample.unanswered s hs 0⟩

end NexusRelay
