import NexusRelay.Connections.Sockets
import NexusRelay.Delivery.Refinement

/-! # The server against the service

The frames a run of the server handles and the messages it gets, in the order of its steps, are
a run of the service. Clients are served their frames in order, and what a socket takes is what
the client of the service reads.
-/
namespace NexusRelay
open Shared
variable {X : Deps}

/-! ## What a step means to the service -/

/-- A frame is handled where it is read, or where the node has answered. -/
def PeerReady.events (i : ℕ) (waiting : Waiting X) : PeerReady X → List (Event X)
  | .text frame =>
    match questionOf (X := X) frame with
    | none => [.frame ⟨i,.clientTxClone⟩ frame ⟨"",fun _ => .ok (.ok [])⟩]
    | some _ => []
  | .answered answer =>
    match waiting with
    | .node asking => [.frame ⟨i,.clientTxClone⟩ asking.text ⟨"",fun _ => answer⟩]
    | _ => []
  | .received => [.recv i]
  | .drained => [.close i]
  | .sent ok => if ok then [] else [.close i]
  | .otherFrame | .ended | .joined => []

def Server.waitingOf (s : Server X) (i : ℕ) : Waiting X :=
  (s.peers[i]?.map Peer.waiting).getD .frame

def Server.events (s : Server X) : Ready X → List (Event X)
  | .peer i ready => ready.events i (s.waitingOf i)
  | .zmq msg => [.zmq msg]
  | .accepted | .acceptFailed | .upgraded | .upgradeFailed | .zmqError | .zmqEnded => []

theorem Peer.step_frame (network : Network) (peer : Peer X) (w : Shared) (seen : BoundedSet String)
    (tx : Sender) (text : String) (node : Node X) :
    RelayState.step network ⟨w,seen⟩ (.frame tx text node) =
      ⟨(peer.resumed ((handleText text (some node) tx).run w)).2,seen⟩ := by
  cases h : (handleText text (some node) tx).run w with
  | ok goesOn w' => cases goesOn <;> simp only [RelayState.step,h,Peer.resumed]
  | error f w' => simp only [RelayState.step,h,Peer.resumed]

theorem Peer.Steps.events (network : Network) {i : ℕ} {peer : Peer X} {w : Shared} {released : Bool}
    {ready : PeerReady X} {out : Peer X × Shared} (h : peer.Steps i w released ready out)
    (seen : BoundedSet String) :
    List.foldl (RelayState.step network) ⟨w,seen⟩ (ready.events i peer.waiting) =
      ⟨out.2,seen⟩ := by
  cases h with
  | asks hwait hq => simp [PeerReady.events,hq]
  | handles hwait hq hout =>
    simp only [PeerReady.events,hq,List.foldl_cons,List.foldl_nil,peer.step_frame,← hout]
  | answered hwait hout =>
    simp only [PeerReady.events,hwait,List.foldl_cons,List.foldl_nil,peer.step_frame]
    rw [← hout ⟨"",fun _ => _⟩ rfl]
  | otherFrame | ended | joined | received | drained | sent | refused => rfl

theorem Server.listen_relay (network : Network) (s : Server X) (msg : List Bytes) :
    (s.listen network msg).relay = s.relay.step network (.zmq msg : Event X) := by
  rcases h : (processZmqMessage msg network : Exec _ (Error X) Unit).run
    (s.relay.shared,s.relay.txsSeen) with ⟨u,w,seen⟩ | ⟨f,w,seen⟩
  · simp only [Server.listen,RelayState.step,h]
  · cases f <;> simp only [Server.listen,RelayState.step,h]

theorem Server.listen_peers (network : Network) (s : Server X) (msg : List Bytes) :
    (s.listen network msg).peers = s.peers := by
  unfold listen
  split <;> rfl

theorem Server.waitingOf_eq {s : Server X} {i : ℕ} {peer : Peer X} (hp : s.peers[i]? = some peer) :
    s.waitingOf i = peer.waiting := by
  simp [waitingOf,hp]

theorem Server.step_events {network : Network} {s s' : Server X} {ready : Ready X}
    (h : s.step network ready = some s') :
    s'.relay = List.foldl (RelayState.step network) s.relay (s.events ready) := by
  cases (step_steps h).2 with
  | accepted | acceptFailed | upgraded | upgradeFailed | zmqError | zmqEnded => rfl
  | zmq hl msg => exact s.listen_relay network msg
  | peer hp hs =>
    have hfold := hs.events network s.relay.txsSeen
    rw [Server.events,waitingOf_eq hp]
    exact hfold.symm

/-! ## Frames and messages -/

def Visible.frame? (i : ℕ) : Visible → Option String
  | .frame j text => if j = i then some text else none
  | _ => none

def Visible.message? : Visible → Option (List Bytes)
  | .message msg => some msg
  | _ => none

def Event.frameOf? (i : ℕ) : Event X → Option String
  | .frame tx text _ => if tx.chan = i then some text else none
  | _ => none

def Event.message? : Event X → Option (List Bytes)
  | .zmq msg => some msg
  | _ => none

/-- The frame a handler holds while the node is asked. -/
def Waiting.inHand : Waiting X → List String
  | .node asking => [asking.text]
  | _ => []

/-- The frames of client `i` that were read. -/
def framesRead (i : ℕ) (seen : List Visible) : List String := seen.filterMap (Visible.frame? i)

/-- The frames of client `i` that were handled. -/
def framesHandled (i : ℕ) (events : List (Event X)) : List String :=
  events.filterMap (Event.frameOf? i)

theorem Peer.resumed_inHand (peer : Peer X)
    (result : EStateM.Result (Fail (Error X)) Shared Bool) :
    (peer.resumed result).1.waiting.inHand = [] := by
  rcases result with ⟨_ | _,w⟩ | ⟨f,w⟩ <;> rfl

theorem Peer.Steps.frames {i : ℕ} {peer : Peer X} {w : Shared} {released : Bool}
    {ready : PeerReady X} {out : Peer X × Shared} (h : peer.Steps i w released ready out) :
    peer.waiting.inHand ++ framesRead i (ready.visible i peer.forward) =
      framesHandled i (ready.events i peer.waiting) ++ out.1.waiting.inHand := by
  have hforwarding : ∀ ready : PeerReady X, framesRead i (ready.visible i peer.forward) = [] →
      framesHandled i (ready.events i peer.waiting) = [] →
      peer.waiting.inHand ++ framesRead i (ready.visible i peer.forward) =
        framesHandled i (ready.events i peer.waiting) ++ peer.waiting.inHand := by
    intro ready hread hhandled
    rw [hread,hhandled,List.append_nil,List.nil_append]
  have hsent : ∀ ok : Bool,
      framesRead i ((PeerReady.sent ok : PeerReady X).visible i peer.forward) = [] := by
    intro ok
    refine List.filterMap_eq_nil_iff.mpr fun v hv => ?_
    obtain ⟨text,-,rfl⟩ := Option.map_eq_some_iff.mp (Option.mem_toList.mp hv)
    rfl
  cases h with
  | asks hwait hq =>
    simp [hwait,Waiting.inHand,PeerReady.visible,PeerReady.events,hq,framesRead,framesHandled,
      Visible.frame?]
  | handles hwait hq hout =>
    have hnone : out.1.waiting.inHand = [] := by
      rw [hout ⟨"",fun _ => .ok (.ok [])⟩]
      exact peer.resumed_inHand _
    rw [hnone]
    simp [hwait,Waiting.inHand,PeerReady.visible,PeerReady.events,hq,framesRead,framesHandled,
      Visible.frame?,Event.frameOf?]
  | @answered asking hwait answer _ hout =>
    have hnone : out.1.waiting.inHand = [] := by
      rw [hout ⟨"",fun _ => answer⟩ rfl]
      exact peer.resumed_inHand _
    rw [hnone]
    simp [hwait,Waiting.inHand,PeerReady.visible,PeerReady.events,framesRead,framesHandled,
      Event.frameOf?]
  | otherFrame hwait | ended hwait | joined hwait =>
    rw [hwait]
    rfl
  | received hf | drained hf => exact hforwarding _ rfl rfl
  | sent hf | refused hf => exact hforwarding _ (hsent _) rfl

def Event.client? : Event X → Option ℕ
  | .frame tx _ _ => some tx.chan
  | .recv c | .close c => some c
  | .zmq _ => none

theorem PeerReady.events_client {i : ℕ} {waiting : Waiting X} {ready : PeerReady X} {e : Event X}
    (h : e ∈ ready.events i waiting) : e.client? = some i := by
  unfold PeerReady.events at h
  split at h
  case h_1 frame =>
    split at h
    · cases List.mem_singleton.mp h
      rfl
    · cases h
  case h_2 answer =>
    split at h
    · cases List.mem_singleton.mp h
      rfl
    · cases h
  case h_5 ok =>
    split at h
    · cases h
    · cases List.mem_singleton.mp h
      rfl
  all_goals
    first
    | cases List.mem_singleton.mp h; rfl
    | cases h

/-- What is of client `i` is nothing that other clients did. -/
theorem filterMap_other {α β : Type} {client : α → Option ℕ} {f : α → Option β} {i j : ℕ} (h : j ≠ i)
    (hf : ∀ a b, f a = some b → client a = some i) {xs : List α}
    (hxs : ∀ a ∈ xs, client a = some j) : xs.filterMap f = [] := by
  refine List.filterMap_eq_nil_iff.mpr fun a ha => ?_
  cases hb : f a with
  | none => rfl
  | some b =>
    have hclient := hf a b hb
    rw [hxs a ha] at hclient
    exact absurd (Option.some.inj hclient) h

theorem Visible.client_of_frame? {i : ℕ} {v : Visible} {text : String}
    (h : v.frame? i = some text) : v.client? = some i := by
  cases v with
  | frame j text =>
    by_cases hj : j = i
    · exact congrArg some hj
    · simp [frame?,hj] at h
  | opened | otherFrame | closed | socket | returned | message => cases h

theorem Event.client_of_frameOf? {i : ℕ} {e : Event X} {text : String}
    (h : e.frameOf? i = some text) : e.client? = some i := by
  cases e with
  | frame tx text node =>
    by_cases hj : tx.chan = i
    · exact congrArg some hj
    · simp [frameOf?,hj] at h
  | zmq | recv | close => cases h

namespace Server
variable {s s' : Server X} {i : ℕ}

theorem waitingOf_moved {peer : Peer X} (hp : s.peers[i]? = some peer) (out : Peer X × Shared) :
    (s.moved i out).waitingOf i = out.1.waiting := waitingOf_eq (moved_self hp out)

theorem waitingOf_moved_other {j : ℕ} (h : i ≠ j) (out : Peer X × Shared) :
    (s.moved j out).waitingOf i = s.waitingOf i := by
  rw [waitingOf,waitingOf,moved_other h]

theorem waitingOf_upgraded (h : s'.peers = s.peers ++ [({} : Peer X)]) (i : ℕ) :
    s'.waitingOf i = s.waitingOf i := by
  rcases peer_of_upgraded h i with hsame | ⟨hnone,hnew⟩
  · rw [waitingOf,waitingOf,hsame]
  · rw [waitingOf,waitingOf,hnone,hnew]
    rfl

/-- The frames read are the frames handled and the one in hand. -/
theorem step_frames {network : Network} {ready : Ready X} (h : s.step network ready = some s')
    (i : ℕ) : (s.waitingOf i).inHand ++ framesRead i (s.visible ready) =
      framesHandled i (s.events ready) ++ (s'.waitingOf i).inHand := by
  have quiet : ∀ ready, framesRead i (s.visible ready) = [] → framesHandled i (s.events ready) = [] →
      s'.waitingOf i = s.waitingOf i →
      (s.waitingOf i).inHand ++ framesRead i (s.visible ready) =
        framesHandled i (s.events ready) ++ (s'.waitingOf i).inHand := by
    intro ready hread hhandled hsame
    rw [hread,hhandled,hsame,List.append_nil,List.nil_append]
  cases (step_steps h).2 with
  | accepted | acceptFailed | upgradeFailed | zmqError | zmqEnded => exact quiet _ rfl rfl rfl
  | upgraded hn => exact quiet _ rfl rfl (waitingOf_upgraded rfl i)
  | zmq hl msg => exact quiet _ rfl rfl (by rw [waitingOf,waitingOf,listen_peers])
  | @peer j peer peer' w ready' hp hs =>
    by_cases hj : j = i
    · subst hj
      have hframes := hs.frames
      rw [visible,events,forwardOf_eq hp,waitingOf_eq hp]
      have hnow : (s.moved j (peer',w)).waitingOf j = peer'.waiting := waitingOf_moved hp _
      rw [← hnow] at hframes
      exact hframes
    · exact quiet (.peer j ready')
        (filterMap_other hj (fun _ _ => Visible.client_of_frame?) fun v => PeerReady.visible_client)
        (filterMap_other hj (fun _ _ => Event.client_of_frameOf?) fun e => PeerReady.events_client)
        (waitingOf_moved_other (fun e => hj e.symm) (peer',w))

end Server

/-! ## Runs -/

def messagesRead (seen : List Visible) : List (List Bytes) := seen.filterMap Visible.message?

def messagesHandled (events : List (Event X)) : List (List Bytes) :=
  events.filterMap Event.message?

/-- What is read of the frames and messages is handled, in order and each once, but for the frame
in hand. -/
structure Handled (seen : List Visible) (events : List (Event X)) (s : Server X) : Prop where
  frames : ∀ i, framesRead i seen = framesHandled i events ++ (s.waitingOf i).inHand
  messages : messagesRead seen = messagesHandled events

theorem Server.step_messages (s : Server X) (ready : Ready X) :
    messagesRead (s.visible ready) = messagesHandled (s.events ready) := by
  cases ready with
  | peer i ready =>
    have hread : messagesRead (ready.visible i (s.forwardOf i)) = [] := by
      refine List.filterMap_eq_nil_iff.mpr fun v hv => ?_
      have hclient := PeerReady.visible_client hv
      cases v with
      | message msg => cases hclient
      | opened | frame | otherFrame | closed | socket | returned => rfl
    have hhandled : messagesHandled (ready.events i (s.waitingOf i)) = [] := by
      refine List.filterMap_eq_nil_iff.mpr fun e he => ?_
      have hclient := PeerReady.events_client he
      cases e with
      | zmq msg => cases hclient
      | frame | recv | close => rfl
    exact hread.trans hhandled.symm
  | accepted | acceptFailed | upgraded | upgradeFailed | zmq msg | zmqError | zmqEnded => rfl

/-- What the server does to the relay is what the frames and messages it handles do, taken in the
order of its steps. -/
theorem Server.run_handled {network : Network} {txCacheSize : ℕ} {readies : List (Ready X)}
    {s : Server X}
    (h : Machine.run (Server.step network) (Server.start txCacheSize) readies = some s) :
    Handled (Machine.outputs (Server.step network) Server.visible (Server.start txCacheSize) readies)
        (Machine.outputs (Server.step network) Server.events (Server.start txCacheSize) readies) s ∧
      s.relay = RelayState.run network txCacheSize
        (Machine.outputs (Server.step network) Server.events (Server.start txCacheSize) readies) := by
  refine Machine.outputs_invariant₂ Server.visible Server.events
    (P := fun seen events s => Handled seen events s ∧
      s.relay = RelayState.run network txCacheSize events) ⟨⟨fun _ => rfl,rfl⟩,rfl⟩ ?_ h
  rintro seen events s ready s' - ⟨⟨hframes,hmessages⟩,hrelay⟩ hs
  refine ⟨⟨fun i => ?_,?_⟩,?_⟩
  · have hstep := Server.step_frames hs i
    simp only [framesRead,framesHandled,List.filterMap_append] at hframes hstep ⊢
    rw [hframes,List.append_assoc,hstep,List.append_assoc]
  · have hstep := s.step_messages ready
    simp only [messagesRead,messagesHandled,List.filterMap_append] at hmessages hstep ⊢
    rw [hmessages,hstep]
  · rw [Server.step_events hs,hrelay,RelayState.run,RelayState.run,List.foldl_append]

/-- The server refines the service. In every run, with the frames and messages in the order in
which they are handled: the frames of each client are handled in the order in which they are
read, the mailbox its socket reads from is the one the service has for these frames and
messages, and the cache holds the last announcements of the service. -/
theorem server_refines_service (hX : X.RenderTotal) (network : Network) {n : ℕ} (hn : 0 < n)
    (readies : List (Ready X)) (s : Server X)
    (h : Machine.run (Server.step network) (Server.start n) readies = some s) :
    let seen := Machine.outputs (Server.step network) Server.visible (Server.start n) readies
    let events := Machine.outputs (Server.step network) Server.events (Server.start n) readies
    let service := Service.run network n events
    Handled seen events s ∧ s.relay.txsSeen.Holds n service.announced ∧
      ∀ i, (service.mailbox i).read =
          socketTexts i true seen ++ socketTexts i false seen ++ (s.forwardOf i).sending?.toList ∧
        (service.mailbox i).unread =
          ((s.relay.shared.channels i).log.drop (s.relay.shared.channels i).received).map Entry.text ∧
        ((service.mailbox i).isOpen = true ↔ s.forwardOf i ≠ .ended) := by
  intro seen events service
  obtain ⟨hhandled,hrelay⟩ := Server.run_handled h
  obtain ⟨hshows,hholds⟩ := RelayState.run_shows hX network hn events
  rw [← hrelay] at hshows hholds
  refine ⟨hhandled,hholds,fun i => ?_⟩
  have hstream := Server.run_streamed hX h i
  have hmailbox := hshows i
  have hread : (service.mailbox i).read =
      ((s.relay.shared.channels i).log.take (s.relay.shared.channels i).received).map Entry.text := by
    rw [List.map_take,hmailbox.texts,hmailbox.received,Mailbox.inbox]
    exact List.take_left.symm
  have hunread : (service.mailbox i).unread =
      ((s.relay.shared.channels i).log.drop (s.relay.shared.channels i).received).map Entry.text := by
    rw [List.map_drop,hmailbox.texts,hmailbox.received,Mailbox.inbox]
    exact List.drop_left.symm
  refine ⟨hread.trans hstream.texts.symm,hunread,?_⟩
  rw [← hmailbox.rxOpen]
  exact hstream.rxOpen

theorem readies_served : ∃ s : Server Deps.sample,
    Machine.run (Server.step .elementsRegtest) (Server.start 1000) Sample.readies = some s ∧
      ((Service.run .elementsRegtest 1000 (Machine.outputs (Server.step .elementsRegtest)
        Server.events (Server.start 1000) Sample.readies)).mailbox 1).read =
        socketTexts 1 true (Machine.outputs (Server.step .elementsRegtest) Server.visible
          (Server.start 1000) Sample.readies) ++
        socketTexts 1 false (Machine.outputs (Server.step .elementsRegtest) Server.visible
          (Server.start 1000) Sample.readies) ++ (s.forwardOf 1).sending?.toList := by
  obtain ⟨s,hs⟩ := Option.isSome_iff_exists.mp Sample.readies_run
  exact ⟨s,hs,((server_refines_service Deps.sample_renderTotal .elementsRegtest (n := 1000)
    (by decide) Sample.readies s hs).2.2 1).1⟩

end NexusRelay
