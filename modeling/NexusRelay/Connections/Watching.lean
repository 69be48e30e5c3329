import NexusRelay.Connections.Progress
import NexusRelay.Connections.Serving
import NexusRelay.Delivery.Reading

/-! # What a wallet reads off its socket

From the bytes of the node's messages to the `TxSeen` and `AddressSeen` a client reads back: through
the cache, the registry, the channel, the forward task and the socket, in every interleaving.
-/
namespace NexusRelay
open Shared
variable {X : Deps}

/-- What the channel of a client got: what its socket took, the text it refused, the one being
sent, and the queue. -/
def Server.forwarded (s : Server X) (seen : List Visible) (i : ℕ) : List String :=
  socketTexts i true seen ++ socketTexts i false seen ++ (s.forwardOf i).sending?.toList ++
    ((s.relay.shared.channels i).log.drop (s.relay.shared.channels i).received).map Entry.text

theorem Server.forwarded_inbox (hX : X.RenderTotal) {network : Network} {n : ℕ} (hn : 0 < n)
    {readies : List (Ready X)} {s : Server X}
    (h : Machine.run (Server.step network) (Server.start n) readies = some s) (i : ℕ) :
    let seen := Machine.outputs (Server.step network) Server.visible (Server.start n) readies
    let events := Machine.outputs (Server.step network) Server.events (Server.start n) readies
    let mailbox := (Service.run network n events).mailbox i
    s.forwarded seen i = mailbox.inbox ∧ (s.relay.shared.channels i).log.map Entry.text = mailbox.inbox ∧
      (mailbox.isOpen = true ↔ s.forwardOf i ≠ .ended) := by
  intro seen events mailbox
  obtain ⟨-,hrelay⟩ := Server.run_handled h
  have hshows := (RelayState.run_shows hX network hn events).1 i
  rw [← hrelay] at hshows
  have hstream := Server.run_streamed hX h i
  have htexts := hstream.texts
  refine ⟨?_,hshows.texts,?_⟩
  · rw [forwarded,htexts,← List.map_append,List.take_append_drop]
    exact hshows.texts
  · rw [← hshows.rxOpen]
    exact hstream.rxOpen

/-- Where the server has settled, the socket of a client whose forward task is not over took all
that its channel got. -/
theorem Server.settled_inbox (hX : X.RenderTotal) {network : Network} {n : ℕ} (hn : 0 < n)
    {readies : List (Ready X)} {s : Server X}
    (h : Machine.run (Server.step network) (Server.start n) readies = some s)
    (hr : s.running = true)
    (hnone : ∀ ready : Ready X, ready.internal = true → s.step network ready = none) {i : ℕ}
    {peer : Peer X} (hp : s.peers[i]? = some peer) (hf : peer.forward ≠ .ended) :
    socketTexts i true (Machine.outputs (Server.step network) Server.visible (Server.start n)
      readies) = ((Service.run network n (Machine.outputs (Server.step network) Server.events
        (Server.start n) readies)).mailbox i).inbox := by
  rw [((Server.settled_sockets hX h hr hnone hp).2 hf).2]
  exact (Server.forwarded_inbox hX hn h i).2.1

/-- What a client of the service reads of its mailbox in any way, a client of the server reads of
all that its channel got, and of what its socket took where the server has settled. -/
theorem Server.client_reads (hX : X.RenderTotal) {network : Network} {n : ℕ} (hn : 0 < n)
    {readies : List (Ready X)} {s : Server X}
    (h : Machine.run (Server.step network) (Server.start n) readies = some s) {i : ℕ} {β : Type}
    {f : String → Option β} {out : List (Event X) → List β} (hreads : ∀ events,
      ((Service.run network n events).mailbox i).inbox.filterMap f = out events) :
    let seen := Machine.outputs (Server.step network) Server.visible (Server.start n) readies
    let events := Machine.outputs (Server.step network) Server.events (Server.start n) readies
    (s.forwarded seen i).filterMap f = out events ∧
      (s.running = true →
        (∀ ready : Ready X, ready.internal = true → s.step network ready = none) →
        ∀ peer, s.peers[i]? = some peer → peer.forward ≠ .ended →
          (socketTexts i true seen).filterMap f = out events) := by
  intro seen events
  refine ⟨?_,fun hr hnone peer hp hf => ?_⟩
  · rw [(Server.forwarded_inbox hX hn h i).1]
    exact hreads events
  · rw [Server.settled_inbox hX hn h hr hnone hp hf]
    exact hreads events

/-- In every run of the server, what a client reads as notifications in all that its channel got
is, in order and with nothing else, each notification of each message that came while its forward
task was not over, once for each subscription to its topic that was acknowledged by then; and
where the server has settled and the task is not over, its socket took them all. -/
theorem wallets_read_the_chain (hX : X.RenderTotal) (hread : X.ResponsesReadBack)
    (hP : X.ProposalsAreObjects) (hW : X.ProposalsHaveNoWhere) (network : Network) {n : ℕ}
    (hn : 0 < n) (readies : List (Ready X)) (s : Server X)
    (h : Machine.run (Server.step network) (Server.start n) readies = some s) (i : ℕ) :
    let seen := Machine.outputs (Server.step network) Server.visible (Server.start n) readies
    let events := Machine.outputs (Server.step network) Server.events (Server.start n) readies
    let notices := History.collect (Service.step network n) (Service.notices network n i)
      Service.start events
    (s.forwarded seen i).filterMap (readNotice X) = notices ∧
      (s.running = true →
        (∀ ready : Ready X, ready.internal = true → s.step network ready = none) →
        ∀ peer, s.peers[i]? = some peer → peer.forward ≠ .ended →
          (socketTexts i true seen).filterMap (readNotice X) = notices) := by
  intro seen events notices
  exact Server.client_reads hX hn h fun events =>
    Service.run_reads network n hX hread hP hW events i

/-- A wallet asks for its address twice, and a transaction that pays it enters the mempool. -/
def Sample.wallet : List (Ready Deps.text) :=
  let watch := Sample.print (Sample.request "subscribe" "address" (.string Sample.address))
  [.accepted,.upgraded,.peer 0 (.text watch),.peer 0 (.text watch),.zmq [rawtx,Sample.txBytes],
    .peer 0 .received,.peer 0 (.sent true),.peer 0 .received]

theorem wallet_reads_twice : ∃ s : Server Deps.text,
    Machine.run (Server.step .elementsRegtest) (Server.start 1000) Sample.wallet = some s ∧
      (s.forwarded (Machine.outputs (Server.step .elementsRegtest) Server.visible
        (Server.start 1000) Sample.wallet) 0).filterMap (readNotice Deps.text) =
        List.replicate 2 (.address ⟨Sample.address,Sample.txid,Sample.txHex,.mempool⟩) := by
  have hsome : (Machine.run (Server.step .elementsRegtest) (Server.start 1000)
      Sample.wallet).isSome = true := by decide +kernel
  have hnotices : History.collect (Service.step .elementsRegtest 1000)
      (Service.notices .elementsRegtest 1000 0) Service.start (Machine.outputs
        (Server.step .elementsRegtest) Server.events (Server.start 1000) Sample.wallet) =
      List.replicate 2 (.address ⟨Sample.address,Sample.txid,Sample.txHex,.mempool⟩) := by
    decide +kernel
  obtain ⟨s,hs⟩ := Option.isSome_iff_exists.mp hsome
  exact ⟨s,hs,((wallets_read_the_chain Deps.text_renderTotal Deps.text_responsesReadBack
    Deps.text_proposalsAreObjects Deps.text_proposalsHaveNoWhere .elementsRegtest (n := 1000)
    (by decide) Sample.wallet s hs 0).1).trans hnotices⟩

/-! ## What clients read of each other -/

/-- In every run of the server, what a client reads as published by clients in all that its channel
got is, in order and unchanged, the content of each `any` publish and each validated proposal that
was served while its forward task was not over, whoever sent it, once for each subscription to its
topic that was acknowledged by then; and where the server has settled and the task is not over,
its socket took them all. -/
theorem clients_read_each_other (hX : X.RenderTotal) (hread : X.ResponsesReadBack)
    (hP : X.ProposalsAreObjects) (hW : X.ProposalsHaveNoWhere) (network : Network) {n : ℕ}
    (hn : 0 < n) (readies : List (Ready X)) (s : Server X)
    (h : Machine.run (Server.step network) (Server.start n) readies = some s) (i : ℕ) :
    let seen := Machine.outputs (Server.step network) Server.visible (Server.start n) readies
    let events := Machine.outputs (Server.step network) Server.events (Server.start n) readies
    let relays := History.collect (Service.step network n) (Service.relays i) Service.start events
    (s.forwarded seen i).filterMap (readRelayed X) = relays ∧
      (s.running = true →
        (∀ ready : Ready X, ready.internal = true → s.step network ready = none) →
        ∀ peer, s.peers[i]? = some peer → peer.forward ≠ .ended →
          (socketTexts i true seen).filterMap (readRelayed X) = relays) := by
  intro seen events relays
  exact Server.client_reads hX hn h fun events =>
    Service.run_relays network n hX hread hP hW events i

/-- Client 0 is in a room when client 1 sends a text to it and leaves. -/
def Sample.room : List (Ready Deps.text) :=
  [.accepted,.upgraded,.accepted,.upgraded,
    .peer 0 (.text (Sample.print (Sample.request "subscribe" "any"
      (.object [("topic",.string "t")])))),
    .peer 1 (.text (Sample.print (Sample.request "publish" "any"
      (.object [("content",.string "\"pong\""),("topic",.string "t")])))),
    .peer 1 .ended,.peer 0 .received,.peer 0 (.sent true)]

theorem room_read : ∃ s : Server Deps.text,
    Machine.run (Server.step .elementsRegtest) (Server.start 1000) Sample.room = some s ∧
      ((s.forwarded (Machine.outputs (Server.step .elementsRegtest) Server.visible
        (Server.start 1000) Sample.room) 0).filterMap (readRelayed Deps.text)).map Value.print =
        [Value.print (.string "\"pong\"")] := by
  have hsome : (Machine.run (Server.step .elementsRegtest) (Server.start 1000)
      Sample.room).isSome = true := by decide +kernel
  have hrelays : (History.collect (Service.step .elementsRegtest 1000) (Service.relays 0)
      Service.start (Machine.outputs (Server.step .elementsRegtest) Server.events
        (Server.start 1000) Sample.room)).map Value.print =
      [Value.print (.string "\"pong\"")] := by decide +kernel
  obtain ⟨s,hs⟩ := Option.isSome_iff_exists.mp hsome
  have hread := (clients_read_each_other Deps.text_renderTotal Deps.text_responsesReadBack
    Deps.text_proposalsAreObjects Deps.text_proposalsHaveNoWhere .elementsRegtest (n := 1000)
    (by decide) Sample.room s hs 0).1
  exact ⟨s,hs,(congrArg (List.map Value.print) hread).trans hrelays⟩

end NexusRelay
