import NexusRelay.Connections.Serving

/-! # The listener among the clients

`start_zmq_listener` is one task beside those of the connections, with which it shares the
registry. Whatever they do between two of its messages, it runs as its loop does alone.
-/
namespace NexusRelay
open Shared
variable {X : Deps}

/-! ## One message -/

/-- Changes that mean to the service what notifications mean are their publications. -/
theorem publications_of_actions {changes : List Change} {ns : List Notice}
    (h : changes.map Change.action = ns.map (Notice.action X)) :
    changes = ns.map (Notice.publication X) := by
  induction ns generalizing changes with
  | nil => exact List.map_eq_nil_iff.mp h
  | cons m rest ih =>
    obtain ⟨change,more,rfl,hchange,hmore⟩ := List.map_eq_cons_iff.mp h
    have hfirst : change = m.publication X := by
      cases change with
      | publish t text =>
        cases hchange
        rfl
      | subscribe | reply | take | close => cases hchange
    rw [List.map_cons,hfirst,ih hmore]

theorem noticesOf_short (network : Network) (n : ℕ) (past : List String) {msg : List Bytes}
    (h : msg.length < 2) : noticesOf X network n past msg = [] := by
  rcases msg with _ | ⟨topic,_ | ⟨data,rest⟩⟩
  · rfl
  · rfl
  · simp only [List.length_cons] at h
    omega

/-- A message of two or more parts makes the publications it means to the service. -/
theorem performs_noticesOf (hX : X.RenderTotal) (network : Network) {n : ℕ} (hn : 0 < n)
    {seen : BoundedSet String} {past : List String} (h : seen.Holds n past) {msg : List Bytes}
    (hparts : 2 ≤ msg.length) :
    ∃ (result : Fallible (Error X) Unit) (seen' : BoundedSet String), result ≠ .error .panic ∧
      Performs X network msg seen result (noticesOf X network n past msg) seen' := by
  obtain ⟨result,changes,seen',ho,hrun⟩ := processZmqMessage_cases hX msg network seen
  have hchanges := publications_of_actions (ho.actions hn h).1
  refine ⟨result,seen',?_,fun w hw => ?_⟩
  · cases ho with
    | missing hmissing =>
      simp only [List.getElem?_eq_none_iff] at hmissing
      omega
    | mempool | known | badTx | block | badBlock | unknown => simp
  · rw [← hchanges]
    exact hrun w hw

/-! ## One step of the server -/

/-- What the socket of the listener yields. -/
def Ready.received : Ready X → List (Except Unit (List Bytes))
  | .zmq msg => [.ok msg]
  | .zmqError => [.error ()]
  | .accepted | .acceptFailed | .upgraded | .upgradeFailed | .peer _ _ | .zmqEnded => []

/-- The end of the stream, at which the loop returns. -/
def Ready.ends : Ready X → Bool
  | .zmqEnded => true
  | _ => false

/-- The notifications of an event, whoever subscribes. -/
def Service.heard (network : Network) (n : ℕ) (s : Service) : Event X → List Notice
  | .zmq msg => noticesOf X network n s.announced msg
  | .frame _ _ _ | .recv _ | .close _ => []

/-- How the loop of the listener ends if its socket yields nothing more: by a panic where the
listener is gone and its stream has not ended. -/
def Server.listenerEnd (s : Server X) (readies : List (Ready X)) : Fallible (Error X) Unit :=
  if s.listening || readies.any Ready.ends then .ok () else .error .panic

/-- The loop of the listener alone, on what its socket yielded so far, makes these publications
and has this cache. -/
structure Server.Listened (network : Network) (n : ℕ) (readies : List (Ready X)) (heard : List Notice)
    (s : Server X) : Prop where
  going : s.listening = true → readies.any Ready.ends = false
  alone : ∀ w : Shared, w.Healthy →
    startZmqListener network n (readies.flatMap Ready.received) w =
      (Exec.ofFallible (s.listenerEnd readies)).run
        (w.applyAll (heard.map (Notice.publication X)),s.relay.txsSeen)

/-- A message that returns, with an error or without, leaves the listener as it is. -/
theorem Server.listen_performs {network : Network} {s : Server X} (hw : s.relay.shared.Healthy)
    {msg : List Bytes} {result : Fallible (Error X) Unit} {ns : List Notice}
    {seen' : BoundedSet String} (h : Performs X network msg s.relay.txsSeen result ns seen')
    (hr : result ≠ .error .panic) :
    (s.listen network msg).listening = s.listening ∧
      (s.listen network msg).relay.txsSeen = seen' := by
  have hrun := h s.relay.shared hw
  rcases result with ⟨e | _⟩ | ⟨⟩
  · simp only [listen,hrun,Exec.run_ofFallible_error]
    exact ⟨trivial,trivial⟩
  · exact absurd rfl hr
  · simp only [listen,hrun,Exec.run_ofFallible_ok]
    exact ⟨trivial,trivial⟩

theorem Server.listen_short (network : Network) (s : Server X) {msg : List Bytes}
    (h : msg.length < 2) :
    (s.listen network msg).listening = false ∧
      (s.listen network msg).relay.txsSeen = s.relay.txsSeen := by
  have hpanic := short_message_panics (X := X) network h (s.relay.shared,s.relay.txsSeen)
  simp only [listen,hpanic]
  exact ⟨trivial,trivial⟩

theorem Server.listenerEnd_listening {s : Server X} (h : s.listening = true)
    (readies : List (Ready X)) : s.listenerEnd readies = .ok () := by
  simp [listenerEnd,h]

namespace Server.Listened
variable {network : Network} {n : ℕ} {readies : List (Ready X)} {heard : List Notice}
  {s s' : Server X}

theorem start (network : Network) (n : ℕ) :
    Listened network n [] [] (Server.start n : Server X) := ⟨fun _ => rfl,fun _ _ => rfl⟩

/-- Where the listener is there, its loop goes on with what its socket yields next. -/
theorem next (h : s.Listened network n readies heard) (hl : s.listening = true) (ready : Ready X)
    {w : Shared} (hw : w.Healthy) :
    startZmqListener network n ((readies ++ [ready]).flatMap Ready.received) w =
      (NexusRelay.listen network ready.received : Exec _ (Error X) Unit).run
        (w.applyAll (heard.map (Notice.publication X)),s.relay.txsSeen) := by
  have hrun := h.alone w hw
  simp only [listenerEnd_listening hl,startZmqListener] at hrun
  rw [startZmqListener,List.flatMap_append,List.flatMap_singleton,listen_append]
  simp only [hrun,Exec.run_ofFallible_ok]

/-- A step of any other task. -/
theorem other (h : s.Listened network n readies heard) {ready : Ready X}
    (hready : ready.received = [] ∧ ready.ends = false) (hl : s'.listening = s.listening)
    (hseen : s'.relay.txsSeen = s.relay.txsSeen) :
    s'.Listened network n (readies ++ [ready]) (heard ++ []) where
  going hl' := by
    rw [List.any_append,h.going (hl ▸ hl')]
    simp [hready.2]
  alone w hw := by
    simpa [listenerEnd,hready.1,hready.2,hl,hseen] using h.alone w hw

/-- The listener gets through what its socket yields. -/
theorem through (h : s.Listened network n readies heard) (hl : s.listening = true) {ready : Ready X}
    {ns : List Notice} (hready : ready.ends = false) (hl' : s'.listening = true)
    (hhears : Hears X network s.relay.txsSeen ready.received ns s'.relay.txsSeen) :
    s'.Listened network n (readies ++ [ready]) (heard ++ ns) where
  going _ := by
    rw [List.any_append,h.going hl]
    simp [hready]
  alone w hw := by
    rw [h.next hl ready hw,listenerEnd_listening hl',List.map_append,applyAll_append]
    exact hhears _ (hw.applyAll _)

/-- A message of fewer than two parts stops the listener. -/
theorem short (h : s.Listened network n readies heard) (hl : s.listening = true) {msg : List Bytes}
    (hshort : msg.length < 2) (hl' : s'.listening = false)
    (hseen : s'.relay.txsSeen = s.relay.txsSeen) :
    s'.Listened network n (readies ++ [(.zmq msg : Ready X)]) (heard ++ []) where
  going htrue := by
    rw [hl'] at htrue
    cases htrue
  alone w hw := by
    have hend : s'.listenerEnd (readies ++ [(.zmq msg : Ready X)]) = .error .panic := by
      simp [listenerEnd,hl',h.going hl,Ready.ends]
    have hpanic := short_message_panics (X := X) network hshort
      (w.applyAll (heard.map (Notice.publication X)),s.relay.txsSeen)
    rw [h.next hl _ hw,hend,List.append_nil,hseen,Ready.received,listen_singleton]
    simp only [receive,EStateM.run] at hpanic ⊢
    simp only [hpanic]
    rfl

/-- The stream ends, and the loop with it. -/
theorem ended (h : s.Listened network n readies heard) (hl : s.listening = true)
    (hl' : s'.listening = false) (hseen : s'.relay.txsSeen = s.relay.txsSeen) :
    s'.Listened network n (readies ++ [(.zmqEnded : Ready X)]) (heard ++ []) where
  going htrue := by
    rw [hl'] at htrue
    cases htrue
  alone w hw := by
    simpa [listenerEnd,Ready.received,Ready.ends,hl,hseen] using h.alone w hw

end Server.Listened

/-! ## Runs -/

/-- The events of a connection are none of the listener's. -/
theorem PeerReady.events_heard (network : Network) (n : ℕ) {i : ℕ} {waiting : Waiting X}
    {ready : PeerReady X} {e : Event X} (h : e ∈ ready.events i waiting) (s : Service) :
    Service.heard network n s e = [] := by
  have hclient := PeerReady.events_client h
  cases e with
  | zmq msg => cases hclient
  | frame | recv | close => rfl

theorem Server.step_listened (hX : X.RenderTotal) {network : Network} {n : ℕ} (hn : 0 < n)
    {past : List (Event X)} {s s' : Server X} (hrelay : s.relay = RelayState.run network n past)
    {readies : List (Ready X)} {heard : List Notice} (h : s.Listened network n readies heard)
    {ready : Ready X} (hs : s.step network ready = some s') :
    s'.Listened network n (readies ++ [ready]) (heard ++ History.collect (Service.step network n)
      (Service.heard network n) (Service.run network n past) (s.events ready)) := by
  cases (step_steps hs).2 with
  | accepted | acceptFailed | upgraded | upgradeFailed => exact h.other ⟨rfl,rfl⟩ rfl rfl
  | zmqError hl => exact h.through hl rfl hl (hears_socketError network s.relay.txsSeen ())
  | zmqEnded hl => exact h.ended hl rfl rfl
  | @peer i peer peer' w ready' hp hst =>
    have hnone : History.collect (Service.step network n) (Service.heard network n)
        (Service.run network n past) (s.events (.peer i ready')) = [] :=
      History.collect_eq_nil fun t e he => PeerReady.events_heard network n he t
    rw [hnone]
    exact h.other ⟨rfl,rfl⟩ rfl rfl
  | zmq hl msg =>
    have hw : s.relay.shared.Healthy := by
      rw [hrelay]
      exact RelayState.run_healthy network n hX past
    have hholds := (RelayState.run_shows hX network hn past).2
    rw [← hrelay] at hholds
    have hheard : History.collect (Service.step network n) (Service.heard network n)
        (Service.run network n past) (s.events (.zmq msg)) =
        noticesOf X network n (Service.run network n past).announced msg := List.append_nil _
    rw [hheard]
    rcases Nat.lt_or_ge msg.length 2 with hshort | hparts
    · obtain ⟨hgone,hseen⟩ := s.listen_short network hshort
      rw [noticesOf_short network n _ hshort]
      exact h.short hl hshort hgone hseen
    · obtain ⟨result,seen',hr,hperf⟩ := performs_noticesOf hX network hn hholds hparts
      obtain ⟨hthere,hseen⟩ := Server.listen_performs hw hperf hr
      exact h.through hl rfl (hthere.trans hl) (hseen ▸ hperf.hears hr)

/-- In every run of the server, whatever its connections do between the messages: the loop of the
listener alone, on what its socket yielded, from any shared state, makes exactly the publications
that the service makes for the messages, in order, leaves the cache the server has, and is stopped
by a panic exactly where the server's listener is gone before the end of its stream. -/
theorem listener_runs_alone (hX : X.RenderTotal) (network : Network) {n : ℕ} (hn : 0 < n)
    (readies : List (Ready X)) (s : Server X)
    (h : Machine.run (Server.step network) (Server.start n) readies = some s) (w : Shared)
    (hw : w.Healthy) :
    let events := Machine.outputs (Server.step network) Server.events (Server.start n) readies
    let heard := History.collect (Service.step network n) (Service.heard network n) Service.start
      events
    startZmqListener network n (readies.flatMap Ready.received) w =
      (Exec.ofFallible (s.listenerEnd readies)).run
        (w.applyAll (heard.map (Notice.publication X)),s.relay.txsSeen) := by
  intro events heard
  have hinv := Machine.outputs_invariant₂ (fun _ ready => [ready]) Server.events
    (P := fun past events s => s.relay = RelayState.run network n events ∧
      s.Listened network n past (History.collect (Service.step network n) (Service.heard network n)
        Service.start events)) ⟨rfl,.start network n⟩ ?_ h
  · rw [Machine.outputs_self h] at hinv
    exact hinv.2.alone w hw
  · rintro past events s ready s' - ⟨hrelay,hlistened⟩ hs
    refine ⟨?_,?_⟩
    · rw [Server.step_events hs,hrelay,RelayState.run,RelayState.run,List.foldl_append]
    · rw [History.collect_append]
      exact Server.step_listened hX hn hrelay hlistened hs

/-- The listener reads a transaction, then a message of one part, while a client connects. -/
def Sample.cutOff : List (Ready Deps.sample) :=
  [.accepted,.zmqError,.zmq [rawtx,Sample.txBytes],.upgraded,.zmq [rawtx],.peer 0 .otherFrame]

theorem cutOff_alone : ∃ s : Server Deps.sample,
    Machine.run (Server.step .elementsRegtest) (Server.start 1000) Sample.cutOff = some s ∧
      ∃ ns : List Notice, ns.map Notice.topic = [.validated Sample.txid,.validated Sample.address] ∧
        startZmqListener .elementsRegtest 1000 (Sample.cutOff.flatMap Ready.received) Shared.start =
          (Exec.ofFallible (.error .panic : Fallible (Error Deps.sample) Unit)).run
            (Shared.start.applyAll (ns.map (Notice.publication Deps.sample)),s.relay.txsSeen) := by
  have hrun : (Machine.run (Server.step .elementsRegtest) (Server.start 1000)
      Sample.cutOff).map (fun s => s.listening) = some false := by decide +kernel
  have hheard : (History.collect (Service.step .elementsRegtest 1000)
      (Service.heard .elementsRegtest 1000) Service.start (Machine.outputs
        (Server.step .elementsRegtest) Server.events (Server.start 1000) Sample.cutOff)).map
          Notice.topic = [.validated Sample.txid,.validated Sample.address] := by decide +kernel
  obtain ⟨s,hs,hl⟩ := Option.map_eq_some_iff.mp hrun
  have hend : s.listenerEnd Sample.cutOff = .error .panic := by
    simp [Server.listenerEnd,hl,Sample.cutOff,Ready.ends]
  refine ⟨s,hs,_,hheard,?_⟩
  rw [← hend]
  exact listener_runs_alone Deps.sample_renderTotal .elementsRegtest (n := 1000) (by decide)
    Sample.cutOff s hs Shared.start start_healthy

end NexusRelay
