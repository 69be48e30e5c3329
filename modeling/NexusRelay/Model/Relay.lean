import NexusRelay.Foundation.History
import NexusRelay.Model.ProcessMessage
import NexusRelay.Model.Zmq

/-! # Runs of the relay

The handling of one text frame, and the events that change the shared state: a frame
of some client, a ZMQ message, a text taken by a forward task, a dropped receiver.
Events come in any order and with any senders.
-/
namespace NexusRelay
open Shared
variable {X : Deps}

def errorResponse : Error X → JsonRpc
  | .jsonRpc e => e.toJsonRpc X
  | _ => .error (.num 0) (.new X .parseError)

/-- `let response: JsonRpc = match process_message(..).await { .. }`. The guards of a
request that returned an error are gone; a panic is not caught. -/
def responseTo (rawMessage : JsonRpc) (client : Option (Node X)) (clientTxClone : Sender) :
    Exec Shared (Error X) JsonRpc := fun w =>
  match (processMessage rawMessage client clientTxClone).run w with
  | .ok response w' => (Exec.ofFallible (response.toJsonRpc X)).run w'
  | .error (.err e) w' => .ok (errorResponse e) (w'.unwind (.err e))
  | .error .panic w' => .error .panic w'

/-- `client_tx_clone.send(text)`, true for `Ok`. -/
def sendReply (clientTxClone : Sender) (text : String) : Exec Shared (Error X) Bool := do
  let w ← get
  match clientTxClone.send .reply text w.channels with
  | some channels => do
    set { w with channels := channels }
    return true
  | none => return false

/-- The body of the receive loop for a text frame. The result is whether the loop goes on. -/
def handleText (text : String) (client : Option (Node X)) (clientTxClone : Sender) :
    Exec Shared (Error X) Bool :=
  match X.parse text with
  | none => do
    let rpcError := JsonRpc.Error.new X .parseError
    let err := JsonRpc.error (.num 0) rpcError
    let errStr ← .ofFallible (.unwrap (X.render err))
    sendReply clientTxClone errStr
  | some rawMessage => do
    let response ← responseTo rawMessage client clientTxClone
    let responseStr ← .ofFallible (.unwrap (X.render response))
    sendReply clientTxClone responseStr

/-! ## What one frame does -/

inductive Answered (text : String) (client : Option (Node X)) (tx : Sender) :
    JsonRpc → List Change → Prop
  | unparsed (hp : X.parse text = none) :
      Answered text client tx (.error (.num 0) (.new X .parseError)) []
  | served {j reply : JsonRpc} {request : NexusRequest X} {response : NexusResponse}
      {changes : List Change} (hp : X.parse text = some j)
      (hr : NexusRequest.tryFrom X j = .ok request)
      (hs : Served request client tx.chan response changes)
      (hok : ∀ w : Shared, w.Healthy →
        (processMessage j client tx).run w = .ok response (w.applyAll changes))
      (hreply : (response.toJsonRpc X : Fallible (Error X) JsonRpc) = .ok reply) :
      Answered text client tx reply changes
  | failed {j : JsonRpc} {e : Error X} (hp : X.parse text = some j)
      (he : ∀ w : Shared, w.Healthy → (processMessage j client tx).run w = .error (.err e) w) :
      Answered text client tx (errorResponse e) []

theorem run_sendReply (tx : Sender) (text : String) (w : Shared) :
    (sendReply tx text : Exec Shared (Error X) Bool).run w =
      .ok (w.channels tx.chan).rxOpen (w.replied tx text) := by
  by_cases h : (w.channels tx.chan).rxOpen
  · simp [sendReply,Sender.send,replied,h]
  · simp [sendReply,Sender.send,replied,h]

/-- The replies to served requests are successes that carry the request's id. -/
theorem Served.toJsonRpc {request : NexusRequest X} {client : Option (Node X)} {c : ℕ}
    {response : NexusResponse} {changes : List Change}
    (h : Served request client c response changes) :
    ∃ val, (response.toJsonRpc X : Fallible (Error X) JsonRpc) =
      .ok (.success (.num request.id.toNat) val) := by
  cases h with
  | subscribe | ping | proposal | any => exact ⟨_,rfl⟩

theorem run_responseTo_ok {j : JsonRpc} {client : Option (Node X)} {tx : Sender} {w w' : Shared}
    {response : NexusResponse} {reply : JsonRpc}
    (h : (processMessage j client tx).run w = .ok response w')
    (hr : (response.toJsonRpc X : Fallible (Error X) JsonRpc) = .ok reply) :
    (responseTo j client tx).run w = .ok reply w' := by
  simp only [responseTo,EStateM.run] at h ⊢
  simp only [h,hr]
  rfl

theorem run_responseTo_err {j : JsonRpc} {client : Option (Node X)} {tx : Sender} {w : Shared}
    (hw : w.Healthy) {e : Error X} (h : (processMessage j client tx).run w = .error (.err e) w) :
    (responseTo j client tx).run w = .ok (errorResponse e) w := by
  simp only [responseTo,EStateM.run] at h ⊢
  simp only [h,hw.unwind]

theorem run_responseTo_panic {j : JsonRpc} {client : Option (Node X)} {tx : Sender} {w : Shared}
    (h : (processMessage j client tx).run w = .error .panic w) :
    (responseTo j client tx).run w = .error .panic w := by
  simp only [responseTo,EStateM.run] at h ⊢
  simp only [h]

/-- A frame is answered with one reply, or its handler panics with nothing changed. -/
theorem handleText_cases (hX : X.RenderTotal) (text : String) (client : Option (Node X))
    (tx : Sender) :
    (∃ reply changes str, Answered text client tx reply changes ∧ X.render reply = some str ∧
      ∀ w : Shared, w.Healthy → (handleText text client tx).run w =
        .ok ((w.applyAll changes).channels tx.chan).rxOpen
          (w.applyAll (changes ++ [.reply tx str]))) ∨
    (∃ j, X.parse text = some j ∧ ∀ w : Shared, w.Healthy →
      (processMessage j client tx).run w = .error .panic w ∧
      (handleText text client tx).run w = .error .panic w) := by
  cases hp : X.parse text with
  | none =>
    obtain ⟨str,hstr⟩ := hX.eq_some (.error (.num 0) (.new X .parseError))
    refine Or.inl ⟨_,_,str,.unparsed hp,hstr,fun w _ => ?_⟩
    simp only [handleText,hp,hstr,Fallible.unwrap_some,EStateM.run_bind,
      Exec.run_ofFallible_ok,run_sendReply]
    rfl
  | some j =>
    rcases processMessage_cases hX j client tx with
      ⟨request,response,changes,hr,hs,hrun⟩ | ⟨f,hrun⟩
    · obtain ⟨val,hval⟩ := hs.toJsonRpc
      obtain ⟨str,hstr⟩ := hX.eq_some (.success (.num request.id.toNat) val)
      refine Or.inl ⟨_,changes,str,.served hp hr hs hrun hval,hstr,fun w hw => ?_⟩
      simp only [handleText,hp,EStateM.run_bind,run_responseTo_ok (hrun w hw) hval,hstr,
        Fallible.unwrap_some,Exec.run_ofFallible_ok,run_sendReply,applyAll_append]
      rfl
    · cases f with
      | err e =>
        obtain ⟨str,hstr⟩ := hX.eq_some (errorResponse e)
        refine Or.inl ⟨_,_,str,.failed hp hrun,hstr,fun w hw => ?_⟩
        simp only [handleText,hp,EStateM.run_bind,run_responseTo_err hw (hrun w hw),hstr,
          Fallible.unwrap_some,Exec.run_ofFallible_ok,run_sendReply]
        rfl
      | panic =>
        refine Or.inr ⟨j,rfl,fun w hw => ⟨hrun w hw,?_⟩⟩
        simp only [handleText,hp,EStateM.run_bind,run_responseTo_panic (hrun w hw)]

/-! ## Events -/

variable (X) in
/-- One change of the shared state. `node` is what the node answers during this frame. -/
inductive Event where
  | frame (sender : Sender) (text : String) (node : Node X)
  | zmq (msg : List Bytes)
  | recv (c : ℕ)
  | close (c : ℕ)

/-- The shared state and the listener's `txs_seen`. -/
structure RelayState where
  shared : Shared
  txsSeen : BoundedSet String

def RelayState.start (txCacheSize : ℕ) : RelayState := ⟨Shared.start,.new txCacheSize⟩

/-- A failed handler unwinds, and the next event finds what it left. -/
def RelayState.step (network : Network) (s : RelayState) : Event X → RelayState
  | .frame sender text node =>
    match (handleText text (some node) sender).run s.shared with
    | .ok _ w => { s with shared := w }
    | .error f w => { s with shared := w.unwind f }
  | .zmq msg =>
    match (processZmqMessage msg network : Exec _ (Error X) Unit).run (s.shared,s.txsSeen) with
    | .ok _ (w,seen) => ⟨w,seen⟩
    | .error f (w,seen) => ⟨w.unwind f,seen⟩
  | .recv c => { s with shared := { s.shared with channels := s.shared.channels.take c } }
  | .close c => { s with shared := { s.shared with channels := s.shared.channels.close c } }

def RelayState.run (network : Network) (txCacheSize : ℕ) (events : List (Event X)) : RelayState :=
  events.foldl (RelayState.step network) (.start txCacheSize)

/-! ## What an event does -/

/-- The changes an event makes, which depend on the cache of the listener but on nothing
else of the state, and the cache it leaves. -/
inductive Causes (network : Network) (seen : BoundedSet String) :
    Event X → List Change → BoundedSet String → Prop
  | answered {tx : Sender} {text str : String} {node : Node X} {reply : JsonRpc}
      {changes : List Change} (ha : Answered text (some node) tx reply changes)
      (hs : X.render reply = some str) :
      Causes network seen (.frame tx text node) (changes ++ [.reply tx str]) seen
  | panicked {tx : Sender} {text : String} {node : Node X} {j : JsonRpc}
      (hp : X.parse text = some j) (he : ∀ w : Shared, w.Healthy →
        (processMessage j (some node) tx).run w = .error .panic w) :
      Causes network seen (.frame tx text node) [] seen
  | zmq {msg : List Bytes} {result : Fallible (Error X) Unit} {changes : List Change}
      {seen' : BoundedSet String} (ho : Observed network msg seen result changes seen') :
      Causes network seen (.zmq msg) changes seen'
  | recv (c : ℕ) : Causes network seen (.recv c) [.take c] seen
  | close (c : ℕ) : Causes network seen (.close c) [.close c] seen

namespace RelayState

theorem step_causes (hX : X.RenderTotal) (network : Network) (seen : BoundedSet String)
    (e : Event X) : ∃ changes seen', Causes network seen e changes seen' ∧
      ∀ w : Shared, w.Healthy → step network ⟨w,seen⟩ e = ⟨w.applyAll changes,seen'⟩ := by
  cases e with
  | frame tx text node =>
    rcases handleText_cases hX text (some node) tx with
      ⟨reply,changes,str,ha,hstr,hrun⟩ | ⟨j,hp,hrun⟩
    · refine ⟨_,seen,.answered ha hstr,fun w hw => ?_⟩
      simp only [step,hrun w hw]
    · refine ⟨_,seen,.panicked hp fun w hw => (hrun w hw).1,fun w hw => ?_⟩
      simp only [step,(hrun w hw).2,hw.unwind,applyAll_nil]
  | zmq msg =>
    obtain ⟨result,changes,seen',ho,hrun⟩ := processZmqMessage_cases hX msg network seen
    refine ⟨changes,seen',.zmq ho,fun w hw => ?_⟩
    cases result with
    | ok u => simp only [step,hrun w hw,Exec.run_ofFallible_ok]
    | error f => simp only [step,hrun w hw,Exec.run_ofFallible_error,(hw.applyAll _).unwind]
  | recv c => exact ⟨_,seen,.recv c,fun w _ => rfl⟩
  | close c => exact ⟨_,seen,.close c,fun w _ => rfl⟩

theorem step_caused (hX : X.RenderTotal) (network : Network) {s : RelayState}
    (hw : s.shared.Healthy) (e : Event X) : ∃ changes seen',
      Causes network s.txsSeen e changes seen' ∧
        step network s e = ⟨s.shared.applyAll changes,seen'⟩ := by
  obtain ⟨changes,seen',hc,hstep⟩ := step_causes hX network s.txsSeen e
  exact ⟨changes,seen',hc,hstep s.shared hw⟩

/-- A frame closes no channel, not even that of its client. -/
theorem step_frame_rxOpen (hX : X.RenderTotal) (network : Network) {s : RelayState}
    (hw : s.shared.Healthy) (tx : Sender) (text : String) (node : Node X) (c : ℕ) :
    ((step network s (.frame tx text node)).shared.channels c).rxOpen =
      (s.shared.channels c).rxOpen := by
  obtain ⟨changes,seen',hc,hs⟩ := step_caused hX network hw (.frame tx text node)
  rw [hs]
  refine applyAll_rxOpen s.shared ?_
  cases hc with
  | panicked => simp
  | answered ha hstr =>
    cases ha with
    | unparsed | failed => simp
    | served hp hr hserved hok hreply => cases hserved <;> simp

variable (network : Network) (txCacheSize : ℕ)

theorem run_snoc (events : List (Event X)) (e : Event X) :
    run network txCacheSize (events ++ [e]) = step network (run network txCacheSize events) e := by
  simp [run]

/-- The rule for invariants of whole runs: the mutex is healthy throughout, and every event,
met in the state of the run so far, makes the changes it causes whatever else that state is. -/
theorem run_invariant (hX : X.RenderTotal) {P : List (Event X) → RelayState → Prop}
    (init : P [] (start txCacheSize))
    (next : ∀ past s e changes seen', s = run network txCacheSize past → s.shared.Healthy →
      P past s → Causes network s.txsSeen e changes seen' →
      (∀ w : Shared, w.Healthy →
        step network ⟨w,s.txsSeen⟩ e = ⟨w.applyAll changes,seen'⟩) →
      P (past ++ [e]) ⟨s.shared.applyAll changes,seen'⟩) (events : List (Event X)) :
    (run network txCacheSize events).shared.Healthy ∧
      P events (run network txCacheSize events) := by
  refine And.right (History.run_induction (P := fun past s =>
    s = run network txCacheSize past ∧ s.shared.Healthy ∧ P past s)
    ⟨rfl,start_healthy,init⟩ ?_ events)
  rintro past s e ⟨hrun,hw,hp⟩
  obtain ⟨changes,seen',hc,hstep⟩ := step_causes hX network s.txsSeen e
  have hs : step network s e = ⟨s.shared.applyAll changes,seen'⟩ := hstep s.shared hw
  refine ⟨by rw [run_snoc,← hrun],?_⟩
  rw [hs]
  exact ⟨hw.applyAll changes,next past s e changes seen' hrun hw hp hc hstep⟩

theorem run_healthy (hX : X.RenderTotal) (events : List (Event X)) :
    (run network txCacheSize events).shared.Healthy :=
  (run_invariant network txCacheSize hX (P := fun _ _ => True) trivial
    (fun _ _ _ _ _ _ _ _ _ _ => trivial) events).1

end RelayState

end NexusRelay
