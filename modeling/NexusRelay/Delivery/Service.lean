import NexusRelay.Foundation.Mailbox
import NexusRelay.Listener.Window
import NexusRelay.Model.Relay

/-! # The service the relay is

One mailbox for each client, the requests that are served with what they ask for, and the
transactions that were announced. A service has no registry and no sender handles, no mutex
that could be poisoned, nothing to prune, and no cache.
-/
namespace NexusRelay
open Shared
variable {X : Deps}

abbrev ServiceAction := Mailbox.Action Topic ℕ String

/-! ## What a frame is answered -/

/-- What a served request does to the service. -/
inductive Operation where
  | subscribe (topic : Topic)
  | publish (topic : Topic) (text : String)
  deriving DecidableEq, Repr

def Operation.action (c : ℕ) : Operation → ServiceAction
  | .subscribe t => .join t c
  | .publish t text => .post t text

/-- The reply to a frame, and the operation it asks for if it is served. -/
structure Answer where
  reply : JsonRpc
  operation : Option Operation

def success (id : UInt32) (result : String) (operation : Option Operation) : Answer :=
  ⟨.success (.num id.toNat) (.string result),operation⟩

/-- A request that fails is answered by its error and does nothing. A panic answers nothing. -/
def refusal : Fail (Error X) → Option Answer
  | .err e => some ⟨errorResponse e,none⟩
  | .panic => none

/-- The answer to a request, unless the node fails or no text can be written. -/
def answerRequest (request : NexusRequest X) (node : Node X) : Option Answer :=
  match request.method, request.params with
  | .subscribe, params =>
    match topicFromParams params with
    | .ok topic => some (success request.id "subscribed" (some (.subscribe topic)))
    | .error e => refusal (X := X) (.err (.jsonRpc e))
  | .publish, .ping => some (success request.id "pong" none)
  | .publish, .any a =>
    match a.content with
    | some content => (X.render (.success (.num (-1)) (.string content))).map fun text =>
        success request.id "published" (some (.publish (.unvalidated a.topic) text))
    | none => refusal (X := X) (.err (.jsonRpc .invalidParams))
  | .publish, .proposal p =>
    match validateProposal p (some node) with
    | .ok v => (proposalText v).map fun text =>
        success request.id "published" (some (.publish (.validated (pairString X v)) text))
    | .error f => refusal f
  | _, _ => refusal (X := X) (.err (.jsonRpc .invalidParams))

/-- The answer to a frame. -/
def answerText (text : String) (node : Node X) : Option Answer :=
  match X.parse text with
  | none => some ⟨.error (.num 0) (.new X .parseError),none⟩
  | some j =>
    match NexusRequest.tryFrom X j with
    | .ok request => answerRequest request node
    | .error f => refusal (f.map (Error.jsonRpc (X := X)))

def Answer.actions (X : Deps) (c : ℕ) (a : Answer) : List ServiceAction :=
  match X.render a.reply with
  | some text => (a.operation.map (Operation.action c)).toList ++ [.tell c text]
  | none => []

/-! ## What the listener announces -/

variable (X) in
/-- The notifications of a message, where the last `n` announcements are not repeated. -/
def noticesOf (network : Network) (n : ℕ) (past : List String) (msg : List Bytes) : List Notice :=
  match msg with
  | topic :: data :: _ =>
    if topic = rawtx then
      match X.decodeTransaction data with
      | .ok tx =>
        if X.txidString (X.txid tx) ∈ past.rtake n then [] else
          Notice.ofTransaction X network .mempool tx
      | .error _ => []
    else if topic = rawblock then
      match X.decodeBlock data with
      | .ok block => (X.txdata block).flatMap (Notice.ofTransaction X network .block)
      | .error _ => []
    else []
  | _ => []

/-! ## Runs of the service -/

structure Service where
  mailbox : ℕ → Mailbox Topic String
  announced : List String

namespace Service

def start : Service := ⟨fun _ => {},[]⟩

variable (network : Network) (n : ℕ)

/-- What an event means, which depends on the announcements only. -/
def actions (past : List String) : Event X → List ServiceAction
  | .frame tx text node => ((answerText text node).map (Answer.actions X tx.chan)).getD []
  | .zmq msg => (noticesOf X network n past msg).map fun m => .post m.topic (m.text X)
  | .recv c => [.read c]
  | .close c => [.leave c]

def announces (past : List String) : Event X → List String
  | .zmq msg => NexusRelay.announced (noticesOf X network n past msg)
  | _ => []

def step (s : Service) (e : Event X) : Service :=
  ⟨fun c => (s.mailbox c).run c (actions network n s.announced e),
    s.announced ++ announces network n s.announced e⟩

def run (events : List (Event X)) : Service := events.foldl (step network n) start

theorem run_snoc (events : List (Event X)) (e : Event X) :
    run network n (events ++ [e]) = step network n (run network n events) e := by
  simp [run]

end Service

end NexusRelay
