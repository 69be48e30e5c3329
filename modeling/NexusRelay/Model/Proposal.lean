import NexusRelay.Model.Jsonrpc
import NexusRelay.Model.Shared

/-! # Publishing a proposal

The functions of `error.rs`, `node.rs` and `proposal.rs`. The transaction a proposal
needs is asked of a node, whose answer is unwrapped.
-/
namespace NexusRelay
open Shared
variable (X : Deps)

inductive Error where
  | jsonRpcLite (e : JsonRpc.Error)
  | jsonRpc (e : RequestError)
  | elements (e : X.EncodeError)
  | liquidex (e : X.LwkError)

/-- The node as one request meets it: `get` is the outcome of `send().await` and, when
that succeeds, of reading the body by `bytes().await`. -/
structure Node where
  baseUrl : String
  get : String → Except X.HttpError (Except X.HttpError Bytes)

/-- The errors `Node::tx` boxes. -/
inductive NodeError where
  | http (e : X.HttpError)
  | decode (e : X.EncodeError)

variable {X}

def Node.tx (node : Node X) (txid : X.Txid) : Except (NodeError X) X.Transaction :=
  let url := node.baseUrl ++ "/rest/tx/" ++ X.txidString txid ++ ".bin"
  match node.get url with
  | .error e => .error (.http e)
  | .ok (.error e) => .error (.http e)
  | .ok (.ok bytes) =>
    match X.decodeTransaction bytes with
    | .error e => .error (.decode e)
    | .ok tx => .ok tx

/-- The validation at the head of `process_publish_proposal`. -/
def validateProposal (proposal : X.Unvalidated) (client : Option (Node X)) :
    Fallible (Error X) X.Validated :=
  match client with
  | some client => do
    let txid ← .convert .liquidex (.ofExcept (X.neededTx proposal))
    let tx ← .unwrap (client.tx txid).toOption
    .convert .liquidex (.ofExcept (X.validate proposal tx))
  | none => .convert .liquidex (.ofExcept (X.insecureValidate proposal))

def processPublishProposal (proposal : X.Unvalidated) (client : Option (Node X)) (id : UInt32) :
    Exec Shared (Error X) NexusResponse := do
  let proposal ← .ofFallible (validateProposal proposal client)
  let topic ← .ofFallible (.convert .jsonRpc (.ofExcept (topicFromProposal X proposal)))
  let response ← .ofFallible (NexusResponse.newProposal proposal)
  let messageToSubscriber ← .ofFallible (response.toText X)
  lockUnwrap
  let _sentCount ← publish topic messageToSubscriber
  dropGuard
  return .newPublished id

/-- The notification text of a validated proposal. -/
def proposalText (proposal : X.Validated) : Option String :=
  (X.validatedToValue proposal).bind fun val => X.render (.success (.num (-1)) val)

/-- The proposal passed the checks a relay with this client makes. -/
def Validates (proposal : X.Unvalidated) (client : Option (Node X)) (v : X.Validated) : Prop :=
  match client with
  | some node => ∃ txid tx, X.neededTx proposal = .ok txid ∧ node.tx txid = .ok tx ∧
      X.validate proposal tx = .ok v
  | none => X.insecureValidate proposal = .ok v

/-- The relay needs a transaction and the node does not return one. -/
def LookupFails (proposal : X.Unvalidated) (client : Option (Node X)) : Prop :=
  ∃ node txid e, client = some node ∧ X.neededTx proposal = .ok txid ∧ node.tx txid = .error e

theorem validateProposal_eq_ok {proposal : X.Unvalidated} {client : Option (Node X)}
    {v : X.Validated} : validateProposal proposal client = .ok v ↔ Validates proposal client v := by
  cases client with
  | none =>
    cases h : X.insecureValidate proposal <;> simp [validateProposal,Validates,h]
  | some node =>
    cases hn : X.neededTx proposal with
    | error e => simp [validateProposal,Validates,hn]
    | ok txid =>
      cases ht : node.tx txid with
      | error e => simp [validateProposal,Validates,hn,ht,Except.toOption]
      | ok tx =>
        cases hv : X.validate proposal tx <;>
          simp [validateProposal,Validates,hn,ht,hv,Except.toOption]

/-- The unwrap of the node's answer is the only panic of the validation. -/
theorem validateProposal_eq_panic {proposal : X.Unvalidated} {client : Option (Node X)} :
    validateProposal proposal client = .error .panic ↔ LookupFails proposal client := by
  cases client with
  | none =>
    cases h : X.insecureValidate proposal <;> simp [validateProposal,LookupFails,h]
  | some node =>
    cases hn : X.neededTx proposal with
    | error e => simp [validateProposal,LookupFails,hn]
    | ok txid =>
      cases ht : node.tx txid with
      | error e => simp [validateProposal,LookupFails,hn,ht,Except.toOption]
      | ok tx =>
        cases hv : X.validate proposal tx <;>
          simp [validateProposal,LookupFails,hn,ht,hv,Except.toOption]

/-- Every error the validation returns is an error of `lwk_wollet`. -/
theorem validateProposal_err {proposal : X.Unvalidated} {client : Option (Node X)} {e : Error X}
    (h : validateProposal proposal client = .error (.err e)) : ∃ e', e = .liquidex e' := by
  cases client with
  | none =>
    cases hv : X.insecureValidate proposal with
    | ok v => simp [validateProposal,hv] at h
    | error e' =>
      simp only [validateProposal,hv,Fallible.ofExcept_error,Fallible.convert_error,
        Fail.map_err,Except.error.injEq,Fail.err.injEq] at h
      exact ⟨e',h.symm⟩
  | some node =>
    cases hn : X.neededTx proposal with
    | error e' =>
      simp [validateProposal,hn] at h
      exact ⟨e',h.symm⟩
    | ok txid =>
      cases ht : node.tx txid with
      | error e' => simp [validateProposal,hn,ht,Except.toOption] at h
      | ok tx =>
        cases hv : X.validate proposal tx with
        | ok v => simp [validateProposal,hn,ht,hv,Except.toOption] at h
        | error e' =>
          simp [validateProposal,hn,ht,hv,Except.toOption] at h
          exact ⟨e',h.symm⟩

/-- Printing a notification reaches neither `unreachable!` nor another panic, once the
renderer has a text for it. -/
theorem notification_toText {ε : Type} (val : Value) :
    ((NexusResponse.notification val).toText X : Fallible ε String) =
      .unwrap (X.render (.success (.num (-1)) val)) := rfl

/-- What `process_publish_proposal` does from a healthy state: the checks come first, then
the text, and one publication under the lock. -/
theorem run_processPublishProposal {w : Shared} (hw : w.Healthy) (proposal : X.Unvalidated)
    (client : Option (Node X)) (id : UInt32) :
    (processPublishProposal proposal client id).run w =
      match validateProposal proposal client with
      | .error e => .error e w
      | .ok v =>
        match proposalText v with
        | none => .error .panic w
        | some text =>
          .ok (.newPublished id) (w.published (.validated (pairString X v)) text) := by
  cases hv : validateProposal proposal client with
  | error e => simp [processPublishProposal,hv]
  | ok v =>
    cases hval : X.validatedToValue v with
    | none =>
      simp [processPublishProposal,hv,topicFromProposal,NexusResponse.newProposal,hval,
        proposalText]
    | some val =>
      cases ht : X.render (.success (.num (-1)) val) with
      | none =>
        simp [processPublishProposal,hv,topicFromProposal,NexusResponse.newProposal,hval,
          proposalText,notification_toText,ht]
      | some text =>
        simp [processPublishProposal,hv,topicFromProposal,NexusResponse.newProposal,hval,
          proposalText,notification_toText,ht,run_lockUnwrap hw,run_publish,
          unlocked_published hw]

/-! ## Two nodes for the small instance -/

def Sample.node : Node Deps.sample := ⟨"http://localhost:8332",fun _ => .ok (.ok Sample.txBytes)⟩

theorem Sample.node_tx (txid : Deps.sample.Txid) : Sample.node.tx txid = .ok .payment := by
  simp [Node.tx,node,Sample.decodeTransaction_txBytes]

def Sample.deadNode : Node Deps.sample := ⟨"http://localhost:8332",fun _ => .error ()⟩

def Sample.assets : Bool × Bool := (true,false)

end NexusRelay
