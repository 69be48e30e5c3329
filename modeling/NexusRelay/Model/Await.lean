import NexusRelay.Foundation.Suspend
import NexusRelay.Model.Relay

/-! # The await of the node

`client.tx(txid).await` in `process_publish_proposal` is the only await below the receive
loop. Every function on the way to it is written here in two parts, up to the await and from
the answer on, and is shown to be the two parts together.
-/
namespace NexusRelay
open Shared Exec
variable {X : Deps}

/-- What a GET request of the node comes to, as in `Node.get`. -/
abbrev HttpAnswer (X : Deps) := Except X.HttpError (Except X.HttpError Bytes)

/-- The url `Node::tx` gets. -/
def txUrl (baseUrl : String) (txid : X.Txid) : String :=
  baseUrl ++ "/rest/tx/" ++ X.txidString txid ++ ".bin"

/-- `Node::tx` from the answer on. -/
def decodeTx : HttpAnswer X → Except (NodeError X) X.Transaction
  | .error e => .error (.http e)
  | .ok (.error e) => .error (.http e)
  | .ok (.ok bytes) =>
    match X.decodeTransaction bytes with
    | .error e => .error (.decode e)
    | .ok tx => .ok tx

theorem Node.tx_eq (node : Node X) (txid : X.Txid) :
    node.tx txid = decodeTx (node.get (txUrl node.baseUrl txid)) := rfl

variable (X) in
/-- What `process_publish_proposal` keeps over the await. -/
structure Pending where
  id : UInt32
  proposal : X.Unvalidated
  txid : X.Txid

def Pending.answer (pending : Pending X) (node : Node X) : HttpAnswer X :=
  node.get (txUrl node.baseUrl pending.txid)

def beginProposal (proposal : X.Unvalidated) (id : UInt32) :
    Exec Shared (Error X) (Pending X ⊕ NexusResponse) := do
  let txid ← .ofFallible (.convert .liquidex (.ofExcept (X.neededTx proposal)))
  return .inl ⟨id,proposal,txid⟩

def finishProposal (pending : Pending X) (answer : HttpAnswer X) :
    Exec Shared (Error X) NexusResponse := do
  let tx ← .ofFallible (.unwrap (decodeTx answer).toOption)
  let proposal ← .ofFallible (.convert .liquidex (.ofExcept (X.validate pending.proposal tx)))
  let topic ← .ofFallible (.convert .jsonRpc (.ofExcept (topicFromProposal X proposal)))
  let response ← .ofFallible (NexusResponse.newProposal proposal)
  let messageToSubscriber ← .ofFallible (response.toText X)
  lockUnwrap
  let _sentCount ← publish topic messageToSubscriber
  dropGuard
  return .newPublished pending.id

/-- The other arms of the match do not look at the node. -/
def beginDispatch (request : NexusRequest X) (clientTx : Sender) :
    Exec Shared (Error X) (Pending X ⊕ NexusResponse) :=
  match request.method, request.params with
  | .publish, .proposal proposal => beginProposal proposal request.id
  | _, _ => .inr <$> dispatch request none clientTx

def beginMessage (messageRequest : JsonRpc) (clientTx : Sender) :
    Exec Shared (Error X) (Pending X ⊕ NexusResponse) := do
  let request ← .ofFallible (.convert .jsonRpc (NexusRequest.tryFrom X messageRequest))
  beginDispatch request clientTx

/-- The receive loop from the result of `process_message` on. -/
def replyTo (clientTxClone : Sender) (result : EStateM.Result (Fail (Error X)) Shared NexusResponse) :
    EStateM.Result (Fail (Error X)) Shared Bool :=
  let send (response : Fallible (Error X) JsonRpc) : Exec Shared (Error X) Bool := do
    let response ← .ofFallible response
    let responseStr ← .ofFallible (.unwrap (X.render response))
    sendReply clientTxClone responseStr
  match result with
  | .ok response w => (send (response.toJsonRpc X)).run w
  | .error (.err e) w => (send (.ok (errorResponse e))).run (w.unwind (.err e))
  | .error .panic w => .error .panic w

/-- The body of the receive loop for a text frame, up to the await if it comes to one. -/
def beginText (text : String) (clientTxClone : Sender) :
    Exec Shared (Error X) (Pending X ⊕ Bool) :=
  match X.parse text with
  | none => do
    let rpcError := JsonRpc.Error.new X .parseError
    let err := JsonRpc.error (.num 0) rpcError
    let errStr ← .ofFallible (.unwrap (X.render err))
    .inr <$> sendReply clientTxClone errStr
  | some rawMessage => (beginMessage rawMessage clientTxClone).firstAndThen (replyTo clientTxClone)

def finishText (clientTxClone : Sender) (pending : Pending X) (answer : HttpAnswer X) :
    Exec Shared (Error X) Bool :=
  (finishProposal pending answer).andThen (replyTo clientTxClone)

/-! ## The two parts together -/

theorem processPublishProposal_splits (proposal : X.Unvalidated) (id : UInt32) :
    Splits (fun node => processPublishProposal proposal (some node) id) (beginProposal proposal id)
      fun pending node => finishProposal pending (pending.answer node) := by
  refine .of_run fun node w => ?_
  cases hn : X.neededTx proposal with
  | error e => simp [processPublishProposal,validateProposal,beginProposal,hn]
  | ok txid =>
    have htx := node.tx_eq txid
    cases ht : node.tx txid with
    | error e =>
      rw [ht] at htx
      simp [processPublishProposal,validateProposal,beginProposal,finishProposal,Pending.answer,
        hn,ht,← htx,Except.toOption]
    | ok tx =>
      rw [ht] at htx
      cases hv : X.validate proposal tx with
      | error e =>
        simp [processPublishProposal,validateProposal,beginProposal,finishProposal,Pending.answer,
          hn,ht,← htx,hv,Except.toOption]
      | ok v =>
        simp [processPublishProposal,validateProposal,beginProposal,finishProposal,Pending.answer,
          hn,ht,← htx,hv,Except.toOption]

theorem dispatch_splits (request : NexusRequest X) (tx : Sender) :
    Splits (fun node => dispatch request (some node) tx) (beginDispatch request tx)
      fun pending node => finishProposal pending (pending.answer node) := by
  cases hm : request.method with
  | publish =>
    cases hp : request.params with
    | proposal proposal =>
      have h := processPublishProposal_splits proposal request.id
      intro node
      simp only [dispatch,beginDispatch,hm,hp]
      exact h node
    | any _ | address _ | tx _ | pair _ | wallet _ | empty | pset _ | ping =>
      intro node
      simp only [dispatch,beginDispatch,hm,hp]
      exact Splits.quiet _ _ node
  | subscribe | unsubscribe =>
    intro node
    simp only [dispatch,beginDispatch,hm]
    exact Splits.quiet _ _ node

theorem processMessage_splits (j : JsonRpc) (tx : Sender) :
    Splits (fun node : Node X => processMessage j (some node) tx) (beginMessage j tx)
      fun pending node => finishProposal pending (pending.answer node) :=
  Splits.after _ fun request => dispatch_splits request tx

theorem handleText_parsed {text : String} {j : JsonRpc} (hp : X.parse text = some j)
    (client : Option (Node X)) (tx : Sender) :
    handleText text client tx = (processMessage j client tx).andThen (replyTo tx) := by
  funext w
  simp only [handleText,hp,andThen,EStateM.run,bind,EStateM.bind,responseTo]
  cases h : processMessage j client tx w with
  | ok response w' => rfl
  | error f w' => cases f <;> rfl

/-- A frame is handled by the part before the await and, if the node is asked, the part after
it. -/
theorem handleText_splits (text : String) (tx : Sender) :
    Splits (fun node : Node X => handleText text (some node) tx) (beginText text tx)
      fun pending node => finishText tx pending (pending.answer node) := by
  cases hp : X.parse text with
  | none =>
    intro node
    have h := Splits.quiet (handleText text (some node) tx)
      (fun pending (node : Node X) => finishText tx pending (pending.answer node)) node
    simp only [beginText,handleText,hp] at h ⊢
    rw [h]
    simp only [map_bind]
  | some j =>
    have h := (processMessage_splits (X := X) j tx).andThen (replyTo tx)
    intro node
    simp only [handleText_parsed hp,beginText,hp]
    exact h node

/-! ## What the first part does -/

/-- What a text makes the relay ask of its node, if anything. -/
def questionOf (text : String) : Option (Pending X) :=
  match X.parse text with
  | none => none
  | some j =>
    match NexusRequest.tryFrom X j with
    | .error _ => none
    | .ok request =>
      match request.method, request.params with
      | .publish, .proposal proposal =>
        match X.neededTx proposal with
        | .ok txid => some ⟨request.id,proposal,txid⟩
        | .error _ => none
      | _, _ => none

theorem questionOf_eq_some {text : String} {pending : Pending X} :
    questionOf text = some pending ↔ ∃ j request, X.parse text = some j ∧
      NexusRequest.tryFrom X j = .ok request ∧ request.method = .publish ∧
      request.params = .proposal pending.proposal ∧ request.id = pending.id ∧
      X.neededTx pending.proposal = .ok pending.txid := by
  constructor
  · intro h
    unfold questionOf at h
    split at h
    · cases h
    · next j hp =>
      split at h
      · cases h
      · next request hr =>
        split at h
        · next proposal hm hparams =>
          split at h
          · next txid hn =>
            cases h
            exact ⟨j,request,hp,hr,hm,hparams,rfl,hn⟩
          · cases h
        · cases h
  · rintro ⟨j,request,hp,hr,hm,hparams,hid,hn⟩
    rcases pending with ⟨id,proposal,txid⟩
    simp only at hparams hid hn
    simp only [questionOf,hp,hr,hm,hparams,hn,hid]

/-- Up to its question a frame does nothing to the shared state. -/
theorem run_beginText_of_question {text : String} {pending : Pending X}
    (h : questionOf text = some pending) (tx : Sender) (w : Shared) :
    (beginText text tx).run w = .ok (.inl pending) w := by
  obtain ⟨j,request,hp,hr,hm,hparams,hid,hn⟩ := questionOf_eq_some.mp h
  have hmessage : (beginMessage j tx).run w = .ok (.inl pending) w := by
    simp [beginMessage,beginDispatch,beginProposal,hr,hm,hparams,hn,hid]
  simp only [beginText,hp,firstAndThen,EStateM.run] at hmessage ⊢
  simp only [hmessage]

theorem beginDispatch_asks {request : NexusRequest X} {pending : Pending X} {tx : Sender}
    {w w' : Shared} (h : (beginDispatch request tx).run w = .ok (.inl pending) w') :
    request.method = .publish ∧ request.params = .proposal pending.proposal ∧
      request.id = pending.id ∧ X.neededTx pending.proposal = .ok pending.txid := by
  unfold beginDispatch at h
  split at h
  · next proposal hm hp =>
    cases hn : X.neededTx proposal with
    | ok txid =>
      simp only [beginProposal,hn,Fallible.ofExcept_ok,Fallible.convert_ok,EStateM.run_bind,
        run_ofFallible_ok,EStateM.run_pure] at h
      cases h
      exact ⟨hm,hp,rfl,hn⟩
    | error e => simp [beginProposal,hn] at h
  · exact absurd h (run_map_inr_ne _ pending w w')

/-- Where the first part asks, this is what it asks. -/
theorem questionOf_of_run_beginText {text : String} {pending : Pending X} {tx : Sender}
    {w w' : Shared} (h : (beginText text tx).run w = .ok (.inl pending) w') :
    questionOf text = some pending := by
  unfold beginText at h
  split at h
  · next hp =>
    rw [← map_bind] at h
    exact absurd h (run_map_inr_ne _ pending w w')
  · next j hp =>
    rw [run_firstAndThen_asks,beginMessage,EStateM.run_bind] at h
    cases hr : NexusRequest.tryFrom X j with
    | ok request =>
      rw [hr] at h
      obtain ⟨hm,hparams,hid,hn⟩ := beginDispatch_asks h
      exact questionOf_eq_some.mpr ⟨j,request,hp,hr,hm,hparams,hid,hn⟩
    | error f => simp [hr] at h

/-- A frame that asks nothing is handled before the next await, whatever the node. -/
theorem run_beginText_of_no_question {text : String} (h : questionOf (X := X) text = none)
    (tx : Sender) (w : Shared) (node : Node X) :
    (beginText text tx).run w = mapOk .inr ((handleText text (some node) tx).run w) := by
  rw [(handleText_splits text tx).run node w]
  cases hb : (beginText (X := X) text tx).run w with
  | ok result w' =>
    cases result with
    | inl pending =>
      rw [questionOf_of_run_beginText hb] at h
      cases h
    | inr goesOn => rfl
  | error f w' => rfl

/-- A frame that asks is handled, from the answer on, by the second part. -/
theorem run_handleText_of_question {text : String} {pending : Pending X}
    (h : questionOf text = some pending) (tx : Sender) (w : Shared) (node : Node X) :
    (handleText text (some node) tx).run w =
      (finishText tx pending (pending.answer node)).run w := by
  rw [(handleText_splits text tx).run node w,run_beginText_of_question h]

end NexusRelay
