import NexusRelay.Model.Proposal

/-! # The dispatcher

`process_message` and `subscribe_to_topic` of `lib.rs`, with the one equation for each
way a request can end that every later result starts from.
-/
namespace NexusRelay
open Shared
variable {X : Deps}

def subscribeToTopic (id : UInt32) (topic : Topic) (clientTx : Sender) :
    Exec Shared (Error X) NexusResponse := do
  lockUnwrap
  let sender ← cloneSender clientTx
  subscribe topic sender
  let messageResponse := NexusResponse.newSubscribed id
  dropGuard
  return messageResponse

/-- The `Params::Any` arm of a publish. -/
def publishAny (any : Any) (id : UInt32) : Exec Shared (Error X) NexusResponse := do
  let topic := Topic.unvalidated any.topic
  let content ← .ofFallible (.okOr any.content (.jsonRpc .invalidParams))
  lockUnwrap
  let response := NexusResponse.notification (.string content)
  let text ← .ofFallible (response.toText X)
  let _sentCount ← publish topic text
  dropGuard
  return .newPublished id

/-- The match on the method and the params. -/
def dispatch (request : NexusRequest X) (client : Option (Node X)) (clientTx : Sender) :
    Exec Shared (Error X) NexusResponse :=
  match request.method with
  | .subscribe => do
    let topic ← .ofFallible (.convert .jsonRpc (.ofExcept request.topic))
    subscribeToTopic request.id topic clientTx
  | .publish =>
    match request.params with
    | .ping => return .newPong request.id
    | .proposal proposal => processPublishProposal proposal client request.id
    | .any any => publishAny any request.id
    | _ => .ofFallible (.error (.err (.jsonRpc .invalidParams)))
  | _ => .ofFallible (.error (.err (.jsonRpc .invalidParams)))

def processMessage (messageRequest : JsonRpc) (client : Option (Node X)) (clientTx : Sender) :
    Exec Shared (Error X) NexusResponse := do
  let request ← .ofFallible (.convert .jsonRpc (NexusRequest.tryFrom X messageRequest))
  dispatch request client clientTx

theorem run_subscribeToTopic {w : Shared} (hw : w.Healthy) (id : UInt32) (t : Topic)
    (tx : Sender) :
    (subscribeToTopic id t tx : Exec Shared (Error X) NexusResponse).run w =
      .ok (.newSubscribed id) (w.subscribed t tx.chan) := by
  simp only [subscribeToTopic,EStateM.run_bind,run_lockUnwrap hw,cloneSender,
    EStateM.run_modifyGet,subscribe,EStateM.run_modify,run_dropGuard,EStateM.run_pure]
  exact congrArg (EStateM.Result.ok _) (unlocked_subscribed hw t tx.chan)

theorem run_publishAny {w : Shared} (hw : w.Healthy) (any : Any) (id : UInt32)
    {content text : String} (hc : any.content = some content)
    (ht : X.render (.success (.num (-1)) (.string content)) = some text) :
    (publishAny any id : Exec Shared (Error X) NexusResponse).run w =
      .ok (.newPublished id) (w.published (.unvalidated any.topic) text) := by
  simp [publishAny,hc,notification_toText,ht,run_lockUnwrap hw,run_publish,
    unlocked_published hw]

theorem run_publishAny_none (w : Shared) (any : Any) (id : UInt32) (hc : any.content = none) :
    (publishAny any id : Exec Shared (Error X) NexusResponse).run w =
      .error (.err (.jsonRpc .invalidParams)) w := by
  simp [publishAny,hc]

/-! ## The outcomes of a request -/

/-- What a request that is answered with a success does: at most one operation on the
registry. `c` is the client's channel. -/
inductive Served (request : NexusRequest X) (client : Option (Node X)) (c : ℕ) :
    NexusResponse → List Change → Prop
  | subscribe {topic : Topic} (hm : request.method = .subscribe)
      (ht : topicFromParams request.params = .ok topic) :
      Served request client c (.newSubscribed request.id) [.subscribe topic c]
  | ping (hm : request.method = .publish) (hp : request.params = .ping) :
      Served request client c (.newPong request.id) []
  | proposal {p : X.Unvalidated} {v : X.Validated} {text : String}
      (hm : request.method = .publish) (hp : request.params = .proposal p)
      (hv : Validates p client v) (ht : proposalText v = some text) :
      Served request client c (.newPublished request.id)
        [.publish (.validated (pairString X v)) text]
  | any {a : Any} {content text : String} (hm : request.method = .publish)
      (hp : request.params = .any a) (hc : a.content = some content)
      (ht : X.render (.success (.num (-1)) (.string content)) = some text) :
      Served request client c (.newPublished request.id) [.publish (.unvalidated a.topic) text]

/-- Why a request was not served. -/
inductive Refused (request : NexusRequest X) (client : Option (Node X)) : Fail (Error X) → Prop
  | topic {e : RequestError} (hm : request.method = .subscribe)
      (ht : topicFromParams request.params = .error e) :
      Refused request client (.err (.jsonRpc e))
  | content {a : Any} (hm : request.method = .publish) (hp : request.params = .any a)
      (hc : a.content = none) : Refused request client (.err (.jsonRpc .invalidParams))
  | proposal {p : X.Unvalidated} {f : Fail (Error X)} (hm : request.method = .publish)
      (hp : request.params = .proposal p) (hv : validateProposal p client = .error f) :
      Refused request client f
  | text {p : X.Unvalidated} {v : X.Validated} (hm : request.method = .publish)
      (hp : request.params = .proposal p) (hv : Validates p client v)
      (ht : proposalText v = none) : Refused request client .panic
  | other (hm : request.method ≠ .subscribe)
      (hp : request.method = .publish → request.params ≠ .ping ∧
        (∀ p, request.params ≠ .proposal p) ∧ ∀ a, request.params ≠ .any a) :
      Refused request client (.err (.jsonRpc .invalidParams))

/-- A parsed request is served by the same change in every healthy state, or refused in
every healthy state with nothing changed. -/
theorem dispatch_cases (hX : X.RenderTotal) (request : NexusRequest X)
    (client : Option (Node X)) (tx : Sender) :
    (∃ response changes, Served request client tx.chan response changes ∧
      ∀ w : Shared, w.Healthy →
        (dispatch request client tx).run w = .ok response (w.applyAll changes)) ∨
    (∃ f, Refused request client f ∧
      ∀ w : Shared, w.Healthy → (dispatch request client tx).run w = .error f w) := by
  cases hm : request.method with
  | subscribe =>
    cases ht : topicFromParams request.params with
    | ok topic =>
      refine Or.inl ⟨_,_,.subscribe hm ht,fun w hw => ?_⟩
      simp [dispatch,hm,NexusRequest.topic,ht,run_subscribeToTopic hw,apply]
    | error e =>
      refine Or.inr ⟨_,.topic hm ht,fun w _ => ?_⟩
      simp [dispatch,hm,NexusRequest.topic,ht]
  | publish =>
    cases hp : request.params with
    | ping => exact Or.inl ⟨_,_,.ping hm hp,fun w _ => by simp [dispatch,hm,hp]⟩
    | any a =>
      cases hc : a.content with
      | none =>
        refine Or.inr ⟨_,.content hm hp hc,fun w _ => ?_⟩
        simp only [dispatch,hm,hp,run_publishAny_none w a _ hc]
      | some content =>
        obtain ⟨text,ht⟩ := hX.eq_some (.success (.num (-1)) (.string content))
        refine Or.inl ⟨_,_,.any hm hp hc ht,fun w hw => ?_⟩
        simp only [dispatch,hm,hp,run_publishAny hw a _ hc ht]
        rfl
    | proposal p =>
      have hrun := fun (w : Shared) (hw : w.Healthy) =>
        run_processPublishProposal hw p client request.id
      cases hv : validateProposal p client with
      | error f =>
        refine Or.inr ⟨f,.proposal hm hp hv,fun w hw => ?_⟩
        simp only [dispatch,hm,hp,hrun w hw,hv]
      | ok v =>
        have hval := validateProposal_eq_ok.mp hv
        cases ht : proposalText v with
        | none =>
          refine Or.inr ⟨_,.text hm hp hval ht,fun w hw => ?_⟩
          simp only [dispatch,hm,hp,hrun w hw,hv,ht]
        | some text =>
          refine Or.inl ⟨_,_,.proposal hm hp hval ht,fun w hw => ?_⟩
          simp only [dispatch,hm,hp,hrun w hw,hv,ht]
          rfl
    | address _ | tx _ | pair _ | wallet _ | empty | pset _ =>
      refine Or.inr ⟨_,.other (by simp [hm]) (by simp [hp]),fun w _ => ?_⟩
      simp [dispatch,hm,hp]
  | unsubscribe =>
    refine Or.inr ⟨_,.other (by simp [hm]) (by simp [hm]),fun w _ => ?_⟩
    simp [dispatch,hm]

/-- A message that does not parse never reaches the shared state. -/
theorem run_processMessage (j : JsonRpc) (client : Option (Node X)) (tx : Sender) (w : Shared) :
    (processMessage j client tx).run w =
      match NexusRequest.tryFrom X j with
      | .ok request => (dispatch request client tx).run w
      | .error f => .error (f.map .jsonRpc) w := by
  cases h : NexusRequest.tryFrom X j with
  | ok request => simp [processMessage,h]
  | error f => simp [processMessage,h]

/-- A subscribe request with a topic is acknowledged, whatever the topic. -/
theorem run_processMessage_subscribe {w : Shared} (hw : w.Healthy) {j : JsonRpc}
    {request : NexusRequest X} {topic : Topic} (hr : NexusRequest.tryFrom X j = .ok request)
    (hm : request.method = .subscribe) (ht : request.topic = .ok topic)
    (client : Option (Node X)) (tx : Sender) :
    (processMessage j client tx).run w =
      .ok (.newSubscribed request.id) (w.subscribed topic tx.chan) := by
  rw [run_processMessage,hr]
  simp [dispatch,hm,ht,run_subscribeToTopic hw]

/-- A message is served by the same change in every healthy state, or fails in every
healthy state with nothing changed. -/
theorem processMessage_cases (hX : X.RenderTotal) (j : JsonRpc) (client : Option (Node X))
    (tx : Sender) :
    (∃ request response changes, NexusRequest.tryFrom X j = .ok request ∧
      Served request client tx.chan response changes ∧ ∀ w : Shared, w.Healthy →
        (processMessage j client tx).run w = .ok response (w.applyAll changes)) ∨
    (∃ f, ∀ w : Shared, w.Healthy → (processMessage j client tx).run w = .error f w) := by
  simp only [run_processMessage]
  cases h : NexusRequest.tryFrom X j with
  | error f => exact Or.inr ⟨_,fun w _ => rfl⟩
  | ok request =>
    rcases dispatch_cases hX request client tx with ⟨response,changes,hs,hr⟩ | ⟨f,-,hr⟩
    · exact Or.inl ⟨request,response,changes,rfl,hs,hr⟩
    · exact Or.inr ⟨f,hr⟩

end NexusRelay
