import NexusRelay.Connections.Watching
import NexusRelay.Requests.RoundTrip

/-! # A session of the client library

A client that writes its requests with the constructors and `Display` of `NexusRequest`, and asks
for nothing the node has to answer, gets one reply for each, in order and with its id.
-/
namespace NexusRelay
open Shared
variable {X : Deps} {C : Client X}

/-! ## Requests -/

/-- The result of a request that is served without asking the node. -/
def NexusRequest.promptResult (request : NexusRequest X) : Option String :=
  match request.method, request.params with
  | .subscribe, .address _ | .subscribe, .tx _ | .subscribe, .pair _ => some "subscribed"
  | .subscribe, .any ⟨_,none⟩ => some "subscribed"
  | .publish, .ping => some "pong"
  | .publish, .any ⟨_,some _⟩ => some "published"
  | _, _ => none

def NexusRequest.promptReply (request : NexusRequest X) : Option JsonRpc :=
  request.promptResult.map fun result => .success (.num request.id.toNat) (.string result)

theorem NexusRequest.promptResult_admitted {request : NexusRequest X} {result : String}
    (h : request.promptResult = some result) :
    request.params.validateForMethod request.method = .ok () := by
  unfold promptResult at h
  split at h
  case h_7 => cases h
  all_goals
    next hm hp =>
    rw [hm,hp]
    rfl

/-- Whatever the node, a prompt request is answered by a success. -/
theorem answerRequest_prompt (hX : X.RenderTotal) {request : NexusRequest X} {reply : JsonRpc}
    (h : request.promptReply = some reply) (node : Node X) :
    (answerRequest request node).map Answer.reply = some reply := by
  obtain ⟨result,hresult,rfl⟩ := Option.map_eq_some_iff.mp h
  unfold NexusRequest.promptResult at hresult
  split at hresult
  case h_6 topic content hm hp =>
    cases hresult
    obtain ⟨text,ht⟩ := hX.eq_some (.success (.num (-1)) (.string content))
    simp [answerRequest,hm,hp,ht,success]
  case h_7 => cases hresult
  all_goals
    next hm hp =>
    cases hresult
    simp [answerRequest,hm,hp,topicFromParams,success]

/-- A prompt request does not come to the await. -/
theorem questionOf_prompt {text : String} {request : NexusRequest X}
    (h : requestOf text = some request) (hr : request.promptResult.isSome = true) :
    questionOf (X := X) text = none := by
  cases hq : questionOf (X := X) text with
  | none => rfl
  | some pending =>
    obtain ⟨j,request',hp,hok,hm,hparams,-⟩ := questionOf_eq_some.mp hq
    have hsame : requestOf text = some request' := by simp [requestOf,hp,hok,Except.toOption]
    rw [hsame] at h
    cases h
    simp [NexusRequest.promptResult,hm,hparams] at hr

/-! ## Sessions of the service -/

/-- The reply to a text that is a prompt request. -/
def promptReplyTo (X : Deps) (text : String) : Option JsonRpc :=
  (requestOf (X := X) text).bind NexusRequest.promptReply

variable (X) in
/-- The client asks only for what is served without the node. -/
def Prompt (frames : List String) : Prop := ∀ text ∈ frames, (promptReplyTo X text).isSome = true

theorem framesHandled_snoc (c : ℕ) (past : List (Event X)) (e : Event X) :
    framesHandled c (past ++ [e]) = framesHandled c past ++ (e.frameOf? c).toList := by
  simp only [framesHandled,List.filterMap_append]
  rfl

namespace Service
variable (network : Network) (n : ℕ)

/-- The reply to a prompt frame of an open client. -/
theorem replies_prompt (hX : X.RenderTotal) (hread : X.ResponsesReadBack) {c : ℕ} {s : Service}
    {e : Event X} (hopen : (s.mailbox c).isOpen = true)
    (hp : ∀ text ∈ e.frameOf? c, (promptReplyTo X text).isSome = true) :
    replies c s e = (e.frameOf? c).toList.filterMap (promptReplyTo X) := by
  cases e with
  | zmq | recv | close => rfl
  | frame tx text node =>
    by_cases hc : tx.chan = c
    · have hframe : (Event.frame tx text node).frameOf? c = some text := if_pos hc
      rw [hframe] at hp ⊢
      obtain ⟨reply,hreply⟩ := Option.isSome_iff_exists.mp (hp text rfl)
      obtain ⟨request,hrequest,hprompt⟩ := Option.bind_eq_some_iff.mp hreply
      obtain ⟨answer,hanswer,hsame⟩ := Option.map_eq_some_iff.mp (answerRequest_prompt hX hprompt node)
      obtain ⟨str,hstr⟩ := hX.eq_some reply
      obtain ⟨result,hresult,rfl⟩ := Option.map_eq_some_iff.mp hprompt
      have hread := (readReply_success hread hstr).1
      rw [← answerText_of_requestOf hrequest node] at hanswer
      simp [replies,hc,hopen,hanswer,hsame,hstr,hread,hreply]
    · have hframe : (Event.frame tx text node).frameOf? c = none := if_neg hc
      simp [replies,hc,hframe]

/-- While its client is there every prompt frame is answered in order, and no other reply comes
before or after it leaves. -/
theorem run_prompt (hX : X.RenderTotal) (hread : X.ResponsesReadBack) (hP : X.ProposalsAreObjects)
    {events : List (Event X)} {c : ℕ} (hp : Prompt X (framesHandled c events)) :
    ((run network n events).mailbox c).inbox.filterMap (readReply X) <+:
        (framesHandled c events).filterMap (promptReplyTo X) ∧
      (((run network n events).mailbox c).isOpen = true →
        ((run network n events).mailbox c).inbox.filterMap (readReply X) =
          (framesHandled c events).filterMap (promptReplyTo X)) := by
  induction events using List.reverseRecOn with
  | nil => exact ⟨List.prefix_rfl,fun _ => rfl⟩
  | append_singleton past e ih =>
    rw [framesHandled_snoc] at hp ⊢
    obtain ⟨hbegins,hall⟩ := ih fun text ht => hp text (List.mem_append_left _ ht)
    have hstep := step_replies network n hX hread hP (run network n past) e c
    rw [run_snoc,List.filterMap_append,hstep]
    cases hopen : ((run network n past).mailbox c).isOpen with
    | true =>
      have hnew := replies_prompt hX hread hopen fun text ht =>
        hp text (List.mem_append_right _ (Option.mem_toList.mpr ht))
      rw [hall hopen,hnew]
      exact ⟨List.prefix_rfl,fun _ => rfl⟩
    | false =>
      have hnone : replies c (run network n past) e = [] := by
        cases e with
        | frame tx text node => simp [replies,hopen]
        | zmq | recv | close => rfl
      have hclosed : ((step network n (run network n past) e).mailbox c).isOpen = false :=
        Mailbox.run_isOpen_of_closed hopen c _
      rw [hnone,List.append_nil]
      refine ⟨hbegins.trans (List.prefix_append _ _),fun h => ?_⟩
      rw [hclosed] at h
      cases h

end Service

/-! ## Sessions of the server -/

variable (C) in
/-- The client wrote the text for the request, which has an id that is accepted and asks only for
what is served without the node. -/
structure Writes (request : NexusRequest X) (text : String) : Prop where
  id : 0 < request.id.toNat ∧ request.id.toNat < 4294967295
  prompt : request.promptReply.isSome = true
  text : (request.toText C : Fallible Empty String) = .ok text

theorem Writes.promptReplyTo (hQ : X.RequestsReadBack) (hC : C.ObjectsAreMaps)
    (hR : C.ProposalsReadBack) {request : NexusRequest X} {text : String}
    (h : Writes C request text) : promptReplyTo X text = request.promptReply := by
  obtain ⟨reply,hreply⟩ := Option.isSome_iff_exists.mp h.prompt
  obtain ⟨result,hresult,-⟩ := Option.map_eq_some_iff.mp hreply
  have hv := NexusRequest.promptResult_admitted hresult
  obtain ⟨key,value,text',htext,hparse,hroot⟩ := request.toText_parses (ε := Empty) hQ hC hR hv
  have hsame := h.text
  rw [htext] at hsame
  cases hsame
  have hok := NexusRequest.tryFrom_written h.id hroot hv
  simp [NexusRelay.promptReplyTo,requestOf,hparse,hok,Except.toOption]

theorem written_replies (hQ : X.RequestsReadBack) (hC : C.ObjectsAreMaps) (hR : C.ProposalsReadBack)
    {requests : List (NexusRequest X)} {texts : List String}
    (h : List.Forall₂ (Writes C) requests texts) : Prompt X texts ∧
      texts.filterMap (promptReplyTo X) = requests.filterMap NexusRequest.promptReply ∧
      (requests.filterMap NexusRequest.promptReply).length = requests.length := by
  induction h with
  | nil => exact ⟨(fun _ h => nomatch h),rfl,rfl⟩
  | cons hw _ ih =>
    obtain ⟨hprompt,hreplies,hlen⟩ := ih
    have hreply := hw.promptReplyTo hQ hC hR
    obtain ⟨reply,hsome⟩ := Option.isSome_iff_exists.mp hw.prompt
    rw [hsome] at hreply
    refine ⟨fun text ht => ?_,?_,?_⟩
    · rcases List.mem_cons.mp ht with rfl | ht
      · rw [hreply]
        rfl
      · exact hprompt text ht
    · rw [List.filterMap_cons_some hreply,List.filterMap_cons_some hsome,hreplies]
    · rw [List.filterMap_cons_some hsome,List.length_cons,List.length_cons,hlen]

/-- A client that sends only prompt requests has no frame in hand. -/
theorem Handled.frames_prompt {seen : List Visible} {events : List (Event X)} {s : Server X}
    (h : Handled seen events s) {i : ℕ} (hp : Prompt X (framesRead i seen)) :
    framesRead i seen = framesHandled i events := by
  have hframes := h.frames i
  cases hw : s.waitingOf i with
  | node asking =>
    rw [hw] at hframes
    have hmem : asking.text ∈ framesRead i seen := by
      rw [hframes]
      exact List.mem_append_right _ (List.mem_singleton_self _)
    obtain ⟨reply,hreply⟩ := Option.isSome_iff_exists.mp (hp _ hmem)
    obtain ⟨request,hrequest,hprompt⟩ := Option.bind_eq_some_iff.mp hreply
    obtain ⟨result,hresult,-⟩ := Option.map_eq_some_iff.mp hprompt
    have hnone := questionOf_prompt hrequest (by rw [hresult]; rfl)
    rw [asking.asked] at hnone
    cases hnone
  | frame | forwardTask | returned | panicked =>
    rw [hw] at hframes
    exact hframes.trans (List.append_nil _)

/-- In every run of the server, a client whose frames are the texts of requests to subscribe by
address, txid, pair or topic, to publish to a topic or to ping reads, among all its channel got,
exactly one reply to each request, a success with the id of the request, in the order of the
requests, as long as its forward task is not over; after that the replies stop. Where the
server has settled the socket took them all. -/
theorem sessions_are_answered (hX : X.RenderTotal) (hread : X.ResponsesReadBack)
    (hQ : X.RequestsReadBack) (hP : X.ProposalsAreObjects) (hC : C.ObjectsAreMaps)
    (hR : C.ProposalsReadBack) (network : Network) {n : ℕ} (hn : 0 < n) (readies : List (Ready X))
    (s : Server X) (h : Machine.run (Server.step network) (Server.start n) readies = some s) (i : ℕ)
    (requests : List (NexusRequest X)) (hw : List.Forall₂ (Writes C) requests
      (framesRead i (Machine.outputs (Server.step network) Server.visible (Server.start n) readies))) :
    let seen := Machine.outputs (Server.step network) Server.visible (Server.start n) readies
    let replies := requests.filterMap NexusRequest.promptReply
    replies.length = requests.length ∧ (s.forwarded seen i).filterMap (readReply X) <+: replies ∧
      (s.forwardOf i ≠ .ended → (s.forwarded seen i).filterMap (readReply X) = replies) ∧
      (s.running = true →
        (∀ ready : Ready X, ready.internal = true → s.step network ready = none) →
        ∀ peer, s.peers[i]? = some peer → peer.forward ≠ .ended →
          (socketTexts i true seen).filterMap (readReply X) = replies) := by
  intro seen replies
  obtain ⟨hprompt,hreplies,hlen⟩ := written_replies hQ hC hR hw
  obtain ⟨hforwarded,-,hopen⟩ := Server.forwarded_inbox hX hn h i
  have hhandled := (Server.run_handled h).1.frames_prompt hprompt
  rw [hhandled] at hprompt hreplies
  obtain ⟨hbegins,hall⟩ := Service.run_prompt network n hX hread hP hprompt
  rw [hreplies] at hbegins hall
  rw [← hforwarded] at hbegins hall
  refine ⟨hlen,hbegins,fun hf => hall (hopen.mpr hf),fun hr hnone peer hp hf => ?_⟩
  have hforward : s.forwardOf i ≠ .ended := by rwa [Server.forwardOf_eq hp]
  rw [Server.settled_inbox hX hn h hr hnone hp hf,← hforwarded]
  exact hall (hopen.mpr hforward)

/-! ## A ping and a subscription -/

namespace Sample

def pingText : String :=
  print (.request (.num 5) "publish" (some (.map [("ping",.null)])))

def watchText : String :=
  print (.request (.num 6) "subscribe" (some (.map [("address",.string address)])))

/-- The transaction arrives between the subscription and what the socket takes. -/
def session : List (Ready Deps.text) :=
  [.accepted,.upgraded,.peer 0 (.text pingText),.peer 0 .received,.peer 0 (.text watchText),
    .zmq [rawtx,txBytes],.peer 0 (.sent true),.peer 0 .received]

theorem session_written : List.Forall₂ (Writes textClient)
    [.newPing 5,.newAddressSubscribe 6 address] [pingText,watchText] :=
  .cons ⟨by decide,rfl,rfl⟩ (.cons ⟨by decide,rfl,rfl⟩ .nil)

end Sample

theorem session_answered : ∃ s : Server Deps.text,
    Machine.run (Server.step .elementsRegtest) (Server.start 1000) Sample.session = some s ∧
      (s.forwarded (Machine.outputs (Server.step .elementsRegtest) Server.visible
        (Server.start 1000) Sample.session) 0).filterMap (readReply Deps.text) =
        [.success (.num 5) (.string "pong"),.success (.num 6) (.string "subscribed")] := by
  have hrun : (Machine.run (Server.step .elementsRegtest) (Server.start 1000)
      Sample.session).any (fun s => decide (s.forwardOf 0 ≠ .ended)) = true := by decide +kernel
  obtain ⟨s,hs,hopen⟩ := (Option.any_eq_true ..).mp hrun
  have hframes : framesRead 0 (Machine.outputs (Server.step .elementsRegtest) Server.visible
      (Server.start 1000) Sample.session) = [Sample.pingText,Sample.watchText] := by decide +kernel
  have hwritten := Sample.session_written
  rw [← hframes] at hwritten
  exact ⟨s,hs,(sessions_are_answered Deps.text_renderTotal Deps.text_responsesReadBack
    Deps.text_requestsReadBack Deps.text_proposalsAreObjects Sample.textClient_objectsAreMaps
    Sample.textClient_proposalsReadBack .elementsRegtest (n := 1000) (by decide) Sample.session s hs 0
    _ hwritten).2.2.1 (of_decide_eq_true hopen)⟩

end NexusRelay
