import NexusRelay.Delivery.Refinement
import NexusRelay.Delivery.Wire

/-! # What a client reads

The id -1 tells a client what was published from the replies to its requests, and the fields of
the result tell it the notifications of the listener. What it reads of its mailbox is what the
messages of the node mean under the topics it is joined to.
-/
namespace NexusRelay
open Shared
variable {X : Deps}

/-! ## Texts -/

variable (X) in
/-- The result of a text that was published. -/
def readResult (text : String) : Option Value :=
  (X.parse text).bind fun j => if j.getId = some (.num (-1)) then j.getResult else none

variable (X) in
def readReply (text : String) : Option JsonRpc :=
  (X.parse text).filter fun j => decide (j.getId ≠ some (.num (-1)))

/-- A notification by txid has all the fields of one by address but the address. -/
def Notice.fromValue (value : Value) : Option Notice :=
  match AddressSeen.fromValue value with
  | some seen => some (.address seen)
  | none => (TxSeen.fromValue value).map .tx

variable (X) in
def readNotice (text : String) : Option Notice := (readResult X text).bind Notice.fromValue

variable (X) in
/-- What was published and is no notification of the listener. -/
def readRelayed (text : String) : Option Value :=
  (readResult X text).filter fun value => (Notice.fromValue value).isNone

theorem readResult_published (hread : X.ResponsesReadBack) {value : Value} {text : String}
    (hv : value.WellFormed) (h : X.render (.success (.num (-1)) value) = some text) :
    readResult X text = some value ∧ readReply X text = none := by
  have hp := hread.1 (-1) value text isI64_neg_one hv h
  constructor
  · simp [readResult,hp,JsonRpc.getId,JsonRpc.getResult]
  · simp [readReply,hp,JsonRpc.getId]

theorem readReply_success (hread : X.ResponsesReadBack) {id : UInt32} {result : String}
    {text : String} (h : X.render (.success (.num id.toNat) (.string result)) = some text) :
    readReply X text = some (.success (.num id.toNat) (.string result)) ∧
      readResult X text = none := by
  have hp := hread.1 _ _ text (isI64_of_uint32 id) (wellFormed_string result) h
  have hid : (id.toNat : Int) ≠ -1 := by omega
  constructor
  · simp [readReply,hp,JsonRpc.getId,hid]
  · simp [readResult,hp,JsonRpc.getId,hid]

theorem readResult_error (hread : X.ResponsesReadBack) {err : JsonRpc.Error} (he : err.WellFormed)
    {text : String} (h : X.render (.error (.num 0) err) = some text) : readResult X text = none := by
  obtain ⟨err',hp⟩ := hread.2 0 err text (by unfold IsI64; omega) he h
  simp [readResult,hp,JsonRpc.getId]

theorem Notice.fromValue_value (n : Notice) : fromValue n.value = some n := by
  rcases n with ⟨txid,txHex,_ | _⟩ | ⟨address,txid,txHex,_ | _⟩ <;> rfl

theorem Notice.value_wellFormed (n : Notice) : n.value.WellFormed := by
  cases n with
  | tx seen => exact seen.toValue_wellFormed
  | address seen => exact seen.toValue_wellFormed

theorem Notice.fromValue_of_no_where {entries : List (String × Value)}
    (h : entries.lookup "where" = none) : fromValue (.object entries) = none := by
  simp [fromValue,AddressSeen.fromValue,TxSeen.fromValue,Value.structFields,h]

theorem readNotice_text (hX : X.RenderTotal) (hread : X.ResponsesReadBack) (n : Notice) :
    readNotice X (n.text X) = some n := by
  have hresult := (readResult_published hread n.value_wellFormed (render_noticeText hX n.value)).1
  rw [readNotice,Notice.text,hresult]
  exact n.fromValue_value

/-! ## Frames -/

/-- What is published for a request: relayed content, or a proposal. -/
def Relayed (X : Deps) (value : Value) : Prop :=
  (∃ content, value = .string content) ∨ ∃ v, X.validatedToValue v = some value

/-- The answers there are: a success, or an error with the id 0 that does nothing. -/
inductive Answer.Kind (X : Deps) : Answer → Prop
  | success (id : UInt32) (result : String) {operation : Option Operation}
      (hp : ∀ t m, operation = some (.publish t m) →
        ∃ value, X.render (.success (.num (-1)) value) = some m ∧ Relayed X value) :
      Kind X (NexusRelay.success id result operation)
  | error {err : JsonRpc.Error} (he : err.WellFormed) : Kind X ⟨.error (.num 0) err,none⟩

theorem refusal_kind {f : Fail (Error X)} {a : Answer} (h : refusal f = some a) : a.Kind X := by
  cases f with
  | panic => cases h
  | err e =>
    cases h
    obtain ⟨err,herr,hwell⟩ := errorResponse_eq e
    rw [herr]
    exact .error hwell

theorem refusal_operation {f : Fail (Error X)} {a : Answer} (h : refusal f = some a) :
    a.operation = none := by
  cases f with
  | panic => cases h
  | err e =>
    cases h
    rfl

theorem answerRequest_kind {request : NexusRequest X} {node : Node X} {a : Answer}
    (h : answerRequest request node = some a) : a.Kind X := by
  unfold answerRequest at h
  split at h
  · split at h
    · cases h
      exact .success _ _ (by simp)
    · exact refusal_kind h
  · cases h
    exact .success _ _ (by simp)
  · split at h
    · next content hc =>
      obtain ⟨text,ht,rfl⟩ := Option.map_eq_some_iff.mp h
      refine .success _ _ fun t m hm => ?_
      cases hm
      exact ⟨_,ht,Or.inl ⟨content,rfl⟩⟩
    · exact refusal_kind h
  · split at h
    · next v hv =>
      obtain ⟨text,ht,rfl⟩ := Option.map_eq_some_iff.mp h
      obtain ⟨value,hvalue,hrender⟩ := Option.bind_eq_some_iff.mp ht
      refine .success _ _ fun t m hm => ?_
      cases hm
      exact ⟨value,hrender,Or.inr ⟨v,hvalue⟩⟩
    · exact refusal_kind h
  · exact refusal_kind h

theorem answerText_kind {text : String} {node : Node X} {a : Answer}
    (h : answerText text node = some a) : a.Kind X := by
  unfold answerText at h
  split at h
  · cases h
    exact .error (rpcError_new_wellFormed (by simp))
  · split at h
    · exact answerRequest_kind h
    · exact refusal_kind h

theorem Relayed.wellFormed (hP : X.ProposalsAreObjects) {value : Value} (h : Relayed X value) :
    value.WellFormed := by
  rcases h with ⟨content,rfl⟩ | ⟨v,hv⟩
  · exact wellFormed_string content
  · exact (hP v value hv).1

theorem Relayed.no_notice (hP : X.ProposalsAreObjects) (hW : X.ProposalsHaveNoWhere) {value : Value}
    (h : Relayed X value) : Notice.fromValue value = none := by
  rcases h with ⟨content,rfl⟩ | ⟨v,hv⟩
  · rfl
  · have hobject := (hP v value hv).2
    cases value with
    | object entries => exact Notice.fromValue_of_no_where (hW v entries hv)
    | null | bool | number | string | array => cases hobject

theorem reply_unread (hread : X.ResponsesReadBack) {text : String} {node : Node X} {answer : Answer}
    (h : answerText text node = some answer) {str : String} (hs : X.render answer.reply = some str) :
    readResult X str = none := by
  cases answerText_kind h with
  | success id result hp => exact (readReply_success hread hs).2
  | error he => exact readResult_error hread he hs

/-- A reader of what is published that reads nothing of what a frame publishes reads nothing of
all that the frame brings about. -/
theorem Service.frame_unread {β : Type} {f : String → Option β} (hread : X.ResponsesReadBack)
    (hf : ∀ str, readResult X str = none → f str = none) (network : Network) (n : ℕ)
    (past : List String) (tx : Sender) {text : String} {node : Node X}
    (hop : ∀ answer, answerText text node = some answer →
      ∀ t m, answer.operation = some (.publish t m) → f m = none) :
    ∀ a ∈ actions network n past (.frame tx text node), a.message?.bind f = none := by
  intro a ha
  cases hanswer : answerText text node with
  | none => simp [actions,hanswer] at ha
  | some answer =>
    simp only [actions,hanswer,Option.map_some,Option.getD_some,Answer.actions] at ha
    split at ha
    · next str hstr =>
      rcases List.mem_append.mp ha with ha | ha
      · obtain ⟨operation,hoperation,rfl⟩ := Option.map_eq_some_iff.mp (Option.mem_toList.mp ha)
        cases operation with
        | subscribe t => rfl
        | publish t m => exact hop answer hanswer t m hoperation
      · cases List.mem_singleton.mp ha
        exact hf str (reply_unread hread hanswer hstr)
    · cases ha

/-! ## What a frame publishes -/

/-- What the relay reads a text as, if it is a request. -/
def requestOf (text : String) : Option (NexusRequest X) :=
  (X.parse text).bind fun j => (NexusRequest.tryFrom X j).toOption

/-- The content or the proposal a request publishes, and the topic. -/
def NexusRequest.relayed (request : NexusRequest X) (node : Node X) : Option (Topic × Value) :=
  match request.method, request.params with
  | .publish, .any a => a.content.map fun content => (.unvalidated a.topic,.string content)
  | .publish, .proposal p =>
    match validateProposal p (some node) with
    | .ok v => (X.validatedToValue v).map fun value => (.validated (pairString X v),value)
    | .error _ => none
  | _, _ => none

def relayedBy (text : String) (node : Node X) : Option (Topic × Value) :=
  (requestOf text).bind fun request => request.relayed node

theorem answerText_of_requestOf {text : String} {request : NexusRequest X}
    (h : requestOf text = some request) (node : Node X) :
    answerText text node = answerRequest request node := by
  obtain ⟨j,hp,hr⟩ := Option.bind_eq_some_iff.mp h
  cases hok : NexusRequest.tryFrom X j with
  | error f =>
    rw [hok] at hr
    cases hr
  | ok request' =>
    rw [hok] at hr
    cases hr
    simp only [answerText,hp,hok]

/-- A text that is no request is answered by an error. -/
theorem operation_of_no_request {text : String} (h : requestOf (X := X) text = none) {node : Node X}
    {answer : Answer} (ha : answerText text node = some answer) : answer.operation = none := by
  unfold answerText at ha
  split at ha
  · cases ha
    rfl
  · next j hp =>
    split at ha
    · next request hr => simp [requestOf,hp,hr,Except.toOption] at h
    · exact refusal_operation ha

/-- The answer to a request publishes the text of what the request relays. -/
theorem answerRequest_relays (hX : X.RenderTotal) {request : NexusRequest X} {node : Node X}
    {t : Topic} {value : Value} (h : request.relayed node = some (t,value)) :
    Relayed X value ∧ ∃ m, X.render (.success (.num (-1)) value) = some m ∧
      answerRequest request node = some (success request.id "published" (some (.publish t m))) := by
  obtain ⟨m,hm⟩ := hX.eq_some (.success (.num (-1)) value)
  unfold NexusRequest.relayed at h
  split at h
  · next a hmethod hparams =>
    obtain ⟨content,hc,hsame⟩ := Option.map_eq_some_iff.mp h
    cases hsame
    exact ⟨Or.inl ⟨content,rfl⟩,m,hm,by simp [answerRequest,hmethod,hparams,hc,hm]⟩
  · next p hmethod hparams =>
    split at h
    · next v hv =>
      obtain ⟨value',hvalue,hsame⟩ := Option.map_eq_some_iff.mp h
      cases hsame
      have htext : proposalText v = some m := by simp [proposalText,hvalue,hm]
      exact ⟨Or.inr ⟨v,hvalue⟩,m,hm,by simp [answerRequest,hmethod,hparams,hv,htext]⟩
    · cases h
  · cases h

theorem answerRequest_relays_nothing {request : NexusRequest X} {node : Node X}
    (h : request.relayed node = none) {answer : Answer} (ha : answerRequest request node = some answer)
    (t : Topic) (m : String) : answer.operation ≠ some (.publish t m) := by
  intro hop
  unfold answerRequest at ha
  split at ha
  · split at ha
    · cases ha
      cases hop
    · rw [refusal_operation ha] at hop
      cases hop
  · cases ha
    cases hop
  · next a hmethod hparams =>
    split at ha
    · next content hc => simp [NexusRequest.relayed,hmethod,hparams,hc] at h
    · rw [refusal_operation ha] at hop
      cases hop
  · next p hmethod hparams =>
    split at ha
    · next v hv =>
      have hnone : X.validatedToValue v = none := by
        simpa [NexusRequest.relayed,hmethod,hparams,hv] using h
      simp [proposalText,hnone] at ha
    · rw [refusal_operation ha] at hop
      cases hop
  · rw [refusal_operation ha] at hop
    cases hop

theorem answerText_relays_nothing {text : String} {node : Node X}
    (h : relayedBy text node = none) {answer : Answer} (ha : answerText text node = some answer)
    (t : Topic) (m : String) : answer.operation ≠ some (.publish t m) := by
  cases hr : requestOf (X := X) text with
  | none =>
    rw [operation_of_no_request hr ha]
    exact Option.some_ne_none _ |>.symm
  | some request =>
    rw [answerText_of_requestOf hr] at ha
    refine answerRequest_relays_nothing ?_ ha t m
    simpa [relayedBy,hr] using h

/-! ## Notifications -/

theorem filterMap_replicate_texts {α β : Type} {f : β → Option α} {text : α → β}
    (h : ∀ a, f (text a) = some a) (count : α → ℕ) (xs : List α) :
    (xs.flatMap fun a => List.replicate (count a) (text a)).filterMap f =
      xs.flatMap fun a => List.replicate (count a) a := by
  rw [List.filterMap_flatMap]
  congr 1
  funext a
  exact List.filterMap_replicate_of_some (h a)

namespace Service
variable (network : Network) (n : ℕ)

/-- What a client reads of its mailbox in a run is what it reads of each step. -/
theorem run_of_step {β : Type} {f : String → Option β} {out : Service → Event X → List β} {c : ℕ}
    (hstep : ∀ s e, ((step network n s e).mailbox c).inbox.filterMap f =
      (s.mailbox c).inbox.filterMap f ++ out s e) (events : List (Event X)) :
    ((run network n events).mailbox c).inbox.filterMap f =
      History.collect (step network n) out start events := by
  induction events using List.reverseRecOn with
  | nil => rfl
  | append_singleton past e ih =>
    have hlast := hstep (run network n past) e
    rw [run_snoc,hlast,ih,History.collect_snoc]
    rfl

/-- What an event is to client `c`: the notifications of a message, once for each time it is joined
to the topic. -/
def notices (c : ℕ) (s : Service) : Event X → List Notice
  | .zmq msg =>
    if (s.mailbox c).isOpen then
      (noticesOf X network n s.announced msg).flatMap fun m =>
        List.replicate ((s.mailbox c).topics.count m.topic) m
    else []
  | .frame _ _ _ | .recv _ | .close _ => []

theorem step_reads (hX : X.RenderTotal) (hread : X.ResponsesReadBack) (hP : X.ProposalsAreObjects)
    (hW : X.ProposalsHaveNoWhere) (s : Service) (e : Event X) (c : ℕ) :
    ((step network n s e).mailbox c).inbox.filterMap (readNotice X) =
      (s.mailbox c).inbox.filterMap (readNotice X) ++ notices network n c s e := by
  cases e with
  | zmq msg =>
    have hposts := Mailbox.run_posts_inbox c (s.mailbox c) Notice.topic (Notice.text X)
      (noticesOf X network n s.announced msg)
    have hinbox : ((step network n s (.zmq msg : Event X)).mailbox c).inbox = _ := hposts
    rw [hinbox,List.filterMap_append,notices]
    congr 1
    cases (s.mailbox c).isOpen with
    | true => exact filterMap_replicate_texts (readNotice_text hX hread) _ _
    | false => rfl
  | frame tx text node =>
    rw [notices,List.append_nil]
    refine Mailbox.run_inbox_unread (frame_unread hread (fun str hstr => ?_) network n s.announced tx
      fun answer hanswer t m hop => ?_) c _
    · rw [readNotice,hstr]
      rfl
    · cases answerText_kind hanswer with
      | success id result hp =>
        obtain ⟨value,hrender,hrelayed⟩ := hp t m hop
        rw [readNotice,(readResult_published hread (hrelayed.wellFormed hP) hrender).1]
        exact hrelayed.no_notice hP hW
      | error he => cases hop
  | recv d | close d =>
    rw [notices,List.append_nil]
    exact Mailbox.run_inbox_unread (by simp [actions,Mailbox.Action.message?]) c _

/-- What a client reads of its mailbox as notifications of the listener. -/
theorem run_reads (hX : X.RenderTotal) (hread : X.ResponsesReadBack) (hP : X.ProposalsAreObjects)
    (hW : X.ProposalsHaveNoWhere) (events : List (Event X)) (c : ℕ) :
    ((run network n events).mailbox c).inbox.filterMap (readNotice X) =
      History.collect (step network n) (notices network n c) start events :=
  run_of_step network n (fun s e => step_reads network n hX hread hP hW s e c) events

/-! ## What other clients publish -/

/-- What an event is to client `c`: the content or the proposal of a frame, whoever sent it, once
for each time the client is joined to the topic. -/
def relays (c : ℕ) (s : Service) : Event X → List Value
  | .frame _ text node =>
    if (s.mailbox c).isOpen then
      (relayedBy text node).toList.flatMap fun r =>
        List.replicate ((s.mailbox c).topics.count r.1) r.2
    else []
  | .zmq _ | .recv _ | .close _ => []

theorem step_relays (hX : X.RenderTotal) (hread : X.ResponsesReadBack) (hP : X.ProposalsAreObjects)
    (hW : X.ProposalsHaveNoWhere) (s : Service) (e : Event X) (c : ℕ) :
    ((step network n s e).mailbox c).inbox.filterMap (readRelayed X) =
      (s.mailbox c).inbox.filterMap (readRelayed X) ++ relays c s e := by
  have hunread : ∀ str, readResult X str = none → readRelayed X str = none := by
    intro str hstr
    rw [readRelayed,hstr]
    rfl
  cases e with
  | zmq msg =>
    rw [relays,List.append_nil]
    refine Mailbox.run_inbox_unread (fun a ha => ?_) c _
    obtain ⟨m,-,rfl⟩ := List.mem_map.mp ha
    have hresult := (readResult_published hread m.value_wellFormed (render_noticeText hX m.value)).1
    change readRelayed X (m.text X) = none
    simp [readRelayed,Notice.text,hresult,m.fromValue_value]
  | recv d | close d =>
    rw [relays,List.append_nil]
    exact Mailbox.run_inbox_unread (by simp [actions,Mailbox.Action.message?]) c _
  | frame tx text node =>
    cases hrelayed : relayedBy text node with
    | none =>
      have hnil : relays c s (.frame tx text node) = [] := by simp [relays,hrelayed]
      rw [hnil,List.append_nil]
      exact Mailbox.run_inbox_unread (frame_unread hread hunread network n s.announced tx
        fun answer hanswer t m hop => absurd hop (answerText_relays_nothing hrelayed hanswer t m)) c _
    | some r =>
      obtain ⟨t,value⟩ := r
      obtain ⟨request,hrequest,hr⟩ := Option.bind_eq_some_iff.mp hrelayed
      obtain ⟨hkind,m,hm,hanswer⟩ := answerRequest_relays hX hr
      rw [← answerText_of_requestOf hrequest] at hanswer
      obtain ⟨str,hstr⟩ := hX.eq_some (.success (.num request.id.toNat) (.string "published"))
      have hrun : (step network n s (.frame tx text node)).mailbox c =
          ((s.mailbox c).step c (.post t m)).step c (.tell tx.chan str) := by
        simp [step,actions,hanswer,Answer.actions,hstr,Mailbox.run,success,Operation.action]
      have hreply := hunread str (reply_unread hread hanswer hstr)
      have hvalue : readRelayed X m = some value := by
        have hresult := (readResult_published hread (hkind.wellFormed hP) hm).1
        simp [readRelayed,hresult,hkind.no_notice hP hW]
      have htold : (((s.mailbox c).step c (.post t m)).gained c (.tell tx.chan str)).filterMap
          (readRelayed X) = [] := by
        rw [Mailbox.gained]
        split
        · simp [hreply]
        · rfl
      rw [hrun,Mailbox.step_inbox,Mailbox.step_inbox,List.filterMap_append,List.filterMap_append,
        htold,List.append_nil,relays,hrelayed,Mailbox.gained]
      congr 1
      split
      · simp [List.filterMap_replicate_of_some hvalue]
      · rfl

/-- What a client reads of its mailbox as published by clients. -/
theorem run_relays (hX : X.RenderTotal) (hread : X.ResponsesReadBack) (hP : X.ProposalsAreObjects)
    (hW : X.ProposalsHaveNoWhere) (events : List (Event X)) (c : ℕ) :
    ((run network n events).mailbox c).inbox.filterMap (readRelayed X) =
      History.collect (step network n) (relays c) start events :=
  run_of_step network n (fun s e => step_relays network n hX hread hP hW s e c) events

/-! ## Replies -/

/-- What an event is to client `c` as a reply: the answer to its frame. -/
def replies (c : ℕ) (s : Service) : Event X → List JsonRpc
  | .frame tx text node =>
    if tx.chan = c ∧ (s.mailbox c).isOpen then
      (((answerText text node).bind fun a => X.render a.reply).bind (readReply X)).toList
    else []
  | .zmq _ | .recv _ | .close _ => []

/-- What a frame publishes is no reply. -/
theorem operation_unread (hread : X.ResponsesReadBack) (hP : X.ProposalsAreObjects) {text : String}
    {node : Node X} {answer : Answer} (h : answerText text node = some answer) (d : ℕ) :
    ∀ a ∈ (answer.operation.map (Operation.action d)).toList, a.message?.bind (readReply X) = none := by
  intro a ha
  obtain ⟨operation,hop,rfl⟩ := Option.map_eq_some_iff.mp (Option.mem_toList.mp ha)
  cases operation with
  | subscribe t => rfl
  | publish t m =>
    cases answerText_kind h with
    | success id result hp =>
      obtain ⟨value,hrender,hrelayed⟩ := hp t m hop
      exact (readResult_published hread (hrelayed.wellFormed hP) hrender).2
    | error he => cases hop

theorem operation_isOpen (b : Mailbox Topic String) (c d : ℕ) (operation : Option Operation) :
    (b.run c (operation.map (Operation.action d)).toList).isOpen = b.isOpen := by
  rcases operation with _ | t | ⟨t,m⟩
  · rfl
  · change (b.step c (.join t d)).isOpen = b.isOpen
    rw [Mailbox.step]
    split <;> rfl
  · exact b.put_isOpen _

theorem step_replies (hX : X.RenderTotal) (hread : X.ResponsesReadBack) (hP : X.ProposalsAreObjects)
    (s : Service) (e : Event X) (c : ℕ) :
    ((step network n s e).mailbox c).inbox.filterMap (readReply X) =
      (s.mailbox c).inbox.filterMap (readReply X) ++ replies c s e := by
  cases e with
  | zmq msg =>
    rw [replies,List.append_nil]
    refine Mailbox.run_inbox_unread (fun a ha => ?_) c _
    obtain ⟨m,-,rfl⟩ := List.mem_map.mp ha
    exact (readResult_published hread m.value_wellFormed (render_noticeText hX m.value)).2
  | recv d | close d =>
    rw [replies,List.append_nil]
    exact Mailbox.run_inbox_unread (by simp [actions,Mailbox.Action.message?]) c _
  | frame tx text node =>
    cases hanswer : answerText text node with
    | none => simp [step,actions,replies,hanswer,Mailbox.run]
    | some answer =>
      obtain ⟨str,hstr⟩ := hX.eq_some answer.reply
      have hrun : (step network n s (.frame tx text node)).mailbox c =
          ((s.mailbox c).run c (answer.operation.map (Operation.action tx.chan)).toList).step c
            (.tell tx.chan str) := by
        simp [step,actions,hanswer,Answer.actions,hstr,Mailbox.run]
      have hquiet := Mailbox.run_inbox_unread (operation_unread hread hP hanswer tx.chan) c
        (s.mailbox c)
      have hopen := operation_isOpen (s.mailbox c) c tx.chan answer.operation
      rw [hrun,Mailbox.step_inbox,List.filterMap_append,hquiet,Mailbox.gained,hopen,replies]
      congr 1
      split
      · simp only [hanswer,Option.bind_some,hstr]
        cases hj : readReply X str with
        | none => simp [hj]
        | some j => simp [hj]
      · rfl

/-- What a client reads of its mailbox as replies. -/
theorem run_replies (hX : X.RenderTotal) (hread : X.ResponsesReadBack) (hP : X.ProposalsAreObjects)
    (events : List (Event X)) (c : ℕ) :
    ((run network n events).mailbox c).inbox.filterMap (readReply X) =
      History.collect (step network n) (replies c) start events :=
  run_of_step network n (fun s e => step_replies network n hX hread hP s e c) events

end Service

end NexusRelay
