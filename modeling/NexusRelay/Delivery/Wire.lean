import NexusRelay.Delivery.Logs
import NexusRelay.Delivery.Provenance
import NexusRelay.Model.JsonText

/-! # Telling replies, events and relayed content apart

Every text the relay puts into a channel is a response. The id -1 marks what was published;
a string is relayed content, an object is an event of the server.
-/
namespace NexusRelay
open Shared
variable {X : Deps}

/-! ## Replies -/

theorem rpcError_new_wellFormed {code : JsonRpc.ErrorCode} (h : ∀ n, code ≠ .serverError n) :
    (JsonRpc.Error.new X code).WellFormed := by
  refine ⟨?_,by rintro data ⟨⟩⟩
  cases code with
  | serverError n => exact absurd rfl (h n)
  | parseError | invalidRequest | methodNotFound | invalidParams | internalError =>
    simp [JsonRpc.Error.new,JsonRpc.ErrorCode.code,IsI64]

/-- The id of a refused request is echoed as it came. -/
theorem RequestError.toRpcError_wellFormed (e : RequestError) : (e.toRpcError X).WellFormed := by
  cases e with
  | invalidId id =>
    refine ⟨by simp [toRpcError,JsonRpc.ErrorCode.code,IsI64],?_⟩
    rintro data ⟨⟩
    cases id with
    | none => exact wellFormed_null
    | some id => exact id.toValue_wellFormed
  | invalidMethod => exact rpcError_new_wellFormed (by simp)
  | invalidParams | invalidParamsForThisMethod | arrayParamsAreInvalid
  | paramsMustContainASingleRootElement => exact rpcError_new_wellFormed (by simp)

theorem errorResponse_eq (e : Error X) : ∃ err, errorResponse e = .error (.num 0) err ∧
    err.WellFormed := by
  cases e with
  | jsonRpc e => exact ⟨_,rfl,e.toRpcError_wellFormed⟩
  | jsonRpcLite | elements | liquidex => exact ⟨_,rfl,rpcError_new_wellFormed (by simp)⟩

/-- A reply is a success with the id of a request, which is positive, or an error with the
id 0. -/
theorem Answered.reply {text : String} {client : Option (Node X)} {tx : Sender} {reply : JsonRpc}
    {changes : List Change} (h : Answered text client tx reply changes) :
    (∃ (id : UInt32) (result : String), reply = .success (.num id.toNat) (.string result)) ∨
      ∃ err, reply = .error (.num 0) err ∧ err.WellFormed := by
  cases h with
  | unparsed hp => exact Or.inr ⟨_,rfl,rpcError_new_wellFormed (by simp)⟩
  | failed hp he => exact Or.inr (errorResponse_eq _)
  | served hp hr hs hok hreply =>
    left
    cases hs with
    | subscribe | ping | proposal | any =>
      cases hreply
      exact ⟨_,_,rfl⟩

/-! ## Publications -/

/-- The value is the content of an `any` publish to this topic, character for character. -/
def Relays (events : List (Event X)) (topic : String) (value : Value) : Prop :=
  ∃ e ∈ events, ∃ node request a content, e.Requests node request ∧ request.params = .any a ∧
    a.topic = topic ∧ a.content = some content ∧ value = .string content

theorem render_noticeText (hX : X.RenderTotal) (seen : Value) :
    X.render (.success (.num (-1)) seen) = some (noticeText X seen) := by
  obtain ⟨text,ht⟩ := hX.eq_some (.success (.num (-1)) seen)
  rw [noticeText,ht]
  rfl

theorem TxSeen.toValue_wellFormed (seen : TxSeen) : seen.toValue.WellFormed := by
  have hkeys : ["tx_hex","txid","where"].Pairwise (· < ·) := by decide
  rcases seen with ⟨txid,txHex,_ | _⟩ <;>
    exact ⟨⟨hkeys,trivial,trivial,trivial,trivial⟩,
      by simp [TxSeen.toValue,Where.toValue,Value.depth,depthEntries,recursionLimit]⟩

theorem AddressSeen.toValue_wellFormed (seen : AddressSeen) : seen.toValue.WellFormed := by
  have hkeys : ["address","tx_hex","txid","where"].Pairwise (· < ·) := by decide
  rcases seen with ⟨address,txid,txHex,_ | _⟩ <;>
    exact ⟨⟨hkeys,trivial,trivial,trivial,trivial,trivial⟩,
      by simp [AddressSeen.toValue,Where.toValue,Value.depth,depthEntries,recursionLimit]⟩

/-- What is published is a success with the id -1: an object on a validated topic, relayed
content on any other. -/
theorem Published.value (hX : X.RenderTotal) (hP : X.ProposalsAreObjects) {network : Network}
    {events : List (Event X)} {t : Topic} {m : String} (h : Published network events t m) :
    ∃ value, X.render (.success (.num (-1)) value) = some m ∧ value.WellFormed ∧
      ((∃ s, t = .validated s ∧ value.IsObject) ∨
        ∃ s, t = .unvalidated s ∧ Relays events s value) := by
  cases h with
  | tx he hd =>
    exact ⟨_,render_noticeText hX _,TxSeen.toValue_wellFormed _,Or.inl ⟨_,rfl,trivial⟩⟩
  | address he hd ha =>
    exact ⟨_,render_noticeText hX _,AddressSeen.toValue_wellFormed _,Or.inl ⟨_,rfl,trivial⟩⟩
  | proposal he hr hp hv ht =>
    obtain ⟨value,hvalue,hrender⟩ := Option.bind_eq_some_iff.mp ht
    obtain ⟨hwell,hobject⟩ := hP _ value hvalue
    exact ⟨value,hrender,hwell,Or.inl ⟨_,rfl,hobject⟩⟩
  | any he hr hp hc ht =>
    exact ⟨_,ht,wellFormed_string _,Or.inr ⟨_,rfl,_,he,_,_,_,_,hr,hp,rfl,hc,rfl⟩⟩

/-! ## Everything on the wire -/

def JsonRpc.IsResponse : JsonRpc → Prop
  | .success _ _ | .error _ _ => True
  | .request _ _ _ | .notification _ _ => False

/-- What a client that parses a text of channel `c` can tell from it. -/
structure Told (events : List (Event X)) (c : ℕ) (e : Entry) (j : JsonRpc) (id : Int) : Prop where
  parsed : X.parse e.text = some j
  response : j.IsResponse
  getId : j.getId = some (.num id)
  published : id = -1 ↔ ∃ t k, e.origin = .delivery t k
  reply : e.origin = .reply → RepliesTo events c e.text
  content : ∀ t k, e.origin = .delivery t k → ∃ result, j = .success (.num (-1)) result ∧
    (result.IsString ↔ ∃ s, t = .unvalidated s) ∧
    (∀ s, t = .unvalidated s → Relays events s result) ∧
    ∀ s, t = .validated s → result.IsObject

theorem Told.of_reply (hread : X.ResponsesReadBack) {events : List (Event X)} {c : ℕ} {e : Entry}
    (ho : e.origin = .reply) (h : RepliesTo events c e.text) : ∃ j id, Told events c e j id := by
  have hnone : ¬ ∃ t k, e.origin = .delivery t k := by
    rintro ⟨t,k,hk⟩
    rw [ho] at hk
    cases hk
  have hreply : e.origin = .reply → RepliesTo events c e.text := fun _ => h
  obtain ⟨tx,frame,node,reply,changes,-,-,ha,hr⟩ := h
  rcases ha.reply with ⟨n,result,rfl⟩ | ⟨err,rfl,herr⟩
  · have hp := hread.1 _ _ e.text (isI64_of_uint32 n) (wellFormed_string result) hr
    exact ⟨_,n.toNat,hp,trivial,rfl,iff_of_false (by omega) hnone,hreply,
      fun t k hk => absurd ⟨t,k,hk⟩ hnone⟩
  · obtain ⟨err',hp⟩ := hread.2 0 err e.text (by unfold IsI64; omega) herr hr
    exact ⟨_,0,hp,trivial,rfl,iff_of_false (by omega) hnone,hreply,
      fun t k hk => absurd ⟨t,k,hk⟩ hnone⟩

theorem Told.of_delivery (hX : X.RenderTotal) (hread : X.ResponsesReadBack)
    (hP : X.ProposalsAreObjects) {network : Network} {events : List (Event X)} {e : Entry}
    {t : Topic} {k : Handle} (ho : e.origin = .delivery t k)
    (h : Published network events t e.text) (c : ℕ) : ∃ j id, Told events c e j id := by
  obtain ⟨value,hrender,hwell,hkind⟩ := h.value hX hP
  have hp := hread.1 (-1) value e.text isI64_neg_one hwell hrender
  refine ⟨_,-1,hp,trivial,rfl,iff_of_true rfl ⟨t,k,ho⟩,fun hr => ?_,fun t' k' hk => ?_⟩
  · rw [ho] at hr
    cases hr
  · rw [ho] at hk
    cases hk
    refine ⟨value,rfl,?_⟩
    rcases hkind with ⟨s,rfl,hobject⟩ | ⟨s,rfl,hrelays⟩
    · have hstring : ¬ value.IsString := by
        cases value <;> simp [Value.IsString,Value.IsObject] at hobject ⊢
      exact ⟨iff_of_false hstring (by simp),by simp,fun _ _ => hobject⟩
    · have hstring : value.IsString := by
        obtain ⟨_,-,_,_,_,content,-,-,-,-,rfl⟩ := hrelays
        trivial
      refine ⟨iff_of_true hstring ⟨s,rfl⟩,?_,by simp⟩
      rintro s' hs
      cases hs
      exact hrelays

/-- In every run, every text ever put into a channel parses as a response; its id is -1 exactly
when it was published; and what was published is the content of an `any` publish, as a string,
on an unvalidated topic, and an object otherwise. A text with another id answers a frame of the
channel's own client. -/
theorem wire_unambiguous (hX : X.RenderTotal) (hread : X.ResponsesReadBack)
    (hP : X.ProposalsAreObjects) (network : Network) (txCacheSize : ℕ) (events : List (Event X)) :
    ∀ c, ∀ e ∈ ((RelayState.run network txCacheSize events).shared.channels c).log,
      ∃ j id, Told events c e j id := by
  intro c e he
  cases ho : e.origin with
  | reply =>
    exact Told.of_reply hread ho (RelayState.run_replies hX network txCacheSize events c e he ho)
  | delivery t k =>
    obtain ⟨ops,hex⟩ := RelayState.run_explains hX network txCacheSize events
    have hpub := hex.published t e.text (hex.tracks.origins c e he t k ho).1
    exact Told.of_delivery hX hread hP ho hpub c

/-! ## Content that looks like a reply -/

/-- Client 0 subscribes to a topic, and client 1 publishes the text of a pong on it. -/
def Sample.relayRun : List (Event Deps.text) :=
  [.frame ⟨0,.clientTxClone⟩ (Sample.print (Sample.request "subscribe" "any"
      (.object [("topic",.string "t")]))) Sample.textNode,
    .frame ⟨1,.clientTxClone⟩ (Sample.print (Sample.request "publish" "any"
      (.object [("content",.string "\"pong\""),("topic",.string "t")]))) Sample.textNode]

def Sample.relayedEntry : Entry :=
  ⟨Sample.print (.success (.num (-1)) (.string "\"pong\"")),
    .delivery (.unvalidated "t") (.subscription 0)⟩

theorem Sample.relayed : Sample.relayedEntry ∈
    ((RelayState.run .elementsRegtest 1000 Sample.relayRun).shared.channels 0).log := by
  decide +kernel

theorem relayed_content_told : ∃ j id, Told Sample.relayRun 0 Sample.relayedEntry j id :=
  wire_unambiguous Deps.text_renderTotal Deps.text_responsesReadBack Deps.text_proposalsAreObjects
    .elementsRegtest 1000 Sample.relayRun 0 Sample.relayedEntry Sample.relayed

end NexusRelay
