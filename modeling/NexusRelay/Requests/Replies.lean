import NexusRelay.Model.Relay
import NexusRelay.Requests.Dispatch

/-! # Which replies carry the id of their request

A success is answered with the id of the request, an error with the constant id 0. The
constructor that keeps the id of an error, `NexusResponse::error`, is never used.
-/
namespace NexusRelay
open Shared
variable {X : Deps}

def repliesIn (ch : Channel) : List String :=
  (ch.log.filter fun e => decide (e.origin = .reply)).map Entry.text

theorem repliesIn_deliver (chs : Channels) (t : Topic) (m : String) (ss : List Sender) (c : ℕ) :
    repliesIn (chs.deliver t m ss c) = repliesIn (chs c) := by
  have hnil : (deliveries t m ss c).filter (fun e => decide (e.origin = .reply)) = [] := by
    rw [List.filter_eq_nil_iff]
    intro e he
    obtain ⟨s,-,-,rfl⟩ := mem_deliveries.mp he
    simp
  simp only [repliesIn,Channels.deliver_log,List.filter_append,hnil,List.append_nil]

/-- A request sends no reply itself, and closes no receiver. -/
theorem Served.channels {request : NexusRequest X} {client : Option (Node X)} {c : ℕ}
    {response : NexusResponse} {changes : List Change}
    (h : Served request client c response changes) (w : Shared) (d : ℕ) :
    repliesIn ((w.applyAll changes).channels d) = repliesIn (w.channels d) ∧
      ((w.applyAll changes).channels d).rxOpen = (w.channels d).rxOpen := by
  cases h with
  | subscribe _ _ => exact ⟨rfl,rfl⟩
  | ping _ _ => exact ⟨rfl,rfl⟩
  | proposal _ _ _ _ | any _ _ _ _ =>
    simp only [applyAll_cons,applyAll_nil,apply,published_channels]
    exact ⟨repliesIn_deliver _ _ _ _ d,rfl⟩

theorem repliesIn_replied {w : Shared} {tx : Sender} (h : (w.channels tx.chan).rxOpen = true)
    (text : String) :
    repliesIn ((w.replied tx text).channels tx.chan) = repliesIn (w.channels tx.chan) ++ [text] := by
  simp [replied,h,repliesIn,Channel.put]

/-! ## Ids -/

/-- An accepted id is the number itself, and positive. -/
theorem parseId_toNat {j : JsonRpc} {n : UInt32} (h : parseId j = .ok n) :
    j.getId = some (.num n.toNat) ∧ 0 < n.toNat := by
  unfold parseId at h
  split at h
  · next m hm =>
    split at h
    · next hr =>
      cases h
      have hcast : ((asU32 m).toNat : Int) = m := toNat_asU32 (by omega)
      exact ⟨by rw [hm,hcast],by omega⟩
    · cases h
  · cases h

theorem errorResponse_getId (e : Error X) : (errorResponse e).getId = some (.num 0) := by
  cases e <;> rfl

/-- The request is one that a success answers: it parses, and it is a subscribe with a topic,
a ping, an `any` publish or a proposal that validates. -/
def Servable (j : JsonRpc) (client : Option (Node X)) : Prop :=
  ∃ request, NexusRequest.tryFrom X j = .ok request ∧
    ((request.method = .subscribe ∧ ∃ topic, topicFromParams request.params = .ok topic) ∨
    (request.method = .publish ∧ (request.params = .ping ∨ (∃ a, request.params = .any a) ∨
      ∃ p v, request.params = .proposal p ∧ Validates p client v)))

/-- One reply was enqueued, the one the loop computed, and it carries the id. -/
def RepliesWithId (j : JsonRpc) (client : Option (Node X)) (tx : Sender) (w w' : Shared)
    (n : UInt32) : Prop :=
  ∃ reply w₁ str, (responseTo j client tx).run w = .ok reply w₁ ∧ X.render reply = some str ∧
    repliesIn (w'.channels tx.chan) = repliesIn (w.channels tx.chan) ++ [str] ∧
    reply.getId = some (.num n.toNat)

theorem Served.servable {j : JsonRpc} {request : NexusRequest X} {client : Option (Node X)}
    {c : ℕ} {response : NexusResponse} {changes : List Change}
    (hr : NexusRequest.tryFrom X j = .ok request)
    (h : Served request client c response changes) : Servable j client := by
  refine ⟨request,hr,?_⟩
  cases h with
  | subscribe hm ht => exact Or.inl ⟨hm,_,ht⟩
  | ping hm hp => exact Or.inr ⟨hm,Or.inl hp⟩
  | any hm hp _ _ => exact Or.inr ⟨hm,Or.inr (Or.inl ⟨_,hp⟩)⟩
  | proposal hm hp hv _ => exact Or.inr ⟨hm,Or.inr (Or.inr ⟨_,_,hp,hv⟩)⟩

theorem Refused.not_servable (hX : X.RenderTotal) (hS : X.ProposalSerializes) {j : JsonRpc}
    {request : NexusRequest X} {client : Option (Node X)} {f : Fail (Error X)}
    (hr : NexusRequest.tryFrom X j = .ok request) (h : Refused request client f) :
    ¬ Servable j client := by
  rintro ⟨request',hr',hs⟩
  rw [hr] at hr'
  cases hr'
  rcases refused_accepted hX hS h (NexusRequest.tryFrom_eq_ok.mp hr).2.2.2 with
    ⟨hu,-⟩ | ⟨p,hm,hp,hv⟩
  · rcases hu with ⟨hm,wallet,hp⟩ | ⟨hm,pset,hp⟩
    · rw [hm,hp] at hs
      simp [topicFromParams] at hs
    · rw [hm,hp] at hs
      simp at hs
  · rw [hm,hp] at hs
    rcases hs with ⟨hs,-⟩ | ⟨-,hs | ⟨a,hs⟩ | ⟨p',v,hs,hval⟩⟩
    · cases hs
    · cases hs
    · cases hs
    · cases hs
      rw [validateProposal_eq_ok.mpr hval] at hv
      cases hv

theorem not_servable_of_error (hX : X.RenderTotal) (hS : X.ProposalSerializes) {j : JsonRpc}
    {client : Option (Node X)} {tx : Sender} {w : Shared} (hw : w.Healthy) {f : Fail (Error X)}
    (h : (processMessage j client tx).run w = .error f w) : ¬ Servable j client := by
  rw [run_processMessage] at h
  cases hr : NexusRequest.tryFrom X j with
  | error f' =>
    rintro ⟨request,hok,-⟩
    rw [hr] at hok
    cases hok
  | ok request =>
    simp only [hr] at h
    rcases dispatch_cases hX request client tx with ⟨response,changes,hs,hd⟩ | ⟨f',hf,-⟩
    · rw [hd w hw] at h; cases h
    · exact hf.not_servable hX hS hr

/-- For every frame with an accepted id, every client, channel and registry, and every
handling that returns: the one reply enqueued carries the id of the request exactly when the
request is one that a success answers. -/
theorem repliesWithId_iff (hX : X.RenderTotal) (hS : X.ProposalSerializes) {text : String}
    {j : JsonRpc} (hj : X.parse text = some j) {n : UInt32} (hid : parseId j = .ok n)
    (client : Option (Node X)) (tx : Sender) {w w' : Shared} (hw : w.Healthy)
    (hopen : (w.channels tx.chan).rxOpen = true) {goesOn : Bool}
    (hrun : (handleText text client tx).run w = .ok goesOn w') :
    RepliesWithId j client tx w w' n ↔ Servable j client := by
  rcases processMessage_cases hX j client tx with
    ⟨request,response,changes,hr,hs,hproc⟩ | ⟨f,hproc⟩
  · refine iff_of_true ?_ (hs.servable hr)
    obtain ⟨val,hval⟩ := hs.toJsonRpc
    obtain ⟨str,hstr⟩ := hX.eq_some (.success (.num request.id.toNat) val)
    obtain ⟨hlog,hrx⟩ := hs.channels w tx.chan
    have hresp := run_responseTo_ok (hproc w hw) hval
    have hw' : w' = (w.applyAll changes).replied tx str := by
      simp [handleText,hj,hresp,hstr,run_sendReply] at hrun
      exact hrun.2.symm
    refine ⟨_,_,str,hresp,hstr,?_,?_⟩
    · rw [hw',repliesIn_replied (hrx.trans hopen),hlog]
    · rw [(NexusRequest.tryFrom_eq_ok.mp hr).1] at hid
      cases hid
      rfl
  · cases f with
    | err e =>
      refine iff_of_false ?_ (not_servable_of_error hX hS hw (hproc w hw))
      rintro ⟨reply,w₁,str,hreply,-,-,hget⟩
      rw [run_responseTo_err hw (hproc w hw)] at hreply
      cases hreply
      have hpos := (parseId_toNat hid).2
      rw [errorResponse_getId,Option.some.injEq,JsonRpc.Id.num.injEq] at hget
      omega
    | panic => simp [handleText,hj,run_responseTo_panic (hproc w hw)] at hrun

/-! ## A pong, and an error without its id -/

def Sample.ping : JsonRpc := Sample.request "publish" "ping" .null

def Sample.badMethod : JsonRpc := Sample.request "unsubscribe" "ping" .null

def Sample.answered (text : String) : Shared := Shared.start.replied ⟨0,.clientTxClone⟩ text

theorem ping_answered :
    RepliesWithId Sample.ping (some Sample.node) ⟨0,.clientTxClone⟩ Shared.start
      (Sample.answered (Sample.print (.success (.num 1) (.string "pong")))) 1 := by
  have hparse : Deps.sample.parse (Sample.print Sample.ping) = some Sample.ping := by rfl
  have hrun : (handleText (Sample.print Sample.ping) (some Sample.node) ⟨0,.clientTxClone⟩).run
      Shared.start =
      .ok true (Sample.answered (Sample.print (.success (.num 1) (.string "pong")))) := by
    simp only [handleText,hparse]
    rfl
  exact (repliesWithId_iff Deps.sample_renderTotal Deps.sample_proposalSerializes hparse rfl _ _
    start_healthy rfl hrun).mpr ⟨⟨1,.publish,.ping⟩,rfl,Or.inr ⟨rfl,Or.inl rfl⟩⟩

/-- The id is accepted, the method is known, the params are not for it: the handling returns,
and what it enqueues carries the id 0. -/
theorem badMethod_answered_zero :
    parseId Sample.badMethod = .ok 1 ∧
    (∃ w', (handleText (Sample.print Sample.badMethod) (some Sample.node)
      ⟨0,.clientTxClone⟩).run Shared.start = .ok true w') ∧
    ∀ w', ¬ RepliesWithId Sample.badMethod (some Sample.node) ⟨0,.clientTxClone⟩ Shared.start
      w' 1 := by
  have hparse : Deps.sample.parse (Sample.print Sample.badMethod) = some Sample.badMethod := by rfl
  have hresp : (responseTo Sample.badMethod (some Sample.node) ⟨0,.clientTxClone⟩).run
      Shared.start =
      .ok (.error (.num 0) (.new Deps.sample .invalidParams)) Shared.start := rfl
  refine ⟨rfl,⟨Sample.answered (Sample.print (.error (.num 0) (.new Deps.sample .invalidParams))),?_⟩,?_⟩
  · simp only [handleText,hparse]
    rfl
  · rintro w' ⟨reply,w₁,str,hreply,-,-,hget⟩
    rw [hresp] at hreply
    cases hreply
    cases hget

end NexusRelay
