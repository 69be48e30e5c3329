import NexusRelay.Model.Relay
import NexusRelay.Requests.Dispatch
import NexusRelay.Requests.Parsing

/-! # What the reply to a frame says

The id, the method, the params and the proposal are looked at in this order, and the first that
is refused decides the code of the error. Two stages share a code: a client cannot tell a
proposal that was rejected from a text that is no JSON-RPC.
-/
namespace NexusRelay
open Shared
variable {X : Deps}

/-- What a client learns from the handling of a frame. -/
inductive Verdict where
  | served
  | failed (code : Int)
  | panicked
  deriving DecidableEq, Repr

def JsonRpc.verdict : JsonRpc → Option Verdict
  | .success _ _ => some .served
  | .error _ e => some (.failed e.code)
  | .request _ _ _ | .notification _ _ => none

/-- The reply of the loop body, before it is printed. -/
def responseToText (text : String) (client : Option (Node X)) (clientTxClone : Sender) :
    Exec Shared (Error X) JsonRpc :=
  match X.parse text with
  | none => return .error (.num 0) (.new X .parseError)
  | some rawMessage => responseTo rawMessage client clientTxClone

/-- The rest of the loop body. -/
def sendPrinted (clientTxClone : Sender) (response : JsonRpc) : Exec Shared (Error X) Bool := do
  let responseStr ← .ofFallible (.unwrap (X.render response))
  sendReply clientTxClone responseStr

theorem handleText_eq (text : String) (client : Option (Node X)) (tx : Sender) :
    handleText text client tx = responseToText text client tx >>= sendPrinted tx := by
  unfold handleText responseToText
  cases X.parse text with
  | none => exact (pure_bind _ _).symm
  | some j => rfl

def verdictOf : EStateM.Result (Fail (Error X)) Shared JsonRpc → Option Verdict
  | .ok reply _ => reply.verdict
  | .error _ _ => some .panicked

/-! ## The stages -/

def JsonRpc.IdAccepted (j : JsonRpc) : Prop :=
  ∃ n, j.getId = some (.num n) ∧ 0 < n ∧ n < 4294967295

def JsonRpc.MethodKnown (j : JsonRpc) : Prop :=
  ∃ method ∈ ["publish","subscribe","unsubscribe"], j.getMethod = some method

def rootKeys : List String := ["any","address","tx","pair","proposal","wallet","pset","ping"]

/-- The params have no single root key that is known. -/
inductive JsonRpc.NoRoot (j : JsonRpc) : Prop
  | array {items : List Value} (h : j.getParams = some (.array items))
  | entries {entries : List (String × Value)} (h : j.getParams = some (.map entries))
      (hn : entries.length ≠ 1)
  | root {key : String} {value : Value} (h : j.getParams = some (.map [(key,value)]))
      (hk : key ∉ rootKeys)

/-- The requests the relay serves, of all it can parse. -/
inductive Offers : Method → Params X → Prop
  | subscribeAny (topic : String) : Offers .subscribe (.any ⟨topic,none⟩)
  | subscribeAddress (address : String) : Offers .subscribe (.address address)
  | subscribeTx (tx : Tx) : Offers .subscribe (.tx tx)
  | subscribePair (pair : Pair) : Offers .subscribe (.pair pair)
  | publishAny (topic content : String) : Offers .publish (.any ⟨topic,some content⟩)
  | publishProposal (proposal : X.Unvalidated) : Offers .publish (.proposal proposal)
  | ping : Offers .publish .ping

/-- The proposal needs no transaction it can name, or it does not validate on the one it needs. -/
def Rejected (proposal : X.Unvalidated) (node : Node X) : Prop :=
  (∃ e, X.neededTx proposal = .error e) ∨
    ∃ txid tx e, X.neededTx proposal = .ok txid ∧ node.tx txid = .ok tx ∧
      X.validate proposal tx = .error e

/-- What a frame and the node's answer come to, stage by stage. -/
inductive Diagnosed (text : String) (node : Node X) : Verdict → Prop
  | text (h : X.parse text = none) : Diagnosed text node (.failed JsonRpc.ErrorCode.parseError.code)
  | id {j : JsonRpc} (hj : X.parse text = some j) (h : ¬ j.IdAccepted) :
      Diagnosed text node (.failed JsonRpc.ErrorCode.invalidRequest.code)
  | method {j : JsonRpc} (hj : X.parse text = some j) (hid : j.IdAccepted)
      (h : ¬ j.MethodKnown) : Diagnosed text node (.failed JsonRpc.ErrorCode.methodNotFound.code)
  | root {j : JsonRpc} (hj : X.parse text = some j) (hid : j.IdAccepted) (hm : j.MethodKnown)
      (h : j.NoRoot) : Diagnosed text node (.failed JsonRpc.ErrorCode.invalidParams.code)
  | shape {j : JsonRpc} (hj : X.parse text = some j) (hid : j.IdAccepted) (hm : j.MethodKnown)
      (h : WrongShape X j) : Diagnosed text node .panicked
  | combination {j : JsonRpc} {method : Method} {params : Params X} (hj : X.parse text = some j)
      (hid : j.IdAccepted) (hm : parseMethod j = .ok method) (hp : parseParams j = .ok params)
      (h : ¬ Offers method params) :
      Diagnosed text node (.failed JsonRpc.ErrorCode.invalidParams.code)
  | served {j : JsonRpc} {method : Method} {params : Params X} (hj : X.parse text = some j)
      (hid : j.IdAccepted) (hm : parseMethod j = .ok method) (hp : parseParams j = .ok params)
      (h : Offers method params)
      (hv : ∀ p, params = .proposal p → ∃ v, Validates p (some node) v) :
      Diagnosed text node .served
  | rejected {j : JsonRpc} {p : X.Unvalidated} (hj : X.parse text = some j)
      (hid : j.IdAccepted) (hm : parseMethod j = .ok .publish)
      (hp : parseParams j = .ok (.proposal p)) (h : Rejected p node) :
      Diagnosed text node (.failed JsonRpc.ErrorCode.parseError.code)
  | lookup {j : JsonRpc} {p : X.Unvalidated} (hj : X.parse text = some j)
      (hid : j.IdAccepted) (hm : parseMethod j = .ok .publish)
      (hp : parseParams j = .ok (.proposal p)) (h : LookupFails p (some node)) :
      Diagnosed text node .panicked

/-! ## Each stage is one of the code -/

theorem parseId_of_accepted {j : JsonRpc} (h : j.IdAccepted) : ∃ id, parseId j = .ok id := by
  obtain ⟨n,hn,hr⟩ := h
  exact ⟨asU32 n,by rw [parseId,hn]; exact if_pos hr⟩

theorem parseId_of_not_accepted {j : JsonRpc} (h : ¬ j.IdAccepted) :
    parseId j = .error (.invalidId j.getId) := by
  unfold parseId
  split
  · next n hn =>
    have hr : ¬ (0 < n ∧ n < 4294967295) := fun hr => h ⟨n,hn,hr⟩
    rw [if_neg hr,hn]
  · rfl

theorem parseMethod_of_known {j : JsonRpc} (h : j.MethodKnown) :
    ∃ method, parseMethod j = .ok method := by
  obtain ⟨method,hmem,hm⟩ := h
  rw [parseMethod,hm]
  simp only [List.mem_cons,List.not_mem_nil,or_false] at hmem
  rcases hmem with rfl | rfl | rfl
  · exact ⟨.publish,rfl⟩
  · exact ⟨.subscribe,rfl⟩
  · exact ⟨.unsubscribe,rfl⟩

theorem parseMethod_of_not_known {j : JsonRpc} (h : ¬ j.MethodKnown) :
    parseMethod j = .error .invalidMethod := by
  unfold parseMethod
  split
  · next s hs =>
    unfold Method.fromStr
    split
    · exact absurd ⟨"publish",by simp,hs⟩ h
    · exact absurd ⟨"subscribe",by simp,hs⟩ h
    · exact absurd ⟨"unsubscribe",by simp,hs⟩ h
    · rfl
  · rfl

theorem unwrap_map_ne_err {ε α β : Type} (o : Option α) (f : α → β) (e : ε) :
    ((do return f (← Fallible.unwrap o)) : Fallible ε β) ≠ .error (.err e) := by
  cases o <;> simp

/-- Only the key decides whether a root is refused. -/
theorem parseRoot_eq_err (key : String) (value : Value) (e : RequestError) :
    (parseRoot key value : Fallible RequestError (Params X)) = .error (.err e) ↔
      key ∉ rootKeys ∧ e = .invalidParams := by
  unfold parseRoot
  split
  all_goals try exact iff_of_false (unwrap_map_ne_err _ _ e) (by simp [rootKeys])
  · exact iff_of_false (by simp) (by simp [rootKeys])
  · next hany haddress htx hpair hproposal hwallet hpset hping =>
    have hk : key ∉ rootKeys := by
      simp only [rootKeys,List.mem_cons,List.not_mem_nil,or_false,not_or]
      exact ⟨hany,haddress,htx,hpair,hproposal,hwallet,hpset,hping⟩
    simp [hk,eq_comm]

theorem parseParams_of_noRoot {j : JsonRpc} (h : j.NoRoot) :
    ∃ e, (parseParams j : Fallible RequestError (Params X)) = .error (.err e) ∧
      (e.toRpcError X).code = JsonRpc.ErrorCode.invalidParams.code := by
  cases h with
  | array h => exact ⟨.arrayParamsAreInvalid,by simp [parseParams,h],rfl⟩
  | entries h hn => exact ⟨.paramsMustContainASingleRootElement,by simp [parseParams,h,hn],rfl⟩
  | @root key value h hk =>
    have hroot := (parseRoot_eq_err (X := X) key value .invalidParams).mpr ⟨hk,rfl⟩
    exact ⟨.invalidParams,by simpa [parseParams,h] using hroot,rfl⟩

/-- Params fail to parse for want of a root, or they panic. -/
theorem parseParams_of_root {j : JsonRpc} (h : ¬ j.NoRoot) (hs : ¬ WrongShape X j) :
    ∃ params : Params X, parseParams j = .ok params := by
  cases hp : (parseParams j : Fallible RequestError (Params X)) with
  | ok params => exact ⟨params,rfl⟩
  | error f =>
    exfalso
    cases f with
    | panic => exact hs ((parseParams_eq_panic j).mp hp)
    | err e =>
      unfold parseParams at hp
      split at hp
      · cases hp
      · next items hitems => exact h (.array hitems)
      · next entries hentries =>
        rcases entries with _ | ⟨⟨key,value⟩,_ | ⟨entry,rest⟩⟩
        · exact h (.entries hentries (by simp))
        · have hroot : (parseRoot key value : Fallible RequestError (Params X)) = .error (.err e) := by
            simpa using hp
          exact h (.root hentries ((parseRoot_eq_err key value e).mp hroot).1)
        · exact h (.entries hentries (by simp))
      · cases hp

theorem Offers.accepted {method : Method} {params : Params X} (h : Offers method params) :
    params.validateForMethod method = .ok () := by
  cases h <;> rfl

theorem Offers.not_unserved {method : Method} {params : Params X} (h : Offers method params)
    (id : UInt32) : ¬ Unserved (⟨id,method,params⟩ : NexusRequest X) := by
  rintro (⟨hm,wallet,hp⟩ | ⟨hm,pset,hp⟩)
  · cases hp
    cases h
  · cases hp
    cases h

/-- A combination that is not offered is refused by the validator or by the dispatcher. -/
theorem validateForMethod_of_not_offers {method : Method} {params : Params X}
    (h : ¬ Offers method params) (hv : params.validateForMethod method = .ok ()) (id : UInt32) :
    Unserved (⟨id,method,params⟩ : NexusRequest X) := by
  cases method with
  | unsubscribe => exact absurd hv (not_accepted_unsubscribe params)
  | subscribe =>
    cases params with
    | wallet wallet => exact Or.inl ⟨rfl,wallet,rfl⟩
    | any a =>
      rcases a with ⟨topic,_ | content⟩
      · exact absurd (.subscribeAny topic) h
      · cases hv
    | address a => exact absurd (.subscribeAddress a) h
    | tx tx => exact absurd (.subscribeTx tx) h
    | pair pair => exact absurd (.subscribePair pair) h
    | empty | proposal | pset | ping => cases hv
  | publish =>
    cases params with
    | pset pset => exact Or.inr ⟨rfl,pset,rfl⟩
    | any a =>
      rcases a with ⟨topic,_ | content⟩
      · cases hv
      · exact absurd (.publishAny topic content) h
    | proposal p => exact absurd (.publishProposal p) h
    | ping => exact absurd .ping h
    | address | tx | pair | wallet | empty => cases hv

theorem dispatch_of_unserved {request : NexusRequest X} (h : Unserved request)
    (client : Option (Node X)) (tx : Sender) (w : Shared) :
    (dispatch request client tx).run w = .error (.err (.jsonRpc .invalidParams)) w := by
  rcases request with ⟨id,method,params⟩
  rcases h with ⟨hm,wallet,hp⟩ | ⟨hm,pset,hp⟩
  · cases hm
    cases hp
    rfl
  · cases hm
    cases hp
    rfl

theorem validateForMethod_code {params : Params X} {method : Method} {e : RequestError}
    (h : params.validateForMethod method = .error e) :
    (e.toRpcError X).code = JsonRpc.ErrorCode.invalidParams.code := by
  unfold Params.validateForMethod at h
  split at h
  all_goals
    first
    | cases h; rfl
    | split at h <;> cases h; rfl
    | cases h

theorem validateProposal_of_rejected {p : X.Unvalidated} {node : Node X} (h : Rejected p node) :
    ∃ e, validateProposal p (some node) = .error (.err (.liquidex e)) := by
  rcases h with ⟨e,hn⟩ | ⟨txid,tx,e,hn,ht,hv⟩
  · exact ⟨e,by simp [validateProposal,hn]⟩
  · exact ⟨e,by simp [validateProposal,hn,ht,hv,Except.toOption]⟩

/-! ## Verdicts -/

def failVerdict : Fail (Error X) → Verdict
  | .err (.jsonRpc e) => .failed (e.toRpcError X).code
  | .err _ => .failed JsonRpc.ErrorCode.parseError.code
  | .panic => .panicked

section Verdicts
variable {text : String} {j : JsonRpc} {client : Option (Node X)} {tx : Sender} {w : Shared}

theorem verdictOf_error (hw : w.Healthy) (hj : X.parse text = some j) {f : Fail (Error X)}
    (h : (processMessage j client tx).run w = .error f w) :
    verdictOf ((responseToText text client tx).run w) = some (failVerdict f) := by
  simp only [responseToText,hj]
  cases f with
  | panic => rw [run_responseTo_panic h]; rfl
  | err e =>
    rw [run_responseTo_err hw h]
    cases e <;> rfl

theorem verdictOf_refused (hw : w.Healthy) (hj : X.parse text = some j) {f : Fail RequestError}
    (h : NexusRequest.tryFrom X j = .error f) :
    verdictOf ((responseToText text client tx).run w) =
      some (failVerdict (f.map (Error.jsonRpc (X := X)))) := by
  refine verdictOf_error hw hj ?_
  rw [run_processMessage,h]

theorem verdictOf_dispatch (hw : w.Healthy) (hj : X.parse text = some j) {request : NexusRequest X}
    (hr : NexusRequest.tryFrom X j = .ok request) {f : Fail (Error X)}
    (h : (dispatch request client tx).run w = .error f w) :
    verdictOf ((responseToText text client tx).run w) = some (failVerdict f) := by
  refine verdictOf_error hw hj ?_
  rw [run_processMessage,hr]
  exact h

end Verdicts

theorem tryFrom_of_offers {j : JsonRpc} {method : Method} {params : Params X}
    (hid : j.IdAccepted) (hm : parseMethod j = .ok method) (hp : parseParams j = .ok params)
    (hv : params.validateForMethod method = .ok ()) :
    ∃ id, NexusRequest.tryFrom X j = .ok ⟨id,method,params⟩ := by
  obtain ⟨id,hid⟩ := parseId_of_accepted hid
  exact ⟨id,NexusRequest.tryFrom_eq_ok.mpr ⟨hid,hm,hp,hv⟩⟩

/-- What is diagnosed is what the code replies. -/
theorem Diagnosed.verdict (hX : X.RenderTotal) (hS : X.ProposalSerializes) {text : String}
    {node : Node X} {v : Verdict} (h : Diagnosed text node v) (tx : Sender) {w : Shared}
    (hw : w.Healthy) : verdictOf ((responseToText text (some node) tx).run w) = some v := by
  cases h with
  | text h =>
    simp only [responseToText,h]
    rfl
  | @id j hj h =>
    have hid := parseId_of_not_accepted h
    exact verdictOf_refused hw hj (f := .err (.invalidId j.getId))
      (by simp [NexusRequest.tryFrom,hid])
  | @method j hj hid h =>
    obtain ⟨id,hid⟩ := parseId_of_accepted hid
    have hm := parseMethod_of_not_known h
    exact verdictOf_refused hw hj (f := .err .invalidMethod)
      (by simp [NexusRequest.tryFrom,hid,hm])
  | @root j hj hid hm h =>
    obtain ⟨id,hid⟩ := parseId_of_accepted hid
    obtain ⟨method,hm⟩ := parseMethod_of_known hm
    obtain ⟨e,hp,hcode⟩ := parseParams_of_noRoot (X := X) h
    rw [verdictOf_refused hw hj (f := .err e) (by simp [NexusRequest.tryFrom,hid,hm,hp])]
    exact congrArg (some ∘ Verdict.failed) hcode
  | @shape j hj hid hm h =>
    have hpanic := (tryFrom_eq_panic (X := X) j).mpr
      ⟨parseId_of_accepted hid,parseMethod_of_known hm,h⟩
    exact verdictOf_refused hw hj hpanic
  | @combination j method params hj hid hm hp h =>
    cases hv : params.validateForMethod method with
    | error e =>
      obtain ⟨id,hid⟩ := parseId_of_accepted hid
      rw [verdictOf_refused hw hj (f := .err e) (by simp [NexusRequest.tryFrom,hid,hm,hp,hv])]
      exact congrArg (some ∘ Verdict.failed) (validateForMethod_code hv)
    | ok u =>
      obtain ⟨id,hr⟩ := tryFrom_of_offers hid hm hp hv
      have hu := validateForMethod_of_not_offers h hv id
      exact verdictOf_dispatch hw hj hr (dispatch_of_unserved hu (some node) tx w)
  | @served j method params hj hid hm hp h hval =>
    obtain ⟨id,hr⟩ := tryFrom_of_offers hid hm hp h.accepted
    rcases dispatch_cases hX ⟨id,method,params⟩ (some node) tx with
      ⟨response,changes,hs,hrun⟩ | ⟨f,hf,-⟩
    · obtain ⟨val,hreply⟩ := hs.toJsonRpc
      have hprocess : (processMessage j (some node) tx).run w =
          .ok response (w.applyAll changes) := by
        rw [run_processMessage,hr]
        exact hrun w hw
      simp only [responseToText,hj,run_responseTo_ok hprocess hreply]
      rfl
    · exfalso
      rcases refused_accepted hX hS hf h.accepted with ⟨hu,-⟩ | ⟨p,-,hparams,herror⟩
      · exact h.not_unserved id hu
      · obtain ⟨v,hv⟩ := hval p hparams
        rw [validateProposal_eq_ok.mpr hv] at herror
        cases herror
  | @rejected j p hj hid hm hp h =>
    obtain ⟨id,hr⟩ := tryFrom_of_offers hid hm hp rfl
    obtain ⟨e,he⟩ := validateProposal_of_rejected h
    exact verdictOf_dispatch hw hj hr (run_processPublishProposal_error he id w)
  | @lookup j p hj hid hm hp h =>
    obtain ⟨id,hr⟩ := tryFrom_of_offers hid hm hp rfl
    have hpanic := validateProposal_eq_panic.mpr h
    exact verdictOf_dispatch hw hj hr (run_processPublishProposal_error hpanic id w)

theorem proposal_cases (p : X.Unvalidated) (node : Node X) :
    (∃ v, Validates p (some node) v) ∨ Rejected p node ∨ LookupFails p (some node) := by
  cases hn : X.neededTx p with
  | error e => exact Or.inr (Or.inl (Or.inl ⟨e,hn⟩))
  | ok txid =>
    cases ht : node.tx txid with
    | error e => exact Or.inr (Or.inr ⟨node,txid,e,rfl,hn,ht⟩)
    | ok tx =>
      cases hv : X.validate p tx with
      | ok v => exact Or.inl ⟨v,txid,tx,hn,ht,hv⟩
      | error e => exact Or.inr (Or.inl (Or.inr ⟨txid,tx,e,hn,ht,hv⟩))

theorem exists_diagnosed_of_offers {text : String} (node : Node X) {j : JsonRpc} {method : Method}
    {params : Params X} (hj : X.parse text = some j) (hid : j.IdAccepted)
    (hm : parseMethod j = .ok method) (hp : parseParams j = .ok params)
    (h : Offers method params) : ∃ v, Diagnosed text node v := by
  cases h with
  | publishProposal p =>
    rcases proposal_cases p node with hv | hr | hl
    · refine ⟨_,.served hj hid hm hp (.publishProposal p) ?_⟩
      rintro p' ⟨⟩
      exact hv
    · exact ⟨_,.rejected hj hid hm hp hr⟩
    · exact ⟨_,.lookup hj hid hm hp hl⟩
  | subscribeAny topic => exact ⟨_,.served hj hid hm hp (.subscribeAny topic) fun _ h => nomatch h⟩
  | subscribeAddress a => exact ⟨_,.served hj hid hm hp (.subscribeAddress a) fun _ h => nomatch h⟩
  | subscribeTx tx => exact ⟨_,.served hj hid hm hp (.subscribeTx tx) fun _ h => nomatch h⟩
  | subscribePair pair => exact ⟨_,.served hj hid hm hp (.subscribePair pair) fun _ h => nomatch h⟩
  | publishAny topic content =>
    exact ⟨_,.served hj hid hm hp (.publishAny topic content) fun _ h => nomatch h⟩
  | ping => exact ⟨_,.served hj hid hm hp .ping fun _ h => nomatch h⟩

/-- Every frame is one of the cases. -/
theorem exists_diagnosed (text : String) (node : Node X) : ∃ v, Diagnosed text node v := by
  cases hj : X.parse text with
  | none => exact ⟨_,.text hj⟩
  | some j =>
    by_cases hid : j.IdAccepted
    · by_cases hknown : j.MethodKnown
      · by_cases hroot : j.NoRoot
        · exact ⟨_,.root hj hid hknown hroot⟩
        · by_cases hshape : WrongShape X j
          · exact ⟨_,.shape hj hid hknown hshape⟩
          · obtain ⟨method,hm⟩ := parseMethod_of_known hknown
            obtain ⟨params,hp⟩ := parseParams_of_root (X := X) hroot hshape
            by_cases hoffers : Offers method params
            · exact exists_diagnosed_of_offers node hj hid hm hp hoffers
            · exact ⟨_,.combination hj hid hm hp hoffers⟩
      · exact ⟨_,.method hj hid hknown⟩
    · exact ⟨_,.id hj hid⟩

theorem verdictOf_eq_iff (hX : X.RenderTotal) (hS : X.ProposalSerializes) {text : String}
    {node : Node X} (tx : Sender) {w : Shared} (hw : w.Healthy) (v : Verdict) :
    verdictOf ((responseToText text (some node) tx).run w) = some v ↔ Diagnosed text node v := by
  constructor
  · intro h
    obtain ⟨v',hv'⟩ := exists_diagnosed text node
    have hverdict := hv'.verdict hX hS tx hw
    rw [h] at hverdict
    cases hverdict
    exact hv'
  · intro h
    exact h.verdict hX hS tx hw

/-- In every state a run can reach, the handling of a frame computes a reply and sends it, and
the reply tells the stage that refused the frame: the stages exclude each other, one of them
applies, and it decides the code. -/
theorem replies_name_their_stage (hX : X.RenderTotal) (hS : X.ProposalSerializes)
    (network : Network) (txCacheSize : ℕ) (past : List (Event X)) (text : String) (node : Node X)
    (tx : Sender) :
    handleText text (some node) tx = responseToText text (some node) tx >>= sendPrinted tx ∧
    ∃ v, verdictOf ((responseToText text (some node) tx).run
        (RelayState.run network txCacheSize past).shared) = some v ∧
      ∀ v', Diagnosed text node v' ↔ v' = v := by
  have hw := RelayState.run_healthy network txCacheSize hX past
  obtain ⟨v,hv⟩ := exists_diagnosed text node
  have hverdict := hv.verdict hX hS tx hw
  refine ⟨handleText_eq text (some node) tx,v,hverdict,fun v' => ?_⟩
  rw [← verdictOf_eq_iff hX hS tx hw v',hverdict,Option.some.injEq]
  exact eq_comm

/-- The method that is known but never served is refused with its params. -/
theorem unsubscribe_named :
    Diagnosed (Sample.print (Sample.request "unsubscribe" "ping" .null)) Sample.node
      (.failed (-32602)) ∧
    ¬ Diagnosed (Sample.print (Sample.request "unsubscribe" "ping" .null)) Sample.node
      (.failed (-32601)) := by
  obtain ⟨-,v,hv,hstage⟩ := replies_name_their_stage Deps.sample_renderTotal
    Deps.sample_proposalSerializes .elementsRegtest 1000 []
    (Sample.print (Sample.request "unsubscribe" "ping" .null)) Sample.node ⟨0,.clientTxClone⟩
  have hcode : v = .failed (-32602) := (Option.some.inj hv).symm
  subst hcode
  refine ⟨(hstage _).mpr rfl,fun h => ?_⟩
  cases (hstage _).mp h

end NexusRelay
