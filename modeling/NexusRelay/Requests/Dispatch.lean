import NexusRelay.Model.ProcessMessage
import NexusRelay.Requests.Publishing

/-! # The validator against the dispatcher

`validate_for_method`, `topic_from_params` and the match of `process_message` are three
case analyses over the same methods and params. They agree but for two combinations.
-/
namespace NexusRelay
open Shared
variable {X : Deps}

/-! ## What the validator accepts -/

theorem accepted_subscribe {params : Params X}
    (h : params.validateForMethod .subscribe = .ok ()) :
    (∃ topic, topicFromParams params = .ok topic) ∨ ∃ wallet, params = .wallet wallet := by
  cases params with
  | any a => exact Or.inl ⟨_,rfl⟩
  | address a => exact Or.inl ⟨_,rfl⟩
  | tx tx => exact Or.inl ⟨_,rfl⟩
  | pair pair => exact Or.inl ⟨_,rfl⟩
  | wallet wallet => exact Or.inr ⟨wallet,rfl⟩
  | empty | proposal _ | pset _ | ping => cases h

theorem accepted_publish {params : Params X} (h : params.validateForMethod .publish = .ok ()) :
    params = .ping ∨ (∃ p, params = .proposal p) ∨
      (∃ a content, params = .any a ∧ a.content = some content) ∨ ∃ pset, params = .pset pset := by
  cases params with
  | ping => exact Or.inl rfl
  | proposal p => exact Or.inr (Or.inl ⟨p,rfl⟩)
  | any a =>
    cases hc : a.content with
    | none => simp [Params.validateForMethod,hc] at h
    | some content => exact Or.inr (Or.inr (Or.inl ⟨a,content,rfl,hc⟩))
  | pset pset => exact Or.inr (Or.inr (Or.inr ⟨pset,rfl⟩))
  | address _ | tx _ | pair _ | wallet _ | empty => cases h

theorem not_accepted_unsubscribe (params : Params X) :
    params.validateForMethod .unsubscribe ≠ .ok () := by
  cases params <;> simp [Params.validateForMethod]

/-! ## What the dispatcher serves -/

/-- The two combinations the validator accepts and the dispatcher does not know. -/
def Unserved (request : NexusRequest X) : Prop :=
  (request.method = .subscribe ∧ ∃ wallet, request.params = .wallet wallet) ∨
  (request.method = .publish ∧ ∃ pset, request.params = .pset pset)

/-- The message is not answered `InvalidParams`: either it is served (a subscribe is
registered under its topic, a publish is published), or it is a proposal that fails with
an error of the proposal or of the node. -/
def Serves (j : JsonRpc) (request : NexusRequest X) (client : Option (Node X)) (tx : Sender)
    (w : Shared) : Prop :=
  (∀ w', (processMessage j client tx).run w ≠ .error (.err (.jsonRpc .invalidParams)) w') ∧
  ((∃ response changes, Served request client tx.chan response changes ∧
      (processMessage j client tx).run w = .ok response (w.applyAll changes)) ∨
    ∃ p f, request.method = .publish ∧ request.params = .proposal p ∧
      ((∃ e, f = .err (.liquidex e)) ∨ (LookupFails p client ∧ f = .panic)) ∧
      (processMessage j client tx).run w = .error f w)

theorem Served.not_unserved {request : NexusRequest X} {client : Option (Node X)} {c : ℕ}
    {response : NexusResponse} {changes : List Change}
    (h : Served request client c response changes) : ¬ Unserved request := by
  rintro (⟨hm,wallet,hp⟩ | ⟨hm,pset,hp⟩)
  · cases h with
    | subscribe _ ht => rw [hp] at ht; cases ht
    | ping hm' _ | proposal hm' _ _ _ | any hm' _ _ _ => rw [hm] at hm'; cases hm'
  · cases h with
    | subscribe hm' _ => rw [hm] at hm'; cases hm'
    | ping _ hp' | proposal _ hp' _ _ | any _ hp' _ _ => rw [hp] at hp'; cases hp'

theorem refused_accepted (hX : X.RenderTotal) (hS : X.ProposalSerializes)
    {request : NexusRequest X} {client : Option (Node X)} {f : Fail (Error X)}
    (hr : Refused request client f)
    (ha : request.params.validateForMethod request.method = .ok ()) :
    (Unserved request ∧ f = .err (.jsonRpc .invalidParams)) ∨
    ∃ p, request.method = .publish ∧ request.params = .proposal p ∧
      validateProposal p client = .error f := by
  cases hr with
  | topic hm ht =>
    rw [hm] at ha
    rcases accepted_subscribe ha with ⟨topic,hok⟩ | ⟨wallet,hp⟩
    · rw [ht] at hok; cases hok
    · rw [hp] at ht
      cases ht
      exact Or.inl ⟨Or.inl ⟨hm,wallet,hp⟩,rfl⟩
  | content hm hp hc =>
    rw [hm,hp] at ha
    simp [Params.validateForMethod,hc] at ha
  | proposal hm hp hv => exact Or.inr ⟨_,hm,hp,hv⟩
  | @text p v hm hp hv ht =>
    obtain ⟨text,hsome⟩ := hS.text hX v
    rw [ht] at hsome
    cases hsome
  | other hm hp =>
    cases hmethod : request.method with
    | subscribe => exact absurd hmethod hm
    | unsubscribe =>
      rw [hmethod] at ha
      exact absurd ha (not_accepted_unsubscribe _)
    | publish =>
      rw [hmethod] at ha
      obtain ⟨h1,h2,h3⟩ := hp hmethod
      rcases accepted_publish ha with h | ⟨p,h⟩ | ⟨a,content,h,-⟩ | ⟨pset,h⟩
      · exact absurd h h1
      · exact absurd h (h2 p)
      · exact absurd h (h3 a)
      · exact Or.inl ⟨Or.inr ⟨hmethod,pset,h⟩,rfl⟩

theorem validateProposal_failure {p : X.Unvalidated} {client : Option (Node X)}
    {f : Fail (Error X)} (h : validateProposal p client = .error f) :
    (∃ e, f = .err (.liquidex e)) ∨ (LookupFails p client ∧ f = .panic) := by
  cases f with
  | panic => exact Or.inr ⟨validateProposal_eq_panic.mp h,rfl⟩
  | err e =>
    obtain ⟨e',rfl⟩ := validateProposal_err h
    exact Or.inl ⟨e',rfl⟩

/-- Of the requests the validator accepts, the dispatcher serves exactly those that are
neither a wallet subscription nor the publication of a pset. -/
theorem serves_iff (hX : X.RenderTotal) (hS : X.ProposalSerializes) {j : JsonRpc}
    {request : NexusRequest X} (hj : NexusRequest.tryFrom X j = .ok request)
    (client : Option (Node X)) (tx : Sender) {w : Shared} (hw : w.Healthy) :
    Serves j request client tx w ↔ ¬ Unserved request := by
  have hrun : (processMessage j client tx).run w = (dispatch request client tx).run w := by
    rw [run_processMessage,hj]
  rw [Serves,hrun]
  rcases dispatch_cases hX request client tx with ⟨response,changes,hs,hr⟩ | ⟨f,hf,hr⟩
  · rw [hr w hw]
    refine iff_of_true ⟨fun w' h => ?_,Or.inl ⟨response,changes,hs,rfl⟩⟩ hs.not_unserved
    cases h
  · rw [hr w hw]
    rcases refused_accepted hX hS hf (NexusRequest.tryFrom_eq_ok.mp hj).2.2.2 with
      ⟨hu,rfl⟩ | ⟨p,hm,hp,hv⟩
    · exact iff_of_false (fun h => h.1 w rfl) fun h => h hu
    · have hfail := validateProposal_failure hv
      refine iff_of_true ⟨fun w' h => ?_,Or.inr ⟨p,f,hm,hp,hfail,rfl⟩⟩ ?_
      · rcases hfail with ⟨e,rfl⟩ | ⟨-,rfl⟩
        · cases h
        · cases h
      · rintro (⟨hm',-⟩ | ⟨-,pset,hp'⟩)
        · rw [hm] at hm'; cases hm'
        · rw [hp] at hp'; cases hp'

/-! ## A subscription that is served, and two requests that are not -/

theorem serves_address :
    Serves (Sample.request "subscribe" "address" (.string Sample.address))
      ⟨1,.subscribe,.address Sample.address⟩ (some Sample.node) ⟨0,.clientTxClone⟩ Shared.start := by
  refine (serves_iff Deps.sample_renderTotal Deps.sample_proposalSerializes rfl _ _
    start_healthy).mpr ?_
  rintro (⟨-,wallet,h⟩ | ⟨h,-⟩)
  · cases h
  · cases h

theorem wallet_pset_refused :
    (∃ request, NexusRequest.tryFrom Deps.sample
        (Sample.request "subscribe" "wallet" (.object [("id",.string "w")])) = .ok request ∧
      ¬ Serves (Sample.request "subscribe" "wallet" (.object [("id",.string "w")])) request
        (some Sample.node) ⟨0,.clientTxClone⟩ Shared.start) ∧
    ∃ request, NexusRequest.tryFrom Deps.sample
        (Sample.request "publish" "pset"
          (.object [("wallet_id",.string "w"),("pset",.string "p")])) = .ok request ∧
      ¬ Serves (Sample.request "publish" "pset"
          (.object [("wallet_id",.string "w"),("pset",.string "p")])) request
        (some Sample.node) ⟨0,.clientTxClone⟩ Shared.start :=
  ⟨⟨⟨1,.subscribe,.wallet ⟨"w"⟩⟩,rfl,fun h => h.1 Shared.start rfl⟩,
    ⟨1,.publish,.pset ⟨"w","p"⟩⟩,rfl,fun h => h.1 Shared.start rfl⟩

end NexusRelay
