import NexusRelay.Model.Proposal

/-! # Publishing a proposal is all-or-nothing, unless the node fails

The one way out of `process_publish_proposal` that is neither a publication nor an
error is the unwrap of what the node answered.
-/
namespace NexusRelay
open Shared
variable {X : Deps}

/-- Either the proposal validated and was published once, under its pair, and nothing else
happened, or an error is returned and the shared state is the one before the call. -/
def AllOrNothing (proposal : X.Unvalidated) (client : Option (Node X)) (id : UInt32)
    (w : Shared) : Prop :=
  (∃ v text, Validates proposal client v ∧ proposalText v = some text ∧
    (processPublishProposal proposal client id).run w =
      .ok (.newPublished id) (w.published (.validated (pairString X v)) text)) ∨
  ((∀ v, ¬ Validates proposal client v) ∧
    ∃ e, (processPublishProposal proposal client id).run w = .error (.err e) w)

theorem Deps.ProposalSerializes.text (hS : X.ProposalSerializes) (hX : X.RenderTotal)
    (v : X.Validated) : ∃ text, proposalText v = some text := by
  obtain ⟨val,hval⟩ := hS.eq_some v
  obtain ⟨text,htext⟩ := hX.eq_some (.success (.num (-1)) val)
  exact ⟨text,by simp [proposalText,hval,htext]⟩

/-- Nothing precedes the validation. -/
theorem run_processPublishProposal_error {proposal : X.Unvalidated} {client : Option (Node X)}
    {f : Fail (Error X)} (h : validateProposal proposal client = .error f) (id : UInt32)
    (w : Shared) : (processPublishProposal proposal client id).run w = .error f w := by
  simp [processPublishProposal,h]

/-- The lock is taken last, and a mutex that cannot be taken is a panic. -/
theorem run_processPublishProposal_unhealthy {w : Shared} (hw : ¬ w.Healthy)
    {proposal : X.Unvalidated} {client : Option (Node X)} {v : X.Validated} {text : String}
    (hv : validateProposal proposal client = .ok v) (ht : proposalText v = some text)
    (id : UInt32) : ∃ m, (processPublishProposal proposal client id).run w =
      .error .panic { w with mutex := m } := by
  obtain ⟨m,hm⟩ := run_lockUnwrap_panics (ε := Error X) hw
  obtain ⟨val,hval,hr⟩ := Option.bind_eq_some_iff.mp ht
  refine ⟨m,?_⟩
  simp [processPublishProposal,hv,topicFromProposal,NexusResponse.newProposal,hval,
    notification_toText,hr,hm]

/-- For every proposal, every behaviour of the node and every shared state, publishing is
all-or-nothing exactly when the node returns the transaction whenever it is asked for one
and, for a proposal that validates, the registry can be locked. -/
theorem publishProposal_allOrNothing_iff (hX : X.RenderTotal) (hS : X.ProposalSerializes)
    (proposal : X.Unvalidated) (client : Option (Node X)) (id : UInt32) (w : Shared) :
    AllOrNothing proposal client id w ↔
      ¬ LookupFails proposal client ∧ ((∃ v, Validates proposal client v) → w.Healthy) := by
  cases hv : validateProposal proposal client with
  | error f =>
    have hrun := run_processPublishProposal_error hv id w
    have hno : ∀ v, ¬ Validates proposal client v := by
      intro v h
      rw [validateProposal_eq_ok.mpr h] at hv
      cases hv
    have hvac : (∃ v, Validates proposal client v) → w.Healthy := fun ⟨v,h⟩ => absurd h (hno v)
    cases f with
    | err e =>
      have hnot : ¬ LookupFails proposal client := by
        intro h
        rw [validateProposal_eq_panic.mpr h] at hv
        cases hv
      exact iff_of_true (Or.inr ⟨hno,e,hrun⟩) ⟨hnot,hvac⟩
    | panic =>
      refine iff_of_false ?_ fun h => h.1 (validateProposal_eq_panic.mp hv)
      rintro (⟨v,-,h,-⟩ | ⟨-,e,he⟩)
      · exact hno v h
      · rw [hrun] at he; cases he
  | ok v =>
    have hval := validateProposal_eq_ok.mp hv
    obtain ⟨text,ht⟩ := hS.text hX v
    have hnot : ¬ LookupFails proposal client := by
      intro h
      rw [validateProposal_eq_panic.mpr h] at hv
      cases hv
    by_cases hw : w.Healthy
    · have hrun := run_processPublishProposal hw proposal client id
      rw [hv] at hrun
      simp only [ht] at hrun
      exact iff_of_true (Or.inl ⟨v,text,hval,ht,hrun⟩) ⟨hnot,fun _ => hw⟩
    · obtain ⟨m,hrun⟩ := run_processPublishProposal_unhealthy hw hv ht id
      refine iff_of_false ?_ fun h => hw (h.2 ⟨v,hval⟩)
      rintro (⟨v',text',-,-,h⟩ | ⟨h,-⟩)
      · rw [hrun] at h; cases h
      · exact h v hval

/-! ## A node that answers and one that does not -/

theorem publishProposal_sample : AllOrNothing Sample.assets (some Sample.node) 1 Shared.start := by
  refine (publishProposal_allOrNothing_iff Deps.sample_renderTotal Deps.sample_proposalSerializes
    _ _ 1 Shared.start).mpr ⟨?_,fun _ => start_healthy⟩
  rintro ⟨node,txid,e,hnode,-,he⟩
  cases hnode
  have hok : Sample.node.tx txid = .ok .payment := Sample.node_tx txid
  rw [hok] at he
  cases he

theorem publishProposal_panics :
    (processPublishProposal Sample.assets (some Sample.deadNode) 1).run Shared.start =
      .error .panic Shared.start ∧
    ¬ AllOrNothing Sample.assets (some Sample.deadNode) 1 Shared.start := by
  have h : (processPublishProposal Sample.assets (some Sample.deadNode) 1).run Shared.start =
      .error .panic Shared.start := rfl
  refine ⟨h,?_⟩
  rintro (⟨v,text,-,-,he⟩ | ⟨-,e,he⟩)
  · rw [h] at he; cases he
  · rw [h] at he; cases he

end NexusRelay
