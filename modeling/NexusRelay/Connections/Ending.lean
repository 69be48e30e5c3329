import NexusRelay.Connections.Sockets
import NexusRelay.Connections.Teardown

/-! # How the tasks of a connection end

`handle_connection` awaits its forward task with a sender in hand, so the forward task ends by
a socket that refuses a text, or after a panic dropped the local senders and publishing pruned
those in the registry. A connection whose socket refuses nothing is never over.
-/
namespace NexusRelay
open Shared
variable {X : Deps}

/-- No sender of channel `i` is in the registry. -/
def Shared.Unregistered (w : Shared) (i : ℕ) : Prop :=
  ∀ t, ∀ sender ∈ w.registry.entryOrDefault t, sender.chan ≠ i

theorem Shared.Unregistered.apply {w : Shared} {i : ℕ} (h : w.Unregistered i) {x : Change}
    (hx : ∀ t, x ≠ .subscribe t i) : (w.apply x).Unregistered i := by
  intro t sender hs
  cases x with
  | subscribe t' c =>
    simp only [Shared.apply,subscribed,TopicRegistry.subscribe,
      TopicRegistry.entryOrDefault_insert] at hs
    split at hs
    · rcases List.mem_append.mp hs with hs | hs
      · exact h t' sender hs
      · cases List.mem_singleton.mp hs
        exact fun e => hx t' (congrArg (Change.subscribe t') e)
    · exact h t sender hs
  | publish t' m =>
    rw [Shared.apply,published_registry,TopicRegistry.entryOrDefault_insert] at hs
    split at hs
    · exact h t' sender (List.mem_filter.mp hs).1
    · exact h t sender hs
  | reply tx text =>
    have hsame := w.replied_registry tx text
    rw [Shared.apply,hsame] at hs
    exact h t sender hs
  | take c | close c => exact h t sender hs

theorem Shared.Unregistered.applyAll {w : Shared} {i : ℕ} (h : w.Unregistered i)
    {xs : List Change} (hxs : ∀ t, Change.subscribe t i ∉ xs) : (w.applyAll xs).Unregistered i := by
  induction xs generalizing w with
  | nil => exact h
  | cons x rest ih =>
    refine ih (h.apply fun t e => hxs t (e ▸ List.mem_cons_self)) fun t hmem => ?_
    exact hxs t (List.mem_cons_of_mem x hmem)

namespace Server
variable {s s' : Server X} {i : ℕ}

theorem released_iff :
    s.released i = true ↔ s.locals i = [] ∧ s.relay.shared.Unregistered i := by
  rw [released,decide_eq_true_iff]
  refine and_congr_right fun _ => ⟨fun h t sender hs => ?_,fun h t _ => h t⟩
  refine h t ?_ sender hs
  rw [Finmap.mem_keys,Finmap.mem_iff]
  cases hl : s.relay.shared.registry.topics.lookup t with
  | none => simp [TopicRegistry.entryOrDefault,hl] at hs
  | some ss => exact ⟨ss,rfl⟩

/-- The handler of the connection panicked and no sender of its channel is left. -/
def Abandoned (s : Server X) (i : ℕ) : Prop :=
  (∃ peer, s.peers[i]? = some peer ∧ peer.waiting = .panicked) ∧ s.released i = true

theorem Abandoned.kept (h : s.Abandoned i) (hp : s'.peers[i]? = s.peers[i]?) {changes : List Change}
    (hc : ∀ t, Change.subscribe t i ∉ changes)
    (hw : s'.relay.shared = s.relay.shared.applyAll changes) : s'.Abandoned i := by
  obtain ⟨hpanicked,hreleased⟩ := h
  obtain ⟨hlocals,hregistry⟩ := released_iff.mp hreleased
  refine ⟨by rw [hp]; exact hpanicked,released_iff.mpr ⟨?_,?_⟩⟩
  · rw [locals,hp]
    exact hlocals
  · rw [hw]
    exact hregistry.applyAll hc

theorem reachable_consistent (hX : X.RenderTotal) {network : Network} {txCacheSize : ℕ}
    (h : Machine.Reachable (Server.step network) (Server.start txCacheSize) s) {peer : Peer X}
    (hp : s.peers[i]? = some peer) : peer.connection.Consistent := by
  obtain ⟨t,ht,hmatch⟩ := reachable_matches hX h
  refine System.reachable_consistent ht _ ?_
  rw [hmatch.connections]
  exact List.mem_map_of_mem (List.mem_of_getElem? hp)

/-- Where no sender is left, the handler is past its end. -/
theorem released_waiting (hX : X.RenderTotal) {network : Network} {txCacheSize : ℕ}
    (h : Machine.Reachable (Server.step network) (Server.start txCacheSize) s) {peer : Peer X}
    (hp : s.peers[i]? = some peer) (hr : s.released i = true) (hf : peer.forward ≠ .ended) :
    peer.waiting = .panicked := by
  have hc := reachable_consistent hX h hp
  have hlocals := (released_iff.mp hr).1
  rw [locals,hp] at hlocals
  have hgone : peer.clientTx = false := by
    cases htx : peer.clientTx with
    | true => simp [htx] at hlocals
    | false => rfl
  unfold Connection.Consistent Peer.connection at hc
  cases hwait : peer.waiting with
  | panicked => rfl
  | frame | node asking | forwardTask => simp [hwait,Waiting.phase,hgone] at hc
  | returned => simp [hwait,Waiting.phase,hf] at hc

end Server

/-- Why the forward task of connection `i` is over, if it is, and that only a refusal lets
`handle_connection` return. -/
structure EndsBy (seen : List Visible) (s : Server X) (i : ℕ) : Prop where
  refused : SocketRefused i seen → s.forwardOf i = .ended
  ended : s.forwardOf i = .ended → SocketRefused i seen ∨ s.Abandoned i
  returned : ∀ peer, s.peers[i]? = some peer → peer.waiting = .returned → SocketRefused i seen

/-! ## The steps that end a task -/

theorem SocketRefused.append {i : ℕ} {seen more : List Visible} (h : SocketRefused i seen) :
    SocketRefused i (seen ++ more) := by
  obtain ⟨text,hmem⟩ := h
  exact ⟨text,List.mem_append_left more hmem⟩

theorem SocketRefused.of_append {i : ℕ} {seen more : List Visible}
    (hv : ∀ text, .socket i text false ∉ more) (h : SocketRefused i (seen ++ more)) :
    SocketRefused i seen := by
  obtain ⟨text,hmem⟩ := h
  rcases List.mem_append.mp hmem with hmem | hmem
  · exact ⟨text,hmem⟩
  · exact absurd hmem (hv text)

namespace EndsBy
variable {seen more : List Visible} {s s' : Server X} {i : ℕ}

/-- A step that is none of peer `i` and subscribes channel `i` to nothing. -/
theorem quiet (h : EndsBy seen s i) (hv : ∀ text, .socket i text false ∉ more)
    {changes : List Change} (hc : ∀ t, Change.subscribe t i ∉ changes)
    (hw : s'.relay.shared = s.relay.shared.applyAll changes)
    (hp : s'.peers[i]? = s.peers[i]? ∨ (s.peers[i]? = none ∧ s'.peers[i]? = some {})) :
    EndsBy (seen ++ more) s' i := by
  have hf : s'.forwardOf i = s.forwardOf i := by
    rcases hp with hsame | ⟨hnone,hnew⟩
    · rw [Server.forwardOf,Server.forwardOf,hsame]
    · rw [Server.forwardOf,Server.forwardOf,hnone,hnew]
      rfl
  refine ⟨fun hrefused => ?_,fun he => ?_,fun peer hpeer hreturned => ?_⟩
  · rw [hf]
    exact h.refused (hrefused.of_append hv)
  · rw [hf] at he
    rcases h.ended he with hrefused | hgone
    · exact Or.inl hrefused.append
    · obtain ⟨peer,hpeer,-⟩ := hgone.1
      rcases hp with hsame | ⟨hnone,-⟩
      · exact Or.inr (hgone.kept hsame hc hw)
      · cases hnone.symm.trans hpeer
  · rcases hp with hsame | ⟨-,hnew⟩
    · exact (h.returned peer (hsame.symm.trans hpeer) hreturned).append
    · cases hnew.symm.trans hpeer
      cases hreturned

/-- A step of peer `i` itself. -/
theorem own (h : EndsBy seen s i) {peer : Peer X} (hp : s.peers[i]? = some peer)
    {ready : PeerReady X} {out : Peer X × Shared}
    (hf : peer.Forwards i s.relay.shared (s.released i) ready out)
    (hgone : s.released i = true → peer.forward ≠ .ended → peer.waiting = .panicked) :
    EndsBy (seen ++ ready.visible i peer.forward) (s.moved i out) i := by
  have hnow := Server.forwardOf_eq hp
  have hself := Server.moved_self hp out
  have hnext : (s.moved i out).forwardOf i = out.1.forward := Server.forwardOf_eq hself
  have hnever : peer.forward ≠ .ended → ¬ SocketRefused i seen :=
    fun hne hr => hne (hnow.symm.trans (h.refused hr))
  have hwaits : ∀ {forward : Forward}, out.1 = { peer with forward := forward } →
      ∀ peer', (s.moved i out).peers[i]? = some peer' → peer'.waiting = .returned →
        SocketRefused i (seen ++ ready.visible i peer.forward) := by
    intro forward hout peer' hp' hreturned
    cases hself.symm.trans hp'
    rw [hout] at hreturned
    exact (h.returned peer hp hreturned).append
  cases hf with
  | other hwait hforward hc hs hw hv hr =>
    have hended : peer.forward = .ended → SocketRefused i seen := by
      intro he
      rcases h.ended (hnow.trans he) with hrefused | hgone
      · exact hrefused
      · obtain ⟨peer',hp',hpanicked⟩ := hgone.1
        cases hp.symm.trans hp'
        exact absurd hpanicked hwait
    refine ⟨fun hrefused => ?_,fun he => ?_,fun peer' hp' hreturned => ?_⟩
    · rw [hnext,hforward,← hnow]
      exact h.refused (hrefused.of_append fun text => hv text false)
    · rw [hnext,hforward] at he
      exact Or.inl (hended he).append
    · cases hself.symm.trans hp'
      exact (hended (hr hreturned).2).append
  | received hforward hm =>
    refine ⟨fun hrefused => ?_,fun he => ?_,hwaits rfl⟩
    · exact absurd (hrefused.of_append (by simp [PeerReady.visible])) (hnever (by simp [hforward]))
    · rw [hnext] at he
      cases he
  | drained hforward he hr =>
    have hne : peer.forward ≠ .ended := by simp [hforward]
    refine ⟨fun _ => hnext,fun _ => Or.inr ⟨⟨_,hself,hgone hr hne⟩,?_⟩,hwaits rfl⟩
    obtain ⟨hlocals,hregistry⟩ := Server.released_iff.mp hr
    refine Server.released_iff.mpr ⟨?_,fun t sender hs => hregistry t sender hs⟩
    rw [Server.locals,hself]
    rw [Server.locals,hp] at hlocals
    exact hlocals
  | sent hforward =>
    refine ⟨fun hrefused => ?_,fun he => ?_,hwaits rfl⟩
    · exact absurd (hrefused.of_append (by simp [PeerReady.visible])) (hnever (by simp [hforward]))
    · rw [hnext] at he
      cases he
  | @refused text hforward =>
    have hnow' : SocketRefused i (seen ++ (PeerReady.sent false : PeerReady X).visible i
        peer.forward) := by
      refine ⟨text,List.mem_append_right seen ?_⟩
      simp [PeerReady.visible,hforward,Forward.sending?]
    exact ⟨fun _ => hnext,fun _ => Or.inl hnow',fun _ _ _ => hnow'⟩

end EndsBy

/-- In every run of the server the forward task of a connection ends when its socket refuses a
text, and otherwise only after the handler panicked and no sender of the channel was left. The
handler returns only after such a refusal. -/
theorem forward_task_ends (hX : X.RenderTotal) (network : Network) (txCacheSize : ℕ)
    (readies : List (Ready X)) (s : Server X)
    (h : Machine.run (Server.step network) (Server.start txCacheSize) readies = some s) (i : ℕ) :
    EndsBy (Machine.outputs (Server.step network) Server.visible (Server.start txCacheSize) readies)
      s i := by
  refine Machine.outputs_invariant (P := fun seen s => EndsBy seen s i) ?_ ?_ h
  · refine ⟨?_,?_,?_⟩
    · rintro ⟨text,hmem⟩
      cases hmem
    · intro he
      cases he
    · intro peer hp
      cases hp
  · intro seen s ready s' hr ih hs
    have hw := Server.reachable_healthy hX hr
    rcases Server.step_cases hX hw hs with
      ⟨changes,-,hc,hshared,hpeers,hv⟩ | ⟨j,peer,ready',out,rfl,hp,hf,rfl⟩
    · refine ih.quiet (fun text => hv i text false) (fun t => hc t i) hshared ?_
      rcases hpeers with heq | heq
      · exact Or.inl (by rw [heq])
      · exact Server.peer_of_upgraded heq i
    · by_cases hj : j = i
      · subst hj
        rw [Server.visible,Server.forwardOf_eq hp]
        exact ih.own hp hf fun hreleased hne => Server.released_waiting hX hr hp hreleased hne
      · have hother : i ≠ j := fun e => hj e.symm
        obtain ⟨changes,hc,hshared⟩ := hf.changes
        exact ih.quiet (fun text => ready'.visible_other hj _ text false)
          (fun t hmem => hother (hc t i hmem)) hshared (Or.inl (Server.moved_other hother out))

/-- The socket refuses the acknowledgement of a subscription, and the client leaves. -/
def Sample.refusal : List (Ready Deps.sample) :=
  [.accepted,.upgraded,
    .peer 0 (.text (Sample.print (Sample.request "subscribe" "address" (.string Sample.address)))),
    .peer 0 .received,.peer 0 (.sent false),.peer 0 .ended,.peer 0 .joined]

theorem refusal_ends : ∃ s : Server Deps.sample,
    Machine.run (Server.step .elementsRegtest) (Server.start 1000) Sample.refusal = some s ∧
      EndsBy (Machine.outputs (Server.step .elementsRegtest) Server.visible (Server.start 1000)
        Sample.refusal) s 0 := by
  have hrun : (Machine.run (Server.step .elementsRegtest) (Server.start 1000)
      Sample.refusal).isSome = true := by decide +kernel
  obtain ⟨s,hs⟩ := Option.isSome_iff_exists.mp hrun
  exact ⟨s,hs,forward_task_ends Deps.sample_renderTotal .elementsRegtest 1000 Sample.refusal s hs 0⟩

end NexusRelay
