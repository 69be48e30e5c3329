import NexusRelay.Connections.Awaits

/-! # What a socket gets

Texts reach a client's socket in the order of its channel, each once, and none is lost but one
the socket refuses, which ends the forward task. A forward task ends in no other way while
`handle_connection` has not panicked.
-/
namespace NexusRelay
open Shared
variable {X : Deps}

def Visible.offered? (i : ℕ) (taken : Bool) : Visible → Option String
  | .socket j text ok => if j = i ∧ ok = taken then some text else none
  | _ => none

/-- The texts socket `i` took, or those it refused. -/
def socketTexts (i : ℕ) (taken : Bool) (seen : List Visible) : List String :=
  seen.filterMap (Visible.offered? i taken)

/-- Socket `i` refused a text. -/
def SocketRefused (i : ℕ) (seen : List Visible) : Prop := ∃ text, .socket i text false ∈ seen

/-! ## Steps of a forward task -/

/-- What a step does to the forward task of its peer: nothing, or one of its own steps. -/
inductive Peer.Forwards (i : ℕ) (peer : Peer X) (w : Shared) (released : Bool) :
    PeerReady X → Peer X × Shared → Prop
  | other {ready : PeerReady X} {out : Peer X × Shared} {changes : List Change}
      (hwait : peer.waiting ≠ .panicked) (hf : out.1.forward = peer.forward)
      (hc : ForwardsNothing changes) (hs : ∀ t c, Change.subscribe t c ∈ changes → c = i)
      (hw : out.2 = w.applyAll changes)
      (hv : ∀ text ok, .socket i text ok ∉ ready.visible i peer.forward)
      (hr : out.1.waiting = .returned → peer.waiting = .forwardTask ∧ peer.forward = .ended) :
      Forwards i peer w released ready out
  | received {msg : Entry} (hf : peer.forward = .receiving)
      (hm : (w.channels i).log[(w.channels i).received]? = some msg) :
      Forwards i peer w released .received
        ({ peer with forward := .sending msg.text },w.apply (.take i))
  | drained (hf : peer.forward = .receiving)
      (he : (w.channels i).received = (w.channels i).log.length) (hr : released = true) :
      Forwards i peer w released .drained ({ peer with forward := .ended },w.apply (.close i))
  | sent {text : String} (hf : peer.forward = .sending text) :
      Forwards i peer w released (.sent true) ({ peer with forward := .receiving },w)
  | refused {text : String} (hf : peer.forward = .sending text) :
      Forwards i peer w released (.sent false) ({ peer with forward := .ended },w.apply (.close i))

/-- A frame is handled, at once or after the await. -/
theorem Peer.Forwards.handled (hX : X.RenderTotal) {i : ℕ} {peer : Peer X} {w : Shared}
    (hw : w.Healthy) {released : Bool} {ready : PeerReady X} {out : Peer X × Shared}
    (hwait : peer.waiting ≠ .panicked)
    (hv : ∀ text ok, .socket i text ok ∉ ready.visible i peer.forward) {text : String}
    {node : Node X} (hout : out = peer.resumed
      ((handleText text (some node) ⟨i,.clientTxClone⟩).run w)) :
    peer.Forwards i w released ready out := by
  rcases run_handleText_behind hX (fun _ => false) hw text (some node) ⟨i,.clientTxClone⟩ with
    ⟨goesOn,changes,hc,hs,hrun,-⟩ | ⟨hrun,-⟩
  · rw [hrun] at hout
    subst hout
    refine .other hwait ?_ hc hs ?_ hv ?_
    · cases goesOn <;> rfl
    · cases goesOn <;> rfl
    · cases goesOn <;> exact fun h => nomatch h
  · rw [hrun] at hout
    subst hout
    exact .other hwait rfl .nil (fun _ _ h => nomatch h)
      (hw.unwind (Fail.panic : Fail (Error X))) hv fun h => nomatch h

theorem Peer.Steps.forwards (hX : X.RenderTotal) {i : ℕ} {peer : Peer X} {w : Shared}
    (hw : w.Healthy) {released : Bool} {ready : PeerReady X} {out : Peer X × Shared}
    (h : peer.Steps i w released ready out) : peer.Forwards i w released ready out := by
  have hquiet : ∀ out : Peer X × Shared, out.2 = w → out.1.forward = peer.forward →
      peer.waiting ≠ .panicked →
      (∀ text ok, .socket i text ok ∉ ready.visible i peer.forward) →
      (out.1.waiting = .returned → peer.waiting = .forwardTask ∧ peer.forward = .ended) →
      peer.Forwards i w released ready out :=
    fun _ hw' hf hwait hv hr => .other hwait hf .nil (fun _ _ h => nomatch h) hw' hv hr
  cases h with
  | asks hwait hq =>
    exact hquiet _ rfl rfl (by simp [hwait]) (by simp [PeerReady.visible]) fun h => nomatch h
  | handles hwait hq hout =>
    exact .handled hX hw (by simp [hwait]) (by simp [PeerReady.visible])
      (hout ⟨"",fun _ => .ok (.ok [])⟩)
  | answered hwait hout =>
    exact .handled hX hw (by simp [hwait]) (by simp [PeerReady.visible])
      (hout ⟨"",fun _ => _⟩ rfl)
  | otherFrame hwait =>
    refine hquiet _ rfl rfl (by simp [hwait]) (by simp [PeerReady.visible]) fun h => ?_
    rw [hwait] at h
    cases h
  | ended hwait =>
    exact hquiet _ rfl rfl (by simp [hwait]) (by simp [PeerReady.visible]) fun h => nomatch h
  | joined hwait hf =>
    exact hquiet _ rfl rfl (by simp [hwait]) (by simp [PeerReady.visible]) fun _ => ⟨hwait,hf⟩
  | received hf hm => exact .received hf hm
  | drained hf he hr => exact .drained hf he hr
  | sent hf => exact .sent hf
  | refused hf => exact .refused hf

theorem Peer.Forwards.changes {i : ℕ} {peer : Peer X} {w : Shared} {released : Bool}
    {ready : PeerReady X} {out : Peer X × Shared} (h : peer.Forwards i w released ready out) :
    ∃ changes, (∀ t c, Change.subscribe t c ∈ changes → c = i) ∧ out.2 = w.applyAll changes := by
  cases h with
  | other hwait hf hc hs hw hv hr => exact ⟨_,hs,hw⟩
  | received hf hm => exact ⟨[.take i],by simp,rfl⟩
  | drained hf he hr => exact ⟨[.close i],by simp,rfl⟩
  | sent hf => exact ⟨[],by simp,rfl⟩
  | refused hf => exact ⟨[.close i],by simp,rfl⟩

/-- A step of the server is one of a connection, or it leaves the connections there are and
their sockets alone. -/
theorem Server.step_cases (hX : X.RenderTotal) {network : Network} {s s' : Server X}
    (hw : s.relay.shared.Healthy) {ready : Ready X} (h : s.step network ready = some s') :
    (∃ changes, ForwardsNothing changes ∧ (∀ t c, Change.subscribe t c ∉ changes) ∧
      s'.relay.shared = s.relay.shared.applyAll changes ∧
      (s'.peers = s.peers ∨ s'.peers = s.peers ++ [({} : Peer X)]) ∧
      ∀ i text ok, .socket i text ok ∉ s.visible ready) ∨
    ∃ i peer ready' out, ready = .peer i ready' ∧ s.peers[i]? = some peer ∧
      peer.Forwards i s.relay.shared (s.released i) ready' out ∧ s' = s.moved i out := by
  cases (step_steps h).2 with
  | accepted | acceptFailed | upgradeFailed | zmqError | zmqEnded =>
    exact Or.inl ⟨[],.nil,fun _ _ => List.not_mem_nil,rfl,Or.inl rfl,fun _ _ _ => List.not_mem_nil⟩
  | upgraded hn =>
    exact Or.inl ⟨[],.nil,fun _ _ => List.not_mem_nil,rfl,Or.inr rfl,by simp [Server.visible]⟩
  | @peer i peer peer' w ready' hp hs =>
    exact Or.inr ⟨i,peer,ready',(peer',w),rfl,hp,hs.forwards hX hw,rfl⟩
  | zmq hl msg =>
    obtain ⟨result,changes,seen',ho,hrun⟩ :=
      processZmqMessage_cases hX msg network s.relay.txsSeen
    refine Or.inl ⟨changes,ho.forwardsNothing,ho.subscribes_nobody,?_,Or.inl ?_,
      by simp [Server.visible]⟩
    all_goals
      simp only [Server.listen,hrun _ hw]
      rcases result with f | u
      · cases f
        all_goals
          simp only [Exec.run_ofFallible_error,(hw.applyAll changes).unwind]
      · rfl

/-! ## The stream of a socket -/

/-- What was taken from the channel went to the socket in its order, but for the text that is
being sent. The socket refuses one text at most, which ends the forward task, and the receiver
lives as long as the task. -/
structure Streamed (took refused : List String) (ch : Channel) (forward : Forward) : Prop where
  received : ch.received ≤ ch.log.length
  rxOpen : ch.rxOpen = true ↔ forward ≠ .ended
  texts : took ++ refused ++ forward.sending?.toList = (ch.log.take ch.received).map Entry.text
  once : refused.length ≤ 1
  none_refused : forward ≠ .ended → refused = []

namespace Streamed
variable {took refused : List String} {forward : Forward} {w : Shared} {c : ℕ}

theorem applyAll (h : Streamed took refused (w.channels c) forward) {changes : List Change}
    (ht : Change.take c ∉ changes) (hc : Change.close c ∉ changes) :
    Streamed took refused ((w.applyAll changes).channels c) forward := by
  obtain ⟨more,hmore⟩ := (extends_applyAll w changes c).1
  have hsame := applyAll_received w ht
  have hopen := applyAll_rxOpen w hc
  refine ⟨?_,by rw [hopen]; exact h.rxOpen,?_,h.once,h.none_refused⟩
  · rw [hsame,hmore,List.length_append]
    exact h.received.trans (Nat.le_add_right _ _)
  · rw [hsame,hmore,List.take_append_of_le_length h.received]
    exact h.texts

theorem take (h : Streamed took refused (w.channels c) .receiving) {msg : Entry}
    (hm : (w.channels c).log[(w.channels c).received]? = some msg) :
    Streamed took refused ((w.apply (.take c)).channels c) (.sending msg.text) := by
  obtain ⟨hlen,hget⟩ := List.getElem?_eq_some_iff.mp hm
  have hch : (w.apply (.take c)).channels c =
      { w.channels c with received := (w.channels c).received + 1 } := by
    simp [apply,Channels.take,Channel.take,hlen]
  have htexts : took ++ refused ++ [] = ((w.channels c).log.take (w.channels c).received).map
    Entry.text := h.texts
  have hnone := h.none_refused (by simp)
  have hopen := h.rxOpen
  rw [hch]
  refine ⟨hlen,by simpa using hopen,?_,h.once,fun _ => hnone⟩
  rw [List.append_nil] at htexts
  simp only [htexts,List.take_add_one,hm,List.map_append]
  rfl

theorem sent {text : String} (h : Streamed took refused (w.channels c) (.sending text)) :
    Streamed (took ++ [text]) refused (w.channels c) .receiving := by
  have hnone := h.none_refused (by simp)
  have htexts := h.texts
  have hopen := h.rxOpen
  refine ⟨h.received,by simpa using hopen,?_,h.once,fun _ => hnone⟩
  subst hnone
  simpa [Forward.sending?] using htexts

theorem close (h : Streamed took refused (w.channels c) forward) (hf : forward ≠ .ended) :
    Streamed took (refused ++ forward.sending?.toList) ((w.apply (.close c)).channels c) .ended := by
  have hnone := h.none_refused hf
  have htexts := h.texts
  have hch : (w.apply (.close c)).channels c = { w.channels c with rxOpen := false } := by
    simp [apply,Channels.close]
  rw [hch]
  refine ⟨h.received,by simp,?_,?_,fun he => absurd rfl he⟩
  · simpa [Forward.sending?] using htexts
  · rw [hnone,List.nil_append]
    cases forward.sending? <;> simp

end Streamed

theorem socketTexts_append (i : ℕ) (taken : Bool) (xs ys : List Visible) :
    socketTexts i taken (xs ++ ys) = socketTexts i taken xs ++ socketTexts i taken ys :=
  List.filterMap_append ..

theorem socketTexts_of_none {i : ℕ} {seen : List Visible}
    (h : ∀ text ok, .socket i text ok ∉ seen) (taken : Bool) : socketTexts i taken seen = [] := by
  rw [socketTexts,List.filterMap_eq_nil_iff]
  intro v hv
  cases v with
  | socket j text ok =>
    by_cases hj : j = i
    · subst hj
      exact absurd hv (h text ok)
    · simp [Visible.offered?,hj]
  | opened | frame | otherFrame | closed | returned | message => rfl

/-- The tasks of another connection use another socket. -/
theorem PeerReady.visible_other {i j : ℕ} (h : j ≠ i) (ready : PeerReady X) (forward : Forward)
    (text : String) (ok : Bool) : .socket i text ok ∉ ready.visible j forward :=
  fun hv => h (Option.some.inj (visible_client hv).symm)

/-- `Streamed` of the socket texts in a list of what was seen. -/
def StreamedIn (seen : List Visible) (i : ℕ) (ch : Channel) (forward : Forward) : Prop :=
  Streamed (socketTexts i true seen) (socketTexts i false seen) ch forward

namespace StreamedIn
variable {seen more : List Visible} {i : ℕ} {w : Shared} {forward : Forward}

/-- A step that uses other sockets and takes nothing from channel `i`. -/
theorem quiet (h : StreamedIn seen i (w.channels i) forward)
    (hv : ∀ text ok, .socket i text ok ∉ more) {changes : List Change}
    (ht : Change.take i ∉ changes) (hc : Change.close i ∉ changes) :
    StreamedIn (seen ++ more) i ((w.applyAll changes).channels i) forward := by
  rw [StreamedIn,socketTexts_append,socketTexts_append,socketTexts_of_none hv,
    socketTexts_of_none hv,List.append_nil,List.append_nil]
  exact Streamed.applyAll h ht hc

/-- A step of the connection's own tasks. -/
theorem own {peer : Peer X} (h : StreamedIn seen i (w.channels i) peer.forward) {released : Bool}
    {ready : PeerReady X} {out : Peer X × Shared} (hf : peer.Forwards i w released ready out) :
    StreamedIn (seen ++ ready.visible i peer.forward) i (out.2.channels i) out.1.forward := by
  have hoffer : ∀ (text : String) (ok taken : Bool), socketTexts i taken [.socket i text ok] =
      if ok = taken then [text] else [] := by
    intro text ok taken
    cases ok <;> cases taken <;> simp [socketTexts,Visible.offered?]
  cases hf with
  | other hwait hforward hc hs hw hv hr =>
    rw [hw,hforward]
    exact h.quiet hv (hc.take i) (hc.close i)
  | received hforward hm =>
    rw [hforward] at h
    rw [StreamedIn,PeerReady.visible,List.append_nil]
    exact Streamed.take h hm
  | drained hforward he hr =>
    rw [hforward] at h
    rw [StreamedIn,PeerReady.visible,List.append_nil]
    have hclosed := Streamed.close h (by simp)
    simpa [Forward.sending?] using hclosed
  | @sent text hforward =>
    have hvisible : (PeerReady.sent true : PeerReady X).visible i peer.forward =
        [.socket i text true] := by rw [hforward]; rfl
    rw [hforward] at h
    rw [StreamedIn,hvisible,socketTexts_append,socketTexts_append,hoffer,hoffer]
    have hsent := Streamed.sent h
    simpa using hsent
  | @refused text hforward =>
    have hvisible : (PeerReady.sent false : PeerReady X).visible i peer.forward =
        [.socket i text false] := by rw [hforward]; rfl
    rw [hforward] at h
    rw [StreamedIn,hvisible,socketTexts_append,socketTexts_append,hoffer,hoffer]
    have hclosed := Streamed.close h (by simp)
    simpa [Forward.sending?] using hclosed

/-- A step of another connection's tasks. -/
theorem other {j : ℕ} {peer : Peer X} (h : StreamedIn seen i (w.channels i) forward)
    {released : Bool} {ready : PeerReady X} {out : Peer X × Shared}
    (hf : peer.Forwards j w released ready out) (hj : j ≠ i) :
    StreamedIn (seen ++ ready.visible j peer.forward) i (out.2.channels i) forward := by
  have hv := ready.visible_other hj peer.forward
  have hother : i ≠ j := fun e => hj e.symm
  cases hf with
  | other hwait hforward hc hs hw hv' hr =>
    rw [hw]
    exact h.quiet hv (hc.take i) (hc.close i)
  | received hforward hm =>
    have htake : Change.take i ∉ [Change.take j] := by simpa using hother
    exact h.quiet hv htake (by simp)
  | sent hforward => exact h.quiet hv List.not_mem_nil List.not_mem_nil
  | drained hforward | refused hforward =>
    have hclose : Change.close i ∉ [Change.close j] := by simpa using hother
    exact h.quiet hv (by simp) hclose

end StreamedIn

theorem Server.run_streamed (hX : X.RenderTotal) {network : Network} {txCacheSize : ℕ}
    {readies : List (Ready X)} {s : Server X}
    (h : Machine.run (Server.step network) (Server.start txCacheSize) readies = some s) (i : ℕ) :
    StreamedIn (Machine.outputs (Server.step network) Server.visible (Server.start txCacheSize)
      readies) i (s.relay.shared.channels i) (s.forwardOf i) := by
  refine Machine.outputs_invariant (P := fun seen s => StreamedIn seen i
    (s.relay.shared.channels i) (Server.forwardOf s i)) ?_ ?_ h
  · exact ⟨Nat.zero_le _,by simp [Server.start,RelayState.start,Shared.start,Server.forwardOf],
      rfl,Nat.zero_le _,fun _ => rfl⟩
  · intro seen s ready s' hr ih hs
    have hw := Server.reachable_healthy hX hr
    rcases Server.step_cases hX hw hs with
      ⟨changes,hc,-,hshared,hpeers,hv⟩ | ⟨j,peer,ready',out,rfl,hp,hf,rfl⟩
    · have hsame : s'.forwardOf = s.forwardOf := by
        rcases hpeers with heq | heq
        · funext k
          rw [Server.forwardOf,Server.forwardOf,heq]
        · exact Server.forwardOf_upgraded heq
      rw [hshared,hsame]
      exact ih.quiet (hv i) (hc.take i) (hc.close i)
    · rw [Server.forwardOf_moved hp,Server.visible,Server.forwardOf_eq hp]
      by_cases hj : j = i
      · subst hj
        rw [Function.update_self]
        rw [Server.forwardOf_eq hp] at ih
        exact ih.own hf
      · rw [Function.update_of_ne fun e => hj e.symm]
        exact ih.other hf hj

/-- In every run of the server, at every await, the texts a channel got are those its socket
took, the one it refused if it refused one, the one that is being sent and the queued ones, in
this order. A refusal ends the forward task. -/
theorem sockets_stream_channels (hX : X.RenderTotal) (network : Network) (txCacheSize : ℕ)
    (readies : List (Ready X)) (s : Server X)
    (h : Machine.run (Server.step network) (Server.start txCacheSize) readies = some s) (i : ℕ) :
    let seen := Machine.outputs (Server.step network) Server.visible (Server.start txCacheSize)
      readies
    let ch := s.relay.shared.channels i
    ch.log.map Entry.text = socketTexts i true seen ++ socketTexts i false seen ++
        (s.forwardOf i).sending?.toList ++ (ch.log.drop ch.received).map Entry.text ∧
      (socketTexts i false seen).length ≤ 1 ∧
      (socketTexts i false seen ≠ [] → s.forwardOf i = .ended) := by
  intro seen ch
  have hstream := Server.run_streamed hX h i
  refine ⟨?_,hstream.once,fun hne => ?_⟩
  · rw [hstream.texts,← List.map_append,List.take_append_drop]
  · by_contra hopen
    exact hne (hstream.none_refused hopen)

theorem readies_stream_channels : ∃ s : Server Deps.sample,
    Machine.run (Server.step .elementsRegtest) (Server.start 1000) Sample.readies = some s ∧
      (s.relay.shared.channels 1).log.map Entry.text =
        socketTexts 1 true (Machine.outputs (Server.step .elementsRegtest) Server.visible
          (Server.start 1000) Sample.readies) ++
        socketTexts 1 false (Machine.outputs (Server.step .elementsRegtest) Server.visible
          (Server.start 1000) Sample.readies) ++
        (s.forwardOf 1).sending?.toList ++
        ((s.relay.shared.channels 1).log.drop (s.relay.shared.channels 1).received).map
          Entry.text := by
  obtain ⟨s,hs⟩ := Option.isSome_iff_exists.mp Sample.readies_run
  exact ⟨s,hs,(sockets_stream_channels Deps.sample_renderTotal .elementsRegtest 1000 Sample.readies s
    hs 1).1⟩

end NexusRelay
