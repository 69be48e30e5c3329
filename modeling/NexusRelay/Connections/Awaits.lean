import NexusRelay.Delivery.Lag
import NexusRelay.Model.Connection
import NexusRelay.Model.Server

/-! # Whole frames for the outside

The server that switches tasks at every await is a `System`, in which a frame is handled in
one piece and a text is taken and sent in one piece: every run of it is matched by a run of
the `System` that takes the same frames and messages, and gives the same texts to the same
sockets, in the same order.
-/
namespace NexusRelay
open Shared
variable {X : Deps}

/-- What the outside sees of a step: a connection opens, a text or another frame is read, the
receive loop ends, the socket takes a text or refuses it, the connection returns, a message of
the node arrives. -/
inductive Visible where
  | opened
  | frame (i : ℕ) (text : String)
  | otherFrame (i : ℕ)
  | closed (i : ℕ)
  | socket (i : ℕ) (text : String) (taken : Bool)
  | returned (i : ℕ)
  | message (msg : List Bytes)
  deriving DecidableEq, Repr

def System.visible (s : System) : Act X → List Visible
  | .accept => [.opened]
  | .text i text => [.frame i text]
  | .otherFrame i => [.otherFrame i]
  | .stop i => [.closed i]
  | .forward i sent =>
    let ch := s.relay.shared.channels i
    (ch.log[ch.received]?.map fun msg => .socket i msg.text sent).toList
  | .join i => [.returned i]
  | .zmq msg => [.message msg]
  | .handle _ _ | .drained _ => []

def Forward.sending? : Forward → Option String
  | .sending text => some text
  | _ => none

def PeerReady.visible (i : ℕ) (forward : Forward) : PeerReady X → List Visible
  | .text frame => [.frame i frame]
  | .otherFrame => [.otherFrame i]
  | .ended => [.closed i]
  | .sent ok => (forward.sending?.map fun text => .socket i text ok).toList
  | .joined => [.returned i]
  | .answered _ | .received | .drained => []

/-- The client a step is one of. -/
def Visible.client? : Visible → Option ℕ
  | .frame i _ | .otherFrame i | .closed i | .socket i _ _ | .returned i => some i
  | .opened | .message _ => none

theorem PeerReady.visible_client {i : ℕ} {forward : Forward} {ready : PeerReady X} {v : Visible}
    (h : v ∈ ready.visible i forward) : v.client? = some i := by
  cases ready with
  | sent ok =>
    obtain ⟨text,-,rfl⟩ := Option.map_eq_some_iff.mp (Option.mem_toList.mp h)
    rfl
  | text _ | otherFrame | ended | joined =>
    cases List.mem_singleton.mp h
    rfl
  | answered _ | received | drained => cases h

/-- The forward task of peer `i`, which waits for texts from the moment it is spawned. -/
def Server.forwardOf (s : Server X) (i : ℕ) : Forward :=
  (s.peers[i]?.map Peer.forward).getD .receiving

def Server.visible (s : Server X) : Ready X → List Visible
  | .upgraded => [.opened]
  | .peer i ready => ready.visible i (s.forwardOf i)
  | .zmq msg => [.message msg]
  | .accepted | .acceptFailed | .upgradeFailed | .zmqError | .zmqEnded => []

/-! ## The server as a system -/

def Waiting.phase : Waiting X → Phase
  | .frame => .reading
  | .node asking => .handling asking.text
  | .forwardTask => .joining
  | .returned => .returned
  | .panicked => .panicked

def Peer.connection (peer : Peer X) : Connection :=
  ⟨peer.waiting.phase,peer.clientTx,peer.clientTxClone,decide (peer.forward ≠ .ended)⟩

/-- Whether the forward task holds a text. -/
def Server.holding (s : Server X) (i : ℕ) : Bool := (s.forwardOf i).sending?.isSome

/-- The text was the last to be taken from the channel. -/
def Channel.LastTaken (ch : Channel) (text : String) : Prop :=
  ∃ n msg, ch.received = n + 1 ∧ ch.log[n]? = some msg ∧ msg.text = text

theorem Channel.LastTaken.applyAll {w : Shared} {c : ℕ} {text : String}
    (h : (w.channels c).LastTaken text) {changes : List Change} (hc : Change.take c ∉ changes) :
    ((w.applyAll changes).channels c).LastTaken text := by
  obtain ⟨n,msg,hn,hmsg,htext⟩ := h
  obtain ⟨more,hmore⟩ := (extends_applyAll w changes c).1
  refine ⟨n,msg,(applyAll_received w hc).trans hn,?_,htext⟩
  rw [hmore,List.getElem?_append_left (List.getElem?_eq_some_iff.mp hmsg).1]
  exact hmsg

/-- The system is the server, with the texts its forward tasks hold not yet taken. -/
structure Server.Matches (s : Server X) (t : System) : Prop where
  relay : t.relay = ⟨s.relay.shared.behind s.holding,s.relay.txsSeen⟩
  connections : t.connections = s.peers.map Peer.connection
  listening : s.listening = true → t.listening = true
  held : ∀ i peer text, s.peers[i]? = some peer → peer.forward = .sending text →
    (s.relay.shared.channels i).LastTaken text

/-- A frame does the same one behind. -/
theorem run_handleText_behind (hX : X.RenderTotal) (held : ℕ → Bool) {w : Shared} (hw : w.Healthy)
    (text : String) (client : Option (Node X)) (tx : Sender) :
    (∃ goesOn changes, ForwardsNothing changes ∧
      (∀ t c, Change.subscribe t c ∈ changes → c = tx.chan) ∧
      (handleText text client tx).run w = .ok goesOn (w.applyAll changes) ∧
      (handleText text client tx).run (w.behind held) =
        .ok goesOn ((w.applyAll changes).behind held)) ∨
    ((handleText text client tx).run w = .error .panic w ∧
      (handleText text client tx).run (w.behind held) = .error .panic (w.behind held)) := by
  have hb : (w.behind held).Healthy := behind_healthy.mpr hw
  rcases handleText_cases hX text client tx with ⟨reply,changes,str,ha,-,hrun⟩ | ⟨j,-,hrun⟩
  · have hquiet := ha.forwardsNothing
    refine Or.inl ⟨_,_,hquiet.reply tx str,?_,hrun w hw,?_⟩
    · intro t c hmem
      have hchange : Change.subscribe t c ∈ changes := by simpa using hmem
      exact ha.subscribes_own hchange
    rw [hrun _ hb,behind_applyAll held w (hquiet.reply tx str).take,
      ← behind_applyAll held w hquiet.take]
    simp
  · exact Or.inr ⟨(hrun w hw).2,(hrun _ hb).2⟩

namespace Server
variable {s : Server X} {t : System}

theorem Matches.connection (h : s.Matches t) {i : ℕ} {peer : Peer X} (hp : s.peers[i]? = some peer) :
    t.connections[i]? = some peer.connection := by
  rw [h.connections,List.getElem?_map,hp]
  rfl

theorem Matches.healthy (h : s.Matches t) (hw : t.relay.shared.Healthy) :
    s.relay.shared.Healthy := by
  rw [h.relay] at hw
  exact hw

theorem Matches.locals (h : s.Matches t) (i : ℕ) : t.locals i = s.locals i := by
  unfold System.locals Server.locals
  rw [h.connections,List.getElem?_map]
  cases s.peers[i]? <;> rfl

theorem Matches.hasSender (h : s.Matches t) {i : ℕ} (hr : s.released i = true) :
    t.hasSender i = false := by
  obtain ⟨hlocals,hregistry⟩ := of_decide_eq_true hr
  have hsame : t.relay.shared.registry = s.relay.shared.registry := by rw [h.relay]; rfl
  refine decide_eq_false ?_
  rw [h.locals,hsame]
  rintro (hne | ⟨topic,ht,sender,hs,hchan⟩)
  · exact hne hlocals
  · exact hregistry topic ht sender hs hchan

theorem forwardOf_eq {i : ℕ} {peer : Peer X} (hp : s.peers[i]? = some peer) :
    s.forwardOf i = peer.forward := by
  simp [forwardOf,hp]

theorem holding_of {i : ℕ} {peer : Peer X} (hp : s.peers[i]? = some peer) :
    s.holding i = peer.forward.sending?.isSome := by
  rw [holding,forwardOf_eq hp]

/-- The state after a step of peer `i`. -/
def moved (s : Server X) (i : ℕ) (out : Peer X × Shared) : Server X :=
  { s with peers := s.peers.set i out.1, relay := { s.relay with shared := out.2 } }

theorem moved_self {i : ℕ} {peer : Peer X} (hp : s.peers[i]? = some peer) (out : Peer X × Shared) :
    (s.moved i out).peers[i]? = some out.1 :=
  List.getElem?_set_self (List.getElem?_eq_some_iff.mp hp).1

theorem moved_other {i j : ℕ} (h : j ≠ i) (out : Peer X × Shared) :
    (s.moved i out).peers[j]? = s.peers[j]? :=
  List.getElem?_set_ne fun e => h e.symm

theorem forwardOf_moved {i : ℕ} {peer : Peer X} (hp : s.peers[i]? = some peer)
    (out : Peer X × Shared) :
    (s.moved i out).forwardOf = Function.update s.forwardOf i out.1.forward := by
  funext j
  by_cases hj : j = i
  · subst hj
    rw [forwardOf_eq (moved_self hp out),Function.update_self]
  · rw [Function.update_of_ne hj,forwardOf,forwardOf,moved_other hj]

theorem peer_of_upgraded {s' : Server X} (h : s'.peers = s.peers ++ [({} : Peer X)]) (i : ℕ) :
    s'.peers[i]? = s.peers[i]? ∨ (s.peers[i]? = none ∧ s'.peers[i]? = some {}) := by
  rw [h]
  rcases lt_trichotomy i s.peers.length with hlt | heq | hgt
  · exact Or.inl (List.getElem?_append_left hlt)
  · exact Or.inr ⟨List.getElem?_eq_none (by omega),by simp [heq]⟩
  · have hlen : (s.peers ++ [({} : Peer X)]).length ≤ i := by
      rw [List.length_append,List.length_singleton]
      omega
    exact Or.inl ((List.getElem?_eq_none hlen).trans (List.getElem?_eq_none (by omega)).symm)

theorem forwardOf_upgraded {s' : Server X} (h : s'.peers = s.peers ++ [({} : Peer X)]) :
    s'.forwardOf = s.forwardOf := by
  funext i
  rcases peer_of_upgraded h i with hsame | ⟨hnone,hnew⟩
  · rw [forwardOf,forwardOf,hsame]
  · rw [forwardOf,forwardOf,hnone,hnew]
    rfl

theorem holding_moved {i : ℕ} {peer : Peer X} (hp : s.peers[i]? = some peer)
    (out : Peer X × Shared) :
    (s.moved i out).holding = Function.update s.holding i out.1.forward.sending?.isSome := by
  funext j
  rw [holding,forwardOf_moved hp]
  by_cases hj : j = i
  · subst hj
    simp
  · simp [holding,hj]

theorem holding_moved_same {i : ℕ} {peer : Peer X} (hp : s.peers[i]? = some peer)
    {out : Peer X × Shared} (hf : out.1.forward = peer.forward) :
    (s.moved i out).holding = s.holding := by
  rw [holding_moved hp,hf,← holding_of hp,Function.update_eq_self]

/-- A step of peer `i` that leaves its forward task alone and takes nothing. -/
theorem Matches.moved (h : s.Matches t) {i : ℕ} {peer : Peer X} (hp : s.peers[i]? = some peer)
    {out : Peer X × Shared} (hf : out.1.forward = peer.forward) {changes : List Change}
    (hc : ForwardsNothing changes) (hw : out.2 = s.relay.shared.applyAll changes)
    {t' : System} (hrelay : t'.relay = ⟨out.2.behind s.holding,s.relay.txsSeen⟩)
    (hconn : t'.connections = t.connections.set i out.1.connection)
    (hlisten : t'.listening = t.listening) : (s.moved i out).Matches t' where
  relay := by
    rw [holding_moved_same hp hf]
    exact hrelay
  connections := by
    rw [hconn,h.connections]
    exact List.map_set.symm
  listening := by
    rw [hlisten]
    exact h.listening
  held j peer' text hj hsend := by
    have hlast : (s.relay.shared.channels j).LastTaken text := by
      by_cases hji : j = i
      · subst hji
        cases hj.symm.trans (moved_self hp out)
        exact h.held j peer text hp (hf.symm.trans hsend)
      · exact h.held j peer' text ((moved_other hji out).symm.trans hj) hsend
    rw [Server.moved,hw]
    exact hlast.applyAll (hc.take j)

/-- The frame of peer `i` is handled in `t₁`, which is `t` with the frame in hand. -/
theorem Matches.handled (hX : X.RenderTotal) (network : Network) (h : s.Matches t)
    (hw : s.relay.shared.Healthy) {i : ℕ} {peer : Peer X} (hp : s.peers[i]? = some peer)
    (text : String) (t₁ : System) (hrelay : t₁.relay = t.relay) (hlisten : t₁.listening = t.listening)
    (hconn : t₁.connections[i]? = some { peer.connection with phase := .handling text })
    (hset : ∀ conn, t₁.connections.set i conn = t.connections.set i conn) (node : Node X)
    {out : Peer X × Shared}
    (hout : out = peer.resumed ((handleText text (some node) ⟨i,.clientTxClone⟩).run
      s.relay.shared)) :
    ∃ t', t₁.step network (.handle i node) = some t' ∧ (s.moved i out).Matches t' := by
  have hshared : t₁.relay.shared = s.relay.shared.behind s.holding := by rw [hrelay,h.relay]
  have hseen : t₁.relay.txsSeen = s.relay.txsSeen := by rw [hrelay,h.relay]
  have hstep : t₁.step network (.handle i node) = some (t₁.handle network i
      { peer.connection with phase := .handling text } text node) := by
    simp only [System.step,hconn]
  refine ⟨_,hstep,?_⟩
  rcases run_handleText_behind hX s.holding hw text (some node) ⟨i,.clientTxClone⟩ with
    ⟨goesOn,changes,hc,-,hrun,hbehind⟩ | ⟨hrun,hbehind⟩
  · rw [hrun] at hout
    have hstate : out.2 = s.relay.shared.applyAll changes := by
      rw [hout]
      cases goesOn <;> rfl
    have hforward : out.1.forward = peer.forward := by
      rw [hout]
      cases goesOn <;> rfl
    refine h.moved hp hforward hc hstate ?_ ?_ hlisten
    · simp only [System.handle,RelayState.step,hshared,hbehind,hstate,hseen]
    · simp only [System.handle,System.setConnection,hshared,hbehind]
      rw [hset,hout]
      cases goesOn <;> rfl
  · rw [hrun] at hout
    have hstate : out.2 = s.relay.shared.applyAll [] := by
      rw [hout]
      exact hw.unwind (Fail.panic : Fail (Error X))
    have hforward : out.1.forward = peer.forward := by
      rw [hout]
      rfl
    refine h.moved hp hforward .nil hstate ?_ ?_ hlisten
    · simp only [System.handle,RelayState.step,hshared,hbehind,hstate,hseen,applyAll_nil]
      rw [(behind_healthy.mpr hw).unwind]
    · simp only [System.handle,System.setConnection,hshared,hbehind]
      rw [hset,hout]
      rfl

variable (X) in
/-- A run of the system that shows the outside the same and ends where the server is. -/
def MatchedBy (network : Network) (t : System) (seen : List Visible) (s' : Server X) : Prop :=
  ∃ (acts : List (Act X)) (t' : System), Machine.run (System.step network) t acts = some t' ∧
    Machine.outputs (System.step network) System.visible t acts = seen ∧ s'.Matches t'

theorem MatchedBy.one {network : Network} {t' : System} {s' : Server X} {seen : List Visible}
    {a : Act X} (hs : t.step network a = some t') (hseen : t.visible a = seen)
    (h : s'.Matches t') : MatchedBy X network t seen s' :=
  ⟨[a],t',(Machine.run_singleton t a).trans hs,
    (Machine.outputs_singleton System.visible hs).trans hseen,h⟩

/-- An action that changes the connection only. -/
theorem Matches.reconnected (h : s.Matches t) {i : ℕ} {peer peer' : Peer X}
    (hp : s.peers[i]? = some peer) (hf : peer'.forward = peer.forward) :
    (s.moved i (peer',s.relay.shared)).Matches (t.setConnection i peer'.connection) :=
  have hsame : s.relay.shared = s.relay.shared.applyAll [] := rfl
  h.moved hp hf .nil hsame h.relay rfl rfl

/-- The forward task goes on, and the channel with it. -/
theorem Matches.forwarded (h : s.Matches t) {i : ℕ} {peer : Peer X} (hp : s.peers[i]? = some peer)
    {forward : Forward} {w : Shared} {t' : System}
    (hheld : ∀ text, forward = .sending text → (w.channels i).LastTaken text)
    (hother : ∀ j, j ≠ i → w.channels j = s.relay.shared.channels j)
    (hrelay : t'.relay = ⟨w.behind (Function.update s.holding i forward.sending?.isSome),
      s.relay.txsSeen⟩)
    (hconn : t'.connections = t.connections.set i { peer with forward := forward }.connection)
    (hlisten : t'.listening = t.listening) :
    (s.moved i ({ peer with forward := forward },w)).Matches t' where
  relay := by
    rw [holding_moved hp]
    exact hrelay
  connections := by
    rw [hconn,h.connections]
    exact List.map_set.symm
  listening := by
    rw [hlisten]
    exact h.listening
  held j peer' text hj hsend := by
    by_cases hji : j = i
    · subst hji
      cases hj.symm.trans (moved_self hp ({ peer with forward := forward },w))
      exact hheld text hsend
    · have hlast := h.held j peer' text ((moved_other hji _).symm.trans hj) hsend
      rw [← hother j hji] at hlast
      exact hlast

theorem take_other {w : Shared} {i j : ℕ} (h : j ≠ i) :
    (w.apply (.take i)).channels j = w.channels j := by
  simp [apply,Channels.take,h]

theorem close_other {w : Shared} {i j : ℕ} (h : j ≠ i) :
    (w.apply (.close i)).channels j = w.channels j := by
  simp [apply,Channels.close,h]

/-- The text the server holds is the next one the system takes. -/
theorem Matches.next_text (h : s.Matches t) {i : ℕ} {peer : Peer X} (hp : s.peers[i]? = some peer)
    {text : String} (hf : peer.forward = .sending text) :
    ∃ msg, (t.relay.shared.channels i).log[(t.relay.shared.channels i).received]? = some msg ∧
      msg.text = text ∧ t.relay.shared.apply (.take i) =
        s.relay.shared.behind (Function.update s.holding i false) := by
  obtain ⟨n,msg,hn,hmsg,htext⟩ := h.held i peer text hp hf
  have hheld : s.holding i = true := by
    rw [holding_of hp,hf]
    rfl
  have hlen := (List.getElem?_eq_some_iff.mp hmsg).1
  rw [h.relay]
  refine ⟨msg,?_,htext,?_⟩
  · simp only [behind_channels,Channels.behind_log,Channels.behind_received _ _ hheld,hn]
    exact hmsg
  · simp only [apply,behind,Channels.take_behind _ _ hheld hn hlen]

theorem Matches.sent (h : s.Matches t) (network : Network) {i : ℕ} {peer : Peer X}
    (hp : s.peers[i]? = some peer) {text : String} (hf : peer.forward = .sending text) :
    MatchedBy X network t [.socket i text true]
      (s.moved i ({ peer with forward := .receiving },s.relay.shared)) := by
  obtain ⟨msg,hmsg,htext,htake⟩ := h.next_text hp hf
  have hlen := (List.getElem?_eq_some_iff.mp hmsg).1
  have hforwarding : peer.connection.forwarding = true := by simp [Peer.connection,hf]
  have hstep : t.step network (.forward i true : Act X) =
      some { t with relay := ⟨t.relay.shared.apply (.take i),t.relay.txsSeen⟩ } := by
    simp only [System.step,h.connection hp,hforwarding,hlen,and_self,↓reduceIte]
    rfl
  have hsame : t.connections =
      t.connections.set i { peer with forward := Forward.receiving }.connection := by
    obtain ⟨hlt,hconn⟩ := List.getElem?_eq_some_iff.mp (h.connection hp)
    have hpeer : { peer with forward := Forward.receiving }.connection = peer.connection := by
      simp [Peer.connection,hf]
    rw [hpeer,← hconn]
    exact (List.set_getElem_self hlt).symm
  refine .one hstep (by simp [System.visible,hmsg,htext]) ?_
  refine h.forwarded hp (fun _ he => by cases he) (fun _ _ => rfl) ?_ hsame rfl
  rw [htake,h.relay]
  rfl

theorem Matches.refused (h : s.Matches t) (network : Network) {i : ℕ} {peer : Peer X}
    (hp : s.peers[i]? = some peer) {text : String} (hf : peer.forward = .sending text) :
    MatchedBy X network t [.socket i text false]
      (s.moved i ({ peer with forward := .ended },s.relay.shared.apply (.close i))) := by
  obtain ⟨msg,hmsg,htext,htake⟩ := h.next_text hp hf
  have hlen := (List.getElem?_eq_some_iff.mp hmsg).1
  have hforwarding : peer.connection.forwarding = true := by simp [Peer.connection,hf]
  have hstep : t.step network (.forward i false : Act X) =
      some { t.setConnection i { peer.connection with forwarding := false } with
        relay := ⟨(t.relay.shared.apply (.take i)).apply (.close i),t.relay.txsSeen⟩ } := by
    simp only [System.step,h.connection hp,hforwarding,hlen,and_self,↓reduceIte]
    rfl
  refine .one hstep (by simp [System.visible,hmsg,htext]) ?_
  refine h.forwarded hp (fun _ he => by cases he) (fun _ hj => close_other hj) ?_ rfl rfl
  rw [htake,h.relay,behind_apply _ _ (by simp)]
  rfl

/-- The system does nothing yet. -/
theorem Matches.received (h : s.Matches t) (network : Network) {i : ℕ} {peer : Peer X}
    (hp : s.peers[i]? = some peer) (hf : peer.forward = .receiving) {msg : Entry}
    (hm : (s.relay.shared.channels i).log[(s.relay.shared.channels i).received]? = some msg) :
    MatchedBy X network t [] (s.moved i
      ({ peer with forward := .sending msg.text },s.relay.shared.apply (.take i))) := by
  have hheld : s.holding i = false := by
    rw [holding_of hp,hf]
    rfl
  have hlen := (List.getElem?_eq_some_iff.mp hm).1
  have htake : (s.relay.shared.apply (.take i)).behind (Function.update s.holding i true) =
      s.relay.shared.behind s.holding := by
    simp only [apply,behind,Channels.behind_take _ _ hheld hlen]
  refine ⟨[],t,rfl,rfl,h.forwarded hp ?_ (fun _ hj => take_other hj) ?_ ?_ rfl⟩
  · intro text he
    cases he
    refine ⟨(s.relay.shared.channels i).received,msg,?_,?_,rfl⟩
    · simp [apply,Channels.take,Channel.take,hlen]
    · simpa [apply] using hm
  · rw [h.relay]
    exact congrArg (RelayState.mk · s.relay.txsSeen) htake.symm
  · obtain ⟨hlt,hconn⟩ := List.getElem?_eq_some_iff.mp (h.connection hp)
    have hpeer : { peer with forward := Forward.sending msg.text }.connection =
        peer.connection := by simp [Peer.connection,hf]
    rw [hpeer,← hconn]
    exact (List.set_getElem_self hlt).symm

theorem Matches.drained (h : s.Matches t) (network : Network) {i : ℕ} {peer : Peer X}
    (hp : s.peers[i]? = some peer) (hf : peer.forward = .receiving)
    (he : (s.relay.shared.channels i).received = (s.relay.shared.channels i).log.length)
    (hr : s.released i = true) :
    MatchedBy X network t []
      (s.moved i ({ peer with forward := .ended },s.relay.shared.apply (.close i))) := by
  have hheld : s.holding i = false := by
    rw [holding_of hp,hf]
    rfl
  have hch : t.relay.shared.channels i = s.relay.shared.channels i := by
    rw [h.relay]
    exact Channels.behind_of_not_held _ _ hheld
  have hforwarding : peer.connection.forwarding = true := by simp [Peer.connection,hf]
  have hstep : t.step network (.drained i : Act X) =
      some { t.setConnection i { peer.connection with forwarding := false } with
        relay := ⟨t.relay.shared.apply (.close i),t.relay.txsSeen⟩ } := by
    simp only [System.step,h.connection hp,hforwarding,hch,he,h.hasSender hr,and_self,↓reduceIte]
    rfl
  have hsame : Function.update s.holding i false = s.holding := by
    rw [← hheld,Function.update_eq_self]
  refine .one hstep rfl ?_
  refine h.forwarded hp (fun _ he => by cases he) (fun _ hj => close_other hj) ?_ rfl rfl
  rw [h.relay,← behind_apply _ _ (by simp)]
  exact congrArg (fun held => RelayState.mk (behind held _) s.relay.txsSeen) hsame.symm

/-- A frame that asks nothing is read and handled at once, by whatever node. -/
theorem Matches.handles (hX : X.RenderTotal) (network : Network) (h : s.Matches t)
    (hw : s.relay.shared.Healthy) {i : ℕ} {peer : Peer X} (hp : s.peers[i]? = some peer)
    (hphase : peer.connection.phase = .reading) {text : String} {out : Peer X × Shared}
    (hout : ∀ node : Node X, out = peer.resumed
      ((handleText text (some node) ⟨i,.clientTxClone⟩).run s.relay.shared)) :
    MatchedBy X network t [.frame i text] (s.moved i out) := by
  have hconn := h.connection hp
  have hread : t.step network (.text i text : Act X) =
      some (t.setConnection i { peer.connection with phase := .handling text }) := by
    simp [System.step,hconn,hphase]
  let node : Node X := ⟨"",fun _ => .ok (.ok [])⟩
  obtain ⟨t',hstep,hmatch⟩ := h.handled hX network hw hp text
    (t.setConnection i { peer.connection with phase := .handling text }) rfl rfl
    (List.getElem?_set_self (List.getElem?_eq_some_iff.mp hconn).1) (fun _ => List.set_set ..) node (hout node)
  refine ⟨[.text i text,.handle i node],t',?_,?_,hmatch⟩
  · rw [Machine.run_cons hread,Machine.run_singleton,hstep]
  · rw [Machine.outputs_cons _ hread,Machine.outputs_singleton _ hstep]
    rfl

/-- Every step of a connection's tasks is matched. -/
theorem Matches.peer_step (hX : X.RenderTotal) (network : Network) (h : s.Matches t)
    (hw : s.relay.shared.Healthy) {i : ℕ} {peer : Peer X} (hp : s.peers[i]? = some peer)
    {ready : PeerReady X} {out : Peer X × Shared}
    (hs : peer.Steps i s.relay.shared (s.released i) ready out) :
    MatchedBy X network t (ready.visible i peer.forward) (s.moved i out) := by
  have hconn := h.connection hp
  have hreading : peer.waiting = .frame → peer.connection.phase = .reading := by
    intro hwait
    rw [Peer.connection,hwait,Waiting.phase]
  cases hs with
  | @asks text _ hwait hq =>
    refine .one (a := .text i text) ?_ rfl (h.reconnected hp rfl)
    simp only [System.step,hconn,hreading hwait,↓reduceIte]
    rfl
  | handles hwait hq hout => exact h.handles hX network hw hp (hreading hwait) hout
  | @answered asking hwait answer _ hout =>
    let node : Node X := ⟨"",fun _ => answer⟩
    have hphase : { peer.connection with phase := .handling asking.text } = peer.connection := by
      simp [Peer.connection,hwait,Waiting.phase]
    obtain ⟨t',hstep,hmatch⟩ := h.handled hX network hw hp asking.text t rfl rfl
      (by rw [hphase]; exact hconn) (fun _ => rfl) node (hout node rfl)
    exact .one hstep rfl hmatch
  | otherFrame hwait =>
    have hsame : t.setConnection i peer.connection = t := by
      obtain ⟨hlt,heq⟩ := List.getElem?_eq_some_iff.mp hconn
      rw [System.setConnection,← heq,List.set_getElem_self hlt]
    have hmatch : (s.moved i (peer,s.relay.shared)).Matches (t.setConnection i peer.connection) :=
      h.reconnected hp rfl
    rw [hsame] at hmatch
    refine .one (a := .otherFrame i) ?_ rfl hmatch
    simp only [System.step,hconn,hreading hwait,↓reduceIte]
  | ended hwait =>
    refine .one (a := .stop i) ?_ rfl (h.reconnected hp rfl)
    simp only [System.step,hconn,hreading hwait,↓reduceIte]
    rfl
  | joined hwait hf =>
    have hphase : peer.connection.phase = .joining ∧ peer.connection.forwarding = false := by
      simp [Peer.connection,hwait,hf,Waiting.phase]
    refine .one (a := .join i) ?_ rfl (h.reconnected hp rfl)
    simp only [System.step,hconn,hphase,and_self,↓reduceIte]
    rfl
  | received hf hm => exact h.received network hp hf hm
  | drained hf he hr => exact h.drained network hp hf he hr
  | sent hf =>
    rw [hf]
    exact h.sent network hp hf
  | refused hf =>
    rw [hf]
    exact h.refused network hp hf

/-- A step of the listener. -/
theorem Matches.listened (h : s.Matches t) {changes : List Change}
    (hc : ForwardsNothing changes) (seen' : BoundedSet String) {l m : Bool}
    (hl : l = true → m = true) :
    ({ s with relay := ⟨s.relay.shared.applyAll changes,seen'⟩, listening := l }).Matches
      { t with
        relay := ⟨(s.relay.shared.behind s.holding).applyAll changes,seen'⟩
        listening := m } where
  relay := by
    rw [← behind_applyAll _ _ hc.take]
    rfl
  connections := h.connections
  listening := hl
  held i peer text hp hf := (h.held i peer text hp hf).applyAll (hc.take i)

/-- A message does the same one behind. -/
theorem Matches.heard (hX : X.RenderTotal) (network : Network) (h : s.Matches t)
    (hw : s.relay.shared.Healthy) (hl : s.listening = true) (msg : List Bytes) :
    MatchedBy X network t [.message msg] (s.listen network msg) := by
  obtain ⟨result,changes,seen',ho,hrun⟩ := processZmqMessage_cases hX msg network s.relay.txsSeen
  have hb : (s.relay.shared.behind s.holding).Healthy := behind_healthy.mpr hw
  have hnow := hrun _ hw
  have hbehind := hrun _ hb
  have hstep : t.step network (.zmq msg : Act X) = some { t with
      relay := t.relay.step network (.zmq msg : Event X)
      listening := t.listens (X := X) network msg } := by
    simp only [System.step,h.listening hl,↓reduceIte]
  refine .one hstep rfl ?_
  have hmatch := fun {l m : Bool} (hlm : l = true → m = true) =>
    h.listened ho.forwardsNothing seen' hlm
  simp only [RelayState.step,System.listens,Server.listen,h.relay,hnow,hbehind]
  cases result with
  | ok u => exact hmatch fun _ => rfl
  | error f =>
    cases f with
    | err e =>
      simp only [Exec.run_ofFallible_error,(hw.applyAll changes).unwind,
        (hb.applyAll changes).unwind]
      exact hmatch fun _ => rfl
    | panic =>
      simp only [Exec.run_ofFallible_error,(hw.applyAll changes).unwind,
        (hb.applyAll changes).unwind]
      exact hmatch fun hfalse => hfalse

theorem Matches.upgraded (h : s.Matches t) (network : Network) (n : ℕ) :
    MatchedBy X network t [.opened] { s with handshakes := n, peers := s.peers ++ [{}] } := by
  have hnone : ∀ (i : ℕ) (peer : Peer X), (s.peers ++ [({} : Peer X)])[i]? = some peer →
      s.peers[i]? = some peer ∨ peer = ({} : Peer X) := by
    intro i peer hp
    by_cases hi : i < s.peers.length
    · rw [List.getElem?_append_left hi] at hp
      exact Or.inl hp
    · have hmem := List.mem_of_getElem? hp
      rw [List.getElem?_append_right (Nat.le_of_not_lt hi)] at hp
      exact Or.inr (List.mem_singleton.mp (List.mem_of_getElem? hp))
  have hholding : ∀ s' : Server X, s'.peers = s.peers ++ [({} : Peer X)] → s'.holding = s.holding :=
    fun s' heq => funext fun i => by rw [holding,holding,forwardOf_upgraded heq]
  refine .one (a := .accept) rfl rfl ⟨?_,?_,h.listening,?_⟩
  · rw [hholding _ rfl]
    exact h.relay
  · simp only [h.connections,List.map_append]
    rfl
  · intro i peer text hp hf
    rcases hnone i peer hp with hp | rfl
    · exact h.held i peer text hp hf
    · cases hf

theorem Matches.step (hX : X.RenderTotal) (network : Network) (h : s.Matches t)
    (hw : t.relay.shared.Healthy) {ready : Ready X} {s' : Server X}
    (hs : s.step network ready = some s') : MatchedBy X network t (s.visible ready) s' := by
  have hhealthy := h.healthy hw
  have quiet : ∀ s' : Server X, s'.Matches t → MatchedBy X network t [] s' :=
    fun s' hmatch => ⟨[],t,rfl,rfl,hmatch⟩
  cases (step_steps hs).2 with
  | accepted | acceptFailed | upgradeFailed hn | zmqError =>
    exact quiet _ ⟨h.relay,h.connections,h.listening,h.held⟩
  | zmqEnded => exact quiet _ ⟨h.relay,h.connections,fun hfalse => (by cases hfalse),h.held⟩
  | upgraded hn => exact h.upgraded network _
  | @peer i peer peer' w ready hp hstep =>
    have hmatched := h.peer_step hX network hhealthy hp hstep
    rwa [← forwardOf_eq hp] at hmatched
  | zmq hl msg => exact h.heard hX network hhealthy hl msg

theorem start_matches (txCacheSize : ℕ) : (start (X := X) txCacheSize).Matches (.start txCacheSize) where
  relay := rfl
  connections := rfl
  listening := id
  held i peer text hp := by simp [start] at hp

end Server

theorem Server.reachable_matches (hX : X.RenderTotal) {network : Network} {txCacheSize : ℕ}
    {s : Server X} (h : Machine.Reachable (Server.step network) (Server.start txCacheSize) s) :
    ∃ t, Machine.Reachable (System.step (X := X) network) (System.start txCacheSize) t ∧
      s.Matches t := by
  refine h.invariant (P := fun s => ∃ t, Machine.Reachable (System.step (X := X) network)
    (System.start txCacheSize) t ∧ s.Matches t) ⟨_,.start,Server.start_matches txCacheSize⟩ ?_
  rintro s ready s' ⟨t,ht,hmatch⟩ hs
  obtain ⟨acts,t',hrun,-,hmatch'⟩ :=
    hmatch.step hX network (System.reachable_healthy hX ht) hs
  exact ⟨t',ht.trans (Machine.reachable_of_run hrun),hmatch'⟩

theorem Server.reachable_healthy (hX : X.RenderTotal) {network : Network} {txCacheSize : ℕ}
    {s : Server X} (h : Machine.Reachable (Server.step network) (Server.start txCacheSize) s) :
    s.relay.shared.Healthy := by
  obtain ⟨t,ht,hmatch⟩ := Server.reachable_matches hX h
  exact hmatch.healthy (System.reachable_healthy hX ht)

/-- Every run of the server is matched by a run of the system in which frames, texts and
messages are handled in one piece: it reads the same frames and messages and gives the same
texts to the same sockets, all in the same order, and it ends in the same registry, cache and
connections, with the texts the forward tasks hold not yet taken. -/
theorem server_runs_whole_frames (hX : X.RenderTotal) (network : Network) (txCacheSize : ℕ)
    (readies : List (Ready X)) (s : Server X)
    (h : Machine.run (Server.step network) (Server.start txCacheSize) readies = some s) :
    ∃ (acts : List (Act X)) (t : System),
      Machine.run (System.step network) (System.start txCacheSize) acts = some t ∧
      Machine.outputs (System.step network) System.visible (System.start txCacheSize) acts =
        Machine.outputs (Server.step network) Server.visible (Server.start txCacheSize) readies ∧
      s.Matches t :=
  Machine.run_simulates (R := Server.Matches) (Server.start_matches txCacheSize)
    (fun _ _ _ _ _ ht hmatch hs =>
      hmatch.step hX network (System.reachable_healthy hX ht) hs) h

/-! ## A proposal between two awaits -/

/-- While the node is asked for the transaction of a proposal, the transaction is announced to
another client, whose socket takes the acknowledgement and the announcement. -/
def Sample.readies : List (Ready Deps.sample) :=
  [.accepted,.upgraded,.accepted,.upgraded,
    .peer 0 (.text (Sample.print (Sample.request "publish" "proposal"
      (Sample.proposalValue (true,false))))),
    .peer 1 (.text (Sample.print (Sample.request "subscribe" "address" (.string Sample.address)))),
    .peer 1 .received,.zmq [rawtx,Sample.txBytes],.peer 0 (.answered (.ok (.ok Sample.txBytes))),
    .peer 1 (.sent true),.peer 1 .received,.peer 1 (.sent true),.peer 0 .received]

theorem Sample.readies_run : (Machine.run (Server.step .elementsRegtest) (Server.start 1000)
    Sample.readies).isSome = true := by
  decide +kernel

theorem readies_whole_frames : ∃ (s : Server Deps.sample) (acts : List (Act Deps.sample)) (t : System),
    Machine.run (Server.step .elementsRegtest) (Server.start 1000) Sample.readies = some s ∧
      Machine.run (System.step .elementsRegtest) (System.start 1000) acts = some t ∧
      Machine.outputs (System.step .elementsRegtest) System.visible (System.start 1000) acts =
        Machine.outputs (Server.step .elementsRegtest) Server.visible (Server.start 1000)
          Sample.readies ∧
      s.Matches t := by
  obtain ⟨s,hs⟩ := Option.isSome_iff_exists.mp Sample.readies_run
  obtain ⟨acts,t,hrun,hvisible,hmatch⟩ := server_runs_whole_frames Deps.sample_renderTotal
    .elementsRegtest 1000 Sample.readies s hs
  exact ⟨s,acts,t,hs,hrun,hvisible,hmatch⟩

end NexusRelay
