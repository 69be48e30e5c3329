import NexusRelay.Delivery.Logs
import NexusRelay.Model.Connection
import NexusRelay.Requests.Replies

/-! # Frames and their replies

In every interleaving of the tasks, the replies in a client's channel answer the frames of
that client that were handled, one each and in their order.
-/
namespace NexusRelay
open Shared
variable {X : Deps}

namespace Act

def frame? (i : ℕ) : Act X → Option String
  | .text j frame => if j = i then some frame else none
  | _ => none

def node? (i : ℕ) : Act X → Option (Node X)
  | .handle j node => if j = i then some node else none
  | _ => none

end Act

/-- The text frames client `i` sent. -/
def framesOf (i : ℕ) (acts : List (Act X)) : List String := acts.filterMap (Act.frame? i)

def nodesOf (i : ℕ) (acts : List (Act X)) : List (Node X) := acts.filterMap (Act.node? i)

/-- The frames that were handled, each with the node it met. -/
def handledOf (i : ℕ) (acts : List (Act X)) : List (String × Node X) :=
  (framesOf i acts).zip (nodesOf i acts)

def Connection.inHand (conn : Connection) : List String :=
  match conn.phase with
  | .handling text => [text]
  | _ => []

/-- The receive loop is over. -/
def Connection.left (conn : Connection) : Bool :=
  match conn.phase with
  | .reading | .handling _ => false
  | .joining | .returned | .panicked => true

namespace System

def inHand (s : System) (i : ℕ) : List String := (s.connections[i]?.map Connection.inHand).getD []

def hasLeft (s : System) (i : ℕ) : Bool := (s.connections[i]?.map Connection.left).getD false

end System

/-- Wherever it is handled, the frame is answered with this one text. -/
def Replies (i : ℕ) (frame : String × Node X) (str : String) : Prop :=
  ∀ w : Shared, w.Healthy → (w.channels i).rxOpen = true →
    ∃ w', (handleText frame.1 (some frame.2) ⟨i,.clientTxClone⟩).run w = .ok true w' ∧
      repliesIn (w'.channels i) = repliesIn (w.channels i) ++ [str]

def Panics (i : ℕ) (frame : String × Node X) : Prop :=
  ∀ w : Shared, w.Healthy →
    (handleText frame.1 (some frame.2) ⟨i,.clientTxClone⟩).run w = .error .panic w

/-- Every frame of the client is handled in its turn or in hand, and the replies answer the
handled ones, one each and in order. Only the last one may be without: its handling panicked,
or its receiver was gone, and the loop was left. -/
structure RepliesInOrder (acts : List (Act X)) (s : System) (i : ℕ) : Prop where
  frames : framesOf i acts = (handledOf i acts).map Prod.fst ++ s.inHand i
  nodes : (nodesOf i acts).length = (handledOf i acts).length
  replies : ∃ answered unanswered, handledOf i acts = answered ++ unanswered ∧
    List.Forall₂ (Replies i) answered (repliesIn (s.relay.shared.channels i)) ∧
    (unanswered = [] ∨ ∃ last, unanswered = [last] ∧ s.hasLeft i = true ∧
      (Panics i last ∨ (s.relay.shared.channels i).rxOpen = false))

theorem framesOf_snoc (i : ℕ) (acts : List (Act X)) (a : Act X) :
    framesOf i (acts ++ [a]) = framesOf i acts ++ (a.frame? i).toList := by
  cases h : a.frame? i <;> simp [framesOf,h]

theorem nodesOf_snoc (i : ℕ) (acts : List (Act X)) (a : Act X) :
    nodesOf i (acts ++ [a]) = nodesOf i acts ++ (a.node? i).toList := by
  cases h : a.node? i <;> simp [nodesOf,h]

theorem Answered.channels {text : String} {client : Option (Node X)} {tx : Sender} {reply : JsonRpc}
    {changes : List Change} (h : Answered text client tx reply changes) (w : Shared) (d : ℕ) :
    repliesIn ((w.applyAll changes).channels d) = repliesIn (w.channels d) ∧
      ((w.applyAll changes).channels d).rxOpen = (w.channels d).rxOpen := by
  cases h with
  | unparsed | failed => exact ⟨rfl,rfl⟩
  | served hp hr hs hok hreply => exact hs.channels w d

/-! ## Steps of other tasks -/

/-- The channel got no reply, and is not opened again. -/
structure Shared.Keeps (c : ℕ) (w w' : Shared) : Prop where
  replies : repliesIn (w'.channels c) = repliesIn (w.channels c)
  closed : (w.channels c).rxOpen = false → (w'.channels c).rxOpen = false

theorem Shared.Keeps.refl (c : ℕ) (w : Shared) : w.Keeps c w := ⟨rfl,id⟩

theorem Shared.Keeps.trans {c : ℕ} {w₁ w₂ w₃ : Shared} (h : w₁.Keeps c w₂) (h' : w₂.Keeps c w₃) :
    w₁.Keeps c w₃ :=
  ⟨h'.replies.trans h.replies,fun hc => h'.closed (h.closed hc)⟩

/-- Only a frame of its own client adds a reply to a channel. -/
theorem RelayState.step_keeps (hX : X.RenderTotal) (network : Network) {s : RelayState}
    (hw : s.shared.Healthy) {e : Event X} {c : ℕ}
    (h : ∀ tx text node, e = .frame tx text node → tx.chan ≠ c) :
    s.shared.Keeps c (step network s e).shared := by
  refine ⟨?_,fun hc => ((step_extends hX network hw e c).2 hc).1⟩
  obtain ⟨changes,seen',hc,hs⟩ := step_caused hX network hw e
  have hnone : (addedAll c s.shared changes).filter (fun e => decide (e.origin = .reply)) = [] := by
    rw [List.filter_eq_nil_iff]
    intro entry hmem hreply
    rcases mem_addedAll hmem with ⟨t,k,-,ho⟩ | ⟨tx,htx,hchan,-⟩
    · rw [ho] at hreply
      cases hreply
    · obtain ⟨tx',frame,node,reply,changes',hframe,hchan',-⟩ := hc.replies htx
      exact h tx' frame node (List.mem_singleton.mp hframe).symm (hchan'.trans hchan)
  rw [hs,repliesIn,applyAll_log,List.filter_append,hnone,List.append_nil]
  rfl

namespace System

/-- A step of another task, as client `i` sees it. -/
structure Keeps (i : ℕ) (s s' : System) : Prop where
  inHand : s'.inHand i = s.inHand i
  hasLeft : s.hasLeft i = true → s'.hasLeft i = true
  shared : s.relay.shared.Keeps i s'.relay.shared

theorem inHand_eq {s : System} {i : ℕ} {conn : Connection} (h : s.connections[i]? = some conn) :
    s.inHand i = conn.inHand ∧ s.hasLeft i = conn.left := by
  simp [inHand,hasLeft,h]

theorem inHand_reading {s : System} {i : ℕ} {conn : Connection}
    (h : s.connections[i]? = some conn) (hp : conn.phase = .reading) :
    s.inHand i = [] ∧ s.hasLeft i = false := by
  obtain ⟨hhand,hleft⟩ := inHand_eq h
  rw [hhand,hleft,Connection.inHand,Connection.left,hp]
  exact ⟨rfl,rfl⟩

theorem inHand_handling {s : System} {i : ℕ} {conn : Connection} {frame : String}
    (h : s.connections[i]? = some conn) (hp : conn.phase = .handling frame) :
    s.inHand i = [frame] ∧ s.hasLeft i = false := by
  obtain ⟨hhand,hleft⟩ := inHand_eq h
  rw [hhand,hleft,Connection.inHand,Connection.left,hp]
  exact ⟨rfl,rfl⟩

theorem getElem?_set_self {s : System} {i : ℕ} {old : Connection}
    (h : s.connections[i]? = some old) (conn : Connection) :
    (s.connections.set i conn)[i]? = some conn :=
  List.getElem?_set_self (List.getElem?_eq_some_iff.mp h).1

theorem Keeps.connections {s s' : System} {i : ℕ}
    (h : s'.connections[i]? = s.connections[i]?)
    (hw : s.relay.shared.Keeps i s'.relay.shared) : Keeps i s s' where
  inHand := by rw [System.inHand,System.inHand,h]
  hasLeft := by
    rw [System.hasLeft,System.hasLeft,h]
    exact id
  shared := hw

theorem Keeps.accepted (s : System) (i : ℕ) :
    Keeps i s { s with connections := s.connections ++ [{}] } := by
  by_cases hi : i < s.connections.length
  · exact Keeps.connections (List.getElem?_append_left hi) (Shared.Keeps.refl i _)
  · have hnone : s.connections[i]? = none := List.getElem?_eq_none (by omega)
    refine ⟨?_,?_,Shared.Keeps.refl i _⟩
    · simp only [System.inHand,hnone,List.getElem?_append_right (Nat.le_of_not_lt hi)]
      cases i - s.connections.length <;> rfl
    · simp [System.hasLeft,hnone]

/-- A move that takes no frame and handles none. -/
theorem Keeps.moved {s s' : System} {i j : ℕ} {old conn : Connection}
    (hold : s.connections[j]? = some old) (hc : s'.connections = s.connections.set j conn)
    (hhand : conn.inHand = old.inHand) (hleft : old.left = true → conn.left = true)
    (hw : s.relay.shared.Keeps i s'.relay.shared) : Keeps i s s' := by
  by_cases hij : j = i
  · subst hij
    have hnew : s'.connections[j]? = some conn := by
      rw [hc]
      exact getElem?_set_self hold conn
    refine ⟨?_,?_,hw⟩
    · rw [(inHand_eq hnew).1,(inHand_eq hold).1,hhand]
    · rw [(inHand_eq hnew).2,(inHand_eq hold).2]
      exact hleft
  · exact Keeps.connections (by rw [hc,List.getElem?_set_ne hij]) hw

/-- A step brings a frame of client `i`, handles one, or is of another task. -/
theorem step_client (hX : X.RenderTotal) {network : Network} {s s' : System}
    (hw : s.relay.shared.Healthy) {a : Act X} (h : s.step network a = some s') (i : ℕ) :
    (∃ conn frame, s.connections[i]? = some conn ∧ conn.phase = .reading ∧ a = .text i frame ∧
      s' = s.setConnection i { conn with phase := .handling frame }) ∨
    (∃ conn frame node, s.connections[i]? = some conn ∧ conn.phase = .handling frame ∧
      a = .handle i node ∧ s' = s.handle network i conn frame node) ∨
    (a.frame? i = none ∧ a.node? i = none ∧ Keeps i s s') := by
  have hquiet : ∀ e : Event X, (∀ tx text node, e ≠ .frame tx text node) →
      s.relay.shared.Keeps i (s.relay.step network e).shared := by
    intro e he
    exact RelayState.step_keeps hX network hw fun tx text node heq => absurd heq (he tx text node)
  cases step_steps h with
  | accept =>
    exact Or.inr (Or.inr ⟨rfl,rfl,Keeps.accepted s i⟩)
  | @text j conn hc hp frame =>
    by_cases hij : j = i
    · subst hij
      exact Or.inl ⟨conn,frame,hc,hp,rfl,rfl⟩
    · refine Or.inr (Or.inr ⟨if_neg hij,rfl,?_⟩)
      exact Keeps.connections (List.getElem?_set_ne hij) (Shared.Keeps.refl i _)
  | otherFrame hc hp => exact Or.inr (Or.inr ⟨rfl,rfl,Keeps.connections rfl (Shared.Keeps.refl i _)⟩)
  | @handle j conn frame hc hp node =>
    by_cases hij : j = i
    · subst hij
      exact Or.inr (Or.inl ⟨conn,frame,node,hc,hp,rfl,rfl⟩)
    · refine Or.inr (Or.inr ⟨rfl,if_neg hij,?_⟩)
      refine Keeps.connections (List.getElem?_set_ne hij) ?_
      refine RelayState.step_keeps hX network hw fun tx text node heq => ?_
      cases heq
      exact hij
  | stop hc hp =>
    refine Or.inr (Or.inr ⟨rfl,rfl,Keeps.moved hc rfl ?_ ?_ (Shared.Keeps.refl i _)⟩)
    · simp [Connection.inHand,Connection.leaveLoop,hp]
    · simp [Connection.left,Connection.leaveLoop]
  | forward hc hf => exact Or.inr (Or.inr ⟨rfl,rfl,Keeps.connections rfl (hquiet _ (by simp))⟩)
  | @forwardFails j conn hc hf =>
    have hrecv : (s.relay.step network (.recv j : Event X)).shared.Healthy := hw
    refine Or.inr (Or.inr ⟨rfl,rfl,Keeps.moved hc rfl rfl id ?_⟩)
    exact (hquiet (.recv j) (by simp)).trans
      (RelayState.step_keeps hX network hrecv (e := .close j) (by simp))
  | drained hc hf hs =>
    exact Or.inr (Or.inr ⟨rfl,rfl,Keeps.moved hc rfl rfl id (hquiet _ (by simp))⟩)
  | join hc hp hf =>
    refine Or.inr (Or.inr ⟨rfl,rfl,Keeps.moved hc rfl ?_ ?_ (Shared.Keeps.refl i _)⟩)
    · simp [Connection.inHand,Connection.leave,hp]
    · simp [Connection.left,Connection.leave]
  | zmq hl msg => exact Or.inr (Or.inr ⟨rfl,rfl,Keeps.connections rfl (hquiet _ (by simp))⟩)

end System

/-! ## Replies in the order of the frames -/

theorem handleText_replies (hX : X.RenderTotal) (i : ℕ) (frame : String × Node X) :
    (∃ str, Replies i frame str ∧ ∀ w : Shared, w.Healthy → (w.channels i).rxOpen = false →
      ∃ w', (handleText frame.1 (some frame.2) ⟨i,.clientTxClone⟩).run w = .ok false w' ∧
        w.Keeps i w') ∨ Panics i frame := by
  rcases handleText_cases hX frame.1 (some frame.2) ⟨i,.clientTxClone⟩ with
    ⟨reply,changes,str,ha,hstr,hrun⟩ | ⟨j,hp,hrun⟩
  · refine Or.inl ⟨str,fun w hw hopen => ?_,fun w hw hclosed => ?_⟩
    · obtain ⟨hlog,hrx⟩ := ha.channels w i
      have hopen' := hrx.trans hopen
      refine ⟨_,(hrun w hw).trans (by rw [hopen']),?_⟩
      rw [applyAll_append,← hlog]
      exact repliesIn_replied hopen' str
    · obtain ⟨hlog,hrx⟩ := ha.channels w i
      have hclosed' := hrx.trans hclosed
      refine ⟨_,(hrun w hw).trans (by rw [hclosed']),?_⟩
      have hsame : w.applyAll (changes ++ [.reply ⟨i,.clientTxClone⟩ str]) = w.applyAll changes := by
        rw [applyAll_append]
        simp [apply,replied,hclosed']
      rw [hsame]
      exact ⟨hlog,fun _ => hclosed'⟩
  · exact Or.inr fun w hw => (hrun w hw).2

theorem RelayState.step_frame_shared (network : Network) {s : RelayState} {tx : Sender}
    {text : String} {node : Node X} {goesOn : Bool} {w : Shared}
    (h : (handleText text (some node) tx).run s.shared = .ok goesOn w) :
    (s.step network (.frame tx text node)).shared = w := by
  simp only [RelayState.step,h]

theorem Connection.resume_inHand (conn : Connection)
    (result : EStateM.Result (Fail (Error X)) Shared Bool) : (conn.resume result).inHand = [] := by
  cases result with
  | ok goesOn w => cases goesOn <;> rfl
  | error f w => rfl

/-- The frame in hand is answered, or the loop is left without a reply. -/
theorem System.handle_outcome (hX : X.RenderTotal) (network : Network) {s : System}
    (hw : s.relay.shared.Healthy) {i : ℕ} {conn : Connection}
    (hc : s.connections[i]? = some conn) (frame : String) (node : Node X) :
    let s' := s.handle network i conn frame node
    let before := repliesIn (s.relay.shared.channels i)
    let after := repliesIn (s'.relay.shared.channels i)
    (∃ str, Replies i (frame,node) str ∧ after = before ++ [str]) ∨
      (after = before ∧ s'.hasLeft i = true ∧
        (Panics i (frame,node) ∨ (s'.relay.shared.channels i).rxOpen = false)) := by
  intro s' before after
  have hnext : s'.hasLeft i = (conn.resume ((handleText frame (some node)
      ⟨i,.clientTxClone⟩).run s.relay.shared)).left := (inHand_eq (getElem?_set_self hc _)).2
  rcases handleText_replies hX i (frame,node) with ⟨str,hreply,hgone⟩ | hpanic
  · cases hopen : (s.relay.shared.channels i).rxOpen with
    | true =>
      obtain ⟨w',hrun,hlog⟩ := hreply s.relay.shared hw hopen
      have hs : s'.relay.shared = w' := RelayState.step_frame_shared network hrun
      refine Or.inl ⟨str,hreply,?_⟩
      rw [← hlog,← hs]
    | false =>
      obtain ⟨w',hrun,hkeeps⟩ := hgone s.relay.shared hw hopen
      have hs : s'.relay.shared = w' := RelayState.step_frame_shared network hrun
      rw [← hs] at hkeeps
      refine Or.inr ⟨hkeeps.replies,?_,Or.inr (hkeeps.closed hopen)⟩
      rw [hnext,hrun]
      rfl
  · have hrun := hpanic s.relay.shared hw
    have hs : s'.relay = s.relay := by
      simp only [s',System.handle,RelayState.step,hrun,hw.unwind]
    refine Or.inr ⟨?_,?_,Or.inl hpanic⟩
    · simp only [after,before,hs]
    · rw [hnext,hrun]
      rfl

namespace RepliesInOrder
variable {acts : List (Act X)} {s s' : System} {i : ℕ}

theorem start (txCacheSize : ℕ) (i : ℕ) :
    RepliesInOrder ([] : List (Act X)) (System.start txCacheSize) i where
  frames := rfl
  nodes := rfl
  replies := ⟨[],[],rfl,.nil,Or.inl rfl⟩

/-- While the loop goes on, every handled frame is answered. -/
theorem answered (h : RepliesInOrder acts s i) (hleft : s.hasLeft i = false) :
    List.Forall₂ (Replies i) (handledOf i acts) (repliesIn (s.relay.shared.channels i)) := by
  obtain ⟨answered,unanswered,hsplit,hall,hlast⟩ := h.replies
  rcases hlast with rfl | ⟨last,-,hl,-⟩
  · rwa [hsplit,List.append_nil]
  · rw [hleft] at hl
    cases hl

theorem length_handledOf (h : RepliesInOrder acts s i) :
    ((handledOf i acts).map Prod.fst).length = (nodesOf i acts).length := by
  rw [List.length_map,h.nodes]

theorem handledOf_text (h : RepliesInOrder acts s i) (hnow : s.inHand i = []) (frame : String) :
    handledOf i (acts ++ [.text i frame]) = handledOf i acts := by
  have hlen : (framesOf i acts).length = (nodesOf i acts).length := by
    rw [h.frames,hnow,List.append_nil,h.length_handledOf]
  calc handledOf i (acts ++ [.text i frame])
      = (framesOf i acts ++ [frame]).zip (nodesOf i acts ++ []) := by
        simp [handledOf,framesOf_snoc,nodesOf_snoc,Act.frame?,Act.node?]
    _ = handledOf i acts := by
        rw [List.zip_append hlen,List.zip_nil_right,List.append_nil,handledOf]

theorem handledOf_handle (h : RepliesInOrder acts s i) {frame : String}
    (hnow : s.inHand i = [frame]) (node : Node X) :
    handledOf i (acts ++ [.handle i node]) = handledOf i acts ++ [(frame,node)] := by
  have hframes : framesOf i acts = (handledOf i acts).map Prod.fst ++ [frame] := by
    rw [h.frames,hnow]
  have hbefore : ((handledOf i acts).map Prod.fst).zip (nodesOf i acts) = handledOf i acts := by
    calc ((handledOf i acts).map Prod.fst).zip (nodesOf i acts)
        = ((handledOf i acts).map Prod.fst ++ [frame]).zip (nodesOf i acts ++ []) := by
          rw [List.zip_append h.length_handledOf,List.zip_nil_right,List.append_nil]
      _ = handledOf i acts := by rw [← hframes,List.append_nil,handledOf]
  calc handledOf i (acts ++ [.handle i node])
      = ((handledOf i acts).map Prod.fst ++ [frame]).zip (nodesOf i acts ++ [node]) := by
        rw [← hframes,handledOf]
        simp [framesOf_snoc,nodesOf_snoc,Act.frame?,Act.node?]
    _ = handledOf i acts ++ [(frame,node)] := by
        rw [List.zip_append h.length_handledOf,hbefore]
        rfl

theorem other (h : RepliesInOrder acts s i) {a : Act X} (hf : a.frame? i = none)
    (hn : a.node? i = none) (hk : s.Keeps i s') : RepliesInOrder (acts ++ [a]) s' i := by
  have hframes : framesOf i (acts ++ [a]) = framesOf i acts := by simp [framesOf_snoc,hf]
  have hnodes : nodesOf i (acts ++ [a]) = nodesOf i acts := by simp [nodesOf_snoc,hn]
  have hhandled : handledOf i (acts ++ [a]) = handledOf i acts := by
    rw [handledOf,hframes,hnodes,handledOf]
  refine ⟨?_,?_,?_⟩
  · rw [hframes,hhandled,hk.inHand,h.frames]
  · rw [hnodes,hhandled,h.nodes]
  · obtain ⟨answered,unanswered,hsplit,hall,hlast⟩ := h.replies
    refine ⟨answered,unanswered,hhandled.trans hsplit,?_,?_⟩
    · rw [hk.shared.replies]
      exact hall
    · rcases hlast with rfl | ⟨last,rfl,hleft,hwhy⟩
      · exact Or.inl rfl
      · exact Or.inr ⟨last,rfl,hk.hasLeft hleft,hwhy.imp_right hk.shared.closed⟩

theorem text (h : RepliesInOrder acts s i) {conn : Connection}
    (hc : s.connections[i]? = some conn) (hp : conn.phase = .reading) (frame : String) :
    RepliesInOrder (acts ++ [.text i frame])
      (s.setConnection i { conn with phase := .handling frame }) i := by
  obtain ⟨hnow,hleft⟩ := System.inHand_reading hc hp
  have hnext := System.inHand_handling (s := s.setConnection i { conn with phase := .handling frame })
    (System.getElem?_set_self hc _) rfl
  have hhandled := h.handledOf_text hnow frame
  refine ⟨?_,?_,⟨handledOf i acts,[],?_,h.answered hleft,Or.inl rfl⟩⟩
  · rw [hhandled,hnext.1,framesOf_snoc,h.frames,hnow,List.append_nil]
    simp [Act.frame?]
  · rw [hhandled,← h.nodes]
    simp [nodesOf_snoc,Act.node?]
  · rw [hhandled,List.append_nil]

theorem handle (hX : X.RenderTotal) (h : RepliesInOrder acts s i) (hw : s.relay.shared.Healthy)
    {conn : Connection} {frame : String} (hc : s.connections[i]? = some conn)
    (hp : conn.phase = .handling frame) (network : Network) (node : Node X) :
    RepliesInOrder (acts ++ [.handle i node]) (s.handle network i conn frame node) i := by
  obtain ⟨hnow,hleft⟩ := System.inHand_handling hc hp
  have hhandled := h.handledOf_handle hnow node
  have hall := h.answered hleft
  have hnext : (s.handle network i conn frame node).inHand i = [] :=
    (System.inHand_eq (System.getElem?_set_self hc _)).1.trans (conn.resume_inHand _)
  refine ⟨?_,?_,?_⟩
  · rw [hhandled,hnext,framesOf_snoc,h.frames,hnow,List.map_append,List.append_nil]
    simp [Act.frame?]
  · rw [hhandled,nodesOf_snoc,List.length_append,List.length_append,h.nodes]
    simp [Act.node?]
  rcases System.handle_outcome hX network hw hc frame node with
    ⟨str,hreply,hlog⟩ | ⟨hlog,hgone,hwhy⟩
  · refine ⟨handledOf i acts ++ [(frame,node)],[],?_,?_,Or.inl rfl⟩
    · rw [hhandled,List.append_nil]
    · rw [hlog]
      exact List.rel_append hall (.cons hreply .nil)
  · refine ⟨handledOf i acts,[(frame,node)],hhandled,?_,Or.inr ⟨_,rfl,hgone,hwhy⟩⟩
    rw [hlog]
    exact hall

end RepliesInOrder

theorem System.run_repliesInOrder (hX : X.RenderTotal) {network : Network} {txCacheSize : ℕ}
    {acts : List (Act X)} {s : System}
    (h : Machine.run (step network) (start txCacheSize) acts = some s) :
    ∀ i, RepliesInOrder acts s i := by
  refine (Machine.run_invariant (P := fun past s => ∀ i, RepliesInOrder past s i)
    (RepliesInOrder.start txCacheSize) ?_ h).2
  intro past s a s' hreach hin hs i
  have hw := reachable_healthy hX hreach
  rcases step_client hX hw hs i with ⟨conn,frame,hc,hp,rfl,rfl⟩ |
    ⟨conn,frame,node,hc,hp,rfl,rfl⟩ | ⟨hf,hn,hk⟩
  · exact (hin i).text hc hp frame
  · exact (hin i).handle hX hw hc hp network node
  · exact (hin i).other hf hn hk

end NexusRelay
