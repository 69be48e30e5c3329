import NexusRelay.Delivery.History
import NexusRelay.Delivery.Service

/-! # The relay is the service

The registry, its lazily pruned vectors, the channels and the cache against the mailboxes and
the announcements. A registry and its channels show a mailbox to each client: what was put into
the channel, how far it is read, and while it is open how often it stands under each topic.
-/
namespace NexusRelay
open Shared
variable {X : Deps}

/-- The mailbox the shared state shows to client `c`. -/
structure Shared.Shows (w : Shared) (c : ℕ) (b : Mailbox Topic String) : Prop where
  texts : (w.channels c).log.map Entry.text = b.inbox
  received : (w.channels c).received = b.read.length
  rxOpen : (w.channels c).rxOpen = b.isOpen
  topics : b.isOpen = true → ∀ t,
    (w.registry.entryOrDefault t).countP (fun s => decide (s.chan = c)) = b.topics.count t

def Shared.Change.action : Change → ServiceAction
  | .subscribe t c => .join t c
  | .publish t m => .post t m
  | .reply tx text => .tell tx.chan text
  | .take c => .read c
  | .close c => .leave c

namespace Shared.Shows
variable {w : Shared} {c : ℕ} {b : Mailbox Topic String}

theorem start (c : ℕ) : Shared.start.Shows c {} where
  texts := rfl
  received := rfl
  rxOpen := rfl
  topics _ _ := rfl

theorem subscribed (h : w.Shows c b) (t : Topic) (d : ℕ) :
    (w.subscribed t d).Shows c (b.step c (.join t d)) := by
  have hcount : ∀ t', ((w.subscribed t d).registry.entryOrDefault t').countP
      (fun s => decide (s.chan = c)) = (w.registry.entryOrDefault t').countP
      (fun s => decide (s.chan = c)) + if t' = t ∧ d = c then 1 else 0 := by
    intro t'
    simp only [Shared.subscribed,TopicRegistry.subscribe,TopicRegistry.entryOrDefault_insert]
    by_cases ht : t' = t
    · subst ht
      rw [if_pos rfl,List.countP_append,List.countP_singleton]
      by_cases hd : d = c
      · simp [nextSender,hd]
      · simp [nextSender,hd]
    · simp [ht]
  by_cases hd : d = c
  · rw [Mailbox.step,if_pos hd]
    refine ⟨h.texts,h.received,h.rxOpen,fun ho t' => ?_⟩
    rw [hcount,h.topics ho,Multiset.count_cons]
    simp [hd]
  · rw [Mailbox.step,if_neg hd]
    refine ⟨h.texts,h.received,h.rxOpen,fun ho t' => ?_⟩
    rw [hcount,h.topics ho]
    simp [hd]

/-- A publication reaches the client once for each time it stands under the topic. -/
theorem published (h : w.Shows c b) (t : Topic) (m : String) :
    (w.published t m).Shows c (b.step c (.post t m)) := by
  have hopen : ((w.published t m).channels c).rxOpen = (w.channels c).rxOpen := by
    rw [published_channels]
    rfl
  have hall : onChannel c (fun _ => true) = fun s => decide (s.chan = c) :=
    funext fun s => Bool.and_true _
  have hkept : b.isOpen = true → ∀ t', (w.receivers t').countP (fun s => decide (s.chan = c)) =
      b.topics.count t' := by
    intro ho t'
    rw [receivers,← hall,countP_live_of_open (h.rxOpen.trans ho),hall]
    exact h.topics ho t'
  have hnew : (deliveries t m (w.receivers t) c).map Entry.text =
      if b.isOpen then List.replicate (b.topics.count t) m else [] := by
    have htext : (deliveries t m (w.receivers t) c).map Entry.text =
        List.replicate ((w.receivers t).countP fun s => decide (s.chan = c)) m := by
      rw [deliveries,List.map_map,List.countP_eq_length_filter]
      exact List.map_const' ..
    rw [htext]
    cases ho : b.isOpen with
    | true => rw [hkept ho,if_pos rfl]
    | false =>
      rw [receivers,← hall,countP_live_of_closed (h.rxOpen.trans ho)]
      rfl
  refine ⟨?_,?_,?_,fun ho t' => ?_⟩
  · rw [published_channels,Channels.deliver_log,List.map_append,h.texts,hnew,Mailbox.step,
      Mailbox.put_inbox]
  · rw [published_channels]
    refine h.received.trans ?_
    rw [Mailbox.step,Mailbox.put]
    split <;> rfl
  · rw [hopen,h.rxOpen,Mailbox.step,Mailbox.put_isOpen]
  · rw [Mailbox.step,Mailbox.put_isOpen] at ho
    rw [published_registry,TopicRegistry.entryOrDefault_insert,Mailbox.step,Mailbox.put_topics]
    split
    · next ht => rw [ht,hkept ho]
    · exact h.topics ho t'

theorem congr {w' : Shared} (h : w.Shows c b) (hr : w'.registry = w.registry)
    (hch : w'.channels c = w.channels c) : w'.Shows c b where
  texts := by rw [hch]; exact h.texts
  received := by rw [hch]; exact h.received
  rxOpen := by rw [hch]; exact h.rxOpen
  topics ho t := by rw [hr]; exact h.topics ho t

theorem replied (h : w.Shows c b) (tx : Sender) (text : String) :
    (w.replied tx text).Shows c (b.step c (.tell tx.chan text)) := by
  have hregistry := w.replied_registry tx text
  by_cases hc : tx.chan = c
  · subst hc
    rw [Mailbox.step,if_pos rfl]
    cases ho : b.isOpen with
    | false =>
      have hsame : w.replied tx text = w := if_neg (by simp [h.rxOpen,ho])
      have hput : b.put [text] = b := by simp [Mailbox.put,ho]
      rw [hsame,hput]
      exact h
    | true =>
      have hopen : (w.channels tx.chan).rxOpen = true := h.rxOpen.trans ho
      have hch : (w.replied tx text).channels tx.chan =
          (w.channels tx.chan).put ⟨text,.reply⟩ := by simp [Shared.replied,hopen]
      have hput : b.put [text] = { b with unread := b.unread ++ [text] } := by simp [Mailbox.put,ho]
      refine ⟨?_,?_,?_,fun _ t => ?_⟩
      · rw [hch,Mailbox.put_inbox,ho,← h.texts]
        simp [Channel.put]
      · rw [hch,hput]
        exact h.received
      · rw [hch,Mailbox.put_isOpen]
        exact h.rxOpen
      · rw [hregistry,Mailbox.put_topics]
        exact h.topics ho t
  · rw [Mailbox.step,if_neg hc]
    refine h.congr hregistry ?_
    have hc' : c ≠ tx.chan := fun e => hc e.symm
    unfold Shared.replied
    split
    · exact Function.update_of_ne hc' ..
    · rfl

theorem taken (h : w.Shows c b) (d : ℕ) :
    (w.apply (.take d)).Shows c (b.step c (.read d)) := by
  by_cases hd : d = c
  · subst hd
    have hlen : (w.channels d).log.length = b.read.length + b.unread.length := by
      rw [← List.length_map (f := Entry.text),h.texts,Mailbox.inbox,List.length_append]
    have hch : (w.apply (.take d)).channels d = (w.channels d).take := by
      simp [Shared.apply,Channels.take]
    rw [Mailbox.step,if_pos rfl]
    cases hu : b.unread with
    | nil =>
      have hsame : (w.channels d).take = w.channels d := by
        rw [hu,List.length_nil] at hlen
        refine if_neg ?_
        rw [h.received]
        omega
      have hnext : b.next = b := by simp [Mailbox.next,hu]
      rw [hnext]
      exact h.congr rfl (hch.trans hsame)
    | cons m rest =>
      have hmore : (w.channels d).received < (w.channels d).log.length := by
        rw [hlen,h.received,hu,List.length_cons]
        omega
      have hnext : b.next = { b with read := b.read ++ [m], unread := rest } := by
        simp [Mailbox.next,hu]
      refine ⟨?_,?_,?_,fun ho t => ?_⟩
      · rw [hch,Channel.take_log,Mailbox.next_inbox]
        exact h.texts
      · rw [hch,Channel.take,if_pos hmore,hnext,List.length_append,← h.received]
        rfl
      · rw [hch,Channel.take_rxOpen,hnext]
        exact h.rxOpen
      · rw [hnext] at ho ⊢
        exact h.topics ho t
  · rw [Mailbox.step,if_neg hd]
    have hc : c ≠ d := fun e => hd e.symm
    exact h.congr rfl (by simp [Shared.apply,Channels.take,hc])

theorem closed (h : w.Shows c b) (d : ℕ) :
    (w.apply (.close d)).Shows c (b.step c (.leave d)) := by
  by_cases hd : d = c
  · subst hd
    have hch : (w.apply (.close d)).channels d = { w.channels d with rxOpen := false } := by
      simp [Shared.apply,Channels.close]
    rw [Mailbox.step,if_pos rfl]
    exact ⟨by rw [hch]; exact h.texts,by rw [hch]; exact h.received,by rw [hch],
      fun ho => by cases ho⟩
  · rw [Mailbox.step,if_neg hd]
    have hc : c ≠ d := fun e => hd e.symm
    exact h.congr rfl (by simp [Shared.apply,Channels.close,hc])

theorem apply (h : w.Shows c b) (x : Change) : (w.apply x).Shows c (b.step c x.action) := by
  cases x with
  | subscribe t d => exact h.subscribed t d
  | publish t m => exact h.published t m
  | reply tx text => exact h.replied tx text
  | take d => exact h.taken d
  | close d => exact h.closed d

theorem applyAll (h : w.Shows c b) (xs : List Change) :
    (w.applyAll xs).Shows c (b.run c (xs.map Change.action)) := by
  induction xs generalizing w b with
  | nil => exact h
  | cons x rest ih => exact ih (h.apply x)

end Shared.Shows

/-! ## Frames -/

theorem Served.answerRequest {request : NexusRequest X} {node : Node X} {c : ℕ}
    {response : NexusResponse} {changes : List Change}
    (h : Served request (some node) c response changes) {reply : JsonRpc}
    (hr : (response.toJsonRpc X : Fallible (Error X) JsonRpc) = .ok reply) :
    ∃ operation, NexusRelay.answerRequest request node = some ⟨reply,operation⟩ ∧
      changes.map Change.action = (operation.map (Operation.action c)).toList := by
  cases h with
  | @subscribe topic hm ht =>
    cases hr
    exact ⟨some (.subscribe topic),by simp [NexusRelay.answerRequest,hm,ht,success],rfl⟩
  | ping hm hp =>
    cases hr
    exact ⟨none,by simp [NexusRelay.answerRequest,hm,hp,success],rfl⟩
  | @proposal p v text hm hp hv ht =>
    cases hr
    have hchecked := validateProposal_eq_ok.mpr hv
    exact ⟨some (.publish (.validated (pairString X v)) text),
      by simp [NexusRelay.answerRequest,hm,hp,hchecked,ht,success],rfl⟩
  | @any a content text hm hp hc ht =>
    cases hr
    exact ⟨some (.publish (.unvalidated a.topic) text),
      by simp [NexusRelay.answerRequest,hm,hp,hc,ht,success],rfl⟩

theorem Refused.answerRequest {request : NexusRequest X} {node : Node X} {f : Fail (Error X)}
    (h : Refused request (some node) f) :
    NexusRelay.answerRequest request node = refusal f := by
  cases h with
  | topic hm ht => simp [NexusRelay.answerRequest,hm,ht]
  | content hm hp hc => simp [NexusRelay.answerRequest,hm,hp,hc]
  | proposal hm hp hv => simp [NexusRelay.answerRequest,hm,hp,hv]
  | text hm hp hv ht =>
    have hchecked := validateProposal_eq_ok.mpr hv
    simp [NexusRelay.answerRequest,hm,hp,hchecked,ht,refusal]
  | other hm hp =>
    cases hmethod : request.method with
    | subscribe => exact absurd hmethod hm
    | unsubscribe => simp [NexusRelay.answerRequest,hmethod]
    | publish =>
      obtain ⟨hping,hproposal,hany⟩ := hp hmethod
      cases hparams : request.params with
      | ping => exact absurd hparams hping
      | proposal p => exact absurd hparams (hproposal p)
      | any a => exact absurd hparams (hany a)
      | address _ | tx _ | pair _ | wallet _ | empty | pset _ =>
        simp [NexusRelay.answerRequest,hmethod,hparams]

/-- A message that fails in a healthy state is refused. -/
theorem answerText_of_fails (hX : X.RenderTotal) {text : String} {node : Node X} {tx : Sender}
    {j : JsonRpc} {f : Fail (Error X)} (hp : X.parse text = some j)
    (hf : (processMessage j (some node) tx).run Shared.start = .error f Shared.start) :
    answerText text node = refusal f := by
  rw [run_processMessage] at hf
  cases hr : NexusRequest.tryFrom X j with
  | error f' =>
    rw [hr] at hf
    cases hf
    simp only [answerText,hp,hr]
  | ok request =>
    simp only [hr] at hf
    simp only [answerText,hp,hr]
    rcases dispatch_cases hX request (some node) tx with ⟨response,changes,-,hrun⟩ | ⟨f',hf',hrun⟩
    · rw [hrun _ start_healthy] at hf
      cases hf
    · rw [hrun _ start_healthy] at hf
      cases hf
      exact hf'.answerRequest

theorem Answered.answerText (hX : X.RenderTotal) {text : String} {node : Node X} {tx : Sender}
    {reply : JsonRpc} {changes : List Change} (h : Answered text (some node) tx reply changes) :
    ∃ operation, NexusRelay.answerText text node = some ⟨reply,operation⟩ ∧
      changes.map Change.action = (operation.map (Operation.action tx.chan)).toList := by
  cases h with
  | unparsed hp => exact ⟨none,by simp [NexusRelay.answerText,hp],rfl⟩
  | served hp hr hs hok hreply =>
    obtain ⟨operation,hanswer,hactions⟩ := hs.answerRequest hreply
    exact ⟨operation,by simp only [NexusRelay.answerText,hp,hr,hanswer],hactions⟩
  | failed hp he => exact ⟨none,answerText_of_fails hX hp (he _ start_healthy),rfl⟩

/-! ## Messages -/

theorem parts_of {msg : List Bytes} {topic data : Bytes} (ht : msg[0]? = some topic)
    (hd : msg[1]? = some data) : ∃ rest, msg = topic :: data :: rest := by
  rcases msg with _ | ⟨t,_ | ⟨d,rest⟩⟩
  · cases ht
  · cases hd
  · cases ht
    cases hd
    exact ⟨rest,rfl⟩

def Notice.action (X : Deps) (m : Notice) : ServiceAction := .post m.topic (m.text X)

theorem Notice.map_action (network : Network) (place : Where) (tx : X.Transaction) :
    (notices X network place tx).map Change.action =
      (Notice.ofTransaction X network place tx).map (Notice.action X) := by
  rw [← Notice.map_publication,List.map_map]
  rfl

/-- A cache that holds the last announcements hides nothing of what a message means. -/
theorem Observed.actions {network : Network} {msg : List Bytes} {seen seen' : BoundedSet String}
    {result : Fallible (Error X) Unit} {changes : List Change}
    (h : Observed network msg seen result changes seen') {n : ℕ} (hn : 0 < n) {past : List String}
    (hseen : seen.Holds n past) :
    changes.map Change.action = (noticesOf X network n past msg).map (Notice.action X) ∧
      seen'.Holds n (past ++ announced (noticesOf X network n past msg)) := by
  have idle : noticesOf X network n past msg = [] →
      ([] : List Change).map Change.action = (noticesOf X network n past msg).map (Notice.action X) ∧
        seen.Holds n (past ++ announced (noticesOf X network n past msg)) := by
    intro hnone
    rw [hnone]
    exact ⟨rfl,by simpa [announced] using hseen⟩
  cases h with
  | missing hm =>
    refine idle ?_
    rcases msg with _ | ⟨t,_ | ⟨d,rest⟩⟩
    · rfl
    · rfl
    · simp at hm
  | @mempool data tx ht hd htx hnew =>
    obtain ⟨rest,rfl⟩ := parts_of ht hd
    have hmem : X.txidString (X.txid tx) ∉ past.rtake n := by
      intro hin
      rw [(hseen.contains_iff _).mpr hin] at hnew
      cases hnew
    have hmeans : noticesOf X network n past (rawtx :: data :: rest) =
        Notice.ofTransaction X network .mempool tx := by simp [noticesOf,htx,hmem]
    rw [hmeans,announced_mempool]
    exact ⟨Notice.map_action network .mempool tx,(hseen.insert_new hn hmem).2⟩
  | @known data tx ht hd htx hold =>
    obtain ⟨rest,rfl⟩ := parts_of ht hd
    have hmem := (hseen.contains_iff _).mp hold
    exact idle (by simp [noticesOf,htx,hmem])
  | badTx ht hd htx =>
    obtain ⟨rest,rfl⟩ := parts_of ht hd
    exact idle (by simp [noticesOf,htx])
  | @block data block ht hd hb =>
    obtain ⟨rest,rfl⟩ := parts_of ht hd
    have hmeans : noticesOf X network n past (rawblock :: data :: rest) =
        (X.txdata block).flatMap (Notice.ofTransaction X network .block) := by
      simp [noticesOf,rawblock_ne_rawtx,hb]
    rw [hmeans,announced_block,List.append_nil]
    refine ⟨?_,hseen⟩
    simp only [List.map_flatMap,Notice.map_action]
  | badBlock ht hd hb =>
    obtain ⟨rest,rfl⟩ := parts_of ht hd
    exact idle (by simp [noticesOf,rawblock_ne_rawtx,hb])
  | unknown ht hd htx hb =>
    obtain ⟨rest,rfl⟩ := parts_of ht hd
    exact idle (by simp [noticesOf,htx,hb])

/-! ## Runs -/

/-- What an event does to the relay is what it means to the service. -/
theorem Causes.actions (hX : X.RenderTotal) {network : Network} {seen seen' : BoundedSet String}
    {e : Event X} {changes : List Change} (h : Causes network seen e changes seen') {n : ℕ}
    (hn : 0 < n) {past : List String} (hseen : seen.Holds n past) :
    changes.map Change.action = Service.actions network n past e ∧
      seen'.Holds n (past ++ Service.announces network n past e) := by
  have hsame : seen.Holds n (past ++ []) := by rwa [List.append_nil]
  cases h with
  | answered ha hs =>
    obtain ⟨operation,hanswer,hactions⟩ := ha.answerText hX
    refine ⟨?_,hsame⟩
    simp only [Service.actions,hanswer,Option.map_some,Option.getD_some,Answer.actions,hs,
      List.map_append,hactions]
    rfl
  | panicked hp he =>
    have hnone := answerText_of_fails hX hp (he _ start_healthy)
    refine ⟨?_,hsame⟩
    simp only [Service.actions,hnone,refusal]
    rfl
  | zmq ho => exact ho.actions hn hseen
  | recv c | close c => exact ⟨rfl,hsame⟩

/-- The relay refines the service: after every run the registry and the channels show each client
the mailbox it has there, and the cache holds the last announcements. -/
theorem RelayState.run_shows (hX : X.RenderTotal) (network : Network) {n : ℕ} (hn : 0 < n)
    (events : List (Event X)) :
    (∀ c, (run network n events).shared.Shows c ((Service.run network n events).mailbox c)) ∧
      (run network n events).txsSeen.Holds n (Service.run network n events).announced := by
  refine (run_invariant network n hX (P := fun past s =>
    (∀ c, s.shared.Shows c ((Service.run network n past).mailbox c)) ∧
      s.txsSeen.Holds n (Service.run network n past).announced)
    ⟨Shared.Shows.start,BoundedSet.holds_new n⟩ ?_ events).2
  rintro past s e changes seen' - - ⟨hshows,hseen⟩ hc -
  obtain ⟨hactions,hholds⟩ := hc.actions hX hn hseen
  rw [Service.run_snoc,Service.step,← hactions]
  exact ⟨fun c => (hshows c).applyAll changes,hholds⟩

end NexusRelay
