import NexusRelay.Model.Listener

/-! # The notifications of the listener

What one message makes the listener publish, as a list of notifications that depends on
the parts of the message and on the cache, and on nothing else. The publications of a
list can be told from those of another one by a single subscriber.
-/
namespace NexusRelay
open Shared

inductive Notice where
  | tx (seen : TxSeen)
  | address (seen : AddressSeen)
  deriving DecidableEq, Repr

namespace Notice

def topic : Notice → Topic
  | .tx seen => .validated seen.txid
  | .address seen => .validated seen.address

@[simp] theorem topic_tx (seen : TxSeen) : (Notice.tx seen).topic = .validated seen.txid := rfl
@[simp] theorem topic_address (seen : AddressSeen) :
    (Notice.address seen).topic = .validated seen.address := rfl

def value : Notice → Value
  | .tx seen => seen.toValue
  | .address seen => seen.toValue

def where_ : Notice → Where
  | .tx seen => seen.where_
  | .address seen => seen.where_

/-- The same notification for another place. -/
def moved (place : Where) : Notice → Notice
  | .tx seen => .tx { seen with where_ := place }
  | .address seen => .address { seen with where_ := place }

variable (X : Deps)

def text (n : Notice) : String := noticeText X n.value

def publication (n : Notice) : Change := .publish n.topic (n.text X)

/-- The notifications of one transaction: its txid, then an address for each output that
has one, in the order of the outputs. -/
def ofTransaction (network : Network) (place : Where) (tx : X.Transaction) : List Notice :=
  let txid := X.txidString (X.txid tx)
  .tx ⟨txid,X.serializeHex tx,place⟩ :: (X.outputScripts tx).filterMap fun script =>
    (X.addressString script network.addressParams).map fun address =>
      .address ⟨address,txid,X.serializeHex tx,place⟩

variable {X}

theorem map_publication (network : Network) (place : Where) (tx : X.Transaction) :
    (ofTransaction X network place tx).map (publication X) = notices X network place tx := by
  simp only [ofTransaction,notices,List.map_cons,getOutputAddresses,List.map_filterMap]
  congr 1
  refine List.filterMap_congr fun script _ => ?_
  cases X.addressString script network.addressParams <;> rfl

/-- The confirmation of a transaction differs from its announcement in the place only. -/
theorem map_moved (network : Network) (place other : Where) (tx : X.Transaction) :
    (ofTransaction X network place tx).map (moved other) = ofTransaction X network other tx := by
  simp only [ofTransaction,List.map_cons,List.map_filterMap]
  congr 1
  refine List.filterMap_congr fun script _ => ?_
  cases X.addressString script network.addressParams <;> rfl

theorem where_ofTransaction {network : Network} {place : Where} {tx : X.Transaction} {n : Notice}
    (h : n ∈ ofTransaction X network place tx) : n.where_ = place := by
  rw [ofTransaction,List.mem_cons,List.mem_filterMap] at h
  rcases h with rfl | ⟨script,-,h⟩
  · rfl
  · obtain ⟨address,-,rfl⟩ := Option.map_eq_some_iff.mp h
    rfl

end Notice

/-! ## What a message does -/

variable {X : Deps}

variable (X) in
/-- In every healthy state the message ends with this result, makes exactly these
publications in this order, and leaves this cache. -/
def Performs (network : Network) (msg : List Bytes) (seen : BoundedSet String)
    (result : Fallible (Error X) Unit) (ns : List Notice) (seen' : BoundedSet String) : Prop :=
  ∀ w : Shared, w.Healthy → (processZmqMessage msg network).run (w,seen) =
    (Exec.ofFallible result).run (w.applyAll (ns.map (Notice.publication X)),seen')

theorem rawblock_ne_rawtx : rawblock ≠ rawtx := by decide +kernel

theorem performs_mempool (hX : X.RenderTotal) (network : Network) {msg : List Bytes}
    {seen : BoundedSet String} {data : Bytes} {tx : X.Transaction} (ht : msg[0]? = some rawtx)
    (hd : msg[1]? = some data) (htx : X.decodeTransaction data = .ok tx)
    (hnew : seen.contains (X.txidString (X.txid tx)) = false) :
    Performs X network msg seen (.ok ()) (Notice.ofTransaction X network .mempool tx)
      (seen.insert (X.txidString (X.txid tx))).2 := by
  intro w hw
  rw [Notice.map_publication]
  simp [processZmqMessage,ht,hd,htx,run_processTx hX hw,hnew]

theorem performs_known (hX : X.RenderTotal) (network : Network) {msg : List Bytes}
    {seen : BoundedSet String} {data : Bytes} {tx : X.Transaction} (ht : msg[0]? = some rawtx)
    (hd : msg[1]? = some data) (htx : X.decodeTransaction data = .ok tx)
    (hold : seen.contains (X.txidString (X.txid tx)) = true) :
    Performs X network msg seen (.ok ()) [] seen := by
  intro w hw
  simp [processZmqMessage,ht,hd,htx,run_processTx hX hw,hold]

theorem performs_block (hX : X.RenderTotal) (network : Network) {msg : List Bytes}
    (seen : BoundedSet String) {data : Bytes} {block : X.Block} (ht : msg[0]? = some rawblock)
    (hd : msg[1]? = some data) (hb : X.decodeBlock data = .ok block) :
    Performs X network msg seen (.ok ())
      ((X.txdata block).flatMap (Notice.ofTransaction X network .block)) seen := by
  intro w hw
  have hloop := Exec.run_forM (P := Healthy)
    (fun w tx hw => run_processBlockTx (ε := Error X) hX hw network tx)
    (fun w tx hw => hw.applyAll _) (X.txdata block) hw
  simp only [List.map_flatMap,Notice.map_publication]
  simp only [processZmqMessage,ht,hd,hb,rawblock_ne_rawtx,EStateM.run_bind,Fallible.unwrap_some,
    Exec.run_ofFallible_ok,Fallible.ofExcept_ok,Fallible.convert_ok,↓reduceIte,
    Exec.run_onFst,hloop,applyAll,List.foldl_flatMap]

/-- A message that carries no decodable transaction or block. -/
inductive Idle (msg : List Bytes) : Fallible (Error X) Unit → Prop
  | badTx {data : Bytes} {e : X.EncodeError} (ht : msg[0]? = some rawtx)
      (hd : msg[1]? = some data) (he : X.decodeTransaction data = .error e) :
      Idle msg (.error (.err (.elements e)))
  | badBlock {data : Bytes} {e : X.EncodeError} (ht : msg[0]? = some rawblock)
      (hd : msg[1]? = some data) (he : X.decodeBlock data = .error e) :
      Idle msg (.error (.err (.elements e)))
  | unknown {topic data : Bytes} (ht : msg[0]? = some topic) (hd : msg[1]? = some data)
      (htx : topic ≠ rawtx) (hb : topic ≠ rawblock) : Idle msg (.ok ())

theorem performs_idle (network : Network) {msg : List Bytes} (seen : BoundedSet String)
    {result : Fallible (Error X) Unit} (h : Idle msg result) :
    Performs X network msg seen result [] seen := by
  intro w _
  cases h with
  | badTx ht hd he => simp [processZmqMessage,ht,hd,he]
  | badBlock ht hd he => simp [processZmqMessage,ht,hd,he,rawblock_ne_rawtx]
  | unknown ht hd htx hb => simp [processZmqMessage,ht,hd,htx,hb]

/-- A message of at least two parts carries a transaction or a block, or nothing. -/
theorem message_cases {msg : List Bytes} (h : 2 ≤ msg.length) :
    (∃ data tx, msg[0]? = some rawtx ∧ msg[1]? = some data ∧
      X.decodeTransaction data = .ok tx) ∨
    (∃ data block, msg[0]? = some rawblock ∧ msg[1]? = some data ∧
      X.decodeBlock data = .ok block) ∨
    ∃ result : Fallible (Error X) Unit, Idle msg result := by
  obtain ⟨topic,ht⟩ : ∃ topic, msg[0]? = some topic := ⟨_,List.getElem?_eq_getElem (by omega)⟩
  obtain ⟨data,hd⟩ : ∃ data, msg[1]? = some data := ⟨_,List.getElem?_eq_getElem (by omega)⟩
  by_cases htx : topic = rawtx
  · subst htx
    cases hdec : X.decodeTransaction data with
    | ok tx => exact Or.inl ⟨data,tx,ht,hd,hdec⟩
    | error e => exact Or.inr (Or.inr ⟨_,.badTx ht hd hdec⟩)
  · by_cases hb : topic = rawblock
    · subst hb
      cases hdec : X.decodeBlock data with
      | ok block => exact Or.inr (Or.inl ⟨data,block,ht,hd,hdec⟩)
      | error e => exact Or.inr (Or.inr ⟨_,.badBlock ht hd hdec⟩)
    · exact Or.inr (Or.inr ⟨_,.unknown ht hd htx hb⟩)

theorem Idle.ne_panic {msg : List Bytes} {result : Fallible (Error X) Unit} (h : Idle msg result) :
    result ≠ .error .panic := by
  cases h <;> simp

theorem message_performs (hX : X.RenderTotal) (network : Network) {msg : List Bytes}
    (h : 2 ≤ msg.length) (seen : BoundedSet String) :
    ∃ (result : Fallible (Error X) Unit) (ns : List Notice) (seen' : BoundedSet String),
      result ≠ .error .panic ∧ Performs X network msg seen result ns seen' := by
  rcases message_cases (X := X) h with
    ⟨data,tx,ht,hd,hdec⟩ | ⟨data,block,ht,hd,hdec⟩ | ⟨result,hidle⟩
  · cases hc : seen.contains (X.txidString (X.txid tx)) with
    | true => exact ⟨_,_,_,by simp,performs_known hX network ht hd hdec hc⟩
    | false => exact ⟨_,_,_,by simp,performs_mempool hX network ht hd hdec hc⟩
  · exact ⟨_,_,_,by simp,performs_block hX network seen ht hd hdec⟩
  · exact ⟨_,_,_,hidle.ne_panic,performs_idle network seen hidle⟩

/-- The two parts are read before anything is checked. -/
theorem short_message_panics (network : Network) {msg : List Bytes} (h : msg.length < 2)
    (s : Shared × BoundedSet String) :
    (processZmqMessage (X := X) msg network).run s = .error .panic s := by
  rcases msg with _ | ⟨topic,_ | ⟨data,rest⟩⟩
  · rfl
  · rfl
  · simp only [List.length_cons] at h
    omega

/-! ## What the loop does -/

variable {TmqError : Type}

variable (X) in
/-- In every healthy state the loop gets through what the socket yields, makes exactly these
publications in this order, and leaves this cache. -/
def Hears (network : Network) (seen : BoundedSet String)
    (received : List (Except TmqError (List Bytes))) (ns : List Notice)
    (seen' : BoundedSet String) : Prop :=
  ∀ w : Shared, w.Healthy → (listen network received : Exec _ (Error X) Unit).run (w,seen) =
    .ok () (w.applyAll (ns.map (Notice.publication X)),seen')

theorem Hears.nil (network : Network) (seen : BoundedSet String) :
    Hears X network seen ([] : List (Except TmqError (List Bytes))) [] seen := fun _ _ => rfl

theorem Hears.snoc {network : Network} {seen seen₁ seen₂ : BoundedSet String}
    {received : List (Except TmqError (List Bytes))} {m : Except TmqError (List Bytes)}
    {ns ms : List Notice} (h : Hears X network seen received ns seen₁)
    (hm : Hears X network seen₁ [m] ms seen₂) :
    Hears X network seen (received ++ [m]) (ns ++ ms) seen₂ := by
  intro w hw
  rw [listen_append,h w hw]
  simp only [hm _ (hw.applyAll _),List.map_append,applyAll_append]

/-- The loop gets through a message that returns, with an error or without. -/
theorem Performs.hears {network : Network} {msg : List Bytes} {seen seen' : BoundedSet String}
    {result : Fallible (Error X) Unit} {ns : List Notice}
    (h : Performs X network msg seen result ns seen') (hr : result ≠ .error .panic) :
    Hears X network seen [(.ok msg : Except TmqError (List Bytes))] ns seen' := by
  intro w hw
  have hrun := h w hw
  rw [listen_singleton]
  simp only [receive,EStateM.run] at hrun ⊢
  simp only [hrun]
  cases result with
  | ok u => rfl
  | error f =>
    cases f with
    | err e => exact congrArg (fun w' => EStateM.Result.ok () (w',seen')) ((hw.applyAll _).unwind (Fail.err e))
    | panic => exact absurd rfl hr

theorem hears_socketError (network : Network) (seen : BoundedSet String) (e : TmqError) :
    Hears X network seen [(.error e : Except TmqError (List Bytes))] [] seen := fun _ _ => rfl

/-- A socket error, or a message without a decodable transaction or block. -/
def ignored (X : Deps) : Except TmqError (List Bytes) → Bool
  | .error _ => true
  | .ok msg =>
    match msg[0]?, msg[1]? with
    | some topic, some data =>
      if topic = rawtx then !(X.decodeTransaction data).isOk
      else if topic = rawblock then !(X.decodeBlock data).isOk
      else true
    | _, _ => false

theorem idle_of_ignored {msg : List Bytes}
    (h : ignored X (.ok msg : Except TmqError (List Bytes)) = true) :
    ∃ result : Fallible (Error X) Unit, Idle msg result := by
  simp only [ignored] at h
  split at h
  · next topic data ht hd =>
    by_cases htx : topic = rawtx
    · subst htx
      cases hdec : X.decodeTransaction data with
      | ok tx => simp [hdec,Except.isOk,Except.toBool] at h
      | error e => exact ⟨_,.badTx ht hd hdec⟩
    · by_cases hb : topic = rawblock
      · subst hb
        cases hdec : X.decodeBlock data with
        | ok block => simp [hdec,htx,Except.isOk,Except.toBool] at h
        | error e => exact ⟨_,.badBlock ht hd hdec⟩
      · exact ⟨_,.unknown ht hd htx hb⟩
  · cases h

theorem hears_ignored (network : Network) (seen : BoundedSet String)
    {m : Except TmqError (List Bytes)} (h : ignored X m = true) :
    Hears X network seen [m] [] seen := by
  cases m with
  | error e => exact hears_socketError network seen e
  | ok msg =>
    obtain ⟨result,hidle⟩ := idle_of_ignored h
    exact (performs_idle network seen hidle).hears hidle.ne_panic

/-- The loop gets through everything but a message of fewer than two parts. -/
theorem hears_received (hX : X.RenderTotal) (network : Network) (seen : BoundedSet String)
    {m : Except TmqError (List Bytes)} (h : ∀ msg, m = .ok msg → 2 ≤ msg.length) :
    ∃ ns seen', Hears X network seen [m] ns seen' := by
  cases m with
  | error e => exact ⟨[],seen,hears_socketError network seen e⟩
  | ok msg =>
    obtain ⟨result,ns,seen',hr,hperf⟩ := message_performs hX network (h msg rfl) seen
    exact ⟨ns,seen',hperf.hears hr⟩

/-! ## Publications can be observed -/

/-- A subscriber to each of the topics, over a channel nobody else uses. -/
def probe (topics : List Topic) : Shared :=
  { Shared.start with
    registry := ⟨topics.foldr (fun t r => r.insert t [⟨0,.subscription 0⟩]) ∅⟩ }

theorem probe_entryOrDefault {topics : List Topic} {t : Topic} (h : t ∈ topics) :
    (probe topics).registry.entryOrDefault t = [⟨0,.subscription 0⟩] := by
  suffices hl : Finmap.lookup t (probe topics).registry.topics = some [⟨0,.subscription 0⟩] by
    simp [TopicRegistry.entryOrDefault,hl]
  induction topics with
  | nil => cases h
  | cons t' rest ih =>
    by_cases ht : t = t'
    · subst ht
      simp [probe]
    · have hrest := ih ((List.mem_cons.mp h).resolve_left ht)
      simpa [probe,Finmap.lookup_insert_of_ne _ ht] using hrest

/-- The topic and the text of a publication that was delivered. -/
def Entry.publication? : Entry → Option (Topic × String)
  | ⟨text,.delivery t _⟩ => some (t,text)
  | ⟨_,.reply⟩ => none

/-- The subscriber hears every publication, with its topic and in order. -/
theorem probe_log (topics : List Topic) (ns : List Notice) (hns : ∀ n ∈ ns, n.topic ∈ topics)
    (w : Shared) (hopen : (w.channels 0).rxOpen = true)
    (hw : ∀ t ∈ topics, w.registry.entryOrDefault t = [⟨0,.subscription 0⟩]) :
    ((w.applyAll (ns.map (Notice.publication X))).channels 0).log = (w.channels 0).log ++
      ns.map fun n => ⟨n.text X,.delivery n.topic (.subscription 0)⟩ := by
  induction ns generalizing w with
  | nil => simp
  | cons n rest ih =>
    have hn := hw n.topic (hns n List.mem_cons_self)
    have hlive : w.receivers n.topic = [⟨0,.subscription 0⟩] := by
      simp [receivers,hn,Channels.live,hopen]
    have hrest := ih (fun m hm => hns m (List.mem_cons_of_mem n hm)) (w.published n.topic (n.text X))
      (by rw [published_channels]; exact hopen) fun t ht => by
        rw [published_registry,TopicRegistry.entryOrDefault_insert,hlive]
        split
        · rfl
        · exact hw t ht
    rw [List.map_cons,applyAll_cons]
    change ((w.published n.topic (n.text X)).applyAll _ |>.channels 0).log = _
    rw [hrest,published_channels,Channels.deliver_log,hlive]
    simp [deliveries]

/-- What a message publishes is determined: two lists of notifications that it performs agree
in their topics and texts. -/
theorem Performs.unique {network : Network} {msg : List Bytes} {seen seen₁ seen₂ : BoundedSet String}
    {result₁ result₂ : Fallible (Error X) Unit} {ns₁ ns₂ : List Notice}
    (h₁ : Performs X network msg seen result₁ ns₁ seen₁)
    (h₂ : Performs X network msg seen result₂ ns₂ seen₂) :
    (ns₁.map fun n => (n.topic,n.text X)) = ns₂.map fun n => (n.topic,n.text X) := by
  let topics := ns₁.map Notice.topic ++ ns₂.map Notice.topic
  have hw : (probe topics).Healthy := rfl
  have hheard : ∀ t ∈ topics, (probe topics).registry.entryOrDefault t = [⟨0,.subscription 0⟩] :=
    fun t ht => probe_entryOrDefault ht
  have heq := (h₁ _ hw).symm.trans (h₂ _ hw)
  have hlog : ((probe topics).applyAll (ns₁.map (Notice.publication X))).channels 0 =
      ((probe topics).applyAll (ns₂.map (Notice.publication X))).channels 0 := by
    cases result₁ <;> cases result₂ <;> simp at heq <;> simp [heq]
  have h := congrArg Channel.log hlog
  rw [probe_log topics ns₁ (fun n hn => List.mem_append_left _ (List.mem_map_of_mem hn)) _ rfl hheard,
    probe_log topics ns₂ (fun n hn => List.mem_append_right _ (List.mem_map_of_mem hn)) _ rfl hheard] at h
  have hmap := congrArg (List.filterMap Entry.publication?) (List.append_cancel_left h)
  simpa [List.filterMap_map,Function.comp_def,Entry.publication?] using hmap

end NexusRelay
