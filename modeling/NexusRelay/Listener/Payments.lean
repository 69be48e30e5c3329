import NexusRelay.Delivery.Subscribers

/-! # The notifications of payments

The mempool branch and the block branch publish the same notifications of a transaction,
up to the place, and only the first one asks the cache. An address is notified once for
every output that pays it.
-/
namespace NexusRelay
open Shared
variable {X : Deps}

/-- A block publishes the notifications of its transactions in order, whatever the cache
holds; a transaction entering the mempool publishes its own, unless the cache holds it; and
the two differ in the place only. -/
theorem confirmations_match_announcements (hX : X.RenderTotal) (network : Network)
    (seen : BoundedSet String) {msg : List Bytes} {data : Bytes} (hd : msg[1]? = some data) :
    (∀ block, msg[0]? = some rawblock → X.decodeBlock data = .ok block →
      Performs X network msg seen (.ok ())
        ((X.txdata block).flatMap (Notice.ofTransaction X network .block)) seen) ∧
    (∀ tx, msg[0]? = some rawtx → X.decodeTransaction data = .ok tx →
      (seen.contains (X.txidString (X.txid tx)) = false →
        Performs X network msg seen (.ok ()) (Notice.ofTransaction X network .mempool tx)
          (seen.insert (X.txidString (X.txid tx))).2) ∧
      (seen.contains (X.txidString (X.txid tx)) = true →
        Performs X network msg seen (.ok ()) [] seen)) ∧
    ∀ tx, Notice.ofTransaction X network .block tx =
      (Notice.ofTransaction X network .mempool tx).map (Notice.moved .block) := by
  refine ⟨?_,?_,?_⟩
  · intro block ht hb
    exact performs_block hX network seen ht hd hb
  · intro tx ht htx
    exact ⟨performs_mempool hX network ht hd htx,performs_known hX network ht hd htx⟩
  · intro tx
    exact (Notice.map_moved network .mempool .block tx).symm

def Sample.txSeen (tx : Sample.Transaction) (place : Where) : Notice :=
  .tx ⟨tx.txid,tx.hex,place⟩

def Sample.addressSeen (tx : Sample.Transaction) (place : Where) : Notice :=
  .address ⟨Sample.address,tx.txid,tx.hex,place⟩

/-- The payment is announced, and confirmed by the block, whose other transactions the cache does
not hold. -/
theorem address_announced :
    Performs Deps.sample .elementsRegtest [rawtx,Sample.txBytes] (.new 1000) (.ok ())
      [Sample.txSeen .payment .mempool,Sample.addressSeen .payment .mempool]
      ((BoundedSet.new 1000).insert Sample.txid).2 ∧
    Performs Deps.sample .elementsRegtest [rawblock,Sample.blockBytes]
      ((BoundedSet.new 1000).insert Sample.txid).2 (.ok ())
      [Sample.txSeen .coinbase .block,Sample.txSeen .payment .block,
        Sample.addressSeen .payment .block,Sample.txSeen .split .block,
        Sample.addressSeen .split .block,Sample.addressSeen .split .block]
      ((BoundedSet.new 1000).insert Sample.txid).2 := by
  have hd : [rawtx,Sample.txBytes][1]? = some Sample.txBytes := rfl
  have hb : [rawblock,Sample.blockBytes][1]? = some Sample.blockBytes := rfl
  exact ⟨((confirmations_match_announcements Deps.sample_renderTotal .elementsRegtest (.new 1000)
      hd).2.1 .payment rfl Sample.decodeTransaction_txBytes).1 rfl,
    (confirmations_match_announcements Deps.sample_renderTotal .elementsRegtest _ hb).1 () rfl
      Sample.decodeBlock_blockBytes⟩

/-! ## Repeated payments -/

/-- The message carries the transaction: a new one for the mempool, or one of a block, between
others. -/
inductive Carries (seen : BoundedSet String) (msg : List Bytes) :
    Where → List X.Transaction → X.Transaction → List X.Transaction → Prop
  | mempool {data : Bytes} {tx : X.Transaction} (ht : msg[0]? = some rawtx)
      (hd : msg[1]? = some data) (htx : X.decodeTransaction data = .ok tx)
      (hnew : seen.contains (X.txidString (X.txid tx)) = false) :
      Carries seen msg .mempool [] tx []
  | block {data : Bytes} {block : X.Block} {before after : List X.Transaction}
      {tx : X.Transaction} (ht : msg[0]? = some rawblock) (hd : msg[1]? = some data)
      (hb : X.decodeBlock data = .ok block) (htx : X.txdata block = before ++ tx :: after) :
      Carries seen msg .block before tx after

variable (X)

/-- How many outputs of the transaction pay the address. -/
def payments (network : Network) (tx : X.Transaction) (address : String) : ℕ :=
  (X.outputScripts tx).countP fun script =>
    decide (X.addressString script network.addressParams = some address)

def addressText (place : Where) (tx : X.Transaction) (address : String) : String :=
  noticeText X (AddressSeen.toValue ⟨address,X.txidString (X.txid tx),X.serializeHex tx,place⟩)

/-- What the notifications of some transactions deliver to one subscription to the address. -/
def heardAt (network : Network) (place : Where) (address : String) (txs : List X.Transaction) :
    List String :=
  ((txs.flatMap (Notice.ofTransaction X network place)).filter fun n =>
    decide (n.topic = .validated address)).map (Notice.text X)

/-- The notification by txid, which the subscription receives if the address is the txid. -/
def heardAsTx (place : Where) (tx : X.Transaction) (address : String) : List String :=
  if X.txidString (X.txid tx) = address then
    [noticeText X (TxSeen.toValue ⟨X.txidString (X.txid tx),X.serializeHex tx,place⟩)]
  else []

variable {X}

theorem addressNotices_heard (network : Network) (place : Where) (address : String)
    (tx : X.Transaction) (scripts : List X.Script) :
    ((scripts.filterMap fun script =>
      (X.addressString script network.addressParams).map fun a => Notice.address
        ⟨a,X.txidString (X.txid tx),X.serializeHex tx,place⟩).filter fun n =>
          decide (n.topic = .validated address)).map (Notice.text X) =
      List.replicate (scripts.countP fun script =>
        decide (X.addressString script network.addressParams = some address))
          (addressText X place tx address) := by
  induction scripts with
  | nil => rfl
  | cons script rest ih =>
    cases ha : X.addressString script network.addressParams with
    | none => simpa [ha] using ih
    | some a =>
      by_cases heq : a = address
      · subst heq
        simp only [List.filterMap_cons,ha,Option.map_some,Notice.topic_address,decide_true,
          List.filter_cons_of_pos,List.map_cons,ih,List.countP_cons_of_pos,List.replicate_succ]
        rfl
      · simpa [ha,heq] using ih

/-- A transaction is heard once for every output that pays the address. -/
theorem heardAt_singleton (network : Network) (place : Where) (address : String)
    (tx : X.Transaction) :
    heardAt X network place address [tx] = heardAsTx X place tx address ++
      List.replicate (payments X network tx address) (addressText X place tx address) := by
  have houtputs := addressNotices_heard network place address tx (X.outputScripts tx)
  simp only [heardAt,List.flatMap_cons,List.flatMap_nil,List.append_nil,Notice.ofTransaction,
    heardAsTx,payments,← houtputs]
  by_cases htxid : X.txidString (X.txid tx) = address
  · simp [htxid,Notice.text,Notice.value]
  · simp [htxid]

theorem heardAt_append (network : Network) (place : Where) (address : String)
    (xs ys : List X.Transaction) :
    heardAt X network place address (xs ++ ys) =
      heardAt X network place address xs ++ heardAt X network place address ys := by
  simp [heardAt]

/-- What a message delivers through one subscription to an address. -/
theorem received_message (hX : X.RenderTotal) (network : Network) {seen : BoundedSet String}
    {msg : List Bytes} {place : Where} {before after : List X.Transaction} {tx : X.Transaction}
    (hc : Carries seen msg place before tx after) {w : Shared} (hw : w.Healthy) {sender : Sender}
    {address : String} (hs : w.Subscribed sender (.validated address)) :
    ∃ w' seen', (processZmqMessage msg network).run (w,seen) =
        (.ok () (w',seen') : EStateM.Result (Fail (Error X)) _ _) ∧
      w'.received sender = w.received sender ++ (heardAt X network place address before ++
        heardAt X network place address [tx] ++ heardAt X network place address after) := by
  cases hc with
  | mempool ht hd htx hnew =>
    refine ⟨_,_,performs_mempool hX network ht hd htx hnew w hw,?_⟩
    rw [hs.received_notices]
    simp [heardAt]
  | block ht hd hb htx =>
    refine ⟨_,_,performs_block hX network seen ht hd hb w hw,?_⟩
    rw [hs.received_notices,htx,← heardAt_append,← heardAt_append,List.append_assoc]
    rfl

/-- Besides what its other transactions deliver, and its own notification by txid if that is
the address, the message delivers one notification if the transaction pays the address. -/
def NotifiedOnce (network : Network) (place : Where) (before : List X.Transaction)
    (tx : X.Transaction) (after : List X.Transaction) (address : String)
    (old new : List String) : Prop :=
  new = old ++ (heardAt X network place address before ++ (heardAsTx X place tx address ++
    if 0 < payments X network tx address then [addressText X place tx address] else []) ++
      heardAt X network place address after)

/-- For every message that carries a transaction, every healthy state and every single
subscription of an open client to an address: the transaction is notified once if it pays the
address, and not at all otherwise, exactly when at most one of its outputs pays it. -/
theorem notifiedOnce_iff (hX : X.RenderTotal) (network : Network) {seen : BoundedSet String}
    {msg : List Bytes} {place : Where} {before after : List X.Transaction} {tx : X.Transaction}
    (hc : Carries seen msg place before tx after) {w : Shared} (hw : w.Healthy) {sender : Sender}
    {address : String} (hs : w.Subscribed sender (.validated address)) :
    ∃ w' seen', (processZmqMessage msg network).run (w,seen) =
        (.ok () (w',seen') : EStateM.Result (Fail (Error X)) _ _) ∧
      (NotifiedOnce network place before tx after address (w.received sender)
        (w'.received sender) ↔ payments X network tx address ≤ 1) := by
  obtain ⟨w',seen',hrun,hnew⟩ := received_message hX network hc hw hs
  refine ⟨w',seen',hrun,?_⟩
  rw [NotifiedOnce,hnew,heardAt_singleton]
  simp only [List.append_cancel_left_eq,List.append_cancel_right_eq]
  constructor
  · intro h
    have hlen := congrArg List.length h
    rw [List.length_replicate] at hlen
    split at hlen
    · rw [hlen,List.length_singleton]
    · rw [hlen,List.length_nil]
      omega
  · intro h
    rcases Nat.le_one_iff_eq_zero_or_eq_one.mp h with h | h
    · simp [h]
    · simp [h]

/-! ## One payment, and two in one transaction -/

def Sample.subscriber : Sender := ⟨0,.subscription 0⟩

/-- Client 0 is subscribed to the address. -/
def Sample.watching : Shared := Shared.start.subscribed (.validated Sample.address) 0

theorem Sample.watching_subscribed :
    Sample.watching.Subscribed Sample.subscriber (.validated Sample.address) where
  rxOpen := rfl
  registered t := by
    simp only [watching,subscribed,TopicRegistry.subscribe,TopicRegistry.entryOrDefault_insert]
    by_cases ht : t = .validated Sample.address
    · rw [if_pos ht,if_pos ht]
      rfl
    · rw [if_neg ht,if_neg ht]
      rfl

def Sample.splitTx : Deps.sample.Transaction := Sample.Transaction.split

theorem Sample.carries_tx : Carries (X := Deps.sample) (.new 1000) [rawtx,Sample.txBytes] .mempool
    [] .payment [] := .mempool rfl rfl Sample.decodeTransaction_txBytes rfl

theorem Sample.carries_block : Carries (X := Deps.sample) (.new 1000) [rawblock,Sample.blockBytes]
    .block [.coinbase] .payment [splitTx] := .block rfl rfl Sample.decodeBlock_blockBytes rfl

/-- The payment is notified once, as it enters the mempool and between the other transactions of
its block. -/
theorem payment_notified_once :
    (∃ w' seen', (processZmqMessage [rawtx,Sample.txBytes] .elementsRegtest).run
        (Sample.watching,.new 1000) =
          (.ok () (w',seen') : EStateM.Result (Fail (Error Deps.sample)) _ _) ∧
      NotifiedOnce (X := Deps.sample) .elementsRegtest .mempool [] .payment [] Sample.address
        (Sample.watching.received Sample.subscriber) (w'.received Sample.subscriber)) ∧
    ∃ w' seen', (processZmqMessage [rawblock,Sample.blockBytes] .elementsRegtest).run
        (Sample.watching,.new 1000) =
          (.ok () (w',seen') : EStateM.Result (Fail (Error Deps.sample)) _ _) ∧
      NotifiedOnce (X := Deps.sample) .elementsRegtest .block [.coinbase] .payment
        [Sample.splitTx] Sample.address (Sample.watching.received Sample.subscriber)
          (w'.received Sample.subscriber) := by
  have hw : Sample.watching.Healthy := rfl
  have hpays : payments Deps.sample .elementsRegtest .payment Sample.address ≤ 1 :=
    List.countP_le_length
  obtain ⟨w₁,seen₁,hrun₁,hiff₁⟩ := notifiedOnce_iff Deps.sample_renderTotal .elementsRegtest
    Sample.carries_tx hw Sample.watching_subscribed
  obtain ⟨w₂,seen₂,hrun₂,hiff₂⟩ := notifiedOnce_iff Deps.sample_renderTotal .elementsRegtest
    Sample.carries_block hw Sample.watching_subscribed
  exact ⟨⟨w₁,seen₁,hrun₁,hiff₁.mpr hpays⟩,w₂,seen₂,hrun₂,hiff₂.mpr hpays⟩

/-- The subscription receives the same text twice for one transaction. -/
theorem second_payment_repeats :
    (∃ w' seen', (processZmqMessage [rawtx,Sample.Transaction.split.bytes] .elementsRegtest).run
        (Sample.watching,.new 1000) =
          (.ok () (w',seen') : EStateM.Result (Fail (Error Deps.sample)) _ _) ∧
      w'.received Sample.subscriber =
        List.replicate 2 (addressText Deps.sample .mempool Sample.splitTx Sample.address)) ∧
    ∀ w' seen', (processZmqMessage [rawtx,Sample.Transaction.split.bytes] .elementsRegtest).run
        (Sample.watching,.new 1000) =
          (.ok () (w',seen') : EStateM.Result (Fail (Error Deps.sample)) _ _) →
      ¬ NotifiedOnce .elementsRegtest .mempool [] Sample.splitTx [] Sample.address
        (Sample.watching.received Sample.subscriber) (w'.received Sample.subscriber) := by
  have hw : Sample.watching.Healthy := rfl
  have hcarries : Carries (X := Deps.sample) (.new 1000) [rawtx,Sample.Transaction.split.bytes]
      .mempool [] Sample.splitTx [] := .mempool rfl rfl (Sample.decodeTransaction_bytes .split) rfl
  have htxid : Deps.sample.txidString (Deps.sample.txid Sample.splitTx) ≠ Sample.address := by
    decide +kernel
  have hpays : payments Deps.sample .elementsRegtest Sample.splitTx Sample.address = 2 := by
    decide +kernel
  obtain ⟨w',seen',hrun,hnew⟩ := received_message Deps.sample_renderTotal .elementsRegtest hcarries
    hw Sample.watching_subscribed
  have htwice : w'.received Sample.subscriber =
      List.replicate 2 (addressText Deps.sample .mempool Sample.splitTx Sample.address) := by
    rw [hnew,heardAt_singleton,hpays,heardAsTx,if_neg htxid]
    rfl
  refine ⟨⟨w',seen',hrun,htwice⟩,fun w₁ seen₁ hrun₁ honce => ?_⟩
  rw [hrun] at hrun₁
  cases hrun₁
  unfold NotifiedOnce at honce
  rw [htwice,hpays,heardAsTx,if_neg htxid] at honce
  have hlen := congrArg List.length honce
  have hnone : Sample.watching.received Sample.subscriber = [] := rfl
  have hbefore : heardAt Deps.sample .elementsRegtest .mempool Sample.address [] = [] := rfl
  simp [hnone,hbefore] at hlen

end NexusRelay
