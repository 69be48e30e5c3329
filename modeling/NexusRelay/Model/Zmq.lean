import NexusRelay.Model.Proposal
import Mathlib.Data.Finset.Basic

/-! # The ZMQ listener

The functions of `zmq.rs`: the bounded set of transactions already seen, the two
notifications, and the processing of one multipart message.
-/
namespace NexusRelay
open Shared

structure BoundedSet (T : Type) where
  set : Finset T
  queue : List T
  capacity : ℕ

namespace BoundedSet
variable {T : Type} [DecidableEq T]

def new (capacity : ℕ) : BoundedSet T := ⟨∅,[],capacity⟩

def contains (s : BoundedSet T) (item : T) : Bool := decide (item ∈ s.set)

/-- At capacity the oldest item leaves both the queue and the set. -/
def evict (s : BoundedSet T) : BoundedSet T :=
  if s.queue.length ≥ s.capacity then
    match s.queue with
    | oldest :: rest => { s with set := s.set.erase oldest, queue := rest }
    | [] => s
  else s

def insert (s : BoundedSet T) (item : T) : Bool × BoundedSet T :=
  if s.contains item then (false,s)
  else
    let s := s.evict
    (true,{ s with set := Insert.insert item s.set, queue := s.queue ++ [item] })

end BoundedSet

inductive Where where
  | mempool
  | block
  deriving DecidableEq, Repr

structure AddressSeen where
  address : String
  txid : String
  txHex : String
  where_ : Where
  deriving DecidableEq, Repr

structure TxSeen where
  txid : String
  txHex : String
  where_ : Where
  deriving DecidableEq, Repr

def Where.toValue : Where → Value
  | .mempool => .string "mempool"
  | .block => .string "block"

/-- The derived `Serialize`; `to_value` sorts the keys. -/
def AddressSeen.toValue (seen : AddressSeen) : Value :=
  .object [("address",.string seen.address),("tx_hex",.string seen.txHex),
    ("txid",.string seen.txid),("where",seen.where_.toValue)]

def TxSeen.toValue (seen : TxSeen) : Value :=
  .object [("tx_hex",.string seen.txHex),("txid",.string seen.txid),
    ("where",seen.where_.toValue)]

/-- The derived `Deserialize` of a unit variant: its name, or an object with the name as the one
key and null under it. -/
def Where.fromValue : Value → Option Where
  | .string name | .object [(name,.null)] =>
    if name = "mempool" then some .mempool else if name = "block" then some .block else none
  | _ => none

def AddressSeen.fromValue (value : Value) : Option AddressSeen :=
  match value.structFields ["address","txid","tx_hex","where"] with
  | some [address,txid,txHex,where_] =>
    match Value.stringField address, Value.stringField txid, Value.stringField txHex,
      where_.bind Where.fromValue with
    | some address, some txid, some txHex, some where_ => some ⟨address,txid,txHex,where_⟩
    | _, _, _, _ => none
  | _ => none

def TxSeen.fromValue (value : Value) : Option TxSeen :=
  match value.structFields ["txid","tx_hex","where"] with
  | some [txid,txHex,where_] =>
    match Value.stringField txid, Value.stringField txHex, where_.bind Where.fromValue with
    | some txid, some txHex, some where_ => some ⟨txid,txHex,where_⟩
    | _, _, _ => none
  | _ => none

variable (X : Deps)

def getOutputAddresses (tx : X.Transaction) (network : Network) : List String :=
  (X.outputScripts tx).filterMap fun script => X.addressString script network.addressParams

variable {ε : Type}

/-- The body of `if let Ok(mut registry) = registry.lock()`, and the guard's drop. On a
poisoned mutex only an error is logged. -/
def publishSeen (topic : Topic) (seen : Value) : Exec Shared ε Unit := do
  if ← lock then
    let response := NexusResponse.notification seen
    let text ← .ofFallible (response.toText X)
    let _sentCount ← publish topic text
    dropGuard
  else dropGuard

variable {X}

def publishAddressSeen (address txid : String) (tx : X.Transaction) (where_ : Where) :
    Exec Shared ε Unit :=
  publishSeen X (.validated address)
    (AddressSeen.toValue ⟨address,txid,X.serializeHex tx,where_⟩)

def publishTxSeen (txid : String) (tx : X.Transaction) (where_ : Where) :
    Exec Shared ε Unit :=
  publishSeen X (.validated txid) (TxSeen.toValue ⟨txid,X.serializeHex tx,where_⟩)

def rawtx : Bytes := "rawtx".toUTF8.toList
def rawblock : Bytes := "rawblock".toUTF8.toList

def publishAddresses (addresses : List String) (txid : String) (tx : X.Transaction)
    (where_ : Where) : Exec Shared ε Unit :=
  addresses.forM fun address => publishAddressSeen address txid tx where_

def processTx (network : Network) (tx : X.Transaction) :
    Exec (Shared × BoundedSet String) (Error X) Unit := do
  let txid := X.txidString (X.txid tx)
  let (_,txsSeen) ← get
  if !txsSeen.contains txid then
    modify fun (w,txsSeen) => (w,(txsSeen.insert txid).2)
    Exec.onFst (publishTxSeen txid tx .mempool)
    let addresses := getOutputAddresses X tx network
    Exec.onFst (publishAddresses addresses txid tx .mempool)

def processBlockTx (network : Network) (tx : X.Transaction) : Exec Shared ε Unit := do
  let addresses := getOutputAddresses X tx network
  let txid := X.txidString (X.txid tx)
  publishTxSeen txid tx .block
  publishAddresses addresses txid tx .block

/-- `process_zmq_message`, on the shared state and the listener's `txs_seen`. -/
def processZmqMessage (msg : List Bytes) (network : Network) :
    Exec (Shared × BoundedSet String) (Error X) Unit := do
  let topic ← .ofFallible (.unwrap msg[0]?)
  let data ← .ofFallible (.unwrap msg[1]?)
  if topic = rawtx then
    let tx ← .ofFallible (.convert .elements (.ofExcept (X.decodeTransaction data)))
    processTx network tx
  else if topic = rawblock then
    let block ← .ofFallible (.convert .elements (.ofExcept (X.decodeBlock data)))
    Exec.onFst ((X.txdata block).forM (processBlockTx network))

/-! ## What one message does -/

variable (X) in
def noticeText (seen : Value) : String := (X.render (.success (.num (-1)) seen)).getD ""

variable (X) in
def addressNotice (where_ : Where) (tx : X.Transaction) (address : String) : Change :=
  let txid := X.txidString (X.txid tx)
  .publish (.validated address)
    (noticeText X (AddressSeen.toValue ⟨address,txid,X.serializeHex tx,where_⟩))

variable (X) in
def txNotice (where_ : Where) (tx : X.Transaction) : Change :=
  let txid := X.txidString (X.txid tx)
  .publish (.validated txid) (noticeText X (TxSeen.toValue ⟨txid,X.serializeHex tx,where_⟩))

variable (X) in
/-- The publications of one transaction: its txid first, then its addresses in order. -/
def notices (network : Network) (where_ : Where) (tx : X.Transaction) : List Change :=
  txNotice X where_ tx :: (getOutputAddresses X tx network).map (addressNotice X where_ tx)

/-- What a message does, by its parts and by what was seen before. -/
inductive Observed (network : Network) (msg : List Bytes) (seen : BoundedSet String) :
    Fallible (Error X) Unit → List Change → BoundedSet String → Prop
  | missing (h : msg[0]? = none ∨ msg[1]? = none) :
      Observed network msg seen (.error .panic) [] seen
  | mempool {data : Bytes} {tx : X.Transaction} (ht : msg[0]? = some rawtx)
      (hd : msg[1]? = some data) (htx : X.decodeTransaction data = .ok tx)
      (hnew : seen.contains (X.txidString (X.txid tx)) = false) :
      Observed network msg seen (.ok ()) (notices X network .mempool tx)
        (seen.insert (X.txidString (X.txid tx))).2
  | known {data : Bytes} {tx : X.Transaction} (ht : msg[0]? = some rawtx)
      (hd : msg[1]? = some data) (htx : X.decodeTransaction data = .ok tx)
      (hold : seen.contains (X.txidString (X.txid tx)) = true) :
      Observed network msg seen (.ok ()) [] seen
  | badTx {data : Bytes} {e : X.EncodeError} (ht : msg[0]? = some rawtx)
      (hd : msg[1]? = some data) (htx : X.decodeTransaction data = .error e) :
      Observed network msg seen (.error (.err (.elements e))) [] seen
  | block {data : Bytes} {block : X.Block} (ht : msg[0]? = some rawblock)
      (hd : msg[1]? = some data) (hb : X.decodeBlock data = .ok block) :
      Observed network msg seen (.ok ()) ((X.txdata block).flatMap (notices X network .block)) seen
  | badBlock {data : Bytes} {e : X.EncodeError} (ht : msg[0]? = some rawblock)
      (hd : msg[1]? = some data) (hb : X.decodeBlock data = .error e) :
      Observed network msg seen (.error (.err (.elements e))) [] seen
  | unknown {topic data : Bytes} (ht : msg[0]? = some topic) (hd : msg[1]? = some data)
      (htx : topic ≠ rawtx) (hb : topic ≠ rawblock) : Observed network msg seen (.ok ()) [] seen

theorem run_publishSeen (hX : X.RenderTotal) {w : Shared} (hw : w.Healthy) (topic : Topic)
    (seen : Value) :
    (publishSeen X topic seen : Exec Shared ε Unit).run w =
      .ok () (w.apply (.publish topic (noticeText X seen))) := by
  obtain ⟨text,ht⟩ := hX.eq_some (.success (.num (-1)) seen)
  simp [publishSeen,run_lock hw,notification_toText,ht,noticeText,apply,unlocked_published hw]

theorem run_publishAddresses (hX : X.RenderTotal) {w : Shared} (hw : w.Healthy)
    (addresses : List String) (tx : X.Transaction) (where_ : Where) :
    (publishAddresses addresses (X.txidString (X.txid tx)) tx where_ : Exec Shared ε Unit).run w =
      .ok () (w.applyAll (addresses.map (addressNotice X where_ tx))) := by
  rw [applyAll,List.foldl_map]
  exact Exec.run_forM (P := Healthy) (fun w a hw => run_publishSeen hX hw _ _)
    (fun w a hw => hw.apply _) addresses hw

theorem run_processBlockTx (hX : X.RenderTotal) {w : Shared} (hw : w.Healthy)
    (network : Network) (tx : X.Transaction) :
    (processBlockTx network tx : Exec Shared ε Unit).run w =
      .ok () (w.applyAll (notices X network .block tx)) := by
  have htx := run_publishSeen (ε := ε) hX hw (.validated (X.txidString (X.txid tx)))
    (TxSeen.toValue ⟨X.txidString (X.txid tx),X.serializeHex tx,.block⟩)
  have haddr := run_publishAddresses (ε := ε) hX (hw.apply (txNotice X .block tx))
    (getOutputAddresses X tx network) tx .block
  simp only [processBlockTx,publishTxSeen,EStateM.run_bind,htx]
  exact haddr

/-- The `rawtx` branch publishes everything or nothing, by whether the txid is in the cache. -/
theorem run_processTx (hX : X.RenderTotal) {w : Shared} (hw : w.Healthy) (network : Network)
    (tx : X.Transaction) (seen : BoundedSet String) :
    (processTx network tx).run (w,seen) =
      if seen.contains (X.txidString (X.txid tx)) then .ok () (w,seen)
      else .ok () (w.applyAll (notices X network .mempool tx),
        (seen.insert (X.txidString (X.txid tx))).2) := by
  have htx := run_publishSeen (ε := Error X) hX hw (.validated (X.txidString (X.txid tx)))
    (TxSeen.toValue ⟨X.txidString (X.txid tx),X.serializeHex tx,.mempool⟩)
  have haddr := run_publishAddresses (ε := Error X) hX (hw.apply (txNotice X .mempool tx))
    (getOutputAddresses X tx network) tx .mempool
  cases hc : seen.contains (X.txidString (X.txid tx)) with
  | true => simp [processTx,hc]
  | false =>
    simp only [processTx,EStateM.run_bind,EStateM.run_get,hc,Bool.not_false,↓reduceIte,
      EStateM.run_modify,Exec.run_onFst,publishTxSeen,htx]
    rw [show w.apply (.publish (.validated (X.txidString (X.txid tx))) _) =
      w.apply (txNotice X .mempool tx) from rfl,haddr]
    rfl

/-- Every message does one of these things, and the same in every healthy state. -/
theorem processZmqMessage_cases (hX : X.RenderTotal) (msg : List Bytes) (network : Network)
    (seen : BoundedSet String) :
    ∃ (result : Fallible (Error X) Unit) (changes : List Change) (seen' : BoundedSet String),
      Observed network msg seen result changes seen' ∧ ∀ w : Shared, w.Healthy →
        (processZmqMessage msg network).run (w,seen) =
          (Exec.ofFallible result).run (w.applyAll changes,seen') := by
  cases ht : msg[0]? with
  | none => exact ⟨_,_,_,.missing (Or.inl ht),fun w _ => by simp [processZmqMessage,ht]⟩
  | some topic =>
    cases hd : msg[1]? with
    | none => exact ⟨_,_,_,.missing (Or.inr hd),fun w _ => by simp [processZmqMessage,ht,hd]⟩
    | some data =>
      by_cases htx : topic = rawtx
      · subst htx
        cases hdec : X.decodeTransaction data with
        | error e =>
          exact ⟨_,_,_,.badTx ht hd hdec,fun w _ => by simp [processZmqMessage,ht,hd,hdec]⟩
        | ok tx =>
          cases hc : seen.contains (X.txidString (X.txid tx)) with
          | true =>
            refine ⟨_,_,_,.known ht hd hdec hc,fun w hw => ?_⟩
            simp [processZmqMessage,ht,hd,hdec,run_processTx hX hw,hc]
          | false =>
            refine ⟨_,_,_,.mempool ht hd hdec hc,fun w hw => ?_⟩
            simp [processZmqMessage,ht,hd,hdec,run_processTx hX hw,hc]
      · by_cases hb : topic = rawblock
        · subst hb
          cases hdec : X.decodeBlock data with
          | error e =>
            refine ⟨_,_,_,.badBlock ht hd hdec,fun w _ => ?_⟩
            simp [processZmqMessage,ht,hd,hdec,htx]
          | ok block =>
            refine ⟨_,_,_,.block ht hd hdec,fun w hw => ?_⟩
            have hloop := Exec.run_forM (P := Healthy)
              (fun w tx hw => run_processBlockTx (ε := Error X) hX hw network tx)
              (fun w tx hw => hw.applyAll _) (X.txdata block) hw
            simp only [processZmqMessage,ht,hd,hdec,htx,EStateM.run_bind,Fallible.unwrap_some,
              Exec.run_ofFallible_ok,Fallible.ofExcept_ok,Fallible.convert_ok,↓reduceIte,
              Exec.run_onFst,hloop,applyAll,List.foldl_flatMap]
        · refine ⟨_,_,_,.unknown ht hd htx hb,fun w _ => ?_⟩
          simp [processZmqMessage,ht,hd,htx,hb]

end NexusRelay
