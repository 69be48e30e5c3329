import NexusRelay.Model.Json

/-! # What the relay takes from its dependencies

The transaction and block codecs and the address rendering of `elements`, the
proposals of `lwk_wollet`, and the JSON text form of `serde_json` are parameters of
the development. What a result relies on is a named hypothesis of that result.

* `Unvalidated` and `Validated` are the two instances of `LiquidexProposal`, `LwkError`
  the error of `lwk_wollet`, `HttpError` that of `reqwest`.
* `decodeTransaction` and `decodeBlock` are `consensus_decode`, `outputScripts` the
  `script_pubkey` of every output in order, `txidString` and `assetString` are `to_string`.
* `addressString` is `Address::from_script(script, None, params)`, rendered.
* `unvalidatedFromValue` and `validatedToValue` are `from_value` and `to_value`, `render`
  is `to_string` of a JSON-RPC object, `parse` is `JsonRpc::parse`.
* `errorMessage` is the message `jsonrpc_lite::Error::new` takes from `ErrorCode::as_str`.
-/
namespace NexusRelay

abbrev Bytes := List UInt8

inductive AddressParams where
  | liquid
  | liquidTestnet
  | elements
  deriving DecidableEq, Repr

/-- The network the relay is configured for. -/
inductive Network where
  | liquid
  | liquidTestnet
  | elementsRegtest
  deriving DecidableEq, Repr

def Network.addressParams : Network → AddressParams
  | .liquid => .liquid
  | .liquidTestnet => .liquidTestnet
  | .elementsRegtest => .elements

structure Deps where
  Transaction : Type
  Block : Type
  Script : Type
  Txid : Type
  AssetId : Type
  EncodeError : Type
  LwkError : Type
  HttpError : Type
  Unvalidated : Type
  Validated : Type
  decodeTransaction : Bytes → Except EncodeError Transaction
  decodeBlock : Bytes → Except EncodeError Block
  txdata : Block → List Transaction
  outputScripts : Transaction → List Script
  txid : Transaction → Txid
  txidString : Txid → String
  assetString : AssetId → String
  serializeHex : Transaction → String
  addressString : Script → AddressParams → Option String
  neededTx : Unvalidated → Except LwkError Txid
  validate : Unvalidated → Transaction → Except LwkError Validated
  insecureValidate : Unvalidated → Except LwkError Validated
  inputAsset : Validated → AssetId
  outputAsset : Validated → AssetId
  unvalidatedFromValue : Value → Option Unvalidated
  validatedToValue : Validated → Option Value
  render : JsonRpc → Option String
  parse : String → Option JsonRpc
  errorMessage : JsonRpc.ErrorCode → String

namespace Deps
variable (X : Deps)

/-- `serde_json::to_string` fails only for a map whose keys are not strings or a failing
`Serialize`; a JSON-RPC object has neither. -/
def RenderTotal : Prop := ∀ j, (X.render j).isSome

/-- A validated proposal serializes. -/
def ProposalSerializes : Prop := ∀ v, (X.validatedToValue v).isSome

def isHexDigit (c : Char) : Bool := c.isDigit || (decide ('a' ≤ c) && decide (c ≤ 'f'))

/-- 64 lowercase hexadecimal characters. -/
def IsHexId (s : String) : Prop := s.length = 64 ∧ s.toList.all isHexDigit = true

/-- Txids and asset ids render as hexadecimal. -/
def IdsAreHex : Prop := (∀ t, IsHexId (X.txidString t)) ∧ ∀ a, IsHexId (X.assetString a)

/-- No address contains the separator of an asset pair. -/
def AddressesHaveNoColon : Prop :=
  ∀ script params s, X.addressString script params = some s → ':' ∉ s.toList

variable {X}

theorem IsHexId.no_colon {s : String} (h : IsHexId s) : ':' ∉ s.toList := by
  intro hmem
  have hhex := List.all_eq_true.mp h.2 ':' hmem
  revert hhex
  decide

theorem RenderTotal.eq_some (h : X.RenderTotal) (j : JsonRpc) : ∃ text, X.render j = some text :=
  Option.isSome_iff_exists.mp (h j)

theorem ProposalSerializes.eq_some (h : X.ProposalSerializes) (v : X.Validated) :
    ∃ value, X.validatedToValue v = some value := Option.isSome_iff_exists.mp (h v)

end Deps

/-! ## A small instance

A block of three transactions in their consensus encoding, two of which pay the address of the
README's examples, and the proposal and the requests of those examples, over the compact JSON
printer. Everything else does not decode.
-/
namespace Sample

def address : String := "ert1qxdyjf6h5d6qxap4n2dap97q4j5ps6ua82znu3z"
def inputAsset : String := "6921c799f7b53585025ae8205e376bfd2a7c0571f781649fb360acece252a6a7"
def outputAsset : String := "f13806d2ab6ef8ba56fc4680c1689feb21d7596700af1871aef8c2d15d4bfd28"

/-- The last `k` bytes of a number, the highest first. -/
def bigEndian : ℕ → ℕ → Bytes
  | 0, _ => []
  | k + 1, n => UInt8.ofNat (n / 256 ^ k) :: bigEndian k n

def littleEndian (k n : ℕ) : Bytes := (bigEndian k n).reverse

/-- A vector of bytes, or of what is encoded in bytes, after its length. -/
def counted (n : ℕ) (bytes : Bytes) : Bytes := UInt8.ofNat n :: bytes

/-- The script of `address`: version 0 and the hash of a key. -/
def addressScript : Bytes := 0 :: 20 :: bigEndian 20 0x334924eaf46e806e86b3537a12f81595030d73a7

/-- The output spent, as it is hashed, the script that unlocks it, and the sequence number. -/
def txIn (hash : Bytes) (vout : ℕ) (script : Bytes) (sequence : ℕ) : Bytes :=
  hash ++ littleEndian 4 vout ++ counted script.length script ++ littleEndian 4 sequence

/-- An explicit asset, an explicit value, no nonce, and the script. -/
def txOut (value : ℕ) (script : Bytes) : Bytes :=
  1 :: bigEndian 32 0x25b251070e29ca19043cf33ccd7324e2ddab03ecc4ae0b5e77c4fc0e5cf6c95a ++
    1 :: bigEndian 8 value ++ 0 :: counted script.length script

/-- Version 2, no witnesses, one input, the outputs, and no lock time. -/
def transaction (input : Bytes) (outputs : List Bytes) : Bytes :=
  littleEndian 4 2 ++ 0 :: counted 1 input ++ counted outputs.length outputs.flatten ++
    littleEndian 4 0

inductive Transaction where
  | coinbase
  | payment
  | split
  deriving DecidableEq, Repr

/-- The hash of the encoding. -/
def Transaction.hash : Transaction → ℕ
  | .coinbase => 0xdc706a428b5b55c942b630490b8f1a83d272a8edd21e50ab2cfdb89238ce1412
  | .payment => 0xcabae7540106c2da1816910e443b7b39a4b1c0d830896f1a1343a70df187dddc
  | .split => 0x251244ff64ae7fb5dce7d608e9cff30eebfe459e8c46d536c6ba303e4618c1d9

/-- The coinbase pays nobody, `payment` pays the address once, and `split` spends that output and
pays the address twice. -/
def Transaction.bytes : Transaction → Bytes
  | .coinbase =>
    transaction (txIn (littleEndian 32 0) 0xffffffff [0x51,0x01] 0xffffffff) [txOut 0 [0x6a]]
  | .payment =>
    let spent := 0xf4475ec862d28d1067069b04194ad6231a3d2d82ee6e2f7c13b36a8212b5e3c3
    transaction (txIn (littleEndian 32 spent) 1 [] 0xfffffffe) [txOut 100000 addressScript]
  | .split =>
    transaction (txIn (littleEndian 32 (hash .payment)) 0 [] 0xfffffffe)
      [txOut 60000 addressScript,txOut 40000 addressScript]

/-- The scripts of the outputs, as `true` for that of the address. -/
def Transaction.scripts : Transaction → List Bool
  | .coinbase => [false]
  | .payment => [true]
  | .split => [true,true]

def hexOf (bytes : Bytes) : String :=
  .ofList (bytes.flatMap fun b => [Nat.digitChar (b.toNat / 16),Nat.digitChar (b.toNat % 16)])

def Transaction.hex (tx : Transaction) : String := hexOf tx.bytes
def Transaction.txid (tx : Transaction) : String := hexOf (bigEndian 32 tx.hash)

def txid : String := Transaction.payment.txid
def txHex : String := Transaction.payment.hex
def txBytes : Bytes := Transaction.payment.bytes

def blockTransactions : List Transaction := [.coinbase,.payment,.split]

/-- Version, previous block, merkle root, time, height, a challenge without a solution, and the
transactions. -/
def blockBytes : Bytes :=
  littleEndian 4 0x20000000 ++ littleEndian 32 0 ++
    littleEndian 32 0xeaeaee0700e006cf02f979ce641bffd6f8a1217e47e58fc18c701471a5e5e9da ++
    littleEndian 4 1700000000 ++ littleEndian 4 1 ++ counted 1 [0x51] ++ counted 0 [] ++
    counted 3 (blockTransactions.flatMap Transaction.bytes)

/-- The two assets, as `true` for the one the maker sells. -/
def assetString : Bool → String
  | true => inputAsset
  | false => outputAsset

/-- `{"asset": ..}` as the one element of a proposal's inputs or outputs. -/
def assetOf : Option Value → Option Bool
  | some (.array [.object entries]) =>
    match Value.stringField (entries.lookup "asset") with
    | some s =>
      if s = inputAsset then some true else if s = outputAsset then some false else none
    | none => none
  | _ => none

def proposalValue (assets : Bool × Bool) : Value :=
  .object [("inputs",.array [.object [("asset",.string (assetString assets.1))]]),
    ("outputs",.array [.object [("asset",.string (assetString assets.2))]])]

def proposalFromValue : Value → Option (Bool × Bool)
  | .object entries =>
    match assetOf (entries.lookup "inputs"), assetOf (entries.lookup "outputs") with
    | some a, some b => some (a,b)
    | _, _ => none
  | _ => none

/-- A request of a client: the object and its text. -/
def request (method root : String) (value : Value) : JsonRpc :=
  .request (.num 1) method (some (.map [(root,value)]))

def requests : List JsonRpc :=
  [request "subscribe" "address" (.string address),
    request "subscribe" "address" (.string txid),
    request "subscribe" "tx" (.object [("txid",.string txid)]),
    request "publish" "proposal" (proposalValue (true,false)),
    request "publish" "any" (.object [("topic",.string txid),("content",.string "hello")]),
    request "publish" "ping" .null,
    request "publish" "pset" (.object [("wallet_id",.string "w"),("pset",.string "p")]),
    request "unsubscribe" "ping" .null]

def print (j : JsonRpc) : String := j.toValue.print

end Sample

/-- The instance: one block, its transactions, and one address. -/
def Deps.sample : Deps where
  Transaction := Sample.Transaction
  Block := Unit
  Script := Bool
  Txid := Sample.Transaction
  AssetId := Bool
  EncodeError := Unit
  LwkError := Unit
  HttpError := Unit
  Unvalidated := Bool × Bool
  Validated := Bool × Bool
  decodeTransaction bytes :=
    match Sample.blockTransactions.find? fun tx => tx.bytes = bytes with
    | some tx => .ok tx
    | none => .error ()
  decodeBlock bytes := if bytes = Sample.blockBytes then .ok () else .error ()
  txdata _ := Sample.blockTransactions
  outputScripts := Sample.Transaction.scripts
  txid := id
  txidString := Sample.Transaction.txid
  assetString := Sample.assetString
  serializeHex := Sample.Transaction.hex
  addressString script params :=
    if script = true ∧ params = .elements then some Sample.address else none
  neededTx _ := .ok .payment
  validate proposal _ := .ok proposal
  insecureValidate := .ok
  inputAsset := Prod.fst
  outputAsset := Prod.snd
  unvalidatedFromValue := Sample.proposalFromValue
  validatedToValue proposal := some (Sample.proposalValue proposal)
  render j := some (Sample.print j)
  parse text := Sample.requests.find? fun j => Sample.print j = text
  errorMessage
    | .parseError => "Parse error"
    | .invalidRequest => "Invalid Request"
    | .methodNotFound => "Method not found"
    | .invalidParams => "Invalid params"
    | .internalError => "Internal error"
    | .serverError _ => "Server error"

theorem Deps.sample_renderTotal : Deps.sample.RenderTotal := fun _ => rfl

theorem Deps.sample_proposalSerializes : Deps.sample.ProposalSerializes := fun _ => rfl

theorem Deps.sample_idsAreHex : Deps.sample.IdsAreHex := by
  have htxid : ∀ tx : Sample.Transaction, IsHexId tx.txid := by
    intro tx
    cases tx with
    | coinbase | payment | split => exact ⟨by decide +kernel,by decide +kernel⟩
  have hinput : IsHexId Sample.inputAsset := ⟨by decide +kernel,by decide +kernel⟩
  have houtput : IsHexId Sample.outputAsset := ⟨by decide +kernel,by decide +kernel⟩
  refine ⟨htxid,fun a => ?_⟩
  cases a with
  | true => exact hinput
  | false => exact houtput

theorem Deps.sample_addressesHaveNoColon : Deps.sample.AddressesHaveNoColon := by
  intro script params s h
  have hnone : ':' ∉ Sample.address.toList := by decide +kernel
  simp only [sample,Option.ite_none_right_eq_some] at h
  exact Option.some.inj h.2 ▸ hnone

/-- The encodings decode. -/
theorem Sample.decodeTransaction_bytes (tx : Sample.Transaction) :
    Deps.sample.decodeTransaction tx.bytes = .ok tx := by
  have hfind : (Sample.blockTransactions.find? fun t => t.bytes = tx.bytes) = some tx := by
    cases tx with
    | coinbase | payment | split => decide +kernel
  simp only [Deps.sample,hfind]

theorem Sample.decodeTransaction_txBytes :
    Deps.sample.decodeTransaction Sample.txBytes = .ok .payment :=
  decodeTransaction_bytes .payment

theorem Sample.decodeBlock_blockBytes : Deps.sample.decodeBlock Sample.blockBytes = .ok () := by
  simp only [Deps.sample,↓reduceIte]

end NexusRelay
