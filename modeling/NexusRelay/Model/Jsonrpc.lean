import NexusRelay.Foundation.Fallible
import NexusRelay.Model.Deps
import NexusRelay.Model.Registry

/-! # Requests and responses

The functions of `jsonrpc.rs`. Parsing a request has four stages, in this order: the
id, the method, the params, and the check that the params belong to the method. Each
`serde_json::from_value(..).unwrap()` is a panic when the value has another shape.
-/
namespace NexusRelay

inductive RequestError where
  | invalidId (id : Option JsonRpc.Id)
  | invalidMethod
  | invalidParams
  | invalidParamsForThisMethod
  | arrayParamsAreInvalid
  | paramsMustContainASingleRootElement
  deriving DecidableEq, Repr

inductive Method where
  | publish
  | subscribe
  | unsubscribe
  deriving DecidableEq, Repr

structure Any where
  topic : String
  content : Option String
  deriving DecidableEq, Repr

structure Tx where
  txid : String
  deriving DecidableEq, Repr

structure Pair where
  input : String
  output : String
  deriving DecidableEq, Repr

structure Wallet where
  id : String
  deriving DecidableEq, Repr

structure Pset where
  walletId : String
  pset : String
  deriving DecidableEq, Repr

def Any.fromValue (value : Value) : Option Any :=
  match value.structFields ["topic","content"] with
  | some [topic,content] =>
    match Value.stringField topic, Value.optionField content with
    | some topic, some content => some ⟨topic,content⟩
    | _, _ => none
  | _ => none

def Tx.fromValue (value : Value) : Option Tx :=
  match value.structFields ["txid"] with
  | some [txid] => (Value.stringField txid).map Tx.mk
  | _ => none

def Pair.fromValue (value : Value) : Option Pair :=
  match value.structFields ["input","output"] with
  | some [input,output] =>
    match Value.stringField input, Value.stringField output with
    | some input, some output => some ⟨input,output⟩
    | _, _ => none
  | _ => none

def Wallet.fromValue (value : Value) : Option Wallet :=
  match value.structFields ["id"] with
  | some [id] => (Value.stringField id).map Wallet.mk
  | _ => none

def Pset.fromValue (value : Value) : Option Pset :=
  match value.structFields ["wallet_id","pset"] with
  | some [walletId,pset] =>
    match Value.stringField walletId, Value.stringField pset with
    | some walletId, some pset => some ⟨walletId,pset⟩
    | _, _ => none
  | _ => none

/-- The identifier of a proposal subscription, also for strings that are no asset ids. -/
def Pair.topic (pair : Pair) : Topic := .validated (pair.input ++ ":" ++ pair.output)

variable (X : Deps)

inductive Params where
  | any (any : Any)
  | address (address : String)
  | tx (tx : Tx)
  | pair (pair : Pair)
  | wallet (wallet : Wallet)
  | empty
  | proposal (proposal : X.Unvalidated)
  | pset (pset : Pset)
  | ping

structure NexusRequest where
  id : UInt32
  method : Method
  params : Params X

/-- `n as u32` for an `i64`. -/
def asU32 (n : Int) : UInt32 := UInt32.ofNat (n % 2 ^ 32).toNat

/-- The cast keeps what fits. -/
theorem toNat_asU32 {n : Int} (h : 0 ≤ n ∧ n < 2 ^ 32) : ((asU32 n).toNat : Int) = n := by
  obtain ⟨k,rfl⟩ := Int.eq_ofNat_of_zero_le h.1
  have hk : (UInt32.ofNat k).toNat = k := by
    rw [UInt32.toNat_ofNat']
    omega
  rw [asU32,Int.emod_eq_of_lt h.1 h.2]
  exact congrArg Nat.cast hk

variable {X}

def topicFromParams : Params X → Except RequestError Topic
  | .any any => .ok (.unvalidated any.topic)
  | .address address => .ok (.validated address)
  | .tx tx => .ok (.validated tx.txid)
  | .pair pair => .ok pair.topic
  | .pset pset => .ok (.validated pset.walletId)
  | _ => .error .invalidParams

def NexusRequest.topic (request : NexusRequest X) : Except RequestError Topic :=
  topicFromParams request.params

/-- The match on the root key. The value under `ping` is not looked at. -/
def parseRoot (key : String) (value : Value) : Fallible RequestError (Params X) :=
  match key with
  | "any" => do return .any (← .unwrap (Any.fromValue value))
  | "address" => do return .address (← .unwrap (Value.stringField value))
  | "tx" => do return .tx (← .unwrap (Tx.fromValue value))
  | "pair" => do return .pair (← .unwrap (Pair.fromValue value))
  | "proposal" => do return .proposal (← .unwrap (X.unvalidatedFromValue value))
  | "wallet" => do return .wallet (← .unwrap (Wallet.fromValue value))
  | "pset" => do return .pset (← .unwrap (Pset.fromValue value))
  | "ping" => .ok .ping
  | _ => .error (.err .invalidParams)

def parseParams (jsonrpc : JsonRpc) : Fallible RequestError (Params X) :=
  match jsonrpc.getParams with
  | none => .ok .empty
  | some (.array _) => .error (.err .arrayParamsAreInvalid)
  | some (.map entries) =>
    if entries.length ≠ 1 then .error (.err .paramsMustContainASingleRootElement)
    else
      match entries with
      | (key,value) :: _ => parseRoot key value
      | [] => .ok .empty
  | some .none => .ok .empty

def Method.fromStr : String → Except RequestError Method
  | "publish" => .ok .publish
  | "subscribe" => .ok .subscribe
  | "unsubscribe" => .ok .unsubscribe
  | _ => .error .invalidMethod

def parseMethod (jsonrpc : JsonRpc) : Except RequestError Method :=
  match jsonrpc.getMethod with
  | some s => Method.fromStr s
  | none => .error .invalidMethod

def Params.validateForMethod (params : Params X) (method : Method) : Except RequestError Unit :=
  match params, method with
  | .any a, .subscribe => if a.content.isSome then .error .invalidParams else .ok ()
  | .any a, .publish => if a.content.isNone then .error .invalidParams else .ok ()
  | .any _, _ => .error .invalidParams
  | .address _, .subscribe => .ok ()
  | .tx _, .subscribe => .ok ()
  | .wallet _, .subscribe => .ok ()
  | .pair _, .subscribe => .ok ()
  | .proposal _, .publish => .ok ()
  | .pset _, .publish => .ok ()
  | .ping, .publish => .ok ()
  | _, _ => .error .invalidParamsForThisMethod

def parseId (jsonrpc : JsonRpc) : Except RequestError UInt32 :=
  match jsonrpc.getId with
  | some (.num n) =>
    if 0 < n ∧ n < 4294967295 then .ok (asU32 n) else .error (.invalidId (some (.num n)))
  | id => .error (.invalidId id)

variable (X) in
def NexusRequest.tryFrom (jsonrpc : JsonRpc) : Fallible RequestError (NexusRequest X) := do
  let id ← .ofExcept (parseId jsonrpc)
  let method ← .ofExcept (parseMethod jsonrpc)
  let params ← parseParams jsonrpc
  .ofExcept (params.validateForMethod method)
  return { id, method, params }

/-- A request is accepted when all four stages accept it. -/
theorem NexusRequest.tryFrom_eq_ok {jsonrpc : JsonRpc} {request : NexusRequest X} :
    NexusRequest.tryFrom X jsonrpc = .ok request ↔
      parseId jsonrpc = .ok request.id ∧ parseMethod jsonrpc = .ok request.method ∧
      parseParams jsonrpc = .ok request.params ∧
      request.params.validateForMethod request.method = .ok () := by
  constructor
  · intro h
    obtain ⟨id,hid,h⟩ := Fallible.bind_eq_ok.mp h
    obtain ⟨method,hm,h⟩ := Fallible.bind_eq_ok.mp h
    obtain ⟨params,hp,h⟩ := Fallible.bind_eq_ok.mp h
    obtain ⟨u,hu,h⟩ := Fallible.bind_eq_ok.mp h
    cases h
    exact ⟨Fallible.ofExcept_eq_ok.mp hid,Fallible.ofExcept_eq_ok.mp hm,hp,
      Fallible.ofExcept_eq_ok.mp hu⟩
  · rintro ⟨hid,hm,hp,hu⟩
    simp [NexusRequest.tryFrom,hid,hm,hp,hu]

/-! ## Responses -/

structure NexusResponse where
  id : Option Int
  val : Except RequestError Value

namespace NexusResponse

def newSubscribed (id : UInt32) : NexusResponse := ⟨some id.toNat,.ok (.string "subscribed")⟩
def newPublished (id : UInt32) : NexusResponse := ⟨some id.toNat,.ok (.string "published")⟩
def newPong (id : UInt32) : NexusResponse := ⟨some id.toNat,.ok (.string "pong")⟩
def error (id : UInt32) (err : RequestError) : NexusResponse := ⟨some id.toNat,.error err⟩
def notification (val : Value) : NexusResponse := ⟨some (-1),.ok val⟩

/-- A validated proposal as a notification; serializing it is unwrapped. -/
def newProposal {ε : Type} (proposal : X.Validated) : Fallible ε NexusResponse := do
  let val ← .unwrap (X.validatedToValue proposal)
  return notification val

end NexusResponse

def JsonRpc.Error.new (X : Deps) (code : JsonRpc.ErrorCode) : JsonRpc.Error :=
  ⟨code.code,X.errorMessage code,none⟩

variable (X)

def RequestError.toRpcError : RequestError → JsonRpc.Error
  | .invalidId id =>
    { code := JsonRpc.ErrorCode.invalidRequest.code
      message := "Invalid id, must be present, not a string and positive"
      data := some ((id.map JsonRpc.Id.toValue).getD .null) }
  | .invalidMethod => .new X .methodNotFound
  | .invalidParams | .invalidParamsForThisMethod | .arrayParamsAreInvalid
  | .paramsMustContainASingleRootElement => .new X .invalidParams

def RequestError.toJsonRpc (err : RequestError) : JsonRpc := .error (.num 0) (err.toRpcError X)

/-- `From<&NexusResponse> for JsonRpc`, with its `unreachable!` arm. -/
def NexusResponse.toJsonRpc {ε : Type} (response : NexusResponse) : Fallible ε JsonRpc :=
  match response.id, response.val with
  | some id, .ok val => .ok (.success (.num id) val)
  | some id, .error err => .ok (.error (.num id) (err.toRpcError X))
  | none, .ok val => .ok (.success (.num (-1)) val)
  | none, .error _ => .error .panic

def NexusResponse.toText {ε : Type} (response : NexusResponse) : Fallible ε String := do
  let jsonrpc ← response.toJsonRpc X
  .unwrap (X.render jsonrpc)

/-- `format!("{}:{}", inp, out)` for the assets of a validated proposal. -/
def pairString (proposal : X.Validated) : String :=
  X.assetString (X.inputAsset proposal) ++ ":" ++ X.assetString (X.outputAsset proposal)

def topicFromProposal (proposal : X.Validated) : Except RequestError Topic :=
  .ok (.validated (pairString X proposal))

end NexusRelay
