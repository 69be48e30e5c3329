import NexusRelay.Model.Jsonrpc
import NexusRelay.Model.JsonText

/-! # Requests as a client writes them

The constructors of `NexusRequest`, its `Display`, and the `Serialize` that is derived for
its params: a variant is an object with its lowercase name as the one key. `to_value` sorts
the keys of an object.
-/
namespace NexusRelay
variable (X : Deps)

/-- What only the client side takes from the dependencies: `to_value` of an unvalidated
proposal, and `Into<Params>` for the value `request_with_params` is given. -/
structure Client where
  proposalToValue : X.Unvalidated → Option Value
  paramsFromValue : Value → JsonRpc.Params

namespace Client
variable {X}

/-- An object becomes params by name. -/
def ObjectsAreMaps (C : Client X) : Prop :=
  ∀ entries, C.paramsFromValue (.object entries) = .map entries

/-- The serde form of an unvalidated proposal is read back. -/
def ProposalsReadBack (C : Client X) : Prop :=
  ∀ p, ∃ value, C.proposalToValue p = some value ∧ value.WellFormed ∧
    X.unvalidatedFromValue value = some p

end Client

def Method.toString : Method → String
  | .publish => "publish"
  | .subscribe => "subscribe"
  | .unsubscribe => "unsubscribe"

/-- An absent content is skipped. -/
def Any.toValue (any : Any) : Value :=
  let content := match any.content with
    | some content => [("content",.string content)]
    | none => []
  .object (content ++ [("topic",.string any.topic)])

def Tx.toValue (tx : Tx) : Value := .object [("txid",.string tx.txid)]

def Pair.toValue (pair : Pair) : Value :=
  .object [("input",.string pair.input),("output",.string pair.output)]

def Wallet.toValue (wallet : Wallet) : Value := .object [("id",.string wallet.id)]

def Pset.toValue (pset : Pset) : Value :=
  .object [("pset",.string pset.pset),("wallet_id",.string pset.walletId)]

variable {X}

def Params.toValue (C : Client X) : Params X → Option Value
  | .any a => some (.object [("any",a.toValue)])
  | .address s => some (.object [("address",.string s)])
  | .tx t => some (.object [("tx",t.toValue)])
  | .pair p => some (.object [("pair",p.toValue)])
  | .wallet w => some (.object [("wallet",w.toValue)])
  | .empty => some (.string "empty")
  | .proposal p => (C.proposalToValue p).map fun value => .object [("proposal",value)]
  | .pset p => some (.object [("pset",p.toValue)])
  | .ping => some (.object [("ping",.null)])

namespace NexusRequest

def newAddressSubscribe (id : UInt32) (address : String) : NexusRequest X :=
  { id, method := .subscribe, params := .address address }

def newPing (id : UInt32) : NexusRequest X := { id, method := .publish, params := .ping }

def newTxidSubscribe (id : UInt32) (txid : String) : NexusRequest X :=
  { id, method := .subscribe, params := .tx ⟨txid⟩ }

def newPublishProposal (id : UInt32) (proposal : X.Unvalidated) : NexusRequest X :=
  { id, method := .publish, params := .proposal proposal }

/-- `JsonRpc::request_with_params`, after `to_value(..).unwrap()` of the params. -/
def toJsonRpc {ε : Type} (C : Client X) (request : NexusRequest X) : Fallible ε JsonRpc := do
  let params ← .unwrap (request.params.toValue C)
  return .request (.num request.id.toNat) request.method.toString (some (C.paramsFromValue params))

def toText {ε : Type} (C : Client X) (request : NexusRequest X) : Fallible ε String := do
  let j ← request.toJsonRpc C
  .unwrap (X.render j)

end NexusRequest

theorem Method.fromStr_toString (method : Method) : Method.fromStr method.toString = .ok method := by
  cases method <;> rfl

/-! ## A client of the small instance -/

namespace Sample

def textClient : Client Deps.text where
  proposalToValue proposal := some (proposalValue proposal)
  paramsFromValue
    | .object entries => .map entries
    | .array items => .array items
    | _ => .none

theorem textClient_objectsAreMaps : textClient.ObjectsAreMaps := fun _ => rfl

theorem textClient_proposalsReadBack : textClient.ProposalsReadBack := by
  have hread : ∀ a b : Bool, proposalFromValue (proposalValue (a,b)) = some (a,b) := by
    decide +kernel
  rintro ⟨a,b⟩
  exact ⟨_,rfl,(Deps.text_proposalsAreObjects (a,b) _ rfl).1,hread a b⟩

end Sample

end NexusRelay
