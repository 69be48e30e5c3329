import Mathlib.Algebra.Group.Int.Defs
import Mathlib.Data.List.Basic

/-! # JSON values and JSON-RPC objects

The values the relay exchanges with `serde_json` and `jsonrpc_lite`. An object's
entries are a list; the maps of the source never hold one key twice.
-/
namespace NexusRelay

/-- The three representations of a JSON number; a float is kept as its bits. -/
inductive Number where
  | posInt (n : UInt64)
  | negInt (n : Int)
  | float (bits : UInt64)
  deriving DecidableEq, Repr

inductive Value where
  | null
  | bool (b : Bool)
  | number (n : Number)
  | string (s : String)
  | array (items : List Value)
  | object (entries : List (String × Value))

/-- What a derived `Deserialize` of a struct hands to its fields: the values under
their names in an object (unknown names are ignored), or the elements of an array of
exactly as many elements. -/
def Value.structFields (names : List String) : Value → Option (List (Option Value))
  | .object entries => some (names.map fun name => entries.lookup name)
  | .array items => if items.length = names.length then some (items.map some) else none
  | _ => none

def Value.stringField : Option Value → Option String
  | some (.string s) => some s
  | _ => none

/-- An `Option<String>` field, which may be absent or null. -/
def Value.optionField : Option Value → Option (Option String)
  | none => some none
  | some .null => some none
  | some (.string s) => some (some s)
  | _ => none

namespace JsonRpc

inductive Id where
  | num (n : Int)
  | str (s : String)
  | none
  deriving DecidableEq, Repr

/-- The number is an `i64`. -/
def Id.toValue : Id → Value
  | .num n => .number (if 0 ≤ n then .posInt (UInt64.ofNat n.toNat) else .negInt (max n (-2 ^ 63)))
  | .str s => .string s
  | .none => .null

inductive Params where
  | array (items : List Value)
  | map (entries : List (String × Value))
  | none

inductive ErrorCode where
  | parseError
  | invalidRequest
  | methodNotFound
  | invalidParams
  | internalError
  | serverError (code : Int)
  deriving DecidableEq, Repr

/-- The codes JSON-RPC 2.0 fixes. -/
def ErrorCode.code : ErrorCode → Int
  | .parseError => -32700
  | .invalidRequest => -32600
  | .methodNotFound => -32601
  | .invalidParams => -32602
  | .internalError => -32603
  | .serverError code => code

structure Error where
  code : Int
  message : String
  data : Option Value

end JsonRpc

inductive JsonRpc where
  | request (id : JsonRpc.Id) (method : String) (params : Option JsonRpc.Params)
  | notification (method : String) (params : Option JsonRpc.Params)
  | success (id : JsonRpc.Id) (result : Value)
  | error (id : JsonRpc.Id) (error : JsonRpc.Error)

namespace JsonRpc

def getId : JsonRpc → Option Id
  | .request id _ _ => some id
  | .notification _ _ => Option.none
  | .success id _ => some id
  | .error id _ => some id

def getMethod : JsonRpc → Option String
  | .request _ method _ => some method
  | .notification method _ => some method
  | _ => Option.none

def getParams : JsonRpc → Option Params
  | .request _ _ params => params
  | .notification _ params => params
  | _ => Option.none

def getResult : JsonRpc → Option Value
  | .success _ result => some result
  | _ => Option.none

end JsonRpc

/-! ## Compact JSON text -/

/-- The control characters, five of them with a letter of their own. -/
def escapeControl (n : ℕ) : List Char :=
  match n with
  | 8 => ['\\','b']
  | 9 => ['\\','t']
  | 10 => ['\\','n']
  | 12 => ['\\','f']
  | 13 => ['\\','r']
  | n => ['\\','u','0','0',Nat.digitChar (n / 16),Nat.digitChar (n % 16)]

def escapeChar (c : Char) : List Char :=
  if c = '"' then ['\\','"']
  else if c = '\\' then ['\\','\\']
  else if c.toNat < 32 then escapeControl c.toNat
  else [c]

def hexValue (c : Char) : Option ℕ :=
  if c.isDigit then some (c.toNat - 48)
  else if 'a' ≤ c ∧ c ≤ 'f' then some (c.toNat - 87)
  else if 'A' ≤ c ∧ c ≤ 'F' then some (c.toNat - 55)
  else none

def printString (s : String) : String :=
  String.ofList ('"' :: s.toList.flatMap escapeChar ++ ['"'])

/-- Integers only: no message of the relay itself holds a float. -/
def Number.print : Number → String
  | .posInt n => toString n.toNat
  | .negInt n => toString n
  | .float _ => "null"

mutual
def Value.print : Value → String
  | .null => "null"
  | .bool b => if b then "true" else "false"
  | .number n => n.print
  | .string s => printString s
  | .array items => "[" ++ printItems items ++ "]"
  | .object entries => "\x7b" ++ printEntries entries ++ "\x7d"
def printItems : List Value → String
  | [] => ""
  | [v] => v.print
  | v :: rest => v.print ++ "," ++ printItems rest
def printEntries : List (String × Value) → String
  | [] => ""
  | [(k,v)] => printString k ++ ":" ++ v.print
  | (k,v) :: rest => printString k ++ ":" ++ v.print ++ "," ++ printEntries rest
end

namespace JsonRpc

def Params.toValue : Params → Value
  | .array items => .array items
  | .map entries => .object entries
  | .none => .null

def Error.toValue (e : Error) : Value :=
  let number := (Id.num e.code).toValue
  .object ([("code",number),("message",.string e.message)] ++
    match e.data with
    | some data => [("data",data)]
    | Option.none => [])

/-- The object the derived `Serialize` prints, its fields in declaration order. -/
def toValue : JsonRpc → Value
  | .request id method params =>
    .object ([("jsonrpc",.string "2.0"),("method",.string method)] ++
      (match params with
        | some params => [("params",params.toValue)]
        | Option.none => []) ++ [("id",id.toValue)])
  | .notification method params =>
    .object ([("jsonrpc",.string "2.0"),("method",.string method)] ++
      match params with
      | some params => [("params",params.toValue)]
      | Option.none => [])
  | .success id result =>
    .object [("jsonrpc",.string "2.0"),("result",result),("id",id.toValue)]
  | .error id e =>
    .object [("jsonrpc",.string "2.0"),("error",e.toValue),("id",id.toValue)]

end JsonRpc

/-- The text `test_process_message_ping` expects of a pong. -/
example : (JsonRpc.success (.num 12341234) (.string "pong")).toValue.print =
    "\x7b\"jsonrpc\":\"2.0\",\"result\":\"pong\",\"id\":12341234\x7d" := by decide +kernel

end NexusRelay
