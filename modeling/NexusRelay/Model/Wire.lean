import NexusRelay.Model.Deps
import Mathlib.Algebra.Group.Int.Defs
import Mathlib.Data.String.Basic

/-! # What is assumed of the wire

`serde_json` and `jsonrpc_lite` print and parse JSON faithfully. The assumptions speak only
of values those crates can hold and read: an integer has one representation and fits it, the
keys of a map are sorted, and the nesting is within the recursion limit.
-/
namespace NexusRelay

def IsI64 (n : Int) : Prop := -2 ^ 63 ≤ n ∧ n < 2 ^ 63

/-- An integer in the form `serde_json` reads it: floats are left out. -/
def Number.Normal : Number → Prop
  | .posInt _ => True
  | .negInt n => -2 ^ 63 ≤ n ∧ n < 0
  | .float _ => False

mutual
/-- Every number in the value, and the keys of every object, are as asked. -/
def Value.Forall (number : Number → Prop) (keys : List String → Prop) : Value → Prop
  | .null | .bool _ | .string _ => True
  | .number n => number n
  | .array items => forallItems number keys items
  | .object entries => keys (entries.map Prod.fst) ∧ forallEntries number keys entries
def forallItems (number : Number → Prop) (keys : List String → Prop) : List Value → Prop
  | [] => True
  | v :: rest => v.Forall number keys ∧ forallItems number keys rest
def forallEntries (number : Number → Prop) (keys : List String → Prop) :
    List (String × Value) → Prop
  | [] => True
  | (_,v) :: rest => v.Forall number keys ∧ forallEntries number keys rest
end

mutual
/-- How deep arrays and objects are nested. -/
def Value.depth : Value → ℕ
  | .null | .bool _ | .number _ | .string _ => 0
  | .array items => depthItems items + 1
  | .object entries => depthEntries entries + 1
def depthItems : List Value → ℕ
  | [] => 0
  | v :: rest => max v.depth (depthItems rest)
def depthEntries : List (String × Value) → ℕ
  | [] => 0
  | (_,v) :: rest => max v.depth (depthEntries rest)
end

/-- `serde_json` reads no text that is nested deeper. -/
def recursionLimit : ℕ := 127

/-- The value is within the limit also where a JSON-RPC object has it two levels down, as the
data of an error or the value of the root key. -/
structure Value.WellFormed (v : Value) : Prop where
  normal : v.Forall Number.Normal fun keys => keys.Pairwise (· < ·)
  depth_le : v.depth + 2 ≤ recursionLimit

def Value.IsObject : Value → Prop
  | .object _ => True
  | _ => False

def Value.IsString : Value → Prop
  | .string _ => True
  | _ => False

namespace JsonRpc.Error

/-- The error fits its type, and its data is well formed. -/
def WellFormed (e : JsonRpc.Error) : Prop :=
  IsI64 e.code ∧ ∀ data, e.data = some data → data.WellFormed

end JsonRpc.Error

theorem isI64_of_uint32 (n : UInt32) : IsI64 n.toNat := by
  have h := n.toNat_lt
  unfold IsI64
  omega

theorem isI64_neg_one : IsI64 (-1) := by
  unfold IsI64
  omega

theorem wellFormed_string (s : String) : (Value.string s).WellFormed :=
  ⟨trivial,by simp [Value.depth,recursionLimit]⟩

theorem wellFormed_null : Value.null.WellFormed := ⟨trivial,by simp [Value.depth,recursionLimit]⟩

theorem wellFormed_field (key s : String) : (Value.object [(key,.string s)]).WellFormed :=
  ⟨⟨List.pairwise_singleton _ _,trivial,trivial⟩,by simp [Value.depth,depthEntries,recursionLimit]⟩

theorem wellFormed_two {k₁ k₂ : String} (hk : k₁ < k₂) (s t : String) :
    (Value.object [(k₁,.string s),(k₂,.string t)]).WellFormed :=
  ⟨⟨List.pairwise_pair.mpr hk,trivial,trivial,trivial⟩,
    by simp [Value.depth,depthEntries,recursionLimit]⟩

theorem JsonRpc.Id.toValue_normal (id : JsonRpc.Id) :
    id.toValue.Forall Number.Normal fun keys => keys.Pairwise (· < ·) := by
  cases id with
  | num n =>
    by_cases h : 0 ≤ n
    · simp [toValue,Value.Forall,Number.Normal,h]
    · simp [toValue,Value.Forall,Number.Normal,h]
      omega
  | str | none => simp [toValue,Value.Forall]

theorem JsonRpc.Id.toValue_depth (id : JsonRpc.Id) : id.toValue.depth = 0 := by
  cases id with
  | num | str | none => simp [toValue,Value.depth]

theorem JsonRpc.Id.toValue_wellFormed (id : JsonRpc.Id) : id.toValue.WellFormed :=
  ⟨id.toValue_normal,by simp [toValue_depth,recursionLimit]⟩

namespace Deps
variable (X : Deps)

/-- A request whose params are a map with one root element is read back as it was. -/
def RequestsReadBack : Prop :=
  ∀ (n : Int) (method key : String) (value : Value), IsI64 n → value.WellFormed → ∃ text,
    X.render (.request (.num n) method (some (.map [(key,value)]))) = some text ∧
    X.parse text = some (.request (.num n) method (some (.map [(key,value)])))

/-- A response is read back as it was, except that an error's data may be lost: `null` is
read as no data. -/
def ResponsesReadBack : Prop :=
  (∀ (n : Int) (result : Value) (text : String), IsI64 n → result.WellFormed →
    X.render (.success (.num n) result) = some text →
    X.parse text = some (.success (.num n) result)) ∧
  ∀ (n : Int) (e : JsonRpc.Error) (text : String), IsI64 n → e.WellFormed →
    X.render (.error (.num n) e) = some text → ∃ e', X.parse text = some (.error (.num n) e')

/-- A validated proposal is a struct of integers and strings, and of lists of such structs. -/
def ProposalsAreObjects : Prop :=
  ∀ v value, X.validatedToValue v = some value → value.WellFormed ∧ value.IsObject

/-- The fields of a proposal are `version`, `tx`, `inputs`, `outputs` and `scalars`. -/
def ProposalsHaveNoWhere : Prop :=
  ∀ v entries, X.validatedToValue v = some (.object entries) → entries.lookup "where" = none

end Deps

end NexusRelay
