import NexusRelay.Model.Jsonrpc

/-! # Which messages crash request parsing

The only panics of `NexusRequest::try_from` are the unwraps of `parse_params`, and they
are reached only behind an accepted id and a known method.
-/
namespace NexusRelay
variable {X : Deps}

variable (X) in
/-- Whether the value under a root key deserializes to the type `parse_params` asks for. No
type is asked for under `ping`, nor under an unknown key. -/
def hasShape (key : String) (value : Value) : Bool :=
  match key with
  | "any" => (Any.fromValue value).isSome
  | "address" => (Value.stringField value).isSome
  | "tx" => (Tx.fromValue value).isSome
  | "pair" => (Pair.fromValue value).isSome
  | "proposal" => (X.unvalidatedFromValue value).isSome
  | "wallet" => (Wallet.fromValue value).isSome
  | "pset" => (Pset.fromValue value).isSome
  | _ => true

variable (X) in
/-- The params hold one root key and under it a value of another shape. -/
def WrongShape (j : JsonRpc) : Prop :=
  ∃ key value, j.getParams = some (.map [(key,value)]) ∧ hasShape X key value = false

theorem unwrap_map_eq_panic {ε α β : Type} (o : Option α) (f : α → β) :
    ((do return f (← Fallible.unwrap o)) : Fallible ε β) = .error .panic ↔ o.isSome = false := by
  cases o with
  | none => simp
  | some a => simp

/-- A root key panics exactly when it is known and its value has another shape. -/
theorem parseRoot_eq_panic (key : String) (value : Value) :
    (parseRoot key value : Fallible RequestError (Params X)) = .error .panic ↔
      hasShape X key value = false := by
  unfold parseRoot hasShape
  split
  any_goals exact unwrap_map_eq_panic _ _
  · simp
  · simp

theorem parseParams_eq_panic (j : JsonRpc) :
    (parseParams j : Fallible RequestError (Params X)) = .error .panic ↔ WrongShape X j := by
  unfold parseParams WrongShape
  split
  · next h => simp [h]
  · next h => simp [h]
  · next entries h =>
    rcases entries with _ | ⟨⟨key,value⟩,_ | ⟨e,rest⟩⟩
    · simp [h]
    · simp [h,parseRoot_eq_panic]
    · simp [h]
  · next h => simp [h]

/-- The exact way to a panic: past the id and the method, into the params. -/
theorem tryFrom_eq_panic (j : JsonRpc) :
    NexusRequest.tryFrom X j = .error .panic ↔
      (∃ id, parseId j = .ok id) ∧ (∃ method, parseMethod j = .ok method) ∧ WrongShape X j := by
  constructor
  · intro h
    rcases Fallible.bind_eq_panic.mp h with h | ⟨id,hid,h⟩
    · exact absurd h (Fallible.ofExcept_ne_panic _)
    rcases Fallible.bind_eq_panic.mp h with h | ⟨method,hm,h⟩
    · exact absurd h (Fallible.ofExcept_ne_panic _)
    rcases Fallible.bind_eq_panic.mp h with h | ⟨params,-,h⟩
    · exact ⟨⟨id,Fallible.ofExcept_eq_ok.mp hid⟩,⟨method,Fallible.ofExcept_eq_ok.mp hm⟩,
        (parseParams_eq_panic j).mp h⟩
    rcases Fallible.bind_eq_panic.mp h with h | ⟨_,-,h⟩
    · exact absurd h (Fallible.ofExcept_ne_panic _)
    · cases h
  · rintro ⟨⟨id,hid⟩,⟨method,hm⟩,hw⟩
    have hp := (parseParams_eq_panic (X := X) j).mpr hw
    simp [NexusRequest.tryFrom,hid,hm,hp]

variable (X) in
/-- Parsing returns, and a value of the wrong shape under a known root key is an error. -/
def ParsesSafely (j : JsonRpc) : Prop :=
  ((∃ request, NexusRequest.tryFrom X j = .ok request) ∨
    ∃ e, NexusRequest.tryFrom X j = .error (.err e)) ∧
  (WrongShape X j → ∃ e, NexusRequest.tryFrom X j = .error (.err e))

/-- Parsing is safe on exactly the messages that do not combine an accepted id, a known
method and a value of the wrong shape. -/
theorem parsesSafely_iff (j : JsonRpc) :
    ParsesSafely X j ↔
      ¬ ((∃ id, parseId j = .ok id) ∧ (∃ method, parseMethod j = .ok method) ∧
        WrongShape X j) := by
  rw [← tryFrom_eq_panic]
  constructor
  · rintro ⟨⟨r,h⟩ | ⟨e,h⟩,-⟩ hp
    · rw [h] at hp; cases hp
    · rw [h] at hp; cases hp
  · intro hp
    cases h : NexusRequest.tryFrom X j with
    | error f =>
      cases f with
      | panic => exact absurd h hp
      | err e => exact ⟨Or.inr ⟨e,h⟩,fun _ => ⟨e,h⟩⟩
    | ok request =>
      refine ⟨Or.inl ⟨request,h⟩,fun hw => ?_⟩
      -- a request that parsed went through `parse_params`, so its value had the shape
      obtain ⟨id,hid,h1⟩ := Fallible.bind_eq_ok.mp h
      obtain ⟨method,hm,-⟩ := Fallible.bind_eq_ok.mp h1
      exact absurd ((tryFrom_eq_panic j).mpr
        ⟨⟨id,Fallible.ofExcept_eq_ok.mp hid⟩,⟨method,Fallible.ofExcept_eq_ok.mp hm⟩,hw⟩) hp

theorem address_number_panics :
    NexusRequest.tryFrom Deps.sample
      (Sample.request "subscribe" "address" (.number (.posInt 5))) = .error .panic ∧
    ¬ ParsesSafely Deps.sample (Sample.request "subscribe" "address" (.number (.posInt 5))) := by
  have h : NexusRequest.tryFrom Deps.sample
      (Sample.request "subscribe" "address" (.number (.posInt 5))) = .error .panic := rfl
  refine ⟨h,?_⟩
  rintro ⟨⟨r,hr⟩ | ⟨e,he⟩,-⟩
  · rw [h] at hr; cases hr
  · rw [h] at he; cases he

end NexusRelay
