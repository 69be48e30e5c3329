import Mathlib.Data.Finset.Defs

/-! # Computations that return an error or panic

A panic is kept apart from an error: `?` turns one error type into another and
never catches a panic. A stateful computation keeps the state it had where it
stopped, so that what was done before a failure can be inspected.
-/

inductive Fail (ε : Type) where
  | err (e : ε)
  | panic
  deriving DecidableEq, Repr

namespace Fail
variable {ε ε' : Type}

def map (f : ε → ε') : Fail ε → Fail ε'
  | .err e => .err (f e)
  | .panic => .panic

@[simp] theorem map_err (f : ε → ε') (e : ε) : (Fail.err e).map f = .err (f e) := rfl
@[simp] theorem map_panic (f : ε → ε') : (Fail.panic : Fail ε).map f = .panic := rfl

end Fail

abbrev Fallible (ε α : Type) := Except (Fail ε) α

namespace Fallible
variable {ε ε' α β : Type}

/-- `Option::unwrap`. -/
def unwrap : Option α → Fallible ε α
  | some a => .ok a
  | none => .error .panic

/-- `Option::ok_or`, followed by `?`. -/
def okOr (o : Option α) (e : ε) : Fallible ε α :=
  match o with
  | some a => .ok a
  | none => .error (.err e)

/-- The `?` operator on a plain result. -/
def ofExcept : Except ε α → Fallible ε α
  | .ok a => .ok a
  | .error e => .error (.err e)

/-- The conversion of its error that `?` applies; a panic is not an error. -/
def convert (f : ε → ε') : Fallible ε α → Fallible ε' α
  | .ok a => .ok a
  | .error x => .error (x.map f)

@[simp] theorem unwrap_some (a : α) : (unwrap (some a) : Fallible ε α) = .ok a := rfl
@[simp] theorem unwrap_none : (unwrap (none : Option α) : Fallible ε α) = .error .panic := rfl
@[simp] theorem okOr_some (a : α) (e : ε) : okOr (some a) e = .ok a := rfl
@[simp] theorem okOr_none (e : ε) : okOr (none : Option α) e = .error (.err e) := rfl
@[simp] theorem ofExcept_ok (a : α) : (ofExcept (.ok a) : Fallible ε α) = .ok a := rfl
@[simp] theorem ofExcept_error (e : ε) :
    ofExcept (.error e : Except ε α) = .error (.err e) := rfl
@[simp] theorem convert_ok (f : ε → ε') (a : α) : convert f (.ok a) = .ok a := rfl
@[simp] theorem convert_error (f : ε → ε') (x : Fail ε) :
    convert f (.error x : Fallible ε α) = .error (x.map f) := rfl

theorem ofExcept_ne_panic (x : Except ε α) :
    (ofExcept x : Fallible ε α) ≠ .error .panic := by
  cases x <;> simp

theorem ofExcept_eq_ok {x : Except ε α} {a : α} :
    (ofExcept x : Fallible ε α) = .ok a ↔ x = .ok a := by
  cases x <;> simp

@[simp] theorem pure_eq (a : α) : (pure a : Fallible ε α) = .ok a := rfl
@[simp] theorem ok_bind (a : α) (f : α → Fallible ε β) : (Except.ok a >>= f) = f a := rfl
@[simp] theorem error_bind (x : Fail ε) (f : α → Fallible ε β) :
    (Except.error x >>= f) = .error x := rfl

theorem bind_eq_ok {x : Fallible ε α} {f : α → Fallible ε β} {b : β} :
    (x >>= f) = .ok b ↔ ∃ a, x = .ok a ∧ f a = .ok b := by
  cases x with
  | ok a => simp
  | error e => simp

theorem bind_eq_panic {x : Fallible ε α} {f : α → Fallible ε β} :
    (x >>= f) = .error .panic ↔ x = .error .panic ∨ ∃ a, x = .ok a ∧ f a = .error .panic := by
  cases x with
  | ok a => simp
  | error e => simp

end Fallible

/-- A computation over the state `σ` that may fail. -/
abbrev Exec (σ ε α : Type) := EStateM (Fail ε) σ α

namespace Exec
variable {σ τ ε α β : Type}

def ofFallible (x : Fallible ε α) : Exec σ ε α := fun s =>
  match x with
  | .ok a => .ok a s
  | .error e => .error e s

def panic : Exec σ ε α := ofFallible (.error .panic)

def onFst (x : Exec σ ε α) : Exec (σ × τ) ε α := fun s =>
  match x s.1 with
  | .ok a s' => .ok a (s',s.2)
  | .error e s' => .error e (s',s.2)

@[simp] theorem run_ofFallible_ok (a : α) (s : σ) :
    (ofFallible (.ok a : Fallible ε α) : Exec σ ε α).run s = .ok a s := rfl
@[simp] theorem run_ofFallible_error (e : Fail ε) (s : σ) :
    (ofFallible (.error e : Fallible ε α) : Exec σ ε α).run s = .error e s := rfl
@[simp] theorem run_panic (s : σ) : (panic : Exec σ ε α).run s = .error .panic s := rfl

@[simp] theorem run_map (f : α → β) (x : Exec σ ε α) (s : σ) :
    (f <$> x).run s =
      match x.run s with
      | .ok a s' => .ok (f a) s'
      | .error e s' => .error e s' := by
  simp only [EStateM.run,Functor.map,EStateM.map]
  cases x s <;> rfl

theorem run_onFst (x : Exec σ ε α) (s : σ) (t : τ) :
    (onFst x : Exec (σ × τ) ε α).run (s,t) =
      match x.run s with
      | .ok a s' => .ok a (s',t)
      | .error e s' => .error e (s',t) := rfl

/-- A loop whose body succeeds wherever the invariant holds is a fold. -/
theorem run_forM {f : α → Exec σ ε Unit} {g : σ → α → σ} {P : σ → Prop}
    (hf : ∀ s a, P s → (f a).run s = .ok () (g s a)) (hP : ∀ s a, P s → P (g s a))
    (xs : List α) {s : σ} (hs : P s) : (xs.forM f).run s = .ok () (xs.foldl g s) := by
  induction xs generalizing s with
  | nil => rfl
  | cons a rest ih =>
    have hrest := ih (hP s a hs)
    change (f a >>= fun _ => rest.forM f).run s = _
    simp only [EStateM.run_bind,hf s a hs,hrest,List.foldl_cons]

end Exec
