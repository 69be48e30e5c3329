import NexusRelay.Foundation.Fallible

/-! # Computations split at a question

A computation that needs an answer from outside is split where it asks: the first part ends
with what has to be kept or with a result, and the rest goes on from what was kept and the
answer.
-/
namespace Exec
variable {σ ε ε' α β γ κ A : Type}

/-- On with the rest, if the first part asked. -/
def resume (rest : κ → A → Exec σ ε α) (a : A) : κ ⊕ α → Exec σ ε α
  | .inl k => rest k a
  | .inr x => pure x

/-- Whatever the answer, the whole is the first part and then the rest. -/
def Splits (whole : A → Exec σ ε α) (first : Exec σ ε (κ ⊕ α)) (rest : κ → A → Exec σ ε α) : Prop :=
  ∀ a, whole a = first >>= resume rest a

def mapOk (f : α → β) : EStateM.Result (Fail ε) σ α → EStateM.Result (Fail ε) σ β
  | .ok x s => .ok (f x) s
  | .error e s => .error e s

/-- What follows a computation, also where it failed. -/
def andThen (x : Exec σ ε α)
    (g : EStateM.Result (Fail ε) σ α → EStateM.Result (Fail ε') σ β) : Exec σ ε' β :=
  fun s => g (x.run s)

/-- The same after a first part, which has to wait where it asked. -/
def firstAndThen (first : Exec σ ε (κ ⊕ α))
    (g : EStateM.Result (Fail ε) σ α → EStateM.Result (Fail ε') σ β) : Exec σ ε' (κ ⊕ β) :=
  fun s =>
    match first.run s with
    | .ok (.inl k) s' => .ok (.inl k) s'
    | .ok (.inr x) s' => mapOk .inr (g (.ok x s'))
    | .error e s' => mapOk .inr (g (.error e s'))

variable {whole : A → Exec σ ε α} {first : Exec σ ε (κ ⊕ α)} {rest : κ → A → Exec σ ε α}

theorem Splits.run (h : Splits whole first rest) (a : A) (s : σ) :
    (whole a).run s =
      match first.run s with
      | .ok (.inl k) s' => (rest k a).run s'
      | .ok (.inr x) s' => .ok x s'
      | .error e s' => .error e s' := by
  rw [h a,EStateM.run_bind]
  rcases first.run s with ⟨k | x,s'⟩ | ⟨e,s'⟩ <;> rfl

theorem Splits.of_run (h : ∀ a s, (whole a).run s =
    match first.run s with
    | .ok (.inl k) s' => (rest k a).run s'
    | .ok (.inr x) s' => .ok x s'
    | .error e s' => .error e s') : Splits whole first rest := by
  intro a
  funext s
  have hrun := h a s
  simp only [EStateM.run] at hrun
  rw [hrun]
  simp only [bind,EStateM.bind]
  rcases first s with ⟨k | x,s'⟩ | ⟨e,s'⟩ <;> rfl

/-- A computation that never asks. -/
theorem Splits.quiet (x : Exec σ ε α) (rest : κ → A → Exec σ ε α) :
    Splits (fun _ => x) (.inr <$> x) rest := by
  intro a
  rw [bind_map_left]
  exact (bind_pure x).symm

/-- What comes before the question belongs to the first part. -/
theorem Splits.after (x : Exec σ ε γ) {whole : γ → A → Exec σ ε α}
    {first : γ → Exec σ ε (κ ⊕ α)} (h : ∀ c, Splits (whole c) (first c) rest) :
    Splits (fun a => x >>= fun c => whole c a) (x >>= first) rest := by
  intro a
  have hwhole : (fun c => whole c a) = fun c => first c >>= resume rest a := funext fun c => h c a
  rw [bind_assoc,← hwhole]

/-- What comes after the whole comes after the rest, or after the first part if that is all. -/
theorem Splits.andThen (h : Splits whole first rest)
    (g : EStateM.Result (Fail ε) σ α → EStateM.Result (Fail ε') σ β) :
    Splits (fun a => (whole a).andThen g) (first.firstAndThen g)
      fun k a => (rest k a).andThen g := by
  refine .of_run fun a s => ?_
  have hrun := h.run a s
  simp only [Exec.andThen,firstAndThen,EStateM.run] at hrun ⊢
  rw [hrun]
  rcases first s with ⟨k | x,s'⟩ | ⟨e,s'⟩
  · rfl
  · cases h : g (.ok x s') <;> simp only [h,mapOk]
  · cases h : g (.error e s') <;> simp only [h,mapOk]

/-! ## When the first part asks -/

/-- What does not ask has a result. -/
theorem run_map_inr_ne (x : Exec σ ε α) (k : κ) (s s' : σ) :
    ((.inr <$> x : Exec σ ε (κ ⊕ α))).run s ≠ .ok (.inl k) s' := by
  rw [run_map]
  cases x.run s <;> simp

theorem run_firstAndThen_asks {first : Exec σ ε (κ ⊕ α)}
    {g : EStateM.Result (Fail ε) σ α → EStateM.Result (Fail ε') σ β} {k : κ} {s s' : σ} :
    (first.firstAndThen g).run s = .ok (.inl k) s' ↔ first.run s = .ok (.inl k) s' := by
  have hmap : ∀ r : EStateM.Result (Fail ε') σ β,
      mapOk (.inr : β → κ ⊕ β) r ≠ .ok (.inl k) s' := by
    intro r
    cases r <;> simp [mapOk]
  simp only [firstAndThen,EStateM.run]
  rcases first s with ⟨k' | x,s₁⟩ | ⟨e,s₁⟩
  · simp
  · simpa using hmap (g (.ok x s₁))
  · simpa using hmap (g (.error e s₁))

end Exec
