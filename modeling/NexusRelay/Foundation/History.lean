import Mathlib.Data.List.Induction

/-! # Runs of a deterministic machine and their histories

A run is a left fold of the step function over the list of its inputs. Invariants
may mention the whole history, so the induction appends one input at a time.
-/
namespace History
variable {σ ε α : Type*}

/-- An invariant of the inputs so far and the state they lead to holds after every run. -/
theorem run_induction {step : σ → ε → σ} {s₀ : σ} {P : List ε → σ → Prop} (init : P [] s₀)
    (next : ∀ past s e, P past s → P (past ++ [e]) (step s e)) (tr : List ε) :
    P tr (tr.foldl step s₀) := by
  induction tr using List.reverseRecOn with
  | nil => exact init
  | append_singleton past e ih =>
    rw [List.foldl_append]
    exact next past _ e ih

/-- A view of the state that is itself a machine runs as that machine. -/
theorem foldl_view {τ : Type*} {step : σ → ε → σ} {step' : τ → ε → τ} {view : σ → τ}
    (h : ∀ s e, view (step s e) = step' (view s) e) (tr : List ε) (s : σ) :
    view (tr.foldl step s) = tr.foldl step' (view s) := by
  induction tr generalizing s with
  | nil => rfl
  | cons e rest ih => rw [List.foldl_cons,List.foldl_cons,ih,h]

/-- Inputs that change nothing can be left out. -/
theorem foldl_filter {step : σ → ε → σ} {keep : ε → Bool}
    (h : ∀ s e, keep e = false → step s e = s) (tr : List ε) (s : σ) :
    (tr.filter keep).foldl step s = tr.foldl step s := by
  induction tr generalizing s with
  | nil => rfl
  | cons e rest ih =>
    cases hk : keep e with
    | true => rw [List.filter_cons_of_pos hk,List.foldl_cons,List.foldl_cons,ih]
    | false =>
      rw [List.filter_cons_of_neg (by simp [hk]),List.foldl_cons,h s e hk]
      exact ih s

def collect (step : σ → ε → σ) (f : σ → ε → List α) : σ → List ε → List α
  | _, [] => []
  | s, e :: rest => f s e ++ collect step f (step s e) rest

theorem collect_eq_nil {step : σ → ε → σ} {f : σ → ε → List α} {s : σ} {xs : List ε}
    (h : ∀ s, ∀ e ∈ xs, f s e = []) : collect step f s xs = [] := by
  induction xs generalizing s with
  | nil => rfl
  | cons e rest ih =>
    rw [collect,h s e List.mem_cons_self,List.nil_append]
    exact ih fun s e he => h s e (List.mem_cons_of_mem _ he)

variable (step : σ → ε → σ) (f : σ → ε → List α)

@[simp] theorem collect_nil (s : σ) : collect step f s [] = [] := rfl

theorem collect_append (s : σ) (xs ys : List ε) :
    collect step f s (xs ++ ys) = collect step f s xs ++ collect step f (xs.foldl step s) ys := by
  induction xs generalizing s with
  | nil => rfl
  | cons e rest ih =>
    simp only [List.cons_append, collect, List.foldl_cons, List.append_assoc]
    rw [ih]

@[simp] theorem collect_snoc (s : σ) (xs : List ε) (e : ε) :
    collect step f s (xs ++ [e]) = collect step f s xs ++ f (xs.foldl step s) e := by
  rw [collect_append]
  simp [collect]

end History
