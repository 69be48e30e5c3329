import Mathlib.Data.List.Induction

/-! # Machines whose actions may be disabled

Reachable states, the rule for their invariants, and the rule that shows every reachable
state to be the state of a run of a deterministic machine. Runs keep the list of their
actions, for properties that speak of it, and what they put out, for the rule by which one
machine simulates another.
-/
namespace Machine
variable {σ α τ ε β γ δ : Type*}

inductive Reachable (step : σ → α → Option σ) (s₀ : σ) : σ → Prop
  | start : Reachable step s₀ s₀
  | step {s s' : σ} {a : α} (h : Reachable step s₀ s) (hs : step s a = some s') :
      Reachable step s₀ s'

variable {step : σ → α → Option σ} {s₀ s : σ}

theorem Reachable.invariant {P : σ → Prop} (init : P s₀)
    (next : ∀ s a s', P s → step s a = some s' → P s') (h : Reachable step s₀ s) : P s := by
  induction h with
  | start => exact init
  | step _ hs ih => exact next _ _ _ ih hs

/-- Every action does to the view what some list of inputs of the other machine does. -/
theorem Reachable.simulation {next : τ → ε → τ} {view : σ → τ}
    (h : ∀ s a s', step s a = some s' → ∃ es, view s' = List.foldl next (view s) es)
    (hr : Reachable step s₀ s) : ∃ es, view s = List.foldl next (view s₀) es := by
  induction hr with
  | start => exact ⟨[],rfl⟩
  | @step s s' a _ hs ih =>
    obtain ⟨past,hpast⟩ := ih
    obtain ⟨es,hes⟩ := h s a s' hs
    exact ⟨past ++ es,by rw [hes,hpast,List.foldl_append]⟩

/-- The state after these actions, if each was enabled in its turn. -/
def run (step : σ → α → Option σ) (s : σ) (acts : List α) : Option σ := acts.foldlM step s

@[simp] theorem run_nil (s : σ) : run step s [] = some s := rfl

@[simp] theorem run_singleton (s : σ) (a : α) : run step s [a] = step s a := by simp [run]

theorem run_cons {s s' : σ} {a : α} (h : step s a = some s') (rest : List α) :
    run step s (a :: rest) = run step s' rest := by
  simp only [run,List.foldlM_cons,h]
  rfl

theorem run_append (s : σ) (xs ys : List α) :
    run step s (xs ++ ys) = (run step s xs).bind fun s' => run step s' ys := by
  simp [run,List.foldlM_append]

theorem run_snoc (s : σ) (acts : List α) (a : α) :
    run step s (acts ++ [a]) = (run step s acts).bind fun s' => step s' a := by
  simp [run]

/-- An invariant of the actions so far and the state they lead to holds after every run, which
ends in a reachable state. -/
theorem run_invariant {P : List α → σ → Prop} (init : P [] s₀)
    (next : ∀ past s a s', Reachable step s₀ s → P past s → step s a = some s' → P (past ++ [a]) s')
    {acts : List α} (h : run step s₀ acts = some s) : Reachable step s₀ s ∧ P acts s := by
  induction acts using List.reverseRecOn generalizing s with
  | nil =>
    cases h
    exact ⟨.start,init⟩
  | append_singleton past a ih =>
    rw [run_snoc] at h
    obtain ⟨s',hs',hs⟩ := Option.bind_eq_some_iff.mp h
    obtain ⟨hr,hp⟩ := ih hs'
    exact ⟨hr.step hs,next past s' a s hr hp hs⟩

theorem reachable_of_run {acts : List α} (h : run step s₀ acts = some s) :
    Reachable step s₀ s :=
  (run_invariant (P := fun _ _ => True) trivial (fun _ _ _ _ _ _ _ => trivial) h).1

theorem Reachable.trans {s' : σ} (h : Reachable step s₀ s) (h' : Reachable step s s') :
    Reachable step s₀ s' :=
  h'.invariant h fun _ _ _ hr hs => hr.step hs

/-- Actions that change nothing where the run meets them can be left out of it. -/
theorem run_filter {keep : α → Bool} {Q : σ → Prop} {acts : List α} (h : run step s₀ acts = some s)
    (hQ : ∀ s, Reachable step s₀ s → Q s)
    (hskip : ∀ s a s', Q s → a ∈ acts → keep a = false → step s a = some s' → s' = s) :
    run step s₀ (acts.filter keep) = some s := by
  induction acts using List.reverseRecOn generalizing s with
  | nil => exact h
  | append_singleton past a ih =>
    rw [run_snoc] at h
    obtain ⟨s',hs',hs⟩ := Option.bind_eq_some_iff.mp h
    have hpast := ih hs' fun s a s' hq hmem => hskip s a s' hq (List.mem_append_left _ hmem)
    rw [List.filter_append]
    cases hk : keep a with
    | true => simp [hk,run_snoc,hpast,hs]
    | false =>
      have hsame := hskip s' a s (hQ s' (reachable_of_run hs')) (by simp) hk hs
      simpa [hk,hsame] using hpast

/-! ## Outputs and simulation -/

/-- What the actions of a run put out, in order. -/
def outputs (step : σ → α → Option σ) (out : σ → α → List γ) : σ → List α → List γ
  | _, [] => []
  | s, a :: rest =>
    match step s a with
    | some s' => out s a ++ outputs step out s' rest
    | none => []

@[simp] theorem outputs_nil (out : σ → α → List γ) (s : σ) : outputs step out s [] = [] := rfl

theorem outputs_cons (out : σ → α → List γ) {s s' : σ} {a : α} (h : step s a = some s')
    (rest : List α) : outputs step out s (a :: rest) = out s a ++ outputs step out s' rest := by
  simp only [outputs,h]

theorem outputs_singleton (out : σ → α → List γ) {s s' : σ} {a : α} (h : step s a = some s') :
    outputs step out s [a] = out s a := by
  rw [outputs_cons out h,outputs_nil,List.append_nil]

theorem outputs_append (out : σ → α → List γ) {s s' : σ} {xs : List α} (h : run step s xs = some s')
    (ys : List α) :
    outputs step out s (xs ++ ys) = outputs step out s xs ++ outputs step out s' ys := by
  induction xs generalizing s with
  | nil =>
    cases h
    rfl
  | cons a rest ih =>
    obtain ⟨s₁,hs₁,hrest⟩ := Option.bind_eq_some_iff.mp h
    rw [List.cons_append,outputs_cons out hs₁,outputs_cons out hs₁,ih hrest,List.append_assoc]

/-- A run puts out its own actions. -/
theorem outputs_self {acts : List α} (h : run step s₀ acts = some s) :
    outputs step (fun _ a => [a]) s₀ acts = acts := by
  induction acts generalizing s₀ with
  | nil => rfl
  | cons a rest ih =>
    obtain ⟨s₁,hs₁,hrest⟩ := Option.bind_eq_some_iff.mp h
    rw [outputs_cons _ hs₁,ih hrest]
    rfl

theorem outputs_snoc (out : σ → α → List γ) {s s' s'' : σ} {acts : List α} {a : α}
    (h : run step s acts = some s') (ha : step s' a = some s'') :
    outputs step out s (acts ++ [a]) = outputs step out s acts ++ out s' a := by
  rw [outputs_append out h,outputs_cons out ha,outputs_nil,List.append_nil]

/-- An invariant of what was put out so far, in two ways, and of the state holds after every
run. -/
theorem outputs_invariant₂ (out : σ → α → List γ) (out' : σ → α → List δ)
    {P : List γ → List δ → σ → Prop} (init : P [] [] s₀)
    (next : ∀ seen seen' s a s', Reachable step s₀ s → P seen seen' s → step s a = some s' →
      P (seen ++ out s a) (seen' ++ out' s a) s')
    {acts : List α} (h : run step s₀ acts = some s) :
    P (outputs step out s₀ acts) (outputs step out' s₀ acts) s := by
  induction acts using List.reverseRecOn generalizing s with
  | nil =>
    cases h
    exact init
  | append_singleton past a ih =>
    rw [run_snoc] at h
    obtain ⟨s',hs',hs⟩ := Option.bind_eq_some_iff.mp h
    rw [outputs_snoc out hs' hs,outputs_snoc out' hs' hs]
    exact next _ _ s' a s (reachable_of_run hs') (ih hs') hs

theorem outputs_invariant {out : σ → α → List γ} {P : List γ → σ → Prop} (init : P [] s₀)
    (next : ∀ seen s a s', Reachable step s₀ s → P seen s → step s a = some s' →
      P (seen ++ out s a) s')
    {acts : List α} (h : run step s₀ acts = some s) : P (outputs step out s₀ acts) s :=
  outputs_invariant₂ out out (P := fun seen _ s => P seen s) init
    (fun seen _ s a s' => next seen s a s') h

/-- Forward simulation: where a run of the second machine matches each action of the first, puts
out the same and ends in a related state, a run of it matches every run of the first. -/
theorem run_simulates {step' : τ → β → Option τ} {t₀ : τ} {out : σ → α → List γ}
    {out' : τ → β → List γ} {R : σ → τ → Prop} (init : R s₀ t₀)
    (next : ∀ s t a s', Reachable step s₀ s → Reachable step' t₀ t → R s t → step s a = some s' →
      ∃ bs t', run step' t bs = some t' ∧ outputs step' out' t bs = out s a ∧ R s' t')
    {acts : List α} (h : run step s₀ acts = some s) :
    ∃ bs t, run step' t₀ bs = some t ∧
      outputs step' out' t₀ bs = outputs step out s₀ acts ∧ R s t := by
  refine outputs_invariant (P := fun seen s => ∃ bs t, run step' t₀ bs = some t ∧
    outputs step' out' t₀ bs = seen ∧ R s t) ⟨[],t₀,rfl,rfl,init⟩ ?_ h
  rintro seen s a s' hr ⟨bs,t,hbs,rfl,hrel⟩ hs
  obtain ⟨more,t',hmore,hout,hrel'⟩ := next s t a s' hr (reachable_of_run hbs) hrel hs
  refine ⟨bs ++ more,t',?_,?_,hrel'⟩
  · rw [run_append,hbs]
    exact hmore
  · rw [outputs_append out' hbs,hout]

/-- Where every allowed action lowers a measure, allowed actions cannot follow one another for
ever. -/
theorem allowed_stop {ν : Type*} {r : ν → ν → Prop} (wf : WellFounded r) (μ : σ → ν)
    (allowed : α → Prop) (next : ∀ s a s', allowed a → step s a = some s' → r (μ s') (μ s))
    (states : ℕ → σ) : ∃ n, ∀ a, allowed a → step (states n) a ≠ some (states (n + 1)) := by
  by_contra hnever
  push Not at hnever
  have hless : ∀ n, r (μ (states (n + 1))) (μ (states n)) := by
    intro n
    obtain ⟨a,ha,hs⟩ := hnever n
    exact next _ a _ ha hs
  have hno : ∀ m n, μ (states n) ≠ m := by
    intro m
    induction m using wf.induction with
    | _ m ih =>
      rintro n rfl
      exact ih _ (hless n) (n + 1) rfl
  exact hno _ 0 rfl

end Machine
