import NexusRelay.Model.Connection

/-! # Teardown of a connection

The loop is left with `drop(client_tx_clone)`, but the `client_tx` it was cloned from is a
local of `handle_connection` until the function returns, and the function awaits the
forward task, which ends when every sender is gone.
-/
namespace NexusRelay
open Shared
variable {X : Deps}

def Connection.Consistent (conn : Connection) : Prop :=
  match conn.phase with
  | .reading | .handling _ => conn.clientTx = true ∧ conn.clientTxClone = true
  | .joining => conn.clientTx = true ∧ conn.clientTxClone = false
  | .returned => conn.clientTx = false ∧ conn.clientTxClone = false ∧ conn.forwarding = false
  | .panicked => conn.clientTx = false ∧ conn.clientTxClone = false

theorem Connection.Consistent.moves {conn conn' : Connection} (h : conn.Consistent)
    (hm : conn.Moves conn') : conn'.Consistent := by
  unfold Consistent at h
  cases hm with
  | receives hp text | answered hp =>
    rw [hp] at h
    exact h
  | leavesLoop hp =>
    rcases hp with hp | ⟨text,hp⟩
    · rw [hp] at h
      exact ⟨h.1,rfl⟩
    · rw [hp] at h
      exact ⟨h.1,rfl⟩
  | panics hp => exact ⟨rfl,rfl⟩
  | stopsForwarding =>
    unfold Consistent
    split at h
    all_goals simp_all
  | returns hp hf => exact ⟨rfl,rfl,hf⟩

theorem System.reachable_consistent {network : Network} {txCacheSize : ℕ} {s : System}
    (h : Machine.Reachable (System.step (X := X) network) (System.start txCacheSize) s) :
    ∀ conn ∈ s.connections, conn.Consistent :=
  System.reachable_connections ⟨rfl,rfl⟩ (fun _ _ hc hm => hc.moves hm) h

theorem System.clientTx_alive {s : System} {i : ℕ} {conn : Connection}
    (hconn : s.connections[i]? = some conn) (h : conn.clientTx = true) :
    s.Alive ⟨i,.clientTx⟩ := by
  refine Or.inl ?_
  simp [System.locals,hconn,h]

/-- In every reachable state, a connection at `forward_task.await` still has its `client_tx`:
its channel is not released, and `recv` does not return `None`. -/
theorem joining_not_released (network : Network) (txCacheSize : ℕ) {s : System}
    (hr : Machine.Reachable (System.step (X := X) network) (System.start txCacheSize) s) {i : ℕ}
    {conn : Connection} (hconn : s.connections[i]? = some conn) (hj : conn.phase = .joining) :
    ¬ s.Released i ∧ s.step network (.drained i : Act X) = none := by
  have hc := System.reachable_consistent hr conn (List.mem_of_getElem? hconn)
  unfold Connection.Consistent at hc
  rw [hj] at hc
  have halive := System.clientTx_alive hconn hc.1
  have hnot : ¬ s.Released i := fun h => h ⟨i,.clientTx⟩ rfl halive
  refine ⟨hnot,?_⟩
  have hsender : s.hasSender i = true := by
    cases hs : s.hasSender i with
    | true => rfl
    | false => exact absurd (System.alive_of_hasSender_eq_false hs) hnot
  simp [System.step,hconn,hsender]

/-! ## A connection that only opens and closes -/

/-- The state after a connection was accepted and its stream ended. -/
def Sample.closed : System :=
  ⟨.start 1000,true,[{ phase := .joining, clientTxClone := false }]⟩

theorem Sample.closed_reachable : Machine.Reachable
    (System.step (X := Deps.sample) .elementsRegtest) (System.start 1000) Sample.closed :=
  .step (a := .stop 0) (.step (a := .accept) .start rfl) rfl

theorem closed_keeps_task : Sample.closed.step .elementsRegtest (.drained 0 : Act Deps.sample) = none :=
  (joining_not_released .elementsRegtest 1000 Sample.closed_reachable rfl rfl).2

/-- Its queue is empty and it never subscribed, but a sender is alive where the forward task
is awaited. -/
theorem closed_not_released :
    ∃ s : System, Machine.Reachable (System.step (X := Deps.sample) .elementsRegtest)
        (System.start 1000) s ∧
      ∃ conn, s.connections[0]? = some conn ∧ conn.phase = .joining ∧
        (s.relay.shared.channels 0).log = [] ∧ s.Alive ⟨0,.clientTx⟩ ∧ ¬ s.Released 0 := by
  have halive : Sample.closed.Alive ⟨0,.clientTx⟩ := System.clientTx_alive rfl rfl
  exact ⟨Sample.closed,Sample.closed_reachable,_,rfl,rfl,rfl,halive,
    fun h => h ⟨0,.clientTx⟩ rfl halive⟩

end NexusRelay
