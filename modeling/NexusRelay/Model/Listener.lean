import NexusRelay.Model.Zmq

/-! # The loop of the listener

`start_zmq_listener` is spawned once, with an empty cache, and ends when its socket does. It
looks at nothing between two messages, so its runs are those of this loop from any state.
-/
namespace NexusRelay
open Shared
variable {X : Deps} {TmqError : Type}

/-- One turn of the loop. An error, of the message or of the socket, is only logged; a panic
ends the task. -/
def receive (network : Network) (received : Except TmqError (List Bytes)) :
    Exec (Shared × BoundedSet String) (Error X) Unit := fun s =>
  match received with
  | .error _ => .ok () s
  | .ok multipart =>
    match (processZmqMessage (X := X) multipart network).run s with
    | .ok () s' => .ok () s'
    | .error (.err e) (w,seen) => .ok () (w.unwind (Fail.err e),seen)
    | .error .panic s' => .error .panic s'

def listen (network : Network) (received : List (Except TmqError (List Bytes))) :
    Exec (Shared × BoundedSet String) (Error X) Unit :=
  received.forM (receive network)

/-- The loop on what the socket yields, from the shared state the task finds. -/
def startZmqListener (network : Network) (txCacheSize : ℕ)
    (received : List (Except TmqError (List Bytes))) (w : Shared) :
    EStateM.Result (Fail (Error X)) (Shared × BoundedSet String) Unit :=
  (listen network received).run (w,.new txCacheSize)

variable (network : Network) (s : Shared × BoundedSet String)

@[simp] theorem listen_nil :
    (listen network ([] : List (Except TmqError (List Bytes))) :
      Exec (Shared × BoundedSet String) (Error X) Unit).run s = .ok () s := rfl

theorem listen_append (xs ys : List (Except TmqError (List Bytes))) :
    (listen network (xs ++ ys) : Exec (Shared × BoundedSet String) (Error X) Unit).run s =
      match (listen network xs : Exec (Shared × BoundedSet String) (Error X) Unit).run s with
      | .ok () s' => (listen network ys).run s'
      | .error f s' => .error f s' := by
  simp only [listen,List.forM_eq_forM,List.forM_append,EStateM.run_bind]
  cases EStateM.run (forM xs (receive (X := X) network)) s <;> rfl

theorem listen_singleton (m : Except TmqError (List Bytes)) :
    (listen network [m] : Exec (Shared × BoundedSet String) (Error X) Unit).run s =
      (receive network m).run s := by
  simp only [listen,List.forM_eq_forM,List.forM_cons,List.forM_nil,bind_pure_comp,id_map']

end NexusRelay
