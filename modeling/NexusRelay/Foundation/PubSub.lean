import Mathlib.Data.List.Basic

/-! # The ideal publish/subscribe log

What a group of subscribers behind one channel is owed depends on the history of
operations alone: every publication made while the channel is open is owed once
for each earlier subscription to its topic. There is no table of subscribers here
and nothing is ever pruned.
-/
namespace PubSub
variable {T S C M : Type*}

/-- One operation on the hub: a subscriber joins a topic, a message is published
under a topic, or the receiving end of a channel goes away. -/
inductive Op (T S C M : Type*) where
  | subscribe (topic : T) (subscriber : S)
  | publish (topic : T) (message : M)
  | close (channel : C)
  deriving DecidableEq

section Subscriptions
variable [DecidableEq T]

def joins (p : S → Bool) (t : T) : Op T S C M → Bool
  | .subscribe t' s => decide (t' = t) && p s
  | _ => false

def subscriptions (p : S → Bool) (t : T) (past : List (Op T S C M)) : ℕ :=
  past.countP (joins p t)

@[simp] theorem subscriptions_nil (p : S → Bool) (t : T) :
    subscriptions p t ([] : List (Op T S C M)) = 0 := rfl

theorem subscriptions_snoc (p : S → Bool) (t : T) (ops : List (Op T S C M)) (op : Op T S C M) :
    subscriptions p t (ops ++ [op]) = subscriptions p t ops + if joins p t op then 1 else 0 := by
  simp only [subscriptions,List.countP_append]
  rw [List.countP_singleton]

end Subscriptions

section Channels
variable [DecidableEq C]

def closes (c : C) : Op T S C M → Bool
  | .close d => decide (d = c)
  | _ => false

def isOpen (c : C) (past : List (Op T S C M)) : Bool := !past.any (closes c)

@[simp] theorem isOpen_nil (c : C) : isOpen c ([] : List (Op T S C M)) = true := rfl

theorem isOpen_snoc (c : C) (ops : List (Op T S C M)) (op : Op T S C M) :
    isOpen c (ops ++ [op]) = (isOpen c ops && !closes c op) := by
  simp [isOpen]

end Channels

variable [DecidableEq T] [DecidableEq C]

/-- What one operation sends through `c` to the subscribers in `p`. -/
def owed (p : S → Bool) (c : C) (past : List (Op T S C M)) : Op T S C M → List M
  | .publish t m => if isOpen c past then List.replicate (subscriptions p t past) m else []
  | _ => []

/-- The whole stream sent through `c` to the subscribers in `p` by the operations
`todo`, which follow the operations `past`. -/
def stream (p : S → Bool) (c : C) : List (Op T S C M) → List (Op T S C M) → List M
  | _, [] => []
  | past, op :: todo => owed p c past op ++ stream p c (past ++ [op]) todo

def log (p : S → Bool) (c : C) (ops : List (Op T S C M)) : List M := stream p c [] ops

theorem stream_append (p : S → Bool) (c : C) (past xs ys : List (Op T S C M)) :
    stream p c past (xs ++ ys) = stream p c past xs ++ stream p c (past ++ xs) ys := by
  induction xs generalizing past with
  | nil => simp [stream]
  | cons op rest ih => simp [stream,ih,List.append_assoc]

@[simp] theorem log_nil (p : S → Bool) (c : C) : log p c ([] : List (Op T S C M)) = [] := rfl

theorem log_snoc (p : S → Bool) (c : C) (ops : List (Op T S C M)) (op : Op T S C M) :
    log p c (ops ++ [op]) = log p c ops ++ owed p c ops op := by
  simp [log,stream_append,stream]

end PubSub
