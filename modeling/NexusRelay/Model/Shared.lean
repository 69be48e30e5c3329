import NexusRelay.Foundation.Fallible
import NexusRelay.Model.Registry

/-! # The state all tasks share

The registry behind its mutex and the channels. An action that fails stops in the
state at the point of failure: a guard that was alive there is still held in that
state, and `unwind` drops it, poisoning the mutex when the failure is a panic.
-/
namespace NexusRelay

structure Mutex where
  held : Bool := false
  poisoned : Bool := false
  deriving DecidableEq, Repr

/-- `clones` counts the sender clones made by subscriptions; it only names the handles. -/
structure Shared where
  registry : TopicRegistry
  mutex : Mutex
  channels : Channels
  clones : ℕ

namespace Shared
variable {ε : Type}

def start : Shared := ⟨.new,{},fun _ => {},0⟩

/-- Nobody holds the mutex and no panic has poisoned it. -/
def Healthy (w : Shared) : Prop := w.mutex = {}

/-- The state once the guards alive at a failure are dropped. -/
def unwind (w : Shared) : Fail ε → Shared
  | .err _ => { w with mutex := { w.mutex with held := false } }
  | .panic =>
    { w with mutex := { held := false, poisoned := w.mutex.poisoned || w.mutex.held } }

/-- `registry.lock()`, true for `Ok(guard)`. The error of a poisoned mutex holds the
guard as well. Locking again inside a guard deadlocks or panics. -/
def lock : Exec Shared ε Bool := do
  let w ← get
  if w.mutex.held then .panic
  else do
    set { w with mutex := { w.mutex with held := true } }
    return !w.mutex.poisoned

/-- `registry.lock().unwrap()`. -/
def lockUnwrap : Exec Shared ε Unit := do
  let ok ← lock
  if ok then return () else .panic

def dropGuard : Exec Shared ε Unit :=
  modify fun w => { w with mutex := { w.mutex with held := false } }

/-- `client_tx.clone()`. -/
def cloneSender (sender : Sender) : Exec Shared ε Sender :=
  modifyGet fun w => (⟨sender.chan,.subscription w.clones⟩,{ w with clones := w.clones + 1 })

/-- `registry_guard.subscribe(topic, sender)`. -/
def subscribe (topic : Topic) (sender : Sender) : Exec Shared ε Unit :=
  modify fun w => { w with registry := w.registry.subscribe topic sender }

/-- `registry_guard.publish(topic, message)`. -/
def publish (topic : Topic) (message : String) : Exec Shared ε ℕ :=
  modifyGet fun w =>
    let (registry,channels,sentCount) := w.registry.publish topic message w.channels
    (sentCount,{ w with registry := registry, channels := channels })

/-! ## The ways the shared state changes -/

def nextSender (w : Shared) (c : ℕ) : Sender := ⟨c,.subscription w.clones⟩

def subscribed (w : Shared) (topic : Topic) (c : ℕ) : Shared :=
  { w with
    registry := w.registry.subscribe topic (w.nextSender c)
    clones := w.clones + 1 }

def receivers (w : Shared) (topic : Topic) : List Sender :=
  w.channels.live (w.registry.entryOrDefault topic)

def published (w : Shared) (topic : Topic) (message : String) : Shared :=
  { w with
    registry := (w.registry.publish topic message w.channels).1
    channels := (w.registry.publish topic message w.channels).2.1 }

/-- A reply is enqueued, unless the receiver is gone. -/
def replied (w : Shared) (tx : Sender) (text : String) : Shared :=
  if (w.channels tx.chan).rxOpen then
    { w with channels :=
        Function.update w.channels tx.chan ((w.channels tx.chan).put ⟨text,.reply⟩) }
  else w

/-- One elementary change: channel `chan` subscribes, a text is published, a reply is sent,
a text of channel `c` is taken, the receiver of channel `c` is dropped. -/
inductive Change where
  | subscribe (topic : Topic) (chan : ℕ)
  | publish (topic : Topic) (text : String)
  | reply (tx : Sender) (text : String)
  | take (c : ℕ)
  | close (c : ℕ)
  deriving DecidableEq, Repr

def apply (w : Shared) : Change → Shared
  | .subscribe topic chan => w.subscribed topic chan
  | .publish topic text => w.published topic text
  | .reply tx text => w.replied tx text
  | .take c => { w with channels := w.channels.take c }
  | .close c => { w with channels := w.channels.close c }

def applyAll (w : Shared) (changes : List Change) : Shared := changes.foldl apply w

@[simp] theorem applyAll_nil (w : Shared) : w.applyAll [] = w := rfl
@[simp] theorem applyAll_cons (w : Shared) (x : Change) (xs : List Change) :
    w.applyAll (x :: xs) = (w.apply x).applyAll xs := rfl

theorem applyAll_append (w : Shared) (xs ys : List Change) :
    w.applyAll (xs ++ ys) = (w.applyAll xs).applyAll ys := by
  simp [applyAll]

theorem published_registry (w : Shared) (t : Topic) (m : String) :
    (w.published t m).registry = ⟨w.registry.topics.insert t (w.receivers t)⟩ := by
  simp only [published,TopicRegistry.publish_eq,receivers]

theorem published_channels (w : Shared) (t : Topic) (m : String) :
    (w.published t m).channels = w.channels.deliver t m (w.receivers t) := by
  simp only [published,TopicRegistry.publish_eq,receivers]

@[simp] theorem replied_mutex (w : Shared) (tx : Sender) (text : String) :
    (w.replied tx text).mutex = w.mutex := by
  unfold replied; split <;> rfl
@[simp] theorem replied_clones (w : Shared) (tx : Sender) (text : String) :
    (w.replied tx text).clones = w.clones := by
  unfold replied; split <;> rfl

theorem replied_registry (w : Shared) (tx : Sender) (text : String) :
    (w.replied tx text).registry = w.registry := by
  unfold replied; split <;> rfl

/-- No change touches the mutex: the guards are taken and dropped inside. -/
theorem apply_mutex (w : Shared) (x : Change) : (w.apply x).mutex = w.mutex := by
  cases x with
  | reply tx text => exact replied_mutex w tx text
  | subscribe | publish | take | close => rfl

theorem Healthy.apply {w : Shared} (h : w.Healthy) (x : Change) : (w.apply x).Healthy :=
  (apply_mutex w x).trans h

theorem Healthy.applyAll {w : Shared} (h : w.Healthy) (xs : List Change) :
    (w.applyAll xs).Healthy := by
  induction xs generalizing w with
  | nil => exact h
  | cons x rest ih => exact ih (h.apply x)

/-- Only the drop of its receiver closes a channel. -/
theorem apply_rxOpen (w : Shared) {x : Change} {c : ℕ} (h : x ≠ .close c) :
    ((w.apply x).channels c).rxOpen = (w.channels c).rxOpen := by
  cases x with
  | subscribe t d => rfl
  | publish t m =>
    rw [apply,published_channels]
    rfl
  | reply tx text =>
    simp only [apply,replied]
    split
    · by_cases hc : c = tx.chan
      · subst hc; simp [Channel.put]
      · simp [hc]
    · rfl
  | take d => exact Channels.take_rxOpen _ d c
  | close d =>
    have hc : c ≠ d := fun e => h (e ▸ rfl)
    simp [apply,Channels.close,hc]

theorem applyAll_rxOpen (w : Shared) {xs : List Change} {c : ℕ} (h : .close c ∉ xs) :
    ((w.applyAll xs).channels c).rxOpen = (w.channels c).rxOpen := by
  induction xs generalizing w with
  | nil => rfl
  | cons x rest ih =>
    have hx : x ≠ .close c := fun e => h (e ▸ List.mem_cons_self)
    rw [applyAll_cons,ih (w.apply x) fun hmem => h (List.mem_cons_of_mem x hmem),
      apply_rxOpen w hx]

theorem start_healthy : start.Healthy := rfl

theorem Healthy.unwind {w : Shared} (h : w.Healthy) (f : Fail ε) : w.unwind f = w := by
  rcases w with ⟨r,m,chs,n⟩
  have hm : m = {} := h
  subst hm
  cases f <;> rfl

def locked (w : Shared) : Shared := { w with mutex := { held := true } }

theorem run_lock {w : Shared} (h : w.Healthy) :
    (lock : Exec Shared ε Bool).run w = .ok true w.locked := by
  rcases w with ⟨r,m,chs,n⟩
  have hm : m = {} := h
  subst hm
  rfl

theorem run_lockUnwrap {w : Shared} (h : w.Healthy) :
    (lockUnwrap : Exec Shared ε Unit).run w = .ok () w.locked := by
  simp [lockUnwrap,run_lock h]

/-- On a mutex that is held or poisoned the unwrap panics, and only flags have changed. -/
theorem run_lockUnwrap_panics {w : Shared} (h : ¬ w.Healthy) :
    ∃ m, (lockUnwrap : Exec Shared ε Unit).run w = .error .panic { w with mutex := m } := by
  rcases w with ⟨r,⟨held,poisoned⟩,chs,n⟩
  cases held with
  | true => exact ⟨_,rfl⟩
  | false =>
    cases poisoned with
    | true => exact ⟨_,rfl⟩
    | false => exact absurd rfl h

def unlocked (w : Shared) : Shared := { w with mutex := { w.mutex with held := false } }

@[simp] theorem run_dropGuard (w : Shared) :
    (dropGuard : Exec Shared ε Unit).run w = .ok () w.unlocked := rfl

@[simp] theorem run_publish (w : Shared) (t : Topic) (m : String) :
    (publish t m : Exec Shared ε ℕ).run w =
      .ok (w.registry.publish t m w.channels).2.2 (w.published t m) := rfl

theorem unlocked_published {w : Shared} (h : w.Healthy) (t : Topic) (m : String) :
    (w.locked.published t m).unlocked = w.published t m := by
  rcases w with ⟨r,mu,chs,n⟩
  have hm : mu = {} := h
  subst hm
  rfl

theorem unlocked_subscribed {w : Shared} (h : w.Healthy) (t : Topic) (c : ℕ) :
    (w.locked.subscribed t c).unlocked = w.subscribed t c := by
  rcases w with ⟨r,mu,chs,n⟩
  have hm : mu = {} := h
  subst hm
  rfl

end Shared

end NexusRelay
