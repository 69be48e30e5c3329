import Mathlib.Data.List.Count
import Mathlib.Data.Multiset.Count

/-! # Mailboxes

What a publish/subscribe service is for, from the side of one client: a mailbox and the topics
it is joined to. A client reads its mailbox in order until it leaves. There is no table of
subscribers, so what another client does for itself cannot matter.
-/

/-- The mailbox of a client. It is joined to a topic as often as the client asked. -/
structure Mailbox (T M : Type*) where
  topics : Multiset T := ∅
  read : List M := []
  unread : List M := []
  isOpen : Bool := true

namespace Mailbox
variable {T C M : Type*}

/-- What happens to the service: a client joins a topic, a message is posted to a topic or told
to one client, a client reads the next message or leaves. -/
inductive Action (T C M : Type*) where
  | join (topic : T) (client : C)
  | post (topic : T) (message : M)
  | tell (client : C) (message : M)
  | read (client : C)
  | leave (client : C)
  deriving DecidableEq, Repr

/-- All messages put into the mailbox. -/
def inbox (b : Mailbox T M) : List M := b.read ++ b.unread

/-- Whoever left gets nothing more. -/
def put (b : Mailbox T M) (messages : List M) : Mailbox T M :=
  if b.isOpen then { b with unread := b.unread ++ messages } else b

def next (b : Mailbox T M) : Mailbox T M :=
  match b.unread with
  | [] => b
  | m :: rest => { b with read := b.read ++ [m], unread := rest }

@[simp] theorem put_topics (b : Mailbox T M) (ms : List M) : (b.put ms).topics = b.topics := by
  unfold put
  split <;> rfl

@[simp] theorem put_isOpen (b : Mailbox T M) (ms : List M) : (b.put ms).isOpen = b.isOpen := by
  unfold put
  split <;> rfl

theorem put_inbox (b : Mailbox T M) (ms : List M) :
    (b.put ms).inbox = b.inbox ++ if b.isOpen then ms else [] := by
  cases h : b.isOpen with
  | true => simp [put,inbox,h]
  | false => simp [put,inbox,h]

@[simp] theorem next_inbox (b : Mailbox T M) : b.next.inbox = b.inbox := by
  cases h : b.unread with
  | nil => simp [next,inbox,h]
  | cons m rest => simp [next,inbox,h]

@[simp] theorem next_isOpen (b : Mailbox T M) : b.next.isOpen = b.isOpen := by
  unfold next
  split <;> rfl

section Runs
variable [DecidableEq T] [DecidableEq C]

/-- What an action is to the client `c`. -/
def step (c : C) (b : Mailbox T M) : Action T C M → Mailbox T M
  | .join t d => if d = c then { b with topics := t ::ₘ b.topics } else b
  | .post t m => b.put (List.replicate (b.topics.count t) m)
  | .tell d m => if d = c then b.put [m] else b
  | .read d => if d = c then b.next else b
  | .leave d => if d = c then { b with isOpen := false } else b

def run (c : C) (b : Mailbox T M) (actions : List (Action T C M)) : Mailbox T M :=
  actions.foldl (step c) b

/-- What an action puts into the mailbox. -/
def gained (c : C) (b : Mailbox T M) : Action T C M → List M
  | .post t m => if b.isOpen then List.replicate (b.topics.count t) m else []
  | .tell d m => if d = c ∧ b.isOpen then [m] else []
  | .join _ _ | .read _ | .leave _ => []

theorem step_inbox (c : C) (b : Mailbox T M) (a : Action T C M) :
    (b.step c a).inbox = b.inbox ++ b.gained c a := by
  cases a with
  | post t m => exact put_inbox b _
  | tell d m =>
    by_cases hd : d = c
    · simp [step,gained,hd,put_inbox]
    · simp [step,gained,hd]
  | read d =>
    by_cases hd : d = c
    · simp [step,gained,hd]
    · simp [step,gained,hd]
  | join t d | leave d =>
    rw [gained,List.append_nil,step]
    split <;> rfl

/-- Whoever left does not come back. -/
theorem run_isOpen_of_closed {b : Mailbox T M} (h : b.isOpen = false) (c : C)
    (actions : List (Action T C M)) : (b.run c actions).isOpen = false := by
  induction actions generalizing b with
  | nil => exact h
  | cons a rest ih =>
    refine ih ?_
    cases a with
    | post t m => rwa [step,put_isOpen]
    | tell d m =>
      rw [step]
      split
      · rwa [put_isOpen]
      · exact h
    | read d =>
      rw [step]
      split
      · rwa [next_isOpen]
      · exact h
    | join t d =>
      rw [step]
      split <;> exact h
    | leave d =>
      rw [step]
      split
      · rfl
      · exact h

def Action.message? : Action T C M → Option M
  | .post _ m | .tell _ m => some m
  | .join _ _ | .read _ | .leave _ => none

theorem message_of_mem_gained {c : C} {b : Mailbox T M} {a : Action T C M} {m : M}
    (h : m ∈ b.gained c a) : a.message? = some m := by
  cases a with
  | post t m' =>
    simp only [gained] at h
    split at h
    · exact congrArg some (List.eq_of_mem_replicate h).symm
    · cases h
  | tell d m' =>
    simp only [gained] at h
    split at h
    · exact congrArg some (List.mem_singleton.mp h).symm
    · cases h
  | join t d | read d | leave d => cases h

/-- Messages that a client does not read as what it looks for. -/
theorem run_inbox_unread {N : Type*} {f : M → Option N} {actions : List (Action T C M)}
    (h : ∀ a ∈ actions, a.message?.bind f = none) (c : C) (b : Mailbox T M) :
    (b.run c actions).inbox.filterMap f = b.inbox.filterMap f := by
  induction actions generalizing b with
  | nil => rfl
  | cons a rest ih =>
    have hrest := ih (fun x hx => h x (List.mem_cons_of_mem a hx)) (b.step c a)
    have hnone : (b.gained c a).filterMap f = [] := by
      refine List.filterMap_eq_nil_iff.mpr fun m hm => ?_
      have ha := h a List.mem_cons_self
      rwa [message_of_mem_gained hm] at ha
    refine hrest.trans ?_
    rw [step_inbox,List.filterMap_append,hnone,List.append_nil]

/-- Posts put every message into the mailbox as often as it is joined to the topic. -/
theorem run_posts_inbox {N : Type*} (c : C) (b : Mailbox T M) (topic : N → T) (message : N → M)
    (ns : List N) : (b.run c (ns.map fun n => .post (topic n) (message n))).inbox =
      b.inbox ++ if b.isOpen then
        ns.flatMap fun n => List.replicate (b.topics.count (topic n)) (message n) else [] := by
  induction ns generalizing b with
  | nil => simp [run]
  | cons n rest ih =>
    have hrest := ih (b.put (List.replicate (b.topics.count (topic n)) (message n)))
    rw [put_inbox,put_isOpen,put_topics] at hrest
    refine hrest.trans ?_
    cases b.isOpen with
    | true => simp
    | false => simp

/-- The actions a client can notice. -/
def Action.concerns (c : C) : Action T C M → Bool
  | .join _ d | .tell d _ | .read d | .leave d => decide (d = c)
  | .post _ _ => true

theorem step_of_not_concerns {c : C} {a : Action T C M} (h : a.concerns c = false)
    (b : Mailbox T M) : b.step c a = b := by
  cases a with
  | post t m => cases h
  | join t d | tell d m | read d | leave d => exact if_neg (of_decide_eq_false h)

theorem run_of_not_concerns {c : C} {actions : List (Action T C M)}
    (h : ∀ a ∈ actions, a.concerns c = false) (b : Mailbox T M) : b.run c actions = b := by
  induction actions with
  | nil => rfl
  | cons a rest ih =>
    have ha := step_of_not_concerns (h a List.mem_cons_self) b
    change (b.step c a).run c rest = b
    rw [ha]
    exact ih fun x hx => h x (List.mem_cons_of_mem a hx)

end Runs

end Mailbox
