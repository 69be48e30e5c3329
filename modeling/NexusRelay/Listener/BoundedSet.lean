import NexusRelay.Foundation.History
import NexusRelay.Foundation.Window
import NexusRelay.Model.Zmq

/-! # The bounded set

The set and the queue hold the same items, and the queue holds none twice, so what leaves the
queue leaves the set for good. Together they are the window of the last `capacity` items that
were taken.
-/
namespace NexusRelay
open Window

namespace BoundedSet
variable {T : Type} [DecidableEq T]

/-- The set has taken these items, in this order, and holds the last `c` of them. -/
structure Holds (s : BoundedSet T) (c : ℕ) (taken : List T) : Prop where
  capacity : s.capacity = c
  queue : s.queue = taken.rtake c
  set : ∀ x, x ∈ s.set ↔ x ∈ taken.rtake c
  spaced : Spaced c taken

/-- The item, if its insertion returns `true`. -/
def accepts (s : BoundedSet T) (x : T) : List T := if (s.insert x).1 then [x] else []

/-- The state after these calls of `insert`. -/
def insertAll : BoundedSet T → List T → BoundedSet T := List.foldl fun s x => (s.insert x).2

/-- The items whose insertion returned `true`, in the order of the calls. -/
def accepted : BoundedSet T → List T → List T := History.collect (fun s x => (s.insert x).2) accepts

variable {s : BoundedSet T} {c : ℕ} {taken : List T}

omit [DecidableEq T] in
theorem holds_new (c : ℕ) : (new c : BoundedSet T).Holds c [] where
  capacity := rfl
  queue := by simp [new]
  set x := by simp [new]
  spaced := spaced_nil c

theorem Holds.contains_iff (h : s.Holds c taken) (x : T) :
    s.contains x = true ↔ x ∈ taken.rtake c := by
  rw [contains,decide_eq_true_eq,h.set]

theorem Holds.insert_known (h : s.Holds c taken) {x : T} (hx : x ∈ taken.rtake c) :
    s.insert x = (false,s) := by
  rw [insert,if_pos ((h.contains_iff x).mpr hx)]

/-- The queue is full once `c` items were taken, and then its oldest item leaves. -/
theorem Holds.evict (h : s.Holds c taken) (hc : 0 < c) :
    s.evict.capacity = c ∧
    s.evict.queue = (if taken.length < c then taken.rtake c else (taken.rtake c).tail) ∧
    ∀ x, x ∈ s.evict.set ↔ x ∈ s.evict.queue := by
  have hlen : s.queue.length = min c taken.length := by rw [h.queue,length_rtake]
  unfold BoundedSet.evict
  rw [h.capacity]
  by_cases hfull : taken.length < c
  · rw [if_neg (by omega),if_pos hfull]
    exact ⟨h.capacity,h.queue,fun x => by rw [h.set,h.queue]⟩
  · rw [if_pos (by omega),if_neg hfull]
    cases hq : s.queue with
    | nil =>
      rw [hq,List.length_nil] at hlen
      omega
    | cons oldest rest =>
      have hqueue : taken.rtake c = oldest :: rest := h.queue.symm.trans hq
      have hnodup := h.spaced.nodup_rtake
      rw [hqueue,List.nodup_cons] at hnodup
      refine ⟨rfl,by rw [hqueue,List.tail_cons],fun x => ?_⟩
      simp only [Finset.mem_erase,h.set,hqueue,List.mem_cons]
      constructor
      · rintro ⟨hne,heq | hmem⟩
        · exact absurd heq hne
        · exact hmem
      · intro hmem
        exact ⟨fun heq => hnodup.1 (heq ▸ hmem),Or.inr hmem⟩

theorem Holds.insert_new (h : s.Holds c taken) (hc : 0 < c) {x : T} (hx : x ∉ taken.rtake c) :
    (s.insert x).1 = true ∧ (s.insert x).2.Holds c (taken ++ [x]) := by
  have hnot : ¬ s.contains x = true := fun hcon => hx ((h.contains_iff x).mp hcon)
  obtain ⟨hcap,hqueue,hset⟩ := h.evict hc
  have hwindow : (taken ++ [x]).rtake c = s.evict.queue ++ [x] := by
    obtain ⟨n,rfl⟩ : ∃ n, c = n + 1 := ⟨c - 1,by omega⟩
    rw [rtake_snoc,hqueue]
    simp only [Nat.lt_succ_iff]
  unfold BoundedSet.insert
  rw [if_neg hnot]
  refine ⟨rfl,hcap,hwindow.symm,fun y => ?_,h.spaced.snoc hx⟩
  rw [hwindow,Finset.mem_insert,hset,List.mem_append,List.mem_singleton]
  exact or_comm

/-- One call takes the item into the history, or rejects it and changes nothing. -/
theorem Holds.insert (h : s.Holds c taken) (hc : 0 < c) (x : T) :
    taken ++ s.accepts x = push c taken x ∧ (s.insert x).2.Holds c (push c taken x) := by
  by_cases hx : x ∈ taken.rtake c
  · have hsame := h.insert_known hx
    rw [accepts,hsame,push,if_pos hx]
    exact ⟨List.append_nil _,h⟩
  · obtain ⟨htrue,hholds⟩ := h.insert_new hc hx
    rw [accepts,htrue,push,if_neg hx]
    exact ⟨rfl,hholds⟩

/-! ## Runs of insertions -/

theorem insertAll_snoc (s : BoundedSet T) (items : List T) (x : T) :
    s.insertAll (items ++ [x]) = ((s.insertAll items).insert x).2 := by
  rw [insertAll,List.foldl_append]
  rfl

theorem accepted_snoc (s : BoundedSet T) (items : List T) (x : T) :
    s.accepted (items ++ [x]) = s.accepted items ++ (s.insertAll items).accepts x :=
  History.collect_snoc _ _ s items x

/-- The bounded set is the window: it accepts what the window takes, and holds the last of it. -/
theorem insertAll_refines {c : ℕ} (hc : 0 < c) (items : List T) :
    (new c).accepted items = admitted c items ∧
      ((new c).insertAll items).Holds c (admitted c items) := by
  induction items using List.reverseRecOn with
  | nil => exact ⟨rfl,holds_new c⟩
  | append_singleton past x ih =>
    obtain ⟨haccepted,hholds⟩ := ih
    obtain ⟨htook,hnext⟩ := hholds.insert hc x
    rw [accepted_snoc,insertAll_snoc,admitted_snoc,haccepted]
    exact ⟨htook,hnext⟩

/-- The set is the window of the last `min c k` of the `k` items. -/
structure FifoWindow (s : BoundedSet T) (c : ℕ) (items : List T) : Prop where
  nodup : s.queue.Nodup
  length_le : s.queue.length ≤ c
  set : ∀ x, x ∈ s.set ↔ x ∈ s.queue
  queue : s.queue = items.rtake (min c items.length)
  contains : ∀ x, s.contains x = true ↔ x ∈ items.rtake (min c items.length)
  rejects : ∀ x, (s.insert x).1 = false ↔ x ∈ items.rtake (min c items.length)
  unchanged : ∀ x, (s.insert x).1 = false → (s.insert x).2 = s

theorem Holds.insert_eq_false_iff (h : s.Holds c taken) (hc : 0 < c) (x : T) :
    (s.insert x).1 = false ↔ x ∈ taken.rtake c := by
  constructor
  · intro hfalse
    by_contra hx
    rw [(h.insert_new hc hx).1] at hfalse
    cases hfalse
  · intro hx
    rw [h.insert_known hx]

theorem Holds.fifoWindow (h : s.Holds c taken) (hc : 0 < c) : s.FifoWindow c taken where
  nodup := by
    rw [h.queue]
    exact h.spaced.nodup_rtake
  length_le := by
    rw [h.queue,length_rtake]
    exact Nat.min_le_left c taken.length
  set x := by rw [h.set,h.queue]
  queue := by rw [h.queue,rtake_min]
  contains x := by rw [h.contains_iff,rtake_min]
  rejects x := by rw [h.insert_eq_false_iff hc,rtake_min]
  unchanged x hfalse := by rw [h.insert_known ((h.insert_eq_false_iff hc x).mp hfalse)]

/-- After every sequence of insertions into a new set of capacity `c`, the set is the window of
the last `c` items whose insertion returned `true`. -/
theorem insertAll_fifoWindow {c : ℕ} (hc : 1 ≤ c) (items : List T) :
    ((new c).insertAll items).FifoWindow c ((new c).accepted items) := by
  obtain ⟨haccepted,hholds⟩ := insertAll_refines hc items
  rw [haccepted]
  exact hholds.fifoWindow hc

end BoundedSet

/-! ## An item that is rejected, evicted and taken again -/

def Sample.offered : List String := ["a","b","a","c","a"]

/-- The repeat of `a` did not keep it from being the first to leave. -/
theorem offered_window :
    ((BoundedSet.new 2).insertAll Sample.offered).FifoWindow 2 ["a","b","c","a"] ∧
      ((BoundedSet.new 2).insertAll Sample.offered).queue = ["c","a"] := by
  have hwindow := BoundedSet.insertAll_fifoWindow (c := 2) (by decide) Sample.offered
  have haccepted : (BoundedSet.new 2).accepted Sample.offered = ["a","b","c","a"] := by decide +kernel
  rw [haccepted] at hwindow
  exact ⟨hwindow,hwindow.queue⟩

end NexusRelay
