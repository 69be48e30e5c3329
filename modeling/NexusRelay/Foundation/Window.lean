import Mathlib.Data.List.DropRight
import Mathlib.Data.List.Nodup

/-! # A sliding window over a history

An item is taken into the history unless it is among the last `c` items of it. Then
no `c + 1` items in a row repeat: a repeat has at least `c` other items before it.
-/
namespace Window
variable {T : Type*}

/-- Two occurrences of one item are more than `c` places apart. -/
def Spaced (c : ℕ) (xs : List T) : Prop :=
  ∀ i j x, i < j → j ≤ i + c → xs[i]? = some x → xs[j]? ≠ some x

def push [DecidableEq T] (c : ℕ) (xs : List T) (x : T) : List T :=
  if x ∈ xs.rtake c then xs else xs ++ [x]

/-- What is taken of the items that are offered, in their order. -/
def admitted [DecidableEq T] (c : ℕ) (items : List T) : List T := items.foldl (push c) []

theorem admitted_snoc [DecidableEq T] (c : ℕ) (items : List T) (x : T) :
    admitted c (items ++ [x]) = push c (admitted c items) x := by
  rw [admitted,List.foldl_append]
  rfl

theorem mem_rtake_iff {c : ℕ} {xs : List T} {x : T} :
    x ∈ xs.rtake c ↔ ∃ i, xs.length ≤ i + c ∧ xs[i]? = some x := by
  rw [List.rtake,List.mem_iff_getElem?]
  constructor
  · rintro ⟨i,hi⟩
    rw [List.getElem?_drop] at hi
    exact ⟨xs.length - c + i,by omega,hi⟩
  · rintro ⟨i,hi,hx⟩
    refine ⟨i - (xs.length - c),?_⟩
    rw [List.getElem?_drop,show xs.length - c + (i - (xs.length - c)) = i by omega]
    exact hx

theorem spaced_nil (c : ℕ) : Spaced c ([] : List T) := by
  intro i j x _ _ hi
  simp at hi

theorem Spaced.snoc {c : ℕ} {xs : List T} (h : Spaced c xs) {x : T} (hx : x ∉ xs.rtake c) :
    Spaced c (xs ++ [x]) := by
  intro i j y hij hjc hi hj
  have hlen : j < xs.length + 1 := by
    have hj' := (List.getElem?_eq_some_iff.mp hj).1
    simpa using hj'
  have hiy : xs[i]? = some y := by
    rwa [List.getElem?_append_left (by omega)] at hi
  by_cases hlast : j < xs.length
  · rw [List.getElem?_append_left hlast] at hj
    exact h i j y hij hjc hiy hj
  · -- the later one is the new item, and the earlier one is within reach of it
    have hj' : j = xs.length := by omega
    subst hj'
    have hyx : x = y := by simpa using hj
    subst hyx
    exact hx (mem_rtake_iff.mpr ⟨i,by omega,hiy⟩)

/-- Any `c + 1` items in a row are pairwise distinct. -/
theorem Spaced.nodup {c : ℕ} {xs : List T} (h : Spaced c xs) (k : ℕ) :
    ((xs.drop k).take (c + 1)).Nodup := by
  rw [List.nodup_iff_getElem?_ne_getElem?]
  intro i j hij hj heq
  rw [List.length_take] at hj
  have hi : ((xs.drop k).take (c + 1))[i]? = xs[k + i]? := by
    rw [List.getElem?_take,if_pos (by omega),List.getElem?_drop]
  have hj' : ((xs.drop k).take (c + 1))[j]? = xs[k + j]? := by
    rw [List.getElem?_take,if_pos (by omega),List.getElem?_drop]
  have hlen : j < (xs.drop k).length := by omega
  rw [List.length_drop] at hlen
  have hsome : xs[k + i]? = some xs[k + i] := List.getElem?_eq_getElem (by omega)
  exact h (k + i) (k + j) _ (by omega) (by omega) hsome (by rw [← hj',← heq,hi,hsome])

theorem Spaced.nodup_rtake {c : ℕ} {xs : List T} (h : Spaced c xs) : (xs.rtake c).Nodup := by
  have hwindow := h.nodup (xs.length - c)
  rwa [List.take_of_length_le (by rw [List.length_drop]; omega)] at hwindow

theorem length_rtake (c : ℕ) (xs : List T) : (xs.rtake c).length = min c xs.length := by
  rw [List.rtake,List.length_drop]
  omega

theorem rtake_min (c : ℕ) (xs : List T) : xs.rtake (min c xs.length) = xs.rtake c := by
  have hdrop : xs.length - min c xs.length = xs.length - c := by omega
  rw [List.rtake,List.rtake,hdrop]

/-- A full window loses its oldest item to the next one. -/
theorem rtake_snoc {c : ℕ} (xs : List T) (x : T) :
    (xs ++ [x]).rtake (c + 1) =
      (if xs.length ≤ c then xs.rtake (c + 1) else (xs.rtake (c + 1)).tail) ++ [x] := by
  rw [List.rtake_concat_succ]
  congr 1
  split
  · next h =>
    rw [List.rtake,List.rtake,Nat.sub_eq_zero_of_le h,Nat.sub_eq_zero_of_le (by omega)]
  · next h =>
    rw [List.rtake,List.rtake,List.tail_drop]
    congr 1
    omega

end Window
