import NexusRelay.Model.Relay

/-! # What reaches a log

A log only grows, by the deliveries of a publication or by one reply, and not once its
channel is closed. Every reply in a channel answers a frame of that channel's client.
-/
namespace NexusRelay
open Shared
variable {X : Deps}

namespace Shared

/-- What a change appends to the log of channel `c`. -/
def added (c : ℕ) (w : Shared) : Change → List Entry
  | .publish t m => deliveries t m (w.receivers t) c
  | .reply tx text => if tx.chan = c ∧ (w.channels c).rxOpen then [⟨text,.reply⟩] else []
  | .subscribe _ _ | .take _ | .close _ => []

def addedAll (c : ℕ) : Shared → List Change → List Entry := History.collect apply (added c)

theorem apply_log (w : Shared) (x : Change) (c : ℕ) :
    ((w.apply x).channels c).log = (w.channels c).log ++ w.added c x := by
  cases x with
  | subscribe t d => exact (List.append_nil _).symm
  | publish t m => rw [apply,published_channels,Channels.deliver_log,added]
  | reply tx text =>
    simp only [apply,replied,added]
    by_cases hc : tx.chan = c
    · subst hc
      split
      · next hopen => simp [Channel.put,hopen]
      · next hclosed => simp [hclosed]
    · have hc' : c ≠ tx.chan := fun e => hc e.symm
      split <;> simp [hc,hc']
  | take d => simp [apply,added]
  | close d => simp [apply,added]

theorem applyAll_log (w : Shared) (xs : List Change) (c : ℕ) :
    ((w.applyAll xs).channels c).log = (w.channels c).log ++ addedAll c w xs := by
  induction xs generalizing w with
  | nil => simp [addedAll]
  | cons x rest ih =>
    rw [applyAll_cons,ih,apply_log,List.append_assoc]
    rfl

theorem mem_added {c : ℕ} {w : Shared} {x : Change} {e : Entry} (h : e ∈ w.added c x) :
    (∃ t k, x = .publish t e.text ∧ e.origin = .delivery t k) ∨
      ∃ tx, x = .reply tx e.text ∧ tx.chan = c ∧ e.origin = .reply := by
  cases x with
  | publish t m =>
    obtain ⟨s,-,-,rfl⟩ := mem_deliveries.mp h
    exact Or.inl ⟨t,s.handle,rfl,rfl⟩
  | reply tx text =>
    simp only [added] at h
    split at h
    · next hc =>
      cases List.mem_singleton.mp h
      exact Or.inr ⟨tx,rfl,hc.1,rfl⟩
    · cases h
  | subscribe | take | close => cases h

theorem mem_addedAll {c : ℕ} {w : Shared} {xs : List Change} {e : Entry}
    (h : e ∈ addedAll c w xs) :
    (∃ t k, Change.publish t e.text ∈ xs ∧ e.origin = .delivery t k) ∨
      ∃ tx, Change.reply tx e.text ∈ xs ∧ tx.chan = c ∧ e.origin = .reply := by
  induction xs generalizing w with
  | nil => cases h
  | cons x rest ih =>
    rw [addedAll,History.collect,List.mem_append] at h
    rcases h with h | h
    · rcases mem_added h with ⟨t,k,rfl,ho⟩ | ⟨tx,rfl,hc,ho⟩
      · exact Or.inl ⟨t,k,List.mem_cons_self,ho⟩
      · exact Or.inr ⟨tx,List.mem_cons_self,hc,ho⟩
    · rcases ih h with ⟨t,k,hmem,ho⟩ | ⟨tx,hmem,hc,ho⟩
      · exact Or.inl ⟨t,k,List.mem_cons_of_mem x hmem,ho⟩
      · exact Or.inr ⟨tx,List.mem_cons_of_mem x hmem,hc,ho⟩

/-- Nothing is appended to the log of a closed channel. -/
theorem added_closed {c : ℕ} {w : Shared} (h : (w.channels c).rxOpen = false) (x : Change) :
    w.added c x = [] := by
  cases x with
  | publish t m =>
    rw [added,deliveries,List.map_eq_nil_iff,List.filter_eq_nil_iff]
    intro s hs hc
    have hlive := (List.mem_filter.mp hs).2
    rw [of_decide_eq_true hc,h] at hlive
    cases hlive
  | reply tx text => simp [added,h]
  | subscribe | take | close => rfl

/-- The state is an earlier one with the logs of its open channels extended. -/
def Extends (w w' : Shared) : Prop :=
  ∀ c, (∃ more, (w'.channels c).log = (w.channels c).log ++ more) ∧
    ((w.channels c).rxOpen = false →
      (w'.channels c).rxOpen = false ∧ (w'.channels c).log = (w.channels c).log)

theorem Extends.refl (w : Shared) : Extends w w :=
  fun _ => ⟨⟨[],(List.append_nil _).symm⟩,fun h => ⟨h,rfl⟩⟩

theorem Extends.trans {w₁ w₂ w₃ : Shared} (h : Extends w₁ w₂) (h' : Extends w₂ w₃) :
    Extends w₁ w₃ := by
  intro c
  obtain ⟨⟨more,hmore⟩,hclosed⟩ := h c
  obtain ⟨⟨more',hmore'⟩,hclosed'⟩ := h' c
  refine ⟨⟨more ++ more',by rw [hmore',hmore,List.append_assoc]⟩,fun hc => ?_⟩
  obtain ⟨h1,h2⟩ := hclosed hc
  obtain ⟨h3,h4⟩ := hclosed' h1
  exact ⟨h3,h4.trans h2⟩

theorem extends_apply (w : Shared) (x : Change) : Extends w (w.apply x) := by
  intro c
  refine ⟨⟨_,apply_log w x c⟩,fun hc => ⟨?_,by rw [apply_log,added_closed hc,List.append_nil]⟩⟩
  by_cases hx : x = .close c
  · subst hx
    simp [apply,Channels.close]
  · rw [apply_rxOpen w hx,hc]

theorem extends_applyAll (w : Shared) (xs : List Change) : Extends w (w.applyAll xs) := by
  induction xs generalizing w with
  | nil => exact Extends.refl w
  | cons x rest ih => exact (extends_apply w x).trans (ih (w.apply x))

end Shared

/-! ## Runs -/

theorem RelayState.step_extends (hX : X.RenderTotal) (network : Network) {s : RelayState}
    (hw : s.shared.Healthy) (e : Event X) : Extends s.shared (step network s e).shared := by
  obtain ⟨changes,seen',-,hs⟩ := step_caused hX network hw e
  rw [hs]
  exact extends_applyAll s.shared changes

/-- The text answers a frame that the client of channel `c` sent. -/
def RepliesTo (events : List (Event X)) (c : ℕ) (text : String) : Prop :=
  ∃ tx frame node reply changes, .frame tx frame node ∈ events ∧ tx.chan = c ∧
    Answered frame (some node) tx reply changes ∧ X.render reply = some text

theorem RepliesTo.mono {events more : List (Event X)} {c : ℕ} {text : String}
    (h : RepliesTo events c text) (hsub : events ⊆ more) : RepliesTo more c text := by
  obtain ⟨tx,frame,node,reply,changes,hmem,hc,ha,hr⟩ := h
  exact ⟨tx,frame,node,reply,changes,hsub hmem,hc,ha,hr⟩

theorem Causes.replies {network : Network} {seen seen' : BoundedSet String} {e : Event X}
    {changes : List Change} (hc : Causes network seen e changes seen') {tx : Sender} {text : String}
    (h : Change.reply tx text ∈ changes) : RepliesTo [e] tx.chan text := by
  cases hc with
  | @answered tx' frame str node reply changes ha hs =>
    have hnone : Change.reply tx text ∉ changes := by
      cases ha with
      | unparsed | failed => simp
      | served hp hr hserved hok hreply => cases hserved <;> simp
    rcases List.mem_append.mp h with h | h
    · exact absurd h hnone
    · cases List.mem_singleton.mp h
      exact ⟨tx,frame,node,reply,changes,List.mem_singleton_self _,rfl,ha,hs⟩
  | panicked => cases h
  | zmq ho =>
    cases ho with
    | mempool =>
      rw [notices,List.mem_cons,List.mem_map] at h
      rcases h with h | ⟨a,-,h⟩ <;> cases h
    | block =>
      obtain ⟨tx',-,h⟩ := List.mem_flatMap.mp h
      rw [notices,List.mem_cons,List.mem_map] at h
      rcases h with h | ⟨a,-,h⟩ <;> cases h
    | missing | known | badTx | badBlock | unknown => cases h
  | recv _ | close _ => simp at h

/-- In every run, the replies in a channel answer frames of its client. -/
theorem RelayState.run_replies (hX : X.RenderTotal) (network : Network) (txCacheSize : ℕ)
    (events : List (Event X)) :
    ∀ c, ∀ e ∈ ((run network txCacheSize events).shared.channels c).log, e.origin = .reply →
      RepliesTo events c e.text := by
  refine (run_invariant network txCacheSize hX (P := fun past s => ∀ c,
    ∀ e ∈ (s.shared.channels c).log, e.origin = .reply → RepliesTo past c e.text)
    (by simp [RelayState.start,Shared.start]) ?_ events).2
  intro past s ev changes seen' _ hw ih hc _ c e he horigin
  rw [applyAll_log,List.mem_append] at he
  rcases he with he | he
  · exact (ih c e he horigin).mono (List.subset_append_left _ _)
  · rcases mem_addedAll he with ⟨t,k,-,ho⟩ | ⟨tx,hmem,rfl,-⟩
    · rw [ho] at horigin
      cases horigin
    · exact (hc.replies hmem).mono (List.subset_append_right _ _)

end NexusRelay
