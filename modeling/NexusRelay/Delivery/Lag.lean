import NexusRelay.Delivery.Logs

/-! # Channels whose last text was not taken yet

A forward task holds the text it has taken until the socket takes it. The state in which it
has not taken it yet differs in the counts of the channels only, and nothing but the forward
tasks reads these.
-/
namespace NexusRelay
open Shared
variable {X : Deps}

/-- One text less is taken from the channels in `held`. -/
def Channels.behind (held : ℕ → Bool) (chs : Channels) : Channels := fun c =>
  if held c then { chs c with received := (chs c).received - 1 } else chs c

namespace Channels
variable (held : ℕ → Bool) (chs : Channels)

@[simp] theorem behind_log (c : ℕ) : (chs.behind held c).log = (chs c).log := by
  unfold behind
  split <;> rfl

@[simp] theorem behind_rxOpen (c : ℕ) : (chs.behind held c).rxOpen = (chs c).rxOpen := by
  unfold behind
  split <;> rfl

theorem behind_of_not_held {c : ℕ} (h : held c = false) : chs.behind held c = chs c := by
  simp [behind,h]

theorem behind_received {c : ℕ} (h : held c = true) :
    (chs.behind held c).received = (chs c).received - 1 := by
  simp [behind,h]

/-- Whatever changes a channel without a look at what is taken changes the other one alike. -/
theorem behind_update {f : Channel → Channel}
    (hf : ∀ ch n, f ⟨ch.log,n,ch.rxOpen⟩ = ⟨(f ch).log,n,(f ch).rxOpen⟩)
    (hr : ∀ ch, (f ch).received = ch.received) (d : ℕ) :
    Channels.behind held (Function.update chs d (f (chs d))) =
      Function.update (chs.behind held) d (f (chs.behind held d)) := by
  funext c
  by_cases hc : c = d
  · subst hc
    cases h : held c with
    | true =>
      simp only [behind,Function.update_self,h,↓reduceIte]
      rw [hr]
      exact (hf _ _).symm
    | false => simp [behind,h]
  · simp [behind,hc]

theorem behind_deliver (t : Topic) (m : String) (ss : List Sender) :
    (chs.deliver t m ss).behind held = (chs.behind held).deliver t m ss := by
  funext c
  cases h : held c <;> simp [behind,deliver,h]

theorem behind_live (ss : List Sender) : (chs.behind held).live ss = chs.live ss :=
  live_congr (fun c => behind_rxOpen held chs c) ss

/-- Taking a text and holding it is, one behind, nothing. -/
theorem behind_take {d : ℕ} (h : held d = false) (hlen : (chs d).received < (chs d).log.length) :
    (chs.take d).behind (Function.update held d true) = chs.behind held := by
  funext c
  by_cases hc : c = d
  · subst hc
    simp [behind,take,Channel.take,h,hlen]
  · simp [behind,take,hc]

/-- Letting go of the text is, one behind, taking it. -/
theorem take_behind {d n : ℕ} (h : held d = true) (hn : (chs d).received = n + 1)
    (hlen : n < (chs d).log.length) :
    (chs.behind held).take d = chs.behind (Function.update held d false) := by
  funext c
  by_cases hc : c = d
  · subst hc
    have hback : chs.behind held c = ⟨(chs c).log,n,(chs c).rxOpen⟩ := by simp [behind,h,hn]
    have hnow : chs.behind (Function.update held c false) c = ⟨(chs c).log,n + 1,(chs c).rxOpen⟩ := by
      rw [behind_of_not_held _ _ (Function.update_self c false held),← hn]
    rw [hnow,take,Function.update_self,hback,Channel.take,if_pos hlen]
  · simp [take,hc,behind]

end Channels

namespace Shared

def behind (held : ℕ → Bool) (w : Shared) : Shared :=
  { w with channels := w.channels.behind held }

@[simp] theorem behind_registry (held : ℕ → Bool) (w : Shared) :
    (w.behind held).registry = w.registry := rfl
@[simp] theorem behind_channels (held : ℕ → Bool) (w : Shared) :
    (w.behind held).channels = w.channels.behind held := rfl
@[simp] theorem behind_mutex (held : ℕ → Bool) (w : Shared) :
    (w.behind held).mutex = w.mutex := rfl

theorem behind_healthy {held : ℕ → Bool} {w : Shared} : (w.behind held).Healthy ↔ w.Healthy :=
  Iff.rfl

theorem behind_published (held : ℕ → Bool) (w : Shared) (t : Topic) (m : String) :
    (w.published t m).behind held = (w.behind held).published t m := by
  have hlive := Channels.behind_live held w.channels (w.registry.entryOrDefault t)
  simp only [published,TopicRegistry.publish_eq,behind,hlive,Channels.behind_deliver]

theorem behind_replied (held : ℕ → Bool) (w : Shared) (tx : Sender) (text : String) :
    (w.replied tx text).behind held = (w.behind held).replied tx text := by
  have hput := Channels.behind_update held w.channels (f := fun ch => ch.put ⟨text,.reply⟩)
    (fun _ _ => rfl) (fun _ => rfl) tx.chan
  cases h : (w.channels tx.chan).rxOpen with
  | true => simp [replied,h,behind,hput]
  | false => simp [replied,h,behind]

/-- Only a forward task taking a text sees how many were taken. -/
theorem behind_apply (held : ℕ → Bool) (w : Shared) {x : Change} (hx : ∀ c, x ≠ .take c) :
    (w.apply x).behind held = (w.behind held).apply x := by
  cases x with
  | subscribe t d => rfl
  | publish t m => exact behind_published held w t m
  | reply tx text => exact behind_replied held w tx text
  | take d => exact absurd rfl (hx d)
  | close d =>
    have hclose := Channels.behind_update held w.channels (f := fun ch => { ch with rxOpen := false })
      (fun _ _ => rfl) (fun _ => rfl) d
    simp only [apply,behind,Channels.close,hclose]

theorem behind_applyAll (held : ℕ → Bool) (w : Shared) {xs : List Change}
    (hxs : ∀ c, Change.take c ∉ xs) :
    (w.applyAll xs).behind held = (w.behind held).applyAll xs := by
  induction xs generalizing w with
  | nil => rfl
  | cons x rest ih =>
    have hx : ∀ c, x ≠ .take c := fun c e => hxs c (e ▸ List.mem_cons_self)
    have hrest := ih (w.apply x) fun c hmem => hxs c (List.mem_cons_of_mem x hmem)
    rw [applyAll_cons,hrest,behind_apply held w hx]
    rfl

/-! ## What is taken -/

theorem apply_received (w : Shared) {x : Change} {c : ℕ} (hx : x ≠ .take c) :
    ((w.apply x).channels c).received = (w.channels c).received := by
  cases x with
  | subscribe t d => rfl
  | publish t m =>
    rw [apply,published_channels]
    rfl
  | reply tx text =>
    simp only [apply,replied]
    split
    · by_cases hc : c = tx.chan
      · subst hc
        simp [Channel.put]
      · simp [hc]
    · rfl
  | take d =>
    have hc : c ≠ d := fun e => hx (e ▸ rfl)
    simp [apply,Channels.take,hc]
  | close d =>
    by_cases hc : c = d
    · subst hc
      simp [apply,Channels.close]
    · simp [apply,Channels.close,hc]

theorem applyAll_received (w : Shared) {xs : List Change} {c : ℕ} (hxs : Change.take c ∉ xs) :
    ((w.applyAll xs).channels c).received = (w.channels c).received := by
  induction xs generalizing w with
  | nil => rfl
  | cons x rest ih =>
    have hx : x ≠ .take c := fun e => hxs (e ▸ List.mem_cons_self)
    rw [applyAll_cons,ih (w.apply x) fun hmem => hxs (List.mem_cons_of_mem x hmem),
      apply_received w hx]

end Shared

/-! ## Frames and messages -/

/-- The changes only a forward task makes. -/
def Shared.Change.forwards : Change → Bool
  | .take _ | .close _ => true
  | .subscribe _ _ | .publish _ _ | .reply _ _ => false

/-- Nothing is taken from a channel and no receiver is dropped. -/
def ForwardsNothing (changes : List Change) : Prop := ∀ x ∈ changes, x.forwards = false

theorem ForwardsNothing.take {changes : List Change} (h : ForwardsNothing changes) (c : ℕ) :
    Change.take c ∉ changes := fun hmem => nomatch h _ hmem

theorem ForwardsNothing.close {changes : List Change} (h : ForwardsNothing changes) (c : ℕ) :
    Change.close c ∉ changes := fun hmem => nomatch h _ hmem

theorem ForwardsNothing.nil : ForwardsNothing [] := fun _ hmem => nomatch hmem

theorem ForwardsNothing.reply {changes : List Change} (h : ForwardsNothing changes) (tx : Sender)
    (text : String) : ForwardsNothing (changes ++ [.reply tx text]) := by
  intro x hx
  rcases List.mem_append.mp hx with hx | hx
  · exact h x hx
  · cases List.mem_singleton.mp hx
    rfl

theorem Answered.forwardsNothing {text : String} {client : Option (Node X)} {tx : Sender}
    {reply : JsonRpc} {changes : List Change} (h : Answered text client tx reply changes) :
    ForwardsNothing changes := by
  cases h with
  | unparsed | failed => exact .nil
  | served hp hr hs hok hreply => cases hs <;> simp [ForwardsNothing,Change.forwards]

/-- A frame subscribes nobody but its own client. -/
theorem Answered.subscribes_own {text : String} {client : Option (Node X)} {tx : Sender}
    {reply : JsonRpc} {changes : List Change} (h : Answered text client tx reply changes) {t : Topic}
    {c : ℕ} (hs : Change.subscribe t c ∈ changes) : c = tx.chan := by
  cases h with
  | unparsed | failed => cases hs
  | served hp hr hserved hok hreply =>
    cases hserved with
    | subscribe hm ht =>
      cases List.mem_singleton.mp hs
      rfl
    | ping | proposal | any => simp at hs

theorem Observed.forwardsNothing {network : Network} {msg : List Bytes}
    {seen seen' : BoundedSet String} {result : Fallible (Error X) Unit} {changes : List Change}
    (h : Observed network msg seen result changes seen') : ForwardsNothing changes := by
  cases h with
  | missing | known | badTx | badBlock | unknown => exact .nil
  | mempool => simp [ForwardsNothing,notices,txNotice,addressNotice,Change.forwards]
  | block =>
    intro x hx
    obtain ⟨tx,-,hx⟩ := List.mem_flatMap.mp hx
    rw [notices,List.mem_cons,List.mem_map] at hx
    rcases hx with rfl | ⟨a,-,rfl⟩ <;> rfl

theorem Observed.subscribes_nobody {network : Network} {msg : List Bytes}
    {seen seen' : BoundedSet String} {result : Fallible (Error X) Unit} {changes : List Change}
    (h : Observed network msg seen result changes seen') (t : Topic) (c : ℕ) :
    Change.subscribe t c ∉ changes := by
  cases h with
  | missing | known | badTx | badBlock | unknown => exact List.not_mem_nil
  | mempool | block => simp [notices,txNotice,addressNotice]

end NexusRelay
