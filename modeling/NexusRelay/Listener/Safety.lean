import NexusRelay.Listener.Notices
import NexusRelay.Model.Connection

/-! # Messages that stop the listener

The topic and the data are unwrapped before anything is checked, so a message of fewer than
two parts panics, and the listener is not restarted. Any other message that cannot be used
is as if it had not arrived.
-/
namespace NexusRelay
open Shared
variable {X : Deps} {TmqError : Type}

variable (X) in
/-- The message never panics; where it returns an error or has an unknown topic, the shared
state and the cache are as before. -/
def ZmqSafe (network : Network) (msg : List Bytes) : Prop :=
  ∀ (w : Shared) (seen : BoundedSet String), w.Healthy →
    (∀ s, (processZmqMessage (X := X) msg network).run (w,seen) ≠ .error .panic s) ∧
    (∀ e s, (processZmqMessage (X := X) msg network).run (w,seen) = .error (.err e) s →
      s = (w,seen)) ∧
    (msg[0]? ≠ some rawtx → msg[0]? ≠ some rawblock →
      (processZmqMessage (X := X) msg network).run (w,seen) = .ok () (w,seen))

theorem zmqSafe_iff (hX : X.RenderTotal) (network : Network) (msg : List Bytes) :
    ZmqSafe X network msg ↔ 2 ≤ msg.length := by
  constructor
  · intro h
    by_contra hshort
    have hpanic := short_message_panics (X := X) network (by omega : msg.length < 2)
      (Shared.start,.new 0)
    exact (h Shared.start (.new 0) start_healthy).1 _ hpanic
  · intro hlen w seen hw
    rcases message_cases (X := X) hlen with
      ⟨data,tx,ht,hd,hdec⟩ | ⟨data,block,ht,hd,hdec⟩ | ⟨result,hidle⟩
    · cases hc : seen.contains (X.txidString (X.txid tx)) with
      | true =>
        rw [performs_known hX network ht hd hdec hc w hw]
        simp [ht]
      | false =>
        rw [performs_mempool hX network ht hd hdec hc w hw]
        simp [ht]
    · rw [performs_block hX network seen ht hd hdec w hw]
      simp [ht]
    · rw [performs_idle network seen hidle w hw]
      cases hidle with
      | badTx ht hd he => simp [ht]
      | badBlock ht hd he => simp [ht]
      | unknown ht hd htx hb => simp [ht]

/-! ## Runs of the loop -/

/-- The loop gets through, and to where it would without the messages it ignores. -/
def Unstopped (network : Network) (received : List (Except TmqError (List Bytes)))
    (w : Shared) (seen : BoundedSet String) : Prop :=
  ∃ s, (listen network received : Exec _ (Error X) Unit).run (w,seen) = .ok () s ∧
    (listen network (received.filter fun m => !ignored X m) : Exec _ (Error X) Unit).run
      (w,seen) = .ok () s

theorem unstopped_of_parts (hX : X.RenderTotal) (network : Network)
    (received : List (Except TmqError (List Bytes)))
    (hparts : ∀ msg, .ok msg ∈ received → 2 ≤ msg.length) {w : Shared} (hw : w.Healthy)
    (seen : BoundedSet String) : Unstopped (X := X) network received w seen := by
  induction received generalizing w seen with
  | nil => exact ⟨_,rfl,rfl⟩
  | cons m rest ih =>
    have hrest : ∀ msg, .ok msg ∈ rest → 2 ≤ msg.length :=
      fun msg hmem => hparts msg (List.mem_cons_of_mem m hmem)
    cases hi : ignored X m with
    | true =>
      obtain ⟨s,hall,hkept⟩ := ih hrest hw seen
      have hm := hears_ignored network seen hi w hw
      refine ⟨s,?_,by simpa [hi] using hkept⟩
      rw [← List.singleton_append,listen_append,hm]
      exact hall
    | false =>
      obtain ⟨ns,seen',hm⟩ := hears_received hX network seen
        fun msg heq => hparts msg (heq ▸ List.mem_cons_self)
      obtain ⟨s,hall,hkept⟩ := ih hrest (hw.applyAll (ns.map (Notice.publication X))) seen'
      have hfilter : (m :: rest).filter (fun m => !ignored X m) =
          [m] ++ rest.filter fun m => !ignored X m := by simp [hi]
      refine ⟨s,?_,?_⟩
      · rw [← List.singleton_append,listen_append,hm w hw]
        exact hall
      · rw [hfilter,listen_append,hm w hw]
        exact hkept

/-- The first message of fewer than two parts ends the loop. -/
theorem listen_short (hX : X.RenderTotal) (network : Network)
    {received : List (Except TmqError (List Bytes))} {msg : List Bytes}
    (hmem : .ok msg ∈ received) (hshort : msg.length < 2) {w : Shared} (hw : w.Healthy)
    (seen : BoundedSet String) :
    ∃ s, (listen network received : Exec _ (Error X) Unit).run (w,seen) = .error .panic s := by
  induction received generalizing w seen with
  | nil => cases hmem
  | cons m rest ih =>
    rw [← List.singleton_append,listen_append]
    by_cases hm : ∃ short : List Bytes, m = .ok short ∧ short.length < 2
    · obtain ⟨short,rfl,hlen⟩ := hm
      have hpanic := short_message_panics (X := X) network hlen (w,seen)
      refine ⟨(w,seen),?_⟩
      rw [listen_singleton]
      simp only [receive,EStateM.run] at hpanic ⊢
      simp only [hpanic]
    · have hlong : ∀ msg', m = .ok msg' → 2 ≤ msg'.length :=
        fun msg' heq => Nat.le_of_not_lt fun hlt => hm ⟨msg',heq,hlt⟩
      obtain ⟨ns,seen',hturn⟩ := hears_received hX network seen hlong
      rw [hturn w hw]
      refine ih ?_ (hw.applyAll _) seen'
      rcases List.mem_cons.mp hmem with heq | hmem
      · exact absurd ⟨msg,heq.symm,hshort⟩ hm
      · exact hmem

theorem unstopped_iff (hX : X.RenderTotal) (network : Network)
    (received : List (Except TmqError (List Bytes))) {w : Shared} (hw : w.Healthy)
    (seen : BoundedSet String) :
    Unstopped (X := X) network received w seen ↔ ∀ msg, .ok msg ∈ received → 2 ≤ msg.length := by
  refine ⟨?_,fun hparts => unstopped_of_parts hX network received hparts hw seen⟩
  rintro ⟨s,hall,-⟩ msg hmem
  by_contra hshort
  obtain ⟨s',hpanic⟩ := listen_short hX network hmem (by omega) hw seen
  rw [hpanic] at hall
  cases hall

/-! ## Runs of the whole relay -/

/-- Only a message of the socket stops the listener. -/
theorem System.step_listening {network : Network} {s s' : System} {a : Act X}
    (h : s.step network a = some s') :
    s'.listening = s.listening ∨
      ∃ msg, a = .zmq msg ∧ s'.listening = s.listens (X := X) network msg := by
  cases step_steps h with
  | accept | text | otherFrame | handle | stop | forward | forwardFails | drained | join =>
    exact Or.inl rfl
  | zmq hl msg => exact Or.inr ⟨msg,rfl,rfl⟩

theorem System.listens_of_parts (hX : X.RenderTotal) (network : Network) {s : System}
    (hw : s.relay.shared.Healthy) {msg : List Bytes} (h : 2 ≤ msg.length) :
    s.listens (X := X) network msg = true := by
  obtain ⟨result,ns,seen',hr,hperf⟩ := message_performs hX network h s.relay.txsSeen
  rw [listens,hperf _ hw]
  cases result with
  | ok u => rfl
  | error f =>
    cases f with
    | err e => rfl
    | panic => exact absurd rfl hr

theorem System.run_listening (hX : X.RenderTotal) {network : Network} {txCacheSize : ℕ}
    {acts : List (Act X)} {s : System}
    (h : Machine.run (step (X := X) network) (start txCacheSize) acts = some s)
    (hparts : ∀ msg, .zmq msg ∈ acts → 2 ≤ msg.length) : s.listening = true := by
  refine (Machine.run_invariant (P := fun past s =>
    (∀ msg, .zmq msg ∈ past → 2 ≤ msg.length) → s.listening = true) (fun _ => rfl) ?_ h).2 hparts
  intro past s a s' hreach hlisten hs hlong
  rcases step_listening hs with heq | ⟨msg,rfl,heq⟩
  · rw [heq]
    exact hlisten fun msg hmem => hlong msg (List.mem_append_left _ hmem)
  · rw [heq]
    exact listens_of_parts hX network (reachable_healthy hX hreach) (hlong msg (by simp))

/-- A message the listener ignores. -/
def Act.ignored : Act X → Bool
  | .zmq msg => NexusRelay.ignored X (.ok msg : Except Unit (List Bytes))
  | _ => false

theorem System.step_ignored {network : Network} {s s' : System} (hw : s.relay.shared.Healthy)
    {a : Act X} (ha : a.ignored = true) (h : s.step network a = some s') : s' = s := by
  cases step_steps h with
  | zmq hlisten msg =>
    obtain ⟨result,hidle⟩ := @idle_of_ignored X Unit msg ha
    have hrun := performs_idle network s.relay.txsSeen hidle _ hw
    have hrelay : s.relay.step network (.zmq msg : Event X) = s.relay := by
      simp only [RelayState.step,hrun]
      cases result with
      | ok u => rfl
      | error f => simp only [Exec.run_ofFallible_error,List.map_nil,applyAll_nil,hw.unwind]
    have hstill : s.listens (X := X) network msg = true := by
      rw [listens,hrun]
      cases hidle <;> rfl
    rw [hrelay,hstill,← hlisten]
  | accept | text | otherFrame | handle | stop | forward | forwardFails | drained | join => cases ha

/-- A message is safe for the listener exactly when it has at least two parts; so is a
sequence of messages for its loop; and in every run of the relay whose messages all have two
parts the listener is never stopped, and the run without the messages it ignores ends in
the same state. -/
theorem listener_unstopped (hX : X.RenderTotal) (network : Network) :
    (∀ msg, ZmqSafe X network msg ↔ 2 ≤ msg.length) ∧
    (∀ (received : List (Except TmqError (List Bytes))) (w : Shared) (seen : BoundedSet String),
      w.Healthy → (Unstopped (X := X) network received w seen ↔
        ∀ msg, .ok msg ∈ received → 2 ≤ msg.length)) ∧
    ∀ (txCacheSize : ℕ) (acts : List (Act X)) (s : System),
      Machine.run (System.step network) (System.start txCacheSize) acts = some s →
      (∀ msg, .zmq msg ∈ acts → 2 ≤ msg.length) →
      s.listening = true ∧
        Machine.run (System.step network) (System.start txCacheSize)
          (acts.filter fun a => !a.ignored) = some s := by
  refine ⟨zmqSafe_iff hX network,fun received w seen hw => unstopped_iff hX network received hw seen,
    fun txCacheSize acts s h hparts => ⟨System.run_listening hX h hparts,?_⟩⟩
  refine Machine.run_filter h (Q := fun s => s.relay.shared.Healthy)
    (fun s hr => System.reachable_healthy hX hr) fun s a s' hw _ hk hs => ?_
  have hignored : a.ignored = true := by simpa using hk
  exact System.step_ignored hw hignored hs

/-! ## A message of one part -/

theorem single_part_unsafe :
    (processZmqMessage (X := Deps.sample) [rawtx] .elementsRegtest).run
      (Shared.start,.new 1000) = .error .panic (Shared.start,.new 1000) ∧
    ¬ ZmqSafe Deps.sample .elementsRegtest [rawtx] := by
  have hpanic : (processZmqMessage (X := Deps.sample) [rawtx] .elementsRegtest).run
      (Shared.start,.new 1000) = .error .panic (Shared.start,.new 1000) := rfl
  exact ⟨hpanic,fun h => (h Shared.start (.new 1000) start_healthy).1 _ hpanic⟩

theorem two_parts_safe : ZmqSafe Deps.sample .elementsRegtest [rawtx,Sample.txBytes] :=
  ((@listener_unstopped Deps.sample Unit Deps.sample_renderTotal .elementsRegtest).1 _).mpr
    (by decide)

end NexusRelay
