import NexusRelay.Listener.BoundedSet
import NexusRelay.Listener.Notices

/-! # The announcements of the mempool

The cache is the window of the last `capacity` txids that were announced.
-/
namespace NexusRelay
open Shared Window

/-! ## Announcements -/

variable {X : Deps} {TmqError : Type}

/-- The txid a mempool notification announces. -/
def Notice.announces : Notice → Option String
  | .tx seen => if seen.where_ = .mempool then some seen.txid else none
  | .address _ => none

def announced (ns : List Notice) : List String := ns.filterMap Notice.announces

theorem announced_append (xs ys : List Notice) :
    announced (xs ++ ys) = announced xs ++ announced ys := List.filterMap_append

/-- What a block confirms announces nothing. -/
theorem announced_block (network : Network) (txs : List X.Transaction) :
    announced (txs.flatMap (Notice.ofTransaction X network .block)) = [] := by
  rw [announced,List.filterMap_eq_nil_iff]
  intro n hn
  obtain ⟨tx,-,hn⟩ := List.mem_flatMap.mp hn
  cases n with
  | address seen => rfl
  | tx seen =>
    have hblock : seen.where_ = .block := Notice.where_ofTransaction hn
    simp [Notice.announces,hblock]

/-- A transaction is announced once, whatever its outputs are. -/
theorem announced_mempool (network : Network) (tx : X.Transaction) :
    announced (Notice.ofTransaction X network .mempool tx) = [X.txidString (X.txid tx)] := by
  simp only [announced,Notice.ofTransaction,List.filterMap_cons,Notice.announces,↓reduceIte,
    List.cons.injEq,true_and,List.filterMap_filterMap,List.filterMap_eq_nil_iff]
  intro script _
  cases X.addressString script network.addressParams <;> rfl

/-- What a message of two or more parts does to a cache that holds the last announcements. -/
theorem message_window (hX : X.RenderTotal) (network : Network) {c : ℕ} (hc : 0 < c)
    {seen : BoundedSet String} {past : List String} (h : seen.Holds c past) {msg : List Bytes}
    (hparts : 2 ≤ msg.length) :
    ∃ (result : Fallible (Error X) Unit) (ns : List Notice) (seen' : BoundedSet String),
      result ≠ .error .panic ∧ Performs X network msg seen result ns seen' ∧
      seen'.Holds c (past ++ announced ns) := by
  rcases message_cases (X := X) hparts with
    ⟨data,tx,ht,hd,hdec⟩ | ⟨data,block,ht,hd,hdec⟩ | ⟨result,hidle⟩
  · by_cases hmem : X.txidString (X.txid tx) ∈ past.rtake c
    · have hknown := performs_known hX network ht hd hdec ((h.contains_iff _).mpr hmem)
      exact ⟨_,[],seen,by simp,hknown,by simpa [announced] using h⟩
    · have hnot : seen.contains (X.txidString (X.txid tx)) = false :=
        Bool.eq_false_iff.mpr fun hcon => hmem ((h.contains_iff _).mp hcon)
      refine ⟨_,_,_,by simp,performs_mempool hX network ht hd hdec hnot,?_⟩
      rw [announced_mempool]
      exact (h.insert_new hc hmem).2
  · refine ⟨_,_,seen,by simp,performs_block hX network seen ht hd hdec,?_⟩
    rw [announced_block,List.append_nil]
    exact h
  · exact ⟨result,[],seen,hidle.ne_panic,performs_idle network seen hidle,
      by simpa [announced] using h⟩

/-- After every run of the loop the cache holds the last announcements. -/
theorem listen_window (hX : X.RenderTotal) (network : Network) {c : ℕ} (hc : 0 < c)
    (received : List (Except TmqError (List Bytes)))
    (hparts : ∀ msg, .ok msg ∈ received → 2 ≤ msg.length) :
    ∃ ns seen, Hears X network (.new c) received ns seen ∧ seen.Holds c (announced ns) := by
  induction received using List.reverseRecOn with
  | nil => exact ⟨[],.new c,Hears.nil network _,BoundedSet.holds_new c⟩
  | append_singleton past m ih =>
    obtain ⟨ns,seen,hhears,hholds⟩ := ih fun msg hmem => hparts msg (List.mem_append_left _ hmem)
    cases m with
    | error e =>
      refine ⟨ns,seen,?_,hholds⟩
      simpa using hhears.snoc (hears_socketError network seen e)
    | ok msg =>
      have hlen := hparts msg (List.mem_append_right _ (List.mem_singleton_self _))
      obtain ⟨result,ms,seen',hr,hperf,hholds'⟩ := message_window hX network hc hholds hlen
      refine ⟨ns ++ ms,seen',hhears.snoc (hperf.hears hr),?_⟩
      rw [announced_append]
      exact hholds'

/-- For every capacity and every sequence of messages of at least two parts, with the txids
announced in the order of their announcements: `c + 1` in a row are distinct; a decodable
`rawtx` message is suppressed exactly when its txid is among the last `c` of them, and
otherwise announces it; every other message announces nothing and leaves the cache alone. -/
theorem mempool_window (hX : X.RenderTotal) (network : Network) {c : ℕ} (hc : 1 ≤ c)
    (received : List (Except TmqError (List Bytes)))
    (hparts : ∀ msg, .ok msg ∈ received → 2 ≤ msg.length) :
    ∃ ns seen, Hears X network (.new c) received ns seen ∧
      (∀ k, (((announced ns).drop k).take (c + 1)).Nodup) ∧
      (∀ msg data tx, msg[0]? = some rawtx → msg[1]? = some data →
        X.decodeTransaction data = .ok tx →
        (Performs X network msg seen (.ok ()) [] seen ↔
          X.txidString (X.txid tx) ∈ (announced ns).rtake c) ∧
        (X.txidString (X.txid tx) ∉ (announced ns).rtake c →
          Performs X network msg seen (.ok ()) (Notice.ofTransaction X network .mempool tx)
            (seen.insert (X.txidString (X.txid tx))).2)) ∧
      ∀ msg, 2 ≤ msg.length → (∀ data tx, msg[0]? = some rawtx → msg[1]? = some data →
          X.decodeTransaction data ≠ .ok tx) →
        ∃ (result : Fallible (Error X) Unit) (ms : List Notice),
          Performs X network msg seen result ms seen ∧ announced ms = [] := by
  obtain ⟨ns,seen,hhears,hholds⟩ := listen_window hX network hc received hparts
  refine ⟨ns,seen,hhears,hholds.spaced.nodup,?_,?_⟩
  · intro msg data tx ht hd hdec
    have hannounce : X.txidString (X.txid tx) ∉ (announced ns).rtake c →
        Performs X network msg seen (.ok ()) (Notice.ofTransaction X network .mempool tx)
          (seen.insert (X.txidString (X.txid tx))).2 := fun hmem =>
      performs_mempool hX network ht hd hdec
        (Bool.eq_false_iff.mpr fun hcon => hmem ((hholds.contains_iff _).mp hcon))
    refine ⟨⟨fun hnone => ?_,fun hmem => ?_⟩,hannounce⟩
    · -- a message that announces cannot also publish nothing
      by_contra hmem
      have hsame := hnone.unique (hannounce hmem)
      simp [Notice.ofTransaction] at hsame
    · exact performs_known hX network ht hd hdec ((hholds.contains_iff _).mpr hmem)
  · intro msg hlen hnot
    rcases message_cases (X := X) hlen with
      ⟨data,tx,ht,hd,hdec⟩ | ⟨data,block,ht,hd,hdec⟩ | ⟨result,hidle⟩
    · exact absurd hdec (hnot data tx ht hd)
    · exact ⟨_,_,performs_block hX network seen ht hd hdec,announced_block network _⟩
    · exact ⟨result,[],performs_idle network seen hidle,rfl⟩

/-! ## Two transactions, and room for one of them -/

/-- The payment twice, the transaction that takes its place in the cache, the block of both, a
failure of the socket, and the payment again. -/
def Sample.received : List (Except Unit (List Bytes)) :=
  [.ok [rawtx,Sample.txBytes],.ok [rawtx,Sample.txBytes],
    .ok [rawtx,Sample.Transaction.split.bytes],.ok [rawblock,Sample.blockBytes],.error (),
    .ok [rawtx,Sample.txBytes]]

/-- A cache of capacity 1 that holds the txid. -/
def Sample.holding (txid : String) : BoundedSet String := ⟨{txid},[txid],1⟩

theorem Sample.contains_holding {x y : String} (h : y ≠ x) : (holding x).contains y = false := by
  simpa [holding,BoundedSet.contains] using h

theorem Sample.insert_holding {x y : String} (h : y ≠ x) :
    ((holding x).insert y).2 = holding y := by
  have hevict : (holding x).evict = ⟨∅,[],1⟩ := by simp [holding,BoundedSet.evict]
  simp only [BoundedSet.insert,contains_holding h,hevict]
  simp [holding]

theorem Sample.split_ne_payment : Sample.Transaction.split.txid ≠ Sample.txid := by
  decide +kernel

theorem Sample.known_payment :
    Performs Deps.sample .elementsRegtest [rawtx,txBytes] (holding txid) (.ok ()) []
      (holding txid) :=
  performs_known Deps.sample_renderTotal _ rfl rfl decodeTransaction_txBytes
    (show (holding txid).contains txid = true by simp [holding,BoundedSet.contains])

theorem Sample.new_split :
    Performs Deps.sample .elementsRegtest [rawtx,Transaction.split.bytes] (holding txid) (.ok ())
      (Notice.ofTransaction Deps.sample .elementsRegtest .mempool Transaction.split)
      (holding Transaction.split.txid) := by
  rw [← insert_holding split_ne_payment]
  exact performs_mempool Deps.sample_renderTotal _ rfl rfl (decodeTransaction_bytes .split)
    (contains_holding split_ne_payment)

/-- Each transaction evicts the other. -/
theorem Sample.hears_received :
    ∃ ns, Hears Deps.sample .elementsRegtest (.new 1) received ns (holding txid) := by
  have hX := Deps.sample_renderTotal
  have hfirst : Performs Deps.sample .elementsRegtest [rawtx,txBytes] (.new 1) (.ok ()) _
      (holding txid) := performs_mempool hX _ rfl rfl decodeTransaction_txBytes rfl
  have hblock : Performs Deps.sample .elementsRegtest [rawblock,blockBytes]
      (holding Transaction.split.txid) (.ok ()) _ (holding Transaction.split.txid) :=
    performs_block hX _ _ rfl rfl decodeBlock_blockBytes
  have hlast : Performs Deps.sample .elementsRegtest [rawtx,txBytes]
      (holding Transaction.split.txid) (.ok ()) _ ((holding Transaction.split.txid).insert txid).2 :=
    performs_mempool hX _ rfl rfl decodeTransaction_txBytes
      (contains_holding split_ne_payment.symm)
  rw [insert_holding split_ne_payment.symm] at hlast
  exact ⟨_,(((((hfirst.hears (by simp)).snoc (known_payment.hears (by simp))).snoc
    (new_split.hears (by simp))).snoc (hblock.hears (by simp))).snoc
      (hears_socketError _ _ ())).snoc (hlast.hears (by simp))⟩

/-- No txid is announced twice in a row; the payment, announced last, is suppressed once more,
and the other transaction, evicted, is announced again. -/
theorem received_window :
    ∃ ns seen, Hears Deps.sample .elementsRegtest (.new 1) Sample.received ns seen ∧
      (∀ k, (((announced ns).drop k).take (1 + 1)).Nodup) ∧
      (Sample.txid ∈ (announced ns).rtake 1 ∧
        Performs Deps.sample .elementsRegtest [rawtx,Sample.txBytes] seen (.ok ()) [] seen) ∧
      Sample.Transaction.split.txid ∉ (announced ns).rtake 1 ∧
      Performs Deps.sample .elementsRegtest [rawtx,Sample.Transaction.split.bytes] seen (.ok ())
        (Notice.ofTransaction Deps.sample .elementsRegtest .mempool Sample.Transaction.split)
        (seen.insert Sample.Transaction.split.txid).2 := by
  have hparts : ∀ msg, .ok msg ∈ Sample.received → 2 ≤ msg.length := by
    intro msg hmem
    simp only [Sample.received,List.mem_cons,Except.ok.injEq,List.not_mem_nil,or_false,
      reduceCtorEq,false_or] at hmem
    rcases hmem with rfl | rfl | rfl | rfl | rfl <;> decide
  obtain ⟨ns,seen,hhears,hnodup,hrawtx,-⟩ := mempool_window Deps.sample_renderTotal
    .elementsRegtest (c := 1) (by decide) Sample.received hparts
  obtain ⟨ms,hsame⟩ := Sample.hears_received
  -- both runs end with the same cache
  have hseen : seen = Sample.holding Sample.txid := by
    have hrun := (hhears .start rfl).symm.trans (hsame .start rfl)
    simp only [EStateM.Result.ok.injEq,Prod.mk.injEq] at hrun
    exact hrun.2.2
  subst hseen
  obtain ⟨hpayment,-⟩ := hrawtx [rawtx,Sample.txBytes] _ _ rfl rfl Sample.decodeTransaction_txBytes
  obtain ⟨hsplit,hannounce⟩ := hrawtx [rawtx,Sample.Transaction.split.bytes] _ _ rfl rfl
    (Sample.decodeTransaction_bytes .split)
  have hevicted : Sample.Transaction.split.txid ∉ (announced ns).rtake 1 := by
    intro hmem
    have hnone := (hsplit.mpr hmem).unique Sample.new_split
    simp [Notice.ofTransaction] at hnone
  exact ⟨ns,_,hhears,hnodup,⟨hpayment.mp Sample.known_payment,Sample.known_payment⟩,hevicted,
    hannounce hevicted⟩

end NexusRelay
