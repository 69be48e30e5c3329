import NexusRelay.Delivery.Provenance

/-! # What kind of event a subscription receives

Addresses, txids and asset pairs share the strings of the validated topics. A subscription
receives only its kind as long as its string is not the rendering of another kind.
-/
namespace NexusRelay
open Shared
variable {X : Deps}

/-- The text is of the kind these params ask for, and names the identifier they name. -/
def AskedFor (events : List (Event X)) (params : Params X) (text : String) : Prop :=
  match params with
  | .address a => ∃ tx where_, text = noticeText X
      (AddressSeen.toValue ⟨a,X.txidString (X.txid tx),X.serializeHex tx,where_⟩)
  | .tx t => ∃ tx where_, X.txidString (X.txid tx) = t.txid ∧
      text = noticeText X (TxSeen.toValue ⟨t.txid,X.serializeHex tx,where_⟩)
  | .pair pair => ∃ v, proposalText v = some text ∧
      X.assetString (X.inputAsset v) = pair.input ∧ X.assetString (X.outputAsset v) = pair.output
  | .any a => ∃ e ∈ events, ∃ node request b content, e.Requests node request ∧
      request.params = .any b ∧ b.topic = a.topic ∧ b.content = some content ∧
      X.render (.success (.num (-1)) (.string content)) = some text
  | _ => False

/-- The identifier is not the rendering of an identifier of another kind. -/
def OfItsKind (network : Network) (params : Params X) : Prop :=
  match params with
  | .address a => (∀ txid, a ≠ X.txidString txid) ∧ ∀ v, a ≠ pairString X v
  | .tx t => (∀ script, X.addressString script network.addressParams ≠ some t.txid) ∧
      ∀ v, t.txid ≠ pairString X v
  | _ => True

theorem mem_getOutputAddresses {tx : X.Transaction} {network : Network} {address : String}
    (h : address ∈ getOutputAddresses X tx network) :
    ∃ script, X.addressString script network.addressParams = some address := by
  obtain ⟨script,-,hs⟩ := List.mem_filterMap.mp h
  exact ⟨script,hs⟩

theorem colon_mem_pair (input output : String) : ':' ∈ (input ++ ":" ++ output).toList := by
  simp

/-- A pair of strings without the separator is read off the topic in one way only. -/
theorem pair_injective {a b input output : String} (ha : ':' ∉ a.toList) (hb : ':' ∉ b.toList)
    (h : a ++ ":" ++ b = input ++ ":" ++ output) : a = input ∧ b = output := by
  have hlist : a.toList ++ ':' :: b.toList = input.toList ++ ':' :: output.toList := by
    have := congrArg String.toList h
    simpa using this
  obtain ⟨h1,-,h2⟩ := (List.append_cons_inj_of_notMem ha hb).mp hlist
  exact ⟨String.toList_inj.mp h1,String.toList_inj.mp h2⟩

/-- The topic of a publication names what it is about, in one of three renderings. -/
theorem Published.kind {network : Network} {events : List (Event X)} {s text : String}
    (h : Published network events (.validated s) text) :
    (∃ tx where_, s = X.txidString (X.txid tx) ∧
      text = noticeText X (TxSeen.toValue ⟨s,X.serializeHex tx,where_⟩)) ∨
    (∃ script tx where_, X.addressString script network.addressParams = some s ∧
      text = noticeText X
        (AddressSeen.toValue ⟨s,X.txidString (X.txid tx),X.serializeHex tx,where_⟩)) ∨
    ∃ v, s = pairString X v ∧ proposalText v = some text := by
  cases h with
  | tx he hd => exact Or.inl ⟨_,_,rfl,rfl⟩
  | address he hd ha =>
    obtain ⟨script,hscript⟩ := mem_getOutputAddresses ha
    exact Or.inr (Or.inl ⟨script,_,_,hscript,rfl⟩)
  | proposal he hr hp hval hrender => exact Or.inr (Or.inr ⟨_,rfl,hrender⟩)

theorem Published.content {network : Network} {events : List (Event X)} {s text : String}
    (h : Published network events (.unvalidated s) text) :
    ∃ e ∈ events, ∃ node request a content, e.Requests node request ∧ request.params = .any a ∧
      a.topic = s ∧ a.content = some content ∧
      X.render (.success (.num (-1)) (.string content)) = some text := by
  cases h with
  | any he hr hp hc hrender => exact ⟨_,he,_,_,_,_,hr,hp,rfl,hc,hrender⟩

/-- The rendering of a txid or an address is no pair. -/
theorem Published.of_pair (hids : X.IdsAreHex) (haddr : X.AddressesHaveNoColon) {network : Network}
    {events : List (Event X)} {pair : Pair} {text : String}
    (h : Published network events pair.topic text) :
    ∃ v, proposalText v = some text ∧
      X.assetString (X.inputAsset v) = pair.input ∧
      X.assetString (X.outputAsset v) = pair.output := by
  have hcolon := colon_mem_pair pair.input pair.output
  rcases h.kind with ⟨tx,-,hs,-⟩ | ⟨script,-,-,hs,-⟩ | ⟨v,hs,hrender⟩
  · rw [hs] at hcolon
    exact absurd hcolon (hids.1 _).no_colon
  · exact absurd hcolon (haddr _ _ _ hs)
  · have hsame := pair_injective (hids.2 _).no_colon (hids.2 _).no_colon hs.symm
    exact ⟨v,hrender,hsame⟩

theorem Published.askedFor (hids : X.IdsAreHex) (haddr : X.AddressesHaveNoColon)
    {network : Network} {events : List (Event X)} {params : Params X} {topic : Topic}
    {text : String} (ht : topicFromParams params = .ok topic)
    (hv : params.validateForMethod .subscribe = .ok ()) (hkind : OfItsKind network params)
    (h : Published network events topic text) : AskedFor events params text := by
  cases params with
  | any a =>
    cases ht
    exact h.content
  | address a =>
    cases ht
    rcases h.kind with ⟨tx,-,hs,-⟩ | ⟨-,tx,where_,-,htext⟩ | ⟨v,hs,-⟩
    · exact absurd hs (hkind.1 _)
    · exact ⟨tx,where_,htext⟩
    · exact absurd hs (hkind.2 v)
  | tx t =>
    cases ht
    rcases h.kind with ⟨tx,where_,hs,htext⟩ | ⟨script,-,-,hs,-⟩ | ⟨v,hs,-⟩
    · exact ⟨tx,where_,hs.symm,htext⟩
    · exact absurd hs (hkind.1 script)
    · exact absurd hs (hkind.2 v)
  | pair pair =>
    cases ht
    exact h.of_pair hids haddr
  | pset pset => cases hv
  | wallet | empty | proposal | ping => cases ht

/-! ## Requests that share a topic -/

/-- Two splits of one list at a separator are the same, or one is at a later separator. -/
theorem append_cons_eq_append_cons_iff {α : Type} {xs ys zs ws : List α} {sep : α} :
    xs ++ sep :: ys = zs ++ sep :: ws ↔ (xs = zs ∧ ys = ws) ∨
      (∃ mid, zs = xs ++ sep :: mid ∧ ys = mid ++ sep :: ws) ∨
      ∃ mid, xs = zs ++ sep :: mid ∧ ws = mid ++ sep :: ys := by
  constructor
  · intro h
    rcases List.append_eq_append_iff.mp h with ⟨more,hzs,hys⟩ | ⟨more,hxs,hws⟩
    · cases more with
      | nil => exact Or.inl ⟨by simpa using hzs.symm,by simpa using hys⟩
      | cons c mid =>
        obtain ⟨rfl,htail⟩ := List.cons.inj hys
        exact Or.inr (Or.inl ⟨mid,hzs,htail⟩)
    · cases more with
      | nil => exact Or.inl ⟨by simpa using hxs,by simpa using hws.symm⟩
      | cons c mid =>
        obtain ⟨rfl,htail⟩ := List.cons.inj hws
        exact Or.inr (Or.inr ⟨mid,hxs,htail⟩)
  · rintro (⟨rfl,rfl⟩ | ⟨mid,rfl,rfl⟩ | ⟨mid,rfl,rfl⟩)
    · rfl
    · simp
    · simp

def Pair.text (pair : Pair) : String := pair.input ++ ":" ++ pair.output

/-- `later` splits the text of `pair` at a separator inside the output of `pair`. -/
def Pair.SplitLater (pair later : Pair) : Prop :=
  ∃ mid, later.input = pair.input ++ ":" ++ mid ∧ pair.output = mid ++ ":" ++ later.output

theorem Pair.splitLater_iff {p q : Pair} : p.SplitLater q ↔
    ∃ mid, q.input.toList = p.input.toList ++ ':' :: mid ∧
      p.output.toList = mid ++ ':' :: q.output.toList := by
  constructor
  · rintro ⟨mid,hinput,houtput⟩
    exact ⟨mid.toList,by simp [hinput],by simp [houtput]⟩
  · rintro ⟨mid,hinput,houtput⟩
    exact ⟨.ofList mid,String.toList_inj.mp (by simp [hinput]),String.toList_inj.mp (by simp [houtput])⟩

theorem Pair.text_eq_iff {p q : Pair} :
    p.text = q.text ↔ p = q ∨ p.SplitLater q ∨ q.SplitLater p := by
  have hlist : p.text = q.text ↔ p.input.toList ++ ':' :: p.output.toList =
      q.input.toList ++ ':' :: q.output.toList := by
    rw [← String.toList_inj]
    simp [text]
  rw [hlist,append_cons_eq_append_cons_iff,splitLater_iff,splitLater_iff,String.toList_inj,
    String.toList_inj,← Pair.mk.injEq]

theorem Pair.SplitLater.ne {p q : Pair} (h : p.SplitLater q) : p ≠ q := by
  rintro rfl
  obtain ⟨mid,hinput,-⟩ := h
  have hlength := congrArg String.length hinput
  simp only [String.length_append] at hlength
  have hsep : ":".length = 1 := rfl
  omega

theorem Pair.topic_eq (pair : Pair) : pair.topic = .validated pair.text := rfl

/-- Two pairs have different topics where neither splits the text of the other later. -/
theorem Pair.topics_differ_iff {p q : Pair} :
    (p.topic = q.topic → p = q) ↔ ¬ p.SplitLater q ∧ ¬ q.SplitLater p := by
  rw [topic_eq,topic_eq,Topic.validated.injEq,text_eq_iff]
  constructor
  · intro h
    exact ⟨fun hlater => hlater.ne (h (Or.inr (Or.inl hlater))),
      fun hlater => hlater.ne (h (Or.inr (Or.inr hlater))).symm⟩
  · rintro ⟨hp,hq⟩ (heq | hlater | hlater)
    · exact heq
    · exact absurd hlater hp
    · exact absurd hlater hq

/-- A subscribe request with these params is acknowledged. -/
def Params.Subscribes (params : Params X) : Prop :=
  params.validateForMethod .subscribe = .ok () ∧ ∃ topic, topicFromParams params = .ok topic

/-- The strings of the two requests do not meet in one topic: an address is not the string of the
txid, neither of them is the text of the pair, and two pairs are not two splits of one text. -/
def Params.Apart : Params X → Params X → Prop
  | .address a, .tx t | .tx t, .address a => a ≠ t.txid
  | .address a, .pair p | .pair p, .address a => a ≠ p.text
  | .tx t, .pair p | .pair p, .tx t => t.txid ≠ p.text
  | .pair p, .pair q => ¬ p.SplitLater q ∧ ¬ q.SplitLater p
  | _, _ => True

/-- Only four of the shapes are acknowledged, and an `any` one without a content. -/
theorem Params.Subscribes.cases {params : Params X} (h : params.Subscribes) :
    (∃ topic, params = .any ⟨topic,none⟩) ∨ (∃ a, params = .address a) ∨ (∃ t, params = .tx ⟨t⟩) ∨
      ∃ p, params = .pair p := by
  obtain ⟨hvalid,topic,htopic⟩ := h
  cases params with
  | any a =>
    obtain ⟨t,_ | content⟩ := a
    · exact Or.inl ⟨t,rfl⟩
    · cases hvalid
  | address a => exact Or.inr (Or.inl ⟨a,rfl⟩)
  | tx t => exact Or.inr (Or.inr (Or.inl ⟨t.txid,rfl⟩))
  | pair p => exact Or.inr (Or.inr (Or.inr ⟨p,rfl⟩))
  | pset pset => cases hvalid
  | wallet | empty | proposal | ping => cases htopic

/-- Requests that ask for different things have different topics exactly where their strings do
not meet. -/
theorem topics_differ_iff {p q : Params X} (hp : p.Subscribes) (hq : q.Subscribes) :
    (p ≠ q → topicFromParams p ≠ topicFromParams q) ↔ p.Apart q := by
  rw [not_imp_not]
  rcases hp.cases with ⟨t,rfl⟩ | ⟨a,rfl⟩ | ⟨t,rfl⟩ | ⟨r,rfl⟩ <;>
    rcases hq.cases with ⟨t',rfl⟩ | ⟨a',rfl⟩ | ⟨t',rfl⟩ | ⟨r',rfl⟩ <;>
    simp [topicFromParams,Params.Apart,Pair.topic_eq,eq_comm]
  simpa [Pair.topic_eq,eq_comm] using Pair.topics_differ_iff (p := r) (q := r')

/-- In every run, an acknowledged subscription whose identifier is not the rendering of an
identifier of another kind receives only what it asked for; and of all requests that may be
acknowledged, any two that ask for different things have different topics exactly where their
strings do not meet. -/
theorem subscription_receives_its_kind (hX : X.RenderTotal) (hids : X.IdsAreHex)
    (haddr : X.AddressesHaveNoColon) (network : Network) (txCacheSize : ℕ)
    (events : List (Event X)) :
    (∀ sub ∈ RelayState.subscriptions network txCacheSize events, OfItsKind network sub.params →
      ∀ e, (RelayState.run network txCacheSize events).shared.DeliveredThrough sub.sender e →
        AskedFor events sub.params e.text) ∧
    ∀ p q : Params X, p.Subscribes → q.Subscribes →
      ((p ≠ q → topicFromParams p ≠ topicFromParams q) ↔ p.Apart q) := by
  refine ⟨?_,fun p q hp hq => topics_differ_iff hp hq⟩
  intro sub hsub hkind e he
  obtain ⟨ops,hex⟩ := RelayState.run_explains hX network txCacheSize events
  obtain ⟨ht,hv⟩ := hex.topics sub hsub
  exact (hex.delivered hsub he).askedFor hids haddr ht hv hkind

/-! ## An address that is one, and one that is a txid -/

theorem address_receives_its_kind :
    AskedFor (Sample.addressRun Sample.address) (.address Sample.address)
      Sample.addressEntry.text ∧
    topicFromParams (.address Sample.address : Params Deps.sample) ≠
      topicFromParams (.tx ⟨Sample.txid⟩ : Params Deps.sample) := by
  have htxid : ∀ tx : Sample.Transaction, Sample.address ≠ tx.txid := by
    intro tx
    cases tx with
    | coinbase | payment | split => decide +kernel
  have hkind : OfItsKind (X := Deps.sample) .elementsRegtest (.address Sample.address) := by
    have hpair : ∀ a b : Bool,
        Sample.address ≠ Sample.assetString a ++ ":" ++ Sample.assetString b := by
      decide +kernel
    exact ⟨htxid,fun v => hpair v.1 v.2⟩
  have hall := subscription_receives_its_kind Deps.sample_renderTotal Deps.sample_idsAreHex
    Deps.sample_addressesHaveNoColon .elementsRegtest 1000 (Sample.addressRun Sample.address)
  have hasked := hall.1 (Sample.addressSubscription Sample.address) (Sample.address_acknowledged rfl)
    hkind _ ⟨Sample.address_delivered,_,rfl⟩
  have hdiffer := hall.2 (.address Sample.address) (.tx ⟨Sample.txid⟩) ⟨rfl,_,rfl⟩ ⟨rfl,_,rfl⟩
  exact ⟨hasked,hdiffer.mpr (htxid .payment) (by simp)⟩

def Sample.txSeenText : String :=
  noticeText Deps.sample (TxSeen.toValue ⟨Sample.txid,Sample.txHex,.mempool⟩)

set_option maxRecDepth 4000 in
/-- A subscription to an address whose string is a txid is acknowledged, and receives the
notification of the transaction; the two kinds have the same topic. -/
theorem txid_as_address :
    (topicFromParams (.address Sample.txid : Params Deps.sample) =
      topicFromParams (.tx ⟨Sample.txid⟩ : Params Deps.sample)) ∧
    ∃ sub ∈ RelayState.subscriptions .elementsRegtest 1000 (Sample.addressRun Sample.txid),
      sub.params = .address Sample.txid ∧
      ∃ e, (RelayState.run .elementsRegtest 1000
          (Sample.addressRun Sample.txid)).shared.DeliveredThrough sub.sender e ∧
        ¬ AskedFor (Sample.addressRun Sample.txid) sub.params e.text := by
  have hnew : (Sample.watchingRun Sample.txid).txsSeen.contains Sample.txid = false := by
    decide +kernel
  have hthere : ⟨0,.subscription 0⟩ ∈ (Sample.watchingRun Sample.txid).shared.receivers
      (.validated Sample.txid) := by
    decide +kernel
  have hlog : ⟨Sample.txSeenText,.delivery (.validated Sample.txid) (.subscription 0)⟩ ∈
      ((RelayState.run .elementsRegtest 1000 (Sample.addressRun Sample.txid)).shared.channels
        0).log := by
    rw [Sample.addressRun_shared hnew]
    exact kept_published (delivered_published hthere _) _ _
  refine ⟨rfl,Sample.addressSubscription Sample.txid,
    Sample.address_acknowledged rfl,rfl,_,⟨hlog,_,rfl⟩,?_⟩
  have hother : ∀ tx : Sample.Transaction, ∀ place : Where, Sample.txSeenText ≠
      noticeText Deps.sample (AddressSeen.toValue ⟨Sample.txid,tx.txid,tx.hex,place⟩) := by
    intro tx place
    cases tx with
    | coinbase | payment | split =>
      cases place with
      | mempool | block => decide +kernel
  rintro ⟨tx,place,h⟩
  exact hother tx place h

end NexusRelay
