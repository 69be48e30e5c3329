import Mathlib.Data.Finmap

/-! # Channels and the topic registry

A channel keeps every text ever put into it, with a record of who put it there:
the connection's own replies, or a publication that went through one subscription.
The record is only observed by statements, never read by the program.
-/
namespace NexusRelay

/-- The two kinds of topic. Equal strings of different kinds are different topics. -/
inductive Topic where
  | validated (s : String)
  | unvalidated (s : String)
  deriving DecidableEq, Repr

/-- Which of a channel's sender handles one is: the `client_tx` a connection creates,
the `client_tx_clone` of its receive loop, or the clone made for a subscription. -/
inductive Handle where
  | clientTx
  | clientTxClone
  | subscription (n : ℕ)
  deriving DecidableEq, Repr

/-- One `mpsc::UnboundedSender<String>`. -/
structure Sender where
  chan : ℕ
  handle : Handle
  deriving DecidableEq, Repr

inductive Origin where
  | reply
  | delivery (topic : Topic) (handle : Handle)
  deriving DecidableEq, Repr

structure Entry where
  text : String
  origin : Origin
  deriving DecidableEq, Repr

/-- An unbounded channel: all it was ever sent, how much of that `recv` has taken,
and whether its receiver is still alive. -/
structure Channel where
  log : List Entry := []
  received : ℕ := 0
  rxOpen : Bool := true
  deriving DecidableEq, Repr

/-- The channels by number. A channel no connection has created yet is empty. -/
abbrev Channels := ℕ → Channel

def Channel.put (ch : Channel) (e : Entry) : Channel := { ch with log := ch.log ++ [e] }

/-- `UnboundedSender::send` fails exactly when the receiver was dropped. -/
def Sender.send (sender : Sender) (origin : Origin) (text : String) (chs : Channels) :
    Option Channels :=
  if (chs sender.chan).rxOpen then
    some (Function.update chs sender.chan ((chs sender.chan).put ⟨text,origin⟩))
  else none

/-- `recv` takes one text, if there is one. -/
def Channel.take (ch : Channel) : Channel :=
  if ch.received < ch.log.length then { ch with received := ch.received + 1 } else ch

def Channels.take (chs : Channels) (c : ℕ) : Channels := Function.update chs c (chs c).take

def Channels.close (chs : Channels) (c : ℕ) : Channels :=
  Function.update chs c { chs c with rxOpen := false }

@[simp] theorem Channel.take_log (ch : Channel) : ch.take.log = ch.log := by
  unfold Channel.take; split <;> rfl

@[simp] theorem Channel.take_rxOpen (ch : Channel) : ch.take.rxOpen = ch.rxOpen := by
  unfold Channel.take; split <;> rfl

@[simp] theorem Channels.take_log (chs : Channels) (c d : ℕ) :
    (chs.take c d).log = (chs d).log := by
  by_cases h : d = c
  · subst h; simp [Channels.take]
  · simp [Channels.take,h]

@[simp] theorem Channels.take_rxOpen (chs : Channels) (c d : ℕ) :
    (chs.take c d).rxOpen = (chs d).rxOpen := by
  by_cases h : d = c
  · subst h; simp [Channels.take]
  · simp [Channels.take,h]

@[simp] theorem Channels.close_log (chs : Channels) (c d : ℕ) :
    (chs.close c d).log = (chs d).log := by
  by_cases h : d = c
  · subst h; simp [Channels.close]
  · simp [Channels.close,h]

/-- `topics: HashMap<Topic, Vec<mpsc::UnboundedSender<String>>>`. -/
structure TopicRegistry where
  topics : Finmap fun _ : Topic => List Sender

namespace TopicRegistry

def new : TopicRegistry := ⟨∅⟩

/-- The vector `entry(topic).or_default()` refers to. -/
def entryOrDefault (r : TopicRegistry) (topic : Topic) : List Sender :=
  (r.topics.lookup topic).getD []

def subscribe (r : TopicRegistry) (topic : Topic) (sender : Sender) : TopicRegistry :=
  ⟨r.topics.insert topic (r.entryOrDefault topic ++ [sender])⟩

/-- `subscribers.retain(..)` with the closure of `publish`: the senders that are kept,
the channels after every `send`, and `sent_count`. -/
def retainSent (topic : Topic) (message : String) :
    List Sender → Channels → List Sender × Channels × ℕ
  | [], chs => ([],chs,0)
  | sender :: rest, chs =>
    match sender.send (.delivery topic sender.handle) message chs with
    | some chs' =>
      let (kept,chs'',n) := retainSent topic message rest chs'
      (sender :: kept,chs'',n + 1)
    | none => retainSent topic message rest chs

/-- The entry is created when the topic is new, also with no subscriber to keep. -/
def publish (r : TopicRegistry) (topic : Topic) (message : String) (chs : Channels) :
    TopicRegistry × Channels × ℕ :=
  let (kept,chs',sentCount) := retainSent topic message (r.entryOrDefault topic) chs
  (⟨r.topics.insert topic kept⟩,chs',sentCount)

@[simp] theorem entryOrDefault_new (t : Topic) : new.entryOrDefault t = [] := rfl

theorem entryOrDefault_insert (r : TopicRegistry) (t t' : Topic) (ss : List Sender) :
    entryOrDefault ⟨r.topics.insert t' ss⟩ t = if t = t' then ss else r.entryOrDefault t := by
  by_cases h : t = t'
  · subst h; simp [entryOrDefault]
  · simp [entryOrDefault,h,Finmap.lookup_insert_of_ne]

end TopicRegistry

/-- What `publish` appends to channel `c` when it goes through the senders `ss`. -/
def deliveries (topic : Topic) (message : String) (ss : List Sender) (c : ℕ) : List Entry :=
  (ss.filter (fun s => s.chan = c)).map fun s => ⟨message,.delivery topic s.handle⟩

def Channels.deliver (chs : Channels) (topic : Topic) (message : String) (ss : List Sender) :
    Channels :=
  fun c => { chs c with log := (chs c).log ++ deliveries topic message ss c }

def Channels.live (chs : Channels) (ss : List Sender) : List Sender :=
  ss.filter fun s => (chs s.chan).rxOpen

@[simp] theorem Channels.deliver_nil (chs : Channels) (t : Topic) (m : String) :
    chs.deliver t m [] = chs := by
  funext c
  simp [Channels.deliver,deliveries]

@[simp] theorem Channels.deliver_rxOpen (chs : Channels) (t : Topic) (m : String)
    (ss : List Sender) (c : ℕ) : (chs.deliver t m ss c).rxOpen = (chs c).rxOpen := rfl

theorem Channels.deliver_log (chs : Channels) (t : Topic) (m : String) (ss : List Sender)
    (c : ℕ) : (chs.deliver t m ss c).log = (chs c).log ++ deliveries t m ss c := rfl

theorem mem_deliveries {t : Topic} {m : String} {ss : List Sender} {c : ℕ} {e : Entry} :
    e ∈ deliveries t m ss c ↔ ∃ s ∈ ss, s.chan = c ∧ e = ⟨m,.delivery t s.handle⟩ := by
  simp only [deliveries,List.mem_map,List.mem_filter,decide_eq_true_eq]
  constructor
  · rintro ⟨s,⟨hs,hc⟩,rfl⟩
    exact ⟨s,hs,hc,rfl⟩
  · rintro ⟨s,hs,hc,rfl⟩
    exact ⟨s,⟨hs,hc⟩,rfl⟩

theorem Channels.live_congr {chs chs' : Channels} (h : ∀ c, (chs c).rxOpen = (chs' c).rxOpen)
    (ss : List Sender) : chs.live ss = chs'.live ss := by
  simp only [Channels.live,h]

theorem Channels.deliver_cons (chs : Channels) (t : Topic) (m : String) (s : Sender)
    (ss : List Sender) :
    chs.deliver t m (s :: ss) =
      Channels.deliver
        (Function.update chs s.chan ((chs s.chan).put ⟨m,.delivery t s.handle⟩)) t m ss := by
  funext c
  by_cases h : s.chan = c
  · subst h
    simp [Channels.deliver,deliveries,Channel.put]
  · have hc : c ≠ s.chan := fun e => h e.symm
    simp [Channels.deliver,deliveries,h,hc]

namespace TopicRegistry

/-- The retain loop keeps exactly the open senders and sends once through each. -/
theorem retainSent_eq (t : Topic) (m : String) (ss : List Sender) (chs : Channels) :
    retainSent t m ss chs = (chs.live ss,chs.deliver t m (chs.live ss),(chs.live ss).length) := by
  induction ss generalizing chs with
  | nil => simp [retainSent,Channels.live]
  | cons s rest ih =>
    by_cases hs : (chs s.chan).rxOpen
    · have hlive : Channels.live
          (Function.update chs s.chan ((chs s.chan).put ⟨m,.delivery t s.handle⟩)) rest =
          chs.live rest := by
        apply Channels.live_congr
        intro c
        by_cases hc : c = s.chan
        · subst hc; simp [Channel.put]
        · simp [hc]
      have hcons : chs.live (s :: rest) = s :: chs.live rest := by simp [Channels.live,hs]
      simp only [retainSent,Sender.send,hs,↓reduceIte,ih,hlive,hcons,Channels.deliver_cons,
        List.length_cons]
    · have hcons : chs.live (s :: rest) = chs.live rest := by simp [Channels.live,hs]
      simp only [retainSent,Sender.send,hs,Bool.false_eq_true,↓reduceIte,ih,hcons]

theorem publish_eq (r : TopicRegistry) (t : Topic) (m : String) (chs : Channels) :
    r.publish t m chs =
      (⟨r.topics.insert t (chs.live (r.entryOrDefault t))⟩,
        chs.deliver t m (chs.live (r.entryOrDefault t)),
        (chs.live (r.entryOrDefault t)).length) := by
  simp only [publish,retainSent_eq]

end TopicRegistry

end NexusRelay
