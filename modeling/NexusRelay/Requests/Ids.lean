import NexusRelay.Requests.RoundTrip

/-! # Which ids are served

An id is a `u32` at both ends and an `i64` between them. The range check of `parse_id`
stops one short of the largest id a request can hold.
-/
namespace NexusRelay
variable {X : Deps} {C : Client X}

/-- The requests the constructors make, with any argument. -/
inductive Constructed (id : UInt32) : NexusRequest X → Prop
  | ping : Constructed id (.newPing id)
  | address (address : String) : Constructed id (.newAddressSubscribe id address)
  | txid (txid : String) : Constructed id (.newTxidSubscribe id txid)
  | proposal (proposal : X.Unvalidated) : Constructed id (.newPublishProposal id proposal)

variable (C) in
/-- The text of the request is parsed and converted to a request with the same id. -/
def AcceptedWithId (request : NexusRequest X) (id : UInt32) : Prop :=
  ∃ text j request', (request.toText C : Fallible RequestError String) = .ok text ∧
    X.parse text = some j ∧ NexusRequest.tryFrom X j = .ok request' ∧ request'.id = id

/-- A numeric id is accepted as itself if it is a positive one that fits the id type, and
rejected otherwise. -/
def IdChecked (n : Int) : Prop :=
  ∀ j : JsonRpc, j.getId = some (.num n) →
    if 1 ≤ n ∧ n ≤ 4294967295 then ∃ id, parseId j = .ok id ∧ (id.toNat : Int) = n
    else parseId j = .error (.invalidId (some (.num n)))

theorem Constructed.id {id : UInt32} {request : NexusRequest X} (h : Constructed id request) :
    request.id = id := by
  cases h <;> rfl

theorem Constructed.admitted {id : UInt32} {request : NexusRequest X}
    (h : Constructed id request) : request.params.validateForMethod request.method = .ok () := by
  cases h <;> rfl

theorem parseId_of_num {j : JsonRpc} {n : Int} (h : j.getId = some (.num n)) :
    parseId j = if 0 < n ∧ n < 4294967295 then .ok (asU32 n)
      else .error (.invalidId (some (.num n))) := by
  rw [parseId,h]

theorem largest_refused {j : JsonRpc} (h : j.getId = some (.num 4294967295)) :
    parseId j = .error (.invalidId (some (.num 4294967295))) := by
  rw [parseId_of_num h,if_neg (by omega)]

theorem idChecked_iff (n : Int) : IdChecked n ↔ n ≠ 4294967295 := by
  constructor
  · rintro h rfl
    have hid := h (.request (.num 4294967295) "publish" none) rfl
    rw [if_pos (by omega)] at hid
    obtain ⟨id,hid,-⟩ := hid
    rw [largest_refused rfl] at hid
    cases hid
  · intro hne j hj
    rw [parseId_of_num hj]
    split
    · next hr =>
      rw [if_pos (by omega)]
      exact ⟨_,rfl,toNat_asU32 (by omega)⟩
    · next hr => rw [if_neg (by omega)]

theorem not_accepted {request : NexusRequest X} {id : UInt32} {text : String} {j : JsonRpc}
    {e : RequestError} (ht : (request.toText C : Fallible RequestError String) = .ok text)
    (hj : X.parse text = some j) (he : parseId j = .error e) : ¬ AcceptedWithId C request id := by
  rintro ⟨text',j',request',ht',hj',hr,-⟩
  rw [ht] at ht'
  cases ht'
  rw [hj] at hj'
  cases hj'
  have hid := (NexusRequest.tryFrom_eq_ok.mp hr).1
  rw [he] at hid
  cases hid

/-- For every id from 1 on and every request that is constructed with it, the server accepts
its text with the same id unless the id is the largest one; and a numeric id is checked as a
positive id that fits the type unless it is that one. -/
theorem ids_served_iff (hX : X.RequestsReadBack) (hC : C.ObjectsAreMaps) (hP : C.ProposalsReadBack) :
    (∀ id : UInt32, 1 ≤ id → ∀ request : NexusRequest X, Constructed id request →
      (AcceptedWithId C request id ↔ id ≠ 4294967295)) ∧
    ∀ n : Int, IdChecked n ↔ n ≠ 4294967295 := by
  refine ⟨?_,idChecked_iff⟩
  intro id hone request hbuilt
  have hid := hbuilt.id
  have hpos : 0 < id.toNat := UInt32.le_iff_toNat_le.mp hone
  have hlt : id.toNat < 4294967296 := id.toNat_lt
  obtain ⟨key,value,text,htext,hparse,hroot⟩ :=
    request.toText_parses (ε := RequestError) hX hC hP hbuilt.admitted
  constructor
  · rintro haccepted rfl
    have hnum : (request.id.toNat : Int) = 4294967295 := by
      rw [hid]
      rfl
    exact not_accepted htext hparse (largest_refused (by rw [JsonRpc.getId,hnum])) haccepted
  · intro hne
    have hbound : id.toNat < 4294967295 := by
      have hnat : id.toNat ≠ 4294967295 := fun e => hne (UInt32.toNat_inj.mp e)
      omega
    have haccepted : 0 < request.id.toNat ∧ request.id.toNat < 4294967295 := by
      rw [hid]
      exact ⟨hpos,hbound⟩
    exact ⟨text,_,request,htext,hparse,
      NexusRequest.tryFrom_written haccepted hroot hbuilt.admitted,hid⟩

/-! ## A small id and the largest one -/

theorem id_served : AcceptedWithId Sample.textClient (.newPing 7) 7 :=
  ((ids_served_iff Deps.text_requestsReadBack Sample.textClient_objectsAreMaps
    Sample.textClient_proposalsReadBack).1 7 (by decide) _ .ping).mpr (by decide)

def Sample.largestPing : NexusRequest Deps.text := .newPing 4294967295

/-- The text of a ping with the largest id is parsed, and its id is refused. -/
theorem largest_id_refused :
    (∃ text j, (Sample.largestPing.toText Sample.textClient : Fallible RequestError String) =
        .ok text ∧ Deps.text.parse text = some j ∧
      parseId j = .error (.invalidId (some (.num 4294967295)))) ∧
    ¬ AcceptedWithId Sample.textClient Sample.largestPing 4294967295 ∧
    ¬ IdChecked 4294967295 := by
  obtain ⟨key,value,text,htext,hparse,-⟩ := Sample.largestPing.toText_parses (ε := RequestError)
    Deps.text_requestsReadBack Sample.textClient_objectsAreMaps Sample.textClient_proposalsReadBack
    rfl
  have hrefused := largest_refused (j := .request (.num Sample.largestPing.id.toNat)
    Sample.largestPing.method.toString (some (.map [(key,value)]))) rfl
  exact ⟨⟨text,_,htext,hparse,hrefused⟩,not_accepted htext hparse hrefused,
    fun h => (idChecked_iff _).mp h rfl⟩

end NexusRelay
