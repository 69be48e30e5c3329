import NexusRelay.Model.Client
import NexusRelay.Requests.Replies

/-! # Requests are read as they were written

The encoder is derived, the decoder goes by the root key. On the params a method admits,
both agree on every key and every field.
-/
namespace NexusRelay
variable {X : Deps} {C : Client X}

/-! ## Ids -/

theorem asU32_toNat (n : UInt32) : asU32 n.toNat = n := by
  have hlt : n.toNat < 4294967296 := n.toNat_lt
  have hnat : ((asU32 n.toNat).toNat : Int) = n.toNat := toNat_asU32 (by omega)
  exact UInt32.toNat_inj.mp (Int.ofNat_inj.mp hnat)

theorem parseId_eq_ok {j : JsonRpc} {n : UInt32} :
    parseId j = .ok n ↔ j.getId = some (.num n.toNat) ∧ 0 < n.toNat ∧ n.toNat < 4294967295 := by
  constructor
  · intro h
    obtain ⟨hid,hpos⟩ := parseId_toNat h
    refine ⟨hid,hpos,?_⟩
    rw [parseId,hid] at h
    simp only at h
    split at h
    · omega
    · cases h
  · rintro ⟨hid,hpos,hlt⟩
    rw [parseId,hid]
    simp only
    rw [if_pos (by omega),asU32_toNat]

/-! ## Params -/

theorem Any.toValue_wellFormed (any : Any) : any.toValue.WellFormed := by
  have hkeys : "content" < "topic" := by decide
  rcases any with ⟨topic,_ | content⟩
  · exact wellFormed_field "topic" topic
  · exact wellFormed_two hkeys content topic

theorem Any.fromValue_toValue (any : Any) : Any.fromValue any.toValue = some any := by
  rcases any with ⟨topic,_ | content⟩ <;> rfl

/-- Params that a method admits are written under one key and read back from it. -/
theorem Params.parseRoot_toValue (hP : C.ProposalsReadBack) {params : Params X} {method : Method}
    (hv : params.validateForMethod method = .ok ()) :
    ∃ key value, params.toValue C = some (.object [(key,value)]) ∧ value.WellFormed ∧
      parseRoot key value = .ok params := by
  have hpair : "input" < "output" := by decide
  have hpset : "pset" < "wallet_id" := by decide
  cases params with
  | any a =>
    refine ⟨"any",a.toValue,rfl,a.toValue_wellFormed,?_⟩
    simp [parseRoot,a.fromValue_toValue]
  | address s => exact ⟨"address",_,rfl,wellFormed_string s,rfl⟩
  | tx t => exact ⟨"tx",_,rfl,wellFormed_field "txid" t.txid,rfl⟩
  | pair p => exact ⟨"pair",_,rfl,wellFormed_two hpair p.input p.output,rfl⟩
  | wallet w => exact ⟨"wallet",_,rfl,wellFormed_field "id" w.id,rfl⟩
  | empty => cases method <;> cases hv
  | proposal p =>
    obtain ⟨value,hvalue,hwell,hread⟩ := hP p
    refine ⟨"proposal",value,by simp [toValue,hvalue],hwell,?_⟩
    simp [parseRoot,hread]
  | pset p => exact ⟨"pset",_,rfl,wellFormed_two hpset p.pset p.walletId,rfl⟩
  | ping => exact ⟨"ping",_,rfl,wellFormed_null,rfl⟩

/-! ## Requests -/

/-- The text of a request whose params its method admits is parsed as the object it was made
from. -/
theorem NexusRequest.toText_parses {ε : Type} (hX : X.RequestsReadBack) (hC : C.ObjectsAreMaps)
    (hP : C.ProposalsReadBack) {request : NexusRequest X}
    (hv : request.params.validateForMethod request.method = .ok ()) :
    ∃ key value text, (request.toText C : Fallible ε String) = .ok text ∧
      X.parse text = some (.request (.num request.id.toNat) request.method.toString
        (some (.map [(key,value)]))) ∧
      parseRoot key value = .ok request.params := by
  obtain ⟨key,value,hvalue,hwell,hroot⟩ := Params.parseRoot_toValue hP hv
  obtain ⟨text,hrender,hparse⟩ := hX request.id.toNat request.method.toString key value
    (isI64_of_uint32 _) hwell
  have hmap := hC [(key,value)]
  refine ⟨key,value,text,?_,hparse,hroot⟩
  simp [toText,toJsonRpc,hvalue,hmap,hrender]

theorem NexusRequest.tryFrom_written {request : NexusRequest X} {key : String} {value : Value}
    (hid : 0 < request.id.toNat ∧ request.id.toNat < 4294967295)
    (hroot : parseRoot key value = .ok request.params)
    (hv : request.params.validateForMethod request.method = .ok ()) :
    NexusRequest.tryFrom X (.request (.num request.id.toNat) request.method.toString
      (some (.map [(key,value)]))) = .ok request :=
  NexusRequest.tryFrom_eq_ok.mpr
    ⟨parseId_eq_ok.mpr ⟨rfl,hid⟩,request.method.fromStr_toString,hroot,hv⟩

/-- For every request whose id the server accepts and whose params its method admits, the text
a client writes is parsed and converted to the same request. -/
theorem request_round_trip {ε : Type} (hX : X.RequestsReadBack) (hC : C.ObjectsAreMaps)
    (hP : C.ProposalsReadBack) (request : NexusRequest X) (hid : ∃ j, parseId j = .ok request.id)
    (hv : request.params.validateForMethod request.method = .ok ()) :
    ∃ text j, (request.toText C : Fallible ε String) = .ok text ∧ X.parse text = some j ∧
      NexusRequest.tryFrom X j = .ok request := by
  obtain ⟨j,hj⟩ := hid
  obtain ⟨key,value,text,htext,hparse,hroot⟩ := request.toText_parses (ε := ε) hX hC hP hv
  exact ⟨text,_,htext,hparse,NexusRequest.tryFrom_written (parseId_eq_ok.mp hj).2 hroot hv⟩

/-! ## A proposal there and back -/

def Sample.publishProposal : NexusRequest Deps.text := .newPublishProposal 7 Sample.assets

theorem proposal_round_trip :
    ∃ text j, (Sample.publishProposal.toText Sample.textClient : Fallible Unit String) = .ok text ∧
      Deps.text.parse text = some j ∧ NexusRequest.tryFrom Deps.text j = .ok Sample.publishProposal :=
  request_round_trip Deps.text_requestsReadBack Sample.textClient_objectsAreMaps
    Sample.textClient_proposalsReadBack Sample.publishProposal
    ⟨.request (.num 7) "publish" none,rfl⟩ rfl

end NexusRelay
