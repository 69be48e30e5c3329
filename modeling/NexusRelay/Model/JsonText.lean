import NexusRelay.Model.Proposal
import NexusRelay.Model.Wire
import Mathlib.Tactic.IntervalCases

/-! # Reading compact JSON

A reader for the compact printer, and the proof that it undoes it. With it the small
instance parses every text the printer writes for a client.

It is not all of `serde_json`: white space, floats, surrogate pairs and keys given twice are
refused, and leading zeros are not.
-/
namespace NexusRelay
namespace JsonText

def unescape : Char → Option Char
  | '"' => some '"'
  | '\\' => some '\\'
  | '/' => some '/'
  | 'b' => some (Char.ofNat 8)
  | 'f' => some (Char.ofNat 12)
  | 'n' => some '\n'
  | 'r' => some '\r'
  | 't' => some '\t'
  | _ => none

def unescapeHex (a b c d : Char) : Option Char :=
  match hexValue a, hexValue b, hexValue c, hexValue d with
  | some a, some b, some c, some d =>
    let n := ((a * 16 + b) * 16 + c) * 16 + d
    if n.isValidChar then some (Char.ofNat n) else none
  | _, _, _, _ => none

/-- The characters up to the closing quote, and what follows it. -/
def readStringBody : List Char → Option (List Char × List Char)
  | [] => none
  | '"' :: rest => some ([],rest)
  | '\\' :: 'u' :: a :: b :: c :: d :: rest =>
    (unescapeHex a b c d).bind fun e => (readStringBody rest).map fun (cs,rest) => (e :: cs,rest)
  | '\\' :: c :: rest =>
    (unescape c).bind fun e => (readStringBody rest).map fun (cs,rest) => (e :: cs,rest)
  | c :: rest =>
    if c.toNat < 32 then none else (readStringBody rest).map fun (cs,rest) => (c :: cs,rest)

def readNat (cs : List Char) : Option (ℕ × List Char) :=
  let digits := cs.takeWhile Char.isDigit
  if digits.isEmpty then none
  else some (Nat.ofDigitChars 10 digits 0,cs.dropWhile Char.isDigit)

/-- Integers that fit an `i64` or a `u64`. -/
def readNumber : List Char → Option (Number × List Char)
  | '-' :: rest => (readNat rest).bind fun (n,rest) =>
    if 0 < n ∧ n ≤ 2 ^ 63 then some (.negInt (-n),rest) else none
  | cs => (readNat cs).bind fun (n,rest) =>
    if n < 2 ^ 64 then some (.posInt (UInt64.ofNat n),rest) else none

def readWord (word : List Char) (v : Value) (cs : List Char) : Option (Value × List Char) :=
  if word.isPrefixOf cs then some (v,cs.drop word.length) else none

mutual
/-- The value at the head of the text, and what follows it. The fuel bounds the nesting. -/
def readValue : ℕ → List Char → Option (Value × List Char)
  | 0, _ => none
  | _ + 1, [] => none
  | fuel + 1, c :: rest =>
    if c = 'n' then readWord ['u','l','l'] .null rest
    else if c = 't' then readWord ['r','u','e'] (.bool true) rest
    else if c = 'f' then readWord ['a','l','s','e'] (.bool false) rest
    else if c = '"' then
      (readStringBody rest).map fun (cs,rest) => (.string (.ofList cs),rest)
    else if c = '[' then
      if rest.head? = some ']' then some (.array [],rest.tail)
      else (readItems fuel rest).map fun (items,rest) => (.array items,rest)
    else if c = '\x7b' then
      if rest.head? = some '\x7d' then some (.object [],rest.tail)
      else (readEntries fuel rest).map fun (entries,rest) => (.object entries,rest)
    else (readNumber (c :: rest)).map fun (n,rest) => (.number n,rest)
/-- The items of an array that has one, up to the bracket. -/
def readItems : ℕ → List Char → Option (List Value × List Char)
  | 0, _ => none
  | fuel + 1, cs => (readValue fuel cs).bind fun
    | (v,']' :: rest) => some ([v],rest)
    | (v,',' :: rest) => (readItems fuel rest).map fun (items,rest) => (v :: items,rest)
    | _ => none
/-- The entries of an object that has one, up to the brace. -/
def readEntries : ℕ → List Char → Option (List (String × Value) × List Char)
  | 0, _ => none
  | fuel + 1, '"' :: cs => (readStringBody cs).bind fun
    | (key,':' :: cs) => (readValue fuel cs).bind fun
      | (v,'\x7d' :: rest) => some ([(.ofList key,v)],rest)
      | (v,',' :: rest) => (readEntries fuel rest).map fun (entries,rest) =>
        ((.ofList key,v) :: entries,rest)
      | _ => none
    | _ => none
  | _, _ => none
end

def read (text : String) : Option Value :=
  match readValue (text.length + 1) text.toList with
  | some (v,[]) => if v.depth ≤ recursionLimit then some v else none
  | _ => none

/-! ## The reader undoes the printer -/

theorem readStringBody_control {n : ℕ} (hn : n < 32) (rest : List Char) :
    readStringBody (escapeControl n ++ rest) =
      (readStringBody rest).map fun (cs,rest) => (Char.ofNat n :: cs,rest) := by
  interval_cases n <;> rfl

theorem readStringBody_escape (c : Char) (rest : List Char) :
    readStringBody (escapeChar c ++ rest) =
      (readStringBody rest).map fun (cs,rest) => (c :: cs,rest) := by
  unfold escapeChar
  split
  · next h => subst h; rfl
  split
  · next h => subst h; rfl
  split
  · next h => rw [readStringBody_control h,Char.ofNat_toNat]
  next hquote hslash hcontrol =>
  rw [List.singleton_append,readStringBody.eq_def]
  split <;> simp_all

theorem readStringBody_chars (cs rest : List Char) :
    readStringBody (cs.flatMap escapeChar ++ '"' :: rest) = some (cs,rest) := by
  induction cs with
  | nil => rfl
  | cons c cs ih =>
    rw [List.flatMap_cons,List.append_assoc,readStringBody_escape,ih]
    rfl

/-- What follows a number does not continue it. -/
def EndsNumber (rest : List Char) : Prop := ∀ c ∈ rest.head?, c.isDigit = false

theorem readNat_digits (n : ℕ) {rest : List Char} (h : EndsNumber rest) :
    readNat (Nat.toDigits 10 n ++ rest) = some (n,rest) := by
  have hdigits : ∀ c ∈ Nat.toDigits 10 n, c.isDigit = true := fun c hc =>
    Nat.isDigit_of_mem_toDigits (by decide) (by decide) hc
  have hrest : rest.takeWhile Char.isDigit = [] ∧ rest.dropWhile Char.isDigit = rest := by
    cases rest with
    | nil => exact ⟨rfl,rfl⟩
    | cons c rest =>
      have hc : c.isDigit = false := h c rfl
      simp [hc]
  simp [readNat,List.takeWhile_append_of_pos hdigits,List.dropWhile_append_of_pos hdigits,
    hrest.1,hrest.2,Nat.toDigits_ne_nil]

theorem digit_head (n : ℕ) (rest : List Char) :
    ∃ d ds, Nat.toDigits 10 n ++ rest = d :: ds ∧ d.isDigit = true := by
  cases h : Nat.toDigits 10 n with
  | nil => exact absurd h Nat.toDigits_ne_nil
  | cons d ds =>
    refine ⟨d,ds ++ rest,rfl,?_⟩
    have hmem : d ∈ Nat.toDigits 10 n := by simp [h]
    exact Nat.isDigit_of_mem_toDigits (by decide) (by decide) hmem

theorem print_posInt (n : UInt64) : (Number.posInt n).print.toList = Nat.toDigits 10 n.toNat :=
  Nat.toList_repr

theorem print_negInt {n : Int} (h : n < 0) :
    (Number.negInt n).print.toList = '-' :: Nat.toDigits 10 n.natAbs := by
  obtain ⟨k,rfl⟩ : ∃ k : ℕ, n = Int.negSucc k := by
    cases n with
    | ofNat k => exact absurd h (by simp)
    | negSucc k => exact ⟨k,rfl⟩
  change ("-" ++ Nat.repr (k + 1)).toList = _
  rw [String.toList_append,Nat.toList_repr]
  rfl

theorem readNumber_print {n : Number} (hn : n.Normal) {rest : List Char} (h : EndsNumber rest) :
    readNumber (n.print.toList ++ rest) = some (n,rest) := by
  cases n with
  | posInt n =>
    obtain ⟨d,ds,hd,hdigit⟩ := digit_head n.toNat rest
    have hminus : d ≠ '-' := by
      rintro rfl
      revert hdigit
      decide
    rw [print_posInt,hd,readNumber]
    · rw [← hd,readNat_digits _ h]
      simpa using n.toNat_lt
    · rintro rest' heq
      injection heq with hc
      exact hminus hc
  | negInt n =>
    obtain ⟨hmin,hneg⟩ : -2 ^ 63 ≤ n ∧ n < 0 := hn
    have hfits : 0 < n.natAbs ∧ n.natAbs ≤ 2 ^ 63 := by omega
    rw [print_negInt hneg,List.cons_append,readNumber,readNat_digits _ h]
    simp only [Option.bind_some,if_pos hfits]
    rw [show -(n.natAbs : Int) = n by omega]
  | float bits => exact absurd hn id

/-- The characters that begin the other values, or close one, begin no number. -/
def isMark (c : Char) : Bool := c ∈ ['n','t','f','"','[','\x7b',']']

theorem number_head {n : Number} (hn : n.Normal) (rest : List Char) :
    ∃ c cs, n.print.toList ++ rest = c :: cs ∧ isMark c = false := by
  cases n with
  | posInt n =>
    obtain ⟨d,ds,hd,hdigit⟩ := digit_head n.toNat rest
    have hmarks : ∀ c ∈ ['n','t','f','"','[','\x7b',']'], c.isDigit = false := by simp
    refine ⟨d,ds,by rw [print_posInt,hd],decide_eq_false fun hmem => ?_⟩
    rw [hmarks d hmem] at hdigit
    cases hdigit
  | negInt n =>
    have hneg : n < 0 := hn.2
    exact ⟨'-',_,by rw [print_negInt hneg,List.cons_append],by decide⟩
  | float bits => exact absurd hn id

abbrev Normal (v : Value) : Prop := v.Forall Number.Normal fun _ => True

theorem printString_toList (s : String) :
    (printString s).toList = '"' :: (s.toList.flatMap escapeChar ++ ['"']) := by
  simp [printString]

theorem print_array (items : List Value) :
    (Value.array items).print.toList = '[' :: ((printItems items).toList ++ [']']) := by
  simp [Value.print]

theorem print_object (entries : List (String × Value)) :
    (Value.object entries).print.toList = '\x7b' :: ((printEntries entries).toList ++ ['\x7d']) := by
  simp [Value.print]

theorem printItems_cons (v w : Value) (rest : List Value) :
    (printItems (v :: w :: rest)).toList =
      v.print.toList ++ ',' :: (printItems (w :: rest)).toList := by
  simp [printItems]

theorem printEntry (k : String) (v : Value) :
    (printEntries [(k,v)]).toList =
      '"' :: (k.toList.flatMap escapeChar ++ '"' :: ':' :: v.print.toList) := by
  simp [printEntries,printString]

theorem printEntries_cons (k : String) (v : Value) (e : String × Value)
    (rest : List (String × Value)) :
    (printEntries ((k,v) :: e :: rest)).toList =
      '"' :: (k.toList.flatMap escapeChar ++ '"' :: ':' ::
        (v.print.toList ++ ',' :: (printEntries (e :: rest)).toList)) := by
  simp [printEntries,printString]

/-- No value begins with a bracket that closes. -/
theorem value_head {v : Value} (hv : Normal v) (rest : List Char) :
    (v.print.toList ++ rest).head? ≠ some ']' := by
  cases v with
  | null => simp [Value.print]
  | bool b => cases b <;> simp [Value.print]
  | number n =>
    obtain ⟨c,cs,hc,hmark⟩ := number_head (by simpa [Normal,Value.Forall] using hv) rest
    rw [Value.print,hc,List.head?_cons]
    rintro ⟨⟩
    cases hmark
  | string s => simp [Value.print,printString]
  | array items => simp [print_array]
  | object entries => simp [print_object]

/-- What the three readers read back with this fuel, whatever follows. -/
structure Reads (fuel : ℕ) : Prop where
  value : ∀ v rest, Normal v → v.print.toList.length < fuel → EndsNumber rest →
    readValue fuel (v.print.toList ++ rest) = some (v,rest)
  items : ∀ v items rest, forallItems Number.Normal (fun _ => True) (v :: items) →
    (printItems (v :: items)).toList.length + 1 < fuel →
    readItems fuel ((printItems (v :: items)).toList ++ ']' :: rest) = some (v :: items,rest)
  entries : ∀ k v entries rest, forallEntries Number.Normal (fun _ => True) ((k,v) :: entries) →
    (printEntries ((k,v) :: entries)).toList.length + 1 < fuel →
    readEntries fuel ((printEntries ((k,v) :: entries)).toList ++ '\x7d' :: rest) =
      some ((k,v) :: entries,rest)

namespace Reads
variable {fuel : ℕ}

theorem array (h : Reads fuel) {v : Value} {items : List Value} (rest : List Char)
    (hv : Normal (.array (v :: items)))
    (hfuel : (Value.array (v :: items)).print.toList.length < fuel + 1) :
    readValue (fuel + 1) ((Value.array (v :: items)).print.toList ++ rest) =
      some (.array (v :: items),rest) := by
  have hlen : (printItems (v :: items)).toList.length + 1 < fuel := by
    rw [print_array] at hfuel
    simp only [List.length_cons,List.length_append,List.length_nil] at hfuel
    omega
  have hitems := h.items v items rest hv hlen
  have hhead : ((printItems (v :: items)).toList ++ ']' :: rest).head? ≠ some ']' := by
    cases items with
    | nil => exact value_head hv.1 _
    | cons w items =>
      rw [printItems_cons,List.append_assoc]
      exact value_head hv.1 _
  rw [print_array,List.cons_append,List.append_assoc]
  simp only [readValue,Char.reduceEq,↓reduceIte,List.singleton_append,if_neg hhead,hitems,
    Option.map_some]

theorem object (h : Reads fuel) {k : String} {v : Value} {entries : List (String × Value)}
    (rest : List Char) (hv : Normal (.object ((k,v) :: entries)))
    (hfuel : (Value.object ((k,v) :: entries)).print.toList.length < fuel + 1) :
    readValue (fuel + 1) ((Value.object ((k,v) :: entries)).print.toList ++ rest) =
      some (.object ((k,v) :: entries),rest) := by
  have hlen : (printEntries ((k,v) :: entries)).toList.length + 1 < fuel := by
    rw [print_object] at hfuel
    simp only [List.length_cons,List.length_append,List.length_nil] at hfuel
    omega
  have hentries := h.entries k v entries rest hv.2 hlen
  have hhead : ((printEntries ((k,v) :: entries)).toList ++ '\x7d' :: rest).head? ≠
      some '\x7d' := by
    cases entries with
    | nil => simp [printEntry]
    | cons e entries =>
      obtain ⟨k',v'⟩ := e
      simp [printEntries_cons]
  rw [print_object,List.cons_append,List.append_assoc]
  simp only [readValue,Char.reduceEq,↓reduceIte,List.singleton_append,if_neg hhead,hentries,
    Option.map_some]

theorem value_succ (h : Reads fuel) (v : Value) (rest : List Char) (hv : Normal v)
    (hfuel : v.print.toList.length < fuel + 1) (hrest : EndsNumber rest) :
    readValue (fuel + 1) (v.print.toList ++ rest) = some (v,rest) := by
  cases v with
  | null => simp [Value.print,readValue,readWord]
  | bool b => cases b <;> simp [Value.print,readValue,readWord]
  | number n =>
    have hn : n.Normal := hv
    obtain ⟨c,cs,hc,hmark⟩ := number_head hn rest
    have hread := readNumber_print hn hrest
    rw [hc] at hread
    simp [isMark] at hmark
    rw [Value.print,hc,readValue]
    simp [hmark,hread]
  | string s =>
    rw [Value.print,printString_toList,List.cons_append,List.append_assoc]
    simp only [readValue,Char.reduceEq,↓reduceIte,List.singleton_append,readStringBody_chars,
      Option.map_some,String.ofList_toList]
  | array items =>
    cases items with
    | nil => simp [Value.print,printItems,readValue]
    | cons v items => exact h.array rest hv hfuel
  | object entries =>
    cases entries with
    | nil => simp [Value.print,printEntries,readValue]
    | cons e entries => exact h.object rest hv hfuel

theorem items_succ (h : Reads fuel) (v : Value) (items : List Value) (rest : List Char)
    (hv : forallItems Number.Normal (fun _ => True) (v :: items))
    (hfuel : (printItems (v :: items)).toList.length + 1 < fuel + 1) :
    readItems (fuel + 1) ((printItems (v :: items)).toList ++ ']' :: rest) =
      some (v :: items,rest) := by
  cases items with
  | nil =>
    have hread := h.value v (']' :: rest) hv.1 (by rw [printItems] at hfuel; omega)
      (by simp [EndsNumber])
    simp [readItems,printItems,hread]
  | cons w items =>
    rw [printItems_cons] at hfuel
    simp only [List.length_cons,List.length_append] at hfuel
    have hread := h.value v (',' :: ((printItems (w :: items)).toList ++ ']' :: rest)) hv.1
      (by omega) (by simp [EndsNumber])
    have hitems := h.items w items rest hv.2 (by omega)
    rw [printItems_cons,List.append_assoc,List.cons_append]
    simp [readItems,hread,hitems]

theorem entries_succ (h : Reads fuel) (k : String) (v : Value) (entries : List (String × Value))
    (rest : List Char) (hv : forallEntries Number.Normal (fun _ => True) ((k,v) :: entries))
    (hfuel : (printEntries ((k,v) :: entries)).toList.length + 1 < fuel + 1) :
    readEntries (fuel + 1) ((printEntries ((k,v) :: entries)).toList ++ '\x7d' :: rest) =
      some ((k,v) :: entries,rest) := by
  cases entries with
  | nil =>
    rw [printEntry] at hfuel
    simp only [List.length_cons,List.length_append] at hfuel
    have hread := h.value v ('\x7d' :: rest) hv.1 (by omega) (by simp [EndsNumber])
    simp [printEntry,readEntries,readStringBody_chars,hread]
  | cons e entries =>
    obtain ⟨k',v'⟩ := e
    rw [printEntries_cons] at hfuel
    simp only [List.length_cons,List.length_append] at hfuel
    have hread := h.value v (',' :: ((printEntries ((k',v') :: entries)).toList ++ '\x7d' :: rest))
      hv.1 (by omega) (by simp [EndsNumber])
    have hentries := h.entries k' v' entries rest hv.2 (by omega)
    simp [printEntries_cons,readEntries,readStringBody_chars,hread,hentries]

end Reads

/-- Every reader call hands less fuel on, and every text that remains is shorter. -/
theorem reads (fuel : ℕ) : Reads fuel := by
  induction fuel with
  | zero =>
    refine ⟨?_,?_,?_⟩
    · intro v rest _ hfuel
      omega
    · intro v items rest _ hfuel
      omega
    · intro k v entries rest _ hfuel
      omega
  | succ fuel ih => exact ⟨ih.value_succ,ih.items_succ,ih.entries_succ⟩

theorem read_print {v : Value} (hv : Normal v) (hdepth : v.depth ≤ recursionLimit) :
    read v.print = some v := by
  have h := (reads (v.print.length + 1)).value v [] hv (Nat.lt_succ_self _) fun c hc => by cases hc
  rw [List.append_nil] at h
  simp only [read,h,if_pos hdepth]

mutual
theorem normal_value : ∀ v : Value,
    v.Forall Number.Normal (fun keys => keys.Pairwise (· < ·)) → Normal v
  | .null, _ | .bool _, _ | .string _, _ => trivial
  | .number _, h => h
  | .array items, h => normal_items items h
  | .object entries, h => ⟨trivial,normal_entries entries h.2⟩
theorem normal_items : ∀ items : List Value,
    forallItems Number.Normal (fun keys => keys.Pairwise (· < ·)) items →
    forallItems Number.Normal (fun _ => True) items
  | [], _ => trivial
  | v :: rest, h => ⟨normal_value v h.1,normal_items rest h.2⟩
theorem normal_entries : ∀ entries : List (String × Value),
    forallEntries Number.Normal (fun keys => keys.Pairwise (· < ·)) entries →
    forallEntries Number.Normal (fun _ => True) entries
  | [], _ => trivial
  | (_,v) :: rest, h => ⟨normal_value v h.1,normal_entries rest h.2⟩
end

theorem normal_of_wellFormed {v : Value} (h : v.WellFormed) : Normal v := normal_value v h.normal

end JsonText

/-! ## JSON-RPC objects -/

namespace JsonRpc
open JsonText

def Id.fromValue : Value → Option Id
  | .number (.posInt n) => if n.toNat < 2 ^ 63 then some (.num n.toNat) else Option.none
  | .number (.negInt n) => some (.num n)
  | .string s => some (.str s)
  | .null => some .none
  | _ => Option.none

def Params.fromValue : Value → Option Params
  | .array items => some (.array items)
  | .object entries => some (.map entries)
  | _ => Option.none

/-- An optional field is absent when it is null. -/
def presentField (field : Option Value) : Option Value :=
  match field with
  | some .null => Option.none
  | field => field

def paramsField (field : Option Value) : Option (Option Params) :=
  match presentField field with
  | Option.none => some Option.none
  | some v => (Params.fromValue v).map some

def Error.fromValue : Value → Option Error
  | .object entries =>
    match (entries.lookup "code").bind Id.fromValue, Value.stringField (entries.lookup "message") with
    | some (.num code), some message => some ⟨code,message,presentField (entries.lookup "data")⟩
    | _, _ => Option.none
  | _ => Option.none

/-- The four shapes are tried in this order; each has the version as a member. -/
def fromValue : Value → Option JsonRpc
  | .object entries =>
    let id := (entries.lookup "id").bind Id.fromValue
    if Value.stringField (entries.lookup "jsonrpc") ≠ some "2.0" then Option.none
    else match Value.stringField (entries.lookup "method"), paramsField (entries.lookup "params"), id with
    | some method, some params, some id => some (.request id method params)
    | some method, some params, Option.none => some (.notification method params)
    | _, _, some id =>
      match entries.lookup "result", (entries.lookup "error").bind Error.fromValue with
      | some result, _ => some (.success id result)
      | Option.none, some e => some (.error id e)
      | Option.none, Option.none => Option.none
    | _, _, _ => Option.none
  | _ => Option.none

def parse (text : String) : Option JsonRpc := (read text).bind fromValue

theorem Id.fromValue_num {n : Int} (h : IsI64 n) : Id.fromValue (Id.num n).toValue = some (.num n) := by
  unfold IsI64 at h
  by_cases hn : 0 ≤ n
  · have hnat : (UInt64.ofNat n.toNat).toNat = n.toNat := by
      rw [UInt64.toNat_ofNat']
      omega
    have hlt : n.toNat < 2 ^ 63 := by omega
    simp only [toValue,if_pos hn,fromValue,hnat,if_pos hlt,Int.toNat_of_nonneg hn]
  · simp only [toValue,if_neg hn,fromValue,max_eq_left h.1]

theorem fromValue_request {n : Int} (h : IsI64 n) (method : String)
    (entries : List (String × Value)) :
    fromValue (request (.num n) method (some (.map entries))).toValue =
      some (.request (.num n) method (some (.map entries))) := by
  simp [toValue,fromValue,Id.fromValue_num h,Value.stringField,paramsField,presentField,
    Params.toValue,Params.fromValue,List.lookup_cons]

theorem fromValue_success {n : Int} (h : IsI64 n) (result : Value) :
    fromValue (success (.num n) result).toValue = some (.success (.num n) result) := by
  simp [toValue,fromValue,Id.fromValue_num h,Value.stringField,List.lookup_cons]

theorem fromValue_error {n : Int} (h : IsI64 n) {e : Error} (he : IsI64 e.code) :
    ∃ e', fromValue (error (.num n) e).toValue = some (.error (.num n) e') := by
  refine ⟨⟨e.code,e.message,presentField e.data⟩,?_⟩
  cases hdata : e.data <;>
    simp [toValue,fromValue,Id.fromValue_num h,Id.fromValue_num he,Value.stringField,List.lookup_cons,
      Error.toValue,Error.fromValue,hdata]

theorem parse_print {j : JsonRpc} (h : JsonText.Normal j.toValue)
    (hdepth : j.toValue.depth ≤ recursionLimit) : parse j.toValue.print = fromValue j.toValue := by
  rw [parse,read_print h hdepth,Option.bind_some]

theorem normal_id (id : Id) : JsonText.Normal id.toValue :=
  normal_of_wellFormed id.toValue_wellFormed

theorem normal_error {e : Error} (h : e.WellFormed) : JsonText.Normal e.toValue := by
  have hcode := normal_id (.num e.code)
  cases hdata : e.data with
  | none => simpa [Error.toValue,hdata,JsonText.Normal,Value.Forall,forallEntries] using hcode
  | some data =>
    have hvalue := normal_of_wellFormed (h.2 data hdata)
    simpa [Error.toValue,hdata,JsonText.Normal,Value.Forall,forallEntries] using ⟨hcode,hvalue⟩

theorem depth_error {e : Error} (h : e.WellFormed) : e.toValue.depth + 1 ≤ recursionLimit := by
  cases hdata : e.data with
  | none => simp [Error.toValue,hdata,Value.depth,depthEntries,Id.toValue_depth,recursionLimit]
  | some data =>
    have hdepth := (h.2 data hdata).depth_le
    simp only [recursionLimit] at hdepth
    simp [Error.toValue,hdata,Value.depth,depthEntries,Id.toValue_depth,recursionLimit]
    omega

end JsonRpc

/-! ## The small instance, with every text parsed -/

def Deps.text : Deps := { Deps.sample with parse := JsonRpc.parse }

namespace Deps

theorem text_render (j : JsonRpc) : Deps.text.render j = some j.toValue.print := rfl

theorem text_parse (text : String) : Deps.text.parse text = JsonRpc.parse text := rfl

theorem text_renderTotal : Deps.text.RenderTotal := fun _ => rfl

theorem text_idsAreHex : Deps.text.IdsAreHex :=
  ⟨fun t => Deps.sample_idsAreHex.1 t,fun a => Deps.sample_idsAreHex.2 a⟩

theorem text_addressesHaveNoColon : Deps.text.AddressesHaveNoColon :=
  fun script params s h => Deps.sample_addressesHaveNoColon script params s h

theorem text_requestsReadBack : Deps.text.RequestsReadBack := by
  intro n method key value hn hvalue
  refine ⟨_,text_render _,?_⟩
  have hid := JsonRpc.normal_id (.num n)
  have hnormal : JsonText.Normal
      (JsonRpc.request (.num n) method (some (.map [(key,value)]))).toValue := by
    simpa [JsonRpc.toValue,JsonRpc.Params.toValue,JsonText.Normal,Value.Forall,forallEntries] using
      ⟨JsonText.normal_of_wellFormed hvalue,hid⟩
  have hdepth : (JsonRpc.request (.num n) method (some (.map [(key,value)]))).toValue.depth ≤
      recursionLimit := by
    have hlimit := hvalue.depth_le
    simp [JsonRpc.toValue,JsonRpc.Params.toValue,Value.depth,depthEntries,JsonRpc.Id.toValue_depth]
    omega
  rw [text_parse,JsonRpc.parse_print hnormal hdepth,JsonRpc.fromValue_request hn]

theorem text_responsesReadBack : Deps.text.ResponsesReadBack := by
  constructor
  · intro n result text hn hresult htext
    rw [text_render,Option.some.injEq] at htext
    subst htext
    have hid := JsonRpc.normal_id (.num n)
    have hnormal : JsonText.Normal (JsonRpc.success (.num n) result).toValue := by
      simpa [JsonRpc.toValue,JsonText.Normal,Value.Forall,forallEntries] using
        ⟨JsonText.normal_of_wellFormed hresult,hid⟩
    have hdepth : (JsonRpc.success (.num n) result).toValue.depth ≤ recursionLimit := by
      have hlimit := hresult.depth_le
      simp [JsonRpc.toValue,Value.depth,depthEntries,JsonRpc.Id.toValue_depth]
      omega
    rw [text_parse,JsonRpc.parse_print hnormal hdepth,JsonRpc.fromValue_success hn]
  · intro n e text hn he htext
    rw [text_render,Option.some.injEq] at htext
    subst htext
    have hid := JsonRpc.normal_id (.num n)
    have hnormal : JsonText.Normal (JsonRpc.error (.num n) e).toValue := by
      simpa [JsonRpc.toValue,JsonText.Normal,Value.Forall,forallEntries] using
        ⟨JsonRpc.normal_error he,hid⟩
    have hdepth : (JsonRpc.error (.num n) e).toValue.depth ≤ recursionLimit := by
      have hlimit := JsonRpc.depth_error he
      simp [JsonRpc.toValue,Value.depth,depthEntries,JsonRpc.Id.toValue_depth]
      omega
    obtain ⟨e',he'⟩ := JsonRpc.fromValue_error hn he.1
    exact ⟨e',by rw [text_parse,JsonRpc.parse_print hnormal hdepth,he']⟩

theorem text_proposalsAreObjects : Deps.text.ProposalsAreObjects := by
  rintro v value hvalue
  cases hvalue
  have hkeys : ["inputs","outputs"].Pairwise (· < ·) := by decide
  have hasset : ∀ s : String, (Value.array [.object [("asset",.string s)]]).Forall Number.Normal
      fun keys => keys.Pairwise (· < ·) := fun s =>
    ⟨⟨List.pairwise_singleton _ _,trivial,trivial⟩,trivial⟩
  exact ⟨⟨⟨hkeys,hasset _,hasset _,trivial⟩,
    by simp [Sample.proposalValue,Value.depth,depthItems,depthEntries,recursionLimit]⟩,trivial⟩

theorem text_proposalsHaveNoWhere : Deps.text.ProposalsHaveNoWhere := by
  rintro v entries h
  cases h
  rfl

end Deps

def Sample.textNode : Node Deps.text := ⟨"http://localhost:8332",fun _ => .ok (.ok Sample.txBytes)⟩

end NexusRelay
