import Mathlib.Data.List.DropRight
import Vigile.ConfigEncryption
import Vigile.PolicySigning

/-! Join tokens: what `generate_join_token` signs, and what `decode_join_token` makes of any string. -/
namespace Vigile.JoinTokenCodec

open Binascii ConfigEncryption JsonText PolicySigning

/-- A character of a str: a scalar value, or a surrogate that stands alone. -/
inductive CodePoint where
  | scalar (c : Char)
  | surrogate (n : Fin 0x800)
  deriving DecidableEq

def str (text : List Char) : List CodePoint := text.map .scalar

/-- `s.encode()` up to the bytes of the characters; a surrogate raises. -/
def encode : List CodePoint → Option (List Char)
  | [] => some []
  | .scalar c :: rest => (encode rest).map (c :: ·)
  | .surrogate _ :: _ => none

def CodePoint.isAscii : CodePoint → Bool
  | .scalar c => c.toNat < 128
  | .surrogate _ => false

/-- `token.split(".", 1)`, where it gives two parts. -/
def split : List CodePoint → Option (List CodePoint × List CodePoint)
  | [] => none
  | c :: rest => if c = .scalar '.' then some ([],rest) else (split rest).map fun parts => (c :: parts.1,parts.2)

def hexdigest (bytes : List UInt8) : List Char :=
  bytes.flatMap fun b => [Nat.digitChar (b.toNat / 16),Nat.digitChar (b.toNat % 16)]

def padB64 (s : List Char) : List Char :=
  let remainder := s.length % 4
  if remainder ≠ 0 then s ++ List.replicate (4 - remainder) '=' else s

def rstrip (s : List Char) : List Char := s.rdropWhile (· = '=')

/-- `json.loads`, where it does not raise; NaN and the infinities aside. -/
def loads (text : List Char) : Option Value := do
  let (value,rest) ← readValue 1000 text
  if skipSpaces rest = [] then some value else none

def truncate (time : ℚ) : Int := time.num.tdiv time.den

inductive Raised where
  | valueError (message : String)
  | unicodeEncodeError
  | typeError
  | attributeError

def Raised.isValueError : Raised → Bool
  | .valueError _ | .unicodeEncodeError => true
  | .typeError | .attributeError => false

/-- A call of `generate_join_token`, with the time and the uuid it reads. -/
structure Issue where
  nodeId : String
  ipPrefix : String
  name : String
  group : String
  time : ℚ
  jti : String

section

variable (hmac : List UInt8 → List UInt8) (joinTokenTtl : Int)

def Issue.expiresAt (issue : Issue) : Int := truncate issue.time + joinTokenTtl

def Issue.fields (issue : Issue) : List (String × Value) :=
  [("node_id",.string issue.nodeId),("expires_at",.number (.integer (issue.expiresAt joinTokenTtl))),
    ("ip_prefix",.string issue.ipPrefix),("name",.string issue.name),("group",.string issue.group),
    ("single_use",.bool true),("jti",.string issue.jti)]

def Issue.payload (issue : Issue) : Value := .object (issue.fields joinTokenTtl)

def Issue.payloadJson (issue : Issue) : List Char := (dumps (issue.payload joinTokenTtl)).getD []

def Issue.payloadB64 (issue : Issue) : List Char :=
  rstrip (urlsafeB64encode (utf8 (String.ofList (issue.payloadJson joinTokenTtl))))

/-- `hmac.new(secret, text.encode(), "sha256").hexdigest()` -/
def signature (text : List Char) : List Char := hexdigest (hmac (utf8 (String.ofList text)))

def generateJoinToken (issue : Issue) : List CodePoint :=
  str (signature hmac (issue.payloadB64 joinTokenTtl) ++ '.' :: issue.payloadB64 joinTokenTtl)

/-- `json.loads(base64.urlsafe_b64decode(_pad_b64(payload_b64)).decode())`, where nothing raises. -/
def loadPayload (payloadB64 : List Char) : Option Value := do
  let bytes ← urlsafeB64decode (padB64 payloadB64)
  let text ← decodeUtf8 bytes
  loads text.toList

def number : Value → Option ℚ
  | .number literal => some literal.value
  | .bool value => some (if value then 1 else 0)
  | _ => none

def checkExpiry (time : ℚ) (payload : Value) : Except Raised Value :=
  match payload with
  | .object fields =>
    match number ((fields.lookup "expires_at").getD (.number (.integer 0))) with
    | none => .error .typeError
    | some expiresAt => if expiresAt < time then .error (.valueError "Token expired") else .ok payload
  | _ => .error .attributeError

/-- `compare_digest` raises on a str beyond ASCII. -/
def decodeJoinToken (time : ℚ) (token : List CodePoint) : Except Raised Value :=
  match split token with
  | none => .error (.valueError "Malformed token: missing separator")
  | some (sigHex,payloadB64) =>
    match encode payloadB64 with
    | none => .error .unicodeEncodeError
    | some text =>
      if ¬sigHex.all CodePoint.isAscii then .error .typeError
      else if sigHex ≠ str (signature hmac text) then .error (.valueError "Invalid token signature")
      else
        match loadPayload text with
        | none => .error (.valueError "Invalid token payload encoding")
        | some payload => checkExpiry time payload

/-! What is promised -/

/-- Equal as dicts. -/
def Same (a b : Value) : Prop := ∃ fields others, a = .object fields ∧ b = .object others ∧ fields.Perm others

def Unforged (issued : List Issue) (token : List CodePoint) : Prop :=
  ∀ text, split token = some (str (signature hmac text),str text) → ∃ issue ∈ issued, text = issue.payloadB64 joinTokenTtl

/-- A token is decoded exactly when it was issued and has not expired, to its payload, and any other string
raises a ValueError. -/
structure Sound (issued : List Issue) (time : ℚ) (token : List CodePoint) : Prop where
  returned : ∀ payload, decodeJoinToken hmac time token = .ok payload → ∃ issue ∈ issued,
    token = generateJoinToken hmac joinTokenTtl issue ∧ Same payload (issue.payload joinTokenTtl) ∧ time ≤ issue.expiresAt joinTokenTtl
  accepted : ∀ issue ∈ issued, token = generateJoinToken hmac joinTokenTtl issue → time ≤ issue.expiresAt joinTokenTtl →
    ∃ payload, decodeJoinToken hmac time token = .ok payload ∧ Same payload (issue.payload joinTokenTtl)
  refused : (∀ issue ∈ issued, token = generateJoinToken hmac joinTokenTtl issue → issue.expiresAt joinTokenTtl < time) →
    ∃ raised, decodeJoinToken hmac time token = .error raised ∧ raised.isValueError = true

end

/-- What comes before the first dot is beyond ASCII, and what comes after it can be encoded. -/
def Incomparable (token : List CodePoint) : Prop :=
  ∃ sigHex payloadB64, split token = some (sigHex,payloadB64) ∧ (encode payloadB64).isSome ∧ sigHex.all CodePoint.isAscii = false

variable {hmac : List UInt8 → List UInt8} {joinTokenTtl : Int} {issue : Issue} {time : ℚ} {token : List CodePoint}

theorem encode_str (text : List Char) : encode (str text) = some text := by
  induction text with
  | nil => rfl
  | cons c rest ih => simpa [encode,str] using ih

theorem str_of_encode {points : List CodePoint} {text : List Char} (encoded : encode points = some text) : points = str text := by
  induction points generalizing text with
  | nil =>
    cases encoded
    rfl
  | cons point rest ih =>
    cases point with
    | surrogate n => cases encoded
    | scalar c =>
      obtain ⟨others,tail,rfl⟩ := Option.map_eq_some_iff.mp encoded
      rw [ih tail]
      rfl

theorem split_str (before_ after_ : List Char) (plain : ∀ c ∈ before_, c ≠ '.') :
    split (str (before_ ++ '.' :: after_)) = some (str before_,str after_) := by
  induction before_ with
  | nil => simp [split,str]
  | cons c before_ ih =>
    have rest := ih fun d member => plain d (List.mem_cons_of_mem _ member)
    have other : CodePoint.scalar c ≠ .scalar '.' := fun same => plain c List.mem_cons_self (CodePoint.scalar.inj same)
    change split (.scalar c :: str (before_ ++ '.' :: after_)) = _
    rw [split,if_neg other,rest]
    rfl

theorem split_eq {points sigHex payloadB64 : List CodePoint} (found : split points = some (sigHex,payloadB64)) :
    points = sigHex ++ .scalar '.' :: payloadB64 := by
  induction points generalizing sigHex with
  | nil => cases found
  | cons c rest ih =>
    unfold split at found
    split at found
    · rename_i dot
      cases found
      rw [dot]
      rfl
    · obtain ⟨⟨front,back⟩,later,pair⟩ := Option.map_eq_some_iff.mp found
      cases pair
      rw [ih later]
      rfl

theorem hexdigest_plain (bytes : List UInt8) : ∀ c ∈ hexdigest bytes, c ≠ '.' ∧ c.toNat < 128 := by
  have digits : ∀ d : Fin 16, Nat.digitChar d ≠ '.' ∧ (Nat.digitChar d).toNat < 128 := by decide
  intro c member
  obtain ⟨b,-,listed⟩ := List.mem_flatMap.mp member
  have bound := b.toNat_lt
  simp only [List.mem_cons,List.not_mem_nil,or_false] at listed
  obtain rfl | rfl := listed
  · exact digits ⟨b.toNat / 16,by omega⟩
  · exact digits ⟨b.toNat % 16,by omega⟩

theorem ascii_signature (text : List Char) : (str (signature hmac text)).all CodePoint.isAscii = true := by
  refine List.all_eq_true.mpr fun point member => ?_
  obtain ⟨c,listed,rfl⟩ := List.mem_map.mp member
  exact decide_eq_true (hexdigest_plain _ c listed).2

theorem encodeChar_unpadded (n : Nat) (sextet : n < 64) : encodeChar n ≠ '=' := by
  intro padding
  have digit := decode_encodeChar n sextet
  rw [padding] at digit
  cases digit

/-- An encoded text without its padding. -/
theorem encode_padding (bytes : List UInt8) : ∃ body count, urlsafeB64encode bytes = body ++ List.replicate count '=' ∧
    (∀ c ∈ body, c ≠ '=') ∧ count < 3 := by
  induction bytes using urlsafeB64encode.induct with
  | case1 => exact ⟨[],0,rfl,by simp,by decide⟩
  | case2 a =>
    have bound := a.toNat_lt
    refine ⟨[encodeChar (a.toNat / 4),encodeChar (a.toNat % 4 * 16)],2,rfl,?_,by decide⟩
    simp [encodeChar_unpadded (a.toNat / 4) (by omega),encodeChar_unpadded (a.toNat % 4 * 16) (by omega)]
  | case3 a b =>
    have boundA := a.toNat_lt
    have boundB := b.toNat_lt
    refine ⟨[encodeChar (a.toNat / 4),encodeChar (a.toNat % 4 * 16 + b.toNat / 16),encodeChar (b.toNat % 16 * 4)],1,rfl,?_,by decide⟩
    simp [encodeChar_unpadded (a.toNat / 4) (by omega),encodeChar_unpadded (a.toNat % 4 * 16 + b.toNat / 16) (by omega),
      encodeChar_unpadded (b.toNat % 16 * 4) (by omega)]
  | case4 a b c rest ih =>
    obtain ⟨body,count,encoded,unpadded,few⟩ := ih
    have boundA := a.toNat_lt
    have boundB := b.toNat_lt
    have boundC := c.toNat_lt
    refine ⟨encodeChar (a.toNat / 4) :: encodeChar (a.toNat % 4 * 16 + b.toNat / 16) ::
      encodeChar (b.toNat % 16 * 4 + c.toNat / 64) :: encodeChar (c.toNat % 64) :: body,count,?_,?_,few⟩
    · rw [urlsafeB64encode,encoded]
      rfl
    · simp only [List.forall_mem_cons]
      exact ⟨encodeChar_unpadded _ (by omega),encodeChar_unpadded _ (by omega),encodeChar_unpadded _ (by omega),
        encodeChar_unpadded _ (by omega),unpadded⟩

theorem rstrip_padding (body : List Char) (count : Nat) (unpadded : ∀ c ∈ body, c ≠ '=') :
    rstrip (body ++ List.replicate count '=') = body := by
  unfold rstrip
  induction count with
  | zero =>
    rw [List.replicate_zero,List.append_nil,List.rdropWhile_eq_self_iff]
    intro filled padding
    exact unpadded _ (List.getLast_mem filled) (of_decide_eq_true padding)
  | succ count ih =>
    rw [List.replicate_succ',← List.append_assoc]
    have dropped := List.rdropWhile_concat_pos (fun c : Char => decide (c = '=')) (body ++ List.replicate count '=') '='
      (decide_eq_true rfl)
    exact dropped.trans ih

theorem padB64_rstrip (bytes : List UInt8) : padB64 (rstrip (urlsafeB64encode bytes)) = urlsafeB64encode bytes := by
  obtain ⟨body,count,encoded,unpadded,few⟩ := encode_padding bytes
  have whole := (encode_plain bytes).2
  rw [encoded,List.length_append,List.length_replicate] at whole
  rw [encoded,rstrip_padding body count unpadded]
  unfold padB64
  dsimp only
  split
  · have rest : 4 - body.length % 4 = count := by omega
    rw [rest]
  · have none_ : count = 0 := by omega
    rw [none_,List.replicate_zero,List.append_nil]

theorem loads_dumps {value written : Value} (canonical : value.canonical some = some written) (fits : value.Fits 1000) :
    loads (written.text dumpsEscape) = some written := by
  have read := readValue_text reads_dumpsEscape 1000 written (fits_canonical canonical fits) [] closed_nil
  rw [List.append_nil] at read
  unfold loads
  rw [read]
  rfl

theorem canonical_payload (issue : Issue) :
    (issue.payload joinTokenTtl).canonical some = some (.object (keySorted (issue.fields joinTokenTtl))) := by
  simp [Issue.payload,Issue.fields,Value.canonical,canonicalFields]

theorem keys_fields (issue : Issue) : (issue.fields joinTokenTtl).map Prod.fst =
    ["node_id","expires_at","ip_prefix","name","group","single_use","jti"] := rfl

theorem fits_payload (issue : Issue) : (issue.payload joinTokenTtl).Fits 1000 := by
  refine ⟨?_,?_⟩
  · rw [keys_fields]
    decide
  · simp only [Issue.fields,List.forall_mem_cons]
    exact ⟨trivial,trivial,trivial,trivial,trivial,trivial,trivial,fun _ member => by cases member⟩

theorem loadPayload_issue (issue : Issue) :
    loadPayload (issue.payloadB64 joinTokenTtl) = some (.object (keySorted (issue.fields joinTokenTtl))) := by
  have loaded := loads_dumps (canonical_payload issue) (@fits_payload joinTokenTtl issue)
  have json : issue.payloadJson joinTokenTtl = (Value.object (keySorted (issue.fields joinTokenTtl))).text dumpsEscape := by
    rw [Issue.payloadJson,dumps,canonical_payload]
    rfl
  rw [loadPayload,Issue.payloadB64,padB64_rstrip,decode_encode,Option.bind_eq_bind,Option.bind_some,decodeUtf8_utf8,Option.bind_eq_bind,
    Option.bind_some,String.toList_ofList,json]
  exact loaded

/-- A field of a dict. -/
theorem lookup_of_mem {fields : List (String × Value)} (once : (fields.map Prod.fst).Nodup) {key : String} {value : Value}
    (member : (key,value) ∈ fields) : fields.lookup key = some value := by
  induction fields with
  | nil => cases member
  | cons field rest ih =>
    obtain ⟨fresh,others⟩ := List.nodup_cons.mp once
    rw [List.lookup_cons]
    rcases List.mem_cons.mp member with rfl | later
    · simp
    · have other : (key == field.1) = false :=
        beq_eq_false_iff_ne.mpr fun same => fresh (same ▸ List.mem_map_of_mem later)
      rw [other]
      exact ih others later

theorem lookup_expiresAt (issue : Issue) : (keySorted (issue.fields joinTokenTtl)).lookup "expires_at" =
    some (.number (.integer (issue.expiresAt joinTokenTtl))) := by
  have permuted := keySorted_perm (issue.fields joinTokenTtl)
  refine lookup_of_mem ?_ (permuted.mem_iff.mpr (.tail _ (.head _)))
  rw [(permuted.map Prod.fst).nodup_iff,keys_fields]
  decide

theorem checkExpiry_issue (issue : Issue) (time : ℚ) : checkExpiry time (.object (keySorted (issue.fields joinTokenTtl))) =
    if (issue.expiresAt joinTokenTtl : ℚ) < time then .error (.valueError "Token expired")
    else .ok (.object (keySorted (issue.fields joinTokenTtl))) := by
  simp [checkExpiry,lookup_expiresAt,number,value_integer]

theorem same_payload (issue : Issue) : Same (.object (keySorted (issue.fields joinTokenTtl))) (issue.payload joinTokenTtl) :=
  ⟨_,_,rfl,rfl,keySorted_perm _⟩

theorem split_generate (issue : Issue) : split (generateJoinToken hmac joinTokenTtl issue) =
    some (str (signature hmac (issue.payloadB64 joinTokenTtl)),str (issue.payloadB64 joinTokenTtl)) :=
  split_str _ _ fun c member => (hexdigest_plain _ c member).1

theorem decode_signed {text : List Char} (parts : split token = some (str (signature hmac text),str text)) :
    decodeJoinToken hmac time token = match loadPayload text with
      | none => .error (.valueError "Invalid token payload encoding")
      | some payload => checkExpiry time payload := by
  have ascii : ¬¬(str (signature hmac text)).all CodePoint.isAscii = true := not_not.mpr (ascii_signature text)
  simp only [decodeJoinToken,parts,encode_str]
  rw [if_neg ascii,if_neg (not_not.mpr rfl)]

theorem decode_generate (issue : Issue) : decodeJoinToken hmac time (generateJoinToken hmac joinTokenTtl issue) =
    if (issue.expiresAt joinTokenTtl : ℚ) < time then .error (.valueError "Token expired")
    else .ok (.object (keySorted (issue.fields joinTokenTtl))) := by
  rw [decode_signed (split_generate issue),loadPayload_issue]
  exact checkExpiry_issue issue time

variable {issued : List Issue}

theorem sound_refused {raised : Raised} (error : decodeJoinToken hmac time token = .error raised) (value : raised.isValueError = true)
    (expired : ∀ issue ∈ issued, token = generateJoinToken hmac joinTokenTtl issue → (issue.expiresAt joinTokenTtl : ℚ) < time) :
    Sound hmac joinTokenTtl issued time token where
  returned := by
    intro payload returned
    rw [error] at returned
    cases returned
  accepted := fun issue member same lives => absurd (expired issue member same) (not_lt.mpr lives)
  refused := fun _ => ⟨raised,error,value⟩

theorem sound_issued (member : issue ∈ issued) (same : token = generateJoinToken hmac joinTokenTtl issue) :
    Sound hmac joinTokenTtl issued time token := by
  have decoded := @decode_generate hmac joinTokenTtl time issue
  rw [← same] at decoded
  by_cases expired : (issue.expiresAt joinTokenTtl : ℚ) < time
  · rw [if_pos expired] at decoded
    refine sound_refused decoded rfl fun other listed equal => ?_
    have again := @decode_generate hmac joinTokenTtl time other
    rw [← equal,decoded] at again
    by_contra lives
    rw [if_neg lives] at again
    cases again
  · rw [if_neg expired] at decoded
    constructor
    · intro payload returned
      obtain rfl := Except.ok.inj (decoded.symm.trans returned)
      exact ⟨issue,member,same,same_payload issue,not_lt.mp expired⟩
    · intro other listed equal lives
      have again := @decode_generate hmac joinTokenTtl time other
      rw [if_neg (not_lt.mpr lives),← equal] at again
      exact ⟨_,again,same_payload other⟩
    · intro all
      exact absurd (all issue member same) expired

section

variable {sigHex payloadB64 : List CodePoint} {text : List Char} (found : split token = some (sigHex,payloadB64))
include found

theorem decode_unencodable (encoded : encode payloadB64 = none) : decodeJoinToken hmac time token = .error .unicodeEncodeError := by
  simp only [decodeJoinToken,found,encoded]

theorem decode_beyond (encoded : encode payloadB64 = some text) (beyond : ¬sigHex.all CodePoint.isAscii = true) :
    decodeJoinToken hmac time token = .error .typeError := by
  simp only [decodeJoinToken,found,encoded]
  rw [if_pos beyond]

theorem decode_unsigned (encoded : encode payloadB64 = some text) (ascii : sigHex.all CodePoint.isAscii = true)
    (unsigned : sigHex ≠ str (signature hmac text)) :
    decodeJoinToken hmac time token = .error (.valueError "Invalid token signature") := by
  simp only [decodeJoinToken,found,encoded]
  rw [if_neg (not_not.mpr ascii),if_pos unsigned]

theorem parts_generate (same : token = generateJoinToken hmac joinTokenTtl issue) :
    sigHex = str (signature hmac (issue.payloadB64 joinTokenTtl)) ∧ payloadB64 = str (issue.payloadB64 joinTokenTtl) := by
  have issued := found
  rw [same,split_generate] at issued
  obtain ⟨first,second⟩ := Prod.mk.inj (Option.some.inj issued)
  exact ⟨first.symm,second.symm⟩

end

theorem str_append (a b : List Char) : str (a ++ '.' :: b) = str a ++ .scalar '.' :: str b := by
  simp [str]

/-- A string is treated as promised exactly when the comparison does not raise. -/
theorem sound_iff (unforged : Unforged hmac joinTokenTtl issued token) :
    Sound hmac joinTokenTtl issued time token ↔ ¬Incomparable token := by
  cases found : split token with
  | none =>
    have error : decodeJoinToken hmac time token = .error (.valueError "Malformed token: missing separator") := by
      rw [decodeJoinToken,found]
    refine iff_of_true (sound_refused error rfl fun issue _ same => ?_) ?_
    · rw [same,split_generate] at found
      cases found
    · rintro ⟨_,_,other,-⟩
      rw [found] at other
      cases other
  | some pair =>
    obtain ⟨sigHex,payloadB64⟩ := pair
    have only (holds : Incomparable token) : (encode payloadB64).isSome ∧ sigHex.all CodePoint.isAscii = false := by
      obtain ⟨_,_,other,rest⟩ := holds
      rw [found] at other
      cases other
      exact rest
    cases encoded : encode payloadB64 with
    | none =>
      have error := @decode_unencodable hmac time token _ _ found encoded
      refine iff_of_true (sound_refused error rfl fun issue _ same => ?_) fun holds => ?_
      · rw [(parts_generate found same).2,encode_str] at encoded
        cases encoded
      · rw [encoded] at only
        cases (only holds).1
    | some text =>
      by_cases ascii : sigHex.all CodePoint.isAscii = true
      · refine iff_of_true ?_ fun holds => Bool.eq_false_iff.mp (only holds).2 ascii
        by_cases signed : sigHex = str (signature hmac text)
        · have whole : split token = some (str (signature hmac text),str text) := by
            rw [found,signed,str_of_encode encoded]
          obtain ⟨issue,member,same⟩ := unforged text whole
          refine sound_issued member ?_
          rw [split_eq whole,generateJoinToken,str_append,same]
        · refine sound_refused (decode_unsigned found encoded ascii signed) rfl fun issue _ same => absurd ?_ signed
          obtain ⟨first,second⟩ := parts_generate found same
          rw [second,encode_str] at encoded
          rw [first,Option.some.inj encoded]
      · refine iff_of_false (fun sound => ?_) (not_not.mpr ⟨sigHex,payloadB64,found,by rw [encoded]; rfl,Bool.eq_false_iff.mpr ascii⟩)
        obtain ⟨raised,same,value⟩ := sound.refused fun issue _ same => by
          rw [(parts_generate found same).1] at ascii
          exact absurd (ascii_signature _) ascii
        rw [decode_beyond found encoded ascii] at same
        cases same
        cases value

theorem sound_iff_unsigned : Sound (fun _ => List.replicate 32 0) 1800 [] 0 (str ['a','.','b']) ↔ ¬Incomparable (str ['a','.','b']) := by
  refine sound_iff fun text signed => ?_
  have short : str (signature (fun _ => List.replicate 32 0) text) = str ['a'] := (Prod.mk.inj (Option.some.inj signed)).1.symm
  have length := congrArg List.length short
  simp [str,signature,hexdigest] at length

/-- A TypeError leaves the call on a signature beyond ASCII. -/
theorem not_sound_accent : ¬∀ hmac joinTokenTtl issued time token, Unforged hmac joinTokenTtl issued token →
    Sound hmac joinTokenTtl issued time token := by
  intro sound
  have unsigned : Unforged (fun _ => List.replicate 32 0) 1800 [] (str ['é','.']) := by
    intro text signed
    have short := congrArg List.length (Prod.mk.inj (Option.some.inj signed)).1
    simp [str,signature,hexdigest] at short
  obtain ⟨raised,error,value⟩ := (sound (fun _ => List.replicate 32 0) 1800 [] 0 _ unsigned).refused fun _ member => by cases member
  cases error
  cases value

end Vigile.JoinTokenCodec
