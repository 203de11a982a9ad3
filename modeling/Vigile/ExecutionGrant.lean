import Vigile.Base64
import Vigile.GoJson

/-! The grant that the worker asks for before a mutating action. Ed25519 is a parameter: what
is assumed of it is that one signature is good for one message. -/
namespace ExecutionGrant

open JsonText Go CanonicalJson

@[ext] structure CanonicalTarget where
  kind : String
  id : String
  deriving DecidableEq

structure ActionRequestPayload where
  requestID : String
  proposalID : String
  policyID : String
  policyVersion : Int64
  action : String
  target : CanonicalTarget
  params : List (String × Value)
  approvedBy : String
  approvedAt : Binary64
  expiresAt : Binary64
  executionGrant : String

inductive GrantError where
  | unsigned (action : String)
  | expired (expiresAt : Binary64) (now : Int)
  | encoding
  | canonicalization
  | signature
  deriving DecidableEq

def after (now : Int) (at_ : Binary64) : Bool := (float64 now).any fun f => at_.value < f.value

def CanonicalTarget.value (target : CanonicalTarget) : Value :=
  marshalMap [("kind",.string target.kind),("id",.string target.id)]

def grantMap (req : ActionRequestPayload) : Value :=
  marshalMap [("request_id",.string req.requestID),("proposal_id",.string req.proposalID),
    ("policy_id",.string req.policyID),("policy_version",.number (formatInt req.policyVersion.toInt)),
    ("action",.string req.action),("target",req.target.value),("approved_by",.string req.approvedBy),
    ("approved_at",.number (marshalFloat req.approvedAt)),("expires_at",.number (marshalFloat req.expiresAt))]

def decodeSignature (text : String) : Option (List UInt8) :=
  (Base64.decodeRawURL text).or (Base64.decodeStd text)

section
variable {Key : Type} (platform : Platform) (verify : Key → List Char → List UInt8 → Bool)

/-- `now` is the Unix time in whole seconds. -/
def verifyExecutionGrant (now : Int) (req : ActionRequestPayload) (masterPub : Key) : Except GrantError Unit :=
  if req.executionGrant = "" then .error (.unsigned req.action)
  else if 0 < req.expiresAt.value ∧ after now req.expiresAt then .error (.expired req.expiresAt now)
  else match decodeSignature req.executionGrant with
    | none => .error .encoding
    | some sigBytes =>
      match canonicalizeJSON platform (marshal (grantMap req)) with
      | none => .error .canonicalization
      | some canonicalBytes =>
        if verify masterPub canonicalBytes sigBytes then .ok () else .error .signature

variable {platform verify}

/-- What an accepted request went through. -/
theorem accepted_cases {now : Int} {req : ActionRequestPayload} {masterPub : Key}
    (accepted : verifyExecutionGrant platform verify now req masterPub = .ok ()) :
    ¬(0 < req.expiresAt.value ∧ after now req.expiresAt = true) ∧
    ∃ sigBytes canonicalBytes, decodeSignature req.executionGrant = some sigBytes ∧
      canonicalizeJSON platform (marshal (grantMap req)) = some canonicalBytes ∧
      verify masterPub canonicalBytes sigBytes = true := by
  obtain ⟨text,written⟩ : ∃ text, text = canonicalizeJSON platform (marshal (grantMap req)) := ⟨_,rfl⟩
  unfold verifyExecutionGrant at accepted
  rw [← written] at accepted ⊢
  by_cases unsigned : req.executionGrant = ""
  · rw [if_pos unsigned] at accepted
    contradiction
  · rw [if_neg unsigned] at accepted
    by_cases late : 0 < req.expiresAt.value ∧ after now req.expiresAt = true
    · rw [if_pos late] at accepted
      contradiction
    · rw [if_neg late] at accepted
      cases decoded : decodeSignature req.executionGrant with
      | none =>
        rw [decoded] at accepted
        contradiction
      | some sigBytes =>
        cases text with
        | none =>
          rw [decoded] at accepted
          contradiction
        | some canonicalBytes =>
          rw [decoded] at accepted
          dsimp only at accepted
          by_cases signed : verify masterPub canonicalBytes sigBytes = true
          · exact ⟨late,sigBytes,canonicalBytes,rfl,rfl,signed⟩
          · rw [if_neg signed] at accepted
            contradiction

end

theorem grantMap_eq (req : ActionRequestPayload) : grantMap req =
    .object [("action",.string req.action),("approved_at",.number (marshalFloat req.approvedAt)),
      ("approved_by",.string req.approvedBy),("expires_at",.number (marshalFloat req.expiresAt)),
      ("policy_id",.string req.policyID),("policy_version",.number (formatInt req.policyVersion.toInt)),
      ("proposal_id",.string req.proposalID),("request_id",.string req.requestID),
      ("target",.object [("id",.string req.target.id),("kind",.string req.target.kind)])] := by
  simp [grantMap,CanonicalTarget.value,marshalMap,keySorted,List.orderedInsert]

theorem fits_grantMap (req : ActionRequestPayload) : (grantMap req).Fits 10000 := by
  rw [grantMap_eq]
  simp [Value.Fits]

theorem grantMap_canonical (platform : Platform) (req : ActionRequestPayload) {written : Value}
    (found : (grantMap req).canonical (serializeNumber platform) = some written) :
    ∃ approvedAt expiresAt policyVersion,
      serializeNumber platform (marshalFloat req.approvedAt) = some approvedAt ∧
      serializeNumber platform (marshalFloat req.expiresAt) = some expiresAt ∧
      serializeNumber platform (formatInt req.policyVersion.toInt) = some policyVersion ∧
      written = .object [("action",.string req.action),("approved_at",.number approvedAt),
      ("approved_by",.string req.approvedBy),("expires_at",.number expiresAt),
      ("policy_id",.string req.policyID),("policy_version",.number policyVersion),
      ("proposal_id",.string req.proposalID),("request_id",.string req.requestID),
      ("target",.object [("id",.string req.target.id),("kind",.string req.target.kind)])] := by
  rw [grantMap_eq] at found
  simp only [Value.canonical,canonicalFields,Option.bind_eq_bind,Option.bind_some,Option.pure_def,Option.map_some,
    Option.map_eq_some_iff,Option.bind_eq_some_iff,Option.some.injEq] at found
  obtain ⟨_,⟨_,⟨_,⟨approvedAt,first,rfl⟩,_,⟨_,⟨_,⟨expiresAt,second,rfl⟩,_,⟨_,⟨_,⟨policyVersion,third,rfl⟩,rfl⟩,
    rfl⟩,rfl⟩,rfl⟩,rfl⟩,rfl⟩,rfl⟩ := found
  refine ⟨approvedAt,expiresAt,policyVersion,first,second,third,?_⟩
  simp [keySorted]

/-- The numbers that are written agree only where the floats do. -/
theorem value_of_written {platform : Platform} {f g : Binary64} {written : Literal}
    (first : serializeNumber platform (marshalFloat f) = some written)
    (second : serializeNumber platform (marshalFloat g) = some written) : f.value = g.value := by
  obtain ⟨f',h,parsedFirst,back,same⟩ := serializeNumber_reads first
  obtain ⟨g',k,parsedSecond,backSecond,sameSecond⟩ := serializeNumber_reads second
  rw [marshalFloat_reads] at parsedFirst parsedSecond
  rw [back] at backSecond
  obtain rfl := Option.some.inj parsedFirst
  obtain rfl := Option.some.inj parsedSecond
  obtain rfl := Option.some.inj backSecond
  rw [← same,sameSecond]

theorem integer_of_written {platform : Platform} {m n : Int} {written : Literal} (smallFirst : m.natAbs ≤ 2 ^ 53)
    (smallSecond : n.natAbs ≤ 2 ^ 53) (first : serializeNumber platform (formatInt m) = some written)
    (second : serializeNumber platform (formatInt n) = some written) : m = n := by
  have safe : ∀ k : Int, k.natAbs ≤ 2 ^ 53 → SafeInteger (formatInt k) := fun k small => ⟨k,value_integer k,small⟩
  obtain ⟨a,foundFirst,sameFirst⟩ := serializeNumber_value platform (safe m smallFirst)
  obtain ⟨b,foundSecond,sameSecond⟩ := serializeNumber_value platform (safe n smallSecond)
  rw [first] at foundFirst
  rw [second] at foundSecond
  rw [← Option.some.inj foundFirst,formatInt,value_integer] at sameFirst
  rw [← Option.some.inj foundSecond,formatInt,value_integer,sameFirst] at sameSecond
  exact_mod_cast sameSecond

section
variable {Key : Type} {platform : Platform} {verify : Key → List Char → List UInt8 → Bool} {masterPub : Key}

/-- Under a key for which one signature is good for one message, a grant binds a request in
everything but its parameters: two accepted requests with one grant agree on the rest, on the
policy version as far as binary64 tells integers apart. -/
theorem grant_binds_request
    (unforgeable : ∀ signature first second, verify masterPub first signature = true →
      verify masterPub second signature = true → first = second)
    {now later : Int} {first second : ActionRequestPayload} (same : first.executionGrant = second.executionGrant)
    (acceptedFirst : verifyExecutionGrant platform verify now first masterPub = .ok ())
    (acceptedSecond : verifyExecutionGrant platform verify later second masterPub = .ok ()) :
    first.requestID = second.requestID ∧ first.proposalID = second.proposalID ∧
    first.policyID = second.policyID ∧ first.action = second.action ∧ first.target = second.target ∧
    first.approvedBy = second.approvedBy ∧ first.approvedAt.value = second.approvedAt.value ∧
    first.expiresAt.value = second.expiresAt.value ∧
    (first.policyVersion.toInt.natAbs ≤ 2 ^ 53 → second.policyVersion.toInt.natAbs ≤ 2 ^ 53 →
      first.policyVersion = second.policyVersion) := by
  obtain ⟨_,signature,message,decodedFirst,textFirst,verifiedFirst⟩ := accepted_cases acceptedFirst
  obtain ⟨_,signature',message',decodedSecond,textSecond,verifiedSecond⟩ := accepted_cases acceptedSecond
  rw [same,decodedSecond] at decodedFirst
  obtain rfl := Option.some.inj decodedFirst
  obtain rfl := unforgeable signature' message message' verifiedFirst verifiedSecond
  rw [canonicalizeJSON_marshal platform (fits_grantMap first)] at textFirst
  rw [canonicalizeJSON_marshal platform (fits_grantMap second)] at textSecond
  obtain ⟨c,canonicalFirst⟩ : ∃ c, (grantMap first).canonical (serializeNumber platform) = some c := by
    rw [serializeJCS_eq] at textFirst
    obtain ⟨c,found,_⟩ := Option.map_eq_some_iff.mp textFirst
    exact ⟨c,found⟩
  obtain ⟨d,canonicalSecond⟩ : ∃ d, (grantMap second).canonical (serializeNumber platform) = some d := by
    rw [serializeJCS_eq] at textSecond
    obtain ⟨d,found,_⟩ := Option.map_eq_some_iff.mp textSecond
    exact ⟨d,found⟩
  obtain rfl := canonical_of_text (fits_grantMap first) (fits_grantMap second) canonicalFirst canonicalSecond
    textFirst textSecond
  obtain ⟨approvedAt,expiresAt,version,writtenApproved,writtenExpires,writtenVersion,rfl⟩ :=
    grantMap_canonical platform first canonicalFirst
  obtain ⟨approvedAt',expiresAt',version',writtenApproved',writtenExpires',writtenVersion',agree⟩ :=
    grantMap_canonical platform second canonicalSecond
  simp only [Value.object.injEq,List.cons.injEq,Prod.mk.injEq,Value.string.injEq,Value.number.injEq,true_and,
    and_true] at agree
  obtain ⟨action,rfl,approvedBy,rfl,policyID,rfl,proposalID,requestID,targetID,targetKind⟩ := agree
  refine ⟨requestID,proposalID,policyID,action,?_,approvedBy,value_of_written writtenApproved writtenApproved',
    value_of_written writtenExpires writtenExpires',?_⟩
  · exact CanonicalTarget.ext targetKind targetID
  · intro smallFirst smallSecond
    exact Int64.toInt_inj.mp (integer_of_written smallFirst smallSecond writtenVersion writtenVersion')

end

def reload : ActionRequestPayload where
  requestID := "req-1"
  proposalID := "prop-1"
  policyID := "pol-100"
  policyVersion := 1
  action := "RELOAD_SERVICE"
  target := ⟨"systemd_service","nginx.service"⟩
  params := []
  approvedBy := "admin"
  approvedAt := ⟨false,1000 * 2 ^ 43,-43,by decide⟩
  expiresAt := ⟨false,1300 * 2 ^ 42,-42,by decide⟩
  executionGrant := "aQ"

def widened : ActionRequestPayload :=
  { reload with params := [("max_timeout",.number ⟨false,3600,[],none⟩)] }

/-- A key that has signed the grant of one request and nothing else. -/
def signedOnce (_ : Unit) (message : List Char) (signature : List UInt8) : Bool :=
  decide (signature = [105]) && decide (canonicalizeJSON amd64 (marshal (grantMap reload)) = some message)

theorem signedOnce_unforgeable (signature : List UInt8) (first second : List Char)
    (one : signedOnce () first signature = true) (other : signedOnce () second signature = true) : first = second := by
  simp only [signedOnce,Bool.and_eq_true,decide_eq_true_eq] at one other
  rw [one.2] at other
  exact Option.some.inj other.2

theorem reload_accepted : verifyExecutionGrant amd64 signedOnce 1100 reload () = .ok () := by
  decide +kernel

theorem widened_accepted : verifyExecutionGrant amd64 signedOnce 1200 widened () = .ok () := by
  decide +kernel

theorem grant_binds_reload : reload.requestID = widened.requestID ∧ reload.action = widened.action := by
  have bound := grant_binds_request signedOnce_unforgeable rfl reload_accepted widened_accepted
  exact ⟨bound.1,bound.2.2.2.1⟩

/-- The parameters, which the worker merges into the limits of the rule, are not signed. -/
theorem grant_leaves_parameters_open : ¬∀ (verify : Unit → List Char → List UInt8 → Bool) (now later : Int)
    (first second : ActionRequestPayload),
    (∀ signature one other, verify () one signature = true → verify () other signature = true → one = other) →
    verifyExecutionGrant amd64 verify now first () = .ok () →
    verifyExecutionGrant amd64 verify later second () = .ok () →
    first.executionGrant = second.executionGrant →
    first.requestID = second.requestID ∧ first.policyID = second.policyID ∧ first.action = second.action ∧
      first.target = second.target ∧ first.expiresAt = second.expiresAt ∧ first.params = second.params := by
  intro claim
  obtain ⟨_,_,_,_,_,same⟩ := claim signedOnce 1100 1200 reload widened signedOnce_unforgeable reload_accepted
    widened_accepted rfl
  have lengths := congrArg List.length same
  contradiction

end ExecutionGrant
