import Vigile.ExecutionGrant

/-! Policy bundles as the worker verifies them. A decoded number stands as encoding/json
writes it; a nil slice is none. -/
namespace PolicyBundle

open JsonText Go CanonicalJson ExecutionGrant

structure PolicyRule where
  ruleID : String
  pluginID : String
  action : String
  target : CanonicalTarget
  limits : List (String × Value)
  requiresHumanApproval : Bool

structure Bundle where
  policyID : String
  nodeID : String
  masterKeyID : String
  policyEpoch : Int64
  policyVersion : Int64
  issuedAt : Binary64
  expiresAt : Binary64
  isRecovery : Bool
  recoveryTicketID : String
  approvedByAdmins : List String
  rules : Option (List PolicyRule)
  signature : String

inductive PolicyError where
  | missing
  | nodeMismatch (got want : String)
  | expired (expiresAt : Binary64) (now : Int)
  | versionRollback (got current : Int64)
  | epochRollback (got current : Int64)
  | approvals
  | ticket
  | encoding
  | canonicalization
  | signature
  | unreadable
  | unpersisted
  deriving DecidableEq

/-- A struct keeps the order of its fields; limits that are empty are left out. -/
def PolicyRule.value (rule : PolicyRule) : Value :=
  .object ([("rule_id",.string rule.ruleID),("plugin_id",.string rule.pluginID),("action",.string rule.action),
    ("target",.object [("kind",.string rule.target.kind),("id",.string rule.target.id)])] ++
    (if rule.limits.isEmpty then [] else [("limits",marshalMap rule.limits)]) ++
    [("requires_human_approval",.bool rule.requiresHumanApproval)])

def rulesValue : Option (List PolicyRule) → Value
  | none => .null
  | some rules => .array (rules.map PolicyRule.value)

def payloadMap (bundle : Bundle) : Value :=
  marshalMap ([("policy_id",.string bundle.policyID),("node_id",.string bundle.nodeID),
    ("master_key_id",.string bundle.masterKeyID),("policy_epoch",.number (formatInt bundle.policyEpoch.toInt)),
    ("policy_version",.number (formatInt bundle.policyVersion.toInt)),
    ("issued_at",.number (marshalFloat bundle.issuedAt)),("expires_at",.number (marshalFloat bundle.expiresAt)),
    ("rules",rulesValue bundle.rules)] ++
    if bundle.isRecovery then [("recovery",.bool true),("recovery_ticket_id",.string bundle.recoveryTicketID),
      ("approved_by_admins",.array (bundle.approvedByAdmins.map Value.string))]
    else [])

/-- The comparison with the current policy: within an epoch of one key the version decides,
otherwise the epoch. -/
def antiRollback (bundle current : Bundle) : Except PolicyError Unit :=
  if bundle.masterKeyID = current.masterKeyID ∧ bundle.policyEpoch = current.policyEpoch then
    if bundle.policyVersion ≤ current.policyVersion ∧ ¬bundle.isRecovery then
      .error (.versionRollback bundle.policyVersion current.policyVersion)
    else .ok ()
  else if bundle.policyEpoch < current.policyEpoch ∧ ¬bundle.isRecovery then
    .error (.epochRollback bundle.policyEpoch current.policyEpoch)
  else .ok ()

def recoveryChecks (bundle : Bundle) : Except PolicyError Unit :=
  if bundle.isRecovery then
    if bundle.approvedByAdmins.length < 2 then .error .approvals
    else if bundle.recoveryTicketID = "" then .error .ticket
    else .ok ()
  else .ok ()

section
variable {Key : Type} (platform : Platform) (verify : Key → List Char → List UInt8 → Bool)

def signatureCheck (bundle : Bundle) (masterPub : Key) : Except PolicyError Unit :=
  match decodeSignature bundle.signature with
  | none => .error .encoding
  | some sigBytes =>
    match canonicalizeJSON platform (marshal (payloadMap bundle)) with
    | none => .error .canonicalization
    | some canonicalBytes => if verify masterPub canonicalBytes sigBytes then .ok () else .error .signature

/-- `now` is the Unix time in whole seconds. -/
def verifyPolicyBundle (now : Int) (bundle : Option Bundle) (currentPolicy : Option Bundle) (masterPub : Key)
    (currentNodeID : String) : Except PolicyError Unit :=
  match bundle with
  | none => .error .missing
  | some bundle =>
    if bundle.nodeID ≠ currentNodeID then .error (.nodeMismatch bundle.nodeID currentNodeID)
    else if 0 < bundle.expiresAt.value ∧ after now bundle.expiresAt then .error (.expired bundle.expiresAt now)
    else do
      match currentPolicy with
      | some current => antiRollback bundle current
      | none => pure ()
      recoveryChecks bundle
      signatureCheck platform verify bundle masterPub

end

end PolicyBundle
