import Vigile.PolicySigning

/-! The text that a policy bundle is stored as, and the bundle that is read from it. -/
namespace PolicyDocument

open JsonText Go CanonicalJson ExecutionGrant PolicyBundle

/-- Limits as json.Unmarshal leaves them: float64 numbers, maps with their keys in order, and
no deeper than a bundle can have them. -/
structure DecodedLimits (limits : List (String × Value)) : Prop where
  canonical : (Value.object limits).canonical PolicySigning.decodedNumber = some (.object limits)
  fits : (Value.object limits).Fits 9997

def DecodedRules (rules : Option (List PolicyRule)) : Prop :=
  ∀ listed, rules = some listed → ∀ rule ∈ listed, DecodedLimits rule.limits

/-- A bundle as it was decoded, with the proof of the second admin, which the signature leaves out. -/
@[ext] structure Document where
  bundle : Bundle
  recoveryProof : String
  decoded : DecodedRules bundle.rules

/-- A field that is left out when it is empty. -/
def omitempty (empty : Bool) (key : String) (value : Value) : List (String × Value) :=
  if empty then [] else [(key,value)]

def Document.fields (doc : Document) : List (String × Value) :=
  let required : List (String × Value) :=
    [("policy_id",.string doc.bundle.policyID),("node_id",.string doc.bundle.nodeID),
      ("master_key_id",.string doc.bundle.masterKeyID),
      ("policy_epoch",.number (formatInt doc.bundle.policyEpoch.toInt)),
      ("policy_version",.number (formatInt doc.bundle.policyVersion.toInt)),
      ("issued_at",.number (marshalFloat doc.bundle.issuedAt)),
      ("expires_at",.number (marshalFloat doc.bundle.expiresAt))]
  let signed : List (String × Value) :=
    [("rules",rulesValue doc.bundle.rules),("signature",.string doc.bundle.signature)]
  required ++ omitempty (!doc.bundle.isRecovery) "recovery" (.bool doc.bundle.isRecovery) ++
    omitempty doc.bundle.recoveryTicketID.isEmpty "recovery_ticket_id" (.string doc.bundle.recoveryTicketID) ++
    omitempty doc.bundle.approvedByAdmins.isEmpty "approved_by_admins"
      (.array (doc.bundle.approvedByAdmins.map Value.string)) ++ signed ++
    omitempty doc.recoveryProof.isEmpty "recovery_proof" (.string doc.recoveryProof)

def Document.value (doc : Document) : Value := .object doc.fields

/-- How encoding/json compares a name with those of a struct: a letter of either case, the
Kelvin sign and the long s count as the letter. -/
def foldChar (c : Char) : Char :=
  if c.toNat = 0x212A then 'k' else if c.toNat = 0x17F then 's' else c.toLower

def folds (key name : String) : Bool := key.toList.map foldChar = name.toList

/-- A field given again replaces the one before. -/
def fieldOf (fields : List (String × Value)) (name : String) : Option Value :=
  (fields.reverse.find? fun field => folds field.1 name).map Prod.snd

def decodeString : Option Value → Option String
  | none | some .null => some ""
  | some (.string text) => some text
  | _ => none

def decodeBool : Option Value → Option Bool
  | none | some .null => some false
  | some (.bool value) => some value
  | _ => none

def wholeNumber (literal : Literal) : Int :=
  if literal.negative then -(literal.whole : Int) else literal.whole

def decodeInt64 : Option Value → Option Int64
  | none | some .null => some 0
  | some (.number literal) =>
    if literal.Plain ∧ -2 ^ 63 ≤ wholeNumber literal ∧ wholeNumber literal < 2 ^ 63 then
      some (Int64.ofInt (wholeNumber literal))
    else none
  | _ => none

def zero : Binary64 := ⟨false,0,-1074,by decide⟩

def decodeFloat : Option Value → Option Binary64
  | none | some .null => some zero
  | some (.number literal) => literal.binary64
  | _ => none

def decodeStrings : Option Value → Option (List String)
  | none | some .null => some []
  | some (.array items) => items.mapM fun item => decodeString (some item)
  | _ => none

def decodeLimits : Option Value → Option (List (String × Value))
  | none | some .null => some []
  | some (.object fields) => (canonicalFields PolicySigning.decodedNumber fields).map keySorted
  | _ => none

def decodeTarget : Option Value → Option CanonicalTarget
  | none | some .null => some ⟨"",""⟩
  | some (.object fields) => do
    let kind ← decodeString (fieldOf fields "kind")
    let id ← decodeString (fieldOf fields "id")
    return ⟨kind,id⟩
  | _ => none

def decodeRule : Value → Option PolicyRule
  | .null => some ⟨"","","",⟨"",""⟩,[],false⟩
  | .object fields => do
    let ruleID ← decodeString (fieldOf fields "rule_id")
    let pluginID ← decodeString (fieldOf fields "plugin_id")
    let action ← decodeString (fieldOf fields "action")
    let target ← decodeTarget (fieldOf fields "target")
    let limits ← decodeLimits (fieldOf fields "limits")
    let requiresHumanApproval ← decodeBool (fieldOf fields "requires_human_approval")
    return ⟨ruleID,pluginID,action,target,limits,requiresHumanApproval⟩
  | _ => none

def decodeRules : Option Value → Option (Option (List PolicyRule))
  | none | some .null => some none
  | some (.array items) => (items.mapM decodeRule).map some
  | _ => none

def decodeDocument (fields : List (String × Value)) : Option (Bundle × String) := do
  let policyID ← decodeString (fieldOf fields "policy_id")
  let nodeID ← decodeString (fieldOf fields "node_id")
  let masterKeyID ← decodeString (fieldOf fields "master_key_id")
  let policyEpoch ← decodeInt64 (fieldOf fields "policy_epoch")
  let policyVersion ← decodeInt64 (fieldOf fields "policy_version")
  let issuedAt ← decodeFloat (fieldOf fields "issued_at")
  let expiresAt ← decodeFloat (fieldOf fields "expires_at")
  let isRecovery ← decodeBool (fieldOf fields "recovery")
  let recoveryTicketID ← decodeString (fieldOf fields "recovery_ticket_id")
  let approvedByAdmins ← decodeStrings (fieldOf fields "approved_by_admins")
  let rules ← decodeRules (fieldOf fields "rules")
  let signature ← decodeString (fieldOf fields "signature")
  let recoveryProof ← decodeString (fieldOf fields "recovery_proof")
  return (⟨policyID,nodeID,masterKeyID,policyEpoch,policyVersion,issuedAt,expiresAt,isRecovery,
    recoveryTicketID,approvedByAdmins,rules,signature⟩,recoveryProof)

def decodeValue : Value → Option (Bundle × String)
  | .object fields => decodeDocument fields
  | .null => decodeDocument []
  | _ => none

def decodeText (data : List Char) : Option (Bundle × String) := do
  let (value,rest) ← readValue 10000 data
  if rest.all JsonText.isSpace then decodeValue value else none

theorem decodedNumber_settled (literal other : Literal) (found : PolicySigning.decodedNumber literal = some other) :
    PolicySigning.decodedNumber other = some other := by
  obtain ⟨f,_,rfl⟩ := Option.map_eq_some_iff.mp found
  simp [PolicySigning.decodedNumber,marshalFloat_reads]

variable {fields limits : List (String × Value)} {α β : Type} {found : Option Value} {rule : PolicyRule}
  {rules : Option (List PolicyRule)} {read : Bundle × String}

theorem fieldOf_fits {name : String} {depth : Nat}
    (fits : (Value.object fields).Fits (depth + 1)) : ∀ value, fieldOf fields name = some value → value.Fits depth := by
  intro value found
  obtain ⟨field,first,rfl⟩ := Option.map_eq_some_iff.mp found
  exact fits.2 field (List.mem_reverse.mp (List.mem_of_find?_eq_some first))

theorem mem_of_mapM {read : β → Option α} {items : List β} {results : List α}
    (found : items.mapM read = some results) : ∀ result ∈ results, ∃ item ∈ items, read item = some result := by
  induction items generalizing results with
  | nil =>
    obtain rfl := Option.some.inj found
    simp
  | cons item items ih =>
    simp only [List.mapM_cons,Option.bind_eq_bind,Option.bind_eq_some_iff,Option.pure_def,Option.some.injEq] at found
    obtain ⟨first,here,others,there,rfl⟩ := found
    intro result member
    rcases List.mem_cons.mp member with rfl | member
    · exact ⟨item,List.mem_cons_self,here⟩
    · obtain ⟨origin,listed,same⟩ := ih there result member
      exact ⟨origin,List.mem_cons_of_mem _ listed,same⟩

theorem decodedLimits_nil : DecodedLimits [] := ⟨rfl,by simp [Value.Fits]⟩

theorem decodeLimits_decoded (fits : ∀ value, found = some value → value.Fits 9997) (read : decodeLimits found = some limits) : DecodedLimits limits := by
  unfold decodeLimits at read
  split at read
  · obtain rfl := Option.some.inj read
    exact decodedLimits_nil
  · obtain rfl := Option.some.inj read
    exact decodedLimits_nil
  · rename_i fields
    have rewritten : (Value.object fields).canonical PolicySigning.decodedNumber = some (.object limits) := by
      obtain ⟨out,there,rfl⟩ := Option.map_eq_some_iff.mp read
      rw [Value.canonical,there,Option.map_some]
    exact ⟨canonical_canonical decodedNumber_settled _ rewritten,fits_canonical rewritten (fits _ rfl)⟩
  · contradiction

theorem decodeRule_decoded {value : Value} (fits : value.Fits 9998)
    (read : decodeRule value = some rule) : DecodedLimits rule.limits := by
  unfold decodeRule at read
  split at read
  · obtain rfl := Option.some.inj read
    exact decodedLimits_nil
  · simp only [Option.bind_eq_bind,Option.bind_eq_some_iff,Option.pure_def,Option.some.injEq] at read
    obtain ⟨_,_,_,_,_,_,_,_,limits,found,_,_,rfl⟩ := read
    exact decodeLimits_decoded (fieldOf_fits fits) found
  · contradiction

theorem decodeRules_decoded (fits : ∀ value, found = some value → value.Fits 9999) (read : decodeRules found = some rules) : DecodedRules rules := by
  unfold decodeRules at read
  split at read
  · obtain rfl := Option.some.inj read
    exact fun _ impossible => by contradiction
  · obtain rfl := Option.some.inj read
    exact fun _ impossible => by contradiction
  · rename_i items
    obtain ⟨listed,there,rfl⟩ := Option.map_eq_some_iff.mp read
    rintro _ ⟨⟩ rule member
    obtain ⟨item,here,decoded⟩ := mem_of_mapM there rule member
    exact decodeRule_decoded (fits _ rfl item here) decoded
  · contradiction

theorem decodeDocument_decoded (fits : (Value.object fields).Fits 10000) (found : decodeDocument fields = some read) : DecodedRules read.1.rules := by
  unfold decodeDocument at found
  iterate 10
    obtain ⟨_,_,found⟩ := Option.bind_eq_some_iff.mp found
  obtain ⟨rules,decoded,found⟩ := Option.bind_eq_some_iff.mp found
  iterate 2
    obtain ⟨_,_,found⟩ := Option.bind_eq_some_iff.mp found
  obtain rfl := Option.some.inj found
  exact decodeRules_decoded (fieldOf_fits fits) decoded

theorem decodeText_decoded {data : List Char} (found : decodeText data = some read) :
    DecodedRules read.1.rules := by
  simp only [decodeText,Option.bind_eq_bind,Option.bind_eq_some_iff] at found
  obtain ⟨⟨value,rest⟩,parsed,found⟩ := found
  have fits := fits_of_read parsed
  dsimp only at found
  split at found
  · unfold decodeValue at found
    split at found
    · exact decodeDocument_decoded fits found
    · exact decodeDocument_decoded (by simp [Value.Fits]) found
    · contradiction
  · contradiction

/-- json.Unmarshal into a bundle: null leaves it as it is. -/
def unmarshal (data : List Char) : Option Document :=
  match found : decodeText data with
  | some (bundle,recoveryProof) => some ⟨bundle,recoveryProof,decodeText_decoded found⟩
  | none => none

theorem decodeInt64_formatInt (n : Int64) : decodeInt64 (some (.number (formatInt n.toInt))) = some n := by
  have whole : wholeNumber (formatInt n.toInt) = n.toInt := by
    unfold wholeNumber formatInt Literal.integer
    by_cases negative : n.toInt < 0
    · simp only [negative,decide_true,if_true]
      omega
    · simp only [negative,decide_false,Bool.false_eq_true,if_false]
      omega
  have plain : (formatInt n.toInt).Plain := ⟨rfl,rfl⟩
  have least := n.le_toInt
  have greatest := n.toInt_lt
  simp only [decodeInt64,whole]
  rw [if_pos ⟨plain,least,greatest⟩,Int64.ofInt_toInt]

theorem decodeFloat_marshalFloat (f : Binary64) : decodeFloat (some (.number (marshalFloat f))) = some f :=
  marshalFloat_reads f

theorem mapM_eq_some {items : List α} {read : β → Option α} {written : α → β}
    (each : ∀ item ∈ items, read (written item) = some item) :
    (items.map written).mapM read = some items := by
  induction items with
  | nil => rfl
  | cons item items ih =>
    simp only [List.map_cons,List.mapM_cons,each item List.mem_cons_self,
      ih fun other member => each other (List.mem_cons_of_mem _ member)]
    rfl

theorem decodeLimits_written (decoded : DecodedLimits limits) :
    decodeLimits (some (marshalMap limits)) = some limits := by
  obtain ⟨written,found,same⟩ := Option.map_eq_some_iff.mp decoded.canonical
  have sorted : keySorted written = limits := by simpa using same
  have ordered : keySorted limits = limits := by rw [← sorted,keySorted_keySorted]
  simp [marshalMap,ordered,decodeLimits,found,sorted]

theorem decodeTarget_written (target : CanonicalTarget) :
    decodeTarget (some (.object [("kind",.string target.kind),("id",.string target.id)])) = some target := by
  simp +decide [decodeTarget,fieldOf,decodeString]

theorem decodeRule_written (decoded : DecodedLimits rule.limits) :
    decodeRule rule.value = some rule := by
  have target := decodeTarget_written rule.target
  have limits := decodeLimits_written decoded
  unfold PolicyRule.value
  cases empty : rule.limits.isEmpty with
  | true =>
    have none_left : rule.limits = [] := List.isEmpty_iff.mp empty
    simp +decide [decodeRule,fieldOf,decodeString,decodeBool,decodeLimits,target]
    rw [← none_left]
  | false =>
    simp +decide [decodeRule,fieldOf,decodeString,decodeBool,limits,target]

theorem decodeRules_written
    (decoded : DecodedRules rules) : decodeRules (some (rulesValue rules)) = some rules := by
  cases rules with
  | none => rfl
  | some listed =>
    have each := mapM_eq_some fun rule member => decodeRule_written (decoded listed rfl rule member)
    simp [rulesValue,decodeRules,each]

theorem decodeStrings_written (texts : List String) :
    decodeStrings (some (.array (texts.map Value.string))) = some texts := by
  have each : ∀ text ∈ texts, (fun item => decodeString (some item)) (Value.string text) = some text :=
    fun _ _ => rfl
  exact mapM_eq_some each

/-! Of the fields that are left out the zero value is read -/

theorem fieldOf_append (fields more : List (String × Value)) (name : String) :
    fieldOf (fields ++ more) name = (fieldOf more name).or (fieldOf fields name) := by
  simp [fieldOf,List.find?_append,Option.map_or]

theorem fieldOf_omitempty (empty : Bool) (key : String) (value : Value) (name : String) :
    fieldOf (omitempty empty key value) name =
      if folds key name then (if empty then none else some value) else none := by
  cases empty <;> by_cases same : folds key name = true <;> simp [fieldOf,omitempty,same]

theorem decodeString_string (text : String) : decodeString (some (.string text)) = some text := rfl

theorem decodeString_omitted (text : String) :
    decodeString (if text.isEmpty then none else some (.string text)) = some text := by
  by_cases empty : text.isEmpty = true
  · rw [if_pos empty,String.isEmpty_iff.mp empty]
    rfl
  · rw [if_neg empty]
    rfl

theorem decodeBool_omitted (given : Bool) :
    decodeBool (if given = false then none else some (.bool given)) = some given := by
  cases given <;> rfl

theorem decodeStrings_omitted (texts : List String) :
    decodeStrings (if texts.isEmpty then none else some (.array (texts.map Value.string))) = some texts := by
  by_cases empty : texts.isEmpty = true
  · rw [if_pos empty,List.isEmpty_iff.mp empty]
    rfl
  · rw [if_neg empty]
    exact decodeStrings_written texts

theorem decodeDocument_written (doc : Document) : decodeDocument doc.fields = some (doc.bundle,doc.recoveryProof) := by
  have rules := decodeRules_written doc.decoded
  have recovery := decodeBool_omitted doc.bundle.isRecovery
  have ticket := decodeString_omitted doc.bundle.recoveryTicketID
  have admins := decodeStrings_omitted doc.bundle.approvedByAdmins
  have proof := decodeString_omitted doc.recoveryProof
  unfold Document.fields
  simp only [decodeDocument,fieldOf_append,fieldOf_omitempty]
  simp +decide [-String.isEmpty_iff,-List.isEmpty_iff,fieldOf,decodeString_string,decodeInt64_formatInt,
    decodeFloat_marshalFloat,recovery,ticket,admins,proof,rules]

theorem fits_ruleValue (decoded : DecodedLimits rule.limits) : rule.value.Fits 9998 := by
  have limited : (marshalMap rule.limits).Fits 9997 := by
    have rewritten : (Value.object rule.limits).canonical PolicySigning.decodedNumber = some (marshalMap rule.limits) := by
      obtain ⟨written,_,same⟩ := Option.map_eq_some_iff.mp decoded.canonical
      have sorted : keySorted written = rule.limits := by simpa using same
      rw [decoded.canonical,marshalMap,← sorted,keySorted_keySorted]
    exact fits_canonical rewritten decoded.fits
  unfold PolicyRule.value
  split
  · simp [Value.Fits]
  · simpa [Value.Fits] using limited

theorem fits_value (doc : Document) : doc.value.Fits 10000 := by
  have rules : (rulesValue doc.bundle.rules).Fits 9999 := by
    cases listed : doc.bundle.rules with
    | none => trivial
    | some rules =>
      intro item member
      obtain ⟨rule,here,rfl⟩ := List.mem_map.mp member
      exact fits_ruleValue (doc.decoded rules listed rule here)
  have admins : (Value.array (doc.bundle.approvedByAdmins.map Value.string)).Fits 9999 := by
    intro item member
    obtain ⟨text,_,rfl⟩ := List.mem_map.mp member
    trivial
  unfold Document.value Document.fields
  refine ⟨?_,fun field member => ?_⟩
  · cases doc.bundle.isRecovery <;> cases doc.bundle.recoveryTicketID.isEmpty <;>
      cases doc.bundle.approvedByAdmins.isEmpty <;> cases doc.recoveryProof.isEmpty <;> simp [omitempty]
  · simp only [omitempty,List.mem_append,List.mem_cons,List.not_mem_nil,or_false,List.mem_ite_nil_left] at member
    rcases member with ((((member | ⟨_,rfl⟩) | ⟨_,rfl⟩) | ⟨_,rfl⟩) | (rfl | rfl)) | ⟨_,rfl⟩
    · rcases member with rfl | rfl | rfl | rfl | rfl | rfl | rfl <;> trivial
    · trivial
    · trivial
    · exact admins
    · exact rules
    · trivial
    · trivial

theorem unmarshal_marshal (doc : Document) : unmarshal (marshal doc.value) = some doc := by
  have read := readValue_text reads_marshalEscape 10000 doc.value (fits_value doc) [] closed_nil
  rw [List.append_nil] at read
  have decoded : decodeText (marshal doc.value) = some (doc.bundle,doc.recoveryProof) := by
    unfold decodeText marshal
    rw [read]
    exact decodeDocument_written doc
  unfold unmarshal
  split
  · rename_i found
    obtain ⟨rfl,rfl⟩ := Prod.mk.inj (Option.some.inj (decoded.symm.trans found))
    rfl
  · rename_i missing
    rw [decoded] at missing
    contradiction

end PolicyDocument
