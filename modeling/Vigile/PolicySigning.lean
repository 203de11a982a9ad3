import Vigile.JsonCanonical
import Vigile.PolicyBundle

/-! The bytes of a policy bundle that the master signs, and those the worker recomputes from
the bundle it decoded. -/
namespace PolicySigning

open JsonText Go CanonicalJson ExecutionGrant PolicyBundle

/-- How json.dumps writes a character: everything beside visible ASCII is escaped. -/
def dumpsEscape : Char → List Char := escapeWith fun c => 0x20 ≤ c.toNat && c.toNat ≤ 0x7e

/-- json.dumps with sorted keys; a number stands as Python writes it. -/
def dumps (value : Value) : Option (List Char) := (value.canonical some).map (Value.text dumpsEscape)

def zeroDigit : Fin 10 := ⟨0,by decide⟩

def reprFloat (f : Binary64) : Literal :=
  if leading f.shortest < -4 ∨ 16 ≤ leading f.shortest then .scientific 1 f.negative f.shortest
  else
    let literal := Literal.fixed f.negative f.shortest
    if literal.fraction = [] then {literal with fraction := [zeroDigit]} else literal

/-- A row of `plugin_grants`. No dict has a key twice, and json.dumps gives up on values that
nest even less deep. -/
structure Grant where
  grantId : String
  pluginId : String
  action : String
  targetKind : String
  targetId : String
  limits : List (String × Value)
  fits : (Value.object limits).Fits 9997

structure Rule where
  ruleId : String
  pluginId : String
  action : String
  targetKind : String
  targetId : String
  limits : Option (List (String × Value))
  requiresHumanApproval : Bool
  fits : ∀ fields ∈ limits, (Value.object fields).Fits 9997

def Grant.rule (g : Grant) : Rule :=
  ⟨g.grantId,g.pluginId,g.action,g.targetKind,g.targetId,some g.limits,true,by
    rintro _ ⟨⟩
    exact g.fits⟩

def bootstrapRules : List Rule :=
  [⟨"bootstrap-1","core","LIST_SERVICES","systemd_service","*",none,false,by simp⟩,
    ⟨"bootstrap-2","core","LIST_CONTAINERS","docker_container","*",none,false,by simp⟩,
    ⟨"bootstrap-3","core","LIST_LOG_SOURCES","log_source","*",none,false,by simp⟩]

structure Payload where
  policyId : String
  nodeId : String
  masterKeyId : String
  policyEpoch : Int64
  policyVersion : Int64
  issuedAt : Binary64
  expiresAt : Binary64
  rules : List Rule

def compilePolicyBundle (policyId nodeId masterKeyId : String) (policyEpoch policyVersion : Int64)
    (now expiresAt : Binary64) (grants : List Grant) : Payload :=
  ⟨policyId,nodeId,masterKeyId,policyEpoch,policyVersion,now,expiresAt,
    if grants.isEmpty then bootstrapRules else grants.map Grant.rule⟩

def Rule.value (rule : Rule) : Value :=
  .object ([("rule_id",.string rule.ruleId),("plugin_id",.string rule.pluginId),("action",.string rule.action),
    ("target",.object [("kind",.string rule.targetKind),("id",.string rule.targetId)])] ++
    (match rule.limits with
      | none => []
      | some fields => [("limits",.object fields)]) ++
    [("requires_human_approval",.bool rule.requiresHumanApproval)])

def Payload.value (payload : Payload) : Value :=
  .object [("policy_id",.string payload.policyId),("node_id",.string payload.nodeId),
    ("master_key_id",.string payload.masterKeyId),("policy_epoch",.number (.integer payload.policyEpoch.toInt)),
    ("policy_version",.number (.integer payload.policyVersion.toInt)),
    ("issued_at",.number (reprFloat payload.issuedAt)),("expires_at",.number (reprFloat payload.expiresAt)),
    ("rules",.array (payload.rules.map Rule.value))]

def signPolicyBundle (payload : Payload) : Option (List Char) := dumps payload.value

def decodedNumber (literal : Literal) : Option Literal := literal.binary64.map marshalFloat

/-- Limits that are missing are an empty map. -/
def Rule.decoded (rule : Rule) : Option PolicyRule :=
  (canonicalFields decodedNumber (rule.limits.getD [])).map fun limits =>
    ⟨rule.ruleId,rule.pluginId,rule.action,⟨rule.targetKind,rule.targetId⟩,limits,rule.requiresHumanApproval⟩

def decodedRules : List Rule → Option (List PolicyRule)
  | [] => some []
  | rule :: rest => do
    let rule ← rule.decoded
    let rest ← decodedRules rest
    return rule :: rest

def Payload.decoded (payload : Payload) (signature : String) : Option Bundle := do
  let issuedAt ← (reprFloat payload.issuedAt).binary64
  let expiresAt ← (reprFloat payload.expiresAt).binary64
  let rules ← decodedRules payload.rules
  return ⟨payload.policyId,payload.nodeId,payload.masterKeyId,payload.policyEpoch,payload.policyVersion,issuedAt,
    expiresAt,false,"",[],some rules,signature⟩

/-- The bytes that the worker verifies the signature of. -/
def recomputed (platform : Platform) (bundle : Bundle) : Option (List Char) :=
  canonicalizeJSON platform (marshal (payloadMap bundle))

/-- A time is written the same on both sides. -/
def Steady (platform : Platform) (f : Binary64) : Prop := serializeNumber platform (marshalFloat f) = some (reprFloat f)

structure Agrees (platform : Platform) (payload : Payload) : Prop where
  strings : payload.value.Strings fun text => ∀ c ∈ text.toList, c.toNat < 0x7f
  policyEpoch : serializeNumber platform (formatInt payload.policyEpoch.toInt) = some (formatInt payload.policyEpoch.toInt)
  policyVersion : serializeNumber platform (formatInt payload.policyVersion.toInt) =
    some (formatInt payload.policyVersion.toInt)
  issuedAt : Steady platform payload.issuedAt
  expiresAt : Steady platform payload.expiresAt
  limits : ∀ rule ∈ payload.rules, ∀ fields, rule.limits = some fields →
    fields ≠ [] ∧ (Value.object fields).Every (Returned decodedNumber (serializeNumber platform))

theorem magnitude_pointed {literal : Literal} (whole : literal.fraction = []) :
    ({literal with fraction := [zeroDigit]} : Literal).magnitude = literal.magnitude := by
  simp only [Literal.magnitude,Literal.decimal,Decimal.magnitude,whole,List.length_cons,List.length_nil,digitsValue,
    List.foldl_cons,List.foldl_nil]
  push_cast
  rw [zpow_sub₀ (by norm_num)]
  have zero : zeroDigit.val = 0 := rfl
  rw [zero]
  norm_num
  ring

/-- What is written for a float rounds to it. -/
theorem reprFloat_reads (f : Binary64) : (reprFloat f).binary64 = some f := by
  have written : (reprFloat f).negative = f.negative ∧ (reprFloat f).magnitude = f.shortest.magnitude := by
    have signed : (Literal.fixed f.negative f.shortest).negative = f.negative := by
      unfold Literal.fixed
      split <;> rfl
    unfold reprFloat
    split
    · exact ⟨rfl,by simp⟩
    · dsimp only
      split
      · rename_i whole
        exact ⟨signed,(magnitude_pointed whole).trans (by simp)⟩
      · exact ⟨signed,by simp⟩
  unfold Literal.binary64
  rw [written.1,written.2]
  exact f.reads_shortest

def Rule.written (rule : Rule) (limits : List (String × Value)) : Value :=
  .object (keySorted ([("rule_id",.string rule.ruleId),("plugin_id",.string rule.pluginId),("action",.string rule.action),
    ("target",.object (keySorted [("kind",.string rule.targetKind),("id",.string rule.targetId)]))] ++ limits ++
    [("requires_human_approval",.bool rule.requiresHumanApproval)]))

def Payload.written (payload : Payload) (rules : List Value) : Value :=
  .object (keySorted [("policy_id",.string payload.policyId),("node_id",.string payload.nodeId),
    ("master_key_id",.string payload.masterKeyId),("policy_epoch",.number (.integer payload.policyEpoch.toInt)),
    ("policy_version",.number (.integer payload.policyVersion.toInt)),
    ("issued_at",.number (reprFloat payload.issuedAt)),("expires_at",.number (reprFloat payload.expiresAt)),
    ("rules",.array rules)])

section
variable {platform : Platform}

/-- The worker writes a rule as the master does. -/
theorem rule_returned {rule : Rule} (agrees : ∀ fields, rule.limits = some fields →
    fields ≠ [] ∧ (Value.object fields).Every (Returned decodedNumber (serializeNumber platform))) :
    ∃ decoded sorted, rule.decoded = some decoded ∧ rule.value.canonical some = some sorted ∧
      decoded.value.canonical (serializeNumber platform) = some sorted := by
  cases limits : rule.limits with
  | none =>
    refine ⟨⟨rule.ruleId,rule.pluginId,rule.action,⟨rule.targetKind,rule.targetId⟩,[],rule.requiresHumanApproval⟩,
      rule.written [],?_,?_,?_⟩
    · simp [Rule.decoded,limits,canonicalFields]
    · simp only [Rule.value,limits,Value.canonical,canonicalFields,List.append_nil,List.cons_append,List.nil_append,
        Option.bind_eq_bind,Option.bind_some,Option.pure_def,Option.map_some]
      rfl
    · simp only [PolicyRule.value,List.isEmpty_nil,if_true,Value.canonical,canonicalFields,List.append_nil,List.cons_append,
        List.nil_append,Option.bind_eq_bind,Option.bind_some,Option.pure_def,Option.map_some]
      rfl
  | some fields =>
    obtain ⟨filled,every⟩ := agrees fields limits
    obtain ⟨between,sorted,there,plain,back⟩ := canonicalFields_returned fun field member =>
      canonical_returned field.2 (everyField_of_mem every member)
    have some_left : between.isEmpty = false := by
      have keys := keys_canonicalFields there
      cases between with
      | nil => exact absurd (List.map_eq_nil_iff.mp keys.symm) filled
      | cons => rfl
    refine ⟨⟨rule.ruleId,rule.pluginId,rule.action,⟨rule.targetKind,rule.targetId⟩,between,rule.requiresHumanApproval⟩,
      rule.written [("limits",.object (keySorted sorted))],?_,?_,?_⟩
    · simp [Rule.decoded,limits,there]
    · simp only [Rule.value,limits,Value.canonical,canonicalFields,plain,List.cons_append,List.nil_append,
        Option.bind_eq_bind,Option.bind_some,Option.pure_def,Option.map_some]
      rfl
    · have limited : (marshalMap between).canonical (serializeNumber platform) = some (.object (keySorted sorted)) :=
        canonical_keySorted back
      simp only [PolicyRule.value,some_left,Bool.false_eq_true,if_false,canonicalFields,limited,Value.canonical,
        List.cons_append,List.nil_append,Option.bind_eq_bind,Option.bind_some,Option.pure_def,Option.map_some]
      rfl

theorem rules_returned {rules : List Rule} (agrees : ∀ rule ∈ rules, ∀ fields, rule.limits = some fields →
    fields ≠ [] ∧ (Value.object fields).Every (Returned decodedNumber (serializeNumber platform))) :
    ∃ decoded sorted, decodedRules rules = some decoded ∧ canonicalItems some (rules.map Rule.value) = some sorted ∧
      canonicalItems (serializeNumber platform) (decoded.map PolicyRule.value) = some sorted := by
  induction rules with
  | nil => exact ⟨[],[],rfl,rfl,rfl⟩
  | cons rule rest ih =>
    obtain ⟨decoded,sorted,there,plain,back⟩ := rule_returned (agrees rule List.mem_cons_self)
    obtain ⟨decodeds,sorteds,theres,plains,backs⟩ := ih fun rule member => agrees rule (List.mem_cons_of_mem _ member)
    exact ⟨decoded :: decodeds,sorted :: sorteds,by simp [decodedRules,there,theres],
      by simp [canonicalItems,plain,plains],by simp [canonicalItems,back,backs]⟩

end

/-- Where the numbers are written alike and no limits are empty, both sides have one canonical value. -/
theorem payload_returned {platform : Platform} {payload : Payload} (agrees : Agrees platform payload) (signature : String) :
    ∃ bundle sorted, payload.decoded signature = some bundle ∧ payload.value.canonical some = some sorted ∧
      (payloadMap bundle).canonical (serializeNumber platform) = some sorted := by
  obtain ⟨decoded,sorted,there,plain,back⟩ := rules_returned agrees.limits
  refine ⟨⟨payload.policyId,payload.nodeId,payload.masterKeyId,payload.policyEpoch,payload.policyVersion,payload.issuedAt,
    payload.expiresAt,false,"",[],some decoded,signature⟩,payload.written sorted,?_,?_,?_⟩
  · simp [Payload.decoded,reprFloat_reads,there]
  · simp only [Payload.value,Value.canonical,canonicalFields,plain,Option.bind_eq_bind,Option.bind_some,Option.pure_def,
      Option.map_some]
    rfl
  · refine canonical_keySorted ?_
    have issued := agrees.issuedAt
    have expires := agrees.expiresAt
    unfold Steady at issued expires
    simp only [Bool.false_eq_true,if_false,List.append_nil,canonicalFields,Value.canonical,rulesValue,back,issued,expires,
      agrees.policyEpoch,agrees.policyVersion,Option.bind_eq_bind,Option.bind_some,Option.pure_def,Option.map_some]
    rfl

theorem fits_rule {rule : Rule} {decoded : PolicyRule} (found : rule.decoded = some decoded) : decoded.value.Fits 9998 := by
  obtain ⟨limits,there,rfl⟩ := Option.map_eq_some_iff.mp found
  have limited : (marshalMap limits).Fits 9997 := by
    cases given : rule.limits with
    | none =>
      rw [given] at there
      obtain rfl := Option.some.inj there
      simp [marshalMap,keySorted,Value.Fits]
    | some fields =>
      rw [given] at there
      have rewritten : (Value.object fields).canonical decodedNumber = some (marshalMap limits) := by
        rw [Option.getD_some] at there
        rw [Value.canonical,there]
        rfl
      exact fits_canonical rewritten (rule.fits fields given)
  unfold PolicyRule.value
  dsimp only
  split
  · simp [Value.Fits]
  · simpa [Value.Fits] using limited

theorem fits_rules {rules : List Rule} {decoded : List PolicyRule} (found : decodedRules rules = some decoded) :
    ∀ rule ∈ decoded, rule.value.Fits 9998 := by
  induction rules generalizing decoded with
  | nil =>
    obtain rfl := Option.some.inj found
    simp
  | cons rule rest ih =>
    simp only [decodedRules,Option.bind_eq_bind,Option.bind_eq_some_iff,Option.pure_def,Option.some.injEq] at found
    obtain ⟨first,here,others,there,rfl⟩ := found
    exact List.forall_mem_cons.mpr ⟨fits_rule here,ih there⟩

theorem fits_payloadMap {payload : Payload} {signature : String} {bundle : Bundle}
    (found : payload.decoded signature = some bundle) : (payloadMap bundle).Fits 10000 := by
  simp only [Payload.decoded,reprFloat_reads,Option.bind_eq_bind,Option.bind_some,Option.bind_eq_some_iff,Option.pure_def,
    Option.some.injEq] at found
  obtain ⟨decoded,there,rfl⟩ := found
  have rules := fits_rules there
  unfold payloadMap marshalMap
  refine ⟨?_,fun field member => ?_⟩
  · refine ((keySorted_perm _).map Prod.fst).nodup_iff.mpr ?_
    simp
  · have member := mem_keySorted.mp member
    simp only [Bool.false_eq_true,if_false,List.append_nil,List.mem_cons,List.not_mem_nil,or_false] at member
    rcases member with rfl | rfl | rfl | rfl | rfl | rfl | rfl | rfl
    case inr.inr.inr.inr.inr.inr.inr =>
      intro item listed
      obtain ⟨rule,here,rfl⟩ := List.mem_map.mp listed
      exact rules rule here
    all_goals trivial

/-- The worker recomputes the bytes that the master signed. -/
def Verifiable (platform : Platform) (payload : Payload) (signature : String) : Prop :=
  ∃ bundle bytes, payload.decoded signature = some bundle ∧ signPolicyBundle payload = some bytes ∧
    recomputed platform bundle = some bytes

theorem dumpsEscape_visible {c : Char} (visible : c.toNat < 0x7f) : dumpsEscape c = jcsEscape c := by
  have below : c.toNat ≤ 0x7e := Nat.le_of_lt_succ visible
  simp [dumpsEscape,jcsEscape,escapeWith,below]

theorem verifiable_of_agrees (platform : Platform) (payload : Payload) (agrees : Agrees platform payload)
    (signature : String) : Verifiable platform payload signature := by
  obtain ⟨bundle,sorted,there,plain,back⟩ := payload_returned agrees signature
  have strings := strings_canonical agrees.strings plain
  have same : sorted.text dumpsEscape = sorted.text jcsEscape := by
    refine text_congr (strings_mono (fun text ascii c member => ?_) strings)
    exact dumpsEscape_visible (ascii c member)
  refine ⟨bundle,sorted.text jcsEscape,there,?_,?_⟩
  · rw [signPolicyBundle,dumps,plain,Option.map_some,same]
  · rw [recomputed,canonicalizeJSON_marshal platform (fits_payloadMap there),serializeJCS_eq,back,Option.map_some]

theorem fits_ruleValue (rule : Rule) : rule.value.Fits 9998 := by
  unfold Rule.value
  cases limits : rule.limits with
  | none => simp [Value.Fits]
  | some fields => simpa [Value.Fits] using rule.fits fields limits

theorem fits_value (payload : Payload) : payload.value.Fits 10000 := by
  refine ⟨by simp,fun field member => ?_⟩
  simp only [List.mem_cons,List.not_mem_nil,or_false] at member
  rcases member with rfl | rfl | rfl | rfl | rfl | rfl | rfl | rfl
  case inr.inr.inr.inr.inr.inr.inr =>
    intro item listed
    obtain ⟨rule,_,rfl⟩ := List.mem_map.mp listed
    exact fits_ruleValue rule
  all_goals trivial

theorem reads_dumpsEscape : Reads dumpsEscape := by
  apply reads_escapeWith
  intro c shown
  simp only [Bool.and_eq_true,decide_eq_true_eq] at shown
  exact shown.1

/-- Equal bytes come from one canonical value. -/
theorem written_once {platform : Platform} {payload : Payload} {signature : String}
    (verifiable : Verifiable platform payload signature) : ∃ bundle sorted, payload.decoded signature = some bundle ∧
      payload.value.canonical some = some sorted ∧
      (payloadMap bundle).canonical (serializeNumber platform) = some sorted ∧
      sorted.text dumpsEscape = sorted.text jcsEscape := by
  obtain ⟨bundle,bytes,there,signed,again⟩ := verifiable
  obtain ⟨sorted,plain,text⟩ := Option.map_eq_some_iff.mp signed
  rw [recomputed,canonicalizeJSON_marshal platform (fits_payloadMap there),serializeJCS_eq] at again
  obtain ⟨other,back,text'⟩ := Option.map_eq_some_iff.mp again
  have first := readValue_text reads_dumpsEscape 10000 sorted (fits_canonical plain (fits_value payload)) [] closed_nil
  have second := readValue_text reads_jcsEscape 10000 other (fits_canonical back (fits_payloadMap there)) [] closed_nil
  rw [text] at first
  rw [text'] at second
  obtain rfl : sorted = other := congrArg Prod.fst (Option.some.inj (first.symm.trans second))
  exact ⟨bundle,sorted,there,plain,back,text.trans text'.symm⟩

/-- The numbers that both sides write, and the limits, are as `Agrees` says. -/
theorem rule_agrees {platform : Platform} {rule : Rule} {decoded : PolicyRule} {sorted : Value}
    (there : rule.decoded = some decoded) (plain : rule.value.canonical some = some sorted)
    (back : decoded.value.canonical (serializeNumber platform) = some sorted) {fields : List (String × Value)}
    (limits : rule.limits = some fields) :
    fields ≠ [] ∧ (Value.object fields).Every (Returned decodedNumber (serializeNumber platform)) := by
  obtain ⟨between,first,rfl⟩ := Option.map_eq_some_iff.mp there
  have fits := fits_canonical plain (fits_ruleValue rule)
  have listed : ("limits",Value.object fields) ∈ [("rule_id",Value.string rule.ruleId),
      ("plugin_id",.string rule.pluginId),("action",.string rule.action),
      ("target",.object [("kind",.string rule.targetKind),("id",.string rule.targetId)]),
      ("limits",.object fields),("requires_human_approval",.bool rule.requiresHumanApproval)] := by simp
  simp only [Rule.value,limits,List.cons_append,List.nil_append] at plain
  rw [limits,Option.getD_some] at first
  simp only [PolicyRule.value] at back
  cases empty : between.isEmpty with
  | true =>
    -- the key is on one side only
    simp only [empty,if_true,List.cons_append,List.nil_append] at back
    obtain ⟨out,_,rfl⟩ := Option.map_eq_some_iff.mp plain
    obtain ⟨written,_,member⟩ := field_of_canonical plain listed
    obtain ⟨value,impossible⟩ := key_of_canonical back member
    simp at impossible
  | false =>
    simp only [empty,Bool.false_eq_true,if_false,List.cons_append,List.nil_append] at back
    obtain ⟨written,one,two⟩ := @field_agrees some (serializeNumber platform) _ _ sorted 9998 fits plain back "limits"
      (.object fields) (marshalMap between) listed (by simp)
    refine ⟨?_,?_⟩
    · rintro rfl
      obtain rfl := Option.some.inj first
      contradiction
    · refine returned_of_canonical (.object fields) (rule.fits fields limits) ?_ one two
      rw [Value.canonical,first]
      rfl

theorem rules_agree {platform : Platform} {rules : List Rule} {decoded : List PolicyRule} {sorted : List Value}
    (there : decodedRules rules = some decoded) (plain : canonicalItems some (rules.map Rule.value) = some sorted)
    (back : canonicalItems (serializeNumber platform) (decoded.map PolicyRule.value) = some sorted) :
    ∀ rule ∈ rules, ∀ fields, rule.limits = some fields →
      fields ≠ [] ∧ (Value.object fields).Every (Returned decodedNumber (serializeNumber platform)) := by
  induction rules generalizing decoded sorted with
  | nil => simp
  | cons rule rest ih =>
    simp only [decodedRules,List.map_cons,canonicalItems,Option.bind_eq_bind,Option.bind_eq_some_iff,Option.pure_def,
      Option.some.injEq] at there plain
    obtain ⟨first,here,others,theres,rfl⟩ := there
    obtain ⟨written,one,writtens,ones,rfl⟩ := plain
    simp only [List.map_cons,canonicalItems,Option.bind_eq_bind,Option.bind_eq_some_iff,Option.pure_def,Option.some.injEq,
      List.cons.injEq] at back
    obtain ⟨_,two,_,twos,same,sames⟩ := back
    rw [same] at two
    rw [sames] at twos
    exact List.forall_mem_cons.mpr ⟨fun fields limits => rule_agrees here one two limits,ih theres ones twos⟩

theorem unicodeEscape_ascii (unit : Nat) : ∀ d ∈ unicodeEscape unit, d.toNat < 0x7f := by
  have digit : ∀ n : Nat, (Nat.digitChar (n % 16)).toNat < 0x7f := by
    intro n
    have below : n % 16 < 16 := Nat.mod_lt n (by omega)
    generalize n % 16 = m at below
    revert m
    decide
  intro d member
  simp only [unicodeEscape,List.mem_cons,List.not_mem_nil,or_false] at member
  rcases member with rfl | rfl | rfl | rfl | rfl | rfl
  · decide
  · decide
  all_goals exact digit _

theorem dumpsEscape_ascii (c : Char) : ∀ d ∈ dumpsEscape c, d.toNat < 0x7f := by
  intro d member
  unfold dumpsEscape escapeWith at member
  cases short : shortEscape c with
  | some text =>
    rw [short,Option.getD_some] at member
    obtain ⟨e,rfl,ascii⟩ : ∃ e, text = ['\\',e] ∧ e.toNat < 0x7f := by
      unfold shortEscape at short
      split at short <;> first
        | exact ⟨_,(Option.some.inj short).symm,by decide⟩
        | contradiction
    simp only [List.mem_cons,List.not_mem_nil,or_false] at member
    rcases member with rfl | rfl
    · decide
    · exact ascii
  | none =>
    rw [short,Option.getD_none] at member
    split at member
    · rename_i shown
      rw [List.mem_singleton.mp member]
      simp only [Bool.and_eq_true,decide_eq_true_eq] at shown
      omega
    · unfold numericEscape at member
      split at member
      · exact unicodeEscape_ascii _ d member
      · rcases List.mem_append.mp member with member | member
        all_goals exact unicodeEscape_ascii _ d member

theorem jcsEscape_high {c : Char} (high : 0x7f ≤ c.toNat) : jcsEscape c = [c] := by
  have short : shortEscape c = none := by
    unfold shortEscape
    split <;> first
      | exact absurd high (by decide)
      | rfl
  have shown : 0x20 ≤ c.toNat := by omega
  simp [jcsEscape,escapeWith,short,shown]

/-- Only strings that are ASCII are written alike. -/
theorem strings_of_same {value sorted : Value} (plain : value.canonical some = some sorted)
    (text : sorted.text dumpsEscape = sorted.text jcsEscape) :
    value.Strings fun text => ∀ c ∈ text.toList, c.toNat < 0x7f := by
  have ascii : ∀ c ∈ sorted.text jcsEscape, c.toNat < 0x7f := by
    rw [← text]
    exact text_every (fun _ below => below) dumpsEscape_ascii sorted
  refine strings_of_canonical plain (strings_mono (fun text written c member => ?_) (strings_of_text ascii))
  by_contra high
  exact high (written c member c (by rw [jcsEscape_high (Nat.le_of_not_lt high)]; exact List.mem_singleton_self c))

theorem agrees_of_verifiable {platform : Platform} {payload : Payload} {signature : String}
    (verifiable : Verifiable platform payload signature) : Agrees platform payload := by
  obtain ⟨bundle,sorted,there,plain,back,text⟩ := written_once verifiable
  have fits := fits_canonical plain (fits_value payload)
  simp only [Payload.decoded,reprFloat_reads,Option.bind_eq_bind,Option.bind_some,Option.bind_eq_some_iff,Option.pure_def,
    Option.some.injEq] at there
  obtain ⟨decoded,theres,rfl⟩ := there
  have plain : (Value.object [("policy_id",.string payload.policyId),("node_id",.string payload.nodeId),
      ("master_key_id",.string payload.masterKeyId),("policy_epoch",.number (.integer payload.policyEpoch.toInt)),
      ("policy_version",.number (.integer payload.policyVersion.toInt)),
      ("issued_at",.number (reprFloat payload.issuedAt)),("expires_at",.number (reprFloat payload.expiresAt)),
      ("rules",.array (payload.rules.map Rule.value))]).canonical some = some sorted := plain
  have back : (Value.object (keySorted [("policy_id",.string payload.policyId),("node_id",.string payload.nodeId),
      ("master_key_id",.string payload.masterKeyId),("policy_epoch",.number (formatInt payload.policyEpoch.toInt)),
      ("policy_version",.number (formatInt payload.policyVersion.toInt)),
      ("issued_at",.number (marshalFloat payload.issuedAt)),("expires_at",.number (marshalFloat payload.expiresAt)),
      ("rules",rulesValue (some decoded))])).canonical (serializeNumber platform) = some sorted := back
  have rules : ∀ rule ∈ payload.rules, ∀ fields, rule.limits = some fields →
      fields ≠ [] ∧ (Value.object fields).Every (Returned decodedNumber (serializeNumber platform)) := by
    obtain ⟨written,first,second⟩ := @field_agrees some (serializeNumber platform) _ _ sorted 10000 fits plain back "rules"
      (.array (payload.rules.map Rule.value)) (rulesValue (some decoded)) (by simp) (mem_keySorted.mpr (by simp))
    obtain ⟨items,ones,rfl⟩ := Option.map_eq_some_iff.mp first
    obtain ⟨items',twos,same⟩ := Option.map_eq_some_iff.mp second
    rw [Value.array.inj same] at twos
    exact rules_agree theres ones twos
  have number : ∀ (key : String) (one two : Literal), _ → _ → serializeNumber platform two = some one :=
    fun key one two member member' => @number_agrees (serializeNumber platform) _ _ sorted 10000 fits plain back key one two
      member (mem_keySorted.mpr member')
  exact ⟨strings_of_same plain text,number "policy_epoch" _ _ (by simp [formatInt]) (by simp),
    number "policy_version" _ _ (by simp [formatInt]) (by simp),number "issued_at" _ _ (by simp) (by simp),
    number "expires_at" _ _ (by simp) (by simp),rules⟩

/-- A bundle can be verified if and only if its strings are ASCII without DEL, none of its limits are
empty, and its numbers are written alike. -/
theorem bundle_verifiable (platform : Platform) (payload : Payload) (signature : String) :
    Verifiable platform payload signature ↔ Agrees platform payload :=
  ⟨agrees_of_verifiable,fun agrees => verifiable_of_agrees platform payload agrees signature⟩

/-- Python writes the time with a point, the worker as an integer or with an exponent. -/
theorem not_steady {platform : Platform} {f : Binary64} (past : 6 ≤ leading f.shortest) (below : leading f.shortest < 16) :
    ¬Steady platform f := by
  intro steady
  have written : (reprFloat f).exponent = none ∧ (reprFloat f).fraction ≠ [] := by
    have plain : (Literal.fixed f.negative f.shortest).exponent = none := by
      unfold Literal.fixed
      split <;> rfl
    unfold reprFloat
    rw [if_neg (by omega)]
    dsimp only
    split
    · exact ⟨plain,by simp⟩
    · exact ⟨plain,‹_›⟩
  simp only [Steady,serializeNumber,marshalFloat_reads,Option.bind_eq_bind,Option.bind_some] at steady
  split at steady
  · have integer := Option.some.inj steady
    refine written.2 ?_
    rw [← integer]
    rfl
  · have formatted := Option.some.inj steady
    unfold formatFloat at formatted
    rw [if_pos (.inr past)] at formatted
    have marked := written.1
    rw [← formatted] at marked
    contradiction

/-- From a million seconds of Unix time on no bundle can be verified. -/
theorem late_bundle_not_verifiable {platform : Platform} {payload : Payload} {signature : String}
    (past : 6 ≤ leading payload.issuedAt.shortest) (below : leading payload.issuedAt.shortest < 16) :
    ¬Verifiable platform payload signature := fun verifiable =>
  not_steady past below (agrees_of_verifiable verifiable).issuedAt

def november : Binary64 := ⟨false,7396852199161856,-22,by decide⟩

theorem november_bundle_not_verifiable :
    ¬∀ platform signature, Verifiable platform
      (compilePolicyBundle "policy-1" "node-1" "MCowBQYDK2VwAyEA" 1 1 november november []) signature := by
  intro claimed
  refine late_bundle_not_verifiable ?_ ?_ (claimed amd64 "")
  · decide +kernel
  · decide +kernel

end PolicySigning
