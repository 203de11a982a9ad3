import Mathlib.Data.List.Induction
import Vigile.Binascii
import Vigile.Python

/-! Plugin secrets at rest: `encrypt_secret`, `decrypt_secret`, the masking, and what
`configure_plugin` stores. -/
namespace Vigile.ConfigEncryption
open Python Binascii

/-- `AESGCM`; decryption without result is one that raises `InvalidTag` or `ValueError`. -/
structure Aesgcm where
  encrypt : List UInt8 → List UInt8 → List UInt8 → List UInt8
  decrypt : List UInt8 → List UInt8 → List UInt8 → Option (List UInt8)

def ivLength : Nat := 12

def Aesgcm.Correct (gcm : Aesgcm) (key : List UInt8) : Prop :=
  ∀ iv plaintext, iv.length = ivLength →
    gcm.decrypt key iv (gcm.encrypt key iv plaintext) = some plaintext

def secretMask : String := "••••••••"

def encryptedPrefix : String := "v1:"

def isEncrypted (text : String) : Bool := encryptedPrefix.toList.isPrefixOf text.toList

inductive DecryptError where
  | secretDecryptionError
  /-- Of `plaintext.decode("utf-8")`, which no handler sees. -/
  | unicodeDecodeError
  deriving DecidableEq

def utf8 (text : String) : List UInt8 := text.toUTF8.data.toList

def decodeUtf8 (bytes : List UInt8) : Option String := String.fromUTF8? ⟨bytes.toArray⟩

variable (gcm : Aesgcm) (key : List UInt8)

def encryptSecret (plaintext : String) (iv : List UInt8) : String :=
  String.ofList (encryptedPrefix.toList ++ urlsafeB64encode iv ++
    ':' :: urlsafeB64encode (gcm.encrypt key iv (utf8 plaintext)))

def splitColon : List Char → Option (List Char × List Char)
  | [] => none
  | c :: rest =>
    if c = ':' then some ([],rest) else (splitColon rest).map fun parts => (c :: parts.1,parts.2)

def pad (b64 : List Char) : List Char := b64 ++ List.replicate ((4 - b64.length % 4) % 4) '='

/-- The `try` block of `decrypt_secret`. -/
def opened (stored : String) : Option (List UInt8) := do
  let (_,rest) ← splitColon stored.toList
  let (b64Iv,b64Ct) ← splitColon rest
  let iv ← urlsafeB64decode (pad b64Iv)
  let ct ← urlsafeB64decode (pad b64Ct)
  gcm.decrypt key iv ct

def decryptSecret (stored : String) : Except DecryptError String :=
  if isEncrypted stored then
    match opened gcm key stored with
    | none => .error .secretDecryptionError
    | some plaintext =>
      match decodeUtf8 plaintext with
      | some text => .ok text
      | none => .error .unicodeDecodeError
  else .ok stored

/-- The field's spec in either shape of the schema has `secret: true`. -/
def isSecretField (manifest : Json) (field : String) : Bool :=
  match manifest with
  | .object m =>
    match Fields.get m "config_schema" with
    | .object schema =>
      let fields := match Fields.get schema "schema" with
        | .object nested => nested
        | _ => schema
      match Fields.get fields field with
      | .object spec => match Fields.get spec "secret" with
        | .bool value => value
        | _ => false
      | _ => false
    | _ => false
  | _ => false

def maskSecretFields (config manifest : Json) : Json :=
  match config with
  | .object fields =>
    match manifest with
    | .object _ => .object (fields.map fun entry =>
        if isSecretField manifest entry.1 then (entry.1,.str secretMask) else entry)
    | _ => config
  | _ => .object []

/-- What becomes of one secret field of a new configuration. -/
def secured (stored : Fields) (field : String) (value : Json) (iv : List UInt8) : Json :=
  match value with
  | .str text =>
    if text = secretMask then (stored.lookup field).getD (.str "")
    else if text ≠ "" && !isEncrypted text then .str (encryptSecret gcm key text iv)
    else value
  | _ => value

/-- One call of `configure_plugin`, with the initialisation vectors it draws. -/
structure Call where
  config : Fields
  iv : String → List UInt8

def configurePlugin (manifest : Json) (stored : Option Fields) (call : Call) : Fields :=
  call.config.map fun entry =>
    if isSecretField manifest entry.1 then
      (entry.1,secured gcm key (stored.getD []) entry.1 entry.2 (call.iv entry.1))
    else entry

def stored (manifest : Json) (calls : List Call) : Option Fields :=
  calls.foldl (fun stored call => some (configurePlugin gcm key manifest stored call)) none

def Call.supplies (call : Call) (field text : String) : Prop :=
  call.config.lookup field = some (.str text)

def lastSupplied (field : String) (calls : List Call) : String :=
  calls.foldl (fun last call =>
    match call.config.lookup field with
    | some (.str text) => if text = secretMask then last else text
    | _ => last) ""

/-- The stored field decrypts to the last value, and is not that value in clear. -/
def AtRest (manifest : Json) (field : String) (calls : List Call) : Prop :=
  ∃ text, (stored gcm key manifest calls).bind (·.lookup field) = some (.str text) ∧
    decryptSecret gcm key text = .ok (lastSupplied field calls) ∧
    (lastSupplied field calls ≠ "" → text ≠ lastSupplied field calls)

def Masked (config manifest : Json) (field : String) : Prop :=
  ∀ fields value, maskSecretFields config manifest = .object fields →
    fields.lookup field = some value → value = .str secretMask

/-- `decrypt_secret` returns, or raises its own error. -/
def Decrypts (text : String) : Prop :=
  (∃ plaintext, decryptSecret gcm key text = .ok plaintext) ∨
    decryptSecret gcm key text = .error .secretDecryptionError

theorem splitColon_append (before after : List Char) (plain : ∀ c ∈ before, c ≠ ':') :
    splitColon (before ++ ':' :: after) = some (before,after) := by
  induction before with
  | nil => simp [splitColon]
  | cons c before ih =>
    have rest := ih fun d member => plain d (List.mem_cons_of_mem _ member)
    simp [splitColon,plain c List.mem_cons_self,rest]

theorem pad_encode (bytes : List UInt8) : pad (urlsafeB64encode bytes) = urlsafeB64encode bytes := by
  simp [pad,(encode_plain bytes).2]

theorem decodeUtf8_utf8 (text : String) : decodeUtf8 (utf8 text) = some text := by
  have bytes : (⟨(utf8 text).toArray⟩ : ByteArray) = text.toUTF8 := by simp [utf8]
  have valid : text.toUTF8.IsValidUTF8 := text.isValidUTF8
  rw [decodeUtf8,bytes,String.fromUTF8?,dif_pos valid]
  rfl

theorem encryptSecret_toList (plaintext : String) (iv : List UInt8) :
    (encryptSecret gcm key plaintext iv).toList = ['v','1'] ++ ':' :: (urlsafeB64encode iv ++
      ':' :: urlsafeB64encode (gcm.encrypt key iv (utf8 plaintext))) := by
  simp [encryptSecret,encryptedPrefix]

theorem encryptSecret_isEncrypted (plaintext : String) (iv : List UInt8) :
    isEncrypted (encryptSecret gcm key plaintext iv) = true := by
  rw [isEncrypted,encryptSecret_toList]
  rfl

variable {gcm key}

variable {iv : List UInt8} {secret : String} {manifest : Json}

theorem opened_encryptSecret (correct : gcm.Correct key) (plaintext : String)
    (length : iv.length = ivLength) :
    opened gcm key (encryptSecret gcm key plaintext iv) = some (utf8 plaintext) := by
  have version := splitColon_append ['v','1'] (urlsafeB64encode iv ++
    ':' :: urlsafeB64encode (gcm.encrypt key iv (utf8 plaintext))) (by simp)
  have vector := splitColon_append (urlsafeB64encode iv)
    (urlsafeB64encode (gcm.encrypt key iv (utf8 plaintext)))
    fun c member => ((encode_plain iv).1 c member).1
  simp only [opened,encryptSecret_toList,version,vector,pad_encode,decode_encode,Option.bind_eq_bind,
    Option.bind_some]
  exact correct iv _ length

theorem decryptSecret_encryptSecret (correct : gcm.Correct key) (plaintext : String) (length : iv.length = ivLength) :
    decryptSecret gcm key (encryptSecret gcm key plaintext iv) = .ok plaintext := by
  rw [decryptSecret,if_pos (encryptSecret_isEncrypted gcm key plaintext iv),
    opened_encryptSecret correct plaintext length]
  dsimp only
  rw [decodeUtf8_utf8]

theorem decrypts_iff (text : String) : Decrypts gcm key text ↔
    (isEncrypted text = true → ∀ plaintext, opened gcm key text = some plaintext →
      (decodeUtf8 plaintext).isSome = true) := by
  unfold Decrypts decryptSecret
  by_cases encrypted : isEncrypted text = true
  · rw [if_pos encrypted]
    cases opened gcm key text with
    | none => simp
    | some plaintext => cases decoded : decodeUtf8 plaintext <;> simp [encrypted,decoded]
  · rw [if_neg encrypted]
    simp [encrypted]

theorem lookup_map (fields : Fields) (field : String) (change : String → Json → Json) :
    List.lookup field (fields.map fun entry => (entry.1,change entry.1 entry.2)) =
      (fields.lookup field).map (change field) := by
  induction fields with
  | nil => rfl
  | cons entry rest ih =>
    obtain ⟨name,value⟩ := entry
    rw [List.map_cons,List.lookup_cons,List.lookup_cons,ih]
    by_cases same : field = name
    · subst same
      simp
    · simp [beq_eq_false_iff_ne.mpr same]

theorem masked (config manifest : Json) (field : String) (secret : isSecretField manifest field = true) :
    Masked config manifest field := by
  intro fields value masks found
  cases manifest with
  | object m =>
    cases config with
    | object original =>
      have entries : (original.map fun entry => if isSecretField (.object m) entry.1 then
          (entry.1,Json.str secretMask) else entry) = original.map fun entry =>
          (entry.1,if isSecretField (.object m) entry.1 then .str secretMask else entry.2) :=
        List.map_congr_left fun entry _ => by split <;> rfl
      obtain rfl := Json.object.inj masks
      rw [entries] at found
      have changed := lookup_map original field fun name value =>
        if isSecretField (.object m) name then .str secretMask else value
      rw [changed] at found
      obtain ⟨_,_,rfl⟩ := Option.map_eq_some_iff.mp found
      simp [secret]
    | _ =>
      obtain rfl := Json.object.inj masks
      cases found
  | _ => simp [isSecretField] at secret

theorem lookup_configurePlugin (manifest : Json) (before : Option Fields) (call : Call)
    {field : String} (secret : isSecretField manifest field = true) :
    (configurePlugin gcm key manifest before call).lookup field =
      (call.config.lookup field).map fun value =>
        secured gcm key (before.getD []) field value (call.iv field) := by
  have entries : configurePlugin gcm key manifest before call = call.config.map fun entry =>
      (entry.1,if isSecretField manifest entry.1 then
        secured gcm key (before.getD []) entry.1 entry.2 (call.iv entry.1) else entry.2) :=
    List.map_congr_left fun entry _ => by split <;> rfl
  have changed := lookup_map call.config field fun name value =>
    if isSecretField manifest name then
      secured gcm key (before.getD []) name value (call.iv name) else value
  rw [entries,changed]
  simp [secret]

theorem stored_concat (manifest : Json) (calls : List Call) (call : Call) :
    stored gcm key manifest (calls ++ [call]) =
      some (configurePlugin gcm key manifest (stored gcm key manifest calls) call) := by
  simp [stored]

theorem lastSupplied_concat {field : String} (calls : List Call) {call : Call} {text : String}
    (supplies : call.supplies field text) : lastSupplied field (calls ++ [call]) =
      if text = secretMask then lastSupplied field calls else text := by
  have found : call.config.lookup field = some (.str text) := supplies
  simp [lastSupplied,found]

/-- A stored text that guards a secret: empty for none, encrypted for any other. -/
def Guards (gcm : Aesgcm) (key : List UInt8) (text secret : String) : Prop :=
  (secret = "" ∧ text = "") ∨ (isEncrypted secret = false ∧
    ∃ iv : List UInt8, iv.length = ivLength ∧ text = encryptSecret gcm key secret iv)

theorem Guards.decrypts (correct : gcm.Correct key) {text : String}
    (guards : Guards gcm key text secret) : decryptSecret gcm key text = .ok secret := by
  obtain ⟨rfl,rfl⟩ | ⟨_,iv,length,rfl⟩ := guards
  · rfl
  · exact decryptSecret_encryptSecret correct secret length

theorem Guards.hidden {text : String} (guards : Guards gcm key text secret)
    (nonempty : secret ≠ "") : text ≠ secret := by
  obtain ⟨empty,_⟩ | ⟨clear,iv,_,rfl⟩ := guards
  · exact absurd empty nonempty
  · intro same
    have encrypted := encryptSecret_isEncrypted gcm key secret iv
    rw [same,clear] at encrypted
    cases encrypted

theorem mask_clear : isEncrypted secretMask = false := by decide

/-- A value that does not look encrypted is guarded after its call, and the mask keeps the
guard there was. -/
theorem secured_guards {before : Fields} {field text last : String}
    (length : iv.length = ivLength) (clear : isEncrypted text = false)
    (kept : (before.lookup field = none ∧ last = "") ∨
      ∃ old, before.lookup field = some (.str old) ∧ Guards gcm key old last) :
    ∃ new, secured gcm key before field (.str text) iv = .str new ∧
      Guards gcm key new (if text = secretMask then last else text) := by
  by_cases unchanged : text = secretMask
  · rw [if_pos unchanged]
    simp only [secured,if_pos unchanged]
    obtain ⟨nothing,rfl⟩ | ⟨old,found,guards⟩ := kept
    · exact ⟨"",by rw [nothing]; rfl,.inl ⟨rfl,rfl⟩⟩
    · exact ⟨old,by rw [found]; rfl,guards⟩
  · rw [if_neg unchanged]
    simp only [secured,if_neg unchanged]
    by_cases empty : text = ""
    · exact ⟨"",by simp [empty],.inl ⟨empty,rfl⟩⟩
    · exact ⟨_,by simp [empty,clear],.inr ⟨clear,iv,length,rfl⟩⟩

theorem stored_guards {field : String} (secret : isSecretField manifest field = true)
    (calls : List Call) (supplied : ∀ call ∈ calls, ∃ text, call.supplies field text)
    (fresh : ∀ call ∈ calls, ∀ name, (call.iv name).length = ivLength)
    (clear : ∀ call ∈ calls, ∀ text, call.supplies field text → isEncrypted text = false) :
    (calls = [] ∧ stored gcm key manifest calls = none) ∨
      ∃ text, (stored gcm key manifest calls).bind (·.lookup field) = some (.str text) ∧
        Guards gcm key text (lastSupplied field calls) := by
  induction calls using List.reverseRecOn with
  | nil => exact .inl ⟨rfl,rfl⟩
  | append_singleton calls call ih =>
    have earlier : ∀ other ∈ calls, other ∈ calls ++ [call] := fun _ => List.mem_append_left _
    have this : call ∈ calls ++ [call] := List.mem_append_right _ List.mem_cons_self
    have before := ih (fun other member => supplied other (earlier other member))
      (fun other member => fresh other (earlier other member))
      (fun other member => clear other (earlier other member))
    have kept : (((stored gcm key manifest calls).getD []).lookup field = none ∧
        lastSupplied field calls = "") ∨ ∃ old, ((stored gcm key manifest calls).getD []).lookup field =
        some (.str old) ∧ Guards gcm key old (lastSupplied field calls) := by
      obtain ⟨rfl,nothing⟩ | ⟨old,found,guards⟩ := before
      · exact .inl ⟨by rw [nothing]; rfl,rfl⟩
      · obtain ⟨fields,held,looked⟩ := Option.bind_eq_some_iff.mp found
        exact .inr ⟨old,by rw [held]; exact looked,guards⟩
    obtain ⟨text,supplies⟩ := supplied call this
    have found : call.config.lookup field = some (.str text) := supplies
    obtain ⟨new,written,guards⟩ := secured_guards (fresh call this field)
      (clear call this text supplies) kept
    refine .inr ⟨new,?_,?_⟩
    · rw [stored_concat,Option.bind_some,lookup_configurePlugin manifest _ call secret,found]
      exact congrArg some written
    · rwa [lastSupplied_concat calls supplies]

/-- A value that looks encrypted is stored as it is. -/
theorem stored_in_clear {field : String} (secret : isSecretField manifest field = true)
    (calls : List Call) {call : Call} {text : String} (supplies : call.supplies field text)
    (encrypted : isEncrypted text = true) : ¬ AtRest gcm key manifest field (calls ++ [call]) := by
  rintro ⟨new,found,_,hidden⟩
  have unmasked : text ≠ secretMask := by
    rintro rfl
    rw [mask_clear] at encrypted
    cases encrypted
  have nonempty : text ≠ "" := by
    rintro rfl
    cases encrypted
  have looked : call.config.lookup field = some (.str text) := supplies
  rw [stored_concat,Option.bind_some,lookup_configurePlugin manifest _ call secret,looked] at found
  rw [lastSupplied_concat calls supplies,if_neg unmasked] at hidden
  simp only [Option.map_some,secured,if_neg unmasked,encrypted,Bool.not_true,Bool.and_false,
    Bool.false_eq_true,if_false,Option.some.injEq,Json.str.injEq] at found
  exact hidden nonempty found.symm

/-- A cipher that appends a tag of sixteen bytes. -/
def tagged : Aesgcm where
  encrypt := fun _ _ plaintext => plaintext ++ List.replicate 16 0
  decrypt := fun _ _ ciphertext => if ciphertext.length < 16 then none
    else some (ciphertext.take (ciphertext.length - 16))

theorem tagged_correct (key : List UInt8) : tagged.Correct key := by
  intro iv plaintext _
  simp [tagged]

def tokenManifest : Json :=
  .object [("config_schema",.object [("token",.object [("secret",.bool true)])])]

def supplyToken (value : String) : Call := ⟨[("token",.str value)],fun _ => List.replicate 12 0⟩

end Vigile.ConfigEncryption
