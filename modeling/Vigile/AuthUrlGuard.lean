import Mathlib.Data.List.DropRight
import Vigile.RouteRegistrar

/-! The authentication URLs that a plugin's POST routes may return: the host that the guard reads from
a text, and the host that a browser contacts for it. -/
namespace Vigile.AuthUrlGuard

open Python RouteRegistrar

/-- `str.lower`, the check of a netloc after NFKC, that of a host in brackets, and the browser's
reader of IPv6 addresses. -/
structure Readers where
  lower : List Char → List Char
  checkNetloc : List Char → Bool
  checkBracketedHost : List Char → Bool
  isIpv6 : List Char → Bool

def c0OrSpace (c : Char) : Bool := c.toNat ≤ 32

/-- What follows leading controls and spaces, without tabs and newlines. -/
def cleanUrl (raw : List Char) : List Char :=
  (raw.dropWhile c0OrSpace).filter fun c => c ≠ '\t' && c ≠ '\r' && c ≠ '\n'

def schemeChar (c : Char) : Bool := c.isAlphanum || c = '+' || c = '-' || c = '.'

/-- The scheme in lower case, empty where there is none, and what follows. -/
def splitScheme (url : List Char) : List Char × List Char :=
  let front := url.takeWhile (· ≠ ':')
  if ':' ∈ url ∧ front.head?.any Char.isAlpha = true ∧ front.all schemeChar = true then
    (front.map Char.toLower,(url.dropWhile (· ≠ ':')).tail)
  else ([],url)

def https : List Char := ['h','t','t','p','s']

/-- What follows the last at sign. -/
def hostinfo (netloc : List Char) : List Char := netloc.rtakeWhile (· ≠ '@')

def endsNetloc (c : Char) : Bool := c = '/' || c = '?' || c = '#'

/-- `_splitnetloc`, where two slashes follow the scheme. -/
def netloc : List Char → List Char
  | '/' :: '/' :: rest => rest.takeWhile fun c => !endsNetloc c
  | _ => []

/-- The host of a netloc, before it is put in lower case: what is in brackets, or ends at a colon. -/
def hostText (netloc : List Char) : List Char :=
  let info := hostinfo netloc
  if '[' ∈ info then ((info.dropWhile (· ≠ '[')).tail).takeWhile (· ≠ ']') else info.takeWhile (· ≠ ':')

section
variable (p : Readers)

/-- `urlparse`: the scheme and the netloc, or ValueError. -/
def urlparse (raw : List Char) : Option (List Char × List Char) :=
  let split := splitScheme (cleanUrl raw)
  let found := netloc split.2
  if decide ('[' ∈ found) != decide (']' ∈ found) then none
  else if '[' ∈ found ∧ p.checkBracketedHost (((found.dropWhile (· ≠ '[')).tail).takeWhile (· ≠ ']')) = false then none
  else if p.checkNetloc found then some (split.1,found) else none

/-- `ParseResult.hostname`; what follows a percent sign keeps its case. -/
def hostname (text : List Char) : List Char :=
  p.lower (text.takeWhile (· ≠ '%')) ++ text.dropWhile (· ≠ '%')

def hostAllowed (allowedDomains : List String) (text : List Char) : Bool :=
  let name := if text = [] then [] else p.lower (hostname p text)
  name ≠ [] && allowedDomains.any fun d => name = p.lower d.toList || (('.' :: p.lower d.toList).isSuffixOf name)

def urlAllowed (raw : List Char) (allowedDomains : List String) : Bool :=
  match urlparse p raw with
  | none => false
  | some (scheme,found) => scheme = https && hostAllowed p allowedDomains (hostText found)

def authUrlKeyHints : List String := ["auth","redirect","callback"]

def urlKeyHints : List String := ["url","uri","link","href"]

def isAuthUrlKey (key : String) : Bool :=
  let k := String.ofList (p.lower key.toList)
  k = "url" || k = "uri" || (authUrlKeyHints.any (contains · k) && urlKeyHints.any (contains · k))

/-- What a handler returns: a dict, a `JSONResponse` with the value of its body, or anything else. -/
inductive Result where
  | dict (fields : Fields)
  | jsonResponse (body : Option Json)
  | other

def Result.data : Result → Option Fields
  | .dict fields => some fields
  | .jsonResponse (some (.object fields)) => some fields
  | _ => none

def reprList (texts : List String) : String := "[" ++ ", ".intercalate (texts.map fun text => "'" ++ text ++ "'") ++ "]"

/-- An authentication URL that is not allowed. -/
def violation (allowedDomains : List String) (field : String × Json) : Option HttpError :=
  match field.2 with
  | .str value =>
    if isAuthUrlKey p field.1 && !urlAllowed p value.toList allowedDomains then
      some ⟨502,.str ("URL d'authentification externe refusée pour '" ++ field.1 ++ "' : '" ++ value ++
        "' hors des domaines autorisés " ++ reprList allowedDomains ++ ".")⟩
    else none
  | _ => none

def checkAuthUrlResult (allowedDomains : List String) (result : Result) : Option HttpError :=
  result.data.bind fun fields => fields.findSome? (violation p allowedDomains)

/-- The URL Standard's forbidden host code points, and the controls. -/
def forbiddenInHost (c : Char) : Bool :=
  c0OrSpace c || c.toNat = 127 || ['#','/',':','<','>','?','@','[','\\',']','^','|'].contains c

def validPort (port : List Char) : Bool :=
  port.all Char.isDigit && port.foldl (fun n c => n * 10 + (c.toNat - '0'.toNat)) 0 ≤ 65535

/-- The host of an authority, where it is well formed: an address in brackets or a text, and a port. -/
def authorityHost (authority : List Char) : Option (List Char) :=
  let info := hostinfo authority
  match info with
  | '[' :: rest =>
    let inner := rest.takeWhile (· ≠ ']')
    match rest.dropWhile (· ≠ ']') with
    | [_] => if p.isIpv6 inner then some inner else none
    | _ :: ':' :: port => if p.isIpv6 inner ∧ validPort port = true then some inner else none
    | _ => none
  | _ =>
    let host := info.takeWhile (· ≠ ':')
    if host ≠ [] ∧ host.all (!forbiddenInHost ·) = true ∧ validPort (info.dropWhile (· ≠ ':')).tail = true then some host
    else none

def isSlash (c : Char) : Bool := c = '/' || c = '\\'

/-- The authority of an https text: it begins after all slashes, backslashes among them, and ends at the next one. -/
def authority (raw : List Char) : List Char :=
  let url := (cleanUrl raw).rdropWhile c0OrSpace
  ((splitScheme url).2.dropWhile isSlash).takeWhile fun c => !(endsNetloc c || isSlash c)

/-- The host that is contacted for an https text with two slashes after the scheme. -/
def browserHost (raw : List Char) : Option (List Char) := authorityHost p (authority raw)

/-! What the guard is for -/

/-- Whatever host the browser contacts, it is a declared one. -/
def ContactsAllowed (allowedDomains : List String) (raw : List Char) : Prop :=
  ∀ host, browserHost p raw = some host → hostAllowed p allowedDomains host = true

/-- The texts under the authentication keys of a result. -/
def AuthUrl (result : Result) (value : String) : Prop :=
  ∃ fields, result.data = some fields ∧ ∃ key, (key,.str value) ∈ fields ∧ isAuthUrlKey p key = true

/-- The netloc that the guard reads has no backslash, control or space. -/
def Undivided (raw : List Char) : Prop :=
  ∀ c ∈ netloc (splitScheme (cleanUrl raw)).2, c ≠ '\\' ∧ c0OrSpace c = false

/-- The text that the browser takes for the authority is none, or its host is a declared one. -/
def Harmless (allowedDomains : List String) (raw : List Char) : Prop :=
  authorityHost p (authority raw) = none ∨ hostAllowed p allowedDomains (hostText (authority raw)) = true

end

variable {raw url front found tail host : List Char} {p : Readers} {allowedDomains : List String}

theorem splitScheme_append (colonless : ':' ∉ front) (rest rest' : List Char) :
    (splitScheme (front ++ ':' :: rest)).1 ≠ [] →
      splitScheme (front ++ ':' :: rest') = ((splitScheme (front ++ ':' :: rest)).1,rest') := by
  have takes (rest : List Char) : (front ++ ':' :: rest).takeWhile (· ≠ ':') = front := by
    rw [List.takeWhile_append_of_pos fun c member => by simpa using fun same : c = ':' => colonless (same ▸ member)]
    simp
  have drops (rest : List Char) : (front ++ ':' :: rest).dropWhile (· ≠ ':') = ':' :: rest := by
    rw [List.dropWhile_append_of_pos fun c member => by simpa using fun same : c = ':' => colonless (same ▸ member)]
    simp
  have colon (rest : List Char) : ':' ∈ front ++ ':' :: rest := by simp
  unfold splitScheme
  simp only [takes,drops,colon,true_and,List.tail_cons]
  by_cases schemed : front.head?.any Char.isAlpha = true ∧ front.all schemeChar = true
  · simp only [if_pos schemed,implies_true]
  · simp only [if_neg schemed,ne_eq,not_true_eq_false,false_imp_iff]

/-- A text with a scheme is the scheme, a colon and what follows. -/
theorem splitScheme_eq (some : (splitScheme url).1 ≠ []) :
    ∃ front, ':' ∉ front ∧ url = front ++ ':' :: (splitScheme url).2 := by
  unfold splitScheme at some ⊢
  dsimp only at some ⊢
  split_ifs at some ⊢ with schemed
  · refine ⟨url.takeWhile (· ≠ ':'),fun member => ?_,?_⟩
    · simpa using List.mem_takeWhile_imp member
    · have split := List.takeWhile_append_dropWhile (p := (· ≠ ':')) (l := url)
      cases rest : url.dropWhile (· ≠ ':') with
      | nil => exact absurd (List.dropWhile_eq_nil_iff.mp rest ':' schemed.1) (by simp)
      | cons c later =>
        have colon : c = ':' := by
          have stopped := List.head?_dropWhile_not (· ≠ ':') url
          rw [rest] at stopped
          simpa using stopped
        rw [rest,colon] at split
        exact split.symm
  · exact absurd rfl some

theorem rdropWhile_append (drops : Char → Bool) (last : ∀ c ∈ front.getLast?, drops c = false) (tail : List Char) :
    (front ++ tail).rdropWhile drops = front ++ tail.rdropWhile drops := by
  induction tail using List.reverseRecOn with
  | nil =>
    rw [List.append_nil,List.rdropWhile_nil,List.append_nil,List.rdropWhile_eq_self_iff]
    intro filled
    simp [last _ (List.getLast?_eq_some_getLast filled)]
  | append_singleton tail c ih =>
    rw [← List.append_assoc]
    by_cases dropped : drops c = true
    · rw [List.rdropWhile_concat_pos _ _ _ dropped,List.rdropWhile_concat_pos _ _ _ dropped,ih]
    · rw [List.rdropWhile_concat_neg _ _ _ dropped,List.rdropWhile_concat_neg _ _ _ dropped,List.append_assoc]

theorem takeWhile_stops (keeps : Char → Bool) (all : ∀ c ∈ front, keeps c = true)
    (stops : ∀ c ∈ tail.head?, keeps c = false) : (front ++ tail).takeWhile keeps = front := by
  rw [List.takeWhile_append_of_pos all]
  cases tail with
  | nil => simp
  | cons c tail => simp [stops c rfl]

/-- The browser reads the authority that is followed by what ends a netloc. -/
theorem authority_of_split {front found tail : List Char} (colonless : ':' ∉ front)
    (url : cleanUrl raw = front ++ ':' :: '/' :: '/' :: (found ++ tail)) (schemed : (splitScheme (cleanUrl raw)).1 ≠ [])
    (filled : found ≠ []) (solid : ∀ c ∈ found, endsNetloc c = false ∧ isSlash c = false)
    (blankless : ∀ c ∈ found, c0OrSpace c = false) (stops : ∀ c ∈ tail.head?, endsNetloc c = true) :
    authority raw = found := by
  have last : ∀ c ∈ (front ++ ':' :: '/' :: '/' :: found).getLast?, c0OrSpace c = false := by
    intro c member
    rw [List.getLast?_append_of_ne_nil _ (by simp),List.getLast?_cons_of_ne_nil (by simp),
      List.getLast?_cons_of_ne_nil (by simp),List.getLast?_cons_of_ne_nil filled] at member
    exact blankless c (List.mem_of_getLast? member)
  have trimmed : (cleanUrl raw).rdropWhile c0OrSpace = front ++ ':' :: '/' :: '/' :: (found ++ tail.rdropWhile c0OrSpace) := by
    have whole := rdropWhile_append c0OrSpace last tail
    simpa [url] using whole
  have follows : (splitScheme ((cleanUrl raw).rdropWhile c0OrSpace)).2 =
      '/' :: '/' :: (found ++ tail.rdropWhile c0OrSpace) := by
    rw [trimmed,splitScheme_append colonless _ _ (url ▸ schemed)]
  have later : ∀ c ∈ (tail.rdropWhile c0OrSpace).head?, (!(endsNetloc c || isSlash c)) = false := by
    intro c first
    obtain ⟨dropped,whole⟩ := List.rdropWhile_prefix c0OrSpace tail
    have ends := stops c (by rw [← whole,List.head?_append,first]; rfl)
    simp [ends]
  have starts : ('/' :: '/' :: (found ++ tail.rdropWhile c0OrSpace)).dropWhile isSlash =
      found ++ tail.rdropWhile c0OrSpace := by
    cases found with
    | nil => exact absurd rfl filled
    | cons c found =>
      have solidHere := (solid c List.mem_cons_self).2
      rw [List.dropWhile_cons_of_pos rfl,List.dropWhile_cons_of_pos rfl,List.cons_append,
        List.dropWhile_cons_of_neg (by simp [solidHere])]
  unfold authority
  dsimp only
  rw [follows,starts]
  exact takeWhile_stops _ (fun c member => by simp [solid c member]) later

/-- Where the netloc has no backslash and no blank it is what the browser takes for the authority. -/
theorem authority_undivided (schemed : (splitScheme (cleanUrl raw)).1 ≠ [])
    (filled : netloc (splitScheme (cleanUrl raw)).2 ≠ []) (undivided : Undivided raw) :
    authority raw = netloc (splitScheme (cleanUrl raw)).2 := by
  unfold Undivided at undivided
  obtain ⟨front,colonless,url⟩ := splitScheme_eq schemed
  generalize (splitScheme (cleanUrl raw)).2 = rest at filled undivided url ⊢
  unfold netloc at filled undivided ⊢
  split at filled
  · rename_i after
    have split := List.takeWhile_append_dropWhile (p := fun c => !endsNetloc c) (l := after)
    refine authority_of_split colonless (split.symm ▸ url) schemed filled (fun c member => ?_)
      (fun c member => (undivided c member).2) fun c first => ?_
    · have inside : endsNetloc c = false := by simpa using List.mem_takeWhile_imp member
      have slash : c ≠ '/' := fun same => by simp [endsNetloc,same] at inside
      exact ⟨inside,by simp [isSlash,slash,(undivided c member).1]⟩
    · have stopped := List.head?_dropWhile_not (fun c => !endsNetloc c) after
      rw [first] at stopped
      simpa using stopped
  · exact absurd rfl filled

/-- Where the browser takes the text before the port for a host there is no bracket in the whole. -/
theorem bracketless {info : List Char} (fine : (info.takeWhile (· ≠ ':')).all (fun c => !forbiddenInHost c) = true)
    (port : validPort (info.dropWhile (· ≠ ':')).tail = true) : '[' ∉ info := by
  intro member
  rw [← List.takeWhile_append_dropWhile (p := (· ≠ ':')) (l := info)] at member
  rcases List.mem_append.mp member with inside | inside
  · have allowed := List.all_eq_true.mp fine '[' inside
    simp [forbiddenInHost] at allowed
  · cases rest : info.dropWhile (· ≠ ':') with
    | nil =>
      rw [rest] at inside
      simp at inside
    | cons c digits =>
      simp only [rest,List.tail_cons,validPort,Bool.and_eq_true,List.all_eq_true] at port
      have colon := List.head?_dropWhile_not (· ≠ ':') info
      rw [rest] at inside colon
      rcases List.mem_cons.mp inside with rfl | inside
      · simp at colon
      · exact absurd (port.1 '[' inside) (by decide)

/-- The browser's host of an authority is the one that the guard reads. -/
theorem hostText_of_authorityHost (contacted : authorityHost p found = some host) : hostText found = host := by
  unfold authorityHost at contacted
  unfold hostText
  generalize hostinfo found = info at contacted ⊢
  dsimp only at contacted ⊢
  split at contacted
  · rename_i rest
    have same : rest.takeWhile (· ≠ ']') = host := by
      split at contacted
      · split at contacted
        · exact Option.some.inj contacted
        · simp at contacted
      · split at contacted
        · exact Option.some.inj contacted
        · simp at contacted
      · simp at contacted
    rw [if_pos List.mem_cons_self]
    simpa using same
  · split at contacted
    · rename_i wellFormed
      rw [if_neg (bracketless wellFormed.2.1 wellFormed.2.2)]
      exact Option.some.inj contacted
    · simp at contacted

/-! What the guard lets through -/

theorem hostAllowed_filled (allowed : hostAllowed p allowedDomains found = true) : found ≠ [] := by
  rintro rfl
  simp [hostAllowed] at allowed

theorem urlAllowed_parts (allowed : urlAllowed p raw allowedDomains = true) :
    (splitScheme (cleanUrl raw)).1 = https ∧
      hostAllowed p allowedDomains (hostText (netloc (splitScheme (cleanUrl raw)).2)) = true := by
  unfold urlAllowed at allowed
  split at allowed
  · simp at allowed
  · rename_i scheme found parsed
    unfold urlparse at parsed
    dsimp only at parsed
    split_ifs at parsed
    obtain ⟨rfl,rfl⟩ := Prod.mk.inj (Option.some.inj parsed)
    simpa using allowed

theorem netloc_filled (allowed : hostAllowed p allowedDomains (hostText found) = true) : found ≠ [] := by
  rintro rfl
  exact hostAllowed_filled allowed rfl

/-- What the browser contacts for a text that the guard allows is a declared host where the text is read undivided, or
where its authority is harmless, and nowhere else. -/
theorem contactsAllowed_iff (allowed : urlAllowed p raw allowedDomains = true) :
    ContactsAllowed p allowedDomains raw ↔ Undivided raw ∨ Harmless p allowedDomains raw := by
  obtain ⟨scheme,declared⟩ := urlAllowed_parts allowed
  have schemed : (splitScheme (cleanUrl raw)).1 ≠ [] := scheme ▸ (by decide)
  constructor
  · intro contacts
    cases contacted : browserHost p raw with
    | none => exact .inr (.inl contacted)
    | some host => exact .inr (.inr (hostText_of_authorityHost contacted ▸ contacts host contacted))
  · rintro (undivided | malformed | declared) host contacted
    · unfold browserHost at contacted
      rw [authority_undivided schemed (netloc_filled declared) undivided] at contacted
      exact hostText_of_authorityHost contacted ▸ declared
    · exact absurd (malformed.symm.trans contacted) (by simp)
    · exact hostText_of_authorityHost contacted ▸ declared

theorem urlAllowed_of_checked {result : Result} (checked : checkAuthUrlResult p allowedDomains result = none) {value : String}
    (present : AuthUrl p result value) : urlAllowed p value.toList allowedDomains = true := by
  obtain ⟨fields,data,key,member,auth⟩ := present
  unfold checkAuthUrlResult at checked
  rw [data,Option.bind_some,List.findSome?_eq_none_iff] at checked
  have fine := checked _ member
  simp only [violation,auth,Bool.true_and] at fine
  cases allowed : urlAllowed p value.toList allowedDomains with
  | true => rfl
  | false => simp [allowed] at fine

theorem checked_of_guarded {world : World} {request : Request} {handler : Handler Result} {result : Result}
    (served : guarded (checkAuthUrlResult p) world request handler allowedDomains = .ran (.ok result)) :
    checkAuthUrlResult p allowedDomains result = none := by
  unfold guarded at served
  split at served
  · rename_i returned _
    have checked := Served.ran.inj served
    cases found : checkAuthUrlResult p allowedDomains returned with
    | none =>
      rw [found] at checked
      obtain rfl := Except.ok.inj checked
      exact found
    | some error =>
      rw [found] at checked
      simp at checked
  · rename_i unfinished
    exact absurd served (unfinished result)

/-- Of a result that a guarded handler returns, every authentication URL leads to a declared host where each is read
undivided or its authority is harmless, and nowhere else. -/
theorem served_contacts_iff (p : Readers) (world : World) (request : Request) (handler : Handler Result)
    (allowedDomains : List String) (result : Result)
    (served : guarded (checkAuthUrlResult p) world request handler allowedDomains = .ran (.ok result)) :
    (∀ value, AuthUrl p result value → ContactsAllowed p allowedDomains value.toList) ↔
      ∀ value, AuthUrl p result value → Undivided value.toList ∨ Harmless p allowedDomains value.toList :=
  forall_congr' fun _ => forall_congr' fun present =>
    contactsAllowed_iff (urlAllowed_of_checked (checked_of_guarded served) present)

def asciiReaders : Readers := ⟨List.map Char.toLower,fun _ => true,fun _ => false,fun _ => false⟩

def anyWorld : World := ⟨fun _ => .invalid,fun _ => none,false,fun _ _ => true,fun _ => false⟩

def loginRequest : Request := ⟨"POST","/api/plugins/plex/login",none,none,none⟩

def returning (url : String) : Handler Result := ⟨[],fun _ => .ok (.dict [("auth_url",.str url)])⟩

theorem served_returning {url : String} (allowed : urlAllowed asciiReaders url.toList ["plex.tv"] = true) :
    guarded (checkAuthUrlResult asciiReaders) anyWorld loginRequest (returning url) ["plex.tv"] =
      .ran (.ok (.dict [("auth_url",.str url)])) := by
  have auth : isAuthUrlKey asciiReaders "auth_url" = true := by decide +kernel
  simp [guarded,invokeHandler,returning,solveDependencies,checkAuthUrlResult,Result.data,violation,auth,allowed]

theorem not_contacts_backslash :
    ¬∀ (p : Readers) (world : World) (request : Request) (handler : Handler Result) (allowedDomains : List String)
      (result : Result), guarded (checkAuthUrlResult p) world request handler allowedDomains = .ran (.ok result) →
        ∀ value, AuthUrl p result value → ContactsAllowed p allowedDomains value.toList := by
  intro always
  have contacts := always asciiReaders anyWorld loginRequest (returning "https://evil.com\\@plex.tv") ["plex.tv"] _
    (served_returning (by decide +kernel)) "https://evil.com\\@plex.tv"
    ⟨_,rfl,"auth_url",List.mem_cons_self,by decide +kernel⟩
  exact absurd (contacts "evil.com".toList (by decide +kernel)) (by decide +kernel)

theorem served_contacts_iff_plex :
    (∀ value, AuthUrl asciiReaders (.dict [("auth_url",.str "https://app.plex.tv/auth")]) value →
        ContactsAllowed asciiReaders ["plex.tv"] value.toList) ↔
      ∀ value, AuthUrl asciiReaders (.dict [("auth_url",.str "https://app.plex.tv/auth")]) value →
        Undivided value.toList ∨ Harmless asciiReaders ["plex.tv"] value.toList :=
  served_contacts_iff asciiReaders anyWorld loginRequest (returning "https://app.plex.tv/auth") ["plex.tv"] _
    (served_returning (by decide +kernel))

end Vigile.AuthUrlGuard
