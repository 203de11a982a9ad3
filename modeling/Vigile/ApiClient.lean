import Mathlib.Data.List.Infix
import Vigile.Python

/-! The frontend's api(): one loop that repeats a request after errors and after a refreshed session. -/
namespace Vigile.ApiClient

open Python

inductive Error where
  | timedOut
  | thrown (message : String)
  | http (message : String)

/-- The text of an answer, the fields of the object that it may be ("" when they are falsy), and what
JSON.parse makes of it. -/
structure Body where
  text : String
  detail : String
  message : String
  error : String
  json : Except Error Json

structure Response where
  status : Nat
  body : Except Error Body

/-- When the caller's signal is aborted: before the answer, while its body is read, or later in the round. -/
inductive Moment where
  | fetching
  | reading
  | after_
  deriving DecidableEq

/-- What happens between a fetch and the next one. -/
structure Round where
  answer : Except Error Response
  refresh : Bool
  abort : Option Moment

/-- A fetch: whether the signal was aborted before it, what it came to, and whether the session was then refreshed. -/
structure Fetch where
  aborted : Bool
  received : Except Error Response
  refreshed : Bool

inductive Result where
  | null
  | value (json : Json)
  | error (error : Error)

structure Call where
  fetches : List Fetch
  result : Result

inductive Turn where
  | returns (result : Result)
  | again
  | throws (error : Error)

/-- The listener hears the signal only when it is aborted after it was added. -/
def Round.received (round : Round) (aborted : Bool) : Except Error Response :=
  match if aborted then none else round.abort with
  | some .fetching => .error .timedOut
  | some .reading => round.answer.map fun response => {response with body := .error .timedOut}
  | _ => round.answer

def orElse (a b : String) : String := if a = "" then b else a

section

variable (t : String → String) (url : List Char) (rounds : Nat → Round)

def httpError (response : Response) : Error :=
  if response.status = 429 then
    match response.body with
    | .ok body => .http (orElse body.detail (orElse body.error (t "api.toast.rate_limit")))
    | .error _ => .http (t "api.toast.rate_limit")
  else
    let displayMessage := match response.body with
      | .ok body => orElse body.detail (orElse body.message (orElse body.error body.text))
      | .error _ => t "common.error_unknown"
    .http (orElse displayMessage s!"HTTP {response.status}")

def refreshable : Bool := !(decide ("/api/auth/login".toList <:+: url)) && !(decide ("/api/auth/refresh".toList <:+: url))

def refreshes (refreshed : Bool) : Except Error Response → Bool
  | .ok response => response.status = 401 && !refreshed && refreshable url
  | .error _ => false

/-- The try block on what fetch comes to. -/
def turn (refreshed refresh more : Bool) (received : Except Error Response) : Turn :=
  match received with
  | .error error => .throws error
  | .ok response =>
    if refreshes url refreshed received then
      if refresh then .again else .returns .null
    else if ¬(200 ≤ response.status ∧ response.status < 300) then
      if response.status = 429 then .throws (httpError t response)
      else if 500 ≤ response.status ∧ more then .again
      else .throws (httpError t response)
    else if response.status = 204 then .returns .null
    else
      match response.body with
      | .error error => .throws error
      | .ok body =>
        match body.json with
        | .error error => .throws error
        | .ok json => .returns (.value json)

def Call.cons (fetch : Fetch) (call : Call) : Call := ⟨fetch :: call.fetches,call.result⟩

/-- What the loop makes of a turn: the catch block tries again while there are attempts. -/
def Turn.call (fetch : Fetch) (more : Bool) (next : Call) : Turn → Call
  | .returns result => ⟨[fetch],result⟩
  | .again => next.cons fetch
  | .throws error => if more then next.cons fetch else ⟨[fetch],.error error⟩

def loop : Nat → Nat → Bool → Bool → Call
  | 0,_,_,_ => ⟨[],.null⟩
  | remaining + 1,attempt,refreshed,aborted =>
    let round := rounds attempt
    let received := round.received aborted
    let refreshing := refreshes url refreshed received
    let fetch : Fetch := ⟨aborted,received,refreshing && round.refresh⟩
    let next := loop remaining (attempt + 1) (refreshed || refreshing) (aborted || round.abort.isSome)
    (turn t url refreshed round.refresh (0 < remaining) received).call fetch (0 < remaining) next

def api (retries : Int) (aborted : Bool) : Call := loop t url rounds (retries + 1).toNat 0 false aborted

/-! What is promised -/

def unauthorized : Except Error Response → Bool
  | .ok response => response.status = 401
  | .error _ => false

def rejected (seen : Bool) : Except Error Response → Bool
  | .ok response => 400 ≤ response.status && response.status < 500 && (response.status != 401 || seen)
  | .error _ => false

/-- Of the fetches left, after a 401 or not: a rejected one is the last and its error the result, another
follows a refreshed session, and none is started under an aborted signal. -/
def Disciplined (result : Result) : Bool → List Fetch → Prop
  | _,[] => True
  | seen,fetch :: rest =>
    (rejected seen fetch.received → rest = [] ∧ ∃ response, fetch.received = .ok response ∧ result = .error (httpError t response)) ∧
    (fetch.refreshed → rest ≠ []) ∧ fetch.aborted = false ∧
    Disciplined result (seen || unauthorized fetch.received) rest

def Kept (retries : Int) (call : Call) : Prop :=
  call.fetches.length ≤ (retries + 1).toNat + 1 ∧ Disciplined t call.result false call.fetches

/-- What a round comes to while the signal was not aborted. -/
def answers (i : Nat) : Except Error Response := (rounds i).received false

def seen : Nat → Bool
  | 0 => false
  | i + 1 => seen i || unauthorized (answers rounds i)

/-- A round that ends the call, however many attempts are left: its session is not refreshed, or its answer is read. -/
def ends (i : Nat) : Bool :=
  match answers rounds i with
  | .error _ => false
  | .ok response =>
    if response.status = 401 then !seen rounds i && refreshable url && !(rounds i).refresh
    else 200 ≤ response.status && response.status < 300 &&
      (response.status = 204 || match response.body with
        | .ok body => body.json.isOk
        | .error _ => false)

/-- A round that goes on: unless it is the last, nothing is aborted in it and it is not rejected; the last
one does not refresh the session. -/
def Smooth (attempts i : Nat) : Prop :=
  if i + 1 < attempts then (rounds i).abort = none ∧ rejected (seen rounds i) (answers rounds i) = false
  else unauthorized (answers rounds i) = false ∨ seen rounds i ∨ refreshable url = false

/-- The rounds up to the first that ends the call go on smoothly. -/
def Steady (attempts : Nat) : Prop :=
  ∀ i < attempts, (∀ j ≤ i, ends url rounds j = false) → Smooth url rounds attempts i

variable {t url rounds} {was more refresh : Bool} {received : Except Error Response} {result : Result} {retries : Int}

theorem refreshes_eq : refreshes url (refreshable url && was) received = (unauthorized received && !was && refreshable url) := by
  cases received with
  | error => rfl
  | ok response => cases was <;> cases allowed : refreshable url <;> simp [refreshes,unauthorized,allowed]

variable {i : Nat}

/-- What is not read ends with a continue or a throw. -/
theorem turn_ends : (∃ result, turn t url (refreshable url && seen rounds i) (rounds i).refresh more (answers rounds i) =
    .returns result) ↔ ends url rounds i = true := by
  unfold turn ends
  rw [refreshes_eq]
  cases answers rounds i with
  | error => simp
  | ok response =>
    by_cases denied : response.status = 401
    · cases seen rounds i <;> cases refreshable url <;> cases (rounds i).refresh <;> simp [denied,unauthorized]
    · by_cases fine : 200 ≤ response.status ∧ response.status < 300
      · simp only [unauthorized,denied,fine,decide_false,Bool.false_and,Bool.false_eq_true,if_false,not_true_eq_false,and_self,
          decide_true,Bool.true_and]
        by_cases empty : response.status = 204
        · simp [empty]
        · cases response.body with
          | error => simp [empty]
          | ok body => cases read : body.json <;> simp [empty,read,Except.isOk,Except.toBool]
      · have other : (decide (200 ≤ response.status) && decide (response.status < 300)) = false := by simpa using fine
        simp only [unauthorized,denied,fine,other,decide_false,Bool.false_and,Bool.false_eq_true,if_false,not_false_eq_true,if_true]
        split
        · simp
        · split <;> simp

/-- A rejected response is thrown. -/
theorem turn_rejected (refused : rejected was received = true) :
    ∃ response, received = .ok response ∧ turn t url (refreshable url && was) refresh more received = .throws (httpError t response) := by
  cases received with
  | error => cases refused
  | ok response =>
    refine ⟨response,rfl,?_⟩
    obtain ⟨⟨low,high⟩,later⟩ : (400 ≤ response.status ∧ response.status < 500) ∧ (¬response.status = 401 ∨ was = true) := by
      simpa [rejected] using refused
    have kept : (unauthorized (.ok response) && !was && refreshable url) = false := by
      rcases later with other | was
      · simp [unauthorized,other]
      · simp [was]
    have bad : ¬(200 ≤ response.status ∧ response.status < 300) := by omega
    have below : ¬500 ≤ response.status := by omega
    simp [turn,refreshes_eq,kept,bad,below]

theorem length_call (fetch : Fetch) (next : Call) (turn : Turn) : (turn.call fetch more next).fetches.length ≤ next.fetches.length + 1 := by
  cases turn with
  | returns result => exact Nat.succ_le_succ (Nat.zero_le _)
  | again => exact Nat.le_refl _
  | throws error => cases more <;> simp [Turn.call,Call.cons]

theorem length_loop (remaining : Nat) : ∀ attempt refreshed aborted,
    (loop t url rounds remaining attempt refreshed aborted).fetches.length ≤ remaining := by
  induction remaining with
  | zero => exact fun _ _ _ => Nat.le_refl _
  | succ remaining shorter =>
    exact fun attempt refreshed aborted => (length_call _ _ _).trans (Nat.succ_le_succ (shorter _ _ _))

theorem call_starts (fetch : Fetch) (next : Call) (turn : Turn) : ∃ rest, (turn.call fetch more next).fetches = fetch :: rest := by
  cases turn with
  | returns result => exact ⟨[],rfl⟩
  | again => exact ⟨next.fetches,rfl⟩
  | throws error => cases more <;> exact ⟨_,rfl⟩

theorem not_disciplined_aborted (remaining attempt : Nat) (refreshed : Bool) :
    ¬Disciplined t result was (loop t url rounds (remaining + 1) attempt refreshed true).fetches := by
  unfold loop
  obtain ⟨rest,fetches⟩ := call_starts _ _ _
  rw [fetches]
  rintro ⟨-,-,spared,-⟩
  cases spared

def fetchAt (url : List Char) (rounds : Nat → Round) (i : Nat) : Fetch :=
  ⟨false,answers rounds i,refreshes url (refreshable url && seen rounds i) (answers rounds i) && (rounds i).refresh⟩

def turnAt (t : String → String) (url : List Char) (rounds : Nat → Round) (more : Bool) (i : Nat) : Turn :=
  turn t url (refreshable url && seen rounds i) (rounds i).refresh more (answers rounds i)

def loopAt (t : String → String) (url : List Char) (rounds : Nat → Round) (aborted : Bool) (remaining i : Nat) : Call :=
  loop t url rounds remaining i (refreshable url && seen rounds i) aborted

theorem loopAt_succ (remaining i : Nat) : loopAt t url rounds false (remaining + 1) i =
    (turnAt t url rounds (0 < remaining) i).call (fetchAt url rounds i) (0 < remaining)
      (loopAt t url rounds (rounds i).abort.isSome remaining (i + 1)) := by
  have refreshed : (refreshable url && seen rounds i || refreshes url (refreshable url && seen rounds i) (answers rounds i)) =
      (refreshable url && seen rounds (i + 1)) := by
    rw [refreshes_eq,seen]
    cases refreshable url <;> cases seen rounds i <;> simp
  have next : loopAt t url rounds (rounds i).abort.isSome remaining (i + 1) = loop t url rounds remaining (i + 1)
      (refreshable url && seen rounds i || refreshes url (refreshable url && seen rounds i) (answers rounds i)) (rounds i).abort.isSome := by
    rw [refreshed,loopAt]
  rw [next]
  rfl

theorem turnAt_ends : (∃ result, turnAt t url rounds more i = .returns result) ↔ ends url rounds i = true := turn_ends

theorem turnAt_rejected (refused : rejected (seen rounds i) (answers rounds i) = true) :
    ∃ response, answers rounds i = .ok response ∧ turnAt t url rounds more i = .throws (httpError t response) :=
  turn_rejected refused

/-- A refreshed session does not end the call. -/
theorem refreshed_goes (refreshed : (fetchAt url rounds i).refreshed = true) : ends url rounds i = false := by
  obtain ⟨allowed,refresh⟩ : refreshes url (refreshable url && seen rounds i) (answers rounds i) = true ∧ (rounds i).refresh = true := by
    simpa [fetchAt] using refreshed
  rw [refreshes_eq] at allowed
  unfold ends
  cases received : answers rounds i with
  | error => rfl
  | ok response =>
    have denied : response.status = 401 := by
      rw [received] at allowed
      simp only [unauthorized,Bool.and_eq_true,decide_eq_true_eq] at allowed
      exact allowed.1.1
    simp [denied,refresh]

theorem rejected_goes (refused : rejected (seen rounds i) (answers rounds i) = true) : ends url rounds i = false := by
  refine Bool.eq_false_iff.mpr fun last => ?_
  obtain ⟨result,returned⟩ := (@turnAt_ends (fun key => key) url rounds true i).mpr last
  obtain ⟨response,-,thrown⟩ := @turnAt_rejected (fun key => key) url rounds true i refused
  rw [returned] at thrown
  cases thrown

/-- A round that does not end the call refreshes the session whenever it may. -/
theorem refreshed_eq (goes : ends url rounds i = false) : (fetchAt url rounds i).refreshed = false ↔
    unauthorized (answers rounds i) = false ∨ seen rounds i = true ∨ refreshable url = false := by
  unfold fetchAt
  rw [refreshes_eq]
  constructor
  · intro stays
    by_contra may
    obtain ⟨denied,fresh,allowed⟩ : unauthorized (answers rounds i) = true ∧ seen rounds i = false ∧ refreshable url = true := by
      simpa using may
    have refresh : (rounds i).refresh = false := by simpa [denied,fresh,allowed] using stays
    unfold ends at goes
    cases received : answers rounds i with
    | error =>
      rw [received] at denied
      cases denied
    | ok response =>
      have status : response.status = 401 := by simpa [received,unauthorized] using denied
      simp [received,status,fresh,allowed,refresh] at goes
  · rintro (other | late | never)
    · simp [other]
    · simp [late]
    · simp [never]

theorem disciplined_single (error : rejected (seen rounds i) (answers rounds i) = true →
    ∃ response, answers rounds i = .ok response ∧ result = .error (httpError t response)) :
    Disciplined t result (seen rounds i) [fetchAt url rounds i] ↔ (fetchAt url rounds i).refreshed = false := by
  constructor
  · rintro ⟨-,again,-⟩
    exact Bool.eq_false_iff.mpr fun refreshed => again refreshed rfl
  · intro stays
    exact ⟨fun refused => ⟨rfl,error refused⟩,fun refreshed => absurd refreshed (Bool.eq_false_iff.mp stays),rfl,trivial⟩

theorem disciplined_ends (remaining : Nat) (last : ends url rounds i = true) :
    Disciplined t (loopAt t url rounds false (remaining + 1) i).result (seen rounds i) (loopAt t url rounds false (remaining + 1) i).fetches := by
  obtain ⟨result,returned⟩ := (@turnAt_ends t url rounds (decide (0 < remaining)) i).mpr last
  rw [loopAt_succ,returned]
  refine (disciplined_single fun refused => ?_).mpr (Bool.eq_false_iff.mpr fun refreshed => ?_)
  · rw [rejected_goes refused] at last
    cases last
  · rw [refreshed_goes refreshed] at last
    cases last

theorem disciplined_last (i : Nat) :
    Disciplined t (loopAt t url rounds false 1 i).result (seen rounds i) (loopAt t url rounds false 1 i).fetches ↔
      (fetchAt url rounds i).refreshed = false := by
  have fetches : (loopAt t url rounds false 1 i).fetches = [fetchAt url rounds i] := by
    rw [loopAt_succ]
    cases turnAt t url rounds (decide (0 < 0)) i <;> rfl
  rw [fetches]
  refine disciplined_single fun refused => ?_
  obtain ⟨response,received,thrown⟩ := @turnAt_rejected t url rounds (decide (0 < 0)) i refused
  refine ⟨response,received,?_⟩
  rw [loopAt_succ,thrown]
  rfl

theorem disciplined_goes (remaining : Nat) (goes : ends url rounds i = false) :
    Disciplined t (loopAt t url rounds false (remaining + 2) i).result (seen rounds i) (loopAt t url rounds false (remaining + 2) i).fetches ↔
      rejected (seen rounds i) (answers rounds i) = false ∧ (rounds i).abort = none ∧
        Disciplined t (loopAt t url rounds false (remaining + 1) (i + 1)).result (seen rounds (i + 1))
          (loopAt t url rounds false (remaining + 1) (i + 1)).fetches := by
  have more : decide (0 < remaining + 1) = true := decide_eq_true (Nat.succ_pos _)
  have continues : loopAt t url rounds false (remaining + 2) i =
      (loopAt t url rounds (rounds i).abort.isSome (remaining + 1) (i + 1)).cons (fetchAt url rounds i) := by
    rw [loopAt_succ,more]
    cases next : turnAt t url rounds true i with
    | returns result => exact absurd (turnAt_ends.mp ⟨result,next⟩) (Bool.eq_false_iff.mp goes)
    | again | throws error => rfl
  rw [continues]
  cases aborted : (rounds i).abort with
  | some moment =>
    refine iff_of_false ?_ (by simp)
    rintro ⟨-,-,-,rest⟩
    exact not_disciplined_aborted remaining (i + 1) _ rest
  | none =>
    obtain ⟨rest,fetches⟩ : ∃ rest, (loopAt t url rounds false (remaining + 1) (i + 1)).fetches = fetchAt url rounds (i + 1) :: rest := by
      rw [loopAt_succ]
      exact call_starts _ _ _
    have nonempty : (loopAt t url rounds false (remaining + 1) (i + 1)).fetches ≠ [] := fetches ▸ List.cons_ne_nil _ _
    constructor
    · rintro ⟨error,-,-,later⟩
      exact ⟨Bool.eq_false_iff.mpr fun refused => nonempty (error refused).1,rfl,later⟩
    · rintro ⟨fine,-,later⟩
      exact ⟨fun refused => absurd refused (Bool.eq_false_iff.mp fine),fun _ => nonempty,rfl,later⟩

/-- The rounds from one on, up to the first that ends the call. -/
theorem forall_until {holds : Nat → Prop} {stop : Nat → Bool} {a b : Nat} (more : a < b) :
    (∀ i, a ≤ i → i < b → (∀ j, a ≤ j → j ≤ i → stop j = false) → holds i) ↔
      (stop a = false → holds a ∧ ∀ i, a + 1 ≤ i → i < b → (∀ j, a + 1 ≤ j → j ≤ i → stop j = false) → holds i) := by
  constructor
  · intro all goes
    refine ⟨all a (Nat.le_refl a) more fun j low high => Nat.le_antisymm high low ▸ goes,fun i low high before_ => ?_⟩
    refine all i (Nat.le_of_succ_le low) high fun j from_ upto => ?_
    rcases Nat.eq_or_lt_of_le from_ with rfl | later
    · exact goes
    · exact before_ j later upto
  · intro all i low high before_
    obtain ⟨here,later⟩ := all (before_ a (Nat.le_refl a) low)
    rcases Nat.eq_or_lt_of_le low with rfl | beyond
    · exact here
    · exact later i beyond high fun j from_ upto => before_ j (Nat.le_of_succ_le from_) upto

theorem disciplined_loop (attempts remaining : Nat) : ∀ i, i + (remaining + 1) = attempts →
    (Disciplined t (loopAt t url rounds false (remaining + 1) i).result (seen rounds i) (loopAt t url rounds false (remaining + 1) i).fetches ↔
      ∀ k, i ≤ k → k < attempts → (∀ j, i ≤ j → j ≤ k → ends url rounds j = false) → Smooth url rounds attempts k) := by
  induction remaining with
  | zero =>
    intro i total
    rw [forall_until (by omega)]
    cases last : ends url rounds i with
    | true => exact iff_of_true (disciplined_ends 0 last) (by simp)
    | false =>
      rw [disciplined_last i,refreshed_eq last,Smooth,if_neg (by omega)]
      constructor
      · exact fun stays _ => ⟨stays,fun k low high => absurd high (by omega)⟩
      · exact fun all => (all rfl).1
  | succ remaining later =>
    intro i total
    rw [forall_until (by omega)]
    cases last : ends url rounds i with
    | true => exact iff_of_true (disciplined_ends (remaining + 1) last) (by simp)
    | false =>
      rw [disciplined_goes remaining last,later (i + 1) (by omega),Smooth,if_pos (by omega)]
      constructor
      · rintro ⟨fine,quiet,rest⟩ -
        exact ⟨⟨quiet,fine⟩,rest⟩
      · intro all
        obtain ⟨⟨quiet,fine⟩,rest⟩ := all rfl
        exact ⟨fine,quiet,rest⟩

/-- A call is as promised exactly when it does not begin under an aborted signal and its rounds go on smoothly. -/
theorem kept_iff (t : String → String) (url : List Char) (rounds : Nat → Round) (retries : Int) (aborted : Bool) :
    Kept t retries (api t url rounds retries aborted) ↔
      (0 ≤ retries → aborted = false) ∧ Steady url rounds (retries + 1).toNat := by
  unfold Kept api
  have bounded : (loop t url rounds (retries + 1).toNat 0 false aborted).fetches.length ≤ (retries + 1).toNat + 1 :=
    (length_loop _ _ _ _).trans (Nat.le_succ _)
  rw [and_iff_right bounded]
  rcases Int.lt_or_le retries 0 with none_ | some_
  · have zero : (retries + 1).toNat = 0 := by omega
    rw [zero]
    exact iff_of_true trivial ⟨fun some_ => absurd some_ (by omega),fun i few => absurd few (Nat.not_lt_zero i)⟩
  · obtain ⟨remaining,attempts⟩ : ∃ remaining, (retries + 1).toNat = remaining + 1 := ⟨retries.toNat,by omega⟩
    rw [attempts]
    cases aborted with
    | true => exact iff_of_false (not_disciplined_aborted remaining 0 false) fun calm => by cases calm.1 some_
    | false =>
      have all := @disciplined_loop t url rounds (remaining + 1) remaining 0 (Nat.zero_add _)
      simp only [loopAt,seen,Bool.and_false,Nat.zero_le,true_implies] at all
      rw [all]
      exact (and_iff_right fun _ => rfl).symm

/-- A POST that is not found is sent a second time. -/
theorem not_kept_retry : ¬∀ t url rounds retries aborted, Kept t retries (api t url rounds retries aborted) := by
  intro kept
  have twice := (kept (fun key => key) "/api/chat".toList (fun _ => ⟨.ok ⟨404,.ok ⟨"Not found","","","",.error .timedOut⟩⟩,false,none⟩) 1 false).2.1
  have alone := (twice (by decide)).1
  cases alone

end

end Vigile.ApiClient
