import Mathlib.Data.Rat.Defs

/-! What the modelled code relies on of Python: the exceptions it raises or tells
apart, JSON values with their truth, and faults of an awaited call. -/
namespace Vigile.Python

inductive PyError where
  | valueError (message : String)
  | runtimeError (message : String)
  | timeoutError (message : String)
  | attributeError (message : String)
  | operationalError (message : String)
  | integrityError (message : String)
  | httpException (status : Nat) (detail : String)
  | webSocketDisconnect (code : Nat)
  | enrollmentError (code : Nat) (detail : String)
  | proposalNotFoundError (message : String)
  | proposalNotApprovedError (message : String)
  | alreadyDispatchedError (message : String)
  /-- `asyncio.CancelledError`, which `except Exception` does not catch. -/
  | cancelledError
  | otherException (message : String)
  deriving DecidableEq

namespace PyError

def isException : PyError → Bool
  | .cancelledError => false
  | _ => true

/-- `str(exc)`, as far as the code reads it. -/
def text : PyError → String
  | .valueError m | .runtimeError m | .timeoutError m | .attributeError m | .operationalError m
  | .integrityError m | .proposalNotFoundError m | .proposalNotApprovedError m
  | .alreadyDispatchedError m | .otherException m => m
  | .httpException _ detail | .enrollmentError _ detail => detail
  | .webSocketDisconnect _ | .cancelledError => ""

end PyError

inductive Json where
  | null
  | bool (value : Bool)
  | num (value : ℚ)
  | str (text : String)
  | array (items : List Json)
  | object (fields : List (String × Json))

/-- A `dict` with string keys. -/
abbrev Fields := List (String × Json)

namespace Json

def truthy : Json → Bool
  | null => false
  | bool value => value
  | num value => value ≠ 0
  | str text => text ≠ ""
  | array items => !items.isEmpty
  | object fields => !fields.isEmpty

def or (left right : Json) : Json := if left.truthy then left else right

/-- A string column or argument that may be `None`. -/
def ofText : Option String → Json
  | none => null
  | some text => str text

end Json

def Fields.get (fields : Fields) (key : String) : Json := (fields.lookup key).getD .null

/-- `str.isspace` of one character. -/
def isSpace (c : Char) : Bool :=
  let n := c.toNat
  (9 ≤ n && n ≤ 13) || (28 ≤ n && n ≤ 32) || n == 133 || n == 160 || n == 5760 ||
    (8192 ≤ n && n ≤ 8202) || n == 8232 || n == 8233 || n == 8239 || n == 8287 || n == 12288

def strip (text : String) : String :=
  String.ofList ((text.toList.dropWhile isSpace).reverse.dropWhile isSpace).reverse

variable {c : Char} {text : String} {α σ : Type} {fault : Fault}

theorem mem_of_mem_strip (inside : c ∈ (strip text).toList) : c ∈ text.toList := by
  unfold strip at inside
  rw [String.toList_ofList,List.mem_reverse] at inside
  exact List.dropWhile_subset _ (List.mem_reverse.mp (List.dropWhile_subset _ inside))

/-- A character that is no space is in a text as it is in the stripped text. -/
theorem mem_strip (solid : isSpace c = false) : c ∈ (strip text).toList ↔ c ∈ text.toList := by
  have front (cs : List Char) : c ∈ cs.dropWhile isSpace ↔ c ∈ cs := by
    induction cs with
    | nil => rfl
    | cons d cs ih =>
      rw [List.dropWhile_cons]
      split
      · rename_i space
        have other : c ≠ d := fun same => by simp [← same,solid] at space
        rw [ih,List.mem_cons,or_iff_right other]
      · rfl
  unfold strip
  simp [front]

def contains (needle text : String) : Bool :=
  text.toList.tails.any fun rest => needle.toList.isPrefixOf rest

/-- How an awaited call can go wrong: without effect, or after it. A task that is
cancelled while its statement runs is the second kind. -/
inductive Fault where
  | none
  | before (error : PyError)
  | after (error : PyError)
  deriving DecidableEq

def Fault.error? : Fault → Option PyError
  | .none => Option.none
  | .before error | .after error => some error

def Fault.takesEffect : Fault → Bool
  | .before _ => false
  | _ => true

/-- The outcome of a call whose undisturbed outcome is `done`. -/
def Fault.strike {σ α : Type} (fault : Fault) (s : σ) (done : σ × Except PyError α) :
    σ × Except PyError α :=
  match fault with
  | .none => done
  | .before error => (s,.error error)
  | .after error => (done.1,.error error)

@[simp] theorem strike_none (s : σ) (done : σ × Except PyError α) :
    Fault.none.strike s done = done := rfl

@[simp] theorem strike_before (s : σ) (done : σ × Except PyError α) :
    (Fault.before e).strike s done = (s,.error e) := rfl

@[simp] theorem strike_after (s : σ) (done : σ × Except PyError α) :
    (Fault.after e).strike s done = (done.1,.error e) := rfl

theorem strike_fst (fault : Fault) (s : σ) (done : σ × Except PyError α) :
    (fault.strike s done).1 = if fault.takesEffect then done.1 else s := by
  cases fault <;> rfl

/-- A struck call leaves the state it met or the one it meant to reach. -/
theorem strike_state (fault : Fault) (s : σ) (done : σ × Except PyError α) :
    (fault.strike s done).1 = s ∨ (fault.strike s done).1 = done.1 := by
  cases fault <;> simp

/-- A call that changes nothing changes nothing when it is struck. -/
theorem strike_fixed {s : σ} {done : σ × Except PyError α}
    (fixed : done.1 = s) : (fault.strike s done).1 = s := by
  rcases strike_state fault s done with same | same
  · exact same
  · exact same.trans fixed

/-- A call that answers has had its effect and no fault. -/
theorem strike_ok {s s' : σ} {done : σ × Except PyError α} {reply : α}
    (h : fault.strike s done = (s',.ok reply)) : fault = .none ∧ done = (s',.ok reply) := by
  cases fault with
  | none => exact ⟨rfl,h⟩
  | before error | after error => simp at h

theorem exists_ok {ε : Type} {outcome : Except ε α} (ok : outcome.isOk = true) : ∃ value, outcome = .ok value := by
  cases outcome with
  | error error => simp [Except.isOk,Except.toBool] at ok
  | ok value => exact ⟨value,rfl⟩

end Vigile.Python
