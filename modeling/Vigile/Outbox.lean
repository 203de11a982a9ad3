import Vigile.Interleaving
import Vigile.OrderedMap
import Vigile.Python
import Mathlib.Data.List.Sort
import Mathlib.Data.Rat.Init

/-! The transactional outbox. A `transaction` block with its statement is one action; a sweep
belongs to the run of the master that started it, and a restart ends every sweep of the run
before. Identifiers are numbered as they are drawn. -/
namespace Vigile.Outbox

open Interleaving Python

inductive Stage where
  | pending
  | claimed
  | processed
  deriving DecidableEq

structure Row where
  eventType : String
  aggregateId : Option String
  aggregateType : String
  payloadJson : String
  createdAt : ℚ
  stage : Stage
  processedAt : Option ℚ
  retryCount : Nat
  error : Option String
  deriving DecidableEq

structure Entry where
  id : Nat
  row : Row
  deriving DecidableEq

structure Store where
  rows : OrderedMap Nat Row
  issued : Nat
  epoch : Nat

def Store.pending (s : Store) : List Entry :=
  (s.rows.filter fun _ row => row.stage = .pending).entries.map fun entry => ⟨entry.1,entry.2⟩

def Entry.notAfter (first second : Entry) : Prop := first.row.createdAt ≤ second.row.createdAt

instance : DecidableRel Entry.notAfter := fun first second => inferInstanceAs (Decidable (first.row.createdAt ≤ second.row.createdAt))

def Store.batch (s : Store) (limit : Nat) : List Entry := (s.pending.insertionSort Entry.notAfter).take limit

def Store.update (s : Store) (id : Nat) (change : Row → Row) : Store :=
  {s with rows := s.rows.modify fun key row => if key = id then change row else row}

inductive Action (η : Type) where
  | select (epoch limit : Nat)
  | claim (epoch : Nat) (entry : Entry)
  | handle (epoch : Nat) (handler : η) (entry : Entry)
  | readRetryCount (epoch id : Nat)
  | markProcessed (epoch id : Nat)
  | deadLetter (epoch id retry : Nat) (error : String)
  | markRetry (epoch id retry : Nat) (error : String)
  | publish (epoch : Nat) (eventType : String) (aggregateId : Option String) (aggregateType payloadJson : String)
  | cleanup (epoch : Nat) (before : ℚ)
  | restart

variable {η : Type}

def Action.epoch? : Action η → Option Nat
  | .select epoch _ | .claim epoch _ | .handle epoch _ _ | .readRetryCount epoch _ | .markProcessed epoch _
  | .deadLetter epoch _ _ _ | .markRetry epoch _ _ _ | .publish epoch _ _ _ _ | .cleanup epoch _ => some epoch
  | .restart => none

abbrev Reply : Action η → Type
  | .select _ _ => List Entry
  | .claim _ _ => Bool
  | .readRetryCount _ _ | .publish _ _ _ _ _ | .cleanup _ _ | .restart => Nat
  | .handle _ _ _ | .markProcessed _ _ | .deadLetter _ _ _ _ | .markRetry _ _ _ _ => Unit

abbrev Task (η α : Type) := Prog (Action η) Reply PyError α

structure Choice where
  fault : Fault
  now : ℚ
  deriving DecidableEq

def published (eventType : String) (aggregateId : Option String) (aggregateType payloadJson : String) (now : ℚ) : Row :=
  ⟨eventType,aggregateId,aggregateType,payloadJson,now,.pending,none,0,none⟩

def expired (before : ℚ) (row : Row) : Bool := row.stage = .processed ∧ row.processedAt.any (· < before)

def released (row : Row) : Row := if row.stage = .claimed then {row with stage := .pending} else row

/-- A handler works on other tables. -/
def answer (s : Store) (now : ℚ) : (action : Action η) → Store × Except PyError (Reply action)
  | .select _ limit => (s,.ok (s.batch limit))
  | .claim _ entry =>
    if (s.rows.get? entry.id).any (·.stage = .pending) then
      (s.update entry.id fun row => {row with stage := .claimed},.ok true)
    else (s,.ok false)
  | .handle _ _ _ => (s,.ok ())
  | .readRetryCount _ id => (s,.ok (((s.rows.get? id).map Row.retryCount).getD 0))
  | .markProcessed _ id => (s.update id fun row => {row with stage := .processed,processedAt := some now},.ok ())
  | .deadLetter _ id retry error =>
    (s.update id fun row =>
      {row with stage := .processed,processedAt := some now,retryCount := retry,error := some error},.ok ())
  | .markRetry _ id retry error =>
    (s.update id fun row =>
      {row with stage := .pending,retryCount := retry,error := some error,processedAt := some now},.ok ())
  | .publish _ eventType aggregateId aggregateType payloadJson =>
    ({s with
      rows := s.rows.set s.issued (published eventType aggregateId aggregateType payloadJson now)
      issued := s.issued + 1},.ok s.issued)
  | .cleanup _ before =>
    ({s with rows := s.rows.filter fun _ row => !expired before row},
      .ok (s.rows.filter fun _ row => expired before row).entries.length)
  | .restart => ({s with rows := s.rows.modify fun _ row => released row,epoch := s.epoch + 1},.ok (s.epoch + 1))

/-- What belongs to an earlier run of the master does not happen any more. -/
def exec (action : Action η) (choice : Choice) (s : Store) : Option (Store × Except PyError (Reply action)) :=
  match action.epoch? with
  | none => some (choice.fault.strike {s with epoch := s.epoch + 1} (answer s choice.now action))
  | some epoch => if epoch = s.epoch then some (choice.fault.strike s (answer s choice.now action)) else none

abbrev select (epoch limit : Nat) : Task η (List Entry) := Prog.perform (Action.select epoch limit)
abbrev claim (epoch : Nat) (entry : Entry) : Task η Bool := Prog.perform (Action.claim epoch entry)
abbrev handle (epoch : Nat) (handler : η) (entry : Entry) : Task η Unit := Prog.perform (Action.handle epoch handler entry)
abbrev readRetryCount (epoch id : Nat) : Task η Nat := Prog.perform (Action.readRetryCount epoch id)
abbrev markProcessed (epoch id : Nat) : Task η Unit := Prog.perform (Action.markProcessed epoch id)
abbrev restart : Task η Nat := Prog.perform Action.restart

/-! The outbox of one master: its handlers by event type, the names they have, if any, and
its cap on retries. -/

structure Registry (η : Type) where
  handlers : String → List η
  name : η → Option String
  maxRetries : Int

variable (registry : Registry η)

def Registry.handlersFor (eventType : String) : List η := registry.handlers eventType ++ registry.handlers "*"

def runHandler (epoch : Nat) (handler : η) (entry : Entry) : Task η (Option String) :=
  tryCatch (do
    handle epoch handler entry
    pure none)
  fun error =>
    if error.isException then
      match registry.name handler with
      | some name => pure (some (name ++ ": handler raised"))
      | none => throw (.attributeError "__name__")
    else throw error

def runHandlers (epoch : Nat) (entry : Entry) : List η → Option String → Task η (Option String)
  | [],error => pure error
  | handler :: rest,error => do
    let failed ← runHandler registry epoch handler entry
    runHandlers epoch entry rest (failed <|> error)

/-- `_mark_processed` with `success=False`. -/
def markFailed (epoch id : Nat) (error : String) : Task η Unit := do
  let currentRetry ← readRetryCount epoch id
  if registry.maxRetries ≤ currentRetry + 1 then
    Prog.perform (Action.deadLetter epoch id (currentRetry + 1)
      (error ++ " | PERMANENTLY FAILED after " ++ toString registry.maxRetries ++ " retries"))
  else Prog.perform (Action.markRetry epoch id (currentRetry + 1) error)

def dispatch (epoch : Nat) (entry : Entry) : Task η Bool := do
  match ← runHandlers registry epoch entry (registry.handlersFor entry.row.eventType) none with
  | none =>
    markProcessed epoch entry.id
    pure true
  | some error =>
    markFailed registry epoch entry.id error
    pure false

def dispatchAll (epoch : Nat) : List Entry → Nat → Task η Nat
  | [],count => pure count
  | entry :: rest,count => do
    if ← claim epoch entry then
      if ← dispatch registry epoch entry then
        dispatchAll epoch rest (count + 1)
      else dispatchAll epoch rest count
    else dispatchAll epoch rest count

def processPending (epoch limit : Nat) : Task η Nat := do
  let rows ← select epoch limit
  dispatchAll registry epoch rows 0

/-- At startup, in the new run; its failure is logged. -/
def replayUnprocessed (limit : Nat) : Task η Unit :=
  tryCatch (do
    let epoch ← restart
    let _ ← processPending registry epoch limit
    pure ())
  fun error => if error.isException then pure () else throw error

inductive Client where
  | sweep (epoch limit : Nat)
  | startup (limit : Nat)
  | cleanup (epoch : Nat) (before : ℚ)
  | publish (epoch : Nat) (eventType : String) (aggregateId : Option String) (aggregateType payloadJson : String)

def Client.program : Client → Task η Unit
  | .sweep epoch limit => do
    let _ ← processPending registry epoch limit
    pure ()
  | .startup limit => replayUnprocessed registry limit
  | .cleanup epoch before => do
    let _ ← Prog.perform (Action.cleanup epoch before)
    pure ()
  | .publish epoch eventType aggregateId aggregateType payloadJson => do
    let _ ← Prog.perform (Action.publish epoch eventType aggregateId aggregateType payloadJson)
    pure ()

variable {τ : Type}

def start (clients : τ → Client) : Config τ Store (Action η) Reply PyError Unit :=
  ⟨⟨.empty,0,0⟩,fun task => (clients task).program registry⟩

abbrev Step (τ η : Type) := Transition τ Choice Store (Action η) Reply PyError

end Vigile.Outbox
