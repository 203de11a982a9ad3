import Mathlib.Algebra.Group.Nat.Defs
import Mathlib.Data.List.Induction

/-! The loop `RunWithBackoff` of the worker, with an event for each of its waits: an attempt to
connect, the operational phase, the pause after a failure. -/
namespace Vigile.ConnectBackoff

/-- In seconds. -/
def initialBackoff : Nat := 1
def maxBackoff : Nat := 300

/-- The strings of an ENROLLMENT_SUCCESS. -/
structure Success where
  workerToken : Option String
  nodeID : Option String

inductive Point where
  | connecting
  | pausing
  | operational
  | stopped
  /-- "no worker token — giving up" -/
  | gaveUp
  /-- "no worker token available", or its file cannot be read -/
  | noToken
  deriving DecidableEq

structure WorkerConn where
  point : Point
  workerToken : String
  nodeID : String
  enrolled : Bool
  backoff : Nat

def newWorkerConn (workerToken : String) : WorkerConn := ⟨.connecting,workerToken,"",false,initialBackoff⟩

inductive Event where
  /-- `Connect`, with the ENROLLMENT_SUCCESS unless it fails before that -/
  | connect (success : Option Success)
  | elapsed
  /-- `RunOperational` returns; what `readWorkerToken` then reads, or that it fails. -/
  | ended (stored : Option String)
  /-- A rotation, also one that an intent of an earlier session makes late. -/
  | rotation (newToken : String)
  /-- The loop sees that it is to stop. -/
  | stop

/-- `runEnrollment` takes the token before it looks for a node. -/
def WorkerConn.connect (wc : WorkerConn) (success : Option Success) : WorkerConn :=
  let workerToken := (success.bind Success.workerToken).getD wc.workerToken
  let nodeID := (success.bind Success.nodeID).getD wc.nodeID
  if success = none ∨ nodeID = "" then
    {wc with workerToken, nodeID, point := if wc.enrolled && workerToken == "" then .gaveUp else .pausing}
  else ⟨.operational,workerToken,nodeID,true,initialBackoff⟩

def WorkerConn.reconnect (wc : WorkerConn) (stored : Option String) : WorkerConn :=
  if wc.workerToken = "" then
    match stored with
    | none | some "" => {wc with point := .noToken}
    | some wt => {wc with workerToken := wt, backoff := initialBackoff, point := .connecting}
  else {wc with backoff := initialBackoff, point := .connecting}

def step (wc : WorkerConn) : Event → Option WorkerConn
  | .connect success => if wc.point = .connecting then some (wc.connect success) else none
  | .elapsed =>
    if wc.point = .pausing then some {wc with backoff := min (wc.backoff * 2) maxBackoff, point := .connecting}
    else none
  | .ended stored => if wc.point = .operational then some (wc.reconnect stored) else none
  | .rotation newToken => some (if newToken = "" then wc else {wc with workerToken := newToken})
  | .stop => if wc.point = .connecting ∨ wc.point = .pausing then some {wc with point := .stopped} else none

def run (workerToken : String) (events : List Event) : Option WorkerConn :=
  events.foldlM step (newWorkerConn workerToken)

/-- The failures since the start or the last session. -/
def failures (events : List Event) : Nat :=
  events.foldl (fun k event => match event with
    | .elapsed => k + 1
    | .ended _ => 0
    | _ => k) 0

/-- The master sent a success without a token. -/
def Blank (events : List Event) : Prop :=
  ∃ success : Success, .connect (some success) ∈ events ∧ success.workerToken.getD "" = ""

structure Kept (events : List Event) (wc : WorkerConn) : Prop where
  paced : wc.point = .connecting ∨ wc.point = .pausing →
    wc.backoff = min (initialBackoff * 2 ^ failures events) maxBackoff
  /-- Between sessions an enrolled worker has a token. -/
  token : wc.enrolled = true → wc.point = .connecting ∨ wc.point = .pausing → wc.workerToken ≠ ""
  blank : wc.point = .operational → wc.workerToken = "" → Blank events
  ending : wc.point = .gaveUp ∨ wc.point = .noToken → Blank events

section
variable {events : List Event} {wc : WorkerConn}

theorem Blank.more (blank : Blank events) (event : Event) : Blank (events ++ [event]) := by
  obtain ⟨success,member,empty⟩ := blank
  exact ⟨success,List.mem_append_left _ member,empty⟩

theorem failures_concat (event : Event) : failures (events ++ [event]) = match event with
    | .elapsed => failures events + 1
    | .ended _ => 0
    | _ => failures events := by
  simp only [failures,List.foldl_append,List.foldl_cons,List.foldl_nil]

/-- A worker that had a token has none after a success that emptied it. -/
theorem blank_connect {success : Option Success} (told : success ≠ none ∨ wc.workerToken ≠ "")
    (empty : (success.bind Success.workerToken).getD wc.workerToken = "") : Blank (events ++ [.connect success]) := by
  cases success with
  | none => exact absurd empty (told.resolve_left (by simp))
  | some success =>
    refine ⟨success,by simp,?_⟩
    cases field : success.workerToken with
    | none => rfl
    | some workerToken => simpa [field] using empty

theorem kept_connect (kept : Kept events wc) (here : wc.point = .connecting) (success : Option Success) :
    Kept (events ++ [.connect success]) (wc.connect success) := by
  have paced := kept.paced (.inl here)
  unfold WorkerConn.connect
  dsimp only
  split
  · split
    · have out := ‹_ = true›
      simp only [Bool.and_eq_true,beq_iff_eq] at out
      exact ⟨by simp,by simp,by simp,fun _ => blank_connect (.inr (kept.token out.1 (.inl here))) out.2⟩
    · refine ⟨fun _ => ?_,fun enrolled _ empty => ‹¬_› (by simp_all),by simp,by simp⟩
      rw [failures_concat]
      exact paced
  · have told := (not_or.mp ‹¬_›).1
    exact ⟨by simp,by simp,fun _ empty => blank_connect (.inl told) empty,by simp⟩

theorem kept_reconnect (kept : Kept events wc) (here : wc.point = .operational) (stored : Option String) :
    Kept (events ++ [.ended stored]) (wc.reconnect stored) := by
  have paced : initialBackoff = min (initialBackoff * 2 ^ failures (events ++ [.ended stored])) maxBackoff := by
    rw [failures_concat]
    rfl
  unfold WorkerConn.reconnect
  split
  · have blank := (kept.blank here ‹_›).more (.ended stored)
    split
    · exact ⟨by simp,by simp,by simp,fun _ => blank⟩
    · exact ⟨by simp,by simp,by simp,fun _ => blank⟩
    · exact ⟨fun _ => paced,by simp_all,by simp,by simp⟩
  · exact ⟨fun _ => paced,fun _ _ => ‹_›,by simp,by simp⟩

theorem step_kept (kept : Kept events wc) {event : Event} {next : WorkerConn} (stepped : step wc event = some next) :
    Kept (events ++ [event]) next := by
  cases event with
  | connect success =>
    obtain ⟨here,⟨⟩⟩ := Option.ite_none_right_eq_some.mp stepped
    exact kept_connect kept here success
  | elapsed =>
    obtain ⟨here,⟨⟩⟩ := Option.ite_none_right_eq_some.mp stepped
    refine ⟨fun _ => ?_,fun enrolled _ => kept.token enrolled (.inr here),by simp,by simp⟩
    change min (wc.backoff * 2) maxBackoff = _
    rw [failures_concat,kept.paced (.inr here)]
    simp only [initialBackoff,maxBackoff,pow_succ]
    omega
  | ended stored =>
    obtain ⟨here,⟨⟩⟩ := Option.ite_none_right_eq_some.mp stepped
    exact kept_reconnect kept here stored
  | rotation newToken =>
    obtain rfl := Option.some.inj stepped
    have steady : failures (events ++ [.rotation newToken]) = failures events := failures_concat _
    have paced := kept.paced
    rw [← steady] at paced
    split
    · exact ⟨paced,kept.token,fun here empty => (kept.blank here empty).more _,
        fun ending => (kept.ending ending).more _⟩
    · exact ⟨paced,fun _ _ => ‹_›,fun _ empty => absurd empty ‹_›,
        fun ending => (kept.ending ending).more _⟩
  | stop =>
    obtain ⟨_,⟨⟩⟩ := Option.ite_none_right_eq_some.mp stepped
    exact ⟨by simp,by simp,by simp,by simp⟩

end

theorem run_kept {workerToken : String} {events : List Event} {wc : WorkerConn}
    (ran : run workerToken events = some wc) : Kept events wc := by
  induction events using List.reverseRecOn generalizing wc with
  | nil =>
    obtain rfl := Option.some.inj ran
    exact ⟨fun _ => rfl,by simp [newWorkerConn],by simp [newWorkerConn],by simp [newWorkerConn]⟩
  | append_singleton events event ih =>
    rw [run,List.foldlM_append] at ran
    obtain ⟨before,reached,stepped⟩ := Option.bind_eq_some_iff.mp ran
    exact step_kept (ih reached) (by simpa using stepped)

end Vigile.ConnectBackoff
