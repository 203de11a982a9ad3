import Vigile.Outbox

/-! How far a task of the outbox is, and what the history of a run says of it. -/
namespace Vigile.Outbox

open Interleaving Python

variable {η τ : Type}

inductive Mode (η : Type) where
  | idle
  | looping (epoch : Nat) (rest : List Entry)
  /-- The claimed entry with the handlers that are still to run. -/
  | dispatching (epoch : Nat) (entry : Entry) (left : List η) (failed : Bool) (rest : List Entry)
  | reporting (epoch : Nat) (entry : Entry) (retry : Nat) (rest : List Entry)
  | aborted

def Mode.holding : Mode η → Option (Nat × Entry)
  | .dispatching epoch entry _ _ _ | .reporting epoch entry _ _ => some (epoch,entry)
  | _ => none

/-- The entries of the task's batch that it has not finished. -/
def Mode.flight (epoch : Nat) : Mode η → List Entry
  | .looping own rest => if own = epoch then rest else []
  | .dispatching own entry _ _ rest | .reporting own entry _ rest => if own = epoch then entry :: rest else []
  | _ => []

def Mode.ended : Mode η → Prop
  | .idle | .aborted => True
  | .looping _ rest => rest = []
  | _ => False

section
variable [DecidableEq η] (registry : Registry η)

def rule : Prog.Protocol (Action η) Reply PyError (Mode η)
  | .select epoch _,.ok entries,.idle => some (.looping epoch entries)
  | .select _ _,.error _,.idle => some .idle
  | .claim epoch entry,reply,.looping own (head :: rest) =>
    if epoch = own ∧ entry = head then
      match reply with
      | .ok true => some (.dispatching own head (registry.handlersFor head.row.eventType) false rest)
      | .ok false => some (.looping own rest)
      | .error _ => some .aborted
    else none
  | .handle epoch handler entry,reply,.dispatching own head (next :: left) failed rest =>
    if epoch = own ∧ handler = next ∧ entry = head then
      match reply with
      | .ok _ => some (.dispatching own head left failed rest)
      | .error error =>
        if error.isException = true ∧ (registry.name next).isSome = true then some (.dispatching own head left true rest)
        else some .aborted
    else none
  | .readRetryCount epoch id,reply,.dispatching own head [] true rest =>
    if epoch = own ∧ id = head.id then
      match reply with
      | .ok retry => some (.reporting own head retry rest)
      | .error _ => some .aborted
    else none
  | .markProcessed epoch id,reply,.dispatching own head [] false rest =>
    if epoch = own ∧ id = head.id then
      match reply with
      | .ok _ => some (.looping own rest)
      | .error _ => some .aborted
    else none
  | .deadLetter epoch id retry _,reply,.reporting own head known rest =>
    if epoch = own ∧ id = head.id ∧ retry = known + 1 ∧ registry.maxRetries ≤ known + 1 then
      match reply with
      | .ok _ => some (.looping own rest)
      | .error _ => some .aborted
    else none
  | .markRetry epoch id retry _,reply,.reporting own head known rest =>
    if epoch = own ∧ id = head.id ∧ retry = known + 1 ∧ ¬registry.maxRetries ≤ known + 1 then
      match reply with
      | .ok _ => some (.looping own rest)
      | .error _ => some .aborted
    else none
  | .publish _ _ _ _ _,_,.idle | .cleanup _ _,_,.idle | .restart,_,.idle => some .idle
  | _,_,_ => none

variable {registry} {epoch : Nat} {entry : Entry} {rest : List Entry}

def HandlerRan (epoch : Nat) (entry : Entry) (left : List η) (failed : Bool) (rest : List Entry)
    (result : Except PyError (Option String)) (mode : Mode η) : Prop :=
  match result with
  | .ok error => mode = .dispatching epoch entry left (error.isSome || failed) rest
  | .error _ => mode = .aborted

theorem runHandler_follows (handler : η) (left : List η) (failed : Bool) :
    (runHandler registry epoch handler entry).Follows (rule registry) (.dispatching epoch entry (handler :: left) failed rest)
      (HandlerRan epoch entry left failed rest) := by
  have handled : (do handle epoch handler entry; pure none : Task η (Option String)).Follows (rule registry)
      (.dispatching epoch entry (handler :: left) failed rest) fun result mode =>
        match result with
        | .ok error => error = none ∧ mode = .dispatching epoch entry left failed rest
        | .error error =>
          if error.isException = true ∧ (registry.name handler).isSome = true then
            mode = .dispatching epoch entry left true rest
          else mode = .aborted := by
    intro reply
    cases reply with
    | ok _ => exact ⟨_,if_pos ⟨rfl,rfl,rfl⟩,rfl,rfl⟩
    | error error =>
      by_cases reported : error.isException = true ∧ (registry.name handler).isSome = true
      · refine ⟨.dispatching epoch entry left true rest,?_,?_⟩
        · exact (if_pos ⟨rfl,rfl,rfl⟩).trans (if_pos reported)
        · change if _ then _ else _
          rw [if_pos reported]
      · refine ⟨.aborted,?_,?_⟩
        · exact (if_pos ⟨rfl,rfl,rfl⟩).trans (if_neg reported)
        · change if _ then _ else _
          rw [if_neg reported]
  refine .attempt handled ?_ ?_
  · rintro error _ ⟨rfl,rfl⟩
    rfl
  · intro error mode raised
    simp only at raised
    cases exception : error.isException with
    | false =>
      simp only [exception,Bool.false_eq_true,false_and,if_false] at raised
      subst raised
      simp only [Bool.false_eq_true,if_false]
      rfl
    | true =>
      cases name : registry.name handler with
      | none =>
        simp only [exception,name,Option.isSome_none,Bool.false_eq_true,and_false,if_false] at raised
        subst raised
        simp only [if_true]
        rfl
      | some text =>
        simp only [exception,name,Option.isSome_some,and_self,if_true] at raised
        subst raised
        simp only [if_true]
        rfl

theorem runHandlers_follows (left : List η) (error : Option String) :
    (runHandlers registry epoch entry left error).Follows (rule registry)
      (.dispatching epoch entry left error.isSome rest) (HandlerRan epoch entry [] false rest) := by
  induction left generalizing error with
  | nil =>
    unfold runHandlers
    change Mode.dispatching epoch entry [] error.isSome rest = .dispatching epoch entry [] (error.isSome || false) rest
    rw [Bool.or_false]
  | cons handler left ih =>
    unfold runHandlers
    refine .bind (runHandler_follows handler left error.isSome) ?_ ?_
    · rintro failed _ rfl
      have flag : (failed.isSome || error.isSome) = (failed <|> error).isSome := by cases failed <;> simp
      rw [flag]
      exact ih _
    · rintro _ _ rfl
      rfl

def Attempted (epoch : Nat) (rest : List Entry) {α : Type} (result : Except PyError α) (mode : Mode η) : Prop :=
  match result with
  | .ok _ => mode = .looping epoch rest
  | .error _ => mode = .aborted

theorem markFailed_follows (error : String) : (markFailed registry epoch entry.id error).Follows (rule registry)
    (.dispatching epoch entry [] true rest) (Attempted epoch rest) := by
  have read : (readRetryCount epoch entry.id : Task η Nat).Follows (rule registry) (.dispatching epoch entry [] true rest)
      fun result mode => match result with
        | .ok retry => mode = .reporting epoch entry retry rest
        | .error _ => mode = .aborted := by
    refine .perform fun reply => ?_
    cases reply with
    | ok retry | error error => exact ⟨_,if_pos ⟨rfl,rfl⟩,rfl⟩
  refine .bind read ?_ ?_
  · rintro retry _ rfl
    split
    · rename_i cap
      refine .perform fun reply => ?_
      cases reply with
      | ok _ | error error => exact ⟨_,if_pos ⟨rfl,rfl,rfl,cap⟩,rfl⟩
    · rename_i below
      refine .perform fun reply => ?_
      cases reply with
      | ok _ | error error => exact ⟨_,if_pos ⟨rfl,rfl,rfl,below⟩,rfl⟩
  · rintro _ _ rfl
    rfl

theorem dispatch_follows : (dispatch registry epoch entry).Follows (rule registry)
    (.dispatching epoch entry (registry.handlersFor entry.row.eventType) false rest) (Attempted epoch rest) := by
  unfold dispatch
  refine .bind (runHandlers_follows _ none) ?_ ?_
  · rintro error _ rfl
    cases error with
    | none =>
      have marked : (markProcessed epoch entry.id : Task η Unit).Follows (rule registry)
          (.dispatching epoch entry [] false rest) (Attempted epoch rest) := by
        refine .perform fun reply => ?_
        cases reply with
        | ok _ | error error => exact ⟨_,if_pos ⟨rfl,rfl⟩,rfl⟩
      exact .bind marked (fun _ _ ended => ended) fun _ _ ended => ended
    | some error => exact .bind (markFailed_follows error) (fun _ _ ended => ended) fun _ _ ended => ended
  · rintro _ _ rfl
    rfl

theorem dispatchAll_follows (entries : List Entry) (count : Nat) :
    (dispatchAll registry epoch entries count).Follows (rule registry) (.looping epoch entries) (Attempted epoch []) := by
  induction entries generalizing count with
  | nil => exact rfl
  | cons entry rest ih =>
    unfold dispatchAll
    have claimed : (claim epoch entry : Task η Bool).Follows (rule registry) (.looping epoch (entry :: rest))
        fun result mode => match result with
          | .ok true => mode = .dispatching epoch entry (registry.handlersFor entry.row.eventType) false rest
          | .ok false => mode = .looping epoch rest
          | .error _ => mode = .aborted := by
      refine .perform fun reply => ?_
      rcases reply with error | (_ | _)
      all_goals exact ⟨_,if_pos ⟨rfl,rfl⟩,rfl⟩
    refine .bind claimed ?_ ?_
    · rintro (_ | _) _ rfl
      · exact ih count
      · refine .bind dispatch_follows ?_ ?_
        · rintro (_ | _) _ rfl
          · exact ih count
          · exact ih (count + 1)
        · rintro _ _ rfl
          rfl
    · rintro _ _ rfl
      rfl

theorem processPending_follows (epoch limit : Nat) : (processPending registry epoch limit).Follows (rule registry) .idle
    fun _ mode => mode.ended := by
  have selected : (select epoch limit : Task η (List Entry)).Follows (rule registry) .idle
      fun result mode => match result with
        | .ok entries => mode = .looping epoch entries
        | .error _ => mode = .idle := by
    refine .perform fun reply => ?_
    cases reply with
    | ok entries | error error => exact ⟨_,rfl,rfl⟩
  refine .bind selected ?_ ?_
  · rintro entries _ rfl
    refine (dispatchAll_follows entries 0).mono ?_
    rintro (error | count) _ rfl
    · trivial
    · rfl
  · rintro _ _ rfl
    trivial

theorem client_follows (client : Client) : (client.program registry).Follows (rule registry) .idle
    fun _ mode => mode.ended := by
  have swept : ∀ epoch limit, (do let _ ← processPending registry epoch limit; pure () : Task η Unit).Follows
      (rule registry) .idle fun _ mode => mode.ended := fun epoch limit =>
    Prog.Follows.bind (processPending_follows epoch limit) (fun _ _ ended => ended) fun _ _ ended => ended
  cases client with
  | sweep epoch limit => exact swept epoch limit
  | startup limit =>
    have restarted : (restart : Task η Nat).Follows (rule registry) .idle fun _ mode => mode = .idle :=
      Prog.Follows.perform fun reply => ⟨.idle,rfl,rfl⟩
    have replayed : (do let epoch ← restart; let _ ← processPending registry epoch limit; pure () : Task η Unit).Follows
        (rule registry) .idle fun _ mode => mode.ended := by
      refine .bind restarted ?_ ?_
      · rintro epoch _ rfl
        exact swept epoch limit
      · rintro _ _ rfl
        trivial
    refine .attempt replayed (fun _ _ ended => ended) fun error mode ended => ?_
    split
    · exact ended
    · exact ended
  | cleanup epoch before => exact fun reply => ⟨.idle,rfl,by cases reply <;> trivial⟩
  | publish epoch eventType aggregateId aggregateType payloadJson =>
    exact fun reply => ⟨.idle,rfl,by cases reply <;> trivial⟩

end

def Mode.reported (epoch : Nat) (rest : List Entry) : Except PyError Unit → Mode η
  | .ok _ => .looping epoch rest
  | .error _ => .aborted

@[simp] theorem reported_holding (epoch : Nat) (rest : List Entry) (reply : Except PyError Unit) :
    (Mode.reported epoch rest reply : Mode η).holding = none := by
  cases reply <;> rfl

section
variable [DecidableEq η] {registry : Registry η} {mode m : Mode η} {epoch id : Nat} {entry : Entry}

theorem select_allowed {limit : Nat} {reply : Except PyError (List Entry)}
    (allowed : rule registry (.select epoch limit) reply mode = some m) :
    mode = .idle ∧ (m = .idle ∨ ∃ entries, reply = .ok entries ∧ m = .looping epoch entries) := by
  cases mode with
  | idle =>
    refine ⟨rfl,?_⟩
    cases reply with
    | ok entries => exact .inr ⟨entries,rfl,(Option.some.inj allowed).symm⟩
    | error error => exact .inl (Option.some.inj allowed).symm
  | _ => cases reply <;> contradiction

theorem claim_allowed {reply : Except PyError Bool} (allowed : rule registry (.claim epoch entry) reply mode = some m) :
    ∃ rest, mode = .looping epoch (entry :: rest) ∧
      (reply = .ok true ∧ m = .dispatching epoch entry (registry.handlersFor entry.row.eventType) false rest ∨
        reply = .ok false ∧ m = .looping epoch rest ∨ (∃ error, reply = .error error) ∧ m = .aborted) := by
  cases mode with
  | looping own entries =>
    cases entries with
    | nil => contradiction
    | cons head rest =>
      obtain ⟨⟨rfl,rfl⟩,moved⟩ := Option.ite_none_right_eq_some.mp allowed
      refine ⟨rest,rfl,?_⟩
      rcases reply with error | (_ | _)
      · exact .inr (.inr ⟨⟨_,rfl⟩,(Option.some.inj moved).symm⟩)
      · exact .inr (.inl ⟨rfl,(Option.some.inj moved).symm⟩)
      · exact .inl ⟨rfl,(Option.some.inj moved).symm⟩
  | idle | dispatching | reporting | aborted => contradiction

variable {reply : Except PyError Unit} {error : String} {retry : Nat}

theorem handle_allowed {handler : η}
    (allowed : rule registry (.handle epoch handler entry) reply mode = some m) :
    ∃ left failed rest, mode = .dispatching epoch entry (handler :: left) failed rest ∧
      (reply = .ok () ∧ m = .dispatching epoch entry left failed rest ∨
        ∃ error, reply = .error error ∧
          (m = .dispatching epoch entry left true rest ∨
            ¬(error.isException = true ∧ (registry.name handler).isSome = true) ∧ m = .aborted)) := by
  cases mode with
  | dispatching own head handlers failed rest =>
    cases handlers with
    | nil => contradiction
    | cons next left =>
      obtain ⟨⟨rfl,rfl,rfl⟩,moved⟩ := Option.ite_none_right_eq_some.mp allowed
      refine ⟨left,failed,rest,rfl,?_⟩
      cases reply with
      | ok _ => exact .inl ⟨rfl,(Option.some.inj moved).symm⟩
      | error error =>
        refine .inr ⟨error,rfl,?_⟩
        simp only at moved
        split at moved
        · exact .inl (Option.some.inj moved).symm
        · rename_i unreported
          exact .inr ⟨unreported,(Option.some.inj moved).symm⟩
  | idle | looping | reporting | aborted => contradiction

theorem readRetryCount_allowed {reply : Except PyError Nat}
    (allowed : rule registry (.readRetryCount epoch id) reply mode = some m) :
    ∃ head rest, id = head.id ∧ mode = .dispatching epoch head [] true rest ∧
      ((∃ retry, reply = .ok retry ∧ m = .reporting epoch head retry rest) ∨
        (∃ error, reply = .error error) ∧ m = .aborted) := by
  cases mode with
  | dispatching own head handlers failed rest =>
    cases handlers with
    | cons => contradiction
    | nil =>
      cases failed with
      | false => contradiction
      | true =>
        obtain ⟨⟨rfl,rfl⟩,moved⟩ := Option.ite_none_right_eq_some.mp allowed
        refine ⟨head,rest,rfl,rfl,?_⟩
        cases reply with
        | ok retry => exact .inl ⟨retry,rfl,(Option.some.inj moved).symm⟩
        | error error => exact .inr ⟨⟨error,rfl⟩,(Option.some.inj moved).symm⟩
  | idle | looping | reporting | aborted => contradiction

theorem markProcessed_allowed
    (allowed : rule registry (.markProcessed epoch id) reply mode = some m) :
    ∃ head rest, id = head.id ∧ mode = .dispatching epoch head [] false rest ∧ m = .reported epoch rest reply := by
  cases mode with
  | dispatching own head handlers failed rest =>
    cases handlers with
    | cons => contradiction
    | nil =>
      cases failed with
      | true => contradiction
      | false =>
        obtain ⟨⟨rfl,rfl⟩,moved⟩ := Option.ite_none_right_eq_some.mp allowed
        refine ⟨head,rest,rfl,rfl,?_⟩
        cases reply <;> exact (Option.some.inj moved).symm
  | idle | looping | reporting | aborted => contradiction

theorem deadLetter_allowed
    (allowed : rule registry (.deadLetter epoch id retry error) reply mode = some m) :
    ∃ head known rest, id = head.id ∧ retry = known + 1 ∧ registry.maxRetries ≤ known + 1 ∧
      mode = .reporting epoch head known rest ∧ m = .reported epoch rest reply := by
  cases mode with
  | reporting own head known rest =>
    obtain ⟨⟨rfl,rfl,rfl,cap⟩,moved⟩ := Option.ite_none_right_eq_some.mp allowed
    refine ⟨head,known,rest,rfl,rfl,cap,rfl,?_⟩
    cases reply <;> exact (Option.some.inj moved).symm
  | idle | looping | dispatching | aborted => contradiction

theorem markRetry_allowed
    (allowed : rule registry (.markRetry epoch id retry error) reply mode = some m) :
    ∃ head known rest, id = head.id ∧ retry = known + 1 ∧ ¬registry.maxRetries ≤ known + 1 ∧
      mode = .reporting epoch head known rest ∧ m = .reported epoch rest reply := by
  cases mode with
  | reporting own head known rest =>
    obtain ⟨⟨rfl,rfl,rfl,below⟩,moved⟩ := Option.ite_none_right_eq_some.mp allowed
    refine ⟨head,known,rest,rfl,rfl,below,rfl,?_⟩
    cases reply <;> exact (Option.some.inj moved).symm
  | idle | looping | dispatching | aborted => contradiction

/-- The other actions are those of a task that does nothing else. -/
theorem idle_allowed {action : Action η} {reply : Except PyError (Reply action)}
    (other : action = .restart ∨ (∃ epoch before, action = .cleanup epoch before) ∨
      ∃ epoch eventType aggregateId aggregateType payloadJson,
        action = .publish epoch eventType aggregateId aggregateType payloadJson)
    (allowed : rule registry action reply mode = some m) : mode = .idle ∧ m = .idle := by
  cases mode with
  | idle =>
    rcases other with rfl | ⟨_,_,rfl⟩ | ⟨_,_,_,_,_,rfl⟩ <;> exact ⟨rfl,(Option.some.inj allowed).symm⟩
  | _ => rcases other with rfl | ⟨_,_,rfl⟩ | ⟨_,_,_,_,_,rfl⟩ <;> contradiction

end

end Vigile.Outbox
