import Vigile.ConnectionRegistry

/-! `_send_intent` calls and the INTENT_RESULT messages that answer them, between nodes that
connect and disconnect and clean-ups of stale intents. -/
namespace Vigile.IntentExchange

open Interleaving Python
open NodeManager (Act Outside)

variable {τ α : Type}

inductive Action where
  | manager (act : Act)
  /-- `SELECT dispatch_id FROM action_proposals WHERE intent_id = ?` -/
  | storedDispatch (intentId : String)

abbrev Reply : Action → Type
  | .manager act => act.Reply
  | .storedDispatch _ => Option String

abbrev Task (α : Type) := Prog Action Reply PyError α

structure Choice where
  outside : Outside
  stored : Option String
  deriving DecidableEq

/-- Whether a fault comes after the effect of a section under the lock: these end without
another await. -/
def late (act : Act) (fault : Fault) : Bool :=
  match act, fault with
  | .openIntent _ _ _, .after _ => true
  | _, _ => false

def exec (action : Action) (choice : Choice) (nm : NodeManager) :
    Option (NodeManager × Except PyError (Reply action)) :=
  match action with
  | .manager act => if late act choice.outside.fault then none else NodeManager.exec act choice.outside nm
  | .storedDispatch _ => some (choice.outside.fault.strike nm (nm,.ok choice.stored))

abbrev manager (act : Act) : Task act.Reply := Prog.perform (Action.manager act)

abbrev storedDispatch (intentId : String) : Task (Option String) := Prog.perform (Action.storedDispatch intentId)

/-- `stored_dispatch != dispatch_id`, where the message has a `dispatch_id`. -/
def correlates (intentId : String) (message : Fields) : Task Bool :=
  match message.get "dispatch_id" with
  | .null => pure true
  | .str dispatchId => do
    let stored ← storedDispatch intentId
    pure (stored = some dispatchId)
  | _ => do
    let _ ← storedDispatch intentId
    pure false

def intentIdOf (message : Fields) : Json := (message.lookup "intent_id").getD (.str "?")

/-- The INTENT_RESULT branch of the operational loop, to the resolved intent. -/
def intentResult (nodeId : String) (message : Fields) : Task Unit :=
  match intentIdOf message with
  | .str intentId => do
    let expected ← manager (.intentNode intentId)
    if expected = some nodeId then
      if ← correlates intentId message then
        manager (.resolveIntent intentId message)
  | .array _ => throw (.otherException "unhashable type: 'list'")
  | .object _ => throw (.otherException "unhashable type: 'dict'")
  | _ => pure ()

inductive Upkeep where
  | registerConnection (nodeId : String) (websocket : Socket) (remoteAddress : String)
  | unregisterConnection (nodeId : String)
  | popConnection (nodeId : String)
  | touchHeartbeat (nodeId : String)
  | cleanupStaleIntents
  | setDefaultIntentMaxAge (value : ℚ)

def Upkeep.act : Upkeep → Act
  | .registerConnection nodeId websocket remote => .registerConnection nodeId websocket remote
  | .unregisterConnection nodeId => .unregisterConnection nodeId
  | .popConnection nodeId => .popConnection nodeId
  | .touchHeartbeat nodeId => .touchHeartbeat nodeId
  | .cleanupStaleIntents => .cleanupStaleIntents
  | .setDefaultIntentMaxAge value => .setDefaultIntentMaxAge value

inductive Party where
  | call (nodeId : String) (intent : Intent) (timeout intentMaxAge : Option ℚ)
  | result (nodeId : String) (message : Fields)
  | upkeep (work : Upkeep)

def Party.program (floatText : ℚ → String) : Party → Task Fields
  | .call nodeId intent timeout intentMaxAge =>
    NodeManager.sendIntent manager floatText nodeId intent timeout intentMaxAge
  | .result nodeId message => do
    intentResult nodeId message
    pure []
  | .upkeep work => do
    let _ ← manager work.act
    pure []

def start (floatText : ℚ → String) (defaultTimeout defaultIntentMaxAge : ℚ) (parties : τ → Party) :
    Config τ NodeManager Action Reply PyError Fields :=
  ⟨NodeManager.started defaultTimeout defaultIntentMaxAge,fun task => (parties task).program floatText⟩

abbrev Step (τ : Type) := Transition τ Choice NodeManager Action Reply PyError

def Party.Calls (party : Party) (nodeId intentId : String) : Prop :=
  ∃ intent timeout intentMaxAge, party = .call nodeId intent timeout intentMaxAge ∧ intent.intentId = intentId

/-- No two calls use one intent id. -/
def Distinct (parties : τ → Party) : Prop :=
  ∀ task other nodeId nodeId' intentId, (parties task).Calls nodeId intentId → (parties other).Calls nodeId' intentId →
    task = other

section
variable [DecidableEq τ]

def futureOf (past : List (Step τ)) (task : τ) : Option Nat :=
  past.foldl (fun given tr =>
    if tr.task = task then
      match tr.action, tr.reply with
      | .manager (.openIntent _ _ _), .ok opened => some opened.2
      | _, _ => given
    else given) none

/-- The handler of a message resolved the future of a call. -/
def Answers (past : List (Step τ)) (handler task : τ) : Prop :=
  ∃ tr ∈ past, tr.task = handler ∧ ∃ intentId message future,
    tr.action = .manager (.resolveIntent intentId message) ∧
      tr.before.pendingIntents.get? intentId = some future ∧ futureOf past task = some future

/-- `send_json` raises or is cancelled while the intent has its entries. -/
def leavesBehind (tr : Step τ) : Bool :=
  match tr.action with
  | .manager (.sendIntent _ intent) => tr.choice.outside.fault.error?.isSome &&
    ((tr.before.pendingIntents.get? intent.intentId).isSome || (tr.before.intentMaxAge.get? intent.intentId).isSome)
  | _ => false

structure Exchanged (parties : τ → Party) (trace : List (Step τ))
    (cfg : Config τ NodeManager Action Reply PyError Fields) : Prop where
  /-- The three dictionaries have the same keys. -/
  coincide : ∀ intentId, (intentId ∈ cfg.shared.intentNodes.keys ↔ intentId ∈ cfg.shared.pendingIntents.keys) ∧
    (intentId ∈ cfg.shared.intentCreatedAt.keys ↔ intentId ∈ cfg.shared.pendingIntents.keys)
  /-- Every key belongs to a call that is under way. -/
  living : ∀ intentId, intentId ∈ cfg.shared.pendingIntents.keys ∨ intentId ∈ cfg.shared.intentMaxAge.keys →
    ∃ task nodeId, (parties task).Calls nodeId intentId ∧ (futureOf trace task).isSome = true ∧
      (cfg.tasks task).finished = false
  /-- A call returns what the node sent that it asked. -/
  returned : ∀ task nodeId intentId value, (parties task).Calls nodeId intentId → cfg.tasks task = .ret value →
    ∃ handler, parties handler = .result nodeId value ∧ Answers trace handler task
  /-- A message answers one call. -/
  once : ∀ handler task other, Answers trace handler task → Answers trace handler other → task = other

end

inductive Mode where
  | idle
  | opened (future : Nat)
  | sent (future : Nat)
  | answered (future : Nat) (value : Fields)
  | failed (future : Nat)
  | closed (future : Nat) (value : Option Fields)
  /-- `send_json` raised. -/
  | stuck (future : Nat)
  | checked (intentId : String)

namespace Mode

def future : Mode → Option Nat
  | .opened future | .sent future | .answered future _ | .failed future | .closed future _ | .stuck future => some future
  | .idle | .checked _ => none

def isOpen : Mode → Bool
  | .opened _ | .sent _ | .answered _ _ | .failed _ => true
  | _ => false

/-- The result that the party has got. -/
def value : Mode → Option Fields
  | .answered _ value => some value
  | .closed _ value => value
  | _ => none

end Mode

open Classical in
noncomputable def rule (party : Party) : Prog.Protocol Action Reply PyError Mode
  | .manager .defaultTimeout,_,mode => some mode
  | .storedDispatch _,_,mode => some mode
  | .manager (.openIntent nodeId intent _),reply,.idle =>
    if party.Calls nodeId intent.intentId then
      some (match reply with
        | .ok opened => .opened opened.2
        | .error _ => .idle)
    else none
  | .manager (.sendIntent _ intent),reply,.opened future =>
    if ∃ nodeId, party.Calls nodeId intent.intentId then
      some (match reply with
        | .ok _ => .sent future
        | .error _ => .stuck future)
    else none
  | .manager (.awaitFuture awaited),reply,.sent future =>
    if awaited = future then
      some (match reply with
        | .ok value => .answered future value
        | .error _ => .failed future)
    else none
  | .manager (.closeIntent intentId),_,.answered future value =>
    if ∃ nodeId, party.Calls nodeId intentId then some (.closed future (some value)) else none
  | .manager (.closeIntent intentId),_,.failed future =>
    if ∃ nodeId, party.Calls nodeId intentId then some (.closed future none) else none
  | .manager (.intentNode intentId),reply,.idle =>
    if ∃ nodeId message, party = .result nodeId message ∧ intentIdOf message = .str intentId ∧ reply = .ok (some nodeId) then
      some (.checked intentId)
    else some .idle
  | .manager (.resolveIntent intentId value),_,.checked checked =>
    if intentId = checked ∧ ∃ nodeId, party = .result nodeId value then some (.checked checked) else none
  | .manager (.registerConnection _ _ _),_,.idle | .manager (.unregisterConnection _),_,.idle
  | .manager (.popConnection _),_,.idle | .manager (.touchHeartbeat _),_,.idle
  | .manager .cleanupStaleIntents,_,.idle | .manager (.setDefaultIntentMaxAge _),_,.idle => some .idle
  | _,_,_ => none

/-- A party has ended with nothing pending; a call that returns got what it returns. -/
def Ended (party : Party) (result : Except PyError Fields) (mode : Mode) : Prop :=
  mode.isOpen = false ∧ ∀ value, result = .ok value → (∃ nodeId intentId, party.Calls nodeId intentId) →
    mode.value = some value

section
variable {party : Party}

def Waited (future : Nat) (result : Except PyError Fields) (mode : Mode) : Prop :=
  mode = match result with
    | .ok value => .answered future value
    | .error _ => .failed future

variable {nodeId : String}

variable {intent : Intent} {intentId : String}

/-- From the answer, whatever it is, a call goes on to its `finally`. -/
theorem answer_follows (floatText : ℚ → String) {limit : ℚ} {future : Nat}
    (calls : party.Calls nodeId intent.intentId) :
    ((tryCatch (manager (.awaitFuture future)) fun error =>
        match error with
        | .timeoutError _ => throw (.timeoutError
            s!"Node {nodeId} did not respond to intent {intent.intentId} within {floatText limit}s")
        | error => throw error : Task Fields).ensure (manager (.closeIntent intent.intentId))).Follows
      (rule party) (.sent future) (Ended party) := by
  have waited : (manager (.awaitFuture future) : Task Fields).Follows (rule party) (.sent future) (Waited future) := by
    refine .perform fun reply => ?_
    cases reply <;> exact ⟨_,if_pos rfl,rfl⟩
  have translated := Prog.Follows.attempt waited (fun _ _ same => same) fun error mode (failed : mode = .failed future) =>
    show Prog.Follows (rule party) (match error with
        | .timeoutError _ => throw (.timeoutError
            s!"Node {nodeId} did not respond to intent {intent.intentId} within {floatText limit}s")
        | error => throw error : Task Fields) mode (Waited future) by split <;> exact failed
  refine .ensure translated ?_
  · rintro (error | value) _ rfl
    · refine .perform fun reply => ⟨.closed future none,if_pos ⟨nodeId,calls⟩,?_⟩
      cases reply <;> exact ⟨rfl,by simp⟩
    · refine .perform fun reply => ⟨.closed future (some value),if_pos ⟨nodeId,calls⟩,?_⟩
      cases reply with
      | error error => exact ⟨rfl,by simp⟩
      | ok done => exact ⟨rfl,fun _ same _ => congrArg some (Except.ok.inj same)⟩

theorem sendIntent_follows (floatText : ℚ → String) (timeout intentMaxAge : Option ℚ)
    (calls : party.Calls nodeId intent.intentId) :
    (NodeManager.sendIntent manager floatText nodeId intent timeout intentMaxAge).Follows (rule party) .idle
      (Ended party) := by
  have ended : ∀ error, Ended party (.error error) .idle := fun error => ⟨rfl,by simp⟩
  refine .bind (Prog.Stays.perform fun reply => rfl) ?_ ?_
  · rintro default _ rfl
    have entered : (manager (.openIntent nodeId intent intentMaxAge)).Follows (rule party) .idle fun result mode =>
        mode = match result with
          | .ok opened => .opened opened.2
          | .error _ => .idle :=
      Prog.Follows.perform fun reply => ⟨_,if_pos calls,rfl⟩
    refine .bind entered ?_ ?_
    · rintro ⟨websocket,future⟩ _ rfl
      have delivered : (manager (.sendIntent websocket intent)).Follows (rule party) (.opened future) fun result mode =>
          mode = match result with
            | .ok _ => .sent future
            | .error _ => .stuck future := by
        refine .perform fun reply => ?_
        cases reply <;> exact ⟨_,if_pos ⟨nodeId,calls⟩,rfl⟩
      refine .bind delivered ?_ ?_
      · rintro _ _ rfl
        exact answer_follows floatText calls
      · rintro error _ rfl
        exact ⟨rfl,by simp⟩
    · rintro error _ rfl
      exact ended error
  · rintro error _ rfl
    exact ended error

theorem correlates_follows (intentId : String) (message : Fields) (mode : Mode) :
    (correlates intentId message).Stays (rule party) mode := by
  have looked : (storedDispatch intentId).Stays (rule party) mode := Prog.Stays.perform fun reply => rfl
  unfold correlates
  split
  · exact .pure
  all_goals exact .bind looked fun _ => Prog.Stays.pure

theorem intentResult_follows (nodeId : String) (message : Fields) :
    (intentResult nodeId message).Follows (rule (.result nodeId message)) .idle fun _ mode =>
      mode = .idle ∨ ∃ intentId, mode = .checked intentId := by
  unfold intentResult
  split
  · rename_i intentId named
    have looked : (manager (.intentNode intentId)).Follows (rule (.result nodeId message)) .idle fun result mode =>
        mode = if result = .ok (some nodeId) then .checked intentId else .idle := by
      refine .perform fun reply => ?_
      by_cases expected : reply = .ok (some nodeId)
      · exact ⟨_,if_pos ⟨nodeId,message,rfl,named,expected⟩,by rw [if_pos expected]⟩
      · refine ⟨_,if_neg ?_,by rw [if_neg expected]⟩
        rintro ⟨other,_,same,_,expected'⟩
        obtain ⟨rfl,_⟩ := Party.result.inj same
        exact expected expected'
    refine .bind looked ?_ ?_
    · rintro expected _ rfl
      by_cases same : expected = some nodeId
      · rw [if_pos same,if_pos (congrArg _ same)]
        refine .bind (correlates_follows intentId message _) ?_ ?_
        · rintro correct _ rfl
          split
          · exact .perform fun reply =>
              ⟨.checked intentId,if_pos ⟨rfl,nodeId,rfl⟩,.inr ⟨intentId,rfl⟩⟩
          · exact .inr ⟨intentId,rfl⟩
        · rintro error _ rfl
          exact .inr ⟨intentId,rfl⟩
      · rw [if_neg same,if_neg fun equal => same (Except.ok.inj equal)]
        exact .inl rfl
    · rintro error _ rfl
      exact .inl (if_neg (by simp))
  all_goals exact .inl rfl

theorem upkeep_follows (work : Upkeep) : (do
      let _ ← manager work.act
      pure [] : Task Fields).Stays (rule (.upkeep work)) .idle := by
  refine .bind (Prog.Stays.perform fun reply => ?_) fun _ => Prog.Stays.pure
  cases work <;> rfl

theorem not_calls_result {nodeId' : String} {message : Fields} :
    ¬(Party.result nodeId message).Calls nodeId' intentId := by
  rintro ⟨_,_,_,same,_⟩
  contradiction

theorem not_calls_upkeep {work : Upkeep} : ¬(Party.upkeep work).Calls nodeId intentId := by
  rintro ⟨_,_,_,same,_⟩
  contradiction

theorem program_follows (floatText : ℚ → String) (party : Party) :
    (party.program floatText).Follows (rule party) .idle (Ended party) := by
  cases party with
  | call nodeId intent timeout intentMaxAge =>
    exact sendIntent_follows floatText timeout intentMaxAge ⟨intent,timeout,intentMaxAge,rfl,rfl⟩
  | result nodeId message =>
    have ended : ∀ result mode, mode = .idle ∨ (∃ intentId, mode = .checked intentId) →
        Ended (.result nodeId message) result mode := by
      rintro result _ (rfl | ⟨intentId,rfl⟩)
      all_goals exact ⟨rfl,fun _ _ calls => calls.elim fun _ calls => calls.elim fun _ calls => absurd calls not_calls_result⟩
    refine .bind (intentResult_follows nodeId message) ?_ fun error mode => ended _ mode
    exact fun _ mode => ended _ mode
  | upkeep work =>
    refine (upkeep_follows work).mono ?_
    rintro result _ rfl
    exact ⟨rfl,fun _ _ calls => calls.elim fun _ calls => calls.elim fun _ calls => absurd calls not_calls_upkeep⟩

end

/-- An intent is dropped from the three dictionaries or left alone, its age limit too. -/
structure Fewer (nm nm' : NodeManager) : Prop where
  intents : ∀ id, nm'.pendingIntents.get? id = none ∧ nm'.intentNodes.get? id = none ∧
      nm'.intentCreatedAt.get? id = none ∨
    nm'.pendingIntents.get? id = nm.pendingIntents.get? id ∧ nm'.intentNodes.get? id = nm.intentNodes.get? id ∧
      nm'.intentCreatedAt.get? id = nm.intentCreatedAt.get? id
  maxAge : ∀ id, nm'.intentMaxAge.get? id = none ∨ nm'.intentMaxAge.get? id = nm.intentMaxAge.get? id
  futures : nm'.futures.length = nm.futures.length

structure Shrinks (nm nm' : NodeManager) : Prop where
  fewer : Fewer nm nm'
  results : ∀ (future : Nat) (value : Fields), nm'.futures[future]? = some (Future.result value) →
    nm.futures[future]? = some (Future.result value)

section
variable {nm nm' nm'' : NodeManager}

theorem Fewer.refl (nm : NodeManager) : Fewer nm nm := ⟨fun _ => .inr ⟨rfl,rfl,rfl⟩,fun _ => .inr rfl,rfl⟩

theorem Fewer.trans (first : Fewer nm nm') (second : Fewer nm' nm'') : Fewer nm nm'' := by
  refine ⟨fun id => ?_,fun id => ?_,second.futures.trans first.futures⟩
  · rcases second.intents id with dropped | ⟨pending,nodes,created⟩
    · exact .inl dropped
    · rw [pending,nodes,created]
      exact first.intents id
  · rcases second.maxAge id with dropped | same
    · exact .inl dropped
    · rw [same]
      exact first.maxAge id

theorem Shrinks.refl (nm : NodeManager) : Shrinks nm nm := ⟨.refl nm,fun _ _ found => found⟩

theorem Shrinks.trans (first : Shrinks nm nm') (second : Shrinks nm' nm'') : Shrinks nm nm'' :=
  ⟨first.fewer.trans second.fewer,fun future value found => first.results future value (second.results future value found)⟩

theorem shrinks_cancel (nm : NodeManager) (future : Nat) : Shrinks nm (nm.cancel future) := by
  refine ⟨⟨fun _ => .inr ⟨rfl,rfl,rfl⟩,fun _ => .inr rfl,List.length_modify ..⟩,?_⟩
  intro other value found
  unfold NodeManager.cancel at found
  rw [List.getElem?_modify] at found
  cases before : nm.futures[other]? with
  | none => simp [before] at found
  | some was =>
    rw [before] at found
    cases was with
    | result value' => split at found <;> simpa using found
    | pending | cancelled => split at found <;> simp at found

theorem shrinks_forget (nm : NodeManager) (intentId : String) : Shrinks nm (nm.forget intentId) := by
  refine ⟨⟨fun id => ?_,fun _ => .inr rfl,rfl⟩,fun _ _ found => found⟩
  by_cases same : id = intentId
  · subst same
    exact .inl ⟨OrderedMap.get?_erase_self,OrderedMap.get?_erase_self,OrderedMap.get?_erase_self⟩
  · exact .inr ⟨OrderedMap.get?_erase_of_ne same,OrderedMap.get?_erase_of_ne same,OrderedMap.get?_erase_of_ne same⟩

theorem shrinks_forgetMaxAge (nm : NodeManager) (intentId : String) : Shrinks nm (nm.forgetMaxAge intentId) := by
  refine ⟨⟨fun _ => .inr ⟨rfl,rfl,rfl⟩,fun id => ?_,rfl⟩,fun _ _ found => found⟩
  by_cases same : id = intentId
  · subst same
    exact .inl OrderedMap.get?_erase_self
  · exact .inr (OrderedMap.get?_erase_of_ne same)

theorem shrinks_dropIntent (nm : NodeManager) (intentId : String) : Shrinks nm (nm.dropIntent intentId) := by
  unfold NodeManager.dropIntent
  split
  · exact shrinks_forget nm intentId
  · exact (shrinks_forget nm intentId).trans (shrinks_cancel _ _)

theorem shrinks_foldl {drop : NodeManager → String → NodeManager} (each : ∀ nm id, Shrinks nm (drop nm id))
    (ids : List String) (nm : NodeManager) : Shrinks nm (ids.foldl drop nm) := by
  induction ids generalizing nm with
  | nil => exact .refl nm
  | cons id rest ih => exact (each nm id).trans (ih _)

variable {act : Act} {choice : Choice}

theorem shrinks_effect (now : ℚ) (opens : ∀ nodeId intent age, act ≠ .openIntent nodeId intent age)
    (resolves : ∀ intentId message, act ≠ .resolveIntent intentId message) :
    Shrinks nm (NodeManager.effect nm now act).1 := by
  cases act with
  | openIntent nodeId intent age => exact absurd rfl (opens nodeId intent age)
  | resolveIntent intentId message => exact absurd rfl (resolves intentId message)
  | closeIntent intentId => exact (shrinks_forgetMaxAge nm intentId).trans (shrinks_forget _ intentId)
  | unregisterConnection nodeId =>
    have popped : Shrinks nm (nm.popConnection nodeId) :=
      ⟨⟨fun _ => .inr ⟨rfl,rfl,rfl⟩,fun _ => .inr rfl,rfl⟩,fun _ _ found => found⟩
    exact popped.trans (shrinks_foldl shrinks_dropIntent _ _)
  | cleanupStaleIntents =>
    exact shrinks_foldl (fun nm id => (shrinks_dropIntent nm id).trans (shrinks_forgetMaxAge _ id)) _ _
  | _ => exact ⟨⟨fun _ => .inr ⟨rfl,rfl,rfl⟩,fun _ => .inr rfl,rfl⟩,fun _ _ found => found⟩

variable {reply : Except PyError act.Reply} {future : Nat} {intentId : String} {value : Fields} {intent : Intent}

/-- Whatever becomes of an action that neither opens nor resolves an intent. -/
theorem shrinks_exec {outside : Outside}
    (taken : NodeManager.exec act outside nm = some (nm',reply))
    (opens : ∀ nodeId intent age, act ≠ .openIntent nodeId intent age)
    (resolves : ∀ intentId message, act ≠ .resolveIntent intentId message) : Shrinks nm nm' := by
  rcases NodeManager.done_of_exec taken with ⟨_,rfl⟩ | ⟨future,_,rfl⟩ | ⟨_,rfl⟩
  · exact .refl _
  · exact shrinks_cancel nm future
  · exact shrinks_effect outside.now opens resolves

theorem resolve_results {message : Fields}
    (found : (nm.resolveIntent intentId message).futures[future]? = some (.result value)) :
    nm.futures[future]? = some (.result value) ∨
      nm.pendingIntents.get? intentId = some future ∧ value = message := by
  unfold NodeManager.resolveIntent at found
  cases pending : nm.pendingIntents.get? intentId with
  | none =>
    rw [pending] at found
    exact .inl found
  | some settled =>
    rw [pending] at found
    change ((nm.futures.modify settled _))[future]? = _ at found
    rw [List.getElem?_modify] at found
    cases before : nm.futures[future]? with
    | none => simp [before] at found
    | some was =>
      rw [before] at found
      cases was with
      | result value' => split at found <;> exact .inl (by simpa using found)
      | cancelled => split at found <;> simp at found
      | pending =>
        split at found
        · rename_i same
          subst same
          exact .inr ⟨rfl,by simpa using found.symm⟩
        · simp at found

theorem resolve_fewer (nm : NodeManager) (intentId : String) (message : Fields) :
    Fewer nm (nm.resolveIntent intentId message) := by
  have forgotten := (shrinks_forget nm intentId).fewer
  unfold NodeManager.resolveIntent
  split
  · exact forgotten
  · exact forgotten.trans ⟨fun _ => .inr ⟨rfl,rfl,rfl⟩,fun _ => .inr rfl,List.length_modify ..⟩

structure Opens (nm : NodeManager) (nodeId id : String) (nm' : NodeManager) : Prop where
  pending : ∀ other, nm'.pendingIntents.get? other =
    if other = id then some nm.futures.length else nm.pendingIntents.get? other
  nodes : ∀ other, nm'.intentNodes.get? other = if other = id then some nodeId else nm.intentNodes.get? other
  created : ∀ other, (nm'.intentCreatedAt.get? other).isSome =
    if other = id then true else (nm.intentCreatedAt.get? other).isSome
  maxAge : ∀ other age, nm'.intentMaxAge.get? other = some age → other = id ∨ nm.intentMaxAge.get? other = some age
  futures : nm'.futures = nm.futures ++ [.pending]

theorem get?_set {κ β : Type} [DecidableEq κ] (entries : OrderedMap κ β) (key other : κ) (value : β) :
    (entries.set key value).get? other = if other = key then some value else entries.get? other := by
  split
  · rename_i same
    rw [same,OrderedMap.get?_set_self]
  · rename_i differ
    exact OrderedMap.get?_set_of_ne differ

theorem open_taken {nodeId : String} {age : Option ℚ}
    {reply : Except PyError (Socket × Nat)}
    (taken : exec (.manager (.openIntent nodeId intent age)) choice nm = some (nm',reply)) :
    (∃ error, reply = .error error) ∧ nm' = nm ∨
      (∃ websocket, reply = .ok (websocket,nm.futures.length)) ∧ Opens nm nodeId intent.intentId nm' := by
  unfold exec at taken
  cases fault : choice.outside.fault with
  | after error =>
    simp only [fault,late,if_true] at taken
    contradiction
  | before error =>
    simp only [fault,late,NodeManager.exec,Act.awaits,if_true] at taken
    obtain ⟨rfl,rfl⟩ := Prod.mk.inj (Option.some.inj taken)
    exact .inl ⟨⟨error,rfl⟩,rfl⟩
  | none =>
    simp only [fault,late,NodeManager.exec,Act.awaits,if_true,strike_none,NodeManager.effect,NodeManager.openIntent] at taken
    cases found : nm.connections.get? nodeId with
    | none =>
      simp only [found] at taken
      obtain ⟨rfl,rfl⟩ := Prod.mk.inj (Option.some.inj taken)
      exact .inl ⟨⟨_,rfl⟩,rfl⟩
    | some conn =>
      simp only [found] at taken
      obtain ⟨rfl,rfl⟩ := Prod.mk.inj (Option.some.inj taken)
      refine .inr ⟨⟨conn.websocket,rfl⟩,?_,?_,?_,?_,rfl⟩
      · exact fun other => get?_set ..
      · exact fun other => get?_set ..
      · intro other
        rw [get?_set]
        split <;> rfl
      · intro other limit has
        cases age with
        | none => exact .inr has
        | some own =>
          rw [get?_set] at has
          split at has
          · rename_i same
            exact .inl same
          · exact .inr has

theorem close_taken {reply : Except PyError Unit}
    (taken : exec (.manager (.closeIntent intentId)) choice nm = some (nm',reply)) :
    Shrinks nm nm' ∧ nm'.pendingIntents.get? intentId = none ∧ nm'.intentNodes.get? intentId = none ∧
      nm'.intentMaxAge.get? intentId = none := by
  obtain rfl : nm.closeIntent intentId = nm' := congrArg Prod.fst (Option.some.inj taken)
  exact ⟨(shrinks_forgetMaxAge nm intentId).trans (shrinks_forget _ intentId),OrderedMap.get?_erase_self,
    OrderedMap.get?_erase_self,OrderedMap.get?_erase_self⟩

theorem send_failed {websocket : Socket} {error : PyError}
    (taken : exec (.manager (.sendIntent websocket intent)) choice nm = some (nm',.error error)) :
    choice.outside.fault.error?.isSome = true ∧ nm = nm' := by
  have struck : some (choice.outside.fault.strike nm (nm,(.ok () : Except PyError Unit))) = some (nm',.error error) := taken
  cases fault : choice.outside.fault <;> rw [fault] at struck <;>
    obtain ⟨rfl,impossible⟩ := Prod.mk.inj (Option.some.inj struck)
  · contradiction
  · exact ⟨rfl,rfl⟩
  · exact ⟨rfl,rfl⟩

theorem await_taken
    (taken : exec (.manager (.awaitFuture future)) choice nm = some (nm',.ok value)) :
    nm.futures[future]? = some (Future.result value) := by
  have struck : NodeManager.awaitFuture nm future choice.outside = some (nm',.ok value) := taken
  unfold NodeManager.awaitFuture at struck
  split at struck
  · obtain ⟨_,impossible⟩ := Prod.mk.inj (Option.some.inj struck)
    contradiction
  · obtain ⟨_,impossible⟩ := Prod.mk.inj (Option.some.inj struck)
    contradiction
  · split at struck
    · contradiction
    · rename_i found
      obtain ⟨_,same⟩ := Prod.mk.inj (Option.some.inj struck)
      rw [found,Except.ok.inj same]
    · obtain ⟨_,impossible⟩ := Prod.mk.inj (Option.some.inj struck)
      contradiction
    · split at struck
      · obtain ⟨_,impossible⟩ := Prod.mk.inj (Option.some.inj struck)
        contradiction
      · contradiction

theorem manager_taken
    (taken : exec (.manager act) choice nm = some (nm',reply)) :
    NodeManager.exec act choice.outside nm = some (nm',reply) := by
  unfold exec at taken
  simp only at taken
  split at taken
  · contradiction
  · exact taken

end

variable {intentId intentId' nodeId nodeId' : String}

theorem calls_id {party : Party} (calls : party.Calls nodeId intentId)
    (also : party.Calls nodeId' intentId') : intentId = intentId' := by
  obtain ⟨_,_,_,rfl,rfl⟩ := calls
  obtain ⟨_,_,_,same,rfl⟩ := also
  exact congrArg Intent.intentId (Party.call.inj same).2.1

theorem calls_node {party : Party} (calls : party.Calls nodeId intentId)
    (also : party.Calls nodeId' intentId') : nodeId = nodeId' := by
  obtain ⟨_,_,_,rfl,_⟩ := calls
  obtain ⟨_,_,_,same,_⟩ := also
  exact (Party.call.inj same).1

theorem future_of_open {mode : Mode} (isOpen : mode.isOpen = true) : mode.future.isSome = true := by
  cases mode <;> first | rfl | contradiction

section
variable [DecidableEq τ] {parties : τ → Party} {past : List (Step τ)} {tr : Step τ} {modes : τ → Mode} {m : Mode}

theorem futureOf_concat (past : List (Step τ)) (tr : Step τ) (task : τ) : futureOf (past ++ [tr]) task =
    if tr.task = task then
      match tr.action, tr.reply with
      | .manager (.openIntent _ _ _), .ok opened => some opened.2
      | _, _ => futureOf past task
    else futureOf past task := by
  simp [futureOf]

/-- The node that a call asked sent the value, and that message resolved the call's future. -/
def Answered (parties : τ → Party) (past : List (Step τ)) (task : τ) (value : Fields) : Prop :=
  ∃ handler nodeId, parties handler = .result nodeId value ∧ (∃ intentId, (parties task).Calls nodeId intentId) ∧
    Answers past handler task

structure Joined (parties : τ → Party) (past : List (Step τ)) (modes : τ → Mode) (nm : NodeManager) : Prop where
  coincide : ∀ id, (nm.intentNodes.get? id).isSome = (nm.pendingIntents.get? id).isSome ∧
    (nm.intentCreatedAt.get? id).isSome = (nm.pendingIntents.get? id).isSome
  pending : ∀ id future, nm.pendingIntents.get? id = some future → ∃ task nodeId, (parties task).Calls nodeId id ∧
    (modes task).isOpen = true ∧ (modes task).future = some future
  nodes : ∀ id nodeId, nm.intentNodes.get? id = some nodeId → ∃ task, (parties task).Calls nodeId id ∧
    (modes task).isOpen = true
  maxAge : ∀ id age, nm.intentMaxAge.get? id = some age → ∃ task nodeId, (parties task).Calls nodeId id ∧
    (modes task).isOpen = true
  told : ∀ task, futureOf past task = (modes task).future
  fresh : ∀ task future, (modes task).future = some future → future < nm.futures.length
  apart : ∀ task other future, (modes task).future = some future → (modes other).future = some future → task = other
  results : ∀ task (future : Nat) (value : Fields), (modes task).future = some future →
    nm.futures[future]? = some (Future.result value) → Answered parties past task value
  values : ∀ task value, (modes task).value = some value → Answered parties past task value
  checked : ∀ task id, modes task = .checked id → ∃ nodeId message caller, parties task = .result nodeId message ∧
    intentIdOf message = .str id ∧ (parties caller).Calls nodeId id
  resolved : ∀ tr ∈ past, ∀ id message future, tr.action = .manager (.resolveIntent id message) →
    tr.before.pendingIntents.get? id = some future → ∃ nodeId caller, parties tr.task = .result nodeId message ∧
      intentIdOf message = .str id ∧ (parties caller).Calls nodeId id ∧ futureOf past caller = some future

variable {task : τ}

theorem answered_concat {value : Fields}
    (kept : ∀ future, futureOf past task = some future → futureOf (past ++ [tr]) task = some future)
    (answered : Answered parties past task value) : Answered parties (past ++ [tr]) task value := by
  obtain ⟨handler,nodeId,sends,calls,step,member,mine,id,message,future,resolves,pending,given⟩ := answered
  exact ⟨handler,nodeId,sends,calls,step,List.mem_append_left _ member,mine,id,message,future,resolves,pending,kept future given⟩

variable {nm nm' : NodeManager}

/-- Steps that open no intent. -/
theorem Joined.kept (joined : Joined parties past modes nm) (fewer : Fewer nm nm')
    (given : futureOf (past ++ [tr]) tr.task = futureOf past tr.task) (future : m.future = (modes tr.task).future)
    (closes : (modes tr.task).isOpen = true → m.isOpen = true ∨ ∀ nodeId id, (parties tr.task).Calls nodeId id →
      nm'.pendingIntents.get? id = none ∧ nm'.intentNodes.get? id = none ∧ nm'.intentMaxAge.get? id = none)
    (results : ∀ task (future : Nat) (value : Fields), (modes task).future = some future →
      nm'.futures[future]? = some (Future.result value) → Answered parties (past ++ [tr]) task value)
    (values : ∀ value, m.value = some value → Answered parties past tr.task value)
    (checked : ∀ id, m = .checked id → ∃ nodeId message caller, parties tr.task = .result nodeId message ∧
      intentIdOf message = .str id ∧ (parties caller).Calls nodeId id)
    (resolved : ∀ id message future, tr.action = .manager (.resolveIntent id message) →
      tr.before.pendingIntents.get? id = some future → ∃ nodeId caller, parties tr.task = .result nodeId message ∧
        intentIdOf message = .str id ∧ (parties caller).Calls nodeId id ∧ futureOf past caller = some future) :
    Joined parties (past ++ [tr]) (Function.update modes tr.task m) nm' := by
  have futures : ∀ task, (Function.update modes tr.task m task).future = (modes task).future := by
    intro task
    by_cases same : task = tr.task
    · subst same
      rw [Function.update_self,future]
    · rw [Function.update_of_ne same]
  have told : ∀ task, futureOf (past ++ [tr]) task = futureOf past task := by
    intro task
    by_cases same : tr.task = task
    · subst same
      exact given
    · rw [futureOf_concat,if_neg same]
  -- who was at work still is, unless it closed and left nothing behind
  have stays : ∀ task nodeId id, (parties task).Calls nodeId id → (modes task).isOpen = true →
      (nm'.pendingIntents.get? id).isSome = true ∨ (nm'.intentNodes.get? id).isSome = true ∨
        (nm'.intentMaxAge.get? id).isSome = true → (Function.update modes tr.task m task).isOpen = true := by
    intro task nodeId id calls isOpen kept
    by_cases same : task = tr.task
    · subst same
      rw [Function.update_self]
      rcases closes isOpen with still | gone
      · exact still
      · obtain ⟨pending,nodes,maxAge⟩ := gone nodeId id calls
        simp [pending,nodes,maxAge] at kept
    · rwa [Function.update_of_ne same]
  refine ⟨?_,?_,?_,?_,?_,?_,?_,?_,?_,?_,?_⟩
  · intro id
    rcases fewer.intents id with ⟨pending,nodes,created⟩ | ⟨pending,nodes,created⟩ <;> rw [pending,nodes,created]
    · exact ⟨rfl,rfl⟩
    · exact joined.coincide id
  · intro id pendingFuture found
    rcases fewer.intents id with ⟨pending,_⟩ | ⟨pending,_⟩ <;> rw [pending] at found
    · contradiction
    · obtain ⟨task,nodeId,calls,isOpen,has⟩ := joined.pending id pendingFuture found
      exact ⟨task,nodeId,calls,stays task nodeId id calls isOpen (.inl (by simp [pending,found])),(futures task).trans has⟩
  · intro id nodeId found
    rcases fewer.intents id with ⟨_,nodes,_⟩ | ⟨_,nodes,_⟩ <;> rw [nodes] at found
    · contradiction
    · obtain ⟨task,calls,isOpen⟩ := joined.nodes id nodeId found
      exact ⟨task,calls,stays task nodeId id calls isOpen (.inr (.inl (by simp [nodes,found])))⟩
  · intro id age found
    rcases fewer.maxAge id with maxAge | maxAge <;> rw [maxAge] at found
    · contradiction
    · obtain ⟨task,nodeId,calls,isOpen⟩ := joined.maxAge id age found
      exact ⟨task,nodeId,calls,stays task nodeId id calls isOpen (.inr (.inr (by simp [maxAge,found])))⟩
  · intro task
    rw [told,futures]
    exact joined.told task
  · intro task f has
    rw [fewer.futures]
    exact joined.fresh task f ((futures task).symm.trans has)
  · intro task other f has also
    exact joined.apart task other f ((futures task).symm.trans has) ((futures other).symm.trans also)
  · intro task f value has found
    exact results task f value ((futures task).symm.trans has) found
  · intro task value has
    refine answered_concat (fun f had => (told task).trans had) ?_
    by_cases same : task = tr.task
    · subst same
      rw [Function.update_self] at has
      exact values value has
    · rw [Function.update_of_ne same] at has
      exact joined.values task value has
  · intro task id mode
    by_cases same : task = tr.task
    · subst same
      rw [Function.update_self] at mode
      exact checked id mode
    · rw [Function.update_of_ne same] at mode
      exact joined.checked task id mode
  · intro step member id message f resolves found
    rw [List.mem_append,List.mem_singleton] at member
    rcases member with member | rfl
    · obtain ⟨nodeId,caller,sends,named,calls,had⟩ := joined.resolved step member id message f resolves found
      exact ⟨nodeId,caller,sends,named,calls,(told caller).trans had⟩
    · obtain ⟨nodeId,caller,sends,named,calls,had⟩ := resolved id message f resolves found
      exact ⟨nodeId,caller,sends,named,calls,(told caller).trans had⟩

theorem joined_open {nodeId id : String}
    (joined : Joined parties past modes nm) (opens : Opens nm nodeId id nm')
    (given : futureOf (past ++ [tr]) tr.task = some nm.futures.length) (calls : (parties tr.task).Calls nodeId id)
    (idle : modes tr.task = .idle) (resolves : ∀ id message, tr.action ≠ .manager (.resolveIntent id message)) :
    Joined parties (past ++ [tr]) (Function.update modes tr.task (.opened nm.futures.length)) nm' := by
  have others : ∀ task, (modes task).isOpen = true ∨ (modes task).future.isSome = true → task ≠ tr.task := by
    rintro task has rfl
    simp [idle,Mode.isOpen,Mode.future] at has
  have told : ∀ task future, futureOf past task = some future → futureOf (past ++ [tr]) task = some future := by
    intro task future had
    have has : (modes task).future = some future := (joined.told task).symm.trans had
    rw [futureOf_concat,if_neg (Ne.symm (others task (.inr (by simp [has]))))]
    exact had
  have mine : ∀ task, task = tr.task ∧ Function.update modes tr.task (.opened nm.futures.length) task = .opened nm.futures.length ∨
      task ≠ tr.task ∧ Function.update modes tr.task (.opened nm.futures.length) task = modes task := by
    intro task
    by_cases same : task = tr.task
    · exact .inl ⟨same,by rw [same,Function.update_self]⟩
    · exact .inr ⟨same,Function.update_of_ne same ..⟩
  have still : ∀ task, (modes task).isOpen = true → (Function.update modes tr.task (.opened nm.futures.length) task) = modes task :=
    fun task isOpen => Function.update_of_ne (others task (.inl isOpen)) ..
  have opener : (Function.update modes tr.task (.opened nm.futures.length) tr.task) = .opened nm.futures.length :=
    Function.update_self ..
  refine ⟨?_,?_,?_,?_,?_,?_,?_,?_,?_,?_,?_⟩
  · intro other
    obtain ⟨nodes,created⟩ := joined.coincide other
    rw [opens.pending,opens.nodes,opens.created]
    split
    · exact ⟨rfl,rfl⟩
    · exact ⟨nodes,created⟩
  · intro other future found
    rw [opens.pending] at found
    split at found
    · rename_i same
      subst same
      obtain rfl := Option.some.inj found
      exact ⟨tr.task,nodeId,calls,by rw [opener]; rfl,by rw [opener]; rfl⟩
    · obtain ⟨task,node,calls,isOpen,has⟩ := joined.pending other future found
      exact ⟨task,node,calls,by rwa [still task isOpen],by rwa [still task isOpen]⟩
  · intro other node found
    rw [opens.nodes] at found
    split at found
    · rename_i same
      subst same
      obtain rfl := Option.some.inj found
      exact ⟨tr.task,calls,by rw [opener]; rfl⟩
    · obtain ⟨task,calls,isOpen⟩ := joined.nodes other node found
      exact ⟨task,calls,by rwa [still task isOpen]⟩
  · intro other age found
    rcases opens.maxAge other age found with rfl | before
    · exact ⟨tr.task,nodeId,calls,by rw [opener]; rfl⟩
    · obtain ⟨task,node,calls,isOpen⟩ := joined.maxAge other age before
      exact ⟨task,node,calls,by rwa [still task isOpen]⟩
  · intro task
    rcases mine task with ⟨rfl,now⟩ | ⟨ne,now⟩ <;> rw [now]
    · exact given
    · rw [futureOf_concat,if_neg (Ne.symm ne)]
      exact joined.told task
  · intro task future has
    rw [opens.futures,List.length_append]
    rcases mine task with ⟨rfl,now⟩ | ⟨_,now⟩ <;> rw [now] at has
    · obtain rfl := Option.some.inj has
      simp
    · exact Nat.lt_succ_of_lt (joined.fresh task future has)
  · intro task other future has also
    have own : ∀ t, some nm.futures.length = some future → (modes t).future ≠ some future := by
      rintro t same before
      obtain rfl := Option.some.inj same
      exact Nat.lt_irrefl _ (joined.fresh t _ before)
    rcases mine task with ⟨rfl,now⟩ | ⟨_,now⟩
    · rw [now] at has
      rcases mine other with ⟨rfl,_⟩ | ⟨_,now'⟩
      · rfl
      · rw [now'] at also
        exact absurd also (own other has)
    · rw [now] at has
      rcases mine other with ⟨rfl,now'⟩ | ⟨_,now'⟩ <;> rw [now'] at also
      · exact absurd has (own task also)
      · exact joined.apart task other future has also
  · intro task future value has found
    rw [opens.futures] at found
    rcases mine task with ⟨rfl,now⟩ | ⟨_,now⟩ <;> rw [now] at has
    · obtain rfl := Option.some.inj has
      simp at found
    · rw [List.getElem?_append_left (joined.fresh task future has)] at found
      exact answered_concat (told task) (joined.results task future value has found)
  · intro task value has
    rcases mine task with ⟨rfl,now⟩ | ⟨_,now⟩ <;> rw [now] at has
    · contradiction
    · exact answered_concat (told task) (joined.values task value has)
  · intro task checked mode
    rcases mine task with ⟨rfl,now⟩ | ⟨_,now⟩ <;> rw [now] at mode
    · contradiction
    · exact joined.checked task checked mode
  · intro step member other message future resolved found
    rw [List.mem_append,List.mem_singleton] at member
    rcases member with member | rfl
    · obtain ⟨node,caller,sends,named,calls,had⟩ := joined.resolved step member other message future resolved found
      exact ⟨node,caller,sends,named,calls,told caller future had⟩
    · exact absurd resolved (resolves other message)

/-- Steps that neither open nor resolve an intent. -/
theorem joined_shrinks (joined : Joined parties past modes nm) (shrinks : Shrinks nm nm')
    (given : futureOf (past ++ [tr]) tr.task = futureOf past tr.task) (future : m.future = (modes tr.task).future)
    (closes : (modes tr.task).isOpen = true → m.isOpen = true ∨ ∀ nodeId id, (parties tr.task).Calls nodeId id →
      nm'.pendingIntents.get? id = none ∧ nm'.intentNodes.get? id = none ∧ nm'.intentMaxAge.get? id = none)
    (values : ∀ value, m.value = some value → Answered parties past tr.task value)
    (checked : ∀ id, m = .checked id → ∃ nodeId message caller, parties tr.task = .result nodeId message ∧
      intentIdOf message = .str id ∧ (parties caller).Calls nodeId id)
    (resolves : ∀ id message, tr.action ≠ .manager (.resolveIntent id message)) :
    Joined parties (past ++ [tr]) (Function.update modes tr.task m) nm' := by
  have told : ∀ task future, futureOf past task = some future → futureOf (past ++ [tr]) task = some future := by
    intro task future had
    by_cases same : tr.task = task
    · subst same
      rwa [given]
    · rwa [futureOf_concat,if_neg same]
  refine joined.kept shrinks.fewer given future closes ?_ values checked fun id message _ is => absurd is (resolves id message)
  intro task future value has found
  exact answered_concat (told task) (joined.results task future value has (shrinks.results future value found))

theorem joined_step (distinct : Distinct parties) (joined : Joined parties past modes tr.before) (taken : Taken exec tr)
    (allowed : rule (parties tr.task) tr.action tr.reply (modes tr.task) = some m) (sound : leavesBehind tr = false) :
    Joined parties (past ++ [tr]) (Function.update modes tr.task m) tr.after := by
  obtain ⟨task,action,choice,before,reply,after⟩ := tr
  replace taken : exec action choice before = some (after,reply) := taken
  simp only at joined allowed
  -- what is neither opened nor closed nor resolved
  have quiet : ∀ (m : Mode), Shrinks before after →
      futureOf (past ++ [⟨task,action,choice,before,reply,after⟩]) task = futureOf past task →
      m.future = (modes task).future → m.isOpen = (modes task).isOpen →
      (∀ value, m.value = some value → Answered parties past task value) →
      (∀ id, m = .checked id → ∃ nodeId message caller, parties task = .result nodeId message ∧
        intentIdOf message = .str id ∧ (parties caller).Calls nodeId id) →
      (∀ id message, action ≠ .manager (.resolveIntent id message)) →
      Joined parties (past ++ [⟨task,action,choice,before,reply,after⟩]) (Function.update modes task m) after :=
    fun m shrinks given future isOpen values checked resolves =>
      joined_shrinks joined shrinks given future (fun was => .inl (isOpen.trans was)) values checked resolves
  have same : (∀ nodeId intent age, action ≠ .manager (.openIntent nodeId intent age)) →
      futureOf (past ++ [⟨task,action,choice,before,reply,after⟩]) task = futureOf past task := by
    intro opens
    rw [futureOf_concat,if_pos rfl]
    simp only
    split
    · exact absurd rfl (opens _ _ _)
    · rfl
  cases action with
  | storedDispatch intentId =>
    obtain rfl := Option.some.inj allowed
    have unchanged : after = before := by
      have struck : (choice.outside.fault.strike before (before,(.ok choice.stored : Except PyError (Option String)))).1 =
          before := strike_fixed rfl
      exact (congrArg Prod.fst (Option.some.inj taken)).symm.trans struck
    exact quiet _ (unchanged ▸ .refl _) (same (by simp)) rfl rfl (joined.values task) (joined.checked task) (by simp)
  | manager act =>
    cases act with
    | openIntent nodeId intent age =>
      cases mode : modes task <;> simp only [mode,rule,reduceCtorEq] at allowed
      split at allowed
      swap
      · contradiction
      rename_i calls
      rcases open_taken taken with ⟨⟨error,rfl⟩,rfl⟩ | ⟨⟨websocket,rfl⟩,opens⟩ <;> obtain rfl := Option.some.inj allowed
      · have given : futureOf (past ++ [⟨task,.manager (.openIntent nodeId intent age),choice,after,.error error,after⟩]) task =
            futureOf past task := by
          rw [futureOf_concat,if_pos rfl]
        exact quiet _ (.refl _) given (by rw [mode]) (by rw [mode]) (by simp [Mode.value]) (by simp) (by simp)
      · exact joined_open joined opens (by rw [futureOf_concat,if_pos rfl]) calls mode (by simp)
    | sendIntent websocket intent =>
      cases mode : modes task <;> simp only [mode,rule,reduceCtorEq] at allowed
      split at allowed
      swap
      · contradiction
      rename_i calls
      obtain ⟨nodeId,calls⟩ := calls
      have shrinks := shrinks_exec (manager_taken taken) (by simp) (by simp)
      cases reply with
      | ok sent =>
        obtain rfl := Option.some.inj allowed
        exact quiet _ shrinks (same (by simp)) (by rw [mode]; rfl) (by rw [mode]; rfl) (by simp [Mode.value]) (by simp)
          (by simp)
      | error error =>
        obtain rfl := Option.some.inj allowed
        obtain ⟨failed,rfl⟩ := send_failed taken
        obtain ⟨pending,maxAge⟩ : before.pendingIntents.get? intent.intentId = none ∧
            before.intentMaxAge.get? intent.intentId = none := by
          simpa [leavesBehind,failed] using sound
        -- the call ends with no entry left
        have nodes : before.intentNodes.get? intent.intentId = none := by
          simpa [pending] using (joined.coincide intent.intentId).1
        refine joined_shrinks joined shrinks (same (by simp)) (by rw [mode]; rfl) (fun _ => .inr ?_) (by simp [Mode.value])
          (by simp) (by simp)
        intro node id also
        obtain rfl := calls_id calls also
        exact ⟨pending,nodes,maxAge⟩
    | awaitFuture awaited =>
      cases mode : modes task <;> simp only [mode,rule,reduceCtorEq] at allowed
      rename_i future
      split at allowed
      swap
      · contradiction
      rename_i own
      subst own
      have shrinks := shrinks_exec (manager_taken taken) (by simp) (by simp)
      have values : ∀ value, m.value = some value → Answered parties past task value := by
        intro value has
        cases reply with
        | error error =>
          obtain rfl := Option.some.inj allowed
          contradiction
        | ok got =>
          obtain rfl := Option.some.inj allowed
          obtain rfl := Option.some.inj has
          exact joined.results task awaited got (by rw [mode]; rfl) (await_taken taken)
      cases reply <;> obtain rfl := Option.some.inj allowed <;>
        exact quiet _ shrinks (same (by simp)) (by rw [mode]; rfl) (by rw [mode]; rfl) values (by simp) (by simp)
    | closeIntent intentId =>
      obtain ⟨shrinks,pending,nodes,maxAge⟩ := close_taken taken
      have done : ∀ nodeId, (parties task).Calls nodeId intentId → m.isOpen = true ∨ ∀ nodeId' id, (parties task).Calls nodeId' id →
          after.pendingIntents.get? id = none ∧ after.intentNodes.get? id = none ∧ after.intentMaxAge.get? id = none := by
        refine fun nodeId calls => .inr fun nodeId' id also => ?_
        obtain rfl := calls_id calls also
        exact ⟨pending,nodes,maxAge⟩
      have closed : ∀ future value, m = .closed future value → (modes task).future = some future →
          value = (modes task).value → (∃ nodeId, (parties task).Calls nodeId intentId) →
          Joined parties (past ++ [⟨task,.manager (.closeIntent intentId),choice,before,reply,after⟩])
            (Function.update modes task m) after := by
        rintro future value rfl has got ⟨nodeId,calls⟩
        refine joined_shrinks joined shrinks (same (by simp)) has.symm (fun _ => done nodeId calls) ?_ (by simp) (by simp)
        exact fun value' is => joined.values task value' (got.symm.trans is)
      cases mode : modes task <;> simp only [mode,rule,reduceCtorEq] at allowed
      all_goals
        split at allowed
        swap
        · contradiction
        rename_i calls
        obtain rfl := Option.some.inj allowed
      all_goals exact closed _ _ rfl (by rw [mode]; rfl) (by rw [mode]; rfl) calls
    | intentNode intentId =>
      cases mode : modes task <;> simp only [mode,rule,reduceCtorEq] at allowed
      have shrinks := shrinks_exec (manager_taken taken) (by simp) (by simp)
      split at allowed <;> obtain rfl := Option.some.inj allowed
      · rename_i named
        obtain ⟨nodeId,message,sends,named,rfl⟩ := named
        obtain ⟨rfl,found⟩ := Prod.mk.inj (Option.some.inj (manager_taken taken))
        obtain ⟨caller,calls,_⟩ := joined.nodes intentId nodeId (Except.ok.inj found)
        refine quiet _ shrinks (same (by simp)) (by rw [mode]; rfl) (by rw [mode]; rfl) (by simp [Mode.value]) ?_ (by simp)
        intro id is
        obtain rfl := Mode.checked.inj is
        exact ⟨nodeId,message,caller,sends,named,calls⟩
      · exact quiet _ shrinks (same (by simp)) (by rw [mode]) (by rw [mode]) (by simp [Mode.value]) (by simp) (by simp)
    | resolveIntent intentId message =>
      cases mode : modes task <;> simp only [mode,rule,reduceCtorEq] at allowed
      split at allowed
      swap
      · contradiction
      rename_i named
      obtain ⟨rfl,nodeId,sends⟩ := named
      obtain rfl := Option.some.inj allowed
      obtain rfl : before.resolveIntent intentId message = after := congrArg Prod.fst (Option.some.inj (manager_taken taken))
      obtain ⟨nodeId',message',caller,sends',naming,calls⟩ := joined.checked task intentId mode
      obtain ⟨rfl,rfl⟩ := Party.result.inj (sends.symm.trans sends')
      -- the pending future is that of the call that the message names
      have pending : ∀ future, before.pendingIntents.get? intentId = some future →
          (modes caller).future = some future := by
        intro future found
        obtain ⟨other,nodeId',calls',_,has⟩ := joined.pending intentId future found
        rwa [distinct caller other nodeId nodeId' intentId calls calls']
      refine joined.kept (resolve_fewer before intentId message) (same (by simp)) (by rw [mode]) (by simp [mode,Mode.isOpen])
        ?_ (by simp [Mode.value]) ?_ ?_
      · intro call future value has found
        have kept : futureOf (past ++ [⟨task,.manager (.resolveIntent intentId message),choice,before,reply,
            before.resolveIntent intentId message⟩]) call = futureOf past call := by
          by_cases own : task = call
          · subst own
            exact same (by simp)
          · rw [futureOf_concat,if_neg own]
        rcases resolve_results found with earlier | ⟨isPending,rfl⟩
        · exact answered_concat (fun f had => kept.trans had) (joined.results call future value has earlier)
        · obtain rfl := joined.apart caller call future (pending future isPending) has
          exact ⟨task,nodeId,sends,⟨intentId,calls⟩,_,List.mem_append_right _ (List.mem_singleton_self _),rfl,intentId,value,
            future,rfl,isPending,kept.trans ((joined.told caller).trans has)⟩
      · intro id is
        obtain rfl := Mode.checked.inj is
        exact ⟨nodeId,message,caller,sends,naming,calls⟩
      · intro id message' future is found
        obtain ⟨rfl,rfl⟩ := Act.resolveIntent.inj (Action.manager.inj is)
        exact ⟨nodeId,caller,sends,naming,calls,(joined.told caller).trans (pending future found)⟩
    | defaultTimeout =>
      obtain rfl := Option.some.inj allowed
      exact quiet _ (shrinks_exec (manager_taken taken) (by simp) (by simp)) (same (by simp)) rfl rfl
        (joined.values task) (joined.checked task) (by simp)
    | isConnected nodeId | getConnection nodeId | connections =>
      cases mode : modes task <;> rw [mode] at allowed <;> contradiction
    | registerConnection | unregisterConnection | popConnection | touchHeartbeat | cleanupStaleIntents
      | setDefaultIntentMaxAge =>
      cases mode : modes task <;> simp only [mode,rule,reduceCtorEq] at allowed
      obtain rfl := Option.some.inj allowed
      exact quiet _ (shrinks_exec (manager_taken taken) (by simp) (by simp)) (same (by simp)) (by rw [mode])
        (by rw [mode]) (by simp [Mode.value]) (by simp) (by simp)

theorem once_of_joined (distinct : Distinct parties) (joined : Joined parties past modes nm)
    {handler other : τ} (answers : Answers past handler task) (also : Answers past handler other) : task = other := by
  obtain ⟨first,member,rfl,id,message,future,resolves,pending,has⟩ := answers
  obtain ⟨second,member',same,id',message',future',resolves',pending',has'⟩ := also
  obtain ⟨nodeId,caller,sends,named,calls,had⟩ := joined.resolved first member id message future resolves pending
  obtain ⟨nodeId',caller',sends',named',calls',had'⟩ := joined.resolved second member' id' message' future' resolves' pending'
  rw [same,sends] at sends'
  obtain ⟨rfl,rfl⟩ := Party.result.inj sends'
  obtain rfl := Json.str.inj (named.symm.trans named')
  have one := distinct caller caller' nodeId nodeId id calls calls'
  have unique : ∀ {t t' : τ} {f : Nat}, futureOf past t = some f → futureOf past t' = some f → t = t' :=
    fun {t t' f} h h' => joined.apart t t' f ((joined.told t).symm.trans h) ((joined.told t').symm.trans h')
  exact (unique has had).trans (one.trans (unique had' has'))

/-- Whatever calls, messages, connections and clean-ups are interleaved: while no failed
`send_json` leaves entries behind, every entry belongs to a call under way, and each call
returns what the node sent that it asked. -/
theorem intents_exchanged (floatText : ℚ → String) (defaultTimeout defaultIntentMaxAge : ℚ) (parties : τ → Party)
    (distinct : Distinct parties) (schedule : List (τ × Choice))
    (sound : Throughout (fun _ tr => leavesBehind tr = false) []
      (run exec schedule (start floatText defaultTimeout defaultIntentMaxAge parties)).2) :
    Exchanged parties (run exec schedule (start floatText defaultTimeout defaultIntentMaxAge parties)).2
      (run exec schedule (start floatText defaultTimeout defaultIntentMaxAge parties)).1 := by
  have initial : Joined parties ([] : List (Step τ)) (fun _ => .idle)
      (start floatText defaultTimeout defaultIntentMaxAge parties).shared :=
    ⟨fun _ => ⟨rfl,rfl⟩,by simp [start,NodeManager.started],by simp [start,NodeManager.started],
      by simp [start,NodeManager.started],fun _ => rfl,by simp [Mode.future],by simp [Mode.future],
      by simp [Mode.future],by simp [Mode.value],by simp,by simp⟩
  obtain ⟨modes,joined,follows⟩ := run_keeps (J := fun past modes nm => Joined parties past modes nm)
    (fun _ _ _ _ joined taken allowed sound => joined_step distinct joined taken allowed sound)
    schedule (start floatText defaultTimeout defaultIntentMaxAge parties) [] (fun _ => .idle) initial
    (fun task => program_follows floatText (parties task)) sound
  rw [List.nil_append] at joined
  have isSome_iff : ∀ {β : Type} (entries : OrderedMap String β) (id : String),
      id ∈ entries.keys ↔ (entries.get? id).isSome = true := by
    intro β entries id
    rw [OrderedMap.mem_keys,Option.isSome_iff_exists]
  refine ⟨fun id => ?_,fun id present => ?_,?_,fun handler task other => once_of_joined distinct joined⟩
  · obtain ⟨nodes,created⟩ := joined.coincide id
    simp only [isSome_iff,nodes,created,and_self]
  · obtain ⟨task,nodeId,calls,isOpen⟩ : ∃ task nodeId, (parties task).Calls nodeId id ∧ (modes task).isOpen = true := by
      rcases present with present | present <;> obtain ⟨value,found⟩ := OrderedMap.mem_keys.mp present
      · obtain ⟨task,nodeId,calls,isOpen,_⟩ := joined.pending id value found
        exact ⟨task,nodeId,calls,isOpen⟩
      · exact joined.maxAge id value found
    refine ⟨task,nodeId,calls,by rw [joined.told task]; exact future_of_open isOpen,?_⟩
    by_contra finished
    obtain ⟨result,shut,_⟩ := (follows task).ended (Bool.not_eq_false _ ▸ finished)
    rw [isOpen] at shut
    contradiction
  · intro task nodeId id value calls returned
    have ended : Ended (parties task) (.ok value) (modes task) := by
      have client := follows task
      rw [returned] at client
      exact client
    obtain ⟨handler,nodeId',sends,⟨id',calls'⟩,answers⟩ := joined.values task value (ended.2 value rfl ⟨nodeId,id,calls⟩)
    obtain rfl := calls_node calls calls'
    exact ⟨handler,sends,answers⟩

end

inductive Actor where
  | node
  | caller
  | handler
  deriving DecidableEq

def Actor.party : Actor → Party
  | .node => .upkeep (.registerConnection "n1" 0 "")
  | .caller => .call "n1" ⟨"docker.restart",[],"i1",none⟩ none (some 60)
  | .handler => .result "n1" [("intent_id",.str "i1"),("success",.bool true)]

theorem actors_distinct : Distinct Actor.party := by
  have one : ∀ task nodeId intentId, (Actor.party task).Calls nodeId intentId → task = .caller := by
    rintro (_ | _ | _) nodeId intentId ⟨_,_,_,same,_⟩
    · contradiction
    · rfl
    · contradiction
  exact fun task other _ _ _ calls also => (one task _ _ calls).trans (one other _ _ also).symm

def calm : Choice := ⟨⟨.none,0,false⟩,none⟩

def broken : Choice := ⟨⟨.before (.webSocketDisconnect 1006),0,false⟩,none⟩

def answeredCall : List (Actor × Choice) :=
  [.node,.caller,.caller,.caller,.handler,.handler,.caller,.caller].map fun actor => (actor,calm)

theorem answered_exchanged : Exchanged Actor.party
    (run exec answeredCall (start (fun _ => "") 30 300 Actor.party)).2
    (run exec answeredCall (start (fun _ => "") 30 300 Actor.party)).1 :=
  intents_exchanged (fun _ => "") 30 300 Actor.party actors_distinct answeredCall (by decide +kernel)

/-- The entries of a call whose message was not sent stay when it has ended. -/
theorem unsent_left_behind : ¬∀ (floatText : ℚ → String) (defaultTimeout defaultIntentMaxAge : ℚ)
    (parties : Actor → Party), Distinct parties → ∀ schedule : List (Actor × Choice),
    Exchanged parties (run exec schedule (start floatText defaultTimeout defaultIntentMaxAge parties)).2
      (run exec schedule (start floatText defaultTimeout defaultIntentMaxAge parties)).1 := by
  intro claim
  have exchanged := claim (fun _ => "") 30 300 Actor.party actors_distinct
    [(.node,calm),(.caller,calm),(.caller,calm),(.caller,broken)]
  obtain ⟨task,nodeId,calls,_,running⟩ := exchanged.living "i1" (.inl (by decide +kernel))
  cases task with
  | node | handler =>
    obtain ⟨_,_,_,same,_⟩ := calls
    contradiction
  | caller => exact absurd running (by decide +kernel)

end Vigile.IntentExchange
