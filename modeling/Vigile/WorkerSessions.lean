import Vigile.NodeStanding
import Vigile.SessionProtocol

/-! The end of an older session leaves the newer one of its node alone in exactly the
runs in which it comes too early or too late to find anything of it. -/
namespace Vigile.Workers

open Interleaving Python NodeManager

variable {τ : Type} {sec : Security}

abbrev Step (τ : Type) := Transition τ Outside State Act Act.Reply PyError

/-- The node, the session and the socket of a registration that took effect. -/
def registrationOf (tr : Step τ) : Option (String × τ × Socket) :=
  match tr.action with
  | .nm (.registerConnection nodeId websocket _) =>
    if tr.choice.fault.takesEffect then some (nodeId,tr.task,websocket) else none
  | _ => none

def registered (past : List (Step τ)) (nodeId : String) : List (τ × Socket) :=
  past.filterMap fun tr =>
    (registrationOf tr).bind fun entry => if entry.1 = nodeId then some entry.2 else none

def newest (past : List (Step τ)) (nodeId : String) : Option (τ × Socket) :=
  (registered past nodeId).getLast?

/-- The session has registered the node, and another one has since. -/
def Older (past : List (Step τ)) (nodeId : String) (task : τ) : Prop :=
  task ∈ (registered past nodeId).map Prod.fst ∧ ∃ entry ∈ newest past nodeId, entry.1 ≠ task

def sentOverOf (websocket : Socket) : Step τ → Option Nat
  | ⟨_,.nm (.openIntent _ _ _),_,_,.ok (socket,future),_⟩ =>
    if socket = websocket then some future else none
  | _ => none

def sentOver (past : List (Step τ)) (websocket : Socket) : List Nat :=
  past.filterMap (sentOverOf websocket)

/-- A step of an older session keeps the entry of the newer one, its intents, and the node
in CONNECTED. -/
def Harmless (past : List (Step τ)) (tr : Step τ) : Prop :=
  ∀ nodeId, Older past nodeId tr.task → ∀ task websocket, newest past nodeId = some (task,websocket) →
    (∀ conn, tr.before.nm.connections.get? nodeId = some conn → conn.websocket = websocket →
      ∃ conn', tr.after.nm.connections.get? nodeId = some conn' ∧ conn'.websocket = websocket) ∧
    (∀ future ∈ sentOver past websocket, tr.before.nm.futures[future]? = some .pending →
      tr.after.nm.futures[future]? ≠ some .cancelled) ∧
    (tr.before.stateOf nodeId = some .connected → tr.after.stateOf nodeId = some .connected)

/-- When an older session unregisters its node, the registry has no entry of it, and when
it moves the node, the node is not in CONNECTED. -/
def Clear (past : List (Step τ)) (tr : Step τ) : Prop :=
  ∀ nodeId, Older past nodeId tr.task → tr.choice.fault.takesEffect = true →
    (tr.action = .nm (.unregisterConnection nodeId) →
      tr.before.nm.connections.get? nodeId = none) ∧
    (∀ fromState newState now contact,
      tr.action = .updateState nodeId fromState newState now contact →
        tr.before.stateOf nodeId ≠ some .connected)

def Registered (nodeId : String) (phase : Phase) : Prop :=
  phase = .serving nodeId ∨ phase = .leaving nodeId ∨ phase = .broken nodeId

structure RegistryInvariant (operations : τ → Operation) (past : List (Step τ)) (modes : τ → Mode) (s : State) : Prop where
  entry : ∀ nodeId conn, s.nm.connections.get? nodeId = some conn →
    ∃ task, newest past nodeId = some (task,conn.websocket)
  rooted : s.nm.Rooted
  phases : ∀ nodeId task websocket, (task,websocket) ∈ registered past nodeId →
    (operations task).isSession = true ∧ Registered nodeId (modes task).phase

theorem registered_concat (past : List (Step τ)) (tr : Step τ) (nodeId : String) :
    registered (past ++ [tr]) nodeId = registered past nodeId ++
      ((registrationOf tr).bind fun entry =>
        if entry.1 = nodeId then some entry.2 else none).toList := by
  unfold registered
  rw [List.filterMap_append]
  congr 1

variable {past : List (Step τ)} {tr : Step τ} {act : Act} {nodeId : String} {reply : Except PyError Unit}
  {websocket : Socket} {m m' : Mode} {operation : Operation}

theorem registered_of_none (none : registrationOf tr = none)
    (nodeId : String) : registered (past ++ [tr]) nodeId = registered past nodeId := by
  simp [registered_concat,none]

theorem newest_of_none (none : registrationOf tr = none)
    (nodeId : String) : newest (past ++ [tr]) nodeId = newest past nodeId := by
  unfold newest
  rw [registered_of_none none]

/-- What a session that has registered its node still does: it unregisters the node, moves
it, or leaves the rows and the registry alone. -/
theorem registered_next {reply : Except PyError act.Reply} {phase next : Phase} (held : Registered nodeId phase) (moves : phase.next act reply = some next) :
    Registered nodeId next ∧ (act = .nm (.unregisterConnection nodeId) ∨
      (∃ fromState newState now contact,
        act = .updateState nodeId fromState newState now contact ∧ newState ≠ .connected) ∨
      act.restricted = false) := by
  rcases held with rfl | rfl | rfl
  · simp only [Phase.next] at moves
    split at moves
    · split at moves
      · rename_i same
        subst same
        obtain rfl := Option.some.inj moves
        refine ⟨?_,.inl rfl⟩
        split
        · exact .inr (.inl rfl)
        · exact .inl rfl
      · contradiction
    · split at moves
      · contradiction
      · rename_i free
        cases moves
        exact ⟨.inl rfl,.inr (.inr (by simpa using free))⟩
  · simp only [Phase.next] at moves
    split at moves
    · split at moves
      · rename_i same
        subst same
        cases moves
        exact ⟨.inr (.inl rfl),.inl rfl⟩
      · contradiction
    · split at moves
      · rename_i other fromState newState now contact written
        obtain ⟨rfl,which⟩ := written
        cases moves
        refine ⟨.inr (.inl rfl),.inr (.inl ⟨_,_,_,_,rfl,?_⟩)⟩
        rcases which with rfl | rfl <;> simp
      · contradiction
    · split at moves
      · contradiction
      · rename_i free
        cases moves
        exact ⟨.inr (.inl rfl),.inr (.inr (by simpa using free))⟩
  · simp only [Phase.next] at moves
    split at moves
    · contradiction
    · rename_i free
      cases moves
      exact ⟨.inr (.inr rfl),.inr (.inr (by simpa using free))⟩

theorem registered_of_registration {remote : String} {phase next : Phase}
    (moves : phase.next (.nm (.registerConnection nodeId websocket remote)) reply = some next) :
    phase = .connected nodeId ∧ Registered nodeId next := by
  cases phase with
  | connected other =>
    simp only [Phase.next] at moves
    split at moves
    · rename_i same
      subst same
      refine ⟨rfl,?_⟩
      cases reply <;> cases moves
      · exact .inr (.inr rfl)
      · exact .inl rfl
    · contradiction
  | _ => simp [Phase.next,Act.restricted] at moves

/-- A mode that moves takes its phase along the protocol of sessions. -/
theorem next_of_rule {reply : Except PyError act.Reply}
    (allowed : rule act reply m = some m') : m.permits act ∧ m.phase.next act reply = some m'.phase := by
  unfold rule at allowed
  split at allowed
  · rename_i permitted
    obtain ⟨phase,moves,rfl⟩ := Option.map_eq_some_iff.mp allowed
    exact ⟨permitted,moves⟩
  · contradiction

variable {operations : τ → Operation}

theorem registration_rule
    {remote : String}
    (allowed : operation.rule (.nm (.registerConnection nodeId websocket remote)) reply m = some m') :
    operation.isSession = true ∧ Registered nodeId m'.phase := by
  unfold Operation.rule at allowed
  split at allowed
  · rename_i session
    exact ⟨session,(registered_of_registration (next_of_rule allowed).2).2⟩
  · simp [otherRule,Act.sessional] at allowed

theorem pop_rule (keeps : operation.pops = false)
    {reply : Except PyError (Option ActiveConnection)} :
    operation.rule (.nm (.popConnection nodeId)) reply m = none := by
  unfold Operation.rule
  split
  · unfold rule
    rw [if_pos (show m.permits (.nm (.popConnection nodeId)) from trivial)]
    cases m.phase <;> rfl
  · simp [otherRule,Act.sessional,Act.pops,keeps]

theorem session_rule {reply : Except PyError act.Reply} (session : operation.isSession = true)
    (allowed : operation.rule act reply m = some m') : rule act reply m = some m' := by
  rwa [Operation.rule,if_pos session] at allowed

theorem registrationOf_eq {entry : String × τ × Socket}
    (h : registrationOf tr = some entry) : tr.choice.fault.takesEffect = true ∧ tr.task = entry.2.1 ∧
      ∃ remote, tr.action = .nm (.registerConnection entry.1 entry.2.2 remote) := by
  unfold registrationOf at h
  split at h
  · rename_i nodeId websocket remote action
    split at h
    · rename_i takes
      obtain rfl := Option.some.inj h
      exact ⟨takes,rfl,remote,action⟩
    · contradiction
  · contradiction

theorem newest_of_registration {task : τ} (h : registrationOf tr = some (nodeId,task,websocket)) (other : String) :
    newest (past ++ [tr]) other = if nodeId = other then some (task,websocket) else newest past other := by
  unfold newest
  rw [registered_concat,h]
  simp only [Option.bind_some]
  split <;> simp

theorem registrationOf_none (other : ∀ nodeId websocket remote,
    tr.action = .nm (.registerConnection nodeId websocket remote) →
      tr.choice.fault.takesEffect = false) : registrationOf tr = none := by
  refine Option.eq_none_iff_forall_ne_some.mpr fun entry h => ?_
  obtain ⟨takes,_,remote,action⟩ := registrationOf_eq h
  rw [other _ _ _ action] at takes
  contradiction

inductive EntryFrom (tr : Step τ) (nodeId : String) (conn : ActiveConnection) : Prop
  | registered (task : τ) (registers : registrationOf tr = some (nodeId,task,conn.websocket))
  | kept (other : ∀ task websocket, registrationOf tr ≠ some (nodeId,task,websocket))
      (old : ActiveConnection) (before : tr.before.nm.connections.get? nodeId = some old)
      (socket : old.websocket = conn.websocket)

theorem entry_cases (taken : Taken (exec sec) tr)
    {conn : ActiveConnection} (found : tr.after.nm.connections.get? nodeId = some conn) :
    EntryFrom tr nodeId conn := by
  obtain ⟨task,action,choice,before,reply,after⟩ := tr
  simp only [Taken] at taken found
  have unregistered : (∀ other websocket remote,
      action = .nm (.registerConnection other websocket remote) → choice.fault.takesEffect = false) →
      before.nm.connections.get? nodeId = some conn →
      EntryFrom ⟨task,action,choice,before,reply,after⟩ nodeId conn :=
    fun quiet kept => .kept (fun _ _ => by rw [registrationOf_none quiet]; simp) conn kept rfl
  cases action with
  | nm act =>
    obtain ⟨done,_⟩ := nm_done_of_exec taken
    cases done with
    | same missed unchanged =>
      refine unregistered ?_ (unchanged ▸ found)
      rintro other websocket remote ⟨⟩
      rcases missed with missed | ⟨future,impossible⟩
      · exact missed
      · contradiction
    | cancelled future waits effect =>
      subst waits
      exact unregistered (fun _ _ _ impossible => by cases impossible) (by rw [effect] at found; exact found)
    | effect struck effect =>
      rw [effect,get?_effect] at found
      cases act with
      | registerConnection other websocket remote =>
        simp only [entryAfter] at found
        have takes : choice.fault.takesEffect = true := struck rfl
        split at found
        · rename_i same
          obtain rfl := Option.some.inj found
          exact .registered task (by simp [registrationOf,takes,same])
        · rename_i differ
          refine .kept (fun _ _ h => ?_) conn found rfl
          simp only [registrationOf,takes,if_true,Option.some.injEq,Prod.mk.injEq] at h
          exact differ h.1.symm
      | unregisterConnection other | popConnection other =>
        simp only [entryAfter] at found
        split at found
        · contradiction
        · exact unregistered (fun _ _ _ impossible => by cases impossible) found
      | touchHeartbeat other =>
        simp only [entryAfter] at found
        obtain ⟨old,before,rfl⟩ := Option.map_eq_some_iff.mp found
        refine .kept (fun _ _ => ?_) old before ?_
        · rw [registrationOf_none fun _ _ _ impossible => by cases impossible]
          simp
        · split <;> rfl
      | _ => exact unregistered (fun _ _ _ impossible => by cases impossible) found
  | _ =>
    have same := nm_of_exec taken fun _ => by simp
    exact unregistered (fun _ _ _ impossible => by cases impossible) (same ▸ found)

variable {s s' : State} {outside : Outside}

theorem unregister_exec
    (h : exec sec (.nm (.unregisterConnection nodeId)) outside s = some (s',reply)) :
    s' = if outside.fault.takesEffect then {s with nm := s.nm.unregisterConnection nodeId} else s := by
  obtain ⟨done,rest⟩ := nm_done_of_exec h
  cases done with
  | same missed unchanged =>
    rcases missed with missed | ⟨future,impossible⟩
    · rw [rest,unchanged]
      simp only at missed
      simp [missed]
    · contradiction
  | cancelled future waits after => contradiction
  | effect struck after =>
    have takes : outside.fault.takesEffect = true := struck rfl
    rw [rest,after,takes]
    rfl

theorem updateState_exec {fromState newState : NodeState} {now : ℚ}
    {contact : Option Contact}
    (h : exec sec (.updateState nodeId fromState newState now contact) outside s = some (s',reply)) :
    s' = if outside.fault.takesEffect then
        {s with nodes := updateNode s.nodes nodeId (·.moved newState now contact)}
      else s := by
  have struck := congrArg Prod.fst (Option.some.inj h)
  rw [strike_fst] at struck
  exact struck.symm

theorem stateOf_updateState (s : State) (nodeId : String) (newState : NodeState) (now : ℚ)
    (contact : Option Contact) :
    State.stateOf {s with nodes := updateNode s.nodes nodeId (·.moved newState now contact)} nodeId =
      (s.stateOf nodeId).map fun _ => newState := by
  simp only [State.stateOf,get?_updateNode,Option.map_map]
  congr 1
  funext row
  simp

/-- What leaves the rows and the registry alone also cancels no intent. -/
theorem free_exec {reply : Except PyError act.Reply} (free : act.restricted = false)
    (h : exec sec act outside s = some (s',reply)) (nodeId : String) :
    (∀ conn, s.nm.connections.get? nodeId = some conn →
      ∃ conn', s'.nm.connections.get? nodeId = some conn' ∧ conn'.websocket = conn.websocket) ∧
    (∀ future : Nat, s.nm.futures[future]? = some .pending → s'.nm.futures[future]? ≠ some .cancelled) ∧
    s'.stateOf nodeId = s.stateOf nodeId := by
  have state : s'.stateOf nodeId = s.stateOf nodeId := by
    rw [stateOf_eq,stateOf_eq]
    rcases standing_of_exec h nodeId with same | same
    · rw [same]
    · rw [same]
      cases act with
      | updateState | updateFlag | enroll | deleteNode => contradiction
      | _ => rfl
  refine and_assoc.mp ⟨?_,state⟩
  have same : s'.nm = s.nm → (∀ conn, s.nm.connections.get? nodeId = some conn →
      ∃ conn', s'.nm.connections.get? nodeId = some conn' ∧ conn'.websocket = conn.websocket) ∧
      ∀ future : Nat, s.nm.futures[future]? = some .pending →
        s'.nm.futures[future]? ≠ some .cancelled := by
    intro same
    rw [same]
    exact ⟨fun conn found => ⟨conn,found,rfl⟩,fun _ pending cancelled => by simp [pending] at cancelled⟩
  cases act with
  | nm act =>
    cases (nm_done_of_exec h).1 with
    | same missed unchanged => exact same unchanged
    | cancelled future waits after =>
      subst waits
      contradiction
    | effect struck after =>
      cases act with
      | touchHeartbeat other =>
        rw [after,get?_effect]
        refine ⟨fun conn found => ⟨_,congrArg (Option.map _) found,?_⟩,fun future pending cancelled => ?_⟩
        · split <;> rfl
        · change s.nm.futures[future]? = some .cancelled at cancelled
          simp [pending] at cancelled
      | resolveIntent intentId result =>
        rw [after,get?_effect]
        refine ⟨fun conn found => ⟨conn,found,rfl⟩,fun future pending cancelled => ?_⟩
        simp only [NodeManager.effect,resolveIntent] at cancelled
        split at cancelled
        · simp [forget,pending] at cancelled
        · simp only [forget,settle,List.getElem?_modify,pending] at cancelled
          split at cancelled <;> simp at cancelled
      | intentNode intentId => exact same after
      | _ => contradiction
  | _ => exact same (nm_of_exec h fun _ => by simp)

variable [DecidableEq τ]

theorem RegistryInvariant.step (keeps : ∀ task, (operations task).pops = false)
    (past : List (Step τ)) (modes : τ → Mode) (tr : Step τ) (m : Mode)
    (inv : RegistryInvariant operations past modes tr.before) (taken : Taken (exec sec) tr)
    (allowed : (operations tr.task).rule tr.action tr.reply (modes tr.task) = some m) :
    RegistryInvariant operations (past ++ [tr]) (Function.update modes tr.task m) tr.after := by
  constructor
  · intro nodeId conn found
    cases entry_cases taken found with
    | registered task registers => exact ⟨task,by rw [newest_of_registration registers,if_pos rfl]⟩
    | kept other old before socket =>
      obtain ⟨task,last⟩ := inv.entry nodeId old before
      refine ⟨task,?_⟩
      rw [← socket,← last]
      cases h : registrationOf tr with
      | none => exact newest_of_none h nodeId
      | some entry =>
        obtain ⟨other',task',websocket⟩ := entry
        rw [newest_of_registration h,if_neg]
        rintro rfl
        exact other _ _ h
  · obtain ⟨task,action,choice,before,reply,after⟩ := tr
    simp only [Taken] at taken
    cases action with
    | nm act =>
      refine rooted_done inv.rooted ?_ (nm_done_of_exec taken).1
      cases act with
      | popConnection nodeId =>
        rw [pop_rule (keeps task)] at allowed
        contradiction
      | _ => rfl
    | _ => exact nm_of_exec taken (fun _ => by simp) ▸ inv.rooted
  · intro nodeId task websocket member
    rw [registered_concat,List.mem_append] at member
    rcases member with member | member
    · by_cases same : task = tr.task
      · subst same
        rw [Function.update_self]
        obtain ⟨session,held⟩ := inv.phases nodeId _ websocket member
        exact ⟨session,(registered_next held (next_of_rule (session_rule session allowed)).2).1⟩
      · rw [Function.update_of_ne same]
        exact inv.phases nodeId task websocket member
    · rw [Option.mem_toList] at member
      obtain ⟨⟨node,mover,socket⟩,registers,here⟩ := Option.bind_eq_some_iff.mp member
      split at here
      · rename_i same
        obtain ⟨rfl,rfl⟩ := Prod.mk.inj (Option.some.inj here)
        obtain ⟨_,rfl,remote,action⟩ := registrationOf_eq registers
        dsimp only at same action ⊢
        subst same
        rw [Function.update_self]
        obtain ⟨task,act,choice,before,reply,after⟩ := tr
        dsimp only at action allowed
        subst action
        exact registration_rule allowed
      · contradiction

omit [DecidableEq τ] in
/-- For one step, in any state the invariant allows. -/
theorem harmless_iff_clear {modes : τ → Mode}
    (inv : RegistryInvariant operations past modes tr.before) (taken : Taken (exec sec) tr)
    (allowed : (operations tr.task).rule tr.action tr.reply (modes tr.task) = some m) :
    Harmless past tr ↔ Clear past tr := by
  obtain ⟨task,action,choice,before,reply,after⟩ := tr
  simp only [Taken] at taken
  have moves : ∀ nodeId, Older past nodeId task → action = .nm (.unregisterConnection nodeId) ∨
      (∃ fromState newState now contact,
        action = .updateState nodeId fromState newState now contact ∧ newState ≠ .connected) ∨
      action.restricted = false := by
    rintro nodeId ⟨member,_⟩
    obtain ⟨⟨_,websocket⟩,listed,rfl⟩ := List.mem_map.mp member
    obtain ⟨session,held⟩ := inv.phases nodeId _ websocket listed
    exact (registered_next held (next_of_rule (session_rule session allowed)).2).2
  constructor
  · intro harmless nodeId older takes
    obtain ⟨_,⟨other,websocket⟩,last,_⟩ := id older
    obtain ⟨entry,_,state⟩ := harmless nodeId older other websocket last
    refine ⟨?_,?_⟩
    · rintro rfl
      by_contra present
      obtain ⟨conn,found⟩ := Option.ne_none_iff_exists'.mp present
      obtain ⟨newer,same⟩ := inv.entry nodeId conn found
      obtain ⟨_,rfl⟩ := Prod.mk.inj (Option.some.inj (last.symm.trans same))
      obtain ⟨conn',left,_⟩ := entry conn found rfl
      have done := unregister_exec taken
      simp only at takes left
      rw [done,takes] at left
      simp [unregister_connections] at left
    · rintro fromState newState now contact rfl connected
      have target : newState ≠ .connected := by
        rcases moves nodeId older with impossible | ⟨_,_,_,_,same,target⟩ | free
        · contradiction
        · cases same
          exact target
        · contradiction
      have kept := state connected
      have done := updateState_exec taken
      simp only at takes kept connected
      rw [done,takes] at kept
      simp only [if_true] at kept
      rw [stateOf_updateState,connected] at kept
      exact target (Option.some.inj kept)
  · intro clear nodeId older other websocket last
    rcases moves nodeId older with rfl | ⟨fromState,newState,now,contact,rfl,target⟩ | free
    · have done := unregister_exec taken
      cases takes : choice.fault.takesEffect with
      | false =>
        rw [takes] at done
        obtain rfl : after = before := done
        exact ⟨fun conn found socket => ⟨conn,found,socket⟩,
          fun _ _ pending cancelled => by simp [pending] at cancelled,id⟩
      | true =>
        have absent := (clear nodeId older takes).1 rfl
        simp only at absent
        rw [takes] at done
        obtain rfl : after = {before with nm := before.nm.unregisterConnection nodeId} := done
        have free : ∀ id, before.nm.intentNodes.get? id ≠ some nodeId := by
          intro id found
          simpa [absent] using inv.rooted id nodeId found
        refine ⟨fun conn found => by simp [absent] at found,fun future _ pending cancelled => ?_,id⟩
        simp only [unregister_futures free] at cancelled pending
        simp [pending] at cancelled
    · have done := updateState_exec taken
      have nodes : after.nm = before.nm := by rw [done]; split <;> rfl
      refine ⟨fun conn found socket => ⟨conn,by simpa [nodes] using found,socket⟩,
        fun future _ pending cancelled => ?_,fun connected => ?_⟩
      · simp only [nodes] at cancelled pending
        simp [pending] at cancelled
      · cases takes : choice.fault.takesEffect with
        | false =>
          rw [takes] at done
          obtain rfl : after = before := done
          exact connected
        | true => exact absurd connected ((clear nodeId older takes).2 _ _ _ _ rfl)
    · obtain ⟨entries,futures,state⟩ := free_exec free taken nodeId
      refine ⟨fun conn found socket => ?_,fun future _ pending => futures future pending,fun connected => ?_⟩
      · obtain ⟨conn',left,same⟩ := entries conn found
        exact ⟨conn',left,same.trans socket⟩
      · simp only at connected ⊢
        rw [state,connected]

/-- A new process on any database. -/
def boot (nodes : OrderedMap String NodeRow) (joinTokens : OrderedMap String JoinToken)
    (workerTokens : OrderedMap String WorkerToken) (defaultTimeout intentMaxAge : ℚ) : State :=
  ⟨nodes,joinTokens,workerTokens,NodeManager.started defaultTimeout intentMaxAge⟩

/-- Sessions, the monitor, intents and tokens: what closes a connection unregisters its node. -/
abbrev SessionWork := {operation : Operation // operation.pops = false}

omit [DecidableEq τ] in
theorem registryInvariant_start (operations : τ → Operation) (nodes : OrderedMap String NodeRow)
    (joinTokens : OrderedMap String JoinToken) (workerTokens : OrderedMap String WorkerToken)
    (defaultTimeout intentMaxAge : ℚ) : RegistryInvariant operations [] (fun _ => .start)
      (boot nodes joinTokens workerTokens defaultTimeout intentMaxAge) := by
  constructor
  · intro nodeId conn found
    cases found
  · intro id nodeId found
    cases found
  · intro nodeId task websocket member
    cases member

/-- In every run, the older sessions harm no newer one if and only if all their steps are clear. -/
theorem sessions_harmless_iff_clear (sec : Security) (nodes : OrderedMap String NodeRow)
    (joinTokens : OrderedMap String JoinToken) (workerTokens : OrderedMap String WorkerToken)
    (defaultTimeout intentMaxAge : ℚ) (operations : τ → SessionWork) (schedule : List (τ × Outside)) :
    Throughout Harmless [] (run (exec sec) schedule (start sec
      (boot nodes joinTokens workerTokens defaultTimeout intentMaxAge) fun t => (operations t).1)).2 ↔
    Throughout Clear [] (run (exec sec) schedule (start sec
      (boot nodes joinTokens workerTokens defaultTimeout intentMaxAge) fun t => (operations t).1)).2 := by
  have step : ∀ (past : List (Step τ)) (modes : τ → Mode) (tr : Step τ) m,
      RegistryInvariant (fun t => (operations t).1) past modes tr.before → Taken (exec sec) tr →
      (operations tr.task).1.rule tr.action tr.reply (modes tr.task) = some m → True →
      RegistryInvariant (fun t => (operations t).1) (past ++ [tr])
        (Function.update modes tr.task m) tr.after :=
    fun past modes tr m inv taken allowed _ =>
      inv.step (fun t => (operations t).2) past modes tr m taken allowed
  have each : ∀ (past : List (Step τ)) (modes : τ → Mode) (tr : Step τ) m,
      RegistryInvariant (fun t => (operations t).1) past modes tr.before → Taken (exec sec) tr →
      (operations tr.task).1.rule tr.action tr.reply (modes tr.task) = some m → True →
      (Harmless past tr ↔ Clear past tr) :=
    fun past modes tr m inv taken allowed _ => harmless_iff_clear inv taken allowed
  exact throughout_congr (run_transitions step each schedule _ [] (fun _ => Mode.start)
    (registryInvariant_start _ nodes joinTokens workerTokens defaultTimeout intentMaxAge)
    (start_follows sec _ fun t => (operations t).1) (throughout_iff_forall.mpr fun _ _ => trivial))

/-! A session whose worker was marked LOST ends after the worker has come back -/

/-- Tokens that are their own hashes, every one for the node "n1", and signatures that verify. -/
def plainSecurity : Security where
  enforceHttps := false
  heartbeatInterval := 30
  decodeJoinToken _ _ := .ok ⟨"n1","","web",""⟩
  verifyWorkerToken _ _ := .ok "n1"
  tokenHash
    | .str token => token
    | _ => ""
  verifySignature _ _ _ := true
  workerTokenTtl := 2592000
  workerTokenRotation := 604800
  joinTokenTtl := 1800
  masterPublicKey := ""
  jsonText _ := ""
  floatText _ := ""

def joinMessage (joinToken : String) : Json :=
  .object [("type",.str "ENROLLMENT_REQUEST"),("join_token",.str joinToken),("public_key",.str "k")]

def reconnectMessage (workerToken : String) : Json :=
  .object [("type",.str "ENROLLMENT_REQUEST"),("reconnect",.bool true),
    ("worker_token",.str workerToken),("public_key",.str "k")]

def responseMessage : Json :=
  .object [("type",.str "ENROLLMENT_RESPONSE"),("signature",.str "s")]

def sends (message : Json) : Outside := {calm with message := some message}

def draws (fresh : String) : Outside := {calm with fresh := fresh}

def drops : Outside := {calm with fault := .before (.webSocketDisconnect 1006)}

def late : Outside := {calm with now := 1000}

/-- A first enrollment, up to its audit entry. -/
def joining {τ : Type} (task : τ) (joinToken workerToken id : String) : List (τ × Outside) :=
  ([calm,sends (joinMessage joinToken),calm,calm,calm,calm,calm,calm,sends responseMessage,calm,calm,
    calm,draws workerToken,draws id,calm,calm,calm,calm] : List Outside).map fun choice => (task,choice)

def reconnecting {τ : Type} (task : τ) (oldToken workerToken id : String) : List (τ × Outside) :=
  ([calm,sends (reconnectMessage oldToken),calm,calm,calm,calm,calm,calm,calm,calm,calm,
    draws workerToken,draws id,calm,calm,calm,calm,calm,calm,calm,calm,calm] : List Outside).map
      fun choice => (task,choice)

def oneJoinToken : OrderedMap String JoinToken := OrderedMap.empty.set "j1" ⟨"n1",false,1800⟩

def arrivalAt (websocket : Socket) : Arrival := ⟨websocket,some "10.0.0.1",true,false⟩

def lostAndFound : Fin 3 → SessionWork
  | 0 => ⟨.session (arrivalAt 0) 1,rfl⟩
  | 1 => ⟨.monitor 300 86400,rfl⟩
  | 2 => ⟨.session (arrivalAt 2) 1,rfl⟩

def lateEnd : List (Fin 3 × Outside) :=
  joining 0 "j1" "t1" "u1" ++ List.replicate 10 (1,late) ++ reconnecting 2 "t1" "t2" "u2" ++
    [(0,drops)] ++ List.replicate 8 (0,calm)

/-- A step of an older session that removes the entry of the newest one. -/
def Removes (past : List (Step τ)) (tr : Step τ) (nodeId : String) : Prop :=
  Older past nodeId tr.task ∧
    (newest past nodeId).map Prod.snd =
      (tr.before.nm.connections.get? nodeId).map ActiveConnection.websocket ∧
    tr.before.nm.connections.get? nodeId ≠ none ∧ tr.after.nm.connections.get? nodeId = none

instance (past : List (Step τ)) (tr : Step τ) (nodeId : String) :
    Decidable (Removes past tr nodeId) := by
  unfold Removes Older
  infer_instance

theorem late_end_removes_newer : ¬∀ (sec : Security) (nodes : OrderedMap String NodeRow)
    (joinTokens : OrderedMap String JoinToken) (workerTokens : OrderedMap String WorkerToken)
    (defaultTimeout intentMaxAge : ℚ) (operations : Fin 3 → SessionWork)
    (schedule : List (Fin 3 × Outside)),
    Throughout Harmless [] (run (exec sec) schedule (start sec
      (boot nodes joinTokens workerTokens defaultTimeout intentMaxAge) fun t => (operations t).1)).2 := by
  intro harmless
  have run := harmless plainSecurity .empty oneJoinToken .empty 30 300 lostAndFound lateEnd
  have removes : ∃ k ∈ List.range 54, ∃ tr ∈ (Interleaving.run (exec plainSecurity) lateEnd
      (start plainSecurity (boot .empty oneJoinToken .empty 30 300) fun t => (lostAndFound t).1)).2[k]?,
      Removes ((Interleaving.run (exec plainSecurity) lateEnd (start plainSecurity
        (boot .empty oneJoinToken .empty 30 300) fun t => (lostAndFound t).1)).2.take k) tr "n1" := by
    decide +kernel
  obtain ⟨k,_,tr,found,older,socket,present,absent⟩ := removes
  obtain ⟨conn,before⟩ := Option.ne_none_iff_exists'.mp present
  rw [before,Option.map_some,Option.map_eq_some_iff] at socket
  obtain ⟨⟨task,websocket⟩,last,same⟩ := socket
  obtain ⟨entry,_⟩ := run.getElem? found "n1" older task websocket last
  obtain ⟨conn',after,_⟩ := entry conn before same.symm
  rw [absent] at after
  contradiction

end Vigile.Workers
