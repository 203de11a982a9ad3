import Vigile.WorkerHandshake

/-! What a session that nobody interrupts keeps: a registered node is CONNECTED, and a
CONNECTED node is enabled. -/
namespace Vigile.Workers

open Interleaving Python NodeManager

variable {sec : Security} {s s' : State}

/-- A registered node is CONNECTED, and a CONNECTED node is enabled. -/
def SoundAt (s : State) (nodeId : String) : Prop :=
  (s.isRegistered nodeId = true → s.stateOf nodeId = some .connected) ∧
    (s.stateOf nodeId = some .connected → s.isDisabled nodeId = false)

def Sound (s : State) : Prop := ∀ nodeId, SoundAt s nodeId

def Exposed (s : State) (nodeId : String) : Prop :=
  s.isDisabled nodeId = true ∧ (s.stateOf nodeId = some .connected ∨ s.isRegistered nodeId = true)

def raises (act : Act) (reply : Except PyError act.Reply) : Bool :=
  match act,reply with
  | .publish _ _ _ _,.error error => !error.isException
  | _,.ok _ => false
  | _,.error _ => true

/-- The node whose flag was set by a statement that raised all the same. -/
def flaggedWithError (tr : Step Unit) : Option String :=
  match tr.action,tr.choice.fault with
  | .updateFlag nodeId true _,.after _ => some nodeId
  | _,_ => none

def popsNode (tr : Step Unit) (nodeId : String) : Bool :=
  match tr.action with
  | .nm (.popConnection other) => other = nodeId && tr.choice.fault.takesEffect
  | _ => false

structure Careful (tr : Step Unit) : Prop where
  /-- No handshake of a disabled node. -/
  enabled : ∀ nodeId, written tr = some (nodeId,.enrolling) → tr.before.isDisabled nodeId = false
  /-- The flag of a node that has not left is set without an error. -/
  flagged : ∀ nodeId, flaggedWithError tr = some nodeId →
    ¬(tr.before.stateOf nodeId = some .connected ∨ tr.before.isRegistered nodeId = true)
  /-- Nothing fails before the node has left. -/
  closing : ∀ nodeId, Exposed tr.before nodeId →
    raises tr.action tr.reply = false ∨ popsNode tr nodeId = true

instance (s : State) (nodeId : String) : Decidable (Exposed s nodeId) := by
  unfold Exposed
  infer_instance

/-- Only nodes with a row are exposed. -/
instance (tr : Step Unit) : Decidable (Careful tr) :=
  decidable_of_iff ((∀ entry ∈ written tr, entry.2 = .enrolling → tr.before.isDisabled entry.1 = false) ∧
    (∀ nodeId ∈ flaggedWithError tr,
      ¬(tr.before.stateOf nodeId = some .connected ∨ tr.before.isRegistered nodeId = true)) ∧
    ∀ entry ∈ tr.before.nodes.entries, Exposed tr.before entry.1 →
      raises tr.action tr.reply = false ∨ popsNode tr entry.1 = true) <| by
    constructor
    · rintro ⟨enabled,flagged,closing⟩
      refine ⟨fun nodeId writes => enabled _ writes rfl,flagged,fun nodeId exposed => ?_⟩
      cases found : tr.before.nodes.get? nodeId with
      | none => simp [Exposed,State.isDisabled,found] at exposed
      | some row => exact closing (nodeId,row) (OrderedMap.mem_entries.mpr found) exposed
    · intro careful
      refine ⟨?_,careful.flagged,fun entry _ => careful.closing entry.1⟩
      rintro ⟨nodeId,state⟩ writes rfl
      exact careful.enabled nodeId writes

variable {nodeId : String} {act : Act} {outside : Outside} {contact : Option Contact} {fromState newState : NodeState}
  {now : ℚ} {reply : Except PyError Unit} {m : Mode} {e : Enrollment} {next : Phase}

theorem isDisabled_of_standing
    (same : s'.standing nodeId = s.standing nodeId) : s'.isDisabled nodeId = s.isDisabled nodeId := by
  rw [isDisabled_eq,isDisabled_eq,same]

theorem stateOf_of_standing
    (same : s'.standing nodeId = s.standing nodeId) : s'.stateOf nodeId = s.stateOf nodeId := by
  rw [stateOf_eq,stateOf_eq,same]

/-- Connections may go, as long as the standing stays. -/
theorem soundAt_kept (sound : SoundAt s nodeId)
    (standing : s'.standing nodeId = s.standing nodeId)
    (registered : s'.isRegistered nodeId = true → s.isRegistered nodeId = true) : SoundAt s' nodeId := by
  unfold SoundAt
  rw [stateOf_of_standing standing,isDisabled_of_standing standing]
  exact ⟨fun here => sound.1 (registered here),sound.2⟩

theorem not_registered (sound : SoundAt s nodeId)
    (other : s.stateOf nodeId ≠ some .connected) : s.isRegistered nodeId = false := by
  by_contra registered
  rw [Bool.not_eq_false] at registered
  exact other (sound.1 registered)

/-- The steps that touch neither. -/
theorem quiet_exec {reply : Except PyError act.Reply}
    (quiet : act.restricted = false) (h : exec sec act outside s = some (s',reply)) (nodeId : String) :
    s'.standing nodeId = s.standing nodeId ∧ s'.isRegistered nodeId = s.isRegistered nodeId := by
  rcases outcome_of_exec h with ⟨_,same⟩ | after
  · exact same nodeId
  · obtain ⟨standing,registered⟩ := after nodeId
    rw [standing,registered]
    cases act with
    | nm act => cases act <;> first | contradiction | exact ⟨rfl,rfl⟩
    | updateState | updateFlag | enroll | deleteNode => contradiction
    | _ => exact ⟨rfl,rfl⟩

theorem sound_quiet {reply : Except PyError act.Reply}
    (quiet : act.restricted = false) (h : exec sec act outside s = some (s',reply))
    (sound : Sound s) : Sound s' := by
  intro nodeId
  obtain ⟨standing,registered⟩ := quiet_exec quiet h nodeId
  exact soundAt_kept (sound nodeId) standing (registered ▸ id)

/-- A state may be written over a node that has no connection, or that is moved to
CONNECTED while it is enabled. -/
theorem sound_updateState
    (h : exec sec (.updateState nodeId fromState newState now contact) outside s = some (s',reply))
    (free : newState ≠ .connected → s.isRegistered nodeId = false)
    (enabled : newState = .connected → s.isDisabled nodeId = false) (sound : Sound s) : Sound s' := by
  intro other
  rcases outcome_of_exec h with ⟨_,same⟩ | after
  · obtain ⟨standing,registered⟩ := same other
    exact soundAt_kept (sound other) standing (registered ▸ id)
  · obtain ⟨standing,registered⟩ := after other
    by_cases here : other = nodeId
    · subst here
      have state : s'.stateOf other = (s.stateOf other).map fun _ => newState := by
        rw [stateOf_eq,stateOf_eq,standing]
        simp [standingAfter,Option.map_map,Function.comp_def]
      have flag : s'.isDisabled other = s.isDisabled other := by
        rw [isDisabled_eq,isDisabled_eq,standing]
        simp [standingAfter,Option.map_map,Function.comp_def]
      have registered' : s'.isRegistered other = s.isRegistered other := registered
      by_cases connects : newState = .connected
      · subst connects
        constructor
        · intro known
          rw [registered'] at known
          rw [state,(sound other).1 known]
          rfl
        · intro _
          rw [flag]
          exact enabled rfl
      · constructor
        · intro known
          rw [registered',free connects] at known
          contradiction
        · intro connected
          rw [state,Option.map_eq_some_iff] at connected
          obtain ⟨_,_,same⟩ := connected
          exact absurd same connects
    · apply soundAt_kept (sound other) _ (fun known => by rw [registered] at known; exact known)
      rw [standing]
      simp [standingAfter,here]

structure SessionSound (m : Mode) (s : State) : Prop where
  sound : Sound s
  read : ∀ nodeId state, m.read = some (nodeId,state) → s.stateOf nodeId = some state
  opened : ∀ nodeId, m.phase = .opened nodeId → s.isDisabled nodeId = false
  connected : ∀ nodeId, m.phase = .connected nodeId → s.stateOf nodeId = some .connected
  leaving : ∀ nodeId, m.phase = .leaving nodeId → s.isRegistered nodeId = false

/-- What is read is what is stored. -/
theorem read_after {reply : Except PyError act.Reply}
    (quiet : act.restricted = false) (h : exec sec act outside s = some (s',reply))
    (read : ∀ nodeId state, m.read = some (nodeId,state) → s.stateOf nodeId = some state) {state : NodeState} (now : m.readAfter act reply = some (nodeId,state)) :
    s'.stateOf nodeId = some state := by
  rw [stateOf_of_standing (quiet_exec quiet h nodeId).1]
  cases act with
  | selectState other =>
    cases reply with
    | error => contradiction
    | ok found =>
      have answer := effect_of_ok h fun _ => by simp
      obtain ⟨rfl,same⟩ := Prod.mk.inj answer
      obtain rfl := Except.ok.inj same
      obtain ⟨current,stored,same⟩ := Option.map_eq_some_iff.mp now
      obtain ⟨rfl,rfl⟩ := Prod.mk.inj same
      exact stored
  | selectFlag other =>
    cases reply with
    | error => contradiction
    | ok found =>
      have answer := effect_of_ok h fun _ => by simp
      obtain ⟨rfl,same⟩ := Prod.mk.inj answer
      obtain rfl := Except.ok.inj same
      obtain ⟨current,stored,same⟩ := Option.map_eq_some_iff.mp now
      obtain ⟨rfl,rfl⟩ := Prod.mk.inj same
      obtain ⟨row,found,rfl⟩ := Option.map_eq_some_iff.mp stored
      unfold State.stateOf
      rw [found]
      rfl
  | updateState => contradiction
  | _ => exact read nodeId state now

theorem isDisabled_updateState
    (h : exec sec (.updateState nodeId fromState newState now contact) outside s = some (s',reply))
    (other : String) : s'.isDisabled other = s.isDisabled other := by
  rcases standing_of_exec h other with same | after
  · exact isDisabled_of_standing same
  · rw [isDisabled_eq,isDisabled_eq,after]
    simp only [standingAfter,Option.map_map]
    congr 2
    funext old
    simp only [Function.comp_apply]
    split <;> rfl

/-- A first enrollment either changes no node or makes the row of a new one. -/
theorem enroll_first (first : e.first = true) (h : exec sec (.enroll e) outside s = some (s',reply)) :
    (∀ nodeId, s'.isRegistered nodeId = s.isRegistered nodeId) ∧
      ((reply.isOk = false ∧ ∀ nodeId, s'.standing nodeId = s.standing nodeId) ∨
        (s.standing e.payload.nodeId = none ∧ ∀ nodeId, s'.standing nodeId =
          if nodeId = e.payload.nodeId then some (.connected,false) else s.standing nodeId)) := by
  have through : ∀ after, enrollRows s e = .ok after → s.standing e.payload.nodeId = none := by
    intro after rows
    unfold State.standing
    rw [(enrollNode_first (enrolled_of_ok rows).enrolls first).1]
    rfl
  rcases outcome_of_exec h with ⟨missed,same⟩ | after
  · refine ⟨fun nodeId => (same nodeId).2,.inl ⟨?_,fun nodeId => (same nodeId).1⟩⟩
    cases reply with
    | error => rfl
    | ok =>
      have rows := enrollRows_of_ok h
      have known := (same e.payload.nodeId).1
      rw [through _ rows] at known
      have wrote : s'.standing e.payload.nodeId = some (.connected,false) := by
        unfold State.standing
        rw [(enrollNode_first (enrolled_of_ok rows).enrolls first).2,OrderedMap.get?_set_self]
        rfl
      rw [wrote] at known
      contradiction
  · refine ⟨fun nodeId => (after nodeId).2,?_⟩
    cases rows : enrollRows s e with
    | error error =>
      left
      constructor
      · cases reply with
        | error => rfl
        | ok =>
          rw [enrollRows_of_ok h] at rows
          contradiction
      · intro nodeId
        rw [(after nodeId).1]
        simp [standingAfter,rows,Except.isOk,Except.toBool]
    | ok done =>
      refine .inr ⟨through done rows,fun nodeId => ?_⟩
      rw [(after nodeId).1]
      simp [standingAfter,rows,first,Except.isOk,Except.toBool]

theorem quiet_sound {reply : Except PyError act.Reply}
    (quiet : act.restricted = false) (h : exec sec act outside s = some (s',reply))
    (inv : SessionSound m s) :
    SessionSound ⟨m.phase.after (fails act reply),m.readAfter act reply⟩ s' := by
  have same := quiet_exec quiet h
  have kept : ∀ next, m.phase.after (fails act reply) = next → (∀ nodeId, next ≠ .broken nodeId) →
      m.phase = next := by
    rintro _ rfl going
    cases phase : m.phase with
    | opened nodeId =>
      rw [phase] at going
      unfold Phase.after onward at going ⊢
      dsimp only at going ⊢
      split at going
      · exact absurd rfl (going nodeId)
      · exact (if_neg ‹_›).symm
    | _ => rfl
  constructor
  · exact sound_quiet quiet h inv.sound
  · intro nodeId state now
    exact read_after quiet h inv.read now
  · intro nodeId opened
    rw [isDisabled_of_standing (same nodeId).1]
    exact inv.opened nodeId (kept _ opened (by simp))
  · intro nodeId connected
    rw [stateOf_of_standing (same nodeId).1]
    exact inv.connected nodeId (kept _ connected (by simp))
  · intro nodeId leaving
    rw [(same nodeId).2]
    exact inv.leaving nodeId (kept _ leaving (by simp))

/-- The three writes of a state. -/
theorem updateState_sound
    (h : exec sec (.updateState nodeId fromState newState now contact) outside s = some (s',reply))
    (sound : Sound s') (opened : ∀ other, next = .opened other → s.isDisabled other = false)
    (connected : ∀ other, next = .connected other → s'.stateOf other = some .connected)
    (leaving : ∀ other, next = .leaving other → s.isRegistered other = false) :
    SessionSound ⟨next,m.readAfter (.updateState nodeId fromState newState now contact) reply⟩ s' := by
  constructor
  · exact sound
  · intro other state impossible
    contradiction
  · intro other here
    rw [isDisabled_updateState h]
    exact opened other here
  · exact connected
  · intro other here
    have registered : s'.isRegistered other = s.isRegistered other := by
      rcases outcome_of_exec h with ⟨_,same⟩ | after
      · exact (same other).2
      · exact (after other).2
    rw [registered]
    exact leaving other here

/-- A step on the registry keeps the rows, and so what was read of them. -/
theorem registry_sound {act : NodeManager.Act} {reply : Except PyError act.Reply} (h : exec sec (.nm act) outside s = some (s',reply))
    (inv : SessionSound m s)
    (registers : ∀ nodeId, s'.isRegistered nodeId = true → s.isRegistered nodeId = true ∨
      s.stateOf nodeId = some .connected)
    (opened : ∀ nodeId, next = .opened nodeId → m.phase = .opened nodeId)
    (connected : ∀ nodeId, next ≠ .connected nodeId)
    (leaving : ∀ nodeId, next = .leaving nodeId → s'.isRegistered nodeId = false) :
    SessionSound ⟨next,m.readAfter (.nm act) reply⟩ s' := by
  have standing : ∀ other, s'.standing other = s.standing other := by
    intro other
    rcases outcome_of_exec h with ⟨_,same⟩ | after
    · exact (same other).1
    · exact (after other).1
  constructor
  · intro other
    unfold SoundAt
    rw [stateOf_of_standing (standing other),isDisabled_of_standing (standing other)]
    refine ⟨fun known => ?_,(inv.sound other).2⟩
    rcases registers other known with before | here
    · exact (inv.sound other).1 before
    · exact here
  · intro other state now
    rw [stateOf_of_standing (standing other)]
    exact inv.read other state now
  · intro other here
    rw [isDisabled_of_standing (standing other)]
    exact inv.opened other (opened other here)
  · intro other here
    exact absurd here (connected other)
  · exact leaving

theorem register_sound {websocket : Socket} {remote : String} {read : Option (String × NodeState)}
    (h : exec sec (.nm (.registerConnection nodeId websocket remote)) outside s = some (s',reply))
    (inv : SessionSound ⟨.connected nodeId,read⟩ s) :
    SessionSound ⟨if reply.isOk then .serving nodeId else .broken nodeId,read⟩ s' := by
  apply registry_sound h inv
  · intro other known
    by_cases here : other = nodeId
    · subst here
      exact .inr (inv.connected other rfl)
    · left
      rcases outcome_of_exec h with ⟨_,same⟩ | after
      · rwa [(same other).2] at known
      · rw [(after other).2] at known
        simpa [registeredAfter,here] using known
  all_goals
    intro other here
    split at here <;> contradiction

theorem registered_of_ok {act : NodeManager.Act} {reply : act.Reply}
    (h : exec sec (.nm act) outside s = some (s',.ok reply)) (other : ∀ future, act ≠ .awaitFuture future)
    (nodeId : String) : s'.isRegistered nodeId = registeredAfter s nodeId (.nm act) := by
  have effected : (effect sec s outside (.nm act)).1.isRegistered nodeId = _ :=
    registered_effect s outside act nodeId
  rwa [effect_of_ok_nm h other] at effected

theorem unregister_sound (h : exec sec (.nm (.unregisterConnection nodeId)) outside s = some (s',reply))
    (inv : SessionSound m s)
    (going : m.phase = .fresh ∧ next = .fresh ∨
      m.phase = .opened nodeId ∧ next = onward nodeId (!reply.isOk) ∨
      m.phase = .serving nodeId ∧ next = (if reply.isOk then .leaving nodeId else .serving nodeId) ∨
      m.phase = .leaving nodeId ∧ next = .leaving nodeId) :
    SessionSound ⟨next,m.readAfter (.nm (.unregisterConnection nodeId)) reply⟩ s' := by
  have fewer : ∀ other, s'.isRegistered other = true → s.isRegistered other = true := by
    intro other known
    rcases outcome_of_exec h with ⟨_,same⟩ | after
    · rwa [(same other).2] at known
    · rw [(after other).2] at known
      simp only [registeredAfter,Bool.and_eq_true] at known
      exact known.2
  have gone : reply.isOk = true → s'.isRegistered nodeId = false := by
    intro ok
    cases reply with
    | error => contradiction
    | ok =>
      rw [registered_of_ok h (by simp) nodeId]
      simp [registeredAfter]
  apply registry_sound h inv
  · exact fun other known => .inl (fewer other known)
  · intro other here
    rcases going with ⟨_,rfl⟩ | ⟨opened,rfl⟩ | ⟨_,rfl⟩ | ⟨_,rfl⟩
    · contradiction
    · unfold onward at here
      split at here
      · contradiction
      · rw [opened,here]
    · split at here <;> contradiction
    · contradiction
  · intro other here
    rcases going with ⟨_,rfl⟩ | ⟨_,rfl⟩ | ⟨_,rfl⟩ | ⟨_,rfl⟩
    · contradiction
    · unfold onward at here
      split at here <;> contradiction
    · split at here <;> contradiction
    · contradiction
  · intro other here
    rcases going with ⟨_,rfl⟩ | ⟨_,rfl⟩ | ⟨_,rfl⟩ | ⟨left,rfl⟩
    · contradiction
    · unfold onward at here
      split at here <;> contradiction
    · split at here
      · rename_i ok
        obtain rfl := Phase.leaving.inj here
        exact gone ok
      · contradiction
    · obtain rfl := Phase.leaving.inj here
      have free := inv.leaving nodeId left
      by_contra known
      rw [Bool.not_eq_false] at known
      rw [fewer nodeId known] at free
      contradiction

theorem enroll_sound
    (first : e.first = true) (h : exec sec (.enroll e) outside s = some (s',reply))
    (inv : SessionSound m s) :
    SessionSound ⟨if reply.isOk then .connected e.payload.nodeId else .fresh,m.read⟩ s' := by
  obtain ⟨registered,standing⟩ := enroll_first first h
  constructor
  · intro nodeId
    rcases standing with ⟨_,same⟩ | ⟨_,after⟩
    · exact soundAt_kept (inv.sound nodeId) (same nodeId) (registered nodeId ▸ id)
    · by_cases here : nodeId = e.payload.nodeId
      · have wrote := after nodeId
        rw [if_pos here] at wrote
        unfold SoundAt
        rw [stateOf_eq,isDisabled_eq,wrote]
        exact ⟨fun _ => rfl,fun _ => rfl⟩
      · apply soundAt_kept (inv.sound nodeId) _ (registered nodeId ▸ id)
        rw [after nodeId,if_neg here]
  · intro nodeId state now
    have stored := inv.read nodeId state now
    rcases standing with ⟨_,same⟩ | ⟨unknown,after⟩
    · rw [stateOf_of_standing (same nodeId)]
      exact stored
    · have differ : nodeId ≠ e.payload.nodeId := by
        rintro rfl
        rw [stateOf_eq,unknown] at stored
        contradiction
      have kept := after nodeId
      rw [if_neg differ] at kept
      rw [stateOf_of_standing kept]
      exact stored
  · intro nodeId here
    dsimp only at here
    split at here <;> contradiction
  · intro nodeId here
    dsimp only at here
    split at here
    · rename_i ok
      obtain rfl := Phase.connected.inj here
      rcases standing with ⟨failed,_⟩ | ⟨_,after⟩
      · rw [failed] at ok
        contradiction
      · rw [stateOf_eq,after,if_pos rfl]
        rfl
    · contradiction
  · intro nodeId here
    dsimp only at here
    split at here <;> contradiction

theorem reenroll_sound
    (again : e.first = false) (h : exec sec (.enroll e) outside s = some (s',reply))
    (inv : SessionSound m s) (phase : m.phase = .opened e.payload.nodeId) :
    SessionSound ⟨onward e.payload.nodeId (!reply.isOk),m.read⟩ s' := by
  have same : ∀ nodeId, s'.standing nodeId = s.standing nodeId ∧
      s'.isRegistered nodeId = s.isRegistered nodeId := by
    intro nodeId
    rcases outcome_of_exec h with ⟨_,same⟩ | after
    · exact same nodeId
    · simpa [standingAfter,registeredAfter,again] using after nodeId
  constructor
  · intro nodeId
    exact soundAt_kept (inv.sound nodeId) (same nodeId).1 ((same nodeId).2 ▸ id)
  · intro nodeId state now
    rw [stateOf_of_standing (same nodeId).1]
    exact inv.read nodeId state now
  · intro nodeId here
    rw [isDisabled_of_standing (same nodeId).1]
    apply inv.opened
    dsimp only [onward] at here
    split at here
    · contradiction
    · rw [phase,here]
  all_goals
    intro nodeId here
    dsimp only [onward] at here
    split at here <;> contradiction

theorem moves_sound {reply : Except PyError act.Reply} (h : exec sec act outside s = some (s',reply)) (inv : SessionSound m s)
    (permitted : m.permits act) (careful : Careful ⟨(),act,outside,s,reply,s'⟩)
    (moved : Moves act reply m.phase next) : SessionSound ⟨next,m.readAfter act reply⟩ s' := by
  obtain ⟨phase,read⟩ := m
  dsimp only at moved
  cases moved with
  | enrolling nodeId fromState now contact =>
    obtain ⟨stored,valid⟩ := permitted
    have free : s.isRegistered nodeId = false := by
      apply not_registered (inv.sound nodeId)
      rw [inv.read nodeId fromState stored]
      simpa using ne_connected_of_enrolling valid
    apply updateState_sound h (sound_updateState h (fun _ => free) (by simp) inv.sound)
    · intro other here
      split at here
      · rename_i ok
        obtain rfl := Phase.opened.inj here
        have calm := (updateState_ok_iff h).mp ok
        exact careful.enabled nodeId (if_pos (by rw [calm]; rfl))
      · contradiction
    all_goals
      intro other here
      split at here <;> contradiction
  | enroll e reply first => exact enroll_sound first h inv
  | reenroll e reply again => exact reenroll_sound again h inv rfl
  | connecting nodeId fromState now contact =>
    have stored := inv.read nodeId fromState permitted.1
    have enabled := inv.opened nodeId rfl
    apply updateState_sound h (sound_updateState h (by simp) (fun _ => enabled) inv.sound)
    · intro other here
      split at here <;> contradiction
    · intro other here
      split at here
      · rename_i ok
        obtain rfl := Phase.connected.inj here
        rw [updateState_exec h,(updateState_ok_iff h).mp ok]
        change State.stateOf {s with nodes := _} nodeId = _
        rw [stateOf_updateState,stored]
        rfl
      · contradiction
    · intro other here
      split at here <;> contradiction
  | register nodeId websocket remote => exact register_sound h inv
  | unregister nodeId reply phase next going => exact unregister_sound h inv going
  | leaving nodeId fromState newState now contact reply which =>
    have free := inv.leaving nodeId rfl
    have other : newState ≠ .connected := by
      rcases which with rfl | rfl <;> simp
    apply updateState_sound h (sound_updateState h (fun _ => free) (fun same => absurd same other) inv.sound)
    · intro other here
      contradiction
    · intro other here
      contradiction
    · intro other here
      exact inv.leaving other here

/-- One step of a session keeps what its phase says. -/
theorem session_sound (tr : Step Unit) (m m' : Mode) (inv : SessionSound m tr.before)
    (taken : Taken (exec sec) tr) (allowed : rule tr.action tr.reply m = some m')
    (careful : Careful tr) : SessionSound m' tr.after := by
  obtain ⟨task,action,choice,before,reply,after⟩ := tr
  simp only [Taken] at taken
  dsimp only at inv allowed ⊢
  unfold rule at allowed
  split at allowed
  · rename_i permitted
    obtain ⟨phase,moves,rfl⟩ := Option.map_eq_some_iff.mp allowed
    rcases next_cases moves with ⟨quiet,rfl⟩ | moved
    · exact quiet_sound quiet taken inv
    · exact moves_sound taken inv permitted careful moved
  · contradiction

end Vigile.Workers
