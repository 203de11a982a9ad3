import Vigile.NodeSound

/-! The requests of a master, one after the other and across restarts: a disabled node has
no connection and is not CONNECTED, as long as no disabled node is moved to ENROLLING and
`set_disabled` is not interrupted before the node has left. -/
namespace Vigile.Workers

open Interleaving Python NodeManager

variable {sec : Security} {s s' : State}

inductive Request where
  | handshake (arrival : Arrival)
  | message (websocket : Socket) (nodeId : String)
  | disconnection (nodeId : String)
  | monitor (lostThreshold staleThreshold : ℚ)
  | setDisabled (nodeId : String) (disabled : Bool) (byUser : String)
  | generateJoinToken (byUser name group ipPrefix : String)

def Request.program (sec : Security) : Request → Task Unit
  | .handshake arrival => do let _ ← openSession sec arrival
  | .message websocket nodeId => closingOnError websocket () do
    let _ ← operationalStep sec websocket nodeId
  | .disconnection nodeId => endSession nodeId
  | .monitor lostThreshold staleThreshold => checkHeartbeats lostThreshold staleThreshold
  | .setDisabled nodeId disabled byUser => Workers.setDisabled nodeId disabled byUser
  | .generateJoinToken byUser name group ipPrefix => do
    let _ ← Workers.generateJoinToken sec byUser name group ipPrefix

/-- A new process: no connections, and the nodes that were with the old one are LOST. -/
def State.restarted (s : State) (defaultTimeout intentMaxAge : ℚ) : State :=
  {s with
    nodes := s.nodes.modify fun _ row =>
      if row.state ∈ [NodeState.connected,.enrolling,.reconnecting] then {row with state := .lost}
      else row
    nm := NodeManager.started defaultTimeout intentMaxAge}

def serve (sec : Security) (s : State) (request : Request) (choices : List Outside) :
    Config Unit State Act Act.Reply PyError Unit × List (Step Unit) :=
  run (exec sec) (choices.map fun choice => ((),choice)) ⟨s,fun _ => request.program sec⟩

inductive Reached (sec : Security) (legal : Step Unit → Prop) : State → Prop
  | restart (s : State) (defaultTimeout intentMaxAge : ℚ) :
      Reached sec legal (s.restarted defaultTimeout intentMaxAge)
  | request {s : State} (reached : Reached sec legal s) (request : Request) (choices : List Outside)
      (lawful : ∀ tr ∈ (serve sec s request choices).2, legal tr)
      (returned : ((serve sec s request choices).1.tasks ()).finished = true) :
      Reached sec legal (serve sec s request choices).1.shared

abbrev Safely {α : Type} (sec : Security) (program : Task α) (s : State)
    (post : Except PyError α → State → Prop) : Prop :=
  Alone (exec sec) Careful program s post

abbrev KeepsSound {α : Type} (sec : Security) (program : Task α) : Prop :=
  ∀ s, Sound s → Safely sec program s fun _ => Sound

section
variable {α β : Type} {program : Task α}

theorem KeepsSound.bind {next : α → Task β} (h : KeepsSound sec program)
    (goesOn : ∀ value, KeepsSound sec (next value)) : KeepsSound sec (program >>= next) := by
  intro s sound
  apply Alone.bind (h s sound)
  · intro value s' kept
    exact goesOn value s' kept
  · intro _ _ kept
    exact kept

theorem KeepsSound.pure {value : α} : KeepsSound sec (pure value : Task α) := fun _ sound => sound

theorem KeepsSound.quiet {act : Act} (quiet : act.restricted = false) :
    KeepsSound sec (Prog.perform act) := by
  intro s sound
  apply Alone.perform
  intro choice s' reply done _
  exact sound_quiet quiet done sound

theorem ignoring_alone {post : State → Prop} {program : Task Unit}
    (h : Safely sec program s fun _ => post) : Safely sec (ignoringExceptions program) s fun _ => post := by
  apply Alone.attempt h
  · intro _ _ ended
    exact ended
  · intro error s' ended
    split <;> exact ended

end

/-- The same standing and registration of every node. -/
def Same (s s' : State) : Prop := ∀ nodeId,
  s'.standing nodeId = s.standing nodeId ∧ s'.isRegistered nodeId = s.isRegistered nodeId

theorem Same.sound (same : Same s s') (sound : Sound s) : Sound s' :=
  fun nodeId => soundAt_kept (sound nodeId) (same nodeId).1 ((same nodeId).2 ▸ id)

theorem Same.trans {s'' : State} (first : Same s s') (second : Same s' s'') : Same s s'' :=
  fun nodeId => ⟨(second nodeId).1.trans (first nodeId).1,(second nodeId).2.trans (first nodeId).2⟩

variable {act : Act} {outside : Outside} {nodeId : String}

theorem same_of_exec {reply : Except PyError act.Reply}
    (standing : ∀ nodeId, standingAfter s nodeId act = s.standing nodeId)
    (registered : ∀ nodeId, registeredAfter s nodeId act = s.isRegistered nodeId)
    (h : exec sec act outside s = some (s',reply)) : Same s s' := by
  intro nodeId
  rcases outcome_of_exec h with ⟨_,same⟩ | after
  · exact same nodeId
  · rw [(after nodeId).1,(after nodeId).2]
    exact ⟨standing nodeId,registered nodeId⟩

theorem quiet_alone (quiet : act.restricted = false) (s : State) :
    Safely sec (Prog.perform act) s fun _ s' => Same s s' := by
  apply Alone.perform
  intro choice s' reply done _
  exact quiet_exec quiet done

theorem selectState_alone (nodeId : String) (s : State) :
    Safely sec (selectState nodeId) s fun result s' =>
      Same s s' ∧ ∀ found, result = .ok found → found = s.stateOf nodeId := by
  apply Alone.perform
  intro choice s' reply done _
  refine ⟨quiet_exec rfl done,?_⟩
  rintro found rfl
  have answer := effect_of_ok done fun _ => by simp
  exact (Except.ok.inj (Prod.mk.inj answer).2).symm

theorem publish_alone (nodeId : String) (fromState newState : NodeState) (now : ℚ) (sound : Sound s) :
    Safely sec (ignoringExceptions (Prog.perform (Act.publish nodeId fromState newState now))) s
      fun _ => Sound :=
  ignoring_alone ((quiet_alone rfl s).mono fun _ _ same => same.sound sound)

/-- A node without a connection may be moved anywhere but to CONNECTED, and an enabled one
to CONNECTED. -/
theorem transitionState_alone {newState : NodeState} {contact : Option Contact}
    (sound : Sound s)
    (free : newState ≠ .connected → s.isRegistered nodeId = false ∨
      ∀ current, (current,newState) ∈ validTransitions → current ≠ .connected)
    (enabled : newState = .connected → s.isDisabled nodeId = false) :
    Safely sec (transitionState nodeId newState contact) s fun _ => Sound := by
  apply Alone.bind (selectState_alone nodeId s)
  · rintro found s₁ ⟨same,accurate⟩
    obtain rfl := accurate found rfl
    cases stored : s.stateOf nodeId with
    | none => exact same.sound sound
    | some current =>
      dsimp only
      split
      · exact same.sound sound
      · rename_i valid
        rw [not_not] at valid
        apply Alone.bind (quiet_alone rfl s₁)
        · intro now s₂ same'
          have both := same.trans same'
          have sound' := both.sound sound
          have unregistered : newState ≠ .connected → s₂.isRegistered nodeId = false := by
            intro other
            rw [(both nodeId).2]
            rcases free other with free | moves
            · exact free
            · apply not_registered (sound nodeId)
              rw [stored]
              simpa using moves current valid
          have flag : newState = .connected → s₂.isDisabled nodeId = false := by
            intro connects
            rw [isDisabled_of_standing (both nodeId).1]
            exact enabled connects
          have written : Safely sec (updateState nodeId current newState now contact) s₂ fun _ => Sound := by
            apply Alone.perform
            intro choice s₃ reply done _
            exact sound_updateState done unregistered flag sound'
          apply Alone.bind written
          · intro _ s₃ kept
            exact publish_alone _ _ _ _ kept
          · intro _ _ kept
            exact kept
        · intro _ _ same'
          exact (same.trans same').sound sound
  · rintro error s₁ ⟨same,_⟩
    exact same.sound sound

theorem unregister_alone (nodeId : String) (sound : Sound s) :
    Safely sec (nm (.unregisterConnection nodeId)) s fun result s' =>
      Sound s' ∧ ∀ value, result = .ok value → s'.isRegistered nodeId = false := by
  apply Alone.perform
  intro choice s' reply done _
  constructor
  · intro other
    rcases outcome_of_exec done with ⟨_,same⟩ | after
    · exact soundAt_kept (sound other) (same other).1 ((same other).2 ▸ id)
    · apply soundAt_kept (sound other) (after other).1
      intro known
      rw [(after other).2] at known
      simp only [registeredAfter,Bool.and_eq_true] at known
      exact known.2
  · rintro value rfl
    rw [registered_of_ok done (by simp) nodeId]
    simp [registeredAfter]

theorem checkConnection_sound (lostThreshold : ℚ) (nodeId : String) (conn : ActiveConnection) :
    KeepsSound sec (checkConnection lostThreshold nodeId conn) := by
  apply KeepsSound.bind (.quiet rfl)
  intro age s sound
  split
  · apply Alone.bind (unregister_alone nodeId sound)
    · rintro _ s₁ ⟨sound,gone⟩
      apply ignoring_alone
      apply Alone.bind (transitionState_alone sound (fun _ => .inl (gone _ rfl)) (by simp))
      · intro _ s₂ sound
        exact KeepsSound.quiet rfl s₂ sound
      · intro _ _ sound
        exact sound
    · rintro _ _ ⟨sound,_⟩
      exact sound
  · exact sound

theorem checkConnections_sound (lostThreshold : ℚ) (connected : List (String × ActiveConnection)) :
    KeepsSound sec (checkConnections lostThreshold connected) := by
  induction connected with
  | nil => exact .pure
  | cons entry rest ih => exact .bind (checkConnection_sound _ _ _) fun _ => ih

theorem checkAllLost_sound (now staleThreshold : ℚ) (rows : List (String × ℚ)) :
    KeepsSound sec (checkAllLost now staleThreshold rows) := by
  induction rows with
  | nil => exact .pure
  | cons row rest ih =>
    apply KeepsSound.bind _ fun _ => ih
    intro s sound
    unfold checkLost
    dsimp only
    split
    · apply ignoring_alone
      apply Alone.bind (transitionState_alone sound (fun _ => .inr fun _ => ne_connected_of_stale) (by simp))
      · intro _ s₁ sound
        exact KeepsSound.quiet rfl s₁ sound
      · intro _ _ sound
        exact sound
    · exact sound

theorem checkHeartbeats_sound (lostThreshold staleThreshold : ℚ) :
    KeepsSound sec (checkHeartbeats lostThreshold staleThreshold) := by
  apply KeepsSound.bind (.quiet rfl)
  intro now
  have asks : KeepsSound sec (nm .connections) := by
    intro s sound
    apply Alone.perform
    intro choice s' reply done _
    exact (same_of_exec (fun _ => rfl) (fun _ => rfl) done).sound sound
  apply KeepsSound.bind asks
  intro connected
  apply KeepsSound.bind (checkConnections_sound _ _)
  intro _
  apply KeepsSound.bind (.quiet rfl)
  intro rows
  exact checkAllLost_sound _ _ _

theorem updateFlag_outcome {disabled : Bool} {now : ℚ}
    {reply : Except PyError Unit}
    (h : exec sec (.updateFlag nodeId disabled now) outside s = some (s',reply)) :
    (outside.fault.takesEffect = false ∧ Same s s') ∨
      (∀ other, s'.isRegistered other = s.isRegistered other ∧ s'.stateOf other = s.stateOf other ∧
        (other ≠ nodeId → s'.standing other = s.standing other)) ∧
      (s.stateOf nodeId ≠ none → s'.isDisabled nodeId = disabled) := by
  rcases outcome_of_exec h with ⟨missed,same⟩ | after
  · left
    refine ⟨?_,same⟩
    rcases missed with missed | ⟨_,impossible⟩
    · exact missed
    · contradiction
  · right
    constructor
    · intro other
      refine ⟨(after other).2,?_,?_⟩
      · rw [stateOf_eq,stateOf_eq,(after other).1]
        simp only [standingAfter,Option.map_map]
        congr 1
        funext old
        simp only [Function.comp_apply]
        split <;> rfl
      · intro differ
        rw [(after other).1]
        simp [standingAfter,differ]
    · intro known
      rw [stateOf_eq] at known
      rw [isDisabled_eq,(after nodeId).1]
      cases standing : s.standing nodeId with
      | none =>
        rw [standing] at known
        contradiction
      | some old => simp [standingAfter,standing]

theorem selectFlag_alone (nodeId : String) (s : State) :
    Safely sec (Prog.perform (Act.selectFlag nodeId)) s fun result s' =>
      Same s s' ∧ ∀ found, result = .ok found → found = s.standing nodeId := by
  apply Alone.perform
  intro choice s' reply done _
  refine ⟨quiet_exec rfl done,?_⟩
  rintro found rfl
  have answer := effect_of_ok done fun _ => by simp
  exact (Except.ok.inj (Prod.mk.inj answer).2).symm

theorem clearFlag_alone (nodeId : String) (now : ℚ) (sound : Sound s)
    (known : s.stateOf nodeId ≠ none) :
    Safely sec (Prog.perform (Act.updateFlag nodeId false now)) s fun result s' =>
      Sound s' ∧ (∀ value, result = .ok value →
        s'.isDisabled nodeId = false ∧ s'.stateOf nodeId = s.stateOf nodeId) := by
  apply Alone.perform
  intro choice s' reply done _
  rcases updateFlag_outcome done with ⟨missed,same⟩ | ⟨kept,flag⟩
  · refine ⟨same.sound sound,?_⟩
    rintro value rfl
    have calm : choice.fault = .none := (strike_ok (Option.some.inj done)).1
    rw [calm] at missed
    contradiction
  · constructor
    · intro other
      by_cases here : other = nodeId
      · subst here
        unfold SoundAt
        rw [(kept other).1,(kept other).2.1,flag known]
        exact ⟨(sound other).1,fun _ => rfl⟩
      · exact soundAt_kept (sound other) ((kept other).2.2 here) ((kept other).1 ▸ id)
    · rintro value rfl
      exact ⟨flag known,(kept nodeId).2.1⟩

/-- The state to move to is looked up without a change. -/
theorem targetState_alone (nodeId : String) (current : NodeState) (s : State) :
    Safely sec (targetState nodeId false current) s fun result s' => Same s s' ∧
      ∀ target, result = .ok (some target) → current = .disabled ∧
        (target = .connected ∨ target = .lost) := by
  unfold targetState
  split
  · contradiction
  · split
    · rename_i disabled
      have asks : Safely sec (nm (.isConnected nodeId)) s fun _ => Same s := by
        apply Alone.perform
        intro choice s' reply done _
        exact same_of_exec (fun _ => rfl) (fun _ => rfl) done
      apply Alone.bind asks
      · intro isAlive s' same
        refine ⟨same,?_⟩
        rintro target ⟨⟩
        refine ⟨disabled,?_⟩
        cases isAlive
        · exact .inr rfl
        · exact .inl rfl
      · intro error s' same
        exact ⟨same,by simp⟩
    · refine ⟨fun _ => ⟨rfl,rfl⟩,?_⟩
      rintro target ⟨⟩

theorem enable_sound (nodeId byUser : String) : KeepsSound sec (setDisabled nodeId false byUser) := by
  intro s sound
  apply Alone.bind (selectFlag_alone nodeId s)
  · rintro found s₁ ⟨same,accurate⟩
    have sound₁ := same.sound sound
    obtain rfl := accurate found rfl
    cases standing : s.standing nodeId with
    | none => exact sound₁
    | some row =>
      obtain ⟨current,currently⟩ := row
      dsimp only
      split
      · exact sound₁
      · have state₁ : s₁.stateOf nodeId = some current := by
          rw [stateOf_of_standing (same nodeId).1,stateOf_eq,standing]
          rfl
        apply Alone.bind (quiet_alone rfl s₁)
        · intro now s₂ same₂
          have sound₂ := same₂.sound sound₁
          have state₂ : s₂.stateOf nodeId = some current := by
            rw [stateOf_of_standing (same₂ nodeId).1,state₁]
          apply Alone.bind (clearFlag_alone nodeId now sound₂ (by rw [state₂]; simp))
          · rintro _ s₃ ⟨sound₃,cleared⟩
            obtain ⟨enabled,kept⟩ := cleared _ rfl
            apply Alone.bind (targetState_alone nodeId current s₃)
            · rintro target s₄ ⟨same₄,targets⟩
              have sound₄ := same₄.sound sound₃
              have logs : ∀ entry, KeepsSound sec (logAction entry) := fun _ => .quiet rfl
              split
              · rename_i moves
                obtain ⟨moves,_⟩ := moves
                obtain ⟨newState,rfl⟩ := Option.isSome_iff_exists.mp moves
                obtain ⟨rfl,which⟩ := targets newState rfl
                have transition : Safely sec (transitionState nodeId newState none) s₄ fun _ => Sound := by
                  apply transitionState_alone sound₄
                  · intro _
                    left
                    apply not_registered (sound₄ nodeId)
                    rw [stateOf_of_standing (same₄ nodeId).1,kept,state₂]
                    simp
                  · intro _
                    rw [isDisabled_of_standing (same₄ nodeId).1]
                    exact enabled
                apply Alone.bind transition
                · intro _ s₅ sound₅
                  exact logs _ s₅ sound₅
                · intro _ _ kept
                  exact kept
              · exact logs _ s₄ sound₄
            · rintro _ _ ⟨same₄,_⟩
              exact same₄.sound sound₃
          · rintro _ _ ⟨sound₃,_⟩
            exact sound₃
        · intro _ _ same₂
          exact same₂.sound sound₁
  · rintro _ s₁ ⟨same,_⟩
    exact same.sound sound

structure Flagging (nodeId : String) (s : State) : Prop where
  others : ∀ other, other ≠ nodeId → SoundAt s other
  flag : s.isDisabled nodeId = true
  registered : s.isRegistered nodeId = true → s.stateOf nodeId = some .connected

/-- The node is no longer CONNECTED, but may be registered. -/
structure Closing (nodeId : String) (s : State) : Prop where
  others : ∀ other, other ≠ nodeId → SoundAt s other
  flag : s.isDisabled nodeId = true
  moved : s.stateOf nodeId ≠ some .connected

variable {nodeId : String}

theorem Flagging.same (flagging : Flagging nodeId s) (same : Same s s') : Flagging nodeId s' := by
  constructor
  · intro other differ
    exact soundAt_kept (flagging.others other differ) (same other).1 ((same other).2 ▸ id)
  · rw [isDisabled_of_standing (same nodeId).1]
    exact flagging.flag
  · rw [(same nodeId).2,stateOf_of_standing (same nodeId).1]
    exact flagging.registered

theorem Closing.same (closing : Closing nodeId s) (same : Same s s') : Closing nodeId s' := by
  constructor
  · intro other differ
    exact soundAt_kept (closing.others other differ) (same other).1 ((same other).2 ▸ id)
  · rw [isDisabled_of_standing (same nodeId).1]
    exact closing.flag
  · rw [stateOf_of_standing (same nodeId).1]
    exact closing.moved

theorem Flagging.sound (flagging : Flagging nodeId s) (moved : s.stateOf nodeId ≠ some .connected) :
    Sound s := by
  intro other
  by_cases here : other = nodeId
  · subst here
    exact ⟨flagging.registered,fun connected => absurd connected moved⟩
  · exact flagging.others other here

theorem Closing.sound (closing : Closing nodeId s) (free : s.isRegistered nodeId = false) : Sound s := by
  intro other
  by_cases here : other = nodeId
  · subst here
    constructor
    · intro known
      rw [free] at known
      contradiction
    · intro connected
      exact absurd connected closing.moved
  · exact closing.others other here

/-- A step that fails finds that the node has left. -/
theorem left_of_raised {reply : Except PyError act.Reply}
    (careful : Careful ⟨(),act,outside,s,reply,s'⟩) (flag : s.isDisabled nodeId = true)
    (raised : raises act reply = true) (other : act ≠ .nm (.popConnection nodeId)) :
    s.stateOf nodeId ≠ some .connected ∧ s.isRegistered nodeId = false := by
  have unexposed : ¬Exposed s nodeId := by
    intro exposed
    rcases careful.closing nodeId exposed with calm | pops
    · rw [raised] at calm
      contradiction
    · unfold popsNode at pops
      split at pops
      · rename_i node popped
        simp only [Bool.and_eq_true,decide_eq_true_eq] at pops
        rw [pops.1] at popped
        exact other popped
      · contradiction
  constructor
  · intro connected
    exact unexposed ⟨flag,.inl connected⟩
  · by_contra known
    rw [Bool.not_eq_false] at known
    exact unexposed ⟨flag,.inr known⟩

/-- Where a step of `set_disabled` ends. -/
def Ends (good : State → Prop) (result : Except PyError Unit) (s : State) : Prop :=
  match result with
  | .ok _ => good s
  | .error _ => Sound s

theorem setFlag_alone (now : ℚ) (sound : Sound s) (known : s.stateOf nodeId ≠ none) :
    Safely sec (Prog.perform (Act.updateFlag nodeId true now)) s
      (Ends fun s' => Flagging nodeId s' ∧ s'.stateOf nodeId = s.stateOf nodeId) := by
  apply Alone.perform
  intro choice s' reply done careful
  rcases updateFlag_outcome done with ⟨missed,same⟩ | ⟨kept,flag⟩
  · cases reply with
    | ok =>
      have calm : choice.fault = .none := (strike_ok (Option.some.inj done)).1
      rw [calm] at missed
      contradiction
    | error => exact same.sound sound
  · have flagging : Flagging nodeId s' := by
      constructor
      · intro other differ
        exact soundAt_kept (sound other) ((kept other).2.2 differ) ((kept other).1 ▸ id)
      · exact flag known
      · rw [(kept nodeId).1,(kept nodeId).2.1]
        exact (sound nodeId).1
    cases reply with
    | ok => exact ⟨flagging,(kept nodeId).2.1⟩
    | error error =>
      have struck : choice.fault.strike s (effect sec s choice (.updateFlag nodeId true now)) =
          (s',.error error) := Option.some.inj done
      cases fault : choice.fault with
      | none =>
        rw [fault] at struck
        exact absurd (Prod.mk.inj struck).2 (by simp)
      | before _ =>
        rw [fault] at struck
        obtain rfl : s = s' := (Prod.mk.inj struck).1
        exact sound
      | after _ =>
        apply flagging.sound
        rw [(kept nodeId).2.1]
        intro connected
        exact careful.flagged nodeId (by simp [flaggedWithError,fault]) (.inl connected)

theorem publishDisabled_alone (fromState : NodeState) (now : ℚ) (closing : Closing nodeId s) :
    Safely sec (ignoringExceptions (Prog.perform (Act.publish nodeId fromState .disabled now))) s
      (Ends (Closing nodeId)) := by
  have publishes : Safely sec (Prog.perform (Act.publish nodeId fromState .disabled now)) s
      fun result s' => Closing nodeId s' ∧
        ∀ error, result = .error error → error.isException = false → Sound s' := by
    apply Alone.perform
    intro choice s' reply done careful
    have same : Same s s' := quiet_exec rfl done
    refine ⟨closing.same same,?_⟩
    rintro error rfl cancelled
    apply (closing.same same).sound
    rw [(same nodeId).2]
    exact (left_of_raised careful closing.flag (by simp [raises,cancelled]) (by simp)).2
  apply Alone.attempt publishes
  · rintro _ s' ⟨closing',_⟩
    exact closing'
  · rintro error s' ⟨closing',raised⟩
    split
    · exact closing'
    · rename_i cancelled
      exact raised error rfl (by simpa using cancelled)

theorem writeDisabled_alone (fromState : NodeState) (now : ℚ) (flagging : Flagging nodeId s) :
    Safely sec (updateState nodeId fromState .disabled now none) s (Ends (Closing nodeId)) := by
  apply Alone.perform
  intro choice s' reply done careful
  cases reply with
  | ok =>
    have calm := (updateState_ok_iff done).mp rfl
    constructor
    · intro other differ
      rcases outcome_of_exec done with ⟨_,same⟩ | after
      · exact soundAt_kept (flagging.others other differ) (same other).1 ((same other).2 ▸ id)
      · apply soundAt_kept (flagging.others other differ)
        · rw [(after other).1]
          simp [standingAfter,differ]
        · rw [(after other).2]
          exact id
    · rw [isDisabled_updateState done]
      exact flagging.flag
    · rw [updateState_exec done,calm]
      change State.stateOf {s with nodes := _} nodeId ≠ _
      rw [stateOf_updateState]
      simp
  | error error =>
    obtain ⟨moved,free⟩ := left_of_raised careful flagging.flag rfl (by simp)
    exact sound_updateState done (fun _ => free) (by simp) (flagging.sound moved)

theorem toDisabled_alone (flagging : Flagging nodeId s) :
    Safely sec (transitionState nodeId .disabled none) s (Ends (Closing nodeId)) := by
  have reads : Safely sec (selectState nodeId) s fun result s' => Flagging nodeId s' ∧
      (∀ found, result = .ok found → found = s'.stateOf nodeId) ∧
      ∀ error, result = .error error → Sound s' := by
    apply Alone.perform
    intro choice s' reply done careful
    have same : Same s s' := quiet_exec rfl done
    refine ⟨flagging.same same,?_,?_⟩
    · rintro found rfl
      have answer := effect_of_ok done fun _ => by simp
      rw [stateOf_of_standing (same nodeId).1]
      exact (Except.ok.inj (Prod.mk.inj answer).2).symm
    · rintro error rfl
      apply (flagging.same same).sound
      rw [stateOf_of_standing (same nodeId).1]
      exact (left_of_raised careful flagging.flag rfl (by simp)).1
  apply Alone.bind reads
  · rintro found s₁ ⟨flagging₁,accurate,_⟩
    obtain rfl := accurate found rfl
    cases stored : s₁.stateOf nodeId with
    | none =>
      apply flagging₁.sound
      rw [stored]
      simp
    | some current =>
      dsimp only
      split
      · rename_i invalid
        apply flagging₁.sound
        rw [stored]
        rintro ⟨⟩
        exact invalid (by decide)
      · have tells : Safely sec clock s₁ fun result s' =>
            Flagging nodeId s' ∧ ∀ error, result ≠ .error error := by
          apply Alone.perform
          intro choice s' reply done _
          refine ⟨flagging₁.same (quiet_exec rfl done),?_⟩
          rintro error rfl
          exact absurd (congrArg Prod.snd (Option.some.inj done)) (by simp [effect])
        apply Alone.bind tells
        · rintro now s₂ ⟨flagging₂,_⟩
          apply Alone.bind (writeDisabled_alone current now flagging₂)
          · intro _ s₃ closing
            exact publishDisabled_alone current now closing
          · intro _ _ sound
            exact sound
        · rintro error _ ⟨_,impossible⟩
          exact absurd rfl (impossible error)
  · rintro error s₁ ⟨_,_,raised⟩
    exact raised error rfl

theorem popConnection_alone (closing : Closing nodeId s) :
    Safely sec (nm (.popConnection nodeId)) s fun _ => Sound := by
  apply Alone.perform
  intro choice s' reply done careful
  have same : ∀ other, other ≠ nodeId → SoundAt s' other := by
    intro other differ
    rcases outcome_of_exec done with ⟨_,same⟩ | after
    · exact soundAt_kept (closing.others other differ) (same other).1 ((same other).2 ▸ id)
    · apply soundAt_kept (closing.others other differ) (after other).1
      rw [(after other).2]
      simp [registeredAfter,differ]
  have free : s'.isRegistered nodeId = false := by
    cases reply with
    | ok =>
      rw [registered_of_ok done (by simp) nodeId]
      simp [registeredAfter]
    | error error =>
      rcases outcome_of_exec done with ⟨missed,kept⟩ | after
      · rw [(kept nodeId).2]
        by_contra known
        rw [Bool.not_eq_false] at known
        rcases careful.closing nodeId ⟨closing.flag,.inr known⟩ with calm | pops
        · contradiction
        · rcases missed with missed | ⟨_,impossible⟩
          · simp [popsNode,missed] at pops
          · simp at impossible
      · rw [(after nodeId).2]
        simp [registeredAfter]
  have standing : s'.standing nodeId = s.standing nodeId := by
    rcases outcome_of_exec done with ⟨_,kept⟩ | after
    · exact (kept nodeId).1
    · exact (after nodeId).1
  intro other
  by_cases here : other = nodeId
  · subst here
    constructor
    · intro known
      rw [free] at known
      contradiction
    · intro connected
      rw [stateOf_of_standing standing] at connected
      exact absurd connected closing.moved
  · exact same other here

theorem closeDisabled_sound (closing : Closing nodeId s) :
    Safely sec (closeDisabled nodeId) s fun _ => Sound := by
  apply Alone.bind (popConnection_alone closing)
  · intro conn s₁ sound
    cases conn with
    | none => exact sound
    | some conn => exact ignoring_alone (KeepsSound.quiet rfl s₁ sound)
  · intro _ _ sound
    exact sound

theorem disable_sound (nodeId byUser : String) : KeepsSound sec (setDisabled nodeId true byUser) := by
  have finish : ∀ entry s, Closing nodeId s → Safely sec (do
      closeDisabled nodeId
      logAction entry) s fun _ => Sound := by
    intro entry s closing
    apply Alone.bind (closeDisabled_sound closing)
    · intro _ s₁ sound
      exact KeepsSound.quiet rfl s₁ sound
    · intro _ _ sound
      exact sound
  intro s sound
  apply Alone.bind (selectFlag_alone nodeId s)
  · rintro found s₁ ⟨same,accurate⟩
    have sound₁ := same.sound sound
    obtain rfl := accurate found rfl
    cases standing : s.standing nodeId with
    | none => exact sound₁
    | some row =>
      obtain ⟨current,currently⟩ := row
      dsimp only
      split
      · exact sound₁
      · have state₁ : s₁.stateOf nodeId = some current := by
          rw [stateOf_of_standing (same nodeId).1,stateOf_eq,standing]
          rfl
        apply Alone.bind (quiet_alone rfl s₁)
        · intro now s₂ same₂
          have sound₂ := same₂.sound sound₁
          have state₂ : s₂.stateOf nodeId = some current := by
            rw [stateOf_of_standing (same₂ nodeId).1,state₁]
          apply Alone.bind (setFlag_alone now sound₂ (by rw [state₂]; simp))
          · rintro _ s₃ ⟨flagging,kept⟩
            by_cases already : current = .disabled
            · subst already
              apply finish
              refine ⟨flagging.others,flagging.flag,?_⟩
              rw [kept,state₂]
              simp
            · have target : targetState nodeId true current = pure (some NodeState.disabled) := by
                unfold targetState
                rw [if_pos rfl,if_neg already]
              rw [target]
              have differ : some NodeState.disabled ≠ some current := by
                rintro ⟨⟩
                exact already rfl
              change Safely sec (if (some NodeState.disabled).isSome ∧ some NodeState.disabled ≠ some current
                then _ else _) s₃ _
              rw [if_pos ⟨rfl,differ⟩]
              apply Alone.bind (toDisabled_alone flagging)
              · intro _ s₄ closing
                exact finish _ s₄ closing
              · intro _ _ sound
                exact sound
          · intro _ _ sound
            exact sound
        · intro _ _ same₂
          exact same₂.sound sound₁
  · rintro _ s₁ ⟨same,_⟩
    exact same.sound sound

theorem generateJoinToken_sound (byUser name group ipPrefix : String) :
    KeepsSound sec (Workers.generateJoinToken sec byUser name group ipPrefix) := by
  have inserts : ∀ tokenHash node expiresAt,
      KeepsSound sec (Prog.perform (Act.insertJoinToken tokenHash node expiresAt)) := by
    intro tokenHash node expiresAt s sound
    apply Alone.perform
    intro choice s' reply done _
    exact (same_of_exec (fun _ => rfl) (fun _ => rfl) done).sound sound
  exact .bind (.quiet rfl) fun node => .bind (.quiet rfl) fun token =>
    .bind (inserts _ _ _) fun _ => .bind (.quiet rfl) fun _ => .pure

/-- What keeps to the protocol of the sessions keeps the nodes sound. -/
theorem leads_sound {α : Type} {program : Task α} {phase : Phase} {good : α → Phase → Prop}
    {bad : PyError → Phase → Prop} (leads : Leads phase program good bad)
    (going : phase = .fresh ∨ ∃ nodeId, phase = .serving nodeId) : KeepsSound sec program := by
  intro s sound
  have start : SessionSound ⟨phase,none⟩ s := by
    constructor
    · exact sound
    · intro nodeId state impossible
      contradiction
    all_goals
      rcases going with rfl | ⟨node,rfl⟩ <;> simp
  apply ((leads none).alone session_sound start).mono
  rintro _ s' ⟨m,inv,_⟩
  exact inv.sound

theorem request_sound (request : Request) : KeepsSound sec (request.program sec) := by
  cases request with
  | handshake arrival =>
    exact .bind (leads_sound (openSession_leads arrival) (.inl rfl)) fun _ => .pure
  | message websocket nodeId =>
    have keeps : Within (Active nodeId) (do let _ ← operationalStep sec websocket nodeId) :=
      .bind (active_operationalStep websocket) fun _ => .pure
    exact leads_sound (within_closingOnError active_closed keeps websocket () (.serving nodeId)
      (.inl rfl)) (.inr ⟨nodeId,rfl⟩)
  | disconnection nodeId =>
    exact leads_sound (endSession_leads (.serving nodeId) (.inl rfl)) (.inr ⟨nodeId,rfl⟩)
  | monitor lostThreshold staleThreshold => exact checkHeartbeats_sound _ _
  | setDisabled nodeId disabled byUser =>
    cases disabled with
    | true => exact disable_sound nodeId byUser
    | false => exact enable_sound nodeId byUser
  | generateJoinToken byUser name group ipPrefix =>
    exact .bind (generateJoinToken_sound _ _ _ _) fun _ => .pure

/-- A restart leaves no node CONNECTED and no connection. -/
theorem sound_restarted (s : State) (defaultTimeout intentMaxAge : ℚ) :
    Sound (s.restarted defaultTimeout intentMaxAge) := by
  intro nodeId
  constructor
  · intro impossible
    contradiction
  · intro connected
    obtain ⟨row,found,state⟩ := Option.map_eq_some_iff.mp connected
    simp only [State.restarted,OrderedMap.get?_modify,Option.map_eq_some_iff] at found
    obtain ⟨old,_,rfl⟩ := found
    split at state
    · contradiction
    · rename_i other
      simp [state] at other

theorem reached_sound (reached : Reached sec Careful s) : Sound s := by
  induction reached with
  | restart s defaultTimeout intentMaxAge => exact sound_restarted s defaultTimeout intentMaxAge
  | request reached request choices lawful returned sound =>
    obtain ⟨_,kept⟩ := (run_alone _ _ (request_sound request _ sound) lawful).ended returned
    exact kept

/-- In every state between the requests, if all steps before were careful, a disabled node
has no connection and is not CONNECTED. -/
theorem disabled_node_disconnected (sec : Security) (s : State) (reached : Reached sec Careful s)
    (nodeId : String) (disabled : s.isDisabled nodeId = true) :
    s.isRegistered nodeId = false ∧ s.stateOf nodeId ≠ some .connected := by
  have sound := reached_sound reached nodeId
  have moved : s.stateOf nodeId ≠ some .connected := by
    intro connected
    rw [sound.2 connected] at disabled
    contradiction
  exact ⟨not_registered sound moved,moved⟩

def restartedMaster : State := (boot .empty oneJoinToken .empty 30 300).restarted 30 300

def joinedChoices : List Outside := (joining () "j1" "t1" "u1").map Prod.snd

def joinedMaster : State :=
  (serve plainSecurity restartedMaster (.handshake (arrivalAt 0)) joinedChoices).1.shared

def disabledMaster : State :=
  (serve plainSecurity joinedMaster (.setDisabled "n1" true "admin") (List.replicate 10 calm)).1.shared

theorem joinedMaster_reached : Reached plainSecurity Careful joinedMaster :=
  .request (.restart _ _ _) _ _ (by decide +kernel) (by decide +kernel)

theorem enrolled_node_disabled :
    disabledMaster.isRegistered "n1" = false ∧ disabledMaster.stateOf "n1" ≠ some .connected :=
  disabled_node_disconnected plainSecurity disabledMaster
    (.request joinedMaster_reached _ _ (by decide +kernel) (by decide +kernel)) "n1" (by decide +kernel)

theorem disabled_node_reconnects : ¬∀ (sec : Security) (s : State), Reached sec (fun _ => True) s →
    ∀ nodeId, s.isDisabled nodeId = true →
      s.isRegistered nodeId = false ∧ s.stateOf nodeId ≠ some .connected := by
  intro never
  have reached : Reached plainSecurity (fun _ => True) (serve plainSecurity disabledMaster
      (.handshake (arrivalAt 1)) ((reconnecting () "t1" "t2" "u2").map Prod.snd)).1.shared :=
    .request (.request (.request (.restart _ _ _) _ _ (fun _ _ => trivial) (by decide +kernel)) _ _
      (fun _ _ => trivial) (by decide +kernel)) _ _ (fun _ _ => trivial) (by decide +kernel)
  exact absurd (never plainSecurity _ reached "n1" (by decide +kernel)).1 (by decide +kernel)

end Vigile.Workers
