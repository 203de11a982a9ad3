import Vigile.ConnectionRegistry
import Vigile.WorkerHandler

/-! What the steps do to the rows of a node and of its tokens, and when a transaction
goes through. -/
namespace Vigile.Workers

open Interleaving Python NodeManager

variable {sec : Security} {s s' : State}

def State.standing (s : State) (nodeId : String) : Option (NodeState × Bool) :=
  (s.nodes.get? nodeId).map fun row => (row.state,row.disabled)

theorem stateOf_eq (s : State) (nodeId : String) :
    s.stateOf nodeId = (s.standing nodeId).map Prod.fst := by
  unfold State.stateOf State.standing
  rw [Option.map_map]
  rfl

theorem isDisabled_eq (s : State) (nodeId : String) :
    s.isDisabled nodeId = ((s.standing nodeId).map Prod.snd).getD false := by
  unfold State.isDisabled State.standing
  rw [Option.map_map]
  rfl

/-- An UPDATE of columns that are neither the state nor the flag. -/
theorem standing_updateNode {change : NodeRow → NodeRow} (nodes : OrderedMap String NodeRow)
    (nodeId other : String) (state : ∀ row, (change row).state = row.state)
    (flag : ∀ row, (change row).disabled = row.disabled) :
    ((updateNode nodes nodeId change).get? other).map (fun row => (row.state,row.disabled)) =
      (nodes.get? other).map fun row => (row.state,row.disabled) := by
  rw [get?_updateNode,Option.map_map]
  congr 1
  funext row
  simp only [Function.comp_apply]
  split
  · rw [state,flag]
  · rfl

variable {issued : IssuedToken} {nodeId : String} {nodes : OrderedMap String NodeRow} {e : Enrollment} {act : Act}
  {outside : Outside}

theorem insertToken_ok
    {tokens tokens' : OrderedMap String WorkerToken}
    (h : insertToken nodes tokens nodeId issued = .ok tokens') :
    tokens.get? issued.tokenHash = none ∧ (nodes.get? nodeId).isSome ∧
      tokens' = tokens.set issued.tokenHash
        ⟨issued.id,nodeId,issued.issuedAt,issued.rotationDue,issued.expiresAt,false,none⟩ := by
  unfold insertToken at h
  split at h
  · contradiction
  · rename_i unused
    split at h
    · contradiction
    · rename_i known
      refine ⟨?_,?_,(Except.ok.inj h).symm⟩
      · simpa using fun some => unused (.inl some)
      · simpa [Option.isSome_iff_ne_none] using known

variable {nodes' : OrderedMap String NodeRow} {now : ℚ} {oldHash : String} {reply : Except PyError act.Reply}

theorem enrollNode_first
    (h : enrollNode nodes e = .ok nodes') (first : e.first = true) :
    nodes.get? e.payload.nodeId = none ∧ nodes' = nodes.set e.payload.nodeId
      (.enrolled e.payload e.name e.fingerprint e.publicKey e.remote e.now) := by
  unfold enrollNode at h
  rw [if_pos first] at h
  split at h
  · contradiction
  split at h
  · contradiction
  · rename_i unused
    split at h
    · contradiction
    · exact ⟨by simpa using unused,(Except.ok.inj h).symm⟩

theorem enrollNode_again
    (h : enrollNode nodes e = .ok nodes') (again : e.first = false) :
    nodes' = updateNode nodes e.payload.nodeId
      (·.reenrolled e.fingerprint e.publicKey e.remote e.now) := by
  unfold enrollNode at h
  split at h
  · contradiction
  rw [again] at h
  exact (Except.ok.inj h).symm

structure Enrolled (s : State) (e : Enrollment) (s' : State) : Prop where
  unconsumed : ∃ token, s.joinTokens.get? e.tokenHash = some token ∧ token.consumed = false
  consumes : s'.joinTokens = consume s.joinTokens e.tokenHash
  enrolls : enrollNode s.nodes e = .ok s'.nodes
  issues : insertToken s'.nodes s.workerTokens e.payload.nodeId e.issued = .ok s'.workerTokens
  nm : s'.nm = s.nm

theorem enrolled_of_ok (h : enrollRows s e = .ok s') : Enrolled s e s' := by
  unfold enrollRows at h
  split at h
  · contradiction
  rename_i unconsumed
  split at h
  · contradiction
  rename_i nodes enrolls
  split at h
  · contradiction
  rename_i workerTokens issues
  obtain rfl := Except.ok.inj h
  refine ⟨?_,rfl,enrolls,issues,rfl⟩
  rw [Option.isNone_iff_eq_none] at unconsumed
  obtain ⟨token,found⟩ := Option.ne_none_iff_exists'.mp unconsumed
  rw [Option.filter_eq_some_iff] at found
  exact ⟨token,found.1,by simpa using found.2⟩

structure Reissued (s : State) (nodeId : String) (fingerprint : Fingerprint)
    (remote : Option String) (oldHash : String) (now : ℚ) (issued : IssuedToken) (s' : State) : Prop where
  nodes : s'.nodes = updateNode s.nodes nodeId (·.refreshed fingerprint remote now)
  issues : insertToken s'.nodes (revokeToken s.workerTokens oldHash now) nodeId issued =
    .ok s'.workerTokens
  joinTokens : s'.joinTokens = s.joinTokens
  nm : s'.nm = s.nm

theorem reissued_of_ok {fingerprint : Fingerprint} {remote : Option String}
    (h : reissueRows s nodeId fingerprint remote oldHash now issued = .ok s') :
    Reissued s nodeId fingerprint remote oldHash now issued s' := by
  unfold reissueRows at h
  split at h
  · contradiction
  dsimp only at h
  split at h
  · contradiction
  rename_i workerTokens issues
  obtain rfl := Except.ok.inj h
  exact ⟨rfl,issues,rfl,rfl⟩

structure Rotated (s : State) (nodeId oldHash : String) (now : ℚ) (issued : IssuedToken)
    (s' : State) : Prop where
  nodes : s'.nodes = s.nodes
  issues : insertToken s.nodes (revokeToken s.workerTokens oldHash now) nodeId issued =
    .ok s'.workerTokens
  joinTokens : s'.joinTokens = s.joinTokens
  nm : s'.nm = s.nm

theorem rotated_of_ok
    (h : rotateRows s nodeId oldHash now issued = .ok s') : Rotated s nodeId oldHash now issued s' := by
  unfold rotateRows at h
  split at h
  · contradiction
  rename_i workerTokens issues
  obtain rfl := Except.ok.inj h
  exact ⟨rfl,issues,rfl,rfl⟩

def standingAfter (s : State) (nodeId : String) : Act → Option (NodeState × Bool)
  | .updateState other _ newState _ _ =>
    (s.standing nodeId).map fun old => if nodeId = other then (newState,old.2) else old
  | .updateFlag other disabled _ =>
    (s.standing nodeId).map fun old => if nodeId = other then (old.1,disabled) else old
  | .enroll e =>
    if e.first ∧ nodeId = e.payload.nodeId ∧ (enrollRows s e).isOk then some (.connected,false)
    else s.standing nodeId
  | .deleteNode other _ => if nodeId = other then none else s.standing nodeId
  | _ => s.standing nodeId

theorem standing_effect (s : State) (outside : Outside) (act : Act) (nodeId : String) :
    (effect sec s outside act).1.standing nodeId = standingAfter s nodeId act := by
  cases act with
  | updateState other fromState newState now contact =>
    simp only [effect,standingAfter,State.standing,get?_updateNode,Option.map_map]
    congr 1
    funext row
    simp only [Function.comp_apply]
    split
    · simp
    · rfl
  | updateFlag other disabled now =>
    simp only [effect,standingAfter,State.standing,get?_updateNode,Option.map_map]
    congr 1
    funext row
    simp only [Function.comp_apply]
    split <;> rfl
  | updateVersion other version now =>
    simp only [effect,standingAfter]
    split
    · exact standing_updateNode _ _ _ (fun _ => rfl) fun _ => rfl
    · rfl
  | enroll e =>
    simp only [effect,standingAfter]
    cases h : enrollRows s e with
    | error error => simp [transaction,Except.isOk,Except.toBool]
    | ok s' =>
      have enrolled := enrolled_of_ok h
      simp only [transaction,Except.isOk,Except.toBool,and_true]
      cases first : e.first with
      | true =>
        obtain ⟨unused,nodes⟩ := enrollNode_first enrolled.enrolls first
        simp only [State.standing,nodes,true_and]
        split
        · rename_i same
          subst same
          simp [NodeRow.enrolled]
        · rename_i differ
          rw [OrderedMap.get?_set_of_ne differ]
      | false =>
        simp only [State.standing,enrollNode_again enrolled.enrolls first,Bool.false_eq_true,
          false_and,if_false]
        exact standing_updateNode _ _ _ (fun _ => rfl) fun _ => rfl
  | reissue other fingerprint remote oldHash now issued =>
    simp only [effect,standingAfter]
    cases h : reissueRows s other fingerprint remote oldHash now issued with
    | error error => rfl
    | ok s' =>
      simp only [transaction,State.standing,(reissued_of_ok h).nodes]
      exact standing_updateNode _ _ _ (fun _ => rfl) fun _ => rfl
  | rotate other oldHash now issued =>
    simp only [effect,standingAfter]
    cases h : rotateRows s other oldHash now issued with
    | error error => rfl
    | ok s' => simp only [transaction,State.standing,(rotated_of_ok h).nodes]
  | deleteNode other entry =>
    simp only [effect,standingAfter,deleteRows,State.standing,OrderedMap.get?_erase]
    split <;> rfl
  | insertJoinToken tokenHash other expiresAt =>
    simp only [effect,standingAfter]
    split <;> rfl
  | _ => rfl

inductive Stepped (sec : Security) (act : Act) (outside : Outside) (s s' : State) : Prop
  | same (missed : outside.fault.takesEffect = false ∨ ∃ future, act = .nm (.awaitFuture future))
      (unchanged : s' = s)
  | cancelled (future : Nat) (waits : act = .nm (.awaitFuture future))
      (after : s' = {s with nm := s.nm.cancel future})
  | effect (struck : act.immediate = false → (∀ act', act = .nm act' → act'.awaits = true) →
        outside.fault.takesEffect = true) (after : s' = (effect sec s outside act).1)

theorem stepped_of_exec
    (h : exec sec act outside s = some (s',reply)) : Stepped sec act outside s s' := by
  have plain : ∀ act : Act, act.immediate = false →
      (outside.fault.strike s (effect sec s outside act)).1 = s' → Stepped sec act outside s s' := by
    intro act _ after
    rw [strike_fst] at after
    cases takes : outside.fault.takesEffect with
    | true =>
      rw [takes] at after
      exact .effect (fun _ _ => takes) after.symm
    | false =>
      rw [takes] at after
      exact .same (.inl takes) after.symm
  cases act with
  | nm act =>
    obtain ⟨⟨nm',reply'⟩,done,same⟩ := Option.map_eq_some_iff.mp h
    obtain ⟨rfl,_⟩ := Prod.mk.inj same
    cases done_of_exec done with
    | same missed unchanged =>
      exact .same (missed.imp_right fun ⟨future,waits⟩ => ⟨future,congrArg Act.nm waits⟩)
        (by rw [unchanged])
    | cancelled future waits after => exact .cancelled future (congrArg Act.nm waits) (by rw [after])
    | effect struck after => exact .effect (fun _ awaits => struck (awaits act rfl)) (by rw [after]; rfl)
  | goOn => contradiction
  | clock | uuid | challenge | verifySignature | readFingerprint | generateWorkerToken
    | generateJoinToken | heartbeatAge =>
    exact .effect (fun other => by contradiction) (congrArg Prod.fst (Option.some.inj h)).symm
  | _ => exact plain _ rfl (congrArg Prod.fst (Option.some.inj h))

/-- A step on a node leaves its standing or gives it the one of its effect. -/
theorem standing_of_exec
    (h : exec sec act outside s = some (s',reply)) (nodeId : String) :
    s'.standing nodeId = s.standing nodeId ∨ s'.standing nodeId = standingAfter s nodeId act := by
  cases stepped_of_exec h with
  | same missed unchanged => exact .inl (by rw [unchanged])
  | cancelled future waits after => exact .inl (by rw [after]; rfl)
  | effect struck after => exact .inr (by rw [after,standing_effect])

/-- Only the actions on the `NodeManager` change it. -/
theorem nm_of_exec
    (h : exec sec act outside s = some (s',reply)) (other : ∀ act', act ≠ .nm act') :
    s'.nm = s.nm := by
  cases stepped_of_exec h with
  | same missed unchanged => rw [unchanged]
  | cancelled future waits after => exact absurd waits (other _)
  | effect struck after =>
    rw [after]
    cases act with
    | nm act => exact absurd rfl (other act)
    | updateVersion nodeId version now | insertJoinToken tokenHash nodeId expiresAt =>
      simp only [effect]
      split <;> rfl
    | enroll e =>
      simp only [effect]
      cases h : enrollRows s e with
      | error error => rfl
      | ok s' => exact (enrolled_of_ok h).nm
    | reissue nodeId fingerprint remote oldHash now issued =>
      simp only [effect]
      cases h : reissueRows s nodeId fingerprint remote oldHash now issued with
      | error error => rfl
      | ok s' => exact (reissued_of_ok h).nm
    | rotate nodeId oldHash now issued =>
      simp only [effect]
      cases h : rotateRows s nodeId oldHash now issued with
      | error error => rfl
      | ok s' => exact (rotated_of_ok h).nm
    | _ => rfl

theorem nm_done_of_exec {act : NodeManager.Act} {reply : Except PyError act.Reply}
    (h : exec sec (.nm act) outside s = some (s',reply)) :
    NodeManager.Done act ⟨outside.fault,outside.now,outside.expired⟩ s.nm s'.nm ∧
      s' = {s with nm := s'.nm} := by
  obtain ⟨⟨nm',reply'⟩,done,same⟩ := Option.map_eq_some_iff.mp h
  obtain ⟨rfl,_⟩ := Prod.mk.inj same
  exact ⟨done_of_exec done,rfl⟩

def State.isRegistered (s : State) (nodeId : String) : Bool :=
  (s.nm.connections.get? nodeId).isSome

def registeredAfter (s : State) (nodeId : String) : Act → Bool
  | .nm (.registerConnection other _ _) => nodeId = other || s.isRegistered nodeId
  | .nm (.unregisterConnection other) | .nm (.popConnection other) =>
    nodeId ≠ other && s.isRegistered nodeId
  | _ => s.isRegistered nodeId

theorem registered_effect (s : State) (outside : Outside) (act : NodeManager.Act) (nodeId : String) :
    (effect sec s outside (.nm act)).1.isRegistered nodeId = registeredAfter s nodeId (.nm act) := by
  unfold State.isRegistered
  change ((NodeManager.effect s.nm outside.now act).1.connections.get? nodeId).isSome = _
  rw [get?_effect]
  cases act with
  | registerConnection other websocket remote | unregisterConnection other | popConnection other =>
    simp only [entryAfter,registeredAfter,State.isRegistered]
    by_cases same : nodeId = other
    · simp [same]
    · simp [same]
  | touchHeartbeat other => exact Option.isSome_map
  | _ => rfl

/-- What a step does to the standing and the registration of all nodes. -/
theorem outcome_of_exec
    (h : exec sec act outside s = some (s',reply)) :
    (outside.fault.takesEffect = false ∨ ∃ future, act = .nm (.awaitFuture future)) ∧
      (∀ nodeId, s'.standing nodeId = s.standing nodeId ∧ s'.isRegistered nodeId = s.isRegistered nodeId) ∨
    ∀ nodeId, s'.standing nodeId = standingAfter s nodeId act ∧
      s'.isRegistered nodeId = registeredAfter s nodeId act := by
  cases stepped_of_exec h with
  | same missed unchanged =>
    left
    rw [unchanged]
    exact ⟨missed,fun _ => ⟨rfl,rfl⟩⟩
  | cancelled future waits after =>
    left
    rw [after]
    exact ⟨.inr ⟨future,waits⟩,fun _ => ⟨rfl,rfl⟩⟩
  | effect struck after =>
    refine .inr fun nodeId => ⟨by rw [after,standing_effect],?_⟩
    have outer : (∀ act', act ≠ .nm act') → s'.isRegistered nodeId = s.isRegistered nodeId := by
      intro other
      unfold State.isRegistered
      rw [nm_of_exec h other]
    cases act with
    | nm act => rw [after,registered_effect]
    | _ => exact outer fun _ => by simp

/-- A step that replies has had its effect, the wait for a future apart. -/
theorem effect_of_ok {reply : act.Reply}
    (h : exec sec act outside s = some (s',.ok reply)) (other : ∀ act', act ≠ .nm act') :
    effect sec s outside act = (s',.ok reply) := by
  cases act with
  | nm act => exact absurd rfl (other act)
  | goOn => contradiction
  | clock | uuid | challenge | verifySignature | readFingerprint | generateWorkerToken
    | generateJoinToken | heartbeatAge => exact Option.some.inj h
  | _ => exact (strike_ok (Option.some.inj h)).2

theorem effect_of_ok_nm {act : NodeManager.Act} {reply : act.Reply}
    (h : exec sec (.nm act) outside s = some (s',.ok reply)) (other : ∀ future, act ≠ .awaitFuture future) :
    effect sec s outside (.nm act) = (s',.ok reply) := by
  obtain ⟨⟨nm',reply'⟩,done,same⟩ := Option.map_eq_some_iff.mp h
  obtain ⟨rfl,rfl⟩ := Prod.mk.inj same
  have effected : NodeManager.effect s.nm outside.now act = (nm',.ok reply) := by
    cases act with
    | awaitFuture future => exact absurd rfl (other future)
    | defaultTimeout | closeIntent | resolveIntent | intentNode | cleanupStaleIntents
      | setDefaultIntentMaxAge => exact Option.some.inj done
    | _ => exact (strike_ok (Option.some.inj done)).2
  simp only [effect]
  rw [effected]

/-- The rows of a transaction that answers. -/
theorem enrollRows_of_ok
    (h : exec sec (.enroll e) outside s = some (s',.ok ())) : enrollRows s e = .ok s' := by
  have effected := effect_of_ok h fun _ => by simp
  simp only [effect] at effected
  cases rows : enrollRows s e with
  | error error =>
    rw [rows] at effected
    simp [transaction] at effected
  | ok after =>
    rw [rows] at effected
    rw [(Prod.mk.inj effected).1]

end Vigile.Workers
