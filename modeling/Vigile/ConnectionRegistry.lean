import Vigile.NodeManager

/-! What the actions do to the registry of connections and to the nodes of the pending
intents: every pending intent belongs to a node that is registered, as long as nobody
closes a connection without unregistering its node. -/
namespace Vigile.NodeManager

open Python

variable {nm nm' : NodeManager}

inductive Done (act : Act) (outside : Outside) (nm nm' : NodeManager) : Prop
  | same (missed : outside.fault.takesEffect = false ∨ ∃ future, act = .awaitFuture future)
      (unchanged : nm' = nm)
  | cancelled (future : Nat) (waits : act = .awaitFuture future) (after : nm' = nm.cancel future)
  | effect (struck : act.awaits = true → outside.fault.takesEffect = true)
      (after : nm' = (effect nm outside.now act).1)

variable {act : Act} {id nodeId : String} {nm : NodeManager}

theorem done_of_exec {outside : Outside} {reply : Except PyError act.Reply}
    (h : exec act outside nm = some (nm',reply)) : Done act outside nm nm' := by
  have struck : ∀ act : Act, act.awaits = true →
      (outside.fault.strike nm (effect nm outside.now act)).1 = nm' → Done act outside nm nm' := by
    intro act _ after
    rw [strike_fst] at after
    cases takes : outside.fault.takesEffect with
    | true =>
      rw [takes] at after
      exact .effect (fun _ => takes) after.symm
    | false =>
      rw [takes] at after
      exact .same (.inl takes) after.symm
  cases act with
  | awaitFuture future =>
    simp only [exec,awaitFuture] at h
    split at h
    · exact .cancelled future rfl (Prod.mk.inj (Option.some.inj h)).1.symm
    · exact .cancelled future rfl (Prod.mk.inj (Option.some.inj h)).1.symm
    · split at h
      · contradiction
      · exact .same (.inr ⟨future,rfl⟩) (Prod.mk.inj (Option.some.inj h)).1.symm
      · exact .same (.inr ⟨future,rfl⟩) (Prod.mk.inj (Option.some.inj h)).1.symm
      · split at h
        · exact .cancelled future rfl (Prod.mk.inj (Option.some.inj h)).1.symm
        · contradiction
  | defaultTimeout | closeIntent | resolveIntent | intentNode | cleanupStaleIntents
    | setDefaultIntentMaxAge =>
    exact .effect (by simp [Act.awaits]) (congrArg Prod.fst (Option.some.inj h)).symm
  | _ => exact struck _ rfl (congrArg Prod.fst (Option.some.inj h))

@[simp] theorem dropIntent_connections (nm : NodeManager) (intentId : String) :
    (nm.dropIntent intentId).connections = nm.connections := by
  unfold dropIntent
  split <;> rfl

@[simp] theorem dropIntent_intentNodes (nm : NodeManager) (intentId : String) :
    (nm.dropIntent intentId).intentNodes = nm.intentNodes.erase intentId := by
  unfold dropIntent
  split <;> rfl

theorem foldl_dropIntent_connections (intents : List String) (nm : NodeManager) :
    (intents.foldl dropIntent nm).connections = nm.connections := by
  induction intents generalizing nm with
  | nil => rfl
  | cons intentId rest ih => rw [List.foldl_cons,ih,dropIntent_connections]

/-- What is left after some intents were dropped was there before and is none of them. -/
theorem foldl_dropIntent_intentNodes {intents : List String}
    (found : (intents.foldl dropIntent nm).intentNodes.get? id = some nodeId) :
    nm.intentNodes.get? id = some nodeId ∧ id ∉ intents := by
  induction intents generalizing nm with
  | nil => exact ⟨found,List.not_mem_nil⟩
  | cons intentId rest ih =>
    obtain ⟨before,others⟩ := ih found
    rw [dropIntent_intentNodes] at before
    obtain ⟨differ,kept⟩ := OrderedMap.get?_erase_some before
    exact ⟨kept,by simp [differ,others]⟩

theorem mem_intentsOf :
    id ∈ nm.intentsOf nodeId ↔ nm.intentNodes.get? id = some nodeId := by
  unfold intentsOf
  rw [← OrderedMap.mem_entries]
  simp only [List.mem_map,List.mem_filter,decide_eq_true_eq,Prod.exists]
  constructor
  · rintro ⟨id',node,⟨member,rfl⟩,rfl⟩
    exact member
  · exact fun member => ⟨id,nodeId,⟨member,rfl⟩,rfl⟩

theorem unregister_connections (nm : NodeManager) (nodeId : String) :
    (nm.unregisterConnection nodeId).connections = nm.connections.erase nodeId :=
  foldl_dropIntent_connections _ _

/-- Of the intents of an unregistered node none is left. -/
theorem unregister_intentNodes {other : String}
    (found : (nm.unregisterConnection nodeId).intentNodes.get? id = some other) :
    nm.intentNodes.get? id = some other ∧ other ≠ nodeId := by
  obtain ⟨kept,notDropped⟩ := foldl_dropIntent_intentNodes found
  refine ⟨kept,?_⟩
  rintro rfl
  exact notDropped (mem_intentsOf.mpr kept)

/-- Where a node has no intent, unregistering it cancels nothing. -/
theorem unregister_futures
    (free : ∀ id, nm.intentNodes.get? id ≠ some nodeId) :
    (nm.unregisterConnection nodeId).futures = nm.futures := by
  have none : nm.intentsOf nodeId = [] :=
    List.eq_nil_iff_forall_not_mem.mpr fun id member => free id (mem_intentsOf.mp member)
  unfold unregisterConnection
  rw [none]
  rfl

theorem cleanup_fold (intents : List String) (nm : NodeManager) :
    (intents.foldl (fun nm intentId => (nm.dropIntent intentId).forgetMaxAge intentId) nm).connections =
      nm.connections ∧ ∀ id nodeId,
    (intents.foldl (fun nm intentId => (nm.dropIntent intentId).forgetMaxAge intentId)
      nm).intentNodes.get? id = some nodeId → nm.intentNodes.get? id = some nodeId := by
  induction intents generalizing nm with
  | nil => exact ⟨rfl,fun _ _ found => found⟩
  | cons intentId rest ih =>
    obtain ⟨connections,kept⟩ := ih ((nm.dropIntent intentId).forgetMaxAge intentId)
    refine ⟨connections.trans (dropIntent_connections nm intentId),fun id nodeId found => ?_⟩
    have before : (nm.dropIntent intentId).intentNodes.get? id = some nodeId := kept id nodeId found
    rw [dropIntent_intentNodes] at before
    exact (OrderedMap.get?_erase_some before).2

def entryAfter (nm : NodeManager) (now : ℚ) (nodeId : String) : Act → Option ActiveConnection
  | .registerConnection other websocket remote =>
    if nodeId = other then some ⟨nodeId,websocket,now,now,remote⟩ else nm.connections.get? nodeId
  | .unregisterConnection other | .popConnection other =>
    if nodeId = other then none else nm.connections.get? nodeId
  | .touchHeartbeat other =>
    (nm.connections.get? nodeId).map fun conn =>
      if nodeId = other then {conn with lastHeartbeat := now} else conn
  | _ => nm.connections.get? nodeId

theorem get?_effect (nm : NodeManager) (now : ℚ) (act : Act) (nodeId : String) :
    (effect nm now act).1.connections.get? nodeId = entryAfter nm now nodeId act := by
  cases act with
  | registerConnection other websocket remote =>
    simp only [effect,registerConnection,entryAfter]
    split
    · rename_i same
      subst same
      exact OrderedMap.get?_set_self
    · rename_i differ
      exact OrderedMap.get?_set_of_ne differ
  | unregisterConnection other =>
    simp only [effect,entryAfter,unregister_connections]
    exact OrderedMap.get?_erase _ _ _
  | popConnection other => exact OrderedMap.get?_erase _ _ _
  | touchHeartbeat other => exact OrderedMap.get?_modify _
  | openIntent other intent maxAge =>
    simp only [effect,openIntent,entryAfter]
    cases nm.connections.get? other <;> rfl
  | resolveIntent intentId result =>
    simp only [effect,resolveIntent,entryAfter]
    split <;> rfl
  | cleanupStaleIntents => exact congrArg (OrderedMap.get? · nodeId) (cleanup_fold _ nm).1
  | _ => rfl

/-- Every pending intent belongs to a registered node. -/
def Rooted (nm : NodeManager) : Prop :=
  ∀ id nodeId, nm.intentNodes.get? id = some nodeId → (nm.connections.get? nodeId).isSome

def Act.isPop : Act → Bool
  | .popConnection _ => true
  | _ => false

theorem rooted_effect (rooted : nm.Rooted) (now : ℚ) (stays : act.isPop = false) :
    (effect nm now act).1.Rooted := by
  intro id nodeId found
  rw [get?_effect]
  cases act with
  | popConnection => contradiction
  | registerConnection other websocket remote =>
    simp only [entryAfter]
    split
    · rfl
    · exact rooted id nodeId found
  | unregisterConnection other =>
    obtain ⟨kept,differ⟩ := unregister_intentNodes found
    simp only [entryAfter,differ,if_false]
    exact rooted id nodeId kept
  | touchHeartbeat other =>
    simp only [entryAfter,Option.isSome_map]
    exact rooted id nodeId found
  | openIntent other intent maxAge =>
    simp only [effect,openIntent] at found
    cases entry : nm.connections.get? other with
    | none =>
      rw [entry] at found
      exact rooted id nodeId found
    | some conn =>
      rw [entry] at found
      by_cases same : id = intent.intentId
      · subst same
        obtain rfl : other = nodeId := by simpa using found
        simp [entryAfter,entry]
      · exact rooted id nodeId (by simpa [OrderedMap.get?_set_of_ne same] using found)
  | resolveIntent intentId result =>
    have kept : (nm.intentNodes.erase intentId).get? id = some nodeId := by
      simp only [effect,resolveIntent] at found
      split at found <;> exact found
    exact rooted id nodeId (OrderedMap.get?_erase_some kept).2
  | closeIntent intentId => exact rooted id nodeId (OrderedMap.get?_erase_some found).2
  | cleanupStaleIntents => exact rooted id nodeId ((cleanup_fold _ nm).2 id nodeId found)
  | _ => exact rooted id nodeId found

theorem rooted_done {outside : Outside} (rooted : nm.Rooted)
    (stays : act.isPop = false) (done : Done act outside nm nm') : nm'.Rooted := by
  cases done with
  | same missed unchanged => exact unchanged ▸ rooted
  | cancelled future waits after => exact after ▸ rooted
  | effect struck after => exact after ▸ rooted_effect rooted _ stays

end Vigile.NodeManager
