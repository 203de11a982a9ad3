import Vigile.ActionProposal
import Vigile.NodeManager

/-! The operations on action proposals as sequences of atomic steps: the API, the expiry
sweep, the dispatcher and its callers. Every statement with its commit is one step, and
so is the transaction of the claim. -/
namespace Vigile.Proposals

open Interleaving Python NodeManager

inductive Act where
  | nm (act : NodeManager.Act)
  | latestMetrics (nodeId : String)
  | clock
  | uuid
  | acquire (dispatcher : String)
  | release (dispatcher : String)
  | logAction (entry : AuditEntry)
  | selectProposal (id : String)
  | selectPending
  | selectUndispatched
  | selectDispatched (intentId dispatchId nodeId : String)
  | selectCachedContainers (nodeId : String)
  | selectMetric (metric nodeId : String)
  | insertProposal (id : String) (data : ProposalRow)
  | claim (id dispatchId intentId : String) (expiresAt now : ℚ)
  | update (update : StatusUpdate)

abbrev Act.Reply : Act → Type
  | .nm act => act.Reply
  | .latestMetrics _ => Option Fields
  | .clock => ℚ
  | .uuid => String
  | .selectProposal _ => Option ProposalRow
  | .selectPending | .selectUndispatched => List (String × ProposalRow)
  | .selectDispatched _ _ _ => Option (String × ProposalRow)
  | .selectCachedContainers _ => Option Json
  | .selectMetric _ _ => Option (Option ℚ)
  | .acquire _ | .release _ | .logAction _ | .insertProposal _ _ | .claim _ _ _ _ _ | .update _ =>
    Unit

abbrev Task (α : Type) := Prog Act Act.Reply PyError α

structure State where
  proposals : OrderedMap String ProposalRow
  nm : NodeManager
  locked : List String

/-- What the outside supplies: how a step fails, the time, and the answers of what is
not modelled. -/
structure Outside where
  fault : Fault
  now : ℚ
  expired : Bool
  fresh : String
  metrics : Option Fields
  containers : Option Json
  metric : Option (Option ℚ)

def calm : Outside := ⟨.none,0,false,"",none,none,none⟩

/-- `ORDER BY created_at ASC`, rows of one time in the order of the table. -/
def byCreation (rows : List (String × ProposalRow)) : List (String × ProposalRow) :=
  rows.mergeSort fun a b => a.2.createdAt ≤ b.2.createdAt

def claimable (row : ProposalRow) : Bool := row.dispatchId = none ∧ row.status = .approved

def claimRefused (id : String) : Option ProposalRow → PyError
  | none => .proposalNotFoundError s!"Proposal {id} not found (concurrent deletion?)"
  | some row =>
    if row.status ≠ .approved then
      .proposalNotApprovedError s!"Proposal {id} is '{row.status.text}', not APPROVED"
    else
      let holder := row.dispatchId.getD "None"
      .alreadyDispatchedError s!"Proposal {id} already claimed by dispatch_id={holder}"

/-- The UPDATE of the claim where the row satisfies its WHERE clause. -/
def claimRow (table : OrderedMap String ProposalRow) (id dispatchId intentId : String)
    (expiresAt now : ℚ) : OrderedMap String ProposalRow :=
  table.modify fun key row =>
    if key = id ∧ claimable row then
      {row with
        dispatchId := some dispatchId
        intentId := some intentId
        expiresAt := some expiresAt
        updatedAt := now}
    else row

/-- What every step but those of the `NodeManager` and the locks does undisturbed. -/
def effect (s : State) (outside : Outside) : (act : Act) → State × Except PyError act.Reply
  | .latestMetrics _ => (s,.ok outside.metrics)
  | .clock => (s,.ok outside.now)
  | .uuid => (s,.ok outside.fresh)
  | .logAction _ => (s,.ok ())
  | .selectProposal id => (s,.ok (s.proposals.get? id))
  | .selectPending => (s,.ok (byCreation (s.proposals.entries.filter (·.2.status = .pending))))
  | .selectUndispatched => (s,.ok (s.proposals.entries.filter fun entry => claimable entry.2))
  | .selectDispatched intentId dispatchId nodeId =>
    (s,.ok (s.proposals.entries.find? fun entry =>
      entry.2.intentId = some intentId ∧ entry.2.dispatchId = some dispatchId ∧
        entry.2.nodeId = nodeId ∧ entry.2.status = .approved))
  | .selectCachedContainers _ => (s,.ok outside.containers)
  | .selectMetric _ _ => (s,.ok outside.metric)
  | .insertProposal id data =>
    match s.proposals.get? id with
    | some _ => (s,.error (.integrityError "UNIQUE constraint failed: action_proposals.id"))
    | none => ({s with proposals := s.proposals.set id data},.ok ())
  | .claim id dispatchId intentId expiresAt now =>
    match s.proposals.get? id with
    | some row =>
      if claimable row then
        ({s with proposals := claimRow s.proposals id dispatchId intentId expiresAt now},.ok ())
      else (s,.error (claimRefused id (some row)))
    | none => (s,.error (claimRefused id none))
  | .update update => ({s with proposals := update.run s.proposals},.ok ())
  | .nm act =>
    let done := NodeManager.effect s.nm outside.now act
    ({s with nm := done.1},done.2)
  | .acquire dispatcher => ({s with locked := dispatcher :: s.locked},.ok ())
  | .release dispatcher => ({s with locked := s.locked.erase dispatcher},.ok ())

def exec (act : Act) (outside : Outside) (s : State) : Option (State × Except PyError act.Reply) :=
  match act with
  | .nm act =>
    (NodeManager.exec act ⟨outside.fault,outside.now,outside.expired⟩ s.nm).map fun done =>
      ({s with nm := done.1},done.2)
  | .clock => some (effect s outside .clock)
  | .uuid => some (effect s outside .uuid)
  | .latestMetrics nodeId => some (effect s outside (.latestMetrics nodeId))
  | .release dispatcher => some (effect s outside (.release dispatcher))
  | .acquire dispatcher =>
    -- a waiting task may be cancelled; a free lock is taken at once
    match outside.fault with
    | .before error => some (s,.error error)
    | _ => if dispatcher ∈ s.locked then none else some (effect s outside (.acquire dispatcher))
  | act => some (outside.fault.strike s (effect s outside act))

abbrev nm (act : NodeManager.Act) : Task act.Reply := Prog.perform (Act.nm act)
abbrev latestMetrics (nodeId : String) : Task (Option Fields) := Prog.perform (Act.latestMetrics nodeId)
abbrev clock : Task ℚ := Prog.perform Act.clock
abbrev uuid : Task String := Prog.perform Act.uuid
abbrev acquire (dispatcher : String) : Task Unit := Prog.perform (Act.acquire dispatcher)
abbrev release (dispatcher : String) : Task Unit := Prog.perform (Act.release dispatcher)
abbrev logAction (entry : AuditEntry) : Task Unit := Prog.perform (Act.logAction entry)
abbrev selectProposal (id : String) : Task (Option ProposalRow) :=
  Prog.perform (Act.selectProposal id)
abbrev selectPending : Task (List (String × ProposalRow)) := Prog.perform Act.selectPending
abbrev selectUndispatched : Task (List (String × ProposalRow)) := Prog.perform Act.selectUndispatched
abbrev selectDispatched (intentId dispatchId nodeId : String) :
    Task (Option (String × ProposalRow)) :=
  Prog.perform (Act.selectDispatched intentId dispatchId nodeId)
abbrev selectCachedContainers (nodeId : String) : Task (Option Json) :=
  Prog.perform (Act.selectCachedContainers nodeId)
abbrev selectMetric (metric nodeId : String) : Task (Option (Option ℚ)) :=
  Prog.perform (Act.selectMetric metric nodeId)
abbrev insertProposal (id : String) (data : ProposalRow) : Task Unit :=
  Prog.perform (Act.insertProposal id data)
abbrev claim (id dispatchId intentId : String) (expiresAt now : ℚ) : Task Unit :=
  Prog.perform (Act.claim id dispatchId intentId expiresAt now)
abbrev update (update : StatusUpdate) : Task Unit := Prog.perform (Act.update update)

variable (py : Builtins)

/-- `result.get("success", False)`, by its truth. -/
def succeeded (result : Fields) : Bool := (Fields.get result "success").truthy

/-- The two errors of a send or a wait that fail the proposal. -/
def isCaught : PyError → Bool
  | .runtimeError _ | .timeoutError _ => true
  | _ => false

/-- Step 4: the answer of the worker, or the caught failure in its place. -/
def sendApproved (proposal : ActionProposal) (intentId : String) (timeout : Option ℚ) : Task Fields := do
  try
    sendIntent nm py.floatText proposal.nodeId
      ⟨proposal.action,proposal.params,intentId,some proposal.id⟩ timeout none
  catch error =>
    if isCaught error then
      pure [("success",.bool false),("error",.str error.text)]
    else
      throw error

def dispatchDetails (proposal : ActionProposal) (dispatchId intentId : String) (result : Fields) :
    Fields :=
  [("proposal_id",.str proposal.id),("dispatch_id",.str dispatchId),("intent_id",.str intentId),
    ("action",.str proposal.action),("status",.str proposal.status.text),
    ("success",(result.lookup "success").getD (.bool false))]

def loadApproved (id : String) : Task ActionProposal := do
  let some row ← selectProposal id
    | throw (.proposalNotFoundError s!"Proposal {id} not found")
  let proposal ← Prog.ofExcept (ActionProposal.fromDbRow id row)
  if proposal.status ≠ .approved then
    throw (.proposalNotApprovedError
      s!"Proposal {id} is in state '{proposal.status.text}', expected APPROVED")
  return proposal

def dispatchApprovedImpl (id : String) (intentTimeout : Option ℚ) : Task Fields := do
  let proposal ← loadApproved id
  let dispatchId ← uuid
  let intentId ← uuid
  let now ← clock
  claim id dispatchId intentId (now + 300) now
  let result ← sendApproved py proposal intentId intentTimeout
  let completedAt ← clock
  let proposal ← Prog.ofExcept (proposal.complete (succeeded result) result completedAt)
  update (.completion id proposal.toDbDict)
  logAction ⟨match proposal.approvedBy with
      | none | some "" => "system"
      | some user => user,
    "INTENT_DISPATCH",some proposal.nodeId,dispatchDetails proposal dispatchId intentId result⟩
  return result

def dispatchApproved (dispatcher id : String) (intentTimeout : Option ℚ) : Task Fields := do
  acquire dispatcher
  (dispatchApprovedImpl py id intentTimeout).ensure (release dispatcher)

def resolveIntentResult (intentId dispatchId nodeId : String) (result : Fields) : Task Unit := do
  let some (id,row) ← selectDispatched intentId dispatchId nodeId
    | throw (.proposalNotFoundError
        s!"No APPROVED proposal found for intent_id={intentId} dispatch_id={dispatchId} node_id={nodeId}")
  let success := (result.lookup "success").getD (.bool false)
  let status := if success.truthy then ProposalStatus.executed else .failed
  let now ← clock
  update (.resolution intentId dispatchId status now result)
  logAction ⟨match row.approvedBy with
      | none | some "" => "system"
      | some user => user,
    "INTENT_RESULT",some nodeId,[("proposal_id",.str id),("intent_id",.str intentId),
      ("dispatch_id",.str dispatchId),("status",.str status.text),("success",success)]⟩

def persistProposal (proposal : ActionProposal) : Task Unit :=
  let data := proposal.toDbDict
  insertProposal proposal.id {data with
    approvedBy := none
    rejectedBy := none
    rejectionReason := none
    executedAt := none
    resultJson := .null
    dispatchId := none
    intentId := none
    expiresAt := none}

def dispatchAdminAction (dispatcher nodeId action : String) (params : Fields) (userId : String)
    (intentTimeout : Option ℚ) (reasoning : Option String) (riskLevel : String) : Task Fields := do
  let id ← uuid
  let createdAt ← clock
  let updatedAt ← clock
  let reasoning := match reasoning with
    | none | some "" => s!"Admin action: {action}"
    | some text => text
  let proposal : ActionProposal := ⟨id,nodeId,action,params,reasoning,riskLevel,.approved,userId,
    some userId,none,none,createdAt,updatedAt,none,none,none,none,none⟩
  insertProposal id proposal.toDbDict
  dispatchApproved py dispatcher id intentTimeout

def reconcileRow (dispatcher id : String) : Task Unit := do
  try
    let _ ← dispatchApproved py dispatcher id (some 30)
  catch error =>
    if error.isException then
      pure ()
    else
      throw error

def reconcileRows (dispatcher : String) : List (String × ProposalRow) → Task Unit
  | [] => pure ()
  | (id,_) :: rest => do
    reconcileRow py dispatcher id
    reconcileRows dispatcher rest

def reconcileApproved (dispatcher : String) : Task Unit := do
  try
    let pending ← selectUndispatched
    reconcileRows py dispatcher pending
  catch error =>
    if error.isException then
      pure ()
    else
      throw error

/-- `WorkerQueryPort.query` with the action LIST_CONTAINERS. -/
def queryContainers (nodeId : String) (timeout : Option ℚ) : Task Fields := do
  let connected ← nm (.isConnected nodeId)
  if !connected then
    throw (.runtimeError s!"Node {nodeId} is not connected")
  let intentId ← uuid
  sendIntent nm py.floatText nodeId ⟨"LIST_CONTAINERS",[],intentId,none⟩ timeout none

def getLiveContainers (nodeId : String) : Task (List Fields) := do
  let result ← try
      queryContainers py nodeId (some 10)
    catch error =>
      if isCaught error then
        pure []
      else
        throw error
  if succeeded result then
    pure (py.parseContainers ((result.lookup "output").getD (.str "")))
  else
    pure []

def resolveContainerTarget (nodeId target : String) : Task Resolution := do
  let cached ← selectCachedContainers nodeId
  let fromCache := match cachedContainers cached with
    | [] => Resolution.notFound
    | containers => py.matchContainer target containers
  match fromCache with
  | .notFound => do
    let live ← getLiveContainers py nodeId
    match live with
    | [] => pure .notFound
    | containers => pure (py.matchContainer target containers)
  | found => pure found

/-- The error of the normalisation, or the proposal with the parameters to execute. -/
def normalizeActionProposal (proposal : ActionProposal) : Task (Except String ActionProposal) := do
  if proposal.action ≠ "RESTART_CONTAINER" then
    return .ok proposal
  let target := extractContainerTarget proposal.params
  if target = "" then
    return .error "RESTART_CONTAINER requires a container target"
  let resolved ← resolveContainerTarget py proposal.nodeId target
  match resolved with
  | .matched value =>
    return .ok {proposal with params := [("container_id",.str value),("target",.str value)]}
  | other => return .error (unresolved target other)

/-- The service of an approval, which `is_protected_service` strips as a string. -/
def serviceName : Json → Except PyError String
  | .str text => .ok text
  | _ => .error (.attributeError "object has no attribute 'strip'")

def loadPending (id : String) : Task ActionProposal := do
  let some row ← selectProposal id
    | throw (.httpException 404 "Proposal not found")
  let proposal ← Prog.ofExcept (ActionProposal.fromDbRow id row)
  if proposal.status ≠ .pending then
    throw (.httpException 409 s!"Proposal is {proposal.status.text}, not PENDING")
  return proposal

/-- The two refusals of an approval, each audited. -/
def checkApproval (claims : Claims) (proposal : ActionProposal) : Task Unit := do
  if proposal.action ∈ destructiveActions ∧ claims.role ≠ some "admin" then
    logAction ⟨claims.sub,"SECURITY_INCIDENT",some proposal.nodeId,
      [("reason",.str "unauthorized_role_attempt"),("required_role",.str "admin"),
        ("user_role",Json.ofText claims.role),("action",.str proposal.action),
        ("proposal_id",.str proposal.id)]⟩
    throw (.httpException 403
      s!"L'approbation de l'action '{proposal.action}' est strictement réservée aux administrateurs.")
  let service ← Prog.ofExcept (serviceName (targetService proposal))
  if isProtectedService py service then
    logAction ⟨claims.sub,"SECURITY_INCIDENT",some proposal.nodeId,
      [("reason",.str "attempt_to_target_protected_service"),("action",.str proposal.action),
        ("service",.str service),("proposal_id",.str proposal.id)]⟩
    throw (.httpException 403 s!"Le service '{service}' est protégé et ne peut pas être modifié.")

def approvalDetails (proposal : ActionProposal) (result : Json) : Fields :=
  [("proposal_id",.str proposal.id),("action",.str proposal.action),
    ("target",auditTarget proposal.params ["target","container_id","container","service"]),
    ("status",.str proposal.status.text),("result",result)]

def approveProposal (dispatcher id : String) (claims : Claims) : Task ActionProposal := do
  let proposal ← loadPending id
  checkApproval py claims proposal
  let approvedAt ← clock
  let approved ← Prog.ofExcept (proposal.approve claims.sub approvedAt)
  let normalized ← normalizeActionProposal py approved
  match normalized with
  | .error validationError => do
    let failedAt ← clock
    let failed ← Prog.ofExcept
      (approved.complete false [("error",.str validationError)] failedAt)
    update (.refusal id failed.toDbDict)
    logAction ⟨claims.sub,"PROPOSAL_APPROVED",some failed.nodeId,
      approvalDetails failed failed.toDbDict.resultJson⟩
    return failed
  | .ok approved => do
    update (.approval id approved.toDbDict)
    let result ← dispatchApproved py dispatcher id (some 15)
    logAction ⟨claims.sub,"PROPOSAL_APPROVED",some approved.nodeId,
      approvalDetails approved (.object result)⟩
    let some row ← selectProposal id
      | throw (.otherException "'NoneType' object is not iterable")
    Prog.ofExcept (ActionProposal.fromDbRow id row)

def rejectProposal (id : String) (claims : Claims) (reason : String) : Task ActionProposal := do
  let proposal ← loadPending id
  let now ← clock
  let rejected ← Prog.ofExcept (proposal.reject claims.sub reason now)
  update (.rejection id rejected.toDbDict)
  logAction ⟨claims.sub,"PROPOSAL_REJECTED",some rejected.nodeId,
    [("proposal_id",.str id),("action",.str rejected.action),
      ("target",auditTarget rejected.params ["target","container","service"]),("reason",.str reason)]⟩
  return rejected

/-- The value in memory comes first, then the last snapshot of the node. -/
def metricResolved (metric nodeId : String) (latest : Option Fields) : Task (Option String) :=
  match reportedMetric py latest metric with
  | some value => pure (resolvedReason metric (some value))
  | none => do
    let row ← selectMetric metric nodeId
    match row with
    | none => pure none
    | some value => pure (resolvedReason metric value)

def checkMetricResolved (proposal : ActionProposal) : Task (Option String) :=
  match metricOf py proposal.reasoning with
  | none => pure none
  | some metric =>
    if proposal.nodeId = "" then
      metricResolved py metric proposal.nodeId none
    else do
      let latest ← latestMetrics proposal.nodeId
      metricResolved py metric proposal.nodeId latest

def doCancel (proposal : ActionProposal) (reason : String) : Task Unit := do
  let now ← clock
  let rejected := {proposal with
    status := ProposalStatus.rejected
    rejectedBy := some "system"
    rejectionReason := some s!"Auto-canceled: {reason}"
    updatedAt := now}
  update (.rejection proposal.id rejected.toDbDict)
  if proposal.nodeId ≠ "" then
    logAction ⟨"system","PROPOSAL_REJECTED",some proposal.nodeId,
      [("proposal_id",.str proposal.id),("action",.str proposal.action),("reason",.str reason)]⟩

def expireRow (now : ℚ) (id : String) (row : ProposalRow) : Task Bool := do
  let proposal ← Prog.ofExcept (ActionProposal.fromDbRow id row)
  if proposalTtl < now - proposal.createdAt then
    doCancel proposal "Délai expiré (proposition trop ancienne)"
    return true
  let reason ← checkMetricResolved py proposal
  match reason with
  | none | some "" => return false
  | some reason => do
    doCancel proposal reason
    return true

def expireRows (now : ℚ) : List (String × ProposalRow) → Task Nat
  | [] => pure 0
  | (id,row) :: rest => do
    let canceled ← expireRow py now id row
    let others ← expireRows now rest
    return (if canceled then 1 else 0) + others

def autoExpireProposals : Task Nat := do
  let now ← clock
  let rows ← selectPending
  expireRows py now rows

/-- A call of the API, a background task, or what sessions do to the `NodeManager`. -/
inductive Operation where
  | approve (dispatcher id : String) (claims : Claims)
  | reject (id : String) (claims : Claims) (reason : String)
  | autoExpire
  | dispatch (dispatcher id : String) (intentTimeout : Option ℚ)
  | reconcile (dispatcher : String)
  | resolveResult (intentId dispatchId nodeId : String) (result : Fields)
  | persist (proposal : ActionProposal)
  | adminAction (dispatcher nodeId action : String) (params : Fields) (userId : String)
      (intentTimeout : Option ℚ) (reasoning : Option String) (riskLevel : String)
  | register (nodeId : String) (websocket : Socket) (remoteAddress : String)
  | unregister (nodeId : String)
  | intentResult (intentId : String) (result : Fields)
  | popConnection (nodeId : String)
  | cleanup

def Operation.program : Operation → Task Unit
  | .approve dispatcher id claims => do let _ ← approveProposal py dispatcher id claims
  | .reject id claims reason => do let _ ← rejectProposal id claims reason
  | .autoExpire => do let _ ← autoExpireProposals py
  | .dispatch dispatcher id timeout => do let _ ← dispatchApproved py dispatcher id timeout
  | .reconcile dispatcher => reconcileApproved py dispatcher
  | .resolveResult intentId dispatchId nodeId result =>
    resolveIntentResult intentId dispatchId nodeId result
  | .persist proposal => persistProposal proposal
  | .adminAction dispatcher nodeId action params userId timeout reasoning riskLevel => do
    let _ ← dispatchAdminAction py dispatcher nodeId action params userId timeout reasoning riskLevel
  | .register nodeId websocket remote => nm (.registerConnection nodeId websocket remote)
  | .unregister nodeId => nm (.unregisterConnection nodeId)
  | .intentResult intentId result => nm (.resolveIntent intentId result)
  | .popConnection nodeId => do let _ ← nm (.popConnection nodeId)
  | .cleanup => nm .cleanupStaleIntents

def start {τ : Type} (proposals : OrderedMap String ProposalRow) (nm : NodeManager)
    (operations : τ → Operation) : Config τ State Act Act.Reply PyError Unit :=
  ⟨⟨proposals,nm,[]⟩,fun task => (operations task).program py⟩

end Vigile.Proposals
