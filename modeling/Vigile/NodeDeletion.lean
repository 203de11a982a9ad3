import Vigile.JoinTokens

/-! After `delete_node`: a node stays away when its deletion leaves no join token behind and
no session registers it once its connection was removed. -/
namespace Vigile.Workers

open Interleaving Python NodeManager

variable {τ : Type} {sec : Security} {s s' : State}

inductive Deletion where
  | asked
  | deleted
  | cleared
  deriving DecidableEq

def deletionRule (nodeId : String) : Prog.Protocol Act Act.Reply PyError Deletion := fun act reply phase =>
  match act,reply with
  | .selectNode other,reply =>
    if other = nodeId ∧ phase = .asked then
      match reply with
      | .ok none => some .cleared
      | _ => some .asked
    else none
  | .deleteNode other _,reply =>
    if other = nodeId ∧ phase = .asked then some (if reply.isOk then .deleted else .asked) else none
  | .nm (.popConnection other),reply =>
    if other = nodeId ∧ phase = .deleted then some (if reply.isOk then .cleared else .deleted) else none
  | _,_ => some phase

theorem deleteNode_follows (nodeId deletedBy : String) :
    (deleteNode nodeId deletedBy).Follows (deletionRule nodeId) .asked fun result phase =>
      ∀ row, result = .ok row → phase = .cleared := by
  have never : ∀ (phase : Deletion) (error : PyError) (row : Option NodeRow),
      (.error error : Except PyError (Option NodeRow)) = .ok row → phase = .cleared :=
    fun _ _ _ impossible => by contradiction
  have selects : (Prog.perform (Act.selectNode nodeId) : Task (Option NodeRow)).Follows
      (deletionRule nodeId) .asked fun reply phase =>
        ∀ found, reply = .ok found → phase = if found.isNone then .cleared else .asked := by
    apply Prog.Follows.perform
    intro reply
    rcases reply with error | _ | row
    · exact ⟨_,if_pos ⟨rfl,rfl⟩,fun _ impossible => by contradiction⟩
    all_goals exact ⟨_,if_pos ⟨rfl,rfl⟩,by rintro _ ⟨⟩; rfl⟩
  apply Prog.Follows.bind selects
  · intro found phase now
    obtain rfl := now found rfl
    cases found with
    | none => exact fun _ _ => rfl
    | some row =>
      have waits : ∀ phase, (clock : Task ℚ).Stays (deletionRule nodeId) phase :=
        fun phase => .perform fun _ => rfl
      apply Prog.Follows.bind (waits _)
      · rintro now _ rfl
        have deletes : (Prog.perform (Act.deleteNode nodeId ⟨deletedBy,"NODE_DELETED",some nodeId,
            [("previous_state",.str row.state.value),("previous_name",row.name),
              ("previous_hostname",row.hostname)]⟩) : Task Unit).Follows (deletionRule nodeId) .asked
            fun reply phase => ∀ done, reply = .ok done → phase = .deleted := by
          apply Prog.Follows.perform
          intro reply
          refine ⟨_,if_pos ⟨rfl,rfl⟩,?_⟩
          rintro _ rfl
          rfl
        apply Prog.Follows.bind deletes
        · intro done phase deleted
          obtain rfl := deleted done rfl
          have pops : (nm (.popConnection nodeId) : Task (Option ActiveConnection)).Follows
              (deletionRule nodeId) .deleted fun reply phase =>
                ∀ conn, reply = .ok conn → phase = .cleared := by
            apply Prog.Follows.perform
            intro reply
            refine ⟨_,if_pos ⟨rfl,rfl⟩,?_⟩
            rintro _ rfl
            rfl
          apply Prog.Follows.bind pops
          · intro conn phase popped
            obtain rfl := popped conn rfl
            have closes : ∀ websocket, (close websocket 4403 "Node deleted by operator").Stays
                (deletionRule nodeId) .cleared :=
              fun _ => stays_ignoringExceptions (.perform fun _ => rfl)
            have publishes : (do
                ignoringExceptions (Prog.perform (Act.publishDeleted nodeId row.state now))
                return some row : Task (Option NodeRow)).Follows (deletionRule nodeId) .cleared
                  fun result phase => ∀ row, result = .ok row → phase = .cleared := by
              have stays : (ignoringExceptions (Prog.perform (Act.publishDeleted nodeId row.state now))).Stays
                  (deletionRule nodeId) .cleared := stays_ignoringExceptions (.perform fun _ => rfl)
              apply Prog.Follows.bind stays
              · rintro _ _ rfl _ _
                rfl
              · exact fun error phase _ => never phase error
            cases conn with
            | none => exact publishes
            | some conn =>
              apply Prog.Follows.bind (closes conn.websocket)
              · rintro _ _ rfl
                exact publishes
              · exact fun error phase _ => never phase error
          · exact fun error phase _ => never phase error
        · exact fun error phase _ => never phase error
      · exact fun error phase _ => never phase error
  · exact fun error phase _ => never phase error

def Operation.isDeletion : Operation → Bool
  | .deleteNode _ _ => true
  | _ => false

/-- The node whose row a deletion removed, or found missing. -/
def deletedBy (operations : τ → Operation) (tr : Step τ) : Option String :=
  match tr.action,tr.reply with
  | .deleteNode nodeId _,_ => if tr.choice.fault.takesEffect then some nodeId else none
  | .selectNode nodeId,.ok none => if (operations tr.task).isDeletion then some nodeId else none
  | _,_ => none

/-- The node whose connection a deletion removed, or whose row it found missing. -/
def clearedBy (operations : τ → Operation) (tr : Step τ) : Option String :=
  match tr.action,tr.reply with
  | .nm (.popConnection nodeId),.ok _ => if (operations tr.task).isDeletion then some nodeId else none
  | .selectNode nodeId,.ok none => if (operations tr.task).isDeletion then some nodeId else none
  | _,_ => none

/-- A new join token for the node is stored. -/
def issues (nodeId : String) (tr : Step τ) : Bool :=
  match tr.action with
  | .insertJoinToken tokenHash other _ =>
    other = nodeId && tr.choice.fault.takesEffect && (tr.before.joinTokens.get? tokenHash).isNone
  | _ => false

def isDeletionOf [DecidableEq τ] (operations : τ → Operation) (task : τ) (nodeId : String)
    (tr : Step τ) : Bool :=
  tr.task = task && deletedBy operations tr = some nodeId

/-- A new join token for the node was issued after the task had deleted it. -/
def IssuedSince [DecidableEq τ] (operations : τ → Operation) (past : List (Step τ)) (task : τ)
    (nodeId : String) : Prop :=
  since (issues nodeId) (isDeletionOf operations task nodeId) past = true

/-- Some task has deleted the node, and no join token for it has been issued since. -/
def Gone (operations : τ → Operation) (past : List (Step τ)) (nodeId : String) : Prop :=
  since (fun tr => deletedBy operations tr = some nodeId) (issues nodeId) past = true

/-- A deletion has removed the connection, and no join token has been issued since. -/
def Cleared (operations : τ → Operation) (past : List (Step τ)) (nodeId : String) : Prop :=
  since (fun tr => clearedBy operations tr = some nodeId) (issues nodeId) past = true

def unconsumed (s : State) (nodeId : String) : List String :=
  s.joinTokens.entries.filterMap fun entry =>
    if entry.2.nodeId = nodeId ∧ entry.2.consumed = false then some entry.1 else none

def registersNode (tr : Step τ) : Option String :=
  match tr.action with
  | .nm (.registerConnection nodeId _ _) => if tr.choice.fault.takesEffect then some nodeId else none
  | _ => none

/-- A deletion leaves no join token of the node that could still be used, and none of its
sessions registers it after its connection was removed. -/
structure Thorough (operations : τ → Operation) (past : List (Step τ)) (tr : Step τ) : Prop where
  tokens : ∀ nodeId ∈ deletedBy operations tr, unconsumed tr.before nodeId = []
  connection : ∀ nodeId ∈ deletedBy operations tr, nodeId ∈ clearedBy operations tr →
    tr.before.isRegistered nodeId = false
  registers : ∀ nodeId ∈ registersNode tr, Cleared operations past nodeId →
    nodeId ∈ tr.before.nodes.keys

inductive Proceeds (operations : τ → Operation) (nodeId : String) (tr : Step τ) :
    Deletion → Deletion → Prop
  | stays (phase : Deletion) (quiet : phase ≠ .asked → deletedBy operations tr = none) :
      Proceeds operations nodeId tr phase phase
  | deletes (deleted : deletedBy operations tr = some nodeId) :
      Proceeds operations nodeId tr .asked .deleted
  | missing (deleted : deletedBy operations tr = some nodeId)
      (cleared : clearedBy operations tr = some nodeId) (same : tr.after = tr.before) :
      Proceeds operations nodeId tr .asked .cleared
  | pops (cleared : clearedBy operations tr = some nodeId)
      (unregistered : tr.after.isRegistered nodeId = false) :
      Proceeds operations nodeId tr .deleted .cleared

variable {nodeId : String} {operations : τ → Operation} {tr : Step τ}

theorem proceeds_of_rule (taken : Taken (exec sec) tr)
    (own : (operations tr.task).isDeletion = true) {phase phase' : Deletion}
    (allowed : deletionRule nodeId tr.action tr.reply phase = some phase') :
    Proceeds operations nodeId tr phase phase' := by
  obtain ⟨task,action,choice,before,reply,after⟩ := tr
  simp only [Taken] at taken
  cases action with
  | selectNode other =>
    simp only [deletionRule] at allowed
    split at allowed
    · rename_i here
      obtain ⟨rfl,rfl⟩ := here
      rcases reply with error | _ | row
      · obtain rfl := Option.some.inj allowed
        exact .stays _ fun impossible => absurd rfl impossible
      · obtain rfl := Option.some.inj allowed
        have effected := effect_of_ok taken fun _ => by simp
        exact .missing (if_pos own) (if_pos own) (Prod.mk.inj effected).1.symm
      · obtain rfl := Option.some.inj allowed
        exact .stays _ fun impossible => absurd rfl impossible
    · contradiction
  | deleteNode other entry =>
    simp only [deletionRule] at allowed
    split at allowed
    · rename_i here
      obtain ⟨rfl,rfl⟩ := here
      obtain rfl := Option.some.inj allowed
      cases reply with
      | error error => exact .stays _ fun impossible => absurd rfl impossible
      | ok done =>
        have calm : choice.fault = .none := (strike_ok (Option.some.inj taken)).1
        exact .deletes (if_pos (by rw [calm]; rfl))
    · contradiction
  | nm act =>
    cases act with
    | popConnection other =>
      simp only [deletionRule] at allowed
      split at allowed
      · rename_i here
        obtain ⟨rfl,rfl⟩ := here
        obtain rfl := Option.some.inj allowed
        cases reply with
        | error error => exact .stays _ fun _ => rfl
        | ok conn =>
          have effected := effect_of_ok_nm taken (by simp)
          have popped : (effect sec before choice (.nm (.popConnection other))).1.isRegistered other =
              registeredAfter before other (.nm (.popConnection other)) := registered_effect _ _ _ _
          rw [effected] at popped
          exact .pops (if_pos own) (by simpa [registeredAfter] using popped)
      · contradiction
    | _ =>
      obtain rfl := Option.some.inj allowed
      exact .stays _ fun _ => rfl
  | _ =>
    obtain rfl := Option.some.inj allowed
    exact .stays _ fun _ => rfl

/-- What a step does to the join tokens: it may consume some, or store a new one. -/
inductive JoinTokensAfter (tr : Step τ) : Prop
  | same (unchanged : tr.after.joinTokens = tr.before.joinTokens)
  | changed (change : String → JoinToken → JoinToken)
      (node : ∀ hash token, (change hash token).nodeId = token.nodeId)
      (consumed : ∀ hash token, token.consumed = true → (change hash token).consumed = true)
      (modified : tr.after.joinTokens = tr.before.joinTokens.modify change)
  | issued (nodeId hash : String) (expiresAt : ℚ) (issues : issues nodeId tr = true)
      (unused : tr.before.joinTokens.get? hash = none)
      (stored : tr.after.joinTokens = tr.before.joinTokens.set hash ⟨nodeId,false,expiresAt⟩)

theorem joinTokens_of_exec (taken : Taken (exec sec) tr) : JoinTokensAfter tr := by
  obtain ⟨task,action,choice,before,reply,after⟩ := tr
  simp only [Taken] at taken
  cases stepped_of_exec taken with
  | same missed unchanged => exact .same (by rw [unchanged])
  | cancelled future waits done => exact .same (by rw [done])
  | effect struck done =>
    cases action with
    | enroll e =>
      cases rows : enrollRows before e with
      | error error => exact .same (by rw [done]; simp [effect,rows,transaction])
      | ok s' =>
        have consumes : after.joinTokens = consume before.joinTokens e.tokenHash := by
          rw [done]
          simp only [effect,rows,transaction]
          exact (enrolled_of_ok rows).consumes
        refine .changed (fun hash token =>
          if hash = e.tokenHash then {token with consumed := true} else token) ?_ ?_ consumes
        · intro hash token
          split <;> rfl
        · intro hash token consumed
          split
          · rfl
          · exact consumed
    | reissue nodeId fingerprint remote oldHash now issued =>
      cases rows : reissueRows before nodeId fingerprint remote oldHash now issued with
      | error error => exact .same (by rw [done]; simp [effect,rows,transaction])
      | ok s' =>
        exact .same (by rw [done]; simp [effect,rows,transaction,(reissued_of_ok rows).joinTokens])
    | rotate nodeId oldHash now issued =>
      cases rows : rotateRows before nodeId oldHash now issued with
      | error error => exact .same (by rw [done]; simp [effect,rows,transaction])
      | ok s' =>
        exact .same (by rw [done]; simp [effect,rows,transaction,(rotated_of_ok rows).joinTokens])
    | consumeTokens hashes now =>
      have consumes : after.joinTokens = before.joinTokens.modify fun hash token =>
          if hash ∈ hashes then {token with consumed := true,expiresAt := now} else token := by
        rw [done]
        rfl
      refine .changed (fun hash token =>
        if hash ∈ hashes then {token with consumed := true,expiresAt := now} else token) ?_ ?_ consumes
      · intro hash token
        split <;> rfl
      · intro hash token consumed
        split
        · rfl
        · exact consumed
    | insertJoinToken hash nodeId expiresAt =>
      have takes := struck rfl fun _ impossible => by cases impossible
      cases unused : before.joinTokens.get? hash with
      | some token => exact .same (by rw [done]; simp [effect,unused])
      | none =>
        refine .issued nodeId hash expiresAt ?_ unused (by rw [done]; simp [effect,unused])
        simp [issues,takes,unused]
    | updateVersion nodeId version now =>
      refine .same ?_
      rw [done]
      simp only [effect]
      split <;> rfl
    | _ =>
      have unchanged : after.joinTokens = before.joinTokens := by
        rw [done]
        rfl
      exact .same unchanged

/-- A row of a join token stays, and it stays consumed. -/
theorem joinToken_kept (taken : Taken (exec sec) tr) {hash : String} {token : JoinToken}
    (found : tr.before.joinTokens.get? hash = some token) :
    ∃ token', tr.after.joinTokens.get? hash = some token' ∧ token'.nodeId = token.nodeId ∧
      (token.consumed = true → token'.consumed = true) := by
  cases joinTokens_of_exec taken with
  | same unchanged => exact ⟨token,by rw [unchanged]; exact found,rfl,id⟩
  | changed change node consumed modified =>
    refine ⟨change hash token,?_,node hash token,consumed hash token⟩
    rw [modified,OrderedMap.get?_modify,found]
    rfl
  | issued nodeId fresh expiresAt issues unused stored =>
    have differ : hash ≠ fresh := by
      rintro rfl
      rw [unused] at found
      contradiction
    exact ⟨token,by rw [stored,OrderedMap.get?_set_of_ne differ]; exact found,rfl,id⟩

/-- The node of every join token has used up all of them until it is issued a new one. -/
def UsedUp (s : State) (nodeId : String) : Prop :=
  ∀ hash token, s.joinTokens.get? hash = some token → token.nodeId = nodeId → token.consumed = true

theorem usedUp_iff (s : State) (nodeId : String) : UsedUp s nodeId ↔ unconsumed s nodeId = [] := by
  simp only [UsedUp,unconsumed,List.filterMap_eq_nil_iff,Prod.forall,← OrderedMap.mem_entries]
  constructor
  · intro used hash token member
    rw [if_neg]
    rintro ⟨node,unconsumed⟩
    rw [used hash token member node] at unconsumed
    contradiction
  · intro none hash token member node
    have missed := none hash token member
    by_contra unconsumed
    rw [if_pos ⟨node,by simpa using unconsumed⟩] at missed
    contradiction

theorem usedUp_kept (taken : Taken (exec sec) tr)
    (used : UsedUp tr.before nodeId) (unissued : issues nodeId tr = false) : UsedUp tr.after nodeId := by
  intro hash token found node
  cases joinTokens_of_exec taken with
  | same unchanged =>
    rw [unchanged] at found
    exact used hash token found node
  | changed change keeps consumed modified =>
    rw [modified,OrderedMap.get?_modify] at found
    obtain ⟨old,here,rfl⟩ := Option.map_eq_some_iff.mp found
    exact consumed hash old (used hash old here (by rw [← node,keeps]))
  | issued other fresh expiresAt issues unused stored =>
    rw [stored] at found
    by_cases same : hash = fresh
    · subst same
      rw [OrderedMap.get?_set_self] at found
      obtain rfl := Option.some.inj found
      obtain rfl : other = nodeId := node
      rw [issues] at unissued
      contradiction
    · rw [OrderedMap.get?_set_of_ne same] at found
      exact used hash token found node

/-- A missing row comes back only with an enrollment. -/
theorem standing_missing (taken : Taken (exec sec) tr)
    (missing : tr.before.standing nodeId = none)
    (unenrolled : ∀ e, tr.action = .enroll e → e.payload.nodeId = nodeId →
      (enrollRows tr.before e).isOk = false) : tr.after.standing nodeId = none := by
  obtain ⟨task,action,choice,before,reply,after⟩ := tr
  simp only [Taken] at taken
  rcases standing_of_exec taken nodeId with same | new
  · exact same.trans missing
  · rw [new]
    cases action with
    | enroll e =>
      simp only [standingAfter]
      split
      · rename_i enrolled
        rw [unenrolled e rfl enrolled.2.1.symm] at enrolled
        simp at enrolled
      · exact missing
    | deleteNode other entry =>
      simp only [standingAfter]
      split
      · rfl
      · exact missing
    | updateState | updateFlag =>
      simp only [standingAfter]
      dsimp only at missing
      rw [missing]
      rfl
    | _ => exact missing

/-- A deletion takes effect on the row, or finds it missing. -/
theorem missing_of_deleted (taken : Taken (exec sec) tr) (deleted : deletedBy operations tr = some nodeId) :
    tr.after.standing nodeId = none := by
  obtain ⟨task,action,choice,before,reply,after⟩ := tr
  simp only [Taken] at taken
  cases action with
  | deleteNode other entry =>
    simp only [deletedBy] at deleted
    split at deleted
    · rename_i takes
      obtain rfl := Option.some.inj deleted
      have struck : (choice.fault.strike before (effect sec before choice (.deleteNode other entry))).1 =
          after := congrArg Prod.fst (Option.some.inj taken)
      rw [strike_fst,if_pos takes] at struck
      rw [← struck,standing_effect]
      exact if_pos rfl
    · contradiction
  | selectNode other =>
    rcases reply with error | _ | row
    · contradiction
    · simp only [deletedBy] at deleted
      split at deleted
      · obtain rfl := Option.some.inj deleted
        have effected := effect_of_ok taken fun _ => by simp
        obtain ⟨rfl,missing⟩ := Prod.mk.inj effected
        unfold State.standing
        rw [Except.ok.inj missing]
        rfl
      · contradiction
    · contradiction
  | _ => contradiction

/-- A deletion touches no join token. -/
theorem unissued_of_deleted {other : String}
    (deleted : deletedBy operations tr = some nodeId) : issues other tr = false := by
  obtain ⟨task,action,choice,before,reply,after⟩ := tr
  cases action with
  | insertJoinToken => contradiction
  | _ => rfl

/-- The step registers the node, or leaves it unregistered. -/
theorem unregistered_kept (taken : Taken (exec sec) tr)
    (absent : tr.before.isRegistered nodeId = false) (other : registersNode tr ≠ some nodeId) :
    tr.after.isRegistered nodeId = false := by
  obtain ⟨task,action,choice,before,reply,after⟩ := tr
  simp only [Taken] at taken
  have same : after.isRegistered nodeId = before.isRegistered nodeId →
      after.isRegistered nodeId = false := fun same => same.trans absent
  cases stepped_of_exec taken with
  | same missed unchanged => exact same (by rw [unchanged])
  | cancelled future waits done => exact same (by rw [done]; rfl)
  | effect struck done =>
    cases action with
    | nm act =>
      cases act with
      | registerConnection node websocket remote =>
        have takes := struck rfl fun act same => by
          cases same
          rfl
        have differ : nodeId ≠ node := by
          rintro rfl
          exact other (if_pos takes)
        dsimp only
        rw [done,registered_effect]
        simpa [registeredAfter,differ] using absent
      | unregisterConnection node | popConnection node =>
        dsimp only
        rw [done,registered_effect]
        simp only [registeredAfter]
        dsimp only at absent
        rw [absent,Bool.and_false]
      | _ =>
        dsimp only
        rw [done,registered_effect]
        exact absent
    | _ =>
      have kept := nm_of_exec taken fun _ => by simp
      exact same (by unfold State.isRegistered; rw [kept])

def Operation.deletionRule : Operation → Prog.Protocol Act Act.Reply PyError Deletion
  | .deleteNode nodeId _ => Workers.deletionRule nodeId
  | _ => fun _ _ phase => some phase

theorem operation_deletes (operation : Operation) :
    (operation.program sec).Follows operation.deletionRule .asked fun result phase =>
      ∀ nodeId byUser, operation = .deleteNode nodeId byUser → result = .ok () → phase = .cleared := by
  have free : ∀ {program : Task Unit}, program.Follows
      (fun _ _ phase => some phase : Prog.Protocol Act Act.Reply PyError Deletion) .asked fun _ _ => True := by
    intro program
    induction program with
    | ret value | raise error => trivial
    | act action next ih => exact fun reply => ⟨_,rfl,ih reply⟩
  cases operation with
  | deleteNode nodeId byUser =>
    apply Prog.Follows.bind (deleteNode_follows nodeId byUser)
    · intro row phase cleared _ _ _ _
      exact cleared row rfl
    · intro _ _ _ _ _ _ impossible
      contradiction
  | _ => exact free.mono fun _ _ _ _ _ impossible => by contradiction

section
variable [DecidableEq τ] {operations : τ → Operation}

structure DeletionInvariant (operations : τ → Operation) (past : List (Step τ))
    (modes : τ → Ledger × Deletion) (s : State) : Prop where
  vouched : ∀ task hash nodeId, (modes task).1.presented = some hash →
    (modes task).1.vouched = some nodeId →
    ∃ token, s.joinTokens.get? hash = some token ∧ token.nodeId = nodeId
  gone : ∀ nodeId, Gone operations past nodeId → s.standing nodeId = none ∧ UsedUp s nodeId
  happened : ∀ task nodeId byUser, operations task = .deleteNode nodeId byUser →
    (modes task).2 ≠ .asked → ∃ tr ∈ past, isDeletionOf operations task nodeId tr = true
  cleared : ∀ task nodeId byUser, operations task = .deleteNode nodeId byUser →
    (modes task).2 = .cleared →
    since (isDeletionOf operations task nodeId) (issues nodeId) past = true →
    Cleared operations past nodeId ∧ s.isRegistered nodeId = false

variable {m : Ledger × Deletion} {modes : τ → Ledger × Deletion} {past : List (Step τ)} {tr : Step τ}

section
variable (inv : DeletionInvariant operations past modes tr.before)
include inv

theorem vouched_kept
    (taken : Taken (exec sec) tr)
    (allowed : ledgerRule true tr.action tr.reply (modes tr.task).1 = some m.1)
    (task : τ) (hash nodeId : String)
    (presented : (Function.update modes tr.task m task).1.presented = some hash)
    (vouched : (Function.update modes tr.task m task).1.vouched = some nodeId) :
    ∃ token, tr.after.joinTokens.get? hash = some token ∧ token.nodeId = nodeId := by
  have kept : (∃ token, tr.before.joinTokens.get? hash = some token ∧ token.nodeId = nodeId) →
      ∃ token, tr.after.joinTokens.get? hash = some token ∧ token.nodeId = nodeId := by
    rintro ⟨token,found,node⟩
    obtain ⟨token',here,same,_⟩ := joinToken_kept taken found
    exact ⟨token',here,same.trans node⟩
  apply kept
  by_cases mover : task = tr.task
  · subst mover
    rw [Function.update_self] at presented vouched
    by_cases looks : ∃ tokenHash node, tr.action = .selectJoinToken tokenHash node
    · obtain ⟨task,action,choice,before,reply,after⟩ := tr
      obtain ⟨tokenHash,node,rfl⟩ := looks
      obtain ⟨_,now⟩ := ledger_looked allowed
      rw [now] at presented vouched
      obtain rfl := Option.some.inj presented
      rcases reply with error | _ | token
      · contradiction
      · contradiction
      · obtain rfl := Option.some.inj vouched
        have effected := effect_of_ok taken fun _ => by simp
        have found := Except.ok.inj (Prod.mk.inj effected).2
        rw [Option.filter_eq_some_iff] at found
        exact ⟨token,found.1,by simpa using found.2⟩
    · obtain ⟨same,node⟩ := ledger_kept allowed fun tokenHash node here => looks ⟨tokenHash,node,here⟩
      exact inv.vouched _ _ _ (same ▸ presented) (node ▸ vouched)
  · rw [Function.update_of_ne mover] at presented vouched
    exact inv.vouched _ _ _ presented vouched

theorem enrollment_needs_token
    (allowed : ledgerRule true tr.action tr.reply (modes tr.task).1 = some m.1)
    {e : Enrollment} (enrolls : tr.action = .enroll e) (used : UsedUp tr.before e.payload.nodeId) :
    (enrollRows tr.before e).isOk = false := by
  obtain ⟨task,action,choice,before,reply,after⟩ := tr
  dsimp only at enrolls
  subst enrolls
  simp only [ledgerRule] at allowed
  split at allowed
  · rename_i presents
    cases rows : enrollRows before e with
    | error error => rfl
    | ok s' =>
      obtain ⟨token,found,unconsumed⟩ := (enrolled_of_ok rows).unconsumed
      obtain ⟨token',here,node⟩ := inv.vouched task _ _ presents.1 presents.2
      obtain rfl := Option.some.inj (found.symm.trans here)
      rw [used _ token found node] at unconsumed
      contradiction
  · contradiction

theorem gone_kept
    (taken : Taken (exec sec) tr)
    (allowed : ledgerRule true tr.action tr.reply (modes tr.task).1 = some m.1)
    (thorough : Thorough operations past tr) (nodeId : String)
    (gone : Gone operations (past ++ [tr]) nodeId) :
    tr.after.standing nodeId = none ∧ UsedUp tr.after nodeId := by
  unfold Gone at gone
  rw [since_concat,Bool.and_eq_true,Bool.or_eq_true,decide_eq_true_eq,Bool.not_eq_true'] at gone
  obtain ⟨unissued,before | now⟩ := gone
  · obtain ⟨missing,used⟩ := inv.gone nodeId before
    refine ⟨standing_missing taken missing ?_,usedUp_kept taken used unissued⟩
    rintro e enrolls rfl
    exact enrollment_needs_token inv allowed enrolls used
  · exact ⟨missing_of_deleted taken now,
      usedUp_kept taken ((usedUp_iff _ _).mpr (thorough.tokens nodeId now)) unissued⟩

theorem happened_kept
    (taken : Taken (exec sec) tr)
    (allowed : (operations tr.task).deletionRule tr.action tr.reply (modes tr.task).2 = some m.2)
    (task : τ) (nodeId byUser : String) (asks : operations task = .deleteNode nodeId byUser)
    (ahead : (Function.update modes tr.task m task).2 ≠ .asked) :
    ∃ step ∈ past ++ [tr], isDeletionOf operations task nodeId step = true := by
  have before : (modes task).2 ≠ .asked →
      ∃ step ∈ past ++ [tr], isDeletionOf operations task nodeId step = true := by
    intro ahead
    obtain ⟨step,member,deletes⟩ := inv.happened task nodeId byUser asks ahead
    exact ⟨step,List.mem_append_left _ member,deletes⟩
  by_cases mover : task = tr.task
  · subst mover
    rw [Function.update_self] at ahead
    have own : (operations tr.task).isDeletion = true := by
      rw [asks]
      rfl
    rw [asks] at allowed
    have now : deletedBy operations tr = some nodeId →
        ∃ step ∈ past ++ [tr], isDeletionOf operations tr.task nodeId step = true := by
      intro deleted
      exact ⟨tr,by simp,by simp [isDeletionOf,deleted]⟩
    generalize phase : (modes tr.task).2 = old at allowed before
    generalize m.2 = next at allowed ahead
    cases proceeds_of_rule taken own allowed with
    | stays => exact before ahead
    | deletes deleted | missing deleted => exact now deleted
    | pops => exact before (by simp)
  · rw [Function.update_of_ne mover] at ahead
    exact before ahead

theorem cleared_kept
    (taken : Taken (exec sec) tr)
    (allowed : (operations tr.task).deletionRule tr.action tr.reply (modes tr.task).2 = some m.2)
    (thorough : Thorough operations past tr)
    (task : τ) (nodeId byUser : String) (asks : operations task = .deleteNode nodeId byUser)
    (ended : (Function.update modes tr.task m task).2 = .cleared)
    (deleted : since (isDeletionOf operations task nodeId) (issues nodeId) (past ++ [tr]) = true) :
    Cleared operations (past ++ [tr]) nodeId ∧ tr.after.isRegistered nodeId = false := by
  rw [since_concat,Bool.and_eq_true,Bool.or_eq_true,Bool.not_eq_true'] at deleted
  obtain ⟨unissued,deleted⟩ := deleted
  unfold Cleared
  rw [since_concat,unissued,Bool.not_false,Bool.true_and,Bool.or_eq_true,decide_eq_true_eq]
  -- a task that has cleared its node before leaves it so
  have before : (modes task).2 = .cleared →
      since (isDeletionOf operations task nodeId) (issues nodeId) past = true →
      (Cleared operations past nodeId ∨ clearedBy operations tr = some nodeId) ∧
        tr.after.isRegistered nodeId = false := by
    intro ended deleted
    obtain ⟨cleared,absent⟩ := inv.cleared task nodeId byUser asks ended deleted
    refine ⟨.inl cleared,unregistered_kept taken absent ?_⟩
    intro registers
    obtain ⟨row,found⟩ := OrderedMap.mem_keys.mp (thorough.registers nodeId registers cleared)
    have gone : Gone operations past nodeId := by
      apply since_mono _ deleted
      intro step here
      simp only [isDeletionOf,Bool.and_eq_true] at here
      exact here.2
    have missing := (inv.gone nodeId gone).1
    unfold State.standing at missing
    rw [found] at missing
    contradiction
  by_cases mover : task = tr.task
  · subst mover
    rw [Function.update_self] at ended
    have own : (operations tr.task).isDeletion = true := by
      rw [asks]
      rfl
    rw [asks] at allowed
    generalize phase : (modes tr.task).2 = old at allowed before
    generalize m.2 = next at allowed ended
    cases proceeds_of_rule taken own allowed with
    | stays phase quiet =>
      apply before ended
      rcases deleted with deleted | now
      · exact deleted
      · rw [isDeletionOf,quiet (by rw [ended]; simp)] at now
        simp at now
    | deletes => contradiction
    | missing deleted cleared same =>
      refine ⟨.inr cleared,?_⟩
      rw [same]
      exact thorough.connection nodeId deleted cleared
    | pops cleared unregistered => exact ⟨.inr cleared,unregistered⟩
  · rw [Function.update_of_ne mover] at ended
    apply before ended
    rcases deleted with deleted | now
    · exact deleted
    · simp [isDeletionOf,Ne.symm mover] at now

end

theorem deletion_step (past : List (Step τ)) (modes : τ → Ledger × Deletion) (tr : Step τ)
    (m : Ledger × Deletion) (inv : DeletionInvariant operations past modes tr.before)
    (taken : Taken (exec sec) tr)
    (allowed : Prog.both (ledgerRule true) (operations tr.task).deletionRule tr.action tr.reply
      (modes tr.task) = some m) (thorough : Thorough operations past tr) :
    DeletionInvariant operations (past ++ [tr]) (Function.update modes tr.task m) tr.after := by
  obtain ⟨tokens,deletes⟩ := Prog.both_eq_some.mp allowed
  exact ⟨vouched_kept inv taken tokens,gone_kept inv taken tokens thorough,
    happened_kept inv taken deletes,cleared_kept inv taken deletes thorough⟩

/-- In every run whose deletions are thorough, there is neither a row nor a connection of a
node once a deletion of it has returned, unless a join token was issued for it since. -/
theorem deleted_node_stays_away (sec : Security) (s : State) (operations : τ → Operation)
    (schedule : List (τ × Outside))
    (thorough : Throughout (Thorough operations) [] (run (exec sec) schedule (start sec s operations)).2)
    (task : τ) (nodeId byUser : String) (asks : operations task = .deleteNode nodeId byUser)
    (returned : ((run (exec sec) schedule (start sec s operations)).1.tasks task).returned = true)
    (unissued : ¬IssuedSince operations (run (exec sec) schedule (start sec s operations)).2 task nodeId) :
    (run (exec sec) schedule (start sec s operations)).1.shared.nodes.get? nodeId = none ∧
      (run (exec sec) schedule (start sec s operations)).1.shared.isRegistered nodeId = false := by
  have begins : DeletionInvariant operations [] (fun _ => (Ledger.start,.asked)) s :=
    ⟨fun _ _ _ impossible => by contradiction,fun _ impossible => by contradiction,
      fun _ _ _ _ impossible => absurd rfl impossible,fun _ _ _ _ impossible => by contradiction⟩
  obtain ⟨modes,inv,clients⟩ := run_keeps deletion_step schedule (start sec s operations) [] _ begins
    (fun t => (operation_lawful (operations t)).both (operation_deletes (operations t))) thorough
  have cleared : (modes task).2 = .cleared := by
    have ended := clients task
    cases rest : (run (exec sec) schedule (start sec s operations)).1.tasks task with
    | ret value =>
      rw [rest] at ended
      exact ended.2 nodeId byUser asks rfl
    | raise error | act action next =>
      rw [rest] at returned
      contradiction
  have deleted : since (isDeletionOf operations task nodeId) (issues nodeId)
      (run (exec sec) schedule (start sec s operations)).2 = true := by
    apply since_of_mem
    · intro tr deletes
      simp only [isDeletionOf,Bool.and_eq_true,decide_eq_true_eq] at deletes
      exact unissued_of_deleted deletes.2
    · exact inv.happened task nodeId byUser asks (by rw [cleared]; simp)
    · simpa [IssuedSince] using unissued
  have gone : Gone operations (run (exec sec) schedule (start sec s operations)).2 nodeId := by
    apply since_mono _ deleted
    intro step here
    simp only [isDeletionOf,Bool.and_eq_true] at here
    exact here.2
  refine ⟨?_,(inv.cleared task nodeId byUser asks cleared deleted).2⟩
  have missing := (inv.gone nodeId gone).1
  unfold State.standing at missing
  exact Option.map_eq_none_iff.mp missing

end

/-! A node that enrolls again with a join token left over from before its deletion -/

inductive Party where
  | worker
  | administrator
  | returning
  deriving DecidableEq

def leftOver : Party → Operation
  | .worker => .session (arrivalAt 0) 1
  | .administrator => .deleteNode "n1" "admin"
  | .returning => .session (arrivalAt 1) 1

def enrolledAndDeleted : List (Party × Outside) :=
  joining .worker "j1" "t1" "u1" ++ List.replicate 6 (.administrator,calm)

instance (operations : τ → Operation) (past : List (Step τ)) (nodeId : String) :
    Decidable (Cleared operations past nodeId) := by
  unfold Cleared
  infer_instance

instance (operations : τ → Operation) (past : List (Step τ)) (tr : Step τ) :
    Decidable (Thorough operations past tr) :=
  decidable_of_iff ((∀ nodeId ∈ deletedBy operations tr, unconsumed tr.before nodeId = []) ∧
      (∀ nodeId ∈ deletedBy operations tr, nodeId ∈ clearedBy operations tr →
        tr.before.isRegistered nodeId = false) ∧
      ∀ nodeId ∈ registersNode tr, Cleared operations past nodeId → nodeId ∈ tr.before.nodes.keys)
    ⟨fun h => ⟨h.1,h.2.1,h.2.2⟩,fun h => ⟨h.tokens,h.connection,h.registers⟩⟩

instance [DecidableEq τ] (operations : τ → Operation) (past : List (Step τ)) (task : τ) (nodeId : String) :
    Decidable (IssuedSince operations past task nodeId) := by
  unfold IssuedSince
  infer_instance

theorem used_up_node_stays_away :
    (run (exec plainSecurity) enrolledAndDeleted (start plainSecurity
      (boot .empty oneJoinToken .empty 30 300) leftOver)).1.shared.nodes.get? "n1" = none ∧
    (run (exec plainSecurity) enrolledAndDeleted (start plainSecurity
      (boot .empty oneJoinToken .empty 30 300) leftOver)).1.shared.isRegistered "n1" = false :=
  deleted_node_stays_away plainSecurity (boot .empty oneJoinToken .empty 30 300) leftOver
    enrolledAndDeleted (by decide +kernel) .administrator "n1" "admin" rfl (by decide +kernel) (by decide +kernel)

theorem deleted_node_enrolls_again : ¬∀ (sec : Security) (s : State) (operations : Party → Operation)
    (schedule : List (Party × Outside)) (task : Party) (nodeId byUser : String),
    operations task = .deleteNode nodeId byUser →
    ((run (exec sec) schedule (start sec s operations)).1.tasks task).returned = true →
    ¬IssuedSince operations (run (exec sec) schedule (start sec s operations)).2 task nodeId →
    (run (exec sec) schedule (start sec s operations)).1.shared.nodes.get? nodeId = none ∧
      (run (exec sec) schedule (start sec s operations)).1.shared.isRegistered nodeId = false := by
  intro away
  have registered := (away plainSecurity (boot .empty twoJoinTokens .empty 30 300) leftOver
    (enrolledAndDeleted ++ joining .returning "j2" "t2" "u2") .administrator "n1" "admin" rfl (by decide +kernel) (by decide +kernel)).2
  revert registered
  decide +kernel

end Vigile.Workers
