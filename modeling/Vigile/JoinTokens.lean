import Vigile.WorkerTokens
import Vigile.TokenProtocol

/-! Any handshakes at once: the UPDATE inside the transaction of an enrollment decides who
gets a join token, and nothing else of a handshake touches the tables of tokens or adds a
node. -/
namespace Vigile.Workers

open Interleaving Python NodeManager

variable {τ : Type} {sec : Security} {s s' : State}

def handshakes (sec : Security) (s : State) (arrivals : τ → Arrival) :
    Config τ State Act Act.Reply PyError (Option String) :=
  ⟨s,fun task => openSession sec (arrivals task)⟩

abbrev HandshakeStep (τ : Type) := Transition τ Outside State Act Act.Reply PyError

def lookup (tr : HandshakeStep τ) : Option String :=
  match tr.action with
  | .selectJoinToken tokenHash _ => some tokenHash
  | _ => none

def Presented (past : List (HandshakeStep τ)) (task : τ) (tokenHash : String) : Prop :=
  ∃ tr ∈ past, tr.task = task ∧ lookup tr = some tokenHash

def sendsSuccess (tr : HandshakeStep τ) : Bool :=
  match tr.action with
  | .sendText _ data => isSuccess data
  | _ => false

/-- An ENROLLMENT_SUCCESS for a join token. -/
def Success (tokenHash : String) (past : List (HandshakeStep τ)) (tr : HandshakeStep τ) : Prop :=
  sendsSuccess tr = true ∧ Presented past tr.task tokenHash

instance [DecidableEq τ] (tokenHash : String) (past : List (HandshakeStep τ)) (tr : HandshakeStep τ) :
    Decidable (Success tokenHash past tr) := by
  unfold Success Presented
  infer_instance

/-- The join token of an enrollment that has gone through. -/
def spends (tr : HandshakeStep τ) : Option String :=
  match tr.action with
  | .enroll e =>
    if tr.choice.fault.takesEffect && (enrollRows tr.before e).isOk then some e.tokenHash else none
  | _ => none

def commits (tr : HandshakeStep τ) : Bool :=
  match tr.action with
  | .enroll e => tr.choice.fault.takesEffect && (enrollRows tr.before e).isOk
  | .reissue nodeId fingerprint remote oldHash now issued => tr.choice.fault.takesEffect &&
    (reissueRows tr.before nodeId fingerprint remote oldHash now issued).isOk
  | _ => false

/-- No join token is consumed, no node is added and no worker token written. -/
def Untouched (tr : HandshakeStep τ) : Prop :=
  tr.after.joinTokens = tr.before.joinTokens ∧ tr.after.nodes.keys = tr.before.nodes.keys ∧
    tr.after.workerTokens = tr.before.workerTokens

/-- The join token is consumed, and its node has a row and the new worker token. -/
def Complete (tr : HandshakeStep τ) (e : Enrollment) : Prop :=
  (tr.after.joinTokens.get? e.tokenHash).map JoinToken.consumed = some true ∧
    e.payload.nodeId ∈ tr.after.nodes.keys ∧
    (tr.after.workerTokens.get? e.issued.tokenHash).map WorkerToken.nodeId = some e.payload.nodeId

theorem keys_updateNode (nodes : OrderedMap String NodeRow) (nodeId : String)
    (change : NodeRow → NodeRow) : (updateNode nodes nodeId change).keys = nodes.keys := by
  unfold updateNode OrderedMap.keys OrderedMap.modify
  rw [List.map_map]
  rfl

variable {ledger ledger' : Ledger} {tr : HandshakeStep τ} {tokenHash : String} {past : List (HandshakeStep τ)}

/-- What a handshake does to the tables. -/
theorem untouched_or_commits (taken : Taken (exec sec) tr) (allowed : ledgerRule false tr.action tr.reply ledger = some ledger') :
    commits tr = true ∨ Untouched tr := by
  obtain ⟨task,action,choice,before,reply,after⟩ := tr
  simp only [Taken] at taken
  have same : after = before → commits ⟨task,action,choice,before,reply,after⟩ = true ∨
      Untouched ⟨task,action,choice,before,reply,after⟩ := by
    rintro rfl
    exact .inr ⟨rfl,rfl,rfl⟩
  cases stepped_of_exec taken with
  | same missed unchanged => exact same unchanged
  | cancelled future waits after =>
    rw [after]
    exact .inr ⟨rfl,rfl,rfl⟩
  | effect struck after =>
    cases action with
    | enroll e =>
      have takes := struck rfl fun _ impossible => by cases impossible
      cases rows : enrollRows before e with
      | error error => exact same (by rw [after]; simp [effect,rows,transaction])
      | ok s' => exact .inl (by simp [commits,takes,rows,Except.isOk,Except.toBool])
    | reissue nodeId fingerprint remote oldHash now issued =>
      have takes := struck rfl fun _ impossible => by cases impossible
      cases rows : reissueRows before nodeId fingerprint remote oldHash now issued with
      | error error => exact same (by rw [after]; simp [effect,rows,transaction])
      | ok s' => exact .inl (by simp [commits,takes,rows,Except.isOk,Except.toBool])
    | rotate | deleteNode | consumeTokens | insertJoinToken => simp [ledgerRule] at allowed
    | updateState | updateFlag =>
      rw [after]
      exact .inr ⟨rfl,keys_updateNode _ _ _,rfl⟩
    | updateVersion =>
      rw [after]
      simp only [effect]
      split
      · exact .inr ⟨rfl,keys_updateNode _ _ _,rfl⟩
      · exact .inr ⟨rfl,rfl,rfl⟩
    | _ =>
      rw [after]
      exact .inr ⟨rfl,rfl,rfl⟩

variable {e : Enrollment} {act : Act}

/-- A transaction that goes through writes all three. -/
theorem complete_of_spends (taken : Taken (exec sec) tr)
    (enrolls : tr.action = .enroll e) (through : commits tr = true) :
    Complete tr e ∧ (∃ token, tr.before.joinTokens.get? e.tokenHash = some token ∧
      token.consumed = false) ∧ tr.after.joinTokens = consume tr.before.joinTokens e.tokenHash := by
  obtain ⟨task,action,choice,before,reply,after⟩ := tr
  dsimp only at enrolls
  subst enrolls
  simp only [Taken] at taken
  simp only [commits,Bool.and_eq_true] at through
  obtain ⟨takes,ok⟩ := through
  have struck : (choice.fault.strike before (effect sec before choice (.enroll e))).1 = after :=
    congrArg Prod.fst (Option.some.inj taken)
  rw [strike_fst,if_pos takes] at struck
  obtain ⟨s',rows⟩ := exists_ok ok
  simp only [effect,rows,transaction] at struck
  subst struck
  have enrolled := enrolled_of_ok rows
  obtain ⟨token,found,unconsumed⟩ := enrolled.unconsumed
  obtain ⟨_,known,stored⟩ := insertToken_ok enrolled.issues
  refine ⟨⟨?_,?_,?_⟩,⟨token,found,unconsumed⟩,enrolled.consumes⟩
  · simp [enrolled.consumes,consume,found]
  · obtain ⟨row,here⟩ := Option.isSome_iff_exists.mp known
    exact OrderedMap.mem_keys.mpr ⟨row,here⟩
  · dsimp only
    rw [stored,OrderedMap.get?_set_self]
    rfl

theorem presented_step {reply : Except PyError act.Reply}
    (allowed : ledgerRule false act reply ledger = some ledger') :
    (ledger'.presented = ledger.presented ∧ ∀ tokenHash nodeId, act ≠ .selectJoinToken tokenHash nodeId) ∨
      ∃ tokenHash nodeId, act = .selectJoinToken tokenHash nodeId ∧ ledger.presented = none ∧
        ledger'.presented = some tokenHash := by
  by_cases looks : ∃ tokenHash nodeId, act = .selectJoinToken tokenHash nodeId
  · obtain ⟨tokenHash,nodeId,rfl⟩ := looks
    obtain ⟨fresh,rfl⟩ := ledger_looked allowed
    exact .inr ⟨tokenHash,nodeId,rfl,fresh,rfl⟩
  · have other : ∀ tokenHash nodeId, act ≠ .selectJoinToken tokenHash nodeId :=
      fun tokenHash nodeId same => looks ⟨tokenHash,nodeId,same⟩
    exact .inl ⟨(ledger_kept allowed other).1,other⟩

/-- A session holds the commit of a join token from its enrollment to its success. -/
theorem committed_step {reply : Except PyError act.Reply}
    (allowed : ledgerRule false act reply ledger = some ledger') {commit : Commit}
    (held : ledger'.committed = some commit) (join : commit.joinHash = some tokenHash) :
    (ledger.committed = some commit ∧ (∀ websocket data, act = .sendText websocket data →
        isSuccess data = false)) ∨
      ∃ e, act = .enroll e ∧ reply.isOk = true ∧ e.tokenHash = tokenHash := by
  have commits : ∀ {issued made ok}, ledger.commits issued made ok = some ledger' →
      ok = true ∧ commit = made := by
    intro issued made ok stored
    unfold Ledger.commits at stored
    split at stored
    · cases stored
      cases ok with
      | true => exact ⟨rfl,(Option.some.inj held).symm⟩
      | false => contradiction
    · contradiction
  cases act with
  | selectJoinToken node hash =>
    simp only [ledgerRule] at allowed
    split at allowed
    · cases allowed
      exact .inl ⟨held,by simp⟩
    · contradiction
  | sendText websocket data =>
    simp only [ledgerRule,Ledger.sends] at allowed
    split at allowed
    · split at allowed
      · contradiction
      · split at allowed
        · cases allowed
          contradiction
        · contradiction
    · rename_i plain
      cases allowed
      refine .inl ⟨held,?_⟩
      rintro _ _ ⟨⟩
      by_contra success
      rw [Bool.not_eq_false] at success
      exact plain (by rw [success]; rfl)
  | enroll e =>
    simp only [ledgerRule] at allowed
    split at allowed
    · obtain ⟨ok,rfl⟩ := commits allowed
      exact .inr ⟨e,rfl,ok,Option.some.inj join⟩
    · contradiction
  | reissue =>
    obtain ⟨_,rfl⟩ := commits allowed
    contradiction
  | rotate | deleteNode | consumeTokens | insertJoinToken => simp [ledgerRule] at allowed
  | generateWorkerToken =>
    cases reply <;>
    · cases allowed
      exact .inl ⟨held,by simp⟩
  | _ =>
    rw [ledgerRule_tokenless rfl] at allowed
    cases allowed
    exact .inl ⟨held,by simp⟩

/-- A success announces a commit for the join token that was presented, and ends it. -/
theorem success_step {websocket : Socket} {data : Fields} {reply : Except PyError Unit} (success : isSuccess data = true)
    (allowed : ledgerRule false (.sendText websocket data) reply ledger = some ledger') :
    (∃ commit, ledger.committed = some commit ∧ commit.joinHash = ledger.presented) ∧
      ledger'.committed = none := by
  simp only [ledgerRule,Ledger.sends,success,Bool.true_or,if_true] at allowed
  split at allowed
  · contradiction
  · rename_i commit committed
    split at allowed
    · rename_i announced
      cases allowed
      exact ⟨⟨commit,committed,announced.2 trivial⟩,rfl⟩
    · contradiction

/-- The join tokens of the enrollments that have gone through. -/
def spent (past : List (HandshakeStep τ)) : List String := past.filterMap spends

theorem presented_concat {task : τ} (h : Presented (past ++ [tr]) task tokenHash) :
    Presented past task tokenHash ∨ (tr.task = task ∧ lookup tr = some tokenHash) := by
  obtain ⟨step,member,here⟩ := h
  rw [List.mem_append,List.mem_singleton] at member
  rcases member with member | rfl
  · exact .inl ⟨step,member,here⟩
  · exact .inr here

theorem spent_concat (past : List (HandshakeStep τ)) (tr : HandshakeStep τ) :
    spent (past ++ [tr]) = spent past ++ (spends tr).toList := by
  unfold spent
  rw [List.filterMap_append]
  congr 1

section
variable (taken : Taken (exec sec) tr) (allowed : ledgerRule false tr.action tr.reply ledger = some ledger')
include taken allowed

/-- A join token is taken once, by an enrollment that finds it unconsumed. -/
theorem joinTokens_step :
    (∃ e, tr.action = .enroll e ∧ spends tr = some e.tokenHash ∧
        (∃ token, tr.before.joinTokens.get? e.tokenHash = some token ∧ token.consumed = false) ∧
        tr.after.joinTokens = consume tr.before.joinTokens e.tokenHash) ∨
      spends tr = none ∧ tr.after.joinTokens = tr.before.joinTokens := by
  have untouched := untouched_or_commits taken allowed
  obtain ⟨task,action,choice,before,reply,after⟩ := tr
  cases action with
  | enroll e =>
    by_cases through : (choice.fault.takesEffect && (enrollRows before e).isOk) = true
    · obtain ⟨_,unconsumed,consumes⟩ := complete_of_spends taken rfl through
      exact .inl ⟨e,rfl,if_pos through,unconsumed,consumes⟩
    · rcases untouched with commits | same
      · exact absurd commits through
      · exact .inr ⟨if_neg through,same.1⟩
  | reissue nodeId fingerprint remote oldHash now issued =>
    rcases untouched with through | same
    · refine .inr ⟨rfl,?_⟩
      simp only [commits,Bool.and_eq_true] at through
      have struck : (choice.fault.strike before
          (effect sec before choice (.reissue nodeId fingerprint remote oldHash now issued))).1 = after :=
        congrArg Prod.fst (Option.some.inj taken)
      rw [strike_fst,if_pos through.1] at struck
      obtain ⟨s',rows⟩ := exists_ok through.2
      simp only [effect,rows,transaction] at struck
      subst struck
      exact (reissued_of_ok rows).joinTokens
    · exact .inr ⟨rfl,same.1⟩
  | _ =>
    rcases untouched with commits | same
    · contradiction
    · exact .inr ⟨rfl,same.1⟩

theorem consumed_step
    (consumed : (tr.before.joinTokens.get? tokenHash).map JoinToken.consumed = some true) :
    (tr.after.joinTokens.get? tokenHash).map JoinToken.consumed = some true := by
  rcases joinTokens_step taken allowed with ⟨e,_,_,_,consumes⟩ | ⟨_,same⟩
  · rw [consumes,consume,OrderedMap.get?_modify]
    obtain ⟨token,found,done⟩ := Option.map_eq_some_iff.mp consumed
    rw [found]
    by_cases same : tokenHash = e.tokenHash <;> simp [same,done]
  · rw [same]
    exact consumed

/-- A join token is spent by an enrollment, and stays consumed. -/
theorem consumed_kept
    (consumed : ∀ tokenHash ∈ spent past,
      (tr.before.joinTokens.get? tokenHash).map JoinToken.consumed = some true)
    (tokenHash : String) (h : tokenHash ∈ spent (past ++ [tr])) :
    (tr.after.joinTokens.get? tokenHash).map JoinToken.consumed = some true := by
  rw [spent_concat,List.mem_append,Option.mem_toList] at h
  rcases h with before | now
  · exact consumed_step taken allowed (consumed tokenHash before)
  · rcases joinTokens_step taken allowed with ⟨e,_,spends,⟨token,found,_⟩,consumes⟩ | ⟨spends,_⟩
    · obtain rfl : e.tokenHash = tokenHash := Option.some.inj (spends.symm.trans now)
      simp [consumes,consume,found]
    · rw [spends] at now
      contradiction

end

/-- An enrollment that has gone through finds its join token neither spent nor held. -/
theorem unspent_of_enrolled {s : State}
    (consumed : ∀ tokenHash ∈ spent past, (s.joinTokens.get? tokenHash).map JoinToken.consumed = some true) {token : JoinToken} (found : s.joinTokens.get? tokenHash = some token)
    (unconsumed : token.consumed = false) : tokenHash ∉ spent past := by
  intro before
  have impossible := consumed tokenHash before
  rw [found] at impossible
  simp [unconsumed] at impossible

/-- The transaction of an enrollment that answers went through. -/
theorem commits_of_ok (taken : Taken (exec sec) tr)
    (enrolls : tr.action = .enroll e) (ok : tr.reply.isOk = true) : commits tr = true := by
  obtain ⟨task,action,choice,before,reply,after⟩ := tr
  dsimp only at enrolls
  subst enrolls
  cases reply with
  | error error => contradiction
  | ok reply =>
    have calm : choice.fault = .none := (strike_ok (Option.some.inj taken)).1
    simp only [commits]
    rw [calm,enrollRows_of_ok taken]
    rfl

section
variable [DecidableEq τ]

structure SpendingInvariant (past : List (HandshakeStep τ)) (ledgers : τ → Ledger) (s : State) : Prop where
  presented : ∀ task tokenHash, Presented past task tokenHash →
    (ledgers task).presented = some tokenHash
  consumed : ∀ tokenHash ∈ spent past,
    (s.joinTokens.get? tokenHash).map JoinToken.consumed = some true
  /-- What is committed and not announced is somebody's alone. -/
  held : ∀ task commit tokenHash, (ledgers task).committed = some commit →
    commit.joinHash = some tokenHash → tokenHash ∈ spent past ∧
      occurrences (Success tokenHash) [] past = 0 ∧
      ∀ other commit', (ledgers other).committed = some commit' →
        commit'.joinHash = some tokenHash → other = task
  announced : ∀ tokenHash, tokenHash ∉ spent past → occurrences (Success tokenHash) [] past = 0
  once : ∀ tokenHash, occurrences (Success tokenHash) [] past ≤ 1

variable {past : List (HandshakeStep τ)} {tr : HandshakeStep τ}

variable {ledgers : τ → Ledger} {m : Ledger} {tokenHash : String}

theorem presented_kept (presented : ∀ task tokenHash, Presented past task tokenHash →
      (ledgers task).presented = some tokenHash)
    (allowed : ledgerRule false tr.action tr.reply (ledgers tr.task) = some m)
    (task : τ) (tokenHash : String) (h : Presented (past ++ [tr]) task tokenHash) :
    (Function.update ledgers tr.task m task).presented = some tokenHash := by
  by_cases mover : task = tr.task
  · subst mover
    rw [Function.update_self]
    rcases presented_step allowed with ⟨same,other⟩ | ⟨hash,node,looks,fresh,now⟩
    · rw [same]
      rcases presented_concat h with before | ⟨_,here⟩
      · exact presented _ _ before
      · unfold lookup at here
        split at here
        · rename_i looks
          exact absurd looks (other _ _)
        · contradiction
    · rcases presented_concat h with before | ⟨_,here⟩
      · rw [presented _ _ before] at fresh
        contradiction
      · rw [now]
        simpa [lookup,looks] using here
  · rw [Function.update_of_ne mover]
    rcases presented_concat h with before | ⟨here,_⟩
    · exact presented _ _ before
    · exact absurd here.symm mover

theorem occurrences_quiet
    (quiet : ¬Success tokenHash past tr) : occurrences (Success tokenHash) [] (past ++ [tr]) =
      occurrences (Success tokenHash) [] past := by
  rw [occurrences_concat,if_neg (by simpa using quiet)]
  rfl

/-- A session that comes to hold the commit of a join token has just spent it. -/
theorem held_step (inv : SpendingInvariant past ledgers tr.before) (taken : Taken (exec sec) tr)
    (allowed : ledgerRule false tr.action tr.reply (ledgers tr.task) = some m) {commit : Commit} (held : m.committed = some commit) (join : commit.joinHash = some tokenHash) :
    ((ledgers tr.task).committed = some commit ∧ sendsSuccess tr = false) ∨
      (spends tr = some tokenHash ∧ tokenHash ∉ spent past ∧ sendsSuccess tr = false) := by
  rcases committed_step allowed held join with ⟨before,plain⟩ | ⟨e,enrolls,ok,rfl⟩
  · refine .inl ⟨before,?_⟩
    unfold sendsSuccess
    split
    · rename_i websocket data sends
      exact plain websocket data sends
    · rfl
  · have through := commits_of_ok taken enrolls ok
    obtain ⟨_,⟨token,found,unconsumed⟩,_⟩ := complete_of_spends taken enrolls through
    refine .inr ⟨?_,unspent_of_enrolled inv.consumed found unconsumed,?_⟩
    · unfold commits at through
      unfold spends
      rw [enrolls] at through ⊢
      exact if_pos through
    · rw [sendsSuccess,enrolls]

theorem spending_step (past : List (HandshakeStep τ)) (ledgers : τ → Ledger) (tr : HandshakeStep τ)
    (m : Ledger) (inv : SpendingInvariant past ledgers tr.before) (taken : Taken (exec sec) tr)
    (allowed : ledgerRule false tr.action tr.reply (ledgers tr.task) = some m) (_ : True) :
    SpendingInvariant (past ++ [tr]) (Function.update ledgers tr.task m) tr.after := by
  have before_spent : ∀ tokenHash ∈ spent past, tokenHash ∈ spent (past ++ [tr]) := by
    intro tokenHash h
    rw [spent_concat]
    exact List.mem_append_left _ h
  have now_spent : ∀ {tokenHash}, spends tr = some tokenHash → tokenHash ∈ spent (past ++ [tr]) := by
    intro tokenHash h
    rw [spent_concat,h]
    simp
  -- a success is the first for its join token, which its sender alone held
  have first : ∀ tokenHash, Success tokenHash past tr →
      m.committed = none ∧ tokenHash ∈ spent past ∧ occurrences (Success tokenHash) [] past = 0 ∧
        ∀ other commit, (ledgers other).committed = some commit →
          commit.joinHash = some tokenHash → other = tr.task := by
    rintro tokenHash ⟨sends,presented⟩
    have known := inv.presented _ _ presented
    obtain ⟨task,action,choice,before,reply,after⟩ := tr
    unfold sendsSuccess at sends
    dsimp only at sends
    split at sends
    · obtain ⟨⟨commit,held,join⟩,ended⟩ := success_step sends allowed
      obtain ⟨alone,quiet,only⟩ := inv.held _ commit tokenHash held (join.trans known)
      exact ⟨ended,alone,quiet,only⟩
    · contradiction
  have quiet : ∀ {tokenHash}, ¬Success tokenHash past tr →
      occurrences (Success tokenHash) [] (past ++ [tr]) = occurrences (Success tokenHash) [] past :=
    fun quiet => occurrences_quiet quiet
  have plain : sendsSuccess tr = false → ∀ tokenHash, ¬Success tokenHash past tr := by
    rintro same tokenHash ⟨sends,_⟩
    rw [same] at sends
    contradiction
  refine ⟨presented_kept inv.presented allowed,consumed_kept taken allowed inv.consumed,?_,?_,?_⟩
  · intro task commit tokenHash held join
    by_cases mover : task = tr.task
    · subst mover
      rw [Function.update_self] at held
      rcases held_step inv taken allowed held join with ⟨before,same⟩ | ⟨now,fresh,same⟩
      · obtain ⟨known,none,only⟩ := inv.held _ _ _ before join
        refine ⟨before_spent _ known,(quiet (plain same _)).trans none,?_⟩
        intro other commit' held' join'
        by_contra differ
        rw [Function.update_of_ne differ] at held'
        exact differ (only other commit' held' join')
      · refine ⟨now_spent now,(quiet (plain same _)).trans (inv.announced _ fresh),?_⟩
        intro other commit' held' join'
        by_contra differ
        rw [Function.update_of_ne differ] at held'
        exact fresh (inv.held _ _ _ held' join').1
    · rw [Function.update_of_ne mover] at held
      obtain ⟨known,none,only⟩ := inv.held _ _ _ held join
      have silent : ¬Success tokenHash past tr := by
        intro success
        exact mover ((first _ success).2.2.2 task commit held join)
      refine ⟨before_spent _ known,(quiet silent).trans none,?_⟩
      intro other commit' held' join'
      by_cases other_mover : other = tr.task
      · subst other_mover
        rw [Function.update_self] at held'
        rcases held_step inv taken allowed held' join' with ⟨before,_⟩ | ⟨_,fresh,_⟩
        · exact only _ _ before join'
        · exact absurd known fresh
      · rw [Function.update_of_ne other_mover] at held'
        exact only other commit' held' join'
  · intro tokenHash unspent
    have fresh : tokenHash ∉ spent past := fun known => unspent (before_spent _ known)
    have silent : ¬Success tokenHash past tr := fun success => fresh (first _ success).2.1
    rw [quiet silent]
    exact inv.announced _ fresh
  · intro tokenHash
    by_cases success : Success tokenHash past tr
    · rw [occurrences_concat,(first _ success).2.2.1]
      split <;> omega
    · rw [quiet success]
      exact inv.once tokenHash

omit [DecidableEq τ] in
theorem handshakes_follow (sec : Security) (s : State) (arrivals : τ → Arrival) (task : τ) :
    ((handshakes sec s arrivals).tasks task).Follows (ledgerRule false) .start fun _ _ => True :=
  (openSession_follows (arrivals task) rfl).mono fun _ _ _ => trivial

/-- However handshakes interleave, every join token leads to at most one success, the
transaction of a handshake writes its three rows or none, and a handshake whose transaction
does not go through writes none of them. -/
theorem join_token_enrolls_once (sec : Security) (s : State) (arrivals : τ → Arrival)
    (schedule : List (τ × Outside)) :
    (∀ tokenHash,
      occurrences (Success tokenHash) [] (run (exec sec) schedule (handshakes sec s arrivals)).2 ≤ 1) ∧
    (∀ tr ∈ (run (exec sec) schedule (handshakes sec s arrivals)).2, ∀ e, tr.action = .enroll e →
      Complete tr e ∨ Untouched tr) ∧
    ∀ task, (∀ tr ∈ (run (exec sec) schedule (handshakes sec s arrivals)).2, tr.task = task →
        commits tr = false) →
      ∀ tr ∈ (run (exec sec) schedule (handshakes sec s arrivals)).2, tr.task = task → Untouched tr := by
  have start : SpendingInvariant [] (fun _ : τ => Ledger.start) s :=
    ⟨by simp [Presented],by simp [spent],by simp [Ledger.start],by simp [occurrences],by simp [occurrences]⟩
  have follows := handshakes_follow sec s arrivals
  have free : Throughout (fun _ _ => True) [] (run (exec sec) schedule (handshakes sec s arrivals)).2 :=
    throughout_iff_forall.mpr fun _ _ => trivial
  obtain ⟨ledgers,inv,_⟩ := run_keeps spending_step schedule _ [] _ start follows free
  have each : Throughout (fun _ tr => Taken (exec sec) tr ∧ (commits tr = true ∨ Untouched tr)) []
      (run (exec sec) schedule (handshakes sec s arrivals)).2 :=
    run_transitions spending_step (fun _ _ _ _ _ taken allowed _ =>
      ⟨taken,untouched_or_commits taken allowed⟩) schedule _ [] _ start follows free
  rw [throughout_iff_forall] at each
  refine ⟨inv.once,?_,?_⟩
  · intro tr member e enrolls
    obtain ⟨taken,through | same⟩ := each tr member
    · exact .inl (complete_of_spends taken enrolls through).1
    · exact .inr same
  · intro task never tr member own
    rcases (each tr member).2 with through | same
    · rw [never tr member own] at through
      contradiction
    · exact same

end

/-! A handshake whose last message fails keeps what its transaction wrote -/

def refuses : Outside := {calm with fault := .before (.runtimeError "Unexpected ASGI message")}

def unsentSuccess : List (Fin 1 × Outside) :=
  (joining 0 "j1" "t1" "u1").take 16 ++ [(0,refuses)] ++ List.replicate 3 (0,calm)


def Failed : Task (Option String) → Prop
  | .ret node => node = none
  | .raise _ => True
  | .act _ _ => False

instance : DecidablePred Failed := fun program => by
  cases program <;> unfold Failed <;> infer_instance

theorem failed_handshake_spent_token : ¬∀ (sec : Security) (s : State) (arrivals : Fin 1 → Arrival)
    (schedule : List (Fin 1 × Outside)) (task : Fin 1),
    Failed ((run (exec sec) schedule (handshakes sec s arrivals)).1.tasks task) →
    ∀ tr ∈ (run (exec sec) schedule (handshakes sec s arrivals)).2, tr.task = task → Untouched tr := by
  intro never
  have written : ∃ tr ∈ (run (exec plainSecurity) unsentSuccess (handshakes plainSecurity
      (boot .empty oneJoinToken .empty 30 300) fun _ => arrivalAt 0)).2, tr.task = 0 ∧
      (tr.before.joinTokens.get? "j1").map JoinToken.consumed = some false ∧
      (tr.after.joinTokens.get? "j1").map JoinToken.consumed = some true := by
    decide +kernel
  obtain ⟨tr,member,own,unconsumed,consumed⟩ := written
  have untouched := never plainSecurity (boot .empty oneJoinToken .empty 30 300) (fun _ => arrivalAt 0)
    unsentSuccess 0 (by decide +kernel) tr member own
  rw [untouched.1,unconsumed] at consumed
  contradiction

end Vigile.Workers
