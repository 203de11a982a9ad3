import Vigile.WorkerHandshake

/-! The worker tokens of a node: a new one supersedes the older ones in exactly the runs in
which every step that issues one revokes all the node still has. -/
namespace Vigile.Workers

open Interleaving Python NodeManager

variable {τ : Type} {sec : Security} {s s' : State}

def LiveIn (tokens : OrderedMap String WorkerToken) (nodeId tokenHash : String) : Prop :=
  ∃ row, tokens.get? tokenHash = some row ∧ row.nodeId = nodeId ∧ row.revoked = false

abbrev Live (s : State) (nodeId tokenHash : String) : Prop := LiveIn s.workerTokens nodeId tokenHash

/-- The node and the hash of a token whose transaction went through. -/
def issuedBy (tr : Step τ) : Option (String × String) :=
  match tr.action with
  | .enroll e =>
    if tr.choice.fault.takesEffect && (enrollRows tr.before e).isOk then
      some (e.payload.nodeId,e.issued.tokenHash)
    else none
  | .reissue nodeId fingerprint remote oldHash now issued =>
    if tr.choice.fault.takesEffect &&
        (reissueRows tr.before nodeId fingerprint remote oldHash now issued).isOk then
      some (nodeId,issued.tokenHash)
    else none
  | .rotate nodeId oldHash now issued =>
    if tr.choice.fault.takesEffect && (rotateRows tr.before nodeId oldHash now issued).isOk then
      some (nodeId,issued.tokenHash)
    else none
  | _ => none

/-- The token a transaction revokes: the one presented, the newest one, or none. -/
def replacedBy : Act → Option String
  | .reissue _ _ _ oldHash _ _ => some oldHash
  | .rotate _ oldHash _ _ => some oldHash
  | _ => none

def issuedFor (past : List (Step τ)) (nodeId : String) : List String :=
  past.filterMap fun tr =>
    (issuedBy tr).bind fun entry => if entry.1 = nodeId then some entry.2 else none

/-- Once a token was issued for a node, no older token of the node is accepted. -/
def Superseded (past : List (Step τ)) (tr : Step τ) : Prop :=
  ∀ nodeId newest, (issuedFor (past ++ [tr]) nodeId).getLast? = some newest →
    ∀ tokenHash, Live tr.after nodeId tokenHash → tokenHash = newest

/-- A step that issues a token for a node revokes every token the node still has. -/
def RevokesRest (_ : List (Step τ)) (tr : Step τ) : Prop :=
  ∀ nodeId tokenHash, issuedBy tr = some (nodeId,tokenHash) →
    ∀ other, Live tr.before nodeId other → replacedBy tr.action = some other

/-! What a step does to the tokens -/

variable {nodeId tokenHash : String} {tr : Step τ}

theorem live_revokeToken {tokens : OrderedMap String WorkerToken} {old : String} {now : ℚ} : LiveIn (revokeToken tokens old now) nodeId tokenHash ↔
      LiveIn tokens nodeId tokenHash ∧ tokenHash ≠ old := by
  simp only [LiveIn,revokeToken,OrderedMap.get?_modify,Option.map_eq_some_iff]
  constructor
  · rintro ⟨_,⟨row,found,rfl⟩,node,revoked⟩
    by_cases same : tokenHash = old
    · simp [same] at revoked
    · rw [if_neg same] at node revoked
      exact ⟨⟨row,found,node,revoked⟩,same⟩
  · rintro ⟨⟨row,found,node,revoked⟩,differ⟩
    exact ⟨row,⟨row,found,by rw [if_neg differ]⟩,node,revoked⟩

theorem live_insertToken {nodes : OrderedMap String NodeRow}
    {tokens tokens' : OrderedMap String WorkerToken} {issued : IssuedToken}
    (h : insertToken nodes tokens nodeId issued = .ok tokens') {other : String} :
    LiveIn tokens' other tokenHash ↔
      other = nodeId ∧ tokenHash = issued.tokenHash ∨ LiveIn tokens other tokenHash := by
  obtain ⟨unused,_,rfl⟩ := insertToken_ok h
  unfold LiveIn
  by_cases same : tokenHash = issued.tokenHash
  · subst same
    rw [OrderedMap.get?_set_self,unused]
    constructor
    · rintro ⟨row,stored,rfl,_⟩
      obtain rfl := Option.some.inj stored
      exact .inl ⟨rfl,rfl⟩
    · rintro (⟨rfl,_⟩ | ⟨row,impossible,_⟩)
      · exact ⟨_,rfl,rfl,rfl⟩
      · contradiction
  · rw [OrderedMap.get?_set_of_ne same]
    simp [same]

/-- The INSERT that a step which issues a token has made, after what it revokes. -/
theorem insert_of_issued (taken : Taken (exec sec) tr)
    (issues : issuedBy tr = some (nodeId,tokenHash)) :
    ∃ nodes tokens issued, issued.tokenHash = tokenHash ∧
      insertToken nodes tokens nodeId issued = .ok tr.after.workerTokens ∧
      ∀ other hash, LiveIn tokens other hash ↔
        Live tr.before other hash ∧ replacedBy tr.action ≠ some hash := by
  obtain ⟨task,action,choice,before,reply,after⟩ := tr
  simp only [Taken] at taken
  have through : ∀ act : Act, act.immediate = false →
      (choice.fault.strike before (effect sec before choice act)).1 = after →
      choice.fault.takesEffect = true → (effect sec before choice act).1 = after := by
    intro act _ struck takes
    rwa [strike_fst,if_pos takes] at struck
  cases action with
  | enroll e =>
    simp only [issuedBy] at issues
    split at issues
    · rename_i ok
      rw [Bool.and_eq_true] at ok
      obtain ⟨rfl,rfl⟩ := Prod.mk.inj (Option.some.inj issues)
      have done := through (.enroll e) rfl (congrArg Prod.fst (Option.some.inj taken)) ok.1
      obtain ⟨s',rows⟩ := exists_ok ok.2
      simp only [effect,rows,transaction] at done
      subst done
      refine ⟨_,_,_,rfl,(enrolled_of_ok rows).issues,?_⟩
      simp [replacedBy]
    · contradiction
  | reissue node fingerprint remote oldHash now issued =>
    simp only [issuedBy] at issues
    split at issues
    · rename_i ok
      rw [Bool.and_eq_true] at ok
      obtain ⟨rfl,rfl⟩ := Prod.mk.inj (Option.some.inj issues)
      have done := through (.reissue node fingerprint remote oldHash now issued) rfl
        (congrArg Prod.fst (Option.some.inj taken)) ok.1
      obtain ⟨s',rows⟩ := exists_ok ok.2
      simp only [effect,rows,transaction] at done
      subst done
      refine ⟨_,_,_,rfl,(reissued_of_ok rows).issues,?_⟩
      intro other hash
      rw [live_revokeToken]
      simp [replacedBy,ne_comm]
    · contradiction
  | rotate node oldHash now issued =>
    simp only [issuedBy] at issues
    split at issues
    · rename_i ok
      rw [Bool.and_eq_true] at ok
      obtain ⟨rfl,rfl⟩ := Prod.mk.inj (Option.some.inj issues)
      have done := through (.rotate node oldHash now issued) rfl
        (congrArg Prod.fst (Option.some.inj taken)) ok.1
      obtain ⟨s',rows⟩ := exists_ok ok.2
      simp only [effect,rows,transaction] at done
      subst done
      refine ⟨_,_,_,rfl,(rotated_of_ok rows).issues,?_⟩
      intro other hash
      rw [live_revokeToken]
      simp [replacedBy,ne_comm]
    · contradiction
  | _ => contradiction

/-- After a step that issues a token, it is live, with those that were and that the step
does not revoke. -/
theorem live_of_issued (taken : Taken (exec sec) tr)
    (issues : issuedBy tr = some (nodeId,tokenHash)) (other hash : String) :
    Live tr.after other hash ↔ other = nodeId ∧ hash = tokenHash ∨
      Live tr.before other hash ∧ replacedBy tr.action ≠ some hash := by
  obtain ⟨nodes,tokens,issued,rfl,inserted,spared⟩ := insert_of_issued taken issues
  rw [Live,live_insertToken inserted,spared]

/-- No other step makes a token live. -/
theorem live_of_unissued (taken : Taken (exec sec) tr) (none : issuedBy tr = none) (live : Live tr.after nodeId tokenHash) :
    Live tr.before nodeId tokenHash := by
  obtain ⟨task,action,choice,before,reply,after⟩ := tr
  simp only [Taken] at taken
  cases stepped_of_exec taken with
  | same missed unchanged => exact unchanged ▸ live
  | cancelled future waits after =>
    rw [after] at live
    exact live
  | effect struck after =>
    rw [after] at live
    have failed : ∀ {result : Except PyError State}, result.isOk = false →
        (transaction before result).1 = before := by
      intro result failed
      cases result with
      | error => rfl
      | ok => contradiction
    cases action with
    | enroll e | reissue node fingerprint remote oldHash now issued | rotate node oldHash now issued =>
      have takes := struck rfl fun _ impossible => by cases impossible
      simp only [issuedBy,takes,Bool.true_and] at none
      simp only [effect] at live
      rwa [failed (by simpa using none)] at live
    | deleteNode node entry =>
      obtain ⟨row,found,same⟩ := live
      simp only [effect,deleteRows,OrderedMap.get?_filter,Option.filter_eq_some_iff] at found
      exact ⟨row,found.1,same⟩
    | updateVersion node version now | insertJoinToken hash node expiresAt =>
      simp only [effect] at live
      split at live <;> exact live
    | _ => exact live

theorem issuedFor_concat (past : List (Step τ)) (tr : Step τ) (nodeId : String) :
    issuedFor (past ++ [tr]) nodeId = issuedFor past nodeId ++
      ((issuedBy tr).bind fun entry => if entry.1 = nodeId then some entry.2 else none).toList := by
  unfold issuedFor
  rw [List.filterMap_append]
  congr 1

/-- Of the tokens of a node only the newest one issued is live. -/
def NewestOnly (past : List (Step τ)) (s : State) : Prop :=
  ∀ nodeId newest, (issuedFor past nodeId).getLast? = some newest →
    ∀ tokenHash, Live s nodeId tokenHash → tokenHash = newest

theorem newestOnly_step {past : List (Step τ)} (taken : Taken (exec sec) tr)
    (only : NewestOnly past tr.before) (revokes : RevokesRest past tr) :
    NewestOnly (past ++ [tr]) tr.after := by
  intro nodeId newest last tokenHash live
  rw [issuedFor_concat] at last
  cases issues : issuedBy tr with
  | none =>
    rw [issues] at last
    simp only [Option.bind_none,Option.toList_none,List.append_nil] at last
    exact only nodeId newest last tokenHash (live_of_unissued taken issues live)
  | some entry =>
    obtain ⟨node,hash⟩ := entry
    rw [live_of_issued taken issues] at live
    rw [issues,Option.bind_some] at last
    by_cases here : node = nodeId
    · subst here
      simp only [if_true,Option.toList_some,List.getLast?_concat,Option.some.injEq] at last
      subst last
      rcases live with ⟨_,same⟩ | ⟨before,spared⟩
      · exact same
      · exact absurd (revokes node hash issues tokenHash before) spared
    · simp only [here,if_false,Option.toList_none,List.append_nil] at last
      rcases live with ⟨same,_⟩ | ⟨before,_⟩
      · exact absurd same.symm here
      · exact only nodeId newest last tokenHash before

theorem revokesRest_of_superseded {past : List (Step τ)} (taken : Taken (exec sec) tr)
    (superseded : Superseded past tr) : RevokesRest past tr := by
  intro nodeId tokenHash issues other live
  have last : (issuedFor (past ++ [tr]) nodeId).getLast? = some tokenHash := by
    rw [issuedFor_concat,issues]
    simp
  by_contra spared
  have after : Live tr.after nodeId other := (live_of_issued taken issues nodeId other).mpr (.inr ⟨live,spared⟩)
  obtain rfl := superseded nodeId tokenHash last other after
  obtain ⟨nodes,tokens,issued,rfl,inserted,kept⟩ := insert_of_issued taken issues
  obtain ⟨row,found,_⟩ := (kept nodeId issued.tokenHash).mpr ⟨live,spared⟩
  rw [(insertToken_ok inserted).1] at found
  contradiction

variable [DecidableEq τ]

/-- In every run, new tokens supersede the older ones of their nodes if and only if every
step that issues a token revokes all the others of the node. -/
theorem superseded_iff_revokes_rest (sec : Security) (s : State) (operations : τ → Operation)
    (schedule : List (τ × Outside)) :
    Throughout Superseded [] (run (exec sec) schedule (start sec s operations)).2 ↔
      Throughout RevokesRest [] (run (exec sec) schedule (start sec s operations)).2 := by
  have follows := start_follows sec s operations
  constructor
  · intro superseded
    have step : ∀ (past : List (Step τ)) (modes : τ → Mode) (tr : Step τ) m, True →
        Taken (exec sec) tr → (operations tr.task).rule tr.action tr.reply (modes tr.task) = some m →
        Superseded past tr → True := fun _ _ _ _ _ _ _ _ => trivial
    exact run_transitions (J := fun _ _ _ => True) step
      (fun past _ tr _ _ taken _ superseded => revokesRest_of_superseded taken superseded) schedule _ []
      (fun _ => Mode.start) trivial follows superseded
  · intro revokes
    exact run_transitions (J := fun past _ s => NewestOnly past s)
      (fun past _ tr _ only taken _ revokes => newestOnly_step taken only revokes)
      (fun past _ tr _ only taken _ revokes => newestOnly_step taken only revokes) schedule _ []
      (fun _ => Mode.start) (fun _ _ impossible => by contradiction) follows revokes

/-! A node that enrolls again keeps the token of its first enrollment -/

instance (tokens : OrderedMap String WorkerToken) (nodeId tokenHash : String) :
    Decidable (LiveIn tokens nodeId tokenHash) :=
  decidable_of_iff (∃ row ∈ tokens.get? tokenHash, row.nodeId = nodeId ∧ row.revoked = false) Iff.rfl

def twoJoinTokens : OrderedMap String JoinToken := oneJoinToken.set "j2" ⟨"n1",false,1800⟩

/-- A second enrollment of the node, up to its audit entry. -/
def rejoining {τ : Type} (task : τ) (joinToken workerToken id : String) : List (τ × Outside) :=
  ([calm,sends (joinMessage joinToken),calm,calm,calm,calm,calm,calm,calm,calm,calm,calm,
    sends responseMessage,calm,calm,calm,draws workerToken,draws id,calm,calm,calm,calm,calm,calm,calm,
    calm] : List Outside).map fun choice => (task,choice)

def enrolledTwice : List (Fin 2 × Outside) := disconnected ++ rejoining (Fin.last 1) "j2" "t2" "u2"

theorem enrolled_again_keeps_token : ¬∀ (sec : Security) (s : State) (operations : Fin 2 → Operation)
    (schedule : List (Fin 2 × Outside)),
    Throughout Superseded [] (run (exec sec) schedule (start sec s operations)).2 := by
  intro superseded
  have found : ∃ k ∈ List.range 60, ∃ tr ∈ (run (exec plainSecurity) enrolledTwice
      (start plainSecurity (boot .empty twoJoinTokens .empty 30 300) twoSessions)).2[k]?,
      (issuedFor ((run (exec plainSecurity) enrolledTwice (start plainSecurity
        (boot .empty twoJoinTokens .empty 30 300) twoSessions)).2.take k ++ [tr]) "n1").getLast? =
          some "t2" ∧ Live tr.after "n1" "t1" := by
    decide +kernel
  obtain ⟨k,_,tr,here,last,live⟩ := found
  have all := superseded plainSecurity (boot .empty twoJoinTokens .empty 30 300) twoSessions enrolledTwice
  exact absurd (all.getElem? here "n1" "t2" last "t1" live) (by decide)

end Vigile.Workers
