import Vigile.AlertEngine

/-! What a task of the alert engine knows while it has the lock. -/
namespace Vigile.Alerts

open Interleaving Python

inductive Mode where
  | outside
  | inside (epoch : Nat)
  | cleared (epoch : Nat) (key : Key)
  | stuck (epoch : Nat) (key : Key)

def Mode.epoch? : Mode → Option Nat
  | .outside => none
  | .inside epoch | .cleared epoch _ | .stuck epoch _ => some epoch

/-- The alert that the task may fire. -/
def Mode.target? : Mode → Option Key
  | .cleared _ key | .stuck _ key => some key
  | _ => none

def rule : Prog.Protocol Action Reply PyError Mode
  | .restart,_,.outside => some .outside
  | .op epoch .acquire,reply,.outside =>
    match reply with
    | .ok _ => some (.inside epoch)
    | .error _ => some .outside
  | .op epoch .release,_,mode => if mode.epoch? = some epoch then some .outside else none
  | .op epoch (.look key),reply,mode =>
    if mode.epoch? = some epoch then
      match reply with
      | .ok none => some (.cleared epoch key)
      | _ => some (.inside epoch)
    else none
  | .op epoch (.resolve key),reply,mode =>
    if mode.epoch? = some epoch then
      match reply with
      | .ok _ => some (.cleared epoch key)
      | .error _ => some (.stuck epoch key)
    else none
  | .op epoch (.insert key _ _ _),_,mode =>
    if mode.epoch? = some epoch ∧ mode.target? = some key then some (.inside epoch) else none
  | .op epoch (.underLimit _),_,mode | .op epoch (.previous _),_,mode | .op epoch (.remember _ _),_,mode
  | .op epoch (.recordIntent _ _),_,mode | .op epoch (.reconnect _),_,mode | .op epoch .selectNodes,_,mode
  | .op epoch (.forget _),_,mode => if mode.epoch? = some epoch then some mode else none
  | .op _ .deleteOrphans,_,.outside | .op _ .deleteOld,_,.outside | .op _ (.acknowledge _),_,.outside
  | .op _ (.addNode _),_,.outside | .op _ (.deleteNode _),_,.outside => some .outside
  | _,_,_ => none

section
variable {epoch : Nat} {mode : Mode}

/-- The task still has the lock. -/
def Within (epoch : Nat) {α : Type} (_ : Except PyError α) (mode : Mode) : Prop := mode.epoch? = some epoch

theorem swallow_follows {program : Task Unit} {post : Except PyError Unit → Mode → Prop}
    (h : program.Follows rule mode post) (forgets : ∀ error mode, post (.error error) mode → post (.ok ()) mode) :
    (swallow program).Follows rule mode post := by
  refine Prog.Follows.attempt h (fun _ _ ended => ended) fun error m ended => ?_
  split
  · exact forgets error m ended
  · exact ended

theorem fireAlert_follows {key : Key} (has : mode.epoch? = some epoch) (may : mode.target? = some key) (severity : Severity)
    (metricValue threshold : Option ℚ) :
    (fireAlert epoch key severity metricValue threshold).Follows rule mode (Within epoch) := by
  have admitted : (perform epoch (.underLimit key)).Stays rule mode := Prog.Stays.perform fun _ => if_pos has
  refine Prog.Follows.bind admitted ?_ ?_
  · rintro allowed m rfl
    cases allowed with
    | false => exact has
    | true =>
      have inserted : (perform epoch (.insert key severity metricValue threshold)).Follows rule m (Within epoch) :=
        Prog.Follows.perform fun _ => ⟨.inside epoch,if_pos ⟨has,may⟩,rfl⟩
      exact swallow_follows inserted fun _ _ ended => ended
  · rintro _ _ rfl
    exact has

/-- After a resolution the alert may be fired, also when it could not be resolved. -/
theorem resolveAlert_follows (key : Key) (has : mode.epoch? = some epoch) : (resolveAlert epoch key).Follows rule mode
    fun _ mode => mode.epoch? = some epoch ∧ mode.target? = some key := by
  have resolved : (perform epoch (.resolve key)).Follows rule mode
      fun _ mode => mode.epoch? = some epoch ∧ mode.target? = some key := by
    refine Prog.Follows.perform fun reply => ?_
    cases reply with
    | ok _ => exact ⟨.cleared epoch key,if_pos has,rfl,rfl⟩
    | error _ => exact ⟨.stuck epoch key,if_pos has,rfl,rfl⟩
  exact swallow_follows resolved fun _ _ ended => ended

theorem look_follows (key : Key) (has : mode.epoch? = some epoch) : (perform epoch (.look key)).Follows rule mode
    fun result mode => mode.epoch? = some epoch ∧ (result = .ok none → mode = .cleared epoch key) := by
  refine Prog.Follows.perform fun reply => ?_
  rcases reply with error | (_ | severity)
  · exact ⟨.inside epoch,if_pos has,rfl,fun same => by cases same⟩
  · exact ⟨.cleared epoch key,if_pos has,rfl,fun _ => rfl⟩
  · exact ⟨.inside epoch,if_pos has,rfl,fun same => by cases same⟩

theorem fireUnlessActive_follows (key : Key) (severity : Severity) (metricValue threshold : Option ℚ)
    (has : mode.epoch? = some epoch) :
    (fireUnlessActive epoch key severity metricValue threshold).Follows rule mode (Within epoch) := by
  refine Prog.Follows.bind (look_follows key has) ?_ fun _ _ ended => ended.1
  rintro (_ | current) m ⟨within,cleared⟩
  · obtain rfl := cleared rfl
    exact fireAlert_follows rfl rfl severity metricValue threshold
  · exact within

theorem resolveIfActive_follows (key : Key) (has : mode.epoch? = some epoch) :
    (resolveIfActive epoch key).Follows rule mode (Within epoch) := by
  refine Prog.Follows.bind (look_follows key has) ?_ fun _ _ ended => ended.1
  rintro (_ | current) m ⟨within,_⟩
  · exact within
  · exact (resolveAlert_follows key within).mono fun _ _ ended => ended.1

theorem evaluateThreshold_follows (node : String) (t : AlertThreshold) (value : ℚ) (has : mode.epoch? = some epoch) :
    (evaluateThreshold epoch node t value).Follows rule mode (Within epoch) := by
  refine Prog.Follows.bind (look_follows (node,t.name) has) ?_ fun _ _ ended => ended.1
  rintro (_ | firing) m ⟨within,cleared⟩
  · obtain rfl := cleared rfl
    cases t.check value with
    | none => exact within
    | some exceeded => exact fireAlert_follows rfl rfl exceeded.1 _ _
  · cases t.check value with
    | none =>
      simp only
      split
      · exact (resolveAlert_follows _ within).mono fun _ _ ended => ended.1
      · exact within
    | some exceeded =>
      obtain ⟨severity,threshold⟩ := exceeded
      simp only
      split
      · exact within
      · exact Prog.Follows.bind (resolveAlert_follows _ within)
          (fun _ _ ended => fireAlert_follows ended.1 ended.2 severity _ _) fun _ _ ended => ended.1

theorem evaluateThresholds_follows (node : String) (snapshot : Snapshot) (thresholds : List AlertThreshold)
    (has : mode.epoch? = some epoch) :
    (evaluateThresholds epoch node snapshot thresholds).Follows rule mode (Within epoch) := by
  induction thresholds generalizing mode with
  | nil => exact has
  | cons t rest ih =>
    unfold evaluateThresholds
    cases snapshot.get? t.metric with
    | none => exact ih has
    | some value =>
      exact Prog.Follows.bind (evaluateThreshold_follows node t value has) (fun _ _ within => ih within) fun _ _ ended => ended

theorem detectReboot_follows (node : String) (snapshot : Snapshot) (has : mode.epoch? = some epoch) :
    (detectReboot epoch node snapshot).Follows rule mode (Within epoch) := by
  unfold detectReboot
  cases snapshot.get? "uptime_seconds" with
  | none => exact has
  | some uptime =>
    have read : (perform epoch (.previous node)).Stays rule mode := Prog.Stays.perform fun _ => if_pos has
    refine Prog.Follows.bind read ?_ ?_
    · rintro previous _ rfl
      cases previous.bind (·.get? "uptime_seconds") with
      | none => exact has
      | some before =>
        simp only
        split
        · exact fireUnlessActive_follows _ _ _ _ has
        · exact resolveIfActive_follows _ has
    · rintro _ _ rfl
      exact has

/-- A critical section leaves the lock as it found it. -/
theorem locking_follows {body : Task Unit}
    (h : ∀ mode : Mode, mode.epoch? = some epoch → body.Follows rule mode (Within epoch)) :
    (locking epoch body).Follows rule .outside fun _ mode => mode = .outside := by
  have acquired : (perform epoch .acquire).Follows rule .outside
      fun result mode => match result with
        | .ok _ => mode = .inside epoch
        | .error _ => mode = .outside := by
    refine Prog.Follows.perform fun reply => ?_
    cases reply with
    | ok _ => exact ⟨.inside epoch,rfl,rfl⟩
    | error _ => exact ⟨.outside,rfl,rfl⟩
  refine Prog.Follows.bind acquired ?_ fun _ _ ended => ended
  rintro _ _ rfl
  refine Prog.Follows.ensure (h _ rfl) fun result m within => ?_
  refine (Prog.Follows.perform fun reply => ⟨.outside,if_pos within,?_⟩ : (perform epoch .release).Follows rule m _)
  cases reply <;> cases result <;> rfl

theorem cleanupOrphanedAlerts_follows :
    (cleanupOrphanedAlerts epoch).Follows rule .outside fun _ mode => mode = .outside := by
  have deleted : (tryCatch (do let _ ← perform epoch .deleteOrphans; pure true) fun error =>
      if error.isException then pure false else throw error : Task Bool).Follows rule .outside
        fun _ mode => mode = .outside := by
    have tried : (do let _ ← perform epoch .deleteOrphans; pure true : Task Bool).Follows rule .outside
        fun _ mode => mode = .outside :=
      Prog.Follows.bind (Prog.Stays.perform fun _ => rfl) (fun _ _ ended => ended) fun _ _ ended => ended
    refine Prog.Follows.attempt tried (fun _ _ ended => ended) fun error m ended => ?_
    split <;> exact ended
  refine Prog.Follows.bind deleted ?_ fun _ _ ended => ended
  rintro (_ | _) _ rfl
  · rfl
  refine locking_follows fun mode has => ?_
  have selected : (tryCatch (perform epoch .selectNodes) fun error =>
      if error.isException then pure [] else throw error : Task (List String)).Follows rule mode fun _ m => m = mode := by
    refine Prog.Follows.attempt (Prog.Stays.perform fun _ => if_pos has) (fun _ _ ended => ended) fun error m ended => ?_
    split <;> exact ended
  refine Prog.Follows.bind selected ?_ ?_
  · rintro valid m rfl
    exact Prog.Follows.perform fun _ => ⟨m,if_pos has,has⟩
  · rintro _ _ rfl
    exact has

theorem client_follows (thresholds : List AlertThreshold) (client : Client) :
    (client.program thresholds).Follows rule .outside fun _ mode => mode = .outside := by
  cases client with
  | evaluateMetrics epoch node snapshot =>
    refine locking_follows fun mode has => ?_
    refine Prog.Follows.bind (detectReboot_follows node snapshot has) (fun _ m within => ?_) fun _ _ ended => ended
    have remembered : (perform epoch (.remember node snapshot)).Stays rule m := Prog.Stays.perform fun _ => if_pos within
    refine Prog.Follows.bind remembered ?_ ?_
    · rintro _ _ rfl
      exact evaluateThresholds_follows node snapshot thresholds within
    · rintro _ _ rfl
      exact within
  | evaluateNodeState epoch node state =>
    refine locking_follows fun mode has => ?_
    cases state with
    | lost | stale => exact fireUnlessActive_follows _ _ _ _ has
    | other => exact has
    | connected =>
      refine Prog.Follows.bind (resolveIfActive_follows _ has) (fun _ m within => ?_) fun _ _ ended => ended
      refine Prog.Follows.bind (resolveIfActive_follows _ within) (fun _ m within => ?_) fun _ _ ended => ended
      have counted : (perform epoch (.reconnect node)).Stays rule m := Prog.Stays.perform fun _ => if_pos within
      refine Prog.Follows.bind counted ?_ ?_
      · rintro count _ rfl
        split
        · exact fireUnlessActive_follows _ _ _ _ within
        · exact resolveIfActive_follows _ within
      · rintro _ _ rfl
        exact within
  | trackIntentResult epoch node success =>
    refine locking_follows fun mode has => ?_
    have recorded : (perform epoch (.recordIntent node success)).Stays rule mode := Prog.Stays.perform fun _ => if_pos has
    refine Prog.Follows.bind recorded ?_ ?_
    · rintro ⟨failed,total⟩ _ rfl
      simp only
      split
      · exact has
      · split
        · exact fireUnlessActive_follows _ _ _ _ has
        · exact resolveIfActive_follows _ has
    · rintro _ _ rfl
      exact has
  | cleanupOrphanedAlerts epoch => exact cleanupOrphanedAlerts_follows
  | cleanupOldAlerts epoch | startup =>
    refine swallow_follows ?_ fun _ _ ended => ended
    exact Prog.Follows.bind (Prog.Stays.perform fun _ => rfl) (fun _ _ ended => ended) fun _ _ ended => ended
  | acknowledgeAlert epoch id =>
    have updated : (perform epoch (.acknowledge id)).Stays rule .outside := Prog.Stays.perform fun _ => rfl
    refine Prog.Follows.bind updated ?_ fun _ _ ended => ended
    rintro changed _ rfl
    split <;> rfl
  | addNode epoch node | deleteNode epoch node => exact Prog.Stays.perform fun _ => rfl

end

end Vigile.Alerts
