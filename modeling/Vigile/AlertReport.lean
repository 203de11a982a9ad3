import Mathlib.Algebra.Order.Ring.Rat
import Vigile.AlertEngine

/-! `evaluate_metrics` from the report as it comes in: the derived metrics, the builtin
thresholds, and what one evaluation does to the severity of each alert. The task has the lock,
so that others change the tables in the meantime and nothing else. -/
namespace Vigile.Alerts

open Interleaving Python

def builtinThresholds : List AlertThreshold :=
  [⟨"disk_usage_high","disk_percent",some 85,some 95,some 80,.gt⟩,
    ⟨"memory_usage_high","mem_percent",some 85,some 95,some 80,.gt⟩,
    ⟨"memory_swap_active","swap_used_bytes",some 1,none,some 0,.gt⟩,
    ⟨"cpu_high_percent","cpu_percent",some 80,some 95,some 60,.gt⟩,
    ⟨"temperature_high","temp_celsius",some 75,some 85,some 70,.gt⟩,
    ⟨"psi_cpu_pressure","psi_cpu_avg10",some 50,some 80,some 30,.gt⟩,
    ⟨"psi_io_pressure","psi_io_avg10",some 50,some 80,some 30,.gt⟩,
    ⟨"psi_mem_pressure","psi_mem_avg10",some 50,some 80,some 30,.gt⟩,
    ⟨"entropy_low","entropy_avail",none,some 100,some 200,.lt⟩,
    ⟨"cpu_load_per_core_high","cpu_load_per_core",some 2,some 4,some (3/2),.gt⟩,
    ⟨"process_count_high","processes",some 500,some 1000,some 400,.gt⟩,
    ⟨"swap_usage_percent_high","swap_percent",some 50,some 80,some 40,.gt⟩,
    ⟨"file_handle_usage_high","file_handle_percent",some 80,some 95,some 70,.gt⟩,
    ⟨"app_sshd_fd_usage_high","app_sshd_fds_percent",some 80,some 95,some 70,.gt⟩,
    ⟨"network_drops_high","net_drops_rate",some 5,some 20,some 3,.gt⟩,
    ⟨"disk_io_high","disk_io_mbps",some 50,some 200,some 30,.gt⟩]

/-- The type that Python names when it cannot add; a metric that is absent is `None`. -/
def typeName : Option ℚ → String
  | some _ => "int"
  | none => "NoneType"

def plus : Option ℚ → Option ℚ → Except PyError ℚ
  | some a, some b => .ok (a + b)
  | a, b => .error (.otherException ("unsupported operand type(s) for +: '" ++ typeName a ++ "' and '" ++ typeName b ++ "'"))

def share (name part whole : String) (scale : ℚ) (snapshot : Snapshot) : Snapshot :=
  match snapshot.get? part,snapshot.get? whole with
  | some part, some whole => if 0 < whole then snapshot.set name (part / whole * scale) else snapshot
  | _, _ => snapshot

/-- The growth of the sum of two counters, as a rate where there is any. -/
def growth (name first second : String) (dt scale : ℚ) (previous snapshot : Snapshot) : Except PyError Snapshot := do
  let current ← plus (snapshot.get? first) (snapshot.get? second)
  let before ← plus (previous.get? first) (previous.get? second)
  let delta := current - before
  if 0 < delta then pure (snapshot.set name (delta / dt / scale)) else pure snapshot

/-- `dt` between two reports. -/
def elapsed (previous snapshot : Snapshot) : ℚ :=
  max 1 ((snapshot.get? "collected_at").getD 0 - (previous.get? "collected_at").getD 0)

def netDropsRate (previous snapshot : Snapshot) : Except PyError Snapshot :=
  growth "net_drops_rate" "net_drops_in" "net_drops_out" (elapsed previous snapshot) 1 previous snapshot

def diskIoMbps (previous snapshot : Snapshot) : Except PyError Snapshot :=
  growth "disk_io_mbps" "disk_read_bytes" "disk_write_bytes" (elapsed previous snapshot) (1024 * 1024) previous snapshot

def shares (snapshot : Snapshot) : Snapshot :=
  let snapshot := share "cpu_load_per_core" "cpu_load_5m" "cpu_cores" 1 snapshot
  let snapshot := share "swap_percent" "swap_used_bytes" "swap_total_bytes" 100 snapshot
  let snapshot := share "file_handle_percent" "file_handles_used" "file_handles_max" 100 snapshot
  match snapshot.get? "app_sshd_fds_percent" with
  | none => share "app_sshd_fds_percent" "app_sshd_fds_used" "app_sshd_fds_max" 100 snapshot
  | some _ => snapshot

def computeSyntheticMetrics (snapshot : Snapshot) (previous : Option Snapshot) : Snapshot × Option PyError :=
  let snapshot := shares snapshot
  match previous with
  | none => (snapshot,none)
  | some previous =>
    if previous.entries = [] then (snapshot,none)
    else
      match netDropsRate previous snapshot with
      | .error error => (snapshot,some error)
      | .ok snapshot =>
        match diskIoMbps previous snapshot with
        | .error error => (snapshot,some error)
        | .ok snapshot => (snapshot,none)

/-- `evaluate_metrics` on a snapshot whose derived metrics are not there yet. -/
def reportMetrics (thresholds : List AlertThreshold) (epoch : Nat) (node : String) (snapshot : Snapshot) : Task Unit :=
  locking epoch do
    detectReboot epoch node snapshot
    let previous ← perform epoch (.previous node)
    let (derived,failed) := computeSyntheticMetrics snapshot previous
    perform epoch (.remember node derived)
    match failed with
    | some error => throw error
    | none => evaluateThresholds epoch node derived thresholds

/-- The tables as others have left them. -/
structure Tables where
  nodes : List String
  alerts : OrderedMap Nat Row
  issued : Nat

def State.amid (s : State) (tables : Tables) : State :=
  {s with nodes := tables.nodes, alerts := tables.alerts, issued := tables.issued}

def execAmid (clock : Action → ℚ) (action : Action) (tables : Tables) (s : State) :
    Option (State × Except PyError (Reply action)) :=
  exec action ⟨.none,clock action⟩ (s.amid tables)

/-- How every finished run of the program ends, in whatever tables, as long as these have the node. -/
abbrev Evaluates {α : Type} (clock : Action → ℚ) (node : String) (program : Task α) (s : State)
    (post : Except PyError α → State → Prop) : Prop :=
  Alone (execAmid clock) (fun tr => node ∈ tr.choice.nodes) program s post

def State.severity (s : State) (key : Key) : Option Severity := (s.memory.active.get? key).map Active.severity

/-- Whether the limiter has ten firings of the alert in the minute before. -/
def State.full (s : State) (key : Key) (now : ℚ) : Bool :=
  decide (10 ≤ (recent now 60 ((s.memory.rateLimiter.get? key).getD [])).length)

def AlertThreshold.stepped (t : AlertThreshold) (value : ℚ) (full : Bool) (current : Option Severity) : Option Severity :=
  match t.check value,current with
  | some (severity,_), none => if full then none else some severity
  | some (severity,_), some firing =>
    if severity.rank ≤ firing.rank then some firing else if full then none else some severity
  | none, some firing => if t.isResolved value then none else some firing
  | none, none => none

/-- Only the alerts named and their limiters have changed. -/
structure Frame (s : State) (touched : Key → Prop) (s' : State) : Prop where
  active : ∀ key, ¬touched key → s'.memory.active.get? key = s.memory.active.get? key
  limiter : ∀ key, ¬touched key → s'.memory.rateLimiter.get? key = s.memory.rateLimiter.get? key
  snapshots : s'.memory.lastSnapshot = s.memory.lastSnapshot

section
variable {clock : Action → ℚ} {epoch : Nat} {node : String} {key : Key} {touched wider : Key → Prop} {s s' s'' : State}

theorem Frame.of_memory (same : s'.memory = s.memory) : Frame s touched s' := by
  constructor <;> simp [same]

theorem Frame.trans (first : Frame s touched s') (second : Frame s' touched s'') : Frame s touched s'' :=
  ⟨fun key free => (second.active key free).trans (first.active key free),
    fun key free => (second.limiter key free).trans (first.limiter key free),
    second.snapshots.trans first.snapshots⟩

theorem Frame.mono (frame : Frame s touched s') (within : ∀ key, touched key → wider key) : Frame s wider s' :=
  ⟨fun key free => frame.active key (mt (within key) free),fun key free => frame.limiter key (mt (within key) free),
    frame.snapshots⟩

theorem Frame.severity (frame : Frame s touched s') (free : ¬touched key) : s'.severity key = s.severity key := by
  unfold State.severity
  rw [frame.active key free]

theorem Frame.full (frame : Frame s touched s') (free : ¬touched key) (now : ℚ) : s'.full key now = s.full key now := by
  unfold State.full
  rw [frame.limiter key free]

/-- An operation under the lock is its answer in the tables of the moment. -/
theorem op_evaluates {op : Op} (within : op ≠ .acquire) {post : Except PyError (Reply (.op epoch op)) → State → Prop}
    (each : ∀ tables : Tables, node ∈ tables.nodes →
      post (answer epoch (clock (.op epoch op)) (s.amid tables) op).2
        (answer epoch (clock (.op epoch op)) (s.amid tables) op).1) :
    Evaluates clock node (perform epoch op) s post := by
  refine .perform fun tables s' reply done isNode => ?_
  have answered : answer epoch (clock (.op epoch op)) (s.amid tables) op = (s',reply) := by
    unfold execAmid exec at done
    dsimp only at done
    split at done
    · cases op <;> first
        | exact absurd rfl within
        | exact Option.some.inj done
    · contradiction
  have goal := each tables isNode
  rwa [answered] at goal

theorem acquire_evaluates : Evaluates clock node (perform epoch .acquire) s
    fun result s' => result = .ok () ∧ s'.memory = s.memory := by
  refine .perform fun tables s' reply done isNode => ?_
  unfold execAmid exec at done
  dsimp only at done
  split at done
  · split at done
    · contradiction
    · obtain ⟨rfl,rfl⟩ := Prod.mk.inj (Option.some.inj done)
      exact ⟨rfl,rfl⟩
  · contradiction

theorem release_evaluates : Evaluates clock node (perform epoch .release) s
    fun result s' => result = .ok () ∧ s'.memory = s.memory :=
  op_evaluates (by simp) fun _ _ => ⟨rfl,rfl⟩

theorem look_evaluates (key : Key) : Evaluates clock node (perform epoch (.look key)) s
    fun result s' => result = .ok (s.severity key) ∧ s'.memory = s.memory :=
  op_evaluates (by simp) fun _ _ => ⟨rfl,rfl⟩

theorem previous_evaluates : Evaluates clock node (perform epoch (.previous node)) s
    fun result s' => result = .ok (s.memory.lastSnapshot.get? node) ∧ s'.memory = s.memory :=
  op_evaluates (by simp) fun _ _ => ⟨rfl,rfl⟩

theorem remember_evaluates (snapshot : Snapshot) : Evaluates clock node (perform epoch (.remember node snapshot)) s
    fun result s' => result = .ok () ∧
      s'.memory = {s.memory with lastSnapshot := s.memory.lastSnapshot.set node snapshot} :=
  op_evaluates (by simp) fun _ _ => ⟨rfl,rfl⟩

theorem underLimit_evaluates (key : Key) : Evaluates clock node (perform epoch (.underLimit key)) s
    fun result s' => result = .ok (!s.full key (clock (.op epoch (.underLimit key)))) ∧ Frame s (· = key) s' ∧
      s'.severity key = s.severity key := by
  refine op_evaluates (by simp) fun tables _ => ?_
  by_cases full : 10 ≤ (recent (clock (.op epoch (.underLimit key))) 60
      (((s.amid tables).memory.rateLimiter.get? key).getD [])).length
  · have isFull : s.full key (clock (.op epoch (.underLimit key))) = true := decide_eq_true full
    simp only [answer,full,isFull,if_true]
    exact ⟨rfl,⟨fun _ _ => rfl,fun other differ => OrderedMap.get?_set_of_ne differ,rfl⟩,rfl⟩
  · have isFree : s.full key (clock (.op epoch (.underLimit key))) = false := decide_eq_false full
    simp only [answer,full,isFree,if_false]
    exact ⟨rfl,⟨fun _ _ => rfl,fun other differ => OrderedMap.get?_set_of_ne differ,rfl⟩,rfl⟩

theorem insert_evaluates (name : String) (severity : Severity) (metricValue threshold : Option ℚ) :
    Evaluates clock node (perform epoch (.insert (node,name) severity metricValue threshold)) s
      fun result s' => result = .ok () ∧ Frame s (· = (node,name)) s' ∧ s'.severity (node,name) = some severity := by
  refine op_evaluates (by simp) fun tables isNode => ?_
  have known : (node,name).1 ∈ (s.amid tables).nodes := isNode
  simp only [answer,known,if_true]
  refine ⟨trivial,⟨fun other differ => OrderedMap.get?_set_of_ne differ,fun _ _ => rfl,rfl⟩,?_⟩
  simp [State.severity]

theorem resolve_evaluates (key : Key) : Evaluates clock node (perform epoch (.resolve key)) s
    fun result s' => result = .ok () ∧ Frame s (· = key) s' ∧ s'.severity key = none ∧
      s'.memory.rateLimiter = s.memory.rateLimiter := by
  refine op_evaluates (by simp) fun tables _ => ?_
  cases found : s.memory.active.get? key with
  | none =>
    have missing : (s.amid tables).memory.active.get? key = none := found
    simp only [answer,missing]
    exact ⟨trivial,Frame.of_memory rfl,by simp [State.severity,State.amid,found],rfl⟩
  | some current =>
    have present : (s.amid tables).memory.active.get? key = some current := found
    simp only [answer,present]
    refine ⟨trivial,⟨fun other differ => OrderedMap.get?_erase_of_ne differ,fun _ _ => rfl,rfl⟩,?_,rfl⟩
    simp [State.severity,State.withMemory]

theorem swallow_evaluates {program : Task Unit} {post : State → Prop}
    (h : Evaluates clock node program s fun result s' => result = .ok () ∧ post s') :
    Evaluates clock node (swallow program) s fun result s' => result = .ok () ∧ post s' :=
  Alone.attempt h (fun _ _ ended => ended) fun _ _ ended => absurd ended.1 (by simp)

/-- A program that ends well goes on with what comes next. -/
theorem evaluates_bind {α β : Type} {program : Task α} {next : α → Task β} {value : α} {first : State → Prop}
    {post : Except PyError β → State → Prop}
    (h : Evaluates clock node program s fun result s' => result = .ok value ∧ first s')
    (goesOn : ∀ s', first s' → Evaluates clock node (next value) s' post) :
    Evaluates clock node (program >>= next) s post := by
  refine .bind h (fun found s' ended => ?_) fun error s' ended => absurd ended.1 (by simp)
  obtain rfl := Except.ok.inj ended.1
  exact goesOn s' ended.2

theorem fireAlert_evaluates (name : String) (severity : Severity) (metricValue threshold : Option ℚ) :
    Evaluates clock node (fireAlert epoch (node,name) severity metricValue threshold) s
      fun result s' => result = .ok () ∧ Frame s (· = (node,name)) s' ∧ s'.severity (node,name) =
        if s.full (node,name) (clock (.op epoch (.underLimit (node,name)))) then s.severity (node,name)
        else some severity := by
  refine evaluates_bind (underLimit_evaluates (node,name)) fun s₁ read => ?_
  obtain ⟨frame,same⟩ := read
  cases full : s.full (node,name) (clock (.op epoch (.underLimit (node,name)))) with
  | true => exact ⟨rfl,frame,same⟩
  | false =>
    refine (swallow_evaluates (insert_evaluates name severity metricValue threshold)).mono ?_
    rintro _ s₂ ⟨isOk,inserted,fired⟩
    exact ⟨isOk,frame.trans inserted,fired⟩

theorem resolveAlert_evaluates (key : Key) : Evaluates clock node (resolveAlert epoch key) s
    fun result s' => result = .ok () ∧ Frame s (· = key) s' ∧ s'.severity key = none ∧
      s'.memory.rateLimiter = s.memory.rateLimiter :=
  swallow_evaluates (resolve_evaluates key)

theorem evaluateThreshold_evaluates (t : AlertThreshold) (value : ℚ) :
    Evaluates clock node (evaluateThreshold epoch node t value) s
      fun result s' => result = .ok () ∧ Frame s (· = (node,t.name)) s' ∧ s'.severity (node,t.name) =
        t.stepped value (s.full (node,t.name) (clock (.op epoch (.underLimit (node,t.name))))) (s.severity (node,t.name)) := by
  refine evaluates_bind (look_evaluates (node,t.name)) fun s₁ same => ?_
  have still : Frame s (· = (node,t.name)) s₁ := Frame.of_memory same
  have severe : s₁.severity (node,t.name) = s.severity (node,t.name) := by simp only [State.severity,same]
  have limited : ∀ now, s₁.full (node,t.name) now = s.full (node,t.name) now := fun now => by
    simp only [State.full,same]
  cases current : s.severity (node,t.name) with
  | none =>
    cases checked : t.check value with
    | none => exact ⟨rfl,still,by simp [AlertThreshold.stepped,checked,severe,current]⟩
    | some exceeded =>
      refine (fireAlert_evaluates t.name exceeded.1 (some value) (some exceeded.2)).mono ?_
      rintro _ s₂ ⟨isOk,frame,fired⟩
      refine ⟨isOk,still.trans frame,?_⟩
      rw [fired,limited,severe,current]
      simp [AlertThreshold.stepped,checked]
  | some firing =>
    cases checked : t.check value with
    | none =>
      simp only
      split
      · rename_i resolved
        refine (resolveAlert_evaluates (node,t.name)).mono ?_
        rintro _ s₂ ⟨isOk,frame,gone,_⟩
        exact ⟨isOk,still.trans frame,by simp [AlertThreshold.stepped,checked,resolved,gone]⟩
      · rename_i unresolved
        exact ⟨rfl,still,by simp [AlertThreshold.stepped,checked,unresolved,severe,current]⟩
    | some exceeded =>
      obtain ⟨severity,threshold⟩ := exceeded
      simp only
      split
      · rename_i enough
        exact ⟨rfl,still,by simp [AlertThreshold.stepped,checked,enough,severe,current]⟩
      · rename_i below
        refine evaluates_bind (resolveAlert_evaluates (node,t.name)) fun s₂ resolved => ?_
        obtain ⟨frame,gone,limiter⟩ := resolved
        refine (fireAlert_evaluates t.name severity (some value) (some threshold)).mono ?_
        rintro _ s₃ ⟨isOk,fireFrame,fired⟩
        refine ⟨isOk,(still.trans frame).trans fireFrame,?_⟩
        have unlimited : ∀ now, s₂.full (node,t.name) now = s.full (node,t.name) now := fun now => by
          rw [← limited]
          simp only [State.full,limiter]
        rw [fired,unlimited,gone]
        simp [AlertThreshold.stepped,checked,below]

def AlertThreshold.reported (t : AlertThreshold) (clock : Action → ℚ) (epoch : Nat) (node : String) (snapshot : Snapshot)
    (s : State) : Option Severity :=
  match snapshot.get? t.metric with
  | none => s.severity (node,t.name)
  | some value =>
    t.stepped value (s.full (node,t.name) (clock (.op epoch (.underLimit (node,t.name))))) (s.severity (node,t.name))

theorem Frame.reported {t : AlertThreshold} {snapshot : Snapshot} (frame : Frame s touched s')
    (free : ¬touched (node,t.name)) : t.reported clock epoch node snapshot s' = t.reported clock epoch node snapshot s := by
  unfold AlertThreshold.reported
  simp only [frame.severity free,frame.full free]

theorem evaluateThresholds_evaluates (snapshot : Snapshot) {thresholds : List AlertThreshold}
    (distinct : (thresholds.map AlertThreshold.name).Nodup) :
    Evaluates clock node (evaluateThresholds epoch node snapshot thresholds) s
      fun result s' => result = .ok () ∧ Frame s (fun key => ∃ t ∈ thresholds, key = (node,t.name)) s' ∧
        ∀ t ∈ thresholds, s'.severity (node,t.name) = t.reported clock epoch node snapshot s := by
  induction thresholds generalizing s with
  | nil => exact ⟨rfl,Frame.of_memory rfl,by simp⟩
  | cons t rest ih =>
    obtain ⟨fresh,distinctRest⟩ := List.nodup_cons.mp distinct
    have apart : ∀ other ∈ rest, other.name ≠ t.name := fun other member same =>
      fresh (same ▸ List.mem_map_of_mem member)
    -- the rest leaves this alert alone, and this step those of the rest
    have goesOn : ∀ s₁, Frame s (· = (node,t.name)) s₁ → s₁.severity (node,t.name) = t.reported clock epoch node snapshot s →
        Evaluates clock node (evaluateThresholds epoch node snapshot rest) s₁
          fun result s' => result = .ok () ∧ Frame s (fun key => ∃ other ∈ t :: rest, key = (node,other.name)) s' ∧
            ∀ other ∈ t :: rest, s'.severity (node,other.name) = other.reported clock epoch node snapshot s := by
      intro s₁ frame own
      refine (ih distinctRest).mono ?_
      rintro _ s₂ ⟨isOk,later,each⟩
      refine ⟨isOk,?_,fun other member => ?_⟩
      · refine (frame.mono ?_).trans (later.mono ?_)
        · rintro key rfl
          exact ⟨t,List.mem_cons_self,rfl⟩
        · rintro key ⟨other,member,rfl⟩
          exact ⟨other,List.mem_cons_of_mem t member,rfl⟩
      · rcases List.mem_cons.mp member with rfl | inRest
        · rw [later.severity,own]
          rintro ⟨another,inRest,same⟩
          exact apart another inRest (Prod.mk.inj same).2.symm
        · rw [each other inRest,frame.reported]
          intro same
          exact apart other inRest (Prod.mk.inj same).2
    unfold evaluateThresholds
    cases value : snapshot.get? t.metric with
    | none => exact goesOn s (Frame.of_memory rfl) (by simp [AlertThreshold.reported,value])
    | some value' =>
      refine evaluates_bind (evaluateThreshold_evaluates t value') fun s₁ stepped => ?_
      exact goesOn s₁ stepped.1 (by simpa [AlertThreshold.reported,value] using stepped.2)

theorem fireUnlessActive_evaluates (name : String) (severity : Severity) (metricValue threshold : Option ℚ) :
    Evaluates clock node (fireUnlessActive epoch (node,name) severity metricValue threshold) s
      fun result s' => result = .ok () ∧ Frame s (· = (node,name)) s' := by
  refine evaluates_bind (look_evaluates (node,name)) fun s₁ same => ?_
  have still : Frame s (· = (node,name)) s₁ := Frame.of_memory same
  cases s.severity (node,name) with
  | none => exact (fireAlert_evaluates name severity _ _).mono fun _ _ ended => ⟨ended.1,still.trans ended.2.1⟩
  | some _ => exact ⟨rfl,still⟩

theorem resolveIfActive_evaluates (key : Key) : Evaluates clock node (resolveIfActive epoch key) s
    fun result s' => result = .ok () ∧ Frame s (· = key) s' := by
  refine evaluates_bind (look_evaluates key) fun s₁ same => ?_
  have still : Frame s (· = key) s₁ := Frame.of_memory same
  cases s.severity key with
  | none => exact ⟨rfl,still⟩
  | some _ => exact (resolveAlert_evaluates key).mono fun _ _ ended => ⟨ended.1,still.trans ended.2.1⟩

theorem detectReboot_evaluates (snapshot : Snapshot) : Evaluates clock node (detectReboot epoch node snapshot) s
    fun result s' => result = .ok () ∧ Frame s (· = (node,"node_reboot_detected")) s' := by
  unfold detectReboot
  cases snapshot.get? "uptime_seconds" with
  | none => exact ⟨rfl,Frame.of_memory rfl⟩
  | some uptime =>
    refine evaluates_bind previous_evaluates fun s₁ same => ?_
    have still : Frame s (· = (node,"node_reboot_detected")) s₁ := Frame.of_memory same
    cases (s.memory.lastSnapshot.get? node).bind (·.get? "uptime_seconds") with
    | none => exact ⟨rfl,still⟩
    | some before =>
      simp only
      split
      · exact (fireUnlessActive_evaluates _ _ _ _).mono fun _ _ ended => ⟨ended.1,still.trans ended.2⟩
      · exact (resolveIfActive_evaluates _).mono fun _ _ ended => ⟨ended.1,still.trans ended.2⟩

theorem locking_evaluates {body : Task Unit} {post : Except PyError Unit → State → Prop}
    (reads : ∀ result (s₁ s₂ : State), s₁.memory = s₂.memory → post result s₁ → post result s₂)
    (h : ∀ s', s'.memory = s.memory → Evaluates clock node body s' post) :
    Evaluates clock node (locking epoch body) s post := by
  refine evaluates_bind acquire_evaluates fun s₁ same => ?_
  refine .ensure (h s₁ same) fun result s₂ reached => release_evaluates.mono ?_
  rintro _ s₃ ⟨rfl,kept⟩
  exact reads result s₂ s₃ kept.symm reached

/-- What a report makes of the severity of a threshold's alert; one whose derived metrics cannot
be computed evaluates no threshold. -/
def AlertThreshold.after (t : AlertThreshold) (clock : Action → ℚ) (epoch : Nat) (node : String) (derived : Snapshot)
    (failed : Option PyError) (s : State) : Option Severity :=
  match failed with
  | none => t.reported clock epoch node derived s
  | some _ => s.severity (node,t.name)

/-- The severity of every threshold's alert after a report, and the snapshot that the next report
is compared with. -/
theorem reportMetrics_evaluates {thresholds : List AlertThreshold} {snapshot derived : Snapshot} {failed : Option PyError}
    (distinct : (thresholds.map AlertThreshold.name).Nodup)
    (noReboot : ∀ t ∈ thresholds, t.name ≠ "node_reboot_detected")
    (computes : computeSyntheticMetrics snapshot (s.memory.lastSnapshot.get? node) = (derived,failed)) :
    Evaluates clock node (reportMetrics thresholds epoch node snapshot) s fun result s' =>
      (failed = none → result = .ok ()) ∧ s'.memory.lastSnapshot.get? node = some derived ∧
      ∀ t ∈ thresholds, s'.severity (node,t.name) = t.after clock epoch node derived failed s := by
  refine locking_evaluates ?_ fun s₀ same => ?_
  · rintro result s₁ s₂ same ⟨isOk,kept,each⟩
    simp only [State.severity,same] at each kept
    exact ⟨isOk,kept,each⟩
  refine evaluates_bind (detectReboot_evaluates snapshot) fun s₁ frame => ?_
  refine evaluates_bind previous_evaluates fun s₂ same₂ => ?_
  have read : computeSyntheticMetrics snapshot (s₁.memory.lastSnapshot.get? node) = (derived,failed) := by
    rw [frame.snapshots,same,computes]
  rw [read]
  refine evaluates_bind (remember_evaluates derived) fun s₃ remembered => ?_
  have active : s₃.memory.active = s₁.memory.active := by rw [remembered,same₂]
  have limiter : s₃.memory.rateLimiter = s₁.memory.rateLimiter := by rw [remembered,same₂]
  have kept : s₃.memory.lastSnapshot.get? node = some derived := by
    rw [remembered]
    exact OrderedMap.get?_set_self
  have untouched : ∀ t ∈ thresholds, ¬(node,t.name) = (node,"node_reboot_detected") := fun t member equal =>
    noReboot t member (Prod.mk.inj equal).2
  have severe : ∀ t ∈ thresholds, s₃.severity (node,t.name) = s.severity (node,t.name) := fun t member => by
    have first := frame.severity (untouched t member)
    unfold State.severity at first ⊢
    rw [active,first,same]
  cases failed with
  | some error => exact ⟨fun none => (by cases none),kept,severe⟩
  | none =>
    refine (evaluateThresholds_evaluates derived distinct).mono ?_
    rintro _ s₄ ⟨isOk,later,each⟩
    refine ⟨fun _ => isOk,later.snapshots ▸ kept,fun t member => (each t member).trans ?_⟩
    have limited : ∀ now, s₃.full (node,t.name) now = s.full (node,t.name) now := fun now => by
      have first := frame.full (untouched t member) now
      unfold State.full at first ⊢
      rw [limiter,first,same]
    simp only [AlertThreshold.after,AlertThreshold.reported,severe t member,limited]

end

end Vigile.Alerts
