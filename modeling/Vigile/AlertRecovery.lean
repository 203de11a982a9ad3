import Mathlib.Tactic.Linarith
import Vigile.AlertReport

/-! Escalation keeps an alert unless the limiter is full at that moment, and the alerts of derived
rates recover with a report whose counters have grown, not with one whose counters stand still. -/
namespace Vigile.Alerts

open Interleaving Python

theorem builtin_distinct : (builtinThresholds.map AlertThreshold.name).Nodup := by decide

theorem builtin_noReboot : ∀ t ∈ builtinThresholds, t.name ≠ "node_reboot_detected" := by decide

def AlertThreshold.level (t : AlertThreshold) : Severity → Option ℚ
  | .warning => t.warningAt
  | .critical => t.criticalAt

def AlertThreshold.Beyond (t : AlertThreshold) (value : ℚ) (severity : Severity) : Prop :=
  ∃ higher : Severity, severity.rank ≤ higher.rank ∧ ∃ level, t.level higher = some level ∧ t.cmp value level = true

def AlertThreshold.called (t : AlertThreshold) (value : ℚ) : Option Severity := (t.check value).map Prod.fst

def Kept (called before : Severity) (now : Option Severity) : Prop :=
  ∃ severity, now = some severity ∧ called.rank ≤ severity.rank ∧ before.rank ≤ severity.rank

section
variable {t : AlertThreshold} {value : ℚ} {severity called : Severity}

/-- Beyond the level of a severity the value calls for that severity or a higher one. -/
theorem called_of_beyond (beyond : t.Beyond value severity) :
    ∃ called, t.called value = some called ∧ severity.rank ≤ called.rank := by
  obtain ⟨higher,above,level,isLevel,exceeds⟩ := beyond
  unfold AlertThreshold.called AlertThreshold.check
  cases higher with
  | critical =>
    have hit : t.criticalAt.filter (t.cmp value) = some level := by
      simp only [AlertThreshold.level] at isLevel
      simp [isLevel,exceeds]
    simp only [hit]
    exact ⟨.critical,rfl,above⟩
  | warning =>
    have hit : t.warningAt.filter (t.cmp value) = some level := by
      simp only [AlertThreshold.level] at isLevel
      simp [isLevel,exceeds]
    cases critical : t.criticalAt.filter (t.cmp value) with
    | none =>
      simp only [hit]
      exact ⟨.warning,rfl,above⟩
    | some threshold => exact ⟨.critical,rfl,above.trans (by decide)⟩

/-- One threshold keeps its alert unless it has to escalate while the limiter is full. -/
theorem kept_stepped (isCalled : t.called value = some called) (rises : severity.rank ≤ called.rank) (full : Bool) :
    Kept called severity (t.stepped value full (some severity)) ↔ called.rank ≤ severity.rank ∨ full = false := by
  obtain ⟨exceeded,checked,rfl⟩ := Option.map_eq_some_iff.mp isCalled
  unfold AlertThreshold.stepped Kept
  simp only [checked]
  by_cases enough : exceeded.1.rank ≤ severity.rank
  · simp [enough]
  · cases full <;> simp [enough,rises]

/-- In every evaluation during which no statement fails, an alert whose value is beyond its level
is kept exactly where it is not to be escalated, or the derived metrics can be computed and the
limiter has room for it at that moment. -/
theorem escalation_kept_iff (clock : Action → ℚ) (epoch : Nat) (node : String) (snapshot : Snapshot) (s : State) :
    Evaluates clock node (reportMetrics builtinThresholds epoch node snapshot) s fun _ s' =>
      ∀ t ∈ builtinThresholds, ∀ value,
        (computeSyntheticMetrics snapshot (s.memory.lastSnapshot.get? node)).1.get? t.metric = some value →
        ∀ severity, s.severity (node,t.name) = some severity → t.Beyond value severity →
        ∃ called, t.called value = some called ∧ severity.rank ≤ called.rank ∧
          (Kept called severity (s'.severity (node,t.name)) ↔
            called.rank ≤ severity.rank ∨
            (computeSyntheticMetrics snapshot (s.memory.lastSnapshot.get? node)).2 = none ∧
              s.full (node,t.name) (clock (.op epoch (.underLimit (node,t.name)))) = false) := by
  rcases computed : computeSyntheticMetrics snapshot (s.memory.lastSnapshot.get? node) with ⟨derived,failed⟩
  refine (reportMetrics_evaluates builtin_distinct builtin_noReboot computed).mono ?_
  rintro _ s' ⟨-,-,each⟩ t member value reads severity active beyond
  obtain ⟨called,isCalled,rises⟩ := called_of_beyond beyond
  refine ⟨called,isCalled,rises,?_⟩
  rw [each t member]
  cases failed with
  | none =>
    have reported : t.after clock epoch node derived none s =
        t.stepped value (s.full (node,t.name) (clock (.op epoch (.underLimit (node,t.name))))) (some severity) := by
      simp only [AlertThreshold.after,AlertThreshold.reported,reads,active]
    rw [reported,kept_stepped isCalled rises]
    simp
  | some error =>
    simp only [AlertThreshold.after,active]
    unfold Kept
    simp

/-- The program run to its end with nobody else about. -/
def settle (clock : Action → ℚ) {α : Type} : Task α → State → State
  | .ret _, s | .raise _, s => s
  | .act action rest, s =>
    match execAmid clock action ⟨s.nodes,s.alerts,s.issued⟩ s with
    | some (s',reply) => settle clock (rest reply) s'
    | none => s

def afterReports (node : String) (reports : List (Snapshot × (Action → ℚ))) : State :=
  reports.foldl (fun s report => settle report.2 (reportMetrics builtinThresholds 0 node report.1) s)
    ⟨[node],.empty,0,.empty,false,0⟩

def diskReading (percent : ℚ) : Snapshot :=
  ⟨[("disk_percent",percent),("net_drops_in",0),("net_drops_out",0),("disk_read_bytes",0),("disk_write_bytes",0)],
    by simp⟩

/-- A disk that goes up and down between 70 and 90 for twenty seconds. -/
def oscillation : List (Snapshot × (Action → ℚ)) :=
  let reading (percent now : ℚ) : Snapshot × (Action → ℚ) := (diskReading percent,fun _ => now)
  (List.range 9).flatMap (fun i : Nat => [reading 90 (2 * i),reading 70 (2 * i + 1)]) ++ [reading 90 19]

/-- Then it goes beyond 95. -/
theorem escalation_limited :
    ¬∀ (node : String) (reports : List (Snapshot × (Action → ℚ))) (snapshot : Snapshot) (clock : Action → ℚ),
      ∀ t ∈ builtinThresholds, ∀ value, snapshot.get? t.metric = some value →
        ∀ severity, (afterReports node reports).severity (node,t.name) = some severity → t.Beyond value severity →
        ∃ called, t.called value = some called ∧ Kept called severity
          ((settle clock (reportMetrics builtinThresholds 0 node snapshot) (afterReports node reports)).severity
            (node,t.name)) := by
  intro claimed
  have active : (afterReports "n1" oscillation).severity ("n1","disk_usage_high") = some .warning := by decide +kernel
  have beyond : (⟨"disk_usage_high","disk_percent",some 85,some 95,some 80,.gt⟩ : AlertThreshold).Beyond 96 .warning :=
    ⟨.critical,by decide,95,rfl,by decide +kernel⟩
  obtain ⟨called,-,kept⟩ := claimed "n1" oscillation (diskReading 96) (fun _ => 20)
    ⟨"disk_usage_high","disk_percent",some 85,some 95,some 80,.gt⟩ (by simp [builtinThresholds]) 96 rfl .warning active beyond
  obtain ⟨severity,isActive,-⟩ := kept
  have gone : (settle (fun _ => 20) (reportMetrics builtinThresholds 0 "n1" (diskReading 96))
      (afterReports "n1" oscillation)).severity ("n1","disk_usage_high") = none := by decide +kernel
  rw [gone] at isActive
  cases isActive

end

/-- A rate derived from two counters, and the threshold that looks at it. -/
structure Gauge where
  threshold : AlertThreshold
  first : String
  second : String
  scale : ℚ
  resolveAt : ℚ

def netDrops : Gauge :=
  ⟨⟨"network_drops_high","net_drops_rate",some 5,some 20,some 3,.gt⟩,"net_drops_in","net_drops_out",1,3⟩

def diskIo : Gauge :=
  ⟨⟨"disk_io_high","disk_io_mbps",some 50,some 200,some 30,.gt⟩,"disk_read_bytes","disk_write_bytes",1024 * 1024,30⟩

/-- The raw counters are there. -/
def Counted (snapshot : Snapshot) : Prop :=
  ∀ counter ∈ ["net_drops_in","net_drops_out","disk_read_bytes","disk_write_bytes"], (snapshot.get? counter).isSome

/-- The derived rates are not: no field of `MetricsSnapshot` has their names. -/
def Raw (snapshot : Snapshot) : Prop := ∀ rate ∈ ["net_drops_rate","disk_io_mbps"], snapshot.get? rate = none

def SameCounters (a b : Snapshot) : Prop :=
  ∀ key ∈ ["net_drops_in","net_drops_out","disk_read_bytes","disk_write_bytes","collected_at"], a.get? key = b.get? key

section
variable (g : Gauge)

def Gauge.total (snapshot : Snapshot) : ℚ := (snapshot.get? g.first).getD 0 + (snapshot.get? g.second).getD 0

/-- How much the counters have grown; negative after a reset. -/
def Gauge.grown (previous snapshot : Snapshot) : ℚ := g.total snapshot - g.total previous

def Gauge.rate (previous snapshot : Snapshot) : ℚ := g.grown previous snapshot / elapsed previous snapshot / g.scale

/-- The counters stand still, are reset or grow at the resolve level or below. -/
def Gauge.Quiet (previous snapshot : Snapshot) : Prop :=
  g.grown previous snapshot ≤ 0 ∨ g.rate previous snapshot ≤ g.resolveAt

def Gauge.QuietRun : Snapshot → List Snapshot → Prop
  | _, [] => True
  | previous, snapshot :: rest => g.Quiet previous snapshot ∧ QuietRun snapshot rest

def Gauge.SomeGrew : Snapshot → List Snapshot → Prop
  | _, [] => False
  | previous, snapshot :: rest => 0 < g.grown previous snapshot ∨ SomeGrew snapshot rest

end

variable {key name : String} {scale : ℚ} {snapshot previous : Snapshot} {g : Gauge}

theorem get?_share_of_ne {part whole : String} (differ : key ≠ name) :
    (share name part whole scale snapshot).get? key = snapshot.get? key := by
  unfold share
  split
  · split
    · exact OrderedMap.get?_set_of_ne differ
    · rfl
  · rfl

/-- The shares leave all other metrics alone. -/
theorem get?_shares
    (differ : key ∉ ["cpu_load_per_core","swap_percent","file_handle_percent","app_sshd_fds_percent"]) :
    (shares snapshot).get? key = snapshot.get? key := by
  simp only [List.mem_cons,List.not_mem_nil,or_false,not_or] at differ
  obtain ⟨load,swap,handles,sshd⟩ := differ
  unfold shares
  dsimp only
  split <;> simp only [get?_share_of_ne load,get?_share_of_ne swap,get?_share_of_ne handles,get?_share_of_ne sshd]

/-- The growth of two counters that are there. -/
theorem growth_counted {first second : String} {dt a b c d : ℚ}
    (hasA : snapshot.get? first = some a) (hasB : snapshot.get? second = some b)
    (hadC : previous.get? first = some c) (hadD : previous.get? second = some d) :
    growth name first second dt scale previous snapshot
      = .ok (if 0 < a + b - (c + d) then snapshot.set name ((a + b - (c + d)) / dt / scale) else snapshot) := by
  unfold growth
  rw [hasA,hasB,hadC,hadD]
  change (if 0 < a + b - (c + d) then pure _ else pure _) = _
  split <;> rfl

/-- With all counters there the derived metrics can be computed. They keep the counters, and
contain a rate where its counters have grown. -/
theorem compute_counted (counted : Counted snapshot) (before : Counted previous)
    (raw : Raw snapshot) :
    ∃ derived, computeSyntheticMetrics snapshot (some previous) = (derived,none) ∧ SameCounters derived snapshot ∧
      ∀ g ∈ [netDrops,diskIo], derived.get? g.threshold.metric =
        if 0 < g.grown previous snapshot then some (g.rate previous snapshot) else none := by
  simp only [Counted,List.forall_mem_cons,Option.isSome_iff_exists] at counted before
  obtain ⟨⟨a,hasA⟩,⟨b,hasB⟩,⟨c,hasC⟩,⟨d,hasD⟩,-⟩ := counted
  obtain ⟨⟨a',hadA⟩,⟨b',hadB⟩,⟨c',hadC⟩,⟨d',hadD⟩,-⟩ := before
  have filled : previous.entries ≠ [] := fun empty => by simp [OrderedMap.get?,empty] at hadA
  have isNet : netDropsRate previous (shares snapshot) = .ok (if 0 < a + b - (a' + b')
      then (shares snapshot).set "net_drops_rate" ((a + b - (a' + b')) / elapsed previous (shares snapshot) / 1)
      else shares snapshot) :=
    growth_counted ((get?_shares (by decide)).trans hasA) ((get?_shares (by decide)).trans hasB) hadA hadB
  have sameTime : elapsed previous (shares snapshot) = elapsed previous snapshot := by
    unfold elapsed
    rw [get?_shares (by decide)]
  generalize netIs : (if 0 < a + b - (a' + b')
      then (shares snapshot).set "net_drops_rate" ((a + b - (a' + b')) / elapsed previous (shares snapshot) / 1)
      else shares snapshot) = net at isNet
  have netOther : ∀ key, key ≠ "net_drops_rate" → net.get? key = (shares snapshot).get? key := fun key differ => by
    rw [← netIs]
    split
    · exact OrderedMap.get?_set_of_ne differ
    · rfl
  have isDisk : diskIoMbps previous net = .ok (if 0 < c + d - (c' + d')
      then net.set "disk_io_mbps" ((c + d - (c' + d')) / elapsed previous net / (1024 * 1024)) else net) :=
    growth_counted (((netOther _ (by decide)).trans (get?_shares (by decide))).trans hasC)
      (((netOther _ (by decide)).trans (get?_shares (by decide))).trans hasD) hadC hadD
  have netTime : elapsed previous net = elapsed previous snapshot := by
    rw [← sameTime]
    unfold elapsed
    rw [netOther "collected_at" (by decide)]
  generalize derivedIs : (if 0 < c + d - (c' + d')
      then net.set "disk_io_mbps" ((c + d - (c' + d')) / elapsed previous net / (1024 * 1024)) else net) = derived at isDisk
  have derivedOther : ∀ key, key ≠ "disk_io_mbps" → derived.get? key = net.get? key := fun key differ => by
    rw [← derivedIs]
    split
    · exact OrderedMap.get?_set_of_ne differ
    · rfl
  have netTotals : netDrops.total snapshot = a + b ∧ netDrops.total previous = a' + b' := by
    simp [Gauge.total,netDrops,hasA,hasB,hadA,hadB]
  have diskTotals : diskIo.total snapshot = c + d ∧ diskIo.total previous = c' + d' := by
    simp [Gauge.total,diskIo,hasC,hasD,hadC,hadD]
  refine ⟨derived,by simp [computeSyntheticMetrics,filled,isNet,isDisk],fun key member => ?_,
    List.forall_mem_cons.mpr ⟨?_,List.forall_mem_singleton.mpr ?_⟩⟩
  · have apart : key ≠ "disk_io_mbps" ∧ key ≠ "net_drops_rate" ∧
        key ∉ ["cpu_load_per_core","swap_percent","file_handle_percent","app_sshd_fds_percent"] := by
      simp only [List.mem_cons,List.not_mem_nil,or_false] at member
      rcases member with rfl | rfl | rfl | rfl | rfl <;> decide
    rw [derivedOther key apart.1,netOther key apart.2.1,get?_shares apart.2.2]
  · rw [show netDrops.threshold.metric = "net_drops_rate" from rfl,derivedOther _ (by decide),← netIs]
    unfold Gauge.rate Gauge.grown
    rw [netTotals.1,netTotals.2,sameTime]
    split
    · exact OrderedMap.get?_set_self
    · exact (get?_shares (by decide)).trans (raw _ (by simp))
  · rw [show diskIo.threshold.metric = "disk_io_mbps" from rfl,← derivedIs]
    unfold Gauge.rate Gauge.grown
    rw [diskTotals.1,diskTotals.2,netTime]
    split
    · exact OrderedMap.get?_set_self
    · exact ((netOther _ (by decide)).trans (get?_shares (by decide))).trans (raw _ (by simp))

/-- A rate at the resolve level or below resolves the alert. -/
theorem stepped_resolved (isGauge : g ∈ [netDrops,diskIo]) {value : ℚ} (low : value ≤ g.resolveAt)
    (full : Bool) (current : Option Severity) : g.threshold.stepped value full current = none := by
  have calm : g.threshold.check value = none ∧ g.threshold.isResolved value = true := by
    simp only [List.mem_cons,List.not_mem_nil,or_false] at isGauge
    rcases isGauge with rfl | rfl
    · have low : value ≤ 3 := low
      have notWarning : ¬5 < value := by linarith
      have notCritical : ¬20 < value := by linarith
      simp [netDrops,AlertThreshold.check,AlertThreshold.cmp,Option.filter_some,AlertThreshold.isResolved,low,notWarning,notCritical]
    · have low : value ≤ 30 := low
      have notWarning : ¬50 < value := by linarith
      have notCritical : ¬200 < value := by linarith
      simp [diskIo,AlertThreshold.check,AlertThreshold.cmp,Option.filter_some,AlertThreshold.isResolved,low,notWarning,notCritical]
  cases current <;> simp [AlertThreshold.stepped,calm]

theorem gauge_builtin (isGauge : g ∈ [netDrops,diskIo]) : g.threshold ∈ builtinThresholds := by
  simp only [List.mem_cons,List.not_mem_nil,or_false] at isGauge
  rcases isGauge with rfl | rfl <;> simp [builtinThresholds,netDrops,diskIo]

section
variable {clock : Action → ℚ} {epoch : Nat} {node : String} {g : Gauge} {s : State} {stored previous snapshot : Snapshot}

section
variable (isGauge : g ∈ [netDrops,diskIo]) (same : SameCounters stored previous)
include isGauge same

theorem total_congr :
    g.total stored = g.total previous := by
  simp only [List.mem_cons,List.not_mem_nil,or_false] at isGauge
  unfold Gauge.total
  rcases isGauge with rfl | rfl <;> rw [same _ (by simp [netDrops,diskIo]),same _ (by simp [netDrops,diskIo])]

theorem grown_congr :
    g.grown stored snapshot = g.grown previous snapshot := by
  unfold Gauge.grown
  rw [total_congr isGauge same]

theorem rate_congr :
    g.rate stored snapshot = g.rate previous snapshot := by
  unfold Gauge.rate elapsed
  rw [grown_congr isGauge same,same "collected_at" (by simp)]

end

theorem counted_congr (same : SameCounters stored previous) (counted : Counted previous) : Counted stored :=
  fun counter member => by
    rw [same counter (List.mem_append_left ["collected_at"] member)]
    exact counted counter member

/-- One quiet report resolves the alert where the counters have grown, and only there. -/
theorem quiet_report (isGauge : g ∈ [netDrops,diskIo]) (known : s.memory.lastSnapshot.get? node = some stored)
    (same : SameCounters stored previous) (before : Counted previous) (counted : Counted snapshot) (raw : Raw snapshot)
    (quiet : g.Quiet previous snapshot) :
    Evaluates clock node (reportMetrics builtinThresholds epoch node snapshot) s fun result s' => result = .ok () ∧
      (∃ derived, s'.memory.lastSnapshot.get? node = some derived ∧ SameCounters derived snapshot) ∧
      s'.severity (node,g.threshold.name) =
        if 0 < g.grown previous snapshot then none else s.severity (node,g.threshold.name) := by
  obtain ⟨derived,computed,kept,rates⟩ := compute_counted counted (counted_congr same before) raw
  rw [← known] at computed
  refine (reportMetrics_evaluates builtin_distinct builtin_noReboot computed).mono ?_
  rintro _ s' ⟨isOk,remembered,each⟩
  refine ⟨isOk rfl,⟨derived,remembered,kept⟩,?_⟩
  rw [each _ (gauge_builtin isGauge)]
  have value := rates g isGauge
  rw [grown_congr isGauge same,rate_congr isGauge same] at value
  unfold AlertThreshold.after AlertThreshold.reported
  by_cases grows : 0 < g.grown previous snapshot
  · have low : g.rate previous snapshot ≤ g.resolveAt := quiet.resolve_left (not_le.mpr grows)
    simp only [value,grows,if_true,stepped_resolved isGauge low]
  · simp only [value,grows,if_false]

/-- The reports of a node one after the other, each with its clock. What else happens between two
of them leaves the alert and the node's snapshot alone. -/
def Reported (epoch : Nat) (node : String) (key : Key) : List (Snapshot × (Action → ℚ)) → State → (State → Prop) → Prop
  | [], s, post => post s
  | (snapshot,clock) :: rest, s, post =>
    ∀ between : State, between.severity key = s.severity key →
      between.memory.lastSnapshot.get? node = s.memory.lastSnapshot.get? node →
      Evaluates clock node (reportMetrics builtinThresholds epoch node snapshot) between fun result s' =>
        result = .ok () ∧ Reported epoch node key rest s' post

theorem Reported.mono {key : Key} {reports : List (Snapshot × (Action → ℚ))} {post weaker : State → Prop}
    (h : Reported epoch node key reports s post) (implies : ∀ s', post s' → weaker s') :
    Reported epoch node key reports s weaker := by
  induction reports generalizing s with
  | nil => exact implies s h
  | cons report rest ih =>
    intro between severe known
    exact (h between severe known).mono fun _ _ ended => ⟨ended.1,ih ended.2⟩

theorem recovery_from (isGauge : g ∈ [netDrops,diskIo]) (reports : List (Snapshot × (Action → ℚ)))
    (known : s.memory.lastSnapshot.get? node = some stored) (same : SameCounters stored previous)
    (before : Counted previous) (counted : ∀ report ∈ reports, Counted report.1 ∧ Raw report.1)
    (quiet : g.QuietRun previous (reports.map Prod.fst)) :
    Reported epoch node (node,g.threshold.name) reports s fun s' =>
      s'.severity (node,g.threshold.name) = none ↔
        s.severity (node,g.threshold.name) = none ∨ g.SomeGrew previous (reports.map Prod.fst) := by
  induction reports generalizing s stored previous with
  | nil => simp [Reported,Gauge.SomeGrew]
  | cons report rest ih =>
    obtain ⟨snapshot,clock⟩ := report
    obtain ⟨here,later⟩ := quiet
    obtain ⟨hasCounters,isRaw⟩ := counted _ List.mem_cons_self
    intro between severe remembered
    refine (quiet_report isGauge (remembered.trans known) same before hasCounters isRaw here).mono ?_
    rintro _ s₁ ⟨isOk,⟨derived,kept,sameDerived⟩,after⟩
    refine ⟨isOk,(ih kept sameDerived hasCounters (fun other member => counted other (List.mem_cons_of_mem _ member))
      later).mono fun s' whole => ?_⟩
    rw [whole,after,severe]
    simp only [List.map_cons,Gauge.SomeGrew]
    by_cases grows : 0 < g.grown previous snapshot <;> simp [grows]

/-- While the counters stand still, are reset or grow slowly, the alert of their rate is gone
after the reports exactly where it was before or some report has seen the counters grow. -/
theorem recovery_iff (g : Gauge) (isGauge : g ∈ [netDrops,diskIo]) (epoch : Nat) (node : String)
    (reports : List (Snapshot × (Action → ℚ))) (s : State) (previous : Snapshot)
    (known : s.memory.lastSnapshot.get? node = some previous) (before : Counted previous)
    (counted : ∀ report ∈ reports, Counted report.1 ∧ Raw report.1)
    (quiet : g.QuietRun previous (reports.map Prod.fst)) :
    Reported epoch node (node,g.threshold.name) reports s fun s' =>
      s'.severity (node,g.threshold.name) = none ↔
        s.severity (node,g.threshold.name) = none ∨ g.SomeGrew previous (reports.map Prod.fst) :=
  recovery_from isGauge reports known (fun _ _ => rfl) before counted quiet

def counters (drops bytes : ℚ) : Snapshot :=
  ⟨[("net_drops_in",drops),("net_drops_out",0),("disk_read_bytes",bytes),("disk_write_bytes",0),("collected_at",0)],
    by simp⟩

theorem counters_counted (drops bytes : ℚ) : Counted (counters drops bytes) := by
  simp [Counted,counters,OrderedMap.get?]

theorem counters_raw (drops bytes : ℚ) : Raw (counters drops bytes) := by
  simp [Raw,counters,OrderedMap.get?]

/-- Two more drops in a second, with the alert active before. -/
theorem recovery_iff_slow :
    ∃ s : State, s.severity ("n1",netDrops.threshold.name) = some .critical ∧
      Reported 0 "n1" ("n1",netDrops.threshold.name) [(counters 12 0,fun _ => 1)] s fun s' =>
        s'.severity ("n1",netDrops.threshold.name) = none ↔
          s.severity ("n1",netDrops.threshold.name) = none ∨ netDrops.SomeGrew (counters 10 0) [counters 12 0] := by
  refine ⟨⟨["n1"],.empty,1,⟨⟨[(("n1","network_drops_high"),⟨0,.critical,0⟩)],by simp⟩,
    ⟨[("n1",counters 10 0)],by simp⟩,.empty,.empty,.empty⟩,false,0⟩,rfl,?_⟩
  refine recovery_iff netDrops (by simp) 0 "n1" [(counters 12 0,fun _ => 1)] _ (counters 10 0) rfl (counters_counted 10 0)
    (fun report member => ?_) ⟨Or.inr (by decide +kernel),trivial⟩
  rw [List.mem_singleton.mp member]
  exact ⟨counters_counted 12 0,counters_raw 12 0⟩

/-- A thousand drops in a second, and no more after that. -/
theorem standstill_unresolved :
    ¬∀ g ∈ [netDrops,diskIo], ∀ (node : String) (reports : List (Snapshot × (Action → ℚ))) (last snapshot : Snapshot)
      (clock : Action → ℚ), (afterReports node reports).memory.lastSnapshot.get? node = some last →
      Counted last → Counted snapshot → Raw snapshot → g.Quiet last snapshot →
      (settle clock (reportMetrics builtinThresholds 0 node snapshot) (afterReports node reports)).severity
        (node,g.threshold.name) = none := by
  intro claimed
  have evaluated : ((afterReports "n1" [(counters 0 0,fun _ => 0),(counters 1000 0,fun _ => 1)]).memory.lastSnapshot.get?
      "n1").map (fun last => (decide (∀ counter ∈ ["net_drops_in","net_drops_out","disk_read_bytes","disk_write_bytes"],
        (last.get? counter).isSome),netDrops.grown last (counters 1000 0))) = some (true,0) := by
    decide +kernel
  obtain ⟨last,known,values⟩ := Option.map_eq_some_iff.mp evaluated
  obtain ⟨isCounted,grown⟩ := Prod.mk.inj values
  have counted := of_decide_eq_true isCounted
  have resolved := claimed netDrops (by simp) "n1" _ last (counters 1000 0) (fun _ => 2) known
    counted (counters_counted 1000 0) (counters_raw 1000 0) (Or.inl grown.le)
  revert resolved
  decide +kernel

end

end Vigile.Alerts
