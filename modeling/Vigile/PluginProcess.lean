import Vigile.Runs

/-! The subprocess of a plugin: concurrent calls that restart it, its reader tasks, and its stop. -/
namespace Vigile.PluginProcess

structure Process where
  live : Bool
  reaped : Bool

inductive Future (ρ : Type) where
  | pending
  | result (value : ρ)
  | exception

/-- A call of `call_hook`. A `registered` one has its future in `_pending_calls`, and has been sent or not. -/
inductive Call (ρ : Type) where
  | spawning
  | initializing (future : Nat)
  /-- In the `stop` that follows a timeout, which waits for that process. -/
  | stopping (process : Nat)
  | registered (sent : Bool) (future : Future ρ)
  | returned (value : ρ)
  | raised

/-- A task of `_read_stdout`. -/
inductive Reader where
  | created
  | reading (process : Nat)
  | ended
  deriving DecidableEq

inductive Init where
  | pending
  | done
  | failed
  deriving DecidableEq

/-- What a line says; one that does not parse is `other`. -/
inductive Line (ρ : Type) where
  | init
  | response (callId : Nat) (success : Bool) (result : ρ)
  | other

/-- The wrapper, with every process, reader, init future and call there was. Calls are named by their number;
`stops` are the processes that a call of `stop` waits for, and `answered` the successful responses read. -/
structure Wrapper (ρ : Type) where
  processes : List Process
  process : Option Nat
  readers : List Reader
  stdoutTask : Option Nat
  inits : List Init
  calls : List (Call ρ)
  stops : List Nat
  answered : List (Nat × ρ)

inductive Action (ρ : Type) where
  | callHook
  | spawned (c : Nat)
  | spawnFails (c : Nat)
  | initialized (c : Nat)
  | initTimeout (c : Nat)
  | sent (c : Nat)
  | sendFails (c : Nat)
  | resumes (c : Nat)
  | stop
  | stopEnds (i : Nat) (timedOut : Bool)
  | callStopEnds (c : Nat) (timedOut : Bool)
  | exits (p : Nat)
  | reaped (p : Nat)
  | readerBegins (r : Nat)
  | readLine (r : Nat) (line : Line ρ)
  | readEof (r : Nat)
  | readOverlong (r : Nat)
  /-- `readline` raises while another task waits for the same stream. -/
  | readClash (r other : Nat)

section

variable {ρ : Type}

def initial : Wrapper ρ := ⟨[],none,[],none,[],[],[],[]⟩

variable (s : Wrapper ρ)

def Wrapper.runs : Bool :=
  match s.process with
  | none => false
  | some p => match s.processes[p]? with
    | none => false
    | some process => !process.reaped

def Wrapper.setCall (c : Nat) (call : Call ρ) : Wrapper ρ := {s with calls := s.calls.set c call}

def Wrapper.setReader (r : Nat) (reader : Reader) : Wrapper ρ := {s with readers := s.readers.set r reader}

/-- The end of the current init future, unless it is done. -/
def Wrapper.setInit (init : Init) : Wrapper ρ :=
  if s.inits.getLast? = some .pending then {s with inits := s.inits.dropLast ++ [init]} else s

def Call.terminated : Call ρ → Call ρ
  | .registered sent .pending => .registered sent .exception
  | call => call

/-- After the loop of the reader. -/
def Wrapper.terminate : Wrapper ρ :=
  let s := s.setInit .failed
  {s with calls := s.calls.map Call.terminated}

def Wrapper.loop (r : Nat) : Wrapper ρ :=
  match s.process with
  | none => s.terminate.setReader r .ended
  | some p => s.setReader r (.reading p)

def Wrapper.receive : Line ρ → Wrapper ρ
  | .init => s.setInit .done
  | .response callId success result =>
    match s.calls[callId]? with
    | some (.registered sent .pending) =>
      if success then {s.setCall callId (.registered sent (.result result)) with answered := (callId,result) :: s.answered}
      else s.setCall callId (.registered sent .exception)
    | _ => s
  | .other => s

def Wrapper.register : Call ρ := .registered false .pending

/-- The end of `stop`. -/
def Wrapper.release : Wrapper ρ :=
  {s with process := none, readers := match s.stdoutTask with
    | none => s.readers
    | some r => s.readers.set r .ended}

def Wrapper.setProcess (p : Nat) (change : Process → Process) : Wrapper ρ :=
  match s.processes[p]? with
  | none => s
  | some process => {s with processes := s.processes.set p (change process)}

def Process.exit (process : Process) : Process := {process with live := false}

def Process.reap (process : Process) : Process := {process with reaped := process.reaped || !process.live}

def Wrapper.kill : Wrapper ρ :=
  match s.process with
  | none => s
  | some p => s.setProcess p Process.exit

/-- What follows the wait of `stop`, if that is over. -/
def Wrapper.stopped (p : Nat) (timedOut : Bool) : Option (Wrapper ρ) :=
  if timedOut then some s.kill.release
  else match s.processes[p]? with
    | some process => if process.reaped then some s.release else none
    | none => none

def next : Action ρ → Option (Wrapper ρ)
  | .callHook =>
    if s.runs then some {s with calls := s.calls ++ [Wrapper.register]}
    else some {s with calls := s.calls ++ [.spawning], inits := s.inits ++ [.pending]}
  | .spawned c =>
    match s.calls[c]? with
    | some .spawning => some {s.setCall c (.initializing (s.inits.length - 1)) with
        processes := s.processes ++ [⟨true,false⟩], process := some s.processes.length,
        readers := s.readers ++ [.created], stdoutTask := some s.readers.length}
    | _ => none
  | .spawnFails c =>
    match s.calls[c]? with
    | some .spawning => some (s.setCall c .raised)
    | _ => none
  | .initialized c =>
    match s.calls[c]? with
    | some (.initializing future) =>
      match s.inits[future]? with
      | some .done => some (s.setCall c Wrapper.register)
      | some .failed => some (s.setCall c .raised)
      | _ => none
    | _ => none
  | .initTimeout c =>
    match s.calls[c]? with
    | some (.initializing future) =>
      if s.inits[future]? = some .pending then
        let s := {s with inits := s.inits.set future .failed}
        match s.process with
        | some p => if s.runs then some (s.setCall c (.stopping p)) else some (s.release.setCall c .raised)
        | none => some (s.release.setCall c .raised)
      else none
    | _ => none
  | .sent c =>
    match s.calls[c]? with
    | some (.registered false future) => some (s.setCall c (.registered true future))
    | _ => none
  | .sendFails c =>
    match s.calls[c]? with
    | some (.registered false _) => some (s.setCall c .raised)
    | _ => none
  | .resumes c =>
    match s.calls[c]? with
    | some (.registered true (.result value)) => some (s.setCall c (.returned value))
    | some (.registered true .exception) => some (s.setCall c .raised)
    | _ => none
  | .stop =>
    match s.process with
    | some p => if s.runs then some {s with stops := s.stops ++ [p]} else some s.release
    | none => some s.release
  | .stopEnds i timedOut =>
    match s.stops[i]? with
    | some p => ({s with stops := s.stops.eraseIdx i} : Wrapper ρ).stopped p timedOut
    | none => none
  | .callStopEnds c timedOut =>
    match s.calls[c]? with
    | some (.stopping p) => (s.setCall c .raised).stopped p timedOut
    | _ => none
  | .exits p => some (s.setProcess p Process.exit)
  | .reaped p => some (s.setProcess p Process.reap)
  | .readerBegins r => if s.readers[r]? = some .created then some (s.loop r) else none
  | .readLine r line =>
    match s.readers[r]? with
    | some (.reading _) => some ((s.receive line).loop r)
    | _ => none
  | .readEof r =>
    match s.readers[r]? with
    | some (.reading _) => some (s.terminate.setReader r .ended)
    | _ => none
  | .readOverlong r =>
    match s.readers[r]? with
    | some (.reading _) => some (s.setReader r .ended)
    | _ => none
  | .readClash r other =>
    match s.readers[r]? with
    | some (.reading p) => if r ≠ other ∧ s.readers[other]? = some (.reading p) then some (s.setReader r .ended) else none
    | _ => none

def step (action : Action ρ) : Wrapper ρ := (next s action).getD s

/-! What is promised -/

def Call.isPending : Call ρ → Bool
  | .registered _ .pending => true
  | _ => false

/-- A future is pending. -/
def Wrapper.waits : Bool := s.calls.any Call.isPending

/-- The reader task has not ended. -/
def Wrapper.attended : Bool :=
  match s.stdoutTask with
  | none => false
  | some r => match s.readers[r]? with
    | none => false
    | some reader => reader ≠ .ended

/-- No future is pending without the reader, a call returns what was answered under its number, and one
process lives at most. -/
structure Sound : Prop where
  attended : s.waits = true → s.attended = true
  answered : ∀ (c : Nat) value, s.calls[c]? = some (.returned value) → (c,value) ∈ s.answered
  single : s.processes.countP (·.live) ≤ 1

def Meets : Action ρ → Prop
  | .callHook => s.runs = true → s.attended = true
  | .initialized c => ∀ future, s.calls[c]? = some (.initializing future) → s.inits[future]? = some .done → s.attended = true
  | .spawned _ => s.processes.countP (·.live) = 0
  | .stop | .initTimeout _ => s.runs = false → s.waits = false
  | .stopEnds _ _ | .callStopEnds _ _ => s.waits = false
  | .readOverlong r | .readClash r _ => s.stdoutTask = some r → s.waits = false
  | _ => True

/-- A call finds its reader at work, a reader ends without the end of the stream only while nothing is pending,
and a process is started when none lives. -/
def Orderly (action : Action ρ) : Prop := (next s action).isSome → Meets s action

variable {s} {c r p : Nat} {call old : Call ρ} {reader : Reader} {init : Init} {action : Action ρ}

theorem setInit_eq (init : Init) : ∃ inits, s.setInit init = {s with inits := inits} := by
  unfold Wrapper.setInit
  split
  · exact ⟨_,rfl⟩
  · exact ⟨s.inits,rfl⟩

theorem terminate_eq : ∃ inits, s.terminate = {s with inits := inits, calls := s.calls.map Call.terminated} := by
  obtain ⟨inits,same⟩ := @setInit_eq ρ s .failed
  exact ⟨inits,by rw [Wrapper.terminate,same]⟩

theorem setProcess_eq (p : Nat) {change : Process → Process} (mild : ∀ process, (change process).live = true → process.live = true) :
    ∃ processes, s.setProcess p change = {s with processes := processes} ∧
      processes.countP (·.live) ≤ s.processes.countP (·.live) := by
  unfold Wrapper.setProcess
  split
  · exact ⟨s.processes,rfl,Nat.le_refl _⟩
  · rename_i process found
    refine ⟨_,rfl,?_⟩
    obtain ⟨inside,here⟩ := List.getElem?_eq_some_iff.mp found
    have least : (if process.live then 1 else 0) ≤ s.processes.countP (·.live) :=
      here ▸ List.boole_getElem_le_countP (p := fun process => process.live) inside
    rw [List.countP_set inside,here]
    cases lives : (change process).live with
    | false => simp
    | true =>
      rw [if_pos (mild process lives)] at least ⊢
      exact Nat.le_of_eq (Nat.sub_add_cancel least)

theorem exit_mild (process : Process) (lives : process.exit.live = true) : process.live = true := by cases lives

theorem reap_mild (process : Process) (lives : process.reap.live = true) : process.live = true := lives

theorem kill_eq : ∃ processes, s.kill = {s with processes := processes} ∧ processes.countP (·.live) ≤ s.processes.countP (·.live) := by
  unfold Wrapper.kill
  split
  · exact ⟨s.processes,rfl,Nat.le_refl _⟩
  · exact setProcess_eq _ exit_mild

/-- A line ends no reader and starts no future. -/
theorem receive_eq (line : Line ρ) : ∃ inits calls answered, s.receive line = {s with inits := inits, calls := calls, answered := answered} ∧
    (calls.any Call.isPending = true → s.waits = true) := by
  unfold Wrapper.receive
  split
  · obtain ⟨inits,same⟩ := @setInit_eq ρ s .done
    exact ⟨inits,s.calls,s.answered,same,id⟩
  · rename_i callId success result
    split
    · rename_i sent found
      have waited : s.waits = true := List.any_eq_true.mpr ⟨_,List.mem_of_getElem? found,rfl⟩
      split
      · exact ⟨s.inits,_,_,rfl,fun _ => waited⟩
      · exact ⟨s.inits,_,s.answered,rfl,fun _ => waited⟩
    · exact ⟨s.inits,s.calls,s.answered,rfl,id⟩
  · exact ⟨s.inits,s.calls,s.answered,rfl,id⟩

theorem waits_setCall (found : s.calls[c]? = some old) (mild : call.isPending = true → old.isPending = true)
    (waits : (s.setCall c call).waits = true) : s.waits = true := by
  obtain ⟨other,member,pending⟩ := List.any_eq_true.mp waits
  rcases List.mem_or_eq_of_mem_set member with was | rfl
  · exact List.any_eq_true.mpr ⟨other,was,pending⟩
  · exact List.any_eq_true.mpr ⟨old,List.mem_of_getElem? found,mild pending⟩

/-- The end of a call that had no future. -/
theorem waits_raised (found : s.calls[c]? = some old) (other : old.isPending = false) : (s.setCall c .raised).waits = s.waits := by
  obtain ⟨inside,here⟩ := List.getElem?_eq_some_iff.mp found
  have raised : (s.setCall c .raised).calls[c]? = some .raised := List.getElem?_set_self inside
  have back : (s.setCall c .raised).setCall c old = s := by
    simp [Wrapper.setCall,← here]
  refine Bool.eq_iff_iff.mpr ⟨waits_setCall found (fun pending => by cases pending),fun waits => ?_⟩
  refine @waits_setCall ρ (s.setCall c .raised) c old .raised raised (fun pending => ?_) (back.symm ▸ waits)
  rw [other] at pending
  cases pending

theorem waits_terminate : s.terminate.waits = false := by
  obtain ⟨inits,same⟩ := @terminate_eq ρ s
  rw [same]
  refine Bool.eq_false_iff.mpr fun waits => ?_
  obtain ⟨call,member,pending⟩ := List.any_eq_true.mp waits
  obtain ⟨old,-,rfl⟩ := List.mem_map.mp member
  unfold Call.terminated at pending
  split at pending
  · cases pending
  · rename_i other
    unfold Call.isPending at pending
    split at pending
    · exact other _ rfl
    · cases pending

theorem attended_release : s.release.attended = false := by
  unfold Wrapper.attended Wrapper.release
  cases task : s.stdoutTask with
  | none => rfl
  | some r =>
    simp only [List.getElem?_set_self']
    cases s.readers[r]? <;> rfl

theorem attended_setReader (r : Nat) (alive : reader ≠ .ended) (attended : s.attended = true) : (s.setReader r reader).attended = true := by
  unfold Wrapper.attended Wrapper.setReader at *
  cases task : s.stdoutTask with
  | none => simp [task] at attended
  | some other =>
    simp only [task] at attended ⊢
    by_cases same : other = r
    · subst same
      rw [List.getElem?_set_self']
      cases found : s.readers[other]? with
      | none => simp [found] at attended
      | some => simp [alive]
    · rwa [List.getElem?_set_ne (Ne.symm same)]

theorem attended_ended (r : Nat) : (s.setReader r .ended).attended = (s.attended && s.stdoutTask ≠ some r) := by
  unfold Wrapper.attended Wrapper.setReader
  cases task : s.stdoutTask with
  | none => rfl
  | some other =>
    simp only
    by_cases same : other = r
    · subst same
      rw [List.getElem?_set_self']
      cases found : s.readers[other]? <;> simp
    · rw [List.getElem?_set_ne (Ne.symm same)]
      simp [same]

/-- What an action comes to where it is possible, one case for each way through the source. -/
inductive Goes (s : Wrapper ρ) : Action ρ → Wrapper ρ → Prop where
  | calls (runs : s.runs = true) : Goes s .callHook {s with calls := s.calls ++ [Wrapper.register]}
  | restarts (dead : s.runs = false) :
      Goes s .callHook {s with calls := s.calls ++ [.spawning], inits := s.inits ++ [.pending]}
  | spawned {c : Nat} (found : s.calls[c]? = some .spawning) :
      Goes s (.spawned c) {s.setCall c (.initializing (s.inits.length - 1)) with
        processes := s.processes ++ [⟨true,false⟩], process := some s.processes.length,
        readers := s.readers ++ [.created], stdoutTask := some s.readers.length}
  | spawnFails {c : Nat} (found : s.calls[c]? = some .spawning) : Goes s (.spawnFails c) (s.setCall c .raised)
  | initialized {c future : Nat} (found : s.calls[c]? = some (.initializing future)) (done : s.inits[future]? = some .done) :
      Goes s (.initialized c) (s.setCall c Wrapper.register)
  | initFails {c future : Nat} (found : s.calls[c]? = some (.initializing future)) (failed : s.inits[future]? = some .failed) :
      Goes s (.initialized c) (s.setCall c .raised)
  | initStops {c future p : Nat} (found : s.calls[c]? = some (.initializing future))
      (pending : s.inits[future]? = some .pending) (process : s.process = some p) (runs : s.runs = true) :
      Goes s (.initTimeout c) (({s with inits := s.inits.set future .failed} : Wrapper ρ).setCall c (.stopping p))
  | initTimeout {c future : Nat} (found : s.calls[c]? = some (.initializing future))
      (pending : s.inits[future]? = some .pending) (dead : s.runs = false) :
      Goes s (.initTimeout c) (({s with inits := s.inits.set future .failed} : Wrapper ρ).release.setCall c .raised)
  | sent {c : Nat} {future : Future ρ} (found : s.calls[c]? = some (.registered false future)) :
      Goes s (.sent c) (s.setCall c (.registered true future))
  | sendFails {c : Nat} {future : Future ρ} (found : s.calls[c]? = some (.registered false future)) :
      Goes s (.sendFails c) (s.setCall c .raised)
  | returns {c : Nat} {value : ρ} (found : s.calls[c]? = some (.registered true (.result value))) :
      Goes s (.resumes c) (s.setCall c (.returned value))
  | refused {c : Nat} (found : s.calls[c]? = some (.registered true .exception)) : Goes s (.resumes c) (s.setCall c .raised)
  | stops {p : Nat} (process : s.process = some p) (runs : s.runs = true) : Goes s .stop {s with stops := s.stops ++ [p]}
  | stopsDead (dead : s.runs = false) : Goes s .stop s.release
  | stopEnds {i : Nat} {timedOut : Bool} {p : Nat} {s' : Wrapper ρ} (found : s.stops[i]? = some p)
      (stopped : ({s with stops := s.stops.eraseIdx i} : Wrapper ρ).stopped p timedOut = some s') :
      Goes s (.stopEnds i timedOut) s'
  | callStopEnds {c : Nat} {timedOut : Bool} {p : Nat} {s' : Wrapper ρ} (found : s.calls[c]? = some (.stopping p))
      (stopped : (s.setCall c .raised).stopped p timedOut = some s') : Goes s (.callStopEnds c timedOut) s'
  | exits (p : Nat) : Goes s (.exits p) (s.setProcess p Process.exit)
  | reaped (p : Nat) : Goes s (.reaped p) (s.setProcess p Process.reap)
  | begins {r : Nat} (found : s.readers[r]? = some .created) : Goes s (.readerBegins r) (s.loop r)
  | readLine {r p : Nat} {line : Line ρ} (found : s.readers[r]? = some (.reading p)) :
      Goes s (.readLine r line) ((s.receive line).loop r)
  | readEof {r p : Nat} (found : s.readers[r]? = some (.reading p)) : Goes s (.readEof r) (s.terminate.setReader r .ended)
  | readOverlong {r p : Nat} (found : s.readers[r]? = some (.reading p)) : Goes s (.readOverlong r) (s.setReader r .ended)
  | readClash {r other p : Nat} (found : s.readers[r]? = some (.reading p))
      (clash : r ≠ other ∧ s.readers[other]? = some (.reading p)) : Goes s (.readClash r other) (s.setReader r .ended)

theorem runs_of_none (none_ : s.process = none) : s.runs = false := by
  simp [Wrapper.runs,none_]

theorem goes_of_next {s' : Wrapper ρ} (possible : next s action = some s') : Goes s action s' := by
  cases action with
  | callHook =>
    simp only [next] at possible
    split at possible
    · rename_i runs
      obtain rfl := Option.some.inj possible
      exact .calls runs
    · rename_i dead
      obtain rfl := Option.some.inj possible
      exact .restarts (Bool.eq_false_iff.mpr dead)
  | spawned c =>
    simp only [next] at possible
    split at possible
    · rename_i found
      obtain rfl := Option.some.inj possible
      exact .spawned found
    · cases possible
  | spawnFails c =>
    simp only [next] at possible
    split at possible
    · rename_i found
      obtain rfl := Option.some.inj possible
      exact .spawnFails found
    · cases possible
  | initialized c =>
    simp only [next] at possible
    split at possible
    · rename_i future found
      split at possible
      · rename_i done
        obtain rfl := Option.some.inj possible
        exact .initialized found done
      · rename_i failed
        obtain rfl := Option.some.inj possible
        exact .initFails found failed
      · cases possible
    · cases possible
  | initTimeout c =>
    simp only [next] at possible
    split at possible
    · rename_i future found
      split at possible
      · rename_i pending
        split at possible
        · rename_i p process
          split at possible
          · rename_i runs
            obtain rfl := Option.some.inj possible
            exact .initStops found pending process runs
          · rename_i dead
            obtain rfl := Option.some.inj possible
            exact .initTimeout found pending (Bool.eq_false_iff.mpr dead)
        · rename_i none_
          obtain rfl := Option.some.inj possible
          exact .initTimeout found pending (runs_of_none none_)
      · cases possible
    · cases possible
  | sent c =>
    simp only [next] at possible
    split at possible
    · rename_i found
      obtain rfl := Option.some.inj possible
      exact .sent found
    · cases possible
  | sendFails c =>
    simp only [next] at possible
    split at possible
    · rename_i found
      obtain rfl := Option.some.inj possible
      exact .sendFails found
    · cases possible
  | resumes c =>
    simp only [next] at possible
    split at possible
    · rename_i found
      obtain rfl := Option.some.inj possible
      exact .returns found
    · rename_i found
      obtain rfl := Option.some.inj possible
      exact .refused found
    · cases possible
  | stop =>
    simp only [next] at possible
    split at possible
    · rename_i p process
      split at possible
      · rename_i runs
        obtain rfl := Option.some.inj possible
        exact .stops process runs
      · rename_i dead
        obtain rfl := Option.some.inj possible
        exact .stopsDead (Bool.eq_false_iff.mpr dead)
    · rename_i none_
      obtain rfl := Option.some.inj possible
      exact .stopsDead (runs_of_none none_)
  | stopEnds i timedOut =>
    simp only [next] at possible
    split at possible
    · rename_i found
      exact .stopEnds found possible
    · cases possible
  | callStopEnds c timedOut =>
    simp only [next] at possible
    split at possible
    · rename_i found
      exact .callStopEnds found possible
    · cases possible
  | exits p =>
    obtain rfl := Option.some.inj possible
    exact .exits p
  | reaped p =>
    obtain rfl := Option.some.inj possible
    exact .reaped p
  | readerBegins r =>
    simp only [next] at possible
    split at possible
    · rename_i found
      obtain rfl := Option.some.inj possible
      exact .begins found
    · cases possible
  | readLine r line =>
    simp only [next] at possible
    split at possible
    · rename_i found
      obtain rfl := Option.some.inj possible
      exact .readLine found
    · cases possible
  | readEof r =>
    simp only [next] at possible
    split at possible
    · rename_i found
      obtain rfl := Option.some.inj possible
      exact .readEof found
    · cases possible
  | readOverlong r =>
    simp only [next] at possible
    split at possible
    · rename_i found
      obtain rfl := Option.some.inj possible
      exact .readOverlong found
    · cases possible
  | readClash r other =>
    simp only [next] at possible
    split at possible
    · rename_i found
      split at possible
      · rename_i clash
        obtain rfl := Option.some.inj possible
        exact .readClash found clash
      · cases possible
    · cases possible

/-- What is promised beside the answers. -/
def Core (s : Wrapper ρ) : Prop := (s.waits = true → s.attended = true) ∧ s.processes.countP (·.live) ≤ 1

section
variable (core : Core s)
include core

theorem core_of {s' : Wrapper ρ} (waits : s'.waits = true → s.waits = true)
    (attended : s.attended = true → s'.attended = true)
    (lives : s'.processes.countP (·.live) ≤ s.processes.countP (·.live)) : Core s' :=
  ⟨fun waiting => attended (core.1 (waits waiting)),Nat.le_trans lives core.2⟩

theorem core_setCall (found : s.calls[c]? = some old) (mild : call.isPending = true → old.isPending = true) :
    Core (s.setCall c call) :=
  core_of core (waits_setCall found mild) id (Nat.le_refl _)

/-- Where the reader ends, nothing may be pending. -/
theorem core_unattended {s' : Wrapper ρ} (ended : s'.attended = false) (waits : s'.waits = s.waits)
    (lives : s'.processes.countP (·.live) ≤ s.processes.countP (·.live)) : Core s' ↔ s.waits = false := by
  constructor
  · intro next
    refine Bool.eq_false_iff.mpr fun waiting => ?_
    have attended := next.1 (waits.trans waiting)
    rw [ended] at attended
    cases attended
  · intro silent
    refine ⟨fun waiting => ?_,Nat.le_trans lives core.2⟩
    rw [waits,silent] at waiting
    cases waiting

theorem core_terminate (r : Nat) : Core (s.terminate.setReader r .ended) := by
  obtain ⟨inits,same⟩ := @terminate_eq ρ s
  have silent := @waits_terminate ρ s
  rw [same] at silent ⊢
  refine ⟨fun waiting => ?_,core.2⟩
  cases silent.symm.trans waiting

theorem core_loop (r : Nat) : Core (s.loop r) := by
  unfold Wrapper.loop
  split
  · exact core_terminate core r
  · exact core_of core id (attended_setReader r (by simp)) (Nat.le_refl _)

theorem core_receive (line : Line ρ) : Core (s.receive line) := by
  obtain ⟨inits,calls,answered,same,waits⟩ := @receive_eq ρ s line
  rw [same]
  exact core_of core waits id (Nat.le_refl _)

theorem core_ended (r : Nat) : Core (s.setReader r .ended) ↔ (s.stdoutTask = some r → s.waits = false) := by
  by_cases here : s.stdoutTask = some r
  · have ended : (s.setReader r .ended).attended = false := by simp [attended_ended,here]
    exact (core_unattended core ended rfl (Nat.le_refl _)).trans (by simp [here])
  · refine iff_of_true (core_of core id (fun attended => ?_) (Nat.le_refl _)) fun there => absurd there here
    rw [attended_ended,attended]
    simpa using here

theorem core_release : Core s.release ↔ s.waits = false :=
  core_unattended core attended_release rfl (Nat.le_refl _)

theorem core_stopped {timedOut : Bool} {s' : Wrapper ρ} (stopped : s.stopped p timedOut = some s') :
    Core s' ↔ s.waits = false := by
  unfold Wrapper.stopped at stopped
  split at stopped
  · obtain rfl := Option.some.inj stopped
    obtain ⟨processes,same,fewer⟩ := @kill_eq ρ s
    rw [same]
    exact core_unattended core attended_release rfl fewer
  · split at stopped
    · split at stopped
      · obtain rfl := Option.some.inj stopped
        exact core_release core
      · cases stopped
    · cases stopped

theorem core_register : Core {s with calls := s.calls ++ [Wrapper.register]} ↔ s.attended = true := by
  have waiting : ({s with calls := s.calls ++ [Wrapper.register]} : Wrapper ρ).waits = true := by
    simp [Wrapper.waits,Wrapper.register,Call.isPending]
  exact ⟨fun next => next.1 waiting,fun attended => ⟨fun _ => attended,core.2⟩⟩

theorem core_initialized (found : s.calls[c]? = some old) : Core (s.setCall c Wrapper.register) ↔ s.attended = true := by
  obtain ⟨inside,-⟩ := List.getElem?_eq_some_iff.mp found
  have waiting : (s.setCall c Wrapper.register).waits = true :=
    List.any_eq_true.mpr ⟨Wrapper.register,List.mem_set inside Wrapper.register,rfl⟩
  exact ⟨fun next => next.1 waiting,fun attended => ⟨fun _ => attended,core.2⟩⟩

theorem core_step (action : Action ρ) : Core (step s action) ↔ Orderly s action := by
  unfold step Orderly
  cases possible : next s action with
  | none => exact iff_of_true core fun some_ => by cases some_
  | some s' =>
    simp only [Option.getD_some,Option.isSome_some,true_implies]
    have raised {c : Nat} {old : Call ρ} (found : s.calls[c]? = some old) : Core (s.setCall c .raised) :=
      core_setCall core found fun pending => by cases pending
    cases goes_of_next possible with
    | calls runs => exact (core_register core).trans (by simp [Meets,runs])
    | restarts dead =>
      refine iff_of_true (core_of core (fun waits => ?_) id (Nat.le_refl _)) fun runs => by cases dead.symm.trans runs
      simpa [Wrapper.waits,Call.isPending] using waits
    | spawned found =>
      simp only [Meets,Core,List.countP_append,List.countP_singleton,if_true]
      constructor
      · exact fun next => by omega
      · intro none_
        refine ⟨fun _ => ?_,by omega⟩
        simp [Wrapper.attended]
    | spawnFails found | sendFails found | refused found => exact iff_of_true (raised found) trivial
    | initialized found done => exact (core_initialized core found).trans (by simp [Meets,found,done])
    | initFails found failed => exact iff_of_true (raised found) (by simp [Meets,found,failed])
    | @initStops c future p found pending process runs =>
      have timed : Core ({s with inits := s.inits.set future .failed} : Wrapper ρ) := core
      exact iff_of_true (core_setCall timed found fun pending => by cases pending) (by simp [Meets,runs])
    | @initTimeout c future found pending dead =>
      have timed : Core ({s with inits := s.inits.set future .failed} : Wrapper ρ) := core
      have raised : Core (({s with inits := s.inits.set future .failed} : Wrapper ρ).setCall c .raised) :=
        core_setCall timed found fun pending => by cases pending
      have released := core_release raised
      rw [waits_raised (s := {s with inits := s.inits.set future .failed}) found rfl] at released
      exact released.trans (by simp [Meets,dead,Wrapper.waits])
    | @sent c future found => exact iff_of_true (core_setCall core found fun pending => by cases future <;> exact pending) trivial
    | returns found => exact iff_of_true (core_setCall core found fun pending => by cases pending) trivial
    | stops process runs => exact iff_of_true (core_of core id id (Nat.le_refl _)) (by simp [Meets,runs])
    | stopsDead dead => exact (core_release core).trans (by simp [Meets,dead])
    | @stopEnds i timedOut p _ found stopped =>
      have same : Core ({s with stops := s.stops.eraseIdx i} : Wrapper ρ) := core
      exact core_stopped same stopped
    | callStopEnds found stopped =>
      exact (core_stopped (raised found) stopped).trans (by rw [waits_raised found rfl]; rfl)
    | exits p =>
      obtain ⟨processes,same,fewer⟩ := @setProcess_eq ρ s p _ exit_mild
      rw [same]
      exact iff_of_true (core_of core id id fewer) trivial
    | reaped p =>
      obtain ⟨processes,same,fewer⟩ := @setProcess_eq ρ s p _ reap_mild
      rw [same]
      exact iff_of_true (core_of core id id fewer) trivial
    | begins found => exact iff_of_true (core_loop core _) trivial
    | readLine found => exact iff_of_true (core_loop (core_receive core _) _) trivial
    | readEof found => exact iff_of_true (core_terminate core _) trivial
    | readOverlong found | readClash found clash => exact core_ended core _

end

def Call.value : Call ρ → Option ρ
  | .registered _ (.result value) => some value
  | .returned value => some value
  | _ => none

/-- A call is answered under its number. -/
def Honest (s : Wrapper ρ) : Prop :=
  ∀ (c : Nat) call value, s.calls[c]? = some call → call.value = some value → (c,value) ∈ s.answered

section
variable (honest : Honest s)
include honest

theorem honest_setCall (found : s.calls[c]? = some old) (same : ∀ value, call.value = some value → old.value = some value) :
    Honest (s.setCall c call) := by
  intro other now value here valued
  by_cases equal : other = c
  · subst equal
    obtain ⟨inside,-⟩ := List.getElem?_eq_some_iff.mp found
    obtain rfl : call = now := Option.some.inj ((List.getElem?_set_self inside).symm.trans here)
    exact honest other old value found (same value valued)
  · rw [Wrapper.setCall,List.getElem?_set_ne (Ne.symm equal)] at here
    exact honest other now value here valued

theorem honest_append {call : Call ρ} (fresh : call.value = none) (inits : List Init) :
    Honest {s with calls := s.calls ++ [call], inits := inits} := by
  intro c now value here valued
  rcases Nat.lt_or_ge c s.calls.length with old | new
  · exact honest c now value ((List.getElem?_append_left old).symm.trans here) valued
  · have listed : now ∈ [call] := List.mem_of_getElem? ((List.getElem?_append_right new).symm.trans here)
    rw [List.mem_singleton.mp listed,fresh] at valued
    cases valued

theorem honest_terminate : Honest s.terminate := by
  obtain ⟨inits,same⟩ := @terminate_eq ρ s
  rw [same]
  intro c now value here valued
  rw [List.getElem?_map] at here
  obtain ⟨old,found,rfl⟩ := Option.map_eq_some_iff.mp here
  refine honest c old value found ?_
  unfold Call.terminated at valued
  split at valued
  · cases valued
  · exact valued

theorem honest_loop (r : Nat) : Honest (s.loop r) := by
  unfold Wrapper.loop
  split
  · exact honest_terminate honest
  · exact honest

theorem honest_receive (line : Line ρ) : Honest (s.receive line) := by
  unfold Wrapper.receive
  split
  · obtain ⟨inits,same⟩ := @setInit_eq ρ s .done
    rw [same]
    exact honest
  · rename_i callId success result
    split
    · rename_i sent found
      split
      · intro c call value here valued
        by_cases equal : c = callId
        · subst equal
          obtain ⟨inside,-⟩ := List.getElem?_eq_some_iff.mp found
          obtain rfl : Call.registered sent (.result result) = call :=
            Option.some.inj ((List.getElem?_set_self inside).symm.trans here)
          obtain rfl : result = value := Option.some.inj valued
          exact List.mem_cons_self
        · have kept : s.calls[c]? = some call := (List.getElem?_set_ne (Ne.symm equal)).symm.trans here
          exact .tail _ (honest c call value kept valued)
      · exact honest_setCall honest found fun value valued => by cases valued
    · exact honest
  · exact honest

theorem honest_kill : Honest s.kill.release := by
  obtain ⟨processes,same,-⟩ := @kill_eq ρ s
  rw [same]
  exact honest

theorem honest_stopped {timedOut : Bool} {s' : Wrapper ρ} (stopped : s.stopped p timedOut = some s') : Honest s' := by
  unfold Wrapper.stopped at stopped
  split at stopped
  · obtain rfl := Option.some.inj stopped
    exact honest_kill honest
  · split at stopped
    · split at stopped
      · obtain rfl := Option.some.inj stopped
        exact honest
      · cases stopped
    · cases stopped

theorem honest_setProcess (p : Nat) {change : Process → Process}
    (mild : ∀ process, (change process).live = true → process.live = true) : Honest (s.setProcess p change) := by
  obtain ⟨processes,same,-⟩ := @setProcess_eq ρ s p _ mild
  rw [same]
  exact honest

theorem next_honest {s' : Wrapper ρ} (possible : next s action = some s') : Honest s' := by
  have fresh {c : Nat} {old call : Call ρ} (found : s.calls[c]? = some old) (new : call.value = none) : Honest (s.setCall c call) :=
    honest_setCall honest found fun value valued => by cases new.symm.trans valued
  cases goes_of_next possible with
  | calls runs | restarts dead => exact honest_append honest rfl _
  | spawned found | spawnFails found | sendFails found | refused found | initFails found failed => exact fresh found rfl
  | initialized found done | initStops found pending process runs => exact fresh found rfl
  | initTimeout found pending dead => exact fresh found rfl
  | @sent c future found => exact honest_setCall honest found fun value valued => by cases future <;> exact valued
  | returns found => exact honest_setCall honest found fun value valued => valued
  | stops process runs | stopsDead dead | readOverlong found | readClash found clash => exact honest
  | @stopEnds i timedOut p _ found stopped =>
    have same : Honest ({s with stops := s.stops.eraseIdx i} : Wrapper ρ) := honest
    exact honest_stopped same stopped
  | callStopEnds found stopped => exact honest_stopped (fresh found rfl) stopped
  | exits p => exact honest_setProcess honest p exit_mild
  | reaped p => exact honest_setProcess honest p reap_mild
  | begins found => exact honest_loop honest _
  | readLine found => exact honest_loop (honest_receive honest _) _
  | readEof found => exact honest_terminate honest

end

theorem step_honest (s : Wrapper ρ) (action : Action ρ) (honest : Honest s) : Honest (step s action) := by
  unfold step
  cases possible : next s action with
  | none => exact honest
  | some s' => exact next_honest honest possible

theorem sound_of_core (honest : Honest s) : Sound s ↔ Core s :=
  ⟨fun sound => ⟨sound.attended,sound.single⟩,
    fun core => ⟨core.1,fun c value returned => honest c _ value returned rfl,core.2⟩⟩

theorem step_sound (s : Wrapper ρ) (action : Action ρ) (honest : Honest s) (sound : Sound s) :
    Sound (step s action) ↔ Orderly s action :=
  (sound_of_core (step_honest s action honest)).trans (core_step ((sound_of_core honest).mp sound) action)

theorem honest_initial : Honest (initial : Wrapper ρ) := fun c call value found => by cases found

/-- The wrapper is sound throughout exactly the runs whose steps are orderly. -/
theorem sound_throughout_iff (actions : List (Action ρ)) :
    Runs.Throughout step Sound initial actions ↔ Runs.Along step Orderly initial actions := by
  have first : Sound (initial : Wrapper ρ) := by
    refine (sound_of_core honest_initial).mpr ⟨(fun waits => by cases waits),?_⟩
    simp [initial]
  exact Runs.throughout_iff_along step_honest step_sound actions honest_initial first

/-- A line beyond the limit ends the reader under a pending call. -/
theorem not_sound_overlong : ¬∀ actions : List (Action Nat), Runs.Throughout step Sound initial actions := by
  intro sound
  have reached := (sound [.callHook,.spawned 0,.readerBegins 0,.readLine 0 .init,.initialized 0,.sent 0,.readOverlong 0]).last
  have attended := reached.attended (by decide)
  cases attended

end

end Vigile.PluginProcess
