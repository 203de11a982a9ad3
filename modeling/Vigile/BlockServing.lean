import Vigile.BlockData
import Vigile.Runs

/-! What the hooks of useBlockData expose: data the server has returned for the command they are rendered with. -/
namespace Vigile.BlockData

open JsonText

/-! What is promised -/

/-- The server has returned the data for the name and the params of the command, `force_refresh` aside. -/
def Served (served : List Answer) (command : Command) (data : Option Value) : Prop :=
  ∃ answer ∈ served, answer.command = command.command ∧ answer.params.plain = command.given.plain ∧ answer.data = data

def Exposes (served : List Answer) (command : Option Command) (data : Option Value) : Prop :=
  ∀ value, data = some value → ∃ cmd, command = some cmd ∧ Served served cmd (some value)

structure Sound (s : Page) : Prop where
  exposed : ∀ hook ∈ s.hooks, hook.phase = .settled → Exposes s.served hook.props.command hook.data
  cached : ∀ key entry, s.cache.get? key = some entry → (∃ command, stableCacheKey command = key) ∧
    ∀ command, stableCacheKey command = key → Served s.served command entry.data

/-- The answer to a request that is not aborted has a result for its command, of the revision it was sent with. -/
def Fulfils (hook : Hook) (request : Request) (response : Response) : Prop :=
  request.aborted = false ∧ ∃ results revision result, response = .full results revision ∧
    revisionsDiffer request.capturedRevision hook.revisionRef = false ∧
    (results.find? fun result => result.command = request.command.command) = some result ∧ result.status = 200

/-- A request that is fulfilled has the params of its command, and effects that send no request find none under way for
another command. -/
def Faithful (s : Page) : Action → Prop
  | .respond r response _ => ∀ request hook, s.requests[r]? = some request → s.hooks[request.hook]? = some hook →
    request.pending = true → Fulfils hook request response → request.params.plain = request.command.given.plain
  | .effects i now => ∀ hook, s.hooks[i]? = some hook → hook.phase = .cleaned →
    (∀ cmd, hook.props.command = some cmd → fresh s.cache cmd hook.props.revalidateInterval now = true) →
    ∀ request ∈ s.requests, request.live = true → request.hook = i →
      hook.props.commandKey = some (stableCacheKey request.command)
  | _ => True

def Single (requests : List Request) (i : Nat) (hook : Hook) : Prop :=
  ∀ (r : Nat) (request : Request), requests[r]? = some request → request.live = true → request.hook = i →
    hook.activeController = some r

def Current (requests : List Request) (i : Nat) (hook : Hook) : Prop :=
  ∀ (r : Nat) (request : Request), requests[r]? = some request → request.live = true → request.hook = i →
    hook.commandRef.map stableCacheKey = some (stableCacheKey request.command)

structure Coherent (served : List Answer) (hook : Hook) : Prop where
  exposed : Exposes served hook.commandRef hook.data
  ran : ∀ deps, hook.lifecycleDeps = some deps → deps.1 = hook.commandRef.map stableCacheKey
  cleaned : hook.phase = .cleaned → ∀ deps, hook.lifecycleDeps = some deps → deps = hook.props.lifecycleDeps
  settled : hook.phase = .settled → hook.commandRef = hook.props.command

structure Kept (s : Page) : Prop where
  cached : ∀ key entry, s.cache.get? key = some entry →
    ∃ command, stableCacheKey command = key ∧ Served s.served command entry.data
  coherent : ∀ hook ∈ s.hooks, Coherent s.served hook
  single : ∀ i hook, s.hooks[i]? = some hook → Single s.requests i hook
  current : ∀ i hook, s.hooks[i]? = some hook → Current s.requests i hook
  known : ∀ request ∈ s.requests, request.hook < s.hooks.length

variable {s : Page} {i j r : Nat} {hook after : Hook} {requests later : List Request} {request : Request}
  {served more : List Answer} {command other : Command} {data : Option Value} {key : List Char} {entry : CacheEntry}
  {response : Response} {now : Int} {action : Action}

theorem served_of_key (same : stableCacheKey command = stableCacheKey other) (was : Served served command data) :
    Served served other data := by
  obtain ⟨answer,member,name,params,returned⟩ := was
  obtain ⟨names,json⟩ := stableCacheKey_unique same
  exact ⟨answer,member,name.trans names,params.trans (plain_of_json json),returned⟩

theorem exposes_of_key {first second : Option Command} (same : first.map stableCacheKey = second.map stableCacheKey)
    (was : Exposes served first data) : Exposes served second data := by
  intro value here
  obtain ⟨cmd,rfl,found⟩ := was value here
  obtain ⟨other,rfl,equal⟩ := Option.map_eq_some_iff.mp same.symm
  exact ⟨other,rfl,served_of_key equal.symm found⟩

theorem served_append (was : Served served command data) : Served (served ++ more) command data := by
  obtain ⟨answer,member,rest⟩ := was
  exact ⟨answer,List.mem_append_left more member,rest⟩

theorem coherent_append (was : Coherent served hook) : Coherent (served ++ more) hook where
  exposed := fun value here => (was.exposed value here).imp fun _ found => ⟨found.1,served_append found.2⟩
  ran := was.ran
  cleaned := was.cleaned
  settled := was.settled

/-- Whatever else changes, a hook that keeps its render and its command may show what was returned for it. -/
theorem coherent_showing (coherent : Coherent served hook) (exposed : Exposes served after.commandRef after.data)
    (command : after.commandRef = hook.commandRef) (deps : after.lifecycleDeps = hook.lifecycleDeps)
    (props : after.props = hook.props) (phase : after.phase = hook.phase) : Coherent served after where
  exposed := exposed
  ran := by
    rw [command,deps]
    exact coherent.ran
  cleaned := by
    rw [phase,deps,props]
    exact coherent.cleaned
  settled := by
    rw [phase,command,props]
    exact coherent.settled

/-- The live requests of a hook were there before. -/
def Retains (requests later : List Request) (j : Nat) : Prop :=
  ∀ (r : Nat) (request : Request), later[r]? = some request → request.live = true → request.hook = j →
    requests[r]? = some request

structure Subsides (requests later : List Request) : Prop where
  retains : ∀ j, Retains requests later j
  known : ∀ request ∈ later, ∃ old ∈ requests, ∃ aborted pending, request = {old with aborted := aborted, pending := pending}

theorem subsides_refl (requests : List Request) : Subsides requests requests where
  retains := fun _ _ _ found _ _ => found
  known := fun request member => ⟨request,member,request.aborted,request.pending,rfl⟩

theorem subsides_modify (r : Nat) {change : Request → Request} (quiet : ∀ request, (change request).live = false)
    (form : ∀ old, ∃ aborted pending, change old = {old with aborted := aborted, pending := pending})
    (requests : List Request) : Subsides requests (requests.modify r change) := by
  constructor
  · intro j k request found live _
    rw [List.getElem?_modify] at found
    split at found
    · obtain ⟨old,_,rfl⟩ := Option.map_eq_some_iff.mp found
      rw [quiet] at live
      cases live
    · simpa using found
  · intro request member
    obtain ⟨k,found⟩ := List.mem_iff_getElem?.mp member
    rw [List.getElem?_modify] at found
    obtain ⟨old,here,rfl⟩ := Option.map_eq_some_iff.mp found
    refine ⟨old,List.mem_of_getElem? here,?_⟩
    split
    · exact form old
    · exact ⟨old.aborted,old.pending,rfl⟩

theorem subsides_abort (requests : List Request) (controller : Option Nat) : Subsides requests (abort requests controller) := by
  cases controller with
  | none => exact subsides_refl requests
  | some r =>
    have quiet (request : Request) : ({request with aborted := true} : Request).live = false := Bool.and_false request.pending
    exact subsides_modify r quiet (fun old => ⟨true,old.pending,rfl⟩) requests

theorem subsides_settle (requests : List Request) (r : Nat) :
    Subsides requests (requests.modify r fun request => {request with pending := false}) :=
  subsides_modify r (fun _ => rfl) (fun old => ⟨old.aborted,false,rfl⟩) requests

theorem not_live_abort (single : Single requests i hook) (found : (abort requests hook.activeController)[r]? = some request)
    (live : request.live = true) : request.hook ≠ i := by
  intro own
  have active := single r request ((subsides_abort requests _).retains i r request found live own) live own
  simp only [active,abort,List.getElem?_modify,if_true] at found
  obtain ⟨old,_,rfl⟩ := Option.map_eq_some_iff.mp found
  rw [Request.live,Bool.not_true,Bool.and_false] at live
  cases live

structure Turn (requests : List Request) (i : Nat) (turn : Hook × List Request) : Prop where
  single : Single turn.2 i turn.1
  current : Current turn.2 i turn.1
  others : ∀ j, j ≠ i → Retains requests turn.2 j
  known : ∀ request ∈ turn.2, request.hook = i ∨ ∃ old ∈ requests, request.hook = old.hook

theorem known_subsides (subsides : Subsides requests later) :
    ∀ request ∈ later, ∃ old ∈ requests, request.hook = old.hook := by
  intro request member
  obtain ⟨old,was,_,_,rfl⟩ := subsides.known request member
  exact ⟨old,was,rfl⟩

theorem turn_subsides (single : Single requests i hook) (current : Current requests i hook) (subsides : Subsides requests later)
    (controller : after.activeController = hook.activeController) (same : after.commandRef = hook.commandRef) :
    Turn requests i (after,later) where
  single := fun r request found live own =>
    controller.trans (single r request (subsides.retains i r request found live own) live own)
  current := fun r request found live own => same ▸ current r request (subsides.retains i r request found live own) live own
  others := fun j _ => subsides.retains j
  known := fun request member => .inr (known_subsides subsides request member)

theorem fetched_cases {controller : Option Nat} {sent : Request}
    (found : (abort requests controller ++ [sent])[r]? = some request) :
    (abort requests controller)[r]? = some request ∨ r = requests.length ∧ request = sent := by
  have length : (abort requests controller).length = requests.length := by
    unfold abort
    split
    · rfl
    · exact List.length_modify ..
  rw [List.getElem?_append] at found
  split at found
  · exact .inl found
  · rw [List.getElem?_singleton] at found
    split at found
    · exact .inr ⟨by omega,(Option.some.inj found).symm⟩
    · cases found

/-- After a fetch the new request alone is live, for the command of the ref. -/
theorem turn_fetch (some_ : hook.commandRef ≠ none) (single : Single requests i hook)
    (signals : Nat → Bool) (since : Option String) (extra : Option Params) :
    Turn requests i (fetchData signals i hook requests since extra) := by
  obtain ⟨cmd,here⟩ := Option.ne_none_iff_exists'.mp some_
  simp only [fetchData,here]
  constructor
  · intro r request found live own
    rcases fetched_cases found with old | ⟨rfl,rfl⟩
    · exact absurd own (not_live_abort single old live)
    · rfl
  · intro r request found live own
    rcases fetched_cases found with old | ⟨rfl,rfl⟩
    · exact absurd own (not_live_abort single old live)
    · rfl
  · intro j differ r request found live own
    rcases fetched_cases found with old | ⟨rfl,rfl⟩
    · exact (subsides_abort requests _).retains j r request old live own
    · exact absurd own.symm differ
  · intro request member
    rcases List.mem_append.mp member with old | sent
    · exact .inr (known_subsides (subsides_abort requests _) request old)
    · rw [List.mem_singleton.mp sent]
      exact .inl rfl

section
variable (single : Single requests i hook) (current : Current requests i hook)
  (controller : after.activeController = hook.activeController) (same : after.commandRef = hook.commandRef)
include single current controller same

theorem turn_keep :
    Turn requests i (after,requests) :=
  turn_subsides single current (subsides_refl requests) controller same

theorem turn_fetchData
    (signals : Nat → Bool) (since : Option String) (extra : Option Params) :
    Turn requests i (fetchData signals i after requests since extra) := by
  have before := turn_keep single current controller same
  cases here : after.commandRef with
  | some cmd => exact turn_fetch (by simp [here]) before.single signals since extra
  | none =>
    simp only [fetchData,here]
    exact before

end

theorem fetchData_frame (signals : Nat → Bool) (i : Nat) (hook : Hook) (requests : List Request) (since : Option String)
    (extra : Option Params) : ∃ controller validating, (fetchData signals i hook requests since extra).1 =
      {hook with activeController := controller, isValidating := validating} := by
  unfold fetchData
  split
  · exact ⟨hook.activeController,hook.isValidating,rfl⟩
  · exact ⟨_,_,rfl⟩

theorem coherent_fetchData (coherent : Coherent served hook) (signals : Nat → Bool) (i : Nat) (requests : List Request)
    (since : Option String) (extra : Option Params) :
    Coherent served (fetchData signals i hook requests since extra).1 := by
  obtain ⟨controller,validating,same⟩ := fetchData_frame signals i hook requests since extra
  rw [same]
  exact ⟨coherent.exposed,coherent.ran,coherent.cleaned,coherent.settled⟩

/-- What holds of every hook and its requests still holds after the turn of one of them. -/
theorem each_put {P : List Request → Nat → Hook → Prop} {turn : Hook × List Request}
    (stays : ∀ j hook, Retains s.requests turn.2 j → P s.requests j hook → P turn.2 j hook)
    (each : ∀ j hook, s.hooks[j]? = some hook → P s.requests j hook) (others : ∀ j, j ≠ i → Retains s.requests turn.2 j)
    (own : P turn.2 i turn.1) : ∀ j hook, (s.put i turn).hooks[j]? = some hook → P turn.2 j hook := by
  intro j hook here
  simp only [Page.put,List.getElem?_set] at here
  split at here
  · rename_i same
    split at here
    · rw [← Option.some.inj here,← same]
      exact own
    · cases here
  · exact stays j hook (others j (Ne.symm ‹_›)) (each j hook here)

theorem single_retains (j : Nat) (hook : Hook) (retains : Retains requests later j) (single : Single requests j hook) :
    Single later j hook :=
  fun r request found live own => single r request (retains r request found live own) live own

theorem current_retains (j : Nat) (hook : Hook) (retains : Retains requests later j) (current : Current requests j hook) :
    Current later j hook :=
  fun r request found live own => current r request (retains r request found live own) live own

/-- A hook takes its turn. -/
theorem kept_put (kept : Kept s) (found : s.hooks[i]? = some hook) {turn : Hook × List Request}
    (taken : Turn s.requests i turn) (coherent : Coherent s.served turn.1) : Kept (s.put i turn) where
  cached := kept.cached
  coherent := by
    intro hook member
    rcases List.mem_or_eq_of_mem_set member with was | rfl
    · exact kept.coherent hook was
    · exact coherent
  single := each_put single_retains kept.single taken.others taken.single
  current := each_put current_retains kept.current taken.others taken.current
  known := by
    intro request member
    have bound : i < s.hooks.length := (List.getElem?_eq_some_iff.mp found).1
    change request.hook < (s.hooks.set i turn.1).length
    rw [List.length_set]
    rcases taken.known request member with own | ⟨old,was,same⟩
    · exact own ▸ bound
    · exact same ▸ kept.known old was

theorem turn_leave (single : Single requests i hook) (current : Current requests i hook)
    (controller : after.activeController = hook.activeController) (same : after.commandRef = hook.commandRef) :
    Turn requests i (after,(hook.leave requests).2) := by
  unfold Hook.leave
  dsimp only
  split
  · exact turn_subsides single current (subsides_abort requests _) controller same
  · exact turn_keep single current controller same

theorem unsubscribe_frame (hook : Hook) : ∃ deps listener timer pending, hook.unsubscribe =
    {hook with sseDeps := deps, listener := listener, flushTimer := timer, pendingFlush := pending} := by
  unfold Hook.unsubscribe
  split
  · exact ⟨_,_,_,_,rfl⟩
  · exact ⟨_,hook.listener,hook.flushTimer,hook.pendingFlush,rfl⟩

theorem unsubscribeChanged_frame (hook : Hook) : ∃ deps listener timer pending, hook.unsubscribeChanged =
    {hook with sseDeps := deps, listener := listener, flushTimer := timer, pendingFlush := pending} := by
  unfold Hook.unsubscribeChanged
  split
  · exact ⟨hook.sseDeps,hook.listener,hook.flushTimer,hook.pendingFlush,rfl⟩
  · exact unsubscribe_frame hook

theorem kept_detach (kept : Kept s) (found : s.hooks[i]? = some hook) {phase : Phase} (left : phase ≠ .settled) :
    Kept (s.put i (hook.detach s.requests phase)) := by
  obtain ⟨deps,listener,timer,pending,same⟩ := unsubscribe_frame (hook.leave s.requests).1
  have coherent := kept.coherent hook (List.mem_of_getElem? found)
  refine kept_put kept found ?_ ?_
  · refine turn_leave (kept.single i hook found) (kept.current i hook found) ?_ ?_
    · rw [same]
      rfl
    · rw [same]
      rfl
  · unfold Hook.detach
    dsimp only
    rw [same]
    exact ⟨coherent.exposed,fun _ none_ => (by cases none_),fun _ _ none_ => (by cases none_),fun here => absurd here left⟩

theorem kept_cleanup (kept : Kept s) (found : s.hooks[i]? = some hook) :
    Kept (s.put i (hook.cleanup s.requests)) := by
  have coherent := kept.coherent hook (List.mem_of_getElem? found)
  have single := kept.single i hook found
  have current := kept.current i hook found
  obtain ⟨deps,listener,timer,pending,same⟩ := unsubscribeChanged_frame (hook.leaveChanged s.requests).1
  unfold Hook.cleanup
  dsimp only
  rw [same]
  unfold Hook.leaveChanged
  split
  · rename_i ran
    refine kept_put kept found (turn_keep single current rfl rfl) ⟨coherent.exposed,coherent.ran,?_,?_⟩
    · exact fun _ deps here => Option.some.inj (here.symm.trans ran)
    · exact fun settled => by cases settled
  · refine kept_put kept found (turn_leave single current rfl rfl) ⟨coherent.exposed,?_,?_,?_⟩
    · exact fun _ none_ => by cases none_
    · exact fun _ _ none_ => by cases none_
    · exact fun settled => by cases settled

/-- What is cached for a command was returned for it. -/
theorem exposes_cached (kept : Kept s) (cmd : Command) :
    Exposes s.served (some cmd) ((s.cache.get? (stableCacheKey cmd)).bind fun entry => entry.data) := by
  intro value here
  obtain ⟨entry,found,data⟩ := Option.bind_eq_some_iff.mp here
  obtain ⟨command,same,was⟩ := kept.cached _ entry found
  exact ⟨cmd,rfl,data ▸ served_of_key same was⟩

/-- The lifecycle effect shows what is cached for the command, and sends a request unless that is fresh. -/
theorem lifecycle_spec (kept : Kept s) (refreshed : hook.commandRef = hook.props.command) (settled : hook.phase = .settled)
    (single : Single s.requests i hook)
    (quiet : (∀ cmd, hook.commandRef = some cmd → fresh s.cache cmd hook.props.revalidateInterval now = true) →
      Current s.requests i hook) :
    Turn s.requests i (hook.lifecycle s.cache s.signals i s.requests now) ∧
      Coherent s.served (hook.lifecycle s.cache s.signals i s.requests now).1 := by
  have ran : ∀ deps, some hook.props.lifecycleDeps = some deps → deps.1 = hook.commandRef.map stableCacheKey := by
    rintro _ ⟨⟩
    rw [refreshed]
    rfl
  have uncleaned {P : Prop} : hook.phase = .cleaned → P := fun cleaned => by cases settled.symm.trans cleaned
  unfold Hook.lifecycle
  dsimp only
  split
  · rename_i none_
    have current := quiet fun cmd here => by cases none_.symm.trans here
    exact ⟨turn_keep single current rfl rfl,⟨fun _ none_ => (by cases none_),ran,uncleaned,fun _ => refreshed⟩⟩
  · rename_i cmd here
    have coherent : Coherent s.served {hook with
        lifecycleDeps := some hook.props.lifecycleDeps
        data := (s.cache.get? (stableCacheKey cmd)).bind fun entry => entry.data
        fetchedAt := (s.cache.get? (stableCacheKey cmd)).map fun entry => entry.fetchedAt
        error := none
        isLoading := (s.cache.get? (stableCacheKey cmd)).isNone
        timer := true} := by
      refine ⟨?_,ran,uncleaned,fun _ => refreshed⟩
      change Exposes s.served hook.commandRef _
      rw [here]
      exact exposes_cached kept cmd
    split
    · rename_i recent
      have current := quiet fun other same => Option.some.inj (here.symm.trans same) ▸ recent
      exact ⟨turn_keep single current rfl rfl,coherent⟩
    · refine ⟨turn_fetch ?_ ?_ _ _ _,coherent_fetchData coherent _ _ _ _ _⟩
      · exact fun none_ => by cases here.symm.trans none_
      · exact single

/-- Effects that do not enter anew are for a command with the same key. -/
theorem enter_spec (kept : Kept s) (found : s.hooks[i]? = some hook) (cleaned : hook.phase = .cleaned)
    (faithful : Faithful s (.effects i now)) (entered : after = hook.refresh) :
    Turn s.requests i (after.enter s.cache s.signals i s.requests now) ∧
      Coherent s.served (after.enter s.cache s.signals i s.requests now).1 := by
  have coherent := kept.coherent hook (List.mem_of_getElem? found)
  have single := kept.single i hook found
  subst entered
  unfold Hook.enter
  split
  · rename_i some_
    obtain ⟨deps,ran⟩ := Option.isSome_iff_exists.mp some_
    have same : hook.commandRef.map stableCacheKey = hook.props.command.map stableCacheKey := by
      rw [← coherent.ran deps ran,coherent.cleaned cleaned deps ran]
      rfl
    constructor
    · constructor
      · exact single
      · exact fun r request sent live own => same ▸ kept.current i hook found r request sent live own
      · exact fun _ _ _ _ sent _ _ => sent
      · exact fun request member => .inr ⟨request,member,rfl⟩
    · constructor
      · exact exposes_of_key same coherent.exposed
      · exact fun deps here => (coherent.ran deps here).trans same
      · exact fun impossible => by cases impossible
      · exact fun _ => rfl
  · refine lifecycle_spec kept rfl rfl single fun idle r request sent live own => ?_
    exact faithful hook found cleaned idle request (List.mem_of_getElem? sent) live own

theorem kept_effects (kept : Kept s) (found : s.hooks[i]? = some hook) (cleaned : hook.phase = .cleaned)
    (faithful : Faithful s (.effects i now)) :
    Kept (s.put i (hook.effects s.cache s.signals i s.requests now)) := by
  have subscribed (hook : Hook) : ∃ deps listener, hook.subscribeAgain = {hook with sseDeps := deps, listener := listener} := by
    unfold Hook.subscribeAgain
    split
    · exact ⟨hook.sseDeps,hook.listener,rfl⟩
    · exact ⟨_,_,rfl⟩
  obtain ⟨turn,coherent⟩ := enter_spec kept found cleaned faithful rfl
  obtain ⟨deps,listener,same⟩ :=
    subscribed (hook.refresh.enter s.cache s.signals i s.requests now).1
  unfold Hook.effects
  dsimp only
  rw [same]
  exact kept_put kept found ⟨turn.single,turn.current,turn.others,turn.known⟩
    ⟨coherent.exposed,coherent.ran,coherent.cleaned,coherent.settled⟩

theorem setCacheEntry_get? {cache : Cache} {known : List Char} {old : CacheEntry}
    (found : (setCacheEntry cache key entry).get? known = some old) :
    known = key ∧ old = entry ∨ cache.get? known = some old := by
  have set_ {cache : Cache} (found : (cache.set key entry).get? known = some old) :
      known = key ∧ old = entry ∨ cache.get? known = some old := by
    by_cases same : known = key
    · subst same
      rw [OrderedMap.get?_set_self] at found
      exact .inl ⟨rfl,(Option.some.inj found).symm⟩
    · rw [OrderedMap.get?_set_of_ne same] at found
      exact .inr found
  unfold setCacheEntry at found
  split at found
  · exact set_ found
  · split at found
    · exact (set_ found).imp_right fun kept => (OrderedMap.get?_erase_some kept).2
    · exact set_ found

theorem kept_cache (kept : Kept s) {cache : Cache} (cached : ∀ key entry, cache.get? key = some entry →
    ∃ command, stableCacheKey command = key ∧ Served s.served command entry.data) : Kept {s with cache := cache} :=
  ⟨cached,kept.coherent,kept.single,kept.current,kept.known⟩

theorem kept_append (kept : Kept s) (more : List Answer) : Kept {s with served := s.served ++ more} where
  cached := fun key entry found => (kept.cached key entry found).imp fun _ was => ⟨was.1,served_append was.2⟩
  coherent := fun hook member => coherent_append (kept.coherent hook member)
  single := kept.single
  current := kept.current
  known := kept.known

/-- An answer is dropped or makes an error, or its data is shown and cached. -/
theorem receive_spec (hook : Hook) (request : Request) (response : Response) (now : Int) :
    (∃ last error, hook.receive request response now = ({hook with lastRevisionRef := last, error := error},none)) ∨
    ∃ last answer, hook.receive request response now =
        ({hook with lastRevisionRef := last, data := answer.data, fetchedAt := some now, error := none},some ⟨answer.data,now⟩) ∧
      Fulfils hook request response ∧ answer ∈ response.answers request ∧ answer.command = request.command.command ∧
      answer.params = request.params := by
  have same : hook = {hook with lastRevisionRef := hook.lastRevisionRef, error := hook.error} := rfl
  unfold Hook.receive
  split
  · exact .inl ⟨_,_,congrArg (fun hook => (hook,none)) same⟩
  · rename_i unaborted
    split
    · exact .inl ⟨_,_,rfl⟩
    · exact .inl ⟨_,_,congrArg (fun hook => (hook,none)) same⟩
    · rename_i results revision
      split
      · exact .inl ⟨_,_,congrArg (fun hook => (hook,none)) same⟩
      · rename_i agree
        dsimp only
        split
        · exact .inl ⟨_,_,rfl⟩
        · rename_i result found
          split
          · exact .inl ⟨_,_,rfl⟩
          · rename_i ok
            have status : result.status = 200 := not_not.mp ok
            have named := List.find?_some found
            refine .inr ⟨_,⟨request.command.command,request.params,result.data⟩,rfl,?_,?_,rfl,rfl⟩
            · exact ⟨Bool.eq_false_iff.mpr unaborted,results,revision,result,rfl,Bool.eq_false_iff.mpr agree,found,status⟩
            · refine List.mem_map.mpr ⟨result,List.mem_filter.mpr ⟨List.mem_of_find?_eq_some found,?_⟩,rfl⟩
              rw [named,status]
              rfl

theorem settle_spec (hook : Hook) (r : Nat) : ∃ validating loading, hook.settle r =
    {hook with
      activeController := if hook.activeController = some r then none else hook.activeController
      isValidating := validating
      isLoading := loading} := by
  unfold Hook.settle
  split
  · split
    · exact ⟨_,_,rfl⟩
    · exact ⟨hook.isValidating,hook.isLoading,rfl⟩
  · exact ⟨hook.isValidating,hook.isLoading,rfl⟩

theorem coherent_settle (coherent : Coherent served hook) (r : Nat) : Coherent served (hook.settle r) := by
  obtain ⟨validating,loading,same⟩ := settle_spec hook r
  rw [same]
  exact ⟨coherent.exposed,coherent.ran,coherent.cleaned,coherent.settled⟩

/-- A request that is settled is not live, and another is still the active one. -/
theorem turn_settle (single : Single requests i hook) (current : Current requests i hook) (r : Nat)
    (controller : after.activeController = hook.activeController) (same : after.commandRef = hook.commandRef) :
    Turn requests i (after.settle r,requests.modify r fun request => {request with pending := false}) := by
  have subsides := subsides_settle requests r
  obtain ⟨validating,loading,settled⟩ := settle_spec after r
  rw [settled]
  constructor
  · intro k request found live own
    have active := controller.trans (single k request (subsides.retains i k request found live own) live own)
    have differ : k ≠ r := by
      rintro rfl
      simp only [List.getElem?_modify,if_true] at found
      obtain ⟨old,_,rfl⟩ := Option.map_eq_some_iff.mp found
      cases live
    simp [active,differ]
  · intro k request found live own
    change after.commandRef.map stableCacheKey = _
    rw [same]
    exact current k request (subsides.retains i k request found live own) live own
  · exact fun j _ => subsides.retains j
  · exact fun request member => .inr (known_subsides subsides request member)

theorem kept_respond (kept : Kept s) (sent : s.requests[r]? = some request) (pending : request.pending = true)
    (found : s.hooks[request.hook]? = some hook) (faithful : Faithful s (.respond r response now)) :
    Kept (s.respond r request hook response now) := by
  have single := kept.single _ hook found
  have current := kept.current _ hook found
  have appended := kept_append kept (response.answers request)
  have coherent : Coherent (s.served ++ response.answers request) hook := appended.coherent hook (List.mem_of_getElem? found)
  unfold Page.respond
  rcases receive_spec hook request response now with ⟨last,error,received⟩ | ⟨last,answer,received,fulfils,member,name,params⟩
  · rw [received]
    refine kept_put appended found (turn_settle single current r rfl rfl) (coherent_settle ?_ r)
    exact coherent_showing coherent coherent.exposed rfl rfl rfl rfl
  · have live : request.live = true := by
      rw [Request.live,pending,fulfils.1]
      rfl
    have given : request.params.plain = request.command.given.plain :=
      faithful request hook sent found pending fulfils
    have returned : Served (s.served ++ response.answers request) request.command answer.data :=
      ⟨answer,List.mem_append_right _ member,name,params ▸ given,rfl⟩
    have cached : Kept {s with
        cache := setCacheEntry s.cache (stableCacheKey request.command) ⟨answer.data,now⟩
        served := s.served ++ response.answers request} := by
      refine kept_cache appended fun key entry known => ?_
      rcases setCacheEntry_get? known with ⟨rfl,rfl⟩ | was
      · exact ⟨request.command,rfl,returned⟩
      · exact appended.cached key entry was
    rw [received]
    refine kept_put cached found (turn_settle single current r rfl rfl) (coherent_settle ?_ r)
    have shown : Exposes (s.served ++ response.answers request) (some request.command) answer.data :=
      fun value here => ⟨request.command,rfl,here ▸ returned⟩
    have same : (some request.command).map stableCacheKey = hook.commandRef.map stableCacheKey :=
      (current r request sent live rfl).symm
    exact coherent_showing coherent (exposes_of_key same shown) rfl rfl rfl rfl

theorem kept_reject (kept : Kept s) (found : s.hooks[request.hook]? = some hook) (r : Nat) (message : String) :
    Kept (s.reject r request hook message) := by
  have coherent := kept.coherent hook (List.mem_of_getElem? found)
  have single := kept.single _ hook found
  have current := kept.current _ hook found
  unfold Page.reject
  split
  · exact kept_put kept found (turn_settle single current r rfl rfl) (coherent_settle coherent r)
  · refine kept_put kept found (turn_settle single current r rfl rfl) (coherent_settle ?_ r)
    exact coherent_showing coherent coherent.exposed rfl rfl rfl rfl

theorem kept_mount (kept : Kept s) (props : Props) : Kept {s with hooks := s.hooks ++ [mount s.cache props]} := by
  have place {i : Nat} {hook : Hook} (here : (s.hooks ++ [mount s.cache props])[i]? = some hook) :
      s.hooks[i]? = some hook ∨ i = s.hooks.length := by
    rw [List.getElem?_append] at here
    split at here
    · exact .inl here
    · rw [List.getElem?_singleton] at here
      split at here
      · exact .inr (by omega)
      · cases here
  have none_ {i r : Nat} {request : Request} (sent : s.requests[r]? = some request) (own : request.hook = i)
      (new : i = s.hooks.length) : False := by
    have bound := kept.known request (List.mem_of_getElem? sent)
    omega
  constructor
  · exact kept.cached
  · intro hook member
    rcases List.mem_append.mp member with was | new
    · exact kept.coherent hook was
    · rw [List.mem_singleton.mp new]
      refine ⟨?_,fun _ none_ => (by cases none_),fun cleaned => (by cases cleaned),fun settled => by cases settled⟩
      cases here : props.command with
      | none =>
        simp only [mount,here,Option.bind_none]
        exact fun _ none_ => by cases none_
      | some cmd =>
        simp only [mount,here,Option.bind_some]
        exact exposes_cached kept cmd
  · intro i hook here
    rcases place here with was | new
    · exact kept.single i hook was
    · exact fun r request sent _ own => (none_ sent own new).elim
  · intro i hook here
    rcases place here with was | new
    · exact kept.current i hook was
    · exact fun r request sent _ own => (none_ sent own new).elim
  · intro request member
    rw [List.length_append]
    exact Nat.lt_add_right _ (kept.known request member)

theorem subsides_signal (s : Page) (signal : Nat) : Subsides s.requests (step s (.abort signal)).requests := by
  constructor
  · intro j r request found live _
    simp only [step,List.getElem?_map] at found
    obtain ⟨old,here,rfl⟩ := Option.map_eq_some_iff.mp found
    split at live
    · rw [Request.live,Bool.not_true,Bool.and_false] at live
      cases live
    · rename_i other
      rw [if_neg other]
      exact here
  · intro request member
    obtain ⟨old,here,rfl⟩ := List.mem_map.mp member
    refine ⟨old,here,?_⟩
    split
    · exact ⟨true,old.pending,rfl⟩
    · exact ⟨old.aborted,old.pending,rfl⟩

theorem kept_abort (kept : Kept s) (signal : Nat) : Kept (step s (.abort signal)) := by
  have subsides := subsides_signal s signal
  constructor
  · exact kept.cached
  · exact kept.coherent
  · exact fun i hook here => single_retains i hook (subsides.retains i) (kept.single i hook here)
  · exact fun i hook here => current_retains i hook (subsides.retains i) (kept.current i hook here)
  · intro request member
    obtain ⟨old,was,same⟩ := known_subsides subsides request member
    exact same ▸ kept.known old was

theorem kept_fetchData (kept : Kept s) (found : s.hooks[i]? = some hook)
    (controller : after.activeController = hook.activeController) (same : after.commandRef = hook.commandRef)
    (coherent : Coherent s.served after) (since : Option String) (extra : Option Params) :
    Kept (s.put i (fetchData s.signals i after s.requests since extra)) :=
  kept_put kept found (turn_fetchData (kept.single i hook found) (kept.current i hook found) controller same _ since extra)
    (coherent_fetchData coherent _ _ _ since extra)

theorem kept_flush (kept : Kept s) (found : s.hooks[i]? = some hook) : Kept (s.flush i hook) := by
  have coherent := kept.coherent hook (List.mem_of_getElem? found)
  unfold Page.flush
  split
  · dsimp only
    split
    · rename_i cmd here mounted
      split
      · have erased : Kept {s with cache := s.cache.erase (stableCacheKey cmd)} :=
          kept_cache kept fun key entry known => kept.cached key entry (OrderedMap.get?_erase_some known).2
        refine kept_fetchData erased found ?_ ?_ ?_ _ _
        · rfl
        · rfl
        · exact coherent_showing coherent (fun _ none_ => by cases none_) rfl rfl rfl rfl
      · refine kept_fetchData kept found ?_ ?_ ?_ _ _
        · rfl
        · rfl
        · exact coherent_showing coherent coherent.exposed rfl rfl rfl rfl
    · refine kept_put kept found (turn_keep (kept.single i hook found) (kept.current i hook found) rfl rfl) ?_
      exact coherent_showing coherent coherent.exposed rfl rfl rfl rfl
  · exact kept

theorem invalidation_frame (hook : Hook) (event : PluginInvalidationEvent) : ∃ pending timer, hook.onInvalidation event =
    {hook with pendingFlush := pending, flushTimer := timer} := by
  have scheduled (kind : Flush) : ∃ pending timer, hook.scheduleFlush kind =
      {hook with pendingFlush := pending, flushTimer := timer} := ⟨_,_,rfl⟩
  have unchanged : ∃ pending timer, hook = {hook with pendingFlush := pending, flushTimer := timer} :=
    ⟨hook.pendingFlush,hook.flushTimer,rfl⟩
  unfold Hook.onInvalidation
  split
  · exact unchanged
  · split
    · exact scheduled .full
    · split
      · exact unchanged
      · split
        · exact scheduled .full
        · split
          · exact scheduled .since
          · exact unchanged

theorem kept_on (kept : Kept s) (i : Nat) {next : Hook → Page}
    (each : ∀ hook, s.hooks[i]? = some hook → Kept (next hook)) : Kept (s.on i next) := by
  unfold Page.on
  split
  · exact kept
  · exact each _ ‹_›

theorem kept_settling (kept : Kept s) (r : Nat) {next : Request → Hook → Page}
    (each : ∀ request hook, s.requests[r]? = some request → request.pending = true →
      s.hooks[request.hook]? = some hook → Kept (next request hook)) : Kept (s.settling r next) := by
  unfold Page.settling
  split
  · exact kept
  · rename_i request sent
    split
    · exact kept_on kept request.hook fun hook found => each request hook sent ‹_› found
    · exact kept

theorem step_kept (kept : Kept s) (faithful : Faithful s action) : Kept (step s action) := by
  have guarded {c : Prop} [Decidable c] {turn : Page} (taken : c → Kept turn) : Kept (if c then turn else s) := by
    split
    · exact taken ‹_›
    · exact kept
  cases action with
  | mount props => exact kept_mount kept props
  | render i props =>
    refine kept_on kept i fun hook found => guarded fun settled => ?_
    have coherent := kept.coherent hook (List.mem_of_getElem? found)
    exact kept_put kept found (turn_keep (kept.single i hook found) (kept.current i hook found) rfl rfl)
      ⟨coherent.exposed,coherent.ran,fun cleaned => (by cases cleaned),fun settled => by cases settled⟩
  | cleanup i => exact kept_on kept i fun hook found => guarded fun _ => kept_cleanup kept found
  | effects i now => exact kept_on kept i fun hook found => guarded fun cleaned => kept_effects kept found cleaned faithful
  | disconnect i =>
    exact kept_on kept i fun hook found => guarded fun _ => kept_detach kept found fun same => by cases same
  | unmount i => exact kept_on kept i fun hook found => kept_detach kept found fun same => by cases same
  | tick i =>
    exact kept_on kept i fun hook found => guarded fun _ =>
      kept_fetchData kept found rfl rfl (kept.coherent hook (List.mem_of_getElem? found)) none none
  | invalidate i event =>
    refine kept_on kept i fun hook found => ?_
    have coherent := kept.coherent hook (List.mem_of_getElem? found)
    obtain ⟨pending,timer,same⟩ := invalidation_frame hook event
    rw [same]
    exact kept_put kept found (turn_keep (kept.single i hook found) (kept.current i hook found) rfl rfl)
      (coherent_showing coherent coherent.exposed rfl rfl rfl rfl)
  | flush i => exact kept_on kept i fun hook found => kept_flush kept found
  | mutate i options =>
    exact kept_on kept i fun hook found =>
      kept_fetchData kept found rfl rfl (kept.coherent hook (List.mem_of_getElem? found)) none (extraParams options)
  | respond r response now =>
    exact kept_settling kept r fun request hook sent pending found => kept_respond kept sent pending found faithful
  | reject r message => exact kept_settling kept r fun request hook _ _ found => kept_reject kept found r message
  | abort signal => exact kept_abort kept signal

theorem kept_initial : Kept initial where
  cached := fun _ _ found => by cases found
  coherent := fun _ member => by cases member
  single := fun _ _ found => by cases found
  current := fun _ _ found => by cases found
  known := fun _ member => by cases member

theorem kept_sound (s : Page) (kept : Kept s) : Sound s where
  exposed := by
    intro hook member settled
    have coherent := kept.coherent hook member
    rw [← coherent.settled settled]
    exact coherent.exposed
  cached := by
    intro key entry found
    obtain ⟨command,same,was⟩ := kept.cached key entry found
    exact ⟨⟨command,same⟩,fun other here => served_of_key (same.trans here.symm) was⟩

/-- Throughout a run of faithful steps every hook exposes what was returned for its command, as every entry of the cache
was for the command of its key; and keys tell commands apart in every run. -/
theorem sound_throughout_faithful {actions : List Action} (faithful : Runs.Along step Faithful initial actions) :
    Runs.Throughout step Sound initial actions ∧ ∀ first second : Command, stableCacheKey first = stableCacheKey second →
      first.command = second.command ∧ first.given.json = second.given.json :=
  ⟨(Runs.throughout_of_along (fun _ _ => step_kept) actions kept_initial faithful).imp kept_sound,
    fun _ _ => stableCacheKey_unique⟩

/-- A request and a forced refresh are answered. -/
theorem sound_throughout_refreshed : Runs.Throughout step Sound initial [
    .mount ⟨some ⟨"metrics.history",some (.single "period" (.string "1h") rfl)⟩,30000,none,none,none⟩,.cleanup 0,.effects 0 0,
    .respond 0 (.full [⟨"metrics.history",200,some (.string "first"),none⟩] none) 5,.mutate 0 ⟨true,none⟩,
    .respond 1 (.full [⟨"metrics.history",200,some (.string "second"),none⟩] none) 9] := by
  refine (sound_throughout_faithful ?_).1
  refine ⟨trivial,trivial,?_,?_,trivial,?_,trivial⟩
  · exact fun _ _ _ _ _ member => by cases member
  · intro request hook sent _ _ _
    obtain rfl := Option.some.inj sent
    exact plain_forced _ .empty fun _ member => by cases member
  · intro request hook sent _ _ _
    obtain rfl := Option.some.inj sent
    exact plain_forced _ (.single "force_refresh" (.bool true) rfl) fun _ member => congrArg Prod.fst (List.mem_singleton.mp member)

/-- The answer to a request for other params is shown, and cached under the key of the command. -/
theorem not_sound_params : ¬∀ actions, Runs.Throughout step Sound initial actions := by
  intro sound
  have reached := (sound [
    .mount ⟨some ⟨"metrics.history",some (.single "period" (.string "1h") rfl)⟩,30000,none,none,none⟩,.cleanup 0,.effects 0 0,
    .mutate 0 ⟨false,some (.single "period" (.string "7d") rfl)⟩,
    .respond 1 (.full [⟨"metrics.history",200,some (.string "week"),none⟩] none) 5]).last
  obtain ⟨cmd,rendered,answer,member,_,params,_⟩ := reached.exposed _ List.mem_cons_self rfl (.string "week") rfl
  obtain rfl := Option.some.inj rendered
  obtain rfl := List.mem_singleton.mp member
  have same : Datum.object [("period",.string "7d")] = Datum.object [("period",.string "1h")] := params
  simp at same

/-- A request that another component starts between the cleanup and the effects of a render, which find a fresh entry. -/
theorem not_sound_between : ¬Sound (Runs.last step initial [
    .mount ⟨some ⟨"docker.containers",none⟩,30000,none,none,none⟩,.mount ⟨some ⟨"docker.networks",none⟩,30000,none,none,none⟩,
    .cleanup 0,.cleanup 1,.effects 0 0,.effects 1 0,
    .respond 1 (.full [⟨"docker.networks",200,some (.string "networks"),none⟩] none) 5,
    .render 0 ⟨some ⟨"docker.networks",none⟩,30000,none,none,none⟩,.cleanup 0,.mutate 0 ⟨false,none⟩,.effects 0 6,
    .respond 2 (.full [⟨"docker.containers",200,some (.string "containers"),none⟩] none) 7]) := by
  intro sound
  obtain ⟨cmd,rendered,answer,member,name,_,data⟩ := sound.exposed _ List.mem_cons_self rfl (.string "containers") rfl
  obtain rfl := Option.some.inj rendered
  change answer ∈ [_,_] at member
  rcases List.mem_cons.mp member with rfl | last
  · have same : some (Value.string "networks") = some (.string "containers") := data
    simp at same
  · obtain rfl := List.mem_singleton.mp last
    have same : "docker.containers" = "docker.networks" := name
    simp at same

end Vigile.BlockData
