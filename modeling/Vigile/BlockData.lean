import Mathlib.Data.List.Basic
import Vigile.BlockKey
import Vigile.OrderedMap

/-! The hooks of useBlockData: the cache they share, the requests they send, and the order in which React runs their effects. -/
namespace Vigile.BlockData

open JsonText

structure CacheEntry where
  data : Option Value
  fetchedAt : Int

abbrev Cache := OrderedMap (List Char) CacheEntry

def maxCacheEntries : Nat := 200

local instance lawfulKeys : LawfulBEq (List Char) := inferInstance

def setCacheEntry (cache : Cache) (key : List Char) (entry : CacheEntry) : Cache :=
  match cache.keys with
  | [] => cache.set key entry
  | oldestKey :: _ =>
    if maxCacheEntries ≤ cache.keys.length ∧ key ∉ cache.keys then (cache.erase oldestKey).set key entry
    else cache.set key entry

structure Revision where
  bootId : String
  counter : Int

def revisionsDiffer (captured current : Option Revision) : Bool :=
  match captured,current with
  | none,_ => false
  | some _,none => true
  | some captured,some current => captured.bootId ≠ current.bootId || captured.counter ≠ current.counter

def Revision.since (revision : Revision) : String := revision.bootId ++ ":" ++ toString revision.counter

/-- What a render is given; the signals of the callers are numbered. -/
structure Props where
  command : Option Command
  revalidateInterval : Int
  revision : Option Revision
  signal : Option Nat
  accessToken : Option String

def Props.commandKey (props : Props) : Option (List Char) := props.command.map stableCacheKey

/-- The dependencies of the lifecycle effect, and those of the subscription. -/
def Props.lifecycleDeps (props : Props) : Option (List Char) × Int := (props.commandKey,props.revalidateInterval)

def Props.sseDeps (props : Props) : Option (List Char) × Option String := (props.commandKey,props.accessToken)

inductive Flush where
  | since
  | full
  deriving DecidableEq

inductive Phase where
  /-- Rendered, and none of the effects has run. -/
  | committed
  | cleaned
  | settled
  | unmounted
  deriving DecidableEq

structure Hook where
  props : Props
  phase : Phase
  commandRef : Option Command
  revisionRef : Option Revision
  signalRef : Option Nat
  lastRevisionRef : Option Revision
  pendingFlush : Option Flush
  flushTimer : Bool
  mounted : Bool
  /-- The request that was sent last, or kept back by the signal of the caller, until it is settled. -/
  activeController : Option Nat
  /-- The dependencies the lifecycle effect has run with, if it was not cleaned up since. -/
  lifecycleDeps : Option (Option (List Char) × Int)
  timer : Bool
  sseDeps : Option (Option (List Char) × Option String)
  listener : Option String
  data : Option Value
  fetchedAt : Option Int
  error : Option String
  isLoading : Bool
  isValidating : Bool

structure Request where
  hook : Nat
  command : Command
  params : Params
  since : Option String
  external : Option Nat
  capturedRevision : Option Revision
  aborted : Bool
  /-- Sent, and neither answered nor failed. -/
  pending : Bool

def Request.live (request : Request) : Bool := request.pending && !request.aborted

structure SubResult where
  command : String
  status : Int
  data : Option Value
  error : Option Value

inductive Response where
  | empty
  | unchanged
  | full (results : List SubResult) (revision : Option Revision)

structure PluginInvalidationEvent where
  pluginId : String
  bootId : String
  revision : Int
  action : String

structure MutateOptions where
  forceRefresh : Bool
  params : Option Params

/-- A result the server has returned, with the name and the params of the request it was for. -/
structure Answer where
  command : String
  params : Params
  data : Option Value

structure Page where
  cache : Cache
  hooks : List Hook
  requests : List Request
  signals : Nat → Bool
  served : List Answer

def initial : Page := ⟨.empty,[],[],fun _ => false,[]⟩

/-- The first render. -/
def mount (cache : Cache) (props : Props) : Hook :=
  let entry := props.command.bind fun command => cache.get? (stableCacheKey command)
  { props := props
    phase := .committed
    commandRef := props.command
    revisionRef := props.revision
    signalRef := props.signal
    lastRevisionRef := props.revision
    pendingFlush := none
    flushTimer := false
    mounted := true
    activeController := none
    lifecycleDeps := none
    timer := false
    sseDeps := none
    listener := none
    data := entry.bind fun entry => entry.data
    fetchedAt := entry.map fun entry => entry.fetchedAt
    error := none
    isLoading := props.command.isSome && entry.isNone
    isValidating := false }

def abort (requests : List Request) (controller : Option Nat) : List Request :=
  match controller with
  | none => requests
  | some r => requests.modify r fun request => {request with aborted := true}

def fetchData (signals : Nat → Bool) (i : Nat) (hook : Hook) (requests : List Request) (since : Option String)
    (extraParams : Option Params) : Hook × List Request :=
  match hook.commandRef with
  | none => (hook,requests)
  | some cmd =>
    let aborted := hook.signalRef.any signals
    ({hook with activeController := some requests.length, isValidating := hook.isValidating || !aborted},
      abort requests hook.activeController ++ [{
        hook := i
        command := cmd
        params := cmd.given.spread (extraParams.getD .empty)
        since := since.filter fun since => since ≠ ""
        external := hook.signalRef
        capturedRevision := hook.revisionRef
        aborted := false
        pending := !aborted }])

def errDetail (command : String) (result : SubResult) : String :=
  match result.error with
  | none | some .null => "commande " ++ command ++ " : statut " ++ toString result.status
  | some (.string text) => text
  | some value => String.ofList (value.text jsonEscape)

/-- The try block after the answer, with the entry it writes. -/
def Hook.receive (hook : Hook) (request : Request) (response : Response) (now : Int) : Hook × Option CacheEntry :=
  if request.aborted then (hook,none)
  else match response with
  | .empty => ({hook with error := some "réponse /batch vide"},none)
  | .unchanged => (hook,none)
  | .full results revision =>
    if revisionsDiffer request.capturedRevision hook.revisionRef then (hook,none)
    else
      let hook := {hook with lastRevisionRef := revision.or hook.lastRevisionRef}
      match results.find? fun result => result.command = request.command.command with
      | none => ({hook with error := some ("commande inconnue dans la réponse /batch : " ++ request.command.command)},none)
      | some result =>
        if result.status ≠ 200 then ({hook with error := some (errDetail request.command.command result)},none)
        else ({hook with data := result.data, fetchedAt := some now, error := none},some ⟨result.data,now⟩)

/-- The finally block. -/
def Hook.settle (hook : Hook) (r : Nat) : Hook :=
  if hook.activeController = some r then
    if hook.mounted then {hook with activeController := none, isValidating := false, isLoading := false}
    else {hook with activeController := none}
  else hook

def Response.answers (response : Response) (request : Request) : List Answer :=
  match response with
  | .full results _ =>
    (results.filter fun result => result.command = request.command.command && result.status = 200).map fun result =>
      ⟨request.command.command,request.params,result.data⟩
  | _ => []

def Hook.scheduleFlush (hook : Hook) (kind : Flush) : Hook :=
  {hook with
    pendingFlush := some (if hook.pendingFlush = some .full ∨ kind = .full then .full else kind)
    flushTimer := true}

def Hook.onInvalidation (hook : Hook) (event : PluginInvalidationEvent) : Hook :=
  match hook.listener with
  | none => hook
  | some pluginId =>
    if hook.lastRevisionRef.any fun last => event.bootId ≠ last.bootId then hook.scheduleFlush .full
    else if event.pluginId ≠ pluginId then hook
    else if event.action = "unloaded" then hook.scheduleFlush .full
    else if hook.lastRevisionRef.all fun last => last.counter < event.revision then hook.scheduleFlush .since
    else hook

/-- The cleanup of the lifecycle effect, which a null command does not leave. -/
def Hook.leave (hook : Hook) (requests : List Request) : Hook × List Request :=
  ({hook with lifecycleDeps := none, timer := false},
    if hook.timer then abort requests hook.activeController else requests)

/-- The cleanup of the subscription. -/
def Hook.unsubscribe (hook : Hook) : Hook :=
  if hook.listener.isSome then {hook with sseDeps := none, listener := none, flushTimer := false, pendingFlush := none}
  else {hook with sseDeps := none}

/-- Every cleanup, of a hook that is unmounted or that StrictMode mounts anew. -/
def Hook.detach (hook : Hook) (requests : List Request) (phase : Phase) : Hook × List Request :=
  let left := hook.leave requests
  ({left.1.unsubscribe with mounted := false, phase := phase},left.2)

/-! React cleans up the effects whose dependencies have changed. -/

def Hook.leaveChanged (hook : Hook) (requests : List Request) : Hook × List Request :=
  if hook.lifecycleDeps = some hook.props.lifecycleDeps then (hook,requests) else hook.leave requests

def Hook.unsubscribeChanged (hook : Hook) : Hook :=
  if hook.sseDeps = some hook.props.sseDeps then hook else hook.unsubscribe

def Hook.cleanup (hook : Hook) (requests : List Request) : Hook × List Request :=
  let left := hook.leaveChanged requests
  ({left.1.unsubscribeChanged with phase := .cleaned},left.2)

/-- The effect without dependencies, and the one that marks the hook as mounted. -/
def Hook.refresh (hook : Hook) : Hook :=
  {hook with
    phase := .settled
    mounted := true
    commandRef := hook.props.command
    revisionRef := hook.props.revision
    signalRef := hook.props.signal
    lastRevisionRef := hook.props.revision.or hook.lastRevisionRef}

def fresh (cache : Cache) (cmd : Command) (revalidateInterval now : Int) : Bool :=
  (cache.get? (stableCacheKey cmd)).any fun entry => now - entry.fetchedAt < revalidateInterval

def Hook.lifecycle (hook : Hook) (cache : Cache) (signals : Nat → Bool) (i : Nat) (requests : List Request) (now : Int) :
    Hook × List Request :=
  let hook := {hook with lifecycleDeps := some hook.props.lifecycleDeps}
  match hook.commandRef with
  | none =>
    ({hook with data := none, fetchedAt := none, error := none, isLoading := false, isValidating := false},requests)
  | some cmd =>
    let entry := cache.get? (stableCacheKey cmd)
    let hook := {hook with
      data := entry.bind fun entry => entry.data
      fetchedAt := entry.map fun entry => entry.fetchedAt
      error := none
      isLoading := entry.isNone
      timer := true}
    if fresh cache cmd hook.props.revalidateInterval now then (hook,requests)
    else fetchData signals i hook requests none none

def pluginOf (command : String) : String := String.ofList (command.toList.takeWhile fun c => c ≠ '.')

def Hook.subscribe (hook : Hook) : Hook :=
  {hook with
    sseDeps := some hook.props.sseDeps
    listener := match hook.commandRef,hook.props.accessToken with
      | some cmd,some accessToken => if accessToken = "" then none else some (pluginOf cmd.command)
      | _,_ => none}

/-! React runs the effects it has cleaned up, or not run before. -/

def Hook.enter (hook : Hook) (cache : Cache) (signals : Nat → Bool) (i : Nat) (requests : List Request) (now : Int) :
    Hook × List Request :=
  if hook.lifecycleDeps.isSome then (hook,requests) else hook.lifecycle cache signals i requests now

def Hook.subscribeAgain (hook : Hook) : Hook := if hook.sseDeps.isSome then hook else hook.subscribe

def Hook.effects (hook : Hook) (cache : Cache) (signals : Nat → Bool) (i : Nat) (requests : List Request) (now : Int) :
    Hook × List Request :=
  let entered := hook.refresh.enter cache signals i requests now
  (entered.1.subscribeAgain,entered.2)

def extraParams (options : MutateOptions) : Option Params :=
  let extra := if options.forceRefresh then Params.single "force_refresh" (.bool true) rfl else .empty
  let extra := options.params.elim extra extra.spread
  if extra.fields.isEmpty then none else some extra

inductive Action where
  | mount (props : Props)
  | render (i : Nat) (props : Props)
  | cleanup (i : Nat)
  | effects (i : Nat) (now : Int)
  /-- StrictMode cleans up every effect and runs it again. -/
  | disconnect (i : Nat)
  | unmount (i : Nat)
  | tick (i : Nat)
  | invalidate (i : Nat) (event : PluginInvalidationEvent)
  | flush (i : Nat)
  | mutate (i : Nat) (options : MutateOptions)
  | respond (r : Nat) (response : Response) (now : Int)
  | reject (r : Nat) (message : String)
  | abort (signal : Nat)

def Page.put (s : Page) (i : Nat) (turn : Hook × List Request) : Page :=
  {s with hooks := s.hooks.set i turn.1, requests := turn.2}

/-- The callback of the debounce timer. -/
def Page.flush (s : Page) (i : Nat) (hook : Hook) : Page :=
  if hook.flushTimer then
    let cleared := {hook with flushTimer := false, pendingFlush := none}
    match hook.commandRef,hook.mounted with
    | some cmd,true =>
      if hook.pendingFlush = some .full then
        Page.put {s with cache := s.cache.erase (stableCacheKey cmd)} i
          (fetchData s.signals i {cleared with data := none, fetchedAt := none, error := none, isLoading := true} s.requests none none)
      else s.put i (fetchData s.signals i cleared s.requests (hook.lastRevisionRef.map Revision.since) none)
    | _,_ => s.put i (cleared,s.requests)
  else s

def Page.respond (s : Page) (r : Nat) (request : Request) (hook : Hook) (response : Response) (now : Int) : Page :=
  let received := hook.receive request response now
  let cache := received.2.elim s.cache fun entry => setCacheEntry s.cache (stableCacheKey request.command) entry
  Page.put {s with cache := cache, served := s.served ++ response.answers request} request.hook
    (received.1.settle r,s.requests.modify r fun request => {request with pending := false})

def Page.reject (s : Page) (r : Nat) (request : Request) (hook : Hook) (message : String) : Page :=
  s.put request.hook ((if request.aborted then hook else {hook with error := some message}).settle r,
    s.requests.modify r fun request => {request with pending := false})

def Page.on (s : Page) (i : Nat) (next : Hook → Page) : Page :=
  match s.hooks[i]? with
  | none => s
  | some hook => next hook

def Page.settling (s : Page) (r : Nat) (next : Request → Hook → Page) : Page :=
  match s.requests[r]? with
  | none => s
  | some request => if request.pending then s.on request.hook (next request) else s

def step (s : Page) : Action → Page
  | .mount props => {s with hooks := s.hooks ++ [BlockData.mount s.cache props]}
  | .render i props =>
    s.on i fun hook => if hook.phase = .settled then s.put i ({hook with props := props, phase := .committed},s.requests) else s
  | .cleanup i => s.on i fun hook => if hook.phase = .committed then s.put i (hook.cleanup s.requests) else s
  | .effects i now =>
    s.on i fun hook => if hook.phase = .cleaned then s.put i (hook.effects s.cache s.signals i s.requests now) else s
  | .disconnect i => s.on i fun hook => if hook.phase = .settled then s.put i (hook.detach s.requests .cleaned) else s
  | .unmount i => s.on i fun hook => s.put i (hook.detach s.requests .unmounted)
  | .tick i => s.on i fun hook => if hook.timer then s.put i (fetchData s.signals i hook s.requests none none) else s
  | .invalidate i event => s.on i fun hook => s.put i (hook.onInvalidation event,s.requests)
  | .flush i => s.on i fun hook => s.flush i hook
  | .mutate i options => s.on i fun hook => s.put i (fetchData s.signals i hook s.requests none (extraParams options))
  | .respond r response now => s.settling r fun request hook => s.respond r request hook response now
  | .reject r message => s.settling r fun request hook => s.reject r request hook message
  | .abort signal =>
    {s with
      signals := fun other => other = signal || s.signals other
      requests := s.requests.map fun request =>
        if request.pending && request.external = some signal then {request with aborted := true} else request}

end Vigile.BlockData
