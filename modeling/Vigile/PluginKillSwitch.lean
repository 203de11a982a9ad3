import Vigile.PluginEngine

/-! A plugin that was disabled is gone, in a run in which nothing is loaded under the kill switch. -/
namespace Vigile.PluginEngine

open Interleaving Python

variable {τ : Type}

/-- The plugin has an instance, a process, a hook, a route or a command. -/
def State.present (s : State) (pluginId : String) : Bool :=
  (s.instances.get? pluginId).isSome || decide (pluginId ∈ s.wrappers) || decide (pluginId ∈ s.hooks.map Prod.snd) ||
    decide (pluginId ∈ s.mounted) || decide (pluginId ∈ s.allowlist.map Prod.fst)

/-- Every id that a registry of the engine knows. -/
def State.ids (s : State) : List String :=
  s.instances.keys ++ s.wrappers ++ s.hooks.map Prod.snd ++ s.mounted ++ s.allowlist.map Prod.fst

section
variable [DecidableEq τ]

/-- The tasks whose kill of the plugin still stands, and whether one of them has returned. -/
def standing (past : List (Step τ)) (pluginId : String) : List τ × Bool :=
  past.foldl (fun seen tr =>
    match tr.action with
    | .kill other _ => if other = pluginId then (tr.task :: seen.1,seen.2) else seen
    | .revive other => if other = pluginId then ([],false) else seen
    | .disabled other => if other = pluginId ∧ tr.task ∈ seen.1 then (seen.1,true) else seen
    | _ => seen) ([],false)

/-- The plugin was disabled under this name, the call has returned and it was not enabled since. -/
def secured (past : List (Step τ)) (pluginId : String) : Bool := (standing past pluginId).2

/-- Nothing is registered under the kill switch, and a plugin is disabled by the name under
which it is loaded and has no commands of its module. -/
def Lawful (tr : Step τ) : Prop :=
  match tr.action with
  | .register plugin => ∀ name ∈ forms plugin.id, tr.before.killSwitch.get? name = none
  | .kill pluginId _ => (∀ other ∈ tr.before.ids, pluginId ∈ forms other → other = pluginId) ∧
      ∀ other ∈ tr.before.pluginModules.keys, pluginId ∈ forms other → tr.before.pluginModules.get? other = some []
  | _ => True

instance (tr : Step τ) : Decidable (Lawful tr) := by
  unfold Lawful
  split <;> infer_instance

theorem standing_concat (past : List (Step τ)) (tr : Step τ) (pluginId : String) : standing (past ++ [tr]) pluginId =
    match tr.action with
    | .kill other _ =>
      if other = pluginId then (tr.task :: (standing past pluginId).1,(standing past pluginId).2) else standing past pluginId
    | .revive other => if other = pluginId then ([],false) else standing past pluginId
    | .disabled other =>
      if other = pluginId ∧ tr.task ∈ (standing past pluginId).1 then ((standing past pluginId).1,true)
      else standing past pluginId
    | _ => standing past pluginId := by
  unfold standing
  rw [List.foldl_append]
  rfl

end

/-- What the steps of `unload_plugin` and of the last swap have taken away. -/
structure Gone (s : State) (pluginId : String) (stage : Nat) : Prop where
  latent : ∀ routes, s.pluginModules.get? pluginId = some routes → routes = []
  hooks : 1 ≤ stage → pluginId ∉ s.hooks.map Prod.snd
  mounted : 2 ≤ stage → pluginId ∉ s.mounted ∧ pluginId ∉ s.wrappers
  instances : 3 ≤ stage → s.instances.get? pluginId = none
  commands : 4 ≤ stage → pluginId ∉ s.allowlist.map Prod.fst

section
variable {s : State} {pluginId : String} {stage : Nat} {choice : Choice}

theorem Gone.absent (gone : Gone s pluginId 4) : s.present pluginId = false := by
  have unhooked := gone.hooks (by omega)
  have unmounted := gone.mounted (by omega)
  have dropped := gone.instances (by omega)
  have delisted := gone.commands (by omega)
  simp [State.present,dropped,decide_eq_false unhooked,decide_eq_false unmounted.1,decide_eq_false unmounted.2,
    decide_eq_false delisted]

variable {plugin : Plugin}

theorem Gone.registered (gone : Gone s pluginId stage) (other : plugin.id ≠ pluginId)
    (registration : Registration) : Gone (s.registered plugin registration) pluginId stage := by
  obtain ⟨latent,hooks,mounted,instances,commands⟩ := gone
  cases registration with
  | instantiate =>
    refine ⟨latent,hooks,mounted,fun reached => ?_,commands⟩
    exact (OrderedMap.get?_set_of_ne (Ne.symm other)).trans (instances reached)
  | wrapper =>
    refine ⟨latent,hooks,fun reached => ⟨(mounted reached).1,?_⟩,instances,commands⟩
    simpa [State.registered,Ne.symm other] using (mounted reached).2
  | hook name =>
    refine ⟨latent,fun reached => ?_,mounted,instances,commands⟩
    have before := hooks reached
    simp only [State.registered,List.map_append,List.map_cons,List.map_nil,List.mem_append,List.mem_singleton]
    rintro (old | new)
    · exact before old
    · exact other new.symm
  | schedule => exact ⟨latent,hooks,mounted,instances,commands⟩
  | mount =>
    refine ⟨latent,hooks,fun reached => ⟨?_,(mounted reached).2⟩,instances,commands⟩
    simpa [State.registered,Ne.symm other] using (mounted reached).1
  | keepModule =>
    refine ⟨fun routes found => ?_,hooks,mounted,instances,commands⟩
    rw [State.registered,OrderedMap.get?_set_of_ne (Ne.symm other)] at found
    exact latent routes found

theorem Gone.registrations (gone : Gone s pluginId stage) (other : plugin.id ≠ pluginId)
    (registrations : List Registration) :
    Gone (registrations.foldl (fun s registration => s.registered plugin registration) s) pluginId stage := by
  induction registrations generalizing s with
  | nil => exact gone
  | cons registration rest ih => exact ih (gone.registered other registration)

/-- A plugin without an instance and without commands of its module has no commands. -/
theorem commands_gone (latent : ∀ routes, s.pluginModules.get? pluginId = some routes → routes = [])
    (instances : s.instances.get? pluginId = none) : pluginId ∉ s.commands.map Prod.fst := by
  intro member
  obtain ⟨command,listed,rfl⟩ := List.mem_map.mp member
  obtain ⟨source,among,from_source⟩ := List.mem_flatMap.mp listed
  obtain ⟨route,has,rfl⟩ := List.mem_map.mp from_source
  obtain ⟨id,routes⟩ := source
  rcases List.mem_append.mp among with here | here
  · have found := OrderedMap.mem_entries.mp here
    rw [instances] at found
    contradiction
  · have empty := latent routes (OrderedMap.mem_entries.mp here)
    subst empty
    contradiction

/-- Only a registration brings a plugin back. -/
theorem Gone.answered (gone : Gone s pluginId stage) {action : Action}
    (other : ∀ plugin, action = .register plugin → plugin.id ≠ pluginId) : Gone (answer choice s action).1 pluginId stage := by
  cases action with
  | register plugin =>
    have others := other plugin rfl
    simp only [answer]
    split
    · exact gone.registrations others _
    · split
      · have rest := gone.registrations others plugin.registrations.dropLast
        refine ⟨rest.latent,gone.hooks,fun reached => ⟨?_,(rest.mounted reached).2⟩,rest.instances,rest.commands⟩
        exact fun member => (rest.mounted reached).1 (List.mem_filter.mp member).1
      · exact gone.registrations others _
  | rollback plugin =>
    refine ⟨fun routes found => ?_,gone.hooks,gone.mounted,fun reached => ?_,gone.commands⟩
    · exact gone.latent routes (OrderedMap.get?_erase_some found).2
    · simp only [answer]
      rw [OrderedMap.get?_erase,gone.instances reached]
      simp
  | swap =>
    refine ⟨gone.latent,gone.hooks,gone.mounted,gone.instances,fun reached => ?_⟩
    exact commands_gone gone.latent (gone.instances (by omega))
  | unregister name =>
    refine ⟨gone.latent,fun reached member => ?_,gone.mounted,gone.instances,gone.commands⟩
    obtain ⟨entry,kept,is⟩ := List.mem_map.mp member
    exact gone.hooks reached (List.mem_map.mpr ⟨entry,(List.mem_filter.mp kept).1,is⟩)
  | unmount name =>
    refine ⟨gone.latent,gone.hooks,fun reached => ⟨?_,?_⟩,gone.instances,gone.commands⟩
    · exact fun member => (gone.mounted reached).1 (List.mem_filter.mp member).1
    · exact fun member => (gone.mounted reached).2 (List.mem_filter.mp member).1
  | drop name =>
    refine ⟨gone.latent,gone.hooks,gone.mounted,fun reached => ?_,gone.commands⟩
    simp only [answer]
    rw [OrderedMap.get?_erase,gone.instances reached]
    simp
  | resolve | isActive | lock | unlock | suspend | registerPages | setState | wasServed | kill | revive | disabled =>
    exact ⟨gone.latent,gone.hooks,gone.mounted,gone.instances,gone.commands⟩

/-- The steps of an unload take the plugin away. -/
theorem Gone.unregistered (gone : Gone s pluginId 0) : Gone (answer choice s (.unregister pluginId)).1 pluginId 1 := by
  refine ⟨gone.latent,fun _ member => ?_,by omega,by omega,by omega⟩
  obtain ⟨entry,kept,is⟩ := List.mem_map.mp member
  simpa [is] using (List.mem_filter.mp kept).2

theorem Gone.unmounted (gone : Gone s pluginId 1) : Gone (answer choice s (.unmount pluginId)).1 pluginId 2 := by
  refine ⟨gone.latent,fun _ => gone.hooks (by omega),fun _ => ⟨?_,?_⟩,by omega,by omega⟩
  all_goals
    intro member
    simpa using (List.mem_filter.mp member).2

theorem Gone.dropped (gone : Gone s pluginId 2) : Gone (answer choice s (.drop pluginId)).1 pluginId 3 :=
  ⟨gone.latent,fun _ => gone.hooks (by omega),fun _ => gone.mounted (by omega),fun _ => OrderedMap.get?_erase_self,by omega⟩

theorem Gone.swapped (gone : Gone s pluginId 3) : Gone (answer choice s .swap).1 pluginId 4 :=
  ⟨gone.latent,fun _ => gone.hooks (by omega),fun _ => gone.mounted (by omega),fun _ => gone.instances (by omega),
    fun _ => commands_gone gone.latent (gone.instances (by omega))⟩

theorem Gone.mono (gone : Gone s pluginId stage) {earlier : Nat} (before : earlier ≤ stage) : Gone s pluginId earlier :=
  ⟨gone.latent,fun _ => gone.hooks (by omega),fun _ => gone.mounted (by omega),fun _ => gone.instances (by omega),
    fun _ => gone.commands (by omega)⟩

end

inductive Mode where
  | idle
  | disabling (pluginId : String) (stage : Nat)
  deriving DecidableEq

def rule : Prog.Protocol Action Reply PyError Mode
  | .kill pluginId _,_,.idle => some (.disabling pluginId 0)
  | .disabled pluginId,_,.disabling own 4 => if pluginId = own then some .idle else none
  | .suspend,_,mode | .wasServed _,_,mode => some mode
  | .unregister pluginId,reply,.disabling own 0 =>
    if pluginId = own then
      match reply with
      | .ok _ => some (.disabling own 1)
      | .error _ => some .idle
    else none
  | .unmount pluginId,reply,.disabling own 1 =>
    if pluginId = own then
      match reply with
      | .ok _ => some (.disabling own 2)
      | .error _ => some .idle
    else none
  | .drop pluginId,reply,.disabling own 2 =>
    if pluginId = own then
      match reply with
      | .ok _ => some (.disabling own 3)
      | .error _ => some .idle
    else none
  | .swap,reply,.disabling own stage =>
    if 3 ≤ stage then
      match reply with
      | .ok _ => some (.disabling own 4)
      | .error _ => some .idle
    else none
  | .kill _ _,_,_ | .disabled _,_,_ => none
  | _,_,.idle => some .idle
  | _,_,_ => none

section

theorem swallow_stays {program : Task Unit} (h : program.Stays rule .idle) : (swallow program).Stays rule .idle := by
  refine .attempt h fun error => ?_
  split <;> rfl

theorem unloadPlugin_stays (pluginId : String) (persist : Bool) : (unloadPlugin pluginId persist).Stays rule .idle := by
  refine .bind (.perform fun _ => rfl) fun wasServed => ?_
  refine .bind (.perform fun _ => rfl) fun _ => ?_
  refine .bind (.perform fun _ => rfl) fun _ => ?_
  refine .bind (.perform fun _ => rfl) fun _ => ?_
  refine .bind (.perform fun _ => rfl) fun _ => ?_
  refine .bind (.perform fun _ => rfl) fun _ => ?_
  refine .bind (.perform fun _ => rfl) fun _ => ?_
  have saved : (if persist then perform .suspend else pure () : Task Unit).Stays rule .idle := by
    split
    · exact .perform fun _ => rfl
    · rfl
  cases wasServed with
  | false => exact saved
  | true => exact .bind (.perform fun _ => rfl) fun _ => saved

theorem load_stays (plugin : Plugin) : (load plugin).Stays rule .idle := by
  have suspended : (perform .suspend).Stays rule .idle := Prog.Stays.perform fun _ => rfl
  have served : (do perform .swap; perform (.setState plugin.id .active); perform .suspend : Task Unit).Stays rule .idle := by
    refine .bind (.perform fun _ => rfl) fun _ => ?_
    exact .bind (.perform fun _ => rfl) fun _ => suspended
  have registered : (do
      let accepted ← perform (.register plugin)
      if accepted then do
        if plugin.pages then perform (.registerPages plugin)
        perform .swap
        perform (.setState plugin.id .active)
        perform .suspend
      else do
        perform (.rollback plugin)
        throw (.otherException "PluginNamespaceError") : Task Unit).Stays rule .idle := by
    refine .bind (.perform fun _ => rfl) fun accepted => ?_
    cases accepted with
    | false => exact .bind (.perform fun _ => rfl) fun _ => rfl
    | true =>
      cases plugin.pages with
      | false => exact served
      | true => exact .bind (.perform fun _ => rfl) fun _ => served
  have started : (do
      if plugin.loader = .sandbox then perform .suspend
      let accepted ← perform (.register plugin)
      if accepted then do
        if plugin.pages then perform (.registerPages plugin)
        perform .swap
        perform (.setState plugin.id .active)
        perform .suspend
      else do
        perform (.rollback plugin)
        throw (.otherException "PluginNamespaceError") : Task Unit).Stays rule .idle := by
    by_cases sandbox : plugin.loader = .sandbox
    · simp only [sandbox]
      exact .bind suspended fun _ => registered
    · simp only [sandbox]
      exact registered
  unfold load
  refine .bind (swallow_stays suspended) fun _ => ?_
  cases plugin.database with
  | false => exact started
  | true => exact .bind suspended fun _ => started

theorem loadLocked_stays (plugin : Plugin) : (loadLocked plugin).Stays rule .idle := by
  refine .bind (.perform fun _ => rfl) fun active => ?_
  cases active with
  | true => rfl
  | false =>
    refine .attempt ?_ fun error => ?_
    · refine .bind (load_stays plugin) fun _ => ?_
      exact .bind (.perform fun _ => rfl) fun _ => rfl
    · split
      · refine .bind (.perform fun _ => rfl) fun _ => ?_
        refine .bind (swallow_stays (unloadPlugin_stays plugin.id true)) fun _ => ?_
        exact .bind (swallow_stays (.perform fun _ => rfl)) fun _ => rfl
      · rfl

theorem loadPlugin_stays (pluginId : String) : (loadPlugin pluginId).Stays rule .idle := by
  refine .bind (.perform fun _ => rfl) fun found => ?_
  cases found with
  | none => rfl
  | some plugin =>
    refine .bind (.perform fun _ => rfl) fun active => ?_
    cases active with
    | true => rfl
    | false =>
      refine .bind (.perform fun _ => rfl) fun _ => ?_
      exact .ensure (loadLocked_stays plugin) (.perform fun _ => rfl)

/-- An unload that returns has taken the plugin out of its registries. -/
theorem unloadPlugin_follows (pluginId : String) (persist : Bool) :
    (unloadPlugin pluginId persist).Follows rule (.disabling pluginId 0) fun result mode =>
      match result with
      | .ok _ => ∃ stage, 3 ≤ stage ∧ mode = .disabling pluginId stage
      | .error _ => True := by
  have suspended (mode : Mode) : (perform .suspend).Stays rule mode := Prog.Stays.perform fun _ => rfl
  have taken (action : Action) (before after : Mode)
      (ok : ∀ value, rule action (.ok value) before = some after)
      (error : ∀ error, ∃ mode, rule action (.error error) before = some mode) :
      (perform action).Follows rule before fun result mode =>
        match result with
        | .ok _ => mode = after
        | .error _ => True := by
    refine .perform fun reply => ?_
    cases reply with
    | ok value => exact ⟨after,ok value,rfl⟩
    | error e =>
      obtain ⟨mode,raised⟩ := error e
      exact ⟨mode,raised,trivial⟩
  refine .bind (.perform fun _ => rfl : (perform (.wasServed pluginId)).Stays rule _) ?_ ?_
  swap
  · intro _ _ _
    trivial
  rintro wasServed _ rfl
  refine .bind (suspended _) ?_ fun _ _ _ => trivial
  rintro _ _ rfl
  refine .bind (taken (.unregister pluginId) (.disabling pluginId 0) (.disabling pluginId 1) (fun _ => if_pos rfl)
    fun _ => ⟨_,if_pos rfl⟩) ?_ fun _ _ _ => trivial
  rintro _ _ rfl
  refine .bind (suspended _) ?_ fun _ _ _ => trivial
  rintro _ _ rfl
  refine .bind (taken (.unmount pluginId) (.disabling pluginId 1) (.disabling pluginId 2) (fun _ => if_pos rfl)
    fun _ => ⟨_,if_pos rfl⟩) ?_ fun _ _ _ => trivial
  rintro _ _ rfl
  refine .bind (suspended _) ?_ fun _ _ _ => trivial
  rintro _ _ rfl
  refine .bind (taken (.drop pluginId) (.disabling pluginId 2) (.disabling pluginId 3) (fun _ => if_pos rfl)
    fun _ => ⟨_,if_pos rfl⟩) ?_ fun _ _ _ => trivial
  rintro _ _ rfl
  have saved (stage : Nat) (enough : 3 ≤ stage) : (if persist then perform .suspend else pure () : Task Unit).Follows rule
      (.disabling pluginId stage) fun result mode =>
        match result with
        | .ok _ => ∃ stage, 3 ≤ stage ∧ mode = .disabling pluginId stage
        | .error _ => True := by
    split
    · refine .perform fun reply => ⟨_,rfl,?_⟩
      cases reply with
      | ok _ => exact ⟨stage,enough,rfl⟩
      | error _ => trivial
    · exact ⟨stage,enough,rfl⟩
  cases wasServed with
  | false => exact saved 3 (by omega)
  | true =>
    refine .bind (taken .swap (.disabling pluginId 3) (.disabling pluginId 4) (fun _ => rfl)
      fun _ => ⟨_,rfl⟩) ?_ fun _ _ _ => trivial
    rintro _ _ rfl
    exact saved 4 (by omega)

theorem disablePlugin_follows (pluginId : String) (hard : Bool) :
    (disablePlugin pluginId hard).Follows rule .idle fun _ _ => True := by
  have killed : (perform (.kill pluginId hard)).Follows rule .idle fun _ mode => mode = .disabling pluginId 0 :=
    Prog.Follows.perform fun _ => ⟨_,rfl,rfl⟩
  have suspended (mode : Mode) : (perform .suspend).Stays rule mode := Prog.Stays.perform fun _ => rfl
  refine .bind killed ?_ fun _ _ _ => trivial
  rintro _ _ rfl
  refine .bind (unloadPlugin_follows pluginId true) ?_ fun _ _ _ => trivial
  rintro _ _ ⟨stage,enough,rfl⟩
  refine .bind (suspended _) ?_ fun _ _ _ => trivial
  rintro _ _ rfl
  refine .bind (suspended _) ?_ fun _ _ _ => trivial
  rintro _ _ rfl
  have swapped : (perform .swap).Follows rule (.disabling pluginId stage) fun result mode =>
      match result with
      | .ok _ => mode = .disabling pluginId 4
      | .error _ => True := by
    refine .perform fun reply => ?_
    cases reply with
    | ok _ => exact ⟨_,if_pos enough,rfl⟩
    | error _ => exact ⟨_,if_pos enough,trivial⟩
  refine .bind swapped ?_ fun _ _ _ => trivial
  rintro _ _ rfl
  refine .bind (suspended _) ?_ fun _ _ _ => trivial
  rintro _ _ rfl
  exact .perform fun _ => ⟨.idle,if_pos rfl,trivial⟩

theorem client_follows (client : Client) : client.program.Follows rule .idle fun _ _ => True := by
  have anything {α : Type} {program : Task α} (h : program.Stays rule .idle) : program.Follows rule .idle fun _ _ => True :=
    h.mono fun _ _ _ => trivial
  cases client with
  | load pluginId => exact anything (.bind (loadPlugin_stays pluginId) fun _ => rfl)
  | unload pluginId persist => exact anything (unloadPlugin_stays pluginId persist)
  | disable pluginId hard => exact disablePlugin_follows pluginId hard
  | enable pluginId =>
    refine anything (.bind (.perform fun _ => rfl) fun entry => ?_)
    cases entry with
    | false => rfl
    | true => exact .bind (loadPlugin_stays _) fun _ => .perform fun _ => rfl

end

/-! What holds along a run -/

section
variable {past : List (Step τ)} {tr : Step τ} {modes : τ → Mode} {m : Mode}

theorem state_of_taken (taken : Taken exec tr) :
    tr.after = tr.before ∨ tr.after = (answer tr.choice tr.before tr.action).1 := by
  obtain ⟨task,action,choice,before,reply,after⟩ := tr
  replace taken : exec action choice before = some (after,reply) := taken
  cases action with
  | lock pluginId =>
    simp only [exec] at taken
    split at taken
    · contradiction
    · have struck := congrArg Prod.fst (Option.some.inj taken)
      exact (strike_state choice.fault before _).imp struck.symm.trans struck.symm.trans
  | kill | revive | disabled => exact .inr (congrArg Prod.fst (Option.some.inj taken)).symm
  | _ =>
    have struck := congrArg Prod.fst (Option.some.inj taken)
    exact (strike_state choice.fault before _).imp struck.symm.trans struck.symm.trans

theorem state_of_ok (taken : Taken exec tr) (ok : ∃ value, tr.reply = .ok value) :
    tr.after = (answer tr.choice tr.before tr.action).1 := by
  obtain ⟨task,action,choice,before,reply,after⟩ := tr
  replace taken : exec action choice before = some (after,reply) := taken
  replace ok : ∃ value, reply = .ok value := ok
  obtain ⟨value,rfl⟩ := ok
  cases action with
  | lock pluginId =>
    simp only [exec] at taken
    split at taken
    · contradiction
    · exact (congrArg Prod.fst (strike_ok (Option.some.inj taken)).2).symm
  | kill | revive | disabled => exact (congrArg Prod.fst (Option.some.inj taken)).symm
  | _ => exact (congrArg Prod.fst (strike_ok (Option.some.inj taken)).2).symm

variable {after before : State} {choice : Choice} {name pluginId : String} {reply : Except PyError Unit} {task : τ}
  {stage : Nat} {mode : Mode}

theorem killed_of_taken {hard : Bool} (taken : Taken exec (⟨task,.kill name hard,choice,before,reply,after⟩ : Step τ)) :
    after = {before with killSwitch := before.killSwitch.set name hard} := by
  replace taken : exec (.kill name hard) choice before = some (after,reply) := taken
  exact (congrArg Prod.fst (Option.some.inj taken)).symm

theorem revived_of_taken
    {reply : Except PyError Bool} (taken : Taken exec (⟨task,.revive name,choice,before,reply,after⟩ : Step τ)) :
    after = {before with killSwitch := before.killSwitch.erase name} := by
  replace taken : exec (.revive name) choice before = some (after,reply) := taken
  exact (congrArg Prod.fst (Option.some.inj taken)).symm

theorem registered_killSwitch (plugin : Plugin) (registrations : List Registration) (s : State) :
    (registrations.foldl (fun s registration => s.registered plugin registration) s).killSwitch = s.killSwitch := by
  induction registrations generalizing s with
  | nil => rfl
  | cons registration rest ih =>
    rw [List.foldl_cons,ih]
    cases registration <;> rfl

theorem killSwitch_kept (taken : Taken exec tr) (kills : ∀ name hard, tr.action ≠ .kill name hard)
    (revives : ∀ name, tr.action ≠ .revive name) : tr.after.killSwitch = tr.before.killSwitch := by
  rcases state_of_taken taken with same | same
  · rw [same]
  · rw [same]
    revert kills revives
    cases tr.action with
    | kill name hard => exact fun kills => absurd rfl (kills name hard)
    | revive name => exact fun _ revives => absurd rfl (revives name)
    | register plugin =>
      intro _ _
      simp only [answer]
      split
      · exact registered_killSwitch plugin _ _
      · split
        all_goals exact registered_killSwitch plugin _ _
    | _ => exact fun _ _ => rfl

/-- A plugin under the kill switch does not come back. -/
theorem gone_step (taken : Taken exec tr) (lawful : Lawful tr)
    (form : name ∈ forms pluginId) (killed : (tr.before.killSwitch.get? name).isSome = true)
    (gone : Gone tr.before pluginId stage) : Gone tr.after pluginId stage := by
  rcases state_of_taken taken with same | same
  · rw [same]
    exact gone
  · rw [same]
    refine gone.answered fun plugin is own => ?_
    subst own
    unfold Lawful at lawful
    rw [is] at lawful
    rw [lawful name form] at killed
    contradiction

theorem gone_of_absent {s : State} (absent : pluginId ∉ s.ids)
    (latent : ∀ routes, s.pluginModules.get? pluginId = some routes → routes = []) : Gone s pluginId 4 := by
  simp only [State.ids,List.mem_append,not_or] at absent
  obtain ⟨⟨⟨⟨instances,wrappers⟩,hooks⟩,mounted⟩,allowlist⟩ := absent
  refine ⟨latent,fun _ => hooks,fun _ => ⟨mounted,wrappers⟩,fun _ => ?_,fun _ => allowlist⟩
  cases found : s.instances.get? pluginId with
  | none => rfl
  | some routes => exact absurd (OrderedMap.mem_keys.mpr ⟨routes,found⟩) instances

/-- How a task that disables a plugin came to be where it is. -/
theorem disabling_allowed {action : Action} {reply : Except PyError (Reply action)} (allowed : rule action reply mode = some (.disabling name stage)) :
    (∃ hard, action = .kill name hard) ∧ stage = 0 ∨
      mode = .disabling name stage ∧ (action = .suspend ∨ ∃ other, action = .wasServed other) ∨
      (∃ value, reply = .ok value) ∧
        (action = .unregister name ∧ mode = .disabling name 0 ∧ stage = 1 ∨
          action = .unmount name ∧ mode = .disabling name 1 ∧ stage = 2 ∨
          action = .drop name ∧ mode = .disabling name 2 ∧ stage = 3 ∨
          action = .swap ∧ stage = 4 ∧ ∃ before, 3 ≤ before ∧ mode = .disabling name before) := by
  rcases mode with _ | ⟨own,before⟩
  · cases action with
    | kill other hard =>
      obtain ⟨rfl,rfl⟩ := Mode.disabling.inj (Option.some.inj allowed)
      exact .inl ⟨⟨hard,rfl⟩,rfl⟩
    | _ => simp [rule] at allowed
  · cases action with
    | suspend => exact .inr (.inl ⟨Option.some.inj allowed,.inl rfl⟩)
    | wasServed other => exact .inr (.inl ⟨Option.some.inj allowed,.inr ⟨other,rfl⟩⟩)
    | unregister other =>
      rcases before with _ | before
      · obtain ⟨rfl,replied⟩ := Option.ite_none_right_eq_some.mp allowed
        cases reply with
        | ok value =>
          obtain ⟨rfl,rfl⟩ := Mode.disabling.inj (Option.some.inj replied)
          exact .inr (.inr ⟨⟨value,rfl⟩,.inl ⟨rfl,rfl,rfl⟩⟩)
        | error _ => cases replied
      · simp [rule] at allowed
    | unmount other =>
      rcases before with _ | _ | before
      · simp [rule] at allowed
      · obtain ⟨rfl,replied⟩ := Option.ite_none_right_eq_some.mp allowed
        cases reply with
        | ok value =>
          obtain ⟨rfl,rfl⟩ := Mode.disabling.inj (Option.some.inj replied)
          exact .inr (.inr ⟨⟨value,rfl⟩,.inr (.inl ⟨rfl,rfl,rfl⟩)⟩)
        | error _ => cases replied
      · simp [rule] at allowed
    | drop other =>
      rcases before with _ | _ | _ | before
      · simp [rule] at allowed
      · simp [rule] at allowed
      · obtain ⟨rfl,replied⟩ := Option.ite_none_right_eq_some.mp allowed
        cases reply with
        | ok value =>
          obtain ⟨rfl,rfl⟩ := Mode.disabling.inj (Option.some.inj replied)
          exact .inr (.inr ⟨⟨value,rfl⟩,.inr (.inr (.inl ⟨rfl,rfl,rfl⟩))⟩)
        | error _ => cases replied
      · simp [rule] at allowed
    | swap =>
      obtain ⟨enough,replied⟩ := Option.ite_none_right_eq_some.mp allowed
      cases reply with
      | ok value =>
        obtain ⟨rfl,rfl⟩ := Mode.disabling.inj (Option.some.inj replied)
        exact .inr (.inr ⟨⟨value,rfl⟩,.inr (.inr (.inr ⟨rfl,rfl,before,enough,rfl⟩))⟩)
      | error _ => cases replied
    | disabled other =>
      rcases before with _ | _ | _ | _ | _ | before
      · simp [rule] at allowed
      · simp [rule] at allowed
      · simp [rule] at allowed
      · simp [rule] at allowed
      · obtain ⟨_,left⟩ := Option.ite_none_right_eq_some.mp allowed
        cases left
      · simp [rule] at allowed
    | _ => simp [rule] at allowed

theorem disabled_allowed
    (allowed : rule (.disabled name) reply mode = some m) : mode = .disabling name 4 ∧ m = .idle := by
  rcases mode with _ | ⟨own,_ | _ | _ | _ | _ | stage⟩
  · simp [rule] at allowed
  · simp [rule] at allowed
  · simp [rule] at allowed
  · simp [rule] at allowed
  · simp [rule] at allowed
  · obtain ⟨rfl,left⟩ := Option.ite_none_right_eq_some.mp allowed
    exact ⟨rfl,(Option.some.inj left).symm⟩
  · simp [rule] at allowed

variable [DecidableEq τ]

theorem standing_old (now : task ∈ (standing (past ++ [tr]) name).1)
    (other : (∃ hard, tr.action = .kill name hard) → tr.task ≠ task) : task ∈ (standing past name).1 := by
  rw [standing_concat] at now
  split at now
  · rename_i action own hard is
    split at now
    · rename_i same
      subst same
      rcases List.mem_cons.mp now with same | old
      · exact absurd same.symm (other ⟨hard,is⟩)
      · exact old
    · exact now
  · split at now
    · contradiction
    · exact now
  · split at now <;> exact now
  · exact now

structure Inv (past : List (Step τ)) (modes : τ → Mode) (s : State) : Prop where
  others : ∀ name, (s.killSwitch.get? name).isSome = true → ∀ pluginId, name ∈ forms pluginId → pluginId ≠ name →
    Gone s pluginId 4
  tasks : ∀ task name stage, modes task = .disabling name stage → task ∈ (standing past name).1 → Gone s name stage
  killed : ∀ task name, task ∈ (standing past name).1 → (s.killSwitch.get? name).isSome = true
  secured : ∀ name, secured past name = true → Gone s name 4 ∧ (s.killSwitch.get? name).isSome = true

theorem form_self (name : String) : name ∈ forms name := by simp [forms]

section
variable (kept : Inv past modes tr.before) (taken : Taken exec tr)
include kept taken

theorem Inv.killed_next (task : τ) (name : String)
    (now : task ∈ (standing (past ++ [tr]) name).1) : (tr.after.killSwitch.get? name).isSome = true := by
  obtain ⟨own,action,choice,before,reply,after⟩ := tr
  rw [standing_concat] at now
  simp only at now ⊢
  cases action with
  | kill other hard =>
    have same : after = _ := killed_of_taken taken
    subst same
    by_cases is : name = other
    · subst is
      simp [OrderedMap.get?_set_self]
    · simp only [Ne.symm is,if_false] at now
      simp only [OrderedMap.get?_set_of_ne is]
      exact kept.killed task name now
  | revive other =>
    have same : after = _ := revived_of_taken taken
    subst same
    by_cases is : name = other
    · subst is
      simp at now
    · simp only [Ne.symm is,if_false] at now
      simp only [OrderedMap.get?_erase_of_ne is]
      exact kept.killed task name now
  | disabled other =>
    have same := killSwitch_kept taken (by simp) (by simp)
    simp only at same
    rw [same]
    simp only at now
    split at now <;> exact kept.killed task name now
  | _ =>
    have same := killSwitch_kept taken (by simp) (by simp)
    simp only at same
    rw [same]
    exact kept.killed task name now

theorem Inv.others_next (lawful : Lawful tr) (name : String)
    (killed : (tr.after.killSwitch.get? name).isSome = true) (pluginId : String) (form : name ∈ forms pluginId)
    (other : pluginId ≠ name) : Gone tr.after pluginId 4 := by
  by_cases kills : ∃ hard, tr.action = .kill name hard
  · obtain ⟨hard,is⟩ := kills
    have gone : Gone tr.before pluginId 4 := by
      unfold Lawful at lawful
      rw [is] at lawful
      refine gone_of_absent (fun present => other (lawful.1 pluginId present form)) fun routes found => ?_
      have empty := lawful.2 pluginId (OrderedMap.mem_keys.mpr ⟨routes,found⟩) form
      rw [found] at empty
      exact Option.some.inj empty
    rcases state_of_taken taken with same | same
    · rw [same]
      exact gone
    · rw [same]
      exact gone.answered fun plugin register => by rw [is] at register; cases register
  · have before : (tr.before.killSwitch.get? name).isSome = true := by
      obtain ⟨task,action,choice,before,reply,after⟩ := tr
      cases action with
      | kill own hard =>
        have same : after = _ := killed_of_taken taken
        subst same
        have differ : name ≠ own := fun is => kills ⟨hard,by rw [is]⟩
        simpa only [OrderedMap.get?_set_of_ne differ] using killed
      | revive own =>
        have same : after = _ := revived_of_taken taken
        subst same
        obtain ⟨hard,found⟩ := Option.isSome_iff_exists.mp killed
        exact Option.isSome_iff_exists.mpr ⟨hard,(OrderedMap.get?_erase_some found).2⟩
      | _ =>
        have same := killSwitch_kept taken (by simp) (by simp)
        rw [same] at killed
        exact killed
    exact gone_step taken lawful form before (kept.others name before pluginId form other)

section
variable (allowed : rule tr.action tr.reply (modes tr.task) = some m) (lawful : Lawful tr)
include allowed lawful

theorem Inv.tasks_next (task : τ) (name : String) (stage : Nat)
    (now : Function.update modes tr.task m task = .disabling name stage)
    (stands : task ∈ (standing (past ++ [tr]) name).1) : Gone tr.after name stage := by
  have step : ∀ {stage}, modes task = .disabling name stage → task ∈ (standing past name).1 → Gone tr.after name stage :=
    fun mode old => gone_step taken lawful (form_self name) (kept.killed task name old) (kept.tasks task name _ mode old)
  by_cases own : task = tr.task
  swap
  · rw [Function.update_of_ne own] at now
    exact step now (standing_old stands fun _ => Ne.symm own)
  subst own
  rw [Function.update_self] at now
  subst now
  rcases disabling_allowed allowed with ⟨⟨hard,is⟩,rfl⟩ | ⟨mode,quiet⟩ | ⟨ok,moved⟩
  · refine ⟨fun routes found => ?_,by omega,by omega,by omega,by omega⟩
    have before : tr.before.pluginModules.get? name = some routes := by
      obtain ⟨task,action,choice,before,reply,after⟩ := tr
      subst is
      have same : after = _ := killed_of_taken taken
      subst same
      exact found
    unfold Lawful at lawful
    rw [is] at lawful
    have empty := lawful.2 name (OrderedMap.mem_keys.mpr ⟨routes,before⟩) (form_self name)
    rw [before] at empty
    exact Option.some.inj empty
  · have old := standing_old stands fun ⟨hard,is⟩ => by
      rcases quiet with quiet | ⟨other,quiet⟩ <;> rw [is] at quiet <;> cases quiet
    exact step mode old
  · have after := state_of_ok taken ok
    have old := standing_old stands fun ⟨hard,is⟩ => by
      rcases moved with ⟨moved,_⟩ | ⟨moved,_⟩ | ⟨moved,_⟩ | ⟨moved,_⟩ <;> rw [is] at moved <;> cases moved
    rw [after]
    rcases moved with ⟨is,mode,rfl⟩ | ⟨is,mode,rfl⟩ | ⟨is,mode,rfl⟩ | ⟨is,rfl,before,enough,mode⟩
    · rw [is]
      exact (kept.tasks tr.task name 0 mode old).unregistered
    · rw [is]
      exact (kept.tasks tr.task name 1 mode old).unmounted
    · rw [is]
      exact (kept.tasks tr.task name 2 mode old).dropped
    · rw [is]
      exact ((kept.tasks tr.task name before mode old).mono enough).swapped

theorem Inv.secured_next (name : String)
    (now : PluginEngine.secured (past ++ [tr]) name = true) :
    Gone tr.after name 4 ∧ (tr.after.killSwitch.get? name).isSome = true := by
  have before : Gone tr.before name 4 ∧ (tr.before.killSwitch.get? name).isSome = true ∧
      ∀ other, tr.action = .revive other → other ≠ name := by
    obtain ⟨task,action,choice,before,reply,after⟩ := tr
    unfold PluginEngine.secured at now
    rw [standing_concat] at now
    simp only at now
    cases action with
    | disabled other =>
      simp only at now
      split at now
      · rename_i same
        obtain ⟨rfl,stands⟩ := same
        exact ⟨kept.tasks task other 4 (disabled_allowed allowed).1 stands,kept.killed task other stands,by simp⟩
      · obtain ⟨gone,killed⟩ := kept.secured name now
        exact ⟨gone,killed,by simp⟩
    | revive other =>
      simp only at now
      split at now
      · contradiction
      · rename_i differ
        obtain ⟨gone,killed⟩ := kept.secured name now
        exact ⟨gone,killed,fun own is => by cases is; exact differ⟩
    | kill other hard =>
      simp only at now
      have old : PluginEngine.secured past name = true := by
        split at now <;> exact now
      obtain ⟨gone,killed⟩ := kept.secured name old
      exact ⟨gone,killed,by simp⟩
    | _ =>
      obtain ⟨gone,killed⟩ := kept.secured name now
      exact ⟨gone,killed,by simp⟩
  obtain ⟨gone,killed,unrevived⟩ := before
  refine ⟨gone_step taken lawful (form_self name) killed gone,?_⟩
  obtain ⟨task,action,choice,before,reply,after⟩ := tr
  cases action with
  | kill own hard =>
    have same : after = _ := killed_of_taken taken
    subst same
    by_cases is : name = own
    · subst is
      simp [OrderedMap.get?_set_self]
    · simpa only [OrderedMap.get?_set_of_ne is] using killed
  | revive own =>
    have same : after = _ := revived_of_taken taken
    subst same
    simpa only [OrderedMap.get?_erase_of_ne (Ne.symm (unrevived own rfl))] using killed
  | _ =>
    have same := killSwitch_kept taken (by simp) (by simp)
    rw [same]
    exact killed

theorem Inv.next :
    Inv (past ++ [tr]) (Function.update modes tr.task m) tr.after :=
  ⟨kept.others_next taken lawful,kept.tasks_next taken allowed lawful,kept.killed_next taken,
    kept.secured_next taken allowed lawful⟩

end

end

end

def metricsPlugin : Plugin := ⟨"metrics",.classBased,["on_metrics_received"],true,["history"],[],true,true⟩

def operators : Nat → Client
  | 0 => .load "metrics"
  | _ => .disable "metrics" false

def calm : Choice := ⟨.none,none,false⟩

def loadThenDisable : List (Nat × Choice) := List.replicate 24 (0,calm) ++ List.replicate 24 (1,calm)

def disableThenLoad : List (Nat × Choice) := List.replicate 24 (1,calm) ++ List.replicate 24 (0,calm)

end Vigile.PluginEngine
