import Mathlib.Data.List.Induction
import Mathlib.Logic.Function.Basic

/-! Tasks as resumptions over atomic actions, and their interleaving on one shared
state. A task names the action it wants next and continues with the reply, a value
or an error; the schedule says which task moves and what the outside supplies. Runs
are finite prefixes, so a task that is never scheduled again models a killed one. -/
namespace Interleaving

inductive Prog (ι : Type) (ρ : ι → Type) (ε α : Type) where
  | ret (value : α)
  | raise (error : ε)
  | act (action : ι) (next : Except ε (ρ action) → Prog ι ρ ε α)

/-- What one action asks of its reply and of the mode the task is in afterwards. -/
abbrev Transformer (ι : Type) (ρ : ι → Type) (ε M : Type) :=
  (action : ι) → M → (Except ε (ρ action) → M → Prop) → Prop

namespace Prog

variable {ι : Type} {ρ : ι → Type} {ε α β M : Type}

def bind (program : Prog ι ρ ε α) (next : α → Prog ι ρ ε β) : Prog ι ρ ε β :=
  match program with
  | .ret value => next value
  | .raise error => .raise error
  | .act action rest => .act action fun reply => (rest reply).bind next

/-- `try program except`: the handler decides which errors it raises again. -/
def attempt (program : Prog ι ρ ε α) (handler : ε → Prog ι ρ ε α) : Prog ι ρ ε α :=
  match program with
  | .ret value => .ret value
  | .raise error => handler error
  | .act action rest => .act action fun reply => (rest reply).attempt handler

/-- `try program finally cleanup`: an error of the clean-up replaces the outcome. -/
def ensure (program : Prog ι ρ ε α) (cleanup : Prog ι ρ ε Unit) : Prog ι ρ ε α :=
  match program with
  | .ret value => cleanup.bind fun _ => .ret value
  | .raise error => cleanup.bind fun _ => .raise error
  | .act action rest => .act action fun reply => (rest reply).ensure cleanup

instance : Monad (Prog ι ρ ε) where
  pure := .ret
  bind := bind

instance : MonadExcept ε (Prog ι ρ ε) where
  throw := .raise
  tryCatch := attempt

def perform (action : ι) : Prog ι ρ ε (ρ action) :=
  .act action fun
    | .ok reply => .ret reply
    | .error error => .raise error

def ofExcept : Except ε α → Prog ι ρ ε α
  | .ok value => .ret value
  | .error error => .raise error

def finished : Prog ι ρ ε α → Bool
  | .act _ _ => false
  | _ => true

def returned : Prog ι ρ ε α → Bool
  | .ret _ => true
  | _ => false

/-- Weakest precondition of a program over an arbitrary reading of its actions. -/
def wp (T : Transformer ι ρ ε M) : Prog ι ρ ε α → M → (Except ε α → M → Prop) → Prop
  | .ret value, m, post => post (.ok value) m
  | .raise error, m, post => post (.error error) m
  | .act action rest, m, post => T action m fun reply m' => (rest reply).wp T m' post

section
variable {T : Transformer ι ρ ε M} {m : M}

/-- What the rest of a sequence owes after its first part ended with `result`. -/
def continueWith (T : Transformer ι ρ ε M) (next : α → Prog ι ρ ε β)
    (post : Except ε β → M → Prop) (result : Except ε α) (m : M) : Prop :=
  match result with
  | .ok value => (next value).wp T m post
  | .error error => post (.error error) m

variable {post : Except ε α → M → Prop}

variable {next : α → Prog ι ρ ε β}

@[simp] theorem continueWith_ok {post : Except ε β → M → Prop} :
    continueWith T next post (.ok value) m = (next value).wp T m post := rfl

@[simp] theorem continueWith_error {post : Except ε β → M → Prop} :
    continueWith T next post (.error error) m = post (.error error) m := rfl

@[simp] theorem wp_pure :
    (pure value : Prog ι ρ ε α).wp T m post = post (.ok value) m := rfl

@[simp] theorem wp_ret :
    (ret value : Prog ι ρ ε α).wp T m post = post (.ok value) m := rfl

@[simp] theorem wp_throw :
    (throw error : Prog ι ρ ε α).wp T m post = post (.error error) m := rfl

@[simp] theorem wp_raise :
    (raise error : Prog ι ρ ε α).wp T m post = post (.error error) m := rfl

theorem wp_bind' (program : Prog ι ρ ε α) (next : α → Prog ι ρ ε β)
    (post : Except ε β → M → Prop) :
    (program.bind next).wp T m post = program.wp T m (continueWith T next post) := by
  induction program generalizing m with
  | ret value | raise error => rfl
  | act action rest ih =>
    exact congrArg (T action m) (funext fun reply => funext fun _ => ih reply)

@[simp] theorem wp_bind (program : Prog ι ρ ε α) (next : α → Prog ι ρ ε β)
    (post : Except ε β → M → Prop) :
    (program >>= next).wp T m post = program.wp T m (continueWith T next post) :=
  wp_bind' program next post

@[simp] theorem wp_attempt (program : Prog ι ρ ε α) (handler : ε → Prog ι ρ ε α)
    (post : Except ε α → M → Prop) :
    (tryCatch program handler).wp T m post = program.wp T m fun result m' =>
      match result with
      | .ok value => post (.ok value) m'
      | .error error => (handler error).wp T m' post := by
  change (program.attempt handler).wp T m post = _
  induction program generalizing m with
  | ret value | raise error => rfl
  | act action rest ih =>
    exact congrArg (T action m) (funext fun reply => funext fun _ => ih reply)

/-- What the end of a clean-up has to satisfy after the outcome `result`. -/
def afterCleanup (post : Except ε α → M → Prop) (result : Except ε α) (cleaned : Except ε Unit)
    (m : M) : Prop :=
  match cleaned with
  | .ok _ => post result m
  | .error error => post (.error error) m

@[simp] theorem wp_ensure (program : Prog ι ρ ε α) (cleanup : Prog ι ρ ε Unit)
    (post : Except ε α → M → Prop) :
    (program.ensure cleanup).wp T m post = program.wp T m fun result m' =>
      cleanup.wp T m' (afterCleanup post result) := by
  induction program generalizing m with
  | ret value | raise error =>
    simp only [ensure,wp_bind',wp]
    congr 1
    funext result m'
    cases result <;> rfl
  | act action rest ih =>
    exact congrArg (T action m) (funext fun reply => funext fun _ => ih reply)

@[simp] theorem wp_perform (action : ι) (post : Except ε (ρ action) → M → Prop) :
    (perform action).wp T m post = T action m post := by
  refine congrArg (T action m) (funext fun reply => funext fun _ => ?_)
  cases reply <;> rfl

@[simp] theorem wp_ofExcept (result : Except ε α) (post : Except ε α → M → Prop) :
    (ofExcept result : Prog ι ρ ε α).wp T m post = post result m := by
  cases result <;> rfl

theorem wp_ite (c : Prop) [Decidable c] (yes no : Prog ι ρ ε α) (post : Except ε α → M → Prop) :
    (if c then yes else no).wp T m post ↔
      (c → yes.wp T m post) ∧ (¬c → no.wp T m post) := by
  split <;> simp_all

/-- Consequence: a weaker postcondition is enough, when the actions respect it. -/
theorem wp_mono (mono : ∀ action m (K L : Except ε (ρ action) → M → Prop),
      (∀ reply m', K reply m' → L reply m') → T action m K → T action m L)
    {program : Prog ι ρ ε α} {weaker : Except ε α → M → Prop}
    (implies : ∀ result m', post result m' → weaker result m')
    (h : program.wp T m post) : program.wp T m weaker := by
  induction program generalizing m with
  | ret value | raise error => exact implies _ _ h
  | act action rest ih => exact mono action m _ _ (fun reply _ => ih reply) h

end

/-- A client protocol: the mode after a reply, or `none` where the action is not allowed. -/
abbrev Protocol (ι : Type) (ρ : ι → Type) (ε M : Type) :=
  (action : ι) → Except ε (ρ action) → M → Option M

/-- Whatever the replies are, the program keeps to the protocol and ends in `post`. -/
def Follows (rule : Protocol ι ρ ε M) (program : Prog ι ρ ε α) (m : M)
    (post : Except ε α → M → Prop) : Prop :=
  program.wp (fun action m K => ∀ reply, ∃ m', rule action reply m = some m' ∧ K reply m') m post

theorem Follows.mono {rule : Protocol ι ρ ε M} {program : Prog ι ρ ε α}
    {post weaker : Except ε α → M → Prop} (h : program.Follows rule m post)
    (implies : ∀ result m', post result m' → weaker result m') : program.Follows rule m weaker :=
  wp_mono (fun _ _ _ _ imp step reply =>
    let ⟨m',taken,rest⟩ := step reply
    ⟨m',taken,imp reply m' rest⟩) implies h

section
variable {rule : Protocol ι ρ ε M} {m : M}

variable {post first : Except ε α → M → Prop} {program : Prog ι ρ ε α} {action : ι} {next : α → Prog ι ρ ε β} {N : Type}

variable {rule : Protocol ι ρ ε M} {result : Except ε α} {handler : ε → Prog ι ρ ε α} {cleanup : Prog ι ρ ε Unit}
  {error : ε} {n : N} {rule' : Protocol ι ρ ε N}

theorem Follows.ended {m : M}
    (follows : program.Follows rule m post) (finished : program.finished = true) : ∃ result, post result m := by
  cases program with
  | ret value | raise error => exact ⟨_,follows⟩
  | act action rest => contradiction

theorem Follows.perform {post : Except ε (ρ action) → M → Prop}
    (allowed : ∀ reply, ∃ m', rule action reply m = some m' ∧ post reply m') :
    (Prog.perform action).Follows rule m post := by
  unfold Follows
  rw [wp_perform]
  exact allowed

theorem Follows.ofExcept :
    (Prog.ofExcept result : Prog ι ρ ε α).Follows rule m fun ended m' => ended = result ∧ m' = m := by
  cases result <;> exact ⟨rfl,rfl⟩

theorem Follows.bind {post : Except ε β → M → Prop}
    (h : program.Follows rule m first)
    (goesOn : ∀ value m', first (.ok value) m' → (next value).Follows rule m' post)
    (fails : ∀ error m', first (.error error) m' → post (.error error) m') :
    (program >>= next).Follows rule m post := by
  unfold Follows
  rw [wp_bind]
  refine h.mono ?_
  rintro (error | value) m' ended
  · exact fails error m' ended
  · exact goesOn value m' ended

theorem Follows.attempt (h : program.Follows rule m first)
    (ends : ∀ value m', first (.ok value) m' → post (.ok value) m')
    (handles : ∀ error m', first (.error error) m' → (handler error).Follows rule m' post) :
    (tryCatch program handler).Follows rule m post := by
  unfold Follows
  rw [wp_attempt]
  refine h.mono ?_
  rintro (error | value) m' ended
  · exact handles error m' ended
  · exact ends value m' ended

theorem Follows.ensure (h : program.Follows rule m first)
    (cleans : ∀ result m', first result m' → cleanup.Follows rule m' (afterCleanup post result)) :
    (program.ensure cleanup).Follows rule m post := by
  unfold Follows
  rw [wp_ensure]
  exact h.mono cleans

def Stays (rule : Protocol ι ρ ε M) (m : M) (program : Prog ι ρ ε α) : Prop :=
  program.Follows rule m fun _ m' => m' = m

theorem Stays.pure {value : α} : (pure value : Prog ι ρ ε α).Stays rule m := rfl

theorem Stays.throw : (throw error : Prog ι ρ ε α).Stays rule m := rfl

theorem Stays.throw_bind :
    ((raise error : Prog ι ρ ε α) >>= next).Stays rule m := rfl

theorem Stays.ofExcept : (ofExcept result : Prog ι ρ ε α).Stays rule m := by
  cases result <;> rfl

theorem Stays.perform (keeps : ∀ reply, rule action reply m = some m) :
    (Prog.perform action).Stays rule m :=
  Follows.perform fun reply => ⟨m,keeps reply,rfl⟩

theorem Stays.bind (h : program.Stays rule m)
    (goesOn : ∀ value, (next value).Stays rule m) : (program >>= next).Stays rule m := by
  refine Follows.bind h ?_ fun _ _ same => same
  rintro value _ rfl
  exact goesOn value

theorem Stays.attempt
    (h : program.Stays rule m) (handles : ∀ error, (handler error).Stays rule m) :
    (tryCatch program handler).Stays rule m := by
  refine Follows.attempt h (fun _ _ same => same) ?_
  rintro error _ rfl
  exact handles error

theorem Stays.ensure
    (h : program.Stays rule m) (cleans : cleanup.Stays rule m) :
    (program.ensure cleanup).Stays rule m := by
  refine Follows.ensure h ?_
  rintro result _ rfl
  refine cleans.mono ?_
  rintro (error | _) _ rfl <;> rfl

/-- What stays under one rule stays under every other that leaves alone what the first allows. -/
theorem Stays.transfer
    (h : program.Stays rule m)
    (same : ∀ action reply m', rule action reply m = some m' → m' = m ∧ rule' action reply n = some n) :
    program.Stays rule' n := by
  induction program with
  | ret value | raise error => rfl
  | act action rest ih =>
    intro reply
    obtain ⟨m',allowed,stays⟩ := h reply
    obtain ⟨rfl,kept⟩ := same action reply m' allowed
    exact ⟨n,kept,ih reply stays⟩

def both {N : Type} (rule : Protocol ι ρ ε M) (rule' : Protocol ι ρ ε N) : Protocol ι ρ ε (M × N) :=
  fun action reply m =>
    (rule action reply m.1).bind fun m' => (rule' action reply m.2).map fun n' => (m',n')

theorem both_eq_some
    {reply : Except ε (ρ action)} {m m' : M × N} : both rule rule' action reply m = some m' ↔
      rule action reply m.1 = some m'.1 ∧ rule' action reply m.2 = some m'.2 := by
  unfold both
  cases rule action reply m.1 <;> cases rule' action reply m.2 <;> simp [Prod.ext_iff]

theorem Follows.both {post' : Except ε α → N → Prop} (h : program.Follows rule m post)
    (h' : program.Follows rule' n post') :
    program.Follows (Prog.both rule rule') (m,n) fun result mn => post result mn.1 ∧ post' result mn.2 := by
  induction program generalizing m n with
  | ret value | raise error => exact ⟨h,h'⟩
  | act action rest ih =>
    intro reply
    obtain ⟨m',allowed,continues⟩ := h reply
    obtain ⟨n',allowed',continues'⟩ := h' reply
    exact ⟨(m',n'),both_eq_some.mpr ⟨allowed,allowed'⟩,ih reply continues continues'⟩

end

end Prog

section
variable {τ χ σ ι M : Type} {ρ : ι → Type} {ε α : Type}

structure Config (τ σ ι : Type) (ρ : ι → Type) (ε α : Type) where
  shared : σ
  tasks : τ → Prog ι ρ ε α

structure Transition (τ χ σ ι : Type) (ρ : ι → Type) (ε : Type) where
  task : τ
  action : ι
  choice : χ
  before : σ
  reply : Except ε (ρ action)
  after : σ

/-- A property of every transition, given everything that happened before it. -/
def Throughout (P : List (Transition τ χ σ ι ρ ε) → Transition τ χ σ ι ρ ε → Prop)
    (past : List (Transition τ χ σ ι ρ ε)) : List (Transition τ χ σ ι ρ ε) → Prop
  | [] => True
  | tr :: rest => P past tr ∧ Throughout P (past ++ [tr]) rest

instance Throughout.decidable (P : List (Transition τ χ σ ι ρ ε) → Transition τ χ σ ι ρ ε → Prop)
    [∀ past tr, Decidable (P past tr)] (past) : ∀ trace, Decidable (Throughout P past trace)
  | [] => .isTrue trivial
  | tr :: rest =>
    have := Throughout.decidable P (past ++ [tr]) rest
    inferInstanceAs (Decidable (_ ∧ _))

variable {P : List (Transition τ χ σ ι ρ ε) → Transition τ χ σ ι ρ ε → Prop} {tr : Transition τ χ σ ι ρ ε}

variable {Q : List (Transition τ χ σ ι ρ ε) → Transition τ χ σ ι ρ ε → Prop}
  {began ended : Transition τ χ σ ι ρ ε → Bool} {past : List (Transition τ χ σ ι ρ ε)} {cfg next : Config τ σ ι ρ ε α}
  {choice : χ} {task : τ}

theorem Throughout.mono
    (implies : ∀ past tr, P past tr → Q past tr) {past trace} (h : Throughout P past trace) :
    Throughout Q past trace := by
  induction trace generalizing past with
  | nil => trivial
  | cons tr rest ih => exact ⟨implies _ _ h.1,ih h.2⟩

/-- Where two properties agree on every transition, they agree on the whole run. -/
theorem throughout_congr
    {past trace} (same : Throughout (fun past tr => (P past tr ↔ Q past tr)) past trace) :
    Throughout P past trace ↔ Throughout Q past trace := by
  induction trace generalizing past with
  | nil => simp [Throughout]
  | cons tr rest ih => simp only [Throughout,same.1,ih same.2]

theorem throughout_iff_forall {P : Transition τ χ σ ι ρ ε → Prop} {past trace} :
    Throughout (fun _ => P) past trace ↔ ∀ tr ∈ trace, P tr := by
  induction trace generalizing past with
  | nil => simp [Throughout]
  | cons tr rest ih => simp [Throughout,ih]

theorem Throughout.getElem?
    {past steps} (h : Throughout P past steps) {k : Nat}
    (found : steps[k]? = some tr) : P (past ++ steps.take k) tr := by
  induction steps generalizing past k with
  | nil => contradiction
  | cons head rest ih =>
    cases k with
    | zero =>
      obtain rfl := Option.some.inj found
      simpa using h.1
    | succ k => simpa using ih h.2 found

def since (began ended : Transition τ χ σ ι ρ ε → Bool) (past : List (Transition τ χ σ ι ρ ε)) : Bool :=
  past.foldl (fun lasts tr => !ended tr && (lasts || began tr)) false

theorem since_concat (began ended : Transition τ χ σ ι ρ ε → Bool) (past : List (Transition τ χ σ ι ρ ε))
    (tr : Transition τ χ σ ι ρ ε) :
    since began ended (past ++ [tr]) = (!ended tr && (since began ended past || began tr)) := by
  unfold since
  rw [List.foldl_append]
  rfl

theorem since_mono {began' : Transition τ χ σ ι ρ ε → Bool}
    (implies : ∀ tr, began tr = true → began' tr = true)
    (lasts : since began ended past = true) : since began' ended past = true := by
  induction past using List.reverseRecOn with
  | nil => contradiction
  | append_singleton past tr ih =>
    rw [since_concat,Bool.and_eq_true,Bool.or_eq_true] at lasts ⊢
    exact ⟨lasts.1,lasts.2.imp ih (implies tr)⟩

/-- What began and was not followed by its end still lasts. -/
theorem since_of_mem
    (differ : ∀ tr, began tr = true → ended tr = false)
    (happened : ∃ tr ∈ past, began tr = true) (unended : since ended began past = false) :
    since began ended past = true := by
  induction past using List.reverseRecOn with
  | nil => simp at happened
  | append_singleton past tr ih =>
    rw [since_concat] at unended ⊢
    cases now : began tr with
    | true => simp [differ tr now]
    | false =>
      simp only [now,Bool.not_false,Bool.true_and,Bool.or_eq_false_iff] at unended
      have before : ∃ tr ∈ past, began tr = true := by
        obtain ⟨step,member,here⟩ := happened
        rw [List.mem_append,List.mem_singleton] at member
        rcases member with member | rfl
        · exact ⟨step,member,here⟩
        · rw [now] at here
          contradiction
      simp [ih before unended.1,unended.2]

/-- How many transitions of a trace have a property. -/
def occurrences (P : List (Transition τ χ σ ι ρ ε) → Transition τ χ σ ι ρ ε → Prop)
    [∀ past tr, Decidable (P past tr)] (past : List (Transition τ χ σ ι ρ ε)) :
    List (Transition τ χ σ ι ρ ε) → Nat
  | [] => 0
  | tr :: rest => (if P past tr then 1 else 0) + occurrences P (past ++ [tr]) rest

theorem occurrences_concat (P : List (Transition τ χ σ ι ρ ε) → Transition τ χ σ ι ρ ε → Prop)
    [∀ past tr, Decidable (P past tr)] (past trace : List (Transition τ χ σ ι ρ ε))
    (tr : Transition τ χ σ ι ρ ε) : occurrences P past (trace ++ [tr]) =
      occurrences P past trace + if P (past ++ trace) tr then 1 else 0 := by
  induction trace generalizing past with
  | nil => simp [occurrences]
  | cons head rest ih =>
    simp only [List.cons_append,occurrences,ih,List.append_assoc,List.nil_append]
    omega

variable [DecidableEq τ] (exec : (action : ι) → χ → σ → Option (σ × Except ε (ρ action)))

/-- A scheduled task moves when it is not finished and its action is enabled. -/
def advance (task : τ) (choice : χ) (cfg : Config τ σ ι ρ ε α) :
    Option (Config τ σ ι ρ ε α × Transition τ χ σ ι ρ ε) :=
  match cfg.tasks task with
  | .ret _ | .raise _ => none
  | .act action next =>
    (exec action choice cfg.shared).map fun done =>
      (⟨done.1,Function.update cfg.tasks task (next done.2)⟩,
        ⟨task,action,choice,cfg.shared,done.2,done.1⟩)

/-- Turns of tasks that cannot move are skipped. -/
def run : List (τ × χ) → Config τ σ ι ρ ε α →
    Config τ σ ι ρ ε α × List (Transition τ χ σ ι ρ ε)
  | [], cfg => (cfg,[])
  | (task,choice) :: schedule, cfg =>
    match advance exec task choice cfg with
    | none => run schedule cfg
    | some (next,transition) =>
      let rest := run schedule next
      (rest.1,transition :: rest.2)

/-- The transition really is the machine's answer to its action. -/
def Taken (tr : Transition τ χ σ ι ρ ε) : Prop :=
  exec tr.action tr.choice tr.before = some (tr.after,tr.reply)

variable {exec}

theorem advance_eq_some (h : advance exec task choice cfg = some (next,tr)) :
    ∃ rest, cfg.tasks task = .act tr.action rest ∧ tr.task = task ∧ tr.before = cfg.shared ∧
      tr.choice = choice ∧ Taken exec tr ∧
      next = ⟨tr.after,Function.update cfg.tasks task (rest tr.reply)⟩ := by
  unfold advance at h
  split at h
  · contradiction
  · contradiction
  · rename_i action rest eq
    obtain ⟨done,taken,same⟩ := Option.map_eq_some_iff.mp h
    obtain ⟨rfl,rfl⟩ := Prod.mk.inj same
    exact ⟨rest,eq,rfl,rfl,rfl,taken,rfl⟩

variable {rule : τ → Prog.Protocol ι ρ ε M} {post : τ → Except ε α → M → Prop}
  {J : List (Transition τ χ σ ι ρ ε) → (τ → M) → σ → Prop}
  {legal : List (Transition τ χ σ ι ρ ε) → Transition τ χ σ ι ρ ε → Prop}

/-- A client that moves stays a client, in the mode its protocol gives. -/
theorem advance_follows {modes : τ → M}
    (moved : advance exec task choice cfg = some (next,tr))
    (follows : ∀ t, (cfg.tasks t).Follows (rule t) (modes t) (post t)) :
    ∃ m, rule tr.task tr.action tr.reply (modes tr.task) = some m ∧
      ∀ t, (next.tasks t).Follows (rule t) (Function.update modes tr.task m t) (post t) := by
  obtain ⟨rest,eq,rfl,_,_,_,rfl⟩ := advance_eq_some moved
  have client := follows tr.task
  rw [eq] at client
  obtain ⟨m,allowed,continues⟩ := client tr.reply
  refine ⟨m,allowed,fun t => ?_⟩
  by_cases same : t = tr.task
  · subst same
    simp only [Function.update_self]
    exact continues
  · simpa only [Function.update_of_ne same] using follows t

/-- The run rule. Clients of their protocols keep a joint invariant of the history, their
modes and the shared state, when one allowed transition keeps it. -/
theorem run_keeps
    (keeps : ∀ past modes tr m, J past modes tr.before → Taken exec tr →
      rule tr.task tr.action tr.reply (modes tr.task) = some m → legal past tr →
      J (past ++ [tr]) (Function.update modes tr.task m) tr.after)
    (schedule : List (τ × χ)) (cfg : Config τ σ ι ρ ε α) (past) (modes : τ → M)
    (start : J past modes cfg.shared)
    (follows : ∀ t, (cfg.tasks t).Follows (rule t) (modes t) (post t))
    (lawful : Throughout legal past (run exec schedule cfg).2) :
    ∃ modes', J (past ++ (run exec schedule cfg).2) modes' (run exec schedule cfg).1.shared ∧
      ∀ t, ((run exec schedule cfg).1.tasks t).Follows (rule t) (modes' t) (post t) := by
  induction schedule generalizing cfg past modes with
  | nil => exact ⟨modes,by simpa [run] using start,follows⟩
  | cons turn schedule ih =>
    obtain ⟨task,choice⟩ := turn
    cases moved : advance exec task choice cfg with
    | none =>
      simp only [run,moved] at lawful ⊢
      exact ih cfg past modes start follows lawful
    | some step =>
      obtain ⟨next,tr⟩ := step
      simp only [run,moved] at lawful ⊢
      obtain ⟨m,allowed,clients⟩ := advance_follows moved follows
      obtain ⟨rest,_,_,before,_,taken,rfl⟩ := advance_eq_some moved
      have kept := keeps past modes tr m (before ▸ start) taken allowed lawful.1
      simpa only [List.append_assoc,List.singleton_append] using
        ih _ (past ++ [tr]) _ kept clients lawful.2

/-- What the joint invariant says about each transition holds of every transition. -/
theorem run_transitions
    (keeps : ∀ past modes tr m, J past modes tr.before → Taken exec tr →
      rule tr.task tr.action tr.reply (modes tr.task) = some m → legal past tr →
      J (past ++ [tr]) (Function.update modes tr.task m) tr.after)
    (each : ∀ past modes tr m, J past modes tr.before → Taken exec tr →
      rule tr.task tr.action tr.reply (modes tr.task) = some m → legal past tr → P past tr)
    (schedule : List (τ × χ)) (cfg : Config τ σ ι ρ ε α) (past) (modes : τ → M)
    (start : J past modes cfg.shared)
    (follows : ∀ t, (cfg.tasks t).Follows (rule t) (modes t) (post t))
    (lawful : Throughout legal past (run exec schedule cfg).2) :
    Throughout P past (run exec schedule cfg).2 := by
  induction schedule generalizing cfg past modes with
  | nil => trivial
  | cons turn schedule ih =>
    obtain ⟨task,choice⟩ := turn
    cases moved : advance exec task choice cfg with
    | none =>
      simp only [run,moved] at lawful ⊢
      exact ih cfg past modes start follows lawful
    | some step =>
      obtain ⟨next,tr⟩ := step
      simp only [run,moved] at lawful ⊢
      obtain ⟨m,allowed,clients⟩ := advance_follows moved follows
      obtain ⟨rest,_,_,before,_,taken,rfl⟩ := advance_eq_some moved
      have held : J past modes tr.before := before ▸ start
      exact ⟨each past modes tr m held taken allowed lawful.1,
        ih _ (past ++ [tr]) _ (keeps past modes tr m held taken allowed lawful.1) clients lawful.2⟩

end

section
variable {χ σ ι M : Type} {ρ : ι → Type} {ε α β : Type}
  {exec : (action : ι) → χ → σ → Option (σ × Except ε (ρ action))}
  {legal : Transition Unit χ σ ι ρ ε → Prop} {s : σ}

/-- What a program owes that nobody else interrupts: every finished run of legal steps
ends in `post`. -/
def Alone (exec : (action : ι) → χ → σ → Option (σ × Except ε (ρ action)))
    (legal : Transition Unit χ σ ι ρ ε → Prop) (program : Prog ι ρ ε α) (s : σ)
    (post : Except ε α → σ → Prop) : Prop :=
  program.wp (fun action s K => ∀ choice s' reply, exec action choice s = some (s',reply) →
    legal ⟨(),action,choice,s,reply,s'⟩ → K reply s') s post

variable {program : Prog ι ρ ε α} {post : Except ε α → σ → Prop}

theorem Alone.mono {weaker : Except ε α → σ → Prop} (h : Alone exec legal program s post)
    (implies : ∀ result s', post result s' → weaker result s') : Alone exec legal program s weaker :=
  Prog.wp_mono (fun _ _ _ _ imp step choice s' reply done lawful =>
    imp reply s' (step choice s' reply done lawful)) implies h

theorem Alone.perform {action : ι} {post : Except ε (ρ action) → σ → Prop}
    (each : ∀ choice s' reply, exec action choice s = some (s',reply) →
      legal ⟨(),action,choice,s,reply,s'⟩ → post reply s') :
    Alone exec legal (Prog.perform action) s post := by
  unfold Alone
  rw [Prog.wp_perform]
  exact each

variable {first : Except ε α → σ → Prop}

theorem Alone.bind {next : α → Prog ι ρ ε β}
    {post : Except ε β → σ → Prop} (h : Alone exec legal program s first)
    (goesOn : ∀ value s', first (.ok value) s' → Alone exec legal (next value) s' post)
    (fails : ∀ error s', first (.error error) s' → post (.error error) s') :
    Alone exec legal (program >>= next) s post := by
  unfold Alone
  rw [Prog.wp_bind]
  refine h.mono ?_
  rintro (error | value) s' ended
  · exact fails error s' ended
  · exact goesOn value s' ended

theorem Alone.attempt {handler : ε → Prog ι ρ ε α}
    (h : Alone exec legal program s first)
    (ends : ∀ value s', first (.ok value) s' → post (.ok value) s')
    (handles : ∀ error s', first (.error error) s' → Alone exec legal (handler error) s' post) :
    Alone exec legal (tryCatch program handler) s post := by
  unfold Alone
  rw [Prog.wp_attempt]
  refine h.mono ?_
  rintro (error | value) s' ended
  · exact handles error s' ended
  · exact ends value s' ended

theorem Alone.ensure {cleanup : Prog ι ρ ε Unit}
    (h : Alone exec legal program s first)
    (cleans : ∀ result s', first result s' → Alone exec legal cleanup s' (Prog.afterCleanup post result)) :
    Alone exec legal (program.ensure cleanup) s post := by
  unfold Alone
  rw [Prog.wp_ensure]
  exact h.mono cleans

/-- A client of a protocol keeps alone what one allowed step keeps. -/
theorem Prog.Follows.alone {rule : Prog.Protocol ι ρ ε M} {J : M → σ → Prop} {m : M}
    {post : Except ε α → M → Prop} (h : program.Follows rule m post)
    (keeps : ∀ (tr : Transition Unit χ σ ι ρ ε) m m', J m tr.before → Taken exec tr →
      rule tr.action tr.reply m = some m' → legal tr → J m' tr.after)
    (start : J m s) :
    Alone exec legal program s fun result s' => ∃ m', J m' s' ∧ post result m' := by
  induction program generalizing m s with
  | ret value | raise error => exact ⟨m,start,h⟩
  | act action next ih =>
    intro choice s' reply done lawful
    obtain ⟨m',allowed,rest⟩ := h reply
    exact ih reply rest (keeps ⟨(),action,choice,s,reply,s'⟩ m m' start done allowed lawful)

/-- What is left of the program after some turns still owes the same. -/
theorem run_alone (schedule : List (Unit × χ)) (cfg : Config Unit σ ι ρ ε α)
    (owes : Alone exec legal (cfg.tasks ()) cfg.shared post)
    (lawful : ∀ tr ∈ (run exec schedule cfg).2, legal tr) :
    Alone exec legal ((run exec schedule cfg).1.tasks ()) (run exec schedule cfg).1.shared post := by
  induction schedule generalizing cfg with
  | nil => exact owes
  | cons turn schedule ih =>
    obtain ⟨task,choice⟩ := turn
    cases moved : advance exec task choice cfg with
    | none =>
      simp only [run,moved] at lawful ⊢
      exact ih cfg owes lawful
    | some step =>
      obtain ⟨next,tr⟩ := step
      simp only [run,moved,List.mem_cons,forall_eq_or_imp] at lawful ⊢
      obtain ⟨rest,eq,_,before,_,taken,rfl⟩ := advance_eq_some moved
      apply ih _ _ lawful.2
      rw [eq] at owes
      simp only [Function.update_self]
      exact owes tr.choice tr.after tr.reply (before ▸ taken) (before ▸ lawful.1)

theorem Alone.ended (h : Alone exec legal program s post) (finished : program.finished = true) :
    ∃ result, post result s := by
  cases program with
  | ret value | raise error => exact ⟨_,h⟩
  | act action next => contradiction

end

end Interleaving
