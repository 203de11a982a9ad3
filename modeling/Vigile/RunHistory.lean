import Vigile.Interleaving

/-! Programs with the history of their own steps: what a finished run owes may speak of the
steps it took. The other tasks may move in between, as far as a relation allows them. -/
namespace Interleaving

variable {τ χ σ ι : Type} {ρ : ι → Type} {ε α β : Type}
  {exec : (action : ι) → χ → σ → Option (σ × Except ε (ρ action))} {rely : σ → σ → Prop} {task : τ}

/-- A state with the steps of one task that led to it. -/
abbrev Recorded (τ χ σ ι : Type) (ρ : ι → Type) (ε : Type) := σ × List (Transition τ χ σ ι ρ ε)

/-- What a program owes between whose steps the others may change the state: every finished
run ends in `post`. -/
def Amid (exec : (action : ι) → χ → σ → Option (σ × Except ε (ρ action))) (rely : σ → σ → Prop)
    (task : τ) (program : Prog ι ρ ε α) (s : Recorded τ χ σ ι ρ ε)
    (post : Except ε α → Recorded τ χ σ ι ρ ε → Prop) : Prop :=
  program.wp (fun action s K => ∀ before choice s' reply, rely s.1 before →
    exec action choice before = some (s',reply) →
      K reply (s',s.2 ++ [⟨task,action,choice,before,reply,s'⟩])) s post

variable {program : Prog ι ρ ε α} {s : Recorded τ χ σ ι ρ ε}
  {post : Except ε α → Recorded τ χ σ ι ρ ε → Prop}

theorem Amid.mono {weaker : Except ε α → Recorded τ χ σ ι ρ ε → Prop}
    (h : Amid exec rely task program s post)
    (implies : ∀ result s', post result s' → weaker result s') :
    Amid exec rely task program s weaker :=
  Prog.wp_mono (fun _ _ _ _ imp step before choice s' reply may done =>
    imp reply _ (step before choice s' reply may done)) implies h

theorem Amid.perform {action : ι} {post : Except ε (ρ action) → Recorded τ χ σ ι ρ ε → Prop}
    (each : ∀ before choice s' reply, rely s.1 before → exec action choice before = some (s',reply) →
      post reply (s',s.2 ++ [⟨task,action,choice,before,reply,s'⟩])) :
    Amid exec rely task (Prog.perform action) s post := by
  unfold Amid
  rw [Prog.wp_perform]
  exact each

variable {first : Except ε α → Recorded τ χ σ ι ρ ε → Prop}

theorem Amid.bind {next : α → Prog ι ρ ε β}
    {post : Except ε β → Recorded τ χ σ ι ρ ε → Prop} (h : Amid exec rely task program s first)
    (goesOn : ∀ value s', first (.ok value) s' → Amid exec rely task (next value) s' post)
    (fails : ∀ error s', first (.error error) s' → post (.error error) s') :
    Amid exec rely task (program >>= next) s post := by
  unfold Amid
  rw [Prog.wp_bind]
  refine h.mono ?_
  rintro (error | value) s' ended
  · exact fails error s' ended
  · exact goesOn value s' ended

theorem Amid.attempt {handler : ε → Prog ι ρ ε α} (h : Amid exec rely task program s first)
    (ends : ∀ value s', first (.ok value) s' → post (.ok value) s')
    (handles : ∀ error s', first (.error error) s' → Amid exec rely task (handler error) s' post) :
    Amid exec rely task (tryCatch program handler) s post := by
  unfold Amid
  rw [Prog.wp_attempt]
  refine h.mono ?_
  rintro (error | value) s' ended
  · exact handles error s' ended
  · exact ends value s' ended

theorem Amid.ensure {cleanup : Prog ι ρ ε Unit}
    (h : Amid exec rely task program s first)
    (cleans : ∀ result s', first result s' →
      Amid exec rely task cleanup s' (Prog.afterCleanup post result)) :
    Amid exec rely task (program.ensure cleanup) s post := by
  unfold Amid
  rw [Prog.wp_ensure]
  exact h.mono cleans

/-- How a task ended. -/
def Prog.outcome : Prog ι ρ ε α → Option (Except ε α)
  | .ret value => some (.ok value)
  | .raise error => some (.error error)
  | .act _ _ => none

theorem Amid.ended {result : Except ε α} (h : Amid exec rely task program s post)
    (outcome : program.outcome = some result) : post result s := by
  cases program with
  | ret value | raise error =>
    obtain rfl := Option.some.inj outcome
    exact h
  | act action next => contradiction

/-- The history only grows, whatever the program is. -/
theorem Amid.extends (program : Prog ι ρ ε α) (s : Recorded τ χ σ ι ρ ε) :
    Amid exec rely task program s fun _ s' => s.2 <+: s'.2 := by
  induction program generalizing s with
  | ret value | raise error => exact List.prefix_rfl
  | act action next ih =>
    intro before choice s' reply _ _
    apply (ih reply _).mono
    intro _ _ later
    exact (List.prefix_append _ _).trans later

variable [DecidableEq τ]

/-- Every transition of a run is the machine's answer to its action. -/
theorem run_taken (schedule : List (τ × χ)) (cfg : Config τ σ ι ρ ε α) :
    ∀ tr ∈ (run exec schedule cfg).2, Taken exec tr := by
  induction schedule generalizing cfg with
  | nil => simp [run]
  | cons turn schedule ih =>
    obtain ⟨who,choice⟩ := turn
    cases moved : advance exec who choice cfg with
    | none =>
      simp only [run,moved]
      exact ih cfg
    | some step =>
      obtain ⟨next,tr⟩ := step
      obtain ⟨_,_,_,_,_,taken,_⟩ := advance_eq_some moved
      simp only [run,moved,List.mem_cons,forall_eq_or_imp]
      exact ⟨taken,ih next⟩

def ownSteps (task : τ) (trace : List (Transition τ χ σ ι ρ ε)) : List (Transition τ χ σ ι ρ ε) :=
  trace.filter fun tr => tr.task = task

/-- In a run in which the other tasks keep to the relation, what is left of the program owes
the same, from a state that the others may have left since. -/
theorem run_amid (refl : ∀ s, rely s s) (trans : ∀ a b c, rely a b → rely b c → rely a c)
    (schedule : List (τ × χ)) (cfg : Config τ σ ι ρ ε α) (s₀ : σ)
    (past : List (Transition τ χ σ ι ρ ε))
    (owes : Amid exec rely task (cfg.tasks task) (s₀,past) post) (reached : rely s₀ cfg.shared)
    (others : ∀ tr ∈ (run exec schedule cfg).2, tr.task ≠ task → rely tr.before tr.after) :
    ∃ s₁, rely s₁ (run exec schedule cfg).1.shared ∧
      Amid exec rely task ((run exec schedule cfg).1.tasks task)
        (s₁,past ++ ownSteps task (run exec schedule cfg).2) post := by
  induction schedule generalizing cfg s₀ past with
  | nil => exact ⟨s₀,reached,by simpa [run,ownSteps] using owes⟩
  | cons turn schedule ih =>
    obtain ⟨who,choice⟩ := turn
    cases moved : advance exec who choice cfg with
    | none =>
      simp only [run,moved] at others ⊢
      exact ih cfg s₀ past owes reached others
    | some step =>
      obtain ⟨next,tr⟩ := step
      simp only [run,moved,List.mem_cons,forall_eq_or_imp] at others ⊢
      obtain ⟨rest,eq,own,before,_,taken,rfl⟩ := advance_eq_some moved
      obtain ⟨trTask,action,choice',start,reply,after⟩ := tr
      obtain rfl : trTask = who := own
      have reached' : rely s₀ start := by rwa [show start = cfg.shared from before]
      by_cases mine : trTask = task
      · subst mine
        rw [eq] at owes
        have goesOn := owes start choice' after reply reached' taken
        have owing : Amid exec rely trTask (Function.update cfg.tasks trTask (rest reply) trTask)
            (after,past ++ [⟨trTask,action,choice',start,reply,after⟩]) post := by
          rw [Function.update_self]
          exact goesOn
        obtain ⟨s₁,related,left⟩ := ih ⟨after,Function.update cfg.tasks trTask (rest reply)⟩ after _ owing
          (refl _) others.2
        refine ⟨s₁,related,?_⟩
        simpa only [ownSteps,List.filter_cons,decide_true,if_true,List.append_assoc,
          List.singleton_append] using left
      · have owing : Amid exec rely task (Function.update cfg.tasks trTask (rest reply) task)
            (s₀,past) post := by
          rw [Function.update_of_ne (Ne.symm mine)]
          exact owes
        have moves := trans _ _ _ reached' (others.1 mine)
        obtain ⟨s₁,related,left⟩ := ih ⟨after,Function.update cfg.tasks trTask (rest reply)⟩ s₀ past owing
          moves others.2
        refine ⟨s₁,related,?_⟩
        simpa only [ownSteps,List.filter_cons,mine,decide_false,Bool.false_eq_true,if_false] using left

/-- What a program owes that nobody else interrupts. -/
abbrev Recounts (exec : (action : ι) → χ → σ → Option (σ × Except ε (ρ action)))
    (program : Prog ι ρ ε α) (s : Recorded Unit χ σ ι ρ ε)
    (post : Except ε α → Recorded Unit χ σ ι ρ ε → Prop) : Prop :=
  Amid exec Eq () program s post

theorem Recounts.perform {s : Recorded Unit χ σ ι ρ ε} {action : ι}
    {post : Except ε (ρ action) → Recorded Unit χ σ ι ρ ε → Prop}
    (each : ∀ choice s' reply, exec action choice s.1 = some (s',reply) →
      post reply (s',s.2 ++ [⟨(),action,choice,s.1,reply,s'⟩])) :
    Recounts exec (Prog.perform action) s post := by
  apply Amid.perform
  rintro _ choice s' reply rfl done
  exact each choice s' reply done

theorem run_recounts {post : Except ε α → Recorded Unit χ σ ι ρ ε → Prop} {result : Except ε α}
    (schedule : List (Unit × χ)) (cfg : Config Unit σ ι ρ ε α)
    (owes : Recounts exec (cfg.tasks ()) (cfg.shared,[]) post)
    (outcome : ((run exec schedule cfg).1.tasks ()).outcome = some result) :
    post result ((run exec schedule cfg).1.shared,(run exec schedule cfg).2) := by
  obtain ⟨s₁,same,left⟩ := run_amid (fun _ => rfl) (fun _ _ _ => Eq.trans) schedule cfg cfg.shared []
    owes rfl fun tr _ other => absurd rfl other
  have whole : ownSteps () (run exec schedule cfg).2 = (run exec schedule cfg).2 :=
    List.filter_eq_self.mpr fun _ _ => decide_eq_true rfl
  rw [whole,List.nil_append,same] at left
  exact left.ended outcome

end Interleaving
