import Mathlib.Data.List.Count
import Mathlib.Data.List.Flatten
import Mathlib.Data.List.Nodup
import Mathlib.Data.List.TakeWhile
import Vigile.Python

/-! The metrics buffer and the flushes that move its rows into the table, on connections
that keep what a failed statement has inserted in their open transaction. -/
namespace Vigile.MetricsBuffer

open Python

/-- A row of `metrics_snapshots`, of the columns only the node; reports are numbered to tell
equal rows apart. -/
structure Row where
  number : Nat
  nodeId : String
  deriving DecidableEq

structure Group where
  db : Nat
  rows : List Row
  deriving DecidableEq

inductive Phase where
  | inserting
  | committing
  | requeueing
  deriving DecidableEq

/-- A `flush_metrics` after it has drained the buffer, at the first of its groups. -/
structure Flush where
  groups : List Group
  phase : Phase
  deriving DecidableEq

/-- `pending` has the rows in the open transactions of the connections. -/
structure Metrics where
  buffer : List (Nat × Row)
  flushes : List Flush
  committed : List Row
  pending : List (Nat × Row)
  reported : List Row

def start : Metrics := ⟨[],[],[],[],[]⟩

def maxBuffered : Nat := 500

def addTo : List Group → Nat → Row → List Group
  | [], db, row => [⟨db,[row]⟩]
  | group :: rest, db, row =>
    if group.db = db then ⟨db,group.rows ++ [row]⟩ :: rest else group :: addTo rest db row

def byDb (db : Option Nat) (items : List (Nat × Row)) : List Group :=
  items.foldl (fun groups item => addTo groups (db.getD item.1) item.2) []

inductive Event where
  | report (db : Nat) (nodeId : String)
  /-- `flush_metrics` begins, with the connection of its caller or without. -/
  | drain (db : Option Nat)
  | insert (i : Nat) (stop : Option (Nat × PyError))
  | commit (i : Nat) (fault : Fault)
  | requeue (i : Nat) (cancelled : Bool)

section
-- the nodes that the table's foreign key finds
variable (known : String → Bool)

def inserted (rows : List Row) (stop : Option (Nat × PyError)) : List Row :=
  (match stop with
    | none => rows
    | some (k,_) => rows.take k).takeWhile fun row => known row.nodeId

/-- How `executemany` fails, if it does. -/
def failure (rows : List Row) (stop : Option (Nat × PyError)) : Option PyError :=
  match stop with
  | none => if rows.all fun row => known row.nodeId then none else some (.integrityError "FOREIGN KEY constraint failed")
  | some (k,error) =>
    if (rows.take k).all fun row => known row.nodeId then some error
    else some (.integrityError "FOREIGN KEY constraint failed")

def Metrics.goes (w : Metrics) (i : Nat) (groups : List Group) (phase : Phase) : Metrics :=
  {w with flushes := w.flushes.set i ⟨groups,phase⟩}

/-- What follows an error: `except Exception`, or the end of the task. -/
def Metrics.fails (w : Metrics) (i : Nat) (groups : List Group) (error : PyError) : Metrics :=
  if error.isException then w.goes i groups .requeueing else w.goes i [] .inserting

def step (w : Metrics) : Event → Option Metrics
  | .report db nodeId =>
    let row : Row := ⟨w.reported.length,nodeId⟩
    let buffer := w.buffer ++ [(db,row)]
    some {w with buffer := buffer.drop (buffer.length - maxBuffered), reported := w.reported ++ [row]}
  | .drain db => some {w with buffer := [], flushes := w.flushes ++ [⟨byDb db w.buffer,.inserting⟩]}
  | .insert i stop =>
    match w.flushes[i]? with
    | some ⟨group :: rest,.inserting⟩ =>
      let w := {w with pending := w.pending ++ (inserted known group.rows stop).map fun row => (group.db,row)}
      match failure known group.rows stop with
      | none => some (w.goes i (group :: rest) .committing)
      | some error => some (w.fails i (group :: rest) error)
    | _ => none
  | .commit i fault =>
    match w.flushes[i]? with
    | some ⟨group :: rest,.committing⟩ =>
      let w := if fault.takesEffect then
          {w with
            committed := w.committed ++ (w.pending.filter fun item => item.1 = group.db).map Prod.snd
            pending := w.pending.filter fun item => item.1 ≠ group.db}
        else w
      match fault.error? with
      | none => some (w.goes i rest .inserting)
      | some error => some (w.fails i (group :: rest) error)
    | _ => none
  | .requeue i cancelled =>
    match w.flushes[i]? with
    | some ⟨group :: rest,.requeueing⟩ =>
      if cancelled then some (w.goes i [] .inserting)
      else
        let buffer := (group.rows.map fun row => (group.db,row)) ++ w.buffer
        some ({w with buffer := buffer.take maxBuffered}.goes i rest .inserting)
    | _ => none

def next (w : Metrics) (event : Event) : Metrics := (step known w event).getD w

def run (w : Metrics) : List Event → Metrics
  | [] => w
  | event :: rest => run (next known w event) rest

/-- A property of every step of a run. -/
def Throughout (P : Metrics → Event → Prop) (w : Metrics) : List Event → Prop
  | [] => True
  | event :: rest => P w event ∧ Throughout P (next known w event) rest

/-- The rows that running flushes have in hand. -/
def Metrics.batches (w : Metrics) : List Row := w.flushes.flatMap fun flush => flush.groups.flatMap Group.rows

/-- How often a row is waiting, in hand and not stored, or stored. -/
def Metrics.places (w : Metrics) (row : Row) : Nat :=
  (w.buffer.map Prod.snd).count row + w.committed.count row + if row ∈ w.committed then 0 else w.batches.count row

/-- Every accepted row is in one place. -/
def Conserved (w : Metrics) : Prop := ∀ row ∈ w.reported, w.places row = 1

/-- Undisturbed, a flush inserts and stores every row of the group that the database accepts. -/
def Serves (w : Metrics) (event : Event) : Prop :=
  match event with
  | .insert i none => ∀ group rest, w.flushes[i]? = some ⟨group :: rest,.inserting⟩ → ∀ row ∈ group.rows,
      known row.nodeId = true → (group.db,row) ∈ (next known w event).pending
  | .commit i .none => ∀ group rest, w.flushes[i]? = some ⟨group :: rest,.committing⟩ → ∀ row ∈ group.rows,
      row ∈ (next known w event).committed
  | _ => True

def Roomy (w : Metrics) : Event → Prop
  | .report _ _ => w.buffer.length + 1 ≤ maxBuffered
  | .requeue i _ => ∀ group rest, w.flushes[i]? = some ⟨group :: rest,.requeueing⟩ →
      group.rows.length + w.buffer.length ≤ maxBuffered
  | _ => True

/-- `executemany` inserts all its rows, or fails by an exception with none inserted; a row that
the database does not accept is in no group with others; `commit` succeeds; and no flush is
cancelled that has rows in hand. -/
def Whole (w : Metrics) : Event → Prop
  | .insert i stop => ∀ group rest, w.flushes[i]? = some ⟨group :: rest,.inserting⟩ →
      (stop = none ∧ ∀ row ∈ group.rows, known row.nodeId = true) ∨
        (inserted known group.rows stop = [] ∧ (∀ error, failure known group.rows stop = some error → error.isException = true) ∧
          (stop = none → ∀ row ∈ group.rows, known row.nodeId = false))
  | .commit i fault => fault = .none ∨ ∃ error, fault = .after error ∧ error.isException = false ∧
      ∀ group rest, w.flushes[i]? = some ⟨group :: rest,.committing⟩ → rest = []
  | .requeue _ cancelled => cancelled = false
  | _ => True

end

instance decidableHead (found : Option Flush) (phase : Phase) (P : Group → List Group → Prop)
    [∀ group rest, Decidable (P group rest)] :
    Decidable (∀ group rest, found = some ⟨group :: rest,phase⟩ → P group rest) :=
  match found with
  | none => .isTrue (by simp)
  | some ⟨[],_⟩ => .isTrue (by simp)
  | some ⟨group :: rest,now⟩ =>
    if same : now = phase then
      decidable_of_iff (P group rest) (by
        subst same
        constructor
        · rintro holds _ _ is
          obtain ⟨rfl,rfl⟩ := List.cons.inj (Flush.mk.inj (Option.some.inj is)).1
          exact holds
        · exact fun every => every group rest rfl)
    else .isTrue fun _ _ is => absurd (Flush.mk.inj (Option.some.inj is)).2 same

instance Roomy.decidable (w : Metrics) : (event : Event) → Decidable (Roomy w event)
  | .report _ _ => inferInstanceAs (Decidable (w.buffer.length + 1 ≤ maxBuffered))
  | .requeue i _ => decidableHead w.flushes[i]? .requeueing fun group _ =>
      group.rows.length + w.buffer.length ≤ maxBuffered
  | .drain _ | .insert _ _ | .commit _ _ => .isTrue trivial

instance Whole.decidable (known : String → Bool) (w : Metrics) : (event : Event) → Decidable (Whole known w event)
  | .insert i stop =>
    have : ∀ group : Group, Decidable (∀ error, failure known group.rows stop = some error → error.isException = true) :=
      fun group => inferInstanceAs (Decidable (∀ error ∈ failure known group.rows stop, error.isException = true))
    decidableHead w.flushes[i]? .inserting fun group _ => (stop = none ∧ ∀ row ∈ group.rows, known row.nodeId = true) ∨
      (inserted known group.rows stop = [] ∧ (∀ error, failure known group.rows stop = some error → error.isException = true) ∧
        (stop = none → ∀ row ∈ group.rows, known row.nodeId = false))
  | .commit _ .none => .isTrue (.inl rfl)
  | .commit _ (.before error) => .isFalse (by simp [Whole])
  | .commit i (.after error) =>
    have := decidableHead w.flushes[i]? .committing fun _ rest => rest = []
    decidable_of_iff (error.isException = false ∧
      ∀ group rest, w.flushes[i]? = some ⟨group :: rest,.committing⟩ → rest = []) (by simp [Whole])
  | .requeue _ cancelled => inferInstanceAs (Decidable (cancelled = false))
  | .report _ _ | .drain _ => .isTrue trivial

instance Throughout.decidable (known : String → Bool) (P : Metrics → Event → Prop) [∀ w event, Decidable (P w event)]
    (w : Metrics) : (events : List Event) → Decidable (Throughout known P w events)
  | [] => .isTrue trivial
  | event :: rest =>
    have := Throughout.decidable known P (next known w event) rest
    inferInstanceAs (Decidable (_ ∧ _))

section
variable {row : Row}

def Flush.waiting : Flush → List Row
  | ⟨_ :: rest,.committing⟩ => rest.flatMap Group.rows
  | ⟨groups,_⟩ => groups.flatMap Group.rows

def Flush.inFlight : Flush → List Row
  | ⟨group :: _,.committing⟩ => group.rows
  | _ => []

theorem count_hand (flush : Flush) :
    (flush.groups.flatMap Group.rows).count row = flush.waiting.count row + flush.inFlight.count row := by
  obtain ⟨groups,phase⟩ := flush
  cases groups with
  | nil => cases phase <;> rfl
  | cons group rest =>
    cases phase with
    | committing =>
      simp only [Flush.waiting,Flush.inFlight,List.flatMap_cons,List.count_append]
      omega
    | inserting | requeueing => rfl

theorem count_batches (flushes : List Flush) :
    (flushes.flatMap fun flush => flush.groups.flatMap Group.rows).count row =
      (flushes.flatMap Flush.waiting).count row + (flushes.flatMap Flush.inFlight).count row := by
  induction flushes with
  | nil => rfl
  | cons flush rest ih =>
    simp only [List.flatMap_cons,List.count_append,ih,count_hand flush]
    omega

theorem count_set (part : Flush → List Row) {flushes : List Flush} {i : Nat} {old : Flush} (found : flushes[i]? = some old)
    (new : Flush) : ((flushes.set i new).flatMap part).count row + (part old).count row =
      (flushes.flatMap part).count row + (part new).count row := by
  induction flushes generalizing i with
  | nil => contradiction
  | cons head rest ih =>
    cases i with
    | zero =>
      obtain rfl := Option.some.inj found
      simp only [List.set_cons_zero,List.flatMap_cons,List.count_append]
      omega
    | succ i =>
      have later := ih (i := i) (by simpa using found)
      simp only [List.set_cons_succ,List.flatMap_cons,List.count_append]
      omega

theorem count_addTo (groups : List Group) (db : Nat) (new : Row) :
    ((addTo groups db new).flatMap Group.rows).count row = (groups.flatMap Group.rows).count row + [new].count row := by
  induction groups with
  | nil => simp [addTo]
  | cons group rest ih =>
    unfold addTo
    split
    · simp only [List.flatMap_cons,List.count_append]
      omega
    · simp only [List.flatMap_cons,List.count_append,ih]
      omega

/-- Grouping loses no row. -/
theorem count_byDb (db : Option Nat) (items : List (Nat × Row)) :
    ((byDb db items).flatMap Group.rows).count row = (items.map Prod.snd).count row := by
  have grouped : ∀ (groups : List Group), ((items.foldl (fun groups item => addTo groups (db.getD item.1) item.2) groups).flatMap
      Group.rows).count row = (groups.flatMap Group.rows).count row + (items.map Prod.snd).count row := by
    induction items with
    | nil => simp
    | cons item rest ih =>
      intro groups
      simp only [List.foldl_cons,ih,count_addTo,List.map_cons,List.count_cons,List.count_nil]
      omega
  exact (grouped []).trans (Nat.zero_add _)

theorem count_split (pending : List (Nat × Row)) (db : Nat) :
    (pending.map Prod.snd).count row = ((pending.filter fun item => item.1 = db).map Prod.snd).count row +
      ((pending.filter fun item => item.1 ≠ db).map Prod.snd).count row := by
  induction pending with
  | nil => rfl
  | cons item rest ih =>
    by_cases same : item.1 = db
    · simp only [List.map_cons,List.filter_cons,same,decide_true,if_true,ne_eq,not_true,decide_false,
        Bool.false_eq_true,if_false,List.count_cons,ih]
      omega
    · simp only [List.map_cons,List.filter_cons,same,decide_false,Bool.false_eq_true,if_false,ne_eq,not_false_eq_true,
        decide_true,if_true,List.count_cons,ih]
      omega

theorem map_snd_pair (db : Nat) (rows : List Row) : (rows.map fun row => (db,row)).map Prod.snd = rows := by
  rw [List.map_map]
  exact List.map_id rows

end

structure Sound (w : Metrics) : Prop where
  distinct : w.reported.Nodup
  numbered : ∀ row ∈ w.reported, row.number < w.reported.length
  total : ∀ row, (w.buffer.map Prod.snd).count row + w.committed.count row + (w.flushes.flatMap Flush.waiting).count row +
    (w.pending.map Prod.snd).count row = w.reported.count row
  /-- What is in an open transaction was put there by a flush that will commit it. -/
  flight : ∀ row, row ∉ w.committed → (w.flushes.flatMap Flush.inFlight).count row = (w.pending.map Prod.snd).count row
  held : ∀ (i : Nat) (group : Group) (rest : List Group), w.flushes[i]? = some ⟨group :: rest,.committing⟩ →
    ∀ row ∈ group.rows, row ∈ w.committed ∨ (group.db,row) ∈ w.pending

theorem conserved_of_sound {w : Metrics} (sound : Sound w) : Conserved w := by
  intro row accepted
  have total := sound.total row
  rw [List.count_eq_one_of_mem sound.distinct accepted] at total
  unfold Metrics.places Metrics.batches
  by_cases stored : row ∈ w.committed
  · have once := List.count_pos_iff.mpr stored
    rw [if_pos stored]
    omega
  · have flight := sound.flight row stored
    rw [if_neg stored,count_batches]
    omega

theorem sound_start : Sound start := ⟨List.nodup_nil,by simp [start],fun _ => rfl,fun _ _ => rfl,by simp [start]⟩

section
variable {known : String → Bool} {w : Metrics}

variable {i db : Nat} {old : Flush} {rows : List Row} {stop : Option (Nat × PyError)} {event : Event}

theorem get_set {flushes : List Flush} {j : Nat} {new flush : Flush} (found : flushes[i]? = some old)
    (now : (flushes.set i new)[j]? = some flush) : j = i ∧ flush = new ∨ flushes[j]? = some flush := by
  by_cases same : j = i
  · subst same
    rw [List.getElem?_set_self (List.getElem?_eq_some_iff.mp found).1] at now
    exact .inl ⟨rfl,(Option.some.inj now).symm⟩
  · rw [List.getElem?_set_ne (Ne.symm same)] at now
    exact .inr now

theorem sound_report {nodeId : String} (sound : Sound w) (roomy : w.buffer.length + 1 ≤ maxBuffered) :
    Sound (next known w (.report db nodeId)) := by
  have whole : (w.buffer ++ [(db,(⟨w.reported.length,nodeId⟩ : Row))]).drop
      ((w.buffer ++ [(db,(⟨w.reported.length,nodeId⟩ : Row))]).length - maxBuffered) =
        w.buffer ++ [(db,⟨w.reported.length,nodeId⟩)] := by
    rw [List.length_append,List.length_singleton,Nat.sub_eq_zero_of_le roomy,List.drop_zero]
  have fresh : (⟨w.reported.length,nodeId⟩ : Row) ∉ w.reported :=
    fun member => Nat.lt_irrefl _ (sound.numbered _ member)
  have appended : next known w (.report db nodeId) = {w with
      buffer := w.buffer ++ [(db,⟨w.reported.length,nodeId⟩)]
      reported := w.reported ++ [⟨w.reported.length,nodeId⟩]} := by
    unfold next step
    simp only [Option.getD_some,whole]
  rw [appended]
  refine ⟨?_,?_,?_,sound.flight,sound.held⟩
  · refine List.nodup_append.mpr ⟨sound.distinct,by simp,?_⟩
    rintro row member _ last rfl
    rw [List.mem_singleton.mp last] at member
    exact fresh member
  · intro row member
    change row.number < (w.reported ++ [_]).length
    rw [List.length_append]
    rcases List.mem_append.mp member with old | new
    · exact Nat.lt_succ_of_lt (sound.numbered row old)
    · rw [List.mem_singleton.mp new]
      exact Nat.lt_succ_self _
  · intro row
    have total := sound.total row
    simp only [List.map_append,List.count_append,List.map_cons,List.map_nil]
    omega

theorem sound_drain {db : Option Nat} (sound : Sound w) : Sound (next known w (.drain db)) := by
  refine ⟨sound.distinct,sound.numbered,?_,?_,?_⟩
  · intro row
    have total := sound.total row
    change 0 + _ + ((w.flushes ++ [Flush.mk (byDb db w.buffer) .inserting]).flatMap Flush.waiting).count row + _ = _
    rw [List.flatMap_append,List.count_append,List.flatMap_singleton]
    have drained : (Flush.waiting (Flush.mk (byDb db w.buffer) .inserting)).count row = (w.buffer.map Prod.snd).count row := by
      rw [← count_byDb db]
      cases byDb db w.buffer <;> rfl
    change 0 + w.committed.count row + _ + (w.pending.map Prod.snd).count row = w.reported.count row
    omega
  · intro row unstored
    have flight := sound.flight row unstored
    change ((w.flushes ++ [Flush.mk (byDb db w.buffer) .inserting]).flatMap Flush.inFlight).count row = _
    rw [List.flatMap_append,List.count_append,List.flatMap_singleton]
    have none : Flush.inFlight (Flush.mk (byDb db w.buffer) .inserting) = [] := by cases byDb db w.buffer <;> rfl
    rw [none]
    exact flight
  · intro i group rest is
    have was : (w.flushes ++ [Flush.mk (byDb db w.buffer) .inserting])[i]? = some ⟨group :: rest,.committing⟩ := is
    rcases Nat.lt_or_ge i w.flushes.length with before | after
    · rw [List.getElem?_append_left before] at was
      exact sound.held i group rest was
    · rw [List.getElem?_append_right after] at was
      cases place : i - w.flushes.length with
      | zero =>
        rw [place] at was
        obtain ⟨_,phase⟩ := Flush.mk.inj (Option.some.inj was)
        contradiction
      | succ k =>
        rw [place] at was
        contradiction

theorem inserted_all (all : ∀ row ∈ rows, known row.nodeId = true) :
    inserted known rows none = rows ∧ failure known rows none = none := by
  have accepted : rows.all (fun row => known row.nodeId) = true := List.all_eq_true.mpr all
  exact ⟨List.takeWhile_eq_self_iff.mpr all,if_pos accepted⟩

theorem inserted_of_success (success : failure known rows stop = none) :
    inserted known rows stop = rows ∧ stop = none := by
  cases stop with
  | none =>
    unfold failure at success
    simp only at success
    split at success
    · rename_i all
      exact ⟨(inserted_all (List.all_eq_true.mp all)).1,rfl⟩
    · contradiction
  | some stopped =>
    unfold failure at success
    simp only at success
    split at success <;> contradiction

/-- Every batch and every open transaction but that of one flush stays. -/
theorem held_goes {w' : Metrics} (sound : Sound w) (found : w.flushes[i]? = some old) {groups : List Group}
    {phase : Phase} (flushes : w'.flushes = w.flushes.set i ⟨groups,phase⟩) (stored : ∀ row ∈ w.committed, row ∈ w'.committed)
    (kept : ∀ db row, (db,row) ∈ w.pending → row ∈ w'.committed ∨ (db,row) ∈ w'.pending)
    (mine : ∀ group rest, groups = group :: rest → phase = .committing → ∀ row ∈ group.rows,
      row ∈ w'.committed ∨ (group.db,row) ∈ w'.pending) :
    ∀ (j : Nat) (group : Group) (rest : List Group), w'.flushes[j]? = some ⟨group :: rest,.committing⟩ →
      ∀ row ∈ group.rows, row ∈ w'.committed ∨ (group.db,row) ∈ w'.pending := by
  intro j group rest is row member
  rw [flushes] at is
  rcases get_set found is with ⟨_,same⟩ | was
  · obtain ⟨rfl,rfl⟩ := Flush.mk.inj same
    exact mine group rest rfl rfl row member
  · rcases sound.held j group rest was row member with committed | pending
    · exact .inl (stored row committed)
    · exact kept group.db row pending

theorem sound_insert (sound : Sound w) (whole : Whole known w (.insert i stop)) :
    Sound (next known w (.insert i stop)) := by
  unfold next step
  simp only
  split
  swap
  · exact sound
  rename_i group rest found
  have waits : Flush.waiting ⟨group :: rest,.inserting⟩ = (group :: rest).flatMap Group.rows := rfl
  have complete : Sound {w with
        pending := w.pending ++ group.rows.map fun row => (group.db,row)
        flushes := w.flushes.set i ⟨group :: rest,.committing⟩} := by
    refine ⟨sound.distinct,sound.numbered,?_,?_,?_⟩
    · intro row
      have total := sound.total row
      have moved := @count_set row Flush.waiting _ _ _ found ⟨group :: rest,.committing⟩
      have after : Flush.waiting ⟨group :: rest,.committing⟩ = rest.flatMap Group.rows := rfl
      rw [waits,after,List.flatMap_cons,List.count_append] at moved
      simp only [List.map_append,List.count_append,map_snd_pair]
      omega
    · intro row unstored
      have flight := sound.flight row unstored
      have moved := @count_set row Flush.inFlight _ _ _ found ⟨group :: rest,.committing⟩
      have before : Flush.inFlight ⟨group :: rest,.inserting⟩ = [] := rfl
      have after : Flush.inFlight ⟨group :: rest,.committing⟩ = group.rows := rfl
      rw [before,after,List.count_nil] at moved
      simp only [List.map_append,List.count_append,map_snd_pair]
      omega
    · refine held_goes sound found rfl (fun _ member => member) (fun _ _ member => .inr (List.mem_append_left _ member)) ?_
      intro other rest' same _ row member
      obtain ⟨rfl,rfl⟩ := List.cons.inj same
      exact .inr (List.mem_append_right _ (List.mem_map_of_mem member))
  rcases whole group rest found with ⟨rfl,all⟩ | ⟨nothing,exceptions,_⟩
  · obtain ⟨every,succeeds⟩ := inserted_all all
    rw [every,succeeds]
    exact complete
  · cases fails : failure known group.rows stop with
    | none =>
      obtain ⟨every,_⟩ := inserted_of_success fails
      rw [every]
      exact complete
    | some error =>
      rw [nothing]
      have exception := exceptions error fails
      simp only [List.map_nil,List.append_nil,Option.getD_some,Metrics.fails,if_pos exception]
      have after : Flush.waiting ⟨group :: rest,.requeueing⟩ = Flush.waiting ⟨group :: rest,.inserting⟩ := rfl
      have flew : Flush.inFlight ⟨group :: rest,.requeueing⟩ = Flush.inFlight ⟨group :: rest,.inserting⟩ := rfl
      refine ⟨sound.distinct,sound.numbered,?_,?_,?_⟩
      · intro row
        have total := sound.total row
        have moved := @count_set row Flush.waiting _ _ _ found ⟨group :: rest,.requeueing⟩
        rw [after] at moved
        simp only [Metrics.goes]
        omega
      · intro row unstored
        have flight := sound.flight row unstored
        have moved := @count_set row Flush.inFlight _ _ _ found ⟨group :: rest,.requeueing⟩
        rw [flew] at moved
        simp only [Metrics.goes]
        omega
      · exact held_goes sound found rfl (fun _ member => member) (fun _ _ member => .inr member) (by simp)

theorem mem_pending_other {other : Nat} {row : Row} (member : (db,row) ∈ w.pending) (ne : db ≠ other) :
    (db,row) ∈ w.pending.filter fun item => item.1 ≠ other := List.mem_filter.mpr ⟨member,by simpa using ne⟩

/-- The transaction of one connection is committed, and its flush goes on. -/
theorem sound_committed {group : Group} {rest : List Group} (sound : Sound w)
    (found : w.flushes[i]? = some ⟨group :: rest,.committing⟩) :
    Sound {w with
      committed := w.committed ++ (w.pending.filter fun item => item.1 = group.db).map Prod.snd
      pending := w.pending.filter fun item => item.1 ≠ group.db
      flushes := w.flushes.set i ⟨rest,.inserting⟩} := by
  have goesOn : Flush.waiting ⟨rest,.inserting⟩ = Flush.waiting ⟨group :: rest,.committing⟩ ∧
      Flush.inFlight ⟨rest,.inserting⟩ = [] := by cases rest <;> exact ⟨rfl,rfl⟩
  refine ⟨sound.distinct,sound.numbered,?_,?_,?_⟩
  · intro row
    have total := sound.total row
    have moved := @count_set row Flush.waiting _ _ _ found ⟨rest,.inserting⟩
    have split := @count_split row w.pending group.db
    rw [goesOn.1] at moved
    simp only [List.count_append]
    omega
  · intro row unstored
    have before : row ∉ w.committed := fun member => unstored (List.mem_append_left _ member)
    have taken : row ∉ (w.pending.filter fun item => item.1 = group.db).map Prod.snd :=
      fun member => unstored (List.mem_append_right _ member)
    -- what this flush inserted is stored now
    have mine : row ∉ group.rows := by
      intro member
      rcases sound.held i group rest found row member with committed | pending
      · exact before committed
      · exact taken (List.mem_map.mpr ⟨(group.db,row),List.mem_filter.mpr ⟨pending,by simp⟩,rfl⟩)
    have flight := sound.flight row before
    have moved := @count_set row Flush.inFlight _ _ _ found ⟨rest,.inserting⟩
    have split := @count_split row w.pending group.db
    have own : (Flush.inFlight ⟨group :: rest,.committing⟩).count row = 0 := List.count_eq_zero.mpr mine
    have gone := List.count_eq_zero.mpr taken
    rw [goesOn.2,own,List.count_nil] at moved
    simp only at gone ⊢
    omega
  · refine held_goes sound found rfl (fun _ member => List.mem_append_left _ member) ?_ ?_
    · intro db row member
      by_cases same : db = group.db
      · exact .inl (List.mem_append_right _ (List.mem_map.mpr ⟨(db,row),List.mem_filter.mpr ⟨member,by simpa using same⟩,rfl⟩))
      · exact .inr (mem_pending_other member same)
    · intro _ _ _ phase
      contradiction

theorem sound_commit {fault : Fault} (sound : Sound w) (whole : Whole known w (.commit i fault)) :
    Sound (next known w (.commit i fault)) := by
  unfold next step
  simp only
  split
  swap
  · exact sound
  rename_i group rest found
  rcases whole with rfl | ⟨error,rfl,cancels,last⟩
  · exact sound_committed sound found
  · obtain rfl := last group rest found
    have ended := sound_committed sound found
    simp only [Fault.takesEffect,if_true,Fault.error?,Metrics.fails,cancels,Bool.false_eq_true,if_false,Option.getD_some]
    exact ended

theorem sound_requeue {cancelled : Bool} (sound : Sound w) (roomy : Roomy w (.requeue i cancelled))
    (whole : cancelled = false) : Sound (next known w (.requeue i cancelled)) := by
  subst whole
  unfold next step
  simp only [Bool.false_eq_true,if_false]
  split
  swap
  · exact sound
  rename_i group rest found
  have room : ((group.rows.map fun row => (group.db,row)) ++ w.buffer).take maxBuffered =
      (group.rows.map fun row => (group.db,row)) ++ w.buffer := by
    refine List.take_of_length_le ?_
    rw [List.length_append,List.length_map]
    exact roomy group rest found
  rw [room]
  have waits : Flush.waiting ⟨group :: rest,.requeueing⟩ = (group :: rest).flatMap Group.rows := rfl
  have flew : Flush.inFlight ⟨group :: rest,.requeueing⟩ = [] := rfl
  have after : Flush.waiting ⟨rest,.inserting⟩ = rest.flatMap Group.rows ∧ Flush.inFlight ⟨rest,.inserting⟩ = [] := by
    cases rest <;> exact ⟨rfl,rfl⟩
  refine ⟨sound.distinct,sound.numbered,?_,?_,?_⟩
  · intro row
    have total := sound.total row
    have moved := @count_set row Flush.waiting _ _ _ found ⟨rest,.inserting⟩
    rw [waits,after.1,List.flatMap_cons,List.count_append] at moved
    simp only [Option.getD_some,Metrics.goes,List.map_append,List.count_append,map_snd_pair]
    omega
  · intro row unstored
    have flight := sound.flight row unstored
    have moved := @count_set row Flush.inFlight _ _ _ found ⟨rest,.inserting⟩
    rw [flew,after.2] at moved
    simp only [Option.getD_some,Metrics.goes]
    omega
  · exact held_goes sound found rfl (fun _ member => member) (fun _ _ member => .inr member) (fun _ _ _ phase => by contradiction)

theorem sound_next (sound : Sound w) (roomy : Roomy w event) (whole : Whole known w event) :
    Sound (next known w event) := by
  cases event with
  | report db nodeId => exact sound_report sound roomy
  | drain db => exact sound_drain sound
  | insert i stop => exact sound_insert sound whole
  | commit i fault => exact sound_commit sound whole
  | requeue i cancelled => exact sound_requeue sound roomy whole

/-- Where a row that the database refuses has its group to itself, no other row is kept out. -/
theorem serves_of_whole (sound : Sound w) (whole : Whole known w event) : Serves known w event := by
  cases event with
  | insert i stop =>
    cases stop with
    | some stopped => trivial
    | none =>
      intro group rest found row member accepts
      rcases whole group rest found with ⟨_,all⟩ | ⟨_,_,refused⟩
      · obtain ⟨every,succeeds⟩ := inserted_all all
        unfold next step
        simp only [found,every,succeeds,Option.getD_some,Metrics.goes]
        exact List.mem_append_right _ (List.mem_map_of_mem member)
      · rw [refused rfl row member] at accepts
        contradiction
  | commit i fault =>
    cases fault with
    | none =>
      intro group rest found row member
      unfold next step
      simp only [found,Fault.takesEffect,if_true,Fault.error?,Option.getD_some,Metrics.goes]
      rcases sound.held i group rest found row member with committed | pending
      · exact List.mem_append_left _ committed
      · exact List.mem_append_right _ (List.mem_map.mpr ⟨(group.db,row),List.mem_filter.mpr ⟨pending,by simp⟩,rfl⟩)
    | before error | after error => trivial
  | report | drain | requeue => trivial

/-- What a run of such steps keeps. -/
theorem sound_run {events : List Event} (sound : Sound w) (roomy : Throughout known (fun w event => Roomy w event) w events)
    (whole : Throughout known (Whole known) w events) :
    Sound (run known w events) ∧ Throughout known (Serves known) w events := by
  induction events generalizing w with
  | nil => exact ⟨sound,trivial⟩
  | cons event rest ih =>
    obtain ⟨end',serves⟩ := ih (sound_next sound roomy.1 whole.1) roomy.2 whole.2
    exact ⟨end',serves_of_whole sound whole.1,serves⟩

end

/-- Whatever reports and flushes are interleaved with never more than 500 rows waiting: while
every group is inserted whole or not at all, and what was inserted is committed, every row is
in one place and no row keeps another out of the table. -/
theorem rows_conserved (known : String → Bool) (events : List Event)
    (roomy : Throughout known (fun w event => Roomy w event) start events)
    (whole : Throughout known (Whole known) start events) :
    Conserved (run known start events) ∧ Throughout known (Serves known) start events :=
  ⟨conserved_of_sound (sound_run sound_start roomy whole).1,(sound_run sound_start roomy whole).2⟩

def everywhere : String → Bool := fun nodeId => nodeId == "n1"

/-- The database is locked at first. -/
def retried : List Event :=
  [.report 0 "n1",.report 0 "n1",.drain none,.insert 0 (some (0,.operationalError "database is locked")),.requeue 0 false,
    .drain none,.insert 1 none,.commit 1 .none]

theorem retried_conserved : Conserved (run everywhere start retried) ∧ Throughout everywhere (Serves everywhere) start retried :=
  rows_conserved everywhere retried (by decide +kernel) (by decide +kernel)

/-- The row of a deleted node stops a flush after the row before it, which is put back though
it stays in the open transaction; the other flush on the connection commits it. -/
def poisoned : List Event :=
  [.report 0 "n1",.drain none,.report 0 "n1",.report 0 "deleted",.drain none,.insert 1 none,.requeue 1 false,
    .insert 0 none,.commit 0 .none]

theorem stored_row_waits_again : ¬∀ (known : String → Bool) (events : List Event),
    Throughout known (fun w event => Roomy w event) start events →
    Conserved (run known start events) ∧ Throughout known (Serves known) start events := by
  intro claim
  have conserved := (claim everywhere poisoned (by decide +kernel)).1
  exact absurd (conserved ⟨1,"n1"⟩ (by decide +kernel)) (by decide +kernel)

end Vigile.MetricsBuffer
