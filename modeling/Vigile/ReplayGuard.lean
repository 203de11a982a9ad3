import Vigile.ExecutionGrant
import Vigile.OrderedMap

/-! The worker's guard against replayed requests. Instants and durations are nanoseconds; a
grant without an expiry comes with the zero time. -/
namespace ReplayGuard

structure CacheEntry where
  requestID : String
  expiresAt : Int
  deriving DecidableEq

structure Element where
  ref : Nat
  entry : CacheEntry
  deriving DecidableEq

structure Guard where
  maxSize : Nat
  defaultTTL : Int
  items : OrderedMap String Element
  evictList : List Element
  allocated : Nat

def newReplayGuard (maxSize defaultTTL : Int) : Guard where
  maxSize := if maxSize ≤ 0 then 5000 else maxSize.toNat
  defaultTTL := if defaultTTL ≤ 0 then 24 * 3600 * 10 ^ 9 else defaultTTL
  items := .empty
  evictList := []
  allocated := 0

/-- The longest duration; a longer difference of two instants is cut to it. -/
def maxDuration : Int := 2 ^ 63 - 1

def removeElement (rg : Guard) (elem : Element) : Guard :=
  { rg with
    evictList := rg.evictList.filter fun other => other.ref ≠ elem.ref
    items := rg.items.erase elem.entry.requestID }

def removeOldest (rg : Guard) : Guard :=
  match rg.evictList.getLast? with
  | some elem => removeElement rg elem
  | none => rg

/-- From the back to the front. -/
def purgeExpired (now : Int) (rg : Guard) : Guard :=
  rg.evictList.reverse.foldl
    (fun rg elem => if elem.entry.expiresAt < now then removeElement rg elem else rg) rg

/-- For how long a request is remembered. -/
def ttl (defaultTTL now : Int) (grantExpiresAt : Option Int) : Int :=
  match grantExpiresAt with
  | none => defaultTTL
  | some expiresAt =>
    if now < expiresAt ∧ defaultTTL < min (expiresAt - now) maxDuration then min (expiresAt - now) maxDuration
    else defaultTTL

def pushFront (rg : Guard) (entry : CacheEntry) : Guard :=
  { rg with
    evictList := ⟨rg.allocated,entry⟩ :: rg.evictList
    items := rg.items.set entry.requestID ⟨rg.allocated,entry⟩
    allocated := rg.allocated + 1 }

def record (rg : Guard) (now : Int) (requestID : String) (grantExpiresAt : Option Int) : Guard :=
  let entry : CacheEntry := ⟨requestID,now + ttl rg.defaultTTL now grantExpiresAt⟩
  if rg.maxSize ≤ rg.evictList.length then pushFront (removeOldest rg) entry else pushFront rg entry

def isReplayed (rg : Guard) (now : Int) (requestID : String) (grantExpiresAt : Option Int) : Bool × Guard :=
  let rg := purgeExpired now rg
  match rg.items.get? requestID with
  | some elem =>
    if now < elem.entry.expiresAt then (true,rg)
    else (false,record (removeElement rg elem) now requestID grantExpiresAt)
  | none => (false,record rg now requestID grantExpiresAt)

structure Call where
  now : Int
  requestID : String
  grantExpiresAt : Option Int

def answer (rg : Guard) (call : Call) : Bool := (isReplayed rg call.now call.requestID call.grantExpiresAt).1

def step (rg : Guard) (call : Call) : Guard := (isReplayed rg call.now call.requestID call.grantExpiresAt).2

def after (rg : Guard) (calls : List Call) : Guard := calls.foldl step rg

/-- How many of the calls were reported not replayed. -/
def recorded (rg : Guard) : List Call → Nat
  | [] => 0
  | call :: rest => (if answer rg call then 0 else 1) + recorded (step rg call) rest

structure Sound (rg : Guard) : Prop where
  named : ∀ {key elem}, rg.items.get? key = some elem → elem ∈ rg.evictList ∧ elem.entry.requestID = key
  listed : ∀ elem ∈ rg.evictList, rg.items.get? elem.entry.requestID = some elem
  distinct : (rg.evictList.map Element.ref).Nodup
  allocated : ∀ elem ∈ rg.evictList, elem.ref < rg.allocated
  bounded : rg.evictList.length ≤ rg.maxSize
  nonempty : 0 < rg.maxSize

theorem sound_new (maxSize defaultTTL : Int) : Sound (newReplayGuard maxSize defaultTTL) := by
  constructor
  · intro key elem found
    simp [newReplayGuard] at found
  · simp [newReplayGuard]
  · simp [newReplayGuard]
  · simp [newReplayGuard]
  · simp [newReplayGuard]
  · simp only [newReplayGuard]
    split <;> omega

variable {rg : Guard} {elem : Element} {now : Int} {newer : Nat}

/-- Two elements of the list with one identity, or one request, are one. -/
theorem Sound.eq_of_ref (sound : Sound rg) {first second : Element} (one : first ∈ rg.evictList)
    (other : second ∈ rg.evictList) (same : first.ref = second.ref) : first = second :=
  List.inj_on_of_nodup_map sound.distinct one other same

theorem Sound.eq_of_requestID (sound : Sound rg) {first second : Element}
    (one : first ∈ rg.evictList) (other : second ∈ rg.evictList)
    (same : first.entry.requestID = second.entry.requestID) : first = second := by
  have found := sound.listed first one
  rw [same,sound.listed second other] at found
  exact (Option.some.inj found).symm

theorem Sound.removeElement (sound : Sound rg) (member : elem ∈ rg.evictList) :
    Sound (removeElement rg elem) := by
  constructor
  · intro key other found
    obtain ⟨differ,found⟩ := OrderedMap.get?_erase_some found
    obtain ⟨listed,isKey⟩ := sound.named found
    refine ⟨List.mem_filter.mpr ⟨listed,?_⟩,isKey⟩
    apply decide_eq_true
    intro same
    obtain rfl := sound.eq_of_ref listed member same
    exact differ isKey.symm
  · intro other found
    obtain ⟨listed,differ⟩ := List.mem_filter.mp found
    have apart : other.entry.requestID ≠ elem.entry.requestID := by
      intro same
      obtain rfl := sound.eq_of_requestID listed member same
      simp at differ
    exact (OrderedMap.get?_erase_of_ne apart).trans (sound.listed other listed)
  · exact sound.distinct.sublist (List.filter_sublist.map _)
  · exact fun other found => sound.allocated other (List.mem_filter.mp found).1
  · exact Nat.le_trans (List.length_filter_le _ _) sound.bounded
  · exact sound.nonempty

theorem Sound.pushFront (sound : Sound rg) {entry : CacheEntry} (room : rg.evictList.length < rg.maxSize)
    (fresh : rg.items.get? entry.requestID = none) : Sound (pushFront rg entry) := by
  constructor
  · intro key elem found
    by_cases same : key = entry.requestID
    · subst same
      have first : elem = ⟨rg.allocated,entry⟩ := by
        simpa [ReplayGuard.pushFront,eq_comm] using found
      rw [first]
      exact ⟨List.mem_cons_self,rfl⟩
    · have old : rg.items.get? key = some elem := (OrderedMap.get?_set_of_ne same).symm.trans found
      exact ⟨List.mem_cons_of_mem _ (sound.named old).1,(sound.named old).2⟩
  · intro elem member
    rcases List.mem_cons.mp member with rfl | old
    · exact OrderedMap.get?_set_self
    · have apart : elem.entry.requestID ≠ entry.requestID := by
        intro same
        have found := sound.listed elem old
        rw [same,fresh] at found
        contradiction
      exact (OrderedMap.get?_set_of_ne apart).trans (sound.listed elem old)
  · refine List.nodup_cons.mpr ⟨?_,sound.distinct⟩
    intro known
    obtain ⟨elem,member,same⟩ := List.mem_map.mp known
    have below := sound.allocated elem member
    dsimp only at same
    omega
  · intro elem member
    rcases List.mem_cons.mp member with rfl | old
    · exact Nat.lt_succ_self _
    · exact Nat.lt_succ_of_lt (sound.allocated elem old)
  · simp only [ReplayGuard.pushFront,List.length_cons]
    omega
  · exact sound.nonempty

/-- What an operation leaves alone. -/
def Kept (before rg : Guard) : Prop := rg.maxSize = before.maxSize ∧ rg.defaultTTL = before.defaultTTL

theorem purge_keeps {P : Guard → Prop} (sound : Sound rg) (holds : P rg)
    (keeps : ∀ rg elem, Sound rg → elem ∈ rg.evictList → elem.entry.expiresAt < now → P rg →
      P (removeElement rg elem)) : Sound (purgeExpired now rg) ∧ P (purgeExpired now rg) := by
  have each : ∀ (elems : List Element) (rg : Guard), Sound rg → P rg → (elems.map Element.ref).Nodup →
      (∀ elem ∈ elems, elem ∈ rg.evictList) →
      Sound (elems.foldl (fun rg elem => if elem.entry.expiresAt < now then removeElement rg elem else rg) rg) ∧
        P (elems.foldl (fun rg elem => if elem.entry.expiresAt < now then removeElement rg elem else rg) rg) := by
    intro elems
    induction elems with
    | nil => exact fun rg sound holds _ _ => ⟨sound,holds⟩
    | cons elem elems ih =>
      intro rg sound holds distinct listed
      have here := listed elem List.mem_cons_self
      obtain ⟨apart,distinct⟩ := List.nodup_cons.mp distinct
      rw [List.foldl_cons]
      split
      · apply ih (removeElement rg elem) (sound.removeElement here) (keeps rg elem sound here ‹_› holds) distinct
        intro other member
        refine List.mem_filter.mpr ⟨listed other (List.mem_cons_of_mem _ member),decide_eq_true ?_⟩
        intro same
        exact apart (List.mem_map.mpr ⟨other,member,same⟩)
      · exact ih rg sound holds distinct fun other member => listed other (List.mem_cons_of_mem _ member)
  apply each rg.evictList.reverse rg sound holds
  · rw [List.map_reverse,List.nodup_reverse]
    exact sound.distinct
  · exact fun elem member => List.mem_reverse.mp member

def Tracked (elem : Element) (newer : Nat) (rg : Guard) : Prop :=
  ∃ front rest, rg.evictList = front ++ elem :: rest ∧ front.length ≤ newer

theorem Tracked.mem (tracked : Tracked elem newer rg) :
    elem ∈ rg.evictList := by
  obtain ⟨front,rest,list,_⟩ := tracked
  rw [list]
  simp

theorem Tracked.removeElement {other : Element} (tracked : Tracked elem newer rg)
    (differ : elem.ref ≠ other.ref) : Tracked elem newer (removeElement rg other) := by
  obtain ⟨front,rest,list,short⟩ := tracked
  refine ⟨front.filter fun old => old.ref ≠ other.ref,rest.filter fun old => old.ref ≠ other.ref,?_,
    Nat.le_trans (List.length_filter_le _ _) short⟩
  simp only [ReplayGuard.removeElement,list,List.filter_append]
  rw [List.filter_cons_of_pos (by simpa using differ)]

theorem removeOldest_cases (filled : rg.evictList ≠ []) :
    ∃ elem, rg.evictList.getLast? = some elem ∧ elem ∈ rg.evictList ∧ removeOldest rg = removeElement rg elem := by
  obtain ⟨elem,last⟩ : ∃ elem, rg.evictList.getLast? = some elem := ⟨_,List.getLast?_eq_some_getLast filled⟩
  refine ⟨elem,last,List.mem_of_getLast? last,?_⟩
  unfold removeOldest
  rw [last]

theorem length_removeElement (member : elem ∈ rg.evictList) :
    (removeElement rg elem).evictList.length < rg.evictList.length := by
  apply List.length_filter_lt_length_iff_exists.mpr
  exact ⟨elem,member,by simp⟩

/-- A request that is not in the map is recorded at the front. -/
theorem Sound.record (sound : Sound rg) {requestID : String} {grantExpiresAt : Option Int}
    (fresh : rg.items.get? requestID = none) :
    Sound (record rg now requestID grantExpiresAt) ∧ Kept rg (record rg now requestID grantExpiresAt) ∧
    (∃ ref, Tracked ⟨ref,requestID,now + ttl rg.defaultTTL now grantExpiresAt⟩ 0
      (record rg now requestID grantExpiresAt)) ∧
    ∀ elem newer, Tracked elem newer rg → newer + 1 < rg.maxSize →
      Tracked elem (newer + 1) (record rg now requestID grantExpiresAt) := by
  unfold ReplayGuard.record
  dsimp only
  split
  · rename_i full
    have filled : rg.evictList ≠ [] := by
      intro empty
      have size := sound.nonempty
      rw [empty,List.length_nil] at full
      omega
    obtain ⟨oldest,last,member,same⟩ := removeOldest_cases filled
    have room : (ReplayGuard.removeElement rg oldest).evictList.length < rg.maxSize := by
      have shorter := length_removeElement member
      have bound := sound.bounded
      omega
    have absent : (ReplayGuard.removeElement rg oldest).items.get? requestID = none := by
      simp only [ReplayGuard.removeElement,OrderedMap.get?_erase,fresh,ite_self]
    rw [same]
    refine ⟨(sound.removeElement member).pushFront room absent,⟨rfl,rfl⟩,⟨rg.allocated,[],_,rfl,Nat.le_refl 0⟩,?_⟩
    intro elem newer tracked few
    have differ : elem.ref ≠ oldest.ref := by
      intro equal
      obtain rfl := sound.eq_of_ref tracked.mem member equal
      obtain ⟨front,rest,list,short⟩ := tracked
      cases rest with
      | nil =>
        rw [list,List.length_append,List.length_singleton] at full
        omega
      | cons next rest =>
        have distinct := sound.distinct
        rw [list] at last distinct
        have later : elem ∈ next :: rest := by
          rw [List.getLast?_append_of_ne_nil _ (List.cons_ne_nil _ _),List.getLast?_cons_cons] at last
          exact List.mem_of_getLast? last
        rw [List.map_append,List.map_cons] at distinct
        have apart := (List.nodup_cons.mp (List.nodup_append.mp distinct).2.1).1
        exact apart (List.mem_map.mpr ⟨elem,later,rfl⟩)
    obtain ⟨front,rest,list,short⟩ := tracked.removeElement differ
    exact ⟨_ :: front,rest,congrArg (List.cons _) list,Nat.succ_le_succ short⟩
  · rename_i space
    refine ⟨sound.pushFront (by omega) fresh,⟨rfl,rfl⟩,⟨rg.allocated,[],_,rfl,Nat.le_refl 0⟩,?_⟩
    rintro elem newer ⟨front,rest,list,short⟩ _
    exact ⟨_ :: front,rest,congrArg (List.cons _) list,Nat.succ_le_succ short⟩

/-- A call keeps the map and the list together. A request that is remembered is replayed and
stays, unless enough newer ones are recorded; one that is not replayed is recorded. -/
theorem Sound.step (sound : Sound rg) (call : Call) :
    Sound (step rg call) ∧ Kept rg (step rg call) ∧
    (answer rg call = false → ∃ ref, Tracked ⟨ref,call.requestID,
      call.now + ttl rg.defaultTTL call.now call.grantExpiresAt⟩ 0 (step rg call)) ∧
    ∀ elem newer, Tracked elem newer rg → call.now < elem.entry.expiresAt →
      (call.requestID = elem.entry.requestID → answer rg call = true) ∧
      (answer rg call = true → Tracked elem newer (step rg call)) ∧
      (newer + 1 < rg.maxSize → Tracked elem (newer + 1) (step rg call)) := by
  have purged : Sound (purgeExpired call.now rg) ∧ Kept rg (purgeExpired call.now rg) ∧
      ∀ elem newer, Tracked elem newer rg → call.now < elem.entry.expiresAt →
        Tracked elem newer (purgeExpired call.now rg) := by
    apply purge_keeps (P := fun now => Kept rg now ∧ ∀ elem newer, Tracked elem newer rg →
      call.now < elem.entry.expiresAt → Tracked elem newer now) sound
    · exact ⟨⟨rfl,rfl⟩,fun _ _ tracked _ => tracked⟩
    · rintro before elem sound member expired ⟨kept,tracks⟩
      refine ⟨kept,fun other newer tracked alive => (tracks other newer tracked alive).removeElement ?_⟩
      intro same
      obtain rfl := sound.eq_of_ref (tracks other newer tracked alive).mem member same
      omega
  obtain ⟨soundPurged,⟨size,period⟩,tracks⟩ := purged
  unfold ReplayGuard.step answer isReplayed
  dsimp only
  cases found : (purgeExpired call.now rg).items.get? call.requestID with
  | none =>
    dsimp only
    obtain ⟨soundNext,kept,recorded,pushed⟩ := soundPurged.record found
    rw [period] at recorded
    rw [size] at pushed
    refine ⟨soundNext,⟨kept.1.trans size,kept.2.trans period⟩,fun _ => recorded,?_⟩
    intro elem newer tracked alive
    have here := tracks elem newer tracked alive
    refine ⟨?_,by simp,pushed elem newer here⟩
    intro same
    rw [same,soundPurged.listed elem here.mem] at found
    contradiction
  | some old =>
    obtain ⟨member,isKey⟩ := soundPurged.named found
    dsimp only
    split
    · refine ⟨soundPurged,⟨size,period⟩,by simp,?_⟩
      intro elem newer tracked alive
      obtain ⟨front,rest,list,short⟩ := tracks elem newer tracked alive
      exact ⟨fun _ => rfl,fun _ => ⟨front,rest,list,short⟩,fun _ => ⟨front,rest,list,Nat.le_succ_of_le short⟩⟩
    · rename_i expired
      have soundRemoved := soundPurged.removeElement member
      have absent : (ReplayGuard.removeElement (purgeExpired call.now rg) old).items.get? call.requestID = none := by
        simp [ReplayGuard.removeElement,isKey]
      obtain ⟨soundNext,kept,recorded,pushed⟩ := soundRemoved.record absent
      have period' : (ReplayGuard.removeElement (purgeExpired call.now rg) old).defaultTTL = rg.defaultTTL := period
      have size' : (ReplayGuard.removeElement (purgeExpired call.now rg) old).maxSize = rg.maxSize := size
      rw [period'] at recorded
      rw [size'] at pushed
      refine ⟨soundNext,⟨kept.1.trans size',kept.2.trans period'⟩,fun _ => recorded,?_⟩
      intro elem newer tracked alive
      have here := tracks elem newer tracked alive
      have differ : elem.entry.requestID ≠ old.entry.requestID := by
        intro same
        obtain rfl := soundPurged.eq_of_requestID here.mem member same
        exact expired alive
      refine ⟨?_,by simp,?_⟩
      · intro same
        exact absurd (same.symm.trans isKey.symm) differ
      · apply pushed
        apply here.removeElement
        intro same
        exact differ (congrArg (fun elem => elem.entry.requestID) (soundPurged.eq_of_ref here.mem member same))

theorem sound_after (sound : Sound rg) (calls : List Call) :
    Sound (after rg calls) ∧ Kept rg (after rg calls) := by
  induction calls generalizing rg with
  | nil => exact ⟨sound,rfl,rfl⟩
  | cons call calls ih =>
    obtain ⟨next,⟨size,period⟩,_⟩ := sound.step call
    obtain ⟨last,kept⟩ := ih next
    exact ⟨last,kept.1.trans size,kept.2.trans period⟩

/-- The map and the list describe the same entries, and no more of them than the guard may hold. -/
structure Represents (rg : Guard) : Prop where
  mapped : ∀ key elem, rg.items.get? key = some elem → elem ∈ rg.evictList ∧ elem.entry.requestID = key
  listed : ∀ elem ∈ rg.evictList, rg.items.get? elem.entry.requestID = some elem
  once : (rg.evictList.map fun elem => elem.entry.requestID).Nodup
  apart : (rg.evictList.map Element.ref).Nodup
  sized : rg.items.entries.length = rg.evictList.length
  bounded : rg.evictList.length ≤ rg.maxSize

theorem Sound.once (sound : Sound rg) : (rg.evictList.map fun elem => elem.entry.requestID).Nodup := by
  apply List.Nodup.map_on
  · exact fun _ one _ other same => sound.eq_of_requestID one other same
  · exact List.Nodup.of_map _ sound.distinct

/-- The keys of the map are the requests of the list, in another order. -/
theorem Sound.keys_perm (sound : Sound rg) :
    rg.items.keys.Perm (rg.evictList.map fun elem => elem.entry.requestID) := by
  apply (List.perm_ext_iff_of_nodup rg.items.unique sound.once).mpr
  intro key
  constructor
  · intro known
    obtain ⟨elem,found⟩ := OrderedMap.mem_keys.mp known
    exact List.mem_map.mpr ⟨elem,sound.named found⟩
  · intro known
    obtain ⟨elem,member,isKey⟩ := List.mem_map.mp known
    exact OrderedMap.mem_keys.mpr ⟨elem,isKey ▸ sound.listed elem member⟩

theorem Sound.represents (sound : Sound rg) : Represents rg where
  mapped := fun _ _ found => sound.named found
  listed := sound.listed
  once := sound.once
  apart := sound.distinct
  sized := by
    have same := sound.keys_perm.length_eq
    simpa only [OrderedMap.keys,List.length_map] using same
  bounded := sound.bounded

/-- The calls leave the capacity as it was set, and the map and the list together. -/
theorem represents_after (maxSize defaultTTL : Int) (calls : List Call) :
    Represents (after (newReplayGuard maxSize defaultTTL) calls) ∧
      (after (newReplayGuard maxSize defaultTTL) calls).maxSize = if maxSize ≤ 0 then 5000 else maxSize.toNat := by
  obtain ⟨sound,size,-⟩ := sound_after (sound_new maxSize defaultTTL) calls
  exact ⟨sound.represents,size⟩

theorem tracked_after (sound : Sound rg) (tracked : Tracked elem newer rg)
    {calls : List Call} (alive : ∀ call ∈ calls, call.now < elem.entry.expiresAt)
    (few : newer + recorded rg calls < rg.maxSize) : Tracked elem (newer + recorded rg calls) (after rg calls) := by
  induction calls generalizing rg newer with
  | nil => exact tracked
  | cons call calls ih =>
    obtain ⟨next,⟨size,_⟩,_,tracks⟩ := sound.step call
    obtain ⟨_,replayed,pushed⟩ := tracks elem newer tracked (alive call List.mem_cons_self)
    have later : ∀ call ∈ calls, call.now < elem.entry.expiresAt :=
      fun call member => alive call (List.mem_cons_of_mem _ member)
    rw [recorded] at few ⊢
    rw [← size] at few
    cases told : answer rg call with
    | true =>
      rw [told] at few
      simp only [if_true,Nat.zero_add] at few ⊢
      exact ih next (replayed told) later few
    | false =>
      rw [told] at few
      simp only [Bool.false_eq_true,if_false,← Nat.add_assoc] at few ⊢
      exact ih next (pushed (by omega)) later few

theorem ttl_ge (defaultTTL now : Int) (grantExpiresAt : Option Int) :
    defaultTTL ≤ ttl defaultTTL now grantExpiresAt := by
  unfold ttl
  split
  · exact Int.le_refl _
  · split
    · omega
    · exact Int.le_refl _

/-- A request is remembered until its grant expires, or for the longest duration. -/
theorem ttl_covers {defaultTTL expiresAt instant : Int} (later : now ≤ instant)
    (before : instant < min expiresAt (now + maxDuration)) : instant < now + ttl defaultTTL now (some expiresAt) := by
  unfold ttl
  dsimp only
  split <;> omega

/-- A request that was reported not replayed is replayed from then on, until the default
period is over and its grant has expired, as long as fewer requests than the guard holds
were recorded in between. -/
theorem replayed_until_expiry (maxSize defaultTTL : Int) (earlier between : List Call) (first second : Call)
    (ordered : (earlier ++ first :: (between ++ [second])).Pairwise fun call later => call.now ≤ later.now)
    (reported : answer (after (newReplayGuard maxSize defaultTTL) earlier) first = false)
    (same : second.requestID = first.requestID)
    (alive : second.now < first.now + (newReplayGuard maxSize defaultTTL).defaultTTL ∨
      ∃ expiresAt, first.grantExpiresAt = some expiresAt ∧ second.now < min expiresAt (first.now + maxDuration))
    (few : recorded (after (newReplayGuard maxSize defaultTTL) (earlier ++ [first])) between <
      (newReplayGuard maxSize defaultTTL).maxSize) :
    answer (after (newReplayGuard maxSize defaultTTL) (earlier ++ first :: between)) second = true := by
  obtain ⟨sound,size,period⟩ := sound_after (sound_new maxSize defaultTTL) earlier
  obtain ⟨soundFirst,⟨sizeFirst,_⟩,records,_⟩ := sound.step first
  obtain ⟨ref,tracked⟩ := records reported
  have later : ∀ call ∈ between ++ [second], first.now ≤ call.now :=
    (List.pairwise_cons.mp (List.pairwise_append.mp ordered).2.1).1
  have last : ∀ call ∈ between, call.now ≤ second.now := by
    intro call member
    have tail := (List.pairwise_cons.mp (List.pairwise_append.mp ordered).2.1).2
    exact (List.pairwise_append.mp tail).2.2 call member second List.mem_cons_self
  have remembered : second.now < first.now +
      ttl (after (newReplayGuard maxSize defaultTTL) earlier).defaultTTL first.now first.grantExpiresAt := by
    rw [period]
    rcases alive with soon | ⟨expiresAt,given,before⟩
    · have longer := ttl_ge (newReplayGuard maxSize defaultTTL).defaultTTL first.now first.grantExpiresAt
      omega
    · rw [given]
      exact ttl_covers (later second (by simp)) before
  have path : after (newReplayGuard maxSize defaultTTL) (earlier ++ [first]) =
      step (after (newReplayGuard maxSize defaultTTL) earlier) first := by
    simp [after,List.foldl_append]
  have run : after (newReplayGuard maxSize defaultTTL) (earlier ++ first :: between) =
      after (step (after (newReplayGuard maxSize defaultTTL) earlier) first) between := by
    simp [after,List.foldl_append]
  rw [path] at few
  rw [run]
  have kept := tracked_after soundFirst tracked (fun call member => lt_of_le_of_lt (last call member) remembered)
    (by rw [sizeFirst,size,Nat.zero_add]; exact few)
  obtain ⟨soundLast,_⟩ := sound_after soundFirst between
  obtain ⟨_,_,_,tracks⟩ := soundLast.step second
  exact (tracks _ _ kept remembered).1 same

theorem reload_replayed : answer (after (newReplayGuard 2 0) ([] ++ (⟨1100,"req-1",some 1300⟩ : Call) ::
    [⟨1150,"req-2",none⟩])) ⟨1299,"req-1",some 1300⟩ = true :=
  replayed_until_expiry 2 0 [] [⟨1150,"req-2",none⟩] ⟨1100,"req-1",some 1300⟩ ⟨1299,"req-1",some 1300⟩
    (by simp) rfl rfl (.inr ⟨1300,rfl,by decide⟩) (by decide)

open Go CanonicalJson ExecutionGrant in
/-- A full guard forgets the oldest request, whose grant is still accepted. -/
theorem flooded_guard_forgets : ¬∀ (maxSize defaultTTL expiresAt : Int) (earlier between : List Call)
    (first second : Call) (verify : Unit → List Char → List UInt8 → Bool) (req : ActionRequestPayload),
    (earlier ++ first :: (between ++ [second])).Pairwise (fun call later => call.now ≤ later.now) →
    (expiresAt : ℚ) = req.expiresAt.value * 10 ^ 9 →
    first.requestID = req.requestID → first.grantExpiresAt = some expiresAt →
    second.requestID = req.requestID → second.grantExpiresAt = some expiresAt →
    answer (after (newReplayGuard maxSize defaultTTL) earlier) first = false →
    verifyExecutionGrant amd64 verify (second.now / 10 ^ 9) req () = .ok () →
    answer (after (newReplayGuard maxSize defaultTTL) (earlier ++ first :: between)) second = true := by
  intro claim
  have replayed := claim 1 0 (1300 * 10 ^ 9) [] [⟨1150 * 10 ^ 9,"req-2",none⟩]
    ⟨1100 * 10 ^ 9,"req-1",some (1300 * 10 ^ 9)⟩ ⟨1200 * 10 ^ 9,"req-1",some (1300 * 10 ^ 9)⟩ signedOnce reload
    (by simp) (by decide +kernel) rfl rfl rfl rfl (by decide +kernel) (by decide +kernel)
  exact absurd replayed (by decide +kernel)

theorem mem_removeElement {other : Element} (member : elem ∈ (removeElement rg other).evictList) : elem ∈ rg.evictList :=
  (List.mem_filter.mp member).1

theorem purge_evictList (now : Int) (rg : Guard) : (purgeExpired now rg).defaultTTL = rg.defaultTTL ∧
    ∀ elem ∈ (purgeExpired now rg).evictList, elem ∈ rg.evictList := by
  refine List.foldlRecOn (motive := fun guard : Guard => guard.defaultTTL = rg.defaultTTL ∧
    ∀ elem ∈ guard.evictList, elem ∈ rg.evictList) _ _ ⟨rfl,fun _ => id⟩ fun guard kept expired _ => ?_
  split
  · exact ⟨kept.1,fun elem member => kept.2 elem (mem_removeElement member)⟩
  · exact kept

theorem mem_record {requestID : String} {grantExpiresAt : Option Int}
    (member : elem ∈ (record rg now requestID grantExpiresAt).evictList) :
    elem ∈ rg.evictList ∨ elem.entry = ⟨requestID,now + ttl rg.defaultTTL now grantExpiresAt⟩ := by
  unfold record at member
  dsimp only at member
  split at member <;> rcases List.mem_cons.mp member with rfl | member
  · exact .inr rfl
  · unfold removeOldest at member
    split at member
    · exact .inl (mem_removeElement member)
    · exact .inl member
  · exact .inr rfl
  · exact .inl member

theorem mem_step {call : Call} (member : elem ∈ (step rg call).evictList) : elem ∈ rg.evictList ∨
    answer rg call = false ∧ elem.entry = ⟨call.requestID,call.now + ttl rg.defaultTTL call.now call.grantExpiresAt⟩ := by
  obtain ⟨period,old⟩ := purge_evictList call.now rg
  unfold step isReplayed at member
  unfold answer isReplayed
  rw [← period]
  dsimp only at member ⊢
  split at member
  · split at member
    · exact .inl (old elem member)
    · exact (mem_record member).imp (fun there => old elem (mem_removeElement there)) fun new => ⟨by simp [*],new⟩
  · exact (mem_record member).imp (old elem) fun new => ⟨by simp [*],new⟩

/-- What is remembered was reported not replayed. -/
theorem reported_after (sound : Sound rg) (empty : rg.evictList = []) (calls : List Call) :
    ∀ elem ∈ (after rg calls).evictList, ∃ earlier first between, calls = earlier ++ first :: between ∧
      answer (after rg earlier) first = false ∧
      elem.entry = ⟨first.requestID,first.now + ttl rg.defaultTTL first.now first.grantExpiresAt⟩ := by
  induction calls using List.reverseRecOn with
  | nil => simp [after,empty]
  | append_singleton calls last ih =>
    intro elem member
    have stepped : after rg (calls ++ [last]) = step (after rg calls) last := by simp [after,List.foldl_append]
    rw [stepped] at member
    rcases mem_step member with old | ⟨fresh,recorded⟩
    · obtain ⟨earlier,first,between,rfl,reported,entry⟩ := ih elem old
      exact ⟨earlier,first,between ++ [last],by simp,reported,entry⟩
    · rw [(sound_after sound calls).2.2] at recorded
      exact ⟨calls,last,[],rfl,fresh,recorded⟩

/-- A request that is refused was reported not replayed before, and its time has not come since. -/
theorem replayed_reported (maxSize defaultTTL : Int) (calls : List Call) (call : Call)
    (replayed : answer (after (newReplayGuard maxSize defaultTTL) calls) call = true) :
    ∃ earlier first between, calls = earlier ++ first :: between ∧ first.requestID = call.requestID ∧
      answer (after (newReplayGuard maxSize defaultTTL) earlier) first = false ∧
      call.now < first.now + ttl (newReplayGuard maxSize defaultTTL).defaultTTL first.now first.grantExpiresAt := by
  have new := sound_new maxSize defaultTTL
  unfold answer isReplayed at replayed
  dsimp only at replayed
  split at replayed
  · rename_i elem found
    obtain ⟨sound,_⟩ := purge_keeps (P := fun _ => True) (sound_after new calls).1 trivial fun _ _ _ _ _ _ => trivial
    obtain ⟨member,named⟩ := sound.named found
    obtain ⟨earlier,first,between,parts,reported,entry⟩ :=
      reported_after new rfl calls elem ((purge_evictList _ _).2 elem member)
    rw [entry] at named replayed
    split at replayed
    · exact ⟨earlier,first,between,parts,named,reported,‹_›⟩
    · cases replayed
  · cases replayed

theorem replayed_reported_reload : ∃ earlier first between, [(⟨1100,"req-1",some 1300⟩ : Call)] = earlier ++ first :: between ∧
    first.requestID = "req-1" ∧ answer (after (newReplayGuard 2 0) earlier) first = false ∧
      1299 < first.now + ttl (newReplayGuard 2 0).defaultTTL first.now first.grantExpiresAt :=
  replayed_reported 2 0 [⟨1100,"req-1",some 1300⟩] ⟨1299,"req-1",some 1300⟩ rfl

end ReplayGuard
