import Vigile.DelimitedText
import Vigile.RateLimiter

/-! `PluginRateLimiter`: budgets per plugin, user and call type, whose slots can be given
back. As in `RateLimiter` each call is one step. -/
namespace Vigile.PluginRateLimiter

open SlidingWindow
open RateLimiter (bucket bucket_set_self bucket_set_of_ne tracks_filter)

inductive PluginCallType where
  | reads
  | mutations
  deriving DecidableEq

def PluginCallType.value : PluginCallType → String
  | .reads => "reads"
  | .mutations => "mutations"

structure PluginBudget where
  readsPerMinute : Int := 60
  mutationsPerMinute : Int := 10
  deriving DecidableEq

def PluginBudget.limitFor (budget : PluginBudget) : PluginCallType → Int
  | .reads => budget.readsPerMinute
  | .mutations => budget.mutationsPerMinute

structure PluginId where
  text : String
  noColon : ':' ∉ text.toList
  deriving DecidableEq

structure Triple where
  pluginId : PluginId
  userId : String
  callType : PluginCallType
  deriving DecidableEq

def bucketKey (triple : Triple) : String :=
  DelimitedText.join ':' ["plugin",triple.pluginId.text,triple.userId,triple.callType.value]

/-- `PluginRateLimitToken`, under its `_seq`. -/
structure Token where
  bucketKey : String
  timestamp : ℚ
  released : Bool

structure Limiter where
  buckets : OrderedMap String (List (ℚ × Nat))
  seq : Nat
  tokens : OrderedMap Nat Token

def Limiter.start : Limiter := ⟨.empty,0,.empty⟩

inductive Call where
  | acquire (triple : Triple) (budget : PluginBudget)
  | release (token : Nat)
  | cleanupExpired
  deriving DecidableEq

section
variable (window : ℚ)

def acquire (s : Limiter) (now : ℚ) (triple : Triple) (budget : PluginBudget) :
    Limiter × Option Nat :=
  let key := bucketKey triple
  let limit := budget.limitFor triple.callType
  let entries := (bucket s.buckets key).filter fun entry => now - entry.1 < window
  if limit ≤ entries.length then ({s with buckets := s.buckets.set key entries},none)
  else
    let seq := s.seq + 1
    (⟨s.buckets.set key (entries ++ [(now,seq)]),seq,s.tokens.set seq ⟨key,now,false⟩⟩,some seq)

def release (s : Limiter) (seq : Nat) (token : Token) : Limiter :=
  if token.released then s
  else
    let remaining := (bucket s.buckets token.bucketKey).filter fun entry => entry.2 ≠ seq
    {s with
      buckets := if remaining ≠ [] then s.buckets.set token.bucketKey remaining
        else s.buckets.erase token.bucketKey
      tokens := s.tokens.set seq {token with released := true}}

def cleanupExpired (s : Limiter) (now : ℚ) : Limiter :=
  {s with buckets := s.buckets.filter fun _ entries =>
    match entries.getLast? with
    | none => false
    | some last => ¬window ≤ now - last.1}

def step (s : Limiter) (now : ℚ) : Call → Option (Limiter × Option Nat)
  | .acquire triple budget => some (acquire window s now triple budget)
  | .release seq => (s.tokens.get? seq).map fun token => (release s seq token,none)
  | .cleanupExpired => some (cleanupExpired window s now,none)

structure Record where
  now : ℚ
  call : Call
  token : Option Nat
  deriving DecidableEq

def run (s : Limiter) (past : List Record) :
    List (ℚ × Call) → Option (Limiter × List Record)
  | [] => some (s,past)
  | (now,call) :: calls =>
    match step window s now call with
    | some (s,token) => run s (past ++ [⟨now,call,token⟩]) calls
    | none => none

/-- The token that a call got for the triple, with its moment. -/
def Record.grantedTo (triple : Triple) : Record → Option (ℚ × Nat)
  | ⟨now,.acquire other _,some seq⟩ => if other = triple then some (now,seq) else none
  | _ => none

def granted (triple : Triple) (past : List Record) : List (ℚ × Nat) :=
  past.filterMap (Record.grantedTo triple)

def Released (past : List Record) (seq : Nat) : Prop := ∃ record ∈ past, record.call = .release seq

instance (past : List Record) (seq : Nat) : Decidable (Released past seq) :=
  inferInstanceAs (Decidable (∃ record ∈ past, record.call = .release seq))

/-- The tokens of the triple that nobody has released. -/
def standing (triple : Triple) (past : List Record) : List (ℚ × Nat) :=
  (granted triple past).filter fun entry => ¬Released past entry.2

/-- Those of them that are younger than the window. -/
def liveTokens (now : ℚ) (triple : Triple) (past : List Record) : List (ℚ × Nat) :=
  (standing triple past).filter fun entry => now - entry.1 < window

def slots (now : ℚ) (triple : Triple) (s : Limiter) : List (ℚ × Nat) :=
  (bucket s.buckets (bucketKey triple)).filter fun entry => now - entry.1 < window

end

theorem bucketKey_injective : Function.Injective bucketKey := by
  rintro ⟨⟨plugin,noColon⟩,user,callType⟩ ⟨⟨plugin',noColon'⟩,user',callType'⟩ same
  have fields := (DelimitedText.join_eq_iff (List.cons_ne_nil _ _) (List.cons_ne_nil _ _)).mp same
  rw [DelimitedText.flatMap_cons_left_eq_iff,DelimitedText.flatMap_cons_eq_iff noColon noColon'] at fields
  obtain ⟨rfl,rest⟩ := fields
  have ending : ∀ callType : PluginCallType,
      DelimitedText.segments ':' callType.value = [callType.value.toList] := fun callType => by
    cases callType <;> exact DelimitedText.segments_of_not_mem (by simp [PluginCallType.value])
  simp only [List.flatMap_cons,List.flatMap_nil,List.append_nil,ending] at rest
  obtain ⟨users,types⟩ := List.append_inj' rest rfl
  have sameUser : user = user' := DelimitedText.segments_injective users
  have sameType : callType = callType' := by
    cases callType <;> cases callType' <;> simp [PluginCallType.value] at types ⊢
  rw [sameUser,sameType]

variable {window now moment : ℚ} {s s' : Limiter} {past records : List Record} {call : Call}
  {triple other : Triple} {seq : Nat} {answer : Option Nat}

theorem filter_eq_live (entries : List (ℚ × Nat)) :
    (entries.filter fun entry => now - entry.1 < window) = live Prod.fst window now entries := by
  simp only [live,sub_lt_comm]

theorem granted_append (record : Record) :
    granted triple (past ++ [record]) = granted triple past ++ (record.grantedTo triple).toList := by
  cases given : record.grantedTo triple <;> simp [granted,given]

theorem released_append (record : Record) :
    Released (past ++ [record]) seq ↔ Released past seq ∨ record.call = .release seq := by
  simp [Released,or_and_right,exists_or]

structure Sound (window now : ℚ) (past : List Record) (s : Limiter) : Prop where
  counted : ∀ triple, ∀ entry ∈ granted triple past, entry.2 ≤ s.seq
  releasedCounted : ∀ seq, Released past seq → seq ≤ s.seq
  tokensCounted : ∀ seq token, s.tokens.get? seq = some token → seq ≤ s.seq
  /-- No number is given out twice. -/
  numbered : ∀ triple other, ∀ entry ∈ granted triple past, ∀ entry' ∈ granted other past,
    entry.2 = entry'.2 → triple = other
  tokens : ∀ seq token, s.tokens.get? seq = some token →
    (∃ triple, token.bucketKey = bucketKey triple ∧ (token.timestamp,seq) ∈ granted triple past) ∧
    (token.released = true ↔ Released past seq)
  tracks : ∀ triple, Tracks Prod.fst window now (bucket s.buckets (bucketKey triple)) (standing triple past)

theorem sound_start (now : ℚ) : Sound window now [] .start where
  counted := by simp [granted]
  releasedCounted := by simp [Released]
  tokensCounted := by simp [Limiter.start]
  numbered := by simp [granted]
  tokens := by simp [Limiter.start]
  tracks _ := Tracks.nil

theorem Sound.mono (sound : Sound window now past s) (after : now ≤ moment) :
    Sound window moment past s :=
  {sound with tracks := fun triple => (sound.tracks triple).mono after}

/-- A call that grants and releases nothing, and whose buckets still tell the truth. -/
theorem Sound.idle {buckets : OrderedMap String (List (ℚ × Nat))} (sound : Sound window now past s)
    (grantless : ∀ triple, Record.grantedTo triple ⟨now,call,answer⟩ = none)
    (keeps : ∀ seq, call = .release seq → Released past seq)
    (tracks : ∀ triple, Tracks Prod.fst window now (bucket buckets (bucketKey triple)) (standing triple past)) :
    Sound window now (past ++ [⟨now,call,answer⟩]) {s with buckets := buckets} := by
  have sameGrants : ∀ triple, granted triple (past ++ [⟨now,call,answer⟩]) = granted triple past :=
    fun triple => by simp [granted_append,grantless]
  have sameReleases : ∀ seq, Released (past ++ [⟨now,call,answer⟩]) seq ↔ Released past seq := fun seq => by
    rw [released_append]
    exact or_iff_left_of_imp (keeps seq)
  have sameStanding : ∀ triple, standing triple (past ++ [⟨now,call,answer⟩]) = standing triple past :=
    fun triple => by simp only [standing,sameGrants,sameReleases]
  constructor
  · simpa only [sameGrants] using sound.counted
  · simpa only [sameReleases] using sound.releasedCounted
  · exact sound.tokensCounted
  · simpa only [sameGrants] using sound.numbered
  · simpa only [sameGrants,sameReleases] using sound.tokens
  · simpa only [sameStanding] using tracks

/-- What the buckets of all triples track where one of them is written. -/
theorem tracks_set {entries : List (ℚ × Nat)} {whole : Triple → List (ℚ × Nat)}
    (own : Tracks Prod.fst window now entries (whole triple))
    (others : ∀ other, other ≠ triple →
      Tracks Prod.fst window now (bucket s.buckets (bucketKey other)) (whole other)) (other : Triple) :
    Tracks Prod.fst window now (bucket (s.buckets.set (bucketKey triple) entries) (bucketKey other))
      (whole other) := by
  rcases eq_or_ne other triple with rfl | differ
  · simpa only [bucket_set_self]
  · simpa only [bucket_set_of_ne (bucketKey_injective.ne differ)] using others other differ

theorem Sound.live (sound : Sound window now past s) (triple : Triple) :
    Tracks Prod.fst window now
      ((bucket s.buckets (bucketKey triple)).filter fun entry => now - entry.1 < window)
      (standing triple past) := by
  rw [filter_eq_live]
  exact (sound.tracks triple).live

/-- A slot is charged under the next number. -/
theorem Sound.grant {budget : PluginBudget} {entries : List (ℚ × Nat)} (sound : Sound window now past s)
    (tracks : Tracks Prod.fst window now entries (standing triple past)) :
    Sound window now (past ++ [⟨now,.acquire triple budget,some (s.seq + 1)⟩])
      ⟨s.buckets.set (bucketKey triple) (entries ++ [(now,s.seq + 1)]),s.seq + 1,
        s.tokens.set (s.seq + 1) ⟨bucketKey triple,now,false⟩⟩ := by
  have grants : ∀ other, granted other (past ++ [⟨now,.acquire triple budget,some (s.seq + 1)⟩])
      = granted other past ++ if triple = other then [(now,s.seq + 1)] else [] := fun other => by
    rw [granted_append]
    simp only [Record.grantedTo]
    split <;> rfl
  have releases : ∀ seq, Released (past ++ [⟨now,.acquire triple budget,some (s.seq + 1)⟩]) seq ↔ Released past seq :=
    fun seq => by simp [released_append]
  have fresh : ¬Released past (s.seq + 1) := fun released => by
    have := sound.releasedCounted _ released
    omega
  have stand : ∀ other, standing other (past ++ [⟨now,.acquire triple budget,some (s.seq + 1)⟩])
      = standing other past ++ if triple = other then [(now,s.seq + 1)] else [] := fun other => by
    simp only [standing,grants,releases,List.filter_append]
    split <;> simp [fresh]
  constructor
  · intro other entry member
    rw [grants,List.mem_append] at member
    rcases member with before | here
    · exact (sound.counted other entry before).trans (Nat.le_succ _)
    · split at here <;> simp_all
  · intro seq released
    exact (sound.releasedCounted seq ((releases seq).mp released)).trans (Nat.le_succ _)
  · intro seq token found
    rcases eq_or_ne seq (s.seq + 1) with rfl | differ
    · exact le_rfl
    · rw [OrderedMap.get?_set_of_ne differ] at found
      exact (sound.tokensCounted seq token found).trans (Nat.le_succ _)
  · intro left right entry member entry' member' same
    rw [grants,List.mem_append] at member member'
    have old : ∀ other, ∀ entry ∈ granted other past, entry.2 ≠ s.seq + 1 := fun other entry member => by
      have := sound.counted other entry member
      omega
    rcases member with before | here <;> rcases member' with before' | here'
    · exact sound.numbered left right entry before entry' before' same
    · split at here' <;> simp only [List.mem_singleton,List.not_mem_nil] at here'
      exact absurd (same.trans (by rw [here'])) (old left entry before)
    · split at here <;> simp only [List.mem_singleton,List.not_mem_nil] at here
      exact absurd (same.symm.trans (by rw [here])) (old right entry' before')
    · split at here <;> split at here' <;> simp_all
  · intro seq token found
    rcases eq_or_ne seq (s.seq + 1) with rfl | differ
    · rw [OrderedMap.get?_set_self] at found
      obtain rfl := Option.some.inj found
      exact ⟨⟨triple,rfl,by simp [grants]⟩,by simp [releases,fresh]⟩
    · rw [OrderedMap.get?_set_of_ne differ] at found
      obtain ⟨⟨other,isKey,member⟩,flag⟩ := sound.tokens seq token found
      exact ⟨⟨other,isKey,by simp [grants,member]⟩,by rw [flag,releases]⟩
  · have own : Tracks Prod.fst window now (entries ++ [(now,s.seq + 1)])
        (standing triple (past ++ [⟨now,.acquire triple budget,some (s.seq + 1)⟩])) := by
      rw [stand,if_pos rfl]
      exact tracks.push rfl
    refine tracks_set own fun other differ => ?_
    rw [stand,if_neg differ.symm,List.append_nil]
    exact sound.tracks other

theorem Sound.acquire (sound : Sound window now past s) (triple : Triple) (budget : PluginBudget) :
    Sound window now (past ++ [⟨now,.acquire triple budget,(acquire window s now triple budget).2⟩])
      (acquire window s now triple budget).1 := by
  unfold PluginRateLimiter.acquire
  dsimp only
  split
  · refine sound.idle (fun other => rfl) (fun seq isRelease => by cases isRelease) ?_
    exact tracks_set (sound.live triple) fun other _ => sound.tracks other
  · exact sound.grant (sound.live triple)

/-- The bucket that a release leaves, and the others untouched. -/
theorem bucket_release (seq : Nat) (token : Token) (pending : token.released = false) (key : String) :
    bucket (release s seq token).buckets key =
      if key = token.bucketKey then (bucket s.buckets key).filter fun entry => entry.2 ≠ seq
      else bucket s.buckets key := by
  unfold release
  simp only [pending,Bool.false_eq_true,if_false]
  by_cases isKey : key = token.bucketKey
  · subst isKey
    split
    · simp
    · rename_i emptied
      have nothing := not_not.mp emptied
      simp only [if_true,nothing]
      simp [bucket]
  · simp only [isKey,if_false]
    split
    · exact bucket_set_of_ne isKey _
    · simp [bucket,OrderedMap.get?_erase_of_ne isKey]

section
variable (sound : Sound window now past s)
include sound

theorem Sound.release {token : Token} (found : s.tokens.get? seq = some token) :
    Sound window now (past ++ [⟨now,.release seq,none⟩]) (release s seq token) := by
  obtain ⟨⟨owner,isKey,member⟩,flag⟩ := sound.tokens seq token found
  cases done : token.released with
  | true =>
    have same : PluginRateLimiter.release s seq token = {s with buckets := s.buckets} := by
      simp [PluginRateLimiter.release,done]
    rw [same]
    refine sound.idle (fun other => rfl) (fun other isRelease => ?_) sound.tracks
    cases isRelease
    exact flag.mp done
  | false =>
    have grants : ∀ other, granted other (past ++ [⟨now,.release seq,none⟩]) = granted other past := fun other => by
      simp [granted_append,Record.grantedTo]
    have releases : ∀ other, Released (past ++ [⟨now,.release seq,none⟩]) other ↔ Released past other ∨ seq = other :=
      fun other => by simp [released_append]
    have stand : ∀ other, standing other (past ++ [⟨now,.release seq,none⟩])
        = (standing other past).filter fun entry => entry.2 ≠ seq := fun other => by
      simp only [standing,grants,releases,List.filter_filter]
      refine List.filter_congr fun entry _ => ?_
      simp [Bool.and_comm,eq_comm]
    have numbers : (PluginRateLimiter.release s seq token).seq = s.seq := by
      simp [PluginRateLimiter.release,done]
    have tokens : (PluginRateLimiter.release s seq token).tokens = s.tokens.set seq {token with released := true} := by
      simp [PluginRateLimiter.release,done]
    constructor
    · simpa only [grants,numbers] using sound.counted
    · intro other released
      rw [numbers]
      rcases (releases other).mp released with before | rfl
      · exact sound.releasedCounted other before
      · exact sound.tokensCounted _ token found
    · intro other another held
      rw [tokens] at held
      rw [numbers]
      rcases eq_or_ne other seq with rfl | differ
      · exact sound.tokensCounted _ token found
      · rw [OrderedMap.get?_set_of_ne differ] at held
        exact sound.tokensCounted other another held
    · simpa only [grants] using sound.numbered
    · intro other another held
      rw [tokens] at held
      simp only [releases,grants]
      rcases eq_or_ne other seq with rfl | differ
      · rw [OrderedMap.get?_set_self] at held
        obtain rfl := Option.some.inj held
        exact ⟨⟨owner,isKey,member⟩,by simp⟩
      · rw [OrderedMap.get?_set_of_ne differ] at held
        obtain ⟨isGranted,flag⟩ := sound.tokens other another held
        exact ⟨isGranted,by simp [flag,differ.symm]⟩
    · intro other
      rw [stand,bucket_release seq token done]
      split
      · exact (sound.tracks other).filter _
      · rename_i differ
        have untouched : (standing other past).filter (fun entry => entry.2 ≠ seq) = standing other past := by
          refine List.filter_eq_self.mpr fun entry stands => ?_
          have isGranted := List.mem_of_mem_filter stands
          have : entry.2 ≠ seq := fun same => differ (isKey ▸ congrArg bucketKey
            (sound.numbered other owner entry isGranted _ member same))
          simpa using this
        rw [untouched]
        exact sound.tracks other

theorem Sound.cleanupExpired :
    Sound window now (past ++ [⟨now,.cleanupExpired,none⟩]) (cleanupExpired window s now) := by
  refine sound.idle (fun other => rfl) (fun seq isRelease => by cases isRelease) fun triple => ?_
  refine tracks_filter _ (sound.tracks triple) fun old entry isLast => ?_
  rw [Option.mem_def] at isLast
  simpa [isLast,le_sub_comm] using old

theorem Sound.step (stepped : step window s now call = some (s',answer)) :
    Sound window now (past ++ [⟨now,call,answer⟩]) s' := by
  cases call with
  | acquire triple budget =>
    obtain ⟨rfl,rfl⟩ := Prod.mk.inj (Option.some.inj stepped)
    exact sound.acquire triple budget
  | release seq =>
    obtain ⟨token,found,same⟩ := Option.map_eq_some_iff.mp stepped
    obtain ⟨rfl,rfl⟩ := Prod.mk.inj same
    exact sound.release found
  | cleanupExpired =>
    obtain ⟨rfl,rfl⟩ := Prod.mk.inj (Option.some.inj stepped)
    exact sound.cleanupExpired

theorem sound_run {calls : List (ℚ × Call)}
    (inOrder : (now :: (calls.map Prod.fst ++ [moment])).Pairwise (· ≤ ·))
    (ran : run window s past calls = some (s',records)) : Sound window moment records s' := by
  induction calls generalizing now past s with
  | nil =>
    obtain ⟨rfl,rfl⟩ := Prod.mk.inj (Option.some.inj ran)
    exact sound.mono (by simpa using inOrder)
  | cons call calls ih =>
    obtain ⟨time,call⟩ := call
    obtain ⟨below,tail⟩ := List.pairwise_cons.mp inOrder
    have reached := sound.mono (below time (by simp))
    unfold run at ran
    split at ran
    · rename_i stepped
      exact ih (reached.step stepped) tail ran
    · contradiction

theorem Sound.slots (triple : Triple) :
    slots window now triple s = liveTokens window now triple past := by
  unfold PluginRateLimiter.slots liveTokens
  simp only [filter_eq_live]
  exact (sound.tracks triple).kept now le_rfl

theorem Sound.acquires (triple : Triple) (budget : PluginBudget) :
    (PluginRateLimiter.acquire window s now triple budget).2.isSome ↔
      ((liveTokens window now triple past).length : Int) < budget.limitFor triple.callType := by
  rw [← sound.slots]
  unfold PluginRateLimiter.acquire PluginRateLimiter.slots
  dsimp only
  split <;> simp <;> omega

/-- A release takes its own slot out and leaves those of every triple otherwise alone. -/
theorem Sound.frees {token : Token}
    (found : s.tokens.get? seq = some token) (triple : Triple) :
    PluginRateLimiter.slots window now triple (PluginRateLimiter.release s seq token)
      = (PluginRateLimiter.slots window now triple s).filter fun entry => entry.2 ≠ seq := by
  have after := sound.release found
  rw [sound.slots,after.slots]
  simp only [liveTokens,standing,granted_append,released_append,Record.grantedTo,Option.toList_none,
    List.append_nil,List.filter_filter]
  refine List.filter_congr fun entry _ => ?_
  by_cases same : entry.2 = seq
  · simp [same]
  · simp [same,Ne.symm same]

end

/-- At times that never go back the limiter is exact. After any calls, a call gets a token where
fewer than its limit of the tokens granted to its own triple are unreleased and younger than
the window, a release frees its own slot and no other, and the sweep frees none. -/
theorem acquire_exact (window now : ℚ) (calls : List (ℚ × Call)) (s : Limiter) (records : List Record)
    (inOrder : (calls.map Prod.fst ++ [now]).Pairwise (· ≤ ·))
    (ran : run window .start [] calls = some (s,records)) :
    (∀ triple budget, (acquire window s now triple budget).2.isSome ↔
      ((liveTokens window now triple records).length : Int) < budget.limitFor triple.callType) ∧
    (∀ triple, slots window now triple s = liveTokens window now triple records) ∧
    (∀ seq token, s.tokens.get? seq = some token → ∀ triple,
      slots window now triple (release s seq token)
        = (slots window now triple s).filter fun entry => entry.2 ≠ seq) ∧
    (∀ triple, slots window now triple (cleanupExpired window s now) = slots window now triple s) ∧
    Function.Injective bucketKey := by
  have sound : Sound window now records s := sound_run (sound_start _) (pairwise_head_cons inOrder (by simp)) ran
  refine ⟨sound.acquires,sound.slots,fun seq token found => sound.frees found,fun triple => ?_,
    bucketKey_injective⟩
  rw [sound.cleanupExpired.slots,sound.slots]
  simp [liveTokens,standing,granted_append,released_append,Record.grantedTo]

/-- The plugin `a`, whose user has a colon in its name. -/
def readsOf (user : String) : Triple := ⟨⟨"a",by decide⟩,user,.reads⟩

/-- Two slots of a budget of two, one of them given back. -/
def released : List (ℚ × Call) :=
  [(0,.acquire (readsOf "u:v") ⟨2,1⟩),(1,.acquire (readsOf "u:v") ⟨2,1⟩),(2,.acquire (readsOf "u:v") ⟨2,1⟩),
    (3,.release 1),(3,.release 1),(4,.cleanupExpired)]

theorem acquire_exact_released :
    ((run 60 .start [] released).map fun out => (acquire 60 out.1 5 (readsOf "u:v") ⟨2,1⟩).2) = some (some 3) ∧
    ∃ s records, run 60 .start [] released = some (s,records) ∧
      (∀ triple budget, (acquire 60 s 5 triple budget).2.isSome ↔
        ((liveTokens 60 5 triple records).length : Int) < budget.limitFor triple.callType) ∧
      (∀ triple, slots 60 5 triple s = liveTokens 60 5 triple records) ∧
      (∀ seq token, s.tokens.get? seq = some token → ∀ triple,
        slots 60 5 triple (release s seq token)
          = (slots 60 5 triple s).filter fun entry => entry.2 ≠ seq) ∧
      (∀ triple, slots 60 5 triple (cleanupExpired 60 s 5) = slots 60 5 triple s) ∧
      Function.Injective bucketKey := by
  have returned : ((run 60 .start [] released).map fun out =>
      (acquire 60 out.1 5 (readsOf "u:v") ⟨2,1⟩).2) = some (some 3) := by decide +kernel
  obtain ⟨⟨s,records⟩,ran,_⟩ := Option.map_eq_some_iff.mp returned
  exact ⟨returned,s,records,ran,acquire_exact 60 5 released s records (by decide +kernel) ran⟩

/-- A token exactly as old as the window is not older than it, and yet its slot is free. -/
theorem acquired_at_window :
    ¬∀ (window now : ℚ) (calls : List (ℚ × Call)) (s : Limiter) (records : List Record),
      (calls.map Prod.fst ++ [now]).Pairwise (· ≤ ·) → run window .start [] calls = some (s,records) →
      ∀ triple budget, (acquire window s now triple budget).2.isSome ↔
        (((standing triple records).filter fun entry => ¬window < now - entry.1).length : Int)
          < budget.limitFor triple.callType := by
  intro claimed
  have evaluated : ((run 60 .start [] [(0,.acquire (readsOf "u") ⟨1,1⟩)]).map fun out =>
      ((acquire 60 out.1 60 (readsOf "u") ⟨1,1⟩).2.isSome,
        ((standing (readsOf "u") out.2).filter fun entry => ¬60 < 60 - entry.1).length)) = some (true,1) := by
    decide +kernel
  obtain ⟨⟨s,records⟩,ran,values⟩ := Option.map_eq_some_iff.mp evaluated
  obtain ⟨granted,counted⟩ := Prod.mk.inj values
  have full := (claimed 60 60 _ s records (by decide +kernel) ran (readsOf "u") ⟨1,1⟩).mp granted
  dsimp only at counted
  rw [counted] at full
  revert full
  decide

end Vigile.PluginRateLimiter
