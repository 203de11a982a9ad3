import Mathlib.Order.Bounds.Basic
import Vigile.Binary64
import Vigile.CanaryRollout
import Vigile.Gregorian

/-! Cron expressions of the scheduler and the minutes they name. -/
namespace Vigile.Cron

open CanaryRollout (int)
open Gregorian Python

-- the decimal value of a character, from the Unicode tables
variable (decimal : Char → Option Nat)

def splitOn (text : String) (separator : Char) : List String := (text.toList.splitOn separator).map String.ofList

def split (text : String) : List String :=
  ((text.toList.splitOnP isSpace).filter fun word => word ≠ []).map String.ofList

def parseStep (part : String) : Except PyError (String × Int) :=
  match splitOn part '/' with
  | [valPart] => .ok (valPart,1)
  | [valPart,stepStr] =>
    match int decimal stepStr with
    | some step =>
      if step ≤ 0 then .error (.valueError ("Invalid cron step value: '" ++ stepStr ++ "'")) else .ok (valPart,step)
    | none => .error (.valueError ("Invalid cron step value: '" ++ stepStr ++ "'"))
  | _ => .error (.valueError "too many values to unpack (expected 2)")

def parseRange (minVal maxVal : Int) (valPart : String) : Except PyError (Int × Int) :=
  if valPart = "*" then .ok (minVal,maxVal)
  else
    match splitOn valPart '-' with
    | [_] =>
      match int decimal valPart with
      | some start => .ok (start,start)
      | none => .error (.valueError ("Invalid cron integer value: '" ++ valPart ++ "'"))
    | [startStr,endStr] =>
      match int decimal startStr,int decimal endStr with
      | some start,some stop => .ok (start,stop)
      | _,_ => .error (.valueError ("Invalid cron range values: '" ++ startStr ++ "-" ++ endStr ++ "'"))
    | _ => .error (.valueError "too many values to unpack (expected 2)")

def range (start stop step : Int) : List Int :=
  (List.range ((stop - start) / step + 1).toNat).map fun (k : Nat) => start + k * step

def parsePart (minVal maxVal : Int) (part : String) : Except PyError (List Int) := do
  if part = "" then throw (.valueError "Empty field component in list")
  let (valPart,step) ← parseStep decimal part
  let (start,stop) ← parseRange decimal minVal maxVal valPart
  if start < minVal ∨ maxVal < start ∨ stop < minVal ∨ maxVal < stop then
    throw (.valueError ("Cron value out of boundaries [" ++ toString minVal ++ "-" ++ toString maxVal ++ "]: '" ++ part ++ "'"))
  if stop < start then
    throw (.valueError ("Cron range start exceeds end: '" ++ toString start ++ "-" ++ toString stop ++ "'"))
  return range start stop step

def parseCronField (field : String) (minVal maxVal : Int) : Except PyError (List Int) := do
  if strip field = "" then throw (.valueError "Empty cron field")
  let parts ← (splitOn (strip field) ',').mapM (parsePart decimal minVal maxVal)
  return parts.flatten

structure CronExpression where
  expr : String
  minutes : List Int
  hours : List Int
  dom : List Int
  months : List Int
  dow : List Int
  deriving DecidableEq

def unifySunday (dow : List Int) : List Int := if 7 ∈ dow then dow.filter (· ≠ 7) ++ [0] else dow

/-- The `try` block. -/
def parseFields (expr : String) (parts : List String) : Except PyError CronExpression := do
  let minutes ← parseCronField decimal (parts.getD 0 "") 0 59
  let hours ← parseCronField decimal (parts.getD 1 "") 0 23
  let dom ← parseCronField decimal (parts.getD 2 "") 1 31
  let months ← parseCronField decimal (parts.getD 3 "") 1 12
  let dow ← parseCronField decimal (parts.getD 4 "") 0 7
  return ⟨expr,minutes,hours,dom,months,unifySunday dow⟩

def cronExpression (expr : String) : Except PyError CronExpression :=
  let parts := split (strip expr)
  if parts.length ≠ 5 then
    .error (.valueError ("Invalid cron expression: '" ++ expr ++ "'. Must have exactly 5 fields."))
  else
    match parseFields decimal expr parts with
    | .error (.valueError e) => .error (.valueError ("Failed parsing cron expression '" ++ expr ++ "': " ++ e))
    | parsed => parsed

/-! Instants, as minutes since the first of January 1970 -/

/-- The ordinal of that day. -/
def epoch : Int := 719163

def firstMinute : Int := (1 - epoch) * 1440
def lastMinute : Int := (3652059 - epoch) * 1440 + 1439

/-- The microseconds of a timestamp as `fromtimestamp` rounds them: the fraction is scaled as a float,
and a half goes to the even neighbour. -/
def microseconds (t : Binary64) : Int :=
  let whole := ⌊t.magnitude⌋₊
  let scaled := match Binary64.round t.negative ((t.magnitude - whole) * 1000000) with
    | some product => product.magnitude
    | none => 0
  let micros : Int := whole * 1000000 + Binary64.nearest scaled
  if t.negative then -micros else micros

/-- The timestamp lies in the range of `datetime`. -/
def Representable (t : Binary64) : Prop :=
  firstMinute * 60000000 ≤ microseconds t ∧ microseconds t < (lastMinute + 1) * 60000000

instance (t : Binary64) : Decidable (Representable t) := inferInstanceAs (Decidable (_ ∧ _))

def nextMinute (t : Binary64) : Int := microseconds t / 60000000 + 1

/-- The test of the loop of `next_trigger`. -/
def isDue (cron : CronExpression) (minute : Int) : Bool :=
  let ordinal := (minute / 1440 + epoch).toNat
  let (_,month,day) := fromOrdinal ordinal
  let weekday := (ordinal + 6) % 7
  let cronDow := (weekday + 1) % 7
  minute % 60 ∈ cron.minutes ∧ minute / 60 % 24 ∈ cron.hours ∧ (day : Int) ∈ cron.dom ∧ (month : Int) ∈ cron.months ∧
    (cronDow : Int) ∈ cron.dow

def search (cron : CronExpression) : Nat → Int → Except PyError Int
  | 0,_ => .error (.valueError "No matching execution time found within 1 year.")
  | fuel + 1,minute =>
    if isDue cron minute then .ok (60 * minute)
    else if minute = lastMinute then .error (.otherException "date value out of range")
    else search cron fuel (minute + 1)

def nextTrigger (cron : CronExpression) (t : Binary64) : Except PyError Int :=
  if ¬Representable t then .error (.valueError "year is out of range")
  else if lastMinute < nextMinute t then .error (.otherException "date value out of range")
  else search cron 525600 (nextMinute t)

/-- The five fields of the expression allow these numbers; Sunday is zero, and seven in a field. -/
def Allows (expr : String) (minute hour day month weekday : Int) : Prop :=
  let parts := split (strip expr)
  parts.length = 5 ∧ ∃ minutes hours dom months dow,
    parseCronField decimal (parts.getD 0 "") 0 59 = .ok minutes ∧ minute ∈ minutes ∧
    parseCronField decimal (parts.getD 1 "") 0 23 = .ok hours ∧ hour ∈ hours ∧
    parseCronField decimal (parts.getD 2 "") 1 31 = .ok dom ∧ day ∈ dom ∧
    parseCronField decimal (parts.getD 3 "") 1 12 = .ok months ∧ month ∈ months ∧
    parseCronField decimal (parts.getD 4 "") 0 7 = .ok dow ∧ (weekday ∈ dow ∨ weekday = 0 ∧ 7 ∈ dow)

/-- A minute of the calendar that the expression names. -/
def Scheduled (expr : String) (instant : Int) : Prop :=
  ∃ (date : Date) (hour minute : Nat), hour < 24 ∧ minute < 60 ∧
    instant = ((date.toOrdinal - epoch) * 24 + hour) * 60 + minute ∧
    Allows decimal expr minute hour date.day date.month (date.toOrdinal % 7 : Nat)

/-- The minutes that a call looks at and the expression names. -/
def Window (expr : String) (t : Binary64) : Set Int :=
  {instant | Representable t ∧ nextMinute t ≤ instant ∧ instant < nextMinute t + 525600 ∧ instant ≤ lastMinute ∧
    Scheduled decimal expr instant}

variable {decimal} {expr : String} {cron : CronExpression}

variable {weekday instant start : Int} {fuel : Nat}

theorem mem_unifySunday {dow : List Int} (known : weekday < 7) :
    weekday ∈ unifySunday dow ↔ weekday ∈ dow ∨ weekday = 0 ∧ 7 ∈ dow := by
  unfold unifySunday
  split
  case isTrue seven =>
    simp only [List.mem_append,List.mem_filter,List.mem_singleton,seven,and_true,decide_eq_true_eq]
    have other : weekday ≠ 7 := known.ne
    simp [other]
  case isFalse none => simp [none]

theorem bind_ok {α β : Type} {parsed : Except PyError α} {next : α → Except PyError β} {result : β}
    (done : (parsed >>= next) = .ok result) : ∃ value, parsed = .ok value ∧ next value = .ok result := by
  cases parsed with
  | error error => contradiction
  | ok value => exact ⟨value,rfl,done⟩

/-- What an accepted expression consists of. -/
theorem cronExpression_ok (accepted : cronExpression decimal expr = .ok cron) : (split (strip expr)).length = 5 ∧
    parseFields decimal expr (split (strip expr)) = .ok cron := by
  unfold cronExpression at accepted
  dsimp only at accepted
  split at accepted
  · simp at accepted
  · rename_i five
    refine ⟨not_not.mp five,?_⟩
    split at accepted
    · simp at accepted
    · exact accepted

theorem allows_iff (accepted : cronExpression decimal expr = .ok cron) (minute hour day month : Int)
    (known : weekday < 7) : Allows decimal expr minute hour day month weekday ↔
      minute ∈ cron.minutes ∧ hour ∈ cron.hours ∧ day ∈ cron.dom ∧ month ∈ cron.months ∧ weekday ∈ cron.dow := by
  obtain ⟨five,parsed⟩ := cronExpression_ok accepted
  unfold parseFields at parsed
  obtain ⟨minutes,parsedMinutes,parsed⟩ := bind_ok parsed
  obtain ⟨hours,parsedHours,parsed⟩ := bind_ok parsed
  obtain ⟨dom,parsedDom,parsed⟩ := bind_ok parsed
  obtain ⟨months,parsedMonths,parsed⟩ := bind_ok parsed
  obtain ⟨dow,parsedDow,parsed⟩ := bind_ok parsed
  obtain rfl := Except.ok.inj parsed
  unfold Allows
  simp only [five,parsedMinutes,parsedHours,parsedDom,parsedMonths,parsedDow,true_and,Except.ok.injEq,
    exists_and_left,exists_eq_left',mem_unifySunday known]

/-- The test of the loop at a minute of a date. -/
theorem isDue_date (date : Date) {hour minute : Nat} (hours : hour < 24) (minutes : minute < 60) :
    isDue cron (((date.toOrdinal - epoch) * 24 + hour) * 60 + minute) = true ↔
      (minute : Int) ∈ cron.minutes ∧ (hour : Int) ∈ cron.hours ∧ (date.day : Int) ∈ cron.dom ∧
        (date.month : Int) ∈ cron.months ∧ ((date.toOrdinal % 7 : Nat) : Int) ∈ cron.dow := by
  have ordinal : ((((date.toOrdinal - epoch) * 24 + hour) * 60 + minute) / 1440 + epoch).toNat = date.toOrdinal := by
    omega
  have ofMinute : (((date.toOrdinal - epoch) * 24 + hour) * 60 + minute : Int) % 60 = minute := by omega
  have ofHour : (((date.toOrdinal - epoch) * 24 + hour) * 60 + minute : Int) / 60 % 24 = hour := by omega
  have weekday : ((date.toOrdinal + 6) % 7 + 1) % 7 = date.toOrdinal % 7 := by omega
  unfold isDue
  rw [ordinal]
  dsimp only
  rw [fromOrdinal_toOrdinal,ofMinute,ofHour]
  dsimp only
  rw [weekday,decide_eq_true_iff]

/-- Every minute from the first one on belongs to a date. -/
theorem exists_date (inside : firstMinute ≤ instant) : ∃ (date : Date) (hour minute : Nat),
    hour < 24 ∧ minute < 60 ∧ instant = ((date.toOrdinal - epoch) * 24 + hour) * 60 + minute := by
  have positive : 1 ≤ (instant / 1440 + epoch).toNat := by
    unfold firstMinute at inside
    omega
  obtain ⟨date,_,ordinal⟩ := fromOrdinal_spec _ positive
  refine ⟨date,(instant / 60 % 24).toNat,(instant % 60).toNat,by omega,by omega,?_⟩
  rw [ordinal]
  omega

theorem isDue_iff (accepted : cronExpression decimal expr = .ok cron) (inside : firstMinute ≤ instant) :
    isDue cron instant = true ↔ Scheduled decimal expr instant := by
  have known (date : Date) : ((date.toOrdinal % 7 : Nat) : Int) < 7 := by omega
  constructor
  · intro due
    obtain ⟨date,hour,minute,hours,minutes,rfl⟩ := exists_date inside
    exact ⟨date,hour,minute,hours,minutes,rfl,
      (allows_iff accepted minute hour date.day date.month (known date)).mpr ((isDue_date date hours minutes).mp due)⟩
  · rintro ⟨date,hour,minute,hours,minutes,rfl,allows⟩
    exact (isDue_date date hours minutes).mpr
      ((allows_iff accepted minute hour date.day date.month (known date)).mp allows)

theorem search_found (after : start ≤ instant) (within : instant < start + fuel)
    (last : instant ≤ lastMinute) (due : isDue cron instant = true)
    (least : ∀ earlier, start ≤ earlier → earlier < instant → isDue cron earlier = false) :
    search cron fuel start = .ok (60 * instant) := by
  induction fuel generalizing start with
  | zero => omega
  | succ fuel ih =>
    unfold search
    by_cases here : start = instant
    · subst here
      rw [if_pos due]
    · have earlier := least start le_rfl (lt_of_le_of_ne after here)
      rw [if_neg (by simp [earlier]),if_neg (by omega)]
      exact ih (by omega) (by push_cast at within; omega) fun other from' => least other (by omega)

theorem search_fails
    (never : ∀ instant, start ≤ instant → instant < start + fuel → instant ≤ lastMinute → isDue cron instant = false)
    (reached : start ≤ lastMinute) : ∃ error, search cron fuel start = .error error := by
  induction fuel generalizing start with
  | zero => exact ⟨_,rfl⟩
  | succ fuel ih =>
    unfold search
    rw [if_neg (by simp [never start le_rfl (by push_cast; omega) reached])]
    by_cases last : start = lastMinute
    · exact ⟨_,if_pos last⟩
    · rw [if_neg last]
      exact ih (fun instant after within => never instant (by omega) (by push_cast; omega)) (by omega)

theorem firstMinute_le {t : Binary64} (known : Representable t) : firstMinute ≤ nextMinute t := by
  have lower := known.1
  unfold nextMinute
  omega

/-- The next execution is the least minute that the expression names among those a call looks at, and there is an
error if there is none. -/
theorem nextTrigger_least (decimal : Char → Option Nat) (expr : String) (cron : CronExpression)
    (accepted : cronExpression decimal expr = .ok cron) (t : Binary64) :
    (∀ instant, IsLeast (Window decimal expr t) instant → nextTrigger cron t = .ok (60 * instant)) ∧
      (Window decimal expr t = ∅ → ∃ error, nextTrigger cron t = .error error) := by
  constructor
  · rintro instant ⟨⟨known,after,within,last,scheduled⟩,least⟩
    have start := firstMinute_le known
    unfold nextTrigger
    rw [if_neg (not_not.mpr known),if_neg (not_lt.mpr (after.trans last))]
    refine search_found after within last ((isDue_iff accepted (start.trans after)).mpr scheduled) fun earlier from' before => ?_
    rw [Bool.eq_false_iff]
    intro due
    have member : earlier ∈ Window decimal expr t :=
      ⟨known,from',before.trans within,before.le.trans last,(isDue_iff accepted (start.trans from')).mp due⟩
    exact absurd (least member) (not_le.mpr before)
  · intro none
    unfold nextTrigger
    by_cases known : Representable t
    · rw [if_neg (not_not.mpr known)]
      by_cases beyond : lastMinute < nextMinute t
      · exact ⟨_,if_pos beyond⟩
      · rw [if_neg beyond]
        refine search_fails (fun instant after within last => ?_) (not_lt.mp beyond)
        rw [Bool.eq_false_iff]
        intro due
        have member : instant ∈ Window decimal expr t :=
          ⟨known,after,within,last,(isDue_iff accepted ((firstMinute_le known).trans after)).mp due⟩
        exact absurd member (none ▸ Set.notMem_empty instant)
    · exact ⟨_,if_pos known⟩

def asciiDecimal (c : Char) : Option Nat := if c.isDigit then some (c.toNat - 48) else none

def leapDays : CronExpression := ⟨"0 0 29 2 *",[0],[0],[29],[2],[0,1,2,3,4,5,6,0]⟩

theorem leapDays_accepted : cronExpression asciiDecimal "0 0 29 2 *" = .ok leapDays := by
  decide +kernel

def march : Binary64 := ⟨false,1740787200 * 2 ^ 22,-22,by decide⟩

theorem nextMinute_march : Representable march ∧ nextMinute march = 29013121 := by
  have zero : Binary64.round false 0 = some ⟨false,0,-1074,by decide⟩ := by
    have reads := Binary64.round_magnitude ⟨false,0,-1074,by decide⟩
    simpa [Binary64.magnitude] using reads
  have magnitude : march.magnitude = (1740787200 : Nat) := by
    unfold Binary64.magnitude march
    norm_num
  have micros : microseconds march = 1740787200000000 := by
    unfold microseconds
    rw [magnitude,Nat.floor_natCast]
    dsimp only
    rw [sub_self,zero_mul,show march.negative = false from rfl,zero]
    simp [Binary64.magnitude,Binary64.nearest]
  unfold Representable nextMinute
  rw [micros]
  decide

theorem nextTrigger_least_leapDays :
    (∀ instant, IsLeast (Window asciiDecimal "0 0 29 2 *" march) instant → nextTrigger leapDays march = .ok (60 * instant)) ∧
      (Window asciiDecimal "0 0 29 2 *" march = ∅ → ∃ error, nextTrigger leapDays march = .error error) :=
  nextTrigger_least asciiDecimal "0 0 29 2 *" leapDays leapDays_accepted march

theorem isDue_leapDays (due : isDue leapDays instant = true) :
    (fromOrdinal (instant / 1440 + epoch).toNat).2 = (2,29) := by
  unfold isDue leapDays at due
  simp only [List.mem_singleton,decide_eq_true_eq] at due
  exact Prod.ext (by simpa using Nat.cast_injective due.2.2.2.1) (by simpa using Nat.cast_injective due.2.2.1)

/-- No day of the year after the first of March 2025 is a leap day. -/
theorem no_leapDay : ∀ day < 366, (fromOrdinal (739311 + day)).2 ≠ (2,29) := by
  decide +kernel

/-- The leap day of 2028 is named, and the call raises all the same. -/
theorem leapDay_missed : cronExpression asciiDecimal "0 0 29 2 *" = .ok leapDays ∧
    (∃ instant, nextMinute march ≤ instant ∧ instant ≤ lastMinute ∧ Scheduled asciiDecimal "0 0 29 2 *" instant) ∧
    ∃ error, nextTrigger leapDays march = .error error := by
  obtain ⟨known,next⟩ := nextMinute_march
  refine ⟨leapDays_accepted,?_,?_⟩
  · rw [next]
    refine ⟨_,?_,?_,⟨2028,2,29,by decide⟩,0,0,by decide,by decide,rfl,?_⟩
    · decide
    · decide
    · exact (allows_iff leapDays_accepted _ _ _ _ (by decide)).mpr (by decide)
  · unfold nextTrigger
    rw [if_neg (not_not.mpr known),next,if_neg (by decide)]
    refine search_fails (fun instant after within _ => ?_) (by decide)
    rw [Bool.eq_false_iff]
    intro due
    have ordinal : (instant / 1440 + epoch).toNat = 739311 + ((instant / 1440 + epoch).toNat - 739311) := by
      unfold epoch
      omega
    have leap := isDue_leapDays due
    rw [ordinal] at leap
    exact no_leapDay _ (by unfold epoch; push_cast at within; omega) leap

end Vigile.Cron
