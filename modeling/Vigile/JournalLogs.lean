import Mathlib.Algebra.GroupWithZero.Nat
import Vigile.GoNumber
import Vigile.GoText
import Vigile.JsonDepth

/-! The worker's two readers of the journal: the entries of a service, and the histogram of the last day. -/
namespace Vigile.JournalLogs

open JsonText Go

abbrev Fields := List (String × Value)

/-- The value that is all of a text, when arrays and objects nest at most `depth` times. -/
def valueWithin (depth : Nat) (data : List Char) : Option Value :=
  (readValue depth data).bind fun found => if found.2.all JsonText.isSpace then some found.1 else none

/-- Every number of the text fits float64, those of a field that is given again too. -/
def NumbersFit (data : List Char) : Prop :=
  ∀ found ∈ readEvery 10000 data, ∀ literal ∈ found.1.numbers, literal.binary64.isSome = true

instance (data : List Char) : Decidable (NumbersFit data) :=
  inferInstanceAs (Decidable (∀ found ∈ readEvery 10000 data, _))

/-- json.Unmarshal into a map: null leaves the nil map, and anything else than an object is an error. -/
def unmarshal (data : List Char) : Option (Option Fields) :=
  match valueWithin 10000 data with
  | some (.object fields) => if NumbersFit data then some (some fields) else none
  | some .null => some none
  | _ => none

def stringField (jm : Option Fields) (key : String) : Option String :=
  match (jm.getD []).lookup key with
  | some (.string text) => some text
  | _ => none

inductive Level where
  | error
  | warn
  | info
  | debug
  deriving DecidableEq

def Level.text : Level → String
  | .error => "error"
  | .warn => "warn"
  | .info => "info"
  | .debug => "debug"

structure LogEntry where
  timestamp : Option Binary64
  timeStr : String
  level : Level
  unit : String
  message : String
  raw : Option Fields

def parsed (text : String) : Option Int :=
  let read := parseInt text.toList
  if read.2 = none then some read.1 else none

def seconds (us : Int) : Option Binary64 :=
  (float64 us).bind fun f => Binary64.round f.negative (f.magnitude / 1000000)

-- time.Format("15:04:05.000") of a moment in nanoseconds
variable (format : Int → String)

/-- The clock is read twice where the entry has no timestamp. -/
def entryTime (now later : Int) (jm : Option Fields) : Option Binary64 × String :=
  let shown := match (stringField jm "__REALTIME_TIMESTAMP").bind parsed with
    | some us => (seconds us,format (us.tdiv 1000000 * 10 ^ 9 + us.tmod 1000000 * 1000))
    | none => (none,"")
  if shown.2 = "" then (float64 (now / 10 ^ 9),format later) else shown

def entryUnit (jm : Option Fields) : String :=
  ((["_SYSTEMD_UNIT","SYSLOG_IDENTIFIER","_COMM"].filterMap (stringField jm)).find? (· ≠ "")).getD "system"

def entryLevel (jm : Option Fields) : Level :=
  match (stringField jm "PRIORITY").bind parsed with
  | some p => if p ≤ 3 then .error else if p = 4 then .warn else if p ≤ 6 then .info else .debug
  | none => .info

def parseJournaldJSON (now later : Int) (jm : Option Fields) : LogEntry where
  timestamp := (entryTime format now later jm).1
  timeStr := (entryTime format now later jm).2
  level := entryLevel jm
  unit := entryUnit jm
  message := ((stringField jm "MESSAGE").map fun m => String.ofList (trimSpace m.toList)).getD ""
  raw := jm

def LogEntry.line (entry : LogEntry) : String :=
  entry.timeStr ++ " [" ++ entry.level.text.toUpper ++ "] " ++ entry.unit ++ ": " ++ entry.message

structure LogResultPayload where
  entries : List LogEntry
  output : String
  lines : Nat

inductive IntentResult where
  | failed (error : String)
  | plain (output : String)
  | payload (result : LogResultPayload)

/-- How a run of a command ends: its output or its error, and whether its time was up. -/
structure Run where
  out : Except String (List Char)
  expired : Bool

def journalctlArgs (service : String) (lines : Int) (since upto : String) : List String :=
  ["--no-pager","-n",toString lines,"--output","json"] ++
    (if service = "__kernel__" then ["-k"] else if service ≠ "" then ["-u",service] else []) ++
    (if since ≠ "" then ["--since",since] else []) ++ (if upto ≠ "" then ["--until",upto] else [])

-- the clock at each of its readings
variable (clock : Nat → Int)

/-- The body of the loop. -/
def readEntry (entries : List LogEntry) (line : List Char) : List LogEntry :=
  if trimSpace line = [] then entries
  else
    match unmarshal line with
    | some jm => entries ++ [parseJournaldJSON format (clock (2 * entries.length)) (clock (2 * entries.length + 1)) jm]
    | none => entries

def readPayload (out : List Char) : LogResultPayload :=
  let entries := (scanLines out).foldl (readEntry format clock) []
  ⟨entries,"\n".intercalate (entries.map LogEntry.line),entries.length⟩

def handleReadLogsService (journalctl : List String → Run) (service : String) (lines : Int) (since upto : String) :
    IntentResult :=
  let run := journalctl (journalctlArgs service lines since upto)
  if run.expired then .failed "journalctl timed out"
  else
    match run.out with
    | .ok out => .payload (readPayload format clock out)
    | .error err =>
      match (journalctl ["-u",service,"--no-pager","-n",toString lines,"--output","short"]).out with
      | .ok fallbackOut => .plain (String.ofList (trimSpace fallbackOut))
      | .error _ => .failed ("journalctl failed: " ++ err)

inductive Class where
  | error
  | warn
  | info
  deriving DecidableEq

structure HistogramBucket where
  hour : String
  timestamp : Option Binary64
  error : Nat
  warn : Nat
  info : Nat
  total : Nat

def HistogramBucket.count (bucket : HistogramBucket) : Class → Nat
  | .error => bucket.error
  | .warn => bucket.warn
  | .info => bucket.info

def HistogramBucket.add (class_ : Class) (bucket : HistogramBucket) : HistogramBucket :=
  match class_ with
  | .error => { bucket with error := bucket.error + 1, total := bucket.total + 1 }
  | .warn => { bucket with warn := bucket.warn + 1, total := bucket.total + 1 }
  | .info => { bucket with info := bucket.info + 1, total := bucket.total + 1 }

def hour : Int := 3600 * 10 ^ 9

/-- `t.Format("15h")` of a moment in UTC. -/
def hourText (t : Int) : String :=
  let h := (t / hour % 24).toNat
  (if h < 10 then "0" else "") ++ toString h ++ "h"

/-- Bucket `i` ends with the hour `23 - i` hours ago. -/
def emptyBucket (now : Int) (i : Nat) : HistogramBucket :=
  let t := now + ((i : Int) - 23) * hour
  ⟨hourText t,float64 (t / 10 ^ 9),0,0,0,0⟩

def sub (now t : Int) : Int := max (-2 ^ 63) (min (2 ^ 63 - 1) (now - t))

def priorityClass (jm : Option Fields) : Class :=
  let p := (parseInt ((stringField jm "PRIORITY").getD "").toList).1
  if p ≤ 3 then .error else if p = 4 then .warn else .info

/-- `d.Hours()`: the whole hours, and what is left of them as a fraction of one. -/
def hours (d : Int) : Option Binary64 := do
  let h ← float64 (d.tdiv hour)
  let nsec ← float64 (d.tmod hour)
  let part ← Binary64.round nsec.negative (nsec.magnitude / 3600000000000)
  Binary64.round (decide (h.value + part.value < 0)) |h.value + part.value|

/-- The bucket and the counter that a line is counted in. -/
def slot (now : Int) (line : List Char) : Option (Nat × Class) :=
  match unmarshal line with
  | none => none
  | some jm =>
    match parsed ((stringField jm "__REALTIME_TIMESTAMP").getD "") with
    | none => none
    | some us =>
      match (hours (sub now (us.tdiv 1000000 * 10 ^ 9))).map truncated with
      | none => none
      | some diffHours =>
        if 0 ≤ diffHours ∧ diffHours < 24 then some ((23 - diffHours).toNat,priorityClass jm) else none

/-- The body of the loop. -/
def countLine (now : Int) (buckets : List HistogramBucket) (line : List Char) : List HistogramBucket :=
  if trimSpace line = [] then buckets
  else
    match slot now (trimSpace line) with
    | some (bucketIdx,class_) => buckets.modify bucketIdx (HistogramBucket.add class_)
    | none => buckets

structure LogHistogramResult where
  buckets : List HistogramBucket
  totalErrors : Nat
  totalWarnings : Nat
  totalLines : Nat

/-- `journalctl` is absent, or fails, where it has no output. -/
def handleLogHistogram (now : Int) (journalctl : Option (List Char)) : LogHistogramResult :=
  let initial := (List.range 24).map (emptyBucket now)
  let buckets := match journalctl with
    | some out => (scanLines out).foldl (countLine now) initial
    | none => initial
  ⟨buckets,(buckets.map HistogramBucket.error).sum,(buckets.map HistogramBucket.warn).sum,
    (buckets.map HistogramBucket.total).sum⟩

def LogHistogramResult.count (result : LogHistogramResult) (class_ : Class) : Nat :=
  (result.buckets.map fun bucket => bucket.count class_).sum

/-! What the readers are for -/

structure Line where
  text : List Char
  single : '\n' ∉ text

/-- What journalctl prints. -/
def output (lines : List Line) : List Char := unlines (lines.map Line.text)

def Line.token (line : Line) : List Char := dropCR line.text

/-- The object that is all of a text, however deep it nests: no deeper than it is long. -/
def objectOf (data : List Char) : Option Fields :=
  match valueWithin (max 10000 data.length) data with
  | some (.object fields) => some fields
  | _ => none

def Level.toClass : Level → Class
  | .error => .error
  | .warn => .warn
  | .info | .debug => .info

/-- The line is an object with a timestamp of the last day, in microseconds. -/
def InWindow (now : Int) (line : Line) (fields : Fields) : Prop :=
  objectOf (trimSpace line.token) = some fields ∧
    ∃ us ∈ (stringField (some fields) "__REALTIME_TIMESTAMP").bind parsed, now - 24 * hour < us * 1000 ∧ us * 1000 ≤ now

/-- One entry for each line that is an object, in their order. -/
def EntriesFaithful (lines : List Line) (result : IntentResult) : Prop :=
  ∃ payload, result = .payload payload ∧ payload.entries = (lines.filterMap fun line => objectOf line.token).mapIdx
    fun i fields => parseJournaldJSON format (clock (2 * i)) (clock (2 * i + 1)) (some fields)

/-- A line of the last day makes the count of its class greater by one, and no other. -/
def CountsFaithful (now : Int) (lines : List Line) : Prop :=
  ∀ before line after fields, lines = before ++ line :: after → InWindow now line fields → ∀ class_,
    (handleLogHistogram now (some (output lines))).count class_ =
      (handleLogHistogram now (some (output (before ++ after)))).count class_ +
        if class_ = (parseJournaldJSON format now now (some fields)).level.toClass then 1 else 0

/-- An object that nests no deeper than 10000 times and holds numbers of float64 only. -/
def Decodes (data : List Char) : Prop := (valueWithin 10000 data).isSome = true ∧ NumbersFit data

/-- A priority that is a number, or too great to be one. -/
def PriorityTold (fields : Fields) : Prop :=
  let read := parseInt ((stringField (some fields) "PRIORITY").getD "").toList
  read.2 = none ∨ 4 < read.1

/-- The second of the timestamp is in the last day with it. -/
def SecondInWindow (now : Int) (fields : Fields) : Prop :=
  ∀ us ∈ (stringField (some fields) "__REALTIME_TIMESTAMP").bind parsed, now - us.tdiv 1000000 * 10 ^ 9 < 24 * hour

def Line.buffered (line : Line) : Bool := Buffered line.text

def scanned (lines : List Line) : List Line := lines.takeWhile Line.buffered

def unscanned (lines : List Line) : List Line := lines.dropWhile Line.buffered

structure Regular (now : Int) (lines : List Line) : Prop where
  /-- No line is too long, or what stands behind it is no matter. -/
  reached : ∀ line ∈ unscanned lines, objectOf line.token = none ∧ ∀ fields, ¬InWindow now line fields
  decoded : ∀ line ∈ scanned lines, ∀ fields, objectOf line.token = some fields → Decodes line.token
  valued : ∀ line ∈ scanned lines, valueWithin 10000 line.token ≠ some .null
  counted : ∀ line ∈ scanned lines, ∀ fields, InWindow now line fields →
    Decodes (trimSpace line.token) ∧ SecondInWindow now fields ∧ PriorityTold fields

variable {data : List Char} {fields : Fields} {now : Int} {line : Line} {lines : List Line}

theorem valueWithin_mono {depth deeper : Nat} (room : depth ≤ deeper) {value : Value}
    (found : valueWithin depth data = some value) : valueWithin deeper data = some value := by
  obtain ⟨read,reads,whole⟩ := Option.bind_eq_some_iff.mp found
  exact Option.bind_eq_some_iff.mpr ⟨read,readValue_mono room reads,whole⟩

theorem objectOf_eq (found : objectOf data = some fields) :
    valueWithin (max 10000 data.length) data = some (.object fields) := by
  unfold objectOf at found
  split at found
  · rename_i object
    rw [object,Option.some.inj found]
  · contradiction

theorem unmarshal_decodes (object : objectOf data = some fields) (decodes : Decodes data) :
    unmarshal data = some (some fields) := by
  obtain ⟨value,found⟩ := Option.isSome_iff_exists.mp decodes.1
  have same := valueWithin_mono (le_max_left 10000 data.length) found
  rw [objectOf_eq object] at same
  unfold unmarshal
  rw [found,← Option.some.inj same]
  exact if_pos decodes.2

theorem unmarshal_fails (object : objectOf data = some fields) (fails : ¬Decodes data) : unmarshal data = none := by
  unfold unmarshal
  cases found : valueWithin 10000 data with
  | none => rfl
  | some value =>
    have same := valueWithin_mono (le_max_left 10000 data.length) found
    rw [objectOf_eq object] at same
    rw [← Option.some.inj same]
    exact if_neg fun fit => fails ⟨by rw [found]; rfl,fit⟩

theorem unmarshal_null (null : valueWithin 10000 data = some .null) : unmarshal data = some none := by
  unfold unmarshal
  rw [null]

/-- Where there is no object and no null, nothing is unmarshalled. -/
theorem unmarshal_other (other : objectOf data = none) (valued : valueWithin 10000 data ≠ some .null) :
    unmarshal data = none := by
  unfold unmarshal
  split
  · rename_i found
    have same := valueWithin_mono (le_max_left 10000 data.length) found
    unfold objectOf at other
    rw [same] at other
    contradiction
  · rename_i null
    exact absurd null valued
  · rfl

theorem isDigit_space {c : Char} (space : Go.isSpace c = true) : c.isDigit = false := by
  rw [Bool.eq_false_iff]
  intro digit
  have range := Char.isDigit_iff_toNat.mp digit
  unfold Go.isSpace at space
  simp only [Bool.or_eq_true,Bool.and_eq_true,decide_eq_true_eq,beq_iff_eq] at space
  simp only [Char.reduceToNat] at range
  omega

theorem readNumber_space {c : Char} (space : Go.isSpace c = true) (rest : List Char) :
    readNumber (c :: rest) = none := by
  have plain : readMinus (c :: rest) = (false,c :: rest) := by
    unfold readMinus
    split
    · rename_i same
      obtain ⟨rfl,_⟩ := List.cons.inj same
      exact absurd space (by decide)
    · rfl
  have whole : readWhole (c :: rest) = none := by
    unfold readWhole
    split
    · rename_i same
      obtain ⟨rfl,_⟩ := List.cons.inj same
      exact absurd space (by decide)
    · rw [List.takeWhile_cons_of_neg (by simp [isDigit_space space])]
  unfold readNumber
  rw [plain]
  dsimp only
  rw [whole]
  rfl

theorem readScalar_space {c : Char} (space : Go.isSpace c = true) (rest : List Char) :
    readScalar (c :: rest) = none := by
  unfold readScalar
  split
  all_goals first
    | (rename_i same
       obtain ⟨rfl,_⟩ := List.cons.inj same
       exact absurd space (by decide))
    | (rw [readNumber_space space]
       rfl)

/-- A blank text holds no value. -/
theorem readValue_blank (depth : Nat) {cs : List Char} (blank : ∀ c ∈ cs, Go.isSpace c = true) :
    readValue depth cs = none := by
  have sub : ∀ c ∈ skipSpaces cs, Go.isSpace c = true := fun c member => blank c (List.dropWhile_sublist _ |>.mem member)
  cases begins : skipSpaces cs with
  | nil => cases depth <;> simp only [readValue,begins] <;> rfl
  | cons c rest =>
    have space := sub c (by simp [begins])
    cases depth with
    | zero => simp only [readValue,begins,readScalar_space space]
    | succ depth =>
      unfold readValue
      rw [begins]
      split
      · rename_i same
        obtain ⟨rfl,_⟩ := List.cons.inj same
        exact absurd space (by decide)
      · rename_i same
        obtain ⟨rfl,_⟩ := List.cons.inj same
        exact absurd space (by decide)
      · exact readScalar_space space rest

theorem unmarshal_blank (blank : trimSpace data = []) : unmarshal data = none := by
  unfold unmarshal valueWithin
  rw [readValue_blank 10000 (trimSpace_eq_nil.mp blank)]
  rfl

theorem foldl_readEntry (tokens : List (List Char)) (entries : List LogEntry) :
    tokens.foldl (readEntry format clock) entries = entries ++ (tokens.filterMap unmarshal).mapIdx fun i jm =>
      parseJournaldJSON format (clock (2 * (entries.length + i))) (clock (2 * (entries.length + i) + 1)) jm := by
  induction tokens generalizing entries with
  | nil => simp
  | cons token rest ih =>
    rw [List.foldl_cons,ih]
    unfold readEntry
    by_cases blank : trimSpace token = []
    · rw [if_pos blank,List.filterMap_cons_none (unmarshal_blank blank)]
    · rw [if_neg blank]
      cases decoded : unmarshal token with
      | none => rw [List.filterMap_cons_none decoded]
      | some jm =>
        rw [List.filterMap_cons_some decoded,List.mapIdx_cons]
        simp [Nat.add_assoc,Nat.add_comm 1]

theorem scanLines_output (lines : List Line) : scanLines (output lines) = (scanned lines).map Line.token := by
  unfold scanLines output scanned
  rw [linesOf_unlines (by simp [Line.single]),List.takeWhile_map,List.map_map]
  rfl

def maps (lines : List Line) : List (Option Fields) := (scanned lines).filterMap fun line => unmarshal line.token

theorem entries_eq (lines : List Line) : (readPayload format clock (output lines)).entries =
    (maps lines).mapIdx fun i jm => parseJournaldJSON format (clock (2 * i)) (clock (2 * i + 1)) jm := by
  change (scanLines (output lines)).foldl (readEntry format clock) [] = _
  rw [foldl_readEntry,scanLines_output,List.filterMap_map]
  simp only [List.length_nil,Nat.zero_add,List.nil_append]
  rfl

/-- The entries keep the maps they are made of. -/
theorem map_raw (jms : List (Option Fields)) : (jms.mapIdx fun i jm =>
    parseJournaldJSON format (clock (2 * i)) (clock (2 * i + 1)) jm).map LogEntry.raw = jms := by
  refine List.ext_getElem? fun i => ?_
  rw [List.getElem?_map,List.getElem?_mapIdx,Option.map_map]
  exact congrFun Option.map_id _

theorem faithful_iff (journalctl : List String → Run) (prints : ∀ args, journalctl args = ⟨.ok (output lines),false⟩)
    (service : String) (n : Int) (since upto : String) :
    EntriesFaithful format clock lines (handleReadLogsService format clock journalctl service n since upto) ↔
      maps lines = (lines.filterMap fun line => objectOf line.token).map some := by
  have handled : handleReadLogsService format clock journalctl service n since upto =
      .payload (readPayload format clock (output lines)) := by
    unfold handleReadLogsService
    simp only [prints]
    rfl
  rw [handled]
  have mapped (objects : List Fields) : (objects.mapIdx fun i fields =>
      parseJournaldJSON format (clock (2 * i)) (clock (2 * i + 1)) (some fields)) =
      (objects.map some).mapIdx fun i jm => parseJournaldJSON format (clock (2 * i)) (clock (2 * i + 1)) jm := by
    refine List.ext_getElem? fun i => ?_
    rw [List.getElem?_mapIdx,List.getElem?_mapIdx,List.getElem?_map,Option.map_map]
    rfl
  constructor
  · rintro ⟨payload,same,entries⟩
    obtain rfl := IntentResult.payload.inj same
    rw [entries_eq,mapped] at entries
    have raws := congrArg (List.map LogEntry.raw) entries
    rwa [map_raw,map_raw] at raws
  · intro same
    refine ⟨_,rfl,?_⟩
    rw [entries_eq,mapped,same]

section
variable {α β : Type} {u o : α → Option β}

/-- One that never reads more reads as much only where it reads the same. -/
theorem filterMap_least {xs : List α} (least : ∀ x ∈ xs, u x = o x ∨ u x = none) :
    (xs.filterMap u).length ≤ (xs.filterMap o).length ∧
      ((xs.filterMap u).length = (xs.filterMap o).length → ∀ x ∈ xs, u x = o x) := by
  induction xs with
  | nil => simp
  | cons x xs ih =>
    obtain ⟨shorter,same⟩ := ih fun y member => least y (List.mem_cons_of_mem _ member)
    have here := least x List.mem_cons_self
    cases reads : o x with
    | none =>
      have nothing : u x = none := by
        rcases here with here | here
        · rw [here,reads]
        · exact here
      rw [List.filterMap_cons_none nothing,List.filterMap_cons_none reads]
      refine ⟨shorter,fun equal y member => ?_⟩
      rcases List.mem_cons.mp member with rfl | member
      · rw [nothing,reads]
      · exact same equal y member
    | some b =>
      rw [List.filterMap_cons_some reads]
      cases got : u x with
      | none =>
        rw [List.filterMap_cons_none got,List.length_cons]
        exact ⟨Nat.le_succ_of_le shorter,fun equal => absurd equal (by omega)⟩
      | some b' =>
        rw [List.filterMap_cons_some got,List.length_cons,List.length_cons]
        refine ⟨Nat.succ_le_succ shorter,fun equal y member => ?_⟩
        rcases List.mem_cons.mp member with rfl | member
        · exact here.resolve_right (by simp [got])
        · exact same (Nat.succ.inj equal) y member

end

theorem lines_eq (lines : List Line) : scanned lines ++ unscanned lines = lines := List.takeWhile_append_dropWhile

/-- The maps are those of the objects exactly if each object is scanned and decodes, and no line is null. -/
theorem maps_iff (lines : List Line) : maps lines = (lines.filterMap fun line => objectOf line.token).map some ↔
    (∀ line ∈ unscanned lines, objectOf line.token = none) ∧
      (∀ line ∈ scanned lines, ∀ fields, objectOf line.token = some fields → Decodes line.token) ∧
      ∀ line ∈ scanned lines, valueWithin 10000 line.token ≠ some .null := by
  have objects : (lines.filterMap fun line => objectOf line.token).map some =
      (scanned lines).filterMap (fun line => (objectOf line.token).map some) ++
        (unscanned lines).filterMap (fun line => (objectOf line.token).map some) := by
    rw [← List.filterMap_append,lines_eq,List.map_filterMap]
  constructor
  · intro same
    have valued (line : Line) (member : line ∈ scanned lines) : valueWithin 10000 line.token ≠ some .null := by
      intro null
      have absent : none ∈ maps lines := List.mem_filterMap.mpr ⟨line,member,unmarshal_null null⟩
      rw [same] at absent
      simp at absent
    have least (line : Line) (member : line ∈ scanned lines) :
        unmarshal line.token = (objectOf line.token).map some ∨ unmarshal line.token = none := by
      cases object : objectOf line.token with
      | none => exact .inr (unmarshal_other object (valued line member))
      | some fields =>
        by_cases decodes : Decodes line.token
        · exact .inl (unmarshal_decodes object decodes)
        · exact .inr (unmarshal_fails object decodes)
    obtain ⟨shorter,every⟩ := filterMap_least least
    have lengths := congrArg List.length (same.trans objects)
    rw [List.length_append] at lengths
    change ((scanned lines).filterMap fun line => unmarshal line.token).length = _ at lengths
    have none_unscanned : (unscanned lines).filterMap (fun line => (objectOf line.token).map some) = [] :=
      List.length_eq_zero_iff.mp (by omega)
    refine ⟨fun line member => ?_,fun line member fields object => ?_,valued⟩
    · exact Option.map_eq_none_iff.mp (List.filterMap_eq_nil_iff.mp none_unscanned line member)
    · by_contra fails
      have equal := every (by omega) line member
      rw [unmarshal_fails object fails,object] at equal
      contradiction
  · rintro ⟨unread,decoded,valued⟩
    have rest : (unscanned lines).filterMap (fun line => (objectOf line.token).map some) = [] :=
      List.filterMap_eq_nil_iff.mpr fun line member => by rw [unread line member]; rfl
    rw [objects,rest,List.append_nil]
    refine List.filterMap_congr fun line member => ?_
    cases object : objectOf line.token with
    | none => exact unmarshal_other object (valued line member)
    | some fields => exact unmarshal_decodes object (decoded line member fields object)

end Vigile.JournalLogs
