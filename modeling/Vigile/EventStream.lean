import Vigile.JsonText
import Vigile.TextLines

/-! The events that the frontend reads from the answer of the chat: bytes that come in chunks, decoded, cut into
lines and parsed. -/
namespace Vigile.EventStream

open JsonText

/-- A `TextDecoder` between two bytes: the bits of an unfinished code point, the number of bytes that it lacks, the
range of the next one, and whether a code point was written before. -/
structure Decoder where
  codePoint : Nat
  needed : Nat
  lower : Nat
  upper : Nat
  begun : Bool

def Decoder.start : Decoder := ⟨0,0,0x80,0xBF,false⟩

def Decoder.emit (d : Decoder) (codePoint : Nat) : Decoder × List Char :=
  (⟨0,0,0x80,0xBF,true⟩,if codePoint = 0xFEFF ∧ d.begun = false then [] else [Char.ofNat codePoint])

def Decoder.lead (d : Decoder) (byte : Nat) : Decoder × List Char :=
  if byte ≤ 0x7F then d.emit byte
  else if 0xC2 ≤ byte ∧ byte ≤ 0xDF then (⟨byte - 0xC0,1,0x80,0xBF,d.begun⟩,[])
  else if 0xE0 ≤ byte ∧ byte ≤ 0xEF then
    (⟨byte - 0xE0,2,if byte = 0xE0 then 0xA0 else 0x80,if byte = 0xED then 0x9F else 0xBF,d.begun⟩,[])
  else if 0xF0 ≤ byte ∧ byte ≤ 0xF4 then
    (⟨byte - 0xF0,3,if byte = 0xF0 then 0x90 else 0x80,if byte = 0xF4 then 0x8F else 0xBF,d.begun⟩,[])
  else d.emit 0xFFFD

/-- A byte that cannot go on replaces what is unfinished and is read again as a first one. -/
def Decoder.feed (d : Decoder) (byte : Nat) : Decoder × List Char :=
  if d.needed = 0 then d.lead byte
  else if byte < d.lower ∨ d.upper < byte then
    let replaced := d.emit 0xFFFD
    let again := replaced.1.lead byte
    (again.1,replaced.2 ++ again.2)
  else if d.needed = 1 then d.emit (d.codePoint * 64 + (byte - 0x80))
  else (⟨d.codePoint * 64 + (byte - 0x80),d.needed - 1,0x80,0xBF,d.begun⟩,[])

def Decoder.decode (d : Decoder) : List UInt8 → Decoder × List Char
  | [] => (d,[])
  | byte :: bytes =>
    let fed := d.feed byte.toNat
    let later := fed.1.decode bytes
    (later.1,fed.2 ++ later.2)

/-- What `trim` removes. -/
def isTrimmed (c : Char) : Bool :=
  let unit := c.toNat
  (9 ≤ unit && unit ≤ 13) || unit == 0x20 || unit == 0xA0 || unit == 0x1680 || (0x2000 ≤ unit && unit ≤ 0x200A) ||
    unit == 0x2028 || unit == 0x2029 || unit == 0x202F || unit == 0x205F || unit == 0x3000 || unit == 0xFEFF

def trim (line : List Char) : List Char := (line.dropWhile isTrimmed).rdropWhile isTrimmed

def parse (text : List Char) : Option Value := do
  let (value,rest) ← readValue text.length text
  if skipSpaces rest = [] then some value else none

def property (key : String) : Value → Option Value
  | .object fields => fields.lookup key
  | _ => none

def truthy : Value → Bool
  | .null => false
  | .bool value => value
  | .number literal => literal.whole != 0 || literal.fraction.any fun digit => digit.val != 0
  | .string text => !text.isEmpty
  | .array _ | .object _ => true

/-- What a line of the answer does: the end, the name of the model, a token, a proposal or a tool with the fields of
the event, and what changes no message. -/
inductive Event where
  | done
  | described (model : Value)
  | token (content : String)
  | proposal (data : Value)
  | toolResult (data : Value)
  | other

/-- The event of a parsed line. What is added to a text is `appended`, which is the text of a string. -/
def event (appended : Option Value → String) (data : Value) : Event :=
  match property "type" data with
  | some (.string type_) =>
    if type_ = "done" then .done
    else if type_ = "meta" then
      match property "model" data with
      | some model => if truthy model then .described model else .other
      | none => .other
    else if type_ = "token" then .token (appended (property "content" data))
    else if type_ = "proposal" ∨ type_ = "proposal_needed" then .proposal data
    else if type_ = "tool_result" then .toolResult data
    else .other
  | _ => .other

/-- The event of a line. Another line than one of data, an empty one and one that cannot be parsed have none. -/
def lineEvent (appended : Option Value → String) (line : List Char) : Option Event :=
  match trim line with
  | 'd' :: 'a' :: 't' :: 'a' :: ':' :: rawJson => (parse (trim rawJson)).map (event appended)
  | _ => none

structure Reader where
  decoder : Decoder
  buffer : List Char

def Reader.start : Reader := ⟨.start,[]⟩

/-- A chunk: the lines that end in it, and what is left for the next one. -/
def Reader.receive (appended : Option Value → String) (r : Reader) (value : List UInt8) : Reader × List Event :=
  let decoded := r.decoder.decode value
  let lines := (r.buffer ++ decoded.2).splitOn '\n'
  (⟨decoded.1,lines.getLastD []⟩,lines.dropLast.filterMap (lineEvent appended))

/-- The events of an answer that has come so far. -/
def events (appended : Option Value → String) (received : List UInt8) : List Event :=
  (Reader.start.receive appended received).2

def Event.isDone : Event → Bool
  | .done => true
  | _ => false

def tokens : List Event → String
  | [] => ""
  | .done :: _ => ""
  | .token content :: rest => content ++ tokens rest
  | .described _ :: rest | .proposal _ :: rest | .toolResult _ :: rest | .other :: rest => tokens rest

variable {appended : Option Value → String}

theorem decode_append (d : Decoder) (first second : List UInt8) : d.decode (first ++ second) =
    (((d.decode first).1.decode second).1,(d.decode first).2 ++ ((d.decode first).1.decode second).2) := by
  induction first generalizing d with
  | nil => rfl
  | cons byte first later =>
    rw [List.cons_append]
    simp [Decoder.decode,later]

/-- A text that comes in two parts: what the first one leaves goes before the second. -/
theorem splitOn_append (first second : List Char) : (first ++ second).splitOn '\n' =
    (first.splitOn '\n').dropLast ++ ((first.splitOn '\n').getLastD [] ++ second).splitOn '\n' := by
  induction first with
  | nil => simp
  | cons c first ih =>
    have nonempty := List.splitOn_ne_nil '\n' first
    rw [List.cons_append,List.splitOn_cons_eq_if_modifyHead,List.splitOn_cons_eq_if_modifyHead,ih]
    obtain ⟨begun,rest,cut⟩ := List.exists_cons_of_ne_nil nonempty
    rw [cut]
    by_cases ends : (c == '\n') = true
    · simp [ends]
    · cases rest with
      | nil => simp [ends,List.splitOn_cons_eq_if_modifyHead]
      | cons next more => simp [ends]

theorem receive_append (r : Reader) (first second : List UInt8) :
    r.receive appended (first ++ second) =
      (((r.receive appended first).1.receive appended second).1,
        (r.receive appended first).2 ++ ((r.receive appended first).1.receive appended second).2) := by
  have more := List.splitOn_ne_nil '\n'
    (((r.buffer ++ (r.decoder.decode first).2).splitOn '\n').getLastD [] ++
      ((r.decoder.decode first).1.decode second).2)
  unfold Reader.receive
  simp only [decode_append]
  rw [← List.append_assoc,splitOn_append]
  congr 1
  · rw [List.getLastD_eq_getLast?,List.getLast?_append_of_ne_nil _ more,← List.getLastD_eq_getLast?]
  · rw [List.dropLast_append_of_ne_nil more,List.filterMap_append]

/-- The events are those of the chunks, whatever the chunks are. -/
theorem events_append (received value : List UInt8) : events appended (received ++ value) =
    events appended received ++ ((Reader.start.receive appended received).1.receive appended value).2 := by
  unfold events
  rw [receive_append]

theorem tokens_append {first : List Event} (open_ : ∀ e ∈ first, e.isDone = false) (second : List Event) :
    tokens (first ++ second) = tokens first ++ tokens second := by
  induction first with
  | nil => simp [tokens]
  | cons e first ih =>
    have later := ih fun e member => open_ e (List.mem_cons_of_mem _ member)
    have here := open_ e List.mem_cons_self
    cases e with
    | done => cases here
    | token content =>
      rw [List.cons_append]
      simp only [tokens,later,String.append_assoc]
    | _ => simpa only [List.cons_append,tokens] using later

end Vigile.EventStream
