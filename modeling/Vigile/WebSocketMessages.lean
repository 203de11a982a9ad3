import Vigile.WebSocketFrame

/-! Messages of the worker's WebSocket connection: texts are handed on, control frames are answered on the way. -/
namespace Vigile.WebSocketFrame

def opText : UInt8 := 0x1
def opClose : UInt8 := 0x8
def opPing : UInt8 := 0x9
def opPong : UInt8 := 0xA

/-- The bytes still to be read, those that got out, and the number of writes. -/
structure WSConn where
  unread : List UInt8
  written : List UInt8
  writes : Nat
  closed : Bool

/-- What the outside supplies for each write: the masking key, and after how many bytes it fails, if it does. -/
structure Wire where
  maskKey : Nat → Fin 4 → UInt8
  fails : Nat → Option Nat

inductive TextError where
  | frame (error : ReadError)
  | peerClosed

variable (wire : Wire)

def Wire.transmit (n : Nat) (opcode : UInt8) (payload : List UInt8) : List UInt8 :=
  match wire.fails n with
  | none => writeFrame (wire.maskKey n) opcode payload
  | some sent => (writeFrame (wire.maskKey n) opcode payload).take sent

def WSConn.writeFrame (ws : WSConn) (opcode : UInt8) (payload : List UInt8) : WSConn :=
  {ws with written := ws.written ++ wire.transmit ws.writes opcode payload, writes := ws.writes+1}

/-- The status 1000 is sent once; nothing of it gets out while another write holds the lock. -/
def WSConn.close (ws : WSConn) : WSConn :=
  if ws.closed then ws else {ws.writeFrame wire opClose [0x03,0xE8] with closed := true}

/-- Errors of a pong and of the closing are logged only. Each turn takes bytes off the stream, so that its length is
enough for the number of turns. -/
def readTextWithin : Nat → WSConn → Except TextError (List UInt8) × WSConn
  | 0,ws => (.error (.frame .header),ws)
  | turns+1,ws =>
    match readFrame ws.unread with
    | ⟨.error error,unread,_⟩ => (.error (.frame error),{ws with unread := unread})
    | ⟨.ok (opcode,payload),unread,_⟩ =>
      if opcode = opText then (.ok payload,{ws with unread := unread})
      else if opcode = opPing then readTextWithin turns ({ws with unread := unread}.writeFrame wire opPong payload)
      else if opcode = opClose then (.error .peerClosed,{ws with unread := unread}.close wire)
      else readTextWithin turns {ws with unread := unread}

def WSConn.readText (ws : WSConn) : Except TextError (List UInt8) × WSConn :=
  readTextWithin wire ws.unread.length ws

/-- The reading goroutine of a session: it hands texts on until there is an error. -/
def readTexts : Nat → WSConn → List (List UInt8) × TextError × WSConn
  | 0,ws => ([],.frame .header,ws)
  | turns+1,ws =>
    match ws.readText wire with
    | (.ok text,ws) => ((readTexts turns ws).1.cons text,(readTexts turns ws).2)
    | (.error error,ws) => ([],error,ws)

/-- A frame is masked if there is a key. -/
structure Frame where
  opcode : UInt8
  payload : List UInt8
  maskKey : Option (Fin 4 → UInt8)
  control : opcode < 16
  small : payload.length ≤ maxFrameSize

def Frame.bytes (frame : Frame) : List UInt8 :=
  match frame.maskKey with
  | some maskKey => writeFrame maskKey frame.opcode frame.payload
  | none => (0x80 ||| frame.opcode) :: (lengthField frame.payload.length).modifyHead (· &&& 0x7F) ++ frame.payload

def stream (frames : List Frame) : List UInt8 := frames.flatMap Frame.bytes

/-- The texts before the first close frame. -/
def texts (frames : List Frame) : List (List UInt8) :=
  ((frames.takeWhile (·.opcode ≠ opClose)).filter (·.opcode = opText)).map Frame.payload

def closes (frames : List Frame) : Bool := frames.any (·.opcode = opClose)

/-- A pong for each ping before the first close frame, with its payload, and one close frame for that. -/
def replies : Nat → List Frame → List UInt8
  | _,[] => []
  | n,frame :: rest =>
    if frame.opcode = opPing then wire.transmit n opPong frame.payload ++ replies (n+1) rest
    else if frame.opcode = opClose then wire.transmit n opClose [0x03,0xE8]
    else replies n rest

variable {wire : Wire} {ws : WSConn} {frame : Frame} {frames : List Frame} {bytes : List UInt8} {turns : Nat}

theorem unmasked_written (second : UInt8) : (second &&& 0x7F) &&& 0x80 = 0 ∧ (second &&& 0x7F) &&& 0x7F = second &&& 0x7F := by
  rw [UInt8.and_assoc,UInt8.and_assoc]
  exact ⟨UInt8.and_zero,rfl⟩

/-- A frame is read as it was sent, masked or not, and what follows it is left. -/
theorem readFrame_bytes (frame : Frame) (bytes : List UInt8) :
    readFrame (frame.bytes ++ bytes) = ⟨.ok (frame.opcode,frame.payload),bytes,frame.payload.length⟩ := by
  unfold Frame.bytes
  split
  · exact readFrame_written _ _ frame.control frame.small
  · have small := frame.small
    have bound : frame.payload.length ≤ 1048576 := small
    obtain ⟨plain,same⟩ := first_written frame.control
    obtain ⟨second,extended,written,_,told⟩ := lengthField_reads frame.payload.length (by omega)
    obtain ⟨unmasked,short⟩ := unmasked_written second
    rw [written,List.modifyHead_cons]
    simp only [List.cons_append,List.append_assoc]
    rw [readFrame_cons plain,short,told,same]
    unfold readPayload
    simp only [unmasked,ne_eq,not_true_eq_false,decide_false,Bool.false_eq_true,if_false]
    rw [if_neg (not_lt.mpr small),readFull_append rfl]

theorem readFull_suffix (n : Nat) (bytes : List UInt8) : (readFull n bytes).2 <:+ bytes :=
  readFull_unread n bytes ▸ List.drop_suffix n bytes

theorem readLength_suffix (short : Nat) (bytes : List UInt8) : (readLength short bytes).2 <:+ bytes := by
  unfold readLength
  split
  · have taken := readFull_suffix 2 bytes
    split <;> rename_i read <;> rw [read] at taken <;> exact taken
  split
  · have taken := readFull_suffix 8 bytes
    split
    · rename_i read
      rw [read] at taken
      split <;> exact taken
    · rename_i read
      rw [read] at taken
      exact taken
  · exact List.suffix_refl _

theorem readPayload_suffix (opcode : UInt8) (masked : Bool) (length : Nat) (bytes : List UInt8) :
    (readPayload opcode masked length bytes).unread <:+ bytes := by
  have keyed : (if masked then readFull 4 bytes else (some [],bytes)).2 <:+ bytes := by
    split
    · exact readFull_suffix 4 bytes
    · exact List.suffix_refl _
  unfold readPayload
  split
  · rename_i read
    rw [read] at keyed
    exact keyed
  · rename_i behind read
    rw [read] at keyed
    split
    · exact keyed
    · have taken := (readFull_suffix length behind).trans keyed
      split <;> rename_i full <;> rw [full] at taken <;> exact taken

/-- A frame that is read takes its header off the stream. -/
theorem readFrame_shortens {opcode : UInt8} {payload unread : List UInt8} {allocated : Nat}
    (read : readFrame bytes = ⟨.ok (opcode,payload),unread,allocated⟩) : unread.length < bytes.length := by
  unfold readFrame at read
  split at read
  · rename_i first second behind header
    have length : 2 ≤ bytes.length ∧ behind = bytes.drop 2 := by
      unfold readFull at header
      split at header
      · exact ⟨‹_›,(Prod.mk.inj header).2.symm⟩
      · cases (Prod.mk.inj header).1
    obtain ⟨enough,rfl⟩ := length
    split at read
    · cases congrArg Reading.result read
    · have suffix := readLength_suffix (second &&& 0x7F).toNat (bytes.drop 2)
      split at read
      · cases congrArg Reading.result read
      · rename_i length rest told
        rw [told] at suffix
        have shorter : unread.length ≤ _ := ((congrArg Reading.unread read ▸ readPayload_suffix _ _ _ _).trans suffix).length_le
        rw [List.length_drop] at shorter
        omega
  · cases congrArg Reading.result read

theorem readTextWithin_empty (empty : ws.unread = []) : readTextWithin wire turns ws = (.error (.frame .header),ws) := by
  have header : readFrame ws.unread = ⟨.error .header,[],0⟩ := by rw [empty]; rfl
  cases turns with
  | zero => rfl
  | succ turns => simp only [readTextWithin,header,← empty]

/-- More turns than the stream has bytes make no difference. -/
theorem readTextWithin_eq (enough : ws.unread.length ≤ turns) : readTextWithin wire turns ws = ws.readText wire := by
  suffices ∀ turns turns' (ws : WSConn), ws.unread.length ≤ turns → ws.unread.length ≤ turns' →
      readTextWithin wire turns ws = readTextWithin wire turns' ws from this _ _ ws enough le_rfl
  intro turns
  induction turns with
  | zero =>
    intro turns' ws none_ _
    have empty := List.length_eq_zero_iff.mp (Nat.le_zero.mp none_)
    rw [readTextWithin_empty empty,readTextWithin_empty empty]
  | succ turns ih =>
    intro turns' ws enough enough'
    cases turns' with
    | zero =>
      have empty := List.length_eq_zero_iff.mp (Nat.le_zero.mp enough')
      rw [readTextWithin_empty empty,readTextWithin_empty empty]
    | succ turns' =>
      unfold readTextWithin
      split
      · rfl
      · rename_i read
        have shorter := readFrame_shortens read
        split
        · rfl
        split
        · exact ih _ _ (by simp only [WSConn.writeFrame]; omega) (by simp only [WSConn.writeFrame]; omega)
        split
        · rfl
        · exact ih _ _ (by simp only; omega) (by simp only; omega)

/-- The first turn of a reading. -/
theorem readText_cons (unread : ws.unread = frame.bytes ++ bytes) : ws.readText wire =
    if frame.opcode = opText then (.ok frame.payload,{ws with unread := bytes})
    else if frame.opcode = opPing then ({ws with unread := bytes}.writeFrame wire opPong frame.payload).readText wire
    else if frame.opcode = opClose then (.error .peerClosed,{ws with unread := bytes}.close wire)
    else {ws with unread := bytes}.readText wire := by
  have read := readFrame_bytes frame bytes
  have shorter := readFrame_shortens read
  have enough : ws.unread.length ≤ bytes.length+1+ws.unread.length := by omega
  rw [← readTextWithin_eq enough,Nat.add_right_comm]
  unfold readTextWithin
  rw [unread,read]
  dsimp only
  rw [readTextWithin_eq (by simp only [WSConn.writeFrame]; omega),readTextWithin_eq (by simp only; omega)]

theorem readTexts_frames (opened : ws.closed = false) (unread : ws.unread = stream frames)
    (enough : ws.unread.length ≤ turns) : let reading := readTexts wire turns ws
    reading.1 = texts frames ∧ reading.2.1 = (if closes frames then .peerClosed else .frame .header) ∧
      reading.2.2.written = ws.written ++ replies wire ws.writes frames ∧ reading.2.2.closed = closes frames := by
  induction frames generalizing ws turns with
  | nil =>
    have ended : ws.readText wire = (.error (.frame .header),ws) := readTextWithin_empty unread
    cases turns with
    | zero => simp [readTexts,texts,closes,replies,opened]
    | succ turns => simp [readTexts,ended,texts,closes,replies,opened]
  | cons frame rest ih =>
    have parts : ws.unread = frame.bytes ++ stream rest := unread.trans List.flatMap_cons
    have shorter := readFrame_shortens (readFrame_bytes frame (stream rest))
    rw [← parts] at shorter
    obtain ⟨turns,rfl⟩ : ∃ k, turns = k+1 := ⟨turns-1,by omega⟩
    have first := @readText_cons wire _ _ _ parts
    by_cases text : frame.opcode = opText
    · rw [if_pos text] at first
      have later := @ih {ws with unread := stream rest} turns opened rfl (by simp only; omega)
      unfold readTexts
      rw [first]
      simpa [texts,closes,replies,text,opText,opClose,opPing] using later
    rw [if_neg text] at first
    by_cases ping : frame.opcode = opPing
    · rw [if_pos ping] at first
      have later := @ih ({ws with unread := stream rest}.writeFrame wire opPong frame.payload) (turns+1) opened rfl
        (by simp only [WSConn.writeFrame]; omega)
      unfold readTexts at later ⊢
      rw [first]
      simpa [texts,closes,replies,ping,opText,opClose,opPing,WSConn.writeFrame] using later
    rw [if_neg ping] at first
    by_cases close : frame.opcode = opClose
    · rw [if_pos close] at first
      unfold readTexts
      rw [first]
      simp [texts,closes,replies,close,opClose,opPing,WSConn.close,opened,WSConn.writeFrame]
    · rw [if_neg close] at first
      have later := @ih {ws with unread := stream rest} (turns+1) opened rfl (by simp only; omega)
      unfold readTexts at later ⊢
      rw [first]
      simpa [texts,closes,replies,text,ping,close] using later

/-- However a stream of frames is masked and whatever writes fail, its texts come in order up to the first close frame, each
ping before that is answered once, in order, and the close frame too. -/
theorem texts_read (wire : Wire) (frames : List Frame) (written : List UInt8) (writes : Nat) :
    let reading := readTexts wire (stream frames).length ⟨stream frames,written,writes,false⟩
    reading.1 = texts frames ∧ reading.2.1 = (if closes frames then .peerClosed else .frame .header) ∧
      reading.2.2.written = written ++ replies wire writes frames ∧ reading.2.2.closed = closes frames :=
  readTexts_frames rfl rfl le_rfl

end Vigile.WebSocketFrame
