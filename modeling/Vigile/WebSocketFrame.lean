import Mathlib.Data.List.Basic
import Mathlib.Tactic.IntervalCases
import Vigile.BigEndian

/-! Frames of the worker's WebSocket connection: one is written masked, one is read off the front
of a stream. -/
namespace Vigile.WebSocketFrame

open BigEndian

def maxFrameSize : Nat := 1048576

def mask (maskKey : Fin 4 → UInt8) (payload : List UInt8) : List UInt8 :=
  payload.mapIdx fun i byte => byte ^^^ maskKey (Fin.ofNat 4 i)

/-- The second byte of the header, with the mask bit, and the extended length. -/
def lengthField (length : Nat) : List UInt8 :=
  if length ≤ 125 then [UInt8.ofNat length ||| 0x80]
  else if length ≤ 65535 then (126 ||| 0x80) :: encode 2 length
  else (127 ||| 0x80) :: encode 8 length

def writeFrame (maskKey : Fin 4 → UInt8) (opcode : UInt8) (payload : List UInt8) : List UInt8 :=
  (0x80 ||| opcode) :: lengthField payload.length ++ List.ofFn maskKey ++ mask maskKey payload

inductive ReadError where
  | header
  | reservedBits
  | extendedLength16
  | extendedLength64
  | invalidLength
  | maskKey
  | tooLarge (length : Nat)
  | payload
  deriving DecidableEq

structure Reading where
  result : Except ReadError (UInt8 × List UInt8)
  unread : List UInt8
  allocated : Nat

def readFull (n : Nat) (stream : List UInt8) : Option (List UInt8) × List UInt8 :=
  if n ≤ stream.length then (some (stream.take n),stream.drop n) else (none,[])

/-- The bytes behind the header, once the length is known. -/
def readPayload (opcode : UInt8) (masked : Bool) (length : Nat) (stream : List UInt8) : Reading :=
  match if masked then readFull 4 stream else (some [],stream) with
  | (none,stream) => ⟨.error .maskKey,stream,0⟩
  | (some maskKey,stream) =>
    if maxFrameSize < length then ⟨.error (.tooLarge length),stream,0⟩
    else
      match readFull length stream with
      | (none,stream) => ⟨.error .payload,stream,length⟩
      | (some payload,stream) =>
        ⟨.ok (opcode,if masked then mask (fun i => maskKey.getD i 0) payload else payload),stream,length⟩

/-- The length that the second byte announces, with its extension. -/
def readLength (short : Nat) (stream : List UInt8) : Except ReadError Nat × List UInt8 :=
  if short = 126 then
    match readFull 2 stream with
    | (some extended,stream) => (.ok (decode extended),stream)
    | (none,stream) => (.error .extendedLength16,stream)
  else if short = 127 then
    match readFull 8 stream with
    | (some extended,stream) =>
      if 2 ^ 63 ≤ decode extended then (.error .invalidLength,stream) else (.ok (decode extended),stream)
    | (none,stream) => (.error .extendedLength64,stream)
  else (.ok short,stream)

def readFrame (stream : List UInt8) : Reading :=
  match readFull 2 stream with
  | (some [first,second],stream) =>
    if first &&& 0x70 ≠ 0 then ⟨.error .reservedBits,stream,0⟩
    else
      match readLength (second &&& 0x7F).toNat stream with
      | (.error error,stream) => ⟨.error error,stream,0⟩
      | (.ok length,stream) => readPayload (first &&& 0x0F) (second &&& 0x80 ≠ 0) length stream
  | (_,stream) => ⟨.error .header,stream,0⟩

def Announces (second : UInt8) (extended : List UInt8) (length : Nat) : Prop :=
  if (second &&& 0x7F).toNat = 126 then extended.length = 2 ∧ length = decode extended
  else if (second &&& 0x7F).toNat = 127 then extended.length = 8 ∧ length = decode extended
  else extended = [] ∧ length = (second &&& 0x7F).toNat

variable {maskKey : Fin 4 → UInt8} {opcode first second : UInt8} {payload stream extended : List UInt8} {length : Nat}

theorem mask_mask (maskKey : Fin 4 → UInt8) (payload : List UInt8) : mask maskKey (mask maskKey payload) = payload := by
  unfold mask
  rw [List.mapIdx_mapIdx]
  refine List.ext_getElem (by simp) fun i _ _ => ?_
  simp [UInt8.xor_assoc]

@[simp] theorem length_mask (maskKey : Fin 4 → UInt8) (payload : List UInt8) :
    (mask maskKey payload).length = payload.length := List.length_mapIdx

theorem readFull_append {taken rest : List UInt8} {n : Nat} (full : taken.length = n) :
    readFull n (taken ++ rest) = (some taken,rest) := by
  unfold readFull
  rw [if_pos (by simp [← full]),List.take_left' full,List.drop_left' full]

/-- The key that was written is the key that is read. -/
theorem getD_ofFn (maskKey : Fin 4 → UInt8) : (fun i : Fin 4 => (List.ofFn maskKey).getD i 0) = maskKey := by
  funext i
  rw [List.getD_eq_getElem?_getD,List.getElem?_ofFn,dif_pos i.isLt]
  rfl

theorem readPayload_written (small : payload.length ≤ maxFrameSize) :
    readPayload opcode true payload.length (List.ofFn maskKey ++ (mask maskKey payload ++ stream)) =
      ⟨.ok (opcode,payload),stream,payload.length⟩ := by
  unfold readPayload
  rw [if_pos rfl,readFull_append (List.length_ofFn)]
  dsimp only
  rw [if_neg (by omega),readFull_append (length_mask maskKey payload)]
  dsimp only
  rw [if_pos rfl,getD_ofFn,mask_mask]

/-- The first byte of a frame has no reserved bits and tells the opcode. -/
theorem first_written (control : opcode < 16) : (0x80 ||| opcode) &&& 0x70 = 0 ∧ (0x80 ||| opcode) &&& 0x0F = opcode := by
  have small : opcode.toNat < 16 := control
  rw [← UInt8.ofNat_toNat (x := opcode)]
  interval_cases opcode.toNat <;> exact ⟨rfl,rfl⟩

theorem second_written {n : Nat} (small : n < 128) :
    ((UInt8.ofNat n ||| 0x80) &&& 0x80 ≠ 0) ∧ ((UInt8.ofNat n ||| 0x80) &&& 0x7F).toNat = n := by
  interval_cases n <;> exact ⟨by decide,rfl⟩

theorem lengthField_reads (length : Nat) (fits : length < 2 ^ 63) : ∃ second extended,
    lengthField length = second :: extended ∧ second &&& 0x80 ≠ 0 ∧
      ∀ rest, readLength (second &&& 0x7F).toNat (extended ++ rest) = (.ok length,rest) := by
  unfold lengthField
  by_cases short : length ≤ 125
  · obtain ⟨masked,told⟩ := second_written (n := length) (by omega)
    refine ⟨_,[],if_pos short,masked,fun rest => ?_⟩
    unfold readLength
    rw [told,if_neg (by omega),if_neg (by omega)]
    rfl
  · rw [if_neg short]
    by_cases middle : length ≤ 65535
    · refine ⟨_,_,if_pos middle,by decide,fun rest => ?_⟩
      unfold readLength
      rw [if_pos (by decide),readFull_append (length_encode _ _)]
      dsimp only
      rw [decode_encode (by omega)]
    · refine ⟨_,_,if_neg middle,by decide,fun rest => ?_⟩
      unfold readLength
      rw [if_neg (by decide),if_pos (by decide),readFull_append (length_encode _ _)]
      dsimp only
      rw [decode_encode (by omega),if_neg (by omega)]

/-- Reading a frame of two header bytes without reserved bits. -/
theorem readFrame_cons (plain : first &&& 0x70 = 0) : readFrame (first :: second :: stream) =
    match readLength (second &&& 0x7F).toNat stream with
    | (.error error,stream) => ⟨.error error,stream,0⟩
    | (.ok length,stream) => readPayload (first &&& 0x0F) (second &&& 0x80 ≠ 0) length stream := by
  have header : readFull 2 (first :: second :: stream) = (some [first,second],stream) := by
    simp [readFull]
  unfold readFrame
  rw [header]
  exact if_neg (by simpa using plain)

/-- A frame comes back as it was written, and what follows it is left. -/
theorem readFrame_written (maskKey : Fin 4 → UInt8) (stream : List UInt8) (control : opcode < 16)
    (small : payload.length ≤ maxFrameSize) :
    readFrame (writeFrame maskKey opcode payload ++ stream) = ⟨.ok (opcode,payload),stream,payload.length⟩ := by
  obtain ⟨plain,same⟩ := first_written control
  have bound : payload.length ≤ 1048576 := small
  obtain ⟨second,extended,written,masked,told⟩ := lengthField_reads payload.length (by omega)
  unfold writeFrame
  rw [written]
  simp only [List.cons_append,List.append_assoc]
  rw [readFrame_cons plain,told,same]
  simpa [masked] using readPayload_written small

theorem readFull_unread (n : Nat) (stream : List UInt8) : (readFull n stream).2 = stream.drop n := by
  unfold readFull
  split
  · rfl
  · exact (List.drop_eq_nil_of_le (by omega)).symm

theorem readPayload_tooLarge (opcode : UInt8) (masked : Bool) (stream : List UInt8) (large : maxFrameSize < length) :
    let reading := readPayload opcode masked length stream
    (∃ error, reading.result = .error error) ∧ reading.allocated = 0 ∧
      reading.unread = stream.drop (if masked then 4 else 0) := by
  unfold readPayload
  cases masked with
  | false =>
    simp only [Bool.false_eq_true,if_false,if_pos large]
    exact ⟨⟨_,rfl⟩,trivial,rfl⟩
  | true =>
    have unread := readFull_unread 4 stream
    simp only [if_true]
    cases read : readFull 4 stream with
    | mk key rest =>
      rw [read] at unread
      cases key with
      | none => exact ⟨⟨_,rfl⟩,rfl,unread⟩
      | some key =>
        simp only [if_pos large]
        exact ⟨⟨_,rfl⟩,trivial,unread⟩

/-- An announced length is read as such, or refused behind its extension. -/
theorem readLength_announced (stream : List UInt8) (announces : Announces second extended length) :
    readLength (second &&& 0x7F).toNat (extended ++ stream) = (.ok length,stream) ∨
      readLength (second &&& 0x7F).toNat (extended ++ stream) = (.error .invalidLength,stream) := by
  unfold Announces at announces
  unfold readLength
  by_cases middle : (second &&& 0x7F).toNat = 126
  · rw [if_pos middle] at announces ⊢
    rw [readFull_append announces.1,announces.2]
    exact .inl rfl
  · rw [if_neg middle] at announces ⊢
    by_cases long : (second &&& 0x7F).toNat = 127
    · rw [if_pos long] at announces ⊢
      rw [readFull_append announces.1,announces.2]
      dsimp only
      by_cases invalid : 2 ^ 63 ≤ decode extended
      · exact .inr (if_pos invalid)
      · exact .inl (if_neg invalid)
    · rw [if_neg long] at announces ⊢
      obtain ⟨rfl,rfl⟩ := announces
      exact .inl rfl

/-- Nothing behind the header is read of a frame that is too large, and nothing is allocated. -/
theorem readFrame_tooLarge (first : UInt8) (stream : List UInt8) (announces : Announces second extended length)
    (large : maxFrameSize < length) :
    let reading := readFrame (first :: second :: (extended ++ stream))
    (∃ error, reading.result = .error error) ∧ reading.allocated = 0 ∧
      stream.drop (if second &&& 0x80 ≠ 0 then 4 else 0) <:+ reading.unread := by
  by_cases plain : first &&& 0x70 = 0
  · dsimp only
    rw [readFrame_cons plain]
    rcases readLength_announced stream announces with told | told
    · rw [told]
      obtain ⟨refused,none,rest⟩ := readPayload_tooLarge (first &&& 0x0F) (second &&& 0x80 ≠ 0) stream large
      refine ⟨refused,none,?_⟩
      dsimp only at rest ⊢
      rw [rest]
      simp
    · rw [told]
      exact ⟨⟨_,rfl⟩,rfl,List.drop_suffix _ _⟩
  · have header : readFull 2 (first :: second :: (extended ++ stream)) = (some [first,second],extended ++ stream) := by
      simp [readFull]
    unfold readFrame
    rw [header]
    dsimp only
    rw [if_pos plain]
    exact ⟨⟨_,rfl⟩,rfl,(List.drop_suffix _ _).trans (List.suffix_append _ _)⟩

/-- Frames of any opcode, key and allowed length come back, and no larger one is taken. -/
theorem framing (maskKey : Fin 4 → UInt8) (stream : List UInt8) :
    (∀ opcode payload, opcode < 16 → payload.length ≤ maxFrameSize →
      (readFrame (writeFrame maskKey opcode payload ++ stream)).result = .ok (opcode,payload) ∧
      (readFrame (writeFrame maskKey opcode payload ++ stream)).unread = stream) ∧
    ∀ first second extended length, Announces second extended length → maxFrameSize < length →
      let reading := readFrame (first :: second :: (extended ++ stream))
      (∃ error, reading.result = .error error) ∧ reading.allocated = 0 ∧
        stream.drop (if second &&& 0x80 ≠ 0 then 4 else 0) <:+ reading.unread := by
  refine ⟨fun opcode payload control small => ?_,fun first second extended length announces large => ?_⟩
  · rw [readFrame_written maskKey stream control small]
    exact ⟨rfl,rfl⟩
  · exact readFrame_tooLarge first stream announces large

theorem framing_ping : (readFrame (writeFrame (fun _ => 7) 9 [1,2,3] ++ [255])).unread = [255] :=
  ((framing (fun _ => 7) [255]).1 9 [1,2,3] (by decide) (by decide)).2

end Vigile.WebSocketFrame
