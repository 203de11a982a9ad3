import Mathlib.Data.List.Basic

/-! `base64.urlsafe_b64encode` and `urlsafe_b64decode` of Python's standard library; the
decoder skips what is no digit and stops where the padding completes a group. -/
namespace Vigile.Binascii

/-- The digit of a sextet. -/
def encodeChar (n : Nat) : Char :=
  if n < 26 then Char.ofNat (n + 65)
  else if n < 52 then Char.ofNat (n + 71)
  else if n < 62 then Char.ofNat (n - 4)
  else if n = 62 then '-'
  else '_'

/-- `-` and `_` are translated to `+` and `/`, which count too. -/
def decodeChar (c : Char) : Option Nat :=
  let n := c.toNat
  if 65 ≤ n ∧ n ≤ 90 then some (n - 65)
  else if 97 ≤ n ∧ n ≤ 122 then some (n - 71)
  else if 48 ≤ n ∧ n ≤ 57 then some (n + 4)
  else if c = '+' ∨ c = '-' then some 62
  else if c = '/' ∨ c = '_' then some 63
  else none

def urlsafeB64encode : List UInt8 → List Char
  | [] => []
  | [a] => [encodeChar (a.toNat / 4),encodeChar (a.toNat % 4 * 16),'=','=']
  | [a,b] => [encodeChar (a.toNat / 4),encodeChar (a.toNat % 4 * 16 + b.toNat / 16),
      encodeChar (b.toNat % 16 * 4),'=']
  | a :: b :: c :: rest => encodeChar (a.toNat / 4) ::
      encodeChar (a.toNat % 4 * 16 + b.toNat / 16) ::
      encodeChar (b.toNat % 16 * 4 + c.toNat / 64) :: encodeChar (c.toNat % 64) ::
      urlsafeB64encode rest

/-- `a2b_base64` at digit `pos` of a group, with the bits left of the last digit and the
padding read so far. -/
def a2bBase64 (pos left pads : Nat) : List Char → Option (List UInt8)
  | [] => if pos = 0 then some [] else none
  | c :: rest =>
    if c = '=' then
      if 2 ≤ pos ∧ 4 ≤ pos + (pads + 1) then some []
      else a2bBase64 pos left (if 2 ≤ pos then pads + 1 else pads) rest
    else
      match decodeChar c with
      | none => a2bBase64 pos left pads rest
      | some n =>
        match pos with
        | 0 => a2bBase64 1 n 0 rest
        | 1 => (a2bBase64 2 (n % 16) 0 rest).map (UInt8.ofNat (left * 4 + n / 16) :: ·)
        | 2 => (a2bBase64 3 (n % 4) 0 rest).map (UInt8.ofNat (left * 16 + n / 4) :: ·)
        | _ => (a2bBase64 0 0 0 rest).map (UInt8.ofNat (left * 64 + n) :: ·)

/-- A text with a character beyond ASCII raises, like one that ends within a group. -/
def urlsafeB64decode (text : List Char) : Option (List UInt8) :=
  if text.all (fun c => c.toNat < 128) then a2bBase64 0 0 0 text else none

theorem decode_encodeChar (n : Nat) (sextet : n < 64) : decodeChar (encodeChar n) = some n := by
  revert n
  decide

theorem encodeChar_plain (n : Nat) (sextet : n < 64) :
    encodeChar n ≠ '=' ∧ encodeChar n ≠ ':' ∧ (encodeChar n).toNat < 128 := by
  revert n
  decide

section
variable (left pads n : Nat) (sextet : n < 64) (rest : List Char)
include left pads n sextet rest

theorem a2bBase64_first :
    a2bBase64 0 left pads (encodeChar n :: rest) = a2bBase64 1 n 0 rest := by
  rw [a2bBase64,if_neg (encodeChar_plain n sextet).1,decode_encodeChar n sextet]
  rfl

theorem a2bBase64_second :
    a2bBase64 1 left pads (encodeChar n :: rest) =
      (a2bBase64 2 (n % 16) 0 rest).map (UInt8.ofNat (left * 4 + n / 16) :: ·) := by
  rw [a2bBase64,if_neg (encodeChar_plain n sextet).1,decode_encodeChar n sextet]
  rfl

theorem a2bBase64_third :
    a2bBase64 2 left pads (encodeChar n :: rest) =
      (a2bBase64 3 (n % 4) 0 rest).map (UInt8.ofNat (left * 16 + n / 4) :: ·) := by
  rw [a2bBase64,if_neg (encodeChar_plain n sextet).1,decode_encodeChar n sextet]
  rfl

theorem a2bBase64_fourth :
    a2bBase64 3 left pads (encodeChar n :: rest) =
      (a2bBase64 0 0 0 rest).map (UInt8.ofNat (left * 64 + n) :: ·) := by
  rw [a2bBase64,if_neg (encodeChar_plain n sextet).1,decode_encodeChar n sextet]
  rfl

end

theorem ofNat_of_toNat {n : Nat} {a : UInt8} (same : n = a.toNat) : UInt8.ofNat n = a := by
  rw [same,UInt8.ofNat_toNat]

theorem a2bBase64_encode (bytes : List UInt8) :
    a2bBase64 0 0 0 (urlsafeB64encode bytes) = some bytes := by
  induction bytes using urlsafeB64encode.induct with
  | case1 => rfl
  | case2 a =>
    have bound := a.toNat_lt
    have first : UInt8.ofNat (a.toNat / 4 * 4 + a.toNat % 4 * 16 / 16) = a := ofNat_of_toNat (by omega)
    rw [urlsafeB64encode,a2bBase64_first _ _ _ (by omega),a2bBase64_second _ _ _ (by omega),first]
    rfl
  | case3 a b =>
    have boundA := a.toNat_lt
    have boundB := b.toNat_lt
    have first : UInt8.ofNat (a.toNat / 4 * 4 + (a.toNat % 4 * 16 + b.toNat / 16) / 16) = a :=
      ofNat_of_toNat (by omega)
    have second : UInt8.ofNat ((a.toNat % 4 * 16 + b.toNat / 16) % 16 * 16 + b.toNat % 16 * 4 / 4) = b :=
      ofNat_of_toNat (by omega)
    rw [urlsafeB64encode,a2bBase64_first _ _ _ (by omega),a2bBase64_second _ _ _ (by omega),
      a2bBase64_third _ _ _ (by omega),first,second]
    rfl
  | case4 a b c rest ih =>
    have boundA := a.toNat_lt
    have boundB := b.toNat_lt
    have boundC := c.toNat_lt
    have first : UInt8.ofNat (a.toNat / 4 * 4 + (a.toNat % 4 * 16 + b.toNat / 16) / 16) = a :=
      ofNat_of_toNat (by omega)
    have second : UInt8.ofNat ((a.toNat % 4 * 16 + b.toNat / 16) % 16 * 16 +
        (b.toNat % 16 * 4 + c.toNat / 64) / 4) = b := ofNat_of_toNat (by omega)
    have third : UInt8.ofNat ((b.toNat % 16 * 4 + c.toNat / 64) % 4 * 64 + c.toNat % 64) = c :=
      ofNat_of_toNat (by omega)
    rw [urlsafeB64encode,a2bBase64_first _ _ _ (by omega),a2bBase64_second _ _ _ (by omega),
      a2bBase64_third _ _ _ (by omega),a2bBase64_fourth _ _ _ (by omega),ih,first,second,third]
    rfl

/-- The encoded text is made of digits and padding, a multiple of four characters. -/
theorem encode_plain (bytes : List UInt8) :
    (∀ c ∈ urlsafeB64encode bytes, c ≠ ':' ∧ c.toNat < 128) ∧
      (urlsafeB64encode bytes).length % 4 = 0 := by
  induction bytes using urlsafeB64encode.induct with
  | case1 => simp [urlsafeB64encode]
  | case2 a =>
    have bound := a.toNat_lt
    have first := (encodeChar_plain (a.toNat / 4) (by omega)).2
    have second := (encodeChar_plain (a.toNat % 4 * 16) (by omega)).2
    simp [urlsafeB64encode,first,second]
  | case3 a b =>
    have boundA := a.toNat_lt
    have boundB := b.toNat_lt
    have first := (encodeChar_plain (a.toNat / 4) (by omega)).2
    have second := (encodeChar_plain (a.toNat % 4 * 16 + b.toNat / 16) (by omega)).2
    have third := (encodeChar_plain (b.toNat % 16 * 4) (by omega)).2
    simp [urlsafeB64encode,first,second,third]
  | case4 a b c rest ih =>
    have boundA := a.toNat_lt
    have boundB := b.toNat_lt
    have boundC := c.toNat_lt
    have first := (encodeChar_plain (a.toNat / 4) (by omega)).2
    have second := (encodeChar_plain (a.toNat % 4 * 16 + b.toNat / 16) (by omega)).2
    have third := (encodeChar_plain (b.toNat % 16 * 4 + c.toNat / 64) (by omega)).2
    have fourth := (encodeChar_plain (c.toNat % 64) (by omega)).2
    constructor
    · intro d member
      simp only [urlsafeB64encode,List.mem_cons] at member
      obtain rfl | rfl | rfl | rfl | later := member
      · exact first
      · exact second
      · exact third
      · exact fourth
      · exact ih.1 d later
    · have length := ih.2
      simp only [urlsafeB64encode,List.length_cons]
      omega

theorem decode_encode (bytes : List UInt8) :
    urlsafeB64decode (urlsafeB64encode bytes) = some bytes := by
  have ascii : (urlsafeB64encode bytes).all (fun c => c.toNat < 128) = true :=
    List.all_eq_true.mpr fun c member => decide_eq_true ((encode_plain bytes).1 c member).2
  rw [urlsafeB64decode,if_pos ascii,a2bBase64_encode]

end Vigile.Binascii
