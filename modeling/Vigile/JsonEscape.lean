import Vigile.JsonText

/-! Escape sequences. Writers differ in the characters they leave as they are; every such
writer is read back. -/
namespace JsonText

/-- Four hexadecimal digits. -/
def unicodeEscape (unit : Nat) : List Char :=
  ['\\','u',Nat.digitChar (unit / 4096 % 16),Nat.digitChar (unit / 256 % 16),Nat.digitChar (unit / 16 % 16),
    Nat.digitChar (unit % 16)]

/-- The number of a character, in two halves where four digits do not hold it. -/
def numericEscape (c : Char) : List Char :=
  if c.toNat < 0x10000 then unicodeEscape c.toNat
  else unicodeEscape (0xD800 + (c.toNat - 0x10000) / 0x400) ++
    unicodeEscape (0xDC00 + (c.toNat - 0x10000) % 0x400)

def shortEscape : Char → Option (List Char)
  | '"' => some ['\\','"']
  | '\\' => some ['\\','\\']
  | '\x08' => some ['\\','b']
  | '\x0c' => some ['\\','f']
  | '\n' => some ['\\','n']
  | '\r' => some ['\\','r']
  | '\t' => some ['\\','t']
  | _ => none

/-- A short escape sequence where there is one; the other characters as they are if the
writer takes them for plain, and by number if it does not. -/
def escapeWith (plain : Char → Bool) (c : Char) : List Char :=
  (shortEscape c).getD (if plain c then [c] else numericEscape c)

theorem hexDigit_digitChar (d : Fin 16) : hexDigit (Nat.digitChar d) = some d.val := by
  revert d
  decide

def hexDigits (unit : Nat) : List Char :=
  [Nat.digitChar (unit / 4096 % 16),Nat.digitChar (unit / 256 % 16),Nat.digitChar (unit / 16 % 16),
    Nat.digitChar (unit % 16)]

theorem readHex_hexDigits (unit : Nat) (bound : unit < 0x10000) (rest : List Char) :
    readHex (hexDigits unit ++ rest) = some (unit,rest) := by
  have digit : ∀ n, hexDigit (Nat.digitChar (n % 16)) = some (n % 16) :=
    fun n => hexDigit_digitChar ⟨n % 16,Nat.mod_lt n (by omega)⟩
  have whole : ((unit / 4096 % 16 * 16 + unit / 256 % 16) * 16 + unit / 16 % 16) * 16 + unit % 16 = unit := by
    omega
  simp [hexDigits,readHex,digit,whole]

theorem not_surrogate (c : Char) : c.toNat < 0x110000 ∧ ¬(0xD800 ≤ c.toNat ∧ c.toNat < 0xE000) := by
  have valid := c.valid
  simp only [UInt32.isValidChar,Nat.isValidChar] at valid
  change c.toNat < 0xD800 ∨ (0xDFFF < c.toNat ∧ c.toNat < 0x110000) at valid
  omega

theorem readUnicode_short {c : Char} (short : c.toNat < 0x10000) (rest : List Char) :
    readUnicode (hexDigits c.toNat ++ rest) = some (c,rest) := by
  obtain ⟨_,scalar⟩ := not_surrogate c
  have high : ¬(0xD800 ≤ c.toNat ∧ c.toNat < 0xDC00) := by omega
  have low : ¬(0xDC00 ≤ c.toNat ∧ c.toNat < 0xE000) := by omega
  simp [readUnicode,readHex_hexDigits c.toNat short,high,low]

theorem readLowSurrogate_digits {unit : Nat} (low : 0xDC00 ≤ unit ∧ unit < 0xE000) (rest : List Char) :
    readLowSurrogate (unicodeEscape unit ++ rest) = some (unit,rest) := by
  change (readHex (hexDigits unit ++ rest)).filter _ = _
  rw [readHex_hexDigits unit (by omega)]
  simp [low]

theorem readUnicode_long (high low : Nat) (first : 0xD800 ≤ high ∧ high < 0xDC00)
    (second : 0xDC00 ≤ low ∧ low < 0xE000) (rest : List Char) :
    readUnicode (hexDigits high ++ (unicodeEscape low ++ rest)) =
      some (Char.ofNat (0x10000 + (high - 0xD800) * 0x400 + (low - 0xDC00)),rest) := by
  simp [readUnicode,readHex_hexDigits high (by omega),first,readLowSurrogate_digits second]

theorem readChar_numeric (c : Char) (rest : List Char) : readChar (numericEscape c ++ rest) = some (c,rest) := by
  unfold numericEscape
  split
  · exact readUnicode_short ‹_› rest
  · obtain ⟨bound,_⟩ := not_surrogate c
    have half : (c.toNat - 0x10000) % 0x400 < 0x400 := Nat.mod_lt _ (by omega)
    obtain ⟨high,first⟩ : ∃ high, high = 0xD800 + (c.toNat - 0x10000) / 0x400 := ⟨_,rfl⟩
    obtain ⟨low,second⟩ : ∃ low, low = 0xDC00 + (c.toNat - 0x10000) % 0x400 := ⟨_,rfl⟩
    have whole : 0x10000 + (high - 0xD800) * 0x400 + (low - 0xDC00) = c.toNat := by omega
    have read := readUnicode_long high low (by omega) (by omega) rest
    rw [whole,Char.ofNat_toNat] at read
    rw [← first,← second,List.append_assoc]
    exact read

theorem readChar_plain {c : Char} (visible : 0x20 ≤ c.toNat) (other : c ≠ '\\') (rest : List Char) :
    readChar (c :: rest) = some (c,rest) := by
  unfold readChar
  split
  · rename_i same
    exact absurd (List.cons.inj same).1 other
  · rename_i same
    obtain ⟨rfl,rfl⟩ := List.cons.inj same
    exact if_neg (by omega)
  · contradiction

theorem shortEscape_cases (c : Char) : (∃ d, shortEscape c = some ['\\',d] ∧
      ∀ rest, readEscape (d :: rest) = some (c,rest)) ∨
    (shortEscape c = none ∧ c ≠ '"' ∧ c ≠ '\\') := by
  unfold shortEscape
  split
  · exact .inl ⟨'"',rfl,fun _ => rfl⟩
  · exact .inl ⟨'\\',rfl,fun _ => rfl⟩
  · exact .inl ⟨'b',rfl,fun _ => rfl⟩
  · exact .inl ⟨'f',rfl,fun _ => rfl⟩
  · exact .inl ⟨'n',rfl,fun _ => rfl⟩
  · exact .inl ⟨'r',rfl,fun _ => rfl⟩
  · exact .inl ⟨'t',rfl,fun _ => rfl⟩
  · rename_i quote backslash _ _ _ _ _
    exact .inr ⟨rfl,quote,backslash⟩

/-- Every writer of this kind is read back. -/
theorem reads_escapeWith {plain : Char → Bool} (visible : ∀ c, plain c = true → 0x20 ≤ c.toNat) :
    Reads (escapeWith plain) := by
  constructor
  · intro c rest
    unfold escapeWith
    rcases shortEscape_cases c with ⟨d,short,read⟩ | ⟨none,_,other⟩
    · rw [short]
      exact read rest
    · rw [none]
      by_cases shown : plain c = true
      · rw [Option.getD_none,if_pos shown]
        exact readChar_plain (visible c shown) other rest
      · rw [Option.getD_none,if_neg shown]
        exact readChar_numeric c rest
  · intro c
    unfold escapeWith
    rcases shortEscape_cases c with ⟨d,short,_⟩ | ⟨none,quote,_⟩
    · rw [short]
      exact ⟨'\\',[d],rfl,by decide⟩
    · rw [none]
      by_cases shown : plain c = true
      · rw [Option.getD_none,if_pos shown]
        exact ⟨c,[],rfl,quote⟩
      · rw [Option.getD_none,if_neg shown]
        unfold numericEscape
        split <;> exact ⟨'\\',_,rfl,by decide⟩

end JsonText
