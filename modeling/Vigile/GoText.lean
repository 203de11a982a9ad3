import Mathlib.Data.List.TakeWhile
import Mathlib.Data.Rat.Floor
import Vigile.TextLines

/-! Go's strings: spaces, integers, and the lines that a scanner hands out. -/
namespace Go

open TextLines (linesOf)

def isSpace (c : Char) : Bool :=
  let n := c.toNat
  (9 ≤ n && n ≤ 13) || n == 32 || n == 133 || n == 160 || n == 5760 || (8192 ≤ n && n ≤ 8202) ||
    n == 8232 || n == 8233 || n == 8239 || n == 8287 || n == 12288

def trimSpace (cs : List Char) : List Char := ((cs.dropWhile isSpace).reverse.dropWhile isSpace).reverse

theorem trimSpace_eq_nil {cs : List Char} : trimSpace cs = [] ↔ ∀ c ∈ cs, isSpace c = true := by
  unfold trimSpace
  rw [List.reverse_eq_nil_iff,List.dropWhile_eq_nil_iff]
  constructor
  · intro spaces
    refine List.dropWhile_eq_nil_iff.mp (List.eq_nil_iff_forall_not_mem.mpr fun c member => ?_)
    obtain ⟨first,rest,begins⟩ := List.exists_cons_of_ne_nil (List.ne_nil_of_mem member)
    have space := spaces first (by simp [begins])
    have stopped := List.head?_dropWhile_not isSpace cs
    rw [begins] at stopped
    simp [space] at stopped
  · intro spaces c member
    rw [List.dropWhile_eq_nil_iff.mpr spaces] at member
    exact absurd member (by simp)

inductive NumError where
  | malformed
  | range
  deriving DecidableEq

def parseDigits : Nat → List Char → Nat × Option NumError
  | n,[] => (n,none)
  | n,c :: rest =>
    if c.isDigit then
      if 2 ^ 64 ≤ n * 10 + (c.toNat - '0'.toNat) then (2 ^ 64 - 1,some .range)
      else parseDigits (n * 10 + (c.toNat - '0'.toNat)) rest
    else (0,some .malformed)

def parseUint (cs : List Char) : Nat × Option NumError := if cs = [] then (0,some .malformed) else parseDigits 0 cs

/-- The number is cut to what int64 holds, also where that is an error. -/
def withSign (negative : Bool) (parsed : Nat × Option NumError) : Int × Option NumError :=
  if parsed.2 = some .malformed then (0,some .malformed)
  else if negative = false ∧ 2 ^ 63 ≤ parsed.1 then (2 ^ 63 - 1,some .range)
  else if negative = true ∧ 2 ^ 63 < parsed.1 then (-2 ^ 63,some .range)
  else (if negative then -parsed.1 else parsed.1,none)

/-- strconv.ParseInt in base ten, and strconv.Atoi. -/
def parseInt : List Char → Int × Option NumError
  | '+' :: rest => withSign false (parseUint rest)
  | '-' :: rest => withSign true (parseUint rest)
  | cs => withSign false (parseUint cs)

def dropCR (line : List Char) : List Char := if line.getLast? = some '\r' then line.dropLast else line

def maxScanTokenSize : Nat := 64 * 1024

/-- A line and its newline, or the end of the text, are found in a buffer of this size. -/
def Buffered (line : List Char) : Prop := (String.ofList line).utf8ByteSize < maxScanTokenSize

instance (line : List Char) : Decidable (Buffered line) := inferInstanceAs (Decidable (_ < _))

/-- What bufio.Scanner hands out, line by line, until a line is too long. -/
def scanLines (text : List Char) : List (List Char) := ((linesOf '\n' text).takeWhile fun line => Buffered line).map dropCR

/-- The text of these lines, each with its newline. -/
def unlines (lines : List (List Char)) : List Char := lines.flatMap (· ++ ['\n'])

theorem splitOn_unlines {lines : List (List Char)} (single : ∀ line ∈ lines, '\n' ∉ line) :
    (unlines lines).splitOn '\n' = lines ++ [[]] := TextLines.split_terminated single

theorem linesOf_unlines {lines : List (List Char)} (single : ∀ line ∈ lines, '\n' ∉ line) :
    linesOf '\n' (unlines lines) = lines := by
  unfold linesOf
  rw [splitOn_unlines single]
  simp

end Go
