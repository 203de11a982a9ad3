import Mathlib.Algebra.Order.Ring.Nat
import Mathlib.Tactic.Ring

/-! Numbers as bytes, the most significant first. -/
namespace BigEndian

/-- The lowest bytes of a number, so many. -/
def encode : Nat → Nat → List UInt8
  | 0,_ => []
  | width + 1,n => UInt8.ofNat (n / 256 ^ width) :: encode width n

def continued (high : Nat) (bytes : List UInt8) : Nat := bytes.foldl (fun n byte => n * 256 + byte.toNat) high

def decode (bytes : List UInt8) : Nat := continued 0 bytes

@[simp] theorem length_encode (width n : Nat) : (encode width n).length = width := by
  induction width with
  | zero => rfl
  | succ width ih => simp [encode,ih]

theorem continued_encode (width n high : Nat) : continued high (encode width n) = high * 256 ^ width + n % 256 ^ width := by
  induction width generalizing high with
  | zero => simp [encode,continued,Nat.mod_one]
  | succ width ih =>
    have byte : (UInt8.ofNat (n / 256 ^ width)).toNat = n / 256 ^ width % 256 := by simp
    calc continued high (encode (width + 1) n)
        = continued (high * 256 + n / 256 ^ width % 256) (encode width n) := by
          rw [← byte]
          rfl
      _ = (high * 256 + n / 256 ^ width % 256) * 256 ^ width + n % 256 ^ width := ih _
      _ = high * 256 ^ (width + 1) + n % 256 ^ (width + 1) := by
          rw [pow_succ,Nat.mod_mul]
          ring

/-- The bytes of a number that fits tell it. -/
theorem decode_encode {width n : Nat} (fits : n < 256 ^ width) : decode (encode width n) = n := by
  unfold decode
  rw [continued_encode,Nat.mod_eq_of_lt fits,Nat.zero_mul,Nat.zero_add]

end BigEndian
