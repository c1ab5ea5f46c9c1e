import Mathlib.Data.List.Basic
import Mathlib.Algebra.Order.Ring.Nat

/-!
Numbers as words of bytes, lowest byte first, and the byte orders of machines.

* `ofBytes_toBytes`, `toBytes_ofBytes`: a word and its bytes;
* `toLe_read`: a word read from memory and converted to little endian is the same on every
  machine.
-/

namespace Words

def ofBytes : List UInt8 → Nat
  | [] => 0
  | b :: bs => b.toNat + 256 * ofBytes bs

def toBytes : Nat → Nat → List UInt8
  | 0, _ => []
  | n + 1, x => UInt8.ofNat x :: toBytes n (x / 256)

theorem ofBytes_lt (bs : List UInt8) : ofBytes bs < 256 ^ bs.length := by
  induction bs with
  | nil => decide
  | cons b bs ih =>
    have hb := b.toNat_lt
    rw [ofBytes, List.length_cons, Nat.pow_succ]
    omega

theorem ofBytes_toBytes {n x : Nat} (h : x < 256 ^ n) : ofBytes (toBytes n x) = x := by
  induction n generalizing x with
  | zero =>
    rw [Nat.pow_zero] at h
    simp only [toBytes, ofBytes]
    omega
  | succ n ih =>
    have hdiv : x / 256 < 256 ^ n := by
      rw [Nat.pow_succ] at h
      omega
    simp only [toBytes, ofBytes, ih hdiv, UInt8.toNat_ofNat']
    omega

theorem toBytes_ofBytes (bs : List UInt8) : toBytes bs.length (ofBytes bs) = bs := by
  induction bs with
  | nil => rfl
  | cons b bs ih =>
    have hb := b.toNat_lt
    have hlow : UInt8.ofNat (b.toNat + 256 * ofBytes bs) = b := by
      rw [← UInt8.toNat_inj, UInt8.toNat_ofNat']
      omega
    have hhigh : (b.toNat + 256 * ofBytes bs) / 256 = ofBytes bs := by omega
    rw [List.length_cons, toBytes, ofBytes, hlow, hhigh, ih]

/-! ## Byte orders -/

inductive Endian
  | little | big
  deriving DecidableEq, Repr

/-- The word of `n` bytes in the other order. -/
def swapBytes (n x : Nat) : Nat := ofBytes (toBytes n x).reverse

/-- The word that a machine finds in memory. -/
def Endian.read : Endian → List UInt8 → Nat
  | .little, bs => ofBytes bs
  | .big, bs => ofBytes bs.reverse

def Endian.toLe : Endian → Nat → Nat → Nat
  | .little, _, x => x
  | .big, n, x => swapBytes n x

theorem toLe_read (e : Endian) (bs : List UInt8) : e.toLe bs.length (e.read bs) = ofBytes bs := by
  cases e with
  | little => rfl
  | big =>
    have hback := toBytes_ofBytes bs.reverse
    rw [List.length_reverse] at hback
    rw [Endian.toLe, Endian.read, swapBytes, hback, List.reverse_reverse]

end Words
