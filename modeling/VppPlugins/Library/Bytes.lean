import Mathlib.Data.Nat.Bitwise
import Mathlib.Logic.Basic

/-! Multi-byte fields of byte strings: network order, and the words a
little-endian host loads from memory. -/
namespace Bytes

def hi (x : UInt16) : UInt8 := UInt8.ofNat (x.toNat / 256)
def lo (x : UInt16) : UInt8 := UInt8.ofNat (x.toNat % 256)

/-- The value of two bytes in network order. -/
def net16 (h l : UInt8) : UInt16 := UInt16.ofNat (h.toNat * 256 + l.toNat)

def net32 (a b c d : UInt8) : UInt32 :=
  UInt32.ofNat (((a.toNat * 256 + b.toNat) * 256 + c.toNat) * 256 + d.toNat)

/-- The four bytes of a word in network order. -/
def be32 (x : UInt32) : List UInt8 :=
  [UInt8.ofNat (x.toNat / 16777216), UInt8.ofNat (x.toNat / 65536), UInt8.ofNat (x.toNat / 256),
    UInt8.ofNat x.toNat]

/-- A little-endian load. -/
def le (bs : List UInt8) : Nat := bs.foldr (fun b n => b.toNat + 256 * n) 0

theorem net16_hi_lo (x : UInt16) : net16 (hi x) (lo x) = x := by
  apply UInt16.toNat.inj
  have bound : x.toNat < 65536 := x.toNat_lt
  simp only [net16, hi, lo, UInt16.toNat_ofNat', UInt8.toNat_ofNat']
  omega

theorem net32_be32 (x : UInt32) :
    net32 (UInt8.ofNat (x.toNat / 16777216)) (UInt8.ofNat (x.toNat / 65536))
      (UInt8.ofNat (x.toNat / 256)) (UInt8.ofNat x.toNat) = x := by
  apply UInt32.toNat.inj
  have bound : x.toNat < 4294967296 := x.toNat_lt
  simp only [net32, UInt32.toNat_ofNat', UInt8.toNat_ofNat']
  omega

@[simp] theorem le_nil : le [] = 0 := rfl
@[simp] theorem le_cons (b : UInt8) (bs : List UInt8) : le (b :: bs) = b.toNat + 256 * le bs := rfl

/-- Two half words packed into one word. -/
def pack (o i : UInt16) : UInt32 := o.toUInt32 <<< 16 ||| i.toUInt32

theorem pack_toNat (o i : UInt16) : (pack o i).toNat = o.toNat * 65536 + i.toNat := by
  have ho : o.toNat < 65536 := o.toNat_lt
  have hi : i.toNat < 65536 := i.toNat_lt
  have small : o.toNat <<< 16 % 2 ^ 32 = o.toNat <<< 16 := by rw [Nat.shiftLeft_eq]; omega
  simp only [pack, UInt32.toNat_or, UInt32.toNat_shiftLeft, UInt16.toNat_toUInt32]
  change o.toNat <<< 16 % 2 ^ 32 ||| i.toNat = _
  rw [small, ← Nat.shiftLeft_add_eq_or_of_lt (by omega), Nat.shiftLeft_eq]

theorem pack_high (o i : UInt16) : ((pack o i >>> 16) &&& 0xFFFF).toUInt16 = o := by
  apply UInt16.toNat.inj
  have ho : o.toNat < 65536 := o.toNat_lt
  have hi : i.toNat < 65536 := i.toNat_lt
  simp only [UInt32.toNat_toUInt16, UInt32.toNat_and, UInt32.toNat_shiftRight, pack_toNat]
  change ((o.toNat * 65536 + i.toNat) >>> 16 &&& (2 ^ 16 - 1)) % 2 ^ 16 = o.toNat
  rw [Nat.and_two_pow_sub_one_eq_mod, Nat.shiftRight_eq_div_pow]
  omega

theorem pack_low (o i : UInt16) : (pack o i &&& 0xFFFF).toUInt16 = i := by
  apply UInt16.toNat.inj
  have hi : i.toNat < 65536 := i.toNat_lt
  simp only [UInt32.toNat_toUInt16, UInt32.toNat_and, pack_toNat]
  change (o.toNat * 65536 + i.toNat &&& (2 ^ 16 - 1)) % 2 ^ 16 = i.toNat
  rw [Nat.and_two_pow_sub_one_eq_mod]
  omega

end Bytes
