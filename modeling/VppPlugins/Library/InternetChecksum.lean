import VppPlugins.Library.Bytes

/-! The Internet checksum over byte strings, and the sums a little-endian host forms
instead: the one's complement sum does not depend on the byte order. -/
namespace InternetChecksum
open Bytes

/-- The sixteen-bit words in network order, an odd last byte padded with zero. -/
def words : List UInt8 → List Nat
  | [] => []
  | [h] => [h.toNat * 256]
  | h :: l :: bytes => (h.toNat * 256 + l.toNat) :: words bytes

/-- Addition with end-around carry. -/
def onesAdd (a b : Nat) : Nat := (a + b) % 65536 + (a + b) / 65536

def onesSum (bytes : List UInt8) : Nat := (words bytes).foldl onesAdd 0

def checksum (bytes : List UInt8) : UInt16 := ~~~ UInt16.ofNat (onesSum bytes)

/-- The sum of the words as a little-endian host loads them, an odd last byte by itself. -/
def loadedSum : List UInt8 → Nat
  | [] => 0
  | [b] => b.toNat
  | a :: b :: bytes => a.toNat + 256 * b.toNat + loadedSum bytes

/-- The representative of `n` modulo 65535 that a one's complement sum yields: zero is left
to the empty sum. -/
def residue (n : Nat) : Nat := if n = 0 then 0 else (n - 1) % 65535 + 1

theorem residue_le (n : Nat) : residue n ≤ 65535 := by
  unfold residue
  split
  · omega
  · have := Nat.mod_lt (n - 1) (show 0 < 65535 by omega)
    omega

theorem residue_small {n : Nat} (small : n < 65536) : residue n = n := by
  unfold residue
  split
  · omega
  · rw [Nat.mod_eq_of_lt (by omega)]
    omega

theorem residue_mod (n : Nat) : residue n % 65535 = n % 65535 := by
  unfold residue
  split
  · omega
  · omega

theorem residue_eq_zero {n : Nat} : residue n = 0 ↔ n = 0 := by
  unfold residue
  split
  · omega
  · omega

/-- Two sums have the same representative when they agree modulo 65535 and are empty
together. -/
theorem residue_congr {m n : Nat} (zero : m = 0 ↔ n = 0) (mod : m % 65535 = n % 65535) :
    residue m = residue n := by
  unfold residue
  split
  · rw [if_pos (by omega)]
  · rw [if_neg (by omega)]
    omega

theorem residue_carry (n : Nat) : residue (n % 65536 + n / 65536) = residue n :=
  residue_congr (by omega) (by omega)

theorem residue_scale (k n : Nat) : residue (k * residue n) = residue (k * n) := by
  apply residue_congr
  · rw [Nat.mul_eq_zero, Nat.mul_eq_zero, residue_eq_zero]
  · rw [Nat.mul_mod, residue_mod, ← Nat.mul_mod]

theorem onesAdd_residue {n b : Nat} (small : b < 65536) :
    onesAdd (residue n) b = residue (n + b) := by
  have bound := residue_le n
  have carried : onesAdd (residue n) b = residue (residue n + b) := by
    have reduced : (residue n + b) % 65536 + (residue n + b) / 65536 < 65536 := by omega
    rw [onesAdd, ← residue_small reduced, residue_carry]
  rw [carried]
  apply residue_congr
  · rw [Nat.add_eq_zero_iff, Nat.add_eq_zero_iff, residue_eq_zero]
  · rw [Nat.add_mod, residue_mod, ← Nat.add_mod]

theorem words_small (bytes : List UInt8) : ∀ w ∈ words bytes, w < 65536 := by
  induction bytes using words.induct with
  | case1 => intro w member; cases member
  | case2 h =>
      intro w member
      have := h.toNat_lt
      rw [words, List.mem_singleton] at member
      omega
  | case3 h l bytes ih =>
      intro w member
      have := h.toNat_lt
      have := l.toNat_lt
      rw [words, List.mem_cons] at member
      rcases member with rfl | later
      · omega
      · exact ih w later

/-- The one's complement sum is the plain sum, reduced once. -/
theorem foldl_onesAdd {ws : List Nat} (small : ∀ w ∈ ws, w < 65536) (n : Nat) :
    ws.foldl onesAdd (residue n) = residue (n + ws.sum) := by
  induction ws generalizing n with
  | nil => rfl
  | cons w ws ih =>
      rw [List.foldl_cons, onesAdd_residue (small w List.mem_cons_self), List.sum_cons,
        ih (fun v member => small v (List.mem_cons_of_mem w member)), Nat.add_assoc]

theorem onesSum_eq (bytes : List UInt8) : onesSum bytes = residue (words bytes).sum := by
  have := foldl_onesAdd (words_small bytes) 0
  rwa [Nat.zero_add] at this

theorem onesSum_le (bytes : List UInt8) : onesSum bytes ≤ 65535 := by
  rw [onesSum_eq]
  exact residue_le _

theorem words_append {front : List UInt8} (back : List UInt8) (even : front.length % 2 = 0) :
    words (front ++ back) = words front ++ words back := by
  induction front using words.induct with
  | case1 => rfl
  | case2 h => cases even
  | case3 h l front ih =>
      have rest : front.length % 2 = 0 := by
        simp only [List.length_cons] at even
        omega
      rw [List.cons_append, List.cons_append, words, words, ih rest, List.cons_append]

theorem loadedSum_append {front : List UInt8} (back : List UInt8) (even : front.length % 2 = 0) :
    loadedSum (front ++ back) = loadedSum front + loadedSum back := by
  induction front using loadedSum.induct with
  | case1 => rw [List.nil_append, loadedSum, Nat.zero_add]
  | case2 b => cases even
  | case3 a b front ih =>
      have rest : front.length % 2 = 0 := by
        simp only [List.length_cons] at even
        omega
      rw [List.cons_append, List.cons_append, loadedSum, loadedSum, ih rest, ← Nat.add_assoc]

theorem words_mod (bytes : List UInt8) :
    (words bytes).sum % 65535 = 256 * loadedSum bytes % 65535 := by
  induction bytes using words.induct with
  | case1 => rfl
  | case2 h =>
      simp only [words, loadedSum, List.sum_cons, List.sum_nil]
      omega
  | case3 h l bytes ih =>
      simp only [words, loadedSum, List.sum_cons]
      omega

theorem words_eq_zero (bytes : List UInt8) : (words bytes).sum = 0 ↔ loadedSum bytes = 0 := by
  induction bytes using words.induct with
  | case1 => exact Iff.rfl
  | case2 h =>
      simp only [words, loadedSum, List.sum_cons, List.sum_nil]
      omega
  | case3 h l bytes ih =>
      simp only [words, loadedSum, List.sum_cons]
      omega

def swap16 (x : Nat) : Nat := x % 256 * 256 + x / 256

theorem swap16_small {x : Nat} (small : x < 65536) : swap16 x = residue (256 * x) := by
  have exchanged : swap16 x < 65536 := by
    unfold swap16
    omega
  rw [← residue_small exchanged]
  apply residue_congr
  · unfold swap16
    omega
  · unfold swap16
    omega

/-- Byte order independence: the host's sum is the network's with its bytes exchanged. -/
theorem onesSum_eq_swap (bytes : List UInt8) :
    onesSum bytes = swap16 (residue (loadedSum bytes)) := by
  have bound := residue_le (loadedSum bytes)
  have zero := words_eq_zero bytes
  rw [swap16_small (by omega), residue_scale, onesSum_eq]
  exact residue_congr (by omega) (words_mod bytes)

example : onesSum [0x00, 0x01, 0xF2, 0x03, 0xF4, 0xF5, 0xF6, 0xF7] = 0xDDF2 := by decide

theorem complement_toNat (x : UInt16) : (~~~ x).toNat = 65535 - x.toNat := by
  rw [UInt16.toNat_not]
  rfl

theorem checksum_toNat (bytes : List UInt8) : (checksum bytes).toNat = 65535 - onesSum bytes := by
  have bound := onesSum_le bytes
  rw [checksum, complement_toNat, UInt16.toNat_ofNat']
  omega

/-- The bytes of a complement are the complements of the bytes. -/
theorem complement_bytes {x : UInt16} {h l : Nat} (high : h < 256) (low : l < 256)
    (value : x.toNat = 65535 - (h * 256 + l)) :
    hi x = UInt8.ofNat (255 - h) ∧ lo x = UInt8.ofNat (255 - l) := by
  have split : x.toNat = (255 - h) * 256 + (255 - l) := by omega
  have quotient : x.toNat / 256 = 255 - h := by omega
  have remainder : x.toNat % 256 = 255 - l := by omega
  exact ⟨congrArg UInt8.ofNat quotient, congrArg UInt8.ofNat remainder⟩

/-- The complement of the host's sum, stored in memory, is the checksum in network order. -/
theorem stored_checksum {bytes : List UInt8} {r : UInt16}
    (sum : r.toNat = 65535 - residue (loadedSum bytes)) :
    lo r = hi (checksum bytes) ∧ hi r = lo (checksum bytes) := by
  have bound := residue_le (loadedSum bytes)
  have swapped := checksum_toNat bytes
  rw [onesSum_eq_swap, swap16] at swapped
  have host := complement_bytes (x := r) (h := residue (loadedSum bytes) / 256)
    (l := residue (loadedSum bytes) % 256) (by omega) (by omega) (by omega)
  have network := complement_bytes (by omega) (by omega) swapped
  exact ⟨host.2.trans network.1.symm, host.1.trans network.2.symm⟩

/-- A checksum stored into a field that was zero completes the sum to all ones. -/
theorem onesSum_completed {front back : List UInt8} (even : front.length % 2 = 0) {c : UInt16}
    (computed : c = checksum (front ++ 0 :: 0 :: back)) :
    onesSum (front ++ hi c :: lo c :: back) = 0xFFFF := by
  have value : c.toNat = 65535 - residue ((words front).sum + (words back).sum) := by
    rw [computed, checksum_toNat, onesSum_eq, words_append _ even, words, List.sum_append,
      List.sum_cons]
    simp
  have halves : (hi c).toNat * 256 + (lo c).toNat = c.toNat := by
    have := c.toNat_lt
    simp only [hi, lo, UInt8.toNat_ofNat']
    omega
  have bound := residue_le ((words front).sum + (words back).sum)
  have mod := residue_mod ((words front).sum + (words back).sum)
  have empty := @residue_eq_zero ((words front).sum + (words back).sum)
  rw [onesSum_eq, words_append _ even, words, List.sum_append, List.sum_cons, halves, value]
  exact (residue_congr (n := 65535) (by omega) (by omega)).trans (residue_small (by omega))

end InternetChecksum
