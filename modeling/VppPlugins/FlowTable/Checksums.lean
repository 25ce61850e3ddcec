import VppPlugins.FlowTable.TcpControl
import Mathlib.Logic.Function.Iterate
import Mathlib.Data.List.Induction

/-! The checksums of `tcp_control.h` are Internet checksums of the bytes they stand for. -/
namespace FlowTable
open Bytes InternetChecksum

def Pointer.slice (p : Pointer) (off n : Nat) : List UInt8 := (List.range n).map fun i => p (off + i)

/-- The pseudo header of an IPv4 header for a segment of `n` bytes. -/
def ip4PseudoHeader (ip4 : Pointer) (n : UInt16) : List UInt8 :=
  ip4.slice 12 8 ++ [0, ip4 9, hi n, lo n]

/-- That of an IPv6 header, which holds the length in four bytes. -/
def ip6PseudoHeader (ip6 : Pointer) (n : UInt16) : List UInt8 :=
  ip6.slice 8 16 ++ ip6.slice 24 16 ++ [0, 0, hi n, lo n, 0, 0, 0, ip6 6]

def ip4PseudoPacket (ip4 tcp : Pointer) (n : UInt16) : List UInt8 :=
  ip4PseudoHeader ip4 n ++ tcp.slice 0 n.toNat

def ip6PseudoPacket (ip6 tcp : Pointer) (n : UInt16) : List UInt8 :=
  ip6PseudoHeader ip6 n ++ tcp.slice 0 n.toNat

/-- The memory behind `p` after a `u16` was stored at offset `k`. -/
def Pointer.store (p : Pointer) (k : Nat) (x : UInt16) : Pointer :=
  fun i => if i = k then lo x else if i = k + 1 then hi x else p i

/-- A function that adds up `terms` and returns `result` computes the checksum of `bytes`: its
accumulator never wraps, its loop is left, and the result has the bytes of the checksum. -/
structure Computes (terms : List UInt32) (result : UInt16) (bytes : List UInt8) : Prop where
  exact : ∀ k, (accumulate (terms.take k)).toNat = ((terms.take k).map UInt32.toNat).sum
  ends : ∃ n, foldStep^[n] (accumulate terms) >>> 16 = 0 ∧
    result = (~~~ foldStep^[n] (accumulate terms)).toUInt16
  stored : store16 result = be16 (checksum bytes)

theorem sum_take_le (terms : List UInt32) (k : Nat) :
    ((terms.take k).map UInt32.toNat).sum ≤ (terms.map UInt32.toNat).sum := by
  have parts := congrArg (fun ts => (ts.map UInt32.toNat).sum) (List.take_append_drop k terms)
  simp only [List.map_append, List.sum_append] at parts
  omega

theorem accumulate_snoc (terms : List UInt32) (term : UInt32) :
    accumulate (terms ++ [term]) = accumulate terms + term := by
  rw [accumulate, List.foldl_append]
  rfl

/-- The accumulator is the exact sum as long as that fits. -/
theorem accumulate_toNat {terms : List UInt32}
    (fits : (terms.map UInt32.toNat).sum < 4294967296) :
    (accumulate terms).toNat = (terms.map UInt32.toNat).sum := by
  induction terms using List.reverseRecOn with
  | nil => rfl
  | append_singleton terms term ih =>
      rw [List.map_append, List.sum_append] at fits ⊢
      simp only [List.map_cons, List.map_nil, List.sum_cons, List.sum_nil, Nat.add_zero] at fits ⊢
      rw [accumulate_snoc, UInt32.toNat_add, ih (by omega)]
      exact Nat.mod_eq_of_lt fits

/-- The loop is left after finitely many rounds. -/
theorem foldCarries_ends (sum : UInt32) :
    ∃ n, foldStep^[n] sum >>> 16 = 0 ∧ foldCarries sum = foldStep^[n] sum := by
  induction sum using foldCarries.induct with
  | case1 sum done =>
      refine ⟨0, done, ?_⟩
      rw [foldCarries, if_pos done]
      rfl
  | case2 sum carries ih =>
      obtain ⟨n, done, same⟩ := ih
      refine ⟨n + 1, done, ?_⟩
      rw [foldCarries, if_neg carries, same]
      rfl

/-- Folding the carries reduces the sum as one's complement addition does. -/
theorem foldCarries_toNat (sum : UInt32) : (foldCarries sum).toNat = residue sum.toNat := by
  induction sum using foldCarries.induct with
  | case1 sum done =>
      rw [foldCarries, if_pos done, residue_small (high_half_eq_zero.mp done)]
  | case2 sum carries ih =>
      rw [foldCarries, if_neg carries, ih, foldStep_toNat, residue_carry]

theorem complement_low {sum : UInt32} (small : sum.toNat < 65536) :
    (~~~ sum).toUInt16.toNat = 65535 - sum.toNat := by
  rw [UInt32.toNat_toUInt16, UInt32.toNat_not]
  change (4294967295 - sum.toNat) % 65536 = _
  omega

theorem checksumOf_toNat {terms : List UInt32}
    (fits : (terms.map UInt32.toNat).sum < 4294967296) :
    (checksumOf terms).toNat = 65535 - residue (terms.map UInt32.toNat).sum := by
  have folded := foldCarries_toNat (accumulate terms)
  have bound := residue_le (accumulate terms).toNat
  rw [checksumOf, complement_low (by omega), folded, accumulate_toNat fits]

/-- It is enough that the terms add up to the words of the bytes as the host loads them. -/
theorem computes_of_sum {terms : List UInt32} {bytes : List UInt8}
    (sum : (terms.map UInt32.toNat).sum = loadedSum bytes) (fits : loadedSum bytes < 4294967296) :
    Computes terms (checksumOf terms) bytes := by
  have below : (terms.map UInt32.toNat).sum < 4294967296 := sum ▸ fits
  refine ⟨?_, ?_, ?_⟩
  · intro k
    exact accumulate_toNat (Nat.lt_of_le_of_lt (sum_take_le terms k) below)
  · obtain ⟨n, done, same⟩ := foldCarries_ends (accumulate terms)
    exact ⟨n, done, by rw [checksumOf, same]⟩
  · have value := checksumOf_toNat below
    rw [sum] at value
    obtain ⟨first, second⟩ := stored_checksum value
    rw [store16, be16, first, second]

theorem loadedSum_bound (bytes : List UInt8) : 2 * loadedSum bytes ≤ 65535 * (bytes.length + 1) := by
  induction bytes using loadedSum.induct with
  | case1 => simp [loadedSum]
  | case2 b =>
      have := b.toNat_lt
      simp only [loadedSum, List.length_singleton]
      omega
  | case3 a b bytes ih =>
      have := a.toNat_lt
      have := b.toNat_lt
      simp only [loadedSum, List.length_cons]
      omega

theorem load16_toNat (p : Pointer) (i : Nat) :
    (load16 p i).toNat = (p (2 * i)).toNat + 256 * (p (2 * i + 1)).toNat := by
  have low := (p (2 * i)).toNat_lt
  have high := (p (2 * i + 1)).toNat_lt
  rw [load16, UInt16.toNat_toUInt32, net16, UInt16.toNat_ofNat']
  omega

theorem slice_append (p : Pointer) (off m n : Nat) :
    p.slice off (m + n) = p.slice off m ++ p.slice (off + m) n := by
  simp only [Pointer.slice, List.range_add, List.map_append, List.map_map]
  congr 2
  funext i
  exact congrArg p (Nat.add_assoc off m i).symm

@[simp] theorem slice_length (p : Pointer) (off n : Nat) : (p.slice off n).length = n := by
  rw [Pointer.slice, List.length_map, List.length_range]

/-- The words a loop loads are those of the slice it runs over. -/
theorem loadedSum_slice (p : Pointer) (off n : Nat) :
    loadedSum (p.slice off (2 * n)) =
      (((List.range n).map (load16 fun i => p (off + i))).map UInt32.toNat).sum := by
  induction n with
  | zero => rfl
  | succ n ih =>
      have even : (p.slice off (2 * n)).length % 2 = 0 := by rw [slice_length]; omega
      have last : loadedSum (p.slice (off + 2 * n) 2) = (load16 (fun i => p (off + i)) n).toNat := by
        rw [load16_toNat]
        rfl
      rw [Nat.mul_succ, slice_append, loadedSum_append _ even, ih, last, List.range_succ,
        List.map_append, List.map_append, List.sum_append]
      simp

theorem loadedSum_start (p : Pointer) (n : Nat) :
    loadedSum (p.slice 0 (2 * n)) =
      (((List.range n).map (load16 p)).map UInt32.toNat).sum := by
  have base : (fun i => p (0 + i)) = p := by
    funext i
    rw [Nat.zero_add]
  have words := loadedSum_slice p 0 n
  rw [base] at words
  exact words

theorem odd_iff (n : UInt16) : n &&& 1 ≠ 0 ↔ n.toNat % 2 = 1 := by
  have low : (n &&& 1).toNat = n.toNat % 2 := by
    rw [UInt16.toNat_and]
    exact Nat.and_two_pow_sub_one_eq_mod n.toNat 1
  rw [ne_eq, ← UInt16.toNat_inj, low]
  change ¬ n.toNat % 2 = 0 ↔ _
  omega

theorem segment_sum (tcp : Pointer) (n : UInt16) :
    ((segmentTerms tcp n).map UInt32.toNat).sum = loadedSum (tcp.slice 0 n.toNat) := by
  rw [segmentTerms, List.map_append, List.sum_append, ← loadedSum_start]
  by_cases odd : n.toNat % 2 = 1
  · have length : n.toNat = 2 * (n.toNat / 2) + 1 := by omega
    have even : (tcp.slice 0 (2 * (n.toNat / 2))).length % 2 = 0 := by rw [slice_length]; omega
    have last : tcp.slice (0 + 2 * (n.toNat / 2)) 1 = [tcp (n.toNat - 1)] := by
      have position : 0 + 2 * (n.toNat / 2) + 0 = n.toNat - 1 := by omega
      exact congrArg (fun i => [tcp i]) position
    rw [if_pos ((odd_iff n).mpr odd)]
    conv_rhs => rw [length, slice_append, loadedSum_append _ even, last]
    simp [loadedSum]
  · have length : n.toNat = 2 * (n.toNat / 2) := by omega
    rw [if_neg fun set => odd ((odd_iff n).mp set), ← length]
    simp

theorem htons_toNat (x : UInt16) : (htons x).toUInt32.toNat = (hi x).toNat + 256 * (lo x).toNat := by
  have high := (hi x).toNat_lt
  have low := (lo x).toNat_lt
  rw [UInt16.toNat_toUInt32, htons, net16, UInt16.toNat_ofNat']
  omega

theorem htons_byte (b : UInt8) : (htons b.toUInt16).toUInt32.toNat = 256 * b.toNat := by
  have bound := b.toNat_lt
  have value : b.toUInt16.toNat = b.toNat := rfl
  rw [htons_toNat, hi, lo, UInt8.toNat_ofNat', UInt8.toNat_ofNat', value]
  omega

/-- Storing the checksum into a zero field of the bytes behind a front of even length. -/
theorem store_completes {p : Pointer} {n k : Nat} {r : UInt16} (front : List UInt8)
    (even : front.length % 2 = 0) (field : k % 2 = 0) (inside : k + 2 ≤ n)
    (zero : p k = 0 ∧ p (k + 1) = 0)
    (stored : store16 r = be16 (checksum (front ++ p.slice 0 n))) :
    onesSum (front ++ (p.store k r).slice 0 n) = 0xFFFF := by
  have length : n = k + (2 + (n - k - 2)) := by omega
  have cut : ∀ q : Pointer, q.slice 0 n =
      q.slice 0 k ++ q k :: q (k + 1) :: q.slice (k + 2) (n - k - 2) := by
    intro q
    conv_lhs => rw [length, slice_append, slice_append]
    rw [Nat.zero_add]
    rfl
  have before : (p.store k r).slice 0 k = p.slice 0 k := by
    apply List.map_congr_left
    intro i member
    have := List.mem_range.mp member
    rw [Pointer.store, if_neg (by omega), if_neg (by omega)]
  have behind : (p.store k r).slice (k + 2) (n - k - 2) = p.slice (k + 2) (n - k - 2) := by
    apply List.map_congr_left
    intro i _
    rw [Pointer.store, if_neg (by omega), if_neg (by omega)]
  have low : (p.store k r) k = lo r := if_pos rfl
  have high : (p.store k r) (k + 1) = hi r := by
    rw [Pointer.store, if_neg (by omega), if_pos rfl]
  have width : (front ++ p.slice 0 k).length % 2 = 0 := by
    rw [List.length_append, slice_length]
    omega
  rw [cut p, zero.1, zero.2, ← List.append_assoc] at stored
  obtain ⟨first, second⟩ := List.cons.inj stored
  rw [cut, before, behind, low, high, first, List.head_eq_of_cons_eq second, ← List.append_assoc]
  exact onesSum_completed width rfl

theorem ip4Terms_sum (ip4 : Pointer) :
    ((flowTableIp4Terms ip4).map UInt32.toNat).sum = loadedSum (ip4.slice 0 20) := by
  rw [flowTableIp4Terms, ← loadedSum_start]

/-- The four words of the addresses are added to one another first. -/
theorem addresses_sum (p : Pointer) :
    (load16 p 0 + load16 p 1 + load16 p 2 + load16 p 3).toNat = loadedSum (p.slice 0 8) := by
  have first := load16_toNat p 0
  have second := load16_toNat p 1
  have third := load16_toNat p 2
  have fourth := load16_toNat p 3
  have bound : ∀ i, (load16 p i).toNat < 65536 := by
    intro i
    have low := (p (2 * i)).toNat_lt
    have high := (p (2 * i + 1)).toNat_lt
    rw [load16_toNat]
    omega
  have bounds := And.intro (bound 0) (And.intro (bound 1) (And.intro (bound 2) (bound 3)))
  rw [loadedSum_start p 4, UInt32.toNat_add, UInt32.toNat_add, UInt32.toNat_add]
  simp only [List.range_succ, List.range_zero, List.nil_append, List.map_cons, List.map_nil,
    List.cons_append, List.sum_cons, List.sum_nil]
  omega

@[simp] theorem ip4PseudoHeader_length (ip4 : Pointer) (n : UInt16) :
    (ip4PseudoHeader ip4 n).length = 12 := by
  simp [ip4PseudoHeader]

@[simp] theorem ip6PseudoHeader_length (ip6 : Pointer) (n : UInt16) :
    (ip6PseudoHeader ip6 n).length = 40 := by
  simp [ip6PseudoHeader]

theorem tcpTerms_sum (ip4 tcp : Pointer) (n : UInt16) :
    ((flowTableTcpTerms ip4 tcp n).map UInt32.toNat).sum =
      loadedSum (ip4PseudoPacket ip4 tcp n) := by
  have addresses : loadedSum (ip4.slice 12 8) =
      (load16 (fun i => ip4 (12 + i)) 0 + load16 (fun i => ip4 (12 + i)) 1 +
        load16 (fun i => ip4 (12 + i)) 2 + load16 (fun i => ip4 (12 + i)) 3).toNat := by
    rw [addresses_sum, loadedSum_slice ip4 12 4, loadedSum_slice _ 0 4]
    simp only [Nat.zero_add]
  have even : (ip4.slice 12 8).length % 2 = 0 := by rw [slice_length]
  have rest : loadedSum [0, ip4 9, hi n, lo n] =
      (htons (ip4 9).toUInt16).toUInt32.toNat + (htons n).toUInt32.toNat := by
    rw [htons_byte, htons_toNat]
    simp [loadedSum]
  rw [ip4PseudoPacket, loadedSum_append _ (by rw [ip4PseudoHeader_length]), ip4PseudoHeader,
    loadedSum_append _ even, addresses, rest, ← segment_sum]
  simp only [flowTableTcpTerms, List.cons_append, List.nil_append, List.map_cons, List.sum_cons,
    Nat.add_assoc]

theorem tcpTermsIp6_sum (ip6 tcp : Pointer) (n : UInt16) :
    ((flowTableTcpTermsIp6 ip6 tcp n).map UInt32.toNat).sum =
      loadedSum (ip6PseudoPacket ip6 tcp n) := by
  have source : (ip6.slice 8 16).length % 2 = 0 := by rw [slice_length]
  have both : (ip6.slice 8 16 ++ ip6.slice 24 16).length % 2 = 0 := by
    rw [List.length_append, slice_length, slice_length]
  have upper : (htons (UInt16.ofNat (n.toNat >>> 16))).toUInt32.toNat = 0 := by
    have bound := n.toNat_lt
    have zero : n.toNat >>> 16 = 0 := by
      rw [Nat.shiftRight_eq_div_pow]
      omega
    rw [zero]
    rfl
  have lower : n &&& 0xFFFF = n := by
    apply UInt16.toNat.inj
    have bound : n.toNat < 65536 := n.toNat_lt
    rw [UInt16.toNat_and]
    exact (Nat.and_two_pow_sub_one_eq_mod n.toNat 16).trans (Nat.mod_eq_of_lt bound)
  have rest : loadedSum [0, 0, hi n, lo n, 0, 0, 0, ip6 6] =
      (htons n).toUInt32.toNat + (htons (ip6 6).toUInt16).toUInt32.toNat := by
    rw [htons_byte, htons_toNat]
    simp [loadedSum, Nat.add_assoc]
  rw [ip6PseudoPacket, loadedSum_append _ (by rw [ip6PseudoHeader_length]), ip6PseudoHeader,
    loadedSum_append _ both, loadedSum_append _ source, rest, ← segment_sum,
    loadedSum_slice ip6 8 8, loadedSum_slice ip6 24 8]
  simp only [flowTableTcpTermsIp6, List.map_append, List.sum_append, List.map_cons, List.map_nil,
    List.sum_cons, List.sum_nil, upper, lower, Nat.add_zero, Nat.zero_add, Nat.add_assoc]

/-- The three functions compute the Internet checksums of the header, and of the segment
behind its pseudo header; and storing their results completes the sums. -/
structure ChecksumsCorrect (ip4 ip6 tcp : Pointer) (n : UInt16) : Prop where
  header : Computes (flowTableIp4Terms ip4) (flowTableIp4Checksum ip4) (ip4.slice 0 20)
  segment : Computes (flowTableTcpTerms ip4 tcp n) (flowTableTcpChecksum ip4 tcp n)
    (ip4PseudoPacket ip4 tcp n)
  segmentIp6 : Computes (flowTableTcpTermsIp6 ip6 tcp n) (flowTableTcpChecksumIp6 ip6 tcp n)
    (ip6PseudoPacket ip6 tcp n)
  headerCompleted : ∀ k, k % 2 = 0 → k + 2 ≤ 20 → ip4 k = 0 ∧ ip4 (k + 1) = 0 →
    onesSum ((ip4.store k (flowTableIp4Checksum ip4)).slice 0 20) = 0xFFFF
  segmentCompleted : ∀ k, k % 2 = 0 → k + 2 ≤ n.toNat → tcp k = 0 ∧ tcp (k + 1) = 0 →
    onesSum (ip4PseudoPacket ip4 (tcp.store k (flowTableTcpChecksum ip4 tcp n)) n) = 0xFFFF
  segmentIp6Completed : ∀ k, k % 2 = 0 → k + 2 ≤ n.toNat → tcp k = 0 ∧ tcp (k + 1) = 0 →
    onesSum (ip6PseudoPacket ip6 (tcp.store k (flowTableTcpChecksumIp6 ip6 tcp n)) n) = 0xFFFF

theorem ip4Checksum_computes (ip4 : Pointer) :
    Computes (flowTableIp4Terms ip4) (flowTableIp4Checksum ip4) (ip4.slice 0 20) := by
  have bound := loadedSum_bound (ip4.slice 0 20)
  rw [slice_length] at bound
  exact computes_of_sum (ip4Terms_sum ip4) (by omega)

theorem tcpChecksum_computes (ip4 tcp : Pointer) (n : UInt16) :
    Computes (flowTableTcpTerms ip4 tcp n) (flowTableTcpChecksum ip4 tcp n)
      (ip4PseudoPacket ip4 tcp n) := by
  have short : n.toNat < 65536 := n.toNat_lt
  have bound := loadedSum_bound (ip4PseudoPacket ip4 tcp n)
  have length : (ip4PseudoPacket ip4 tcp n).length = 12 + n.toNat := by simp [ip4PseudoPacket]
  exact computes_of_sum (tcpTerms_sum ip4 tcp n) (by omega)

theorem tcpChecksumIp6_computes (ip6 tcp : Pointer) (n : UInt16) :
    Computes (flowTableTcpTermsIp6 ip6 tcp n) (flowTableTcpChecksumIp6 ip6 tcp n)
      (ip6PseudoPacket ip6 tcp n) := by
  have short : n.toNat < 65536 := n.toNat_lt
  have bound := loadedSum_bound (ip6PseudoPacket ip6 tcp n)
  have length : (ip6PseudoPacket ip6 tcp n).length = 40 + n.toNat := by simp [ip6PseudoPacket]
  exact computes_of_sum (tcpTermsIp6_sum ip6 tcp n) (by omega)

theorem ip4Checksum_completes (ip4 : Pointer) (k : Nat) (field : k % 2 = 0) (inside : k + 2 ≤ 20)
    (zero : ip4 k = 0 ∧ ip4 (k + 1) = 0) :
    onesSum ((ip4.store k (flowTableIp4Checksum ip4)).slice 0 20) = 0xFFFF :=
  store_completes [] rfl field inside zero (ip4Checksum_computes ip4).stored

theorem tcpChecksum_completes (ip4 tcp : Pointer) (n : UInt16) (k : Nat) (field : k % 2 = 0)
    (inside : k + 2 ≤ n.toNat) (zero : tcp k = 0 ∧ tcp (k + 1) = 0) :
    onesSum (ip4PseudoPacket ip4 (tcp.store k (flowTableTcpChecksum ip4 tcp n)) n) = 0xFFFF := by
  refine store_completes _ ?_ field inside zero (tcpChecksum_computes ip4 tcp n).stored
  rw [ip4PseudoHeader_length]

theorem checksums_correct (ip4 ip6 tcp : Pointer) (n : UInt16) :
    ChecksumsCorrect ip4 ip6 tcp n where
  header := ip4Checksum_computes ip4
  segment := tcpChecksum_computes ip4 tcp n
  segmentIp6 := tcpChecksumIp6_computes ip6 tcp n
  headerCompleted _ field inside zero := ip4Checksum_completes ip4 _ field inside zero
  segmentCompleted _ field inside zero := tcpChecksum_completes ip4 tcp n _ field inside zero
  segmentIp6Completed _ field inside zero := by
    refine store_completes _ ?_ field inside zero (tcpChecksumIp6_computes ip6 tcp n).stored
    rw [ip6PseudoHeader_length]

end FlowTable
