import Filogic.Lib.Sweep
import Filogic.Lib.Words
import Filogic.Hnat.Foe
import Filogic.Hnat.Mcast

/-! `hnat.h`: where the members of `union foe_entry` have the fields that the flow purges read.
Offsets are those of the little-endian build, from the start of the entry. -/

namespace Filogic.Hnat
open Lib

/-- `CONFIG_MEDIATEK_NETSYS_V2`, `CONFIG_MEDIATEK_NETSYS_V3`, or neither -/
inductive Netsys where
  | v1 | v2 | v3
  deriving DecidableEq, Repr

/-- The members of `struct foe_entry`. -/
inductive FoeStruct where
  | ipv4Hnapt | ipv4Dslite | ipv4Mape | ipv6ThreeTRoute | ipv6FiveTRoute | ipv6SixRd | ipv6Hnapt
  deriving DecidableEq, Repr

/-- The member that a packet type uses. MAP-T and the codes without a name have none; they fall
under the 5-tuple route wherever the driver tells only the IPv4 group apart. -/
def structOf : FoeIpAct → FoeStruct
  | .ipv4Hnapt | .ipv4Hnat => .ipv4Hnapt
  | .ipv4Dslite => .ipv4Dslite
  | .ipv4MapE => .ipv4Mape
  | .ipv6ThreeTRoute => .ipv6ThreeTRoute
  | .ipv6FiveTRoute => .ipv6FiveTRoute
  | .ipv6SixRd => .ipv6SixRd
  | .ipv6Hnapt | .ipv6Hnat => .ipv6Hnapt
  | .ipv4MapT | .unused _ => .ipv6FiveTRoute

namespace FoeStruct

/-- `info_blk2` -/
def infoBlk2 : FoeStruct → Nat
  | .ipv4Hnapt => 16
  | .ipv4Dslite | .ipv4Mape | .ipv6ThreeTRoute | .ipv6FiveTRoute | .ipv6SixRd | .ipv6Hnapt => 56

/-- `dmac_hi` -/
def dmacHi : FoeStruct → Nat
  | .ipv4Hnapt => 48
  | .ipv4Dslite | .ipv4Mape | .ipv6ThreeTRoute | .ipv6FiveTRoute | .ipv6SixRd | .ipv6Hnapt => 64

def dmacLo (s : FoeStruct) : Nat := s.dmacHi + 6

def smacHi (s : FoeStruct) : Nat := s.dmacHi + 8

def smacLo (s : FoeStruct) : Nat := s.dmacHi + 14

/-- `winfo`, in a union with `vlan2` before NETSYS v2. In NETSYS v3 the new addresses and ports of
MAP-E and of IPv6 NAPT come before it. -/
def winfo : Netsys → FoeStruct → Nat
  | .v1, s => s.dmacHi + 4
  | .v2, s => s.dmacHi + 18
  | .v3, .ipv4Mape => 96
  | .v3, .ipv6Hnapt => 104
  | .v3, s => s.dmacHi + 20

end FoeStruct

/-- `struct hnat_winfo` at an offset: `bssid` and `wcid`. -/
def winfoAt (netsys : Netsys) (m : Bytes) (k : Nat) : Nat × Nat :=
  match netsys with
  | .v1 => ((m.u16 k).toNat % 2 ^ 6, (m.u16 k).toNat / 2 ^ 6 % 2 ^ 8)
  | .v2 => ((m.u16 k).toNat % 2 ^ 6, (m.u16 k).toNat / 2 ^ 6)
  | .v3 => ((m (k + 2)).toNat, (m.u16 k).toNat)

/-- `iblk2.dp` -/
def dpAt (netsys : Netsys) (m : Bytes) (k : Nat) : Nat :=
  match netsys with
  | .v1 => (m k).toNat / 2 ^ 5
  | .v2 | .v3 => (m.u16 k).toNat / 2 ^ 9 % 2 ^ 4

/-- `swab16` -/
def swab16 (x : UInt16) : UInt16 := (x <<< 8) ||| (x >>> 8)

/-- What `memset` leaves of an entry. -/
def FoeEntry.zero : FoeEntry :=
  { bfib1 := { pktType := .ipv4Hnapt, state := .invalid, timeStamp := 0, sp := 0, vlanLayer := 0
               psn := false, vpm := false, cah := false, rmt := false, ttl := false, udp := false
               sta := false }
    union := fun _ => 0 }

/-- A store to one entry of one PPE's table. -/
def writeAt (foe : Nat → Nat → FoeEntry) (place : Nat × Nat) (entry : FoeEntry) :
    Nat → Nat → FoeEntry :=
  Function.update foe place.1 (Function.update (foe place.1) place.2 entry)

/-- The six bytes of a MAC address that is kept in a high and a low word. -/
def macAt (m : Bytes) (hi lo : Nat) : List UInt8 :=
  [m (hi + 3), m (hi + 2), m (hi + 1), m hi, m (lo + 1), m lo]

/-- The bytes of an address that is kept in words of host order. -/
def addressAt (m : Bytes) (k : Nat) (words : Nat) : List UInt8 :=
  (List.range words).flatMap fun j =>
    [m (k + 4 * j + 3), m (k + 4 * j + 2), m (k + 4 * j + 1), m (k + 4 * j)]

theorem writeAt_cells (foe : Nat → Nat → FoeEntry) (place : Nat × Nat) (entry : FoeEntry) :
    (fun at_ : Nat × Nat => writeAt foe place entry at_.1 at_.2) =
      Function.update (fun at_ : Nat × Nat => foe at_.1 at_.2) place entry := by
  funext at_
  unfold writeAt
  by_cases first : at_.1 = place.1
  · rw [first, Function.update_self]
    by_cases second : at_.2 = place.2
    · rw [second, Function.update_self, Prod.ext first second, Function.update_self]
    · have other : at_ ≠ place := fun same => second (congrArg Prod.snd same)
      rw [Function.update_of_ne second, Function.update_of_ne other, first]
  · have other : at_ ≠ place := fun same => first (congrArg Prod.fst same)
    rw [Function.update_of_ne first, Function.update_of_ne other]

theorem writeAt_self (foe : Nat → Nat → FoeEntry) (place : Nat × Nat) :
    writeAt foe place (foe place.1 place.2) = foe := by
  rw [writeAt, Function.update_eq_self, Function.update_eq_self]

/-- A loop over the first `m` entries of the first `n` tables that rewrites each entry by itself. -/
theorem sweep_tables {σ : Type*} (step : σ → Nat × Nat → σ) (foe : σ → Nat → Nat → FoeEntry)
    (f : Nat × Nat → FoeEntry → FoeEntry)
    (writes : ∀ s place, foe (step s place) =
      writeAt (foe s) place (f place (foe s place.1 place.2)))
    (n m : Nat) (s : σ) (ppe index : Nat) :
    foe ((List.range n ×ˢ List.range m).foldl step s) ppe index =
      if ppe < n ∧ index < m then f (ppe, index) (foe s ppe index) else foe s ppe index := by
  have swept := (foldl_sweep_guarded step (fun s at_ => foe s at_.1 at_.2) (fun _ => True)
    (fun _ _ => True) f (fun _ _ _ _ => trivial)
    (fun s place _ => by rw [writes, writeAt_cells]) (List.range n ×ˢ List.range m)
    (List.nodup_range.product List.nodup_range) s trivial (fun _ _ => trivial)).2 (ppe, index)
  have inside : (ppe, index) ∈ List.range n ×ˢ List.range m ↔ ppe < n ∧ index < m :=
    List.pair_mem_product.trans (and_congr List.mem_range List.mem_range)
  simpa only [inside] using swept

theorem swab32_or (x y : UInt32) : swab32 (x ||| y) = swab32 x ||| swab32 y := by
  have masked (x y mask : UInt32) : (x ||| y) &&& mask = (x &&& mask) ||| (y &&& mask) := by
    apply UInt32.toBitVec_inj.mp
    ext i
    simp [Bool.and_or_distrib_right]
  unfold swab32
  simp only [UInt32.shiftLeft_or, UInt32.shiftRight_or, masked]
  generalize x <<< 24 = a, y <<< 24 = a', (x &&& 65280) <<< 8 = b, (y &&& 65280) <<< 8 = b',
    x >>> 8 &&& 65280 = c, y >>> 8 &&& 65280 = c', x >>> 24 = d, y >>> 24 = d'
  ac_rfl

theorem swab32_le32 (a b c d : UInt8) : swab32 (le32 a b c d) = le32 d c b a := by
  have one (a : UInt8) : swab32 a.toUInt32 = a.toUInt32 <<< 24 := by
    revert a
    apply forall_byte
    decide +kernel
  have two (a : UInt8) : swab32 (a.toUInt32 <<< 8) = a.toUInt32 <<< 16 := by
    revert a
    apply forall_byte
    decide +kernel
  have three (a : UInt8) : swab32 (a.toUInt32 <<< 16) = a.toUInt32 <<< 8 := by
    revert a
    apply forall_byte
    decide +kernel
  have four (a : UInt8) : swab32 (a.toUInt32 <<< 24) = a.toUInt32 := by
    revert a
    apply forall_byte
    decide +kernel
  unfold le32
  rw [swab32_or, swab32_or, swab32_or, one, two, three, four]
  generalize a.toUInt32 <<< 24 = a, b.toUInt32 <<< 16 = b, c.toUInt32 <<< 8 = c, d.toUInt32 = d
  ac_rfl

theorem swab16_le16 (a b : UInt8) : swab16 (le16 a b) = le16 b a := by
  have up (a : UInt8) : a.toUInt16 >>> 8 = 0 := by
    revert a
    apply forall_byte
    decide +kernel
  have down (b : UInt8) : b.toUInt16 <<< 8 >>> 8 = b.toUInt16 := by
    revert b
    apply forall_byte
    decide +kernel
  have out (b : UInt8) : b.toUInt16 <<< 8 <<< 8 = 0 := by
    revert b
    apply forall_byte
    decide +kernel
  rw [swab16, le16, UInt16.shiftLeft_or, UInt16.shiftRight_or, up, down, out, le16]
  simp [UInt16.or_comm]

theorem swab16_swab16 (x : UInt16) : swab16 (swab16 x) = x := by
  rw [← le16_bytes x, swab16_le16, swab16_le16]

/-- The comparison of the swapped words with the words of an address is that of the bytes. -/
theorem swapped_mac (m : Bytes) (hi lo : Nat) (mac : Bytes) :
    (swab32 (m.u32 hi) = mac.u32 0 ∧ swab16 (m.u16 lo) = mac.u16 4) ↔
      macAt m hi lo = mac.slice 0 6 := by
  rw [Bytes.u32, Bytes.u16, swab32_le32, swab16_le16, Bytes.u32, Bytes.u16, le32_inj, le16_inj]
  simp [macAt, Bytes.slice, List.range_succ, and_assoc]

theorem swapped_word (m : Bytes) (k : Nat) (addr : Bytes) (j : Nat) :
    m.u32 k = swab32 (addr.u32 j) ↔
      [m (k + 3), m (k + 2), m (k + 1), m k] = addr.slice j 4 := by
  rw [Bytes.u32, Bytes.u32, swab32_le32, le32_inj]
  simp [Bytes.slice, List.range_succ]
  tauto

theorem addressAt_slice (m : Bytes) (k words : Nat) (addr : Bytes) :
    addressAt m k words = addr.slice 0 (4 * words) ↔
      ∀ j < words, m.u32 (k + 4 * j) = swab32 (addr.u32 (4 * j)) := by
  induction words with
  | zero => simp [addressAt, Bytes.slice]
  | succ words ih =>
    have split : addr.slice 0 (4 * (words + 1)) =
        addr.slice 0 (4 * words) ++ addr.slice (4 * words) 4 := by
      simp [Bytes.slice, Nat.mul_succ, List.range_add, Function.comp_def]
    have last : addressAt m k (words + 1) = addressAt m k words ++
        [m (k + 4 * words + 3), m (k + 4 * words + 2), m (k + 4 * words + 1),
          m (k + 4 * words)] := by
      simp [addressAt, List.range_succ]
    have lengths : (addressAt m k words).length = (addr.slice 0 (4 * words)).length := by
      simp [addressAt, Bytes.slice, Nat.mul_comm]
    have pieces {front front' back back' : List UInt8} (same : front.length = front'.length) :
        front ++ back = front' ++ back' ↔ front = front' ∧ back = back' := by
      constructor
      · exact fun whole => List.append_inj whole same
      · rintro ⟨rfl, rfl⟩
        rfl
    rw [split, last, pieces lengths, ih, ← swapped_word]
    constructor
    · rintro ⟨before, here⟩ j inside
      rcases Nat.lt_succ_iff_lt_or_eq.mp inside with earlier | rfl
      · exact before j earlier
      · exact here
    · intro all
      exact ⟨fun j inside => all j (by omega), all words (Nat.lt_succ_self words)⟩

end Filogic.Hnat
