import Filogic.Hnat.Static
import Filogic.Lib.OnesComplement

/-! `ppe_get_chkbase` of `hnat_nf_hook.c`: the part of the checksum of an IPv4 header that does not
depend on its length and identification, to which the hardware adds those of each packet. -/

namespace Filogic.Hnat.Chkbase
open Lib

section Code

variable (iph : Bytes)

/-- The fields `tot_len`, `id` and `check` of `struct iphdr`, by `ntohs` -/
def totLen : UInt16 := swab16 (iph.u16 2)
def id : UInt16 := swab16 (iph.u16 4)
def check : UInt16 := swab16 (iph.u16 10)

/-- `tmp`, before the carries are added -/
def tmp : UInt32 :=
  (~~~check iph).toUInt32 + (~~~totLen iph).toUInt32 + (~~~id iph).toUInt32

/-- One of the two lines that add the carries -/
def addCarries (tmp : UInt32) : UInt32 := ((tmp >>> 16) &&& 0x7) + (tmp &&& 0xffff)

/-- `ppe_get_chkbase` -/
def ppeGetChkbase : UInt16 := (addCarries (addCarries (tmp iph)) &&& 0xffff).toUInt16

end Code

section Spec

variable (iph : Bytes)

/-- A 16-bit word of a header, in network order -/
def word (k : Nat) : Nat := (swab16 (iph.u16 (2 * k))).toNat

def ihl : Nat := (iph 0).toNat % 16

/-- The header of an IPv4 packet -/
structure Ipv4 : Prop where
  version : (iph 0).toNat / 16 = 4
  ihl : 5 ≤ ihl iph

def wordSum : Nat := ∑ k ∈ Finset.range (2 * ihl iph), word iph k

/-- The checksum is accepted: with all carries added the words have all bits set. -/
def Valid : Prop := carryFold (wordSum iph) = 0xffff

/-- It is the one that a sender puts there, made of the other words. -/
def Sealed : Prop := (check iph).toNat = 0xffff - carryFold (wordSum iph - (check iph).toNat)

/-- The base with a length and an identification added, folded and complemented -/
def checkFrom (base totLen id : UInt16) : UInt16 :=
  ~~~UInt16.ofNat (carryFold (base.toNat + totLen.toNat + id.toNat))

/-- The header with these fields, in network order -/
def replaced (totLen id check : UInt16) : Bytes :=
  put16 10 (swab16 check) (put16 4 (swab16 id) (put16 2 (swab16 totLen) iph))

/-- All steps are those on numbers of any size: no sum overflows, the mask of the carries leaves them
all, and the last mask takes none away. -/
structure Exact : Prop where
  sum : (tmp iph).toNat = (0xffff - (check iph).toNat) + (0xffff - (totLen iph).toNat) +
    (0xffff - (id iph).toNat)
  first : (addCarries (tmp iph)).toNat = carryOnce (tmp iph).toNat
  second : (addCarries (addCarries (tmp iph))).toNat = carryOnce (carryOnce (tmp iph).toNat)
  last : (ppeGetChkbase iph).toNat = carryFold (tmp iph).toNat

end Spec

section Base

variable (iph : Bytes)

theorem not_toNat (x : UInt16) : (~~~x).toNat = 0xffff - x.toNat := by
  rw [UInt16.toNat_not]
  rfl

theorem tmp_toNat : (tmp iph).toNat = (0xffff - (check iph).toNat) + (0xffff - (totLen iph).toNat) +
    (0xffff - (id iph).toNat) := by
  simp only [tmp, UInt32.toNat_add, UInt16.toNat_toUInt32, not_toNat]
  omega

theorem addCarries_toNat (x : UInt32) (small : x.toNat < 2 ^ 19) :
    (addCarries x).toNat = carryOnce x.toNat := by
  have high : ((x >>> 16) &&& 0x7).toNat = x.toNat / 2 ^ 16 := by
    rw [UInt32.toNat_and, UInt32.toNat_shiftRight]
    change x.toNat >>> 16 &&& (2 ^ 3 - 1) = _
    rw [Nat.and_two_pow_sub_one_eq_mod, Nat.shiftRight_eq_div_pow]
    omega
  have low : (x &&& 0xffff).toNat = x.toNat % 2 ^ 16 := by
    rw [UInt32.toNat_and]
    exact Nat.and_two_pow_sub_one_eq_mod x.toNat 16
  rw [addCarries, UInt32.toNat_add, high, low, carryOnce]
  omega

/-- Two rounds are enough. -/
theorem exact : Exact iph := by
  have sum := tmp_toNat iph
  have first := addCarries_toNat (tmp iph) (by omega)
  have second := addCarries_toNat (addCarries (tmp iph)) (by
    rw [first]
    unfold carryOnce
    omega)
  rw [first] at second
  refine ⟨sum, first, second, ?_⟩
  have small : (addCarries (addCarries (tmp iph))).toNat < 2 ^ 16 := by
    rw [second]
    unfold carryOnce
    omega
  have masked : (ppeGetChkbase iph).toNat = (addCarries (addCarries (tmp iph))).toNat := by
    rw [ppeGetChkbase, UInt32.toNat_toUInt16, UInt32.toNat_and]
    change ((addCarries (addCarries (tmp iph))).toNat &&& (2 ^ 16 - 1)) % 2 ^ 16 = _
    rw [Nat.and_two_pow_sub_one_eq_mod, Nat.mod_mod, Nat.mod_eq_of_lt small]
  calc
    (ppeGetChkbase iph).toNat = carryFold (addCarries (addCarries (tmp iph))).toNat := by
      rw [masked, carryFold_small small]
    _ = carryFold (tmp iph).toNat := by
      rw [second, carryFold_carryOnce, carryFold_carryOnce]

end Base

section Replaced

variable (iph : Bytes)

/-- The words that are not replaced -/
def restSum : Nat := ∑ k ∈ (((Finset.range (2 * ihl iph)).erase 1).erase 2).erase 5, word iph k

theorem wordSum_split (long : 5 ≤ ihl iph) :
    wordSum iph = (check iph).toNat + (totLen iph).toNat + (id iph).toNat + restSum iph := by
  have first : 1 ∈ Finset.range (2 * ihl iph) := Finset.mem_range.mpr (by omega)
  have second : 2 ∈ (Finset.range (2 * ihl iph)).erase 1 :=
    Finset.mem_erase.mpr ⟨by decide, Finset.mem_range.mpr (by omega)⟩
  have fifth : 5 ∈ ((Finset.range (2 * ihl iph)).erase 1).erase 2 :=
    Finset.mem_erase.mpr ⟨by decide, Finset.mem_erase.mpr ⟨by decide, Finset.mem_range.mpr (by omega)⟩⟩
  have fields : word iph 1 = (totLen iph).toNat ∧ word iph 2 = (id iph).toNat ∧
      word iph 5 = (check iph).toNat := ⟨rfl, rfl, rfl⟩
  rw [wordSum, ← Finset.add_sum_erase _ (word iph) first, ← Finset.add_sum_erase _ (word iph) second,
    ← Finset.add_sum_erase _ (word iph) fifth, fields.1, fields.2.1, fields.2.2, restSum]
  omega

/-- The version is among them. -/
theorem restSum_pos (header : Ipv4 iph) : 0 < restSum iph := by
  have first : word iph 0 ≤ restSum iph := by
    apply Finset.single_le_sum (fun k _ => Nat.zero_le (word iph k))
    have long := header.ihl
    simp
    omega
  have version : 0 < word iph 0 := by
    have four := header.version
    rw [word, Bytes.u16, swab16_le16, le16_toNat]
    change 0 < (iph 1).toNat + 256 * (iph 0).toNat
    omega
  exact lt_of_lt_of_le version first

theorem u16_put16 (j : Nat) (v : UInt16) (k : Nat) :
    (put16 (2 * j) v iph).u16 (2 * k) = if k = j then v else iph.u16 (2 * k) := by
  unfold Bytes.u16 put16
  by_cases here : k = j
  · rw [if_pos here, here]
    simp [le16_bytes]
  · have apart : 2 * k ≠ 2 * j ∧ 2 * k ≠ 2 * j + 1 ∧ 2 * k + 1 ≠ 2 * j ∧ 2 * k + 1 ≠ 2 * j + 1 := by
      omega
    simp [here, apart]

theorem word_put16 (j : Nat) (v : UInt16) (k : Nat) :
    word (put16 (2 * j) (swab16 v) iph) k = if k = j then v.toNat else word iph k := by
  rw [word, u16_put16]
  split_ifs
  · rw [swab16_swab16]
  · rfl

variable (totLen' id' check' : UInt16)

theorem word_replaced : word (replaced iph totLen' id' check') = fun k =>
    if k = 5 then check'.toNat else if k = 2 then id'.toNat else if k = 1 then totLen'.toNat
    else word iph k := by
  funext k
  change word (put16 (2 * 5) _ (put16 (2 * 2) _ (put16 (2 * 1) _ iph))) k = _
  rw [word_put16, word_put16, word_put16]

theorem ihl_replaced : ihl (replaced iph totLen' id' check') = ihl iph := rfl

theorem restSum_replaced : restSum (replaced iph totLen' id' check') = restSum iph := by
  rw [restSum, ihl_replaced, restSum, word_replaced]
  apply Finset.sum_congr rfl
  intro k inside
  simp only [Finset.mem_erase] at inside
  dsimp only
  rw [if_neg inside.1, if_neg inside.2.1, if_neg inside.2.2.1]

theorem fields_replaced : (check (replaced iph totLen' id' check')).toNat = check'.toNat ∧
    (totLen (replaced iph totLen' id' check')).toNat = totLen'.toNat ∧
    (id (replaced iph totLen' id' check')).toNat = id'.toNat := by
  have words := word_replaced iph totLen' id' check'
  exact ⟨congrFun words 5, congrFun words 1, congrFun words 2⟩

theorem wordSum_replaced (long : 5 ≤ ihl iph) : wordSum (replaced iph totLen' id' check') =
    check'.toNat + totLen'.toNat + id'.toNat + restSum iph := by
  have fields := fields_replaced iph totLen' id' check'
  have split := wordSum_split (replaced iph totLen' id' check') long
  rw [fields.1, fields.2.1, fields.2.2, restSum_replaced] at split
  exact split

end Replaced

section Law

variable (iph : Bytes) (totLen' id' : UInt16)

/-- The base and the three fields together are a multiple of the word of ones. -/
theorem base_modEq :
    (ppeGetChkbase iph).toNat + ((check iph).toNat + (totLen iph).toNat + (id iph).toNat) ≡ 0
      [MOD 65535] := by
  have low := (check iph).toNat_lt
  have middle := (totLen iph).toNat_lt
  have high := (id iph).toNat_lt
  have sum := (exact iph).sum
  have base := carryFold_modEq (tmp iph).toNat
  rw [← (exact iph).last] at base
  unfold Nat.ModEq at base ⊢
  omega

theorem checkFrom_toNat (base : UInt16) : (checkFrom base totLen' id').toNat =
    0xffff - carryFold (base.toNat + totLen'.toNat + id'.toNat) := by
  have small := carryFold_le (base.toNat + totLen'.toNat + id'.toNat)
  rw [checkFrom, not_toNat, UInt16.toNat_ofNat_of_lt' (by
    change _ < 65536
    omega)]

/-- For every header with a valid checksum and each new length and identification, the base gives a
checksum that is valid with these, and the sender's if it was; and no step loses a carry. -/
theorem chkbase_valid (header : Ipv4 iph) :
    (Valid iph → Valid (replaced iph totLen' id' (checkFrom (ppeGetChkbase iph) totLen' id'))) ∧
    (Sealed iph → Sealed (replaced iph totLen' id' (checkFrom (ppeGetChkbase iph) totLen' id'))) ∧
    Exact iph := by
  have split := wordSum_split iph header.ihl
  have positive := restSum_pos iph header
  have base := base_modEq iph
  have made := checkFrom_toNat totLen' id' (ppeGetChkbase iph)
  have small := carryFold_le ((ppeGetChkbase iph).toNat + totLen'.toNat + id'.toNat)
  have added := carryFold_modEq ((ppeGetChkbase iph).toNat + totLen'.toNat + id'.toNat)
  have split' := wordSum_replaced iph totLen' id' (checkFrom (ppeGetChkbase iph) totLen' id') header.ihl
  unfold Nat.ModEq at base added
  refine ⟨?_, ?_, exact iph⟩
  · intro valid
    have whole := ((carryFold_eq_ones _).mp valid).2
    apply (carryFold_eq_ones _).mpr
    omega
  · intro sent
    unfold Sealed at sent ⊢
    have others := carryFold_modEq (wordSum iph - (check iph).toNat)
    have some_ := carryFold_eq_zero (wordSum iph - (check iph).toNat)
    have bounded := carryFold_le (wordSum iph - (check iph).toNat)
    unfold Nat.ModEq at others
    -- the checksum of a sender has a bit that is not set
    have nonzero : (ppeGetChkbase iph).toNat ≠ 0 := by
      rw [(exact iph).last, Ne, carryFold_eq_zero, (exact iph).sum]
      omega
    have same : carryFold ((ppeGetChkbase iph).toNat + totLen'.toNat + id'.toNat) =
        carryFold (totLen'.toNat + id'.toNat + restSum iph) := by
      apply carryFold_congr
      · unfold Nat.ModEq
        omega
      · omega
    rw [(fields_replaced iph totLen' id' _).1, split', made, same]
    congr 2
    omega

/-- A header of twenty bytes, as it is sent -/
def firstFragment : Bytes := fun k =>
  ([0x45, 0, 0, 60, 0x1c, 0x46, 0x40, 0, 0x40, 6, 0xb1, 0xe6, 172, 16, 10, 99, 172, 16, 10, 12] :
    List UInt8).getD k 0

theorem firstFragment_valid :
    Valid (replaced firstFragment 1500 7 (checkFrom (ppeGetChkbase firstFragment) 1500 7)) :=
  (chkbase_valid firstFragment 1500 7 ⟨by decide, by decide⟩).1
    ((carryFold_eq_ones _).mpr (by decide +kernel))

end Law

end Filogic.Hnat.Chkbase
