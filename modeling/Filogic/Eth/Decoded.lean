import Filogic.Eth.Rollback

/-! What the two DMA engines read in the words of a transmit descriptor: an address, a length and
the flag of the last part, once for QDMA and up to twice for the PDMA. -/

namespace Filogic.Eth.Mapping
open Lib

/-- The constants of a chip go together, and so does the kernel that is built for it; without QDMA
there are version 1 and version 3. -/
structure Conf.Soc (c : Conf) : Prop where
  maxLen : c.dmaMaxLen = if c.netsysV2 || c.netsysV3 then 0xffff else 0x3fff
  lenOffset : c.dmaLenOffset = if c.netsysV2 || c.netsysV3 then 8 else 16
  addr64 : c.addr64 = true → c.netsysV3 = true
  plen1High : c.qdma = false → c.plen1High = c.netsysV3
  pdma : c.qdma = false → c.netsysV2 = true → c.netsysV3 = true

/-- The addresses that the DMA mask allows. -/
def addrBits (c : Conf) : Nat := if c.addr64 then 36 else 32

/-- A part of a packet, and whether it is marked as the last. -/
abbrev Part : Type := Mapped × Bool

section Decode

variable (c : Conf)

/-- The length at the place of `TX_DMA_PLEN0`. -/
def getPlen0 (word : UInt32) : Nat :=
  ((word >>> UInt32.ofNat c.dmaLenOffset) &&& UInt32.ofNat c.dmaMaxLen).toNat

def getPlen1 (word : UInt32) : Nat :=
  if c.plen1High then getPlen0 c word else (word &&& UInt32.ofNat c.dmaMaxLen).toNat

/-- `TX_DMA_GET_ADDR64` -/
def getAddr64 (word : UInt32) : UInt64 :=
  if c.addr64 then (word &&& 0xf).toUInt64 <<< 32 else 0

def qdmaPart (d : TxDma) : Part :=
  ((d.txd1.toUInt64 ||| getAddr64 c d.txd3, getPlen0 c d.txd3), d.txd3 &&& txDmaLs0 ≠ 0)

def firstPart (d : TxDma) : Part :=
  ((d.txd1.toUInt64 ||| getAddr64 c d.txd2, getPlen0 c d.txd2), d.txd2 &&& txDmaLs0 ≠ 0)

def secondPart (d : TxDma) : Part :=
  if c.netsysV3 then
    ((d.txd3.toUInt64 ||| getAddr64 c d.txd4, getPlen1 c d.txd4), d.txd4 &&& txDmaLs1V2 ≠ 0)
  else ((d.txd3.toUInt64, getPlen1 c d.txd2), d.txd2 &&& txDmaLs1 ≠ 0)

/-- The parts that the engine reads in a descriptor. Nothing follows the last one. -/
def parts (p : Place) : List Part :=
  if c.qdma then [qdmaPart c p.dma]
  else if (firstPart c p.dmaPdma).2 then [firstPart c p.dmaPdma]
  else [firstPart c p.dmaPdma, secondPart c p.dmaPdma]

end Decode

section Fields

theorem and_mask (n : Nat) (word : UInt32) (small : n < 32) :
    (word &&& UInt32.ofNat (2 ^ n - 1)).toNat = word.toNat % 2 ^ n := by
  have below : 2 ^ n < 2 ^ 32 := Nat.pow_lt_pow_right (by decide) small
  rw [UInt32.toNat_and, UInt32.toNat_ofNat', Nat.mod_eq_of_lt (by omega),
    Nat.and_two_pow_sub_one_eq_mod]

/-- The bits of a number in its field. -/
theorem field_bit (v : UInt32) (n off i : Nat) (fits : off + n ≤ 32) (small : n < 32)
    (shift : off < 32) :
    ((v &&& UInt32.ofNat (2 ^ n - 1)) <<< UInt32.ofNat off).toNat.testBit i =
      (decide (off ≤ i) && decide (i < off + n) && v.toNat.testBit (i - off)) := by
  have amount : (UInt32.ofNat off).toNat % 32 = off := by
    rw [UInt32.toNat_ofNat', Nat.mod_eq_of_lt (show off < 2 ^ 32 by omega), Nat.mod_eq_of_lt shift]
  rw [UInt32.toNat_shiftLeft, amount, and_mask n v small]
  simp only [Nat.testBit_mod_two_pow, Nat.testBit_shiftLeft]
  by_cases low : off ≤ i
  · by_cases high : i < off + n
    · simp [low, high, show i < 32 by omega, show i - off < n by omega]
    · simp [low, high, show ¬ i - off < n by omega]
  · simp [low]

/-- A number is read from its field, whatever stands below and above. -/
theorem field_read (v rest : UInt32) (n off : Nat) (fits : off + n ≤ 32) (small : n < 32)
    (shift : off < 32) (clear : ∀ i, off ≤ i → i < off + n → rest.toNat.testBit i = false) :
    ((((v &&& UInt32.ofNat (2 ^ n - 1)) <<< UInt32.ofNat off ||| rest) >>> UInt32.ofNat off) &&&
      UInt32.ofNat (2 ^ n - 1)).toNat = v.toNat % 2 ^ n := by
  have amount : (UInt32.ofNat off).toNat % 32 = off := by
    rw [UInt32.toNat_ofNat', Nat.mod_eq_of_lt (show off < 2 ^ 32 by omega), Nat.mod_eq_of_lt shift]
  rw [and_mask n _ small, UInt32.toNat_shiftRight, amount, UInt32.toNat_or]
  apply Nat.eq_of_testBit_eq
  intro i
  rw [Nat.testBit_mod_two_pow, Nat.testBit_shiftRight, Nat.testBit_or, Nat.testBit_mod_two_pow,
    field_bit v n off _ fits small shift]
  by_cases inside : i < n
  · rw [clear (off + i) (by omega) (by omega)]
    simp [inside]
  · simp [inside]

theorem bit_toNat (i : Nat) (small : i < 32) : (bit (UInt32.ofNat i)).toNat = 2 ^ i := by
  have amount : (UInt32.ofNat i).toNat % 32 = i := by
    rw [UInt32.toNat_ofNat', Nat.mod_eq_of_lt (show i < 2 ^ 32 by omega), Nat.mod_eq_of_lt small]
  have below : 2 ^ i < 2 ^ 32 := Nat.pow_lt_pow_right (by decide) small
  rw [bit, UInt32.toNat_shiftLeft, amount, UInt32.toNat_one, Nat.shiftLeft_eq, Nat.one_mul,
    Nat.mod_eq_of_lt below]

theorem bit_testBit (i j : Nat) (small : i < 32) :
    (bit (UInt32.ofNat i)).toNat.testBit j = decide (i = j) := by
  rw [bit_toNat i small, Nat.testBit_two_pow]

/-- Whether a flag is set. -/
theorem and_bit (word : UInt32) (i : Nat) (small : i < 32) :
    decide (word &&& bit (UInt32.ofNat i) ≠ 0) = word.toNat.testBit i := by
  have value : (word &&& bit (UInt32.ofNat i)).toNat = (word.toNat.testBit i).toNat * 2 ^ i := by
    rw [UInt32.toNat_and, bit_toNat i small, Nat.and_two_pow]
  have zero : word &&& bit (UInt32.ofNat i) = 0 ↔
      (word &&& bit (UInt32.ofNat i)).toNat = 0 := by
    rw [← UInt32.toNat_inj]
    rfl
  cases set : word.toNat.testBit i with
  | false =>
    rw [set, Bool.toNat_false, Nat.zero_mul] at value
    simp [zero, value]
  | true =>
    rw [set, Bool.toNat_true, Nat.one_mul] at value
    simp [zero, value]

end Fields

section Words

variable {c : Conf}

/-- The bits of the words that the engines read. -/
theorem plen0_bit (soc : c.Soc) (size i : Nat) : (txDmaPlen0 c size).toNat.testBit i =
    (decide (c.dmaLenOffset ≤ i) && decide (i < if c.netsysV2 || c.netsysV3 then 24 else 30) &&
      (UInt32.ofNat size).toNat.testBit (i - c.dmaLenOffset)) := by
  rw [txDmaPlen0, soc.maxLen, soc.lenOffset]
  split_ifs
  · exact field_bit _ 16 8 i (by decide) (by decide) (by decide)
  · exact field_bit _ 14 16 i (by decide) (by decide) (by decide)

theorem size_mod (soc : c.Soc) (size : Nat) :
    (UInt32.ofNat size).toNat % (c.dmaMaxLen + 1) = size % (c.dmaMaxLen + 1) := by
  rw [soc.maxLen, UInt32.toNat_ofNat']
  split_ifs
  · exact Nat.mod_mod_of_dvd size (by decide)
  · exact Nat.mod_mod_of_dvd size (by decide)

/-- The length of a word, where the other fields keep clear of it. -/
theorem getPlen0_or (soc : c.Soc) (size : Nat) (rest : UInt32)
    (clear : ∀ i, c.dmaLenOffset ≤ i → i < (if c.netsysV2 || c.netsysV3 then 24 else 30) →
      rest.toNat.testBit i = false) :
    getPlen0 c (txDmaPlen0 c size ||| rest) = size % (c.dmaMaxLen + 1) := by
  rw [← size_mod soc size, getPlen0, txDmaPlen0]
  rw [soc.lenOffset] at clear ⊢
  rw [soc.maxLen]
  split_ifs at clear ⊢
  · exact field_read _ rest 16 8 (by decide) (by decide) (by decide) clear
  · exact field_read _ rest 14 16 (by decide) (by decide) (by decide) clear

theorem addr_read (addr : UInt64) (word : UInt32) (fits : addr.toNat < 2 ^ addrBits c)
    (high : c.addr64 = true → word.toNat % 16 = (prepAddr64 c addr).toNat) :
    addr.toUInt32.toUInt64 ||| getAddr64 c word = addr := by
  apply UInt64.toNat_inj.mp
  have low : (addr.toUInt32.toUInt64).toNat = addr.toNat % 2 ^ 32 := by simp
  rw [UInt64.toNat_or, low, getAddr64]
  unfold addrBits at fits
  unfold prepAddr64 at high
  cases wide : c.addr64 with
  | false =>
    rw [wide, if_neg Bool.false_ne_true] at fits
    rw [if_neg Bool.false_ne_true, Nat.mod_eq_of_lt fits]
    exact Nat.or_zero _
  | true =>
    rw [wide, if_pos rfl] at fits
    have nibble := high wide
    rw [if_pos wide] at nibble
    have top : ((addr >>> 32 &&& 0xf).toUInt32).toNat = addr.toNat / 2 ^ 32 := by
      have : (addr >>> 32 &&& 0xf).toNat = addr.toNat / 2 ^ 32 % 16 := by
        rw [UInt64.toNat_and, UInt64.toNat_shiftRight]
        change (addr.toNat >>> 32) &&& (2 ^ 4 - 1) = _
        rw [Nat.and_two_pow_sub_one_eq_mod, Nat.shiftRight_eq_div_pow]
      rw [UInt64.toNat_toUInt32, this]
      omega
    have part : ((word &&& 0xf).toUInt64 <<< 32).toNat = addr.toNat / 2 ^ 32 * 2 ^ 32 := by
      have : (word &&& 0xf).toNat = word.toNat % 16 := and_mask 4 word (by decide)
      rw [UInt64.toNat_shiftLeft, UInt32.toNat_toUInt64, this, nibble, top]
      change (addr.toNat / 2 ^ 32) <<< 32 % 2 ^ 64 = _
      rw [Nat.shiftLeft_eq]
      omega
    rw [if_pos rfl, part, Nat.lor_comm, ← Nat.shiftLeft_eq, ← Nat.shiftLeft_add_eq_or_of_lt
      (Nat.mod_lt _ (by decide)), Nat.shiftLeft_eq]
    omega

/-- The bits from the length of part 0 on, up to the flags. -/
def plen0Top (c : Conf) : Nat := if c.netsysV2 || c.netsysV3 then 24 else 30

theorem getPlen0_congr (soc : c.Soc) {word word' : UInt32}
    (same : ∀ i, c.dmaLenOffset ≤ i → i < plen0Top c →
      word.toNat.testBit i = word'.toNat.testBit i) : getPlen0 c word = getPlen0 c word' := by
  have read : ∀ (n off : Nat) (w : UInt32), n < 32 → off < 32 →
      ((w >>> UInt32.ofNat off) &&& UInt32.ofNat (2 ^ n - 1)).toNat = w.toNat >>> off % 2 ^ n := by
    intro n off w small shift
    have amount : (UInt32.ofNat off).toNat % 32 = off := by
      rw [UInt32.toNat_ofNat', Nat.mod_eq_of_lt (show off < 2 ^ 32 by omega),
        Nat.mod_eq_of_lt shift]
    rw [and_mask n _ small, UInt32.toNat_shiftRight, amount]
  have field : ∀ n off : Nat, n < 32 → off < 32 →
      (∀ i, off ≤ i → i < off + n → word.toNat.testBit i = word'.toNat.testBit i) →
      ((word >>> UInt32.ofNat off) &&& UInt32.ofNat (2 ^ n - 1)).toNat =
        ((word' >>> UInt32.ofNat off) &&& UInt32.ofNat (2 ^ n - 1)).toNat := by
    intro n off small shift same
    rw [read n off word small shift, read n off word' small shift]
    apply Nat.eq_of_testBit_eq
    intro i
    rw [Nat.testBit_mod_two_pow, Nat.testBit_mod_two_pow, Nat.testBit_shiftRight,
      Nat.testBit_shiftRight]
    by_cases inside : i < n
    · rw [same (off + i) (by omega) (by omega)]
    · simp [inside]
  rw [getPlen0, getPlen0]
  unfold plen0Top at same
  rw [soc.lenOffset] at same ⊢
  rw [soc.maxLen]
  split_ifs at same ⊢
  · exact field 16 8 (by decide) (by decide) same
  · exact field 14 16 (by decide) (by decide) same

theorem mod_congr (n : Nat) {word word' : UInt32}
    (same : ∀ i < n, word.toNat.testBit i = word'.toNat.testBit i) :
    word.toNat % 2 ^ n = word'.toNat % 2 ^ n := by
  apply Nat.eq_of_testBit_eq
  intro i
  rw [Nat.testBit_mod_two_pow, Nat.testBit_mod_two_pow]
  by_cases inside : i < n
  · rw [same i inside]
  · simp [inside]

theorem getAddr64_congr {word word' : UInt32}
    (same : ∀ i < 4, word.toNat.testBit i = word'.toNat.testBit i) :
    getAddr64 c word = getAddr64 c word' := by
  have low : word &&& 0xf = word' &&& 0xf := by
    apply UInt32.toNat_inj.mp
    exact ((and_mask 4 word (by decide)).trans (mod_congr 4 same)).trans
      (and_mask 4 word' (by decide)).symm
  rw [getAddr64, getAddr64, low]

theorem small_bit {word : UInt32} {n i : Nat} (small : word.toNat < 2 ^ n) (above : n ≤ i) :
    word.toNat.testBit i = false :=
  Nat.testBit_lt_two_pow (lt_of_lt_of_le small (Nat.pow_le_pow_right (by decide) above))

theorem prepAddr64_lt (addr : UInt64) : (prepAddr64 c addr).toNat < 2 ^ 4 := by
  unfold prepAddr64
  split_ifs
  · have : (addr >>> 32 &&& 0xf).toNat < 16 := by
      rw [UInt64.toNat_and]
      exact Nat.and_lt_two_pow _ (by decide : (0xf : UInt64).toNat < 2 ^ 4)
    rw [UInt64.toNat_toUInt32]
    omega
  · decide

theorem qidLowBits_lt (qid : UInt16) : (qidLowBits qid).toNat < 2 ^ 4 := by
  rw [qidLowBits, UInt32.toNat_and]
  exact Nat.and_lt_two_pow _ (by decide : (0xf : UInt32).toNat < 2 ^ 4)

theorem wordIf_bit (set : Bool) (i j : Nat) (small : i < 32) :
    (wordIf set (bit (UInt32.ofNat i))).toNat.testBit j = (set && decide (i = j)) := by
  cases set with
  | false => exact Nat.zero_testBit j
  | true => exact bit_testBit i j small

theorem lenOffset_ge (soc : c.Soc) : 8 ≤ c.dmaLenOffset := by
  rw [soc.lenOffset]
  split_ifs <;> decide

theorem plen0Top_le (c : Conf) : plen0Top c ≤ 30 := by
  unfold plen0Top
  split_ifs <;> decide

/-- The bits of a word with a length that are not of the length. -/
theorem plen0_or_bit (soc : c.Soc) (size i : Nat) (rest : UInt32)
    (outside : i < c.dmaLenOffset ∨ plen0Top c ≤ i) :
    (txDmaPlen0 c size ||| rest).toNat.testBit i = rest.toNat.testBit i := by
  rw [UInt32.toNat_or, Nat.testBit_or, plen0_bit soc]
  change (_ && decide (i < plen0Top c) && _ || _) = _
  obtain low | high := outside
  · simp [show ¬ c.dmaLenOffset ≤ i by omega]
  · simp [show ¬ i < plen0Top c by omega]

/-- The nibble of the address, in a word with a length. -/
theorem addr_read_plen0 (soc : c.Soc) (addr : UInt64) (size : Nat) (rest : UInt32)
    (fits : addr.toNat < 2 ^ addrBits c)
    (high : c.addr64 = true → rest.toNat % 16 = (prepAddr64 c addr).toNat) :
    addr.toUInt32.toUInt64 ||| getAddr64 c (txDmaPlen0 c size ||| rest) = addr := by
  have ge := lenOffset_ge soc
  rw [@getAddr64_congr c _ rest fun i below => plen0_or_bit soc size i rest (by omega)]
  exact addr_read addr rest fits high

end Words

section Parts

variable {c : Conf}

/-- What the size of a part looks like in its field. -/
def lenField (c : Conf) (size : Nat) : Nat := size % (c.dmaMaxLen + 1)

theorem ls0_read (word : UInt32) :
    decide (word &&& txDmaLs0 ≠ 0) = word.toNat.testBit 30 := and_bit word 30 (by decide)

theorem ls1_read (word : UInt32) :
    decide (word &&& txDmaLs1 ≠ 0) = word.toNat.testBit 14 := and_bit word 14 (by decide)

theorem ls1V2_read (word : UInt32) :
    decide (word &&& txDmaLs1V2 ≠ 0) = word.toNat.testBit 30 := and_bit word 30 (by decide)

/-- A word with a length and with the rest of what a version puts there. -/
theorem qdmaPart_words (soc : c.Soc) (addr : UInt64) (size : Nat) (last : Bool) (rest : UInt32)
    (d : TxDma) (fits : addr.toNat < 2 ^ addrBits c)
    (clear : ∀ i, c.dmaLenOffset ≤ i → i < plen0Top c → rest.toNat.testBit i = false)
    (flag : rest.toNat.testBit 30 = last)
    (high : c.addr64 = true → rest.toNat % 16 = (prepAddr64 c addr).toNat)
    (txd1 : d.txd1 = addr.toUInt32) (txd3 : d.txd3 = txDmaPlen0 c size ||| rest) :
    qdmaPart c d = ((addr, lenField c size), last) := by
  have top := plen0Top_le c
  rw [qdmaPart, ls0_read, txd1, txd3, addr_read_plen0 soc addr size rest fits high,
    getPlen0_or soc size rest clear, plen0_or_bit soc size 30 rest (.inr top), flag]
  rfl

theorem ls0_bit (set : Bool) (i : Nat) :
    (wordIf set txDmaLs0).toNat.testBit i = (set && decide (30 = i)) :=
  wordIf_bit set 30 i (by decide)

theorem mod_sixteen {word rest : UInt32} (same : ∀ i < 4,
    word.toNat.testBit i = rest.toNat.testBit i) (small : rest.toNat < 2 ^ 4) :
    word.toNat % 16 = rest.toNat :=
  (mod_congr 4 same).trans (Nat.mod_eq_of_lt small)

theorem qdmaPart_setDmaDesc (soc : c.Soc) (qdma : c.qdma = true) (t : Call) (info : DescInfo)
    (p : Place) (fits : info.addr.toNat < 2 ^ addrBits c) :
    qdmaPart c (setDmaDesc c t info p).dma =
      ((info.addr, lenField c info.size), info.last) := by
  have ge := lenOffset_ge soc
  have top := plen0Top_le c
  rw [setDmaDesc, if_pos qdma]
  cases v3 : c.netsysV3 with
  | true =>
    refine qdmaPart_words soc info.addr info.size info.last
      (wordIf info.last txDmaLs0 ||| prepAddr64 c info.addr) _ fits ?_ ?_ ?_ rfl ?_
    · intro i low high
      rw [UInt32.toNat_or, Nat.testBit_or, ls0_bit, small_bit (prepAddr64_lt info.addr) (by omega)]
      simp [show ¬ 30 = i by omega]
    · rw [UInt32.toNat_or, Nat.testBit_or, ls0_bit, small_bit (prepAddr64_lt info.addr) (by omega)]
      simp
    · intro _
      refine mod_sixteen (fun i low => ?_) (prepAddr64_lt info.addr)
      rw [UInt32.toNat_or, Nat.testBit_or, ls0_bit]
      simp [show ¬ 30 = i by omega]
    · exact UInt32.or_assoc ..
  | false =>
    have narrow : c.addr64 = true → False := fun wide => by simp [soc.addr64 wide] at v3
    cases v2 : c.netsysV2 with
    | true =>
      refine qdmaPart_words soc info.addr info.size info.last (wordIf info.last txDmaLs0 ||| 0) _
        fits ?_ ?_ (fun wide => (narrow wide).elim) rfl ?_
      · intro i low high
        rw [UInt32.or_zero, ls0_bit]
        simp [show ¬ 30 = i by omega]
      · rw [UInt32.or_zero, ls0_bit]
        simp
      · exact UInt32.or_assoc ..
    | false =>
      have first : c.dmaLenOffset = 16 := by simp [soc.lenOffset, v2, v3]
      have swc : ∀ i, txDmaSwc.toNat.testBit i = decide (14 = i) := fun i =>
        bit_testBit 14 i (by decide)
      refine qdmaPart_words soc info.addr info.size info.last
        (txDmaSwc ||| qidLowBits info.qid ||| wordIf info.last txDmaLs0) _ fits ?_ ?_
        (fun wide => (narrow wide).elim) rfl ?_
      · intro i low high
        rw [UInt32.toNat_or, UInt32.toNat_or, Nat.testBit_or, Nat.testBit_or, ls0_bit, swc,
          small_bit (qidLowBits_lt info.qid) (by omega)]
        simp [show ¬ 30 = i by omega, show ¬ 14 = i by omega]
      · rw [UInt32.toNat_or, UInt32.toNat_or, Nat.testBit_or, Nat.testBit_or, ls0_bit, swc,
          small_bit (qidLowBits_lt info.qid) (by omega)]
        simp
      · change txDmaSwc ||| qidLowBits info.qid ||| txDmaPlen0 c info.size ||| _ = _
        rw [UInt32.or_comm _ (txDmaPlen0 c info.size), UInt32.or_assoc]

/-- The words that the PDMA reads are not those of `mtk_tx_set_pdma_desc`. -/
theorem setDmaDesc_pdma (pdma : c.qdma = false) (t : Call) (info : DescInfo) (p : Place) :
    firstPart c (setDmaDesc c t info p).dmaPdma = firstPart c p.dmaPdma ∧
      secondPart c (setDmaDesc c t info p).dmaPdma = secondPart c p.dmaPdma ∧
      (setDmaDesc c t info p).dmaPdma.txd2 = p.dmaPdma.txd2 ∧
      (setDmaDesc c t info p).dmaPdma.txd4 = p.dmaPdma.txd4 := by
  rw [setDmaDesc, pdma, if_neg Bool.false_ne_true]
  unfold setPdmaDesc
  split_ifs <;> exact ⟨rfl, rfl, rfl, rfl⟩

/-- In version 1 the second half shares `txd2` with the first; there is nothing of it yet. -/
def HalfBlank (c : Conf) (d : TxDma) : Prop := c.netsysV3 = false → d.txd2.toNat % 2 ^ 15 = 0

theorem HalfBlank.bit {d : TxDma} (blank : HalfBlank c d) (v1 : c.netsysV3 = false) (i : Nat)
    (low : i < 15) : d.txd2.toNat.testBit i = false := by
  have here : (d.txd2.toNat % 2 ^ 15).testBit i = d.txd2.toNat.testBit i := by
    rw [Nat.testBit_mod_two_pow, decide_eq_true low, Bool.true_and]
  rw [← here, blank v1, Nat.zero_testBit]

theorem v1_of (soc : c.Soc) (pdma : c.qdma = false) (v3 : c.netsysV3 = false) :
    c.netsysV2 = false ∧ c.dmaLenOffset = 16 ∧ c.dmaMaxLen = 2 ^ 14 - 1 ∧ c.plen1High = false ∧
      c.addr64 = false := by
  have v2 : c.netsysV2 = false := by
    by_contra yes
    have := soc.pdma pdma (by simpa using yes)
    rw [v3] at this
    cases this
  refine ⟨v2, by simp [soc.lenOffset, v2, v3], by simp [soc.maxLen, v2, v3],
    (soc.plen1High pdma).trans v3, ?_⟩
  by_contra wide
  have := soc.addr64 (by simpa using wide)
  rw [v3] at this
  cases this

section First

variable {addr : UInt64} {size idx : Nat} {p : Place}

theorem setupTxBuf_even (pdma : c.qdma = false) (even : idx % 2 = 0) :
    (setupTxBuf c addr size idx p).dmaPdma = { p.dmaPdma with
      txd1 := addr.toUInt32
      txd2 := txDmaPlen0 c size ||| (if c.netsysV3 then prepAddr64 c addr else 0) } := by
  rw [setupTxBuf, pdma, if_neg Bool.false_ne_true, if_neg (by omega)]

/-- The first half, once it is written. -/
theorem firstPart_even (soc : c.Soc) (pdma : c.qdma = false) (even : idx % 2 = 0)
    (fits : addr.toNat < 2 ^ addrBits c) :
    firstPart c (setupTxBuf c addr size idx p).dmaPdma = ((addr, lenField c size), false) := by
  have ge := lenOffset_ge soc
  have top := plen0Top_le c
  rw [setupTxBuf_even pdma even]
  generalize rest_eq : (if c.netsysV3 = true then prepAddr64 c addr else 0) = rest
  have small : rest.toNat < 2 ^ 4 := by
    rw [← rest_eq]
    split_ifs
    · exact prepAddr64_lt addr
    · decide
  have high : c.addr64 = true → rest.toNat % 16 = (prepAddr64 c addr).toNat := by
    intro wide
    rw [← rest_eq, if_pos (soc.addr64 wide)]
    exact Nat.mod_eq_of_lt (prepAddr64_lt addr)
  rw [firstPart, ls0_read, plen0_or_bit soc size 30 rest (.inr top), small_bit small (by omega),
    addr_read_plen0 soc addr size rest fits high,
    getPlen0_or soc size rest fun i low _ => small_bit small (by omega)]
  rfl

/-- In version 1 the second half goes with it. -/
theorem halfBlank_even (soc : c.Soc) (pdma : c.qdma = false) (even : idx % 2 = 0) :
    HalfBlank c (setupTxBuf c addr size idx p).dmaPdma := by
  intro v1
  obtain ⟨-, offset, -⟩ := v1_of soc pdma v1
  rw [setupTxBuf_even pdma even]
  change (txDmaPlen0 c size ||| _).toNat % 2 ^ 15 = 0
  rw [v1, if_neg Bool.false_ne_true]
  exact @mod_congr 15 _ 0 fun i low => by
    rw [plen0_or_bit soc size i 0 (.inl (by omega))]

theorem firstPart_odd (soc : c.Soc) (pdma : c.qdma = false) (odd : idx % 2 = 1) :
    firstPart c (setupTxBuf c addr size idx p).dmaPdma = firstPart c p.dmaPdma := by
  rw [setupTxBuf, pdma, if_neg Bool.false_ne_true, if_pos odd]
  cases v3 : c.netsysV3 with
  | true => rfl
  | false =>
    obtain ⟨v2, offset, maxLen, plen1, narrow⟩ := v1_of soc pdma v3
    have small : (txDmaPlen1 c size).toNat < 2 ^ 14 := by
      rw [txDmaPlen1, plen1, if_neg Bool.false_ne_true, maxLen, and_mask 14 _ (by decide)]
      exact Nat.mod_lt _ (by decide)
    have same : ∀ i, 14 ≤ i → (p.dmaPdma.txd2 ||| txDmaPlen1 c size).toNat.testBit i =
        p.dmaPdma.txd2.toNat.testBit i := by
      intro i above
      rw [UInt32.toNat_or, Nat.testBit_or, small_bit small above, Bool.or_false]
    rw [if_neg Bool.false_ne_true, firstPart, firstPart, ls0_read, ls0_read, same 30 (by decide)]
    have len : getPlen0 c (p.dmaPdma.txd2 ||| txDmaPlen1 c size) = getPlen0 c p.dmaPdma.txd2 :=
      getPlen0_congr soc fun i low _ => same i (by omega)
    simp only [len, getAddr64, narrow, Bool.false_eq_true, if_false]

/-- The second half, once it is written. -/
theorem secondPart_odd (soc : c.Soc) (pdma : c.qdma = false) (odd : idx % 2 = 1)
    (blank : HalfBlank c p.dmaPdma) (fits : addr.toNat < 2 ^ addrBits c) :
    secondPart c (setupTxBuf c addr size idx p).dmaPdma = ((addr, lenField c size), false) := by
  have ge := lenOffset_ge soc
  have top := plen0Top_le c
  rw [setupTxBuf, pdma, if_neg Bool.false_ne_true, if_pos odd]
  cases v3 : c.netsysV3 with
  | true =>
    have plen1 : c.plen1High = true := (soc.plen1High pdma).trans v3
    rw [if_pos rfl, secondPart, v3, if_pos rfl, ls1V2_read, getPlen1, txDmaPlen1, plen1,
      if_pos rfl, if_pos rfl, plen0_or_bit soc size 30 _ (.inr top),
      small_bit (prepAddr64_lt addr) (by omega),
      addr_read_plen0 soc addr size _ fits fun _ => Nat.mod_eq_of_lt (prepAddr64_lt addr),
      getPlen0_or soc size _ fun i low _ => small_bit (prepAddr64_lt addr) (by omega)]
    rfl
  | false =>
    obtain ⟨v2, offset, maxLen, plen1, narrow⟩ := v1_of soc pdma v3
    have value : (txDmaPlen1 c size).toNat = lenField c size := by
      rw [txDmaPlen1, plen1, if_neg Bool.false_ne_true, lenField, ← size_mod soc, maxLen,
        and_mask 14 _ (by decide)]
      rfl
    have small : (txDmaPlen1 c size).toNat < 2 ^ 14 := by
      rw [value, lenField, maxLen]
      exact Nat.mod_lt _ (by decide)
    have low : (p.dmaPdma.txd2 ||| txDmaPlen1 c size).toNat % 2 ^ 14 = lenField c size := by
      rw [← value, ← Nat.mod_eq_of_lt small]
      refine mod_congr 14 fun i below => ?_
      rw [UInt32.toNat_or, Nat.testBit_or, blank.bit v3 i (by omega), Bool.false_or]
    have flag : (p.dmaPdma.txd2 ||| txDmaPlen1 c size).toNat.testBit 14 = false := by
      rw [UInt32.toNat_or, Nat.testBit_or, blank.bit v3 14 (by decide),
        small_bit small (Nat.le_refl 14), Bool.or_false]
    have addr32 : addr.toUInt32.toUInt64 = addr := by
      have := addr_read (c := c) addr 0 fits (fun wide => by rw [narrow] at wide; cases wide)
      simpa [getAddr64, narrow] using this
    rw [if_neg Bool.false_ne_true, secondPart, v3, if_neg Bool.false_ne_true, ls1_read, getPlen1,
      plen1, if_neg Bool.false_ne_true, flag, maxLen, and_mask 14 _ (by decide), low, addr32]

/-- A second half that nothing is in has no bytes. -/
theorem secondPart_blank (soc : c.Soc) (pdma : c.qdma = false) {d : TxDma}
    (blank : HalfBlank c d) (zero : d.txd4 = 0) : (secondPart c d).1.2 = 0 := by
  cases v3 : c.netsysV3 with
  | true =>
    have plen1 : c.plen1High = true := (soc.plen1High pdma).trans v3
    rw [secondPart, v3, if_pos rfl, zero]
    simp [getPlen1, plen1, getPlen0]
  | false =>
    obtain ⟨-, -, maxLen, plen1, -⟩ := v1_of soc pdma v3
    have low : d.txd2.toNat % 2 ^ 14 = (0 : UInt32).toNat % 2 ^ 14 :=
      mod_congr 14 fun i below => by
        rw [blank.bit v3 i (by omega)]
        exact (Nat.zero_testBit i).symm
    rw [secondPart, v3, if_neg Bool.false_ne_true, getPlen1, plen1, if_neg Bool.false_ne_true,
      maxLen, and_mask 14 _ (by decide), low]
    rfl

end First

section Last

theorem or_bit (word : UInt32) (i j : Nat) (small : i < 32) (apart : i ≠ j) :
    (word ||| bit (UInt32.ofNat i)).toNat.testBit j = word.toNat.testBit j := by
  rw [UInt32.toNat_or, Nat.testBit_or, bit_testBit i j small]
  simp [apart]

theorem or_bit_self (word : UInt32) (i : Nat) (small : i < 32) :
    (word ||| bit (UInt32.ofNat i)).toNat.testBit i = true := by
  rw [UInt32.toNat_or, Nat.testBit_or, bit_testBit i i small]
  simp

/-- A flag above the length leaves the length and the address. -/
theorem high_flag (soc : c.Soc) (word : UInt32) :
    getPlen0 c (word ||| bit (UInt32.ofNat 30)) = getPlen0 c word ∧
      getAddr64 c (word ||| bit (UInt32.ofNat 30)) = getAddr64 c word := by
  have top := plen0Top_le c
  exact ⟨getPlen0_congr soc fun i _ below => or_bit word 30 i (by decide) (by omega),
    getAddr64_congr fun i below => or_bit word 30 i (by decide) (by omega)⟩

theorem lastPart_first (soc : c.Soc) (k : Nat) (d : TxDma) (odd : k % 2 = 1) :
    firstPart c (lastPart c k d) = ((firstPart c d).1, true) := by
  have word : (lastPart c k d).txd1 = d.txd1 ∧
      (lastPart c k d).txd2 = d.txd2 ||| bit (UInt32.ofNat 30) := by
    unfold lastPart
    split_ifs <;> exact ⟨rfl, rfl⟩
  obtain ⟨len, addr⟩ := high_flag soc d.txd2
  rw [firstPart, ls0_read, word.1, word.2, len, addr, or_bit_self _ 30 (by decide)]
  rfl

theorem lastPart_second (soc : c.Soc) (pdma : c.qdma = false) (k : Nat) (d : TxDma)
    (even : k % 2 = 0) :
    firstPart c (lastPart c k d) = firstPart c d ∧
      secondPart c (lastPart c k d) = ((secondPart c d).1, true) := by
  have notOdd : ¬ k % 2 = 1 := by omega
  cases v3 : c.netsysV3 with
  | true =>
    have plen1 : c.plen1High = true := (soc.plen1High pdma).trans v3
    obtain ⟨len, addr⟩ := high_flag soc d.txd4
    rw [lastPart, v3, if_pos rfl, if_neg notOdd]
    refine ⟨rfl, ?_⟩
    rw [secondPart, secondPart, v3, if_pos rfl, if_pos rfl, ls1V2_read, getPlen1, getPlen1, plen1,
      if_pos rfl, if_pos rfl]
    change ((_ ||| getAddr64 c (d.txd4 ||| bit (UInt32.ofNat 30)),
      getPlen0 c (d.txd4 ||| bit (UInt32.ofNat 30))),
      (d.txd4 ||| bit (UInt32.ofNat 30)).toNat.testBit 30) = _
    rw [len, addr, or_bit_self _ 30 (by decide)]
  | false =>
    obtain ⟨v2, offset, maxLen, plen1, narrow⟩ := v1_of soc pdma v3
    have same : ∀ i, 14 ≠ i → (d.txd2 ||| bit (UInt32.ofNat 14)).toNat.testBit i =
        d.txd2.toNat.testBit i := fun i apart => or_bit _ 14 i (by decide) apart
    have len : getPlen0 c (d.txd2 ||| bit (UInt32.ofNat 14)) = getPlen0 c d.txd2 :=
      getPlen0_congr soc fun i low _ => same i (by omega)
    have low : (d.txd2 ||| bit (UInt32.ofNat 14)).toNat % 2 ^ 14 = d.txd2.toNat % 2 ^ 14 :=
      mod_congr 14 fun i below => same i (by omega)
    rw [lastPart, v3, if_neg Bool.false_ne_true, if_neg notOdd]
    constructor
    · rw [firstPart, firstPart, ls0_read, ls0_read]
      change ((_ ||| getAddr64 c (d.txd2 ||| bit (UInt32.ofNat 14)),
        getPlen0 c (d.txd2 ||| bit (UInt32.ofNat 14))),
        (d.txd2 ||| bit (UInt32.ofNat 14)).toNat.testBit 30) = _
      rw [len, same 30 (by decide)]
      simp only [getAddr64, narrow, Bool.false_eq_true, if_false]
    · rw [secondPart, secondPart, v3, if_neg Bool.false_ne_true, if_neg Bool.false_ne_true,
        ls1_read, getPlen1, getPlen1, plen1, if_neg Bool.false_ne_true, if_neg Bool.false_ne_true,
        maxLen, and_mask 14 _ (by decide), and_mask 14 _ (by decide)]
      change ((_, (d.txd2 ||| bit (UInt32.ofNat 14)).toNat % 2 ^ 14),
        (d.txd2 ||| bit (UInt32.ofNat 14)).toNat.testBit 14) = _
      rw [low, or_bit_self _ 14 (by decide)]

end Last

end Parts

end Filogic.Eth.Mapping
