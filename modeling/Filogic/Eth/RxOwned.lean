import Filogic.Eth.RxRing
import Filogic.Lib.Cells

/-! What the receive rings own, over any run of arrivals and polls. -/

namespace Filogic.Eth
open Lib

section Words

theorem and_fifteen (x : Nat) : x &&& 0xf = x % 16 := Nat.and_two_pow_sub_one_eq_mod x 4

theorem prepAddr64_eq (dmaAddr : Nat) : prepAddr64 dmaAddr = dmaAddr / 2 ^ 32 % 16 := by
  rw [prepAddr64, and_fifteen, Nat.shiftRight_eq_div_pow]

theorem or_shiftLeft (x low k : Nat) (bound : low < 2 ^ k) :
    low ||| x <<< k = x * 2 ^ k + low := by
  rw [Nat.or_comm, ← Nat.shiftLeft_add_eq_or_of_lt bound, Nat.shiftLeft_eq]

theorem or_getAddr64 (low rxd2 : Nat) (bound : low < 2 ^ 32) :
    low ||| getAddr64 rxd2 = rxd2 % 16 * 2 ^ 32 + low := by
  unfold getAddr64
  rw [or_shiftLeft _ low 32 bound]
  rw [and_fifteen]

theorem getAddr64_congr (w v : Nat) (same : w % 16 = v % 16) : getAddr64 w = getAddr64 v := by
  have low : w &&& 0xf = v &&& 0xf := by rw [and_fifteen, and_fifteen, same]
  exact congrArg (· <<< 32) low

/-- A shifted length and the four bits below it are read back one by one. -/
theorem shifted_or (len low shift : Nat) (fits : low < 16) (room : 4 ≤ shift) :
    (len <<< shift ||| low) % 16 = low ∧ (len <<< shift ||| low) >>> shift = len := by
  have small : low < 2 ^ shift :=
    lt_of_lt_of_le fits (Nat.pow_le_pow_right (n := 2) (by omega) room)
  rw [← Nat.shiftLeft_add_eq_or_of_lt small, Nat.shiftLeft_eq]
  constructor
  · obtain ⟨more, rfl⟩ := Nat.exists_eq_add_of_le room
    rw [pow_add, ← mul_assoc, mul_right_comm, Nat.add_comm]
    rw [show (2 : Nat) ^ 4 = 16 from rfl]
    omega
  · rw [Nat.shiftRight_eq_div_pow, mul_comm, Nat.mul_add_div (by positivity),
      Nat.div_eq_of_lt small, Nat.add_zero]

theorem and_rxDmaDone (rxd2 : Nat) (bound : rxd2 < 2 ^ 31) : rxd2 &&& rxDmaDone = 0 := by
  apply Nat.eq_of_testBit_eq
  intro i
  rw [Nat.testBit_and, rxDmaDone, Nat.testBit_two_pow, Nat.zero_testBit]
  by_cases here : 31 = i
  · subst here
    rw [Nat.testBit_lt_two_pow bound, Bool.false_and]
  · simp [here]

theorem or_rxDmaDone (rxd2 : Nat) : (rxd2 ||| rxDmaDone) &&& rxDmaDone ≠ 0 := by
  intro zero
  have bit := congrArg (fun x : Nat => x.testBit 31) zero
  simp only [Nat.testBit_and, Nat.testBit_or, rxDmaDone, Nat.testBit_two_pow_self, Bool.or_true,
    Bool.and_true, Nat.zero_testBit] at bit
  cases bit

theorem or_rxDmaDone_mod (rxd2 : Nat) : (rxd2 ||| rxDmaDone) % 16 = rxd2 % 16 := by
  rw [← and_fifteen, ← and_fifteen, Nat.and_or_distrib_right, show rxDmaDone &&& 0xf = 0 by decide,
    Nat.or_zero]

end Words

section Sizes

variable (conf : RxConf)

theorem skbDataAlign_bounds (skb : SkbLayout) (x : Nat) :
    x ≤ skbDataAlign skb x ∧ skbDataAlign skb x < x + skb.smpCacheBytes := by
  have cache := skb.cache
  have parts := Nat.div_add_mod (x + skb.smpCacheBytes - 1) skb.smpCacheBytes
  have rest := Nat.mod_lt (x + skb.smpCacheBytes - 1) cache.1
  rw [mul_comm] at parts
  unfold skbDataAlign
  omega

/-- The length of a buffer is that of its fragment without what surrounds it. -/
theorem bufSize_le : bufSize conf ≤ 0x3fff := by
  have cache := conf.cache
  have small := conf.small
  have shared := skbDataAlign_bounds conf.toSkbLayout conf.sharedInfo
  have room := skbDataAlign_bounds conf.toSkbLayout
  apply le_trans (Nat.mod_le _ _)
  have frag : fragSize conf ≤ maxFragSize conf.toSkbLayout maxLroRxLength ∨ 
    fragSize conf ≤ maxFragSize conf.toSkbLayout ethDataLen := by
    unfold fragSize
    split_ifs
    · exact .inl (Nat.mod_le _ _)
    · exact .inr (Nat.mod_le _ _)
  have lro := room (conf.netSkbPad + rxEthHlen + conf.netIpAlign + maxLroRxLength)
  have plain := room (conf.netSkbPad + rxEthHlen + conf.netIpAlign + (maxRxLength - rxEthHlen))
  simp only [maxFragSize, maxLroRxLength, ethDataLen, maxRxLength, rxEthHlen] at frag lro plain
  norm_num at frag lro plain
  unfold maxBufSize
  omega

theorem dmaMaxLen_and (len : Nat) (bound : len ≤ 0x3fff) : len &&& dmaMaxLen conf = len := by
  unfold dmaMaxLen
  split_ifs
  · rw [Nat.and_two_pow_sub_one_eq_mod len 16]
    exact Nat.mod_eq_of_lt (by omega)
  · rw [Nat.and_two_pow_sub_one_eq_mod len 14]
    exact Nat.mod_eq_of_lt (by omega)

/-- What the driver writes: the length and the upper bits of the address, not done. -/
theorem written_rxd2 (low : Nat) (fits : low < 16) :
    (plen0 conf (bufSize conf) ||| low) % 16 = low ∧
      getPlen0 conf (plen0 conf (bufSize conf) ||| low) = bufSize conf ∧
      (plen0 conf (bufSize conf) ||| low) &&& rxDmaDone = 0 := by
  have bound := bufSize_le conf
  have same := dmaMaxLen_and conf (bufSize conf) bound
  have offset : 4 ≤ dmaLenOffset conf ∧ dmaLenOffset conf ≤ 16 := by
    unfold dmaLenOffset
    split_ifs <;> decide
  have parts := shifted_or (bufSize conf) low (dmaLenOffset conf) fits offset.1
  unfold getPlen0 plen0
  rw [same]
  refine ⟨parts.1, by rw [parts.2, same], and_rxDmaDone _ (Nat.or_lt_two_pow ?_ (by omega))⟩
  rw [Nat.shiftLeft_eq]
  have power := Nat.pow_le_pow_right (n := 2) (by decide) offset.2
  calc bufSize conf * 2 ^ dmaLenOffset conf ≤ 0x3fff * 2 ^ 16 := Nat.mul_le_mul bound power
    _ < 2 ^ 31 := by decide

theorem rxSize_pow : ∃ k, rxSize conf = 2 ^ k := by
  unfold rxSize
  split_ifs
  · exact ⟨6, rfl⟩
  · exact conf.rxDmaSize_pow

theorem rxSize_pos : 0 < rxSize conf := by
  obtain ⟨k, size⟩ := rxSize_pow conf
  rw [size]
  positivity

theorem nextDespIdx_eq (x : Nat) : nextDespIdx x (rxSize conf) = (x + 1) % rxSize conf := by
  obtain ⟨k, size⟩ := rxSize_pow conf
  rw [nextDespIdx, size, Nat.and_two_pow_sub_one_eq_mod]

theorem mapping_lt (addr : Fin (2 ^ dmaBits conf)) :
    addr.val < 2 ^ 36 ∧ (conf.dma36bit = false → addr.val < 2 ^ 32) := by
  have bound := addr.isLt
  unfold dmaBits at bound
  split_ifs at bound with wide
  · exact ⟨bound, fun narrow => absurd wide (by simp [narrow])⟩
  · exact ⟨by omega, fun _ => bound⟩

/-- The address is read back from the two words that it was split into. -/
theorem descAddr_split (addr : Fin (2 ^ dmaBits conf)) (rxd : RxDesc)
    (low : rxd.rxd1 = addr % 2 ^ 32)
    (high : conf.dma36bit = true → rxd.rxd2 % 16 = prepAddr64 addr) :
    descAddr conf rxd = addr := by
  have bound := mapping_lt conf addr
  unfold descAddr
  split_ifs with wide
  · rw [low, or_getAddr64 _ _ (Nat.mod_lt _ (by decide)), high wide, prepAddr64_eq]
    omega
  · rw [low, Nat.or_zero, Nat.mod_eq_of_lt (bound.2 (by simpa using wide))]

end Sizes

section Steps

variable {conf : RxConf}

theorem SlotsOwned.data_lt (s : RxRing) (owned : SlotsOwned conf s) (i : Nat)
    (below : i < rxSize conf) : s.data i < s.next :=
  (owned.all (s.data i)).mpr (.inr ⟨i, below, rfl⟩)

theorem SlotsOwned.gone_lt (s : RxRing) (owned : SlotsOwned conf s) (b : Nat)
    (gone : b ∈ s.handed ++ s.freed) : b < s.next :=
  (owned.all b).mpr (.inl gone)

/-- A buffer is allocated, and freed again since it cannot be mapped. -/
theorem SlotsOwned.spare (s : RxRing) (owned : SlotsOwned conf s) :
    SlotsOwned conf { s with next := s.next + 1, freed := s.next :: s.freed } where
  idx := owned.idx
  addr := owned.addr
  mapped := owned.mapped
  distinct := owned.distinct
  kept i below := by
    have old := owned.kept i below
    have older := owned.data_lt s i below
    have other : s.data i ≠ s.next := by omega
    simp only [List.mem_append, List.mem_cons] at old ⊢
    tauto
  once := by
    apply List.perm_middle.nodup_iff.mpr
    apply List.nodup_cons.mpr ⟨_, owned.once⟩
    intro gone
    exact absurd (owned.gone_lt s s.next gone) (by omega)
  all b := by
    have old := owned.all b
    simp only [List.mem_append, List.mem_cons] at old ⊢
    constructor
    · intro bound
      by_cases new : b = s.next
      · exact .inl (.inr (.inl new))
      · rcases old.mp (by omega) with (handed | freed) | slot
        · exact .inl (.inl handed)
        · exact .inl (.inr (.inr freed))
        · exact .inr slot
    · rintro ((handed | new | freed) | slot)
      · have := old.mpr (.inl (.inl handed))
        omega
      · omega
      · have := old.mpr (.inl (.inr freed))
        omega
      · have := old.mpr (.inr slot)
        omega

/-- The buffer of a slot leaves the ring, and a new one takes its place. -/
theorem SlotsOwned.replace (s s' : RxRing) (owned : SlotsOwned conf s) (idx addr : Nat)
    (below : idx < rxSize conf) (calcIdx : s'.calcIdx < rxSize conf)
    (here : descAddr conf (s'.desc idx) = addr)
    (elsewhere : ∀ i, i ≠ idx → s'.desc i = s.desc i)
    (data : s'.data = Function.update s.data idx s.next) (next : s'.next = s.next + 1)
    (busAddr : s'.busAddr = Function.update s.busAddr s.next addr)
    (mapped : ∀ a, s'.mapped a = s.mapped a + (if addr = a then 1 else 0) -
      (if s.busAddr (s.data idx) = a then 1 else 0))
    (gone : (s'.handed ++ s'.freed).Perm (s.data idx :: (s.handed ++ s.freed))) :
    SlotsOwned conf s' := by
  have older := fun i below => owned.data_lt s i below
  -- the addresses of the slots change at this slot only
  have addrs : ∀ i < rxSize conf, s'.busAddr (s'.data i) =
      Function.update (fun i => s.busAddr (s.data i)) idx addr i := by
    intro i bound
    rw [data, busAddr]
    by_cases same : i = idx
    · subst same
      rw [Function.update_self, Function.update_self, Function.update_self]
    · have old := older i bound
      rw [Function.update_of_ne same, Function.update_of_ne same,
        Function.update_of_ne (by omega)]
  constructor
  · exact calcIdx
  · intro i bound
    rw [addrs i bound]
    by_cases same : i = idx
    · subst same
      rw [here, Function.update_self]
    · rw [elsewhere i same, Function.update_of_ne same, owned.addr i bound]
  · intro a
    have count := card_update (· = a) (fun i => s.busAddr (s.data i)) (rxSize conf) idx below addr
    have same : (Finset.range (rxSize conf)).filter (fun i => s'.busAddr (s'.data i) = a) =
        (Finset.range (rxSize conf)).filter
          (fun i => Function.update (fun i => s.busAddr (s.data i)) idx addr i = a) :=
      Finset.filter_congr fun i member => by rw [addrs i (Finset.mem_range.mp member)]
    rw [mapped a, owned.mapped a, same]
    split_ifs at count ⊢ <;> omega
  · intro i bound j bound' equal
    rw [data] at equal
    by_cases same : i = idx
    · by_cases same' : j = idx
      · rw [same, same']
      · have old := older j bound'
        rw [same, Function.update_self, Function.update_of_ne same'] at equal
        omega
    · by_cases same' : j = idx
      · have old := older i bound
        rw [same', Function.update_self, Function.update_of_ne same] at equal
        omega
      · rw [Function.update_of_ne same, Function.update_of_ne same'] at equal
        exact owned.distinct i bound j bound' equal
  · intro i bound
    rw [gone.mem_iff, data, List.mem_cons, not_or]
    by_cases same : i = idx
    · subst same
      rw [Function.update_self]
      have old := older i bound
      exact ⟨by omega, fun gone => absurd (owned.gone_lt s s.next gone) (by omega)⟩
    · rw [Function.update_of_ne same]
      exact ⟨fun equal => same (owned.distinct i bound idx below equal), owned.kept i bound⟩
  · apply gone.nodup_iff.mpr
    exact List.nodup_cons.mpr ⟨owned.kept idx below, owned.once⟩
  · intro b
    have old := owned.all b
    rw [gone.mem_iff, next, data, List.mem_cons]
    constructor
    · intro bound
      by_cases new : b = s.next
      · exact .inr ⟨idx, below, by rw [Function.update_self, new]⟩
      · rcases old.mp (by omega) with gone | ⟨i, bound, slot⟩
        · exact .inl (.inr gone)
        · by_cases same : i = idx
          · exact .inl (.inl (by rw [← slot, same]))
          · exact .inr ⟨i, bound, by rw [Function.update_of_ne same, slot]⟩
    · rintro ((left | gone) | ⟨i, bound, slot⟩)
      · have lower := older idx below
        omega
      · have lower := old.mpr (.inl gone)
        omega
      · by_cases same : i = idx
        · rw [same, Function.update_self] at slot
          omega
        · rw [Function.update_of_ne same] at slot
          have lower := older i bound
          omega

/-- What `rxBuffer` does: the old buffer is kept, perhaps after a new one was freed again, or
replaced and then handed on or freed. -/
inductive Buffered (idx : Nat) (trxd : RxDesc) (s : RxRing) : Nat → RxRing → Prop where
  | kept : Buffered idx trxd s dmaMappingError s
  | spared : Buffered idx trxd s dmaMappingError
      { s with next := s.next + 1, freed := s.next :: s.freed }
  | replaced (addr : Fin (2 ^ dmaBits conf)) (s' : RxRing)
      (desc : s'.desc = Function.update s.desc idx { s.desc idx with rxd1 := addr % 2 ^ 32 })
      (data : s'.data = Function.update s.data idx s.next) (next : s'.next = s.next + 1)
      (busAddr : s'.busAddr = Function.update s.busAddr s.next addr)
      (mapped : ∀ a, s'.mapped a = s.mapped a + (if addr = a then 1 else 0) -
        (if descAddr conf trxd = a then 1 else 0))
      (gone : (s'.handed ++ s'.freed).Perm (s.data idx :: (s.handed ++ s.freed))) :
      Buffered idx trxd s addr s'

theorem mapping_ne_error (addr : Fin (2 ^ dmaBits conf)) : addr.val ≠ dmaMappingError := by
  have bound := (mapping_lt conf addr).1
  unfold dmaMappingError
  omega

theorem rxBuffer_cases (t : RxTry conf) (idx : Nat) (trxd : RxDesc) (s : RxRing) :
    @Buffered conf idx trxd s (rxBuffer conf t idx trxd s).1
      (rxBuffer conf t idx trxd s).2 := by
  unfold rxBuffer
  by_cases bad : badMac conf (rxMac conf trxd) = true
  · rw [if_pos bad]
    exact .kept
  · rw [if_neg bad]
    by_cases resetting : t.resetting = true
    · rw [if_pos resetting]
      exact .kept
    · rw [if_neg resetting]
      cases noMemory : t.noMemory with
      | true => exact .kept
      | false =>
        cases t.mapping with
        | none => exact .spared
        | some addr =>
          simp only [RxRing.alloc, RxRing.map, Bool.false_eq_true, if_false, mapping_ne_error]
          have counts : ∀ a, Function.update (Function.update s.mapped addr (s.mapped addr + 1))
              (descAddr conf trxd)
              (Function.update s.mapped addr (s.mapped addr + 1) (descAddr conf trxd) - 1) a =
              s.mapped a + (if (addr : Nat) = a then 1 else 0) -
                (if descAddr conf trxd = a then 1 else 0) := by
            intro a
            simp only [Function.update_apply]
            grind
          cases t.noSkb with
          | true => exact .replaced addr _ rfl rfl rfl rfl counts List.perm_middle
          | false => exact .replaced addr _ rfl rfl rfl rfl counts (List.Perm.refl _)

theorem SlotsOwned.same_addr (s : RxRing) (owned : SlotsOwned conf s) (desc : Nat → RxDesc)
    (calcIdx : Nat) (bound : calcIdx < rxSize conf)
    (same : ∀ i, descAddr conf (desc i) = descAddr conf (s.desc i)) :
    SlotsOwned conf { s with desc := desc, calcIdx := calcIdx } where
  idx := bound
  addr i below := (same i).trans (owned.addr i below)
  mapped := owned.mapped
  distinct := owned.distinct
  kept := owned.kept
  once := owned.once
  all := owned.all

/-- What the driver writes into the second word of a descriptor. -/
theorem releaseDesc_rxd2 (idx dmaAddr : Nat) (s : RxRing) :
    ((releaseDesc conf idx dmaAddr s).desc idx).rxd2 &&& rxDmaDone = 0 ∧
      (if conf.mt7628 then ((releaseDesc conf idx dmaAddr s).desc idx).rxd2 = rxDmaLso
        else getPlen0 conf ((releaseDesc conf idx dmaAddr s).desc idx).rxd2 = bufSize conf) ∧
      (conf.dma36bit = true → ((releaseDesc conf idx dmaAddr s).desc idx).rxd2 % 16 =
        if dmaAddr = dmaMappingError then (s.desc idx).rxd2 % 16 else prepAddr64 dmaAddr) := by
  simp only [releaseDesc, RxRing.setDesc, Function.update_self]
  by_cases old : conf.mt7628 = true
  · have narrow := conf.mt7628_dma old
    simp only [old, narrow, if_true]
    exact ⟨by decide, trivial, fun wide => absurd wide (by decide)⟩
  · simp only [old, Bool.false_eq_true, if_false]
    have small : (if conf.dma36bit = true then
        if dmaAddr = dmaMappingError then (s.desc idx).rxd2 &&& 0xf else prepAddr64 dmaAddr
        else 0) < 16 := by
      rw [prepAddr64_eq, and_fifteen]
      split_ifs <;> omega
    have word := written_rxd2 conf _ small
    refine ⟨word.2.2, word.2.1, fun wide => ?_⟩
    rw [word.1, if_pos wide, and_fifteen]

theorem releaseDesc_other (idx dmaAddr : Nat) (s : RxRing) (i : Nat) (other : i ≠ idx) :
    (releaseDesc conf idx dmaAddr s).desc i = s.desc i := Function.update_of_ne other ..

theorem releaseDesc_rxd1 (idx dmaAddr : Nat) (s : RxRing) :
    ((releaseDesc conf idx dmaAddr s).desc idx).rxd1 = (s.desc idx).rxd1 := by
  simp only [releaseDesc, RxRing.setDesc, Function.update_self]

/-- A slot that keeps its buffer keeps the buffer's address. -/
theorem releaseDesc_kept (idx : Nat) (s : RxRing) (below : idx < rxSize conf)
    (owned : SlotsOwned conf s) :
    SlotsOwned conf (releaseDesc conf idx dmaMappingError s) := by
  apply owned.same_addr s (releaseDesc conf idx dmaMappingError s).desc idx below
  intro i
  by_cases here : i = idx
  · subst here
    have word := (@releaseDesc_rxd2 conf i dmaMappingError s).2.2
    rw [if_pos rfl] at word
    unfold descAddr
    rw [releaseDesc_rxd1]
    split_ifs with wide
    · rw [getAddr64_congr _ _ (word wide)]
    · rfl
  · rw [releaseDesc_other idx dmaMappingError s i here]

theorem releaseDesc_lengths (idx dmaAddr : Nat) (s s' : RxRing) (lengths : LengthsOrLso conf s)
    (others : ∀ i, i ≠ idx → s'.desc i = s.desc i) :
    LengthsOrLso conf (releaseDesc conf idx dmaAddr s') := by
  intro i below waits
  by_cases here : i = idx
  · subst here
    exact (releaseDesc_rxd2 i dmaAddr s').2.1
  · rw [releaseDesc_other idx dmaAddr s' i here, others i here] at waits ⊢
    exact lengths i below waits

/-- The invariant of a ring. -/
structure RingKept (conf : RxConf) (s : RxRing) : Prop extends SlotsOwned conf s where
  lengths : LengthsOrLso conf s

theorem pollRxOne_kept (t : RxTry conf) (s s' : RxRing) (ring : RingKept conf s)
    (handled : pollRxOne conf t s = some s') :
    RingKept conf s' ∧ s'.calcIdx = (s.calcIdx + 1) % rxSize conf := by
  unfold pollRxOne at handled
  rw [nextDespIdx_eq] at handled
  have below : (s.calcIdx + 1) % rxSize conf < rxSize conf := Nat.mod_lt _ (rxSize_pos conf)
  generalize (s.calcIdx + 1) % rxSize conf = idx at handled below ⊢
  dsimp only at handled
  split_ifs at handled with waits
  obtain rfl := Option.some.inj handled
  refine ⟨?_, rfl⟩
  have buffered := rxBuffer_cases t idx (s.desc idx) s
  generalize (rxBuffer conf t idx (s.desc idx) s).1 = dmaAddr at buffered ⊢
  generalize (rxBuffer conf t idx (s.desc idx) s).2 = after at buffered ⊢
  cases buffered with
  | kept =>
    exact ⟨releaseDesc_kept idx s below ring.toSlotsOwned,
      releaseDesc_lengths idx _ s s ring.lengths fun _ _ => rfl⟩
  | spared =>
    exact ⟨releaseDesc_kept idx _ below (ring.toSlotsOwned.spare s),
      releaseDesc_lengths idx _ s _ ring.lengths fun _ _ => rfl⟩
  | replaced addr after desc data next busAddr mapped gone =>
    have others : ∀ i, i ≠ idx → after.desc i = s.desc i := by
      intro i other
      rw [desc, Function.update_of_ne other]
    constructor
    · apply ring.toSlotsOwned.replace s _ idx addr below below
      · apply descAddr_split
        · rw [releaseDesc_rxd1, desc, Function.update_self]
        · intro wide
          have word := (releaseDesc_rxd2 idx addr after).2.2 wide
          rwa [if_neg (mapping_ne_error addr)] at word
      · intro i other
        rw [releaseDesc_other idx addr after i other, others i other]
      · exact data
      · exact next
      · exact busAddr
      · rw [← ring.addr idx below]
        exact mapped
      · exact gone
    · exact releaseDesc_lengths idx _ s after ring.lengths others

theorem arrive_kept (s : RxRing) (a : Arrival) (ring : RingKept conf s) :
    RingKept conf (arrive conf s a) ∧ (arrive conf s a).calcIdx = s.calcIdx := by
  refine ⟨⟨?_, ?_⟩, rfl⟩
  · apply ring.toSlotsOwned.same_addr s (arrive conf s a).desc s.calcIdx ring.idx
    intro i
    by_cases here : i = a.idx
    · subst here
      simp only [arrive, RxRing.setDesc, Function.update_self, descAddr]
      split_ifs with wide
      · rw [getAddr64_congr _ (s.desc a.idx).rxd2]
        rw [or_rxDmaDone_mod]
        omega
      · rfl
    · simp only [arrive, RxRing.setDesc, Function.update_of_ne here]
  · intro i below waits
    by_cases here : i = a.idx
    · subst here
      simp only [arrive, RxRing.setDesc, Function.update_self] at waits
      exact absurd waits (or_rxDmaDone _)
    · simp only [arrive, RxRing.setDesc, Function.update_of_ne here] at waits ⊢
      exact ring.lengths i below waits

theorem arrivals_kept (arrivals : List Arrival) (s : RxRing) (ring : RingKept conf s) :
    RingKept conf (arrivals.foldl (arrive conf) s) ∧
      (arrivals.foldl (arrive conf) s).calcIdx = s.calcIdx :=
  run_preserves (arrive conf) (fun after => RingKept conf after ∧ after.calcIdx = s.calcIdx)
    (fun after a kept => ⟨(arrive_kept after a kept.1).1,
      (arrive_kept after a kept.1).2.trans kept.2⟩) s arrivals ⟨ring, rfl⟩

theorem pollRx_kept (tries : Nat → RxTry conf) (left done : Nat) (s : RxRing)
    (ring : RingKept conf s) :
    RingKept conf (pollRx conf tries left done s).2 ∧
      ∃ handled ≤ left, (pollRx conf tries left done s).1 = done + handled ∧
        (pollRx conf tries left done s).2.calcIdx = (s.calcIdx + handled) % rxSize conf := by
  induction left generalizing done s with
  | zero =>
    exact ⟨ring, 0, le_refl _, rfl, (Nat.mod_eq_of_lt ring.idx).symm⟩
  | succ left ih =>
    obtain ⟨arrived, same⟩ := arrivals_kept (tries done).arrivals s ring
    simp only [pollRx]
    cases handled : pollRxOne conf (tries done) ((tries done).arrivals.foldl (arrive conf) s) with
    | none =>
      exact ⟨arrived, 0, Nat.zero_le _, rfl, by rw [same]; exact (Nat.mod_eq_of_lt ring.idx).symm⟩
    | some after =>
      obtain ⟨kept, advanced⟩ := pollRxOne_kept (tries done) _ after arrived handled
      obtain ⟨rest, more, bound, total, last⟩ := ih (done + 1) after kept
      refine ⟨rest, more + 1, by omega, by dsimp only; omega, ?_⟩
      dsimp only
      rw [last, advanced, same, Nat.mod_add_mod]
      congr 1
      omega

theorem napiRx_nil (budget remainBudget : Nat) (tries : Nat → RxTry conf) (s : RxRing) :
    napiRx conf budget remainBudget tries [] s =
      if (pollRx conf tries remainBudget 0 s).1 = remainBudget then
        (budget, (pollRx conf tries remainBudget 0 s).2)
      else ((pollRx conf tries remainBudget 0 s).1 + budget - remainBudget,
        (pollRx conf tries remainBudget 0 s).2) := rfl

theorem napiRx_cons (budget remainBudget : Nat) (tries next : Nat → RxTry conf)
    (again : List (Nat → RxTry conf)) (s : RxRing) :
    napiRx conf budget remainBudget tries (next :: again) s =
      if (pollRx conf tries remainBudget 0 s).1 = remainBudget then
        (budget, (pollRx conf tries remainBudget 0 s).2)
      else napiRx conf budget (remainBudget - (pollRx conf tries remainBudget 0 s).1) next again
        (pollRx conf tries remainBudget 0 s).2 := rfl

theorem napiRx_kept (budget remainBudget : Nat) (tries : Nat → RxTry conf)
    (again : List (Nat → RxTry conf)) (s : RxRing) (ring : RingKept conf s)
    (remains : remainBudget ≤ budget) :
    RingKept conf (napiRx conf budget remainBudget tries again s).2 ∧
      ∃ handled ≤ remainBudget, (napiRx conf budget remainBudget tries again s).1 =
          budget - remainBudget + handled ∧
        (napiRx conf budget remainBudget tries again s).2.calcIdx =
          (s.calcIdx + handled) % rxSize conf := by
  induction again generalizing remainBudget tries s with
  | nil =>
    obtain ⟨kept, handled, bound, total, last⟩ := pollRx_kept tries remainBudget 0 s ring
    rw [napiRx_nil]
    split_ifs with all
    · exact ⟨kept, handled, bound, by dsimp only; omega, last⟩
    · exact ⟨kept, handled, bound, by dsimp only; omega, last⟩
  | cons next again ih =>
    obtain ⟨kept, handled, bound, total, last⟩ := pollRx_kept tries remainBudget 0 s ring
    rw [napiRx_cons]
    split_ifs with all
    · exact ⟨kept, handled, bound, by dsimp only; omega, last⟩
    · obtain ⟨rest, more, bound', total', last'⟩ :=
        ih (remainBudget - (pollRx conf tries remainBudget 0 s).1) next _ kept (by omega)
      refine ⟨rest, handled + more, by omega, by omega, ?_⟩
      rw [last', last, Nat.mod_add_mod]
      congr 1
      omega

/-- The first `k` buffers are allocated, none is mapped. -/
structure BuffersAllocated (k : Nat) (s : RxRing) : Prop where
  next : s.next = k
  data : ∀ i < k, s.data i = i
  mapped : ∀ a, s.mapped a = 0
  gone : s.handed ++ s.freed = []

theorem rxAllocBuffer_allocated (t : RxAllocTry conf) (k : Nat) (s s' : RxRing)
    (buffers : BuffersAllocated k s) (ok : rxAllocBuffer conf t s k = some s') :
    BuffersAllocated (k + 1) s' := by
  unfold rxAllocBuffer RxRing.alloc at ok
  cases noBuffer : t.noBuffer k with
  | true => simp [noBuffer] at ok
  | false =>
    simp only [noBuffer, Bool.false_eq_true, if_false] at ok
    obtain rfl := Option.some.inj ok
    constructor
    · exact congrArg (· + 1) buffers.next
    · intro i below
      dsimp only
      by_cases last : i = k
      · rw [last, Function.update_self, buffers.next]
      · rw [Function.update_of_ne last, buffers.data i (by omega)]
    · exact buffers.mapped
    · exact buffers.gone

/-- All buffers are allocated, and the first `k` slots are set up. -/
structure SlotsAllocated (conf : RxConf) (k : Nat) (s : RxRing) : Prop where
  next : s.next = rxSize conf
  data : ∀ i < rxSize conf, s.data i = i
  addr : ∀ i < k, descAddr conf (s.desc i) = s.busAddr i
  mapped : ∀ a, s.mapped a = ((Finset.range k).filter (fun i => s.busAddr i = a)).card
  gone : s.handed ++ s.freed = []
  lengths : ∀ i < k, if conf.mt7628 then (s.desc i).rxd2 = rxDmaLso
    else getPlen0 conf (s.desc i).rxd2 = bufSize conf

/-- What `mtk_rx_alloc` writes into a descriptor. -/
theorem rxAllocDesc_eq (t : RxAllocTry conf) (s s' : RxRing) (i : Nat)
    (ok : rxAllocDesc conf t s i = some s') : ∃ (addr : Fin (2 ^ dmaBits conf)) (rxd : RxDesc),
      s' = { s with
        busAddr := Function.update s.busAddr (s.data i) addr
        mapped := Function.update s.mapped addr (s.mapped addr + 1)
        desc := Function.update s.desc i rxd } ∧
      descAddr conf rxd = addr ∧
      if conf.mt7628 then rxd.rxd2 = rxDmaLso else getPlen0 conf rxd.rxd2 = bufSize conf := by
  unfold rxAllocDesc RxRing.map at ok
  cases mapping : t.mapping i with
  | none => simp [mapping] at ok
  | some addr =>
    simp only [mapping, mapping_ne_error, if_false] at ok
    refine ⟨addr, _, (Option.some.inj ok).symm, ?_, ?_⟩
    · apply descAddr_split
      · rfl
      · intro wide
        have new : conf.mt7628 = false := by
          by_contra old
          have narrow := conf.mt7628_dma (by simpa using old)
          rw [narrow] at wide
          cases wide
        simp only [new, wide, Bool.false_eq_true, if_false, if_true]
        exact (written_rxd2 conf (prepAddr64 addr) (by rw [prepAddr64_eq]; omega)).1
    · by_cases old : conf.mt7628 = true
      · have narrow := conf.mt7628_dma old
        simp only [old, narrow, Bool.false_eq_true, if_false, if_true]
      · simp only [old, Bool.false_eq_true, if_false]
        split_ifs
        · exact (written_rxd2 conf (prepAddr64 addr) (by rw [prepAddr64_eq]; omega)).2.1
        · have word := (written_rxd2 conf 0 (by decide)).2.1
          rwa [Nat.or_zero] at word

theorem rxAllocDesc_allocated (t : RxAllocTry conf) (k : Nat) (below : k < rxSize conf)
    (s s' : RxRing) (slots : SlotsAllocated conf k s) (ok : rxAllocDesc conf t s k = some s') :
    SlotsAllocated conf (k + 1) s' := by
  obtain ⟨addr, rxd, rfl, here, length⟩ := rxAllocDesc_eq t s s' k ok
  have own := slots.data k below
  constructor
  · exact slots.next
  · exact slots.data
  · intro i bound
    dsimp only
    rw [own]
    by_cases last : i = k
    · rw [last, Function.update_self, Function.update_self, here]
    · rw [Function.update_of_ne last, Function.update_of_ne last, slots.addr i (by omega)]
  · intro a
    have count := card_update_last (· = a) s.busAddr k addr
    dsimp only
    rw [own, Function.update_apply, slots.mapped, slots.mapped]
    by_cases same : a = addr
    · subst same
      rw [if_pos rfl] at count ⊢
      omega
    · rw [if_neg (Ne.symm same)] at count
      rw [if_neg same]
      omega
  · exact slots.gone
  · intro i bound
    dsimp only
    by_cases last : i = k
    · rw [last, Function.update_self]
      exact length
    · rw [Function.update_of_ne last]
      exact slots.lengths i (by omega)

theorem rxAlloc_kept (memory : Nat → RxDesc) (t : RxAllocTry conf) (s : RxRing)
    (ok : rxAlloc conf memory t = some s) : RingKept conf s ∧
      ∀ i < rxSize conf, if conf.mt7628 then (s.desc i).rxd2 = rxDmaLso
        else getPlen0 conf (s.desc i).rxd2 = bufSize conf := by
  unfold rxAlloc at ok
  split_ifs at ok with noData noRing
  · obtain ⟨_, -, ok⟩ := Option.bind_eq_some_iff.mp ok
    cases ok
  obtain ⟨filled, first, ok⟩ := Option.bind_eq_some_iff.mp ok
  obtain ⟨mapped, second, ok⟩ := Option.bind_eq_some_iff.mp ok
  obtain rfl := Option.some.inj ok
  have buffers : BuffersAllocated (rxSize conf) filled := by
    apply foldlM_range_invariant (rxAllocBuffer conf t) BuffersAllocated _ _ _ _ _ first
    · exact ⟨rfl, fun i below => absurd below (Nat.not_lt_zero i), fun _ => rfl, rfl⟩
    · exact fun k _ s s' => rxAllocBuffer_allocated t k s s'
  have slots : SlotsAllocated conf (rxSize conf) mapped := by
    apply foldlM_range_invariant (rxAllocDesc conf t) (SlotsAllocated conf) _ _ _ _ _ second
    · constructor
      · exact buffers.next
      · exact buffers.data
      · exact fun i below => absurd below (Nat.not_lt_zero i)
      · intro a
        rw [buffers.mapped]
        rfl
      · exact buffers.gone
      · exact fun i below => absurd below (Nat.not_lt_zero i)
    · exact fun k below s s' => rxAllocDesc_allocated t k below s s'
  have addrs : ∀ i < rxSize conf, mapped.busAddr (mapped.data i) = mapped.busAddr i := by
    intro i below
    rw [slots.data i below]
  refine ⟨⟨⟨?_, ?_, ?_, ?_, ?_, ?_, ?_⟩, ?_⟩, slots.lengths⟩
  · exact Nat.sub_lt (rxSize_pos conf) Nat.one_pos
  · intro i below
    rw [addrs i below]
    exact slots.addr i below
  · intro a
    rw [slots.mapped]
    congr 2
    apply Finset.filter_congr
    intro i member
    rw [addrs i (Finset.mem_range.mp member)]
  · intro i below j below' equal
    rwa [slots.data i below, slots.data j below'] at equal
  · intro i _
    rw [slots.gone]
    exact List.not_mem_nil
  · rw [slots.gone]
    exact List.nodup_nil
  · intro b
    rw [slots.gone, slots.next]
    constructor
    · exact fun below => .inr ⟨b, below, slots.data b below⟩
    · rintro (gone | ⟨i, below, same⟩)
      · cases gone
      · rwa [← same, slots.data i below]
  · exact fun i below _ => slots.lengths i below

theorem rxStep_kept (s : RxRing) (event : RxEvent conf) (ring : RingKept conf s) :
    RingKept conf (rxStep conf s event) := by
  cases event with
  | arrive arrival => exact (arrive_kept s arrival ring).1
  | napi budget first again =>
    exact (napiRx_kept budget budget first again s ring (le_refl _)).1

end Steps

/-- In every run of a ring that was allocated, each slot owns a buffer that is mapped where the
descriptor says, with its length unless the chip is an MT7628; and each poll moves on by as many
slots as it reports, within its budget. -/
theorem rx_ring_owned (conf : RxConf) (memory : Nat → RxDesc) (t : RxAllocTry conf)
    (start : RxRing) (ok : rxAlloc conf memory t = some start) (events : List (RxEvent conf)) :
    let s := run (rxStep conf) start events
    SlotsOwned conf s ∧ (conf.mt7628 = false → LengthsSet conf s) ∧
      (∀ t s', pollRxOne conf t s = some s' → s'.calcIdx = (s.calcIdx + 1) % rxSize conf) ∧
      ∀ budget first again, let polled := napiRx conf budget budget first again s
        polled.1 ≤ budget ∧ polled.2.calcIdx = (s.calcIdx + polled.1) % rxSize conf := by
  have ring : RingKept conf (run (rxStep conf) start events) :=
    run_preserves (rxStep conf) (RingKept conf) rxStep_kept start events
      (rxAlloc_kept memory t start ok).1
  refine ⟨ring.toSlotsOwned, ?_, ?_, ?_⟩
  · intro new i below waits
    have length := ring.lengths i below waits
    rwa [if_neg (by simp [new])] at length
  · exact fun t s' handled => (pollRxOne_kept t _ s' ring handled).2
  · intro budget first again
    obtain ⟨-, handled, bound, total, last⟩ :=
      napiRx_kept budget budget first again _ ring (le_refl _)
    dsimp only
    rw [total, last]
    exact ⟨by omega, by congr 2; omega⟩

section Chips

/-- The header constants of an arm64 kernel. -/
def arm64Skb : SkbLayout :=
  { netSkbPad := 64, netIpAlign := 0, smpCacheBytes := 64, sharedInfo := 320
    cache := by decide, small := by decide }

def mt7988 : RxSoc :=
  { mt7628 := false, netsysRxV2 := true, dma36bit := true, lenV2 := true, rxDmaSize := 1024
    mt7628_dma := by decide, rxDmaSize_pow := ⟨10, rfl⟩ }

def rt5350 : RxSoc :=
  { mt7628 := true, netsysRxV2 := false, dma36bit := false, lenV2 := false, rxDmaSize := 2048
    mt7628_dma := fun _ => rfl, rxDmaSize_pow := ⟨11, rfl⟩ }

/-- A ring for hardware LRO of 64 descriptors, with three interfaces. -/
def lroConf (soc : RxSoc) : RxConf :=
  { soc, arm64Skb with hwlro := true, macCount := 3, netdev := fun _ => true }

/-- Everything is granted, and the buffers are mapped below 16 MiB or, with 36 bits, above
4 GiB. -/
def granted (soc : RxSoc) : RxAllocTry (lroConf soc) :=
  { noData := false, noBuffer := fun _ => false, noRing := false
    mapping := fun i => some (Fin.ofNat _ (2 ^ 32 + i * 16384)) }

/-- The hardware fills the first descriptor; one poll keeps its buffer for want of memory. -/
def unserved : List (RxEvent (lroConf mt7988)) :=
  [.arrive ⟨0, 0, 0, 2 ^ 26⟩, .napi 2 (fun _ => ⟨[], false, true, none, false⟩) []]

theorem rx_ring_owned_unserved : ∃ start,
    rxAlloc (lroConf mt7988) (fun _ => default) (granted mt7988) = some start ∧
      SlotsOwned (lroConf mt7988) (run (rxStep (lroConf mt7988)) start unserved) := by
  obtain ⟨start, ok⟩ := Option.isSome_iff_exists.mp
    (by decide : (rxAlloc (lroConf mt7988) (fun _ => default) (granted mt7988)).isSome = true)
  exact ⟨start, ok, (rx_ring_owned _ _ _ start ok unserved).1⟩

/-- On the MT7628 the descriptors have no length from the start. -/
theorem rt5350_without_length : ¬∀ (conf : RxConf) (memory : Nat → RxDesc)
    (t : RxAllocTry conf) (start : RxRing), rxAlloc conf memory t = some start →
      ∀ events : List (RxEvent conf), LengthsSet conf (run (rxStep conf) start events) := by
  intro lengths
  obtain ⟨start, ok⟩ := Option.isSome_iff_exists.mp
    (by decide : (rxAlloc (lroConf rt5350) (fun _ => default) (granted rt5350)).isSome = true)
  have word : (start.desc 0).rxd2 = rxDmaLso :=
    (@rxAlloc_kept (lroConf rt5350) _ _ start ok).2 0 (by decide)
  have length := lengths _ _ _ start ok [] 0 (by decide)
  change (start.desc 0).rxd2 &&& rxDmaDone = 0 → _ at length
  change _ → getPlen0 (lroConf rt5350) (start.desc 0).rxd2 = _ at length
  rw [word] at length
  exact absurd (length (by decide)) (by decide)

end Chips

end Filogic.Eth
