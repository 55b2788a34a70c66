import Filogic.Nmbm.InfoTable

/-! The search for the signature, on every lower device that `nmbm_check_lower_members` lets pass: pages,
blocks and the chip are powers of two in no order, and the block count is what 32 bits keep of it. -/

namespace Filogic.Nmbm
open Lib

/-- The members of `struct nmbm_lower_device` that are not callbacks, and which of the callbacks that it
must have are there. -/
structure LowerDevice where
  size : Nat
  erasesize : Nat
  writesize : Nat
  oobsize : Nat
  maxRatio : Nat
  maxReservedBlocks : Nat
  readOnly : Bool
  readPage : Bool
  writePage : Bool
  eraseBlock : Bool
  size_lt : size < 2 ^ 64
  erasesize_lt : erasesize < 2 ^ 32
  writesize_lt : writesize < 2 ^ 32
  deriving DecidableEq

/-- `is_power_of_2` and `is_power_of_2_u64` -/
def isPowerOf2 (n : Nat) : Prop := n ≠ 0 ∧ n &&& (n - 1) = 0

instance (n : Nat) : Decidable (isPowerOf2 n) := inferInstanceAs (Decidable (_ ∧ _))

namespace LowerDevice

/-- `nmbm_check_lower_members`: a ratio of zero becomes one. -/
def checkMembers (nld : LowerDevice) : Option LowerDevice :=
  if nld.size = 0 ∨ ¬isPowerOf2 nld.size then none
  else if nld.erasesize = 0 ∨ ¬isPowerOf2 nld.erasesize then none
  else if nld.writesize = 0 ∨ ¬isPowerOf2 nld.writesize then none
  else if nld.oobsize = 0 then none
  else if nld.readPage = false then none
  else if nld.readOnly = false ∧ (nld.writePage = false ∨ nld.eraseBlock = false) then none
  else
    let nld := { nld with maxRatio := if nld.maxRatio = 0 then 1 else nld.maxRatio }
    if 15 ≤ nld.maxRatio then none
    else if nld.maxReservedBlocks ≠ 0 ∧ nld.maxReservedBlocks < 32 then none
    else some nld

variable (nld : LowerDevice)

/-- `ni->erasesize_shift`: `ffs` of a power of two is one more than its logarithm. -/
def erasesizeShift : Nat := Nat.log2 nld.erasesize

/-- `ni->block_count`, an `uint32_t` -/
def blockCount : Nat := (nld.size >>> nld.erasesizeShift) % 2 ^ 32

def ba2addr (ba : Nat) : Nat := ba <<< nld.erasesizeShift

/-- The limit that `nmbm_find_signature` computes. -/
def signatureLimit : Nat :=
  let limit := nld.blockCount / 16 * (16 - nld.maxRatio)
  if nld.maxReservedBlocks ≠ 0 ∧ nld.maxReservedBlocks < nld.blockCount - limit then
    nld.blockCount - nld.maxReservedBlocks
  else limit

end LowerDevice

/-- The callbacks that the search uses, on a state of the device. A read hands back its code, the page
and the spare bytes. -/
structure LowerCalls (σ : Type) where
  readPage : Nat → Prog σ (Int × Bytes × Bytes)
  isBadBlock : Option (Nat → Prog σ Bool)
  resetChip : Prog σ Unit

/-- The device during a search, and the addresses that it was asked for, the last one first. -/
structure Looking (σ : Type) where
  device : σ
  asked : List Nat

section Model

variable {σ : Type}

/-- Call the device for an address. -/
def ask {α : Type} (addr : Nat) (call : Prog σ α) : Prog (Looking σ) α := fun s =>
  ((call.run s.device).1, { device := (call.run s.device).2, asked := addr :: s.asked })

/-- A call that is for no address. -/
def tell (call : Prog σ Unit) : Prog (Looking σ) Unit :=
  Prog.modify fun s => { s with device := (call.run s.device).2 }

/-- `nmbm_check_header`, with the byte step of `crc32_le` -/
def headerValid (crcByte : UInt32 → UInt8 → UInt32) (data : Bytes) (size : Nat) : Bool :=
  let hdrSize := (word32 data 8).toNat
  if size < hdrSize then false
  else
    let crc := ((data.memset 12 0 4).slice 0 headerSize).foldl crcByte 0
    let crc :=
      if headerSize < hdrSize then (data.slice headerSize (hdrSize - headerSize)).foldl crcByte crc
      else crc
    word32 data 12 = crc

theorem checkHeader_eq (env : Env) (data : Bytes) (size : Nat) :
    checkHeader env data size = headerValid env.crcByte data size := rfl

namespace LowerDevice

variable (nld : LowerDevice) (calls : LowerCalls σ) (crcByte : UInt32 → UInt8 → UInt32)

/-- The loop of `nmbm_read_phys_page` -/
def readPhysPageTries (addr : Nat) :
    (tries : Nat) → (last : Int × Bytes × Bytes) → Prog (Looking σ) (Int × Bytes × Bytes)
  | 0, last => return last
  | tries + 1, _ => do
    let got ← ask addr (calls.readPage addr)
    if 0 ≤ got.1 then return got
    else do
      tell calls.resetChip
      readPhysPageTries addr tries got

/-- `nmbm_read_phys_page` -/
def readPhysPage (addr : Nat) : Prog (Looking σ) (Int × Bytes × Bytes) :=
  readPhysPageTries calls addr 3 (0, fun _ => 0, fun _ => 0)

/-- `nmbm_check_bad_phys_block` -/
def checkBadPhysBlock (ba : Nat) : Prog (Looking σ) Bool := do
  let addr := nld.ba2addr ba
  match calls.isBadBlock with
  | some isBad => ask addr (isBad addr)
  | none =>
    let got ← readPhysPage calls addr
    return (got.1 < 0 && got.1 != -ebadmsg) || got.2.2 0 != 0xff

/-- The loop of `nmbn_read_data`; `fuel` bounds the bytes that remain. -/
def readDataFrom : (fuel off ptr remain : Nat) → Bytes → Prog (Looking σ) (Int × Bytes)
  | 0, _, _, _, buf => return (0, buf)
  | fuel + 1, off, ptr, remain, buf =>
    if remain = 0 then return (0, buf)
    else do
      let leading := off % nld.writesize
      let chunksize := min (nld.writesize - leading) remain
      let got ← readPhysPage calls (off - leading)
      if got.1 < 0 then return (got.1, buf)
      else
        readDataFrom fuel (off + chunksize) (ptr + chunksize) (remain - chunksize)
          (buf.memcpy ptr got.2.1 leading chunksize)

/-- The page loop of `nmbm_find_signature` over the block at `addr`. -/
def signaturePages (addr : Nat) : (fuel off : Nat) → Prog (Looking σ) (Option Signature)
  | 0, _ => return none
  | fuel + 1, off =>
    if nld.erasesize ≤ off then return none
    else do
      let got ← readDataFrom nld calls signatureSize (addr + off) 0 signatureSize (fun _ => 0)
      if got.1 = 0 ∧ headerValid crcByte got.2 signatureSize = true ∧
          word32 got.2 0 = magicSignature then
        return some (Signature.read got.2)
      else signaturePages addr fuel (off + nld.writesize)

/-- The loop of `nmbm_find_signature` from block `ba` down, none if `fuel` rounds do not end it. The
block address is an `uint32_t`. -/
def findSignatureFrom (limit : Nat) :
    (fuel ba : Nat) → Prog (Looking σ) (Option (Option (Signature × Nat)))
  | 0, _ => return none
  | fuel + 1, ba =>
    if ba < limit then return some none
    else do
      let ba := sub32 ba 1
      let bad ← checkBadPhysBlock nld calls ba
      if bad then findSignatureFrom limit fuel ba
      else do
        match ← signaturePages nld calls crcByte (nld.ba2addr ba) nld.erasesize 0 with
        | some signature => return some (some (signature, ba))
        | none => findSignatureFrom limit fuel ba

/-- `nmbm_find_signature` for `fuel` rounds. -/
def findSignature (fuel : Nat) : Prog (Looking σ) (Option (Option (Signature × Nat))) :=
  findSignatureFrom nld calls crcByte nld.signatureLimit fuel nld.blockCount

end LowerDevice

end Model

section OnChip

variable {σ : Type} {nld : LowerDevice} (calls : LowerCalls σ) (crcByte : UInt32 → UInt8 → UInt32)
  {good : Nat → Prop}

/-- All that was asked for is good. -/
def AllAsked (good : Nat → Prop) (s : Looking σ) : Prop := ∀ addr ∈ s.asked, good addr

theorem asked_good {α : Type} {addr : Nat} (call : Prog σ α) (here : good addr) :
    Triple (AllAsked good) (ask addr call) fun _ => AllAsked good := by
  intro s all other asked
  obtain rfl | old := List.mem_cons.mp asked
  · exact here
  · exact all other old

theorem told_good (call : Prog σ Unit) :
    Triple (AllAsked good) (tell call) fun _ => AllAsked good :=
  Triple.modify _ fun _ all => all

namespace LowerDevice

theorem readPhysPage_good {addr : Nat} (here : good addr) :
    Triple (AllAsked good) (readPhysPage calls addr) fun _ => AllAsked good := by
  rw [readPhysPage]
  generalize (3 : Nat) = tries
  generalize ((0, fun _ => 0, fun _ => 0) : Int × Bytes × Bytes) = last
  induction tries generalizing last with
  | zero => exact Triple.pure _ fun _ all => all
  | succ tries ih =>
    rw [readPhysPageTries]
    refine Triple.bind (asked_good (calls.readPage addr) here) fun got => ?_
    exact Triple.ite _ (fun _ => Triple.pure _ fun _ all => all)
      fun _ => Triple.bind (told_good calls.resetChip) fun _ => ih got

theorem checkBadPhysBlock_good {ba : Nat} (here : good (nld.ba2addr ba)) :
    Triple (AllAsked good) (checkBadPhysBlock nld calls ba) fun _ => AllAsked good := by
  rw [checkBadPhysBlock]
  cases calls.isBadBlock with
  | some isBad => exact asked_good (isBad _) here
  | none =>
    dsimp only
    exact Triple.bind (readPhysPage_good calls here) fun got => Triple.pure _ fun _ all => all

/-- Bytes from `off` on are read from the pages that hold one of them. -/
theorem readDataFrom_good (fuel off ptr remain : Nat) (buf : Bytes)
    (here : ∀ k < remain, good ((off + k) - (off + k) % nld.writesize)) :
    Triple (AllAsked good) (readDataFrom nld calls fuel off ptr remain buf) fun _ => AllAsked good := by
  induction fuel generalizing off ptr remain buf with
  | zero => exact Triple.pure _ fun _ all => all
  | succ fuel ih =>
    rw [readDataFrom]
    refine Triple.ite _ (fun _ => Triple.pure _ fun _ all => all) fun more => ?_
    dsimp only
    refine Triple.bind (readPhysPage_good calls (here 0 (Nat.pos_of_ne_zero more))) fun got => ?_
    refine Triple.ite _ (fun _ => Triple.pure _ fun _ all => all) fun _ => ?_
    apply ih
    intro k inside
    rw [Nat.add_assoc]
    exact here _ (by omega)

theorem signaturePages_good (addr fuel off : Nat)
    (here : ∀ page k, off + page * nld.writesize < nld.erasesize → k < signatureSize →
      good ((addr + (off + page * nld.writesize) + k) -
        (addr + (off + page * nld.writesize) + k) % nld.writesize)) :
    Triple (AllAsked good) (signaturePages nld calls crcByte addr fuel off) fun _ => AllAsked good := by
  induction fuel generalizing off with
  | zero => exact Triple.pure _ fun _ all => all
  | succ fuel ih =>
    rw [signaturePages]
    refine Triple.ite _ (fun _ => Triple.pure _ fun _ all => all) fun inside => ?_
    have first (k : Nat) (within : k < signatureSize) :
        good ((addr + off + k) - (addr + off + k) % nld.writesize) := by
      have := here 0 k (by omega) within
      rwa [Nat.zero_mul, Nat.add_zero] at this
    refine Triple.bind (readDataFrom_good calls signatureSize (addr + off) 0 signatureSize _ first)
      fun got => ?_
    refine Triple.ite _ (fun _ => Triple.pure _ fun _ all => all) fun _ => ?_
    apply ih
    intro page k more within
    have next : off + nld.writesize + page * nld.writesize = off + (page + 1) * nld.writesize := by
      rw [Nat.succ_mul]
      omega
    rw [next] at more ⊢
    exact here (page + 1) k more within

/-- With a limit above zero the block address stays below that of the block before, and above zero. -/
theorem findSignatureFrom_good {limit : Nat} (pos : 0 < limit) {bound : Nat} (small : bound < 2 ^ 32)
    (block : ∀ ba < bound, good (nld.ba2addr ba))
    (pages : ∀ ba < bound, ∀ page k, page * nld.writesize < nld.erasesize → k < signatureSize →
      good ((nld.ba2addr ba + page * nld.writesize + k) -
        (nld.ba2addr ba + page * nld.writesize + k) % nld.writesize))
    (fuel ba : Nat) (inside : ba ≤ bound) :
    Triple (AllAsked good) (findSignatureFrom nld calls crcByte limit fuel ba)
      fun _ => AllAsked good := by
  induction fuel generalizing ba with
  | zero => exact Triple.pure _ fun _ all => all
  | succ fuel ih =>
    rw [findSignatureFrom]
    refine Triple.ite _ (fun _ => Triple.pure _ fun _ all => all) fun more => ?_
    have next : sub32 ba 1 = ba - 1 := by
      simp only [sub32]
      omega
    dsimp only
    rw [next]
    refine Triple.bind (checkBadPhysBlock_good calls (block (ba - 1) (by omega))) fun bad => ?_
    refine Triple.ite _ (fun _ => ih (ba - 1) (by omega)) fun _ => ?_
    have own (page k : Nat) (here : 0 + page * nld.writesize < nld.erasesize)
        (within : k < signatureSize) :
        good ((nld.ba2addr (ba - 1) + (0 + page * nld.writesize) + k) -
          (nld.ba2addr (ba - 1) + (0 + page * nld.writesize) + k) % nld.writesize) := by
      rw [Nat.zero_add] at here ⊢
      exact pages (ba - 1) (by omega) page k here within
    refine Triple.bind (signaturePages_good calls crcByte _ nld.erasesize 0 own) fun found => ?_
    cases found with
    | some signature => exact Triple.pure _ fun _ all => all
    | none => exact ih (ba - 1) (by omega)

/-- And each round takes one block off. -/
theorem findSignatureFrom_ends {limit : Nat} (pos : 0 < limit) (fuel ba : Nat) (small : ba < 2 ^ 32)
    (enough : ba < limit + fuel) (s : Looking σ) :
    ((findSignatureFrom nld calls crcByte limit (fuel + 1) ba).run s).1.isSome := by
  induction fuel generalizing ba s with
  | zero =>
    rw [findSignatureFrom, if_pos (show ba < limit from enough)]
    rfl
  | succ fuel ih =>
    rw [findSignatureFrom]
    by_cases below : ba < limit
    · rw [if_pos below]
      rfl
    · have next : sub32 ba 1 = ba - 1 := by
        simp only [sub32]
        omega
      have rest := ih (ba - 1) (by omega) (by omega)
      rw [if_neg below]
      dsimp only
      rw [next, Prog.run_bind, Prog.run_ite]
      split_ifs
      · exact rest _
      · rw [Prog.run_bind]
        cases ((signaturePages nld calls crcByte (nld.ba2addr (ba - 1)) nld.erasesize 0).run _).1 with
        | some signature => rfl
        | none => exact rest _

end LowerDevice

end OnChip

section Accepted

namespace LowerDevice

/-- What `nmbm_check_lower_members` makes sure of. -/
structure Accepted (nld : LowerDevice) : Prop where
  size_pow : ∃ c, nld.size = 2 ^ c
  erasesize_pow : ∃ b, nld.erasesize = 2 ^ b
  writesize_pow : ∃ p, nld.writesize = 2 ^ p
  ratio_pos : 1 ≤ nld.maxRatio
  ratio_le : nld.maxRatio ≤ 14
  reserved : nld.maxReservedBlocks = 0 ∨ 32 ≤ nld.maxReservedBlocks

theorem pow_of_isPowerOf2 {n : Nat} (power : isPowerOf2 n) : ∃ k, n = 2 ^ k :=
  Nat.ne_zero_and_sub_one_eq_zero_iff_isPowerOfTwo.mp power

theorem accepted_of_check {nld lower : LowerDevice} (passed : nld.checkMembers = some lower) :
    lower.Accepted := by
  simp only [checkMembers, Option.ite_none_left_eq_some] at passed
  obtain ⟨size, erase, page, -, -, -, ratio, reserved, same⟩ := passed
  obtain rfl := Option.some.inj same
  constructor
  · exact pow_of_isPowerOf2 (not_not.mp (not_or.mp size).2)
  · exact pow_of_isPowerOf2 (not_not.mp (not_or.mp erase).2)
  · exact pow_of_isPowerOf2 (not_not.mp (not_or.mp page).2)
  · dsimp only
    split_ifs <;> omega
  · dsimp only
    omega
  · dsimp only
    omega

variable {nld : LowerDevice}

theorem Accepted.ba2addr_eq (accepted : nld.Accepted) (ba : Nat) :
    nld.ba2addr ba = ba * nld.erasesize := by
  obtain ⟨b, erase⟩ := accepted.erasesize_pow
  rw [ba2addr, erasesizeShift, Nat.shiftLeft_eq, erase, Nat.log2_two_pow]

theorem Accepted.blockCount_eq (accepted : nld.Accepted) :
    nld.blockCount = nld.size / nld.erasesize % 2 ^ 32 := by
  obtain ⟨b, erase⟩ := accepted.erasesize_pow
  rw [blockCount, erasesizeShift, Nat.shiftRight_eq_div_pow, erase, Nat.log2_two_pow]

/-- A block count above zero is the number of blocks. -/
theorem Accepted.blockCount_mul (accepted : nld.Accepted) (some : nld.blockCount ≠ 0) :
    nld.blockCount * nld.erasesize = nld.size := by
  have count := accepted.blockCount_eq
  obtain ⟨c, size⟩ := accepted.size_pow
  obtain ⟨b, erase⟩ := accepted.erasesize_pow
  rw [size, erase] at count ⊢
  have order : b ≤ c := by
    by_contra less
    rw [Nat.div_eq_of_lt (Nat.pow_lt_pow_right Nat.one_lt_two (by omega))] at count
    exact some count
  rw [Nat.pow_div order Nat.two_pos] at count
  have few : c - b < 32 := by
    by_contra many
    rw [Nat.mod_eq_zero_of_dvd (Nat.pow_dvd_pow 2 (by omega))] at count
    exact some count
  rw [count, Nat.mod_eq_of_lt (Nat.pow_lt_pow_right Nat.one_lt_two few), ← Nat.pow_add]
  congr 1
  omega

/-- The limit is zero exactly for fewer than sixteen blocks. -/
theorem Accepted.signatureLimit_pos (accepted : nld.Accepted) :
    0 < nld.signatureLimit ↔ 16 ≤ nld.blockCount := by
  have low := accepted.ratio_pos
  have high := accepted.ratio_le
  have share : 0 < nld.blockCount / 16 * (16 - nld.maxRatio) ↔ 16 ≤ nld.blockCount := by
    constructor
    · intro pos
      have := Nat.pos_of_mul_pos_right pos
      omega
    · intro many
      apply Nat.mul_pos <;> omega
  rw [signatureLimit]
  split_ifs with reserved
  · have := accepted.reserved
    omega
  · exact share

/-- The last page of the chip that the search may need for a signature on the last page of the last
block. -/
def lastSignaturePage (nld : LowerDevice) : Nat :=
  let last := nld.size - min nld.writesize nld.erasesize + (signatureSize - 1)
  last - last % nld.writesize

/-- A signature on any page of any block ends before that page does, or on it. -/
theorem Accepted.signaturePage_le (accepted : nld.Accepted) (some : nld.blockCount ≠ 0)
    {ba page k : Nat} (block : ba < nld.blockCount) (within : page * nld.writesize < nld.erasesize)
    (inside : k < signatureSize) :
    (nld.ba2addr ba + page * nld.writesize + k) -
      (nld.ba2addr ba + page * nld.writesize + k) % nld.writesize ≤ nld.lastSignaturePage := by
  have whole := accepted.blockCount_mul some
  obtain ⟨b, erase⟩ := accepted.erasesize_pow
  obtain ⟨p, write⟩ := accepted.writesize_pow
  have start : nld.ba2addr ba + nld.erasesize ≤ nld.size := by
    rw [accepted.ba2addr_eq, ← whole, ← Nat.succ_mul]
    exact Nat.mul_le_mul_right _ block
  have place : page * nld.writesize + min nld.writesize nld.erasesize ≤ nld.erasesize := by
    rw [erase, write] at within ⊢
    obtain order | order := Nat.le_total p b
    · obtain ⟨d, rfl⟩ := Nat.exists_eq_add_of_le order
      rw [Nat.min_eq_left (Nat.pow_le_pow_right Nat.two_pos order), Nat.pow_add, ← Nat.succ_mul,
        Nat.mul_comm (2 ^ p)] at *
      exact Nat.mul_le_mul_right _ (Nat.lt_of_mul_lt_mul_right within)
    · have wide : 2 ^ b ≤ 2 ^ p := Nat.pow_le_pow_right Nat.two_pos order
      have none : page = 0 := by
        by_contra more
        have := Nat.le_mul_of_pos_left (2 ^ p) (Nat.pos_of_ne_zero more)
        omega
      rw [none]
      omega
  have less : nld.ba2addr ba + page * nld.writesize + k ≤
      nld.size - min nld.writesize nld.erasesize + (signatureSize - 1) := by omega
  rw [lastSignaturePage, ← Nat.div_mul_self_eq_mod_sub_self, ← Nat.div_mul_self_eq_mod_sub_self]
  exact Nat.mul_le_mul_right _ (Nat.div_le_div_right less)

theorem Accepted.onChip_iff (accepted : nld.Accepted) (some : nld.blockCount ≠ 0) (addr : Nat) :
    addr / nld.erasesize < nld.blockCount ↔ addr < nld.size := by
  rw [← accepted.blockCount_mul some]
  obtain ⟨b, erase⟩ := accepted.erasesize_pow
  exact Nat.div_lt_iff_lt_mul (erase ▸ Nat.two_pow_pos b)

end LowerDevice

end Accepted

section Claim

variable {σ : Type} (crcByte : UInt32 → UInt8 → UInt32)

namespace LowerDevice

/-- The search ends, and asks for blocks of the chip only, however long it takes. -/
structure SearchStays (nld : LowerDevice) (calls : LowerCalls σ) (device : σ) : Prop where
  ends : ∃ fuel, ((findSignature nld calls crcByte fuel).run ⟨device, []⟩).1.isSome
  onChip : ∀ fuel, ∀ addr ∈ ((findSignature nld calls crcByte fuel).run ⟨device, []⟩).2.asked,
    addr / nld.erasesize < nld.blockCount

theorem searchStays_of {nld : LowerDevice} (accepted : nld.Accepted) (many : 16 ≤ nld.blockCount)
    (last : nld.lastSignaturePage < nld.size) (calls : LowerCalls σ) (device : σ) :
    nld.SearchStays crcByte calls device := by
  have pos := accepted.signatureLimit_pos.mpr many
  have small : nld.blockCount < 2 ^ 32 := Nat.mod_lt _ (by decide)
  have some : nld.blockCount ≠ 0 := by omega
  constructor
  · exact ⟨nld.blockCount + 1,
      findSignatureFrom_ends calls crcByte pos nld.blockCount nld.blockCount small (by omega) _⟩
  · intro fuel
    have block (ba : Nat) (inside : ba < nld.blockCount) :
        nld.ba2addr ba / nld.erasesize < nld.blockCount := by
      obtain ⟨b, erase⟩ := accepted.erasesize_pow
      rw [accepted.ba2addr_eq, Nat.mul_div_cancel _ (erase ▸ Nat.two_pow_pos b)]
      exact inside
    have pages (ba : Nat) (inside : ba < nld.blockCount) (page k : Nat)
        (within : page * nld.writesize < nld.erasesize) (span : k < signatureSize) :
        ((nld.ba2addr ba + page * nld.writesize + k) -
          (nld.ba2addr ba + page * nld.writesize + k) % nld.writesize) / nld.erasesize <
            nld.blockCount :=
      (accepted.onChip_iff some _).mpr
        ((accepted.signaturePage_le some inside within span).trans_lt last)
    exact findSignatureFrom_good calls crcByte pos small block pages fuel nld.blockCount le_rfl
      ⟨device, []⟩ fun _ none => absurd none List.not_mem_nil

/-- A device whose blocks are all good and hold zeros. -/
def zeroCalls : LowerCalls Unit where
  readPage _ := return (0, fun _ => 0, fun _ => 0)
  isBadBlock := some fun _ => return false
  resetChip := return ()

theorem zeroCalls_reads (addr : Nat) (s : Looking Unit) :
    (readPhysPage zeroCalls addr).run s =
      ((0, fun _ => 0, fun _ => 0), { s with asked := addr :: s.asked }) := rfl

/-- Bytes of zeros are read, the last one of them from its page, and what was asked for before stays. -/
theorem zeroCalls_readDataFrom (nld : LowerDevice) (page : 0 < nld.writesize)
    (fuel off ptr remain : Nat) (enough : remain ≤ fuel) (s : Looking Unit) :
    ∃ more, (readDataFrom nld zeroCalls fuel off ptr remain fun _ => 0).run s =
        ((0, fun _ => 0), { s with asked := more ++ s.asked }) ∧
      (remain ≠ 0 → (off + (remain - 1)) - (off + (remain - 1)) % nld.writesize ∈ more) := by
  induction fuel generalizing off ptr remain s with
  | zero => exact ⟨[], rfl, fun some => absurd (Nat.le_zero.mp enough) some⟩
  | succ fuel ih =>
    rw [readDataFrom]
    split_ifs with none
    · exact ⟨[], rfl, fun some => absurd none some⟩
    · have column := Nat.mod_lt off page
      have zeros (n : Nat) : Bytes.memcpy (fun _ => 0) ptr (fun _ => 0) (off % nld.writesize) n =
          fun _ => 0 := by
        funext k
        rw [Bytes.memcpy]
        split_ifs <;> rfl
      obtain ⟨more, run, last⟩ := ih (off + min (nld.writesize - off % nld.writesize) remain)
        (ptr + min (nld.writesize - off % nld.writesize) remain)
        (remain - min (nld.writesize - off % nld.writesize) remain) (by omega)
        { s with asked := (off - off % nld.writesize) :: s.asked }
      refine ⟨more ++ [off - off % nld.writesize], ?_, fun some => ?_⟩
      · dsimp only
        rw [Prog.run_bind, zeroCalls_reads]
        dsimp only
        rw [if_neg (by decide), zeros, run, List.append_assoc]
        rfl
      · by_cases all : remain ≤ nld.writesize - off % nld.writesize
        · apply List.mem_append_right
          rw [List.mem_singleton]
          have same : (off + (remain - 1)) / nld.writesize = off / nld.writesize := by
            rw [Nat.div_eq_iff page]
            have := Nat.div_add_mod off nld.writesize
            rw [Nat.mul_comm] at this
            omega
          have one := Nat.div_add_mod (off + (remain - 1)) nld.writesize
          have two := Nat.div_add_mod off nld.writesize
          rw [same] at one
          omega
        · apply List.mem_append_left
          have later := last (by omega)
          rwa [Nat.min_eq_left (by omega), show off + (nld.writesize - off % nld.writesize) +
            (remain - (nld.writesize - off % nld.writesize) - 1) = off + (remain - 1) by omega] at later

/-- No page holds a signature, and the last one is asked for as far as a signature there would reach. -/
theorem zeroCalls_signaturePages {nld : LowerDevice} (page : 0 < nld.writesize) (addr fuel off : Nat)
    (s : Looking Unit) :
    ∃ more, (signaturePages nld zeroCalls crcByte addr fuel off).run s =
        (none, { s with asked := more ++ s.asked }) ∧
      ∀ k, off + k * nld.writesize < nld.erasesize → k < fuel →
        (addr + (off + k * nld.writesize) + (signatureSize - 1)) -
          (addr + (off + k * nld.writesize) + (signatureSize - 1)) % nld.writesize ∈ more := by
  induction fuel generalizing off s with
  | zero => exact ⟨[], rfl, fun k _ none => absurd none (Nat.not_lt_zero k)⟩
  | succ fuel ih =>
    rw [signaturePages]
    split_ifs with behind
    · exact ⟨[], rfl, fun k more _ => absurd more (by omega)⟩
    · obtain ⟨read, run, last⟩ := zeroCalls_readDataFrom nld page signatureSize (addr + off) 0
        signatureSize le_rfl s
      obtain ⟨more, rest, pages⟩ := ih (off + nld.writesize) { s with asked := read ++ s.asked }
      refine ⟨more ++ read, ?_, fun k inside early => ?_⟩
      · have unlike : ¬((0 : Int) = 0 ∧ headerValid crcByte (fun _ => 0) signatureSize = true ∧
            word32 (fun _ => 0) 0 = magicSignature) := fun same => absurd same.2.2 (by decide)
        rw [Prog.run_bind, run]
        dsimp only
        rw [if_neg unlike, rest, List.append_assoc]
      · cases k with
        | zero =>
          rw [Nat.zero_mul, Nat.add_zero]
          exact List.mem_append_right _ (last (by decide))
        | succ k =>
          have next : off + (k + 1) * nld.writesize = off + nld.writesize + k * nld.writesize := by
            rw [Nat.succ_mul]
            omega
          rw [next] at inside ⊢
          exact List.mem_append_left _ (pages k inside (by omega))

/-- With a limit of zero the search goes on for ever: the block address wraps. -/
theorem zeroCalls_endless {nld : LowerDevice} (page : 0 < nld.writesize) (fuel ba : Nat)
    (s : Looking Unit) : ((findSignatureFrom nld zeroCalls crcByte 0 fuel ba).run s).1 = none := by
  induction fuel generalizing ba s with
  | zero => rfl
  | succ fuel ih =>
    rw [findSignatureFrom, if_neg (Nat.not_lt_zero ba)]
    dsimp only
    rw [Prog.run_bind, show ((checkBadPhysBlock nld zeroCalls (sub32 ba 1)).run s).1 = false from rfl,
      if_neg Bool.false_ne_true, Prog.run_bind]
    obtain ⟨more, run, -⟩ := zeroCalls_signaturePages crcByte page (nld.ba2addr (sub32 ba 1))
      nld.erasesize 0 ((checkBadPhysBlock nld zeroCalls (sub32 ba 1)).run s).2
    rw [run]
    exact ih _ _

/-- The first round asks for the pages of a signature at the end of the chip. -/
theorem zeroCalls_asks_last {nld : LowerDevice} (accepted : nld.Accepted) (many : 16 ≤ nld.blockCount) :
    nld.lastSignaturePage ∈ ((findSignature nld zeroCalls crcByte 1).run ⟨(), []⟩).2.asked := by
  have whole := accepted.blockCount_mul (by omega)
  have small : nld.blockCount < 2 ^ 32 := Nat.mod_lt _ (by decide)
  obtain ⟨b, erase⟩ := accepted.erasesize_pow
  obtain ⟨p, write⟩ := accepted.writesize_pow
  have page : 0 < nld.writesize := write ▸ Nat.two_pow_pos p
  have block : 0 < nld.erasesize := erase ▸ Nat.two_pow_pos b
  have limit : ¬nld.blockCount < nld.signatureLimit := by
    have := accepted.ratio_pos
    have share : nld.blockCount / 16 * (16 - nld.maxRatio) ≤ nld.blockCount / 16 * 16 :=
      Nat.mul_le_mul_left _ (Nat.sub_le _ _)
    rw [signatureLimit]
    split_ifs <;> omega
  have last : ∃ k, k * nld.writesize < nld.erasesize ∧ k < nld.erasesize ∧
      k * nld.writesize + min nld.writesize nld.erasesize = nld.erasesize := by
    obtain order | order := Nat.le_total p b
    · obtain ⟨d, rfl⟩ := Nat.exists_eq_add_of_le order
      have pages : (2 ^ d - 1) * 2 ^ p + 2 ^ p = 2 ^ (p + d) := by
        rw [← Nat.succ_mul, Nat.succ_eq_add_one, Nat.sub_add_cancel (Nat.two_pow_pos d), Nat.pow_add,
          Nat.mul_comm]
      have wide : 2 ^ d ≤ 2 ^ (p + d) := Nat.pow_le_pow_right Nat.two_pos (by omega)
      have some : 0 < 2 ^ d := Nat.two_pow_pos d
      refine ⟨2 ^ d - 1, ?_, ?_, ?_⟩ <;> rw [write, erase] at * <;> omega
    · have wide : nld.erasesize ≤ nld.writesize := by
        rw [write, erase]
        exact Nat.pow_le_pow_right Nat.two_pos order
      exact ⟨0, by omega, block, by omega⟩
  obtain ⟨k, inside, early, end_⟩ := last
  have start : nld.ba2addr (nld.blockCount - 1) + nld.erasesize = nld.size := by
    rw [accepted.ba2addr_eq, ← whole, ← Nat.succ_mul]
    congr 1
    omega
  have next : sub32 nld.blockCount 1 = nld.blockCount - 1 := by
    simp only [sub32]
    omega
  obtain ⟨more, run, pages⟩ := zeroCalls_signaturePages crcByte page
    (nld.ba2addr (nld.blockCount - 1)) nld.erasesize 0
    ((checkBadPhysBlock nld zeroCalls (nld.blockCount - 1)).run ⟨(), []⟩).2
  rw [findSignature, findSignatureFrom, if_neg limit]
  dsimp only
  rw [next, Prog.run_bind,
    show ((checkBadPhysBlock nld zeroCalls (nld.blockCount - 1)).run ⟨(), []⟩).1 = false from rfl,
    if_neg Bool.false_ne_true, Prog.run_bind, run]
  apply List.mem_append_left
  have here := pages k (by omega) early
  rwa [show nld.ba2addr (nld.blockCount - 1) + (0 + k * nld.writesize) =
    nld.size - min nld.writesize nld.erasesize by omega] at here

/-- On a device that the driver accepts, the search ends and stays on the chip, whatever the device does,
exactly if the chip has sixteen blocks and a signature on its last page would end on the chip. -/
theorem search_stays_iff (crcByte : UInt32 → UInt8 → UInt32) {nld lower : LowerDevice}
    (passed : nld.checkMembers = some lower) :
    (∀ (σ : Type) (calls : LowerCalls σ) (device : σ), lower.SearchStays crcByte calls device) ↔
      16 ≤ lower.blockCount ∧ lower.lastSignaturePage < lower.size := by
  have accepted := accepted_of_check passed
  constructor
  · intro all
    obtain ⟨⟨fuel, ended⟩, inside⟩ := all Unit zeroCalls ()
    have many : 16 ≤ lower.blockCount := by
      by_contra few
      have zero : lower.signatureLimit = 0 :=
        Nat.eq_zero_of_not_pos fun pos => few (accepted.signatureLimit_pos.mp pos)
      obtain ⟨p, write⟩ := accepted.writesize_pow
      rw [findSignature, zero, zeroCalls_endless crcByte (write ▸ Nat.two_pow_pos p)] at ended
      exact absurd ended Bool.false_ne_true
    exact ⟨many, (accepted.onChip_iff (by omega) _).mp
      (inside 1 _ (zeroCalls_asks_last crcByte accepted many))⟩
  · exact fun ok σ calls device => searchStays_of crcByte accepted ok.1 ok.2 calls device

/-- A chip with pages of 2 KiB in blocks of 128 KiB. -/
def sampleDevice (chipShift : Fin 64) : LowerDevice where
  size := 2 ^ chipShift.val
  erasesize := 2 ^ 17
  writesize := 2 ^ 11
  oobsize := 64
  maxRatio := 1
  maxReservedBlocks := 0
  readOnly := false
  readPage := true
  writePage := true
  eraseBlock := true
  size_lt := Nat.pow_lt_pow_right Nat.one_lt_two chipShift.isLt
  erasesize_lt := by decide
  writesize_lt := by decide

/-- 128 MiB. -/
theorem search_stays_sample :
    (sampleDevice 27).SearchStays (fun crc _ => crc) zeroCalls () := by
  have passed : (sampleDevice 27).checkMembers = some (sampleDevice 27) := by decide +kernel
  exact (search_stays_iff (fun crc _ => crc) passed).mpr ⟨by decide +kernel, by decide +kernel⟩
    Unit zeroCalls ()

/-- 1 MiB, all of it zeros: the search does not end. -/
theorem search_endless :
    ¬∀ (crcByte : UInt32 → UInt8 → UInt32) (nld lower : LowerDevice), nld.checkMembers = some lower →
      ∀ (σ : Type) (calls : LowerCalls σ) (device : σ), lower.SearchStays crcByte calls device := by
  intro all
  obtain ⟨fuel, ended⟩ := (all (fun crc _ => crc) (sampleDevice 20) (sampleDevice 20)
    (by decide +kernel) Unit zeroCalls ()).ends
  have zero : (sampleDevice 20).signatureLimit = 0 := by decide +kernel
  rw [findSignature, zero, zeroCalls_endless _ (by decide)] at ended
  exact absurd ended Bool.false_ne_true

end LowerDevice

end Claim

end Filogic.Nmbm
