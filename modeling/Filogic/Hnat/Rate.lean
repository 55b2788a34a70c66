import Filogic.Lib.Scaled

/-! `hnat_debugfs.c`: the rates of the QDMA schedulers and queues, which the registers keep as a
coefficient of seven bits and a power of ten of four. -/

namespace Filogic.Hnat.Rate
open Lib

def numOfQPerPage : Nat := 16
def mtkQdmaTxNum : Nat := 16
def mtkQdmaTxSchMask : BitVec 32 := 0xffff

/-- `QTX_CFG_PAGE` -/
def qtxCfgPage : BitVec 32 := 0xf

/-- `QDMA_TX_2SCH_BASE` and `QDMA_TX_4SCH_BASE(x)`, each with two schedulers -/
inductive SchReg where
  | sch2
  | sch4 (pair : Nat)
  deriving DecidableEq, Repr

/-- The registers of the QDMA, those of the queues by page and place. -/
structure Qdma where
  page : BitVec 32
  sch : SchReg → BitVec 32
  qtxCfg : Nat × Nat → BitVec 32
  qtxSch : Nat × Nat → BitVec 32

/-- What `sscanf` stores of a line for a scheduler. -/
structure SchedLine where
  enable : Int
  scheduling : String
  rate : Int
  deriving DecidableEq, Repr

/-- What `sscanf` stores of a line for a queue. -/
structure QueueLine where
  scheduler : Int
  minEnable : Int
  minRate : Int
  maxEnable : Int
  maxRate : Int
  weight : Int
  resv : Int
  deriving DecidableEq, Repr

/-- What a write finds: its length, whether the bytes could be copied, and the line when all its
fields could be read. -/
structure Written (Line : Type) where
  length : Nat
  copied : Bool
  line : Option Line

section Code

/-- `cr_set_field` of `QTX_CFG_PAGE` -/
def setPage (page : Nat) (q : Qdma) : Qdma :=
  { q with page := (q.page &&& ~~~qtxCfgPage) ||| BitVec.ofNat 32 page }

/-- The queue register that a place stands for, on the page that is selected. -/
def Qdma.at (q : Qdma) (id : Nat) : Nat × Nat :=
  ((q.page &&& qtxCfgPage).toNat, id % numOfQPerPage)

/-- `while (rate > 127)` -/
def scaleRate (rate exp : Nat) : Nat × Nat :=
  if 127 < rate then scaleRate (rate / 10) (exp + 1) else (rate, exp)
termination_by rate

/-- `while (exp--)` -/
def unscaleRate : Nat → BitVec 32 → BitVec 32
  | 0, rate => rate
  | exp + 1, rate => unscaleRate exp (rate * 10)

/-- The largest rate, with `CONFIG_MEDIATEK_NETSYS_V3` or without -/
def rateLimit (netsysV3 : Bool) : Int := if netsysV3 then 10000000 else 1000000

def rateRefused (netsysV3 : Bool) (rate : Int) : Prop := rate > rateLimit netsysV3 ∨ rate < 0

instance (netsysV3 : Bool) (rate : Int) : Decidable (rateRefused netsysV3 rate) :=
  inferInstanceAs (Decidable (_ ∨ _))

/-- A rate at its place in a register: `(rate & 0x7f) << (offset + 4) | (exp & 0xf) << offset` -/
def rateBits (offset rate exp : Nat) : BitVec 32 :=
  ((BitVec.ofNat 32 rate &&& 0x7f) <<< (offset + 4)) ||| ((BitVec.ofNat 32 exp &&& 0xf) <<< offset)

/-- A rate as it is read from its place in a register. -/
def shownRate (offset : Nat) (reg : BitVec 32) : Int :=
  (unscaleRate ((reg >>> offset) &&& 0xf).toNat ((reg >>> (offset + 4)) &&& 0x7f)).toInt

def flag (set : Prop) [Decidable set] (bit : BitVec 32) : BitVec 32 := if set then bit else 0

variable (netsysV3 : Bool) (numOfSch id : Nat)

def schReg : SchReg := if numOfSch = 4 then .sch4 (id / 2) else .sch2

/-- The place of a scheduler's half in its register. -/
def schShift : Nat := if id % 2 = 1 then 16 else 0

/-- A scheduler's half of its register -/
def schHalf (q : Qdma) : BitVec 32 :=
  (q.sch (schReg numOfSch id) >>> schShift id) &&& mtkQdmaTxSchMask

/-- The scheduler that a queue register names. -/
def schedulerOf (qtxSch : BitVec 32) : BitVec 32 :=
  if numOfSch = 4 then (qtxSch >>> 30) &&& 0x3 else (qtxSch >>> 31) &&& 0x1

/-- `val` of `hnat_sched_write` -/
def schVal (line : SchedLine) : BitVec 32 :=
  let (rate, exp) := scaleRate line.rate.toNat 0
  flag (line.enable ≠ 0) 0x800 ||| flag (line.scheduling ≠ "sp") 0x8000 ||| rateBits 0 rate exp

/-- `hnat_sched_write` from `readl` to `writel` -/
def updateSch (line : SchedLine) (q : Qdma) : Qdma :=
  let reg := schReg numOfSch id
  let qdmaTxSch := q.sch reg &&& ~~~(mtkQdmaTxSchMask <<< schShift id)
  let qdmaTxSch := qdmaTxSch ||| (schVal line <<< schShift id)
  { q with sch := Function.update q.sch reg qdmaTxSch }

/-- `hnat_sched_write` -/
def hnatSchedWrite (written : Written SchedLine) (q : Qdma) : Int × Qdma :=
  if written.length ≥ 64 then (-22, q)
  else if written.copied = false then (-14, q)
  else match written.line with
  | none => (-14, q)
  | some line =>
    if rateRefused netsysV3 line.rate then (-22, q)
    else (written.length, updateSch numOfSch id line q)

/-- The word that `hnat_queue_write` puts together for `QTX_SCH`. -/
def queueVal (line : QueueLine) : BitVec 32 :=
  let (maxRate, maxExp) := scaleRate line.maxRate.toNat 0
  let (minRate, minExp) := scaleRate line.minRate.toNat 0
  (if numOfSch = 4 then (BitVec.ofInt 32 line.scheduler &&& 0x3) <<< 30
    else (BitVec.ofInt 32 line.scheduler &&& 0x1) <<< 31) |||
  flag (line.minEnable ≠ 0) 0x8000000 ||| rateBits 16 minRate minExp |||
  flag (line.maxEnable ≠ 0) 0x800 ||| ((BitVec.ofInt 32 line.weight &&& 0xf) <<< 12) |||
  rateBits 0 maxRate maxExp

/-- `hnat_queue_write` from its first `writel` on -/
def updateQueue (line : QueueLine) (q : Qdma) : Qdma :=
  let q := { q with qtxSch := Function.update q.qtxSch (q.at id) (queueVal numOfSch line) }
  let resv := BitVec.ofInt 32 line.resv &&& 0xff
  let qtxCfg := (q.qtxCfg (q.at id) &&& 0xffff0000) ||| ((resv <<< 8) ||| resv)
  { q with qtxCfg := Function.update q.qtxCfg (q.at id) qtxCfg }

/-- `hnat_queue_write` -/
def hnatQueueWrite (written : Written QueueLine) (q : Qdma) : Int × Qdma :=
  let q := setPage (id / numOfQPerPage) q
  if written.length ≥ 64 then (-22, q)
  else if written.copied = false then (-14, q)
  else match written.line with
  | none => (-14, q)
  | some line =>
    if rateRefused netsysV3 line.maxRate ∨ rateRefused netsysV3 line.minRate then (-22, q)
    else (written.length, updateQueue numOfSch id line q)

/-- What `hnat_sched_show` prints. -/
structure SchedShown where
  enable : Bool
  wrr : Bool
  maxRate : Int
  queues : List Nat
  deriving DecidableEq, Repr

/-- The loop of `hnat_sched_show` over the queues. -/
def schedQueues : List Nat → Qdma → List Nat × Qdma
  | [], q => ([], q)
  | i :: rest, q =>
    let q := setPage (i / numOfQPerPage) q
    let (queues, after) := schedQueues rest q
    (if schedulerOf numOfSch (q.qtxSch (q.at i)) = BitVec.ofNat 32 id then i :: queues else queues,
      after)

/-- `hnat_sched_show` -/
def hnatSchedShow (q : Qdma) : SchedShown × Qdma :=
  let half := schHalf numOfSch id q
  let (queues, after) := schedQueues numOfSch id (List.range mtkQdmaTxNum) q
  ({ enable := half &&& 0x800 ≠ 0
     wrr := half &&& 0x8000 ≠ 0
     maxRate := shownRate 0 half
     queues := queues }, after)

/-- What `hnat_queue_show` prints of the settings; the packet counters, which the registers read as
in the debug mode that it enters and leaves, come after them. -/
structure QueueShown where
  scheduler : BitVec 32
  hwResv : BitVec 32
  swResv : BitVec 32
  maxRateEn : Bool
  maxRate : Int
  maxWeight : BitVec 32
  minRateEn : Bool
  minRate : Int
  deriving DecidableEq, Repr

/-- `hnat_queue_show` -/
def hnatQueueShow (q : Qdma) : QueueShown × Qdma :=
  let q := setPage (id / numOfQPerPage) q
  let qtxCfg := q.qtxCfg (q.at id)
  let qtxSch := q.qtxSch (q.at id)
  ({ scheduler := schedulerOf numOfSch qtxSch
     hwResv := (qtxCfg >>> 8) &&& 0xff
     swResv := qtxCfg &&& 0xff
     maxRateEn := qtxSch &&& 0x800 ≠ 0
     maxRate := shownRate 0 qtxSch
     maxWeight := (qtxSch >>> 12) &&& 0xf
     minRateEn := qtxSch &&& 0x8000000 ≠ 0
     minRate := shownRate 16 qtxSch }, q)

end Code

/-- The rate that a register holds at a place. -/
def programmed (offset : Nat) (reg : BitVec 32) : Nat :=
  ((reg >>> (offset + 4)) &&& 0x7f).toNat * 10 ^ ((reg >>> offset) &&& 0xf).toNat

/-- The rates between 127 and 130, or a power of ten times as much -/
def Gap (rate : Nat) : Prop := ∃ k, 128 * 10 ^ k ≤ rate ∧ rate < 130 * 10 ^ k

section Encoded

variable (netsysV3 : Bool) (numOfSch id length : Nat)

/-- A scheduler after an accepted line, and all the rest as it was. -/
structure SchedEncoded (line : SchedLine) (q after : Qdma) : Prop where
  best : BestScaled 10 127 line.rate.toNat (programmed 0 (schHalf numOfSch id after))
  monotone : ∀ id' line' q', ¬rateRefused netsysV3 line'.rate → line'.rate ≤ line.rate →
    programmed 0 (schHalf numOfSch id'
      (hnatSchedWrite netsysV3 numOfSch id' ⟨length, true, some line'⟩ q').2) ≤
        programmed 0 (schHalf numOfSch id after)
  shown : (hnatSchedShow numOfSch id after).1.maxRate = programmed 0 (schHalf numOfSch id after)
  schedulers : ∀ other < numOfSch, other ≠ id →
    schHalf numOfSch other after = schHalf numOfSch other q
  queues : after.qtxCfg = q.qtxCfg ∧ after.qtxSch = q.qtxSch

/-- The place of a queue's registers -/
def queueAt : Nat × Nat := (id / numOfQPerPage, id % numOfQPerPage)

/-- One of the two rates of a queue -/
structure QueueRate (offset : Nat) (rate : QueueLine → Int) (shown : QueueShown → Int)
    (line : QueueLine) (after : Qdma) : Prop where
  best : BestScaled 10 127 (rate line).toNat (programmed offset (after.qtxSch (queueAt id)))
  monotone : ∀ id' < mtkQdmaTxNum, ∀ line' q', ¬rateRefused netsysV3 line'.maxRate →
    ¬rateRefused netsysV3 line'.minRate → rate line' ≤ rate line →
    programmed offset ((hnatQueueWrite netsysV3 numOfSch id' ⟨length, true, some line'⟩ q').2.qtxSch
      (queueAt id')) ≤ programmed offset (after.qtxSch (queueAt id))
  shown : shown (hnatQueueShow numOfSch id after).1 = programmed offset (after.qtxSch (queueAt id))

/-- A queue after an accepted line, and all the rest as it was. -/
structure QueueEncoded (line : QueueLine) (q after : Qdma) : Prop where
  max : QueueRate netsysV3 numOfSch id length 0 QueueLine.maxRate QueueShown.maxRate line after
  min : QueueRate netsysV3 numOfSch id length 16 QueueLine.minRate QueueShown.minRate line after
  queues : ∀ other, other ≠ queueAt id →
    after.qtxCfg other = q.qtxCfg other ∧ after.qtxSch other = q.qtxSch other
  schedulers : after.sch = q.sch

end Encoded

section Scaling

/-- The rate that the loop's coefficient and exponent stand for -/
def encoded (rate : Nat) : Nat := (scaleRate rate 0).1 * 10 ^ (scaleRate rate 0).2

theorem scaleRate_cut (rate exp : Nat) (above : ∀ d < exp, 127 < rate / 10 ^ d) :
    ∃ e, scaleRate (rate / 10 ^ exp) exp = (rate / 10 ^ e, e) ∧ rate / 10 ^ e ≤ 127 ∧
      ∀ d < e, 127 < rate / 10 ^ d := by
  generalize cut : rate / 10 ^ exp = now
  fun_induction scaleRate now exp with
  | case1 now exp over_ ih =>
    apply ih
    · intro d below
      rcases Nat.lt_succ_iff_lt_or_eq.mp below with less | rfl
      · exact above d less
      · rwa [cut]
    · rw [pow_succ, ← Nat.div_div_eq_div_mul, cut]
  | case2 now exp fits => exact ⟨exp, by rw [cut], by omega, above⟩

theorem scaleRate_zero (rate : Nat) : ∃ e, scaleRate rate 0 = (rate / 10 ^ e, e) ∧
    rate / 10 ^ e ≤ 127 ∧ ∀ d < e, 127 < rate / 10 ^ d := by
  simpa using scaleRate_cut rate 0 (by simp)

theorem encoded_mem (rate : Nat) : encoded rate ∈ Scaled 10 127 ∧ encoded rate ≤ rate := by
  obtain ⟨e, same, fits, -⟩ := scaleRate_zero rate
  unfold encoded
  rw [same]
  exact ⟨⟨_, fits, e, rfl⟩, Nat.div_mul_le_self _ _⟩

/-- The gap of a rate lies at the exponent before the one at which it is cut. -/
theorem gap_iff (rate k : Nat) (fits : rate / 10 ^ (k + 1) ≤ 127) (least : 127 < rate / 10 ^ k) :
    Gap rate ↔ rate < 130 * 10 ^ k := by
  have power : 0 < 10 ^ k := Nat.pow_pos (by decide)
  have low : 128 * 10 ^ k ≤ rate := (Nat.le_div_iff_mul_le power).mp least
  have high : rate < 128 * 10 ^ (k + 1) :=
    (Nat.div_lt_iff_lt_mul (Nat.pow_pos (by decide))).mp (by omega)
  constructor
  · rintro ⟨j, above, below⟩
    rcases lt_trichotomy j k with less | rfl | more
    · have le : 10 ^ (j + 1) ≤ 10 ^ k := Nat.pow_le_pow_right (by decide) less
      omega
    · exact below
    · have le : 10 ^ (k + 1) ≤ 10 ^ j := Nat.pow_le_pow_right (by decide) more
      omega
  · exact fun below => ⟨k, low, below⟩

theorem bestScaled_encoded_iff (rate : Nat) :
    BestScaled 10 127 rate (encoded rate) ↔ ¬Gap rate := by
  obtain ⟨e, same, fits, least⟩ := scaleRate_zero rate
  unfold encoded
  rw [same]
  dsimp only
  cases e with
  | zero =>
    have small : rate ≤ 127 := by simpa using fits
    have none_ : ¬Gap rate := by
      rintro ⟨k, above, -⟩
      have power : 1 ≤ 10 ^ k := Nat.pow_pos (by decide)
      omega
    simpa [none_] using bestScaled_self small
  | succ k =>
    have cut := least k (by omega)
    have worth : 13 ≤ rate / 10 ^ (k + 1) ↔ 130 * 10 ^ k ≤ rate := by
      rw [Nat.le_div_iff_mul_le (Nat.pow_pos (by decide)), pow_succ]
      omega
    rw [bestScaled_truncated_iff (by decide) fits cut, gap_iff rate k fits cut, not_lt, ← worth]
    omega

/-- Accepted rates are cut within six steps. -/
theorem scaleRate_exp_lt (rate : Nat) (small : rate ≤ 10000000) : (scaleRate rate 0).2 < 6 := by
  obtain ⟨e, same, -, least⟩ := scaleRate_zero rate
  rw [same]
  by_contra many
  have cut := least 5 (by omega)
  have less : rate / 10 ^ 5 ≤ 10000000 / 10 ^ 5 := Nat.div_le_div_right small
  norm_num at less
  omega

theorem unscaleRate_toNat (exp : Nat) (rate : BitVec 32) :
    (unscaleRate exp rate).toNat = rate.toNat * 10 ^ exp % 2 ^ 32 := by
  induction exp generalizing rate with
  | zero => simp [unscaleRate, Nat.mod_eq_of_lt rate.isLt]
  | succ exp ih =>
    rw [unscaleRate, ih, BitVec.toNat_mul, pow_succ' 10 exp, ← mul_assoc]
    exact Nat.mod_mul_mod _ _ _

end Scaling

section Registers

/-- A word has no bits at the place of a rate. -/
def Clear (offset : Nat) (reg : BitVec 32) : Prop := (reg >>> offset) &&& 0x7ff = 0

instance (offset : Nat) (reg : BitVec 32) : Decidable (Clear offset reg) :=
  inferInstanceAs (Decidable (_ = _))

theorem programmed_or (offset : Nat) (a b : BitVec 32) (clear : Clear offset a) :
    programmed offset (a ||| b) = programmed offset b := by
  have exponent : (a >>> offset) &&& 0xf = 0 := by
    calc (a >>> offset) &&& 0xf = ((a >>> offset) &&& 0x7ff) &&& 0xf := by
          rw [BitVec.and_assoc]; rfl
      _ = 0 := by rw [clear]; rfl
  have coefficient : (a >>> (offset + 4)) &&& 0x7f = 0 := by
    calc (a >>> (offset + 4)) &&& 0x7f = ((a >>> offset) &&& 0x7ff) >>> 4 := by
          rw [BitVec.ushiftRight_and_distrib, ← BitVec.shiftRight_add]; rfl
      _ = 0 := by rw [clear]; rfl
  unfold programmed
  rw [BitVec.ushiftRight_or_distrib, BitVec.ushiftRight_or_distrib, BitVec.and_or_distrib_right,
    BitVec.and_or_distrib_right, exponent, coefficient]
  simp

theorem Clear.or {offset : Nat} {a b : BitVec 32} (left : Clear offset a) (right : Clear offset b) :
    Clear offset (a ||| b) := by
  unfold Clear at *
  rw [BitVec.ushiftRight_or_distrib, BitVec.and_or_distrib_right, left, right]
  rfl

/-- Bits at one place have none at another. -/
theorem clear_shiftLeft (offset place : Nat) (x mask : BitVec 32)
    (apart : ∀ i < 32, (0x7ff#32).getLsbD i = true →
      ¬(place ≤ i + offset ∧ mask.getLsbD (i + offset - place) = true)) :
    Clear offset ((x &&& mask) <<< place) := by
  apply BitVec.eq_of_getLsbD_eq
  intro i inside
  have none_ := apart i inside
  simp only [BitVec.getLsbD_and, BitVec.getLsbD_ushiftRight, BitVec.getLsbD_shiftLeft]
  rw [Nat.add_comm offset i]
  by_cases field : (0x7ff#32).getLsbD i = true
  · have outside := none_ field
    simp
    grind
  · simp
    grind

theorem coefficient_rateBits (offset : Nat) (place : offset = 0 ∨ offset = 16) (a b : BitVec 32) :
    (((a &&& 0x7f) <<< (offset + 4) ||| (b &&& 0xf) <<< offset) >>> (offset + 4)) &&& 0x7f =
      a &&& 0x7f := by
  rcases place with rfl | rfl
  all_goals
    ext i inside
    simp
    interval_cases i <;> simp

theorem exponent_rateBits (offset : Nat) (place : offset = 0 ∨ offset = 16) (a b : BitVec 32) :
    (((a &&& 0x7f) <<< (offset + 4) ||| (b &&& 0xf) <<< offset) >>> offset) &&& 0xf =
      b &&& 0xf := by
  rcases place with rfl | rfl
  all_goals
    ext i inside
    simp
    interval_cases i <;> simp

theorem toNat_masked (x width : Nat) (small : x < 2 ^ width) (inside : width ≤ 32) :
    (BitVec.ofNat 32 x &&& BitVec.ofNat 32 (2 ^ width - 1)).toNat = x := by
  have le : 2 ^ width ≤ 2 ^ 32 := Nat.pow_le_pow_right (by decide) inside
  have positive : 0 < 2 ^ width := Nat.pow_pos (by decide)
  rw [BitVec.toNat_and, BitVec.toNat_ofNat, BitVec.toNat_ofNat, Nat.mod_eq_of_lt (by omega),
    Nat.mod_eq_of_lt (show 2 ^ width - 1 < 2 ^ 32 by omega), Nat.and_two_pow_sub_one_eq_mod,
    Nat.mod_eq_of_lt small]

theorem programmed_rateBits (offset rate exp : Nat) (place : offset = 0 ∨ offset = 16)
    (coefficient : rate ≤ 127) (exponent : exp ≤ 15) :
    programmed offset (rateBits offset rate exp) = rate * 10 ^ exp := by
  have seven : (BitVec.ofNat 32 rate &&& 0x7f).toNat = rate :=
    toNat_masked rate 7 (by omega) (by decide)
  have four : (BitVec.ofNat 32 exp &&& 0xf).toNat = exp :=
    toNat_masked exp 4 (by omega) (by decide)
  rw [programmed, rateBits, coefficient_rateBits offset place, exponent_rateBits offset place,
    seven, four]

theorem clear_flag (offset : Nat) (set : Prop) [Decidable set] (bit : BitVec 32)
    (clear : Clear offset bit) : Clear offset (flag set bit) := by
  unfold flag
  split_ifs
  · exact clear
  · exact BitVec.eq_of_getLsbD_eq (by simp)

theorem clear_rateBits (offset place rate exp : Nat)
    (apart : offset = 0 ∧ place = 16 ∨ offset = 16 ∧ place = 0) :
    Clear offset (rateBits place rate exp) := by
  refine Clear.or (clear_shiftLeft _ _ _ _ ?_) (clear_shiftLeft _ _ _ _ ?_)
  all_goals
    rcases apart with ⟨rfl, rfl⟩ | ⟨rfl, rfl⟩ <;> decide

/-- What is programmed for a rate is what the loops make of it. -/
theorem programmed_scaled (offset rate : Nat) (place : offset = 0 ∨ offset = 16)
    (small : rate ≤ 10000000) :
    programmed offset (rateBits offset (scaleRate rate 0).1 (scaleRate rate 0).2) =
      encoded rate := by
  obtain ⟨e, same, fits, -⟩ := scaleRate_zero rate
  have few := scaleRate_exp_lt rate small
  rw [same] at few ⊢
  rw [programmed_rateBits offset _ _ place fits (by omega), encoded, same]

/-- The show functions multiply without overflow. -/
theorem shownRate_eq (offset : Nat) (reg : BitVec 32) (small : programmed offset reg < 2 ^ 31) :
    shownRate offset reg = programmed offset reg := by
  unfold shownRate
  have value := unscaleRate_toNat ((reg >>> offset) &&& 0xf).toNat
    ((reg >>> (offset + 4)) &&& 0x7f)
  rw [← programmed, Nat.mod_eq_of_lt (by omega)] at value
  rw [BitVec.toInt_eq_toNat_of_lt (by omega), value]

end Registers

section Writes

variable (netsysV3 : Bool) (numOfSch id length : Nat)

theorem toNat_le_of_accepted (rate : Int) (accepted : ¬rateRefused netsysV3 rate) :
    rate.toNat ≤ 10000000 := by
  unfold rateRefused rateLimit at accepted
  split at accepted <;> omega

theorem half_written (shift : Nat) (place : shift = 0 ∨ shift = 16) (reg val : BitVec 32)
    (low : val &&& mtkQdmaTxSchMask = val) :
    (((reg &&& ~~~(mtkQdmaTxSchMask <<< shift)) ||| (val <<< shift)) >>> shift) &&&
      mtkQdmaTxSchMask = val := by
  rw [← low]
  rcases place with rfl | rfl
  all_goals
    ext i inside
    simp [mtkQdmaTxSchMask]
    interval_cases i <;> simp

theorem half_kept (reg val : BitVec 32) (shift shift' : Nat)
    (apart : shift = 0 ∧ shift' = 16 ∨ shift = 16 ∧ shift' = 0)
    (low : val &&& mtkQdmaTxSchMask = val) :
    (((reg &&& ~~~(mtkQdmaTxSchMask <<< shift)) ||| (val <<< shift)) >>> shift') &&&
      mtkQdmaTxSchMask = (reg >>> shift') &&& mtkQdmaTxSchMask := by
  rw [← low]
  rcases apart with ⟨rfl, rfl⟩ | ⟨rfl, rfl⟩
  all_goals
    ext i inside
    simp [mtkQdmaTxSchMask]
    interval_cases i <;> simp

theorem schVal_low (line : SchedLine) : schVal line &&& mtkQdmaTxSchMask = schVal line := by
  have flagged (set : Prop) [Decidable set] (bit : BitVec 32) (low : bit &&& 0xffff = bit) :
      flag set bit &&& 0xffff = flag set bit := by
    unfold flag
    split_ifs
    · exact low
    · rfl
  have bits (a b : Nat) : rateBits 0 a b &&& 0xffff = rateBits 0 a b := by
    unfold rateBits
    ext i inside
    simp
    interval_cases i <;> simp
  unfold schVal mtkQdmaTxSchMask
  dsimp only
  rw [BitVec.and_or_distrib_right, BitVec.and_or_distrib_right, bits, flagged _ _ rfl,
    flagged _ _ rfl]

theorem programmed_schVal (line : SchedLine) (small : line.rate.toNat ≤ 10000000) :
    programmed 0 (schVal line) = encoded line.rate.toNat := by
  unfold schVal
  dsimp only
  have flags : Clear 0 (flag (line.enable ≠ 0) 0x800 ||| flag (line.scheduling ≠ "sp") 0x8000) :=
    Clear.or (clear_flag _ _ _ (by decide)) (clear_flag _ _ _ (by decide))
  rw [programmed_or _ _ _ flags, programmed_scaled 0 _ (.inl rfl) small]

theorem schShift_eq : schShift id = 0 ∨ schShift id = 16 := by
  unfold schShift
  split_ifs <;> simp

/-- An accepted line ends up in the half of its scheduler, and nowhere else. -/
theorem hnatSchedWrite_accepted (line : SchedLine) (q : Qdma) (short : length < 64)
    (accepted : ¬rateRefused netsysV3 line.rate) :
    hnatSchedWrite netsysV3 numOfSch id ⟨length, true, some line⟩ q =
      ((length : Int), updateSch numOfSch id line q) := by
  unfold hnatSchedWrite
  rw [if_neg (by simpa using short), if_neg (by simp)]
  dsimp only
  rw [if_neg accepted]

theorem schHalf_written (line : SchedLine) (q : Qdma) (short : length < 64)
    (accepted : ¬rateRefused netsysV3 line.rate) :
    schHalf numOfSch id (hnatSchedWrite netsysV3 numOfSch id ⟨length, true, some line⟩ q).2 =
      schVal line := by
  rw [hnatSchedWrite_accepted netsysV3 numOfSch id length line q short accepted, schHalf,
    updateSch]
  dsimp only
  rw [Function.update_self]
  exact half_written _ (schShift_eq id) _ _ (schVal_low line)

theorem schHalf_kept (line : SchedLine) (q : Qdma) (short : length < 64)
    (accepted : ¬rateRefused netsysV3 line.rate) (known : numOfSch = 2 ∨ numOfSch = 4)
    (inside : id < numOfSch) (other : Nat) (also : other < numOfSch) (differs : other ≠ id) :
    schHalf numOfSch other (hnatSchedWrite netsysV3 numOfSch id ⟨length, true, some line⟩ q).2 =
      schHalf numOfSch other q := by
  rw [hnatSchedWrite_accepted netsysV3 numOfSch id length line q short accepted, schHalf, schHalf,
    updateSch]
  dsimp only
  by_cases same : schReg numOfSch other = schReg numOfSch id
  · have halves : schShift id = 0 ∧ schShift other = 16 ∨
        schShift id = 16 ∧ schShift other = 0 := by
      unfold schReg at same
      unfold schShift
      rcases known with rfl | rfl
      · split_ifs <;> omega
      · simp only [if_true, SchReg.sch4.injEq] at same
        split_ifs <;> omega
    rw [same, Function.update_self]
    exact half_kept _ _ _ _ halves (schVal_low line)
  · rw [Function.update_of_ne same]

theorem programmed_sched (line : SchedLine) (q : Qdma) (short : length < 64)
    (accepted : ¬rateRefused netsysV3 line.rate) :
    programmed 0 (schHalf numOfSch id
      (hnatSchedWrite netsysV3 numOfSch id ⟨length, true, some line⟩ q).2) =
        encoded line.rate.toNat := by
  rw [schHalf_written netsysV3 numOfSch id length line q short accepted,
    programmed_schVal line (toNat_le_of_accepted netsysV3 _ accepted)]

theorem schedEncoded_iff (known : numOfSch = 2 ∨ numOfSch = 4) (inside : id < numOfSch)
    (short : length < 64) (line : SchedLine) (q : Qdma)
    (accepted : ¬rateRefused netsysV3 line.rate) :
    SchedEncoded netsysV3 numOfSch id length line q
      (hnatSchedWrite netsysV3 numOfSch id ⟨length, true, some line⟩ q).2 ↔
        ¬Gap line.rate.toNat := by
  have value := programmed_sched netsysV3 numOfSch id length line q short accepted
  have small := toNat_le_of_accepted netsysV3 _ accepted
  constructor
  · intro done
    have best := done.best
    rw [value] at best
    exact (bestScaled_encoded_iff _).mp best
  · intro outside
    have best := (bestScaled_encoded_iff _).mpr outside
    refine ⟨by rwa [value], ?_, ?_, ?_, ?_⟩
    · intro id' line' q' accepted' le
      rw [programmed_sched netsysV3 numOfSch id' length line' q' short accepted', value]
      obtain ⟨member, below⟩ := encoded_mem line'.rate.toNat
      exact best.le member (below.trans (Int.toNat_le_toNat le))
    · refine shownRate_eq 0 _ ?_
      rw [value]
      have below := (encoded_mem line.rate.toNat).2
      omega
    · exact schHalf_kept netsysV3 numOfSch id length line q short accepted known inside
    · rw [hnatSchedWrite_accepted netsysV3 numOfSch id length line q short accepted]
      exact ⟨rfl, rfl⟩

theorem selected_setPage (page : Nat) (q : Qdma) (small : page < 16) :
    ((setPage page q).page &&& qtxCfgPage).toNat = page := by
  have bits (mask old new : BitVec 32) (low : new &&& mask = new) :
      ((old &&& ~~~mask) ||| new) &&& mask = new := by
    rw [← low]
    ext i inside
    simp
    grind
  have masked := toNat_masked page 4 small (by decide)
  have low : BitVec.ofNat 32 page &&& 0xf = BitVec.ofNat 32 page := by
    apply BitVec.eq_of_toNat_eq
    rw [show (0xf : BitVec 32) = BitVec.ofNat 32 (2 ^ 4 - 1) from rfl, masked, BitVec.toNat_ofNat,
      Nat.mod_eq_of_lt (by omega)]
  have selected := bits qtxCfgPage q.page (BitVec.ofNat 32 page) low
  calc _ = (BitVec.ofNat 32 page).toNat := congrArg BitVec.toNat selected
    _ = page := by rw [← low]; exact masked

theorem at_setPage (q : Qdma) (inside : id < mtkQdmaTxNum) :
    (setPage (id / numOfQPerPage) q).at id = queueAt id := by
  unfold mtkQdmaTxNum at inside
  unfold Qdma.at queueAt
  rw [selected_setPage _ _ (by unfold numOfQPerPage; omega)]

theorem hnatQueueWrite_accepted (line : QueueLine) (q : Qdma) (short : length < 64)
    (max : ¬rateRefused netsysV3 line.maxRate) (min : ¬rateRefused netsysV3 line.minRate) :
    hnatQueueWrite netsysV3 numOfSch id ⟨length, true, some line⟩ q =
      ((length : Int), updateQueue numOfSch id line (setPage (id / numOfQPerPage) q)) := by
  unfold hnatQueueWrite
  dsimp only
  rw [if_neg (by simpa using short), if_neg (by simp), if_neg (by simp [max, min])]

/-- An accepted line writes the two registers of its queue. -/
theorem queue_written (line : QueueLine) (q : Qdma) (inside : id < mtkQdmaTxNum)
    (short : length < 64) (max : ¬rateRefused netsysV3 line.maxRate)
    (min : ¬rateRefused netsysV3 line.minRate) :
    let after := (hnatQueueWrite netsysV3 numOfSch id ⟨length, true, some line⟩ q).2
    after.qtxSch (queueAt id) = queueVal numOfSch line ∧ after.sch = q.sch ∧
      ∀ other, other ≠ queueAt id →
        after.qtxCfg other = q.qtxCfg other ∧ after.qtxSch other = q.qtxSch other := by
  dsimp only
  have place := at_setPage id q inside
  rw [hnatQueueWrite_accepted netsysV3 numOfSch id length line q short max min]
  unfold updateQueue
  dsimp only
  have again (regs) : Qdma.at { setPage (id / numOfQPerPage) q with qtxSch := regs } id =
      queueAt id := place
  rw [place, again, Function.update_self]
  refine ⟨rfl, rfl, fun other differs => ?_⟩
  rw [Function.update_of_ne differs, Function.update_of_ne differs]
  exact ⟨rfl, rfl⟩

theorem programmed_queueVal (line : QueueLine) (offset : Nat) (rate : QueueLine → Int)
    (which : offset = 0 ∧ rate = QueueLine.maxRate ∨ offset = 16 ∧ rate = QueueLine.minRate)
    (small : (rate line).toNat ≤ 10000000) :
    programmed offset (queueVal numOfSch line) = encoded (rate line).toNat := by
  have scheduler (offset : Nat) (place : offset = 0 ∨ offset = 16) : Clear offset
      (if numOfSch = 4 then (BitVec.ofInt 32 line.scheduler &&& 0x3) <<< 30
        else (BitVec.ofInt 32 line.scheduler &&& 0x1) <<< 31) := by
    split_ifs
    all_goals
      apply clear_shiftLeft
      rcases place with rfl | rfl <;> decide
  have weight (offset : Nat) (place : offset = 0 ∨ offset = 16) :
      Clear offset ((BitVec.ofInt 32 line.weight &&& 0xf) <<< 12) := by
    apply clear_shiftLeft
    rcases place with rfl | rfl <;> decide
  have flags (offset : Nat) (place : offset = 0 ∨ offset = 16) (set : Prop) [Decidable set] :
      Clear offset (flag set 0x8000000) ∧ Clear offset (flag set 0x800) := by
    constructor
    all_goals
      apply clear_flag
      rcases place with rfl | rfl <;> decide
  unfold queueVal
  dsimp only
  rcases which with ⟨rfl, rfl⟩ | ⟨rfl, rfl⟩
  · have zero : (0 : Nat) = 0 ∨ (0 : Nat) = 16 := .inl rfl
    rw [programmed_or _ _ _ ((((scheduler 0 zero).or (flags 0 zero _).1).or
      (clear_rateBits 0 16 _ _ (.inl ⟨rfl, rfl⟩))).or (flags 0 zero _).2 |>.or (weight 0 zero)),
      programmed_scaled 0 _ zero small]
  · have high : (16 : Nat) = 0 ∨ (16 : Nat) = 16 := .inr rfl
    rw [BitVec.or_assoc, BitVec.or_assoc, BitVec.or_assoc,
      programmed_or _ _ _ ((scheduler 16 high).or (flags 16 high _).1), BitVec.or_comm,
      programmed_or _ _ _ ((flags 16 high _).2.or ((weight 16 high).or
        (clear_rateBits 16 0 _ _ (.inr ⟨rfl, rfl⟩)))),
      programmed_scaled 16 _ high small]

/-- The queue registers that the show function reads are those that the write function wrote. -/
theorem queueShow_eq (q : Qdma) (inside : id < mtkQdmaTxNum) :
    (hnatQueueShow numOfSch id q).1.maxRate = shownRate 0 (q.qtxSch (queueAt id)) ∧
      (hnatQueueShow numOfSch id q).1.minRate = shownRate 16 (q.qtxSch (queueAt id)) := by
  have place := at_setPage id q inside
  unfold hnatQueueShow
  dsimp only
  rw [place]
  exact ⟨rfl, rfl⟩

theorem queueRate_iff (line : QueueLine) (q : Qdma) (inside : id < mtkQdmaTxNum)
    (short : length < 64) (max : ¬rateRefused netsysV3 line.maxRate)
    (min : ¬rateRefused netsysV3 line.minRate) (offset : Nat) (rate : QueueLine → Int)
    (shown : QueueShown → Int)
    (which : offset = 0 ∧ rate = QueueLine.maxRate ∧ shown = QueueShown.maxRate ∨
      offset = 16 ∧ rate = QueueLine.minRate ∧ shown = QueueShown.minRate) :
    QueueRate netsysV3 numOfSch id length offset rate shown line
      (hnatQueueWrite netsysV3 numOfSch id ⟨length, true, some line⟩ q).2 ↔
        ¬Gap (rate line).toNat := by
  have part : offset = 0 ∧ rate = QueueLine.maxRate ∨ offset = 16 ∧ rate = QueueLine.minRate := by
    rcases which with ⟨place, field, -⟩ | ⟨place, field, -⟩
    · exact .inl ⟨place, field⟩
    · exact .inr ⟨place, field⟩
  have limited (line' : QueueLine) (max' : ¬rateRefused netsysV3 line'.maxRate)
      (min' : ¬rateRefused netsysV3 line'.minRate) : (rate line').toNat ≤ 10000000 := by
    rcases part with ⟨-, rfl⟩ | ⟨-, rfl⟩
    · exact toNat_le_of_accepted netsysV3 _ max'
    · exact toNat_le_of_accepted netsysV3 _ min'
  have value (id' : Nat) (inside' : id' < mtkQdmaTxNum) (line' : QueueLine) (q' : Qdma)
      (max' : ¬rateRefused netsysV3 line'.maxRate) (min' : ¬rateRefused netsysV3 line'.minRate) :
      programmed offset ((hnatQueueWrite netsysV3 numOfSch id'
        ⟨length, true, some line'⟩ q').2.qtxSch (queueAt id')) = encoded (rate line').toNat := by
    rw [(queue_written netsysV3 numOfSch id' length line' q' inside' short max' min').1]
    exact programmed_queueVal numOfSch line' offset rate part (limited line' max' min')
  constructor
  · intro done
    have best := done.best
    rw [value id inside line q max min] at best
    exact (bestScaled_encoded_iff _).mp best
  · intro outside
    have best := (bestScaled_encoded_iff _).mpr outside
    refine ⟨by rwa [value id inside line q max min], ?_, ?_⟩
    · intro id' inside' line' q' max' min' le
      rw [value id' inside' line' q' max' min', value id inside line q max min]
      obtain ⟨member, below⟩ := encoded_mem (rate line').toNat
      exact best.le member (below.trans (Int.toNat_le_toNat le))
    · have exact_ := shownRate_eq offset
        ((hnatQueueWrite netsysV3 numOfSch id ⟨length, true, some line⟩ q).2.qtxSch (queueAt id)) (by
          have below := (encoded_mem (rate line).toNat).2
          have small := limited line max min
          rw [value id inside line q max min]
          omega)
      rw [← exact_]
      obtain ⟨highest, lowest⟩ := queueShow_eq numOfSch id
        (hnatQueueWrite netsysV3 numOfSch id ⟨length, true, some line⟩ q).2 inside
      rcases which with ⟨rfl, -, rfl⟩ | ⟨rfl, -, rfl⟩
      · exact highest
      · exact lowest

theorem queueEncoded_iff (inside : id < mtkQdmaTxNum) (short : length < 64) (line : QueueLine)
    (q : Qdma) (max : ¬rateRefused netsysV3 line.maxRate)
    (min : ¬rateRefused netsysV3 line.minRate) :
    QueueEncoded netsysV3 numOfSch id length line q
      (hnatQueueWrite netsysV3 numOfSch id ⟨length, true, some line⟩ q).2 ↔
        ¬Gap line.maxRate.toNat ∧ ¬Gap line.minRate.toNat := by
  have highest := queueRate_iff netsysV3 numOfSch id length line q inside short max min 0
    QueueLine.maxRate QueueShown.maxRate (.inl ⟨rfl, rfl, rfl⟩)
  have lowest := queueRate_iff netsysV3 numOfSch id length line q inside short max min 16
    QueueLine.minRate QueueShown.minRate (.inr ⟨rfl, rfl, rfl⟩)
  obtain ⟨-, schedulers, queues⟩ :=
    queue_written netsysV3 numOfSch id length line q inside short max min
  constructor
  · exact fun done => ⟨highest.mp done.max, lowest.mp done.min⟩
  · exact fun ⟨maxOut, minOut⟩ =>
      ⟨highest.mpr maxOut, lowest.mpr minOut, queues, schedulers⟩

end Writes

/-- An accepted line programs the best rates, in order and as they are shown, and changes nothing
else, exactly if no rate of it is in the gap. -/
theorem rates_encoded_iff (netsysV3 : Bool) (numOfSch length : Nat)
    (known : numOfSch = 2 ∨ numOfSch = 4) (short : length < 64) (q : Qdma) :
    (∀ id < numOfSch, ∀ line : SchedLine, ¬rateRefused netsysV3 line.rate →
      (SchedEncoded netsysV3 numOfSch id length line q
        (hnatSchedWrite netsysV3 numOfSch id ⟨length, true, some line⟩ q).2 ↔
          ¬Gap line.rate.toNat)) ∧
    (∀ id < mtkQdmaTxNum, ∀ line : QueueLine, ¬rateRefused netsysV3 line.maxRate →
      ¬rateRefused netsysV3 line.minRate →
      (QueueEncoded netsysV3 numOfSch id length line q
        (hnatQueueWrite netsysV3 numOfSch id ⟨length, true, some line⟩ q).2 ↔
          ¬Gap line.maxRate.toNat ∧ ¬Gap line.minRate.toNat)) :=
  ⟨fun id inside line accepted =>
    schedEncoded_iff netsysV3 numOfSch id length known inside short line q accepted,
    fun id inside line max min =>
      queueEncoded_iff netsysV3 numOfSch id length inside short line q max min⟩

/-- All registers at zero -/
def blank : Qdma := ⟨0, fun _ => 0, fun _ => 0, fun _ => 0⟩

theorem rates_encoded_thousand :
    SchedEncoded false 2 0 8 ⟨1, "sp", 1000⟩ blank
      (hnatSchedWrite false 2 0 ⟨8, true, some ⟨1, "sp", 1000⟩⟩ blank).2 :=
  ((rates_encoded_iff false 2 8 (.inl rfl) (by decide) blank).1 0 (by decide) ⟨1, "sp", 1000⟩
    (by decide)).mpr (by
      have none_ : ¬Gap 1000 := by
        rintro ⟨k, above, below⟩
        rcases Nat.lt_or_ge k 1 with zero | more
        · obtain rfl : k = 0 := by omega
          omega
        · have le : 10 ^ 1 ≤ 10 ^ k := Nat.pow_le_pow_right (by decide) more
          omega
      exact none_)

/-- For 1280 the scheduler gets 12 · 100, less than for 1279. -/
theorem thousand_two_hundred_eighty_programs_less :
    ¬∀ netsysV3 numOfSch length (_ : numOfSch = 2 ∨ numOfSch = 4) (_ : length < 64) id
      (_ : id < numOfSch) line q (_ : ¬rateRefused netsysV3 line.rate),
      SchedEncoded netsysV3 numOfSch id length line q
        (hnatSchedWrite netsysV3 numOfSch id ⟨length, true, some line⟩ q).2 := by
  intro all
  have best := (all false 2 9 (.inl rfl) (by decide) 0 (by decide) ⟨1, "sp", 1280⟩ blank
    (by decide)).best
  rw [programmed_sched false 2 0 9 _ blank (by decide) (by decide)] at best
  have fits : (127 * 10 ^ 1 : Nat) ∈ Scaled 10 127 := ⟨127, le_refl _, 1, rfl⟩
  have le := best.le fits (by decide)
  have value : encoded 1280 = 1200 := by
    have scaled : scaleRate 1280 0 = (12, 2) := by
      rw [scaleRate, if_pos (by decide), scaleRate, if_pos (by decide), scaleRate,
        if_neg (by decide)]
    rw [encoded, scaled]
    rfl
  change 1270 ≤ encoded 1280 at le
  omega

end Filogic.Hnat.Rate
