import Mathlib

/-! Counters of 64 bits that the switches count in two registers: `get_mib_counter` of
`mt753x_swconfig.c` and `an8855_get_ethtool_stats` of `an8855.c`. Time is counted in register
reads. -/

namespace Filogic.Mib

/-- A counter of the hardware by the time: it only grows, and by less than a word between two
reads. -/
structure Counter where
  value : Nat → Nat
  bound : ∀ t, value t < 2 ^ 64
  grows : ∀ t, value t ≤ value (t + 1)
  slow : ∀ t, value (t + 1) < value t + 2 ^ 32

namespace Counter

variable (c : Counter)

/-- The register at the offset of the counter -/
def low (t : Nat) : Nat := c.value t % 2 ^ 32

/-- The register behind it -/
def high (t : Nat) : Nat := c.value t / 2 ^ 32

theorem value_mono : Monotone c.value := monotone_nat_of_le_succ c.grows

theorem high_mono {t t' : Nat} (later : t ≤ t') : c.high t ≤ c.high t' :=
  Nat.div_le_div_right (c.value_mono later)

theorem high_lt (t : Nat) : c.high t < 2 ^ 32 := by
  have bound := c.bound t
  unfold high
  omega

theorem value_eq (t : Nat) : c.value t = c.high t * 2 ^ 32 + c.low t := by
  unfold high low
  omega

theorem low_lt (t : Nat) : c.low t < 2 ^ 32 := Nat.mod_lt _ (by decide)

end Counter

/-- `mt753x_mibs`, `an8855_mib` -/
structure MibDesc where
  size : Nat
  offset : Nat

/-- The counters of a port by their offsets. -/
abbrev Port := Nat → Counter

/-- `(hi << 32) | lo` -/
def joined (hi lo : Nat) : Nat := hi <<< 32 ||| lo

theorem joined_eq (hi lo : Nat) (bound : lo < 2 ^ 32) : joined hi lo = hi * 2 ^ 32 + lo := by
  rw [joined, ← Nat.shiftLeft_add_eq_or_of_lt bound, Nat.shiftLeft_eq]

/-- The loop of `get_mib_counter`: the value, and the time after the last read. It ends because the
upper word of a counter has an end. -/
def mibLoop (c : Counter) (t : Nat) : Nat × Nat :=
  let hi := c.high t
  let lo := c.low (t + 1)
  let hi2 := c.high (t + 2)
  if hi2 ≠ hi then mibLoop c (t + 3) else (joined hi lo, t + 3)
termination_by 2 ^ 32 - c.high t
decreasing_by
  have first := c.high_mono (show t ≤ t + 2 by omega)
  have next := c.high_mono (show t + 2 ≤ t + 3 by omega)
  have bound := c.high_lt (t + 3)
  omega

/-- `get_mib_counter` -/
def getMibCounter (port : Port) (mib : MibDesc) (t : Nat) : Nat × Nat :=
  if mib.size = 1 then ((port mib.offset).low t, t + 1) else mibLoop (port mib.offset) t

/-- One round of `an8855_get_ethtool_stats` -/
def ethtoolStat (port : Port) (mib : MibDesc) (t : Nat) : Nat × Nat :=
  let c := port mib.offset
  let data := c.low t
  if mib.size = 2 then (data ||| c.high (t + 1) <<< 32, t + 2) else (data, t + 1)

/-- `an8855_get_ethtool_stats` -/
def getEthtoolStats (port : Port) : List MibDesc → Nat → List Nat
  | [], _ => []
  | mib :: rest, t =>
      let (data, t) := ethtoolStat port mib t
      data :: getEthtoolStats port rest t

/-- What is reported is between the values at the first and at the last read. -/
def Reported (c : Counter) (first last data : Nat) : Prop := c.value first ≤ data ∧ data ≤ c.value last

/-- The counter does not carry from one word to the other between a read and the next. -/
def NoCarry (c : Counter) (t : Nat) : Prop := c.high (t + 1) = c.high t

/-- The value is that at the last read of the lower word. -/
theorem mibLoop_reported (c : Counter) (t : Nat) :
    t + 3 ≤ (mibLoop c t).2 ∧ Reported c t ((mibLoop c t).2 - 1) (mibLoop c t).1 := by
  induction t using mibLoop.induct c with
  | case1 t hi hi2 changed ih =>
    rw [mibLoop, if_pos changed]
    obtain ⟨later, least, most⟩ := ih
    exact ⟨by omega, le_trans (c.value_mono (by omega)) least, most⟩
  | case2 t hi hi2 same =>
    rw [mibLoop, if_neg same]
    have still : c.high (t + 2) = c.high t := by simpa using same
    have between : c.high (t + 1) = c.high t :=
      le_antisymm (still ▸ c.high_mono (by omega)) (c.high_mono (by omega))
    have value : joined (c.high t) (c.low (t + 1)) = c.value (t + 1) := by
      rw [joined_eq _ _ (c.low_lt _), c.value_eq (t + 1), between]
    refine ⟨le_rfl, ?_, ?_⟩
    · rw [value]
      exact c.value_mono (by omega)
    · rw [value]
      exact c.value_mono (by omega)

theorem getMibCounter_reported (port : Port) (mib : MibDesc) (wide : mib.size = 2) (t : Nat) :
    Reported (port mib.offset) t ((getMibCounter port mib t).2 - 1) (getMibCounter port mib t).1 := by
  have two : mib.size ≠ 1 := by omega
  rw [getMibCounter, if_neg two]
  exact (mibLoop_reported _ t).2

/-- The lower word is read first: a carry behind it counts for the upper word alone. -/
theorem ethtoolStat_reported_iff (port : Port) (mib : MibDesc) (wide : mib.size = 2) (t : Nat) :
    Reported (port mib.offset) t (t + 1) (ethtoolStat port mib t).1 ↔
      NoCarry (port mib.offset) t := by
  generalize chosen : port mib.offset = c
  have data : (ethtoolStat port mib t).1 = c.high (t + 1) * 2 ^ 32 + c.low t := by
    rw [ethtoolStat, if_pos wide, Nat.or_comm]
    dsimp only
    rw [chosen]
    exact joined_eq _ _ (c.low_lt t)
  have before := c.value_eq t
  have after := c.value_eq (t + 1)
  have fits := c.low_lt (t + 1)
  have slow := c.slow t
  have grows := c.high_mono (show t ≤ t + 1 by omega)
  rw [data]
  unfold Reported NoCarry
  constructor
  · rintro ⟨-, most⟩
    omega
  · intro same
    have ahead := c.grows t
    rw [same] at after ⊢
    omega

/-- The time at which the entry `i` is read. -/
def statTime (mibs : List MibDesc) (t i : Nat) : Nat :=
  t + ((mibs.take i).map fun mib => if mib.size = 2 then 2 else 1).sum

theorem getEthtoolStats_get (port : Port) (mibs : List MibDesc) (t i : Nat) :
    (getEthtoolStats port mibs t)[i]? =
      mibs[i]?.map fun mib => (ethtoolStat port mib (statTime mibs t i)).1 := by
  induction mibs generalizing t i with
  | nil => rfl
  | cons mib rest ih =>
    cases i with
    | zero => rfl
    | succ i =>
      have next : (ethtoolStat port mib t).2 = t + if mib.size = 2 then 2 else 1 := by
        unfold ethtoolStat
        split_ifs <;> rfl
      have later : statTime (mib :: rest) t (i + 1) =
          statTime rest (t + if mib.size = 2 then 2 else 1) i := by
        simp only [statTime, List.take_succ_cons, List.map_cons, List.sum_cons]
        omega
      rw [later, ← next]
      exact ih _ i

/-- Both reads of every wide counter report what it counted meanwhile just if none of the counters
carries between its two reads in `an8855_get_ethtool_stats`. -/
theorem wide_counters_reported_iff (port : Port) (mibs : List MibDesc) (t : Nat) :
    ((∀ mib ∈ mibs, mib.size = 2 → ∀ t, Reported (port mib.offset) t
          ((getMibCounter port mib t).2 - 1) (getMibCounter port mib t).1) ∧
        ∀ i mib, mibs[i]? = some mib → mib.size = 2 → ∃ data,
          (getEthtoolStats port mibs t)[i]? = some data ∧
          Reported (port mib.offset) (statTime mibs t i) (statTime mibs t i + 1) data) ↔
      ∀ i mib, mibs[i]? = some mib → mib.size = 2 →
        NoCarry (port mib.offset) (statTime mibs t i) := by
  constructor
  · rintro ⟨-, stats⟩ i mib here wide
    obtain ⟨data, found, reported⟩ := stats i mib here wide
    rw [getEthtoolStats_get, here] at found
    obtain rfl := Option.some.inj found
    exact (ethtoolStat_reported_iff port mib wide _).mp reported
  · intro still
    refine ⟨fun mib _ wide t => getMibCounter_reported port mib wide t, ?_⟩
    intro i mib here wide
    refine ⟨_, by rw [getEthtoolStats_get, here]; rfl, ?_⟩
    exact (ethtoolStat_reported_iff port mib wide _).mpr (still i mib here wide)

/-- A counter that carries right after the first read. -/
def carrying : Counter where
  value t := if t = 0 then 2 ^ 32 - 1 else 2 ^ 32
  bound t := by split_ifs <;> norm_num
  grows t := by
    rw [if_neg t.succ_ne_zero]
    split_ifs <;> norm_num
  slow t := by split_ifs <;> norm_num

/-- It is reported as twice of what it ever was. -/
theorem carrying_not_reported :
    getEthtoolStats (fun _ => carrying) [⟨2, 0x4c⟩] 0 = [2 ^ 33 - 1] ∧
      ¬ Reported carrying 0 1 (2 ^ 33 - 1) := by
  refine ⟨by decide, ?_⟩
  rintro ⟨-, most⟩
  revert most
  decide

end Filogic.Mib
