import Filogic.Snand.FreeBytes

/-! The placement of AUTO mode: what fills the free bytes, what takes them out again, and the regions
that the MTD layer is told about. -/

namespace Filogic.Snand
open Lib

variable (g : Geometry)

def erange : Int := 34

/-- `struct mtd_oob_region` -/
structure MtdOobRegion where
  offset : Nat
  length : Nat
  deriving DecidableEq, Repr

/-- `mtk_snand_ooblayout_free`: the section, an `int`, is compared as an unsigned number. -/
def ooblayoutFree (sect : Int) : Except Int MtdOobRegion :=
  let section_ := (sect % 2 ^ 32).toNat
  if g.eccSteps ≤ section_ then .error (-erange)
  else .ok { offset := section_ * g.soc.fdmSize + 1, length := g.soc.fdmSize - 1 }

/-- The regions that the MTD layer asks for one by one, from a section on, until it is told that there
is none. -/
def freeRegionsFrom : (tries sect : Nat) → List MtdOobRegion
  | 0, _ => []
  | tries + 1, sect =>
    match ooblayoutFree g sect with
    | .error _ => []
    | .ok region => region :: freeRegionsFrom tries (sect + 1)

/-- The bytes of regions, one region behind the other. -/
def regionBytes (regions : List MtdOobRegion) : List Nat :=
  regions.flatMap fun region => List.range' region.offset region.length

section Regions

theorem eccSteps_small : g.eccSteps < 2 ^ 32 := by
  have shift : g.writesizeShift ≤ 31 := by
    have := g.pageInBlock
    have := g.blockFits
    omega
  calc g.eccSteps ≤ g.eccSteps * g.soc.sectorSize := Nat.le_mul_of_pos_right _ g.sectorSize_pos
    _ = 2 ^ g.writesizeShift := g.pageSectors
    _ ≤ 2 ^ 31 := Nat.pow_le_pow_right (by decide) shift
    _ < 2 ^ 32 := by decide

theorem ooblayoutFree_of {sect : Nat} (small : sect < 2 ^ 32) :
    ooblayoutFree g sect =
      if g.eccSteps ≤ sect then .error (-erange)
      else .ok ⟨sect * g.soc.fdmSize + 1, g.soc.fdmSize - 1⟩ := by
  have own : ((sect : Int) % 2 ^ 32).toNat = sect := by omega
  rw [ooblayoutFree, own]

/-- What the MTD layer gets together: a region for each sector. -/
theorem freeRegionsFrom_eq (tries sect : Nat) (enough : g.eccSteps < sect + tries)
    (inside : sect ≤ g.eccSteps) :
    freeRegionsFrom g tries sect = (List.range' sect (g.eccSteps - sect)).map fun i =>
      ⟨i * g.soc.fdmSize + 1, g.soc.fdmSize - 1⟩ := by
  have small := eccSteps_small g
  induction tries generalizing sect with
  | zero => omega
  | succ tries ih =>
    rw [freeRegionsFrom, ooblayoutFree_of g (by omega)]
    by_cases last : g.eccSteps ≤ sect
    · have none : g.eccSteps - sect = 0 := by omega
      rw [if_pos last, none, List.range'_zero, List.map_nil]
    · have some_ : g.eccSteps - sect = (g.eccSteps - (sect + 1)) + 1 := by omega
      have rest := ih (sect + 1) (by omega) (by omega)
      rw [if_neg last, some_, List.range'_succ, List.map_cons]
      exact congrArg _ rest

/-- The bytes of the regions of the first sectors are the free places in their order. -/
theorem regionBytes_sectors (n : Nat) :
    (regionBytes ((List.range n).map fun i => ⟨i * g.soc.fdmSize + 1, g.soc.fdmSize - 1⟩)) =
      (List.range (n * (g.soc.fdmSize - 1))).map (freePlace g) := by
  induction n with
  | zero => rw [Nat.zero_mul]; rfl
  | succ n ih =>
    rw [List.range_succ, List.map_append, regionBytes, List.flatMap_append, ← regionBytes, ih,
      Nat.succ_mul, List.range_add, List.map_append, List.map_map]
    congr 1
    rw [List.map_cons, List.map_nil, List.flatMap_singleton, List.range'_eq_map_range]
    apply List.map_congr_left
    intro r inside
    have column : r < g.soc.fdmSize - 1 := List.mem_range.mp inside
    rw [Function.comp_apply, freePlace, Nat.mul_comm n (g.soc.fdmSize - 1), Nat.mul_add_div (by omega),
      Nat.div_eq_of_lt column, Nat.mul_add_mod, Nat.mod_eq_of_lt column, Nat.add_zero]
    exact Nat.add_assoc _ _ _

/-- The bytes that the MTD layer takes for free. -/
def freeBytes (tries : Nat) : List Nat := regionBytes (freeRegionsFrom g tries 0)

theorem freeBytes_eq (tries : Nat) (enough : g.eccSteps < tries) :
    freeBytes g tries = (List.range (g.eccSteps * (g.soc.fdmSize - 1))).map (freePlace g) := by
  rw [freeBytes, freeRegionsFrom_eq g tries 0 (by omega) (Nat.zero_le _), Nat.sub_zero,
    ← List.range_eq_range', regionBytes_sectors]

end Regions

section Placement

theorem fillOobFrom_rest (oob : Bytes) (steps step len ptr : Nat) (oobraw : Bytes) :
    (fillOobFrom g oob steps step len ptr oobraw).2 = len - steps * (g.soc.fdmSize - 1) := by
  induction steps generalizing step len ptr oobraw with
  | zero => rw [fillOobFrom, Nat.zero_mul, Nat.sub_zero]
  | succ steps ih =>
    rw [fillOobFrom, Nat.succ_mul]
    split_ifs with none
    · omega
    · rw [ih]
      omega

theorem transferOobFrom_rest (oobraw : Bytes) (steps step len ptr : Nat) (oob : Bytes) :
    (transferOobFrom g oobraw steps step len ptr oob).2 = len - steps * (g.soc.fdmSize - 1) := by
  induction steps generalizing step len ptr oob with
  | zero => rw [transferOobFrom, Nat.zero_mul, Nat.sub_zero]
  | succ steps ih =>
    rw [transferOobFrom, Nat.succ_mul]
    split_ifs with none
    · omega
    · rw [ih]
      omega

/-- Every free place is some byte's. -/
theorem freePlace_of (p : Nat) (sector : p / g.soc.fdmSize < g.eccSteps) (other : p % g.soc.fdmSize ≠ 0) :
    p / g.soc.fdmSize * (g.soc.fdmSize - 1) + (p % g.soc.fdmSize - 1) <
        g.eccSteps * (g.soc.fdmSize - 1) ∧
      freePlace g (p / g.soc.fdmSize * (g.soc.fdmSize - 1) + (p % g.soc.fdmSize - 1)) = p := by
  have column := Nat.mod_lt p g.fdmSize_pos
  have split := Nat.div_add_mod' p g.soc.fdmSize
  have low : p % g.soc.fdmSize - 1 < g.soc.fdmSize - 1 := by omega
  have upto := Nat.mul_le_mul_right (g.soc.fdmSize - 1) (Nat.succ_le_of_lt sector)
  rw [Nat.succ_mul] at upto
  refine ⟨by omega, ?_⟩
  rw [freePlace, Nat.mul_comm (p / g.soc.fdmSize) (g.soc.fdmSize - 1), Nat.mul_add_div (by omega),
    Nat.div_eq_of_lt low, Nat.mul_add_mod, Nat.mod_eq_of_lt low, Nat.add_zero]
  omega

/-- What is no free place within the length stays. -/
theorem fillOob_other (oobraw oob : Bytes) (ooblen p : Nat)
    (other : ∀ j < g.eccSteps * (g.soc.fdmSize - 1), j < ooblen → freePlace g j ≠ p) :
    (fillOob g oobraw oob ooblen).1 p = oobraw p := by
  rw [fillOob_apply, if_neg]
  rintro ⟨sector, column, inside⟩
  obtain ⟨free, own⟩ := freePlace_of g p sector column
  exact other _ free inside own

/-- What the AUTO mode takes out, whatever the length. -/
theorem transferOob_at (oobraw oob : Bytes) (ooblen j : Nat) :
    (transferOob g oob ooblen oobraw).1 j =
      if j < g.eccSteps * (g.soc.fdmSize - 1) ∧ j < ooblen then oobraw (freePlace g j) else oob j := by
  by_cases free : 0 < g.soc.fdmSize - 1
  · have all := transferOobFrom_apply g oobraw ooblen g.eccSteps 0 oob j free
    simp only [Nat.zero_mul, Nat.sub_zero, Nat.min_zero, Nat.zero_add, Nat.zero_le, true_and] at all
    exact all
  · have none : g.soc.fdmSize - 1 = 0 := by omega
    have nothing (steps step len ptr : Nat) (oob : Bytes) :
        (transferOobFrom g oobraw steps step len ptr oob).1 = oob := by
      induction steps generalizing step len ptr oob with
      | zero => rfl
      | succ steps ih =>
        rw [transferOobFrom]
        split_ifs
        · rfl
        · rw [ih, none, Nat.zero_min]
          funext k
          exact Bytes.memcpy_outside _ _ _ _ _ _ (by omega)
    rw [transferOob, nothing, none, Nat.mul_zero, if_neg (by omega)]

/-- The OOB bytes of AUTO mode: a buffer that the sectors have room for comes back; the first FDM byte of
a sector, the bad block marker's place, is never touched; of a longer buffer both functions leave the same
rest; and byte by byte the buffer goes to the regions that `mtk_snand_ooblayout_free` reports, in their
order, and comes from there. -/
theorem auto_oob_placed (oobraw oob oob' : Bytes) :
    (∀ ooblen ≤ g.eccSteps * (g.soc.fdmSize - 1), ∀ j < ooblen,
      (transferOob g oob' ooblen (fillOob g oobraw oob ooblen).1).1 j = oob j) ∧
    (∀ ooblen step, (fillOob g oobraw oob ooblen).1 (step * g.soc.fdmSize) =
      oobraw (step * g.soc.fdmSize)) ∧
    (∀ ooblen, (fillOob g oobraw oob ooblen).2 = ooblen - g.eccSteps * (g.soc.fdmSize - 1) ∧
      (transferOob g oob' ooblen oobraw).2 = ooblen - g.eccSteps * (g.soc.fdmSize - 1)) ∧
    ∀ tries > g.eccSteps, (freeBytes g tries).length = g.eccSteps * (g.soc.fdmSize - 1) ∧
      ∀ ooblen,
        (∀ j p, (freeBytes g tries)[j]? = some p → j < ooblen →
          (fillOob g oobraw oob ooblen).1 p = oob j ∧
          (transferOob g oob' ooblen oobraw).1 j = oobraw p) ∧
        (∀ p ∉ (freeBytes g tries).take ooblen, (fillOob g oobraw oob ooblen).1 p = oobraw p) ∧
        ∀ j, ((freeBytes g tries).take ooblen).length ≤ j →
          (transferOob g oob' ooblen oobraw).1 j = oob' j := by
  refine ⟨?_, ?_, ?_, ?_⟩
  · intro ooblen short j inside
    have room : j < g.eccSteps * (g.soc.fdmSize - 1) := inside.trans_le short
    rw [transferOob_at, if_pos ⟨room, inside⟩, fillOob_free g oobraw oob ooblen j room, if_pos inside]
  · intro ooblen step
    rw [fillOob_apply, Nat.mul_mod_left, if_neg (by tauto)]
  · intro ooblen
    exact ⟨fillOobFrom_rest g oob _ _ _ _ _, transferOobFrom_rest g oobraw _ _ _ _ _⟩
  · intro tries enough
    have free := freeBytes_eq g tries enough
    refine ⟨by rw [free, List.length_map, List.length_range], fun ooblen => ⟨?_, ?_, ?_⟩⟩
    · intro j p place inside
      rw [free, List.getElem?_map, Option.map_eq_some_iff] at place
      obtain ⟨i, index, rfl⟩ := place
      obtain ⟨long, rfl⟩ := List.getElem?_eq_some_iff.mp index
      rw [List.length_range] at long
      rw [List.getElem_range]
      have room : j < g.eccSteps * (g.soc.fdmSize - 1) := long
      rw [fillOob_free g oobraw oob ooblen j room, if_pos inside, transferOob_at,
        if_pos ⟨room, inside⟩]
      exact ⟨rfl, rfl⟩
    · intro p outside
      apply fillOob_other
      intro j room inside own
      apply outside
      rw [free, ← List.map_take, List.take_range]
      exact List.mem_map.mpr ⟨j, List.mem_range.mpr (by omega), own⟩
    · intro j beyond
      rw [free, List.length_take, List.length_map, List.length_range] at beyond
      rw [transferOob_at, if_neg (by omega)]

end Placement

end Filogic.Snand
