import Filogic.Nmbm.MtdOps

/-! What a write of data and spare bytes programs, and what a read of the same range brings back. -/

namespace Filogic.Nmbm
open Lib

variable (env : Env) (lower : LowerMtd env.geo) (mode : OobMode)

/-- The instance stays but for the page cache, and so does the chip outside the page of an address. -/
structure WrotePage (geo : Geometry) (addr : Nat) (w w' : World) : Prop where
  ni_eq : OnChip w w'
  main_eq : OffPage geo addr w w'
  oob_eq : ∀ page, page ≠ geo.pageOf addr → w'.chip.oob page = w.chip.oob page

namespace WrotePage

variable {geo : Geometry} {addr : Nat}

theorem refl (w : World) : WrotePage geo addr w w := ⟨OnChip.refl w, fun _ _ => rfl, fun _ _ => rfl⟩

theorem trans (a b c : World) (one : WrotePage geo addr a b) (two : WrotePage geo addr b c) :
    WrotePage geo addr a c where
  ni_eq := OnChip.trans a b c one.ni_eq two.ni_eq
  main_eq k outside := (two.main_eq k outside).trans (one.main_eq k outside)
  oob_eq page other := (two.oob_eq page other).trans (one.oob_eq page other)

theorem reading {α : Type} {x : Routine α} (reads : Moves Reading x) :
    Moves (WrotePage geo addr) x := fun w =>
  ⟨(reads w).ni_eq, fun k _ => by rw [(reads w).chip_eq], fun page _ => by rw [(reads w).chip_eq]⟩

end WrotePage

section Write

/-- The bytes of the two buffers are in the page of an address. -/
structure PageHolds (addr : Nat) (data oob : Option Bytes) (w : World) : Prop where
  main : ∀ d ∈ data, ∀ j < env.geo.writesize, w.chip.main (env.geo.pageStart addr + j) = d j
  spare : ∀ o ∈ oob, ∀ j < lower.mtdOobavail mode,
    lower.getSpare mode (w.chip.oob (env.geo.pageOf addr)) j = o j

end Write

section Read

end Read

section Mapping

/-- The address of a page is found by its block and the place there. -/
theorem logicAddr_eq {i : Instance} {addr paddr : Nat} (place : logicAddr env i addr = some paddr) :
    unmapped (i.blockMapping (env.geo.addr2ba addr)) = false ∧
      paddr = (i.blockMapping (env.geo.addr2ba addr)).toNat * env.geo.erasesize +
        addr % env.geo.erasesize := by
  simp only [logicAddr] at place
  split_ifs at place with none bad
  exact ⟨by simpa using none, (Option.some.inj place).symm⟩

end Mapping

section Exact

variable (ops : Paged.Request) (addr : Nat) (cache : Bytes) (w : World)

/-- The page is where the instance maps it, with its buffers in it. -/
structure Stored (i : Instance) (page : Paged.PageWrite) (w : World) : Prop where
  aligned : page.addr % env.geo.writesize = 0
  inside : page.addr < env.geo.ba2addr i.dataBlockCount
  held : ∃ paddr, logicAddr env i page.addr = some paddr ∧
    PageHolds env lower mode paddr page.data page.oob w

theorem PageHolds.kept {paddr paddr' : Nat} {data oob : Option Bytes} {w w' : World}
    (holds : PageHolds env lower mode paddr data oob w) (wrote : WrotePage env.geo paddr' w w')
    (apart : env.geo.pageOf paddr' ≠ env.geo.pageOf paddr) :
    PageHolds env lower mode paddr data oob w' := by
  have size := env.geo.writesize_pos
  constructor
  · intro d given j inside
    rw [wrote.main_eq, holds.main d given j inside]
    unfold Geometry.pageStart
    obtain less | more := Nat.lt_or_gt_of_ne apart
    · have := Nat.mul_le_mul_right env.geo.writesize (Nat.succ_le_of_lt less)
      rw [Nat.succ_mul] at this
      omega
    · have := Nat.mul_le_mul_right env.geo.writesize (Nat.succ_le_of_lt more)
      rw [Nat.succ_mul] at this
      omega
  · intro o given j inside
    rw [wrote.oob_eq _ (Ne.symm apart), holds.spare o given j inside]

/-- Page `k` of the request, as it is handed down. -/
def mtdPage (k : Nat) : Paged.PageWrite :=
  (Paged.WriteState.behind (lower.sizes mode) ops addr cache k).page (lower.sizes mode) ops

theorem mtdPage_addr (k : Nat) :
    (mtdPage env lower mode ops addr cache k).addr =
      addr - addr % env.geo.writesize + k * env.geo.writesize :=
  (Paged.WriteState.behind_streams (lower.sizes mode) ops addr cache k).1

theorem Stored.same {i i' : Instance} {page : Paged.PageWrite} {s s' : World}
    (stored : Stored env lower mode i page s) (place : logicAddr env i' page.addr =
      logicAddr env i page.addr) (count : i'.dataBlockCount = i.dataBlockCount)
    (chip : s'.chip = s.chip) : Stored env lower mode i' page s' := by
  obtain ⟨aligned, inside, paddr, mapped, holds⟩ := stored
  exact ⟨aligned, count ▸ inside, paddr, place.trans mapped,
    fun d given j inside => by rw [chip]; exact holds.main d given j inside,
    fun o given j inside => by rw [chip]; exact holds.spare o given j inside⟩

/-- A page has less than 2^32 bytes, since the header of the info table takes one. -/
theorem pageShift_le : env.geo.pageShift ≤ 32 := by
  have fits := env.geo.fits
  have page : 2 ^ env.geo.pageShift ≤ align 32 (2 ^ env.geo.pageShift) := by
    have pos : 0 < 2 ^ env.geo.pageShift := Nat.two_pow_pos _
    have one : 1 ≤ (32 + 2 ^ env.geo.pageShift - 1) / 2 ^ env.geo.pageShift :=
      (Nat.one_le_div_iff pos).mpr (by omega)
    exact Nat.le_mul_of_pos_left _ one
  have small : 2 ^ env.geo.pageShift < 2 ^ 32 := by
    rw [infoTableBytes] at fits
    omega
  exact ((Nat.pow_lt_pow_iff_right (by decide)).mp small).le

theorem maskedAddr_mod : maskedAddr addr % env.geo.writesize = addr % env.geo.writesize := by
  apply Nat.mod_mod_of_dvd
  exact Nat.pow_dvd_pow 2 (pageShift_le env)

end Exact

section Sample

/-- All spare bytes are free. -/
def sampleLower : LowerMtd sampleGeometry where
  oobavail := 8
  freeByte := id
  avail_le := le_rfl
  free_apart _ _ _ _ same := same

/-- An instance whose first six blocks are mapped to themselves, over an erased chip. -/
def mappedWorld : World where
  ni :=
    { Instance.zero sampleOptions with
      blockState := fun _ => 0xffffffff
      blockMapping := UInt32.ofNat
      dataBlockCount := 6 }
  chip := blankChip []
  tick := 0
  issuer := .other
  generated := []
  trace := []

/-- Data of `len` bytes 7 and spare bytes of `ooblen` bytes 9. -/
def sampleOps (len ooblen : Nat) : Paged.Request where
  datbuf := fun _ => 7
  oobbuf := fun _ => 9
  len := len
  ooblen := ooblen
  ooboffs := 0

end Sample

end Filogic.Nmbm
