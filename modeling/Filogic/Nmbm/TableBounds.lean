import Filogic.Nmbm.Attach
import Filogic.Nmbm.Api

/-! The regions of an info table: where the two offsets of a header that is accepted point to. -/

namespace Filogic.Nmbm
open Lib

section Regions

variable (geo : Geometry) (h : InfoTableHeader)

/-- The copies of `nmbm_try_load_info_table` stay in the cache, behind the header and apart. -/
structure RegionsInside : Prop where
  stateStart : infoTableHeaderSize ≤ h.stateTableOff.toNat
  mappingStart : infoTableHeaderSize ≤ h.mappingTableOff.toNat
  stateEnd : h.stateTableOff.toNat + geo.stateTableSize ≤ geo.infoTableSize
  mappingEnd : h.mappingTableOff.toNat + geo.mappingTableSize ≤ geo.infoTableSize
  apart : h.stateTableOff.toNat + geo.stateTableSize ≤ h.mappingTableOff.toNat ∨
    h.mappingTableOff.toNat + geo.mappingTableSize ≤ h.stateTableOff.toNat

/-- Neither of the two subtractions of the check wraps, and the state table is not in the header. -/
def InOrder : Prop :=
  infoTableHeaderSize ≤ h.stateTableOff.toNat ∧ h.stateTableOff.toNat ≤ h.mappingTableOff.toNat ∧
    h.mappingTableOff.toNat ≤ geo.infoTableSize

/-- The tables are the other way round, with the state table in what is left. -/
def Swapped : Prop :=
  infoTableHeaderSize ≤ h.mappingTableOff.toNat ∧
    h.mappingTableOff.toNat + geo.mappingTableSize ≤ h.stateTableOff.toNat ∧
    h.stateTableOff.toNat + geo.stateTableSize ≤ geo.infoTableSize

theorem sub32_of_le (a b : Nat) (le : b ≤ a) (small : a < 2 ^ 32) : sub32 a b = a - b := by
  unfold sub32
  omega

theorem stateTableSize_pos : 0 < geo.stateTableSize := by
  have blocks := Nat.two_pow_pos (geo.chipShift - geo.blockShift)
  unfold Geometry.stateTableSize stateTableBytes
  omega

theorem mappingTableSize_pos : 0 < geo.mappingTableSize := by
  have blocks := Nat.two_pow_pos (geo.chipShift - geo.blockShift)
  unfold Geometry.mappingTableSize mappingTableBytes
  omega

theorem inside_of_inOrder (checked : checkInfoTableHeader geo h = true) (order : InOrder geo h) :
    RegionsInside geo h := by
  obtain ⟨start, state, mapping⟩ := order
  have small : geo.infoTableSize < 2 ^ 32 := geo.fits
  simp only [checkInfoTableHeader, decide_eq_true_eq] at checked
  obtain ⟨-, -, between, behind⟩ := checked
  rw [sub32_of_le _ _ state (UInt32.toNat_lt _)] at between
  rw [sub32_of_le _ _ mapping small] at behind
  exact ⟨start, by omega, by omega, by omega, .inl (by omega)⟩

/-- The offsets of an accepted header are right exactly when they are in order, which the check means
to say, or the other way round, which it does not see. -/
theorem regionsInside_iff (env : Env) (data : Bytes)
    (checked : checkInfoTableHeader env.geo (InfoTableHeader.read data) = true)
    (_summed : checkHeader env data env.geo.infoTableSize = true) :
    RegionsInside env.geo (InfoTableHeader.read data) ↔
      InOrder env.geo (InfoTableHeader.read data) ∨ Swapped env.geo (InfoTableHeader.read data) := by
  have states := stateTableSize_pos env.geo
  have mappings := mappingTableSize_pos env.geo
  constructor
  · rintro ⟨stateStart, mappingStart, stateEnd, mappingEnd, before | behind⟩
    · exact .inl ⟨stateStart, by omega, by omega⟩
    · exact .inr ⟨mappingStart, behind, stateEnd⟩
  · rintro (order | ⟨start, between, fits⟩)
    · exact inside_of_inOrder env.geo _ checked order
    · exact ⟨by omega, start, fits, by omega, .inr between⟩

end Regions

section Sample

/-- A table whose checksum is right and whose header says where the two tables are. -/
def tableAt (stateTableOff mappingTableOff : UInt32) : Bytes :=
  updateChecksum (sampleEnv fun _ _ => false)
    (Bytes.memcpy (fun _ => 0xff) 0 (wordBytes (InfoTableHeader.words
      { magic := magicInfoTable
        version := nmbmVer
        size := UInt32.ofNat sampleGeometry.infoTableSize
        checksum := 0
        writeCount := 1
        stateTableOff := stateTableOff
        mappingTableOff := mappingTableOff
        padding := 0 })) 0 infoTableHeaderSize)

/-- The state table is said to start far behind the cache: the first subtraction wraps. -/
theorem stateTable_outside :
    ¬∀ (env : Env) (data : Bytes),
      checkInfoTableHeader env.geo (InfoTableHeader.read data) = true →
      checkHeader env data env.geo.infoTableSize = true →
      RegionsInside env.geo (InfoTableHeader.read data) := by
  intro all
  have inside := (all (sampleEnv fun _ _ => false) (tableAt 0x10000000 32)
    (by decide +kernel) (by decide +kernel)).stateEnd
  revert inside
  decide +kernel

theorem regionsInside_sample :
    RegionsInside sampleGeometry (InfoTableHeader.read (tableAt 64 128)) :=
  (regionsInside_iff (sampleEnv fun _ _ => false) (tableAt 64 128) (by decide +kernel)
    (by decide +kernel)).mpr
    (.inl ⟨by decide +kernel, by decide +kernel, by decide +kernel⟩)

end Sample

end Filogic.Nmbm
