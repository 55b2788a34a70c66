import Filogic.Nmbm.InfoTable

/-! The two info tables on flash: building them, updating them in place, and the rescue
procedures for blocks that go bad meanwhile; and the remapping of logic blocks. -/

namespace Filogic.Nmbm
open Lib

variable (env : Env)

/-- Limit that `nmbm_try_reserve_blocks` gets from the callers: a 32-bit subtraction. -/
def reserveLimit (i : Instance) : Nat :=
  sub32 i.mappingBlocksTopBa (env.geo.size2blk env.geo.infoTableSize)

/-- Reserve spare blocks from block `ba`. -/
def reserveFrom (i : Instance) (ba : Nat) : Option Nat :=
  tryReserveBlocks env.geo i ba (reserveLimit env i) env.geo.infoTableSpareBlocks

/-- `while (write_ba >= lo)`: try to write the info table from block `writeBa`, then from the
blocks below it; `tries` blocks are to go. -/
def writeInfoTableDown : (tries writeBa : Nat) → Routine (Option (Nat × Nat))
  | 0, _ => return none
  | tries + 1, writeBa => do
    let i ← ni
    match ← writeInfoTable env writeBa i.mappingBlocksTopBa with
    | some table => return some table
    | none => writeInfoTableDown tries (writeBa - 1)

/-- `nmbm_rebuild_info_table` -/
def rebuildInfoTable : Routine Bool := do
  setNi fun i =>
    { i with mainTableBa := 0, backupTableBa := 0, mappingBlocksBa := i.mappingBlocksTopBa }
  let i ← ni
  match ← writeInfoTable env i.mgmtStartBa i.mappingBlocksTopBa with
  | none =>
    setNi fun i => { i with protectedMode := true }
    return false
  | some (mainStart, mainEnd) =>
    setNi fun i => { i with mainTableBa := mainStart, mappingBlocksBa := mainEnd }
    markTablesClean
    let i ← ni
    match reserveFrom env i mainEnd with
    | none => return true
    | some nextStart =>
      match ← writeInfoTable env nextStart i.mappingBlocksTopBa with
      | none => return true
      | some (backupStart, backupEnd) =>
        setNi fun i => { i with backupTableBa := backupStart, mappingBlocksBa := backupEnd }
        eraseRange env mainEnd backupStart
        return true

/-- `nmbm_rescue_single_info_table` -/
def rescueSingleInfoTable : Routine Bool := do
  let i ← ni
  match ← writeInfoTable env i.mgmtStartBa i.mainTableBa with
  | some (tableStart, tableEnd) =>
    setNi fun i => { i with backupTableBa := i.mainTableBa, mainTableBa := tableStart }
    markTablesClean
    let i ← ni
    eraseRange env tableEnd i.backupTableBa
    return true
  | none =>
    let i ← ni
    match reserveFrom env i i.mappingBlocksBa with
    | none => return false
    | some writeBa =>
      match ← writeInfoTableDown env (writeBa + 1 - i.mappingBlocksBa) writeBa with
      | none => return false
      | some (tableStart, tableEnd) =>
        eraseRange env i.mappingBlocksBa tableStart
        setNi fun i => { i with backupTableBa := tableStart, mappingBlocksBa := tableEnd }
        markTablesClean
        return true

/-- `nmbm_update_single_info_table` -/
def updateSingleInfoTable (updateMainTable : Bool) : Routine Bool := do
  let i ← ni
  let range := if updateMainTable then (i.mainTableBa, i.backupTableBa)
    else (i.backupTableBa, i.mappingBlocksTopBa)
  match ← writeInfoTable env range.1 range.2 with
  | some (tableStart, tableEnd) =>
    setNi fun i =>
      if updateMainTable then { i with mainTableBa := tableStart }
      else { i with backupTableBa := tableStart, mappingBlocksBa := tableEnd }
    markTablesClean
    return true
  | none =>
    if updateMainTable then do
      setNi fun i => { i with mainTableBa := i.backupTableBa, backupTableBa := 0 }
      rescueSingleInfoTable env
    else do
      setNi fun i => { i with mappingBlocksBa := i.backupTableBa, backupTableBa := 0 }
      return false

/-- The backup table becomes the main table. -/
def promoteBackup : Routine Unit :=
  setNi fun i => { i with mainTableBa := i.backupTableBa, backupTableBa := 0 }

/-- The end of `nmbm_rescue_main_info_table`, when the new main table runs over the temporary
one: write a backup table behind it. -/
def rescueBackup (mainEnd : Nat) : Routine Bool := do
  setNi fun i => { i with mappingBlocksBa := mainEnd }
  let i ← ni
  match reserveFrom env i mainEnd with
  | none =>
    setNi fun i => { i with backupTableBa := 0 }
    return true
  | some writeBa =>
    match ← writeInfoTableDown env (writeBa + 1 - mainEnd) writeBa with
    | none =>
      setNi fun i => { i with backupTableBa := 0 }
      return true
    | some (tmpStart, tmpEnd) =>
      setNi fun i => { i with backupTableBa := tmpStart, mappingBlocksBa := tmpEnd }
      eraseRange env mainEnd tmpStart
      return true

/-- `nmbm_rescue_main_info_table` -/
def rescueMainInfoTable : Routine Bool := do
  let i ← ni
  match reserveFrom env i i.mappingBlocksBa with
  | none =>
    promoteBackup
    return true
  | some writeBa =>
    match ← writeInfoTableDown env (writeBa + 1 - i.mappingBlocksBa) writeBa with
    | none =>
      promoteBackup
      return true
    | some (tmpStart, tmpEnd) =>
      setNi fun i => { i with mappingBlocksBa := tmpEnd }
      -- This write generally goes over the original backup table.
      match ← writeInfoTable env i.mgmtStartBa tmpStart with
      | none =>
        setNi fun i => { i with mainTableBa := tmpStart, backupTableBa := 0 }
        markTablesClean
        return true
      | some (mainStart, mainEnd) =>
        setNi fun i => { i with mainTableBa := mainStart }
        markTablesClean
        if mainEnd ≤ tmpStart then do
          setNi fun i => { i with backupTableBa := tmpStart }
          return true
        else rescueBackup env mainEnd

/-- The part of `nmbm_update_info_table_once` behind `write_main_table`. -/
def writeMainTable (mainTableLimit : Nat) : Routine Bool := do
  let i ← ni
  if i.mainTableBa = 0 then rebuildInfoTable env
  else do
    match ← writeInfoTable env i.mainTableBa mainTableLimit with
    | none =>
      if i.backupTableBa = 0 then rebuildInfoTable env
      else rescueMainInfoTable env
    | some (tableStart, tableEnd) =>
      setNi fun i =>
        { i with
          mainTableBa := tableStart
          mappingBlocksBa := if i.backupTableBa = 0 then tableEnd else i.mappingBlocksBa }
      markTablesClean
      return true

/-- `nmbm_update_info_table_once` -/
def updateInfoTableOnce (force : Bool) : Routine Bool := do
  let changed ← generateInfoTableCache env
  if !changed && !force then return true
  else do
    let i ← ni
    if i.backupTableBa = 0 then writeMainTable env i.mappingBlocksTopBa
    else do
      match ← writeInfoTable env i.backupTableBa i.mappingBlocksTopBa with
      | none =>
        -- There is nothing to do about the backup table: write the main table now.
        setNi fun i => { i with mappingBlocksBa := i.backupTableBa, backupTableBa := 0 }
        writeMainTable env i.mappingBlocksTopBa
      | some (tableStart, tableEnd) =>
        setNi fun i => { i with backupTableBa := tableStart, mappingBlocksBa := tableEnd }
        markTablesClean
        writeMainTable env tableStart

/-- The loop of `nmbm_update_info_table`. Each round that leaves changes has found a block bad,
so `fuel` is the number of blocks and one. -/
def updateInfoTableLoop : (fuel : Nat) → Routine Bool
  | 0 => return true
  | fuel + 1 => do
    let i ← ni
    if i.changed then do
      let success ← updateInfoTableOnce env false
      if success then updateInfoTableLoop fuel
      else return false
    else return true

/-- `nmbm_update_info_table` -/
def updateInfoTable : Routine Bool := do
  let i ← ni
  if i.protectedMode then return true
  else updateInfoTableLoop env (env.geo.blockCount + 1)

/-- `nmbm_map_block` -/
def mapBlock (lb : Nat) : Routine Bool := do
  noteMapBlock
  let i ← ni
  if i.mappingBlocksBa = i.mappingBlocksTopBa then return false
  else
    match blockWalkDown env.geo i i.mappingBlocksTopBa 0 i.mappingBlocksBa with
    | none => do
      let _ ← updateInfoTable env
      setNi fun i => { i with mappingBlocksTopBa := i.mappingBlocksBa }
      return false
    | some pb => do
      setNi fun i =>
        { i with
          blockMapping := Function.update i.blockMapping lb (UInt32.ofNat pb)
          mappingBlocksTopBa := i.mappingBlocksTopBa - 1
          blockMappingChanged := i.blockMappingChanged + 1 }
      return true

end Filogic.Nmbm
