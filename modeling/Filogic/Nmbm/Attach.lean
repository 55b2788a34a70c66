import Filogic.Nmbm.Update

/-! Attaching: looking for the signature and the info tables, loading them, or creating them on
a new chip. -/

namespace Filogic.Nmbm
open Lib

variable (env : Env)

/-- `nmbm_check_info_table_header` -/
def checkInfoTableHeader (geo : Geometry) (h : InfoTableHeader) : Bool :=
  h.magic = magicInfoTable ∧ h.size.toNat = geo.infoTableSize ∧
    geo.stateTableSize ≤ sub32 h.mappingTableOff.toNat h.stateTableOff.toNat ∧
    geo.mappingTableSize ≤ sub32 geo.infoTableSize h.mappingTableOff.toNat

/-- The mapping loop of `nmbm_check_info_table` from logic block `ba`: the lowest mapped block
at or above `endBa`, or none if the table cannot be valid. -/
def checkMapping (i : Instance) (blockMapping : Nat → UInt32) (endBa : Nat) :
    (left ba minimum : Nat) → Option Nat
  | 0, _, minimum => some minimum
  | left + 1, ba, minimum =>
    let pb := (blockMapping ba).toNat
    if (i.dataBlockCount ≤ pb ∧ pb < endBa) ∨ pb = i.signatureBa then none
    else checkMapping i blockMapping endBa left (ba + 1)
      (if endBa ≤ pb ∧ pb < minimum then pb else minimum)

/-- The state loop of `nmbm_check_info_table` over the blocks of the table itself. -/
def checkTableStates (i : Instance) (blockState : Nat → UInt32) : (left ba : Nat) → Bool
  | 0, _ => true
  | left + 1, ba =>
    if i.good ba ∧ getBlockStateRaw blockState ba ≠ blockStGood then false
    else checkTableStates i blockState left (ba + 1)

/-- `nmbm_check_info_table`: the top of the spare blocks, if the table is valid. -/
def checkInfoTable (i : Instance) (startBa endBa : Nat) (data : Bytes) : Option Nat :=
  let h := InfoTableHeader.read data
  match checkMapping i (wordsAt data h.mappingTableOff.toNat) endBa i.dataBlockCount 0
      i.signatureBa with
  | none => none
  | some minimum =>
    if checkTableStates i (wordsAt data h.stateTableOff.toNat) (endBa - startBa) startBa then
      some (sub32 minimum 1)
    else none

/-- The read loop of `nmbm_try_load_info_table` from block `ba`: the first block of the table
and the block behind it. A block that cannot be read is marked bad in memory only. -/
def readInfoTable : (left ba ptr start : Nat) → Routine (Option (Nat × Nat))
  | 0, ba, ptr, start => return if env.geo.infoTableSize ≤ ptr then some (start, ba) else none
  | left + 1, ba, ptr, start =>
    if env.geo.infoTableSize ≤ ptr then return some (start, ba)
    else do
      let i ← ni
      if i.good ba then do
        let bad ← checkBadPhysBlock env ba
        if bad then do
          setState ba blockStBad
          readInfoTable left (ba + 1) ptr start
        else do
          let chunksize := min (env.geo.infoTableSize - ptr) env.geo.erasesize
          let i ← ni
          let got ← readData env (env.geo.ba2addr ba) i.infoTableCache ptr chunksize
          setNi fun i => { i with infoTableCache := got.2 }
          if got.1 < 0 then do
            setState ba blockStBad
            readInfoTable left (ba + 1) ptr start
          else if ptr = 0 ∧
              checkInfoTableHeader env.geo (InfoTableHeader.read got.2) = false then
            return none
          else
            readInfoTable left (ba + 1) (ptr + chunksize) (if ptr = 0 then ba else start)
      else readInfoTable left (ba + 1) ptr start

/-- What the search learns about an info table. -/
structure FoundTable where
  startBa : Nat
  endBa : Nat
  writeCount : UInt32
  mappingBlocksTopBa : Nat
  deriving DecidableEq, Repr

/-- `nmbm_try_load_info_table`. A second table is taken over if its write count is higher. -/
def tryLoadInfoTable (ba : Nat) (tableLoaded : Bool) : Routine (Option FoundTable) := do
  match ← readInfoTable env (env.geo.size2blk env.geo.infoTableSize) ba 0 0 with
  | none => return none
  | some (startBa, endBa) =>
    let i ← ni
    if checkHeader env i.infoTableCache env.geo.infoTableSize then
      match checkInfoTable i startBa endBa i.infoTableCache with
      | none => return none
      | some top =>
        let h := InfoTableHeader.read i.infoTableCache
        if !tableLoaded || i.infoTable.writeCount < h.writeCount then
          setNi fun i =>
            { i with
              infoTable := h
              blockState := wordsAt i.infoTableCache h.stateTableOff.toNat
              blockMapping := wordsAt i.infoTableCache h.mappingTableOff.toNat }
        return some { startBa := ba, endBa := endBa, writeCount := h.writeCount
                      mappingBlocksTopBa := top }
    else return none

/-- The loop of `nmbm_search_info_table`, with `left` blocks to go. -/
def searchInfoTableFrom (tableLoaded : Bool) : (left ba : Nat) → Routine (Option FoundTable)
  | 0, _ => return none
  | left + 1, ba => do
    match ← tryLoadInfoTable env ba tableLoaded with
    | some found => return some found
    | none => searchInfoTableFrom tableLoaded left (ba + 1)

/-- `nmbm_search_info_table` -/
def searchInfoTable (ba limit : Nat) (tableLoaded : Bool) : Routine (Option FoundTable) :=
  searchInfoTableFrom env tableLoaded
    (sub32 limit (env.geo.size2blk env.geo.infoTableSize) - ba) ba

/-- The last loop of `nmbm_load_info_table`: the logic blocks up to the last mapped one, or
`default` if none of the `count` blocks is mapped. -/
def lastMapped (blockMapping : Nat → UInt32) (default : Nat) : (count : Nat) → Nat
  | 0 => default
  | count + 1 =>
    if (blockMapping count).toNat < 2 ^ 31 then count + 1
    else lastMapped blockMapping default count

/-- The rest of `nmbm_load_info_table`, with the tables that were found. -/
def useInfoTables (main : FoundTable) (backup : Option FoundTable) : Routine Unit := do
  setNi fun i =>
    { i with
      mappingBlocksTopBa :=
        match backup with
        | none => main.mappingBlocksTopBa
        | some backup =>
          if backup.writeCount ≤ main.writeCount then main.mappingBlocksTopBa
          else backup.mappingBlocksTopBa
      mappingBlocksBa := (backup.getD main).endBa
      dataBlockCount :=
        lastMapped i.blockMapping i.dataBlockCount i.signature.mgmtStartPb.toNat }
  let _ ← generateInfoTableCache env
  let i ← ni
  if i.lower.readOnly then return ()
  else do
    let success ←
      match backup with
      | none => rescueSingleInfoTable env
      | some backup =>
        if main.writeCount ≠ backup.writeCount then do
          setNi fun i => { i with blockStateChanged := 1, blockMappingChanged := 1 }
          updateSingleInfoTable env (main.writeCount < backup.writeCount)
        else pure true
    let i ← ni
    if i.mappingBlocksBa = i.mappingBlocksTopBa || !success then
      setNi fun i => { i with protectedMode := true }

/-- `nmbm_load_info_table` -/
def loadInfoTable (ba limit : Nat) : Routine Bool := do
  setNi fun i =>
    { i with
      mainTableBa := 0
      backupTableBa := 0
      infoTable := { i.infoTable with writeCount := 0 }
      mappingBlocksTopBa := sub32 i.signatureBa 1
      dataBlockCount := i.signature.mgmtStartPb.toNat }
  match ← searchInfoTable env ba limit false with
  | none => return false
  | some main =>
    setNi fun i => { i with mainTableBa := main.startBa }
    let backup ← searchInfoTable env main.endBa limit true
    setNi fun i => { i with backupTableBa := (backup.map FoundTable.startBa).getD 0 }
    useInfoTables env main backup
    return true

/-- The remapping loop of `nmbm_create_info_table` from logic block `lb`. -/
def remapTail : (left lb : Nat) → Routine Unit
  | 0, _ => return ()
  | left + 1, lb => do
    let success ← mapBlock env lb
    if success then do
      setNi fun i => { i with dataBlockCount := i.dataBlockCount + 1 }
      remapTail left (lb + 1)
    else return ()

/-- `nmbm_create_info_table` -/
def createInfoTable : Routine Bool := do
  let i ← ni
  match blockWalkDown env.geo i i.signatureBa 1 i.mgmtStartBa with
  | none => return false
  | some top =>
    setNi fun i => { i with mappingBlocksTopBa := top }
    let _ ← generateInfoTableCache env
    let built ← rebuildInfoTable env
    if built then do
      let i ← ni
      remapTail env (i.mgmtStartBa - i.dataBlockCount) i.dataBlockCount
      updateInfoTable env
    else return false

/-- `nmbm_build_mapping_table`: logic blocks from `lb` on get the blocks from `pb` on that are
not bad. -/
def buildMappingFrom : (left pb lb : Nat) → Instance → Instance
  | 0, _, lb, i => { i with dataBlockCount := lb }
  | left + 1, pb, lb, i =>
    if i.getBlockState pb = blockStBad then buildMappingFrom left (pb + 1) lb i
    else buildMappingFrom left (pb + 1) (lb + 1)
      { i with blockMapping := Function.update i.blockMapping lb (UInt32.ofNat pb) }

/-- `nmbm_build_mapping_table` -/
def buildMappingTable (geo : Geometry) (i : Instance) : Instance :=
  let i := buildMappingFrom i.mgmtStartBa 0 0 i
  { i with
    blockMapping := fun lb =>
      if i.dataBlockCount ≤ lb ∧ lb < geo.blockCount then 0xffffffff else i.blockMapping lb }

/-- The loop of `nmbm_write_signature`, from block `ba` down. -/
def writeSignatureFrom (signature : Bytes) : (left ba : Nat) → Routine (Option Nat)
  | 0, _ => return none
  | left + 1, ba => do
    let i ← ni
    if i.good ba then do
      let bad ← checkBadPhysBlock env ba
      if bad then do
        setState ba blockStBad
        writeSignatureFrom signature left (ba - 1)
      else do
        let erased ← eraseBlockAndCheck env ba
        let written ←
          if erased then writeRepeatedData env ba signature signatureSize else pure false
        if written then return some ba
        else do
          retireBlock env ba
          writeSignatureFrom signature left (ba - 1)
    else writeSignatureFrom signature left (ba - 1)

/-- The first block of the management area of a new chip; the product has 32 bits. -/
def mgmtStart (geo : Geometry) (lower : Options) : Nat :=
  let start := geo.blockCount * (16 - lower.maxRatio) % 2 ^ 32 / 16
  if lower.maxReservedBlocks ≠ 0 ∧ lower.maxReservedBlocks < geo.blockCount - start then
    geo.blockCount - lower.maxReservedBlocks
  else start

/-- The signature of a new chip. -/
def newSignature (geo : Geometry) (mgmtStartBa : Nat) : Signature where
  magic := magicSignature
  version := nmbmVer
  size := UInt32.ofNat signatureSize
  checksum := 0
  nandSize := UInt64.ofNat geo.size
  blockSize := UInt32.ofNat geo.erasesize
  pageSize := UInt32.ofNat geo.writesize
  spareSize := UInt32.ofNat geo.oobsize
  mgmtStartPb := UInt32.ofNat mgmtStartBa
  maxTryCount := 3

/-- `nmbm_create_new` -/
def createNew : Routine Bool := do
  setNi fun i => { i with mgmtStartBa := mgmtStart env.geo i.lower }
  scanBadblocks env
  setNi fun i => buildMappingTable env.geo i
  setNi fun i =>
    let signature := newSignature env.geo i.mgmtStartBa
    let image := wordBytes signature.words
    { i with signature := { signature with checksum := crc32 env 0 (image.slice 0 signatureSize) } }
  let i ← ni
  if i.lower.readOnly then return true
  else do
    let image := wordBytes i.signature.words
    match ← writeSignatureFrom env image (env.geo.blockCount - 1 - i.mgmtStartBa)
        (env.geo.blockCount - 1) with
    | none => return false
    | some signatureBa =>
      setNi fun i => { i with signatureBa := signatureBa }
      createInfoTable env

/-- `nmbm_load_existing` -/
def loadExisting : Routine Bool := do
  setNi fun i => { i with mgmtStartBa := i.signature.mgmtStartPb.toNat }
  let i ← ni
  let success ← loadInfoTable env i.mgmtStartBa i.signatureBa
  if success then return true
  else if i.lower.create = false then return false
  else do
    scanBadblocks env
    setNi fun i => buildMappingTable env.geo i
    if i.lower.readOnly then return true
    else createInfoTable env

/-- The page loop of `nmbm_find_signature` over one block. -/
def signaturePages : (pages addr : Nat) → Routine (Option Signature)
  | 0, _ => return none
  | pages + 1, addr => do
    let got ← readData env addr (fun _ => 0) 0 signatureSize
    if got.1 = 0 ∧ checkHeader env got.2 signatureSize = true ∧
        word32 got.2 0 = magicSignature then
      return some (Signature.read got.2)
    else signaturePages pages (addr + env.geo.writesize)

/-- The loop of `nmbm_find_signature` over the blocks below `ba`. -/
def findSignatureFrom : (left ba : Nat) → Routine (Option (Signature × Nat))
  | 0, _ => return none
  | left + 1, ba => do
    let ba := ba - 1
    let bad ← checkBadPhysBlock env ba
    if bad then findSignatureFrom left ba
    else do
      match ← signaturePages env env.geo.pagesPerBlock (env.geo.ba2addr ba) with
      | some signature => return some (signature, ba)
      | none => findSignatureFrom left ba

/-- The lowest block that `nmbm_find_signature` compares with. -/
def signatureLimit (geo : Geometry) (lower : Options) : Nat :=
  let limit := geo.blockCount / 16 * (16 - lower.maxRatio)
  if lower.maxReservedBlocks ≠ 0 ∧ lower.maxReservedBlocks < geo.blockCount - limit then
    geo.blockCount - lower.maxReservedBlocks
  else limit

/-- How `nmbm_find_signature` ends: with a signature, without one, or not at all, when a limit
of zero lets the block address run below zero. -/
inductive SignatureSearch where
  | found (signature : Signature) (ba : Nat)
  | absent
  | endless
  deriving DecidableEq, Repr

/-- `nmbm_find_signature` -/
def findSignature : Routine SignatureSearch := do
  let i ← ni
  let limit := signatureLimit env.geo i.lower
  match ← findSignatureFrom env (env.geo.blockCount + 1 - max limit 1) env.geo.blockCount with
  | some (signature, ba) => return .found signature ba
  | none => return if limit = 0 then .endless else .absent

/-- `nmbm_check_lower_members`, on what the geometry leaves open: a ratio of zero stands for
one. -/
def checkLowerMembers (geo : Geometry) (lower : Options) : Option Options :=
  let lower := { lower with maxRatio := if lower.maxRatio = 0 then 1 else lower.maxRatio }
  if geo.oobsize = 0 ∨ 15 ≤ lower.maxRatio ∨
      (lower.maxReservedBlocks ≠ 0 ∧ lower.maxReservedBlocks < 32) then none
  else some lower

/-- `nmbm_init_structure`, on a cleared instance. -/
def initStructure (geo : Geometry) (lower : Options) : Instance :=
  let i := Instance.zero lower
  { i with
    infoTable := { i.infoTable with
      stateTableOff := UInt32.ofNat geo.stateTableOff
      mappingTableOff := UInt32.ofNat geo.mappingTableOff }
    blockState := fun unit => if unit < geo.stateTableSize / 4 then 0xffffffff else 0 }

/-- The signature fits the chip. -/
def signatureFits (geo : Geometry) (signature : Signature) : Bool :=
  signature.nandSize.toNat = geo.size ∧ signature.blockSize.toNat = geo.erasesize ∧
    signature.pageSize.toNat = geo.writesize ∧ signature.spareSize.toNat = geo.oobsize

/-- `nmbm_attach` on a cleared instance: its code, or none if it does not return. -/
def attach (lower : Options) : Routine (Option Int) :=
  match checkLowerMembers env.geo lower with
  | none => return some (-einval)
  | some lower => do
    setNi fun _ => initStructure env.geo lower
    match ← findSignature env with
    | .endless => return none
    | .absent =>
      if lower.create then do
        let success ← createNew env
        return some (if success then 0 else -enodev)
      else return some (-enodev)
    | .found signature ba =>
      setNi fun i => { i with signature := signature, signatureBa := ba }
      if signature.version ≠ nmbmVer then return some (-einval)
      else if signatureFits env.geo signature = false then return some (-einval)
      else do
        let success ← loadExisting env
        return some (if success then 0 else -enodev)

/-- `nmbm_detach`, which always returns zero. -/
def detach : Routine Unit := do
  let i ← ni
  if i.lower.readOnly then return ()
  else do
    let _ ← updateInfoTable env

end Filogic.Nmbm
