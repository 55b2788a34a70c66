import Filogic.Lib.Runs

/-! `hnat_mcast.c`: the PPE multicast group table, kept by bridge MDB notifications. -/

namespace Filogic.Hnat
open Lib

/-- `struct ppe_mcast_group` -/
structure McastGroup where
  macHi : UInt32
  macLo : UInt16
  vid : UInt16
  mcPort : UInt8
  eif : UInt8
  oif : UInt8
  valid : Bool
  deriving DecidableEq, Repr

/-- What `kzalloc` and `memset` leave. -/
def McastGroup.zero : McastGroup :=
  { macHi := 0, macLo := 0, vid := 0, mcPort := 0, eif := 0, oif := 0, valid := false }

def mcastToPdma : UInt8 := 1
def mcastToGdma1 : UInt8 := 2

/-- `struct ppe_mcast_table`, with the multicast registers it is copied to: the bank of each PPE
and the bank at the frame engine base, by offset. `maxEntry` is 16 or 64. -/
structure McastTable where
  mtbl : Nat → McastGroup
  maxEntry : Nat
  ppeNum : Nat
  ppeRegs : Nat → Nat → UInt32
  feRegs : Nat → UInt32

/-- `entry->addr` of a `struct br_mdb_entry`: the address words in network order, as the
little-endian CPU loads them. -/
inductive MdbAddr where
  | ip4 (addr : UInt32)
  | ip6 (word3 : UInt32)
  | other
  deriving DecidableEq, Repr

/-- A notification: `RTM_NEWMDB` or `RTM_DELMDB`, and the name of the port's net device if the
interface index still has one. -/
inductive MdbType where
  | newmdb | delmdb
  deriving DecidableEq, Repr

structure MdbEvent where
  type : MdbType
  dev : Option String
  vid : UInt16
  addr : MdbAddr
  deriving DecidableEq, Repr

/-- `swab32` -/
def swab32 (x : UInt32) : UInt32 :=
  let mask : UInt32 := 0xff00
  (x <<< 24) ||| ((x &&& mask) <<< 8) ||| ((x >>> 8) &&& mask) ||| (x >>> 24)

/-- `get_mac_from_mdb_entry`: `mac_hi` and `mac_lo`. -/
def getMacFromMdbEntry : MdbAddr → UInt32 × UInt16
  | .ip4 addr => (swab32 ((addr &&& 0xfffffe00) + 0x5e), 0x0100)
  | .ip6 word3 => (swab32 word3, 0x3333)
  | .other => (0, 0)

/-- The loop of `mcast_entry_get` from index `i` with the entry pointer at `p`; `index` is the
first unused entry once one was seen. The `continue` there leaves the pointer where it is. -/
def mcastEntryScan (t : McastTable) (vid : UInt16) (dstMac : UInt32) :
    (left i p : Nat) → (index : Option Nat) → Option Nat
  | 0, _, _, index => index
  | left + 1, i, p, index =>
    if index = none ∧ (t.mtbl p).valid = false then
      mcastEntryScan t vid dstMac left (i + 1) p (some i)
    else if (t.mtbl p).vid = vid ∧ (t.mtbl p).macHi = dstMac then
      some i
    else
      mcastEntryScan t vid dstMac left (i + 1) (p + 1) index

/-- `mcast_entry_get` -/
def mcastEntryGet (t : McastTable) (vid : UInt16) (dstMac : UInt32) : Option Nat :=
  mcastEntryScan t vid dstMac t.maxEntry 0 0 none

/-- The `mcast_h` register value of a group. -/
def mcastH (group : McastGroup) : UInt32 :=
  let valid : UInt32 := if group.valid then 0x4000 else 0
  let mcPxEn : UInt32 := (group.mcPort.toUInt32 % 16) <<< 16
  let mcMpreSel : UInt32 := if group.macLo = 0x3333 then 0x100000 else 0
  valid ||| mcPxEn ||| mcMpreSel

def ppeMcastL0 : Nat := 0x88
def ppeMcastH0 : Nat := 0x8c
def ppeMcastL10 : Nat := 0xc00
def ppeMcastH10 : Nat := 0xc04

/-- `set_hnat_mtbl`. The second bank gets the high word in both of its registers. -/
def setHnatMtbl (t : McastTable) (group : McastGroup) (index ppeId : Nat) : McastTable :=
  if index < 0x10 then
    let bank := Function.update (t.ppeRegs ppeId) (ppeMcastH0 + index * 8) (mcastH group)
    let bank := Function.update bank (ppeMcastL0 + index * 8) group.macHi
    { t with ppeRegs := Function.update t.ppeRegs ppeId bank }
  else
    let bank := Function.update t.feRegs (ppeMcastH10 + (index - 0x10) * 8) (mcastH group)
    { t with feRegs := Function.update bank (ppeMcastL10 + (index - 0x10) * 8) (mcastH group) }

/-- The loop over the PPEs at the end of `hnat_mcast_table_update`. -/
def setAllPpe (t : McastTable) (group : McastGroup) (index : Nat) : McastTable :=
  (List.range t.ppeNum).foldl (fun t i => setHnatMtbl t group index i) t

/-- Names of the LAN and WAN devices, from the device tree. -/
structure PortNames where
  lan : String
  wan : String

/-- `IS_LAN(dev) || IS_WAN(dev)`: prefix comparison with the configured names. -/
def PortNames.external (names : PortNames) (dev : String) : Bool :=
  names.lan.toList.isPrefixOf dev.toList || names.wan.toList.isPrefixOf dev.toList

/-- The counters after the `switch` on the message type. -/
def countMember (type : MdbType) (external : Bool) (vid : UInt16) (group : McastGroup) :
    McastGroup :=
  match type with
  | .newmdb =>
      let group :=
        if external then { group with eif := group.eif + 1 }
        else { group with oif := group.oif + 1 }
      { group with vid := vid, valid := true }
  | .delmdb =>
      if group.valid then
        if external then { group with eif := group.eif - 1 }
        else { group with oif := group.oif - 1 }
      else group

/-- The forward port of a valid group; an empty group is cleared. The C code writes
`MCAST_TO_PDMA || MCAST_TO_GDMA1`, a logical or. -/
def forwardGroup (group : McastGroup) : McastGroup :=
  let mcPort :=
    if group.oif ≠ 0 ∧ group.eif ≠ 0 then
      if mcastToPdma ≠ 0 ∨ mcastToGdma1 ≠ 0 then 1 else 0
    else if group.oif ≠ 0 then mcastToPdma
    else mcastToGdma1
  if group.oif = 0 ∧ group.eif = 0 then .zero else { group with mcPort := mcPort }

/-- `hnat_mcast_table_update` -/
def hnatMcastTableUpdate (names : PortNames) (t : McastTable) (event : MdbEvent) : McastTable :=
  match event.dev with
  | none => t
  | some dev =>
    let mac := getMacFromMdbEntry event.addr
    match mcastEntryGet t event.vid mac.1 with
    | none => t
    | some index =>
      let group := { t.mtbl index with macHi := mac.1, macLo := mac.2 }
      let group := countMember event.type (names.external dev) event.vid group
      if group.valid then
        let group := forwardGroup group
        setAllPpe { t with mtbl := Function.update t.mtbl index group } group index
      else
        { t with mtbl := Function.update t.mtbl index group }

/-- `hnat_mcast_enable`: an empty table. -/
def mcastEnable (maxEntry ppeNum : Nat) (ppeRegs : Nat → Nat → UInt32) (feRegs : Nat → UInt32) :
    McastTable :=
  { mtbl := fun _ => .zero, maxEntry := maxEntry, ppeNum := ppeNum, ppeRegs := ppeRegs
    feRegs := feRegs }

end Filogic.Hnat
