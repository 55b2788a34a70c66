import Mathlib

/-! The MT753x switch under swconfig: the VLANs and ports as they are configured, by the number of
the VLAN, and the registers and VLAN table that an apply programs, by VID. -/

namespace Filogic.Mt753x

/-- A port below `MT753X_NUM_PORTS`. -/
abbrev PortNum := Fin 7

/-- `MT753X_NUM_VLANS` -/
def numVlans : Nat := 4095

/-- `MT753X_MAX_VID` -/
def maxVid : Nat := 4095

/-- `BIT(i)` in a `u8`. -/
def bit8 (i : Nat) : BitVec 8 := 1#8 <<< i

def ventryValid : BitVec 32 := 1#32 <<< 0
def vtagEn : BitVec 32 := 1#32 <<< 28
def ivlMac : BitVec 32 := 1#32 <<< 30
def portMemS : Nat := 16
def portMemM : BitVec 32 := 0xff0000#32
def etagCtrlUntag : BitVec 32 := 0#32
def etagCtrlTag : BitVec 32 := 2#32

/-- `PORT_ETAG_S` -/
def portEtagS (port : PortNum) : Nat := port.val * 2

def portMatrixS : Nat := 16
def portMatrixM : BitVec 32 := 0xff0000#32
def securityMode : BitVec 32 := 3#32
def stagVpid : BitVec 32 := 0x8100#32 <<< 16
def vaTransparentPort : BitVec 32 := 3#32 <<< 6
def pvcPortStag : BitVec 32 := 1#32 <<< 5
def grpPortVidM : BitVec 32 := 0xfff#32

/-- `struct mt753x_vlan_entry` -/
structure VlanEntry where
  vid : Nat
  member : BitVec 8
  etags : BitVec 8
  deriving DecidableEq, Repr

/-- The configuration in `struct gsw_mt753x`, the registers behind it, and the VLAN table with its
two words for a VID. `stagOn` is the flag of `port5_cfg` and `port6_cfg`. -/
structure Gsw where
  globalVlanEnable : Bool
  vlanEntries : Nat → VlanEntry
  portEntries : PortNum → Nat
  cpuPort : PortNum
  stagOn : PortNum → Bool
  vawd1 : BitVec 32
  vawd2 : BitVec 32
  table : Nat → BitVec 32 × BitVec 32
  pcr : PortNum → BitVec 32
  pvc : PortNum → BitVec 32
  ppbv1 : PortNum → BitVec 32

def Gsw.setEntry (s : Gsw) (vlan : Nat) (entry : VlanEntry) : Gsw :=
  { s with vlanEntries := Function.update s.vlanEntries vlan entry }

/-- The ports, in the order of the loops over them. -/
def ports : List PortNum := List.finRange 7

/-- `mt753x_vlan_ctrl` with `VTCR_WRITE_VLAN_ENTRY` -/
def vlanCtrlWrite (vid : Nat) (s : Gsw) : Gsw :=
  { s with table := Function.update s.table (vid % 4096) (s.vawd1, s.vawd2) }

/-- `mt753x_vlan_ctrl` with `VTCR_READ_VLAN_ENTRY` -/
def vlanCtrlRead (vid : Nat) (s : Gsw) : Gsw :=
  { s with vawd1 := (s.table (vid % 4096)).1, vawd2 := (s.table (vid % 4096)).2 }

/-- What `mt753x_write_vlan_entry` writes to `VAWD1`. -/
def memberWord (member : BitVec 8) : BitVec 32 :=
  if member ≠ 0 then
    ivlMac ||| vtagEn ||| ventryValid ||| ((member.setWidth 32 <<< portMemS) &&& portMemM)
  else 0

/-- What `mt753x_write_vlan_entry` writes to `VAWD2`. -/
def etagWord (etags : BitVec 8) : BitVec 32 :=
  ports.foldl (fun val port =>
    if etags.getLsbD port.val then val ||| (etagCtrlTag <<< portEtagS port)
    else val ||| (etagCtrlUntag <<< portEtagS port)) 0

/-- `mt753x_write_vlan_entry` -/
def writeVlanEntry (vid : Nat) (member etags : BitVec 8) (s : Gsw) : Gsw :=
  vlanCtrlWrite vid { s with vawd1 := memberWord member, vawd2 := etagWord etags }

/-- One VLAN in the loop that collects `tag_ports` and `untag_ports`. -/
def tagPorts (s : Gsw) (masks : BitVec 8 × BitVec 8) (i : Nat) : BitVec 8 × BitVec 8 :=
  let member := (s.vlanEntries i).member
  let etags := (s.vlanEntries i).etags
  if member = 0 then masks
  else ports.foldl (fun masks j =>
    if member.getLsbD j.val then
      if etags.getLsbD j.val then (masks.1 ||| bit8 j.val, masks.2)
      else (masks.1, masks.2 ||| bit8 j.val)
    else masks) masks

/-- `pvc_mode` of a port in `mt753x_apply_vlan_config`. -/
def pvcMode (s : Gsw) (masks : BitVec 8 × BitVec 8) (i : PortNum) : BitVec 32 :=
  if s.stagOn i && (i = 5 || i = 6) then stagVpid ||| pvcPortStag
  else if masks.2.getLsbD i.val && !masks.1.getLsbD i.val then stagVpid ||| vaTransparentPort
  else stagVpid

/-- The PVID of a port: none when it names a VLAN without members. -/
def pvidOf (s : Gsw) (i : PortNum) : Nat :=
  let vlan := s.portEntries i
  if vlan < numVlans ∧ (s.vlanEntries vlan).member ≠ 0 then (s.vlanEntries vlan).vid else 0

/-- One VLAN in the loop that programs the table. -/
def programVlan (s : Gsw) (i : Nat) : Gsw :=
  let entry := s.vlanEntries i
  if entry.member ≠ 0 then writeVlanEntry entry.vid entry.member entry.etags s else s

/-- The modes of the ports in `mt753x_apply_vlan_config`. -/
def applyModes (s : Gsw) : Gsw :=
  let masks := (List.range numVlans).foldl (tagPorts s) (0, 0)
  { s with pcr := fun _ => portMatrixM ||| securityMode, pvc := pvcMode s masks }

/-- Its loop that clears the table, by the numbers of the VLANs. -/
def clearTable (s : Gsw) : Gsw :=
  (List.range numVlans).foldl (fun s i => writeVlanEntry i 0 0 s) s

/-- Its loop that programs the VLANs with members, by their VIDs. -/
def programTable (s : Gsw) : Gsw := (List.range numVlans).foldl programVlan s

/-- Its loop over the PVIDs. -/
def applyPvids (s : Gsw) : Gsw :=
  { s with ppbv1 := fun i => (s.ppbv1 i &&& ~~~grpPortVidM) ||| BitVec.ofNat 32 (pvidOf s i) }

/-- `mt753x_apply_vlan_config` -/
def applyVlanConfig (s : Gsw) : Gsw := applyPvids (programTable (clearTable (applyModes s)))

/-- `mt753x_port_isolation` -/
def portIsolation (s : Gsw) : Gsw :=
  { s with
    pcr := Function.update (fun _ => BitVec.setWidth 32 (bit8 s.cpuPort.val) <<< portMatrixS)
      s.cpuPort portMatrixM
    pvc := fun i =>
      if s.stagOn i && (i = 5 || i = 6) then stagVpid ||| pvcPortStag
      else stagVpid ||| vaTransparentPort }

/-- `mt753x_apply_config` -/
def applyConfig (s : Gsw) : Gsw :=
  if s.globalVlanEnable then applyVlanConfig s else portIsolation s

/-- `mt753x_reset_switch` -/
def resetSwitch (s : Gsw) : Gsw :=
  { s with
    portEntries := fun _ => 0
    vlanEntries := fun i => if i < numVlans then ⟨i, 0, 0⟩ else s.vlanEntries i }

/-- `mt753x_set_vlan_enable` -/
def setVlanEnable (value : Nat) (s : Gsw) : Gsw := { s with globalVlanEnable := value ≠ 0 }

/-- `mt753x_set_port_pvid`; `none` is `-EINVAL`. -/
def setPortPvid (port : Nat) (pvid : Int) (s : Gsw) : Option Gsw :=
  if bound : port < 7 then
    if pvid < 0 ∨ pvid > maxVid then none
    else some { s with portEntries := Function.update s.portEntries ⟨port, bound⟩ pvid.toNat }
  else none

/-- `struct switch_port` -/
structure SwitchPort where
  id : Nat
  tagged : Bool
  deriving DecidableEq, Repr

/-- One port in the loop of `mt753x_set_vlan_ports`. -/
def collectPort (masks : BitVec 8 × BitVec 8) (p : SwitchPort) : Option (BitVec 8 × BitVec 8) :=
  if p.id ≥ 7 then none
  else some (masks.1 ||| bit8 p.id, if p.tagged then masks.2 ||| bit8 p.id else masks.2)

/-- `mt753x_set_vlan_ports` -/
def setVlanPorts (vlan : Nat) (list : List SwitchPort) (s : Gsw) : Option Gsw :=
  if vlan ≥ numVlans ∨ list.length > 7 then none
  else
    (list.foldlM collectPort (0, 0)).map fun masks =>
      s.setEntry vlan { s.vlanEntries vlan with member := masks.1, etags := masks.2 }

/-- `mt753x_set_vid`: the value is cut to a `u16`. -/
def setVid (vlan value : Nat) (s : Gsw) : Option Gsw :=
  let vid := value % 65536
  if vlan ≥ numVlans then none
  else if vid > maxVid then none
  else some (s.setEntry vlan { s.vlanEntries vlan with vid := vid })

/-- `mt753x_get_vlan_ports` for a list of ports whose flags are clear. -/
def getVlanPorts (vlan : Nat) (s : Gsw) : Option (List SwitchPort × Gsw) :=
  if vlan ≥ numVlans then none
  else
    let s := vlanCtrlRead vlan s
    let member := (s.vawd1 &&& portMemM) >>> portMemS
    some (ports.filterMap fun i =>
      if member.getLsbD i.val then
        some ⟨i.val, (s.vawd2 >>> portEtagS i) &&& 3#32 = etagCtrlTag⟩
      else none, s)

/-- `mt753x_get_port_pvid` -/
def getPortPvid (port : Nat) (s : Gsw) : Option Nat :=
  if bound : port < 7 then some (s.ppbv1 ⟨port, bound⟩ &&& grpPortVidM).toNat else none

inductive Op where
  | setVid (vlan value : Nat)
  | setPorts (vlan : Nat) (list : List SwitchPort)
  | setPvid (port : Nat) (pvid : Int)
  | reset
  | enableVlan (value : Nat)
  | getPorts (vlan : Nat)
  | apply
  deriving DecidableEq, Repr

/-- A call that fails leaves the switch as it is. -/
def step (s : Gsw) : Op → Gsw
  | .setVid vlan value => (setVid vlan value s).getD s
  | .setPorts vlan list => (setVlanPorts vlan list s).getD s
  | .setPvid port pvid => (setPortPvid port pvid s).getD s
  | .reset => resetSwitch s
  | .enableVlan value => setVlanEnable value s
  | .getPorts vlan => ((getVlanPorts vlan s).map (·.2)).getD s
  | .apply => applyConfig s

end Filogic.Mt753x
