import Filogic.Dsa.VlanEntry
import Filogic.Lib.Runs

/-! The VLAN table of the AN8855 switch: its commands go through staging registers, and may time
out. -/

namespace Filogic.Dsa
open Lib

/-- `AN8855_RESERVED_VLAN` -/
def reservedVlan : Nat := 2

/-- `G0_PORT_VID_MASK` -/
def g0PortVidMask : BitVec 32 := 0xfff#32

/-- `G0_PORT_VID` -/
def g0PortVid (vid : Nat) : BitVec 32 := BitVec.ofNat 32 vid &&& g0PortVidMask

/-- `G0_PORT_VID_DEF` -/
def g0PortVidDef : Nat := 1

/-- How a command ends: it is done, or the poll of the driver times out, and the hardware may still
have carried it out. -/
inductive Reply where
  | done
  | timeout (carried : Bool)
  deriving DecidableEq, Repr

def Reply.carries : Reply → Bool
  | .done => true
  | .timeout carried => carried

/-- The registers that VLANs use, the VLAN table behind them (two words for a VID), and the `pvid` of
each port. -/
structure VlanSwitch where
  vawd0 : BitVec 32
  vawd1 : BitVec 32
  vard0 : BitVec 32
  table : Nat → BitVec 32 × BitVec 32
  pvidReg : PortNum → BitVec 32
  pvid : PortNum → Nat

/-- `an8855_vlan_cmd` for `AN8855_VTCR_RD_VID`: a VID above `0xfff` is refused. -/
def vlanCmdRead (vid : Nat) (reply : Reply) (s : VlanSwitch) : VlanSwitch :=
  if vid > 0xfff then s
  else if reply.carries then { s with vard0 := (s.table vid).1 }
  else s

/-- `an8855_vlan_cmd` for `AN8855_VTCR_WR_VID` -/
def vlanCmdWrite (vid : Nat) (reply : Reply) (s : VlanSwitch) : VlanSwitch :=
  if vid > 0xfff then s
  else if reply.carries then
    { s with table := Function.update s.table vid (s.vawd0, s.vawd1) }
  else s

/-- `struct an8855_hw_vlan_entry` -/
structure HwVlanEntry where
  port : PortNum
  oldMembers : BitVec 8
  untagged : Bool
  deriving DecidableEq, Repr

/-- `an8855_hw_vlan_add` -/
def hwVlanAdd (entry : HwVlanEntry) (s : VlanSwitch) : VlanSwitch :=
  { s with
    vawd0 := addWord s.vard0 entry.oldMembers entry.port entry.untagged
    vawd1 := 0 }

/-- `an8855_hw_vlan_del` -/
def hwVlanDel (entry : HwVlanEntry) (s : VlanSwitch) : VlanSwitch :=
  let newMembers := membersWithout entry.oldMembers entry.port
  if s.vard0.getLsbD 0 = false then s
  else if newMembers ≠ 0 ∧ newMembers ≠ (bit cpuPort).setWidth 8 then
    { s with vawd0 := keepWord newMembers }
  else { s with vawd0 := 0, vawd1 := 0 }

/-- `an8855_hw_vlan_update`: neither command is checked. -/
def hwVlanUpdate (vid : Nat) (entry : HwVlanEntry) (op : HwVlanEntry → VlanSwitch → VlanSwitch)
    (replies : Reply × Reply) (s : VlanSwitch) : VlanSwitch :=
  let s := vlanCmdRead vid replies.1 s
  let entry := { entry with oldMembers := oldMembers s.vard0 }
  vlanCmdWrite vid replies.2 (op entry s)

/-- `vid_begin` and `vid_end`. The loop counter is a `u16`, and the bridge gives VIDs of 12 bits. -/
structure VidRange where
  first : Nat
  last : Nat
  bound : last < 0xffff

def VidRange.vids (range : VidRange) : List Nat :=
  List.range' range.first (range.last + 1 - range.first)

/-- One round of the loop in `an8855_port_vlan_add`. -/
def addVid (port : PortNum) (untagged : Bool) (replies : Nat → Reply × Reply) (s : VlanSwitch)
    (vid : Nat) : VlanSwitch :=
  hwVlanUpdate vid ⟨port, 0, untagged⟩ hwVlanAdd (replies vid) s

/-- One round of the loop in `an8855_port_vlan_del`, but for the PVID. -/
def delVid (port : PortNum) (replies : Nat → Reply × Reply) (s : VlanSwitch) (vid : Nat) :
    VlanSwitch :=
  hwVlanUpdate vid ⟨port, 0, false⟩ hwVlanDel (replies vid) s

def VlanSwitch.setPvid (s : VlanSwitch) (port : PortNum) (set : BitVec 32) (pvid : Nat) :
    VlanSwitch :=
  { s with
    pvidReg := Function.update s.pvidReg port (rmw (s.pvidReg port) g0PortVidMask set)
    pvid := Function.update s.pvid port pvid }

/-- `an8855_port_vlan_add` -/
def portVlanAdd (port : PortNum) (range : VidRange) (untagged pvid : Bool)
    (replies : Nat → Reply × Reply) (s : VlanSwitch) : VlanSwitch :=
  let s := range.vids.foldl (addVid port untagged replies) s
  if pvid then s.setPvid port (g0PortVid range.last) range.last else s

/-- `an8855_port_vlan_del` -/
def portVlanDel (port : PortNum) (range : VidRange) (replies : Nat → Reply × Reply)
    (s : VlanSwitch) : VlanSwitch :=
  let pvid := range.vids.foldl (fun pvid vid => if pvid = vid then g0PortVidDef else pvid) (s.pvid port)
  let s := range.vids.foldl (delVid port replies) s
  s.setPvid port (BitVec.ofNat 32 pvid) pvid

inductive VlanEvent where
  | add (port : PortNum) (range : VidRange) (untagged pvid : Bool)
      (replies : Nat → Reply × Reply)
  | del (port : PortNum) (range : VidRange) (replies : Nat → Reply × Reply)

def vlanStep (s : VlanSwitch) : VlanEvent → VlanSwitch
  | .add port range untagged pvid replies => portVlanAdd port range untagged pvid replies s
  | .del port range replies => portVlanDel port range replies s

/-- `unused_pm` -/
def unusedPm (unused : PortNum → Bool) : BitVec 32 :=
  (List.finRange 6).foldl (fun pm i => if unused i then pm ||| bit i else pm) 0

/-- `egtag_mask` -/
def egtagMask (unused : PortNum → Bool) : BitVec 32 :=
  (List.finRange 6).foldl (fun mask i => if unused i then mask ||| etagCtrlPMask i else mask) 0

/-- The VLAN part of `setup_unused_ports`: the unused ports are grouped in the reserved VLAN,
untagged. -/
def setupUnusedPorts (unused : PortNum → Bool) (reply : Reply) (s : VlanSwitch) : VlanSwitch :=
  let pm := unusedPm unused
  if pm = 0 then s
  else
    let vawd0 := rmw (ivlMac ||| vtagEn ||| portMem pm ||| vlanValid)
      (egtagMask unused <<< portEgCtrlShift) (egressUntag <<< portEgCtrlShift)
    vlanCmdWrite reservedVlan reply { s with vawd0 := vawd0, vawd1 := 0 }

/-- A switch after its reset: no VLAN has an entry. -/
structure FreshSwitch where
  switch : VlanSwitch
  empty : ∀ vid, (switch.table vid).1 = 0

/-- `an8855_setup` -/
def vlanAtSetup (fresh : FreshSwitch) (unused : PortNum → Bool) (reply : Reply) : VlanSwitch :=
  setupUnusedPorts unused reply fresh.switch

end Filogic.Dsa
