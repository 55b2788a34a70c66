import Filogic.Hnat.Foe

/-! `hnat_nf_hook.c`: the packet hooks that read or write the flow table. A hook runs as one
step, so `spin_trylock` finds the lock free. -/

namespace Filogic.Hnat
open Lib

/-- `enum mtk_hnat_version` -/
inductive HnatVersion where
  | v11 | v12 | v13 | v14 | v15 | v2 | v3
  deriving DecidableEq, Repr

/-- The build options, the SoC data and the toggles in `struct mtk_hnat`. -/
structure HnatPriv where
  netsysV2 : Bool
  netsysV3 : Bool
  version : HnatVersion
  foeEtryNum : Nat
  ppeNum : Nat
  mcast : Bool
  whnat : Bool
  mapeToggle : Bool
  xlatToggle : Bool
  qosToggle : Bool

/-- A net device by the classes that the hooks ask for. -/
structure NetDev where
  lan : Bool
  wan : Bool
  ext : Bool
  ppd : Bool
  wifiHook : Bool
  ifindex : UInt8

/-- `IS_WHNAT` -/
def isWhnat (hnat : HnatPriv) (dev : NetDev) : Bool := hnat.whnat ∧ dev.wifiHook

/-- `skb_hnat_reason` -/
inductive CpuReason where
  | hitUnbindRateReach | hitBindKeepaliveDupOldHdr | hitBindMulticastToCpu
  | hitBindMulticastToGmacCpu | other
  deriving DecidableEq, Repr

inductive Iface where
  | geLan | geWan | ext | geVirtual | gePpd | geLan2 | wed0 | wed1 | wed2 | other
  deriving DecidableEq, Repr

/-- The network header as far as the DSCP update reads it. -/
inductive NetHdr where
  | ip (tos : UInt8)
  | ipv6 (trafficClass : UInt8)
  | other
  deriving DecidableEq, Repr

/-- What the walk over a packet's headers and the layer 2, QoS and DSA code fill into a zeroed
entry. `translated`: an IPv6 5-tuple packet whose addresses are not those of the entry. `mape`:
a MAP-E packet on its way to the WAN. -/
structure HeaderFill where
  entry : FoeEntry
  translated : Bool
  mape : Bool

/-- What the 464XLAT code finds in a packet. -/
structure Xlat where
  l2w : Bool
  hash : Option Nat
  fill : FoeEntry → Option FoeEntry

/-- The inner header of a MAP-E packet: protocol, DSCP, and the addresses and ports as the entry
keeps them. -/
structure InnerHdr where
  udp : Bool
  tos : UInt8
  flow : Fin 12 → UInt8

/-- A packet as a hook finds it: the descriptor in its headroom, and its headers by what the
hook's walk over them returns. -/
structure Skb where
  entry : Nat
  crsn : CpuReason
  sport : Nat
  iface : Iface
  alg : Bool
  filled : Bool
  magicTag : Bool
  headroom : Bool
  macHeader : Bool
  exceptionMark : Bool
  netHdr : NetHdr
  multicastDest : Bool
  accelType : Bool
  nexthop : Bool
  stagFails : Bool
  headers : FoeEntry → Option HeaderFill
  xlat : Option Xlat
  ipip : Bool
  inner : Option InnerHdr
  sixRd : Bool
  extDev : Bool
  wanDev : Bool
  mapeHdr : Bool
  hqosTag : Bool
  sameFlow : FoeEntry → Bool
  wifiFill : FoeEntry → FoeEntry
  timestamp : UInt8 × UInt8

/-- `struct hnat_desc` as `mtk_464xlat_pre_process` keeps it. -/
structure HnatDesc where
  crsn : CpuReason
  iface : Iface
  deriving DecidableEq, Repr

structure FoeTables where
  foe : Nat → Nat → FoeEntry
  headroom : Nat → HnatDesc

def FoeTables.write (t : FoeTables) (ppe index : Nat) (entry : FoeEntry) : FoeTables :=
  { t with foe := Function.update t.foe ppe (Function.update (t.foe ppe) index entry) }

/-- `skb_hnat_ppe` -/
def skbHnatPpe (hnat : HnatPriv) (skb : Skb) : Nat :=
  if skb.sport = 15 ∧ 3 ≤ hnat.ppeNum then 2
  else if skb.sport = 2 ∧ 2 ≤ hnat.ppeNum then 1 else 0

/-- `headroom_ppe` -/
def headroomPpe (hnat : HnatPriv) (desc : HnatDesc) : Nat :=
  if (desc.iface = .geLan2 ∨ desc.iface = .wed2) ∧ hnat.ppeNum = 3 then 2 else 0

/-- `skb_hnat_is_hashed` -/
def skbHnatIsHashed (hnat : HnatPriv) (skb : Skb) : Bool :=
  skb.entry ≠ (if hnat.netsysV2 ∨ hnat.netsysV3 then 0x7fff else 0x3fff) ∧
    skb.entry < hnat.foeEtryNum

/-- `skb_hnat_entry(skb) < foe_etry_num && skb_hnat_ppe(skb) < CFG_PPE_NUM` -/
def inTable (hnat : HnatPriv) (skb : Skb) : Bool :=
  skb.entry < hnat.foeEtryNum ∧ skbHnatPpe hnat skb < hnat.ppeNum

/-- The entry that a packet's descriptor names. -/
def entryOf (hnat : HnatPriv) (t : FoeTables) (skb : Skb) : FoeEntry :=
  t.foe (skbHnatPpe hnat skb) skb.entry

def writeEntryOf (hnat : HnatPriv) (t : FoeTables) (skb : Skb) (entry : FoeEntry) : FoeTables :=
  t.write (skbHnatPpe hnat skb) skb.entry entry

/-- `gmac` is a port: the switch tag went in for a LAN or WAN device, or the packet came from
the Ethernet side or from WED and leaves by an external device. -/
def hasDp (skb : Skb) (dev : NetDev) : Bool :=
  if dev.lan ∨ dev.wan then !skb.stagFails
  else dev.ext ∧ skb.iface ≠ .ext ∧ skb.iface ≠ .other

/-- An IPv6 flow whose addresses the host translates. -/
def translates (foe : FoeEntry) (fill : HeaderFill) : Bool :=
  foe.bfib1.pktType = .ipv6FiveTRoute ∧ fill.translated

/-- `act_dp` of a new entry: the index of the device behind the CPU, if the flow goes there. -/
def newActDp (hnat : HnatPriv) (dev : NetDev) (fill : HeaderFill) : UInt8 :=
  if (dev.lan ∨ dev.wan) ∧ ¬(dev.wan ∧ hnat.mapeToggle ∧ fill.mape) then 0
  else dev.ifindex &&& udfPingpongIfidx

/-- The new entry has the packet type of the old one, or IPV6_HNAPT for a translated flow. -/
def newEntry (hnat : HnatPriv) (dev : NetDev) (foe : FoeEntry) (fill : HeaderFill) : FoeEntry :=
  let pktType := if translates foe fill then .ipv6Hnapt else foe.bfib1.pktType
  FoeEntry.setActDp
    { bfib1 := { fill.entry.bfib1 with pktType := pktType, state := .unbind, ttl := false }
      union := fill.entry.union }
    (newActDp hnat dev fill)

/-- The entry that `skb_to_hnat_info` builds for a packet, before its final part. -/
def buildEntry (hnat : HnatPriv) (skb : Skb) (dev : NetDev) (foe : FoeEntry) :
    Option FoeEntry :=
  if hnat.mcast = false ∧ skb.multicastDest then none
  else if foe.bfib1.state ≠ .unbind then none
  else match skb.headers foe with
  | none => none
  | some fill =>
    if translates foe fill ∧ hnat.netsysV3 = false then none
    else if hasDp skb dev = false then none
    else some (newEntry hnat dev foe fill)

/-- The end of `skb_to_hnat_info`: for a Wi-Fi device the entry is written locked and stays
unbound until `mtk_sw_nat_hook_tx`; for any other device it is bound here. The lock of the old
entry is looked at in the first case only. -/
def skbToHnatInfo (hnat : HnatPriv) (skb : Skb) (dev : NetDev) (foe : FoeEntry) : FoeEntry :=
  match buildEntry hnat skb dev foe with
  | none => foe
  | some entry =>
    if isWhnat hnat dev then
      if isHnatEntryLocked foe then foe
      else if foe.bfib1.state ≠ .unbind then foe
      else hnatSetEntryLock entry true
    else if foe.bfib1.state ≠ .unbind then foe
    else { entry with bfib1 := { entry.bfib1 with ttl := true, state := .bind } }

/-- Offset of `iblk2.dscp`. -/
def dscpOffset (pktType : FoeIpAct) : Nat := if isIpv4Grp pktType then 23 else 59

/-- The DSCP value that `mtk_hnat_dscp_update` puts into an entry, if the entry has another. -/
def staleDscp (skb : Skb) (entry : FoeEntry) : Option UInt8 :=
  let pktType := entry.bfib1.pktType
  match skb.netHdr with
  | .ip tos =>
    if isIpv4Grp pktType ∧ entry.union (dscpOffset pktType) ≠ tos then some tos else none
  | .ipv6 trafficClass =>
    if (pktType = .ipv6ThreeTRoute ∨ pktType = .ipv6FiveTRoute) ∧
        entry.union (dscpOffset pktType) ≠ trafficClass then some trafficClass
    else none
  | .other => none

/-- `mtk_hnat_dscp_update` -/
def hnatDscpUpdate (skb : Skb) (entry : FoeEntry) : FoeEntry :=
  match staleDscp skb entry with
  | none => entry
  | some dscp =>
    { entry with union := Function.update entry.union (dscpOffset entry.bfib1.pktType) dscp }

/-- The timestamp of a static multicast entry is refreshed. -/
def stampsMcast (hnat : HnatPriv) (entry : FoeEntry) : Bool :=
  hnat.version = .v13 ∧ hnat.mcast ∧ entry.bfib1.sta

def mcastStamp (hnat : HnatPriv) (skb : Skb) (entry : FoeEntry) : FoeEntry :=
  if stampsMcast hnat entry then
    { entry with union := entry.union.splice 36 [skb.timestamp.1, skb.timestamp.2] }
  else entry

/-- The entry that the 464XLAT code fills: bound at once, whatever was there. -/
def xlatEntry (l2w : Bool) (fill : FoeEntry) : FoeEntry :=
  let pktType := if l2w then .ipv4Dslite else .ipv6SixRd
  FoeEntry.setActDp
    { bfib1 := { fill.bfib1 with pktType := pktType, state := .bind, ttl := true }
      union := fill.union }
    0

/-- `mtk_464xlat_post_process`: the entry that it writes, if it writes one. -/
def xlatPostProcess (hnat : HnatPriv) (t : FoeTables) (skb : Skb) :
    Option (Nat × Nat × FoeEntry) :=
  match skb.xlat with
  | none => none
  | some xlat =>
    match xlat.hash with
    | none => none
    | some hash =>
      if hnat.foeEtryNum ≤ hash then none
      else if (t.headroom hash).crsn ≠ .hitUnbindRateReach then none
      else
        let ppe := headroomPpe hnat (t.headroom hash)
        match xlat.fill (t.foe ppe hash) with
        | none => none
        | some fill => some (ppe, hash, xlatEntry xlat.l2w fill)

/-- The checks of `mtk_hnat_nf_post_routing` before it looks at the CPU reason. -/
def postRoutes (hnat : HnatPriv) (skb : Skb) (out : NetDev) : Bool :=
  ¬skb.alg ∧ skb.magicTag ∧ skb.headroom ∧ skb.macHeader ∧ skbHnatIsHashed hnat skb ∧
    ¬skb.exceptionMark ∧ (out.lan ∨ out.wan ∨ out.ext) ∧ inTable hnat skb

/-- The packet of an unbound flow gets to `skb_to_hnat_info`; `fn` is the next hop lookup,
which the bridge hook has not. -/
def learns (skb : Skb) (fn : Bool) (entry : FoeEntry) : Bool :=
  entry.bfib1.state ≠ .bind ∧ (fn → skb.accelType ∧ skb.nexthop)

/-- `mtk_hnat_nf_post_routing` -/
def nfPostRouting (hnat : HnatPriv) (skb : Skb) (out : NetDev) (fn : Bool) (t : FoeTables) :
    FoeTables :=
  match if hnat.xlatToggle then xlatPostProcess hnat t skb else none with
  | some (ppe, hash, entry) => t.write ppe hash entry
  | none =>
    if postRoutes hnat skb out then
      let entry := entryOf hnat t skb
      match skb.crsn with
      | .hitUnbindRateReach =>
        if learns skb fn entry then writeEntryOf hnat t skb (skbToHnatInfo hnat skb out entry)
        else t
      | .hitBindKeepaliveDupOldHdr =>
        if fn ∧ ¬skb.accelType then t
        else writeEntryOf hnat t skb (mcastStamp hnat skb (hnatDscpUpdate skb entry))
      | _ => t
    else t

/-- `mtk_464xlat_pre_process`, from the pre-routing hooks. -/
def xlatPreProcess (hnat : HnatPriv) (skb : Skb) (t : FoeTables) : FoeTables :=
  if hnat.xlatToggle ∧ skb.magicTag ∧ inTable hnat skb then
    if (entryOf hnat t skb).bfib1.state = .bind then
      { t with headroom := Function.update t.headroom skb.entry ⟨.other, .other⟩ }
    else if skb.crsn = .hitUnbindRateReach then
      { t with headroom := Function.update t.headroom skb.entry ⟨skb.crsn, skb.iface⟩ }
    else t
  else t

def setPktType (entry : FoeEntry) (pktType : FoeIpAct) : FoeEntry :=
  { entry with bfib1 := { entry.bfib1 with pktType := pktType } }

/-- The MAP-E code records the inner header: its DSCP, and its flow in the `new_*` fields. -/
def recordInner (bytes : Bytes) (inner : InnerHdr) (dscp flow : Nat) : Bytes :=
  let withDscp : Bytes := Function.update bytes dscp inner.tos
  withDscp.splice flow (List.ofFn inner.flow)

/-- The entry that `mtk_hnat_ipv6_nf_local_out` makes of the one that an IP-in-IP packet
names. -/
def tunnelOut (hnat : HnatPriv) (skb : Skb) (entry : FoeEntry) : Option FoeEntry :=
  if hnat.mapeToggle then
    match skb.inner with
    | none => none
    | some inner =>
      let entry := { entry with bfib1 := { entry.bfib1 with udp := inner.udp } }
      if hnat.netsysV2 ∨ hnat.netsysV3 then
        some { setPktType entry .ipv4MapE with union := recordInner entry.union inner 59 84 }
      else
        some { entry with union := recordInner entry.union inner 23 24 }
  else some (setPktType entry .ipv4Dslite)

/-- What a hook other than post-routing and transmit makes of its packet's entry. -/
abbrev Rewrite := HnatPriv → Skb → FoeEntry → Option FoeEntry

/-- `mtk_hnat_ipv6_nf_local_out` -/
def ipv6NfLocalOut : Rewrite := fun hnat skb entry =>
  if skb.magicTag ∧ skbHnatIsHashed hnat skb ∧ inTable hnat skb ∧
      skb.crsn = .hitUnbindRateReach ∧ skb.ipip then tunnelOut hnat skb entry
  else none

/-- `mtk_hnat_ipv4_nf_local_out` -/
def ipv4NfLocalOut : Rewrite := fun hnat skb entry =>
  if skb.magicTag ∧ skb.headroom ∧ skbHnatIsHashed hnat skb ∧ inTable hnat skb ∧ skb.sixRd then
    some (setPktType entry .ipv6SixRd)
  else none

/-- `do_hnat_ext_to_ge2`, from the bridge hooks on a packet that comes back on the ping-pong
device: the MAP-E branch. -/
def extToGe2 (dev : NetDev) : Rewrite := fun hnat skb entry =>
  if skb.magicTag ∧ dev.ppd ∧ (skb.sport = 0 ∨ skb.sport = 5) ∧
      ¬(hnat.qosToggle ∧ skb.hqosTag) ∧ inTable hnat skb ∧ ¬skb.extDev ∧ hnat.mapeToggle ∧
      skb.wanDev ∧ skb.mapeHdr then
    some (setPktType entry .ipv4Hnapt)
  else none

/-- Run such a hook on the table. -/
def rewriteEntry (hnat : HnatPriv) (skb : Skb) (hook : Rewrite) (t : FoeTables) : FoeTables :=
  match hook hnat skb (entryOf hnat t skb) with
  | none => t
  | some entry => writeEntryOf hnat t skb entry

/-- `NR_WDMA0_PORT`, `NR_WDMA1_PORT`, `NR_WDMA2_PORT` and `NR_WHNAT_WDMA_PORT`, which newer
SoCs define as `EINVAL`. -/
def isWdmaPort (hnat : HnatPriv) (gmacNo : Nat) : Bool :=
  gmacNo = 8 ∨ gmacNo = 9 ∨ gmacNo = 13 ∨
    gmacNo = (if hnat.netsysV2 ∨ hnat.netsysV3 then 22 else 3)

/-- The checks of `mtk_sw_nat_hook_tx` on a locked entry. -/
def completes (hnat : HnatPriv) (skb : Skb) (gmacNo : Nat) (entry : FoeEntry) : Bool :=
  entry.bfib1.state = .unbind ∧ ¬skb.alg ∧ skb.filled ∧ skb.magicTag ∧ skb.headroom ∧
    isWdmaPort hnat gmacNo ∧ skb.macHeader ∧ skb.crsn = .hitUnbindRateReach ∧
    ¬(hnat.mcast = false ∧ skb.multicastDest) ∧
    ((entry.bfib1.pktType = .ipv4Hnapt ∨ entry.bfib1.pktType = .ipv6FiveTRoute) →
      skb.sameFlow entry)

/-- The entry of `mtk_sw_nat_hook_tx`: source address, VLAN and Wi-Fi fields from the packet,
packet type and `act_dp` as they were. -/
def wifiEntry (skb : Skb) (entry : FoeEntry) : FoeEntry :=
  let fill := skb.wifiFill entry
  let bound : InfoBlk1 :=
    { fill.bfib1 with pktType := entry.bfib1.pktType, ttl := true, state := .bind }
  FoeEntry.setActDp { bfib1 := bound, union := fill.union } entry.actDp

/-- `mtk_sw_nat_hook_tx` on the entry of a hashed packet. -/
def hookTxEntry (hnat : HnatPriv) (skb : Skb) (gmacNo : Nat) (entry : FoeEntry) : FoeEntry :=
  if isHnatEntryLocked entry = false then entry
  else if completes hnat skb gmacNo entry then hnatSetEntryLock (wifiEntry skb entry) false
  else hnatCheckReleaseEntryLock entry

/-- The packet has an entry for `mtk_sw_nat_hook_tx` to look at. -/
def transmits (hnat : HnatPriv) (skb : Skb) : Bool :=
  skbHnatIsHashed hnat skb ∧ skbHnatPpe hnat skb < hnat.ppeNum

/-- `mtk_sw_nat_hook_tx` -/
def swNatHookTx (hnat : HnatPriv) (skb : Skb) (gmacNo : Nat) (t : FoeTables) : FoeTables :=
  if transmits hnat skb then
    writeEntryOf hnat t skb (hookTxEntry hnat skb gmacNo (entryOf hnat t skb))
  else t

/-- One hook on one packet. -/
inductive HookEvent where
  | preRouting (skb : Skb)
  | postRouting (skb : Skb) (out : NetDev) (fn : Bool)
  | ipv6LocalOut (skb : Skb)
  | ipv4LocalOut (skb : Skb)
  | pingPong (skb : Skb) (dev : NetDev)
  | hookTx (skb : Skb) (gmacNo : Nat)

def hookStep (hnat : HnatPriv) (t : FoeTables) : HookEvent → FoeTables
  | .preRouting skb => xlatPreProcess hnat skb t
  | .postRouting skb out fn => nfPostRouting hnat skb out fn t
  | .ipv6LocalOut skb => rewriteEntry hnat skb ipv6NfLocalOut t
  | .ipv4LocalOut skb => rewriteEntry hnat skb ipv4NfLocalOut t
  | .pingPong skb dev => rewriteEntry hnat skb (extToGe2 dev) t
  | .hookTx skb gmacNo => swNatHookTx hnat skb gmacNo t

end Filogic.Hnat
