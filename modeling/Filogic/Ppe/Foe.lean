import Mathlib

/-! Entries of the FOE table, `mtk_ppe.h` and `mtk_ppe.c`: 19 words behind the word `ib1`. -/

namespace Filogic.Ppe

/-- `MTK_PPE_ENTRIES` -/
def ppeEntries : Nat := 1024 <<< 3

/-- The hash of a flow without a hardware entry. -/
def noHash : UInt16 := 0xffff

def ib1BindTimestamp : UInt32 := 0x7fff
def ib1PacketType : UInt32 := 0x0e000000
def ib1State : UInt32 := 0x30000000
def ib1Udp : UInt32 := 0x40000000

def stateInvalid : UInt32 := 0
def stateBind : UInt32 := 2

def pktTypeIpv4Hnapt : UInt32 := 0
def pktTypeIpv4Route : UInt32 := 1
def pktTypeBridge : UInt32 := 2
def pktTypeIpv4Dslite : UInt32 := 3
def pktTypeIpv6Route3t : UInt32 := 4
def pktTypeIpv6Route5t : UInt32 := 5

def ethPIp : UInt32 := 0x0800
def ethPIpv6 : UInt32 := 0x86dd

/-- `struct mtk_foe_entry` -/
structure FoeEntry where
  ib1 : UInt32
  data : Nat → UInt32

def FoeEntry.zero : FoeEntry := ⟨0, fun _ => 0⟩

namespace FoeEntry

variable (entry : FoeEntry)

/-- `FIELD_GET(MTK_FOE_IB1_STATE, ib1)` and `FIELD_GET(MTK_FOE_IB1_PACKET_TYPE, ib1)` -/
def state : UInt32 := (entry.ib1 &&& ib1State) >>> 28
def packetType : UInt32 := (entry.ib1 &&& ib1PacketType) >>> 25

def Bound : Prop := entry.state = stateBind

instance : Decidable entry.Bound := inferInstanceAs (Decidable (_ = _))

/-- The first word of `struct mtk_foe_mac_info` (`mtk_foe_entry_l2`) and the word `ib2`
(`mtk_foe_entry_ib2`), which lie behind the tuple of the packet type. -/
def l2Word : Nat :=
  if entry.packetType = pktTypeBridge then 5
  else if pktTypeIpv4Dslite ≤ entry.packetType then 14
  else 10

def ib2Word : Nat :=
  if entry.packetType = pktTypeBridge then 4
  else if pktTypeIpv4Dslite ≤ entry.packetType then 13
  else 3

/-- `memcpy` of `n` words from word `src` of `source` to word `dst`. -/
def copyWords (dst : Nat) (source : FoeEntry) (src n : Nat) : FoeEntry :=
  { entry with data := fun k =>
      if dst ≤ k ∧ k < dst + n then source.data (src + (k - dst)) else entry.data k }

/-- The field `ib1` under a mask. -/
def setIb1 (mask value : UInt32) : FoeEntry :=
  { entry with ib1 := entry.ib1 &&& ~~~mask ||| value &&& mask }

/-- `mtk_ppe_hash_entry` -/
def hashEntry : UInt32 :=
  let word := entry.data
  let tuple : Option (UInt32 × UInt32 × UInt32) :=
    if entry.packetType = pktTypeIpv4Route ∨ entry.packetType = pktTypeIpv4Hnapt then
      some (word 2, word 1, word 0)
    else if entry.packetType = pktTypeIpv6Route3t ∨ entry.packetType = pktTypeIpv6Route5t then
      some (word 3 ^^^ word 7 ^^^ word 8, word 2 ^^^ word 6 ^^^ word 4,
        word 1 ^^^ word 5 ^^^ word 0)
    else none
  match tuple with
  | none => 8191
  | some (hv1, hv2, hv3) =>
    let hash := hv1 &&& hv2 ||| ~~~hv1 &&& hv3
    let hash := hash >>> 24 ||| (hash &&& 0xffffff) <<< 8
    let hash := hash ^^^ (hv1 ^^^ hv2 ^^^ hv3)
    let hash := hash ^^^ hash >>> 16
    hash <<< 1 &&& 8191

/-- `mtk_flow_entry_match`, on the data of a flow: the tuple of its packet type, which is 36 bytes
long behind `IPV4_DSLITE` and 12 before. -/
def matchesFlow (flow : FoeEntry) : Bool :=
  if (entry.ib1 ^^^ flow.ib1) &&& ib1Udp ≠ 0 then false
  else
    let words := if pktTypeIpv4Dslite < flow.packetType then 9 else 3
    (List.range words).all fun k => flow.data k == entry.data k

/-- The entry that `__mtk_foe_entry_commit` writes: the flow's data with the timestamp of now. -/
def stamped (timestamp : UInt32) : FoeEntry := entry.setIb1 ib1BindTimestamp timestamp

/-- The entry that `mtk_foe_entry_commit_subflow` makes of a hardware entry for an L2 flow. -/
def subflow (flow : FoeEntry) : FoeEntry :=
  let foe := entry.setIb1 (~~~(ib1PacketType ||| ib1Udp)) flow.ib1
  let foe := foe.copyWords foe.l2Word flow 5 5
  let foe :=
    if foe.packetType = pktTypeIpv4Hnapt then foe.copyWords 4 foe 0 3
    else if pktTypeIpv6Route3t ≤ foe.packetType ∧ foe.data foe.l2Word >>> 16 = ethPIp then
      let etype : UInt32 := foe.data foe.l2Word &&& (0xffff : UInt32) ||| ethPIpv6 <<< 16
      { foe with data := Function.update foe.data foe.l2Word etype }
    else foe
  { foe with data := Function.update foe.data foe.ib2Word (flow.data 4) }

/-- The entry with the state `MTK_FOE_STATE_INVALID`. -/
def invalidated : FoeEntry := entry.setIb1 ib1State (stateInvalid <<< 28)

end FoeEntry

section Masks

theorem or_and_right (a b field : UInt32) : (a ||| b) &&& field = a &&& field ||| b &&& field :=
  UInt32.toBitVec_inj.mp (BitVec.and_or_distrib_right)

/-- A field under another mask is out of reach. -/
theorem masked_other (a value mask field : UInt32) (apart : mask &&& field = 0) :
    (a &&& ~~~mask ||| value &&& mask) &&& field = a &&& field := by
  have rest : ~~~mask &&& field = field := by
    have whole : (mask ||| ~~~mask) &&& field = field := by simp
    rwa [or_and_right, apart, UInt32.zero_or] at whole
  rw [or_and_right, UInt32.and_assoc, UInt32.and_assoc, rest, apart, UInt32.and_zero, UInt32.or_zero]

theorem masked_own (a value mask : UInt32) :
    (a &&& ~~~mask ||| value &&& mask) &&& mask = value &&& mask := by
  rw [or_and_right, UInt32.and_assoc, UInt32.and_assoc, UInt32.and_self]
  simp

end Masks

end Filogic.Ppe
