import Filogic.Ppe.Foe
import Filogic.Lib.Runs

/-! The flows of the packet processing engine, `mtk_ppe.c`: which hardware entry each one is written
to, and the lists they are kept on. -/

namespace Filogic.Ppe

/-- The address of a `struct mtk_flow_entry`. -/
abbrev FlowId := Nat

/-- `MTK_FLOW_TYPE_L4`, `MTK_FLOW_TYPE_L2` and `MTK_FLOW_TYPE_L2_SUBFLOW` -/
inductive FlowType where
  | l4 | l2 | l2Subflow
  deriving DecidableEq, Repr

/-- `struct mtk_flow_entry`. A subflow has `baseFlow` in the place of `data`, an L2 flow `l2Flows` in
that of the list node. -/
structure FlowEntry where
  type : FlowType
  hash : UInt16
  data : FoeEntry
  l2Flows : List FlowId
  baseFlow : FlowId

/-- `struct mtk_ppe` and the flow entries that are allocated. `writtenFor` is not in the driver: the
flow that a hardware entry was last written for, until the hardware makes another entry of it. -/
structure FlowTable where
  foeTable : UInt16 → FoeEntry
  foeFlow : Nat → List FlowId
  l2Flows : List FlowId
  flows : FlowId → Option FlowEntry
  writtenFor : UInt16 → Option FlowId

/-- After `mtk_ppe_init_foe_table`. -/
def FlowTable.start : FlowTable where
  foeTable _ := .zero
  foeFlow _ := []
  l2Flows := []
  flows _ := none
  writtenFor _ := none

namespace FlowTable

variable (s : FlowTable)

def setFlow (id : FlowId) (entry : FlowEntry) : FlowTable :=
  { s with flows := Function.update s.flows id (some entry) }

def modifyFlow (id : FlowId) (f : FlowEntry → FlowEntry) : FlowTable :=
  { s with flows := Function.update s.flows id ((s.flows id).map f) }

/-- `kfree` -/
def free (id : FlowId) : FlowTable := { s with flows := Function.update s.flows id none }

/-- `hlist_del_init(&entry->list)` -/
def unlist (id : FlowId) : FlowTable := { s with foeFlow := fun b => (s.foeFlow b).filter (· ≠ id) }

/-- `hlist_add_head(&entry->list, &ppe->foe_flow[bucket])` -/
def enlist (bucket : Nat) (id : FlowId) : FlowTable :=
  { s with foeFlow := Function.update s.foeFlow bucket (id :: s.foeFlow bucket) }

/-- The write of `__mtk_foe_entry_commit`, for the flow `id`. -/
def writeFoe (hash : UInt16) (entry : FoeEntry) (id : FlowId) : FlowTable :=
  { s with
    foeTable := Function.update s.foeTable hash entry
    writtenFor := Function.update s.writtenFor hash (some id) }

/-- The end of `__mtk_foe_entry_clear` for a hardware entry. -/
def invalidate (hash : UInt16) : FlowTable :=
  { s with foeTable := Function.update s.foeTable hash (s.foeTable hash).invalidated }

/-- `__mtk_foe_entry_clear` of a flow that is no L2 flow. A subflow leaves its base flow and is
freed. -/
def clearFlow (id : FlowId) (entry : FlowEntry) : FlowTable :=
  let s := s.unlist id
  let s := if entry.hash ≠ noHash then s.invalidate entry.hash else s
  let s := s.setFlow id { entry with hash := noHash }
  if entry.type ≠ .l2Subflow then s
  else
    (s.modifyFlow entry.baseFlow fun base =>
      { base with l2Flows := base.l2Flows.filter (· ≠ id) }).free id

/-- `__mtk_foe_entry_clear` of one subflow of an L2 flow. -/
def clearSubflow (id : FlowId) : FlowTable :=
  match s.flows id with
  | none => s
  | some entry => s.clearFlow id entry

/-- `__mtk_foe_entry_clear` -/
def foeEntryClear (id : FlowId) : FlowTable :=
  match s.flows id with
  | none => s
  | some entry =>
    if entry.type = .l2 then
      entry.l2Flows.foldl clearSubflow { s with l2Flows := s.l2Flows.filter (· ≠ id) }
    else s.clearFlow id entry

/-- `mtk_foe_entry_clear`, and the `kfree` of its callers behind it. -/
def clear (id : FlowId) : FlowTable := (s.foeEntryClear id).free id

/-- `mtk_foe_entry_commit` of a new flow; `inserted` is whether the insertion into the table of L2
flows went well. A flow that was not is freed by the caller. -/
def commit (id : FlowId) (data : FoeEntry) (inserted : Bool) : FlowTable :=
  if data.packetType = pktTypeBridge then
    if inserted then
      { s.setFlow id ⟨.l2, 0, data, [], 0⟩ with l2Flows := id :: s.l2Flows }
    else s
  else
    (s.setFlow id ⟨.l4, noHash, data, [], 0⟩).enlist (data.hashEntry.toNat / 4) id

end FlowTable

/-- `__mtk_foe_entry_idle_time` -/
def idleTime (now ib1 : UInt32) : Int :=
  let timestamp : Int := ((ib1 &&& ib1BindTimestamp).toNat : Nat)
  let now : Int := ((now &&& ib1BindTimestamp).toNat : Nat)
  if now < timestamp then (ib1BindTimestamp.toNat : Nat) + 1 - timestamp + now else now - timestamp

namespace FlowTable

variable (s : FlowTable)

/-- One round of `mtk_flow_entry_update_l2`: a subflow whose hardware entry is no longer bound goes,
the others give their timestamp to the L2 flow if it is younger. -/
def updateSubflow (now : UInt32) (id : FlowId) (w : FlowTable × Int) (cur : FlowId) : FlowTable × Int :=
  match w.1.flows cur with
  | none => w
  | some entry =>
    let hwe := w.1.foeTable entry.hash
    if ¬hwe.Bound then (w.1.clearFlow cur { entry with hash := noHash }, w.2)
    else if w.2 ≤ idleTime now hwe.ib1 then w
    else
      (w.1.modifyFlow id fun flow => { flow with data := flow.data.stamped hwe.ib1 },
        idleTime now hwe.ib1)

/-- `mtk_flow_entry_update` -/
def update (now : UInt32) (id : FlowId) : FlowTable :=
  match s.flows id with
  | none => s
  | some entry =>
    if entry.type = .l2 then
      (entry.l2Flows.foldl (updateSubflow now id) (s, idleTime now entry.data.ib1)).1
    else if entry.hash = noHash then s
    else
      let foe := s.foeTable entry.hash
      if foe.matchesFlow entry.data then
        s.setFlow id { entry with data := { entry.data with ib1 := foe.ib1 } }
      else s.setFlow id { entry with hash := noHash }

/-- `mtk_foe_entry_idle_time` -/
def foeEntryIdleTime (now : UInt32) (id : FlowId) : FlowTable × Option Int :=
  let s := s.update now id
  (s, (s.flows id).map fun entry => idleTime now entry.data.ib1)

/-- One round of the walk in `__mtk_ppe_check_skb`; the flag is `found`. -/
def checkFlow (hash : UInt16) (now : UInt32) (w : FlowTable × Bool) (id : FlowId) : FlowTable × Bool :=
  match w.1.flows id with
  | none => w
  | some entry =>
    let hwe := w.1.foeTable hash
    if entry.type = .l2Subflow then
      if hwe.Bound then w
      else (w.1.clearFlow id { entry with hash := noHash }, w.2)
    else if w.2 ∨ hwe.matchesFlow entry.data = false then
      (w.1.setFlow id { entry with hash := noHash }, w.2)
    else
      let data := entry.data.stamped now
      ((w.1.setFlow id { entry with hash := hash, data := data }).writeFoe hash data id, true)

/-- `mtk_foe_entry_commit_subflow`; `fresh` is what `kzalloc` returns. -/
def commitSubflow (hash : UInt16) (now : UInt32) (id : FlowId) (entry : FlowEntry)
    (fresh : Option FlowId) : FlowTable :=
  match fresh with
  | none => s
  | some sub =>
    let foe := ((s.foeTable hash).subflow entry.data).stamped now
    (((s.setFlow sub ⟨.l2Subflow, hash, .zero, [], id⟩).enlist (hash.toNat / 4) sub).modifyFlow id
      fun flow => { flow with l2Flows := sub :: flow.l2Flows }).writeFoe hash foe sub

end FlowTable

/-- What `__mtk_ppe_check_skb` reads of a packet: its MAC addresses, the protocol, whether its device
is a DSA master with the tags of the vendor, and the bytes from `skb->data - 2` on. -/
structure Skb where
  ethHdr : Nat → UInt8
  protocol : UInt16
  usesDsa : Bool
  tag : Nat → UInt8

/-- `get_unaligned_be16` -/
def unalignedBe16 (m : Nat → UInt8) (k : Nat) : UInt16 :=
  (m k).toUInt16 <<< 8 ||| (m (k + 1)).toUInt16

def ethP8021q : UInt16 := 0x8100
def ethPXdsa : UInt16 := 0x00f8

/-- The VLAN of the key of a packet, with `CONFIG_NET_DSA`; none when the packet is of no concern. -/
def Skb.vlan (netDsa : Bool) (skb : Skb) : Option UInt16 :=
  if netDsa ∧ skb.protocol = ethPXdsa then
    if skb.usesDsa = false then none
    else if unalignedBe16 skb.tag 4 ≠ ethP8021q then some 0
    else some (unalignedBe16 skb.tag 6 &&& 0x0fff)
  else if skb.protocol = ethP8021q then some (unalignedBe16 skb.tag 2 &&& 0x0fff)
  else some 0

/-- Whether the first 14 bytes of `data.bridge`, both MAC addresses and the VLAN, are the key. -/
def FoeEntry.hasKey (entry : FoeEntry) (ethHdr : Nat → UInt8) (vlan : UInt16) : Bool :=
  ((List.range 12).all fun k =>
    (entry.data (k / 4) >>> UInt32.ofNat (8 * (k % 4))).toUInt8 == ethHdr k) &&
  (entry.data 3).toUInt16 == vlan

namespace FlowTable

variable (s : FlowTable)

/-- `rhashtable_lookup_fast(&ppe->l2_flows, &key, ..)` -/
def lookupL2 (skb : Skb) (vlan : UInt16) : Option FlowId :=
  s.l2Flows.find? fun id => (s.flows id).any fun entry => entry.data.hasKey skb.ethHdr vlan

/-- The walk of `__mtk_ppe_check_skb` over the bucket of the hash. -/
def walk (hash : UInt16) (now : UInt32) : FlowTable × Bool :=
  (s.foeFlow (hash.toNat / 4)).foldl (checkFlow hash now) (s, false)

/-- `__mtk_ppe_check_skb`. What `kzalloc` returns is not allocated yet. -/
def checkSkb (netDsa : Bool) (skb : Option Skb) (hash : UInt16) (now : UInt32)
    (fresh : Option FlowId) : FlowTable :=
  if ppeEntries ≤ hash.toNat ∨ (s.foeTable hash).Bound then s
  else
    let (s, found) := s.walk hash now
    if found then s
    else
      match skb.bind fun skb => (skb.vlan netDsa).bind (s.lookupL2 skb) with
      | none => s
      | some id =>
        match s.flows id with
        | none => s
        | some entry =>
          s.commitSubflow hash now id entry (fresh.filter fun sub => (s.flows sub).isNone)

end FlowTable

/-- What happens to the flow table: calls of the driver, and what the hardware does to an entry by
itself. -/
inductive Event where
  | commit (id : FlowId) (data : FoeEntry) (inserted : Bool)
  | check (skb : Option Skb) (hash : UInt16) (now : UInt32) (fresh : Option FlowId)
  | idle (id : FlowId) (now : UInt32)
  | clear (id : FlowId)
  | age (hash : UInt16) (entry : FoeEntry)
  | touch (hash : UInt16) (ib1 : UInt32)

/-- The flows that users of the driver hold. -/
def FlowTable.hasUser (s : FlowTable) (id : FlowId) : Bool :=
  (s.flows id).any fun entry => decide (entry.type ≠ .l2Subflow)

/-- A step. Users commit flows that are not there yet, and ask about and clear flows that are; the
hardware binds no entry by itself, and leaves state, packet type and UDP flag of a bound one. -/
def step (netDsa : Bool) (s : FlowTable) : Event → FlowTable
  | .commit id data inserted => if (s.flows id).isSome then s else s.commit id data inserted
  | .check skb hash now fresh => s.checkSkb netDsa skb hash now fresh
  | .idle id now => if s.hasUser id then (s.foeEntryIdleTime now id).1 else s
  | .clear id => if s.hasUser id then s.clear id else s
  | .age hash entry =>
    if entry.Bound then s
    else
      { s with
        foeTable := Function.update s.foeTable hash entry
        writtenFor := Function.update s.writtenFor hash none }
  | .touch hash ib1 =>
    let entry := (s.foeTable hash).setIb1 (~~~(ib1State ||| ib1PacketType ||| ib1Udp)) ib1
    if (s.foeTable hash).Bound then
      { s with foeTable := Function.update s.foeTable hash entry }
    else s

end Filogic.Ppe
