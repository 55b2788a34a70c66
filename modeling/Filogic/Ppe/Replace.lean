import Filogic.Ppe.Committed
import Filogic.Ppe.Rules

/-! Flow offload of `mtk_ppe_offload.c` with the flow counts of `mtk_wed.c`: what a rule takes in
`mtk_flow_offload_replace` and gives back in `mtk_flow_offload_destroy`, with packets, the hardware
and the Wi-Fi devices in between. -/

namespace Filogic.Ppe.Replace
open Lib

/-- The callbacks that `struct mtk_wed_device` has. -/
structure Wed where
  offloadEnable : Bool
  offloadDisable : Bool

/-- `struct mtk_wed_hw` -/
structure Hw where
  wedDev : Option Wed
  numFlows : UInt32

/-- `struct mtk_flow_entry`, as the table of flows has it; `id` is its address. -/
structure Flow where
  cookie : UInt64
  id : FlowId
  ppeIndex : Nat
  wedIndex : Option Nat
  deriving DecidableEq

/-- `struct mtk_eth`, and `hw_list`. -/
structure Eth where
  ppeNum : Nat
  flowTable : List Flow
  ppe : Nat → FlowTable
  hw : Nat → Option Hw

/-- What the calls of `mtk_flow_offload_replace` come to: `offload_enable`, `kzalloc`, and the
insertions into the table of L2 flows and the table of flows. -/
structure Outcome where
  enable : Int
  alloc : Option FlowId
  insertL2 : Int
  insert : Int

/-- `mtk_wed_flow_add` -/
def wedFlowAdd (enable : Int) : Option Hw → Int × Option Hw
  | none => (enodev, none)
  | some hw =>
    match hw.wedDev with
    | none => (enodev, some hw)
    | some dev =>
      if dev.offloadEnable = false then (0, some hw)
      else if hw.numFlows ≠ 0 then (0, some { hw with numFlows := hw.numFlows + 1 })
      else if enable = 0 then (enable, some { hw with numFlows := hw.numFlows + 1 })
      else (enable, some hw)

/-- `mtk_wed_flow_remove` -/
def wedFlowRemove : Option Hw → Option Hw
  | none => none
  | some hw =>
    match hw.wedDev with
    | none => some hw
    | some dev =>
      if dev.offloadDisable = false then some hw
      else some { hw with numFlows := hw.numFlows - 1 }

/-- `rhashtable_insert_fast`, when the key is there already and when it is not. -/
def rhashtableInsert (present : Bool) (ret : Int) : Int := if present then eexist else ret

/-- The key of the table of L2 flows: MAC addresses and VLAN. -/
def sameBridge (a b : FoeEntry) : Bool :=
  ((List.range 3).all fun k => a.data k == b.data k) && (a.data 3).toUInt16 == (b.data 3).toUInt16

/-- What the insertion of `mtk_foe_entry_commit_l2` returns. -/
def commitL2 (s : FlowTable) (foe : FoeEntry) (ret : Int) : Int :=
  rhashtableInsert (s.l2Flows.any fun id => (s.flows id).any fun e => sameBridge e.data foe) ret

/-- What `mtk_foe_entry_commit` returns. -/
def commitRet (s : FlowTable) (foe : FoeEntry) (ret : Int) : Int :=
  if foe.packetType = pktTypeBridge then commitL2 s foe ret else 0

namespace Eth

variable (eth : Eth)

def setPpe (i : Nat) (s : FlowTable) : Eth := { eth with ppe := Function.update eth.ppe i s }

def setHw (i : Nat) (hw : Option Hw) : Eth := { eth with hw := Function.update eth.hw i hw }

/-- The call of `mtk_wed_flow_add` for a Wi-Fi flow, and what `err` is behind it. -/
def addFlow (enable : Int) : Option Nat → Int × Eth
  | none => (0, eth)
  | some i => ((wedFlowAdd enable (eth.hw i)).1, eth.setHw i (wedFlowAdd enable (eth.hw i)).2)

def removeFlow : Option Nat → Eth
  | none => eth
  | some i => eth.setHw i (wedFlowRemove (eth.hw i))

/-- `rhashtable_lookup(&eth->flow_table, &f->cookie, ..)` -/
def lookup (cookie : UInt64) : Option Flow := eth.flowTable.find? fun flow => flow.cookie = cookie

/-- An address that `kzalloc` returns is not in use. -/
def fresh (ppeIndex : Nat) (alloc : Option FlowId) : Option FlowId :=
  alloc.filter fun id => ((eth.ppe ppeIndex).flows id).isNone

/-- `mtk_flow_offload_replace` -/
def replace (cookie : UInt64) (rule : FlowRule) (outcome : Outcome) : Int × Eth :=
  if (eth.lookup cookie).isSome then (eexist, eth)
  else
    match check eth.ppeNum rule with
    | .error err => (err, eth)
    | .ok offload =>
      let i := offload.ppeIndex
      let (err, eth) := eth.addFlow outcome.enable offload.wedIndex
      if err < 0 then (err, eth)
      else
        match eth.fresh i outcome.alloc with
        | none => (enomem, eth)
        | some id =>
          if commitRet (eth.ppe i) offload.foe outcome.insertL2 < 0 then
            -- `goto free`, with the `err` of `mtk_wed_flow_add`
            (err, eth.removeFlow offload.wedIndex)
          else
            let eth := eth.setPpe i ((eth.ppe i).commit id offload.foe true)
            let err := rhashtableInsert (eth.lookup cookie).isSome outcome.insert
            if err < 0 then
              (err, (eth.setPpe i ((eth.ppe i).clear id)).removeFlow offload.wedIndex)
            else
              (0, { eth with flowTable := ⟨cookie, id, i, offload.wedIndex⟩ :: eth.flowTable })

/-- `mtk_flow_offload_destroy` -/
def destroy (cookie : UInt64) : Int × Eth :=
  match eth.lookup cookie with
  | none => (enoent, eth)
  | some flow =>
    let i := flow.ppeIndex
    let eth := eth.setPpe i ((eth.ppe i).clear flow.id)
    let eth := { eth with flowTable := eth.flowTable.eraseP fun flow => flow.cookie = cookie }
    (0, eth.removeFlow flow.wedIndex)

/-- No flows are offloaded yet; `devices` are the WEDs of the SoC with the Wi-Fi devices on them. -/
def start (ppeNum : Nat) (devices : Nat → Option (Option Wed)) : Eth where
  ppeNum := ppeNum
  flowTable := []
  ppe _ := .start
  hw i := (devices i).map fun dev => ⟨dev, 0⟩

end Eth

/-- Calls of the driver, packets that are checked, and what the hardware does by itself. A Wi-Fi device
attaches to a WED and leaves it. -/
inductive Event where
  | replace (cookie : UInt64) (rule : FlowRule) (outcome : Outcome)
  | destroy (cookie : UInt64)
  | stats (cookie : UInt64) (now : UInt32)
  | device (i : Nat) (dev : Option Wed)
  | check (i : Nat) (skb : Option Skb) (hash : UInt16) (now : UInt32) (fresh : Option FlowId)
  | age (i : Nat) (hash : UInt16) (entry : FoeEntry)
  | touch (i : Nat) (hash : UInt16) (ib1 : UInt32)

def step (netDsa : Bool) (eth : Eth) : Event → Eth
  | .replace cookie rule outcome => (eth.replace cookie rule outcome).2
  | .destroy cookie => (eth.destroy cookie).2
  | .stats cookie now =>
    match eth.lookup cookie with
    | none => eth
    | some flow =>
      eth.setPpe flow.ppeIndex ((eth.ppe flow.ppeIndex).foeEntryIdleTime now flow.id).1
  | .device i dev => eth.setHw i ((eth.hw i).map fun hw => { hw with wedDev := dev })
  | .check i skb hash now fresh =>
    eth.setPpe i ((eth.ppe i).checkSkb netDsa skb hash now fresh)
  | .age i hash entry => eth.setPpe i (Ppe.step netDsa (eth.ppe i) (.age hash entry))
  | .touch i hash ib1 => eth.setPpe i (Ppe.step netDsa (eth.ppe i) (.touch hash ib1))

end Filogic.Ppe.Replace
