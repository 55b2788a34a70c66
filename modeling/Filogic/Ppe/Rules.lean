import Filogic.Ppe.Foe

/-! The flow rules of `mtk_flow_offload_replace`, `mtk_ppe_offload.c`, and what it makes of one before
it takes anything: the entry for the hardware, the engine it goes to and the device of a Wi-Fi port.
With `CONFIG_MEDIATEK_NETSYS_V2` or `CONFIG_MEDIATEK_NETSYS_V3`, and WED. Fields in network order are
the numbers that they stand for. -/

namespace Filogic.Ppe.Replace

def eexist : Int := -17
def enoent : Int := -2
def enomem : Int := -12
def enodev : Int := -19
def einval : Int := -22
def eopnotsupp : Int := -95

def ipprotoUdp : UInt8 := 17
def ethP8021q : UInt16 := 0x8100

/-- `enum flow_action_mangle_base` -/
inductive MangleHdr where
  | eth | ip4 | ip6 | tcp | udp
  deriving DecidableEq, Repr

/-- A device to send to: one whose `ndo_fill_forward_path` leads to a WDMA, or another, with its
place in `eth->netdev` when it has one below DSA. -/
inductive OutDev where
  | wdma (idx : UInt8)
  | gdm (netdev : Option (Fin 3))

/-- `struct flow_action_entry` -/
inductive Action where
  | mangle (htype : MangleHdr) (offset mask val : UInt32)
  | redirect (dev : OutDev)
  | csum
  | vlanPush (proto vid : UInt16)
  | vlanPop
  | pppoePush (sid : UInt16)
  | other

/-- A flow rule, with the keys that it matches on. `receivePpe` is the engine that the ingress device
names if it is there with `ndo_fill_receive_path`; `rest` is what the `mtk_foe_entry_set` functions
make of an entry around its tuple. -/
structure FlowRule where
  isMeta : Bool
  control : Option UInt16
  basic : Option UInt8
  ip : Option UInt8
  ethAddrs : Option (Nat → UInt8)
  vlan : Option (UInt16 × UInt16)
  ports : Option (UInt16 × UInt16)
  ipv4Addrs : UInt32 × UInt32
  ipv6Addrs : Nat → UInt32
  actions : List Action
  redirects : ∃ dev, .redirect dev ∈ actions
  receivePpe : Option Nat
  rest : FoeEntry

/-- `FLOW_DISSECTOR_KEY_IPV4_ADDRS` and `FLOW_DISSECTOR_KEY_IPV6_ADDRS` -/
def keyIpv4Addrs : UInt16 := 2
def keyIpv6Addrs : UInt16 := 3

/-- `struct mtk_flow_data`, and the device of the last redirect. -/
structure FlowData where
  eth : Nat → UInt8
  srcAddr : UInt32
  dstAddr : UInt32
  srcPort : UInt16
  dstPort : UInt16
  vlanIn : UInt16
  vlan : Option (UInt16 × UInt16)
  pppoe : Option UInt16
  odev : Option OutDev

def FlowData.zero : FlowData := ⟨fun _ => 0, 0, 0, 0, 0, 0, none, none, none⟩

/-- The keys of the rule up to the type of offload: the packet type, the protocol and the addresses
of a bridge rule. -/
def matchKeys (rule : FlowRule) : Except Int (UInt32 × UInt8 × UInt16 × FlowData) :=
  if rule.isMeta = false then .error eopnotsupp
  else
    match rule.control, rule.basic, rule.ip with
    | some addrType, some l4proto, some _ =>
      if addrType = 0 then
        match rule.ethAddrs, rule.vlan with
        | none, _ => .error eopnotsupp
        | some eth, none => .ok (pktTypeBridge, l4proto, addrType, { FlowData.zero with eth := eth })
        | some eth, some (tpid, id) =>
          if tpid ≠ ethP8021q then .error eopnotsupp
          else
            .ok (pktTypeBridge, l4proto, addrType, { FlowData.zero with eth := eth, vlanIn := id })
      else if addrType = keyIpv4Addrs then .ok (pktTypeIpv4Hnapt, l4proto, addrType, .zero)
      else if addrType = keyIpv6Addrs then .ok (pktTypeIpv6Route5t, l4proto, addrType, .zero)
      else .error eopnotsupp
    | _, _, _ => .error eopnotsupp

/-- `mtk_flow_offload_mangle_eth` -/
def mangleEth (offset mask val : UInt32) (eth : Nat → UInt8) : Nat → UInt8 :=
  if 8 < offset then eth
  else
    let skip := if mask = 0xffff0000 then 2 else 0
    let dest := offset.toNat + skip
    let size := if mask ≠ 0 then 2 else 4
    fun k =>
      if dest ≤ k ∧ k < dest + size then
        (val >>> (24 - 8 * UInt32.ofNat (skip + (k - dest)))).toUInt8
      else eth k

/-- The first loop over the actions. -/
def readAction (type : UInt32) (data : FlowData) : Action → Except Int FlowData
  | .mangle htype offset mask val =>
    if type = pktTypeBridge then .error eopnotsupp
    else if htype = .eth then .ok { data with eth := mangleEth offset mask val data.eth }
    else .ok data
  | .redirect dev => .ok { data with odev := some dev }
  | .csum => .ok data
  | .vlanPush proto vid =>
    if data.vlan.isSome ∨ proto ≠ ethP8021q then .error eopnotsupp
    else .ok { data with vlan := some (vid, proto) }
  | .vlanPop => .ok data
  | .pppoePush sid =>
    if data.pppoe.isSome then .error eopnotsupp else .ok { data with pppoe := some sid }
  | .other => .error eopnotsupp

/-- `is_valid_ether_addr` -/
def validEtherAddr (addr : Nat → UInt8) : Bool :=
  (addr 0 &&& 1 == 0) && (List.range 6).any fun k => addr k != 0

/-- `mtk_flow_mangle_ports` -/
def manglePorts (offset mask val : UInt32) (data : FlowData) : Except Int FlowData :=
  if offset = 0 then
    if mask = 0xffff0000 then .ok { data with dstPort := val.toUInt16 }
    else .ok { data with srcPort := (val >>> 16).toUInt16 }
  else if offset = 2 then .ok { data with dstPort := val.toUInt16 }
  else .error einval

/-- `mtk_flow_mangle_ipv4`; the offsets are those of `saddr` and `daddr` in `struct iphdr`. -/
def mangleIpv4 (offset val : UInt32) (data : FlowData) : Except Int FlowData :=
  if offset = 12 then .ok { data with srcAddr := val }
  else if offset = 16 then .ok { data with dstAddr := val }
  else .error einval

/-- The second loop over the actions. -/
def applyMangle (type : UInt32) (data : FlowData) : Action → Except Int FlowData
  | .mangle htype offset mask val =>
    if type = pktTypeBridge then .error eopnotsupp
    else
      match htype with
      | .tcp | .udp => manglePorts offset mask val data
      | .ip4 => mangleIpv4 offset val data
      | .eth => .ok data
      | .ip6 => .error eopnotsupp
  | _ => .ok data

/-- The ports of the rule, which a bridge rule has not. -/
def matchPorts (type : UInt32) (rule : FlowRule) (data : FlowData) : Except Int FlowData :=
  match rule.ports with
  | some (src, dst) =>
    if type = pktTypeBridge then .error eopnotsupp
    else .ok { data with srcPort := src, dstPort := dst }
  | none => if type ≠ pktTypeBridge then .error eopnotsupp else .ok data

/-- The engine of the ingress device. -/
def receivePpe (ppeNum : Nat) (rule : FlowRule) : Except Int Nat :=
  match rule.receivePpe with
  | none => .ok 0
  | some i => if ppeNum ≤ i then .error einval else .ok i

/-- `mtk_flow_set_output_device`: the device of a Wi-Fi port. The last branch is for a rule without a
redirect. -/
def setOutputDevice : Option OutDev → Except Int (Option Nat)
  | some (.wdma idx) => if idx ≤ 2 then .ok (some idx.toNat) else .error eopnotsupp
  | some (.gdm (some _)) => .ok none
  | some (.gdm none) | none => .error eopnotsupp

/-- Four bytes of memory as a word. -/
def memWord (m : Nat → UInt8) (k : Nat) : UInt32 :=
  (m (4 * k)).toUInt32 ||| (m (4 * k + 1)).toUInt32 <<< 8 ||| (m (4 * k + 2)).toUInt32 <<< 16 |||
    (m (4 * k + 3)).toUInt32 <<< 24

def portsWord (src dst : UInt16) : UInt32 := dst.toUInt32 ||| src.toUInt32 <<< 16

/-- The words of the tuple: MAC addresses and VLAN of a bridge entry, the addresses and ports of the
others, behind them those the packet leaves with. `data` is what the rule matches, `out` what the
actions make of it. -/
def tupleWord (type : UInt32) (rule : FlowRule) (data out : FlowData) (k : Nat) : Option UInt32 :=
  if type = pktTypeBridge then
    if k < 3 then some (memWord out.eth k)
    else if k = 3 then some out.vlanIn.toUInt32
    else none
  else if type = pktTypeIpv4Hnapt then
    [some data.srcAddr, some data.dstAddr, some (portsWord data.srcPort data.dstPort), none,
      some out.srcAddr, some out.dstAddr, some (portsWord out.srcPort out.dstPort)].getD k none
  else
    if k < 8 then some (rule.ipv6Addrs k)
    else if k = 8 then some (portsWord data.srcPort data.dstPort)
    else none

/-- What `mtk_foe_entry_prepare` writes to `ib1`, and the tuple. -/
def foeEntry (type : UInt32) (l4proto : UInt8) (rule : FlowRule) (data out : FlowData) : FoeEntry :=
  let udp : UInt32 := if l4proto = ipprotoUdp then ib1Udp else 0
  let foe := (rule.rest.setIb1 ib1State (stateBind <<< 28)).setIb1 ib1Udp udp
  let foe := foe.setIb1 ib1PacketType (type <<< 25)
  { foe with data := fun k => (tupleWord type rule data out k).getD (foe.data k) }

/-- What `mtk_flow_offload_replace` takes an entry for. -/
structure Offload where
  foe : FoeEntry
  ppeIndex : Nat
  wedIndex : Option Nat

/-- `mtk_flow_offload_replace` behind the look for the cookie, up to `mtk_wed_flow_add`.
`mtk_foe_entry_prepare` and `mtk_flow_set_ipv4_addr` do not fail for these packet types. -/
def check (ppeNum : Nat) (rule : FlowRule) : Except Int Offload := do
  let (type, l4proto, addrType, data) ← matchKeys rule
  let data ← rule.actions.foldlM (readAction type) data
  if validEtherAddr (fun k => data.eth (6 + k)) = false ∨ validEtherAddr data.eth = false then
    .error einval
  else
    let ppeIndex ← receivePpe ppeNum rule
    let data ← matchPorts type rule data
    let data :=
      if addrType = keyIpv4Addrs then
        { data with srcAddr := rule.ipv4Addrs.1, dstAddr := rule.ipv4Addrs.2 }
      else data
    let out ← rule.actions.foldlM (applyMangle type) data
    if out.vlan.any (fun vlan => vlan.2 ≠ ethP8021q) then .error eopnotsupp
    else
      let wedIndex ← setOutputDevice out.odev
      .ok ⟨foeEntry type l4proto rule data out, ppeIndex, wedIndex⟩

section Errors

universe u v

variable {α : Type u} {β : Type v}

/-- What fails, fails with a negative error. -/
def Negative (x : Except Int α) : Prop := ∀ err, x = .error err → err < 0

theorem Negative.ok (a : α) : Negative (.ok a) := fun _ failed => nomatch failed

theorem Negative.error {err : Int} (below : err < 0) : Negative (.error err : Except Int α) := by
  intro other same
  rwa [← Except.error.inj same]

theorem Negative.bind {x : Except Int α} {f : α → Except Int β} (first : Negative x)
    (later : ∀ a, Negative (f a)) : Negative (x.bind f) := by
  cases x with
  | error err => exact .error (first err rfl)
  | ok a => exact later a

theorem Negative.ite {c : Prop} [Decidable c] {x y : Except Int α} (yes : c → Negative x)
    (no : ¬c → Negative y) : Negative (if c then x else y) := by
  split_ifs with h
  · exact yes h
  · exact no h

theorem Negative.foldlM {f : β → α → Except Int β} (step : ∀ b a, Negative (f b a))
    (items : List α) (b : β) : Negative (items.foldlM f b) := by
  induction items generalizing b with
  | nil => exact .ok b
  | cons a items ih =>
    rw [List.foldlM_cons]
    exact .bind (step b a) ih

theorem matchKeys_negative (rule : FlowRule) : Negative (matchKeys rule) := by
  have refused : Negative (.error eopnotsupp : Except Int (UInt32 × UInt8 × UInt16 × FlowData)) :=
    .error (by decide)
  unfold matchKeys
  split_ifs
  · exact refused
  · split
    · split_ifs
      · split
        · exact refused
        · exact .ok _
        · exact .ite (fun _ => refused) fun _ => .ok _
      · exact .ok _
      · exact .ok _
      · exact refused
    · exact refused

theorem readAction_negative (type : UInt32) (data : FlowData) (act : Action) :
    Negative (readAction type data act) := by
  have refused : Negative (.error eopnotsupp : Except Int FlowData) := .error (by decide)
  cases act with
  | mangle => exact .ite (fun _ => refused) fun _ => .ite (fun _ => .ok _) fun _ => .ok _
  | redirect => exact .ok _
  | csum => exact .ok _
  | vlanPush => exact .ite (fun _ => refused) fun _ => .ok _
  | vlanPop => exact .ok _
  | pppoePush => exact .ite (fun _ => refused) fun _ => .ok _
  | other => exact refused

theorem applyMangle_negative (type : UInt32) (data : FlowData) (act : Action) :
    Negative (applyMangle type data act) := by
  have refused : Negative (.error eopnotsupp : Except Int FlowData) := .error (by decide)
  have invalid : Negative (.error einval : Except Int FlowData) := .error (by decide)
  have ports (offset mask val : UInt32) : Negative (manglePorts offset mask val data) :=
    .ite (fun _ => .ite (fun _ => .ok _) fun _ => .ok _) fun _ =>
      .ite (fun _ => .ok _) fun _ => invalid
  cases act with
  | mangle htype offset mask val =>
    refine .ite (fun _ => refused) fun _ => ?_
    cases htype with
    | eth => exact .ok _
    | ip4 => exact .ite (fun _ => .ok _) fun _ => .ite (fun _ => .ok _) fun _ => invalid
    | ip6 => exact refused
    | tcp => exact ports offset mask val
    | udp => exact ports offset mask val
  | _ => exact .ok _

theorem check_negative (ppeNum : Nat) (rule : FlowRule) : Negative (check ppeNum rule) := by
  have ports (type : UInt32) (data : FlowData) : Negative (matchPorts type rule data) := by
    unfold matchPorts
    split
    · exact .ite (fun _ => .error (by decide)) fun _ => .ok _
    · exact .ite (fun _ => .error (by decide)) fun _ => .ok _
  have engine : Negative (receivePpe ppeNum rule) := by
    unfold receivePpe
    split
    · exact .ok _
    · exact .ite (fun _ => .error (by decide)) fun _ => .ok _
  have device (odev : Option OutDev) : Negative (setOutputDevice odev) := by
    unfold setOutputDevice
    split
    · exact .ite (fun _ => .ok _) fun _ => .error (by decide)
    · exact .ok _
    · exact .error (by decide)
    · exact .error (by decide)
  refine .bind (matchKeys_negative rule) fun (type, l4proto, addrType, data) => ?_
  refine .bind (.foldlM (readAction_negative type) _ _) fun data => ?_
  refine .ite (fun _ => .error (by decide)) fun _ => ?_
  refine .bind engine fun ppeIndex => .bind (ports type data) fun data => ?_
  refine .bind (.foldlM (applyMangle_negative type) _ _) fun out => ?_
  refine .ite (fun _ => .error (by decide)) fun _ => ?_
  exact .bind (device out.odev) fun wedIndex => .ok _

end Errors

end Filogic.Ppe.Replace
