import Filogic.Hnat.Fields
import Filogic.Lib.Access
import Filogic.Lib.Records
import Filogic.Ppe.Foe

/-! `mtk_ppe.c`: `mtk_ppe_roam_handler`, which reads a message about a neighbour of a bridge and tears
down the flows of its MAC address. Memory as a little-endian processor has it. -/

namespace Filogic.Ppe.Roam
open Lib
open Hnat (Netsys macAt swab16 swab32)

def rtmNewneigh : Nat := 28
def pfBridge : UInt8 := 7
def ndaLladdr : Nat := 2

/-- `NLMSG_HDRLEN`, `sizeof(struct ndmsg)`, `NLA_HDRLEN` and `ETH_ALEN` -/
def nlmsgHdrlen : Nat := 16
def ndmsgSize : Nat := 12
def nlaHdrlen : Nat := 4
def ethAlen : Nat := 6

def ipprotoTcp : UInt8 := 6
def ipprotoUdp : UInt8 := 17
def nfprotoIpv4 : UInt8 := 2
def nfprotoIpv6 : UInt8 := 10

section Entry

variable (netsys : Netsys) (entry : Bytes)

/-- The fields of `ib1`: `MTK_FOE_IB1_PACKET_TYPE`, `MTK_FOE_IB1_STATE` and `MTK_FOE_IB1_UDP`. -/
def packetType : Nat :=
  match netsys with
  | .v1 => (entry.u32 0).toNat / 2 ^ 25 % 2 ^ 3
  | .v2 | .v3 => (entry.u32 0).toNat / 2 ^ 23 % 2 ^ 5

def state : Nat := (entry.u32 0).toNat / 2 ^ 28 % 2 ^ 2

def udp : Bool := (entry.u32 0).toNat / 2 ^ 30 % 2 = 1

def typeBridge : Nat := 2
def typeIpv4Dslite : Nat := 3
def stateBind : Nat := 2

/-- Where `ipv4.l2`, `ipv6.l2` and `bridge.l2` lie -/
def ipv4L2 : Nat := 44
def ipv6L2 : Nat := 60
def bridgeL2 : Nat := 24

/-- `mtk_foe_mac_match` -/
def mtkFoeMacMatch (mac : Bytes) : Bool :=
  let l2 := if typeIpv4Dslite < packetType netsys entry then ipv6L2 else ipv4L2
  (swab32 (entry.u32 (l2 + 4)) = mac.u32 0 ∧ swab16 (entry.u16 (l2 + 10)) = mac.u16 4) ∨
  (swab32 (entry.u32 (l2 + 12)) = mac.u32 0 ∧ swab16 (entry.u16 (l2 + 18)) = mac.u16 4)

/-- `struct flow_offload_tuple`, as far as it is set: addresses by words, all in network order -/
structure Tuple where
  l3proto : UInt8
  l4proto : UInt8
  src : Nat → UInt32
  dst : Nat → UInt32
  srcPort : UInt16
  dstPort : UInt16

/-- The tuple that `mtk_flow_offload_teardown_by_mac` makes of an entry. -/
def tupleOf : Tuple :=
  let l4proto := if udp entry then ipprotoUdp else ipprotoTcp
  if typeIpv4Dslite < packetType netsys entry then
    { l3proto := nfprotoIpv6, l4proto := l4proto
      -- both ports are those of the source
      srcPort := swab16 (entry.u16 38), dstPort := swab16 (entry.u16 38)
      src := fun j => if j < 4 then swab32 (entry.u32 (4 + 4 * j)) else 0
      dst := fun j => if j < 4 then swab32 (entry.u32 (20 + 4 * j)) else 0 }
  else
    { l3proto := nfprotoIpv4, l4proto := l4proto
      srcPort := swab16 (entry.u16 14), dstPort := swab16 (entry.u16 12)
      src := fun j => if j = 0 then swab32 (entry.u32 4) else 0
      dst := fun j => if j = 0 then swab32 (entry.u32 8) else 0 }

end Entry

/-- `mtk_flow_offload_teardown_by_mac`: the entries whose flows it tears down, with their tuples. -/
def mtkFlowOffloadTeardownByMac (netsys : Netsys) (table : Nat → Bytes) (mac : Bytes) :
    List (Nat × Tuple) :=
  (List.range ppeEntries).filterMap fun i =>
    if state (table i) ≠ stateBind ∨ ¬mtkFoeMacMatch netsys (table i) mac then none
    else some (i, tupleOf netsys (table i))

/-- `struct mtk_eth`: its engines with their tables. -/
structure Eth where
  ppeNum : Nat
  foeTable : Nat → Nat → Bytes

/-- A flow that is torn down: for which address, of which entry, by which tuple. -/
structure Teardown where
  mac : List UInt8
  ppe : Nat
  index : Nat
  tuple : Tuple

section Handler

variable (netsys : Netsys) (eth : Eth) (m : Bytes)

/-- `nlh->nlmsg_len`, `nlh->nlmsg_type` and `ndm->ndm_family` -/
def nlmsgLen : Nat := (m.u32 0).toNat
def nlmsgType : Nat := (m.u16 4).toNat
def ndmFamily : UInt8 := m nlmsgHdrlen

/-- `nla->nla_len` and `nla_type(nla)`, of an attribute at an offset -/
def nlaLen (o : Nat) : Nat := (m.u16 o).toNat
def nlaType (o : Nat) : Nat := (m.u16 (o + 2)).toNat % 2 ^ 14

/-- What is copied of an attribute -/
def macReads (o : Nat) : List Access :=
  if nlaType m o = ndaLladdr then [⟨o + nlaHdrlen, ethAlen⟩] else []

/-- The loop over the attributes: what it reads, and the attributes that it examines. -/
def attrs : (fuel o : Nat) → (rem : Int) → List Access × List Nat
  | 0, _, _ => ([], [])
  | fuel + 1, o, rem =>
    if rem < nlaHdrlen then ([], [])
    else if nlaLen m o < nlaHdrlen ∨ rem < nlaLen m o then ([⟨o, 2⟩], [])
    else
      let (reads, rest) := attrs fuel (nextRecord (nlaLen m) o) (rem - (nlaLen m o + 3) / 4 * 4)
      (⟨o, 2⟩ :: ⟨o + 2, 2⟩ :: macReads m o ++ reads, o :: rest)

/-- What the handler does: the bytes of the buffer that it reads, the attributes that it examines, and
the flows that it tears down. -/
structure Handled where
  reads : List Access
  examined : List Nat
  teardowns : List Teardown

/-- The engines one after another, for the address of an attribute. -/
def teardownsAt (o : Nat) : List Teardown :=
  let mac : Bytes := fun k => m (o + nlaHdrlen + k)
  (List.range eth.ppeNum).flatMap fun p =>
    (mtkFlowOffloadTeardownByMac netsys (eth.foeTable p) mac).map fun torn =>
      ⟨mac.slice 0 ethAlen, p, torn.1, torn.2⟩

/-- `mtk_ppe_roam_handler`, behind `kernel_recvmsg` with its result. -/
def mtkPpeRoamHandler (len : Int) : Handled :=
  if len ≤ 0 then ⟨[], [], []⟩
  else if len < nlmsgHdrlen then ⟨[], [], []⟩
  else if nlmsgLen m < nlmsgHdrlen ∨ len < nlmsgLen m then ⟨[⟨0, 4⟩], [], []⟩
  else if nlmsgType m ≠ rtmNewneigh then ⟨[⟨0, 4⟩, ⟨4, 2⟩], [], []⟩
  else if ndmFamily m ≠ pfBridge then ⟨[⟨0, 4⟩, ⟨4, 2⟩, ⟨nlmsgHdrlen, 1⟩], [], []⟩
  else
    let ndm := nlmsgHdrlen
    -- `NLMSG_LENGTH` is with the header, which is off already
    let rem : Int := nlmsgLen m - nlmsgHdrlen - (nlmsgHdrlen + ndmsgSize)
    let (reads, examined) := attrs m (nlmsgLen m) (ndm + ndmsgSize) rem
    { reads := [⟨0, 4⟩, ⟨4, 2⟩, ⟨ndm, 1⟩, ⟨ndm + 4, 4⟩] ++ reads
      examined := examined
      teardowns := (examined.filter fun o => nlaType m o = ndaLladdr).flatMap (teardownsAt netsys eth m) }

end Handler

section Spec

variable (netsys : Netsys) (entry : Bytes)

/-- `mtk_foe_entry_l2` -/
def l2At : Nat :=
  if packetType netsys entry = typeBridge then bridgeL2
  else if typeIpv4Dslite ≤ packetType netsys entry then ipv6L2
  else ipv4L2

/-- One of the two addresses, as `mtk_foe_entry_prepare` puts them there. -/
def MacAt (l2 : Nat) (mac : List UInt8) : Prop :=
  macAt entry (l2 + 4) (l2 + 10) = mac ∨ macAt entry (l2 + 12) (l2 + 18) = mac

/-- The entry has this tuple, where `mtk_foe_entry_set_ipv4_tuple` or `mtk_foe_entry_set_ipv6_tuple`
puts it; that of a bridge has none. -/
structure Stored (t : Tuple) : Prop where
  routed : packetType netsys entry ≠ typeBridge
  proto : t.l4proto = if udp entry then ipprotoUdp else ipprotoTcp
  family : t.l3proto = if typeIpv4Dslite < packetType netsys entry then nfprotoIpv6 else nfprotoIpv4
  src : ∀ j < if typeIpv4Dslite < packetType netsys entry then 4 else 1,
    entry.u32 (4 + 4 * j) = swab32 (t.src j)
  dst : ∀ j < if typeIpv4Dslite < packetType netsys entry then 4 else 1,
    entry.u32 ((if typeIpv4Dslite < packetType netsys entry then 20 else 8) + 4 * j) = swab32 (t.dst j)
  srcPort : entry.u16 (if typeIpv4Dslite < packetType netsys entry then 38 else 14) = swab16 t.srcPort
  dstPort : entry.u16 (if typeIpv4Dslite < packetType netsys entry then 36 else 12) = swab16 t.dstPort

variable (eth : Eth) (m : Bytes) (len : Int)

/-- The first attribute of a neighbour message -/
def firstAttr : Nat := nlmsgHdrlen + ndmsgSize

/-- An attribute of a message that ends at `stop` -/
def IsAttr (stop o : Nat) : Prop := Walk nlaHdrlen (nlaLen m) stop firstAttr o

/-- The message is about a neighbour of a bridge. -/
structure Neighbour : Prop where
  header : nlmsgHdrlen ≤ nlmsgLen m
  received : nlmsgLen m ≤ len
  type : nlmsgType m = rtmNewneigh
  family : ndmFamily m = pfBridge

/-- It is a whole one, and its attributes take up what is behind its header. -/
structure WellFormed : Prop extends Neighbour m len where
  whole : firstAttr ≤ nlmsgLen m
  attrs : WalksThrough nlaHdrlen (nlaLen m) (nlmsgLen m) firstAttr

/-- A link-layer address in the message -/
def IsAddress (mac : List UInt8) : Prop :=
  Neighbour m len ∧ ∃ o, IsAttr m (nlmsgLen m) o ∧ nlaType m o = ndaLladdr ∧
    m.slice (o + nlaHdrlen) (nlaLen m o - nlaHdrlen) = mac

/-- The flow of this entry is to be torn down for an address. -/
structure Due (mac : List UInt8) (p i : Nat) : Prop where
  ppe : p < eth.ppeNum
  index : i < ppeEntries
  bound : state (eth.foeTable p i) = stateBind
  mac : MacAt (eth.foeTable p i) (l2At netsys (eth.foeTable p i)) mac

/-- The flows of a well-formed message's addresses are torn down, and no other flow. -/
structure TearsDown : Prop where
  all : WellFormed m len → ∀ mac p i, IsAddress m len mac → Due netsys eth mac p i →
    ∃ t ∈ (mtkPpeRoamHandler netsys eth m len).teardowns, t.mac = mac ∧ t.ppe = p ∧ t.index = i
  only : ∀ t ∈ (mtkPpeRoamHandler netsys eth m len).teardowns,
    IsAddress m len t.mac ∧ Due netsys eth t.mac t.ppe t.index ∧
      Stored netsys (eth.foeTable t.ppe t.index) t.tuple

/-- Only what was received is read, all attributes of a well-formed message are examined, and the flows
of its addresses are torn down. -/
structure Meets : Prop where
  reads : ∀ a ∈ (mtkPpeRoamHandler netsys eth m len).reads, a.Within len.toNat
  examines : WellFormed m len → ∀ o, IsAttr m (nlmsgLen m) o →
    o ∈ (mtkPpeRoamHandler netsys eth m len).examined
  tears : TearsDown netsys eth m len

/-- The header of a message about a neighbour was received, as far as it is read. -/
def HeaderReceived : Prop :=
  nlmsgHdrlen ≤ nlmsgLen m → nlmsgLen m ≤ len → nlmsgType m = rtmNewneigh →
    nlmsgHdrlen + 1 ≤ len ∧ (ndmFamily m = pfBridge → nlmsgHdrlen + 8 ≤ len)

/-- The first six bytes of an address attribute that ends a message header before the end -/
def EarlyAddress (mac : List UInt8) : Prop :=
  ∃ o, IsAttr m (nlmsgLen m - nlmsgHdrlen) o ∧ nlaType m o = ndaLladdr ∧
    m.slice (o + nlaHdrlen) ethAlen = mac

/-- Where the handler looks for the addresses of an entry: wrong for `BRIDGE` and `IPV4_DSLITE`. -/
def lookedAt : Nat := if typeIpv4Dslite < packetType netsys entry then ipv6L2 else ipv4L2

/-- What the handler tears down is what is due: each address that a bound entry has stands early enough,
and where it is looked for; and each entry that is taken for an early address has it, and has its tuple,
with equal ports if behind `IPV4_DSLITE`. -/
structure FlowsFit : Prop where
  found : WellFormed m len → ∀ mac p i, IsAddress m len mac → Due netsys eth mac p i →
    EarlyAddress m mac ∧ MacAt (eth.foeTable p i) (lookedAt netsys (eth.foeTable p i)) mac
  taken : Neighbour m len → ∀ mac, EarlyAddress m mac → ∀ p < eth.ppeNum, ∀ i < ppeEntries,
    state (eth.foeTable p i) = stateBind →
    MacAt (eth.foeTable p i) (lookedAt netsys (eth.foeTable p i)) mac →
      IsAddress m len mac ∧ MacAt (eth.foeTable p i) (l2At netsys (eth.foeTable p i)) mac ∧
      packetType netsys (eth.foeTable p i) ≠ typeBridge ∧
      (typeIpv4Dslite < packetType netsys (eth.foeTable p i) →
        (eth.foeTable p i).u16 36 = (eth.foeTable p i).u16 38)

end Spec

section Entries

variable (netsys : Netsys) (entry : Bytes)

theorem mtkFoeMacMatch_iff (mac : Bytes) : mtkFoeMacMatch netsys entry mac = true ↔
    MacAt entry (lookedAt netsys entry) (mac.slice 0 ethAlen) := by
  unfold mtkFoeMacMatch MacAt lookedAt ethAlen
  dsimp only
  rw [decide_eq_true_iff, Hnat.swapped_mac, Hnat.swapped_mac]

theorem swab32_swab32 (k : Nat) : swab32 (swab32 (entry.u32 k)) = entry.u32 k := by
  rw [Bytes.u32, Hnat.swab32_le32, Hnat.swab32_le32]

/-- The tuple that is torn down is the entry's, but for the destination port of IPv6. -/
theorem tupleOf_stored : Stored netsys entry (tupleOf netsys entry) ↔
    packetType netsys entry ≠ typeBridge ∧
      (typeIpv4Dslite < packetType netsys entry → entry.u16 36 = entry.u16 38) := by
  constructor
  · intro stored
    refine ⟨stored.routed, fun v6 => ?_⟩
    have port := stored.dstPort
    rw [tupleOf, if_pos v6, if_pos v6, Hnat.swab16_swab16] at port
    exact port
  · rintro ⟨routed, ports⟩
    unfold tupleOf
    by_cases v6 : typeIpv4Dslite < packetType netsys entry
    · rw [if_pos v6]
      refine ⟨routed, rfl, (if_pos v6).symm, ?_, ?_, ?_, ?_⟩
      · intro j inside
        rw [if_pos v6] at inside
        simp only [if_pos inside, swab32_swab32]
      · intro j inside
        rw [if_pos v6] at inside
        simp only [if_pos v6, if_pos inside, swab32_swab32]
      · simp only [if_pos v6, Hnat.swab16_swab16]
      · simp only [if_pos v6, Hnat.swab16_swab16]
        exact ports v6
    · rw [if_neg v6]
      refine ⟨routed, rfl, (if_neg v6).symm, ?_, ?_, ?_, ?_⟩
      · intro j inside
        rw [if_neg v6, Nat.lt_one_iff] at inside
        simp only [inside, if_true, swab32_swab32]
      · intro j inside
        rw [if_neg v6, Nat.lt_one_iff] at inside
        simp only [if_neg v6, inside, if_true, swab32_swab32]
      · simp only [if_neg v6, Hnat.swab16_swab16]
      · simp only [if_neg v6, Hnat.swab16_swab16]

end Entries

section Handler

variable (m : Bytes)

/-- What is left behind an attribute -/
theorem rem_next (stop o : Nat) : (stop - o : Int) - (nlaLen m o + 3) / 4 * 4 =
    stop - (nextRecord (nlaLen m) o : Nat) := by
  unfold nextRecord
  omega

/-- The loop examines the attributes that fit in front of its stop. -/
theorem attrs_examined (stop fuel o last : Nat) (enough : stop < fuel + o) :
    last ∈ (attrs m fuel o (stop - o : Int)).2 ↔ Walk nlaHdrlen (nlaLen m) stop o last := by
  induction fuel generalizing o with
  | zero =>
    refine iff_of_false (List.not_mem_nil) fun walk => ?_
    have inside := walk.fits.2
    have ahead := walk.start_le
    omega
  | succ fuel ih =>
    have fits : RecordFits nlaHdrlen (nlaLen m) stop o ↔
        ¬((stop - o : Int) < nlaHdrlen) ∧ ¬(nlaLen m o < nlaHdrlen ∨ (stop - o : Int) < nlaLen m o) := by
      unfold RecordFits nlaHdrlen
      omega
    rw [attrs]
    by_cases here : RecordFits nlaHdrlen (nlaLen m) stop o
    · obtain ⟨room, whole⟩ := fits.mp here
      rw [if_neg room, if_neg whole]
      have ahead := nextRecord_le (nlaLen m) o
      have some_ := here.1
      rw [rem_next]
      dsimp only
      rw [List.mem_cons, ih (nextRecord (nlaLen m) o) (by unfold nlaHdrlen at some_; omega)]
      constructor
      · rintro (rfl | rest)
        · exact .here here
        · exact .on here rest
      · intro walk
        cases walk with
        | here _ => exact .inl rfl
        | on _ rest => exact .inr rest
    · have none : ¬Walk nlaHdrlen (nlaLen m) stop o last := by
        intro walk
        cases walk with
        | here fits => exact here fits
        | on fits _ => exact here fits
      refine iff_of_false ?_ none
      split_ifs with room whole
      · exact List.not_mem_nil
      · exact List.not_mem_nil
      · exact absurd (fits.mpr ⟨room, whole⟩) here

/-- It reads no further than the address of an attribute without payload. -/
theorem attrs_reads (stop fuel o : Nat) (a : Access)
    (read : a ∈ (attrs m fuel o (stop - o : Int)).1) : a.start + a.len ≤ stop + ethAlen := by
  induction fuel generalizing o with
  | zero => exact absurd read List.not_mem_nil
  | succ fuel ih =>
    rw [attrs] at read
    split_ifs at read with room whole
    · exact absurd read List.not_mem_nil
    · rw [List.mem_singleton.mp read]
      unfold nlaHdrlen at room
      dsimp only
      omega
    · rw [rem_next] at read
      dsimp only at read
      unfold nlaHdrlen at room
      rw [List.cons_append, List.cons_append, List.mem_cons, List.mem_cons, List.mem_append] at read
      obtain rfl | rfl | mac | rest := read
      · dsimp only
        omega
      · dsimp only
        unfold ethAlen
        omega
      · unfold macReads at mac
        split_ifs at mac
        · rw [List.mem_singleton.mp mac]
          unfold nlaHdrlen ethAlen
          dsimp only
          omega
        · exact absurd mac List.not_mem_nil
      · exact ih (nextRecord (nlaLen m) o) rest

variable (netsys : Netsys) (eth : Eth) (len : Int)

/-- The flows that an attribute's address takes down -/
theorem mem_teardownsAt (o : Nat) (t : Teardown) : t ∈ teardownsAt netsys eth m o ↔
    t.mac = m.slice (o + nlaHdrlen) ethAlen ∧ t.ppe < eth.ppeNum ∧ t.index < ppeEntries ∧
      state (eth.foeTable t.ppe t.index) = stateBind ∧
      MacAt (eth.foeTable t.ppe t.index) (lookedAt netsys (eth.foeTable t.ppe t.index)) t.mac ∧
      t.tuple = tupleOf netsys (eth.foeTable t.ppe t.index) := by
  have mac : Bytes.slice (fun k => m (o + nlaHdrlen + k)) 0 ethAlen = m.slice (o + nlaHdrlen) ethAlen := by
    simp [Bytes.slice]
  have torn (p i : Nat) (tuple : Tuple) :
      (i, tuple) ∈ mtkFlowOffloadTeardownByMac netsys (eth.foeTable p) (fun k => m (o + nlaHdrlen + k)) ↔
        i < ppeEntries ∧ state (eth.foeTable p i) = stateBind ∧
        MacAt (eth.foeTable p i) (lookedAt netsys (eth.foeTable p i)) (m.slice (o + nlaHdrlen) ethAlen) ∧
        tuple = tupleOf netsys (eth.foeTable p i) := by
    rw [mtkFlowOffloadTeardownByMac, List.mem_filterMap, ← mac]
    constructor
    · rintro ⟨j, inside, result⟩
      split_ifs at result with skipped
      rw [not_or, not_not, not_not, mtkFoeMacMatch_iff] at skipped
      cases result
      exact ⟨List.mem_range.mp inside, skipped.1, skipped.2, rfl⟩
    · rintro ⟨inside, bound, hit, rfl⟩
      refine ⟨i, List.mem_range.mpr inside, if_neg ?_⟩
      rw [not_or, not_not, not_not, mtkFoeMacMatch_iff]
      exact ⟨bound, hit⟩
  rw [teardownsAt, List.mem_flatMap]
  simp only [List.mem_range, List.mem_map, mac]
  constructor
  · rintro ⟨p, inside, ⟨i, tuple⟩, member, rfl⟩
    obtain ⟨below, bound, hit, same⟩ := (torn p i tuple).mp member
    exact ⟨rfl, inside, below, bound, hit, same⟩
  · rintro ⟨same, inside, below, bound, hit, tuple⟩
    rw [same] at hit
    refine ⟨t.ppe, inside, (t.index, t.tuple), (torn _ _ _).mpr ⟨below, bound, hit, tuple⟩, ?_⟩
    rw [← same]

variable {m netsys eth len}

/-- Of a message about a neighbour of a bridge the attributes are looked at, up to a message header
before its end. -/
theorem handler_neighbour (about : Neighbour m len) :
    mtkPpeRoamHandler netsys eth m len =
      let (reads, examined) := attrs m (nlmsgLen m) firstAttr
        ((nlmsgLen m - nlmsgHdrlen : Nat) - firstAttr : Int)
      { reads := [⟨0, 4⟩, ⟨4, 2⟩, ⟨nlmsgHdrlen, 1⟩, ⟨nlmsgHdrlen + 4, 4⟩] ++ reads
        examined := examined
        teardowns := (examined.filter fun o => nlaType m o = ndaLladdr).flatMap
          (teardownsAt netsys eth m) } := by
  obtain ⟨header, received, type, family⟩ := about
  have rem : (nlmsgLen m - nlmsgHdrlen - (nlmsgHdrlen + ndmsgSize) : Int) =
      (nlmsgLen m - nlmsgHdrlen : Nat) - firstAttr := by
    unfold firstAttr
    omega
  have positive : ¬len ≤ 0 := by
    unfold nlmsgHdrlen at header
    omega
  have room : ¬len < nlmsgHdrlen := by omega
  have whole : ¬(nlmsgLen m < nlmsgHdrlen ∨ len < nlmsgLen m) := by omega
  rw [mtkPpeRoamHandler, if_neg positive, if_neg room, if_neg whole, if_neg (not_not.mpr type),
    if_neg (not_not.mpr family)]
  dsimp only
  rw [rem]
  rfl

theorem examined_iff (about : Neighbour m len) (o : Nat) :
    o ∈ (mtkPpeRoamHandler netsys eth m len).examined ↔
      IsAttr m (nlmsgLen m - nlmsgHdrlen) o := by
  rw [handler_neighbour about]
  apply attrs_examined
  unfold firstAttr nlmsgHdrlen
  omega

/-- The flows that are torn down for a message about a neighbour -/
theorem teardowns_iff (about : Neighbour m len) (t : Teardown) :
    t ∈ (mtkPpeRoamHandler netsys eth m len).teardowns ↔
      EarlyAddress m t.mac ∧ t.ppe < eth.ppeNum ∧ t.index < ppeEntries ∧
        state (eth.foeTable t.ppe t.index) = stateBind ∧
        MacAt (eth.foeTable t.ppe t.index) (lookedAt netsys (eth.foeTable t.ppe t.index)) t.mac ∧
        t.tuple = tupleOf netsys (eth.foeTable t.ppe t.index) := by
  have list : (mtkPpeRoamHandler netsys eth m len).teardowns =
      ((mtkPpeRoamHandler netsys eth m len).examined.filter fun o => nlaType m o = ndaLladdr).flatMap
        (teardownsAt netsys eth m) := by
    rw [handler_neighbour about]
  rw [list, List.mem_flatMap]
  simp only [List.mem_filter, decide_eq_true_eq, examined_iff about, mem_teardownsAt]
  constructor
  · rintro ⟨o, ⟨attr, lladdr⟩, same, rest⟩
    exact ⟨⟨o, attr, lladdr, same.symm⟩, rest⟩
  · rintro ⟨⟨o, attr, lladdr, same⟩, rest⟩
    exact ⟨o, ⟨attr, lladdr⟩, same.symm, rest⟩

theorem no_teardowns (other : ¬Neighbour m len) :
    (mtkPpeRoamHandler netsys eth m len).teardowns = [] := by
  unfold mtkPpeRoamHandler
  split_ifs with empty room whole type family
  · rfl
  · rfl
  · rfl
  · rfl
  · rfl
  · rw [not_or] at whole
    refine absurd ⟨?_, ?_, not_not.mp type, not_not.mp family⟩ other
    · omega
    · omega

/-- Only received bytes are read just if the header was received as far as that. -/
theorem reads_iff (netsys : Netsys) (eth : Eth) :
    (∀ a ∈ (mtkPpeRoamHandler netsys eth m len).reads, a.Within len.toNat) ↔
      HeaderReceived m len := by
  by_cases about : Neighbour m len
  · rw [handler_neighbour about]
    obtain ⟨header, received, type, family⟩ := about
    have behind : ∀ a ∈ (attrs m (nlmsgLen m) firstAttr
        ((nlmsgLen m - nlmsgHdrlen : Nat) - firstAttr : Int)).1, a.Within len.toNat := by
      intro a read
      have ends := attrs_reads m _ _ _ a read
      unfold Access.Within
      unfold nlmsgHdrlen at header
      unfold nlmsgHdrlen ethAlen at ends
      omega
    have needed : HeaderReceived m len ↔ nlmsgHdrlen + 8 ≤ len := by
      unfold HeaderReceived
      constructor
      · exact fun all => (all header received type).2 family
      · exact fun enough _ _ _ => ⟨by omega, fun _ => enough⟩
    have front : (∀ a ∈ ([⟨0, 4⟩, ⟨4, 2⟩, ⟨nlmsgHdrlen, 1⟩, ⟨nlmsgHdrlen + 4, 4⟩] : List Access),
        a.Within len.toNat) ↔ nlmsgHdrlen + 8 ≤ len := by
      have size : nlmsgHdrlen = 16 := rfl
      simp only [List.forall_mem_cons, List.not_mem_nil, false_imp_iff, implies_true, and_true,
        Access.Within]
      omega
    rw [needed, ← front]
    exact List.forall_mem_append.trans (and_iff_left behind)
  · have received (other : ¬(nlmsgHdrlen ≤ nlmsgLen m ∧ nlmsgLen m ≤ len ∧ nlmsgType m = rtmNewneigh)) :
        HeaderReceived m len :=
      fun header received type => absurd ⟨header, received, type⟩ other
    unfold mtkPpeRoamHandler
    split_ifs with empty room whole type family
    · exact iff_of_true (by simp) (received fun all => by unfold nlmsgHdrlen at all; omega)
    · exact iff_of_true (by simp) (received fun all => by omega)
    · refine iff_of_true ?_ (received fun all => by omega)
      unfold nlmsgHdrlen at room
      simp [Access.Within]
      omega
    · refine iff_of_true ?_ (received fun all => type all.2.2)
      unfold nlmsgHdrlen at room
      simp [Access.Within]
      omega
    · rw [not_or] at whole
      have needed : HeaderReceived m len ↔ nlmsgHdrlen + 1 ≤ len := by
        constructor
        · exact fun all => (all (by omega) (by omega) (not_not.mp type)).1
        · exact fun enough _ _ _ => ⟨enough, fun bridge => absurd bridge family⟩
      rw [needed]
      unfold nlmsgHdrlen at room ⊢
      simp [Access.Within]
      omega
    · rw [not_or] at whole
      exact absurd ⟨by omega, by omega, not_not.mp type, not_not.mp family⟩ about

/-- The last attribute of a well-formed message is not examined. -/
theorem examines_iff : (WellFormed m len → ∀ o, IsAttr m (nlmsgLen m) o →
    o ∈ (mtkPpeRoamHandler netsys eth m len).examined) ↔
      (WellFormed m len → nlmsgLen m = firstAttr) := by
  apply forall_congr'
  intro formed
  simp only [examined_iff formed.toNeighbour]
  constructor
  · intro all
    by_contra some_
    have first := formed.attrs.first.resolve_left (Ne.symm some_)
    obtain ⟨last, walk, ends⟩ := Walk.exists_last formed.attrs (by decide) (Walk.here first)
    have inside := (Walk.fits (all last walk)).2
    have next : nextRecord (nlaLen m) last ≤ last + nlaLen m last + 3 := by
      unfold nextRecord
      omega
    have header := formed.header
    unfold nlmsgHdrlen at inside header
    omega
  · intro none o walk
    have inside := (Walk.fits walk).2
    have ahead := Walk.start_le walk
    have some_ := (Walk.fits walk).1
    unfold nlaHdrlen at some_
    omega

/-- What is torn down is what is due, just if the flows fit. -/
theorem tearsDown_iff : TearsDown netsys eth m len ↔ FlowsFit netsys eth m len := by
  constructor
  · rintro ⟨all, only⟩
    refine ⟨?_, ?_⟩
    · intro formed mac p i address due
      obtain ⟨t, torn, rfl, rfl, rfl⟩ := all formed mac p i address due
      obtain ⟨early, _, _, _, looked, _⟩ := (teardowns_iff formed.toNeighbour t).mp torn
      exact ⟨early, looked⟩
    · intro about mac early p inside i below bound looked
      have torn : (⟨mac, p, i, tupleOf netsys (eth.foeTable p i)⟩ : Teardown) ∈
          (mtkPpeRoamHandler netsys eth m len).teardowns :=
        (teardowns_iff about _).mpr ⟨early, inside, below, bound, looked, rfl⟩
      obtain ⟨address, due, stored⟩ := only _ torn
      exact ⟨address, due.mac, (tupleOf_stored ..).mp stored⟩
  · rintro ⟨found, taken⟩
    refine ⟨?_, ?_⟩
    · intro formed mac p i address due
      obtain ⟨early, looked⟩ := found formed mac p i address due
      exact ⟨⟨mac, p, i, tupleOf netsys (eth.foeTable p i)⟩,
        (teardowns_iff formed.toNeighbour _).mpr ⟨early, due.ppe, due.index, due.bound, looked, rfl⟩,
        rfl, rfl, rfl⟩
    · intro t torn
      by_cases about : Neighbour m len
      · obtain ⟨early, inside, below, bound, looked, tuple⟩ := (teardowns_iff about t).mp torn
        obtain ⟨address, mac, good⟩ := taken about t.mac early _ inside _ below bound looked
        rw [tuple]
        exact ⟨address, ⟨inside, below, bound, mac⟩, (tupleOf_stored ..).mpr good⟩
      · rw [no_teardowns about] at torn
        exact absurd torn List.not_mem_nil

end Handler

/-- For every message and every table: only received bytes are read just if the header was received; all
attributes of a well-formed message are examined just if it has none; and what is torn down is what is
due just if the flows fit. -/
theorem roaming_torn_down_iff (netsys : Netsys) (eth : Eth) (m : Bytes) (len : Int) :
    (Meets netsys eth m len ↔
      HeaderReceived m len ∧ (WellFormed m len → nlmsgLen m = firstAttr) ∧ FlowsFit netsys eth m len) ∧
    (TearsDown netsys eth m len ↔ FlowsFit netsys eth m len) := by
  apply And.intro _ tearsDown_iff
  rw [← reads_iff netsys eth, ← examines_iff, ← tearsDown_iff]
  constructor
  · exact fun meets => ⟨meets.reads, meets.examines, meets.tears⟩
  · exact fun ⟨reads, examines, tears⟩ => ⟨reads, examines, tears⟩

/-- A message with one attribute, the address 02:00:00:00:00:01. -/
def movedHost : Bytes := fun k =>
  ([40, 0, 0, 0, 28, 0, 0, 0, 0, 0, 0, 0, 0, 0, 0, 0, 7, 0, 0, 0, 3, 0, 0, 0, 2, 0, 0, 0,
    10, 0, 2, 0, 2, 0, 0, 0, 0, 1, 0, 0] : List UInt8).getD k 0

/-- An engine whose first entry is bound, with that address for its destination. -/
def flowToHost : Eth :=
  ⟨1, fun _ i k => if i = 0 then if k = 3 then 0x20 else if k = 51 then 2 else if k = 54 then 1 else 0
    else 0⟩

/-- The address is in the last sixteen bytes: the flow stays. -/
theorem stale_flow_kept : ¬∀ netsys eth m len, Meets netsys eth m len := by
  intro all
  have attrs : WalksThrough nlaHdrlen (nlaLen movedHost) (nlmsgLen movedHost) firstAttr := by
    refine ⟨.inr (by decide +kernel), fun o walk => .inl ?_⟩
    cases walk with
    | here fits => decide +kernel
    | on fits rest =>
      have end_ : nextRecord (nlaLen movedHost) firstAttr = nlmsgLen movedHost := by decide +kernel
      have inside := rest.fits.2
      have ahead := rest.start_le
      have some_ := rest.fits.1
      unfold nlaHdrlen at some_
      omega
  have about : Neighbour movedHost 40 := by
    refine ⟨?_, ?_, ?_, ?_⟩ <;> decide +kernel
  have address : IsAddress movedHost 40 [2, 0, 0, 0, 0, 1] :=
    ⟨about, firstAttr, .here (by decide +kernel), by decide +kernel, by decide +kernel⟩
  have due : Due .v2 flowToHost [2, 0, 0, 0, 0, 1] 0 0 :=
    ⟨by decide, by decide, by decide +kernel, .inl (by decide +kernel)⟩
  have formed : WellFormed movedHost 40 := ⟨about, by decide +kernel, attrs⟩
  obtain ⟨t, torn, _⟩ := (all .v2 flowToHost movedHost 40).tears.all formed _ 0 0 address due
  have none : (mtkPpeRoamHandler .v2 flowToHost movedHost 40).teardowns = [] := by
    decide +kernel
  rw [none] at torn
  exact absurd torn List.not_mem_nil

end Filogic.Ppe.Roam
