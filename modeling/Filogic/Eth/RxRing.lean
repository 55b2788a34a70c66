import Filogic.Lib.Runs

/-! `mtk_eth_soc.c`: the receive rings. Buffers are numbered as they are allocated, so that a
buffer that the stack has freed and a later one at the same place are two. -/

namespace Filogic.Eth
open Lib

/-- `struct mtk_soc_data`; `lenV2` chooses the pair of `dma_max_len` and `dma_len_offset`. -/
structure RxSoc where
  mt7628 : Bool
  netsysRxV2 : Bool
  dma36bit : Bool
  lenV2 : Bool
  rxDmaSize : Nat
  mt7628_dma : mt7628 = true → dma36bit = false
  rxDmaSize_pow : ∃ k, rxDmaSize = 2 ^ k

/-- Constants of the kernel's network headers for an architecture. -/
structure SkbLayout where
  netSkbPad : Nat
  netIpAlign : Nat
  smpCacheBytes : Nat
  sharedInfo : Nat
  cache : 0 < smpCacheBytes ∧ smpCacheBytes ≤ 256
  small : netSkbPad + netIpAlign + sharedInfo ≤ 4096

/-- A receive ring, for hardware LRO or not, with the interfaces that exist. -/
structure RxConf extends RxSoc, SkbLayout where
  hwlro : Bool
  macCount : Nat
  netdev : Nat → Bool

/-- `SKB_DATA_ALIGN` -/
def skbDataAlign (skb : SkbLayout) (x : Nat) : Nat :=
  (x + skb.smpCacheBytes - 1) / skb.smpCacheBytes * skb.smpCacheBytes

def maxRxLength : Nat := 1536
def maxLroRxLength : Nat := 4096 * 3
def ethDataLen : Nat := 1500

/-- `MTK_RX_ETH_HLEN`: a header with two VLAN tags, and the checksum -/
def rxEthHlen : Nat := 18 + 4 + 4

/-- `mtk_max_frag_size` -/
def maxFragSize (skb : SkbLayout) (mtu : Nat) : Nat :=
  let mtu := if mtu + rxEthHlen < maxRxLength then maxRxLength - rxEthHlen else mtu
  skbDataAlign skb (skb.netSkbPad + rxEthHlen + skb.netIpAlign + mtu) +
    skbDataAlign skb skb.sharedInfo

/-- `mtk_max_buf_size` -/
def maxBufSize (skb : SkbLayout) (fragSize : Nat) : Nat :=
  fragSize - skb.netSkbPad - skb.netIpAlign - skbDataAlign skb skb.sharedInfo

def rxDmaDone : Nat := 2 ^ 31
def rxDmaLso : Nat := 2 ^ 30
def dmaMappingError : Nat := 2 ^ 64 - 1

/-- `RX_DMA_GET_ADDR64` -/
def getAddr64 (rxd2 : Nat) : Nat := (rxd2 &&& 0xf) <<< 32

/-- `RX_DMA_PREP_ADDR64` -/
def prepAddr64 (dmaAddr : Nat) : Nat := (dmaAddr >>> 32) &&& 0xf

/-- `NEXT_DESP_IDX` -/
def nextDespIdx (x y : Nat) : Nat := (x + 1) &&& (y - 1)

section Conf

variable (conf : RxConf)

def fragSize : Nat :=
  maxFragSize conf.toSkbLayout (if conf.hwlro then maxLroRxLength else ethDataLen) % 2 ^ 16

def bufSize : Nat := maxBufSize conf.toSkbLayout (fragSize conf) % 2 ^ 16

/-- `MTK_HW_LRO_DMA_SIZE` or `rx_dma_size` -/
def rxSize : Nat := if conf.hwlro then 64 else conf.rxDmaSize

def dmaMaxLen : Nat := if conf.lenV2 then 0xffff else 0x3fff
def dmaLenOffset : Nat := if conf.lenV2 then 8 else 16

/-- `RX_DMA_PLEN0` -/
def plen0 (len : Nat) : Nat := (len &&& dmaMaxLen conf) <<< dmaLenOffset conf

/-- `RX_DMA_GET_PLEN0` -/
def getPlen0 (rxd2 : Nat) : Nat := (rxd2 >>> dmaLenOffset conf) &&& dmaMaxLen conf

/-- The width of the DMA mask. -/
def dmaBits : Nat := if conf.dma36bit then 36 else 32

/-- A mapping's address, within the DMA mask, or none if the mapping fails. -/
abbrev Mapping : Type := Option (Fin (2 ^ dmaBits conf))

end Conf

/-- `struct mtk_rx_dma_v2`, of which the words are kept that the ring itself needs -/
structure RxDesc where
  rxd1 : Nat
  rxd2 : Nat
  rxd4 : Nat
  rxd5 : Nat
  deriving DecidableEq, Repr, Inhabited

/-- A ring; the buffers allocated so far, the address that each was mapped at, how many mappings
an address has, and the buffers handed to the network stack and those freed. -/
structure RxRing where
  desc : Nat → RxDesc
  data : Nat → Nat
  calcIdx : Nat
  next : Nat
  busAddr : Nat → Nat
  mapped : Nat → Int
  handed : List Nat
  freed : List Nat

namespace RxRing

def alloc (noMemory : Bool) (s : RxRing) : Option Nat × RxRing :=
  if noMemory then (none, s) else (some s.next, { s with next := s.next + 1 })

/-- `dma_map_single` -/
def map {bits : Nat} (buffer : Nat) (mapping : Option (Fin (2 ^ bits))) (s : RxRing) :
    Nat × RxRing :=
  match mapping with
  | none => (dmaMappingError, s)
  | some addr => (addr, { s with
      busAddr := Function.update s.busAddr buffer addr
      mapped := Function.update s.mapped addr (s.mapped addr + 1) })

/-- `dma_unmap_single` -/
def unmap (addr : Nat) (s : RxRing) : RxRing :=
  { s with mapped := Function.update s.mapped addr (s.mapped addr - 1) }

/-- `skb_free_frag` -/
def free (buffer : Nat) (s : RxRing) : RxRing := { s with freed := buffer :: s.freed }

/-- `napi_gro_receive` of the packet that `build_skb` made of the buffer -/
def receive (buffer : Nat) (s : RxRing) : RxRing := { s with handed := buffer :: s.handed }

def setDesc (idx : Nat) (rxd : RxDesc) (s : RxRing) : RxRing :=
  { s with desc := Function.update s.desc idx rxd }

end RxRing

/-- A descriptor that the hardware fills. -/
structure Arrival where
  idx : Nat
  rxd2 : Nat
  rxd4 : Nat
  rxd5 : Nat

/-- What meets one pass of the loop of `mtk_poll_rx`. -/
structure RxTry (conf : RxConf) where
  arrivals : List Arrival
  resetting : Bool
  noMemory : Bool
  mapping : Mapping conf
  noSkb : Bool

structure RxAllocTry (conf : RxConf) where
  noData : Bool
  noBuffer : Nat → Bool
  noRing : Bool
  mapping : Nat → Mapping conf

section Code

variable (conf : RxConf)

/-- The interface that a packet came in at. -/
def rxMac (trxd : RxDesc) : Int :=
  if conf.mt7628 then 0
  else if conf.netsysRxV2 then
    match (trxd.rxd5 >>> 26) &&& 0xf with
    | 1 => 0
    | 2 => 1
    | 15 => 2
    | _ => 0
  else if trxd.rxd4.testBit 22 then 0
  else ((trxd.rxd4 >>> 19) &&& 0x7 : Nat) - 1

def badMac (mac : Int) : Bool := mac < 0 || conf.macCount ≤ mac || !conf.netdev mac.toNat

/-- The loop of `mtk_poll_rx` down to `release_desc`, and `dma_addr` there -/
def rxBuffer (t : RxTry conf) (idx : Nat) (trxd : RxDesc) (s : RxRing) : Nat × RxRing :=
  if badMac conf (rxMac conf trxd) then (dmaMappingError, s)
  else if t.resetting then (dmaMappingError, s)
  else
    match s.alloc t.noMemory with
    | (none, s) => (dmaMappingError, s)
    | (some newData, s) =>
      let (dmaAddr, s) := s.map newData t.mapping
      if dmaAddr = dmaMappingError then (dmaAddr, s.free newData)
      else
        let addr64 := if conf.dma36bit then getAddr64 trxd.rxd2 else 0
        let s := s.unmap (trxd.rxd1 ||| addr64)
        let s := if t.noSkb then s.free (s.data idx) else s.receive (s.data idx)
        let s := { s with data := Function.update s.data idx newData }
        (dmaAddr, s.setDesc idx { s.desc idx with rxd1 := dmaAddr % 2 ^ 32 })

/-- `release_desc` -/
def releaseDesc (idx dmaAddr : Nat) (s : RxRing) : RxRing :=
  let rxd := s.desc idx
  let addr64 :=
    if conf.dma36bit then
      if dmaAddr = dmaMappingError then rxd.rxd2 &&& 0xf else prepAddr64 dmaAddr
    else 0
  let rxd2 := if conf.mt7628 then rxDmaLso else plen0 conf (bufSize conf) ||| addr64
  { s.setDesc idx { rxd with rxd2 := rxd2 } with calcIdx := idx }

/-- One pass of the loop of `mtk_poll_rx`; none if the descriptor is not done. -/
def pollRxOne (t : RxTry conf) (s : RxRing) : Option RxRing :=
  let idx := nextDespIdx s.calcIdx (rxSize conf)
  if (s.desc idx).rxd2 &&& rxDmaDone = 0 then none
  else
    let (dmaAddr, s) := rxBuffer conf t idx (s.desc idx) s
    some (releaseDesc conf idx dmaAddr s)

/-- The hardware fills in everything but the address of the buffer. -/
def arrive (s : RxRing) (a : Arrival) : RxRing :=
  let rxd := s.desc a.idx
  let rxd2 := if conf.dma36bit then a.rxd2 / 16 * 16 + rxd.rxd2 % 16 else a.rxd2
  s.setDesc a.idx { rxd1 := rxd.rxd1, rxd2 := rxd2 ||| rxDmaDone, rxd4 := a.rxd4, rxd5 := a.rxd5 }

/-- `mtk_poll_rx`, with what is left of the budget -/
def pollRx (tries : Nat → RxTry conf) : Nat → Nat → RxRing → Nat × RxRing
  | 0, done, s => (done, s)
  | left + 1, done, s =>
    let s := (tries done).arrivals.foldl (arrive conf) s
    match pollRxOne conf (tries done) s with
    | none => (done, s)
    | some s => pollRx tries left (done + 1) s

/-- `mtk_napi_rx`: it polls again as long as the status register says so. -/
def napiRx (budget : Nat) :
    Nat → (Nat → RxTry conf) → List (Nat → RxTry conf) → RxRing → Nat × RxRing
  | remainBudget, tries, again, s =>
    let (rxDone, s) := pollRx conf tries remainBudget 0 s
    if rxDone = remainBudget then (budget, s)
    else
      match again with
      | [] => (rxDone + budget - remainBudget, s)
      | tries :: again => napiRx budget (remainBudget - rxDone) tries again s

/-- The first loop of `mtk_rx_alloc` -/
def rxAllocBuffer (t : RxAllocTry conf) (s : RxRing) (i : Nat) : Option RxRing :=
  match s.alloc (t.noBuffer i) with
  | (none, _) => none
  | (some buffer, s) => some { s with data := Function.update s.data i buffer }

/-- The second loop of `mtk_rx_alloc` -/
def rxAllocDesc (t : RxAllocTry conf) (s : RxRing) (i : Nat) : Option RxRing :=
  let (dmaAddr, s) := s.map (s.data i) (t.mapping i)
  if dmaAddr = dmaMappingError then none
  else
    let rxd2 := if conf.mt7628 then rxDmaLso else plen0 conf (bufSize conf)
    let rxd2 := if conf.dma36bit then rxd2 ||| prepAddr64 dmaAddr else rxd2
    some (s.setDesc i { rxd1 := dmaAddr % 2 ^ 32, rxd2 := rxd2, rxd4 := 0, rxd5 := 0 })

/-- `mtk_rx_alloc`; `memory` is what the descriptors' memory holds before it. -/
def rxAlloc (memory : Nat → RxDesc) (t : RxAllocTry conf) : Option RxRing :=
  if t.noData then none
  else do
    let s : RxRing :=
      { desc := memory, data := fun _ => 0, calcIdx := 0, next := 0, busAddr := fun _ => 0
        mapped := fun _ => 0, handed := [], freed := [] }
    let s ← (List.range (rxSize conf)).foldlM (rxAllocBuffer conf t) s
    if t.noRing then none
    else do
      let s ← (List.range (rxSize conf)).foldlM (rxAllocDesc conf t) s
      return { s with calcIdx := rxSize conf - 1 }

inductive RxEvent where
  | arrive (arrival : Arrival)
  | napi (budget : Nat) (first : Nat → RxTry conf) (again : List (Nat → RxTry conf))

def rxStep (s : RxRing) : RxEvent conf → RxRing
  | .arrive arrival => arrive conf s arrival
  | .napi budget first again => (napiRx conf budget budget first again s).2

/-- The address that a descriptor holds. -/
def descAddr (rxd : RxDesc) : Nat :=
  rxd.rxd1 ||| if conf.dma36bit then getAddr64 rxd.rxd2 else 0

/-- Each slot owns a buffer of its own, mapped at the address of the slot's descriptor; there is
no other mapping, and each other buffer was handed to the stack or freed, and once. -/
structure SlotsOwned (s : RxRing) : Prop where
  idx : s.calcIdx < rxSize conf
  addr : ∀ i < rxSize conf, descAddr conf (s.desc i) = s.busAddr (s.data i)
  mapped : ∀ a, s.mapped a =
    ((Finset.range (rxSize conf)).filter (fun i => s.busAddr (s.data i) = a)).card
  distinct : ∀ i < rxSize conf, ∀ j < rxSize conf, s.data i = s.data j → i = j
  kept : ∀ i < rxSize conf, s.data i ∉ s.handed ++ s.freed
  once : (s.handed ++ s.freed).Nodup
  all : ∀ b, b < s.next ↔ b ∈ s.handed ++ s.freed ∨ ∃ i < rxSize conf, s.data i = b

/-- Each descriptor that waits for a packet has the length of its buffer. -/
def LengthsSet (s : RxRing) : Prop :=
  ∀ i < rxSize conf, (s.desc i).rxd2 &&& rxDmaDone = 0 →
    getPlen0 conf (s.desc i).rxd2 = bufSize conf

/-- The same, but on the MT7628 with a flag in place of the length. -/
def LengthsOrLso (s : RxRing) : Prop :=
  ∀ i < rxSize conf, (s.desc i).rxd2 &&& rxDmaDone = 0 →
    if conf.mt7628 then (s.desc i).rxd2 = rxDmaLso
    else getPlen0 conf (s.desc i).rxd2 = bufSize conf

end Code

end Filogic.Eth
