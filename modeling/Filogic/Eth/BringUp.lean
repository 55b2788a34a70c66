import Filogic.Eth.RxOwned
import Filogic.Lib.Ledger

/-! `mtk_eth_soc.c`: `mtk_dma_init`, which asks for the memory of the rings and stops at the first
request that is refused, and `mtk_dma_free`. -/

namespace Filogic.Eth.BringUp
open Lib

/-- A chip, with `eth->hwlro`; `ringsV2` numbers the rings as for `CONFIG_MEDIATEK_NETSYS_RX_V2`. -/
structure DmaConf extends RxConf where
  qdma : Bool
  hasSram : Bool
  rss : Bool
  ringsV2 : Bool
  fqDmaSize : Nat
  txDmaSize : Nat
  txdSize : Nat
  rxdSize : Nat
  rss_ringsV2 : rss = true → ringsV2 = true

/-- `rx_ring_qdma` and `rx_ring` -/
inductive Ring where
  | qdma
  | pdma (ringNo : Nat)
  deriving DecidableEq

/-- `MTK_RX_FLAGS_NORMAL` and so on -/
inductive RxFlag where
  | normal | hwlro | qdma
  deriving DecidableEq

/-- Where descriptors are: in SRAM, or in memory that was allocated for them. -/
inductive Place where
  | sram
  | coherent (handle : Nat)
  deriving DecidableEq

/-- `struct mtk_tx_ring` -/
structure TxMem where
  buf : Option Nat
  dma : Option Place
  dmaPdma : Option Place

/-- `struct mtk_rx_ring`, with the array at `data` and the descriptors at `dma` or last there. -/
structure RxMem where
  data : Option (Nat × (Nat → Option Nat))
  dma : Option Place
  dmaSize : Nat
  desc : Nat → RxDesc

/-- `struct mtk_eth` -/
structure Mem where
  scratchRing : Option Place
  scratchHead : Nat → Option Nat
  txRing : Nat → TxMem
  rxRing : Ring → RxMem

/-- What is asked for, under the number of the request: a receive buffer, an array or the pages of a
`scratch_head`, descriptors with their size, and the address of a receive buffer. The mapping of
those pages is not among them, for nothing takes it back. -/
inductive Good where
  | buffer (no : Nat)
  | array (no : Nat)
  | descs (place : Place) (size : Nat)
  | mapping (addr : Nat)
  deriving DecidableEq

/-- The driver after a number of requests. -/
structure Dev where
  mem : Mem
  held : Ledger Good
  requests : Nat

/-- What `mtk_dma_init` can fail at -/
inductive Request where
  | idle
  | scratchRing
  | scratchHead (j : Nat)
  | scratchMap (j : Nat)
  | txBuf (i : Nat)
  | txRing (i : Nat)
  | txPdma (i : Nat)
  | rxData (ring : Ring)
  | rxBuf (ring : Ring) (i : Nat)
  | rxRing (ring : Ring) (flag : RxFlag)
  | rxMap (ring : Ring) (flag : RxFlag) (i : Nat)
  deriving DecidableEq

/-- Which requests are granted, by their numbers, and the addresses that buffers are mapped at. -/
structure Answers (conf : DmaConf) where
  grants : Nat → Bool
  busAddr : Nat → Fin (2 ^ dmaBits conf.toRxConf)

/-- A request, or an assignment. -/
inductive Ins where
  | ask (req : Request)
  | set (f : Mem → Mem)

def Mem.setTx (m : Mem) (i : Nat) (f : TxMem → TxMem) : Mem :=
  { m with txRing := Function.update m.txRing i (f (m.txRing i)) }

def Mem.setRx (m : Mem) (ring : Ring) (f : RxMem → RxMem) : Mem :=
  { m with rxRing := Function.update m.rxRing ring (f (m.rxRing ring)) }

section Code

variable (conf : DmaConf)

/-- The ring's own configuration: `rx_data_len` and `rx_dma_size` depend on the flag. -/
def ringConf (flag : RxFlag) : RxConf := { conf.toRxConf with hwlro := flag == .hwlro }

/-- `rx_dma_size` of a ring -/
def rxDmaSize (flag : RxFlag) : Nat := rxSize (ringConf conf flag)

/-- Whether the descriptors are put in SRAM. -/
def inSram (flag : RxFlag) : Bool := conf.hasSram && flag == .normal

/-- What is asked of `dma_alloc_coherent` -/
def ringSize : Request → Nat
  | .scratchRing => conf.fqDmaSize * conf.txdSize
  | .rxRing _ flag => rxDmaSize conf flag * conf.rxdSize
  | _ => conf.txDmaSize * conf.txdSize

/-- The descriptor that `mtk_rx_alloc` writes -/
def rxDesc (flag : RxFlag) (dmaAddr : Nat) : RxDesc :=
  let rxd2 := if conf.mt7628 then rxDmaLso else plen0 conf.toRxConf (bufSize (ringConf conf flag))
  let rxd2 := if conf.dma36bit then rxd2 ||| prepAddr64 dmaAddr else rxd2
  { rxd1 := dmaAddr % 2 ^ 32, rxd2 := rxd2, rxd4 := 0, rxd5 := 0 }

/-- The place that a request is for takes the answer to it; `kcalloc` and `dma_alloc_coherent` clear
what they give. -/
def store (answer : Option Nat) (m : Mem) : Request → Mem
  | .idle => m
  | .scratchRing => { m with scratchRing := answer.map .coherent }
  | .scratchHead j => { m with scratchHead := Function.update m.scratchHead j answer }
  | .scratchMap _ => m
  | .txBuf i => m.setTx i fun tx => { tx with buf := answer }
  | .txRing i => m.setTx i fun tx => { tx with dma := answer.map .coherent }
  | .txPdma i => m.setTx i fun tx => { tx with dmaPdma := answer.map .coherent }
  | .rxData ring => m.setRx ring fun rx => { rx with data := answer.map (·, fun _ => none) }
  | .rxBuf ring i => m.setRx ring fun rx =>
      { rx with data := rx.data.map fun data => (data.1, Function.update data.2 i answer) }
  | .rxRing ring _ => m.setRx ring fun rx =>
      { rx with
        dma := answer.map .coherent
        desc := if answer.isSome then fun _ => ⟨0, 0, 0, 0⟩ else rx.desc }
  | .rxMap ring flag i =>
      match answer with
      | none => m
      | some dmaAddr => m.setRx ring fun rx =>
          { rx with desc := Function.update rx.desc i (rxDesc conf flag dmaAddr) }

/-- A request that is granted: the answer, and what is held then. -/
def grant (env : Answers conf) (n : Nat) (held : Ledger Good) (req : Request) :
    Nat × Ledger Good :=
  match req with
  | .idle | .scratchMap _ => (n, held)
  | .scratchHead _ | .txBuf _ | .rxData _ => (n, held.take (.array n))
  | .rxBuf .. => (n, held.take (.buffer n))
  | .scratchRing | .txRing _ | .txPdma _ | .rxRing .. =>
      (n, held.take (.descs (.coherent n) (ringSize conf req)))
  | .rxMap .. => (env.busAddr n, held.take (.mapping (env.busAddr n)))

def ask (env : Answers conf) (s : Dev) (req : Request) : Bool × Dev :=
  if env.grants s.requests then
    let (answer, held) := grant conf env s.requests s.held req
    (true, ⟨store conf (some answer) s.mem req, held, s.requests + 1⟩)
  else (false, ⟨store conf none s.mem req, s.held, s.requests + 1⟩)

/-- The instructions in order, up to the first request that is refused: for it an error is
returned. -/
def exec (env : Answers conf) : List Ins → Dev → Option Request × Dev
  | [], s => (none, s)
  | .set f :: rest, s => exec env rest { s with mem := f s.mem }
  | .ask req :: rest, s =>
      match ask conf env s req with
      | (true, s) => exec env rest s
      | (false, s) => (some req, s)

/-- `DIV_ROUND_UP(fq_dma_size, MTK_FQ_DMA_LENGTH)` -/
def fqBatches : Nat := (conf.fqDmaSize + 2047) / 2048

/-- `mtk_init_fq_dma` -/
def mtkInitFqDma : List Ins :=
  (if conf.hasSram then .set fun m => { m with scratchRing := some .sram } else .ask .scratchRing) ::
    (List.range (fqBatches conf)).flatMap fun j => [.ask (.scratchHead j), .ask (.scratchMap j)]

/-- `mtk_tx_alloc` -/
def mtkTxAlloc (i : Nat) : List Ins :=
  .ask (.txBuf i) ::
    (if conf.hasSram then .set (Mem.setTx · i fun tx => { tx with dma := some .sram })
      else .ask (.txRing i)) ::
    if conf.qdma then [] else [.ask (.txPdma i)]

/-- `mtk_rx_alloc` -/
def mtkRxAlloc (ring : Ring) (flag : RxFlag) : List Ins :=
  .ask (.rxData ring) :: ((List.range (rxDmaSize conf flag)).map fun i => .ask (.rxBuf ring i)) ++
    (if inSram conf flag then .set (Mem.setRx · ring fun rx => { rx with dma := some .sram })
      else .ask (.rxRing ring flag)) ::
    ((List.range (rxDmaSize conf flag)).map fun i => .ask (.rxMap ring flag i)) ++
    [.set (Mem.setRx · ring fun rx => { rx with dmaSize := rxDmaSize conf flag })]

/-- `MTK_MAX_TX_RING_NUM`, or the first ring alone with QDMA -/
def txRings : List Nat := if conf.qdma then [0] else List.range 4

/-- `MTK_HW_LRO_RING` and `MTK_HW_LRO_RING_NUM` -/
def lroRings : List Ring :=
  if conf.ringsV2 then (List.range 4).map fun i => .pdma (i + 4)
  else (List.range 3).map fun i => .pdma (i + 1)

/-- `MTK_RSS_RING` and `MTK_RX_RSS_NUM` -/
def rssRings : List Ring := (List.range 3).map fun i => .pdma (i + 1)

/-- `mtk_dma_init` -/
def mtkDmaInit : List Ins :=
  .ask .idle :: (if conf.qdma then mtkInitFqDma conf else []) ++
    (txRings conf).flatMap (mtkTxAlloc conf) ++
    (if conf.qdma then mtkRxAlloc conf .qdma .qdma else []) ++
    mtkRxAlloc conf (.pdma 0) .normal ++
    (if conf.hwlro then (lroRings conf).flatMap (mtkRxAlloc conf · .hwlro) else []) ++
    (if conf.rss then rssRings.flatMap (mtkRxAlloc conf · .normal) else [])

end Code

section Free

variable (conf : DmaConf)

/-- `kfree`, of `NULL` too -/
def kfree (p : Option Nat) (held : Ledger Good) : Ledger Good :=
  match p with
  | none => held
  | some no => held.giveBack (.array no)

/-- `dma_free_coherent` of a pointer that is not `NULL` -/
def dmaFreeCoherent (p : Option Place) (size : Nat) (held : Ledger Good) : Ledger Good :=
  match p with
  | none => held
  | some place => held.giveBack (.descs place size)

/-- `mtk_tx_clean`; no packet is in the ring. -/
def mtkTxClean (s : Dev) (i : Nat) : Dev :=
  let tx := s.mem.txRing i
  let held := kfree tx.buf s.held
  let held := if conf.hasSram then held
    else dmaFreeCoherent tx.dma (conf.txDmaSize * conf.txdSize) held
  let held := dmaFreeCoherent tx.dmaPdma (conf.txDmaSize * conf.txdSize) held
  { s with
    held := held
    mem := s.mem.setTx i fun tx =>
      { buf := none, dma := if conf.hasSram then tx.dma else none, dmaPdma := none } }

/-- One pass of the loop of `mtk_rx_clean` -/
def cleanSlot (rx : RxMem) (data : Nat → Option Nat) (held : Ledger Good) (i : Nat) :
    Ledger Good :=
  match data i with
  | none => held
  | some buffer =>
    if (rx.desc i).rxd1 = 0 then held
    else (held.giveBack (.mapping (descAddr conf.toRxConf (rx.desc i)))).giveBack (.buffer buffer)

/-- The first part of `mtk_rx_clean` -/
def cleanBuffers (s : Dev) (ring : Ring) : Dev :=
  let rx := s.mem.rxRing ring
  match rx.data, rx.dma with
  | some (array, data), some _ =>
      { s with
        held := kfree (some array) ((List.range rx.dmaSize).foldl (cleanSlot conf rx data) s.held)
        mem := s.mem.setRx ring fun rx => { rx with data := none } }
  | _, _ => s

/-- `mtk_rx_clean` -/
def mtkRxClean (sram : Bool) (s : Dev) (ring : Ring) : Dev :=
  let rx := s.mem.rxRing ring
  let s := cleanBuffers conf s ring
  if sram then s
  else { s with
    held := dmaFreeCoherent rx.dma (rx.dmaSize * conf.rxdSize) s.held
    mem := s.mem.setRx ring fun rx => { rx with dma := none } }

/-- `kfree(eth->scratch_head[j])` -/
def cleanHead (s : Dev) (j : Nat) : Dev :=
  { s with
    held := kfree (s.mem.scratchHead j) s.held
    mem := { s.mem with scratchHead := Function.update s.mem.scratchHead j none } }

/-- `mtk_dma_free` -/
def mtkDmaFree (s : Dev) : Dev :=
  let s := if conf.hasSram then s
    else { s with
      held := dmaFreeCoherent s.mem.scratchRing (conf.fqDmaSize * conf.txdSize) s.held
      mem := { s.mem with scratchRing := none } }
  let s := (txRings conf).foldl (mtkTxClean conf) s
  let s := mtkRxClean conf conf.hasSram s (.pdma 0)
  let s := mtkRxClean conf false s .qdma
  let s := if conf.hwlro then (lroRings conf).foldl (mtkRxClean conf false) s else s
  let s := if conf.rss then rssRings.foldl (mtkRxClean conf conf.hasSram) s else s
  (List.range (fqBatches conf)).foldl cleanHead s

/-- `mtk_start_dma`, up to where the engine is enabled -/
def mtkStartDma (env : Answers conf) (s : Dev) : Option Request × Dev :=
  match exec conf env (mtkDmaInit conf) s with
  | (none, s) => (none, s)
  | (some req, s) => (some req, mtkDmaFree conf s)

end Free

end Filogic.Eth.BringUp
