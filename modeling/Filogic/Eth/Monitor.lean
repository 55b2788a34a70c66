import Filogic.Lib.Streak

/-! `mtk_eth_reset.c`: the nine monitors that sample the DMA engines and the MACs once a second
and ask for a reset when one of them hangs. -/

namespace Filogic.Eth
open Lib

abbrev U32 := BitVec 32

/-- What the build and the chip decide: `MTK_WDMA_CNT`, `MTK_MAX_DEVS`, `MTK_MAC_COUNT` and
`MTK_HAS_CAPS(…, MTK_NETSYS_V3)`. -/
structure Soc where
  wdmaCnt : Nat
  maxDevs : Nat
  macCount : Nat
  netsysV3 : Bool

/-- The registers that the monitors read. -/
inductive Reg where
  | pseOqSta (id : Nat) | pseIqSta (id : Nat)
  | wdmaDtxPtr (i : Nat) | wdmaGloCfg (i : Nat) | wdmaRxMaxCnt (i : Nat)
  | wdmaCrxPtr (i : Nat) | wdmaDrxPtr (i : Nat)
  | feCdm (n : Nat) | feGdm (n : Nat) | macFsm (i : Nat)
  | qdmaFsm | qdmaFwdCnt | qdmaFqHead | qdmaFqTail
  | admaCrxPtr | admaDrxPtr | tdmaGloCfg
  deriving DecidableEq, Repr

/-- `MTK_FE_CDM_FSM(x)` -/
def feCdmFsm (x : Nat) : Reg := if x = 0 then .feCdm 3 else if x = 1 then .feCdm 4 else .feCdm 5

/-- `MTK_FE_GDM_FSM(x)` -/
def feGdmFsm (x : Nat) : Reg := if x = 2 then .feGdm 3 else if x = 1 then .feGdm 2 else .feGdm 1

/-- `struct mtk_hw_stats`: the counters that the monitors compare. -/
structure HwStats where
  rxPackets : BitVec 64
  txPackets : BitVec 64
  rxFlowControlPackets : BitVec 64

/-- What one call of a monitor sees: the registers, and the state of each MAC. -/
structure Sample where
  r32 : Reg → U32
  mac : Nat → Bool
  netifRunning : Nat → Bool
  hwStats : Nat → HwStats

/-- `!(!eth->mac[i] || !netif_running(eth->netdev[i]))` -/
def Sample.up (x : Sample) (i : Nat) : Bool := x.mac i && x.netifRunning i

/-- `MTK_FE_WDMA_OQ(i)` -/
def Sample.wdmaOq (x : Sample) (i : Nat) : U32 :=
  if i = 0 then x.r32 (.pseOqSta 4) &&& 0x00000FFF
  else if i = 1 then x.r32 (.pseOqSta 4) &&& 0x0FFF0000
  else x.r32 (.pseOqSta 6) &&& 0x0FFF0000

/-- `MTK_FE_GDM_OQ(i)` -/
def Sample.gdmOq (x : Sample) (i : Nat) : U32 :=
  if i = 2 then x.r32 (.pseOqSta 7) &&& 0x0FFF0000
  else if i = 1 then x.r32 (.pseOqSta 1) &&& 0x00000FFF
  else x.r32 (.pseOqSta 0) &&& 0x0FFF0000

/-! Three shapes of the counting code: the counter after the sample, and whether it raises the
error flag. -/

/-- `if (hang) { cnt++; if (cnt >= n) flag } else cnt = 0` -/
def tally (n : Nat) (hang : Bool) (cnt : U32) : U32 × Bool :=
  if hang then (cnt + 1, n ≤ (cnt + 1).toNat) else (0, false)

/-- `if (hang) { cnt++; if (cnt >= n) flag else cnt = 0 }` -/
def tallyInner (n : Nat) (hang : Bool) (cnt : U32) : U32 × Bool :=
  if hang then if n ≤ (cnt + 1).toNat then (cnt + 1, true) else (0, false) else (cnt, false)

/-- `if (hang) cnt++; if (cnt > n) flag else cnt = 0` -/
def tallyAbove (n : Nat) (hang : Bool) (cnt : U32) : U32 × Bool :=
  let cnt := if hang then cnt + 1 else cnt
  if n < cnt.toNat then (cnt, true) else (0, false)

def mtkFeStartReset : U32 := 0x2000
def mtkFeStopTraffic : U32 := 0x2005

/-! ## `mtk_monitor_wdma_tx` -/

/-- An output queue of the PSE as `mtk_check_pse_oq_sta` follows it. -/
structure OqSta where
  opq : U32
  errOpq : U32

structure WdmaTxUnit where
  preDtx : U32
  errCnt : U32

/-- The static variables of `mtk_monitor_wdma_tx`, the queues by port. -/
structure WdmaTx where
  queue : Nat → OqSta
  wdma : Nat → WdmaTxUnit

def pseOq (x : Sample) (port : Nat) : U32 :=
  x.r32 (.pseOqSta (port / 2)) &&& if port % 2 = 1 then 0x0FFF0000 else 0x00000FFF

/-- The queue holds packets and does not move. -/
def oqStuck (x : Sample) (port : Nat) (s : OqSta) : Bool :=
  pseOq x port ≠ 0 && pseOq x port = s.opq

/-- `mtk_check_pse_oq_sta` -/
def mtkCheckPseOqSta (x : Sample) (port : Nat) (s : OqSta) : OqSta :=
  { opq := pseOq x port, errOpq := (tally 3 (oqStuck x port s) s.errOpq).1 }

/-- The ports whose queues `mtk_monitor_wdma_tx` checks. -/
def oqPorts : List Nat := [1, 2, 8, 9, 13, 15]

def checkQueues (x : Sample) (queue : Nat → OqSta) : Nat → OqSta :=
  oqPorts.foldl (fun queue port =>
    Function.update queue port (mtkCheckPseOqSta x port (queue port))) queue

/-- `err_opq`, after the queues were checked. -/
def errOpq (queue : Nat → OqSta) : Bool := oqPorts.any fun port => 3 ≤ (queue port).errOpq.toNat

def wdmaTxHang (x : Sample) (stuck : Bool) (i : Nat) (s : WdmaTxUnit) : Bool :=
  x.r32 (.wdmaDtxPtr i) = s.preDtx && x.r32 (.wdmaGloCfg i) &&& 0x2 ≠ 0 &&
    x.r32 (feCdmFsm i) &&& 0x1F0F ≠ 0 && stuck

def wdmaTxUnit (x : Sample) (stuck : Bool) (i : Nat) (s : WdmaTxUnit) : WdmaTxUnit × Bool :=
  let counted := tally 3 (wdmaTxHang x stuck i s) s.errCnt
  ({ preDtx := x.r32 (.wdmaDtxPtr i), errCnt := counted.1 }, counted.2)

def mtkMonitorWdmaTx (soc : Soc) (x : Sample) (s : WdmaTx) : WdmaTx × U32 :=
  let queue := checkQueues x s.queue
  let swept := sweep (wdmaTxUnit x (errOpq queue)) soc.wdmaCnt s.wdma
  ({ queue := queue, wdma := swept.1 }, if swept.2 then mtkFeStartReset else 0)

/-! ## `mtk_monitor_wdma_rx` -/

structure WdmaRxUnit where
  preDrx : U32
  preCrx : U32
  preOpq : U32
  errCnt : U32

/-- `rx_cnt`, an `int` -/
def rxCnt (x : Sample) (i : Nat) : Int :=
  let drx := x.r32 (.wdmaDrxPtr i)
  let crx := x.r32 (.wdmaCrxPtr i)
  if crx < drx then (drx - 1 - crx).toInt
  else (drx - 1 - crx + x.r32 (.wdmaRxMaxCnt i)).toInt

def connsysBusy (x : Sample) (i : Nat) (s : WdmaRxUnit) : Bool :=
  x.r32 (.wdmaDrxPtr i) = s.preDrx && x.r32 (.wdmaCrxPtr i) = s.preCrx && 0 < rxCnt x i

def netsysBusy (x : Sample) (i : Nat) (s : WdmaRxUnit) : Bool :=
  x.r32 (.wdmaDrxPtr i) = s.preDrx && x.r32 (.wdmaCrxPtr i) = s.preCrx &&
    (x.wdmaOq i ≠ 0 && x.wdmaOq i = s.preOpq) && x.r32 (feCdmFsm i) &&& 0x0F0F0000 ≠ 0

def wdmaRxHang (x : Sample) (i : Nat) (s : WdmaRxUnit) : Bool :=
  if connsysBusy x i s then true else netsysBusy x i s

def wdmaRxUnit (x : Sample) (i : Nat) (s : WdmaRxUnit) : WdmaRxUnit × Bool :=
  let counted := tally 3 (wdmaRxHang x i s) s.errCnt
  ({ preDrx := x.r32 (.wdmaDrxPtr i), preCrx := x.r32 (.wdmaCrxPtr i), preOpq := x.wdmaOq i,
     errCnt := counted.1 }, counted.2)

def mtkMonitorWdmaRx (soc : Soc) (x : Sample) (s : Nat → WdmaRxUnit) :
    (Nat → WdmaRxUnit) × U32 :=
  let swept := sweep (wdmaRxUnit x) soc.wdmaCnt s
  (swept.1, if swept.2 then mtkFeStartReset else 0)

/-! ## `mtk_monitor_qdma_tx` and `mtk_monitor_qdma_rx` -/

/-- One MAC of `mtk_monitor_rx_fc`: the flow control counter is 64 bits wide, its copy 32. -/
def rxFcUnit (x : Sample) (i : Nat) (gdmRxFc : U32) : U32 × Bool :=
  if x.up i then
    ((x.hwStats i).rxFlowControlPackets.setWidth 32,
      (x.hwStats i).rxFlowControlPackets - gdmRxFc.setWidth 64 ≠ 0)
  else (gdmRxFc, false)

/-- `mtk_monitor_rx_fc` -/
def mtkMonitorRxFc (soc : Soc) (x : Sample) (gdmRxFc : Nat → U32) : (Nat → U32) × Bool :=
  sweep (rxFcUnit x) soc.macCount gdmRxFc

structure QdmaTx where
  gdmRxFc : Nat → U32
  errCntQtx : U32

def qdmaTxHang (soc : Soc) (x : Sample) (s : QdmaTx) : Bool :=
  x.r32 .qdmaFsm &&& 0xF00 ≠ 0 && x.r32 .qdmaFwdCnt = 0 && !(mtkMonitorRxFc soc x s.gdmRxFc).2

def mtkMonitorQdmaTx (soc : Soc) (x : Sample) (s : QdmaTx) : QdmaTx × U32 :=
  let counted := tally 3 (qdmaTxHang soc x s) s.errCntQtx
  ({ gdmRxFc := (mtkMonitorRxFc soc x s.gdmRxFc).1, errCntQtx := counted.1 },
    if counted.2 then mtkFeStopTraffic else 0)

structure QdmaRx where
  errCntQrx : U32
  preFqHead : U32
  preFqTail : U32

def qdmaRxHang (x : Sample) (s : QdmaRx) : Bool :=
  x.r32 .qdmaFsm &&& 0x1F = 9 && x.r32 .qdmaFqHead = s.preFqHead &&
    x.r32 .qdmaFqTail = s.preFqTail

def mtkMonitorQdmaRx (x : Sample) (s : QdmaRx) : QdmaRx × U32 :=
  let counted := tallyInner 3 (qdmaRxHang x s) s.errCntQrx
  ({ errCntQrx := counted.1, preFqHead := x.r32 .qdmaFqHead, preFqTail := x.r32 .qdmaFqTail },
    if counted.2 then mtkFeStopTraffic else 0)

/-! ## `mtk_monitor_adma_rx`, `mtk_monitor_tdma_tx` and `mtk_monitor_tdma_rx` -/

structure AdmaRx where
  errCntArx : U32
  preDrx : U32
  preOpq : U32

def admaRxHang (x : Sample) (s : AdmaRx) : Bool :=
  let opq0 := x.r32 (.pseOqSta 0) &&& 0xFFF
  x.r32 .admaDrxPtr = s.preDrx && x.r32 .admaCrxPtr ≠ x.r32 .admaDrxPtr &&
    (opq0 ≠ 0 && opq0 = s.preOpq) && x.r32 (.feCdm 1) &&& 0x0F0F0000 ≠ 0

def mtkMonitorAdmaRx (x : Sample) (s : AdmaRx) : AdmaRx × U32 :=
  let counted := tally 3 (admaRxHang x s) s.errCntArx
  ({ errCntArx := counted.1, preDrx := x.r32 .admaDrxPtr,
     preOpq := x.r32 (.pseOqSta 0) &&& 0xFFF },
    if counted.2 then mtkFeStopTraffic else 0)

/-- `pre_fsm` holds the outcome of a comparison. -/
structure TdmaTx where
  errCntTtx : U32
  preIpq10 : U32
  preFsm : Bool

def tdmaTxHang (x : Sample) (s : TdmaTx) : Bool :=
  let ipq10 := x.r32 (.pseIqSta 6) &&& 0xFFF
  let curFsm : Bool := x.r32 (.feCdm 6) &&& 0x1FFF ≠ 0
  ipq10 ≠ 0 && curFsm && x.r32 .tdmaGloCfg &&& 0x2 ≠ 0 && curFsm = s.preFsm &&
    ipq10 = s.preIpq10

def mtkMonitorTdmaTx (soc : Soc) (x : Sample) (s : TdmaTx) : TdmaTx × U32 :=
  if soc.netsysV3 then
    let counted := tally 3 (tdmaTxHang x s) s.errCntTtx
    ({ errCntTtx := counted.1, preIpq10 := x.r32 (.pseIqSta 6) &&& 0xFFF,
       preFsm := x.r32 (.feCdm 6) &&& 0x1FFF ≠ 0 },
      if counted.2 then mtkFeStopTraffic else 0)
  else (s, 0)

structure TdmaRx where
  errCntTrx : U32
  preFsm : Bool

def tdmaRxHang (x : Sample) (s : TdmaRx) : Bool :=
  let curFsm : Bool := x.r32 (.feCdm 6) &&& 0xFFF0000 ≠ 0
  curFsm = s.preFsm && curFsm && x.r32 .tdmaGloCfg &&& 0x8 ≠ 0

def mtkMonitorTdmaRx (soc : Soc) (x : Sample) (s : TdmaRx) : TdmaRx × U32 :=
  if soc.netsysV3 then
    let counted := tally 3 (tdmaRxHang x s) s.errCntTrx
    ({ errCntTrx := counted.1, preFsm := x.r32 (.feCdm 6) &&& 0xFFF0000 ≠ 0 },
      if counted.2 then mtkFeStopTraffic else 0)
  else (s, 0)

/-! ## `mtk_monitor_gdm_rx` -/

structure GmacRxUnit where
  gmacCnt : U32
  gmacRxcnt : U32

structure GdmRxUnit where
  gdmCnt : U32
  preFsm : U32
  preIpq : U32

structure GdmRx where
  gmac : Nat → GmacRxUnit
  gdm : Nat → GdmRxUnit

/-- The packet counter is 64 bits wide, its copy 32. -/
def gmacRxHang (x : Sample) (i : Nat) (s : GmacRxUnit) : Bool :=
  x.r32 (.macFsm i) &&& 0xFF0000 ≠ 0x10000 && s.gmacRxcnt.setWidth 64 = (x.hwStats i).rxPackets

def gmacRxUnit (x : Sample) (i : Nat) (s : GmacRxUnit) : GmacRxUnit × Bool :=
  if x.up i then
    let counted := tallyAbove 4 (gmacRxHang x i s) s.gmacCnt
    ({ gmacCnt := counted.1, gmacRxcnt := (x.hwStats i).rxPackets.setWidth 32 }, counted.2)
  else (s, false)

def gdmRxIpq (x : Sample) (i : Nat) : U32 :=
  if i = 0 then x.r32 (.pseIqSta 0) >>> 16 &&& 0xFFF
  else if i = 1 then x.r32 (.pseIqSta 1) &&& 0xFFF
  else x.r32 (.pseIqSta 7) >>> 16 &&& 0xFFF

def gdmRxFsm (x : Sample) (i : Nat) : U32 :=
  if i = 0 then x.r32 (.feGdm 1) &&& 0xFF
  else if i = 1 then x.r32 (.feGdm 2) &&& 0xFF
  else x.r32 (.feGdm 3) &&& 0xFF

def gdmRxHang (x : Sample) (i : Nat) (s : GdmRxUnit) : Bool :=
  (gdmRxFsm x i = s.preFsm && gdmRxFsm x i = 0x23 ||
    gdmRxFsm x i = s.preFsm && gdmRxFsm x i = 0x24) &&
  (gdmRxIpq x i = s.preIpq && gdmRxIpq x i ≠ 0)

def gdmRxUnit (x : Sample) (i : Nat) (s : GdmRxUnit) : GdmRxUnit × Bool :=
  if x.up i then
    let counted := tally 3 (gdmRxHang x i s) s.gdmCnt
    ({ gdmCnt := counted.1, preFsm := gdmRxFsm x i, preIpq := gdmRxIpq x i }, counted.2)
  else (s, false)

def mtkMonitorGdmRx (soc : Soc) (x : Sample) (s : GdmRx) : GdmRx × U32 :=
  let gmac := sweep (gmacRxUnit x) soc.maxDevs s.gmac
  let gdm := if soc.netsysV3 then sweep (gdmRxUnit x) soc.maxDevs s.gdm else (s.gdm, false)
  ({ gmac := gmac.1, gdm := gdm.1 }, if gmac.2 || gdm.2 then mtkFeStopTraffic else 0)

/-! ## `mtk_monitor_gdm_tx` -/

structure GmacTxUnit where
  errCnt : U32
  gmacTxcnt : U32

structure GdmTxUnit where
  gdmErrCnt : U32
  preGdm : U32
  preOpq : U32

structure GdmTx where
  gmac : Nat → GmacTxUnit
  gdm : Nat → GdmTxUnit

def gmacTxOpq (x : Sample) (i : Nat) : U32 :=
  if i = 0 then x.r32 (.pseOqSta 0) >>> 16 &&& 0xFFF
  else if i = 1 then x.r32 (.pseOqSta 1) &&& 0xFFF
  else x.r32 (.pseOqSta 7) >>> 16 &&& 0xFFF

def gmacTxHang (x : Sample) (i : Nat) (s : GmacTxUnit) : Bool :=
  x.r32 (.macFsm i) &&& 0xFF000000 ≠ 0x1000000 &&
    s.gmacTxcnt.setWidth 64 = (x.hwStats i).txPackets && 0 < gmacTxOpq x i

def gmacTxUnit (x : Sample) (i : Nat) (s : GmacTxUnit) : GmacTxUnit × Bool :=
  if x.up i then
    let counted := tallyAbove 4 (gmacTxHang x i s) s.errCnt
    ({ errCnt := counted.1, gmacTxcnt := (x.hwStats i).txPackets.setWidth 32 }, counted.2)
  else (s, false)

def gdmTxHang (x : Sample) (i : Nat) (s : GdmTxUnit) : Bool :=
  let gdmFsm := x.r32 (feGdmFsm i) &&& 0x1FFF0000
  s.preGdm = gdmFsm && gdmFsm = 0x10330000 && s.preOpq = x.gdmOq i && 0 < x.gdmOq i

def gdmTxUnit (x : Sample) (i : Nat) (s : GdmTxUnit) : GdmTxUnit × Bool :=
  if x.up i then
    let counted := tallyAbove 4 (gdmTxHang x i s) s.gdmErrCnt
    ({ gdmErrCnt := counted.1, preGdm := x.r32 (feGdmFsm i) &&& 0x1FFF0000,
       preOpq := x.gdmOq i }, counted.2)
  else (s, false)

def mtkMonitorGdmTx (soc : Soc) (x : Sample) (s : GdmTx) : GdmTx × U32 :=
  let gmac := sweep (gmacTxUnit x) soc.maxDevs s.gmac
  let gdm := sweep (gdmTxUnit x) soc.maxDevs s.gdm
  ({ gmac := gmac.1, gdm := gdm.1 }, if gmac.2 || gdm.2 then mtkFeStopTraffic else 0)

end Filogic.Eth
