import Filogic.Lib.Ledger

/-! `mtk_wed.c`, `mtk_wed_wo.c`, `mtk_wed_ccif.c` and `mtk_wed_mcu.c`: `mtk_wed_attach`, which takes a
WED for a Wi-Fi device, and `__mtk_wed_detach`, which every failure behind the first ones goes through.
The registers are left out, and so are the rings that the Wi-Fi device sets up later. -/

namespace Filogic.Wed.Attach
open Lib

def enodev : Int := -19
def enomem : Int := -12
def ebusy : Int := -16

/-- `MTK_WED_BUF_PER_PAGE`, `MTK_WED_TX_BM_PKT_CNT` and `MTK_WED_AMSDU_NPAGES` -/
def bufPerPage : Nat := 2
def txBmPktCnt : Nat := 32768
def amsduNpages : Nat := 32

/-- What is asked for and given back. A page and its mapping are two goods; a queue is the descriptors
of one, the buffers are those that fill it. -/
inductive Good where
  | txList
  | txDesc
  | txPage (i : Nat)
  | txMap (i : Nat)
  | amsduPage (i : Nat)
  | amsduMap (i : Nat)
  | rroRing
  | wo
  | irq
  | queue (i : Nat)
  | buffers (i : Nat)
  | log
  | logMap
  deriving DecidableEq

/-- An address that is kept: of nothing, of something, or of something that was freed. -/
inductive Ptr where
  | null | live | freed
  deriving DecidableEq, Repr

/-- What is left in the pointer when the thing is freed. -/
def Ptr.dangle : Ptr → Ptr
  | .null => .null
  | .live | .freed => .freed

/-- `struct mtk_wed_device`: its configuration, and what it holds. `txPages` counts the pages that are
in the list of `tx_buf_ring`, if there is one. -/
structure Dev where
  version : Nat
  nbuf : Nat
  hwRro : Bool
  txPages : Option Nat
  txDesc : Bool
  rroRing : Bool
  deriving DecidableEq

/-- `struct mtk_wed_hw`, with the goods that were taken for it, and whether anything used a WO object
that is none, or the null pointer. -/
structure Hw where
  version : Nat
  wedDev : Option Dev
  wedWo : Ptr
  wedAmsdu : Ptr
  held : Ledger Good
  misused : Bool

/-- What each step of an attempt comes to: whether memory, nodes and mappings are there, and what the
calls return that have errors of their own. -/
structure Answers where
  moduleGet : Bool
  dmaMask : Int
  txList : Bool
  txDesc : Bool
  txPage : Nat → Bool
  txMap : Nat → Bool
  amsduList : Bool
  amsduPage : Nat → Bool
  amsduMap : Nat → Bool
  rroNode : Bool
  rroAddress : Int
  rroRing : Bool
  wo : Bool
  ccifNode : Bool
  ccifRegs : Bool
  irq : Int
  queueRegs : Nat → Bool
  queueDesc : Nat → Bool
  queueEntry : Nat → Bool
  regionNode : Nat → Bool
  regionAddress : Nat → Int
  firmware : Int
  boots : Bool
  log : Bool
  logMap : Bool
  exceptionMsg : Int

/-- `mtk_wed_get_rx_capa` -/
def Dev.rxCapa (dev : Dev) : Bool := if dev.version = 3 then dev.hwRro else dev.version ≠ 1

/-- The pages of the TX buffers: `ring_size / MTK_WED_BUF_PER_PAGE`. -/
def Dev.pages (dev : Dev) : Nat :=
  if 3 ≤ dev.version then txBmPktCnt / bufPerPage else dev.nbuf / bufPerPage

/-- Pages with their mappings. -/
def pageGoods (page map : Nat → Good) (n : Nat) : Multiset Good :=
  (Multiset.range n).map page + (Multiset.range n).map map

namespace Hw

variable (hw : Hw) (ans : Answers)

/-- After `mtk_wed_add_hw`. -/
def boot (version : Nat) : Hw := ⟨version, none, .null, .null, .empty, false⟩

def take (g : Good) : Hw := { hw with held := hw.held.take g }

def give (g : Good) : Hw := { hw with held := hw.held.giveBack g }

def giveAll (goods : Multiset Good) : Hw := { hw with held := hw.held.giveAll goods }

def modifyDev (f : Dev → Dev) : Hw := { hw with wedDev := hw.wedDev.map f }

/-- The loop of `mtk_wed_tx_buffer_alloc`, behind `k` pages. -/
def txPages (k : Nat) : Nat → Hw → Int × Hw
  | 0, hw => (0, hw)
  | left + 1, hw =>
    if ans.txPage k = false then (enomem, hw)
    else if ans.txMap k = false then (enomem, (hw.take (.txPage k)).give (.txPage k))
    else
      txPages (k + 1) left
        (((hw.take (.txPage k)).take (.txMap k)).modifyDev fun dev => { dev with txPages := some (k + 1) })

/-- `mtk_wed_tx_buffer_alloc` -/
def txBufferAlloc (dev : Dev) : Int × Hw :=
  if ans.txList = false then (enomem, hw)
  else
    let hw := (hw.take .txList).modifyDev fun dev => { dev with txPages := some 0 }
    if ans.txDesc = false then (enomem, hw)
    else
      txPages ans 0 dev.pages
        ((hw.take .txDesc).modifyDev fun dev => { dev with txDesc := true })

/-- `mtk_wed_free_tx_buffer` -/
def freeTxBuffer (dev : Dev) : Hw :=
  match dev.txPages with
  | none => hw
  | some k =>
    let hw :=
      if dev.txDesc then (hw.giveAll (pageGoods .txPage .txMap k)).give .txDesc else hw
    hw.give .txList

/-- The loop of `mtk_wed_amsdu_buffer_alloc`, behind `k` pages; what goes wrong takes back the mappings
before, and leaves the pages. -/
def amsduPages (k : Nat) : Nat → Hw → Int × Hw
  | 0, hw => (0, hw)
  | left + 1, hw =>
    if ans.amsduPage k = false then
      (enomem, hw.giveAll ((Multiset.range k).map .amsduMap))
    else if ans.amsduMap k = false then
      (enomem, (hw.take (.amsduPage k)).giveAll ((Multiset.range k).map .amsduMap))
    else amsduPages (k + 1) left ((hw.take (.amsduPage k)).take (.amsduMap k))

/-- `mtk_wed_amsdu_buffer_alloc`; the array itself is the device's. -/
def amsduBufferAlloc : Int × Hw :=
  if hw.version < 3 then (0, hw)
  else if ans.amsduList = false then (enomem, hw)
  else
    let (ret, hw) := amsduPages ans 0 amsduNpages hw
    if ret ≠ 0 then (ret, hw) else (0, { hw with wedAmsdu := .live })

/-- `mtk_wed_amsdu_free_buffer`, which leaves the pointer. -/
def amsduFreeBuffer : Hw :=
  if hw.wedAmsdu = .null then hw
  else
    { hw.giveAll (pageGoods .amsduPage .amsduMap amsduNpages) with wedAmsdu := hw.wedAmsdu.dangle }

/-- `mtk_wed_rro_alloc` -/
def rroAlloc : Int × Hw :=
  if ans.rroNode = false then (enodev, hw)
  else if ans.rroAddress ≠ 0 then (ans.rroAddress, hw)
  else if ans.rroRing = false then (enomem, hw)
  else (0, (hw.take .rroRing).modifyDev fun dev => { dev with rroRing := true })

/-- `woif_q_alloc`, which fills the first queue. -/
def queueAlloc (i : Nat) : Int × Hw :=
  -- `q_regs` is written to without a check; the call ends here, the kernel would stop
  if ans.queueRegs i = false then (enomem, { hw with misused := true })
  else if ans.queueDesc i = false then (enomem, hw)
  else
    let hw := hw.take (.queue i)
    if ans.queueEntry i = false then (enomem, hw)
    else (0, if i = 0 then hw.take (.buffers 0) else hw)

/-- `wed_wo_hardware_init`; `free_irq` is called for an interrupt that was refused, too. -/
def hardwareInit : Int × Hw :=
  if ans.ccifNode = false ∨ ans.ccifRegs = false then (enodev, hw)
  else if ans.irq ≠ 0 then (ans.irq, hw.give .irq)
  else
    let (ret, hw) := (hw.take .irq).queueAlloc ans 0
    if ret ≠ 0 then (ret, hw.give .irq)
    else
      let (ret, hw) := hw.queueAlloc ans 1
      if ret ≠ 0 then (ret, hw.give .irq)
      -- `woif_q_init` fills the second queue and returns 0
      else (0, hw.take (.buffers 1))

/-- `mtk_wed_get_firmware_region`, behind `i` regions. -/
def firmwareRegions (i : Nat) : Nat → Int
  | 0 => 0
  | left + 1 =>
    if ans.regionNode i = false then enodev
    else if ans.regionAddress i ≠ 0 then ans.regionAddress i
    else firmwareRegions (i + 1) left

/-- `wed_wo_mcu_init` -/
def mcuInit : Int :=
  let ret := firmwareRegions ans 0 4
  if ret ≠ 0 then ret
  else if ans.firmware ≠ 0 then ans.firmware
  else if ans.boots = false then ebusy
  else 0

/-- `mtk_wed_exception_init` -/
def exceptionInit : Int × Hw :=
  if ans.log = false then (enomem, hw)
  else
    let hw := hw.take .log
    if ans.logMap = false then (enomem, hw.give .log)
    else (ans.exceptionMsg, hw.take .logMap)

/-- `mtk_wed_wo_init` -/
def woInit : Int × Hw :=
  if ans.wo = false then (enomem, hw)
  else
    let hw := { hw.take .wo with wedWo := .live }
    -- `goto error`: the pointer of the WED stays
    let error (hw : Hw) : Hw := { hw.give .wo with wedWo := .freed }
    let (ret, hw) := hw.hardwareInit ans
    if ret ≠ 0 then (ret, error hw)
    else
      let ret := mcuInit ans
      if ret ≠ 0 then (ret, error hw)
      else
        let (ret, hw) := hw.exceptionInit ans
        if ret ≠ 0 then (ret, error hw) else (0, hw)

/-- What a WO object holds, and its memory. -/
def woGoods : Multiset Good :=
  {.irq, .buffers 0, .buffers 1, .queue 0, .queue 1, .logMap, .log, .wo}

/-- A use of the WO object, as `mtk_wed_wo_reset` makes to send it a message. -/
def useWo : Hw := if hw.wedWo = .live then hw else { hw with misused := true }

/-- `mtk_wed_wo_exit`. Of an object that was freed nothing is known, but that it is freed again. -/
def woExit : Hw :=
  if hw.wedWo = .live then { hw.giveAll woGoods with wedWo := .freed } else hw.useWo.give .wo

/-- `mtk_wed_free_ring` of `dev->rro.ring`, and no more of `mtk_wed_free_rx_rings` before the Wi-Fi
device sets up its rings. -/
def freeRxRings (dev : Dev) : Hw := if dev.rroRing then hw.give .rroRing else hw

/-- `__mtk_wed_detach` -/
def detach : Hw :=
  match hw.wedDev with
  | none => hw
  | some dev =>
    let hw := hw.amsduFreeBuffer.freeTxBuffer dev
    let hw :=
      if dev.rxCapa then
        let hw := (if hw.wedWo ≠ .null then hw.useWo else hw).freeRxRings dev
        if hw.wedWo ≠ .null then hw.woExit else hw
      else hw
    { hw with wedDev := none }

/-- `mtk_wed_attach` from `mtk_wed_tx_buffer_alloc` on, up to `out`. -/
def setUp (dev : Dev) : Int × Hw :=
  let (ret, hw) := hw.txBufferAlloc ans dev
  if ret ≠ 0 then (ret, hw)
  else
    let (ret, hw) := hw.amsduBufferAlloc ans
    if ret ≠ 0 then (ret, hw)
    else if dev.rxCapa then
      let (ret, hw) := hw.rroAlloc ans
      if ret ≠ 0 then (ret, hw) else hw.woInit ans
    else (0, hw)

end Hw

/-- The configuration that the Wi-Fi device brings. -/
structure Wlan where
  nbuf : Nat
  hwRro : Bool

/-- What is done with `hw_lock`. -/
inductive LockOp where
  | lock | unlock
  deriving DecidableEq

/-- `hw_list`, and whether `hw_lock` is held. -/
structure Driver where
  hwLock : Bool
  hwList : Fin 3 → Option Hw

/-- `mtk_wed_assign`: the first WED that is free. -/
def Driver.assign (d : Driver) : Option (Fin 3 × Hw) :=
  (List.finRange 3).findSome? fun i =>
    (d.hwList i).bind fun hw => if hw.wedDev.isNone then some (i, hw) else none

/-- What an attempt returns, what it does with the lock, and what it leaves. -/
structure Attempt where
  ret : Int
  locks : List LockOp
  hwList : Fin 3 → Option Hw

/-- `mtk_wed_attach` -/
def mtkWedAttach (d : Driver) (wlan : Wlan) (ans : Answers) : Attempt :=
  if ans.moduleGet = false then ⟨enodev, [], d.hwList⟩
  else
    match d.assign with
    | none => ⟨enodev, [.lock, .unlock], d.hwList⟩
    | some (i, hw) =>
      let dev : Dev := ⟨hw.version, wlan.nbuf, wlan.hwRro, none, false, false⟩
      let hw := { hw with wedDev := some dev }
      -- `return ret`, past `unlock`
      if ans.dmaMask ≠ 0 then ⟨ans.dmaMask, [.lock], Function.update d.hwList i (some hw)⟩
      else
        let (ret, hw) := hw.setUp ans dev
        let hw := if ret ≠ 0 then hw.detach else hw
        ⟨ret, [.lock, .unlock], Function.update d.hwList i (some hw)⟩

/-- Wi-Fi devices attach, and leave with `mtk_wed_detach`. -/
inductive Event where
  | attach (wlan : Wlan) (ans : Answers)
  | detach (i : Fin 3)

/-- A call waits for ever while the lock is held. -/
def step (d : Driver) (event : Event) : Driver :=
  if d.hwLock then d
  else
    match event with
    | .attach wlan ans =>
      let attempt := mtkWedAttach d wlan ans
      ⟨attempt.locks.getLast? = some .lock, attempt.hwList⟩
    | .detach i =>
      { d with hwList := Function.update d.hwList i ((d.hwList i).map Hw.detach) }

/-- The WEDs of the SoC, each with its version. -/
def Driver.boot (versions : Fin 3 → Option Nat) : Driver :=
  ⟨false, fun i => (versions i).map Hw.boot⟩

end Filogic.Wed.Attach
