import Filogic.Eth.RxRing
import Filogic.Lib.Around

/-! `mtk_eth_soc.c`: a transmit ring. `mtk_start_xmit` fills it under the page lock, and the poller
empties it without a lock: a step is one pass of a loop of either, and a descriptor is known by its
index. -/

namespace Filogic.Eth
open Lib

/-- `struct mtk_soc_data`, and the interfaces that exist. -/
structure TxConf where
  qdma : Bool
  txDmaSize : Nat
  dmaMaxLen : Nat
  netdev : Fin 3 → Bool
  txDmaSize_pow : ∃ k, txDmaSize = 2 ^ k
  dmaMaxLen_pos : 0 < dmaMaxLen

/-- `MTK_GMAC1_ID` and its successors -/
def mtkGmac1Id : Fin 3 := 0
def mtkGmac2Id : Fin 3 := 1
def mtkGmac3Id : Fin 3 := 2

/-- `struct sk_buff`: the linear part and the fragments. -/
structure Skb where
  id : Nat
  headlen : Nat
  frags : List Nat
  isGso : Bool
  queueMapping : Nat
  deriving DecidableEq, Repr

def Skb.len (skb : Skb) : Nat := skb.headlen + skb.frags.sum

def mtkMinTxLength : Nat := 60

/-- `skb_put_padto`, which leaves no fragments -/
def Skb.padded (skb : Skb) : Skb := { skb with headlen := mtkMinTxLength, frags := [] }

/-- What a `struct mtk_tx_buf` points to; `dummy` is `MTK_DMA_DUMMY_DESC`. -/
inductive BufSkb where
  | null
  | dummy
  | skb (skb : Skb)
  deriving DecidableEq, Repr

/-- `struct mtk_tx_buf` without the DMA mappings, with `MTK_TX_FLAGS_FPORT1` and `2` of its
flags -/
structure TxBuf where
  skb : BufSkb
  fport1 : Bool
  fport2 : Bool
  deriving DecidableEq, Repr

def TxBuf.zero : TxBuf := { skb := .null, fport1 := false, fport2 := false }

def TxBuf.setFport (mac : Fin 3) (b : TxBuf) : TxBuf :=
  if mac = mtkGmac1Id then b
  else if mac = mtkGmac2Id then { b with fport1 := true }
  else { b with fport2 := true }

/-- The interface that the poller takes from the flags. -/
def TxBuf.mac (b : TxBuf) : Fin 3 :=
  if b.fport1 then mtkGmac2Id else if b.fport2 then mtkGmac3Id else mtkGmac1Id

/-- `struct mtk_tx_ring` with `TX_DMA_OWNER_CPU` of its descriptors; the descriptors of packets in
flight, and those of them that were written. -/
structure TxRing where
  owner : Nat → Bool
  buf : Nat → TxBuf
  nextFree : Nat
  lastFree : Nat
  lastFreePtr : Nat
  cpuIdx : Nat
  freeCount : Int
  inFlight : List Nat
  overwritten : List Nat

/-- A packet between `mtk_tx_map`'s first descriptor and its last: the pieces left, by the index of
their fragment, and the descriptors taken. -/
structure TxMap where
  skb : Skb
  mac : Fin 3
  itxd : Nat
  txd : Nat
  nDesc : Nat
  k : Nat
  pieces : List Nat
  taken : List Nat

/-- Where the holder of the page lock is; `undoing` is the loop at `err_dma`. -/
inductive Xmit where
  | idle
  | mapping (m : TxMap)
  | undoing (skb : Skb) (itxd txd : Nat)

/-- A queue of an interface. -/
abbrev Txq : Type := Fin 3 × Nat

/-- The variables of the pollers, with `struct mtk_poll_state`. -/
structure Poll where
  cpu : Nat
  dma : Nat
  budget : Nat
  txq : Option Txq
  total : Nat
  done : Nat
  bytes : Nat
  deriving DecidableEq, Repr

inductive TxAnswer where
  | ok | busy
  deriving DecidableEq, Repr

/-- The bytes of a packet, counted for a queue. -/
structure Counted where
  id : Nat
  txq : Txq
  bytes : Nat
  deriving DecidableEq, Repr

/-- The system: the ring, its user and its poller, the hardware's place in it, whether the ring is
allocated; the packets freed and answered, and what the queue limits were told. -/
structure TxState where
  ring : TxRing
  xmit : Xmit
  poll : Option Poll
  dma : Nat
  up : Bool
  freed : List Nat
  answers : List (Nat × TxAnswer)
  sent : List Counted
  polled : List Counted
  completed : List (Txq × Nat × Nat)

namespace TxRing

/-- A descriptor is set up. -/
def write (d : Nat) (owner : Bool) (r : TxRing) : TxRing :=
  { r with
    owner := Function.update r.owner d owner
    overwritten := if d ∈ r.inFlight then d :: r.overwritten else r.overwritten }

def setBuf (d : Nat) (b : TxBuf) (r : TxRing) : TxRing :=
  { r with buf := Function.update r.buf d b }

end TxRing

section Code

variable (c : TxConf)

/-- The next descriptor, along the chain in `txd2`. -/
def nextDesc (d : Nat) : Nat := (d + 1) % c.txDmaSize

/-- `mtk_tx_alloc`, and where the hardware starts. -/
def txAlloc (s : TxState) : TxState :=
  { s with
    ring := {
      owner := fun _ => true
      buf := fun _ => TxBuf.zero
      nextFree := 0
      lastFree := c.txDmaSize - 1
      lastFreePtr := c.txDmaSize - 1
      cpuIdx := 0
      freeCount := (c.txDmaSize : Int) - 2
      inFlight := []
      overwritten := s.ring.overwritten }
    dma := if c.qdma then c.txDmaSize - 1 else 0
    up := true }

/-- `mtk_cal_txd_req` -/
def calTxdReq (skb : Skb) : Nat :=
  if skb.isGso then
    1 + (skb.frags.map fun size => (size + c.dmaMaxLen - 1) / c.dmaMaxLen).sum
  else 1 + skb.frags.length

/-- The passes of `while (frag_size)`. -/
def fragPasses : Nat → Nat → Nat
  | 0, _ => 0
  | left + 1, fragSize =>
    if fragSize = 0 then 0 else fragPasses left (fragSize - min fragSize c.dmaMaxLen) + 1

def fragPieces (frags : List Nat) : List Nat :=
  frags.zipIdx.flatMap fun frag => List.replicate (fragPasses c frag.1 frag.1) frag.2

/-- `mtk_tx_unmap` -/
def txUnmap (d : Nat) (s : TxState) : TxState :=
  { s with
    ring := s.ring.setBuf d TxBuf.zero
    freed := match (s.ring.buf d).skb with
      | .skb skb => skb.id :: s.freed
      | _ => s.freed }

/-- The label `drop` of `mtk_start_xmit` -/
def drop (skb : Skb) (s : TxState) : TxState :=
  { s with
    xmit := .idle, freed := skb.id :: s.freed, answers := (skb.id, .ok) :: s.answers }

/-- The descriptor of piece `k`: the second half of a PDMA descriptor leaves the owner. -/
def setDesc (d k : Nat) (r : TxRing) : TxRing :=
  r.write d (!c.qdma && k % 2 = 1 && r.owner d)

/-- `setup_tx_buf` -/
def setupTxBuf (k : Nat) (b : TxBuf) : TxBuf :=
  if c.qdma = false ∧ k % 2 = 0 then { b with skb := .dummy } else b

/-- What goes wrong in a call of `mtk_start_xmit` before the fragments. -/
structure XmitTry where
  resetting : Bool
  cowFails : Bool
  padFails : Bool
  mapFails : Bool
  deriving DecidableEq, Repr

/-- `mtk_tx_map` up to the loop over the fragments -/
def mapHead (t : XmitTry) (skb : Skb) (mac : Fin 3) (s : TxState) : TxState :=
  let itxd := s.ring.nextFree
  if itxd = s.ring.lastFree then drop skb s
  else if t.mapFails then drop skb { s with ring := s.ring.setBuf itxd TxBuf.zero }
  else { s with
    ring := (setDesc c itxd 0 s.ring).setBuf itxd
      (setupTxBuf c 0 (TxBuf.zero.setFport mac))
    xmit := .mapping {
      skb := skb, mac := mac, itxd := itxd, txd := itxd, nDesc := 1, k := 1
      pieces := fragPieces c skb.frags, taken := [itxd] } }

/-- `mtk_start_xmit` up to there -/
def mtkStartXmit (t : XmitTry) (skb : Skb) (mac : Fin 3) (s : TxState) : TxState :=
  if t.resetting then drop skb s
  else if s.ring.freeCount ≤ calTxdReq c skb then
    { s with answers := (skb.id, .busy) :: s.answers }
  else if skb.isGso ∧ t.cowFails then drop skb s
  else if skb.len ≤ 40 then
    -- `skb_put_padto` frees what it cannot pad
    if t.padFails then drop skb { s with freed := skb.id :: s.freed }
    else mapHead c t skb.padded mac s
  else mapHead c t skb mac s

/-- After the loop over the fragments -/
def mapDone (m : TxMap) (s : TxState) : TxState :=
  { s with
    ring := { s.ring with
      buf := Function.update s.ring.buf m.itxd { s.ring.buf m.itxd with skb := .skb m.skb }
      nextFree := nextDesc c m.txd
      freeCount := s.ring.freeCount - m.nDesc
      inFlight := s.ring.inFlight ++ m.taken }
    xmit := .idle
    sent := { id := m.skb.id, txq := (m.mac, m.skb.queueMapping), bytes := m.skb.len } :: s.sent
    answers := (m.skb.id, .ok) :: s.answers }

/-- A piece of fragment `i`: whether it takes a new descriptor. -/
def newDesc (i : Nat) : Bool := c.qdma || i % 2 = 1

/-- One pass of the loop over the pieces -/
def mapPiece (fails : Bool) (m : TxMap) (s : TxState) : TxState :=
  match m.pieces with
  | [] => mapDone c m s
  | i :: rest =>
    let txd := if newDesc c i then nextDesc c m.txd else m.txd
    if newDesc c i ∧ txd = s.ring.lastFree then { s with xmit := .undoing m.skb m.itxd txd }
    else if fails then { s with xmit := .undoing m.skb m.itxd txd }
    else
      let b := if newDesc c i then TxBuf.zero else s.ring.buf txd
      { s with
        ring := (setDesc c txd m.k s.ring).setBuf txd
          (setupTxBuf c m.k ({ b with skb := .dummy }.setFport m.mac))
        xmit := .mapping { m with
          txd := txd
          nDesc := if newDesc c i then m.nDesc + 1 else m.nDesc
          k := m.k + 1
          pieces := rest
          taken := if newDesc c i then m.taken ++ [txd] else m.taken } }

/-- One pass of the loop at `err_dma` -/
def undoPass (skb : Skb) (itxd txd : Nat) (s : TxState) : TxState :=
  let s := txUnmap itxd s
  let s := { s with ring := s.ring.write itxd true }
  if nextDesc c itxd = txd then drop skb s
  else { s with xmit := .undoing skb (nextDesc c itxd) txd }

/-- `mtk_poll_tx_done` -/
def pollTxDone (mac : Fin 3) (skb : Skb) (p : Poll) (s : TxState) : Poll × TxState :=
  let p := { p with total := p.total + 1 }
  let s := { s with polled :=
    { id := skb.id, txq := (mac, skb.queueMapping), bytes := skb.len } :: s.polled }
  if c.netdev mac = false then (p, s)
  else
    if p.txq = some (mac, skb.queueMapping) then
      ({ p with done := p.done + 1, bytes := p.bytes + skb.len }, s)
    else
      ({ p with txq := some (mac, skb.queueMapping), done := 1, bytes := skb.len },
        match p.txq with
        | none => s
        | some txq => { s with completed := (txq, p.done, p.bytes) :: s.completed })

/-- What both pollers do with a descriptor that is done. -/
def txRelease (d : Nat) (p : Poll) (s : TxState) : Poll × TxState :=
  let (p, s) := match (s.ring.buf d).skb with
    | .skb skb =>
      let (p, s) := pollTxDone c (s.ring.buf d).mac skb p s
      ({ p with budget := p.budget - 1 }, s)
    | _ => (p, s)
  let s := txUnmap d s
  (p, { s with ring := { s.ring with
    lastFree := d
    freeCount := s.ring.freeCount + 1
    inFlight := s.ring.inFlight.erase d } })

/-- One pass of the loop of `mtk_poll_tx_qdma`, unless it ends there -/
def pollTxQdma (p : Poll) (s : TxState) : Option (Poll × TxState) :=
  if p.cpu = p.dma ∨ p.budget = 0 then none
  else if s.ring.owner p.cpu = false then none
  else
    let nextCpu := nextDesc c p.cpu
    let desc := nextDesc c p.cpu
    if (s.ring.buf desc).skb = .null then none
    else
      let (p, s) := txRelease c desc p s
      some ({ p with cpu := nextCpu }, s)

/-- One pass of the loop of `mtk_poll_tx_pdma`, unless it ends there -/
def pollTxPdma (p : Poll) (s : TxState) : Option (Poll × TxState) :=
  if p.cpu = p.dma ∨ p.budget = 0 then none
  else if s.ring.owner p.cpu = false then none
  else if (s.ring.buf p.cpu).skb = .null then none
  else
    let (p', s) := txRelease c p.cpu p s
    some ({ p' with cpu := nextDespIdx p.cpu c.txDmaSize }, s)

/-- `mtk_poll_tx` up to the loop -/
def pollBegin (budget : Nat) (s : TxState) : TxState :=
  { s with poll := some {
    cpu := if c.qdma then s.ring.lastFreePtr else s.ring.cpuIdx
    dma := s.dma, budget := budget, txq := none, total := 0, done := 0, bytes := 0 } }

/-- After the loop -/
def pollEnd (p : Poll) (s : TxState) : TxState :=
  let ring := if c.qdma then { s.ring with lastFreePtr := p.cpu }
    else { s.ring with cpuIdx := p.cpu }
  { s with
    ring := ring
    poll := none
    completed := match p.txq with
      | none => s.completed
      | some txq => (txq, p.done, p.bytes) :: s.completed }

def pollPass (p : Poll) (s : TxState) : TxState :=
  match if c.qdma then pollTxQdma c p s else pollTxPdma c p s with
  | none => pollEnd c p s
  | some (p, s) => { s with poll := some p }

/-- The hardware is done with the next descriptor that it was given. -/
def hwDone (s : TxState) : TxState :=
  let d := if c.qdma then nextDesc c s.dma else s.dma
  if d ∈ s.ring.inFlight then
    { s with
      ring := { s.ring with owner := Function.update s.ring.owner d true }
      dma := nextDesc c s.dma }
  else s

/-- `mtk_tx_clean` -/
def txClean (s : TxState) : TxState :=
  let s := (List.range c.txDmaSize).foldl (fun s d => txUnmap d s) s
  { s with ring := { s.ring with inFlight := [] }, up := false }

inductive TxEvent where
  | xmit (t : XmitTry) (skb : Skb) (mac : Fin 3)
  | piece (fails : Bool)
  | undo
  | poll (budget : Nat)
  | pass
  | hw
  | clean
  | alloc
  deriving DecidableEq, Repr

/-- A step of the system; what cannot happen in a state leaves it. -/
def txStep (s : TxState) (event : TxEvent) : TxState :=
  match s.up, event with
  | false, .alloc => txAlloc c s
  | true, .xmit t skb mac =>
    match s.xmit with
    | .idle => mtkStartXmit c t skb mac s
    | _ => s
  | true, .piece fails =>
    match s.xmit with
    | .mapping m => mapPiece c fails m s
    | _ => s
  | true, .undo =>
    match s.xmit with
    | .undoing skb itxd txd => undoPass c skb itxd txd s
    | _ => s
  | true, .poll budget =>
    match s.poll with
    | none => pollBegin c budget s
    | some _ => s
  | true, .pass =>
    match s.poll with
    | none => s
    | some p => pollPass c p s
  | true, .hw => hwDone c s
  | true, .clean =>
    match s.xmit, s.poll with
    | .idle, none => txClean c s
    | _, _ => s
  | _, _ => s

/-- Before the ring is allocated. -/
def txDown : TxState where
  ring := {
    owner := fun _ => false, buf := fun _ => TxBuf.zero, nextFree := 0, lastFree := 0
    lastFreePtr := 0, cpuIdx := 0, freeCount := 0, inFlight := [], overwritten := [] }
  xmit := .idle
  poll := none
  dma := 0
  up := false
  freed := []
  answers := []
  sent := []
  polled := []
  completed := []

end Code

end Filogic.Eth
