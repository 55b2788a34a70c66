import Filogic.Eth.TxAccounts

/-! `mtk_eth_soc.c`: `mtk_tx_map` with the DMA mappings and the words of the descriptors, and the
loop at its end that undoes them. -/

namespace Filogic.Eth.Mapping
open Lib

/-- `struct mtk_tx_dma_v2`; the descriptors of version 1 have the first four words. -/
structure TxDma where
  txd1 : UInt32
  txd2 : UInt32
  txd3 : UInt32
  txd4 : UInt32
  txd5 : UInt32
  txd6 : UInt32
  txd7 : UInt32
  txd8 : UInt32
  deriving DecidableEq, Repr

/-- `struct mtk_tx_buf`, with `MTK_TX_FLAGS_SINGLE0` and `PAGE0` of its flags -/
structure DmaBuf extends TxBuf where
  single0 : Bool
  page0 : Bool
  addr0 : UInt64
  len0 : Nat
  addr1 : UInt64
  len1 : Nat
  deriving DecidableEq, Repr

def DmaBuf.zero : DmaBuf :=
  { TxBuf.zero with single0 := false, page0 := false, addr0 := 0, len0 := 0, addr1 := 0, len1 := 0 }

/-- An index of the ring, in `buf`, `dma` and `dma_pdma`. -/
structure Place where
  buf : DmaBuf
  dma : TxDma
  dmaPdma : TxDma
  deriving DecidableEq, Repr

/-- `struct mtk_tx_ring` -/
structure Ring where
  place : Nat → Place
  nextFree : Nat
  lastFree : Nat
  freeCount : Int

/-- The rest of `struct mtk_soc_data`: `addr64` is `MTK_36BIT_DMA` in a kernel with
`CONFIG_64BIT`, and `plen1High` is `CONFIG_MEDIATEK_NETSYS_V3`. -/
structure Conf extends TxConf where
  netsysV2 : Bool
  netsysV3 : Bool
  addr64 : Bool
  plen1High : Bool
  hnat : Bool
  dmaLenOffset : Nat

/-- A call of `mtk_tx_map`, and what the DMA layer answers to its mappings, in their order. -/
structure Call where
  skb : Skb
  mac : Fin 3
  gso : Bool
  csum : Bool
  vlan : Bool
  vlanTci : UInt16
  usesDsa : Bool
  magic : UInt32
  padFails : Bool
  maps : Nat → Option UInt64

/-- The packet that is mapped: `skb_put_padto` first, if it is short. -/
def Call.padded (t : Call) : Skb := if t.skb.len ≤ 40 then t.skb.padded else t.skb

/-- The address and the length of a mapping. -/
abbrev Mapped : Type := UInt64 × Nat

namespace Ring

/-- The indices from `next_free` to `last_free`; packets in flight have the others. -/
def freeRun (n : Nat) (r : Ring) : List Nat :=
  around n r.nextFree ((r.lastFree + n - r.nextFree) % n + 1)

def modify (d : Nat) (f : Place → Place) (r : Ring) : Ring :=
  { r with place := Function.update r.place d (f (r.place d)) }

end Ring

section Words

def bit (i : UInt32) : UInt32 := 1 <<< i

def txDmaOwnerCpu : UInt32 := bit 31
def txDmaLs0 : UInt32 := bit 30
def txDmaLs1 : UInt32 := bit 14
def txDmaLs1V2 : UInt32 := bit 30
def txDmaDone : UInt32 := bit 31
def txDmaDesp2Def : UInt32 := txDmaLs0 ||| txDmaDone
def txDmaSwc : UInt32 := bit 14
def txDmaTso : UInt32 := bit 28
def txDmaChksum : UInt32 := (7 : UInt32) <<< 29
def txDmaInsVlan : UInt32 := bit 16
def txDmaSwcV2 : UInt32 := bit 30
def txDmaTsoV2 : UInt32 := bit 31
def txDmaChksumV2 : UInt32 := (7 : UInt32) <<< 28
def txDmaSptagV3 : UInt32 := bit 27
def txDmaInsVlanV2 : UInt32 := bit 16
def pseGdm3Port : UInt32 := 15
def hnatMagic : UInt32 := 0x78681415

def qidLowBits (qid : UInt16) : UInt32 := qid.toUInt32 &&& 0xf
def qidHighBits (qid : UInt16) : UInt32 := ((qid.toUInt32 >>> 4) &&& 0x3) <<< 20
def qidBitsV2 (qid : UInt16) : UInt32 := (qid.toUInt32 &&& 0x3f) <<< 16

variable (c : Conf)

def txDmaPlen0 (size : Nat) : UInt32 :=
  (UInt32.ofNat size &&& UInt32.ofNat c.dmaMaxLen) <<< UInt32.ofNat c.dmaLenOffset

def txDmaPlen1 (size : Nat) : UInt32 :=
  if c.plen1High then txDmaPlen0 c size else UInt32.ofNat size &&& UInt32.ofNat c.dmaMaxLen

/-- `TX_DMA_PREP_ADDR64` -/
def prepAddr64 (addr : UInt64) : UInt32 :=
  if c.addr64 then ((addr >>> 32) &&& 0xf).toUInt32 else 0

/-- `struct mtk_tx_dma_desc_info` -/
structure DescInfo where
  addr : UInt64
  size : Nat
  vlanTci : UInt16
  qid : UInt16
  gso : Bool
  csum : Bool
  vlan : Bool
  first : Bool
  last : Bool
  deriving DecidableEq, Repr

def wordIf (b : Bool) (word : UInt32) : UInt32 := if b then word else 0

/-- The port that version 2 and the PDMA name -/
def forwardPort (mac : Fin 3) : UInt32 :=
  if mac = mtkGmac3Id then pseGdm3Port else UInt32.ofNat mac.val + 1

/-- Packets of the flow offload go to port 4 of the field at `shift`. -/
def hnatPort (t : Call) (mask shift data : UInt32) : UInt32 :=
  if c.hnat ∧ t.magic = hnatMagic then (data &&& ~~~(mask <<< shift)) ||| (4 <<< shift) else data

/-- `mtk_tx_set_dma_desc_v1` -/
def setDmaDescV1 (t : Call) (info : DescInfo) (desc : TxDma) : TxDma :=
  { desc with
    txd1 := info.addr.toUInt32
    txd3 := txDmaSwc ||| qidLowBits info.qid ||| txDmaPlen0 c info.size |||
      wordIf info.last txDmaLs0
    txd4 := hnatPort c t 7 25 (((UInt32.ofNat t.mac.val + 1) <<< 25) ||| qidHighBits info.qid |||
      wordIf info.first (wordIf info.gso txDmaTso ||| wordIf info.csum txDmaChksum |||
        wordIf info.vlan (txDmaInsVlan ||| info.vlanTci.toUInt32))) }

/-- What versions 2 and 3 have in common; `high` is of the address, and `sptag` of the switch. -/
def setDmaDescV2With (high sptag : UInt32) (t : Call) (info : DescInfo) (desc : TxDma) : TxDma :=
  { desc with
    txd1 := info.addr.toUInt32
    txd3 := txDmaPlen0 c info.size ||| wordIf info.last txDmaLs0 ||| high
    txd4 := hnatPort c t 0xf 8 ((forwardPort t.mac <<< 8) ||| txDmaSwcV2 ||| qidBitsV2 info.qid)
    txd5 := wordIf info.first
      (wordIf info.gso txDmaTsoV2 ||| wordIf info.csum txDmaChksumV2 ||| sptag)
    txd6 := wordIf (info.first && info.vlan) (txDmaInsVlanV2 ||| info.vlanTci.toUInt32)
    txd7 := 0
    txd8 := 0 }

/-- `mtk_tx_set_dma_desc_v2` -/
def setDmaDescV2 : Call → DescInfo → TxDma → TxDma := setDmaDescV2With c 0 0

/-- `mtk_tx_set_dma_desc_v3` -/
def setDmaDescV3 (t : Call) (info : DescInfo) : TxDma → TxDma :=
  setDmaDescV2With c (prepAddr64 c info.addr) (wordIf t.usesDsa txDmaSptagV3) t info

/-- `mtk_tx_set_pdma_desc` -/
def setPdmaDesc (t : Call) (info : DescInfo) (desc : TxDma) : TxDma :=
  if info.first then
    { desc with
      txd5 := (forwardPort t.mac <<< 16) ||| wordIf info.gso txDmaTsoV2 |||
        wordIf info.csum txDmaChksumV2 ||| wordIf t.usesDsa txDmaSptagV3
      txd6 := if info.vlan then txDmaInsVlanV2 else desc.txd6
      txd7 := if info.vlan then info.vlanTci.toUInt32 else desc.txd7
      txd8 := 0 }
  else desc

/-- `mtk_tx_set_dma_desc`, with the descriptor that its caller gives for the engine -/
def setDmaDesc (t : Call) (info : DescInfo) (p : Place) : Place :=
  if c.qdma then
    { p with dma :=
        if c.netsysV3 then setDmaDescV3 c t info p.dma
        else if c.netsysV2 then setDmaDescV2 c t info p.dma
        else setDmaDescV1 c t info p.dma }
  else { p with dmaPdma := if c.netsysV3 then setPdmaDesc t info p.dmaPdma else p.dmaPdma }

end Words

section Code

variable (c : Conf)

/-- What `mtk_tx_unmap` unmaps. -/
def unmaps (b : DmaBuf) : List Mapped :=
  if c.qdma then
    if b.single0 then [(b.addr0, b.len0)]
    else if b.page0 then [(b.addr0, b.len0)]
    else []
  else
    (if b.len0 ≠ 0 then [(b.addr0, b.len0)] else []) ++
      (if b.len1 ≠ 0 then [(b.addr1, b.len1)] else [])

/-- What `mtk_tx_unmap` leaves: the addresses and the lengths stay. -/
def unmapped (b : DmaBuf) : DmaBuf :=
  { b with toTxBuf := TxBuf.zero, single0 := false, page0 := false }

/-- The packets that `mtk_tx_unmap` frees. -/
def unmapFrees (b : DmaBuf) : List Nat :=
  match b.skb with
  | .skb skb => [skb.id]
  | _ => []

/-- `setup_tx_buf` -/
def setupTxBuf (addr : UInt64) (size idx : Nat) (p : Place) : Place :=
  if c.qdma then { p with buf := { p.buf with addr0 := addr, len0 := size } }
  else if idx % 2 = 1 then
    { p with
      buf := { p.buf with addr1 := addr, len1 := size }
      dmaPdma :=
        if c.netsysV3 then
          { p.dmaPdma with
            txd3 := addr.toUInt32, txd4 := txDmaPlen1 c size ||| prepAddr64 c addr }
        else
          { p.dmaPdma with
            txd3 := addr.toUInt32, txd2 := p.dmaPdma.txd2 ||| txDmaPlen1 c size } }
  else
    { p with
      buf := { p.buf with skb := .dummy, addr0 := addr, len0 := size }
      dmaPdma := { p.dmaPdma with
        txd1 := addr.toUInt32
        txd2 := txDmaPlen0 c size ||| (if c.netsysV3 then prepAddr64 c addr else 0) } }

/-- A pass of `while (frag_size)`. -/
structure Piece where
  frag : Nat
  offset : Nat
  size : Nat
  last : Bool
  deriving DecidableEq, Repr

/-- The passes for fragment `i`, with the bytes left for a bound; `final` says that no fragment
follows. -/
def fragChunks (i : Nat) (final : Bool) : Nat → Nat → Nat → List Piece
  | 0, _, _ => []
  | left + 1, offset, fragSize =>
    if fragSize = 0 then []
    else
      let size := min fragSize c.dmaMaxLen
      { frag := i, offset := offset, size := size, last := final && (fragSize - size = 0) } ::
        fragChunks i final left (offset + size) (fragSize - size)

/-- The passes of the loop over the fragments. -/
def pieces (frags : List Nat) : List Piece :=
  frags.zipIdx.flatMap fun frag =>
    fragChunks c frag.2 (frag.2 = frags.length - 1) frag.1 0 frag.1

/-- The variables of `mtk_tx_map`; with the indices that it has taken and what it has mapped. -/
structure Vars where
  ring : Ring
  itxd : Nat
  txd : Nat
  nDesc : Nat
  k : Nat
  taken : List Nat
  mapped : List Mapped

/-- `memset` of a `struct mtk_tx_buf` -/
def Place.clearBuf (p : Place) : Place := { p with buf := DmaBuf.zero }

def headInfo (t : Call) (addr : UInt64) : DescInfo where
  addr := addr
  size := t.padded.headlen
  vlanTci := t.vlanTci
  qid := UInt16.ofNat t.padded.queueMapping
  gso := t.gso
  csum := t.csum
  vlan := t.vlan
  first := true
  last := t.padded.frags.sum = 0

def pieceInfo (t : Call) (p : Piece) (addr : UInt64) : DescInfo where
  addr := addr
  size := p.size
  vlanTci := 0
  qid := UInt16.ofNat t.padded.queueMapping
  gso := false
  csum := false
  vlan := false
  first := false
  last := p.last

/-- The first descriptor, once the linear part is mapped -/
def headPlace (t : Call) (addr : UInt64) (p : Place) : Place :=
  let p := setDmaDesc c t (headInfo t addr) p
  let buf := { p.buf with single0 := true, toTxBuf := p.buf.toTxBuf.setFport t.mac }
  setupTxBuf c addr t.padded.headlen 0 { p with buf := buf }

/-- The descriptor of a piece, once it is mapped -/
def piecePlace (t : Call) (piece : Piece) (k : Nat) (addr : UInt64) (p : Place) : Place :=
  let p := setDmaDesc c t (pieceInfo t piece addr) p
  let b := if newDesc c.toTxConf piece.frag then DmaBuf.zero else p.buf
  let buf := { b with page0 := true, toTxBuf := { b.toTxBuf with skb := .dummy }.setFport t.mac }
  setupTxBuf c addr piece.size k { p with buf := buf }

/-- `mtk_tx_map` from the first mapping on -/
def mapHead (t : Call) (addr : UInt64) (r : Ring) : Vars where
  ring := r.modify r.nextFree (headPlace c t addr)
  itxd := r.nextFree
  txd := r.nextFree
  nDesc := 1
  k := 1
  taken := [r.nextFree]
  mapped := [(addr, t.padded.headlen)]

/-- The end of a pass, with the piece mapped at `txd` -/
def pieceDone (t : Call) (v : Vars) (piece : Piece) (txd : Nat) (addr : UInt64) : Vars :=
  { v with
    ring := v.ring.modify txd (piecePlace c t piece v.k addr)
    txd := txd
    nDesc := if newDesc c.toTxConf piece.frag then v.nDesc + 1 else v.nDesc
    k := v.k + 1
    taken := if newDesc c.toTxConf piece.frag then v.taken ++ [txd] else v.taken
    mapped := v.mapped ++ [(addr, piece.size)] }

/-- One pass of the loop over the pieces, or `goto err_dma` -/
def mapPiece (t : Call) (v : Vars) (piece : Piece) : Except Vars Vars :=
  let new := newDesc c.toTxConf piece.frag
  let txd := if new then nextDesc c.toTxConf v.txd else v.txd
  if new ∧ txd = v.ring.lastFree then .error { v with txd := txd }
  else
    match t.maps v.k with
    | none => .error { v with txd := txd, nDesc := if new then v.nDesc + 1 else v.nDesc }
    | some addr => .ok (pieceDone c t v piece txd addr)

inductive Answer where
  | ok | noMem
  deriving DecidableEq, Repr

/-- What a call leaves; with the indices it took and visited at the end, what it mapped and
unmapped, and the packets freed there. -/
structure Left where
  answer : Answer
  ring : Ring
  taken : List Nat
  mapped : List Mapped
  visited : List Nat
  unmapped : List Mapped
  freed : List Nat

/-- A call that gives up before it has mapped anything. -/
def gaveUp (r : Ring) : Left where
  answer := .noMem
  ring := r
  taken := []
  mapped := []
  visited := []
  unmapped := []
  freed := []

/-- The descriptor word that tells the PDMA the last part of a packet -/
def lastPart (k : Nat) (txd : TxDma) : TxDma :=
  if c.netsysV3 then
    if k % 2 = 1 then { txd with txd2 := txd.txd2 ||| txDmaLs0 }
    else { txd with txd4 := txd.txd4 ||| txDmaLs1V2 }
  else
    if k % 2 = 1 then { txd with txd2 := txd.txd2 ||| txDmaLs0 }
    else { txd with txd2 := txd.txd2 ||| txDmaLs1 }

/-- After the loop over the fragments -/
def mapDone (t : Call) (v : Vars) : Left :=
  let r := v.ring.modify v.itxd fun p => { p with buf := { p.buf with skb := .skb t.padded } }
  let r := if c.qdma then r
    else r.modify v.txd fun p => { p with dmaPdma := lastPart c v.k p.dmaPdma }
  { answer := .ok
    ring := { r with nextFree := nextDesc c.toTxConf v.txd, freeCount := r.freeCount - v.nDesc }
    taken := v.taken, mapped := v.mapped, visited := [], unmapped := [], freed := [] }

/-- What the loop at `err_dma` makes of an index. -/
def undonePlace (p : Place) : Place where
  buf := unmapped p.buf
  dma := { p.dma with txd3 := txDmaLs0 ||| txDmaOwnerCpu }
  dmaPdma := if c.qdma then p.dmaPdma else { p.dmaPdma with txd2 := txDmaDesp2Def }

/-- The loop at `err_dma`. -/
structure Undo where
  ring : Ring
  itxd : Nat
  visited : List Nat
  unmapped : List Mapped
  freed : List Nat

def undoPass (u : Undo) : Undo where
  ring := u.ring.modify u.itxd (undonePlace c)
  itxd := nextDesc c.toTxConf u.itxd
  visited := u.visited ++ [u.itxd]
  unmapped := u.unmapped ++ unmaps c (u.ring.place u.itxd).buf
  freed := u.freed ++ unmapFrees (u.ring.place u.itxd).buf

def undoLoop (txd : Nat) : Nat → Undo → Option Undo
  | 0, _ => none
  | left + 1, u => if (undoPass c u).itxd = txd then some (undoPass c u)
      else undoLoop txd left (undoPass c u)

def undoStart (v : Vars) : Undo where
  ring := v.ring
  itxd := v.itxd
  visited := []
  unmapped := []
  freed := []

def undoLeft (v : Vars) (u : Undo) : Left where
  answer := .noMem
  ring := u.ring
  taken := v.taken
  mapped := v.mapped
  visited := u.visited
  unmapped := u.unmapped
  freed := u.freed

def errDma (v : Vars) : Option Left :=
  (undoLoop c v.txd c.txDmaSize (undoStart v)).map (undoLeft v)

/-- How the call ends after the loop over the pieces -/
def mapEnd (t : Call) : Except Vars Vars → Option Left
  | .error v => errDma c v
  | .ok v => some (mapDone c t v)

/-- `mtk_tx_map`; there is no answer if a ring of `txDmaSize` passes does not end the last loop. -/
def mtkTxMap (t : Call) (r : Ring) : Option Left :=
  if t.skb.len ≤ 40 ∧ t.padFails then some (gaveUp r)
  else if r.nextFree = r.lastFree then some (gaveUp r)
  else
    let r := r.modify r.nextFree Place.clearBuf
    match t.maps 0 with
    | none => some (gaveUp r)
    | some addr =>
      mapEnd c t ((pieces c t.padded.frags).foldlM (mapPiece c t) (mapHead c t addr r))

end Code

section Pieces

variable (c : Conf)

theorem fragChunks_frag (i : Nat) (final : Bool) (left offset fragSize : Nat) :
    (fragChunks c i final left offset fragSize).map Piece.frag =
      List.replicate (fragPasses c.toTxConf left fragSize) i := by
  induction left generalizing offset fragSize with
  | zero => rfl
  | succ left ih =>
    unfold fragChunks fragPasses
    split_ifs
    · rfl
    · rw [List.map_cons, ih, List.replicate_succ]

theorem fragChunks_pos (i : Nat) (final : Bool) (left offset fragSize : Nat) (p : Piece)
    (member : p ∈ fragChunks c i final left offset fragSize) : 0 < p.size := by
  induction left generalizing offset fragSize with
  | zero => cases member
  | succ left ih =>
    unfold fragChunks at member
    split_ifs at member with empty
    · cases member
    · rcases List.mem_cons.mp member with rfl | later
      · exact lt_min (Nat.pos_of_ne_zero empty) c.dmaMaxLen_pos
      · exact ih _ _ later

/-- The pieces, by the index of their fragment. -/
theorem pieces_frag (frags : List Nat) :
    (pieces c frags).map Piece.frag = fragPieces c.toTxConf frags := by
  unfold pieces fragPieces
  rw [List.map_flatMap]
  simp only [fragChunks_frag]

theorem pieces_pos (frags : List Nat) (p : Piece) (member : p ∈ pieces c frags) : 0 < p.size := by
  unfold pieces at member
  obtain ⟨frag, -, chunk⟩ := List.mem_flatMap.mp member
  exact fragChunks_pos c _ _ _ _ _ p chunk

end Pieces

end Filogic.Eth.Mapping
