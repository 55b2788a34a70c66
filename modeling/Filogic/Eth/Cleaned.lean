import Filogic.Eth.BringUp

/-! What `mtk_dma_free` gives back, piece by piece, and what pointers it leaves. -/

namespace Filogic.Eth.BringUp
open Lib

/-- What of the driver's memory one pass of `mtk_dma_free` cleans. -/
inductive Piece where
  | scratchRing
  | txRing (i : Nat)
  | rxRing (ring : Ring)
  | scratchHead (j : Nat)
  deriving DecidableEq

section Pieces

variable (conf : DmaConf)

/-- The `in_sram` that a ring is cleaned with -/
def ringInSram : Ring → Bool
  | .qdma => false
  | .pdma ringNo => conf.hasSram && (ringNo == 0 || conf.rss && decide (ringNo < 4))

def arrayGoods : Option Nat → Multiset Good
  | none => 0
  | some no => {.array no}

def descsGoods (p : Option Place) (size : Nat) : Multiset Good :=
  match p with
  | none => 0
  | some place => {.descs place size}

def slotGoods (desc : Nat → RxDesc) (data : Nat → Option Nat) (i : Nat) : Multiset Good :=
  match data i with
  | none => 0
  | some buffer =>
    if (desc i).rxd1 = 0 then 0
    else {.mapping (descAddr conf.toRxConf (desc i)), .buffer buffer}

def slotsGoods (rx : RxMem) : Multiset Good :=
  match rx.data, rx.dma with
  | some (array, data), some _ =>
      ((List.range rx.dmaSize).map (slotGoods conf rx.desc data)).sum + {.array array}
  | _, _ => 0

def rxGoods (sram : Bool) (rx : RxMem) : Multiset Good :=
  slotsGoods conf rx + if sram then 0 else descsGoods rx.dma (rx.dmaSize * conf.rxdSize)

def rxWiped (sram : Bool) (rx : RxMem) : RxMem :=
  { rx with
    data := if rx.dma.isSome then none else rx.data
    dma := if sram then rx.dma else none }

namespace Piece

/-- What is given back when a piece is cleaned. -/
def goods (p : Piece) (m : Mem) : Multiset Good :=
  match p with
  | .scratchRing =>
      if conf.hasSram then 0 else descsGoods m.scratchRing (conf.fqDmaSize * conf.txdSize)
  | .txRing i =>
      arrayGoods (m.txRing i).buf +
        (if conf.hasSram then 0 else descsGoods (m.txRing i).dma (conf.txDmaSize * conf.txdSize)) +
        descsGoods (m.txRing i).dmaPdma (conf.txDmaSize * conf.txdSize)
  | .rxRing ring => rxGoods conf (ringInSram conf ring) (m.rxRing ring)
  | .scratchHead j => arrayGoods (m.scratchHead j)

def wipe (p : Piece) (m : Mem) : Mem :=
  match p with
  | .scratchRing => { m with scratchRing := if conf.hasSram then m.scratchRing else none }
  | .txRing i => m.setTx i fun tx =>
      { buf := none, dma := if conf.hasSram then tx.dma else none, dmaPdma := none }
  | .rxRing ring => m.setRx ring (rxWiped (ringInSram conf ring))
  | .scratchHead j => { m with scratchHead := Function.update m.scratchHead j none }

def clean (s : Dev) (p : Piece) : Dev :=
  { s with held := s.held.giveAll (p.goods conf s.mem), mem := p.wipe conf s.mem }

/-- The piece has no memory, except for descriptors in SRAM. -/
def Vacant (p : Piece) (m : Mem) : Prop :=
  match p with
  | .scratchRing => conf.hasSram = false → m.scratchRing = none
  | .txRing i => (m.txRing i).buf = none ∧ (conf.hasSram = false → (m.txRing i).dma = none) ∧
      (m.txRing i).dmaPdma = none
  | .rxRing ring => (m.rxRing ring).data = none ∧
      (ringInSram conf ring = false → (m.rxRing ring).dma = none)
  | .scratchHead j => m.scratchHead j = none

/-- The piece is the same in two memories. -/
def Same (p : Piece) (m m' : Mem) : Prop :=
  match p with
  | .scratchRing => m'.scratchRing = m.scratchRing
  | .txRing i => m'.txRing i = m.txRing i
  | .rxRing ring => m'.rxRing ring = m.rxRing ring
  | .scratchHead j => m'.scratchHead j = m.scratchHead j

variable {conf}

theorem Same.refl (p : Piece) (m : Mem) : p.Same m m := by
  cases p <;> rfl

theorem Same.trans {p : Piece} {m m' m'' : Mem} (first : p.Same m m') (second : p.Same m' m'') :
    p.Same m m'' := by
  cases p <;> exact Eq.trans second first

theorem Same.goods {p : Piece} {m m' : Mem} (same : p.Same m m') :
    p.goods conf m' = p.goods conf m := by
  cases p <;> unfold Same at same <;> simp only [Piece.goods, same]

theorem Same.vacant {p : Piece} {m m' : Mem} (same : p.Same m m') :
    p.Vacant conf m' ↔ p.Vacant conf m := by
  cases p <;> unfold Same at same <;> simp only [Vacant, same]

theorem Same.wipe {p : Piece} {m m' : Mem} (same : p.Same m m') :
    p.Same (p.wipe conf m) (p.wipe conf m') := by
  cases p <;> unfold Same at same ⊢ <;>
    simp only [Piece.wipe, Mem.setTx, Mem.setRx, Function.update_self, same]

theorem setTx_same (q : Piece) (i : Nat) (m : Mem) (f : TxMem → TxMem) (other : q ≠ .txRing i) :
    q.Same m (m.setTx i f) := by
  cases q with
  | txRing j => exact Function.update_of_ne (fun same => other (by rw [same])) ..
  | scratchRing | rxRing | scratchHead => rfl

theorem setRx_same (q : Piece) (ring : Ring) (m : Mem) (f : RxMem → RxMem)
    (other : q ≠ .rxRing ring) : q.Same m (m.setRx ring f) := by
  cases q with
  | rxRing ring' => exact Function.update_of_ne (fun same => other (by rw [same])) ..
  | scratchRing | txRing | scratchHead => rfl

theorem setHead_same (q : Piece) (j : Nat) (m : Mem) (p : Option Nat)
    (other : q ≠ .scratchHead j) :
    q.Same m { m with scratchHead := Function.update m.scratchHead j p } := by
  cases q with
  | scratchHead j' => exact Function.update_of_ne (fun same => other (by rw [same])) ..
  | scratchRing | txRing | rxRing => rfl

theorem setScratchRing_same (q : Piece) (m : Mem) (p : Option Place) (other : q ≠ .scratchRing) :
    q.Same m { m with scratchRing := p } := by
  cases q with
  | scratchRing => exact absurd rfl other
  | scratchHead | txRing | rxRing => rfl

theorem wipe_same (p q : Piece) (m : Mem) (other : q ≠ p) : q.Same m (p.wipe conf m) := by
  cases p with
  | scratchRing => exact setScratchRing_same q m _ other
  | txRing i => exact setTx_same q i m _ other
  | rxRing ring => exact setRx_same q ring m _ other
  | scratchHead j => exact setHead_same q j m _ other

end Piece

/-- The receive rings in the order of `mtk_dma_free` -/
def rxRings : List Ring :=
  [.pdma 0, .qdma] ++ (if conf.hwlro then lroRings conf else []) ++
    (if conf.rss then rssRings else [])

/-- The pieces in the order of `mtk_dma_free` -/
def pieces : List Piece :=
  .scratchRing :: (txRings conf).map .txRing ++ (rxRings conf).map .rxRing ++
    (List.range (fqBatches conf)).map .scratchHead

end Pieces

section Code

variable (conf : DmaConf)

theorem kfree_eq (p : Option Nat) (held : Ledger Good) :
    kfree p held = held.giveAll (arrayGoods p) := by
  cases p with
  | none => exact (Ledger.giveAll_zero held).symm
  | some no => exact Ledger.giveBack_eq held _

theorem dmaFreeCoherent_eq (p : Option Place) (size : Nat) (held : Ledger Good) :
    dmaFreeCoherent p size held = held.giveAll (descsGoods p size) := by
  cases p with
  | none => exact (Ledger.giveAll_zero held).symm
  | some place => exact Ledger.giveBack_eq held _

theorem mtkTxClean_eq (s : Dev) (i : Nat) :
    mtkTxClean conf s i = Piece.clean conf s (.txRing i) := by
  unfold mtkTxClean Piece.clean Piece.goods Piece.wipe
  dsimp only
  rw [kfree_eq, dmaFreeCoherent_eq, dmaFreeCoherent_eq]
  cases conf.hasSram <;> simp [Ledger.giveAll_add]

theorem cleanHead_eq (s : Dev) (j : Nat) :
    cleanHead s j = Piece.clean conf s (.scratchHead j) := by
  unfold cleanHead Piece.clean Piece.goods Piece.wipe
  rw [kfree_eq]

theorem cleanSlot_eq (rx : RxMem) (data : Nat → Option Nat) (held : Ledger Good) (i : Nat) :
    cleanSlot conf rx data held i = held.giveAll (slotGoods conf rx.desc data i) := by
  unfold cleanSlot slotGoods
  cases data i with
  | none => exact (Ledger.giveAll_zero held).symm
  | some buffer =>
    dsimp only
    split_ifs
    · exact (Ledger.giveAll_zero held).symm
    · rw [Ledger.giveBack_eq, Ledger.giveBack_eq, ← Ledger.giveAll_add]
      rfl

theorem cleanSlots_eq (rx : RxMem) (data : Nat → Option Nat) (slots : List Nat)
    (held : Ledger Good) : slots.foldl (cleanSlot conf rx data) held =
      held.giveAll (slots.map (slotGoods conf rx.desc data)).sum := by
  induction slots generalizing held with
  | nil => exact (Ledger.giveAll_zero held).symm
  | cons i slots ih =>
    rw [List.foldl_cons, ih, cleanSlot_eq, List.map_cons, List.sum_cons, Ledger.giveAll_add]

theorem cleanBuffers_eq (s : Dev) (ring : Ring) :
    cleanBuffers conf s ring =
      { s with
        held := s.held.giveAll (slotsGoods conf (s.mem.rxRing ring))
        mem := s.mem.setRx ring (rxWiped true) } := by
  have kept (keeps : rxWiped true (s.mem.rxRing ring) = s.mem.rxRing ring) :
      s.mem.setRx ring (rxWiped true) = s.mem := by
    rw [Mem.setRx, keeps, Function.update_eq_self]
  unfold cleanBuffers slotsGoods
  rcases rx : s.mem.rxRing ring with ⟨data, dma, dmaSize, desc⟩
  rw [rx] at kept
  cases data with
  | none =>
    dsimp only
    rw [Ledger.giveAll_zero, kept (by cases dma <;> rfl)]
  | some array =>
    cases dma with
    | none =>
      dsimp only
      rw [Ledger.giveAll_zero, kept rfl]
    | some place =>
      dsimp only
      rw [cleanSlots_eq, kfree_eq, Ledger.giveAll_add, Mem.setRx, Mem.setRx, rx]
      rfl

theorem mtkRxClean_eq (s : Dev) (ring : Ring) :
    mtkRxClean conf (ringInSram conf ring) s ring = Piece.clean conf s (.rxRing ring) := by
  unfold mtkRxClean Piece.clean Piece.goods Piece.wipe rxGoods
  dsimp only
  rw [cleanBuffers_eq]
  cases ringInSram conf ring with
  | true => rw [if_pos rfl, if_pos rfl, add_zero]
  | false =>
    rw [if_neg Bool.false_ne_true, if_neg Bool.false_ne_true, dmaFreeCoherent_eq,
      Ledger.giveAll_add]
    simp only [Mem.setRx, Function.update_self, Function.update_idem]
    rfl

theorem lroRings_inSram (ring : Ring) (member : ring ∈ lroRings conf) :
    ringInSram conf ring = false := by
  have apart := conf.rss_ringsV2
  unfold lroRings at member
  unfold ringInSram
  split_ifs at member with v2 <;> obtain ⟨i, below, rfl⟩ := List.mem_map.mp member
  · simp
  · cases rss : conf.rss with
    | true => exact absurd (apart rss) v2
    | false => simp

theorem rssRings_inSram (ring : Ring) (member : ring ∈ rssRings) (rss : conf.rss = true) :
    ringInSram conf ring = conf.hasSram := by
  obtain ⟨i, below, rfl⟩ := List.mem_map.mp member
  have small : i + 1 < 4 := by
    have bound := List.mem_range.mp below
    omega
  simp only [ringInSram, rss, small, decide_true, Bool.or_true, Bool.and_true]

/-- `mtk_dma_free` cleans one piece after the other. -/
theorem mtkDmaFree_eq (s : Dev) :
    mtkDmaFree conf s = (pieces conf).foldl (Piece.clean conf) s := by
  have tx : mtkTxClean conf = fun s i => Piece.clean conf s (.txRing i) := by
    funext s i
    exact mtkTxClean_eq conf s i
  have heads : cleanHead = fun s j => Piece.clean conf s (.scratchHead j) := by
    funext s j
    exact cleanHead_eq conf s j
  have rx (sram : Bool) (rings : List Ring) (s : Dev)
      (flags : ∀ ring ∈ rings, ringInSram conf ring = sram) :
      rings.foldl (mtkRxClean conf sram) s =
        rings.foldl (fun s ring => Piece.clean conf s (.rxRing ring)) s := by
    apply List.foldl_ext
    intro s ring member
    rw [← flags ring member]
    exact mtkRxClean_eq conf s ring
  have first (s : Dev) : mtkRxClean conf conf.hasSram s (.pdma 0) =
      Piece.clean conf s (.rxRing (.pdma 0)) := by
    rw [← mtkRxClean_eq]
    simp [ringInSram]
  have scratch : (if conf.hasSram then s
      else { s with
        held := dmaFreeCoherent s.mem.scratchRing (conf.fqDmaSize * conf.txdSize) s.held
        mem := { s.mem with scratchRing := none } }) = Piece.clean conf s .scratchRing := by
    unfold Piece.clean Piece.goods Piece.wipe
    cases conf.hasSram with
    | true => simp
    | false => simp [dmaFreeCoherent_eq]
  have lro (s : Dev) : (if conf.hwlro then (lroRings conf).foldl (mtkRxClean conf false) s else s) =
      (if conf.hwlro then lroRings conf else []).foldl
        (fun s ring => Piece.clean conf s (.rxRing ring)) s := by
    split_ifs
    · exact rx false _ s (lroRings_inSram conf)
    · rfl
  have rss (s : Dev) : (if conf.rss then rssRings.foldl (mtkRxClean conf conf.hasSram) s else s) =
      (if conf.rss then rssRings else []).foldl
        (fun s ring => Piece.clean conf s (.rxRing ring)) s := by
    split_ifs with on
    · exact rx conf.hasSram _ s fun ring member => rssRings_inSram conf ring member on
    · rfl
  unfold mtkDmaFree pieces rxRings
  dsimp only
  rw [scratch, tx, heads, lro, rss, first]
  simp only [List.foldl_append, List.foldl_cons, List.foldl_map, List.foldl_nil, List.append_assoc,
    List.cons_append]
  rw [← mtkRxClean_eq conf _ .qdma]
  rfl

theorem rxRings_nodup : (rxRings conf).Nodup := by
  have apart := conf.rss_ringsV2
  unfold rxRings lroRings
  cases rss : conf.rss with
  | false => cases conf.hwlro <;> cases conf.ringsV2 <;> decide
  | true =>
    rw [apart rss]
    cases conf.hwlro <;> decide

theorem pieces_nodup : (pieces conf).Nodup := by
  have tx : ((txRings conf).map Piece.txRing).Nodup := by
    unfold txRings
    split_ifs <;> decide
  have rx : ((rxRings conf).map Piece.rxRing).Nodup :=
    (rxRings_nodup conf).map fun a b same => Piece.rxRing.inj same
  have heads : ((List.range (fqBatches conf)).map Piece.scratchHead).Nodup :=
    List.nodup_range.map fun a b same => Piece.scratchHead.inj same
  unfold pieces
  simp +contextual [List.nodup_append, tx, rx, heads, forall_exists_index, or_imp, forall_and]

end Code

section Whole

variable {conf : DmaConf}

/-- What is held when the pieces of a memory are. -/
def load (conf : DmaConf) (m : Mem) : Multiset Good := ((pieces conf).map (Piece.goods conf · m)).sum

/-- Cleaning a piece leaves the others as they were. -/
theorem foldl_clean (ps : List Piece) (distinct : ps.Nodup) (s : Dev) :
    (ps.foldl (Piece.clean conf) s).held =
        s.held.giveAll (ps.map (Piece.goods conf · s.mem)).sum ∧
      ∀ p : Piece, p.Same (if p ∈ ps then p.wipe conf s.mem else s.mem)
        (ps.foldl (Piece.clean conf) s).mem := by
  induction ps generalizing s with
  | nil => exact ⟨(Ledger.giveAll_zero s.held).symm, fun p => Piece.Same.refl p s.mem⟩
  | cons q ps ih =>
    have apart := (List.nodup_cons.mp distinct).1
    obtain ⟨held, mem⟩ := ih (List.nodup_cons.mp distinct).2 (Piece.clean conf s q)
    rw [List.foldl_cons]
    constructor
    · rw [held, List.map_cons, List.sum_cons, Ledger.giveAll_add]
      have rest : ps.map (Piece.goods conf · (q.wipe conf s.mem)) =
          ps.map (Piece.goods conf · s.mem) := by
        apply List.map_congr_left
        intro p member
        exact (Piece.wipe_same q p s.mem fun same => apart (same ▸ member)).goods
      unfold Piece.clean
      rw [rest]
    · intro p
      have later := mem p
      by_cases here : p = q
      · subst here
        rw [if_neg apart] at later
        rw [if_pos List.mem_cons_self]
        exact later
      · have same := @Piece.wipe_same conf q p s.mem here
        simp only [List.mem_cons, here, false_or]
        split_ifs at later ⊢ with member
        · exact same.wipe.trans later
        · exact same.trans later

/-- All is given back and no memory is left, but for descriptors in SRAM. -/
def Idle (conf : DmaConf) (s : Dev) : Prop :=
  s.held.Settled ∧ ∀ p ∈ pieces conf, p.Vacant conf s.mem

/-- A ring with an array of buffers has descriptors too. -/
def Cleanable (conf : DmaConf) (m : Mem) : Prop :=
  ∀ ring, .rxRing ring ∈ pieces conf → (m.rxRing ring).data = none ∨ (m.rxRing ring).dma ≠ none

theorem Piece.vacant_wipe (p : Piece) (m : Mem) : p.Vacant conf (p.wipe conf m) ↔
    ∀ ring, p = .rxRing ring → (m.rxRing ring).data = none ∨ (m.rxRing ring).dma ≠ none := by
  cases p with
  | rxRing ring =>
    have wiped : (Piece.Vacant conf (.rxRing ring) (Piece.wipe conf (.rxRing ring) m)) ↔
        (m.rxRing ring).data = none ∨ (m.rxRing ring).dma ≠ none := by
      simp only [Vacant, wipe, Mem.setRx, Function.update_self, rxWiped]
      cases ringInSram conf ring <;> cases dma : (m.rxRing ring).dma <;> simp
    simp only [wiped, Piece.rxRing.injEq]
    exact ⟨fun here ring' same => same ▸ here, fun here => here ring rfl⟩
  | scratchRing =>
    simp +contextual [Vacant, wipe]
  | txRing i =>
    simp +contextual [Vacant, wipe, Mem.setTx]
  | scratchHead j =>
    simp [Vacant, wipe]

theorem mtkDmaFree_idle (s : Dev) (sound : s.held.fault = false) :
    Idle conf (mtkDmaFree conf s) ↔ s.held.held = load conf s.mem ∧ Cleanable conf s.mem := by
  obtain ⟨held, mem⟩ := foldl_clean (pieces conf) (pieces_nodup conf) s
  rw [← mtkDmaFree_eq] at held mem
  unfold Idle Cleanable
  rw [held, Ledger.giveAll_settled _ _ sound]
  apply and_congr Iff.rfl
  constructor
  · intro vacant ring member
    have here := vacant _ member
    have same := mem (.rxRing ring)
    rw [if_pos member] at same
    exact (Piece.vacant_wipe _ _).mp (same.vacant.mp here) ring rfl
  · intro rings p member
    have same := mem p
    rw [if_pos member] at same
    apply same.vacant.mpr
    apply (Piece.vacant_wipe _ _).mpr
    rintro ring rfl
    exact rings ring member

end Whole

end Filogic.Eth.BringUp
