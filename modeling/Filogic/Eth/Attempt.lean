import Filogic.Eth.Cleaned
import Filogic.Lib.Prog

/-! What is held when `mtk_dma_init` stops at a request, and when `mtk_dma_free` gives back just
that. -/

namespace Filogic.Eth.BringUp
open Lib

section Rules

variable (conf : DmaConf) (env : Answers conf)

/-- The driver after a request that was granted. -/
def granted (s : Dev) (req : Request) : Dev :=
  let (answer, held) := grant conf env s.requests s.held req
  ⟨store conf (some answer) s.mem req, held, s.requests + 1⟩

def refused (s : Dev) (req : Request) : Dev := ⟨store conf none s.mem req, s.held, s.requests + 1⟩

/-- What holds at the end of some instructions, or where one of their requests is refused. -/
def ends (post : Dev → Prop) (fail : Request → Dev → Prop) : Option Request → Dev → Prop
  | none => post
  | some req => fail req

def Runs (pre : Dev → Prop) (code : List Ins) (post : Dev → Prop) (fail : Request → Dev → Prop) :
    Prop :=
  Triple pre (exec conf env code) (ends post fail)

theorem exec_ask (req : Request) (rest : List Ins) (s : Dev) :
    exec conf env (.ask req :: rest) s =
      if env.grants s.requests then exec conf env rest (granted conf env s req)
      else (some req, refused conf s req) := by
  rw [exec, ask, granted, refused]
  split_ifs <;> rfl

theorem exec_append (first second : List Ins) (s : Dev) :
    exec conf env (first ++ second) s =
      match exec conf env first s with
      | (none, s) => exec conf env second s
      | (some req, s) => (some req, s) := by
  induction first generalizing s with
  | nil => rfl
  | cons ins rest ih =>
    cases ins with
    | set f => exact ih _
    | ask req =>
      rw [List.cons_append, exec_ask, exec_ask, ih]
      split_ifs <;> rfl

variable {conf env}
variable {pre post : Dev → Prop} {fail : Request → Dev → Prop}

theorem Runs.nil (same : ∀ s, pre s → post s) : Runs conf env pre [] post fail := same

theorem Runs.set (mid : Dev → Prop) {f : Mem → Mem} {rest : List Ins}
    (assigned : ∀ s, pre s → mid { s with mem := f s.mem })
    (later : Runs conf env mid rest post fail) : Runs conf env pre (.set f :: rest) post fail :=
  fun s holds => later _ (assigned s holds)

theorem Runs.ask (mid : Dev → Prop) {req : Request} {rest : List Ins}
    (yes : ∀ s, pre s → mid (granted conf env s req))
    (no : ∀ s, pre s → fail req (refused conf s req))
    (later : Runs conf env mid rest post fail) : Runs conf env pre (.ask req :: rest) post fail := by
  intro s holds
  unfold Prog.run
  rw [exec_ask]
  split_ifs
  · exact later _ (yes s holds)
  · exact no s holds

theorem Runs.append (mid : Dev → Prop) {first second : List Ins} (before : Runs conf env pre first mid fail)
    (after : Runs conf env mid second post fail) :
    Runs conf env pre (first ++ second) post fail := by
  intro s holds
  have halfway := before s holds
  unfold Prog.run at halfway ⊢
  rw [exec_append]
  generalize exec conf env first s = outcome at halfway
  obtain ⟨_ | req, s'⟩ := outcome
  · exact after s' halfway
  · exact halfway

theorem Runs.range (req : Nat → Request) (inv : Nat → Dev → Prop) (n : Nat)
    (yes : ∀ k < n, ∀ s, inv k s → inv (k + 1) (granted conf env s (req k)))
    (no : ∀ k < n, ∀ s, inv k s → fail (req k) (refused conf s (req k))) :
    Runs conf env (inv 0) ((List.range n).map fun i => .ask (req i)) (inv n) fail := by
  induction n with
  | zero => exact Runs.nil fun s holds => holds
  | succ n ih =>
    rw [List.range_succ, List.map_append]
    apply Runs.append (inv n)
    · exact ih (fun k below => yes k (by omega)) fun k below => no k (by omega)
    · exact Runs.ask _ (yes n n.lt_succ_self) (no n n.lt_succ_self) (Runs.nil fun s holds => holds)

end Rules

section Counts

def Good.isBuffer : Good → Bool
  | .buffer _ => true
  | _ => false

def Good.isMapping : Good → Bool
  | .mapping _ => true
  | _ => false

/-- An address whose lower half says that there is none. -/
def Good.isNull : Good → Bool
  | .mapping addr => addr % 2 ^ 32 == 0
  | _ => false

/-- How many goods are of a kind. -/
def amount (kind : Good → Bool) (goods : Multiset Good) : Nat := goods.countP (kind · = true)

variable (kind : Good → Bool)

@[simp] theorem amount_zero : amount kind 0 = 0 := rfl

@[simp] theorem amount_add (goods more : Multiset Good) :
    amount kind (goods + more) = amount kind goods + amount kind more := Multiset.countP_add ..

@[simp] theorem amount_singleton (g : Good) : amount kind {g} = if kind g then 1 else 0 := by
  unfold amount
  rw [← Multiset.cons_zero, Multiset.countP_cons, Multiset.countP_zero, Nat.zero_add]

@[simp] theorem amount_cons (g : Good) (goods : Multiset Good) :
    amount kind (g ::ₘ goods) = amount kind {g} + amount kind goods := by
  rw [← Multiset.singleton_add, amount_add]

def Balanced (goods : Multiset Good) : Prop :=
  amount Good.isBuffer goods = amount Good.isMapping goods

theorem Balanced.add {goods more : Multiset Good} (first : Balanced goods)
    (second : Balanced more) : Balanced (goods + more) := by
  unfold Balanced at *
  rw [amount_add, amount_add, first, second]

theorem Balanced.sum (l : List (Multiset Good)) (each : ∀ goods ∈ l, Balanced goods) :
    Balanced l.sum := by
  induction l with
  | nil => exact rfl
  | cons goods l ih =>
    rw [List.sum_cons]
    exact (each goods List.mem_cons_self).add
      (ih fun more member => each more (List.mem_cons_of_mem _ member))

theorem arrayGoods_balanced (p : Option Nat) : Balanced (arrayGoods p) := by
  cases p <;> simp [Balanced, arrayGoods, Good.isBuffer, Good.isMapping]

theorem descsGoods_balanced (p : Option Place) (size : Nat) : Balanced (descsGoods p size) := by
  cases p <;> simp [Balanced, descsGoods, Good.isBuffer, Good.isMapping]

theorem slotGoods_balanced (conf : DmaConf) (desc : Nat → RxDesc) (data : Nat → Option Nat)
    (i : Nat) : Balanced (slotGoods conf desc data i) := by
  unfold slotGoods
  cases data i with
  | none => exact rfl
  | some buffer =>
    dsimp only
    split_ifs
    · exact rfl
    · simp [Balanced, Good.isBuffer, Good.isMapping]

/-- Cleaning frees as many buffers as it unmaps addresses. -/
theorem goods_balanced (conf : DmaConf) (p : Piece) (m : Mem) : Balanced (p.goods conf m) := by
  have outside (sram : Bool) (place : Option Place) (size : Nat) :
      Balanced (if sram then 0 else descsGoods place size) := by
    split_ifs
    · exact rfl
    · exact descsGoods_balanced place size
  cases p with
  | scratchRing => exact outside ..
  | txRing i =>
    exact ((arrayGoods_balanced _).add (outside ..)).add (descsGoods_balanced ..)
  | scratchHead j => exact arrayGoods_balanced _
  | rxRing ring =>
    apply Balanced.add _ (outside ..)
    unfold slotsGoods
    split
    · apply Balanced.add _ (arrayGoods_balanced (some _))
      apply Balanced.sum
      intro goods member
      obtain ⟨i, -, rfl⟩ := List.mem_map.mp member
      exact slotGoods_balanced ..
    · exact rfl

theorem load_balanced (conf : DmaConf) (m : Mem) : Balanced (load conf m) := by
  apply Balanced.sum
  intro goods member
  obtain ⟨p, -, rfl⟩ := List.mem_map.mp member
  exact goods_balanced conf p m

end Counts

section States

variable {conf : DmaConf}

/-- The driver holds what `mtk_dma_free` would give back, and a buffer with its address for each
address that looks like none. -/
structure Accounted (conf : DmaConf) (s : Dev) : Prop where
  sound : s.held.fault = false
  lost : ∃ lost : Multiset Good, s.held.held = load conf s.mem + lost ∧
    lost.card = 2 * amount Good.isNull s.held.held
  balanced : Balanced s.held.held
  cleanable : Cleanable conf s.mem

/-- The driver holds what `mtk_dma_free` does not find, or too many buffers. -/
def Stuck (conf : DmaConf) (s : Dev) : Prop :=
  ¬ Cleanable conf s.mem ∨ ¬ Balanced s.held.held

theorem Accounted.idle_iff {s : Dev} (accounted : Accounted conf s) :
    Idle conf (mtkDmaFree conf s) ↔ amount Good.isNull s.held.held = 0 := by
  rw [mtkDmaFree_idle s accounted.sound]
  obtain ⟨lost, held, card⟩ := accounted.lost
  constructor
  · rintro ⟨exactly, -⟩
    have none_lost : lost = 0 := by
      rw [exactly] at held
      exact left_eq_add.mp held
    rw [none_lost, Multiset.card_zero] at card
    omega
  · intro none_null
    rw [none_null, Nat.mul_zero, Multiset.card_eq_zero] at card
    rw [card, add_zero] at held
    exact ⟨held, accounted.cleanable⟩

theorem Stuck.not_idle {s : Dev} (stuck : Stuck conf s) (sound : s.held.fault = false) :
    ¬ Idle conf (mtkDmaFree conf s) := by
  rw [mtkDmaFree_idle s sound]
  rintro ⟨held, cleanable⟩
  rcases stuck with left | uneven
  · exact left cleanable
  · apply uneven
    rw [held]
    exact load_balanced conf s.mem

theorem Accounted.congr {s s' : Dev} (accounted : Accounted conf s) (mem : s'.mem = s.mem)
    (held : s'.held = s.held) : Accounted conf s' := by
  obtain ⟨sound, lost, balanced, cleanable⟩ := accounted
  constructor
  · rwa [held]
  · rwa [held, mem]
  · rwa [held]
  · rwa [mem]

/-- Changing one piece changes the load by its goods. -/
theorem load_change (p : Piece) (member : p ∈ pieces conf) (m m' : Mem)
    (others : ∀ q, q ≠ p → q.Same m m') :
    load conf m' + p.goods conf m = load conf m + p.goods conf m' := by
  have split (m : Mem) : load conf m =
      p.goods conf m + (((pieces conf).erase p).map (Piece.goods conf · m)).sum := by
    rw [← List.sum_cons, ← List.map_cons (f := (Piece.goods conf · m))]
    exact ((List.perm_cons_erase member).map _).sum_eq
  have rest : ((pieces conf).erase p).map (Piece.goods conf · m') =
      ((pieces conf).erase p).map (Piece.goods conf · m) := by
    apply List.map_congr_left
    intro q kept
    exact (others q ((pieces_nodup conf).mem_erase_iff.mp kept).1).goods
  rw [split m, split m', rest]
  abel

/-- A piece gains what is taken, except for slots whose address looks like none. -/
theorem Accounted.grow {s s' : Dev} (accounted : Accounted conf s) (p : Piece)
    (member : p ∈ pieces conf) (gained lost : Multiset Good)
    (others : ∀ q, q ≠ p → q.Same s.mem s'.mem) (fault : s'.held.fault = s.held.fault)
    (held : s'.held.held = s.held.held + gained)
    (goods : p.goods conf s'.mem + lost = p.goods conf s.mem + gained)
    (card : lost.card = 2 * amount Good.isNull gained) (balanced : Balanced gained)
    (cleanable : ∀ ring, p = .rxRing ring →
      (s'.mem.rxRing ring).data = none ∨ (s'.mem.rxRing ring).dma ≠ none) :
    Accounted conf s' := by
  constructor
  · rw [fault, accounted.sound]
  · obtain ⟨before, was, size⟩ := accounted.lost
    refine ⟨before + lost, ?_, ?_⟩
    · have change := load_change p member s.mem s'.mem others
      rw [held, was]
      apply add_right_cancel (b := p.goods conf s.mem)
      calc load conf s.mem + before + gained + p.goods conf s.mem
          = load conf s.mem + (p.goods conf s.mem + gained) + before := by abel
        _ = load conf s.mem + p.goods conf s'.mem + lost + before := by rw [← goods]; abel
        _ = load conf s'.mem + p.goods conf s.mem + lost + before := by rw [change]
        _ = load conf s'.mem + (before + lost) + p.goods conf s.mem := by abel
    · rw [Multiset.card_add, size, card, held, amount_add, Nat.mul_add]
  · rw [held]
    exact accounted.balanced.add balanced
  · intro ring known
    by_cases here : Piece.rxRing ring = p
    · exact cleanable ring here.symm
    · have same : s'.mem.rxRing ring = s.mem.rxRing ring := others (.rxRing ring) here
      rw [same]
      exact accounted.cleanable ring known

end States

section Plain

variable (conf : DmaConf) (env : Answers conf) (m0 : Mem)

/-- Where `mtk_dma_free` makes good for a request that is refused: not at a receive buffer, unless
it is the first of a ring whose descriptors are in SRAM since an earlier time, and not later in
`mtk_rx_alloc`. -/
def harmless : Request → Bool
  | .rxBuf ring i => i == 0 && (m0.rxRing ring).dma.isSome
  | .rxRing .. | .rxMap .. => false
  | _ => true

def Outcome (req : Request) (s : Dev) : Prop :=
  s.held.fault = false ∧ if harmless m0 req then Accounted conf s else Stuck conf s

/-- A piece has been worked on. -/
structure Built (p : Piece) (s0 s : Dev) : Prop where
  accounted : Accounted conf s
  others : ∀ q, q ≠ p → q.Same s0.mem s.mem

/-- Instructions for one piece, which is as it was at the beginning -/
def Builds (p : Piece) (code : List Ins) : Prop :=
  ∀ s0, Accounted conf s0 → p.Same m0 s0.mem →
    Runs conf env (· = s0) code (Built conf p s0) (Outcome conf m0)

variable {conf env m0}

theorem Built.refl {p : Piece} {s : Dev} (accounted : Accounted conf s) : Built conf p s s :=
  ⟨accounted, fun q _ => Piece.Same.refl q s.mem⟩

/-- An array or descriptors are taken for a piece that is no receive ring. -/
theorem Built.take {p : Piece} {s0 s s' : Dev} (built : Built conf p s0 s)
    (member : p ∈ pieces conf) (g : Good) (held : s'.held = s.held.take g)
    (others : ∀ q, q ≠ p → q.Same s.mem s'.mem)
    (goods : p.goods conf s'.mem = p.goods conf s.mem + {g})
    (plain : g.isBuffer = false ∧ g.isMapping = false ∧ g.isNull = false)
    (noRx : ∀ ring, p ≠ .rxRing ring) : Built conf p s0 s' := by
  constructor
  · apply built.accounted.grow p member {g} 0 others
    · rw [held, Ledger.take_fault]
    · rw [held, Ledger.take_held, ← Multiset.singleton_add, add_comm]
    · rw [add_zero, goods]
    · simp [plain.2.2]
    · simp [Balanced, plain.1, plain.2.1]
    · exact fun ring same => absurd same (noRx ring)
  · exact fun q other => (built.others q other).trans (others q other)

/-- What is assigned to descriptors in SRAM changes no goods. -/
theorem Built.keep {p : Piece} {s0 s s' : Dev} (built : Built conf p s0 s)
    (member : p ∈ pieces conf) (held : s'.held = s.held)
    (others : ∀ q, q ≠ p → q.Same s.mem s'.mem)
    (goods : p.goods conf s'.mem = p.goods conf s.mem)
    (noRx : ∀ ring, p ≠ .rxRing ring) : Built conf p s0 s' := by
  constructor
  · apply built.accounted.grow p member 0 0 others
    · rw [held]
    · rw [held, add_zero]
    · rw [add_zero, add_zero, goods]
    · simp
    · exact rfl
    · exact fun ring same => absurd same (noRx ring)
  · exact fun q other => (built.others q other).trans (others q other)

/-- The pointer that a request is for is `NULL`. -/
def Unset (m : Mem) : Request → Prop
  | .idle | .scratchMap _ | .rxMap .. => True
  | .scratchRing => m.scratchRing = none
  | .scratchHead j => m.scratchHead j = none
  | .txBuf i => (m.txRing i).buf = none
  | .txRing i => (m.txRing i).dma = none
  | .txPdma i => (m.txRing i).dmaPdma = none
  | .rxData ring => (m.rxRing ring).data = none
  | .rxBuf ring i => ∀ data, (m.rxRing ring).data = some data → data.2 i = none
  | .rxRing ring _ => (m.rxRing ring).dma = none

theorem store_none (m : Mem) (req : Request) (unset : Unset m req) : store conf none m req = m := by
  have tx (i : Nat) (f : TxMem → TxMem) (same : f (m.txRing i) = m.txRing i) :
      m.setTx i f = m := by
    rw [Mem.setTx, same, Function.update_eq_self]
  have rx (ring : Ring) (f : RxMem → RxMem) (same : f (m.rxRing ring) = m.rxRing ring) :
      m.setRx ring f = m := by
    rw [Mem.setRx, same, Function.update_eq_self]
  unfold Unset at unset
  cases req <;> dsimp only [store, Option.map_none] at unset ⊢
  case scratchRing => rw [← unset]
  case scratchHead j => rw [← unset, Function.update_eq_self]
  case txBuf i => exact tx i _ (by rw [← unset])
  case txRing i => exact tx i _ (by rw [← unset])
  case txPdma i => exact tx i _ (by rw [← unset])
  case rxData ring => exact rx ring _ (by rw [← unset])
  case rxRing ring flag => exact rx ring _ (by rw [← unset]; rfl)
  case rxBuf ring i =>
    apply rx ring
    cases data : (m.rxRing ring).data with
    | none => rw [Option.map_none, ← data]
    | some array =>
      have empty := unset array data
      rw [Option.map_some, ← empty, Function.update_eq_self, ← data]

/-- A request is refused that sets a pointer which was `NULL` already. -/
theorem Built.refused {p : Piece} {s0 s : Dev} (built : Built conf p s0 s) (req : Request)
    (fine : harmless m0 req = true) (unset : Unset s.mem req) :
    Outcome conf m0 req (refused conf s req) := by
  have same : Accounted conf (BringUp.refused conf s req) :=
    built.accounted.congr (@store_none conf s.mem req unset) rfl
  exact ⟨same.sound, by rwa [if_pos fine]⟩

theorem idle_builds (s : Dev) (accounted : Accounted conf s) :
    Runs conf env (· = s) [.ask .idle] (fun s' => Accounted conf s' ∧ s'.mem = s.mem)
      (Outcome conf m0) := by
  apply Runs.ask (fun s' => Accounted conf s' ∧ s'.mem = s.mem)
  · rintro s rfl
    exact ⟨accounted.congr rfl rfl, rfl⟩
  · rintro s rfl
    exact (Built.refl (p := .scratchRing) accounted).refused _ rfl trivial
  · exact Runs.nil fun s holds => holds

theorem scratchRing_builds (member : .scratchRing ∈ pieces conf)
    (vacant : Piece.Vacant conf .scratchRing m0) :
    Builds conf env m0 .scratchRing
      [if conf.hasSram then .set fun m => { m with scratchRing := some .sram }
        else .ask .scratchRing] := by
  intro s0 accounted same
  have noRx (ring : Ring) : Piece.scratchRing ≠ .rxRing ring := by simp
  split_ifs with sram
  · apply Runs.set (Built conf .scratchRing s0)
    · rintro s rfl
      refine (Built.refl accounted).keep member rfl ?_ ?_ noRx
      · exact fun q other => Piece.setScratchRing_same q _ _ other
      · simp [Piece.goods, sram]
    · exact Runs.nil fun s holds => holds
  · have noSram : conf.hasSram = false := by simpa using sram
    apply Runs.ask (Built conf .scratchRing s0)
    · rintro s rfl
      have empty : s.mem.scratchRing = none := same.vacant.mpr vacant noSram
      refine (Built.refl accounted).take member _ rfl ?_ ?_ ⟨rfl, rfl, rfl⟩ noRx
      · exact fun q other => Piece.setScratchRing_same q _ _ other
      · simp [Piece.goods, sram, granted, grant, store, empty, descsGoods, ringSize]
    · rintro s rfl
      have empty : s.mem.scratchRing = none := same.vacant.mpr vacant noSram
      exact (Built.refl (p := .scratchRing) accounted).refused _ rfl empty
    · exact Runs.nil fun s holds => holds

theorem scratchHead_builds (j : Nat) (member : .scratchHead j ∈ pieces conf)
    (vacant : Piece.Vacant conf (.scratchHead j) m0) :
    Builds conf env m0 (.scratchHead j) [.ask (.scratchHead j), .ask (.scratchMap j)] := by
  intro s0 accounted same
  have empty : s0.mem.scratchHead j = none := same.vacant.mpr vacant
  apply Runs.ask (Built conf (.scratchHead j) s0)
  · rintro s rfl
    refine (Built.refl accounted).take member _ rfl ?_ ?_ ⟨rfl, rfl, rfl⟩ (by simp)
    · exact fun q other => Piece.setHead_same q j _ _ other
    · simp [Piece.goods, granted, grant, store, empty, arrayGoods]
  · rintro s rfl
    exact (Built.refl (p := .scratchHead j) accounted).refused _ rfl empty
  · apply Runs.ask (Built conf (.scratchHead j) s0)
    · exact fun s built => built.keep member rfl (fun q _ => Piece.Same.refl q _) rfl (by simp)
    · exact fun s built => built.refused _ rfl trivial
    · exact Runs.nil fun s holds => holds

/-- A ring that has its array, and its descriptors only as far as they are in SRAM. -/
structure TxBegun (conf : DmaConf) (i : Nat) (s0 s : Dev) : Prop extends
    Built conf (.txRing i) s0 s where
  dma : conf.hasSram = false → (s.mem.txRing i).dma = none
  dmaPdma : (s.mem.txRing i).dmaPdma = none

/-- A ring that may lack the descriptors for PDMA. -/
structure TxPlaced (conf : DmaConf) (i : Nat) (s0 s : Dev) : Prop extends
    Built conf (.txRing i) s0 s where
  dmaPdma : (s.mem.txRing i).dmaPdma = none

theorem tx_builds (i : Nat) (member : .txRing i ∈ pieces conf)
    (vacant : Piece.Vacant conf (.txRing i) m0) :
    Builds conf env m0 (.txRing i) (mtkTxAlloc conf i) := by
  intro s0 accounted same
  obtain ⟨buf, dma, dmaPdma⟩ := same.vacant.mpr vacant
  have noRx (ring : Ring) : Piece.txRing i ≠ .rxRing ring := by simp
  apply Runs.ask (TxBegun conf i s0)
  · rintro s rfl
    refine ⟨(Built.refl accounted).take member _ rfl ?_ ?_ ⟨rfl, rfl, rfl⟩ noRx, ?_, ?_⟩
    · exact fun q other => Piece.setTx_same q i _ _ other
    · simp [Piece.goods, granted, grant, store, Mem.setTx, buf, arrayGoods, add_comm]
    · simpa [granted, grant, store, Mem.setTx] using dma
    · simpa [granted, grant, store, Mem.setTx] using dmaPdma
  · rintro s rfl
    exact (Built.refl (p := .txRing i) accounted).refused _ rfl buf
  have rest : Runs conf env (TxPlaced conf i s0) (if conf.qdma then [] else [.ask (.txPdma i)])
      (Built conf (.txRing i) s0) (Outcome conf m0) := by
    split_ifs
    · exact Runs.nil fun s placed => placed.toBuilt
    · apply Runs.ask (Built conf (.txRing i) s0)
      · intro s placed
        refine placed.toBuilt.take member _ rfl ?_ ?_ ⟨rfl, rfl, rfl⟩ noRx
        · exact fun q other => Piece.setTx_same q i _ _ other
        · simp [Piece.goods, granted, grant, store, Mem.setTx, placed.dmaPdma, descsGoods, ringSize]
      · exact fun s placed => placed.toBuilt.refused _ rfl placed.dmaPdma
      · exact Runs.nil fun s built => built
  by_cases sram : conf.hasSram = true
  · rw [if_pos sram]
    apply Runs.set (TxPlaced conf i s0) _ rest
    intro s begun
    refine ⟨begun.toBuilt.keep member rfl ?_ ?_ noRx, ?_⟩
    · exact fun q other => Piece.setTx_same q i _ _ other
    · simp [Piece.goods, Mem.setTx, sram]
    · simpa [Mem.setTx] using begun.dmaPdma
  · have noSram : conf.hasSram = false := by simpa using sram
    rw [if_neg sram]
    apply Runs.ask (TxPlaced conf i s0) _ _ rest
    · intro s begun
      refine ⟨begun.toBuilt.take member _ rfl ?_ ?_ ⟨rfl, rfl, rfl⟩ noRx, ?_⟩
      · exact fun q other => Piece.setTx_same q i _ _ other
      · simp [Piece.goods, granted, grant, store, Mem.setTx, begun.dma noSram, noSram, descsGoods,
          ringSize, add_right_comm]
      · simpa [granted, grant, store, Mem.setTx] using begun.dmaPdma
    · exact fun s begun => begun.toBuilt.refused _ rfl (begun.dma noSram)

end Plain

section Slots

variable (conf : DmaConf)

/-- The array with its first `k` buffers, after a request for the array with the number `no`. -/
def filled (no k : Nat) : Nat → Option Nat := fun i => if i < k then some (no + 1 + i) else none

theorem filled_succ (no k : Nat) :
    Function.update (filled no k) k (some (no + 1 + k)) = filled no (k + 1) := by
  funext i
  by_cases here : i = k
  · subst here
    rw [Function.update_self, filled, if_pos i.lt_succ_self]
  · rw [Function.update_of_ne here, filled, filled]
    have bound : i < k ↔ i < k + 1 := by omega
    simp only [bound]

def bufferGoods (no k : Nat) : Multiset Good :=
  ((List.range k).map fun i => ({.buffer (no + 1 + i)} : Multiset Good)).sum

def mappingGoods (addr : Nat → Nat) (k : Nat) : Multiset Good :=
  ((List.range k).map fun i => ({.mapping (addr i)} : Multiset Good)).sum

/-- The buffer and the address of a slot that is skipped when the ring is cleaned. -/
def skipped (no : Nat) (addr : Nat → Nat) (i : Nat) : Multiset Good :=
  if addr i % 2 ^ 32 = 0 then {.mapping (addr i), .buffer (no + 1 + i)} else 0

theorem bufferGoods_succ (no k : Nat) :
    bufferGoods no (k + 1) = bufferGoods no k + {.buffer (no + 1 + k)} :=
  List.sum_range_succ ..

theorem mappingGoods_succ (addr : Nat → Nat) (k : Nat) :
    mappingGoods addr (k + 1) = mappingGoods addr k + {.mapping (addr k)} :=
  List.sum_range_succ ..

theorem bufferGoods_amount (no k : Nat) : amount Good.isBuffer (bufferGoods no k) = k ∧
    amount Good.isMapping (bufferGoods no k) = 0 ∧ amount Good.isNull (bufferGoods no k) = 0 := by
  induction k with
  | zero => exact ⟨rfl, rfl, rfl⟩
  | succ k ih =>
    rw [bufferGoods_succ]
    simp [ih, Good.isBuffer, Good.isMapping, Good.isNull]

theorem mappingGoods_amount (addr : Nat → Nat) (k : Nat) :
    amount Good.isBuffer (mappingGoods addr k) = 0 ∧
      amount Good.isMapping (mappingGoods addr k) = k := by
  induction k with
  | zero => exact ⟨rfl, rfl⟩
  | succ k ih =>
    rw [mappingGoods_succ]
    simp [ih, Good.isBuffer, Good.isMapping]

theorem skipped_card (no : Nat) (addr : Nat → Nat) (k : Nat) :
    ((List.range k).map (skipped no addr)).sum.card =
      2 * amount Good.isNull (mappingGoods addr k) := by
  induction k with
  | zero => rfl
  | succ k ih =>
    rw [List.sum_range_succ, Multiset.card_add, ih, mappingGoods_succ, amount_add, Nat.mul_add]
    unfold skipped
    split_ifs with null
    · simp only [amount_singleton, Good.isNull, null, beq_self_eq_true, if_true]
      rfl
    · simp only [amount_singleton, Good.isNull, beq_iff_eq, null, if_false]
      rfl

variable {conf}

/-- The slots that are cleaned and the slots that are skipped are all. -/
theorem slots_split (no size : Nat) (addr : Nat → Nat) (desc : Nat → RxDesc)
    (low : ∀ i < size, (desc i).rxd1 = addr i % 2 ^ 32)
    (whole : ∀ i < size, descAddr conf.toRxConf (desc i) = addr i) (k : Nat) (bound : k ≤ size) :
    ((List.range k).map (slotGoods conf desc (filled no size))).sum +
        ((List.range k).map (skipped no addr)).sum =
      bufferGoods no k + mappingGoods addr k := by
  induction k with
  | zero => rfl
  | succ k ih =>
    have below : k < size := by omega
    have slot : slotGoods conf desc (filled no size) k + skipped no addr k =
        {.buffer (no + 1 + k)} + {.mapping (addr k)} := by
      have data : filled no size k = some (no + 1 + k) := if_pos below
      simp only [slotGoods, data, low k below, whole k below, skipped]
      split_ifs
      · rw [zero_add, Multiset.insert_eq_cons, ← Multiset.singleton_add, add_comm]
      · rw [add_zero, Multiset.insert_eq_cons, ← Multiset.singleton_add, add_comm]
    rw [List.sum_range_succ, List.sum_range_succ, bufferGoods_succ, mappingGoods_succ,
      add_add_add_comm, ih (by omega), slot]
    abel

theorem rxDesc_addr (flag : RxFlag) (addr : Fin (2 ^ dmaBits conf.toRxConf)) :
    descAddr conf.toRxConf (rxDesc conf flag addr) = addr := by
  apply descAddr_split
  · rfl
  · intro wide
    have new : conf.mt7628 = false := by
      by_contra old
      have narrow := conf.mt7628_dma (by simpa using old)
      rw [narrow] at wide
      cases wide
    simp only [rxDesc, new, wide, Bool.false_eq_true, if_false, if_true]
    exact (written_rxd2 (ringConf conf flag) (prepAddr64 addr) (by rw [prepAddr64_eq]; omega)).1

end Slots

section Rx

theorem Mem.setRx_self (m : Mem) (ring : Ring) (f : RxMem → RxMem) :
    (m.setRx ring f).rxRing ring = f (m.rxRing ring) := Function.update_self ..

variable (conf : DmaConf) (env : Answers conf) (ring : Ring) (flag : RxFlag) (s0 : Dev)

/-- The array of a ring and its first `k` buffers are allocated. -/
structure Filled (k : Nat) (s : Dev) : Prop where
  mem : s.mem = s0.mem.setRx ring fun rx =>
    { rx with data := some (s0.requests, filled s0.requests k) }
  held : s.held.held = s0.held.held + ({.array s0.requests} + bufferGoods s0.requests k)
  fault : s.held.fault = s0.held.fault
  requests : s.requests = s0.requests + 1 + k

/-- What is taken for the descriptors of a ring that are asked for after request `no`. -/
def ringGoods (no : Nat) : Multiset Good :=
  if inSram conf flag then 0
  else {.descs (.coherent no) (rxDmaSize conf flag * conf.rxdSize)}

/-- The descriptors are there, and the first `k` buffers are mapped. -/
structure Mapped (addr : Nat → Nat) (k : Nat) (s : Dev) : Prop where
  mem : ∃ place desc, s.mem = s0.mem.setRx ring (fun rx =>
      { data := some (s0.requests, filled s0.requests (rxDmaSize conf flag))
        dma := some place
        dmaSize := rx.dmaSize
        desc := desc }) ∧
    (if inSram conf flag then 0 else descsGoods (some place) (rxDmaSize conf flag * conf.rxdSize)) =
      ringGoods conf flag (s0.requests + 1 + rxDmaSize conf flag) ∧
    ∀ i < k, desc i = rxDesc conf flag (addr i)
  held : s.held.held = s0.held.held + ({.array s0.requests} +
    bufferGoods s0.requests (rxDmaSize conf flag) +
    ringGoods conf flag (s0.requests + 1 + rxDmaSize conf flag) + mappingGoods addr k)
  fault : s.held.fault = s0.held.fault
  requests : s.requests =
    s0.requests + 1 + rxDmaSize conf flag + (if inSram conf flag then 0 else 1) + k

variable {conf env ring flag s0} {m0 : Mem}

theorem Filled.next {k : Nat} {s : Dev} (part : Filled ring s0 k s) :
    Filled ring s0 (k + 1) (granted conf env s (.rxBuf ring k)) := by
  obtain ⟨mem, held, fault, requests⟩ := part
  constructor
  · simp only [granted, grant, store, mem, Mem.setRx, Function.update_self, Function.update_idem,
      Option.map_some, requests, filled_succ]
  · simp only [granted, grant, Ledger.take_held, held, bufferGoods_succ, requests]
    rw [← Multiset.singleton_add]
    abel
  · exact fault
  · simp only [granted, requests]
    omega

theorem Filled.unset {k : Nat} {s : Dev} (part : Filled ring s0 k s) :
    Unset s.mem (.rxBuf ring k) := by
  intro data found
  rw [part.mem, Mem.setRx_self] at found
  obtain rfl := Option.some.inj found
  exact if_neg k.lt_irrefl

/-- With more buffers than addresses the driver is stuck. -/
theorem stuck_of_uneven {s : Dev} (accounted : Accounted conf s0) (more : Multiset Good)
    (held : s.held.held = s0.held.held + more)
    (uneven : amount Good.isBuffer more ≠ amount Good.isMapping more) : Stuck conf s := by
  right
  have even := accounted.balanced
  unfold Balanced at even ⊢
  rw [held, amount_add, amount_add, even]
  omega

theorem Filled.refused {k : Nat} {s : Dev} (part : Filled ring s0 k s)
    (accounted : Accounted conf s0) (member : .rxRing ring ∈ pieces conf)
    (same : (Piece.rxRing ring).Same m0 s0.mem) (vacant : Piece.Vacant conf (.rxRing ring) m0) :
    Outcome conf m0 (.rxBuf ring k) (refused conf s (.rxBuf ring k)) := by
  have kept : store conf none s.mem (.rxBuf ring k) = s.mem := store_none s.mem _ part.unset
  have sound : s.held.fault = false := by rw [part.fault, accounted.sound]
  have dma : (s0.mem.rxRing ring).dma = (m0.rxRing ring).dma := congrArg RxMem.dma same
  have now : s.mem.rxRing ring = { s0.mem.rxRing ring with
      data := some (s0.requests, filled s0.requests k) } := by
    rw [part.mem, Mem.setRx_self]
  have here := (same.vacant.mpr vacant).1
  refine ⟨sound, ?_⟩
  cases k with
  | zero =>
    cases stale : (m0.rxRing ring).dma with
    | none =>
      rw [if_neg (by simp [harmless, stale])]
      left
      intro cleanable
      have ring' := cleanable ring member
      simp only [BringUp.refused, kept, now, dma, stale] at ring'
      simp at ring'
    | some place =>
      rw [if_pos (by simp [harmless, stale])]
      have after : Accounted conf s := by
        apply accounted.grow (.rxRing ring) member {.array s0.requests} 0
        · intro q other
          rw [part.mem]
          exact Piece.setRx_same q ring _ _ other
        · exact part.fault
        · simpa [bufferGoods] using part.held
        · have slots (n : Nat) (desc : Nat → RxDesc) :
              ((List.range n).map (slotGoods conf desc (filled s0.requests 0))).sum = 0 := by
            apply List.sum_eq_zero
            intro goods found
            obtain ⟨i, -, rfl⟩ := List.mem_map.mp found
            rfl
          simp only [Piece.goods, rxGoods, slotsGoods, now, dma, stale, slots, here]
          abel
        · simp [Good.isNull]
        · simp [Balanced, Good.isBuffer, Good.isMapping]
        · rintro ring' found
          obtain rfl := Piece.rxRing.inj found
          simp [now, dma, stale]
      exact after.congr kept rfl
  | succ k =>
    rw [if_neg (by simp [harmless])]
    apply stuck_of_uneven (s := BringUp.refused conf s _) accounted _ part.held
    simp [bufferGoods_amount, Good.isBuffer, Good.isMapping]

theorem ringGoods_amount (no : Nat) : amount Good.isBuffer (ringGoods conf flag no) = 0 ∧
    amount Good.isMapping (ringGoods conf flag no) = 0 ∧
    amount Good.isNull (ringGoods conf flag no) = 0 := by
  unfold ringGoods
  split_ifs <;> simp [Good.isBuffer, Good.isMapping, Good.isNull]

theorem Mapped.refused {addr : Nat → Nat} {k : Nat} {s : Dev}
    (part : Mapped conf ring flag s0 addr k s) (below : k < rxDmaSize conf flag)
    (accounted : Accounted conf s0) :
    Outcome conf m0 (.rxMap ring flag k) (refused conf s (.rxMap ring flag k)) := by
  refine ⟨by rw [BringUp.refused, part.fault, accounted.sound], ?_⟩
  rw [if_neg (by simp [harmless])]
  apply stuck_of_uneven (s := BringUp.refused conf s _) accounted _ part.held
  simp [bufferGoods_amount, mappingGoods_amount, ringGoods_amount, Good.isBuffer, Good.isMapping]
  omega

theorem Mapped.next {addr : Nat → Nat} {k : Nat} {s : Dev}
    (part : Mapped conf ring flag s0 addr k s) (here : addr k = env.busAddr s.requests) :
    Mapped conf ring flag s0 addr (k + 1) (granted conf env s (.rxMap ring flag k)) := by
  obtain ⟨⟨place, desc, mem, goods, descs⟩, held, fault, requests⟩ := part
  constructor
  · refine ⟨place, Function.update desc k (rxDesc conf flag (addr k)), ?_, goods, ?_⟩
    · simp only [granted, grant, store, mem, Mem.setRx, Function.update_self,
        Function.update_idem, here]
    · intro i below
      by_cases last : i = k
      · rw [last, Function.update_self]
      · rw [Function.update_of_ne last, descs i (by omega)]
  · simp only [granted, grant, Ledger.take_held, held, mappingGoods_succ, here]
    rw [← Multiset.singleton_add]
    abel
  · exact fault
  · simp only [granted, requests]
    omega

theorem rxRing_vacant (ring : Ring) {m : Mem} (vacant : Piece.Vacant conf (.rxRing ring) m) :
    Piece.goods conf (.rxRing ring) m = 0 := by
  have empty : slotsGoods conf (m.rxRing ring) = 0 := by
    rw [slotsGoods, vacant.1]
  simp only [Piece.goods, rxGoods, empty, zero_add]
  split_ifs with here
  · rfl
  · rw [vacant.2 (by simpa using here)]
    rfl

/-- The size of a ring is set at the end: from then on its slots are cleaned. -/
theorem Mapped.built {addr : Nat → Nat} {s : Dev}
    (part : Mapped conf ring flag s0 addr (rxDmaSize conf flag) s)
    (real : ∀ i, ∃ given : Fin (2 ^ dmaBits conf.toRxConf), addr i = given)
    (accounted : Accounted conf s0) (member : .rxRing ring ∈ pieces conf)
    (sram : ringInSram conf ring = inSram conf flag)
    (vacant : Piece.Vacant conf (.rxRing ring) s0.mem) :
    Built conf (.rxRing ring) s0 { s with
      mem := s.mem.setRx ring fun rx => { rx with dmaSize := rxDmaSize conf flag } } := by
  obtain ⟨⟨place, desc, mem, goods, descs⟩, held, fault, -⟩ := part
  have others (q : Piece) (other : q ≠ .rxRing ring) : q.Same s0.mem
      (s.mem.setRx ring fun rx => { rx with dmaSize := rxDmaSize conf flag }) := by
    rw [mem]
    exact (Piece.setRx_same q ring _ _ other).trans (Piece.setRx_same q ring _ _ other)
  have now : (s.mem.setRx ring fun rx => { rx with dmaSize := rxDmaSize conf flag }).rxRing ring =
      { data := some (s0.requests, filled s0.requests (rxDmaSize conf flag)), dma := some place,
        dmaSize := rxDmaSize conf flag, desc := desc } := by
    rw [Mem.setRx_self, mem, Mem.setRx_self]
  have low (i : Nat) (below : i < rxDmaSize conf flag) : (desc i).rxd1 = addr i % 2 ^ 32 := by
    rw [descs i below]
    rfl
  have whole (i : Nat) (below : i < rxDmaSize conf flag) :
      descAddr conf.toRxConf (desc i) = addr i := by
    obtain ⟨given, found⟩ := real i
    rw [descs i below, found]
    exact rxDesc_addr flag given
  have before := rxRing_vacant ring vacant
  refine ⟨accounted.grow (.rxRing ring) member _
    ((List.range (rxDmaSize conf flag)).map (skipped s0.requests addr)).sum others fault held
    ?_ ?_ ?_ ?_, others⟩
  · have split := slots_split s0.requests (rxDmaSize conf flag) addr desc low whole _ le_rfl
    rw [before]
    simp only [Piece.goods, rxGoods, slotsGoods, now, sram, goods]
    calc _ = ((List.range (rxDmaSize conf flag)).map (slotGoods conf desc
            (filled s0.requests (rxDmaSize conf flag)))).sum +
          ((List.range (rxDmaSize conf flag)).map (skipped s0.requests addr)).sum +
          ({.array s0.requests} +
            ringGoods conf flag (s0.requests + 1 + rxDmaSize conf flag)) := by abel
      _ = _ := by rw [split]; abel
  · rw [skipped_card]
    simp [bufferGoods_amount, ringGoods_amount, Good.isNull]
  · simp [Balanced, bufferGoods_amount, mappingGoods_amount, ringGoods_amount, Good.isBuffer,
      Good.isMapping]
  · intro ring' found
    obtain rfl := Piece.rxRing.inj found
    right
    rw [now]
    simp

theorem rxDmaSize_pos : 0 < rxDmaSize conf flag := rxSize_pos (ringConf conf flag)

/-- The addresses that the buffers of a ring are mapped at, if all is granted. -/
def rxAddr (conf : DmaConf) (env : Answers conf) (flag : RxFlag) (s0 : Dev) (i : Nat) : Nat :=
  env.busAddr (s0.requests + 1 + rxDmaSize conf flag + (if inSram conf flag then 0 else 1) + i)

theorem rxData_runs (accounted : Accounted conf s0) (clear : Unset s0.mem (.rxData ring)) :
    Runs conf env (· = s0) [.ask (.rxData ring)] (Filled ring s0 0) (Outcome conf m0) := by
  apply Runs.ask (Filled ring s0 0)
  · rintro s rfl
    constructor
    · simp only [granted, grant, store, Mem.setRx, Option.map_some]
      rfl
    · simp only [granted, grant, Ledger.take_held, bufferGoods, ← Multiset.singleton_add]
      exact add_comm _ _
    · rfl
    · rfl
  · rintro s rfl
    exact (Built.refl (p := .rxRing ring) accounted).refused _ rfl clear
  · exact Runs.nil fun s holds => holds

theorem Filled.inside {s : Dev} (part : Filled ring s0 (rxDmaSize conf flag) s)
    (inside : inSram conf flag = true) :
    Mapped conf ring flag s0 (rxAddr conf env flag s0) 0
      { s with mem := s.mem.setRx ring fun rx => { rx with dma := some .sram } } := by
  constructor
  · refine ⟨.sram, (s0.mem.rxRing ring).desc, ?_, ?_, fun i below => absurd below i.not_lt_zero⟩
    · simp only [part.mem, Mem.setRx, Function.update_self, Function.update_idem]
    · rw [ringGoods, if_pos inside, if_pos inside]
  · rw [part.held, ringGoods, if_pos inside, add_zero]
    exact congrArg (s0.held.held + ·) (add_zero _).symm
  · exact part.fault
  · simp only [part.requests, if_pos inside, add_zero]

theorem Filled.outside {s : Dev} (part : Filled ring s0 (rxDmaSize conf flag) s)
    (outside : ¬ inSram conf flag = true) :
    Mapped conf ring flag s0 (rxAddr conf env flag s0) 0
      (granted conf env s (.rxRing ring flag)) := by
  constructor
  · refine ⟨.coherent s.requests, fun _ => ⟨0, 0, 0, 0⟩, ?_, ?_,
      fun i below => absurd below i.not_lt_zero⟩
    · simp only [granted, grant, store, part.mem, Mem.setRx, Function.update_self,
        Function.update_idem, Option.map_some, Option.isSome_some, if_true]
    · rw [ringGoods, if_neg outside, if_neg outside, part.requests]
      rfl
  · have none_mapped : mappingGoods (rxAddr conf env flag s0) 0 = 0 := rfl
    simp only [granted, grant, Ledger.take_held, part.held, ringGoods, if_neg outside, ringSize,
      ← Multiset.singleton_add, part.requests, none_mapped]
    abel
  · exact part.fault
  · rw [if_neg outside, granted, part.requests]

theorem placed_runs (accounted : Accounted conf s0) :
    Runs conf env (Filled ring s0 (rxDmaSize conf flag))
      [if inSram conf flag then .set (Mem.setRx · ring fun rx => { rx with dma := some .sram })
        else .ask (.rxRing ring flag)]
      (Mapped conf ring flag s0 (rxAddr conf env flag s0) 0) (Outcome conf m0) := by
  split_ifs with inside
  · apply Runs.set _ (fun s part => part.inside inside)
    exact Runs.nil fun s holds => holds
  · apply Runs.ask _ (fun s part => part.outside inside)
    · intro s part
      have room := @rxDmaSize_pos conf flag
      refine ⟨by rw [refused, part.fault, accounted.sound], ?_⟩
      rw [if_neg (by simp [harmless])]
      apply stuck_of_uneven (s := refused conf s _) accounted _ part.held
      simp [bufferGoods_amount, Good.isBuffer, Good.isMapping]
      omega
    · exact Runs.nil fun s holds => holds

theorem rx_builds (member : .rxRing ring ∈ pieces conf)
    (sram : ringInSram conf ring = inSram conf flag)
    (vacant : Piece.Vacant conf (.rxRing ring) m0) :
    Builds conf env m0 (.rxRing ring) (mtkRxAlloc conf ring flag) := by
  intro s0 accounted same
  have clear := same.vacant.mpr vacant
  have buffers : Runs conf env (Filled ring s0 0)
      ((List.range (rxDmaSize conf flag)).map fun i => .ask (.rxBuf ring i))
      (Filled ring s0 (rxDmaSize conf flag)) (Outcome conf m0) := by
    apply Runs.range
    · exact fun k _ s part => part.next
    · exact fun k _ s part => part.refused accounted member same vacant
  have mapped : Runs conf env (Mapped conf ring flag s0 (rxAddr conf env flag s0) 0)
      ((List.range (rxDmaSize conf flag)).map fun i => .ask (.rxMap ring flag i))
      (Mapped conf ring flag s0 (rxAddr conf env flag s0) (rxDmaSize conf flag))
      (Outcome conf m0) := by
    apply Runs.range
    · exact fun k _ s part => part.next (by rw [rxAddr, part.requests])
    · exact fun k below s part => part.refused below accounted
  have sized : Runs conf env
      (Mapped conf ring flag s0 (rxAddr conf env flag s0) (rxDmaSize conf flag))
      [.set (Mem.setRx · ring fun rx => { rx with dmaSize := rxDmaSize conf flag })]
      (Built conf (.rxRing ring) s0) (Outcome conf m0) := by
    apply Runs.set (Built conf (.rxRing ring) s0)
    · exact fun s part => part.built (fun i => ⟨_, rfl⟩) accounted member sram clear
    · exact Runs.nil fun s holds => holds
  have code : mtkRxAlloc conf ring flag =
      [Ins.ask (.rxData ring)] ++
        ((List.range (rxDmaSize conf flag)).map fun i => Ins.ask (.rxBuf ring i)) ++
        [if inSram conf flag then Ins.set (Mem.setRx · ring fun rx => { rx with dma := some .sram })
          else Ins.ask (.rxRing ring flag)] ++
        ((List.range (rxDmaSize conf flag)).map fun i => Ins.ask (.rxMap ring flag i)) ++
        [Ins.set (Mem.setRx · ring fun rx => { rx with dmaSize := rxDmaSize conf flag })] := by
    simp [mtkRxAlloc]
  rw [code]
  have data := @rxData_runs conf env ring s0 m0 accounted clear.1
  exact (((data.append _ buffers).append _ (placed_runs accounted)).append _ mapped).append _ sized

end Rx

section Whole

variable (conf : DmaConf)

/-- What the instructions of `mtk_dma_init` are for, piece by piece. -/
def blocks : List (Piece × List Ins) :=
  (if conf.qdma then
    (Piece.scratchRing, [if conf.hasSram then Ins.set fun m => { m with scratchRing := some .sram }
      else Ins.ask Request.scratchRing]) ::
      (List.range (fqBatches conf)).map fun j =>
        (Piece.scratchHead j, [Ins.ask (Request.scratchHead j), Ins.ask (Request.scratchMap j)])
    else []) ++
    (txRings conf).map (fun i => (Piece.txRing i, mtkTxAlloc conf i)) ++
    (if conf.qdma then [(Piece.rxRing Ring.qdma, mtkRxAlloc conf .qdma .qdma)] else []) ++
    [(Piece.rxRing (Ring.pdma 0), mtkRxAlloc conf (Ring.pdma 0) .normal)] ++
    (if conf.hwlro then
      (lroRings conf).map fun ring => (Piece.rxRing ring, mtkRxAlloc conf ring .hwlro) else []) ++
    (if conf.rss then
      rssRings.map fun ring => (Piece.rxRing ring, mtkRxAlloc conf ring .normal) else [])

theorem mtkDmaInit_eq :
    mtkDmaInit conf = .ask .idle :: (blocks conf).flatMap Prod.snd := by
  unfold mtkDmaInit blocks mtkInitFqDma
  cases conf.qdma <;> cases conf.hwlro <;> cases conf.rss <;>
    simp [List.flatMap_map]

/-- The receive rings in the order of `mtk_dma_init` -/
def rxOrder : List Ring :=
  (if conf.qdma then [Ring.qdma] else []) ++ [Ring.pdma 0] ++
    (if conf.hwlro then lroRings conf else []) ++ (if conf.rss then rssRings else [])

theorem rxOrder_nodup : (rxOrder conf).Nodup := by
  have apart := conf.rss_ringsV2
  unfold rxOrder lroRings
  cases rss : conf.rss with
  | false => cases conf.qdma <;> cases conf.hwlro <;> cases conf.ringsV2 <;> decide
  | true =>
    rw [apart rss]
    cases conf.qdma <;> cases conf.hwlro <;> decide

theorem blocks_fst : (blocks conf).map Prod.fst =
    (if conf.qdma then .scratchRing :: (List.range (fqBatches conf)).map .scratchHead else []) ++
      (txRings conf).map .txRing ++ (rxOrder conf).map .rxRing := by
  unfold blocks rxOrder
  cases conf.qdma <;> cases conf.hwlro <;> cases conf.rss <;> simp [Function.comp_def]

theorem blocks_nodup : ((blocks conf).map Prod.fst).Nodup := by
  have tx : ((txRings conf).map Piece.txRing).Nodup := by
    unfold txRings
    split_ifs <;> decide
  have rx : ((rxOrder conf).map Piece.rxRing).Nodup :=
    (rxOrder_nodup conf).map fun a b same => Piece.rxRing.inj same
  have heads : ((List.range (fqBatches conf)).map Piece.scratchHead).Nodup :=
    List.nodup_range.map fun a b same => Piece.scratchHead.inj same
  rw [blocks_fst]
  cases conf.qdma <;>
    simp +contextual [List.nodup_append, tx, rx, heads, forall_exists_index, or_imp, forall_and]

theorem blocks_pieces (p : Piece) (member : p ∈ (blocks conf).map Prod.fst) : p ∈ pieces conf := by
  rw [blocks_fst] at member
  unfold rxOrder at member
  unfold pieces rxRings
  simp only [List.mem_append, List.mem_cons, List.mem_map] at member ⊢
  rcases member with (scratch | tx) | ⟨ring, rx, rfl⟩
  · split_ifs at scratch
    · rcases List.mem_cons.mp scratch with rfl | head
      · exact .inl (.inl (.inl rfl))
      · exact .inr (List.mem_map.mp head)
    · cases scratch
  · exact .inl (.inl (.inr tx))
  · refine .inl (.inr ⟨ring, ?_, rfl⟩)
    rcases rx with ((qdma | first) | lro) | rss
    · split_ifs at qdma
      · exact .inl (.inl (.inr (.inl (List.mem_singleton.mp qdma))))
      · cases qdma
    · exact .inl (.inl (.inl (by simpa using first)))
    · exact .inl (.inr lro)
    · exact .inr rss

variable {conf} {env : Answers conf} {m0 : Mem}

theorem blocks_build (b : Piece × List Ins) (member : b ∈ blocks conf)
    (vacant : b.1.Vacant conf m0) : Builds conf env m0 b.1 b.2 := by
  have known := blocks_pieces conf b.1 (List.mem_map_of_mem member)
  have rx (ring : Ring) (flag : RxFlag) (same : b = (.rxRing ring, mtkRxAlloc conf ring flag))
      (sram : ringInSram conf ring = inSram conf flag) : Builds conf env m0 b.1 b.2 := by
    subst same
    exact rx_builds known sram vacant
  simp only [blocks, List.mem_append] at member
  rcases member with ((((scratch | tx) | qdma) | normal) | lro) | rss
  · by_cases qdma : conf.qdma = true
    · rw [if_pos qdma] at scratch
      rcases List.mem_cons.mp scratch with rfl | head
      · exact scratchRing_builds known vacant
      · obtain ⟨j, -, rfl⟩ := List.mem_map.mp head
        exact scratchHead_builds j known vacant
    · rw [if_neg qdma] at scratch
      cases scratch
  · obtain ⟨i, -, rfl⟩ := List.mem_map.mp tx
    exact tx_builds i known vacant
  · split_ifs at qdma
    · exact rx .qdma .qdma (List.mem_singleton.mp qdma) (by simp [ringInSram, inSram])
    · cases qdma
  · exact rx (.pdma 0) .normal (List.mem_singleton.mp normal) (by simp [ringInSram, inSram])
  · split_ifs at lro
    · obtain ⟨ring, here, rfl⟩ := List.mem_map.mp lro
      exact rx ring .hwlro rfl (by rw [lroRings_inSram conf ring here]; simp [inSram])
    · cases lro
  · split_ifs at rss with on
    · obtain ⟨ring, here, rfl⟩ := List.mem_map.mp rss
      exact rx ring .normal rfl (by rw [rssRings_inSram conf ring here on]; simp [inSram])
    · cases rss

/-- Blocks for pieces that are as they were at the beginning. -/
theorem blocks_run (bs : List (Piece × List Ins)) (distinct : (bs.map Prod.fst).Nodup)
    (build : ∀ b ∈ bs, Builds conf env m0 b.1 b.2) :
    Runs conf env (fun s => Accounted conf s ∧ ∀ b ∈ bs, b.1.Same m0 s.mem)
      (bs.flatMap Prod.snd) (Accounted conf) (Outcome conf m0) := by
  induction bs with
  | nil => exact Runs.nil fun s holds => holds.1
  | cons b bs ih =>
    rw [List.flatMap_cons]
    obtain ⟨apart, rest⟩ := List.nodup_cons.mp distinct
    apply Runs.append (fun s => Accounted conf s ∧ ∀ b ∈ bs, b.1.Same m0 s.mem)
    · intro s0 ⟨accounted, same⟩
      have ran := build b List.mem_cons_self s0 accounted (same b List.mem_cons_self) s0 rfl
      unfold Prog.run at ran ⊢
      generalize exec conf env b.2 s0 = outcome at ran ⊢
      obtain ⟨_ | req, s⟩ := outcome
      · refine ⟨ran.accounted, fun other member => ?_⟩
        apply (same other (List.mem_cons_of_mem b member)).trans
        apply ran.others
        intro here
        exact apart (here ▸ List.mem_map_of_mem member)
      · exact ran
    · exact ih rest fun other member => build other (List.mem_cons_of_mem b member)

/-- At the beginning nothing is held. -/
theorem Idle.accounted {s : Dev} (idle : Idle conf s) : Accounted conf s := by
  obtain ⟨⟨held, sound⟩, vacant⟩ := idle
  have empty : load conf s.mem = 0 := by
    apply List.sum_eq_zero
    intro goods member
    obtain ⟨p, known, rfl⟩ := List.mem_map.mp member
    have here := vacant p known
    cases p with
    | scratchRing =>
      unfold Piece.goods
      split_ifs with sram
      · rfl
      · rw [here (by simpa using sram)]
        rfl
    | txRing i =>
      obtain ⟨buf, dma, dmaPdma⟩ := here
      simp only [Piece.goods, buf, dmaPdma]
      split_ifs with sram
      · rfl
      · rw [dma (by simpa using sram)]
        rfl
    | rxRing ring => exact rxRing_vacant ring here
    | scratchHead j =>
      have none_there : s.mem.scratchHead j = none := here
      simp only [Piece.goods, none_there]
      rfl
  constructor
  · exact sound
  · refine ⟨0, ?_, ?_⟩
    · rw [held, empty]
      rfl
    · rw [held]
      rfl
  · rw [held]
    exact rfl
  · intro ring known
    exact .inl (vacant _ known).1

theorem mtkDmaInit_runs (s : Dev) (idle : Idle conf s) :
    Runs conf env (· = s) (mtkDmaInit conf) (Accounted conf) (Outcome conf s.mem) := by
  rw [mtkDmaInit_eq, ← List.singleton_append]
  apply Runs.append (fun s' => Accounted conf s' ∧ s'.mem = s.mem)
  · exact idle_builds s idle.accounted
  · intro s' ⟨accounted, same⟩
    apply blocks_run (blocks conf) (blocks_nodup conf) _ s' ⟨accounted, _⟩
    · intro b member
      apply blocks_build b member
      exact idle.2 _ (blocks_pieces conf _ (List.mem_map_of_mem member))
    · intro b member
      rw [same]
      exact Piece.Same.refl _ _

end Whole

section Points

variable {conf : DmaConf}

def Ins.request : Ins → Option Request
  | .ask req => some req
  | .set _ => none

/-- The requests of `mtk_dma_init` in their order -/
def requests (conf : DmaConf) : List Request := (mtkDmaInit conf).filterMap Ins.request

/-- None of the first `k` requests gives an address whose lower half says that there is none. -/
def NoNull (env : Answers conf) (n : Nat) (reqs : List Request) (k : Nat) : Prop :=
  ∀ j < k, ∀ ring flag i, reqs[j]? = some (.rxMap ring flag i) →
    (env.busAddr (n + j)).val % 2 ^ 32 ≠ 0

theorem NoNull.cons (env : Answers conf) (n : Nat) (req : Request) (reqs : List Request) (k : Nat) :
    NoNull env n (req :: reqs) (k + 1) ↔
      (∀ ring flag i, req = .rxMap ring flag i → (env.busAddr n).val % 2 ^ 32 ≠ 0) ∧
        NoNull env (n + 1) reqs k := by
  constructor
  · intro all
    constructor
    · intro ring flag i same
      exact all 0 (by omega) ring flag i (by simp [same])
    · intro j below ring flag i here
      have one := all (j + 1) (by omega) ring flag i (by simpa using here)
      rwa [show n + (j + 1) = n + 1 + j by omega] at one
  · rintro ⟨first, rest⟩ j below ring flag i here
    cases j with
    | zero => exact first ring flag i (by simpa using here)
    | succ j =>
      have one := rest j (by omega) ring flag i (by simpa using here)
      rwa [show n + 1 + j = n + (j + 1) by omega] at one

theorem granted_null (env : Answers conf) (s : Dev) (req : Request) :
    amount Good.isNull (granted conf env s req).held.held = 0 ↔
      amount Good.isNull s.held.held = 0 ∧
        ∀ ring flag i, req = .rxMap ring flag i → (env.busAddr s.requests).val % 2 ^ 32 ≠ 0 := by
  cases req <;> simp [granted, grant, Good.isNull, and_comm]

/-- The run up to the request that is refused. -/
theorem exec_point (env : Answers conf) (code : List Ins) (s : Dev) (k : Nat) (req : Request)
    (point : (code.filterMap Ins.request)[k]? = some req)
    (before : ∀ j < k, env.grants (s.requests + j) = true)
    (here : env.grants (s.requests + k) = false) :
    ∃ s', exec conf env code s = (some req, s') ∧
      (amount Good.isNull s'.held.held = 0 ↔ amount Good.isNull s.held.held = 0 ∧
        NoNull env s.requests (code.filterMap Ins.request) k) := by
  induction code generalizing s k with
  | nil => simp at point
  | cons ins rest ih =>
    cases ins with
    | set f => exact ih { s with mem := f s.mem } k point before here
    | ask first =>
      rw [exec_ask]
      have split : (Ins.ask first :: rest).filterMap Ins.request =
          first :: rest.filterMap Ins.request := rfl
      rw [split] at point ⊢
      cases k with
      | zero =>
        rw [Nat.add_zero] at here
        obtain rfl : first = req := by simpa using point
        refine ⟨refused conf s first, ?_, ?_⟩
        · rw [here, if_neg Bool.false_ne_true]
        · have none_before : NoNull env s.requests (first :: rest.filterMap Ins.request) 0 := by
            intro j below
            omega
          simp [refused, none_before]
      | succ k =>
        have yes : env.grants s.requests = true := before 0 (by omega)
        obtain ⟨s', ran, null⟩ := ih (granted conf env s first) k (by simpa using point)
          (fun j below => by
            have one := before (j + 1) (by omega)
            rwa [show s.requests + (j + 1) = s.requests + 1 + j by omega] at one)
          (by rwa [show s.requests + (k + 1) = s.requests + 1 + k by omega] at here)
        refine ⟨s', ?_, ?_⟩
        · rw [yes, if_pos rfl, ran]
        · rw [null, granted_null, NoNull.cons, and_assoc]
          rfl

/-- An attempt that stops at a request leaves the driver as it was before, just if the request is
one that `mtk_dma_free` can clean up after, and all addresses before it are told from none. -/
theorem startDma_idle_iff (env : Answers conf) (s : Dev) (idle : Idle conf s) (k : Nat)
    (req : Request) (point : (requests conf)[k]? = some req)
    (before : ∀ j < k, env.grants (s.requests + j) = true)
    (here : env.grants (s.requests + k) = false) :
    (mtkStartDma conf env s).1 = some req ∧
      (Idle conf (mtkStartDma conf env s).2 ↔
        harmless s.mem req = true ∧ NoNull env s.requests (requests conf) k) := by
  obtain ⟨s', ran, null⟩ := exec_point env (mtkDmaInit conf) s k req point before here
  have outcome := @mtkDmaInit_runs conf env s idle s rfl
  unfold Prog.run at outcome
  rw [ran] at outcome
  obtain ⟨sound, state⟩ := outcome
  unfold mtkStartDma
  rw [ran]
  refine ⟨rfl, ?_⟩
  dsimp only
  split_ifs at state with fine
  · have accounted : Accounted conf s' := state
    rw [accounted.idle_iff, null]
    simp only [fine, true_and, idle.1.1, amount_zero]
    rfl
  · have stuck : Stuck conf s' := state
    constructor
    · exact fun again => absurd again (stuck.not_idle sound)
    · exact fun both => absurd both.1 fine

end Points

section Failing

/-- `rt5350_data`, with one interface -/
def rt5350Dma : DmaConf :=
  { rt5350, arm64Skb with
    hwlro := false, macCount := 1, netdev := fun _ => true
    qdma := false, hasSram := false, rss := false, ringsV2 := false
    fqDmaSize := 0, txDmaSize := 2048, txdSize := 16, rxdSize := 16
    rss_ringsV2 := fun _ => by contradiction }

/-- All requests are granted but one. -/
def allBut (n : Nat) : Answers rt5350Dma := ⟨fun i => i != n, fun i => Fin.ofNat _ (i * 4096)⟩

/-- The driver before the first attempt -/
def probed : Dev :=
  ⟨⟨none, fun _ => none, fun _ => ⟨none, none, none⟩, fun _ => ⟨none, none, 0, fun _ => default⟩⟩,
    Ledger.empty, 0⟩

theorem probed_idle : Idle rt5350Dma probed := by
  refine ⟨⟨rfl, rfl⟩, ?_⟩
  intro p _
  cases p with
  | scratchRing => exact fun _ => rfl
  | txRing i => exact ⟨rfl, fun _ => rfl, rfl⟩
  | rxRing ring => exact ⟨rfl, fun _ => rfl⟩
  | scratchHead j => exact rfl

theorem sixteenth : (requests rt5350Dma)[15]? = some (Request.rxBuf (Ring.pdma 0) 1) := by
  decide +kernel

/-- The second receive buffer is refused. -/
theorem startDma_second_buffer : (mtkStartDma rt5350Dma (allBut 15) probed).1 =
      some (.rxBuf (.pdma 0) 1) ∧
    (Idle rt5350Dma (mtkStartDma rt5350Dma (allBut 15) probed).2 ↔
      harmless probed.mem (.rxBuf (.pdma 0) 1) = true ∧
        NoNull (allBut 15) probed.requests (requests rt5350Dma) 15) :=
  startDma_idle_iff (allBut 15) probed probed_idle 15 _ sixteenth
    (by decide) (by decide)

/-- The first buffer and the array are still held then. -/
theorem second_buffer_not_idle :
    (mtkStartDma rt5350Dma (allBut 15) probed).1 = some (.rxBuf (.pdma 0) 1) ∧
      ¬ Idle rt5350Dma (mtkStartDma rt5350Dma (allBut 15) probed).2 := by
  have left : (mtkStartDma rt5350Dma (allBut 15) probed).1 = some (.rxBuf (.pdma 0) 1) ∧
      (mtkStartDma rt5350Dma (allBut 15) probed).2.held.held.card = 2 := by
    decide +kernel
  refine ⟨left.1, ?_⟩
  intro idle
  have two := left.2
  rw [idle.1.1] at two
  cases two

end Failing

end Filogic.Eth.BringUp
