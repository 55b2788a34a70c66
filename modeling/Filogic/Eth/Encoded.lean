import Filogic.Eth.Decoded

/-! What the engine finds behind a call of `mtk_tx_map`: the parts of the packet in their order, as
long as no descriptor lacks one or has one written twice. -/

namespace Filogic.Eth.Mapping
open Lib

/-- The packet that is mapped, whoever maps it. -/
def sentSkb (skb : Skb) : Skb := if skb.len ≤ 40 then skb.padded else skb

section Statement

variable (c : Conf)

/-- The linear part and the pieces of the fragments, each with its address. -/
def sent (t : Call) : List Mapped :=
  (t.padded.headlen :: (pieces c t.padded.frags).map Piece.size).mapIdx fun k size =>
    ((t.maps k).getD 0, size)

/-- The last one is marked, and no other. -/
def marked : List Mapped → List Part
  | [] => []
  | [m] => [(m, true)]
  | m :: n :: rest => (m, false) :: marked (n :: rest)

/-- The descriptors from one `next_free` up to another. -/
def between (from_ to_ : Nat) : List Nat :=
  around c.txDmaSize from_ ((to_ + c.txDmaSize - from_) % c.txDmaSize)

/-- Where the parts from `k` on are written, with the descriptor before them. -/
def slotsFrom : Nat → Nat → List Nat → List (Nat × Nat)
  | _, _, [] => []
  | txd, k, i :: rest =>
      let txd := if newDesc c.toTxConf i then nextDesc c.toTxConf txd else txd
      (txd, if c.qdma then 0 else k % 2) :: slotsFrom txd (k + 1) rest

/-- Where the parts of a packet are written, by descriptor and half. -/
def slots (nextFree : Nat) (frags : List Nat) : List (Nat × Nat) :=
  (nextFree, 0) :: slotsFrom c nextFree 1 frags

/-- The engine reads the packet, and no part of it was overwritten. -/
structure Encodes (t : Call) (r : Ring) (l : Left) : Prop where
  sequence : (between c r.nextFree l.ring.nextFree).flatMap (fun d => parts c (l.ring.place d)) =
    marked (sent c t)
  once : (slots c r.nextFree (fragPieces c.toTxConf t.padded.frags)).Nodup

/-- The packet is read as it should, whatever the ring holds and wherever it is mapped. -/
def AlwaysEncodes (skb : Skb) : Prop :=
  ∀ (t : Call) (r : Ring) (l : Left), t.skb = skb → r.nextFree < c.txDmaSize →
    r.lastFree < c.txDmaSize → (∀ k a, t.maps k = some a → a.toNat < 2 ^ addrBits c) →
    mtkTxMap c t r = some l → l.answer = .ok → Encodes c t r l

/-- The linear part fits the field of its length. QDMA: the last fragment is not empty, if any is
not. PDMA: no fragment is split, and an even number of empty ones comes before each that is not
empty. -/
def Packs (skb : Skb) : Prop :=
  skb.headlen ≤ c.dmaMaxLen ∧
    if c.qdma then skb.frags.sum = 0 ∨ skb.frags.getLast? ≠ some 0
    else ∀ before f after, skb.frags = before ++ f :: after → f ≠ 0 →
      f ≤ c.dmaMaxLen ∧ before.count 0 % 2 = 0

/-- No ring of this size has the descriptors. -/
def TooLong (skb : Skb) : Prop :=
  c.txDmaSize ≤ (fragPieces c.toTxConf skb.frags).countP (newDesc c.toTxConf) + 1

end Statement

section Pieces

variable (c : Conf)

theorem fragChunks_le (i : Nat) (final : Bool) (left offset fragSize : Nat) (p : Piece)
    (member : p ∈ fragChunks c i final left offset fragSize) : p.size ≤ c.dmaMaxLen := by
  induction left generalizing offset fragSize with
  | zero => cases member
  | succ left ih =>
    unfold fragChunks at member
    split_ifs at member
    · cases member
    · rcases List.mem_cons.mp member with rfl | later
      · exact Nat.min_le_right _ _
      · exact ih _ _ later

theorem pieces_le (frags : List Nat) (p : Piece) (member : p ∈ pieces c frags) :
    p.size ≤ c.dmaMaxLen := by
  unfold pieces at member
  obtain ⟨frag, -, chunk⟩ := List.mem_flatMap.mp member
  exact fragChunks_le c _ _ _ _ _ p chunk

end Pieces

section Marks

theorem marked_snoc (l : List Mapped) (m : Mapped) :
    marked (l ++ [m]) = l.map (·, false) ++ [(m, true)] := by
  induction l with
  | nil => rfl
  | cons a l ih =>
    cases l with
    | nil => rfl
    | cons b l =>
      change (a, false) :: marked ((b :: l) ++ [m]) = _
      rw [ih]
      rfl

theorem marked_fst (l : List Mapped) : (marked l).map Prod.fst = l := by
  induction l using List.reverseRecOn with
  | nil => rfl
  | append_singleton l m _ => simp [marked_snoc, Function.comp_def]

theorem marked_snd (l : List Mapped) (some : l ≠ []) :
    (marked l).map Prod.snd = List.replicate (l.length - 1) false ++ [true] := by
  obtain ⟨front, m, rfl⟩ := List.eq_nil_or_concat l |>.resolve_left some
  simp [marked_snoc, Function.comp_def, List.map_const']

/-- A list of parts is a packet's if it has the packet's parts and their marks. -/
theorem eq_marked_iff (seq : List Part) (l : List Mapped) (some : l ≠ []) :
    seq = marked l ↔ seq.map Prod.fst = l ∧
      seq.map Prod.snd = List.replicate (l.length - 1) false ++ [true] := by
  constructor
  · rintro rfl
    exact ⟨marked_fst _, marked_snd l some⟩
  · rintro ⟨first, second⟩
    apply List.ext_getElem
    · have lengths := congrArg List.length (first.trans (marked_fst l).symm)
      rwa [List.length_map, List.length_map] at lengths
    · intro i inSeq inMarked
      have firsts : (seq.map Prod.fst)[i]? = ((marked l).map Prod.fst)[i]? := by
        rw [first, marked_fst]
      have seconds : (seq.map Prod.snd)[i]? = ((marked l).map Prod.snd)[i]? := by
        rw [second, marked_snd l some]
      rw [List.getElem?_map, List.getElem?_map, List.getElem?_eq_getElem inSeq,
        List.getElem?_eq_getElem inMarked] at firsts seconds
      exact Prod.ext (Option.some.inj firsts) (Option.some.inj seconds)

/-- The addresses and the sizes of the pieces. -/
def piecesSent (t : Call) (ps : List Piece) : List Mapped :=
  ps.mapIdx fun j p => ((t.maps (j + 1)).getD 0, p.size)

theorem piecesSent_snoc (t : Call) (ps : List Piece) (p : Piece) : piecesSent t (ps ++ [p]) =
    piecesSent t ps ++ [((t.maps (ps.length + 1)).getD 0, p.size)] := by
  rw [piecesSent, List.mapIdx_concat]
  rfl

theorem sent_eq (c : Conf) (t : Call) : sent c t =
    ((t.maps 0).getD 0, t.padded.headlen) :: piecesSent t (pieces c t.padded.frags) := by
  rw [sent, List.mapIdx_cons, piecesSent]
  congr 1
  apply List.ext_getElem
  · simp
  · simp

end Marks

section Flags

variable (c : Conf)

theorem fragChunks_unmarked (i left offset fragSize : Nat) (p : Piece)
    (member : p ∈ fragChunks c i false left offset fragSize) : p.last = false := by
  induction left generalizing offset fragSize with
  | zero => cases member
  | succ left ih =>
    unfold fragChunks at member
    split_ifs at member
    · cases member
    · rcases List.mem_cons.mp member with rfl | later
      · rfl
      · exact ih _ _ later

theorem fragChunks_empty (i left offset : Nat) (final : Bool) :
    fragChunks c i final left offset 0 = [] := by
  cases left <;> simp [fragChunks]

/-- The last piece of the last fragment is marked. -/
theorem fragChunks_marked (i left offset fragSize : Nat) (enough : fragSize ≤ left)
    (some : fragSize ≠ 0) : ∃ front p, fragChunks c i true left offset fragSize = front ++ [p] ∧
      p.last = true ∧ ∀ q ∈ front, q.last = false := by
  have positive := c.dmaMaxLen_pos
  induction left generalizing offset fragSize with
  | zero => omega
  | succ left ih =>
    unfold fragChunks
    rw [if_neg some]
    dsimp only
    by_cases whole : fragSize ≤ c.dmaMaxLen
    · rw [Nat.min_eq_left whole, Nat.sub_self, fragChunks_empty]
      exact ⟨[], _, rfl, rfl, fun q member => by cases member⟩
    · rw [Nat.min_eq_right (Nat.le_of_not_le whole)]
      obtain ⟨front, p, split, last, others⟩ := ih (offset + c.dmaMaxLen)
        (fragSize - c.dmaMaxLen) (by omega) (by omega)
      refine ⟨_ :: front, p, congrArg (_ :: ·) split, last, ?_⟩
      intro q member
      rcases List.mem_cons.mp member with rfl | later
      · simp [show fragSize - c.dmaMaxLen ≠ 0 by omega]
      · exact others q later

/-- The pieces of all fragments but the last, and those of the last. -/
theorem pieces_snoc (frags : List Nat) (f : Nat) : ∃ front,
    pieces c (frags ++ [f]) = front ++ fragChunks c frags.length true f 0 f ∧
      ∀ q ∈ front, q.last = false := by
  refine ⟨frags.zipIdx.flatMap fun frag =>
    fragChunks c frag.2 (frag.2 = (frags ++ [f]).length - 1) frag.1 0 frag.1, ?_, ?_⟩
  · rw [pieces, List.zipIdx_append, List.flatMap_append]
    simp
  · intro q member
    obtain ⟨frag, inside, chunk⟩ := List.mem_flatMap.mp member
    have below := List.snd_lt_of_mem_zipIdx inside
    have notLast : decide (frag.2 = (frags ++ [f]).length - 1) = false := by
      rw [List.length_append, List.length_singleton]
      exact decide_eq_false (by omega)
    rw [notLast] at chunk
    exact fragChunks_unmarked c _ _ _ _ q chunk

theorem pieces_none (frags : List Nat) (none : frags.sum = 0) : pieces c frags = [] := by
  rw [pieces, List.flatMap_eq_nil_iff]
  intro frag member
  have zero : frag.1 = 0 := List.sum_eq_zero_iff.mp none _ (List.fst_mem_of_mem_zipIdx member)
  rw [zero, fragChunks_empty]

/-- Exactly the last piece is marked, if the last fragment is not empty. -/
theorem flags_iff (frags : List Nat) :
    decide (frags.sum = 0) :: (pieces c frags).map Piece.last =
        List.replicate (pieces c frags).length false ++ [true] ↔
      frags.sum = 0 ∨ frags.getLast? ≠ some 0 := by
  by_cases none : frags.sum = 0
  · simp [none, pieces_none c frags none]
  · rw [decide_eq_false none]
    rcases List.eq_nil_or_concat frags with rfl | ⟨init, f, rfl⟩
    · exact absurd rfl none
    · rw [List.concat_eq_append] at none ⊢
      obtain ⟨front, split, unmarked⟩ := pieces_snoc c init f
      have falses : front.map Piece.last = List.replicate front.length false :=
        List.eq_replicate_iff.mpr ⟨List.length_map _, fun b member => by
          obtain ⟨q, inside, rfl⟩ := List.mem_map.mp member
          exact unmarked q inside⟩
      rw [split]
      by_cases empty : f = 0
      · refine iff_of_false ?_ (by simpa [empty] using none)
        intro same
        have mem : true ∈
            false :: (front ++ fragChunks c init.length true f 0 f).map Piece.last := by
          rw [same]
          simp
        rw [empty, fragChunks_empty, List.append_nil, falses] at mem
        simp at mem
      · refine iff_of_true ?_ (by simp [empty])
        obtain ⟨chunks, p, chunked, last, others⟩ :=
          fragChunks_marked c init.length f 0 f (Nat.le_refl f) empty
        have falses' : chunks.map Piece.last = List.replicate chunks.length false :=
          List.eq_replicate_iff.mpr ⟨List.length_map _, fun b member => by
            obtain ⟨q, inside, rfl⟩ := List.mem_map.mp member
            exact others q inside⟩
        rw [chunked, List.map_append, List.map_append, falses, falses', List.map_singleton, last,
          List.length_append, List.length_append, List.length_singleton, ← Nat.add_assoc,
          ← List.append_assoc, List.replicate_append_replicate, List.replicate_succ]
        rfl

end Flags

section Runs

variable {c : Conf} {t : Call} {r : Ring} {v w : Vars} {more : Nat}

/-- A piece that is mapped. -/
theorem mapPiece_ok {piece : Piece} (ok : mapPiece c t v piece = .ok w) :
    ∃ addr, t.maps v.k = some addr ∧
      (newDesc c.toTxConf piece.frag = true → nextDesc c.toTxConf v.txd ≠ v.ring.lastFree) ∧
      w = pieceDone c t v piece
        (if newDesc c.toTxConf piece.frag then nextDesc c.toTxConf v.txd else v.txd) addr := by
  unfold mapPiece at ok
  dsimp only at ok
  by_cases full : newDesc c.toTxConf piece.frag = true ∧
      (if newDesc c.toTxConf piece.frag then nextDesc c.toTxConf v.txd else v.txd) = v.ring.lastFree
  · rw [if_pos full] at ok
    cases ok
  · rw [if_neg full] at ok
    cases answer : t.maps v.k with
    | none =>
      rw [answer] at ok
      cases ok
    | some addr =>
      rw [answer] at ok
      cases ok
      refine ⟨addr, rfl, fun new last => full ⟨new, ?_⟩, rfl⟩
      rwa [if_pos new]

theorem fold_append {ps qs : List Piece} (ok : (ps ++ qs).foldlM (mapPiece c t) v = .ok w) :
    ∃ u, ps.foldlM (mapPiece c t) v = .ok u ∧ qs.foldlM (mapPiece c t) u = .ok w := by
  rw [List.foldlM_append] at ok
  cases front : ps.foldlM (mapPiece c t) v with
  | error u =>
    rw [front] at ok
    cases ok
  | ok u =>
    rw [front] at ok
    exact ⟨u, rfl, ok⟩

theorem fold_cons {piece : Piece} {ps : List Piece}
    (ok : (piece :: ps).foldlM (mapPiece c t) v = .ok w) :
    ∃ u, mapPiece c t v piece = .ok u ∧ ps.foldlM (mapPiece c t) u = .ok w := by
  rw [List.foldlM_cons] at ok
  cases first : mapPiece c t v piece with
  | error u =>
    rw [first] at ok
    cases ok
  | ok u =>
    rw [first] at ok
    exact ⟨u, rfl, ok⟩

/-- What holds at the start of the loop and is kept by each piece that is mapped holds at the end. -/
theorem fold_ok (P : List Piece → Vars → Prop) (ps done : List Piece)
    (step : ∀ done piece v w, piece ∈ ps → P done v → mapPiece c t v piece = .ok w →
      P (done ++ [piece]) w)
    (start : P done v) (ok : ps.foldlM (mapPiece c t) v = .ok w) : P (done ++ ps) w := by
  induction ps generalizing done v with
  | nil =>
    cases ok
    rwa [List.append_nil]
  | cons piece ps ih =>
    obtain ⟨u, mapped, rest⟩ := fold_cons ok
    have next := ih (done ++ [piece])
      (fun done piece v w member => step done piece v w (List.mem_cons_of_mem _ member))
      (step done piece v u List.mem_cons_self start mapped) rest
    rwa [List.append_assoc] at next

/-- Where a call is after some pieces. -/
structure RunAt (c : Conf) (r : Ring) (done : List Piece) (v : Vars) : Prop where
  at' : MapAt c r v ((done.map Piece.frag).countP (newDesc c.toTxConf))
  k : v.k = done.length + 1

theorem RunAt.next {done : List Piece} {piece : Piece} (run : RunAt c r done v) (open_ : Open c r)
    (some : 0 < piece.size) (ok : mapPiece c t v piece = .ok w) :
    RunAt c r (done ++ [piece]) w := by
  obtain ⟨addr, -, notLast, rfl⟩ := mapPiece_ok ok
  refine ⟨?_, ?_⟩
  · rw [List.map_append, List.countP_append, List.map_singleton, List.countP_singleton]
    cases new : newDesc c.toTxConf piece.frag with
    | true =>
      have room : spare c r - (done.map Piece.frag).countP (newDesc c.toTxConf) ≠ 0 :=
        fun none => notLast new ((run.at'.full_iff open_).mpr none)
      exact (run.at'.new open_ piece addr new room some).1
    | false => exact (run.at'.old open_ piece addr new some).1
  · rw [List.length_append, List.length_singleton]
    exact congrArg (· + 1) run.k

theorem runAt_head {a : UInt64} (open_ : Open c r) : RunAt c r [] (headVars c t a r) :=
  ⟨headVars_at open_, rfl⟩

theorem place_self (piece : Piece) (txd : Nat) (addr : UInt64) :
    (pieceDone c t v piece txd addr).ring.place txd =
      piecePlace c t piece v.k addr (v.ring.place txd) := Function.update_self ..

theorem place_other (piece : Piece) (txd d : Nat) (addr : UInt64) (apart : d ≠ txd) :
    (pieceDone c t v piece txd addr).ring.place d = v.ring.place d :=
  Function.update_of_ne apart _ _

/-- A call that answers that all is well has mapped every piece. -/
theorem mtkTxMap_ok {l : Left} (call : mtkTxMap c t r = some l) (ok : l.answer = .ok) :
    r.nextFree ≠ r.lastFree ∧ ∃ a v, t.maps 0 = some a ∧
      (pieces c t.padded.frags).foldlM (mapPiece c t) (headVars c t a r) = .ok v ∧
      l = mapDone c t v := by
  unfold mtkTxMap at call
  dsimp only at call
  split_ifs at call with pad full
  · cases call
    cases ok
  · cases call
    cases ok
  · refine ⟨full, ?_⟩
    cases answer : t.maps 0 with
    | none =>
      rw [answer] at call
      cases call
      cases ok
    | some a =>
      rw [answer] at call
      cases mapped : (pieces c t.padded.frags).foldlM (mapPiece c t) (headVars c t a r) with
      | error u =>
        change mapEnd c t ((pieces c t.padded.frags).foldlM (mapPiece c t) (headVars c t a r)) = _
          at call
        rw [mapped] at call
        have fails := errDma_fails u l call
        rw [ok] at fails
        cases fails
      | ok v =>
        change mapEnd c t ((pieces c t.padded.frags).foldlM (mapPiece c t) (headVars c t a r)) = _
          at call
        rw [mapped] at call
        exact ⟨a, v, rfl, mapped, (Option.some.inj call).symm⟩

/-- With room and with answers from the DMA layer, every piece is mapped. -/
theorem fold_succeeds (open_ : Open c r) (answers : ∀ k, (t.maps k).isSome) (ps : List Piece)
    (some : ∀ p ∈ ps, 0 < p.size) (done : List Piece) (run : RunAt c r done v)
    (room : ((done ++ ps).map Piece.frag).countP (newDesc c.toTxConf) ≤ spare c r) :
    ∃ w, ps.foldlM (mapPiece c t) v = .ok w := by
  induction ps generalizing done v with
  | nil => exact ⟨v, rfl⟩
  | cons piece ps ih =>
    obtain ⟨addr, answer⟩ := Option.isSome_iff_exists.mp (answers v.k)
    have fits : newDesc c.toTxConf piece.frag = true →
        nextDesc c.toTxConf v.txd ≠ v.ring.lastFree := by
      intro new last
      have none := (run.at'.full_iff open_).mp last
      rw [List.map_append, List.countP_append, List.map_cons, List.countP_cons_of_pos new] at room
      omega
    have mapped : mapPiece c t v piece = .ok (pieceDone c t v piece
        (if newDesc c.toTxConf piece.frag then nextDesc c.toTxConf v.txd else v.txd) addr) := by
      unfold mapPiece
      dsimp only
      rw [if_neg, answer]
      rintro ⟨new, last⟩
      rw [if_pos new] at last
      exact fits new last
    have next := run.next open_ (some piece List.mem_cons_self) mapped
    rw [List.append_cons] at room
    obtain ⟨w, rest⟩ := ih (fun p member => some p (List.mem_cons_of_mem _ member)) _ next room
    refine ⟨w, ?_⟩
    rw [List.foldlM_cons, mapped]
    exact rest

/-- The descriptors of the call. -/
theorem between_eq {done : List Piece} (run : RunAt c r done v) (open_ : Open c r) :
    between c r.nextFree (mapDone c t v).ring.nextFree =
      around c.txDmaSize r.nextFree ((done.map Piece.frag).countP (newDesc c.toTxConf) + 1) := by
  have bound := open_.spare_lt
  have room := run.at'.room
  have next : (mapDone c t v).ring.nextFree = nextDesc c.toTxConf v.txd := rfl
  have below := open_.nextFree
  rw [next, run.at'.next, between]
  generalize (done.map Piece.frag).countP (newDesc c.toTxConf) = more at *
  congr 1
  rcases Nat.lt_or_ge (r.nextFree + (more + 1)) c.txDmaSize with short | wraps
  · rw [Nat.mod_eq_of_lt short, show r.nextFree + (more + 1) + c.txDmaSize - r.nextFree =
      more + 1 + c.txDmaSize by omega, Nat.add_mod_right, Nat.mod_eq_of_lt (by omega)]
  · have around_ : (r.nextFree + (more + 1)) % c.txDmaSize =
        r.nextFree + (more + 1) - c.txDmaSize := by
      rw [Nat.mod_eq_sub_mod wraps, Nat.mod_eq_of_lt (by omega)]
    rw [around_, Nat.mod_eq_of_lt (by omega)]
    omega

end Runs

section Qdma

variable {c : Conf} {t : Call} {r : Ring} {v w : Vars}

/-- What QDMA reads: the flag of a part is set as the part is mapped. -/
def laid (c : Conf) (t : Call) (done : List Piece) : List Part :=
  (((t.maps 0).getD 0, lenField c t.padded.headlen), decide (t.padded.frags.sum = 0)) ::
    done.mapIdx fun j p => (((t.maps (j + 1)).getD 0, p.size), p.last)

theorem laid_snoc (done : List Piece) (p : Piece) : laid c t (done ++ [p]) =
    laid c t done ++ [(((t.maps (done.length + 1)).getD 0, p.size), p.last)] := by
  rw [laid, List.mapIdx_concat]
  rfl

theorem newDesc_of_qdma (qdma : c.qdma = true) (i : Nat) : newDesc c.toTxConf i = true := by
  unfold newDesc
  rw [qdma]
  rfl

theorem countP_qdma (qdma : c.qdma = true) (l : List Nat) :
    l.countP (newDesc c.toTxConf) = l.length :=
  List.countP_eq_length.mpr fun i _ => newDesc_of_qdma qdma i

theorem lenField_le {size : Nat} (small : size ≤ c.dmaMaxLen) : lenField c size = size :=
  Nat.mod_eq_of_lt (by omega)

/-- The descriptors read as the parts that they hold. -/
structure QdmaAt (c : Conf) (t : Call) (r : Ring) (done : List Piece) (v : Vars) : Prop where
  run : RunAt c r done v
  read : (around c.txDmaSize r.nextFree (done.length + 1)).map
    (fun d => qdmaPart c (v.ring.place d).dma) = laid c t done

theorem QdmaAt.head (soc : c.Soc) (qdma : c.qdma = true) (open_ : Open c r) {a : UInt64}
    (answer : t.maps 0 = some a) (fits : a.toNat < 2 ^ addrBits c) :
    QdmaAt c t r [] (headVars c t a r) := by
  refine ⟨runAt_head open_, ?_⟩
  have here : (around c.txDmaSize r.nextFree 1) = [r.nextFree] :=
    congrArg (fun d => [d]) (Nat.mod_eq_of_lt open_.nextFree)
  have dma : ∀ (addr : UInt64) (size idx : Nat) (p : Place),
      (setupTxBuf c addr size idx p).dma = p.dma := by
    intro addr size idx p
    rw [setupTxBuf, if_pos qdma]
  rw [List.length_nil, Nat.zero_add, here, List.map_singleton, headVars_place, headPlace, dma]
  dsimp only
  rw [qdmaPart_setDmaDesc soc qdma t _ _ fits, laid, answer]
  rfl

theorem QdmaAt.next (soc : c.Soc) (qdma : c.qdma = true) (open_ : Open c r)
    (fits : ∀ k a, t.maps k = some a → a.toNat < 2 ^ addrBits c) {done : List Piece}
    {piece : Piece} (some : 0 < piece.size) (small : piece.size ≤ c.dmaMaxLen)
    (at' : QdmaAt c t r done v) (ok : mapPiece c t v piece = .ok w) :
    QdmaAt c t r (done ++ [piece]) w := by
  have run := at'.run.next open_ some ok
  refine ⟨run, ?_⟩
  obtain ⟨addr, answer, -, rfl⟩ := mapPiece_ok ok
  rw [if_pos (newDesc_of_qdma qdma piece.frag)] at run ⊢
  have count := countP_qdma qdma (done.map Piece.frag)
  rw [List.length_map] at count
  have next : nextDesc c.toTxConf v.txd = (r.nextFree + (done.length + 1)) % c.txDmaSize := by
    rw [at'.run.at'.next, count]
  have room := run.at'.room
  rw [countP_qdma qdma, List.length_map, List.length_append, List.length_singleton] at room
  have bound := open_.spare_lt
  have dma : ∀ (addr : UInt64) (size idx : Nat) (p : Place),
      (setupTxBuf c addr size idx p).dma = p.dma := by
    intro addr size idx p
    rw [setupTxBuf, if_pos qdma]
  rw [List.length_append, List.length_singleton, around.succ, List.map_append, laid_snoc,
    ← at'.read]
  congr 1
  · apply List.map_congr_left
    intro d member
    rw [place_other piece _ d addr]
    rintro rfl
    rw [next, around.mem_iff _ _ _ _ (by omega) (by omega)] at member
    exact lt_irrefl _ member
  · rw [List.map_singleton, ← next, place_self, piecePlace, dma]
    dsimp only
    rw [qdmaPart_setDmaDesc soc qdma t _ _ (fits _ _ answer)]
    rw [at'.run.k] at answer
    rw [answer, pieceInfo]
    dsimp only
    rw [lenField_le small]
    rfl

/-- What QDMA reads behind a call. -/
theorem qdma_sequence (soc : c.Soc) (qdma : c.qdma = true) (open_ : Open c r)
    (fits : ∀ k a, t.maps k = some a → a.toNat < 2 ^ addrBits c) {a : UInt64}
    (answer : t.maps 0 = some a)
    (ok : (pieces c t.padded.frags).foldlM (mapPiece c t) (headVars c t a r) = .ok v) :
    (between c r.nextFree (mapDone c t v).ring.nextFree).flatMap
      (fun d => parts c ((mapDone c t v).ring.place d)) = laid c t (pieces c t.padded.frags) := by
  have at' := fold_ok (QdmaAt c t r) (pieces c t.padded.frags) []
    (fun done piece v w member at' ok => at'.next soc qdma open_ fits
      (pieces_pos c _ piece member) (pieces_le c _ piece member) ok)
    (QdmaAt.head soc qdma open_ answer (fits 0 a answer)) ok
  rw [List.nil_append] at at'
  rw [between_eq at'.run open_, countP_qdma qdma, List.length_map, ← at'.read,
    List.map_eq_flatMap]
  apply List.flatMap_congr
  intro d _
  have dma : ((mapDone c t v).ring.place d).dma = (v.ring.place d).dma := by
    unfold mapDone
    dsimp only
    rw [if_pos qdma]
    by_cases here : d = v.itxd
    · simp [Ring.modify, here]
    · simp [Ring.modify, here]
  rw [parts, if_pos qdma, dma]

theorem lenField_eq_iff (size : Nat) : lenField c size = size ↔ size ≤ c.dmaMaxLen := by
  constructor
  · intro same
    have below : size % (c.dmaMaxLen + 1) < c.dmaMaxLen + 1 := Nat.mod_lt _ (Nat.succ_pos _)
    unfold lenField at same
    omega
  · exact lenField_le

/-- The parts that QDMA reads are those of the packet. -/
theorem laid_iff : laid c t (pieces c t.padded.frags) = marked (sent c t) ↔
    t.padded.headlen ≤ c.dmaMaxLen ∧
      (t.padded.frags.sum = 0 ∨ t.padded.frags.getLast? ≠ some 0) := by
  have first : (laid c t (pieces c t.padded.frags)).map Prod.fst =
      ((t.maps 0).getD 0, lenField c t.padded.headlen) ::
        piecesSent t (pieces c t.padded.frags) := by
    rw [laid, List.map_cons, piecesSent]
    congr 1
    apply List.ext_getElem
    · simp
    · simp
  have second : (laid c t (pieces c t.padded.frags)).map Prod.snd =
      decide (t.padded.frags.sum = 0) :: (pieces c t.padded.frags).map Piece.last := by
    rw [laid, List.map_cons]
    congr 1
    apply List.ext_getElem
    · simp
    · simp
  have length : (sent c t).length - 1 = (pieces c t.padded.frags).length := by
    rw [sent_eq, List.length_cons, piecesSent, List.length_mapIdx, Nat.add_sub_cancel]
  rw [eq_marked_iff _ _ (by rw [sent_eq]; exact List.cons_ne_nil _ _), first, second, length,
    flags_iff, sent_eq, ← lenField_eq_iff]
  simp

/-- QDMA has a descriptor for each part. -/
theorem slots_qdma (qdma : c.qdma = true) (nextFree : Nat) (below : nextFree < c.txDmaSize)
    (frags : List Nat) (room : frags.length < c.txDmaSize) :
    (slots c nextFree frags).Nodup := by
  have places : ∀ (l : List Nat) (txd k : Nat), (slotsFrom c txd k l).map Prod.fst =
      around c.txDmaSize (txd + 1) l.length := by
    intro l
    induction l with
    | nil => exact fun txd k => rfl
    | cons i l ih =>
      intro txd k
      rw [slotsFrom, List.map_cons, ih, List.length_cons, around.cons,
        newDesc_of_qdma qdma, if_pos rfl]
      congr 1
      apply around.congr
      rw [nextDesc, Nat.mod_add_mod]
  apply List.Nodup.of_map Prod.fst
  rw [slots, List.map_cons, places]
  have nodup := around.nodup c.txDmaSize nextFree (frags.length + 1) room
  rwa [around.cons, Nat.mod_eq_of_lt below] at nodup

end Qdma

section Pdma

variable {c : Conf} {t : Call} {r : Ring} {v w : Vars}

/-- Each piece comes from a fragment whose index has the parity of the piece's own. -/
def Paired (frags : List Nat) : Prop := ∀ j (inside : j < frags.length), frags[j] % 2 = j % 2

theorem newDesc_of_pdma (pdma : c.qdma = false) (i : Nat) :
    newDesc c.toTxConf i = decide (i % 2 = 1) := by
  unfold newDesc
  rw [pdma]
  exact Bool.false_or _

theorem Paired.snoc (frags : List Nat) (i : Nat) :
    Paired (frags ++ [i]) ↔ Paired frags ∧ i % 2 = frags.length % 2 := by
  constructor
  · intro all
    constructor
    · intro j inside
      have := all j (by rw [List.length_append]; omega)
      rwa [List.getElem_append_left inside] at this
    · have := all frags.length (by simp)
      rwa [List.getElem_concat_length rfl] at this
  · rintro ⟨all, last⟩ j inside
    rw [List.length_append, List.length_singleton] at inside
    by_cases before : j < frags.length
    · rw [List.getElem_append_left before]
      exact all j before
    · obtain rfl : j = frags.length := by omega
      rw [List.getElem_concat_length rfl]
      exact last

/-- Two pieces to a descriptor. -/
theorem Paired.count (pdma : c.qdma = false) (frags : List Nat) (paired : Paired frags) :
    frags.countP (newDesc c.toTxConf) = frags.length / 2 := by
  induction frags using List.reverseRecOn with
  | nil => rfl
  | append_singleton frags i ih =>
    obtain ⟨front, last⟩ := (Paired.snoc frags i).mp paired
    rw [List.countP_append, ih front, List.countP_singleton, newDesc_of_pdma pdma, last,
      List.length_append, List.length_singleton]
    by_cases odd : frags.length % 2 = 1
    · rw [decide_eq_true odd, if_pos rfl]
      omega
    · rw [decide_eq_false odd, if_neg Bool.false_ne_true]
      omega

/-- The two halves of a descriptor. -/
def halves (c : Conf) (v : Vars) (d : Nat) : List Part :=
  [firstPart c (v.ring.place d).dmaPdma, secondPart c (v.ring.place d).dmaPdma]

/-- The parts that the PDMA is given, the last one not marked yet. -/
def filled (c : Conf) (t : Call) (done : List Piece) : List Part :=
  ((((t.maps 0).getD 0, lenField c t.padded.headlen)) :: piecesSent t done).map (·, false)

theorem filled_snoc (done : List Piece) (p : Piece) : filled c t (done ++ [p]) =
    filled c t done ++ [(((t.maps (done.length + 1)).getD 0, p.size), false)] := by
  rw [filled, piecesSent_snoc, ← List.cons_append, List.map_append]
  rfl

/-- Two parts to a descriptor: an even number of pieces leaves half of the last one blank. -/
structure PdmaAt (c : Conf) (t : Call) (r : Ring) (done : List Piece) (v : Vars) : Prop where
  run : RunAt c r done v
  paired : Paired (done.map Piece.frag)
  read : (around c.txDmaSize r.nextFree (done.length / 2)).flatMap (halves c v) ++
    (if done.length % 2 = 0 then [firstPart c (v.ring.place v.txd).dmaPdma] else halves c v v.txd) =
      filled c t done
  blank : done.length % 2 = 0 → HalfBlank c (v.ring.place v.txd).dmaPdma ∧
    (v.ring.place v.txd).dmaPdma.txd4 = (r.place v.txd).dmaPdma.txd4

theorem PdmaAt.at' (soc : PdmaAt c t r done v) (pdma : c.qdma = false) :
    MapAt c r v (done.length / 2) := by
  have count := Paired.count pdma _ soc.paired
  rw [List.length_map] at count
  rw [← count]
  exact soc.run.at'

theorem PdmaAt.head (soc : c.Soc) (pdma : c.qdma = false) (open_ : Open c r) {a : UInt64}
    (answer : t.maps 0 = some a) (fits : a.toNat < 2 ^ addrBits c) :
    PdmaAt c t r [] (headVars c t a r) := by
  have place := headVars_place (c := c) (t := t) (r := r) (a := a)
  have txd : (headVars c t a r).txd = r.nextFree := rfl
  refine ⟨runAt_head open_, fun j inside => absurd inside (Nat.not_lt_zero j), ?_, fun _ => ?_⟩
  · change [firstPart c ((headVars c t a r).ring.place r.nextFree).dmaPdma] = _
    rw [place, headPlace]
    dsimp only
    rw [firstPart_even soc pdma rfl fits, filled, answer]
    rfl
  · rw [txd, place, headPlace]
    dsimp only
    refine ⟨halfBlank_even soc pdma rfl, ?_⟩
    rw [setupTxBuf_even pdma rfl]
    exact (setDmaDesc_pdma pdma t _ _).2.2.2

/-- What a piece that comes second leaves of its descriptor. -/
theorem piecePlace_odd (soc : c.Soc) (pdma : c.qdma = false) (piece : Piece) (k : Nat)
    (addr : UInt64) (p : Place) (odd : k % 2 = 1) (blank : HalfBlank c p.dmaPdma)
    (small : piece.size ≤ c.dmaMaxLen) (fits : addr.toNat < 2 ^ addrBits c) :
    firstPart c (piecePlace c t piece k addr p).dmaPdma = firstPart c p.dmaPdma ∧
      secondPart c (piecePlace c t piece k addr p).dmaPdma = ((addr, piece.size), false) := by
  obtain ⟨first, -, txd2, -⟩ := setDmaDesc_pdma pdma t (pieceInfo t piece addr) p
  rw [piecePlace]
  dsimp only
  refine ⟨(firstPart_odd soc pdma odd).trans first, ?_⟩
  rw [secondPart_odd soc pdma odd (fun v1 => by rw [← blank v1, ← txd2]) fits, lenField_le small]

/-- What a piece that comes first leaves. -/
theorem piecePlace_even (soc : c.Soc) (pdma : c.qdma = false) (piece : Piece) (k : Nat)
    (addr : UInt64) (p : Place) (even : k % 2 = 0) (small : piece.size ≤ c.dmaMaxLen)
    (fits : addr.toNat < 2 ^ addrBits c) :
    firstPart c (piecePlace c t piece k addr p).dmaPdma = ((addr, piece.size), false) ∧
      HalfBlank c (piecePlace c t piece k addr p).dmaPdma ∧
      (piecePlace c t piece k addr p).dmaPdma.txd4 = p.dmaPdma.txd4 := by
  obtain ⟨-, -, -, txd4⟩ := setDmaDesc_pdma pdma t (pieceInfo t piece addr) p
  rw [piecePlace]
  dsimp only
  refine ⟨?_, halfBlank_even soc pdma even, ?_⟩
  · rw [firstPart_even soc pdma even fits, lenField_le small]
  · rw [setupTxBuf_even pdma even]
    exact txd4

theorem halves_other {u : Vars} {l : List Nat} (same : ∀ d ∈ l, u.ring.place d = v.ring.place d) :
    l.flatMap (halves c u) = l.flatMap (halves c v) := by
  apply List.flatMap_congr
  intro d member
  rw [halves, halves, same d member]

theorem PdmaAt.next (soc : c.Soc) (pdma : c.qdma = false) (open_ : Open c r)
    (fits : ∀ k a, t.maps k = some a → a.toNat < 2 ^ addrBits c) {done : List Piece}
    {piece : Piece} (some : 0 < piece.size) (small : piece.size ≤ c.dmaMaxLen)
    (at' : PdmaAt c t r done v) (paired : piece.frag % 2 = done.length % 2)
    (ok : mapPiece c t v piece = .ok w) : PdmaAt c t r (done ++ [piece]) w := by
  have run := at'.run.next open_ some ok
  have paired' : Paired ((done ++ [piece]).map Piece.frag) := by
    rw [List.map_append, List.map_singleton, Paired.snoc, List.length_map]
    exact ⟨at'.paired, paired⟩
  have map := at'.at' pdma
  have bound := open_.spare_lt
  have room := map.room
  have read := at'.read
  have length : (done ++ [piece]).length = done.length + 1 := by
    rw [List.length_append, List.length_singleton]
  obtain ⟨addr, answer, -, rfl⟩ := mapPiece_ok ok
  have here := fits _ _ answer
  rw [at'.run.k] at answer
  have new := newDesc_of_pdma pdma piece.frag
  rcases Nat.mod_two_eq_zero_or_one done.length with even | odd
  · -- the second half of the descriptor
    rw [new, paired, even, decide_eq_false (by decide), if_neg Bool.false_ne_true] at run ⊢
    obtain ⟨first, second⟩ := piecePlace_odd (t := t) soc pdma piece v.k addr (v.ring.place v.txd)
      (by rw [at'.run.k]; omega) (at'.blank even).1 small here
    refine ⟨run, paired', ?_, fun again => ?_⟩
    · have before := (map.before open_).2
      rw [length, show (done.length + 1) / 2 = done.length / 2 by omega, if_neg (by omega),
        filled_snoc, ← read, if_pos even, answer, Option.getD_some, List.append_assoc]
      congr 1
      · apply halves_other
        intro d member
        exact place_other piece _ d addr (fun same => before (same ▸ member))
      · change [firstPart c ((pieceDone c t v piece v.txd addr).ring.place v.txd).dmaPdma,
          secondPart c ((pieceDone c t v piece v.txd addr).ring.place v.txd).dmaPdma] = _
        rw [place_self, first, second]
        rfl
    · rw [length] at again
      omega
  · -- the first half of the next one
    rw [new, paired, odd, decide_eq_true rfl, if_pos rfl] at run ⊢
    have next : nextDesc c.toTxConf v.txd =
        (r.nextFree + (done.length / 2 + 1)) % c.txDmaSize := map.next
    have more := run.at'.room
    rw [Paired.count pdma _ paired', List.length_map, length] at more
    have fresh : nextDesc c.toTxConf v.txd ∉ v.taken := by
      rw [next, map.taken]
      intro member
      exact lt_irrefl _ ((around.mem_iff _ _ _ _ (by omega) (by omega)).mp member)
    obtain ⟨first, blank, txd4⟩ := piecePlace_even (t := t) soc pdma piece v.k addr
      (v.ring.place (nextDesc c.toTxConf v.txd)) (by rw [at'.run.k]; omega) small here
    refine ⟨run, paired', ?_, fun _ => ?_⟩
    · rw [length, show (done.length + 1) / 2 = done.length / 2 + 1 by omega, if_pos (by omega),
        filled_snoc, ← read, if_neg (by omega), answer, Option.getD_some, around.succ,
        List.flatMap_append, List.flatMap_singleton, ← map.txd]
      congr 1
      · congr 1
        · apply halves_other
          intro d member
          refine place_other piece _ d addr fun same => fresh ?_
          rw [(map.before open_).1, ← same]
          exact List.mem_append_left _ member
        · have apart : v.txd ≠ nextDesc c.toTxConf v.txd := by
            intro same
            apply fresh
            rw [← same, (map.before open_).1]
            simp
          rw [halves, halves, place_other piece _ v.txd addr apart]
      · change [firstPart c ((pieceDone c t v piece (nextDesc c.toTxConf v.txd) addr).ring.place
          (nextDesc c.toTxConf v.txd)).dmaPdma] = _
        rw [place_self, first]
    · change HalfBlank c ((pieceDone c t v piece (nextDesc c.toTxConf v.txd) addr).ring.place
          (nextDesc c.toTxConf v.txd)).dmaPdma ∧ ((pieceDone c t v piece
            (nextDesc c.toTxConf v.txd) addr).ring.place (nextDesc c.toTxConf v.txd)).dmaPdma.txd4 =
          _
      rw [place_self]
      exact ⟨blank, txd4.trans (congrArg (fun p : Place => p.dmaPdma.txd4)
        (map.others _ fresh))⟩

theorem filled_plain (done : List Piece) (x : Part) (member : x ∈ filled c t done) :
    x.2 = false := by
  obtain ⟨m, -, rfl⟩ := List.mem_map.mp member
  rfl

theorem marked_filled (front : List Part) (x : Part) (plain : ∀ y ∈ front, y.2 = false) :
    marked ((front ++ [x]).map Prod.fst) = front ++ [(x.1, true)] := by
  rw [List.map_append, List.map_singleton, marked_snoc, List.map_map]
  congr 1
  refine (List.map_congr_left fun y member => ?_).trans (List.map_id front)
  exact Prod.ext rfl (plain y member).symm

theorem modify_self (r : Ring) (d : Nat) (f : Place → Place) :
    (r.modify d f).place d = f (r.place d) := Function.update_self ..

theorem modify_other (r : Ring) (d e : Nat) (f : Place → Place) (apart : e ≠ d) :
    (r.modify d f).place e = r.place e := Function.update_of_ne apart _ _

/-- The end of the call marks the last descriptor. -/
theorem mapDone_dmaPdma (pdma : c.qdma = false) (v : Vars) (d : Nat) :
    ((mapDone c t v).ring.place d).dmaPdma =
      if d = v.txd then lastPart c v.k (v.ring.place d).dmaPdma else (v.ring.place d).dmaPdma := by
  have keep : ∀ (f : DmaBuf → DmaBuf) (e : Nat),
      ((v.ring.modify v.itxd fun p => { p with buf := f p.buf }).place e).dmaPdma =
        (v.ring.place e).dmaPdma := by
    intro f e
    by_cases head : e = v.itxd
    · rw [head, modify_self]
    · rw [modify_other _ _ _ _ head]
  unfold mapDone
  dsimp only
  rw [pdma, if_neg Bool.false_ne_true]
  by_cases last : d = v.txd
  · rw [if_pos last, last, modify_self]
    dsimp only
    rw [keep fun b => { b with skb := .skb t.padded }]
  · rw [if_neg last, modify_other _ _ _ _ last, keep fun b => { b with skb := .skb t.padded }]

/-- A descriptor that is not the last is read in both halves. -/
theorem parts_halves (pdma : c.qdma = false) {d : Nat} (notLast : d ≠ v.txd)
    (plain : (firstPart c (v.ring.place d).dmaPdma).2 = false) :
    parts c ((mapDone c t v).ring.place d) = halves c v d := by
  rw [parts, pdma, if_neg Bool.false_ne_true, mapDone_dmaPdma pdma, if_neg notLast, plain,
    if_neg Bool.false_ne_true]
  rfl

/-- What the PDMA reads behind a call that puts two parts in each descriptor. -/
theorem pdma_sequence (soc : c.Soc) (pdma : c.qdma = false) (open_ : Open c r)
    {done : List Piece} (at' : PdmaAt c t r done v) :
    (between c r.nextFree (mapDone c t v).ring.nextFree).flatMap
      (fun d => parts c ((mapDone c t v).ring.place d)) =
    marked ((filled c t done).map Prod.fst) := by
  have map := at'.at' pdma
  have before := map.before open_
  have count := Paired.count pdma _ at'.paired
  rw [List.length_map] at count
  have read := at'.read
  have plain := filled_plain (c := c) (t := t) done
  rw [between_eq at'.run open_, count, ← map.taken, before.1, List.flatMap_append,
    List.flatMap_singleton]
  have front : (around c.txDmaSize r.nextFree (done.length / 2)).flatMap
      (fun d => parts c ((mapDone c t v).ring.place d)) =
      (around c.txDmaSize r.nextFree (done.length / 2)).flatMap (halves c v) := by
    apply List.flatMap_congr
    intro d member
    apply parts_halves pdma (fun same => before.2 (same ▸ member))
    apply plain
    rw [← read]
    exact List.mem_append_left _ (List.mem_flatMap.mpr ⟨d, member, List.mem_cons_self⟩)
  rw [front]
  rw [← read] at plain ⊢
  rcases Nat.mod_two_eq_zero_or_one done.length with even | odd
  · rw [if_pos even] at plain ⊢
    rw [marked_filled _ _ fun y member => plain y (List.mem_append_left _ member)]
    congr 1
    rw [parts, pdma, if_neg Bool.false_ne_true, mapDone_dmaPdma pdma, if_pos rfl,
      lastPart_first soc _ _ (by rw [at'.run.k]; omega), if_pos rfl]
  · rw [if_neg (by omega)] at plain ⊢
    obtain ⟨first, second⟩ := lastPart_second soc pdma v.k (v.ring.place v.txd).dmaPdma
      (by rw [at'.run.k]; omega)
    have split : (around c.txDmaSize r.nextFree (done.length / 2)).flatMap (halves c v) ++
        halves c v v.txd =
        ((around c.txDmaSize r.nextFree (done.length / 2)).flatMap (halves c v) ++
          [firstPart c (v.ring.place v.txd).dmaPdma]) ++
            [secondPart c (v.ring.place v.txd).dmaPdma] := by
      rw [List.append_assoc]
      rfl
    rw [split] at plain ⊢
    rw [marked_filled _ _ fun y member => plain y (List.mem_append_left _ member),
      List.append_assoc]
    congr 1
    have firstPlain := plain (firstPart c (v.ring.place v.txd).dmaPdma) (by simp)
    rw [parts, pdma, if_neg Bool.false_ne_true, mapDone_dmaPdma pdma, if_pos rfl, first, second,
      firstPlain, if_neg Bool.false_ne_true]
    rfl

end Pdma

section Fragments

variable {c : Conf}

theorem fragPasses_zero (left : Nat) : fragPasses c.toTxConf left 0 = 0 := by
  cases left <;> simp [fragPasses]

theorem fragPasses_one {f : Nat} (some : f ≠ 0) (whole : f ≤ c.dmaMaxLen) :
    fragPasses c.toTxConf f f = 1 := by
  obtain ⟨left, rfl⟩ := Nat.exists_eq_succ_of_ne_zero some
  rw [fragPasses, if_neg some, Nat.min_eq_left whole, Nat.sub_self, fragPasses_zero]

/-- A fragment that is split takes two passes at least. -/
theorem fragPasses_two {f : Nat} (long : c.dmaMaxLen < f) : 2 ≤ fragPasses c.toTxConf f f := by
  have positive := c.dmaMaxLen_pos
  obtain ⟨left, rfl⟩ := Nat.exists_eq_add_of_lt (show 1 < f by omega)
  rw [show 1 + left + 1 = left + 1 + 1 by omega] at long ⊢
  rw [fragPasses, if_neg (by omega), fragPasses, Nat.min_eq_right long.le, if_neg (by omega)]
  omega

theorem fragPieces_snoc (frags : List Nat) (f : Nat) : fragPieces c.toTxConf (frags ++ [f]) =
    fragPieces c.toTxConf frags ++ List.replicate (fragPasses c.toTxConf f f) frags.length := by
  rw [fragPieces, List.zipIdx_append, List.flatMap_append, fragPieces]
  simp

theorem Paired.append_replicate (frags : List Nat) (n i : Nat) :
    Paired (frags ++ List.replicate n i) ↔
      Paired frags ∧ (n = 0 ∨ n = 1 ∧ i % 2 = frags.length % 2) := by
  match n with
  | 0 => simp
  | 1 =>
    rw [List.replicate_one, Paired.snoc]
    simp
  | n + 2 =>
    refine iff_of_false ?_ (by omega)
    intro all
    have first := all frags.length (by simp)
    have second := all (frags.length + 1) (by simp)
    rw [List.getElem_append_right (by omega), List.getElem_replicate] at first second
    omega

/-- The fragments that the PDMA can have. -/
def Whole (c : Conf) (frags : List Nat) : Prop :=
  ∀ before f after, frags = before ++ f :: after → f ≠ 0 →
    f ≤ c.dmaMaxLen ∧ before.count 0 % 2 = 0

theorem Whole.snoc (frags : List Nat) (f : Nat) : Whole c (frags ++ [f]) ↔
    Whole c frags ∧ (f ≠ 0 → f ≤ c.dmaMaxLen ∧ frags.count 0 % 2 = 0) := by
  constructor
  · intro all
    constructor
    · rintro before g after rfl
      exact all before g (after ++ [f]) (by simp)
    · exact all frags f [] rfl
  · rintro ⟨all, last⟩ before g after same
    rcases List.eq_nil_or_concat after with rfl | ⟨front, h, rfl⟩
    · obtain ⟨rfl, inner⟩ := List.append_inj' same rfl
      cases inner
      exact last
    · rw [List.concat_eq_append, ← List.cons_append, ← List.append_assoc] at same
      exact all before g front (List.append_inj' same rfl).1

/-- Where each fragment that is not empty is one piece. -/
theorem Whole.length (frags : List Nat) (whole : Whole c frags) :
    (fragPieces c.toTxConf frags).length + frags.count 0 = frags.length := by
  induction frags using List.reverseRecOn with
  | nil => rfl
  | append_singleton frags f ih =>
    obtain ⟨front, last⟩ := (Whole.snoc frags f).mp whole
    have before := ih front
    rw [fragPieces_snoc, List.length_append, List.length_replicate, List.count_append,
      List.length_append, List.length_singleton]
    by_cases empty : f = 0
    · rw [empty, fragPasses_zero, List.count_singleton_self]
      omega
    · rw [fragPasses_one empty (last empty).1, List.count_singleton]
      simp [empty]
      omega

theorem paired_iff (frags : List Nat) :
    Paired (fragPieces c.toTxConf frags) ↔ Whole c frags := by
  induction frags using List.reverseRecOn with
  | nil =>
    refine iff_of_true (fun j inside => absurd inside (Nat.not_lt_zero j)) ?_
    intro before f after same
    exact absurd same.symm (by simp)
  | append_singleton frags f ih =>
    rw [fragPieces_snoc, Paired.append_replicate, Whole.snoc, ih]
    refine and_congr_right fun whole => ?_
    have length := whole.length
    by_cases empty : f = 0
    · simp [empty, fragPasses_zero]
    · by_cases fits : f ≤ c.dmaMaxLen
      · rw [fragPasses_one empty fits]
        simp only [empty, fits, ne_eq, not_false_eq_true, true_and, forall_const, Nat.one_ne_zero,
          false_or]
        omega
      · have two := fragPasses_two (c := c) (show c.dmaMaxLen < f by omega)
        refine iff_of_false (by omega) fun all => ?_
        exact fits (all empty).1

/-- The first piece that breaks the pairs. -/
theorem Paired.first_break (frags : List Nat) (broken : ¬ Paired frags) :
    ∃ good i rest, frags = good ++ i :: rest ∧ Paired good ∧ i % 2 ≠ good.length % 2 := by
  induction frags using List.reverseRecOn with
  | nil => exact absurd (fun j inside => absurd inside (Nat.not_lt_zero j)) broken
  | append_singleton frags i ih =>
    by_cases before : Paired frags
    · refine ⟨frags, i, [], rfl, before, fun last => broken ?_⟩
      exact (Paired.snoc frags i).mpr ⟨before, last⟩
    · obtain ⟨good, j, rest, rfl, paired, apart⟩ := ih before
      exact ⟨good, j, rest ++ [i], by simp, paired, apart⟩

end Fragments

section Slots

variable {c : Conf}

/-- The descriptor after some pieces. -/
def txdAfter (c : Conf) (txd : Nat) (frags : List Nat) : Nat :=
  frags.foldl (fun d i => if newDesc c.toTxConf i then nextDesc c.toTxConf d else d) txd

theorem slotsFrom_append (txd k : Nat) (a b : List Nat) : slotsFrom c txd k (a ++ b) =
    slotsFrom c txd k a ++ slotsFrom c (txdAfter c txd a) (k + a.length) b := by
  induction a generalizing txd k with
  | nil => rfl
  | cons i a ih =>
    rw [List.cons_append, slotsFrom, slotsFrom, ih, List.length_cons, List.cons_append,
      show k + 1 + a.length = k + (a.length + 1) by omega]
    rfl

/-- In pairs, the slots follow one another. -/
theorem slots_paired (pdma : c.qdma = false) (nextFree : Nat) (below : nextFree < c.txDmaSize)
    (frags : List Nat) (paired : Paired frags) :
    slots c nextFree frags = (List.range (frags.length + 1)).map
      (fun i => ((nextFree + i / 2) % c.txDmaSize, i % 2)) ∧
    txdAfter c nextFree frags = (nextFree + frags.length / 2) % c.txDmaSize := by
  induction frags using List.reverseRecOn with
  | nil =>
    have here : (nextFree + 0) % c.txDmaSize = nextFree := Nat.mod_eq_of_lt below
    exact ⟨congrArg (fun d => [(d, 0)]) here.symm, here.symm⟩
  | append_singleton frags i ih =>
    obtain ⟨front, last⟩ := (Paired.snoc frags i).mp paired
    obtain ⟨places, after⟩ := ih front
    have step : (if newDesc c.toTxConf i then nextDesc c.toTxConf (txdAfter c nextFree frags)
        else txdAfter c nextFree frags) = (nextFree + (frags.length + 1) / 2) % c.txDmaSize := by
      rw [newDesc_of_pdma pdma, last, after]
      by_cases odd : frags.length % 2 = 1
      · rw [decide_eq_true odd, if_pos rfl, nextDesc, Nat.mod_add_mod]
        congr 1
        omega
      · rw [decide_eq_false odd, if_neg Bool.false_ne_true]
        congr 1
        omega
    constructor
    · have split : slots c nextFree (frags ++ [i]) = slots c nextFree frags ++
          slotsFrom c (txdAfter c nextFree frags) (1 + frags.length) [i] := by
        rw [slots, slotsFrom_append]
        rfl
      rw [split, places, slotsFrom, step, pdma, if_neg Bool.false_ne_true, List.length_append,
        List.length_singleton, @List.range_succ (frags.length + 1), List.map_append,
        Nat.add_comm 1]
      rfl
    · rw [txdAfter, List.foldl_append, List.length_append, List.length_singleton]
      exact step

theorem slots_nodup (pdma : c.qdma = false) (nextFree : Nat) (below : nextFree < c.txDmaSize)
    (frags : List Nat) (paired : Paired frags) (room : frags.length / 2 < c.txDmaSize) :
    (slots c nextFree frags).Nodup := by
  rw [(slots_paired pdma nextFree below frags paired).1]
  refine List.Nodup.map_on ?_ List.nodup_range
  intro i insideI j insideJ same
  rw [List.mem_range] at insideI insideJ
  have places := congrArg Prod.fst same
  have sides := congrArg Prod.snd same
  dsimp only at places sides
  have := around.inj c.txDmaSize nextFree (i / 2) (j / 2) (by omega) (by omega) places
  omega

/-- A piece of a fragment with an even index takes the first half again. -/
theorem slots_twice (pdma : c.qdma = false) (nextFree : Nat) (below : nextFree < c.txDmaSize)
    (good rest : List Nat) (i : Nat) (paired : Paired good) (odd : good.length % 2 = 1)
    (even : i % 2 = 0) : ¬ (slots c nextFree (good ++ i :: rest)).Nodup := by
  obtain ⟨places, after⟩ := slots_paired pdma nextFree below good paired
  have old : newDesc c.toTxConf i = false := by
    rw [newDesc_of_pdma pdma]
    exact decide_eq_false (by omega)
  have split : slots c nextFree (good ++ i :: rest) = slots c nextFree good ++
      ((nextFree + good.length / 2) % c.txDmaSize, 0) ::
        slotsFrom c (txdAfter c nextFree good) (1 + good.length + 1) rest := by
    rw [slots, slotsFrom_append, slotsFrom, old, if_neg Bool.false_ne_true, pdma,
      if_neg Bool.false_ne_true, ← after, show (1 + good.length) % 2 = 0 by omega]
    rfl
  intro nodup
  rw [split, List.nodup_append] at nodup
  refine nodup.2.2 _ ?_ _ List.mem_cons_self rfl
  rw [places]
  refine List.mem_map.mpr ⟨good.length - 1, List.mem_range.mpr (by omega), ?_⟩
  rw [show (good.length - 1) / 2 = good.length / 2 by omega,
    show (good.length - 1) % 2 = 0 by omega]

end Slots

section Hole

variable {c : Conf} {t : Call} {r : Ring} {v w : Vars}

/-- A piece leaves the descriptors before its own alone, and so does every piece that follows. -/
theorem places_kept (open_ : Open c r) (ps done : List Piece) (n : Nat)
    (some : ∀ p ∈ ps, 0 < p.size) (run : RunAt c r done v)
    (past : n < (done.map Piece.frag).countP (newDesc c.toTxConf))
    (ok : ps.foldlM (mapPiece c t) v = .ok w) :
    RunAt c r (done ++ ps) w ∧ ∀ i ≤ n, w.ring.place ((r.nextFree + i) % c.txDmaSize) =
      v.ring.place ((r.nextFree + i) % c.txDmaSize) := by
  have bound := open_.spare_lt
  have kept := fold_ok (c := c) (t := t) (v := v) (w := w) (fun done u => RunAt c r done u ∧
      n < (done.map Piece.frag).countP (newDesc c.toTxConf) ∧
      ∀ i ≤ n, u.ring.place ((r.nextFree + i) % c.txDmaSize) =
        v.ring.place ((r.nextFree + i) % c.txDmaSize)) ps done ?_ ⟨run, past, fun i _ => rfl⟩ ok
  · exact ⟨kept.1, kept.2.2⟩
  · rintro done piece u x member ⟨run, past, same⟩ ok
    have next := run.next open_ (some piece member) ok
    have later := next.at'.room
    refine ⟨next, ?_, fun i low => ?_⟩
    · rw [List.map_append, List.countP_append]
      omega
    · obtain ⟨addr, -, -, rfl⟩ := mapPiece_ok ok
      rw [← same i low]
      apply place_other
      have txd := next.at'.txd
      change (if newDesc c.toTxConf piece.frag then nextDesc c.toTxConf u.txd else u.txd) = _ at txd
      rw [txd]
      intro equal
      rw [List.map_append, List.countP_append] at equal later
      have := around.inj c.txDmaSize r.nextFree i _ (by omega) (by omega) equal
      omega

/-- A descriptor that is left with one part is read with a second part of no bytes. -/
theorem hole_read (soc : c.Soc) (pdma : c.qdma = false) (open_ : Open c r)
    (zero : ∀ d, (r.place d).dmaPdma.txd4 = 0) {done rest : List Piece} {piece : Piece} {u x : Vars}
    (some : ∀ p ∈ piece :: rest, 0 < p.size) (at' : PdmaAt c t r done v)
    (even : done.length % 2 = 0) (odd : piece.frag % 2 = 1)
    (first : mapPiece c t v piece = .ok u) (others : rest.foldlM (mapPiece c t) u = .ok x) :
    ∃ part : Part, ((between c r.nextFree (mapDone c t x).ring.nextFree).flatMap
      (fun d => parts c ((mapDone c t x).ring.place d)))[done.length + 1]? = .some part ∧
        part.1.2 = 0 := by
  have map := at'.at' pdma
  have bound := open_.spare_lt
  have run := at'.run.next open_ (some piece List.mem_cons_self) first
  have new : newDesc c.toTxConf piece.frag = true := by
    rw [newDesc_of_pdma pdma]
    exact decide_eq_true odd
  have count := Paired.count pdma _ at'.paired
  rw [List.length_map] at count
  have counted : ((done ++ [piece]).map Piece.frag).countP (newDesc c.toTxConf) =
      done.length / 2 + 1 := by
    rw [List.map_append, List.countP_append, count, List.map_singleton,
      List.countP_singleton, if_pos new]
  obtain ⟨runX, kept⟩ := places_kept open_ rest (done ++ [piece]) (done.length / 2)
    (fun p member => some p (List.mem_cons_of_mem _ member)) run (by omega) others
  have more : done.length / 2 + 1 ≤
      ((done ++ [piece] ++ rest).map Piece.frag).countP (newDesc c.toTxConf) := by
    rw [List.map_append, List.countP_append, counted]
    omega
  have room := runX.at'.room
  have txdX := runX.at'.txd
  -- the places up to this descriptor are as the pieces before left them
  have same : ∀ i ≤ done.length / 2, x.ring.place ((r.nextFree + i) % c.txDmaSize) =
      v.ring.place ((r.nextFree + i) % c.txDmaSize) ∧
        (r.nextFree + i) % c.txDmaSize ≠ x.txd := by
    intro i low
    obtain ⟨addr, -, -, rfl⟩ := mapPiece_ok first
    refine ⟨(kept i low).trans (place_other piece _ _ addr ?_), ?_⟩
    · rw [if_pos new, map.next]
      intro equal
      have := around.inj c.txDmaSize r.nextFree i _ (by omega) (by omega) equal
      omega
    · rw [txdX]
      intro equal
      have := around.inj c.txDmaSize r.nextFree i _ (by omega) (by omega) equal
      omega
  have read := at'.read
  rw [if_pos even] at read
  have plain := filled_plain (c := c) (t := t) done
  rw [← read] at plain
  have halvesX : ∀ i ≤ done.length / 2, (firstPart c
      (v.ring.place ((r.nextFree + i) % c.txDmaSize)).dmaPdma).2 = false →
      parts c ((mapDone c t x).ring.place ((r.nextFree + i) % c.txDmaSize)) =
        halves c v ((r.nextFree + i) % c.txDmaSize) := by
    intro i low notLast
    obtain ⟨place, apart⟩ := same i low
    rw [← place] at notLast
    rw [parts_halves pdma apart notLast, halves, halves, place]
  have front : (around c.txDmaSize r.nextFree (done.length / 2)).flatMap
      (fun d => parts c ((mapDone c t x).ring.place d)) =
      (around c.txDmaSize r.nextFree (done.length / 2)).flatMap (halves c v) := by
    apply List.flatMap_congr
    intro d member
    obtain ⟨i, low, rfl⟩ := (around.mem ..).mp member
    apply halvesX i (by omega)
    apply plain
    exact List.mem_append_left _ (List.mem_flatMap.mpr ⟨_, member, List.mem_cons_self⟩)
  have length : ((around c.txDmaSize r.nextFree (done.length / 2)).flatMap (halves c v)).length =
      done.length := by
    have two : ∀ l : List Nat, (l.flatMap (halves c v)).length = 2 * l.length := by
      intro l
      induction l with
      | nil => rfl
      | cons d l ih =>
        rw [List.flatMap_cons, List.length_append, ih, List.length_cons, halves]
        change 2 + _ = _
        omega
    rw [two, around.length]
    omega
  have last : parts c ((mapDone c t x).ring.place ((r.nextFree + done.length / 2) % c.txDmaSize)) =
      halves c v v.txd := by
    rw [map.txd]
    apply halvesX _ (Nat.le_refl _)
    apply plain
    rw [← map.txd]
    exact List.mem_append_right _ List.mem_cons_self
  refine ⟨secondPart c (v.ring.place v.txd).dmaPdma, ?_, ?_⟩
  · obtain ⟨extra, split⟩ := Nat.exists_eq_add_of_le more
    rw [between_eq runX open_, split, show done.length / 2 + 1 + extra + 1 =
      done.length / 2 + (extra + 1 + 1) by omega, around.append, around.cons, List.flatMap_append,
      List.flatMap_cons, front, last, List.getElem?_append_right (by omega), length,
      Nat.add_sub_cancel_left]
    rfl
  · obtain ⟨blank, txd4⟩ := at'.blank even
    exact secondPart_blank soc pdma blank (txd4.trans (zero _))

end Hole

section Whole

variable {c : Conf} {t : Call} {r : Ring} {v : Vars}

theorem pdmaAt_of_paired (soc : c.Soc) (pdma : c.qdma = false) (open_ : Open c r)
    (fits : ∀ k a, t.maps k = some a → a.toNat < 2 ^ addrBits c) {a : UInt64}
    (answer : t.maps 0 = some a) (ps : List Piece)
    (sizes : ∀ p ∈ ps, 0 < p.size ∧ p.size ≤ c.dmaMaxLen) (paired : Paired (ps.map Piece.frag))
    (ok : ps.foldlM (mapPiece c t) (headVars c t a r) = .ok v) : PdmaAt c t r ps v := by
  induction ps using List.reverseRecOn generalizing v with
  | nil =>
    cases ok
    exact PdmaAt.head soc pdma open_ answer (fits 0 a answer)
  | append_singleton ps piece ih =>
    rw [List.map_append, List.map_singleton, Paired.snoc, List.length_map] at paired
    obtain ⟨u, front, last⟩ := fold_append ok
    obtain ⟨x, mapped, rest⟩ := fold_cons last
    cases rest
    have before := ih (fun p member => sizes p (List.mem_append_left _ member)) paired.1 front
    obtain ⟨some, small⟩ := sizes piece (by simp)
    exact before.next soc pdma open_ fits some small paired.2 mapped

/-- The parts that the PDMA reads are those of the packet. -/
theorem filled_iff : marked ((filled c t (pieces c t.padded.frags)).map Prod.fst) =
    marked (sent c t) ↔ t.padded.headlen ≤ c.dmaMaxLen := by
  have parts : (filled c t (pieces c t.padded.frags)).map Prod.fst =
      ((t.maps 0).getD 0, lenField c t.padded.headlen) ::
        piecesSent t (pieces c t.padded.frags) := by
    rw [filled, List.map_map]
    exact List.map_id _
  rw [parts, sent_eq, ← lenField_eq_iff]
  constructor
  · intro same
    have firsts := congrArg (List.map Prod.fst) same
    rw [marked_fst, marked_fst] at firsts
    exact congrArg Prod.snd (List.cons.inj firsts).1
  · intro same
    rw [same]

/-- The DMA layer maps the parts of a packet one behind another. -/
def testMaps (k : Nat) : Option UInt64 := some (UInt64.ofNat (65536 * (k % 65535 + 1)))

/-- A ring as `mtk_tx_alloc` leaves it, of any size -/
def allocRing (c : Conf) : Ring := { freshRing with lastFree := c.txDmaSize - 1 }

def testCall (skb : Skb) : Call where
  skb := skb
  mac := mtkGmac1Id
  gso := false
  csum := false
  vlan := false
  vlanTci := 0
  usesDsa := false
  magic := 0
  padFails := false
  maps := testMaps

theorem testMaps_fits (c : Conf) (k : Nat) (a : UInt64) (answer : testMaps k = some a) :
    a.toNat < 2 ^ addrBits c := by
  obtain rfl := Option.some.inj answer
  have below := Nat.mod_lt k (show 0 < 65535 by decide)
  have wide : 2 ^ 32 ≤ 2 ^ addrBits c := by
    refine Nat.pow_le_pow_right (by decide) ?_
    unfold addrBits
    split_ifs <;> decide
  rw [UInt64.toNat_ofNat', Nat.mod_eq_of_lt (by omega)]
  omega

theorem allocRing_open (some : 1 < c.txDmaSize) : Open c (allocRing c) where
  nextFree := Nat.zero_lt_of_lt some
  lastFree := Nat.sub_lt (Nat.zero_lt_of_lt some) Nat.one_pos
  room := by
    change 0 ≠ c.txDmaSize - 1
    omega

theorem allocRing_spare (some : 1 < c.txDmaSize) : spare c (allocRing c) = c.txDmaSize - 2 := by
  change (c.txDmaSize - 1 + c.txDmaSize - 0) % c.txDmaSize - 1 = _
  rw [show c.txDmaSize - 1 + c.txDmaSize - 0 = c.txDmaSize - 1 + c.txDmaSize by omega,
    Nat.add_mod_right, Nat.mod_eq_of_lt (by omega)]
  omega

/-- A packet that is not too long is mapped on such a ring. -/
theorem testCall_ok (skb : Skb) (short : ¬ TooLong c (sentSkb skb)) : 1 < c.txDmaSize ∧ ∃ v,
    (pieces c (sentSkb skb).frags).foldlM (mapPiece c (testCall skb))
      (headVars c (testCall skb) (UInt64.ofNat 65536) (allocRing c)) = .ok v ∧
    mtkTxMap c (testCall skb) (allocRing c) = some (mapDone c (testCall skb) v) := by
  unfold TooLong at short
  have some : 1 < c.txDmaSize := by omega
  have open_ := allocRing_open some
  obtain ⟨v, mapped⟩ := fold_succeeds (t := testCall skb) open_ (fun k => rfl)
    (pieces c (sentSkb skb).frags) (pieces_pos c _) []
    (runAt_head (t := testCall skb) (a := UInt64.ofNat 65536) open_) (by
      rw [List.nil_append, pieces_frag, allocRing_spare some]
      omega)
  refine ⟨some, v, mapped, ?_⟩
  unfold mtkTxMap
  dsimp only
  rw [if_neg (fun pad => absurd pad.2 Bool.false_ne_true), if_neg open_.room]
  change mapEnd c (testCall skb) ((pieces c (sentSkb skb).frags).foldlM
    (mapPiece c (testCall skb)) (headVars c (testCall skb) (UInt64.ofNat 65536) (allocRing c))) = _
  rw [mapped]
  rfl

/-- The pieces of a packet that the PDMA encodes come in pairs. -/
theorem paired_of_encodes (soc : c.Soc) (pdma : c.qdma = false) (open_ : Open c r)
    (zero : ∀ d, (r.place d).dmaPdma.txd4 = 0)
    (fits : ∀ k a, t.maps k = some a → a.toNat < 2 ^ addrBits c) {a : UInt64}
    (answer : t.maps 0 = some a)
    (ok : (pieces c t.padded.frags).foldlM (mapPiece c t) (headVars c t a r) = .ok v)
    (encodes : Encodes c t r (mapDone c t v)) :
    Paired (fragPieces c.toTxConf t.padded.frags) := by
  by_contra broken
  obtain ⟨good, i, rest, split, paired, apart⟩ := Paired.first_break _ broken
  rw [← pieces_frag] at split
  obtain ⟨done, others, parts, rfl, behind⟩ := List.map_eq_append_iff.mp split
  obtain ⟨piece, rest, rfl, rfl, rfl⟩ := List.map_eq_cons_iff.mp behind
  rw [List.length_map] at apart
  rcases Nat.mod_two_eq_zero_or_one done.length with even | odd
  · have sizes : ∀ p ∈ done ++ piece :: rest, 0 < p.size ∧ p.size ≤ c.dmaMaxLen := by
      rw [← parts]
      exact fun p member => ⟨pieces_pos c _ p member, pieces_le c _ p member⟩
    rw [parts] at ok
    obtain ⟨u, front, behind⟩ := fold_append ok
    obtain ⟨x, mapped, tail⟩ := fold_cons behind
    have at' := pdmaAt_of_paired soc pdma open_ fits answer done
      (fun p member => sizes p (List.mem_append_left _ member)) paired front
    obtain ⟨part, here, none⟩ := hole_read soc pdma open_ zero
      (fun p member => (sizes p (List.mem_append_right _ member)).1) at' even (by omega) mapped tail
    rw [encodes.sequence] at here
    have first := congrArg (Option.map Prod.fst) here
    rw [← List.getElem?_map, marked_fst, sent_eq, parts, List.getElem?_cons_succ, piecesSent,
      List.getElem?_mapIdx, List.getElem?_append_right (Nat.le_refl _), Nat.sub_self] at first
    have size : piece.size = part.1.2 := congrArg Prod.snd (Option.some.inj first)
    have some := (sizes piece (by simp)).1
    omega
  · have once := encodes.once
    rw [← pieces_frag, parts, List.map_append, List.map_cons] at once
    exact slots_twice pdma r.nextFree open_.nextFree (done.map Piece.frag) (rest.map Piece.frag)
      piece.frag paired (by rwa [List.length_map]) (by omega) once

/-- A packet is always read as it should, exactly if it packs well or is never mapped at all. -/
theorem alwaysEncodes_iff (c : Conf) (soc : c.Soc) (skb : Skb) :
    AlwaysEncodes c skb ↔ Packs c (sentSkb skb) ∨ TooLong c (sentSkb skb) := by
  constructor
  · intro always
    by_cases long : TooLong c (sentSkb skb)
    · exact .inr long
    left
    obtain ⟨some, v, mapped, call⟩ := testCall_ok skb long
    have open_ := allocRing_open some
    have encodes := always (testCall skb) (allocRing c) _ rfl open_.nextFree open_.lastFree
      (testMaps_fits c) call rfl
    have sequence := encodes.sequence
    cases engine : c.qdma with
    | true =>
      rw [qdma_sequence soc engine open_ (testMaps_fits c) rfl mapped, laid_iff] at sequence
      exact ⟨sequence.1, by rw [engine, if_pos rfl]; exact sequence.2⟩
    | false =>
      have paired := paired_of_encodes soc engine open_ (fun d => rfl) (testMaps_fits c) rfl mapped
        encodes
      have at' := pdmaAt_of_paired soc engine open_ (testMaps_fits c) rfl _
        (fun p member => ⟨pieces_pos c _ p member, pieces_le c _ p member⟩)
        (by rw [pieces_frag]; exact paired) mapped
      rw [pdma_sequence soc engine open_ at'] at sequence
      refine ⟨filled_iff.mp sequence, ?_⟩
      rw [engine, if_neg Bool.false_ne_true]
      exact (paired_iff _).mp paired
  · rintro (packs | long) t r l rfl nextFree lastFree fits call ok
    all_goals
      obtain ⟨room, a, v, answer, mapped, rfl⟩ := mtkTxMap_ok call ok
      have open_ : Open c r := ⟨nextFree, lastFree, room⟩
      have bound := open_.spare_lt
      have run := fold_ok (RunAt c r) _ [] (fun done piece v w member run ok =>
        run.next open_ (pieces_pos c _ piece member) ok) (runAt_head open_) mapped
      have spare := run.at'.room
      rw [List.nil_append, pieces_frag] at spare
    · obtain ⟨linear, frags⟩ := packs
      cases engine : c.qdma with
      | true =>
        rw [engine, if_pos rfl] at frags
        rw [countP_qdma engine] at spare
        constructor
        · rw [qdma_sequence soc engine open_ fits answer mapped]
          exact laid_iff.mpr ⟨linear, frags⟩
        · exact slots_qdma engine r.nextFree nextFree _ (by omega)
      | false =>
        rw [engine, if_neg Bool.false_ne_true] at frags
        have paired : Paired (fragPieces c.toTxConf t.padded.frags) := (paired_iff _).mpr frags
        rw [Paired.count engine _ paired] at spare
        have at' := pdmaAt_of_paired soc engine open_ fits answer _
          (fun p member => ⟨pieces_pos c _ p member, pieces_le c _ p member⟩)
          (by rw [pieces_frag]; exact paired) mapped
        constructor
        · rw [pdma_sequence soc engine open_ at']
          exact filled_iff.mpr linear
        · exact slots_nodup engine r.nextFree nextFree _ paired (by omega)
    · unfold TooLong at long
      change _ ≤ (fragPieces c.toTxConf t.padded.frags).countP _ + 1 at long
      omega

theorem rt5350_soc : rt5350.Soc := ⟨rfl, rfl, by decide, by decide, by decide⟩

/-- Two whole fragments share a descriptor with nothing but one another. -/
theorem threeParts_encodes : AlwaysEncodes rt5350 (threeParts 3).skb := by
  refine (alwaysEncodes_iff rt5350 rt5350_soc (threeParts 3).skb).mpr (.inl ⟨by decide, ?_⟩)
  change Whole rt5350 [1448, 1448]
  rw [← paired_iff]
  change Paired [0, 1]
  intro j inside
  have two : j < 2 := inside
  interval_cases j <;> rfl

/-- A fragment of 32 KiB, which the PDMA of the MT7628 takes in three pieces -/
def splitSkb : Skb :=
  { id := 1, headlen := 66, frags := [32768], isGso := true, queueMapping := 0 }

theorem splitSkb_pieces : fragPieces rt5350.toTxConf (sentSkb splitSkb).frags = [0, 0, 0] := by
  decide +kernel

/-- The third piece takes the place of the linear part. -/
theorem splitSkb_overwritten : ¬ AlwaysEncodes rt5350 splitSkb := by
  intro always
  have short : ¬ TooLong rt5350 (sentSkb splitSkb) := by
    rw [TooLong, splitSkb_pieces]
    decide
  obtain ⟨some, v, -, call⟩ := testCall_ok splitSkb short
  have open_ := allocRing_open some
  have once := (always (testCall splitSkb) (allocRing rt5350) _ rfl open_.nextFree open_.lastFree
    (testMaps_fits rt5350) call rfl).once
  change (slots rt5350 0 (fragPieces rt5350.toTxConf (sentSkb splitSkb).frags)).Nodup at once
  rw [splitSkb_pieces] at once
  exact absurd once (by decide)

end Whole

end Filogic.Eth.Mapping
