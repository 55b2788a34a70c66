import Filogic.Eth.Mapping

/-! When the loop at the end of `mtk_tx_map` undoes what the call did. The PDMA maps two pieces in
one descriptor, and there the loop may stop before the last descriptor, or not before it has come
around the ring. -/

namespace Filogic.Eth.Mapping
open Lib

variable (c : Conf)

/-- What a call that fails owes to the ring. -/
structure RolledBack (r : Ring) (l : Left) : Prop where
  own : ∀ d ∈ l.visited, d ∈ l.taken
  once : l.unmapped.Perm l.mapped
  nextFree : l.ring.nextFree = r.nextFree
  freeCount : l.ring.freeCount = r.freeCount
  others : ∀ d < c.txDmaSize, d ∉ r.freeRun c.txDmaSize → l.ring.place d = r.place d

/-- The descriptors that a call may take after its first. -/
def spare (r : Ring) : Nat := (r.lastFree + c.txDmaSize - r.nextFree) % c.txDmaSize - 1

/-- The call fails before it has mapped anything. -/
def HeadFails (t : Call) (r : Ring) : Prop :=
  (t.skb.len ≤ 40 ∧ t.padFails = true) ∨ r.nextFree = r.lastFree ∨ t.maps 0 = none

/-- Of the pieces that the call comes to, each that takes no descriptor of its own is mapped, and
the piece before it took one. -/
def SharesWell (maps : Nat → Option UInt64) (room : Nat) (frags : List Nat) : Prop :=
  ∀ before i after, frags = before ++ i :: after → newDesc c.toTxConf i = false →
    (∀ j < before.length, maps (j + 1) ≠ none) →
    before.countP (newDesc c.toTxConf) ≤ room →
    maps (before.length + 1) ≠ none ∧ ∀ last ∈ before.getLast?, newDesc c.toTxConf last = true

section Sharing

/-- `SharesWell`, from piece `k` on; `shared` says that the piece before took no descriptor. -/
def SharesFrom (maps : Nat → Option UInt64) : Nat → Nat → Bool → List Nat → Prop
  | _, _, _, [] => True
  | k, room, shared, i :: rest =>
    if newDesc c.toTxConf i then
      room = 0 ∨ maps k = none ∨ SharesFrom maps (k + 1) (room - 1) false rest
    else maps k ≠ none ∧ shared = false ∧ SharesFrom maps (k + 1) room true rest

/-- What `SharesWell` asks of a piece of fragment `i`, when those from `k` on came before. -/
def ShareAt (maps : Nat → Option UInt64) (k room : Nat) (shared : Bool) (before : List Nat)
    (i : Nat) : Prop :=
  newDesc c.toTxConf i = false → (∀ j < before.length, maps (k + j) ≠ none) →
    before.countP (newDesc c.toTxConf) ≤ room →
    maps (k + before.length) ≠ none ∧ (before = [] → shared = false) ∧
      ∀ last ∈ before.getLast?, newDesc c.toTxConf last = true

theorem splits_cons (p : Nat) (rest : List Nat) (holds : List Nat → Nat → Prop) :
    (∀ before i after, p :: rest = before ++ i :: after → holds before i) ↔
      holds [] p ∧ ∀ before i after, rest = before ++ i :: after → holds (p :: before) i := by
  constructor
  · intro all
    exact ⟨all [] p rest rfl,
      fun before i after same => all (p :: before) i after (congrArg (p :: ·) same)⟩
  · rintro ⟨here, later⟩ before i after same
    cases before with
    | nil =>
      obtain ⟨rfl, -⟩ := List.cons.inj same
      exact here
    | cons q before =>
      obtain ⟨rfl, tail⟩ := List.cons.inj same
      exact later before i after tail

variable {c} {maps : Nat → Option UInt64}

theorem mapped_cons (k p : Nat) (before : List Nat) :
    (∀ j < (p :: before).length, maps (k + j) ≠ none) ↔
      maps k ≠ none ∧ ∀ j < before.length, maps (k + 1 + j) ≠ none := by
  constructor
  · intro all
    refine ⟨all 0 (Nat.succ_pos _), fun j below => ?_⟩
    rw [Nat.add_right_comm]
    exact all (j + 1) (Nat.succ_lt_succ below)
  · rintro ⟨first, rest⟩ j below
    cases j with
    | zero => exact first
    | succ j =>
      have later := rest j (Nat.lt_of_succ_lt_succ below)
      rwa [Nat.add_right_comm] at later

theorem last_cons (p : Nat) (before : List Nat) (holds : Nat → Prop) :
    (∀ last ∈ (p :: before).getLast?, holds last) ↔
      (before = [] → holds p) ∧ ∀ last ∈ before.getLast?, holds last := by
  cases before with
  | nil => simp
  | cons q before => simp

theorem ShareAt.cons_new (k room p i : Nat) (shared : Bool) (before : List Nat)
    (new : newDesc c.toTxConf p = true) : ShareAt c maps k room shared (p :: before) i ↔
      (room ≠ 0 → maps k ≠ none → ShareAt c maps (k + 1) (room - 1) false before i) := by
  have count : (p :: before).countP (newDesc c.toTxConf) ≤ room ↔
      room ≠ 0 ∧ before.countP (newDesc c.toTxConf) ≤ room - 1 := by
    rw [List.countP_cons_of_pos new]
    omega
  have place : k + (p :: before).length = k + 1 + before.length := by
    rw [List.length_cons]
    omega
  unfold ShareAt
  rw [mapped_cons, count, place, last_cons]
  simp only [new, reduceCtorEq, false_implies, implies_true, true_and]
  tauto

theorem ShareAt.cons_old (k room p i : Nat) (shared : Bool) (before : List Nat)
    (old : newDesc c.toTxConf p = false) : ShareAt c maps k room shared (p :: before) i ↔
      (maps k ≠ none → ShareAt c maps (k + 1) room true before i) := by
  have place : k + (p :: before).length = k + 1 + before.length := by
    rw [List.length_cons]
    omega
  unfold ShareAt
  rw [mapped_cons, List.countP_cons_of_neg (by simp [old]), place, last_cons]
  simp only [old, reduceCtorEq, false_implies, true_and]
  tauto

theorem sharesFrom_iff (k room : Nat) (shared : Bool) (frags : List Nat) :
    SharesFrom c maps k room shared frags ↔
      ∀ before i after, frags = before ++ i :: after →
        ShareAt c maps k room shared before i := by
  induction frags generalizing k room shared with
  | nil =>
    constructor
    · intro _ before i after same
      exact absurd same.symm (by simp)
    · exact fun _ => trivial
  | cons p rest ih =>
    unfold SharesFrom
    rw [splits_cons p rest (ShareAt c maps k room shared)]
    cases new : newDesc c.toTxConf p with
    | true =>
      have here : ShareAt c maps k room shared [] p := by
        intro old
        rw [new] at old
        cases old
      simp only [if_true, ih, ShareAt.cons_new k room p _ shared _ new, here, true_and]
      by_cases full : room = 0
      · simp [full]
      · by_cases failed : maps k = none
        · simp [failed]
        · simp [full, failed]
    | false =>
      have here : ShareAt c maps k room shared [] p ↔ maps k ≠ none ∧ shared = false := by
        simp [ShareAt, new]
      simp only [Bool.false_eq_true, if_false, ih, ShareAt.cons_old k room p _ shared _ new, here]
      by_cases failed : maps k = none
      · simp [failed]
      · simp [failed]

theorem sharesWell_iff (room : Nat) (frags : List Nat) :
    SharesWell c maps room frags ↔ SharesFrom c maps 1 room false frags := by
  rw [sharesFrom_iff]
  unfold SharesWell ShareAt
  simp only [Nat.add_comm 1, implies_true, true_and]

end Sharing

section Halves

/-- A mapping as `mtk_tx_unmap` sees it for the PDMA -/
def live (m : Mapped) : List Mapped := if m.2 ≠ 0 then [m] else []

/-- The half of a buffer that piece `k` fills for the PDMA -/
def half (b : DmaBuf) (k : Nat) : List Mapped :=
  if k % 2 = 1 then live (b.addr1, b.len1) else live (b.addr0, b.len0)

theorem half_add_two (b : DmaBuf) (k : Nat) : half b (k + 2) = half b k := by
  simp [half]

variable {c}

theorem unmaps_halves (pdma : c.qdma = false) (b : DmaBuf) (k : Nat) :
    (unmaps c b).Perm (half b k ++ half b (k + 1)) := by
  have both : unmaps c b = live (b.addr0, b.len0) ++ live (b.addr1, b.len1) := by
    simp [unmaps, pdma, live]
  rw [both]
  unfold half
  rcases Nat.mod_two_eq_zero_or_one k with even | odd
  · rw [if_neg (by omega), if_pos (by omega)]
  · rw [if_pos odd, if_neg (by omega)]
    exact List.perm_append_comm

@[simp] theorem setDmaDesc_buf (t : Call) (info : DescInfo) (p : Place) :
    (setDmaDesc c t info p).buf = p.buf := by
  unfold setDmaDesc
  split_ifs <;> rfl

theorem setupTxBuf_qdma (qdma : c.qdma = true) (addr : UInt64) (size idx : Nat) (p : Place) :
    (setupTxBuf c addr size idx p).buf = { p.buf with addr0 := addr, len0 := size } := by
  simp [setupTxBuf, qdma]

/-- The PDMA: a piece fills its half of the buffer, and the other one stays. -/
theorem setupTxBuf_half (pdma : c.qdma = false) (addr : UInt64) (size idx : Nat) (p : Place) :
    half (setupTxBuf c addr size idx p).buf idx = live (addr, size) ∧
      half (setupTxBuf c addr size idx p).buf (idx + 1) = half p.buf (idx + 1) := by
  unfold setupTxBuf half
  rw [pdma]
  rcases Nat.mod_two_eq_zero_or_one idx with even | odd
  · have next : (idx + 1) % 2 = 1 := by omega
    simp [even, next]
  · have next : ¬ (idx + 1) % 2 = 1 := by omega
    simp [odd, next]

theorem half_zero (k : Nat) : half DmaBuf.zero k = [] := by
  simp [half, live, DmaBuf.zero]

/-- A piece that has a descriptor of its own is all that is mapped there. -/
theorem piecePlace_new (t : Call) (piece : Piece) (k : Nat) (addr : UInt64) (p : Place)
    (new : newDesc c.toTxConf piece.frag = true) (some : 0 < piece.size) :
    unmaps c (piecePlace c t piece k addr p).buf = [(addr, piece.size)] := by
  unfold piecePlace
  cases engine : c.qdma with
  | true => simp [unmaps, engine, setupTxBuf_qdma engine, new, DmaBuf.zero]
  | false =>
    have nonzero : piece.size ≠ 0 := by omega
    rcases Nat.mod_two_eq_zero_or_one k with even | odd
    · simp [unmaps, engine, setupTxBuf, new, even, nonzero, DmaBuf.zero]
    · simp [unmaps, engine, setupTxBuf, new, odd, nonzero, DmaBuf.zero]

theorem piecePlace_half (pdma : c.qdma = false) (t : Call) (piece : Piece) (k : Nat)
    (addr : UInt64) (p : Place) (some : 0 < piece.size) :
    half (piecePlace c t piece k addr p).buf k = [(addr, piece.size)] ∧
      half (piecePlace c t piece k addr p).buf (k + 1) =
        if newDesc c.toTxConf piece.frag then [] else half p.buf (k + 1) := by
  have filled : live (addr, piece.size) = [(addr, piece.size)] := if_pos (by dsimp only; omega)
  unfold piecePlace
  dsimp only
  refine ⟨(setupTxBuf_half pdma ..).1.trans filled, (setupTxBuf_half pdma ..).2.trans ?_⟩
  cases new : newDesc c.toTxConf piece.frag with
  | true => exact half_zero (k + 1)
  | false =>
    rw [if_neg Bool.false_ne_true]
    simp [half]

end Halves

section Undoing

/-- What is mapped at some indices. -/
def held (place : Nat → Place) (ds : List Nat) : List Mapped :=
  ds.flatMap fun d => unmaps c (place d).buf

theorem held_append (place : Nat → Place) (ds es : List Nat) :
    held c place (ds ++ es) = held c place ds ++ held c place es := List.flatMap_append

theorem held_single (place : Nat → Place) (d : Nat) :
    held c place [d] = unmaps c (place d).buf := List.flatMap_singleton ..

theorem held_update (place : Nat → Place) (d : Nat) (p : Place) (ds : List Nat)
    (absent : d ∉ ds) : held c (Function.update place d p) ds = held c place ds := by
  unfold held
  refine List.flatMap_congr fun e member => ?_
  have other : e ≠ d := ne_of_mem_of_not_mem member absent
  rw [Function.update_of_ne other]

/-- What the loop at `err_dma` does when it visits some indices. -/
structure Undone (u : Undo) (ds : List Nat) (out : Undo) : Prop where
  visited : out.visited = u.visited ++ ds
  unmapped : out.unmapped = u.unmapped ++ held c u.ring.place ds
  others : ∀ d ∉ ds, out.ring.place d = u.ring.place d
  nextFree : out.ring.nextFree = u.ring.nextFree
  freeCount : out.ring.freeCount = u.ring.freeCount

theorem undoPass_undone (u : Undo) : Undone c u [u.itxd] (undoPass c u) where
  visited := rfl
  unmapped := congrArg (u.unmapped ++ ·) (held_single c u.ring.place u.itxd).symm
  others := by
    intro d other
    exact Function.update_of_ne (by simpa using other) _ _
  nextFree := rfl
  freeCount := rfl

variable {c}

/-- Indices that differ are visited one after the other as if at once. -/
theorem Undone.trans {u v w : Undo} {d : Nat} {ds : List Nat} (first : Undone c u [d] v)
    (rest : Undone c v ds w) (absent : d ∉ ds) : Undone c u (d :: ds) w where
  visited := by rw [rest.visited, first.visited, List.append_assoc, List.singleton_append]
  unmapped := by
    have same : held c v.ring.place ds = held c u.ring.place ds := by
      refine List.flatMap_congr fun e member => ?_
      rw [first.others e (by simpa using ne_of_mem_of_not_mem member absent)]
    rw [rest.unmapped, first.unmapped, same, List.append_assoc, ← held_append,
      List.singleton_append]
  others := by
    intro e other
    rw [List.mem_cons, not_or] at other
    rw [rest.others e other.2, first.others e (by simpa using other.1)]
  nextFree := rest.nextFree.trans first.nextFree
  freeCount := rest.freeCount.trans first.freeCount

theorem undoPass_itxd {start : Nat} {u : Undo} (here : u.itxd = start % c.txDmaSize) :
    (undoPass c u).itxd = (start + 1) % c.txDmaSize := by
  change nextDesc c.toTxConf u.itxd = _
  rw [here, nextDesc_mod]

/-- The loop ends where it is to end, within one time around the ring. -/
theorem undoLoop_undone (start more left : Nat) (u : Undo) (here : u.itxd = start % c.txDmaSize)
    (short : more < c.txDmaSize) (enough : more < left) :
    ∃ out, undoLoop c ((start + (more + 1)) % c.txDmaSize) left u = some out ∧
      Undone c u (around c.txDmaSize start (more + 1)) out := by
  obtain ⟨left, rfl⟩ := Nat.exists_eq_succ_of_ne_zero (show left ≠ 0 by omega)
  have pass := undoPass_undone c u
  rw [here] at pass
  induction more generalizing start left u with
  | zero =>
    unfold undoLoop
    exact ⟨_, if_pos (undoPass_itxd here), pass⟩
  | succ more ih =>
    have apart : (undoPass c u).itxd ≠ (start + (more + 1 + 1)) % c.txDmaSize := by
      intro same
      rw [undoPass_itxd here, show start + (more + 1 + 1) = start + 1 + (more + 1) by omega] at same
      have := around.inj c.txDmaSize (start + 1) 0 (more + 1) (by omega) short same
      omega
    have absent : start % c.txDmaSize ∉ around c.txDmaSize (start + 1) (more + 1) := by
      have all := around.nodup c.txDmaSize start (more + 1 + 1) short
      rw [around.cons] at all
      exact (List.nodup_cons.mp all).1
    obtain ⟨left, rfl⟩ := Nat.exists_eq_succ_of_ne_zero (show left ≠ 0 by omega)
    have again := undoPass_undone c (undoPass c u)
    rw [undoPass_itxd here] at again
    obtain ⟨out, ends, rest⟩ := ih (start + 1) (undoPass c u) (undoPass_itxd here) (by omega) left
      (by omega) again
    refine ⟨out, ?_, ?_⟩
    · unfold undoLoop
      rw [if_neg apart, show start + (more + 1 + 1) = start + 1 + (more + 1) by omega]
      exact ends
    · rw [around.cons]
      exact pass.trans rest absent

end Undoing

section Taking

variable {c} {t : Call} {r : Ring} {v : Vars} {more : Nat}

/-- The ring has a descriptor to take. -/
structure Open (c : Conf) (r : Ring) : Prop where
  nextFree : r.nextFree < c.txDmaSize
  lastFree : r.lastFree < c.txDmaSize
  room : r.nextFree ≠ r.lastFree

theorem Open.last (open_ : Open c r) :
    r.lastFree = (r.nextFree + (spare c r + 1)) % c.txDmaSize := by
  have next := open_.nextFree
  have last := open_.lastFree
  have whole : (r.nextFree + (r.lastFree + c.txDmaSize - r.nextFree) % c.txDmaSize) %
      c.txDmaSize = r.lastFree := by
    rw [Nat.add_mod_mod, show r.nextFree + (r.lastFree + c.txDmaSize - r.nextFree) =
      r.lastFree + c.txDmaSize by omega, Nat.add_mod_right, Nat.mod_eq_of_lt last]
  have some : (r.lastFree + c.txDmaSize - r.nextFree) % c.txDmaSize ≠ 0 := by
    intro zero
    rw [zero, Nat.add_zero, Nat.mod_eq_of_lt next] at whole
    exact open_.room whole
  unfold spare
  rw [Nat.sub_add_cancel (Nat.pos_of_ne_zero some)]
  exact whole.symm

theorem Open.spare_lt (open_ : Open c r) : spare c r + 1 < c.txDmaSize := by
  have next := open_.nextFree
  have last := open_.last
  have gap := Nat.mod_lt (r.lastFree + c.txDmaSize - r.nextFree) (Nat.zero_lt_of_lt next)
  have bound : spare c r + 1 ≠ c.txDmaSize := by
    intro equal
    rw [equal, Nat.add_mod_right, Nat.mod_eq_of_lt next] at last
    exact open_.room last.symm
  unfold spare at bound ⊢
  omega

theorem taken_freeRun (taken : Nat) (short : taken ≤ spare c r + 1) (d : Nat)
    (member : d ∈ around c.txDmaSize r.nextFree taken) : d ∈ r.freeRun c.txDmaSize := by
  obtain ⟨j, below, rfl⟩ := (around.mem ..).mp member
  refine (around.mem ..).mpr ⟨j, ?_, rfl⟩
  unfold spare at short
  omega

/-- A call has taken `more` indices after its first. -/
structure MapAt (c : Conf) (r : Ring) (v : Vars) (more : Nat) : Prop where
  itxd : v.itxd = r.nextFree
  txd : v.txd = (r.nextFree + more) % c.txDmaSize
  taken : v.taken = around c.txDmaSize r.nextFree (more + 1)
  room : more ≤ spare c r
  others : ∀ d ∉ v.taken, v.ring.place d = r.place d
  nextFree : v.ring.nextFree = r.nextFree
  lastFree : v.ring.lastFree = r.lastFree
  freeCount : v.ring.freeCount = r.freeCount
  filled : more ≠ 0 → unmaps c (v.ring.place v.txd).buf ≠ []

theorem MapAt.before (at' : MapAt c r v more) (open_ : Open c r) :
    v.taken = around c.txDmaSize r.nextFree more ++ [v.txd] ∧
      v.txd ∉ around c.txDmaSize r.nextFree more := by
  have bound := open_.spare_lt
  have room := at'.room
  refine ⟨?_, ?_⟩
  · rw [at'.taken, around.succ, at'.txd]
  · rw [at'.txd]
    intro member
    exact lt_irrefl _ ((around.mem_iff _ _ more more (by omega) (by omega)).mp member)

theorem MapAt.held_taken (at' : MapAt c r v more) (open_ : Open c r) :
    held c v.ring.place v.taken =
      held c v.ring.place (around c.txDmaSize r.nextFree more) ++
        unmaps c (v.ring.place v.txd).buf := by
  rw [(at'.before open_).1, held_append, held_single]

theorem MapAt.next (at' : MapAt c r v more) :
    nextDesc c.toTxConf v.txd = (r.nextFree + (more + 1)) % c.txDmaSize := by
  rw [at'.txd, nextDesc_mod, Nat.add_assoc]

theorem MapAt.full_iff (at' : MapAt c r v more) (open_ : Open c r) :
    nextDesc c.toTxConf v.txd = v.ring.lastFree ↔ spare c r - more = 0 := by
  have bound := open_.spare_lt
  have room := at'.room
  rw [at'.next, at'.lastFree, open_.last]
  constructor
  · intro same
    have := around.inj c.txDmaSize r.nextFree (more + 1) (spare c r + 1) (by omega) bound same
    omega
  · intro none
    rw [show more = spare c r by omega]

/-- A piece takes the next descriptor. -/
theorem MapAt.new (at' : MapAt c r v more) (open_ : Open c r) (piece : Piece) (addr : UInt64)
    (new : newDesc c.toTxConf piece.frag = true) (room : spare c r - more ≠ 0)
    (some : 0 < piece.size) :
    MapAt c r (pieceDone c t v piece (nextDesc c.toTxConf v.txd) addr) (more + 1) ∧
      held c (pieceDone c t v piece (nextDesc c.toTxConf v.txd) addr).ring.place
        (pieceDone c t v piece (nextDesc c.toTxConf v.txd) addr).taken =
        held c v.ring.place v.taken ++ [(addr, piece.size)] := by
  have bound := open_.spare_lt
  have fresh : nextDesc c.toTxConf v.txd ∉ v.taken := by
    rw [at'.next, at'.taken]
    intro member
    exact lt_irrefl _
      ((around.mem_iff _ _ (more + 1) (more + 1) (by omega) (by omega)).mp member)
  have taken : (pieceDone c t v piece (nextDesc c.toTxConf v.txd) addr).taken =
      v.taken ++ [nextDesc c.toTxConf v.txd] := if_pos new
  have mapped := piecePlace_new t piece v.k addr (v.ring.place (nextDesc c.toTxConf v.txd)) new some
  have here : (pieceDone c t v piece (nextDesc c.toTxConf v.txd) addr).ring.place
      (nextDesc c.toTxConf v.txd) =
      piecePlace c t piece v.k addr (v.ring.place (nextDesc c.toTxConf v.txd)) :=
    Function.update_self ..
  constructor
  · constructor
    · exact at'.itxd
    · exact at'.next
    · rw [taken, at'.taken, at'.next, ← around.succ]
    · omega
    · intro d other
      rw [taken, List.mem_append, not_or, List.mem_singleton] at other
      exact (Function.update_of_ne other.2 _ _).trans (at'.others d other.1)
    · exact at'.nextFree
    · exact at'.lastFree
    · exact at'.freeCount
    · intro _
      have last : unmaps c ((pieceDone c t v piece (nextDesc c.toTxConf v.txd) addr).ring.place
          (nextDesc c.toTxConf v.txd)).buf = [(addr, piece.size)] := by rw [here, mapped]
      exact ne_of_eq_of_ne last (List.cons_ne_nil _ _)
  · rw [taken, held_append, held_single, here, mapped]
    congr 1
    exact held_update c _ _ _ _ fresh

theorem newDesc_qdma {i : Nat} (old : newDesc c.toTxConf i = false) : c.qdma = false := by
  unfold newDesc at old
  exact (Bool.or_eq_false_iff.mp old).1

/-- A piece goes to the descriptor of the piece before, in place of what its half held. -/
theorem MapAt.old (at' : MapAt c r v more) (open_ : Open c r) (piece : Piece) (addr : UInt64)
    (old : newDesc c.toTxConf piece.frag = false) (some : 0 < piece.size) :
    MapAt c r (pieceDone c t v piece v.txd addr) more ∧
      ∃ rest, (held c (pieceDone c t v piece v.txd addr).ring.place
          (pieceDone c t v piece v.txd addr).taken).Perm (rest ++ [(addr, piece.size)]) ∧
        (held c v.ring.place v.taken).Perm
          (rest ++ half (v.ring.place v.txd).buf v.k) := by
  have pdma := newDesc_qdma old
  have taken : (pieceDone c t v piece v.txd addr).taken = v.taken := if_neg (by simp [old])
  have here : (pieceDone c t v piece v.txd addr).ring.place v.txd =
      piecePlace c t piece v.k addr (v.ring.place v.txd) := Function.update_self ..
  obtain ⟨all, absent⟩ := at'.before open_
  have parts := unmaps_halves pdma (piecePlace c t piece v.k addr (v.ring.place v.txd)).buf v.k
  obtain ⟨filled, other⟩ := piecePlace_half pdma t piece v.k addr (v.ring.place v.txd) some
  rw [filled, other, old, if_neg Bool.false_ne_true] at parts
  constructor
  · constructor
    · exact at'.itxd
    · exact at'.txd
    · exact taken.trans at'.taken
    · exact at'.room
    · intro d other
      rw [taken] at other
      have apart : d ≠ v.txd := by
        rintro rfl
        exact other (by rw [all]; simp)
      exact (Function.update_of_ne apart _ _).trans (at'.others d other)
    · exact at'.nextFree
    · exact at'.lastFree
    · exact at'.freeCount
    · intro _ none
      change unmaps c ((pieceDone c t v piece v.txd addr).ring.place v.txd).buf = [] at none
      rw [← here, none] at parts
      exact absurd parts.length_eq (by simp)
  · refine ⟨held c v.ring.place (around c.txDmaSize r.nextFree more) ++
      half (v.ring.place v.txd).buf (v.k + 1), ?_, ?_⟩
    · rw [taken, all, held_append, held_single, here, List.append_assoc]
      have before : held c (pieceDone c t v piece v.txd addr).ring.place
          (around c.txDmaSize r.nextFree more) =
          held c v.ring.place (around c.txDmaSize r.nextFree more) :=
        held_update c _ _ _ _ absent
      rw [before]
      exact (parts.trans List.perm_append_comm).append_left _
    · rw [all, held_append, held_single, List.append_assoc]
      exact ((unmaps_halves pdma (v.ring.place v.txd).buf v.k).trans
        List.perm_append_comm).append_left _

end Taking

section Keeping

variable {c} {t : Call} {r : Ring} {v : Vars} {more : Nat}

/-- All that is mapped is kept; in a buffer of the PDMA, the half of the next piece is free unless
it is `shared`. -/
structure Tidy (c : Conf) (v : Vars) (shared : Bool) : Prop where
  all : (held c v.ring.place v.taken).Perm v.mapped
  full : c.qdma = false → half (v.ring.place v.txd).buf (v.k + 1) ≠ []
  free : c.qdma = false → (half (v.ring.place v.txd).buf v.k = [] ↔ shared = false)

/-- A mapping is not kept. -/
def Lost (c : Conf) (v : Vars) : Prop := (held c v.ring.place v.taken).length < v.mapped.length

theorem Lost.untidy (lost : Lost c v) (shared : Bool) : ¬ Tidy c v shared := by
  intro tidy
  have same := tidy.all.length_eq
  unfold Lost at lost
  omega

theorem Tidy.new {shared : Bool} (tidy : Tidy c v shared) (at' : MapAt c r v more)
    (open_ : Open c r) (piece : Piece) (addr : UInt64)
    (new : newDesc c.toTxConf piece.frag = true) (room : spare c r - more ≠ 0)
    (some : 0 < piece.size) :
    Tidy c (pieceDone c t v piece (nextDesc c.toTxConf v.txd) addr) false := by
  have here : (pieceDone c t v piece (nextDesc c.toTxConf v.txd) addr).ring.place
      (nextDesc c.toTxConf v.txd) =
      piecePlace c t piece v.k addr (v.ring.place (nextDesc c.toTxConf v.txd)) :=
    Function.update_self ..
  have halves (pdma : c.qdma = false) := piecePlace_half pdma t piece v.k addr
    (v.ring.place (nextDesc c.toTxConf v.txd)) some
  rw [new, if_pos rfl, ← here] at halves
  constructor
  · rw [(at'.new open_ piece addr new room some).2]
    exact tidy.all.append_right _
  · intro pdma
    refine ne_of_eq_of_ne ((half_add_two _ _).trans (halves pdma).1) (List.cons_ne_nil _ _)
  · intro pdma
    exact ⟨fun _ => rfl, fun _ => (halves pdma).2⟩

theorem Tidy.old (tidy : Tidy c v false) (at' : MapAt c r v more) (open_ : Open c r)
    (piece : Piece) (addr : UInt64) (old : newDesc c.toTxConf piece.frag = false)
    (some : 0 < piece.size) : Tidy c (pieceDone c t v piece v.txd addr) true := by
  have pdma := newDesc_qdma old
  have here : (pieceDone c t v piece v.txd addr).ring.place v.txd =
      piecePlace c t piece v.k addr (v.ring.place v.txd) := Function.update_self ..
  have halves := piecePlace_half pdma t piece v.k addr (v.ring.place v.txd) some
  rw [old, if_neg Bool.false_ne_true, ← here] at halves
  obtain ⟨-, rest, now, before⟩ := at'.old (t := t) open_ piece addr old some
  constructor
  · rw [(tidy.free pdma).mpr rfl, List.append_nil] at before
    exact now.trans ((before.symm.trans tidy.all).append_right _)
  · intro _
    refine ne_of_eq_of_ne ((half_add_two _ _).trans halves.1) (List.cons_ne_nil _ _)
  · intro _
    have full : half ((pieceDone c t v piece v.txd addr).ring.place v.txd).buf (v.k + 1) ≠ [] := by
      rw [halves.2]
      exact tidy.full pdma
    exact ⟨fun none => absurd none full, fun wrong => absurd wrong (by simp)⟩

/-- The mapping of a half that is filled again is lost. -/
theorem Tidy.shared (tidy : Tidy c v true) (at' : MapAt c r v more) (open_ : Open c r)
    (piece : Piece) (addr : UInt64) (old : newDesc c.toTxConf piece.frag = false)
    (some : 0 < piece.size) : Lost c (pieceDone c t v piece v.txd addr) := by
  have pdma := newDesc_qdma old
  obtain ⟨-, rest, now, before⟩ := at'.old (t := t) open_ piece addr old some
  have full : half (v.ring.place v.txd).buf v.k ≠ [] := by
    rw [ne_eq, tidy.free pdma]
    simp
  have one := List.length_pos_iff.mpr full
  have mapped : (pieceDone c t v piece v.txd addr).mapped.length = v.mapped.length + 1 :=
    List.length_append
  have all := tidy.all.length_eq
  unfold Lost
  rw [now.length_eq, mapped, ← all, before.length_eq, List.length_append, List.length_append,
    List.length_singleton]
  omega

theorem Lost.new (lost : Lost c v) (at' : MapAt c r v more) (open_ : Open c r) (piece : Piece)
    (addr : UInt64) (new : newDesc c.toTxConf piece.frag = true) (room : spare c r - more ≠ 0)
    (some : 0 < piece.size) :
    Lost c (pieceDone c t v piece (nextDesc c.toTxConf v.txd) addr) := by
  have mapped : (pieceDone c t v piece (nextDesc c.toTxConf v.txd) addr).mapped.length =
    v.mapped.length + 1 := List.length_append
  unfold Lost at lost ⊢
  rw [(at'.new open_ piece addr new room some).2, mapped, List.length_append,
    List.length_singleton]
  omega

theorem Lost.old (lost : Lost c v) (at' : MapAt c r v more) (open_ : Open c r) (piece : Piece)
    (addr : UInt64) (old : newDesc c.toTxConf piece.frag = false) (some : 0 < piece.size) :
    Lost c (pieceDone c t v piece v.txd addr) := by
  obtain ⟨-, rest, now, before⟩ := at'.old (t := t) open_ piece addr old some
  have mapped : (pieceDone c t v piece v.txd addr).mapped.length = v.mapped.length + 1 :=
    List.length_append
  unfold Lost at lost ⊢
  rw [before.length_eq, List.length_append] at lost
  rw [now.length_eq, mapped, List.length_append, List.length_singleton]
  omega

end Keeping

section Ending

variable {c} {t : Call} {r : Ring} {v : Vars} {more : Nat}

theorem errDma_undone (w : Vars) (more : Nat) (itxd : w.itxd = r.nextFree)
    (inside : r.nextFree < c.txDmaSize) (short : more < c.txDmaSize)
    (txd : w.txd = (r.nextFree + (more + 1)) % c.txDmaSize) :
    ∃ u, errDma c w = some (undoLeft w u) ∧
      Undone c (undoStart w) (around c.txDmaSize r.nextFree (more + 1)) u := by
  have here : (undoStart w).itxd = r.nextFree % c.txDmaSize := by
    rw [Nat.mod_eq_of_lt inside]
    exact itxd
  obtain ⟨u, ends, undone⟩ :=
    undoLoop_undone r.nextFree more c.txDmaSize (undoStart w) here short short
  refine ⟨u, ?_, undone⟩
  unfold errDma
  rw [txd, ends]
  rfl

/-- Where the piece that fails has a descriptor of its own, the loop visits all that were taken. -/
theorem MapAt.err_new (at' : MapAt c r v more) (open_ : Open c r) (nDesc : Nat) :
    (∃ l, errDma c { v with txd := nextDesc c.toTxConf v.txd, nDesc := nDesc } = some l ∧
      RolledBack c r l) ↔ (held c v.ring.place v.taken).Perm v.mapped := by
  have bound := open_.spare_lt
  have room := at'.room
  obtain ⟨u, ends, undone⟩ := errDma_undone (r := r)
    { v with txd := nextDesc c.toTxConf v.txd, nDesc := nDesc } more at'.itxd open_.nextFree
    (by omega) at'.next
  rw [← at'.taken] at undone
  have unmapped : u.unmapped = held c v.ring.place v.taken := undone.unmapped
  rw [ends]
  constructor
  · rintro ⟨l, is, back⟩
    cases is
    rw [← unmapped]
    exact back.once
  · intro all
    refine ⟨_, rfl, ?_⟩
    constructor
    · intro d visited
      change d ∈ u.visited at visited
      rw [undone.visited] at visited
      exact visited
    · change u.unmapped.Perm v.mapped
      rw [unmapped]
      exact all
    · exact undone.nextFree.trans at'.nextFree
    · exact undone.freeCount.trans at'.freeCount
    · intro d _ outside
      have other : d ∉ v.taken := by
        rw [at'.taken]
        exact fun member => outside (taken_freeRun (more + 1) (by omega) d member)
      exact (undone.others d other).trans (at'.others d other)

/-- Where it has none, the loop ends before the last descriptor, or comes around the ring. -/
theorem MapAt.err_old (at' : MapAt c r v more) (open_ : Open c r)
    (most : (held c v.ring.place v.taken).length ≤ v.mapped.length) (nDesc : Nat) :
    ¬ ∃ l, errDma c { v with nDesc := nDesc } = some l ∧ RolledBack c r l := by
  have bound := open_.spare_lt
  have room := at'.room
  rintro ⟨l, is, back⟩
  cases more with
  | zero =>
    have around_ : v.txd = (r.nextFree + (c.txDmaSize - 1 + 1)) % c.txDmaSize := by
      rw [Nat.sub_add_cancel (by omega), Nat.add_mod_right]
      exact at'.txd
    obtain ⟨u, ends, undone⟩ := errDma_undone (r := r) { v with nDesc := nDesc }
      (c.txDmaSize - 1) at'.itxd open_.nextFree (by omega) around_
    rw [ends] at is
    cases is
    have visited : (r.nextFree + 1) % c.txDmaSize ∈ u.visited := by
      rw [undone.visited]
      exact (around.mem ..).mpr ⟨1, by omega, rfl⟩
    have own : (r.nextFree + 1) % c.txDmaSize ∈ v.taken := back.own _ visited
    rw [at'.taken, around.mem_iff _ _ _ _ (by omega) (by omega)] at own
    omega
  | succ more =>
    obtain ⟨u, ends, undone⟩ := errDma_undone (r := r) { v with nDesc := nDesc } more at'.itxd
      open_.nextFree (by omega) at'.txd
    rw [ends] at is
    cases is
    have once : u.unmapped.Perm v.mapped := back.once
    have unmapped : u.unmapped =
        held c v.ring.place (around c.txDmaSize r.nextFree (more + 1)) := undone.unmapped
    have last := List.length_pos_iff.mpr (at'.filled (Nat.succ_ne_zero more))
    have same := once.length_eq
    rw [unmapped] at same
    rw [at'.held_taken open_, List.length_append] at most
    omega

theorem keeps_perm_iff {shared : Bool} (keeps : Tidy c v shared ∨ Lost c v) :
    (held c v.ring.place v.taken).Perm v.mapped ↔ Tidy c v shared := by
  constructor
  · intro all
    rcases keeps with tidy | lost
    · exact tidy
    · have same := all.length_eq
      unfold Lost at lost
      omega
  · exact fun tidy => tidy.all

theorem keeps_le {shared : Bool} (keeps : Tidy c v shared ∨ Lost c v) :
    (held c v.ring.place v.taken).length ≤ v.mapped.length := by
  rcases keeps with tidy | lost
  · exact le_of_eq tidy.all.length_eq
  · exact le_of_lt lost

theorem pieces_rolledBack_iff (open_ : Open c r) (ps : List Piece) (v : Vars) (more : Nat)
    (shared : Bool) (at' : MapAt c r v more) (keeps : Tidy c v shared ∨ Lost c v)
    (sized : ∀ p ∈ ps, 0 < p.size)
    (fails : ∀ l, mapEnd c t (ps.foldlM (mapPiece c t) v) = some l → l.answer = .noMem) :
    (∃ l, mapEnd c t (ps.foldlM (mapPiece c t) v) = some l ∧ RolledBack c r l) ↔
      Tidy c v shared ∧
        SharesFrom c t.maps v.k (spare c r - more) shared (ps.map Piece.frag) := by
  induction ps generalizing v more shared with
  | nil => exact absurd (fails _ rfl) (by simp [mapDone])
  | cons piece ps ih =>
    have size := sized piece (List.mem_cons_self ..)
    have sizes (p : Piece) (member : p ∈ ps) := sized p (List.mem_cons_of_mem _ member)
    rw [List.map_cons, SharesFrom]
    rw [List.foldlM_cons] at fails ⊢
    cases new : newDesc c.toTxConf piece.frag with
    | true =>
      rw [if_pos rfl]
      by_cases full : nextDesc c.toTxConf v.txd = v.ring.lastFree
      · have step : mapPiece c t v piece =
            .error { v with txd := nextDesc c.toTxConf v.txd } := by
          simp [mapPiece, new, full]
        have none := (at'.full_iff open_).mp full
        rw [step]
        refine (at'.err_new open_ v.nDesc).trans ((keeps_perm_iff keeps).trans ?_)
        simp [none]
      · have room := (at'.full_iff open_).not.mp full
        cases answer : t.maps v.k with
        | none =>
          have step : mapPiece c t v piece =
              .error { v with txd := nextDesc c.toTxConf v.txd, nDesc := v.nDesc + 1 } := by
            simp [mapPiece, new, full, answer]
          rw [step]
          refine (at'.err_new open_ _).trans ((keeps_perm_iff keeps).trans ?_)
          simp
        | some addr =>
          have step : mapPiece c t v piece =
              .ok (pieceDone c t v piece (nextDesc c.toTxConf v.txd) addr) := by
            simp [mapPiece, new, full, answer]
          rw [step] at fails ⊢
          have next := (at'.new (t := t) open_ piece addr new room size).1
          have keep : (Tidy c v shared ∧
              Tidy c (pieceDone c t v piece (nextDesc c.toTxConf v.txd) addr) false) ∨
              (Lost c v ∧ Lost c (pieceDone c t v piece (nextDesc c.toTxConf v.txd) addr)) :=
            keeps.imp (fun tidy => ⟨tidy, tidy.new at' open_ piece addr new room size⟩)
              (fun lost => ⟨lost, lost.new at' open_ piece addr new room size⟩)
          refine (ih _ (more + 1) false next (keep.imp And.right And.right) sizes fails).trans ?_
          rcases keep with ⟨tidy, tidy'⟩ | ⟨lost, lost'⟩
          · simp only [tidy, tidy', room, reduceCtorEq, true_and, false_or]
            rfl
          · simp only [lost.untidy, lost'.untidy, false_and]
    | false =>
      rw [if_neg Bool.false_ne_true]
      cases answer : t.maps v.k with
      | none =>
        have step : mapPiece c t v piece = .error { v with nDesc := v.nDesc } := by
          simp [mapPiece, new, answer]
        rw [step]
        have never := at'.err_old open_ (keeps_le keeps) v.nDesc
        exact ⟨fun back => absurd back never, fun well => absurd rfl well.2.1⟩
      | some addr =>
        have step : mapPiece c t v piece = .ok (pieceDone c t v piece v.txd addr) := by
          simp [mapPiece, new, answer]
        rw [step] at fails ⊢
        have next := (at'.old (t := t) open_ piece addr new size).1
        cases shared with
        | true =>
          have lost : Lost c (pieceDone c t v piece v.txd addr) :=
            keeps.elim (fun tidy => tidy.shared at' open_ piece addr new size)
              (fun lost => lost.old at' open_ piece addr new size)
          refine (ih _ more true next (.inr lost) sizes fails).trans ?_
          simp [lost.untidy]
        | false =>
          have keep : (Tidy c v false ∧ Tidy c (pieceDone c t v piece v.txd addr) true) ∨
              (Lost c v ∧ Lost c (pieceDone c t v piece v.txd addr)) :=
            keeps.imp (fun tidy => ⟨tidy, tidy.old at' open_ piece addr new size⟩)
              (fun lost => ⟨lost, lost.old at' open_ piece addr new size⟩)
          refine (ih _ more true next (keep.imp And.right And.right) sizes fails).trans ?_
          rcases keep with ⟨tidy, tidy'⟩ | ⟨lost, lost'⟩
          · simp only [tidy, tidy', ne_eq, reduceCtorEq, not_false_eq_true, true_and]
            rfl
          · simp only [lost.untidy, lost'.untidy, false_and]

end Ending

section Calls

variable {c} {t : Call} {r : Ring} {a : UInt64}

/-- The variables once the linear part is mapped -/
def headVars (c : Conf) (t : Call) (a : UInt64) (r : Ring) : Vars :=
  mapHead c t a (r.modify r.nextFree Place.clearBuf)

theorem headVars_place : (headVars c t a r).ring.place r.nextFree =
    headPlace c t a ((r.place r.nextFree).clearBuf) := by
  exact (Function.update_self ..).trans (congrArg (headPlace c t a) (Function.update_self ..))

theorem headVars_at (open_ : Open c r) : MapAt c r (headVars c t a r) 0 where
  itxd := rfl
  txd := (Nat.mod_eq_of_lt open_.nextFree).symm
  taken := congrArg (fun d => [d]) (Nat.mod_eq_of_lt open_.nextFree).symm
  room := Nat.zero_le _
  others := by
    intro d other
    have apart : d ≠ r.nextFree := fun same => other (same ▸ List.mem_singleton_self _)
    exact (Function.update_of_ne apart _ _).trans (Function.update_of_ne apart _ _)
  nextFree := rfl
  lastFree := rfl
  freeCount := rfl
  filled := fun more => absurd rfl more

theorem headPlace_half (pdma : c.qdma = false) (p : Place) :
    half (headPlace c t a p.clearBuf).buf 0 = live (a, t.padded.headlen) ∧
      half (headPlace c t a p.clearBuf).buf 1 = [] := by
  unfold headPlace
  dsimp only
  refine ⟨(setupTxBuf_half pdma ..).1, (setupTxBuf_half pdma ..).2.trans ?_⟩
  simp [half, live, Place.clearBuf, DmaBuf.zero]

theorem headPlace_qdma (qdma : c.qdma = true) (p : Place) :
    unmaps c (headPlace c t a p).buf = [(a, t.padded.headlen)] := by
  simp [headPlace, unmaps, qdma, setupTxBuf_qdma qdma]

theorem headVars_held : held c (headVars c t a r).ring.place (headVars c t a r).taken =
    unmaps c (headPlace c t a ((r.place r.nextFree).clearBuf)).buf := by
  rw [← headVars_place]
  exact held_single ..

/-- A linear part of no bytes is mapped too, and the PDMA takes it for none. -/
theorem headVars_live (pdma : c.qdma = false) :
    (held c (headVars c t a r).ring.place (headVars c t a r).taken).Perm
      (live (a, t.padded.headlen)) := by
  have parts := unmaps_halves pdma (headPlace c t a ((r.place r.nextFree).clearBuf)).buf 0
  obtain ⟨first, second⟩ := headPlace_half (t := t) (a := a) pdma (r.place r.nextFree)
  rw [first, second, List.append_nil] at parts
  rw [headVars_held]
  exact parts

theorem headVars_tidy (linear : c.qdma = true ∨ t.padded.headlen ≠ 0) :
    Tidy c (headVars c t a r) false := by
  have full (pdma : c.qdma = false) : live (a, t.padded.headlen) = [(a, t.padded.headlen)] :=
    if_pos (linear.resolve_left (by simp [pdma]))
  have here := headVars_place (c := c) (t := t) (r := r) (a := a)
  constructor
  · cases engine : c.qdma with
    | true => rw [headVars_held, headPlace_qdma engine]; rfl
    | false =>
      have parts := headVars_live (t := t) (r := r) (a := a) engine
      rw [full engine] at parts
      exact parts
  · intro pdma
    change half ((headVars c t a r).ring.place r.nextFree).buf (0 + 2) ≠ []
    rw [half_add_two, here, (headPlace_half pdma _).1, full pdma]
    simp
  · intro pdma
    change half ((headVars c t a r).ring.place r.nextFree).buf 1 = [] ↔ false = false
    rw [here]
    exact ⟨fun _ => rfl, fun _ => (headPlace_half pdma _).2⟩

theorem headVars_lost (pdma : c.qdma = false) (none : t.padded.headlen = 0) :
    Lost c (headVars c t a r) := by
  have empty : live (a, t.padded.headlen) = [] := if_neg (by simp [none])
  have parts := headVars_live (t := t) (r := r) (a := a) pdma
  rw [empty] at parts
  unfold Lost
  rw [parts.length_eq]
  exact Nat.zero_lt_one

theorem gaveUp_rolledBack (r' : Ring) (nextFree : r'.nextFree = r.nextFree)
    (freeCount : r'.freeCount = r.freeCount)
    (others : ∀ d, d ∉ r.freeRun c.txDmaSize → r'.place d = r.place d) :
    RolledBack c r (gaveUp r') where
  own := by
    intro d visited
    cases visited
  once := List.Perm.nil
  nextFree := nextFree
  freeCount := freeCount
  others := fun d _ => others d

theorem errDma_fails (v : Vars) (l : Left) (ends : errDma c v = some l) : l.answer = .noMem := by
  obtain ⟨u, -, rfl⟩ := Option.map_eq_some_iff.mp ends
  rfl

/-- QDMA gives each piece a descriptor. -/
theorem sharesWell_qdma (qdma : c.qdma = true) (maps : Nat → Option UInt64) (room : Nat)
    (frags : List Nat) : SharesWell c maps room frags := by
  intro before i after _ old
  have pdma := newDesc_qdma old
  rw [qdma] at pdma
  cases pdma

/-- A call that fails undoes what it did, but for the PDMA: there a piece must not fail, and must
not follow another, where it shares a descriptor. -/
theorem mtkTxMap_rolledBack_iff (c : Conf) (t : Call) (r : Ring)
    (nextFree : r.nextFree < c.txDmaSize) (lastFree : r.lastFree < c.txDmaSize)
    (fails : ∀ l, mtkTxMap c t r = some l → l.answer = .noMem) :
    (∃ l, mtkTxMap c t r = some l ∧ RolledBack c r l) ↔
      c.qdma = true ∨ HeadFails t r ∨ (t.padded.headlen ≠ 0 ∧
        SharesWell c t.maps (spare c r) (fragPieces c.toTxConf t.padded.frags)) := by
  unfold HeadFails
  unfold mtkTxMap at fails ⊢
  dsimp only at fails ⊢
  by_cases pad : t.skb.len ≤ 40 ∧ t.padFails = true
  · rw [if_pos pad]
    refine iff_of_true ⟨_, rfl, ?_⟩ (.inr (.inl (.inl pad)))
    exact gaveUp_rolledBack r rfl rfl fun d _ => rfl
  · by_cases full : r.nextFree = r.lastFree
    · rw [if_neg pad, if_pos full]
      refine iff_of_true ⟨_, rfl, ?_⟩ (.inr (.inl (.inr (.inl full))))
      exact gaveUp_rolledBack r rfl rfl fun d _ => rfl
    · rw [if_neg pad, if_neg full] at fails ⊢
      have open_ : Open c r := ⟨nextFree, lastFree, full⟩
      cases answer : t.maps 0 with
      | none =>
        refine iff_of_true ⟨_, rfl, ?_⟩ (.inr (.inl (.inr (.inr rfl))))
        refine gaveUp_rolledBack _ rfl rfl fun d outside => Function.update_of_ne ?_ _ _
        rintro rfl
        refine outside ((around.mem ..).mpr ⟨0, Nat.succ_pos _, ?_⟩)
        exact (Nat.mod_eq_of_lt nextFree).symm
      | some addr =>
        rw [answer] at fails
        have ends (shared : Bool) (keeps : Tidy c (headVars c t addr r) shared ∨
            Lost c (headVars c t addr r)) := pieces_rolledBack_iff (t := t) open_
          (pieces c t.padded.frags) (headVars c t addr r) 0 shared (headVars_at open_) keeps
          (pieces_pos c t.padded.frags) fails
        by_cases linear : c.qdma = true ∨ t.padded.headlen ≠ 0
        · have tidy := headVars_tidy (r := r) (a := addr) linear
          refine (ends false (.inl tidy)).trans ?_
          rw [pieces_frag, Nat.sub_zero]
          change _ ∧ SharesFrom c t.maps 1 _ _ _ ↔ _
          rw [← sharesWell_iff]
          cases engine : c.qdma with
          | true => simp [tidy, sharesWell_qdma engine]
          | false =>
            have some := linear.resolve_left (by simp [engine])
            simp [tidy, pad, full, some]
        · obtain ⟨pdma, empty⟩ := not_or.mp linear
          have lost := headVars_lost (r := r) (a := addr) (Bool.eq_false_of_not_eq_true pdma)
            (not_not.mp empty)
          refine (ends false (.inr lost)).trans ?_
          simp [lost.untidy, pdma, not_not.mp empty, pad, full]

end Calls

section Samples

/-- A ring of the MT7628 as `mtk_tx_alloc` leaves it, but for the pointers in `txd2` -/
def freshRing : Ring where
  place := fun _ =>
    let desc : TxDma := ⟨0, 0, txDmaLs0 ||| txDmaOwnerCpu, 0, 0, 0, 0, 0⟩
    { buf := DmaBuf.zero, dma := desc, dmaPdma := { desc with txd2 := txDmaDesp2Def, txd3 := 0 } }
  nextFree := 0
  lastFree := 2047
  freeCount := 2046

theorem ring_2048 : ∃ k, 2048 = 2 ^ k := ⟨11, rfl⟩
theorem length_3fff : 0 < 0x3fff := by decide

/-- `rt5350_data`, which has the PDMA only -/
def rt5350 : Conf where
  qdma := false
  txDmaSize := 2048
  dmaMaxLen := 0x3fff
  netdev := fun mac => mac.val == 0
  txDmaSize_pow := ring_2048
  dmaMaxLen_pos := length_3fff
  netsysV2 := false
  netsysV3 := false
  addr64 := false
  plen1High := false
  hnat := false
  dmaLenOffset := 16

/-- A packet of three parts, of which the DMA layer maps the first `mapped`. -/
def threeParts (mapped : Nat) : Call where
  skb := { id := 1, headlen := 66, frags := [1448, 1448], isGso := false, queueMapping := 0 }
  mac := mtkGmac1Id
  gso := false
  csum := false
  vlan := false
  vlanTci := 0
  usesDsa := false
  magic := 0
  padFails := false
  maps := fun k => if k < mapped then some (0x1000000 + 0x1000 * UInt64.ofNat k) else none

theorem freshRing_open : Open rt5350 freshRing := ⟨by decide, by decide, by decide⟩

theorem threeParts_pieces (mapped : Nat) : pieces rt5350 (threeParts mapped).padded.frags =
    [⟨0, 0, 1448, false⟩, ⟨1, 0, 1448, true⟩] := by
  change pieces rt5350 [1448, 1448] = _
  decide

theorem threeParts_call (mapped : Nat) (first : 0 < mapped) :
    mtkTxMap rt5350 (threeParts mapped) freshRing = mapEnd rt5350 (threeParts mapped)
      ([⟨0, 0, 1448, false⟩, ⟨1, 0, 1448, true⟩].foldlM (mapPiece rt5350 (threeParts mapped))
        (headVars rt5350 (threeParts mapped) 0x1000000 freshRing)) := by
  have answer : (threeParts mapped).maps 0 = some 0x1000000 := if_pos first
  unfold mtkTxMap
  dsimp only
  rw [if_neg (fun short => absurd short.2 Bool.false_ne_true), if_neg freshRing_open.room, answer,
    threeParts_pieces]
  rfl

/-- The second fragment has a descriptor of its own. -/
theorem threeParts_rolledBack :
    ∃ l, mtkTxMap rt5350 (threeParts 2) freshRing = some l ∧ RolledBack rt5350 freshRing l := by
  refine (mtkTxMap_rolledBack_iff rt5350 (threeParts 2) freshRing freshRing_open.nextFree
    freshRing_open.lastFree ?_).mpr (.inr (.inr ⟨by decide, ?_⟩))
  · rw [threeParts_call 2 (by decide)]
    exact fun l ends => errDma_fails _ l ends
  · have frags : fragPieces rt5350.toTxConf (threeParts 2).padded.frags = [0, 1] := by decide
    rw [frags, sharesWell_iff]
    exact ⟨by decide, rfl, .inr (.inl rfl)⟩

/-- The first has none: the loop takes every packet from the ring. -/
theorem threeParts_around : ¬ ∀ (c : Conf) (t : Call) (r : Ring), r.nextFree < c.txDmaSize →
    r.lastFree < c.txDmaSize → (∀ l, mtkTxMap c t r = some l → l.answer = .noMem) →
    ∃ l, mtkTxMap c t r = some l ∧ RolledBack c r l := by
  intro always
  have head := headVars_at (t := threeParts 1) (a := 0x1000000) freshRing_open
  have tidy := headVars_tidy (c := rt5350) (t := threeParts 1) (r := freshRing)
    (a := 0x1000000) (.inr (by decide))
  have call := threeParts_call 1 (by decide)
  refine head.err_old freshRing_open (keeps_le (.inl tidy)) 1 ?_
  have back := always rt5350 (threeParts 1) freshRing freshRing_open.nextFree
    freshRing_open.lastFree
  rw [call] at back
  exact back fun l ends => errDma_fails _ l ends

end Samples

end Filogic.Eth.Mapping
