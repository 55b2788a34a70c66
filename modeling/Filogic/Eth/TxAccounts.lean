import Filogic.Eth.TxRing

/-! The pointers and the count of a transmit ring, over every interleaving of its user and its
poller. -/

namespace Filogic.Eth
open Lib

variable {c : TxConf}

/-- The descriptors from `next_free` to `last_free`. -/
def freeRun (c : TxConf) (r : TxRing) : List Nat :=
  around c.txDmaSize r.nextFree
    ((r.lastFree + c.txDmaSize - r.nextFree) % c.txDmaSize + 1)

/-- The count is of the descriptors that no packet in flight has, but for two, and the free run is
these descriptors. -/
structure TxAccounts (c : TxConf) (r : TxRing) : Prop where
  count : r.freeCount = ((Finset.range c.txDmaSize \ r.inFlight.toFinset).card : Int) - 2
  run : ∀ d, d ∈ freeRun c r ↔ d < c.txDmaSize ∧ d ∉ r.inFlight

/-- The user of the ring has taken descriptors from `start` on, and `room` is left there. -/
def Xmit.TakenFrom (n start room : Nat) : Xmit → Prop
  | .mapping m => ∃ taken, m.nDesc = taken + 1 ∧ m.nDesc ≤ room ∧ m.itxd = start % n ∧
      m.txd = (start + taken) % n ∧ m.taken = around n start m.nDesc
  | _ => True

/-- The poller is at `cpu`, and has seen no more done than there is. -/
def PollAt (n cpu done : Nat) (rest : Nat) : Option Poll → Prop
  | none => rest = cpu % n
  | some p => p.cpu = cpu % n ∧ ∃ seen ≤ done, p.dma = (cpu + seen) % n

/-- Where the poller of a ring starts: the one for QDMA is a descriptor behind. -/
def cpuPlace (c : TxConf) (last : Nat) : Nat := if c.qdma then last else last + 1

/-- `len` descriptors in flight follow the last free one, whose place `last` is counted without
end; the hardware is done with the first `done` of them. -/
structure TxAt (c : TxConf) (s : TxState) (last len done : Nat) : Prop where
  up : s.up = true
  lastFree : s.ring.lastFree = last % c.txDmaSize
  nextFree : s.ring.nextFree = (last + 1 + len) % c.txDmaSize
  inFlight : s.ring.inFlight = around c.txDmaSize (last + 1) len
  room : len < c.txDmaSize
  count : s.ring.freeCount = (c.txDmaSize : Int) - 2 - len
  dma : s.dma = (cpuPlace c last + done) % c.txDmaSize
  done_le : done ≤ len
  xmit : s.xmit.TakenFrom c.txDmaSize (last + 1 + len) (c.txDmaSize - 1 - len)
  poll : PollAt c.txDmaSize (cpuPlace c last) done
    (if c.qdma then s.ring.lastFreePtr else s.ring.cpuIdx) s.poll

theorem txDmaSize_pos (c : TxConf) : 0 < c.txDmaSize := by
  obtain ⟨k, pow⟩ := c.txDmaSize_pow
  rw [pow]
  exact Nat.two_pow_pos k

theorem nextDesc_mod (place : Nat) :
    nextDesc c (place % c.txDmaSize) = (place + 1) % c.txDmaSize := Nat.mod_add_mod ..

theorem nextDespIdx_mod (place : Nat) :
    nextDespIdx (place % c.txDmaSize) c.txDmaSize = (place + 1) % c.txDmaSize := by
  obtain ⟨k, pow⟩ := c.txDmaSize_pow
  have same : nextDespIdx (place % c.txDmaSize) c.txDmaSize =
      (place % c.txDmaSize + 1) % c.txDmaSize := by
    rw [nextDespIdx, pow]
    exact Nat.and_two_pow_sub_one_eq_mod _ k
  rw [same, Nat.mod_add_mod]

section Accounts

variable {s : TxState} {last len done : Nat}

theorem gap_mod (n first gap : Nat) (below : gap < n) :
    ((first + gap) % n + n - first % n) % n = gap := by
  have positive : 0 < n := by omega
  have rest := Nat.mod_lt first positive
  have split : (first + gap) % n = (first % n + gap) % n := (Nat.mod_add_mod ..).symm
  rw [split]
  by_cases wraps : first % n + gap < n
  · rw [Nat.mod_eq_of_lt wraps, show first % n + gap + n - first % n = gap + n by omega,
      Nat.add_mod_right, Nat.mod_eq_of_lt below]
  · have less : (first % n + gap) % n = first % n + gap - n := by
      rw [Nat.mod_eq_sub_mod (Nat.not_lt.mp wraps), Nat.mod_eq_of_lt (by omega)]
    rw [less, show first % n + gap - n + n - first % n = gap by omega, Nat.mod_eq_of_lt below]

theorem TxAt.inside (at' : TxAt c s last len done) (d : Nat) (member : d ∈ s.ring.inFlight) :
    d < c.txDmaSize := by
  rw [at'.inFlight] at member
  obtain ⟨j, -, rfl⟩ := (around.mem ..).mp member
  exact Nat.mod_lt _ (txDmaSize_pos c)

theorem TxAt.accounts (at' : TxAt c s last len done) : TxAccounts c s.ring := by
  have room := at'.room
  have positive := txDmaSize_pos c
  constructor
  · have inside : s.ring.inFlight.toFinset ⊆ Finset.range c.txDmaSize := by
      intro d member
      rw [List.mem_toFinset] at member
      exact Finset.mem_range.mpr (at'.inside d member)
    have distinct : s.ring.inFlight.toFinset.card = len := by
      rw [at'.inFlight, List.toFinset_card_of_nodup (around.nodup _ _ _ room.le), around.length]
    rw [Finset.card_sdiff_of_subset inside, Finset.card_range, distinct, at'.count]
    omega
  · intro d
    have gap : (s.ring.lastFree + c.txDmaSize - s.ring.nextFree) % c.txDmaSize + 1 =
        c.txDmaSize - len := by
      have place : last % c.txDmaSize =
          (last + 1 + len + (c.txDmaSize - 1 - len)) % c.txDmaSize := by
        rw [show last + 1 + len + (c.txDmaSize - 1 - len) = last + c.txDmaSize by omega,
          Nat.add_mod_right]
      rw [at'.lastFree, at'.nextFree, place, gap_mod _ _ _ (by omega)]
      omega
    have start : around c.txDmaSize s.ring.nextFree (c.txDmaSize - len) =
        around c.txDmaSize (last + 1 + len) (c.txDmaSize - len) := by
      rw [at'.nextFree]
      apply List.ext_getElem
      · simp
      · intro j _ _
        simp [around]
    rw [freeRun, gap, start, at'.inFlight]
    constructor
    · intro member
      have below : d < c.txDmaSize := by
        obtain ⟨j, -, rfl⟩ := (around.mem ..).mp member
        exact Nat.mod_lt _ positive
      exact ⟨below, (around.mem_rest _ _ _ _ room.le below).mp member⟩
    · rintro ⟨below, free⟩
      exact (around.mem_rest _ _ _ _ room.le below).mpr free

end Accounts

section Steps

variable {s : TxState} {last len done : Nat}

/-- What a packet in flight does not use may be written. -/
theorem TxAt.congr (at' : TxAt c s last len done) (s' : TxState)
    (ring : ∃ owner buf overwritten, s'.ring =
      { s.ring with owner := owner, buf := buf, overwritten := overwritten })
    (dma : s'.dma = s.dma) (poll : s'.poll = s.poll) (up : s'.up = s.up)
    (xmit : s'.xmit.TakenFrom c.txDmaSize (last + 1 + len) (c.txDmaSize - 1 - len)) :
    TxAt c s' last len done := by
  obtain ⟨owner, buf, overwritten, same⟩ := ring
  refine ⟨up.trans at'.up, ?_, ?_, ?_, at'.room, ?_, ?_, at'.done_le, xmit, ?_⟩
  · rw [same]; exact at'.lastFree
  · rw [same]; exact at'.nextFree
  · rw [same]; exact at'.inFlight
  · rw [same]; exact at'.count
  · rw [dma]; exact at'.dma
  · rw [same, poll]; exact at'.poll

theorem txAlloc_at (s : TxState) (idle : s.xmit = .idle) (none : s.poll = none) :
    TxAt c (txAlloc c s) (c.txDmaSize - 1) 0 0 := by
  have positive := txDmaSize_pos c
  have back : c.txDmaSize - 1 + 1 = c.txDmaSize := by omega
  have here : (c.txDmaSize - 1) % c.txDmaSize = c.txDmaSize - 1 := Nat.mod_eq_of_lt (by omega)
  constructor
  · rfl
  · exact here.symm
  · rw [Nat.add_zero, back, Nat.mod_self]
    rfl
  · rfl
  · exact positive
  · exact (sub_zero _).symm
  · unfold txAlloc cpuPlace
    dsimp only
    rw [Nat.add_zero]
    split_ifs
    · exact here.symm
    · rw [back, Nat.mod_self]
  · exact le_refl _
  · change s.xmit.TakenFrom ..
    rw [idle]
    trivial
  · change PollAt _ _ _ _ s.poll
    rw [none]
    unfold txAlloc cpuPlace PollAt
    dsimp only
    split_ifs
    · exact here.symm
    · rw [back, Nat.mod_self]

theorem drop_at (at' : TxAt c s last len done) (skb : Skb) :
    TxAt c (drop skb s) last len done :=
  at'.congr _ ⟨_, _, _, rfl⟩ rfl rfl rfl trivial

/-- A call starts, and takes the first free descriptor. -/
theorem mapHead_at (at' : TxAt c s last len done) (t : XmitTry) (skb : Skb) (mac : Fin 3) :
    TxAt c (mapHead c t skb mac s) last len done := by
  unfold mapHead
  dsimp only
  split_ifs with full fails
  · exact drop_at at' skb
  · exact at'.congr _ ⟨_, _, _, rfl⟩ rfl rfl rfl trivial
  · refine at'.congr _ ⟨_, _, _, rfl⟩ rfl rfl rfl ?_
    have room := at'.room
    have some : len ≠ c.txDmaSize - 1 := by
      intro equal
      apply full
      rw [at'.nextFree, at'.lastFree, equal,
        show last + 1 + (c.txDmaSize - 1) = last + c.txDmaSize by omega, Nat.add_mod_right]
    exact ⟨0, rfl, by dsimp only; omega, at'.nextFree, at'.nextFree, by
      rw [at'.nextFree]
      rfl⟩

theorem mtkStartXmit_at (at' : TxAt c s last len done) (t : XmitTry) (skb : Skb) (mac : Fin 3) :
    TxAt c (mtkStartXmit c t skb mac s) last len done := by
  unfold mtkStartXmit
  split_ifs
  · exact drop_at at' skb
  · exact at'.congr _ ⟨_, _, _, rfl⟩ rfl rfl rfl at'.xmit
  · exact drop_at at' skb
  · exact at'.congr _ ⟨_, _, _, rfl⟩ rfl rfl rfl trivial
  · exact mapHead_at at' t _ mac
  · exact mapHead_at at' t _ mac

theorem mapDone_at (at' : TxAt c s last len done) (m : TxMap) (busy : s.xmit = .mapping m) :
    TxAt c (mapDone c m s) last (len + m.nDesc) done := by
  have xmit := at'.xmit
  rw [busy] at xmit
  obtain ⟨taken, count, short, -, txd, all⟩ := xmit
  have room := at'.room
  constructor
  · exact at'.up
  · exact at'.lastFree
  · change nextDesc c m.txd = _
    rw [txd, nextDesc_mod, count]
    congr 1
    omega
  · change s.ring.inFlight ++ m.taken = _
    rw [at'.inFlight, all, around.append]
  · omega
  · change s.ring.freeCount - m.nDesc = _
    rw [at'.count]
    push_cast
    ring
  · exact at'.dma
  · exact le_trans at'.done_le (Nat.le_add_right _ _)
  · trivial
  · exact at'.poll

theorem mapPiece_at (at' : TxAt c s last len done) (fails : Bool) (m : TxMap)
    (busy : s.xmit = .mapping m) :
    ∃ len', TxAt c (mapPiece c fails m s) last len' done := by
  unfold mapPiece
  cases pieces : m.pieces with
  | nil => exact ⟨_, mapDone_at at' m busy⟩
  | cons i rest =>
    dsimp only
    refine ⟨len, ?_⟩
    by_cases full : newDesc c i ∧ (if newDesc c i then nextDesc c m.txd else m.txd) = s.ring.lastFree
    · rw [if_pos full]
      exact at'.congr _ ⟨_, _, _, rfl⟩ rfl rfl rfl trivial
    · rw [if_neg full]
      cases fails with
      | true => exact at'.congr _ ⟨_, _, _, rfl⟩ rfl rfl rfl trivial
      | false =>
        refine at'.congr _ ⟨_, _, _, rfl⟩ rfl rfl rfl ?_
        have xmit := at'.xmit
        rw [busy] at xmit
        obtain ⟨taken, count, short, itxd, txd, all⟩ := xmit
        cases new : newDesc c i with
        | false => exact ⟨taken, count, short, itxd, txd, all⟩
        | true =>
          rw [new, txd, nextDesc_mod] at full
          have some : taken + 1 ≠ c.txDmaSize - 1 - len := by
            intro equal
            have room := at'.room
            apply full
            refine ⟨rfl, ?_⟩
            rw [if_pos rfl, at'.lastFree, Nat.add_assoc, equal,
              show last + 1 + len + (c.txDmaSize - 1 - len) = last + c.txDmaSize by omega,
              Nat.add_mod_right]
          refine ⟨taken + 1, ?_, ?_, itxd, ?_, ?_⟩
          · exact congrArg (· + 1) count
          · change m.nDesc + 1 ≤ _
            omega
          · change nextDesc c m.txd = _
            rw [txd, nextDesc_mod]
            rfl
          · change m.taken ++ [nextDesc c m.txd] = around _ _ (m.nDesc + 1)
            rw [around.succ, all, txd, nextDesc_mod, count]
            rfl

theorem undoPass_at (at' : TxAt c s last len done) (skb : Skb) (itxd txd : Nat) :
    TxAt c (undoPass c skb itxd txd s) last len done := by
  unfold undoPass
  dsimp only
  split_ifs
  · refine drop_at ?_ skb
    exact at'.congr _ ⟨_, _, _, rfl⟩ rfl rfl rfl at'.xmit
  · exact at'.congr _ ⟨_, _, _, rfl⟩ rfl rfl rfl trivial

end Steps

section Polling

variable {s : TxState} {last len done : Nat}

/-- Only the counts of the poller and of the queues change. -/
theorem pollTxDone_frame (mac : Fin 3) (skb : Skb) (p : Poll) (s : TxState) :
    (∃ txq total done bytes, (pollTxDone c mac skb p s).1 =
      { p with txq := txq, total := total, done := done, bytes := bytes }) ∧
    ∃ polled completed, (pollTxDone c mac skb p s).2 =
      { s with polled := polled, completed := completed } := by
  unfold pollTxDone
  dsimp only
  split_ifs
  · exact ⟨⟨_, _, _, _, rfl⟩, _, _, rfl⟩
  · exact ⟨⟨_, _, _, _, rfl⟩, _, _, rfl⟩
  · refine ⟨⟨_, _, _, _, rfl⟩, ?_⟩
    cases p.txq with
    | none => exact ⟨_, _, rfl⟩
    | some txq => exact ⟨_, _, rfl⟩

theorem txRelease_frame (d : Nat) (p : Poll) (s : TxState) :
    ((txRelease c d p s).1.cpu = p.cpu ∧ (txRelease c d p s).1.dma = p.dma) ∧
    ∃ freed polled completed, (txRelease c d p s).2 = { s with
      ring := { s.ring with
        buf := Function.update s.ring.buf d TxBuf.zero
        lastFree := d
        freeCount := s.ring.freeCount + 1
        inFlight := s.ring.inFlight.erase d }
      freed := freed, polled := polled, completed := completed } := by
  unfold txRelease
  cases held : (s.ring.buf d).skb with
  | null => exact ⟨⟨rfl, rfl⟩, _, _, _, rfl⟩
  | dummy => exact ⟨⟨rfl, rfl⟩, _, _, _, rfl⟩
  | skb skb =>
    obtain ⟨⟨txq, total, count, bytes, poll⟩, polled, completed, state⟩ :=
      pollTxDone_frame (c := c) (s.ring.buf d).mac skb p s
    dsimp only
    rw [poll, state]
    exact ⟨⟨rfl, rfl⟩, _, _, _, rfl⟩

/-- What the poller comes to next is in flight, unless it has seen all that is done. -/
theorem TxAt.next_inFlight (at' : TxAt c s last len done) (p : Poll) (busy : s.poll = some p)
    (ahead : p.cpu ≠ p.dma) : (last + 1) % c.txDmaSize ∈ s.ring.inFlight := by
  have poll := at'.poll
  rw [busy] at poll
  obtain ⟨place, seen, seenBound, dmaPlace⟩ := poll
  have doneBound := at'.done_le
  have some : seen ≠ 0 := by
    rintro rfl
    exact ahead (place.trans dmaPlace.symm)
  rw [at'.inFlight, around.mem]
  exact ⟨0, by omega, rfl⟩

/-- The poller releases the descriptor after the last free one, which a packet in flight has. -/
theorem txRelease_at (at' : TxAt c s last len done) (p : Poll) (busy : s.poll = some p)
    (ahead : p.cpu ≠ p.dma) (cpu : Nat)
    (next : cpu = (cpuPlace c (last + 1)) % c.txDmaSize) :
    TxAt c { (txRelease c ((last + 1) % c.txDmaSize) p s).2 with
        poll := some { (txRelease c ((last + 1) % c.txDmaSize) p s).1 with cpu := cpu } }
      (last + 1) (len - 1) (done - 1) := by
  obtain ⟨⟨-, dma⟩, freed, polled, completed, state⟩ :=
    txRelease_frame (c := c) ((last + 1) % c.txDmaSize) p s
  have poll := at'.poll
  rw [busy] at poll
  obtain ⟨place, seen, seenBound, dmaPlace⟩ := poll
  have room := at'.room
  have doneBound := at'.done_le
  have some : seen ≠ 0 := by
    rintro rfl
    exact ahead (place.trans dmaPlace.symm)
  have move : cpuPlace c (last + 1) = cpuPlace c last + 1 := by
    unfold cpuPlace
    split_ifs <;> rfl
  obtain ⟨len, rfl⟩ := Nat.exists_eq_succ_of_ne_zero (show len ≠ 0 by omega)
  rw [state, Nat.succ_sub_one]
  constructor
  · exact at'.up
  · rfl
  · change s.ring.nextFree = _
    rw [at'.nextFree]
    congr 1
    omega
  · change s.ring.inFlight.erase _ = _
    rw [at'.inFlight, around.cons, List.erase_cons_head]
  · omega
  · change s.ring.freeCount + 1 = _
    rw [at'.count]
    push_cast
    ring
  · change s.dma = _
    rw [at'.dma, move]
    congr 1
    omega
  · omega
  · have xmit := at'.xmit
    rw [show last + 1 + (len + 1) = last + 1 + 1 + len by omega] at xmit
    change s.xmit.TakenFrom ..
    cases holder : s.xmit with
    | idle => trivial
    | undoing skb itxd txd => trivial
    | mapping m =>
      rw [holder] at xmit
      obtain ⟨taken, count, short, rest⟩ := xmit
      exact ⟨taken, count, by omega, rest⟩
  · refine ⟨next, seen - 1, by omega, ?_⟩
    change (txRelease c ((last + 1) % c.txDmaSize) p s).1.dma = _
    rw [dma, dmaPlace, move]
    congr 1
    omega

theorem pollBegin_at (at' : TxAt c s last len done) (budget : Nat) (rest : s.poll = none) :
    TxAt c (pollBegin c budget s) last len done := by
  have poll := at'.poll
  rw [rest] at poll
  exact ⟨at'.up, at'.lastFree, at'.nextFree, at'.inFlight, at'.room, at'.count, at'.dma,
    at'.done_le, at'.xmit, poll, done, le_refl _, at'.dma⟩

theorem pollEnd_at (at' : TxAt c s last len done) (p : Poll) (busy : s.poll = some p) :
    TxAt c (pollEnd c p s) last len done := by
  have poll := at'.poll
  rw [busy] at poll
  unfold pollEnd
  cases mode : c.qdma with
  | false =>
    refine ⟨at'.up, at'.lastFree, at'.nextFree, at'.inFlight, at'.room, at'.count, at'.dma,
      at'.done_le, at'.xmit, ?_⟩
    rw [mode]
    exact poll.1
  | true =>
    refine ⟨at'.up, at'.lastFree, at'.nextFree, at'.inFlight, at'.room, at'.count, at'.dma,
      at'.done_le, at'.xmit, ?_⟩
    rw [mode]
    exact poll.1

theorem pollPass_at (at' : TxAt c s last len done) (p : Poll) (busy : s.poll = some p) :
    ∃ last' len' done', TxAt c (pollPass c p s) last' len' done' := by
  have poll := at'.poll
  rw [busy] at poll
  have place := poll.1
  unfold pollPass
  cases mode : c.qdma with
  | true =>
    rw [cpuPlace, mode, if_pos rfl] at place
    rw [if_pos rfl]
    unfold pollTxQdma
    dsimp only
    split_ifs with stop notOwner none
    · exact ⟨_, _, _, pollEnd_at at' p busy⟩
    · exact ⟨_, _, _, pollEnd_at at' p busy⟩
    · exact ⟨_, _, _, pollEnd_at at' p busy⟩
    · have ahead : p.cpu ≠ p.dma := fun same => stop (.inl same)
      rw [place, nextDesc_mod]
      refine ⟨_, _, _, txRelease_at at' p busy ahead _ ?_⟩
      rw [cpuPlace, mode, if_pos rfl]
  | false =>
    rw [cpuPlace, mode, if_neg (by decide)] at place
    rw [if_neg (by decide)]
    unfold pollTxPdma
    dsimp only
    split_ifs with stop notOwner none
    · exact ⟨_, _, _, pollEnd_at at' p busy⟩
    · exact ⟨_, _, _, pollEnd_at at' p busy⟩
    · exact ⟨_, _, _, pollEnd_at at' p busy⟩
    · have ahead : p.cpu ≠ p.dma := fun same => stop (.inl same)
      rw [place, nextDespIdx_mod]
      refine ⟨_, _, _, txRelease_at at' p busy ahead _ ?_⟩
      rw [cpuPlace, mode, if_neg (by decide)]

theorem hwDone_at (at' : TxAt c s last len done) : ∃ done', TxAt c (hwDone c s) last len done' := by
  have place : (if c.qdma then nextDesc c s.dma else s.dma) =
      (last + 1 + done) % c.txDmaSize := by
    rw [at'.dma, nextDesc_mod]
    unfold cpuPlace
    split_ifs
    · congr 1
      omega
    · rfl
  unfold hwDone
  dsimp only
  rw [place]
  split_ifs with given
  · have room := at'.room
    have doneBound := at'.done_le
    rw [at'.inFlight, around.mem_iff _ _ _ _ (by omega) room.le] at given
    refine ⟨done + 1, at'.up, at'.lastFree, at'.nextFree, at'.inFlight, room, at'.count, ?_, given,
      at'.xmit, ?_⟩
    · change nextDesc c s.dma = _
      rw [at'.dma, nextDesc_mod]
      rfl
    · have poll := at'.poll
      change PollAt _ _ _ _ s.poll
      cases running : s.poll with
      | none =>
        rw [running] at poll
        exact poll
      | some p =>
        rw [running] at poll
        obtain ⟨cpu, seen, bound, dma⟩ := poll
        exact ⟨cpu, seen, by omega, dma⟩
  · exact ⟨done, at'⟩

end Polling

section Runs

/-- A ring that is allocated is as it should be; nobody uses one that is not. -/
inductive TxKept (c : TxConf) (s : TxState) : Prop where
  | down (down : s.up = false) (idle : s.xmit = .idle) (none : s.poll = none)
  | up (last len done : Nat) (at' : TxAt c s last len done)

theorem txUnmap_fold (l : List Nat) (s : TxState) :
    ∃ buf freed, l.foldl (fun s d => txUnmap d s) s =
      { s with ring := { s.ring with buf := buf }, freed := freed } := by
  induction l generalizing s with
  | nil => exact ⟨_, _, rfl⟩
  | cons d l ih =>
    obtain ⟨buf, freed, same⟩ := ih (txUnmap d s)
    exact ⟨buf, freed, by rw [List.foldl_cons, same]; rfl⟩

theorem txStep_kept (s : TxState) (event : TxEvent) (kept : TxKept c s) :
    TxKept c (txStep c s event) := by
  unfold txStep
  cases kept with
  | down down idle none =>
    rw [down]
    cases event with
    | alloc => exact .up _ _ _ (txAlloc_at s idle none)
    | _ => exact .down down idle none
  | up last len done at' =>
    rw [at'.up]
    cases event with
    | alloc => exact .up last len done at'
    | xmit t skb mac =>
      cases holder : s.xmit with
      | idle => exact .up _ _ _ (mtkStartXmit_at at' t skb mac)
      | mapping m => exact .up _ _ _ at'
      | undoing skb itxd txd => exact .up _ _ _ at'
    | piece fails =>
      cases holder : s.xmit with
      | idle => exact .up _ _ _ at'
      | mapping m =>
        obtain ⟨len', after⟩ := mapPiece_at at' fails m holder
        exact .up _ _ _ after
      | undoing skb itxd txd => exact .up _ _ _ at'
    | undo =>
      cases holder : s.xmit with
      | idle => exact .up _ _ _ at'
      | mapping m => exact .up _ _ _ at'
      | undoing skb itxd txd => exact .up _ _ _ (undoPass_at at' skb itxd txd)
    | poll budget =>
      cases poller : s.poll with
      | none => exact .up _ _ _ (pollBegin_at at' budget poller)
      | some p => exact .up _ _ _ at'
    | pass =>
      cases poller : s.poll with
      | none => exact .up _ _ _ at'
      | some p =>
        obtain ⟨last', len', done', after⟩ := pollPass_at at' p poller
        exact .up _ _ _ after
    | hw =>
      obtain ⟨done', after⟩ := hwDone_at at'
      exact .up _ _ _ after
    | clean =>
      cases holder : s.xmit with
      | mapping m => exact .up _ _ _ at'
      | undoing skb itxd txd => exact .up _ _ _ at'
      | idle =>
        cases poller : s.poll with
        | some p => exact .up _ _ _ at'
        | none =>
          obtain ⟨buf, freed, same⟩ := txUnmap_fold (List.range c.txDmaSize) s
          dsimp only
          unfold txClean
          rw [same]
          exact .down rfl holder poller

theorem run_kept (events : List TxEvent) : TxKept c (run (txStep c) txDown events) :=
  run_preserves _ _ txStep_kept _ _ (.down rfl rfl rfl)

end Runs

section Untouched

variable {s : TxState} {last len done : Nat}

/-- A piece cannot be mapped for DMA that shares the first descriptor of its packet, on a ring
without QDMA where other packets are in flight: the loop at `err_dma` starts where it should end. -/
def runsRound (c : TxConf) (s : TxState) (event : TxEvent) : Bool :=
  match s.xmit, event with
  | .mapping m, .piece true =>
    match m.pieces with
    | [] => false
    | i :: _ => !newDesc c i && m.txd == m.itxd && !s.ring.inFlight.isEmpty
  | _, _ => false

/-- The descriptors that the loop at `err_dma` comes to are none of those in flight. -/
def Xmit.UndoesFree (n : Nat) (inFlight : List Nat) : Xmit → Prop
  | .undoing _ itxd txd => ∃ place left, 0 < left ∧ itxd = place % n ∧ txd = (place + left) % n ∧
      ∀ j < left, (place + j) % n ∉ inFlight
  | _ => True

structure Untouched (c : TxConf) (s : TxState) : Prop where
  overwritten : s.ring.overwritten = []
  undoes : s.xmit.UndoesFree c.txDmaSize s.ring.inFlight

theorem TxRing.write_free (r : TxRing) (d : Nat) (owner : Bool) (free : d ∉ r.inFlight) :
    (r.write d owner).overwritten = r.overwritten := if_neg free

theorem setDesc_free (d k : Nat) (r : TxRing) (free : d ∉ r.inFlight) :
    (setDesc c d k r).overwritten = r.overwritten := if_neg free

theorem TxAt.free (at' : TxAt c s last len done) (j : Nat) (below : len + j < c.txDmaSize) :
    (last + 1 + len + j) % c.txDmaSize ∉ s.ring.inFlight := by
  rw [at'.inFlight, Nat.add_assoc, around.mem_iff _ _ _ _ below at'.room.le]
  omega

theorem TxAt.head_free (at' : TxAt c s last len done) : s.ring.nextFree ∉ s.ring.inFlight := by
  have free := at'.free 0 at'.room
  rwa [Nat.add_zero, ← at'.nextFree] at free

/-- The descriptor of a piece is none of those in flight. -/
theorem TxAt.piece_free (at' : TxAt c s last len done) (m : TxMap) (busy : s.xmit = .mapping m)
    (i : Nat)
    (more : ¬(newDesc c i ∧ (if newDesc c i then nextDesc c m.txd else m.txd) = s.ring.lastFree)) :
    (if newDesc c i then nextDesc c m.txd else m.txd) ∉ s.ring.inFlight := by
  have xmit := at'.xmit
  rw [busy] at xmit
  obtain ⟨taken, count, short, -, txd, -⟩ := xmit
  have room := at'.room
  cases new : newDesc c i with
  | false =>
    rw [if_neg (by decide), txd]
    exact at'.free taken (by omega)
  | true =>
    rw [new, if_pos rfl, txd, nextDesc_mod] at more
    rw [if_pos rfl, txd, nextDesc_mod]
    apply at'.free (taken + 1)
    have some : taken + 1 ≠ c.txDmaSize - 1 - len := by
      intro equal
      apply more
      refine ⟨rfl, ?_⟩
      rw [at'.lastFree, Nat.add_assoc, equal,
        show last + 1 + len + (c.txDmaSize - 1 - len) = last + c.txDmaSize by omega,
        Nat.add_mod_right]
    omega

theorem mapHead_untouched (at' : TxAt c s last len done) (untouched : Untouched c s)
    (t : XmitTry) (skb : Skb) (mac : Fin 3) : Untouched c (mapHead c t skb mac s) := by
  unfold mapHead
  dsimp only
  split_ifs
  · exact ⟨untouched.overwritten, trivial⟩
  · exact ⟨untouched.overwritten, trivial⟩
  · refine ⟨?_, trivial⟩
    exact (setDesc_free (c := c) _ 0 _ at'.head_free).trans untouched.overwritten

theorem mtkStartXmit_untouched (at' : TxAt c s last len done) (untouched : Untouched c s)
    (t : XmitTry) (skb : Skb) (mac : Fin 3) : Untouched c (mtkStartXmit c t skb mac s) := by
  unfold mtkStartXmit
  split_ifs
  · exact ⟨untouched.overwritten, trivial⟩
  · exact ⟨untouched.overwritten, untouched.undoes⟩
  · exact ⟨untouched.overwritten, trivial⟩
  · exact ⟨untouched.overwritten, trivial⟩
  · exact mapHead_untouched at' untouched t _ mac
  · exact mapHead_untouched at' untouched t _ mac

theorem mapPiece_untouched (at' : TxAt c s last len done) (untouched : Untouched c s)
    (fails : Bool) (m : TxMap) (busy : s.xmit = .mapping m)
    (clear : runsRound c s (.piece fails) = false) : Untouched c (mapPiece c fails m s) := by
  have xmit := at'.xmit
  rw [busy] at xmit
  obtain ⟨taken, count, short, itxd, txd, -⟩ := xmit
  have room := at'.room
  -- the loop undoes what was taken, whether it took one more or not
  have undo : ∀ left, 0 < left → left ≤ taken + 1 →
      Xmit.UndoesFree c.txDmaSize s.ring.inFlight
        (.undoing m.skb m.itxd ((last + 1 + len + left) % c.txDmaSize)) := by
    intro left positive bound
    exact ⟨last + 1 + len, left, positive, itxd, rfl, fun j below => at'.free j (by omega)⟩
  unfold mapPiece
  cases pieces : m.pieces with
  | nil => exact ⟨untouched.overwritten, trivial⟩
  | cons i rest =>
    dsimp only
    by_cases full : newDesc c i ∧ (if newDesc c i then nextDesc c m.txd else m.txd) = s.ring.lastFree
    · rw [if_pos full, if_pos full.1, txd, nextDesc_mod]
      exact ⟨untouched.overwritten, undo (taken + 1) (by omega) (le_refl _)⟩
    · have free := at'.piece_free m busy i full
      rw [if_neg full]
      cases fails with
      | false =>
        exact ⟨(setDesc_free (c := c) _ m.k _ free).trans untouched.overwritten, trivial⟩
      | true =>
        refine ⟨untouched.overwritten, ?_⟩
        rw [if_pos rfl]
        cases new : newDesc c i with
        | true =>
          rw [if_pos rfl, txd, nextDesc_mod]
          exact undo (taken + 1) (by omega) (le_refl _)
        | false =>
          rw [if_neg (by decide), txd]
          by_cases first : taken = 0
          · -- nothing is in flight, and the loop goes round
            have none : s.ring.inFlight = [] := by
              unfold runsRound at clear
              rw [busy] at clear
              dsimp only at clear
              rw [pieces] at clear
              simpa [new, itxd, txd, first] using clear
            dsimp only
            rw [first, none]
            refine ⟨last + 1 + len, c.txDmaSize, txDmaSize_pos c, itxd, ?_, fun _ _ => List.not_mem_nil⟩
            rw [Nat.add_zero, Nat.add_mod_right]
          · exact undo taken (by omega) (Nat.le_succ _)

theorem undoPass_untouched (untouched : Untouched c s) (skb : Skb) (itxd txd : Nat)
    (busy : s.xmit = .undoing skb itxd txd) : Untouched c (undoPass c skb itxd txd s) := by
  have undoes := untouched.undoes
  rw [busy] at undoes
  obtain ⟨place, left, positive, itxdPlace, txdPlace, free⟩ := undoes
  have first : itxd ∉ s.ring.inFlight := by
    rw [itxdPlace]
    exact free 0 positive
  have same := (TxRing.write_free _ _ true first).trans untouched.overwritten
  unfold undoPass
  dsimp only
  split_ifs with ends
  · exact ⟨same, trivial⟩
  · refine ⟨same, place + 1, left - 1, ?_, ?_, ?_, ?_⟩
    · by_contra none
      apply ends
      rw [itxdPlace, nextDesc_mod, txdPlace, show left = 1 by omega]
    · rw [itxdPlace, nextDesc_mod]
    · rw [txdPlace]
      congr 1
      omega
    · intro j below
      have later := free (j + 1) (by omega)
      rwa [show place + (j + 1) = place + 1 + j by omega] at later

theorem pollPass_frame (p : Poll) (s : TxState) :
    (pollPass c p s).xmit = s.xmit ∧
      (pollPass c p s).ring.overwritten = s.ring.overwritten ∧
      (pollPass c p s).ring.inFlight ⊆ s.ring.inFlight := by
  have ended : (pollEnd c p s).xmit = s.xmit ∧
      (pollEnd c p s).ring.overwritten = s.ring.overwritten ∧
      (pollEnd c p s).ring.inFlight ⊆ s.ring.inFlight := by
    unfold pollEnd
    cases c.qdma <;> exact ⟨rfl, rfl, List.Subset.refl _⟩
  have released : ∀ d, (txRelease c d p s).2.xmit = s.xmit ∧
      (txRelease c d p s).2.ring.overwritten = s.ring.overwritten ∧
      (txRelease c d p s).2.ring.inFlight ⊆ s.ring.inFlight := by
    intro d
    obtain ⟨-, freed, polled, completed, state⟩ := txRelease_frame (c := c) d p s
    rw [state]
    exact ⟨rfl, rfl, List.erase_subset⟩
  unfold pollPass
  cases c.qdma with
  | true =>
    rw [if_pos rfl]
    unfold pollTxQdma
    dsimp only
    split_ifs
    · exact ended
    · exact ended
    · exact ended
    · exact released _
  | false =>
    rw [if_neg (by decide)]
    unfold pollTxPdma
    dsimp only
    split_ifs
    · exact ended
    · exact ended
    · exact ended
    · exact released _

theorem pollPass_untouched (untouched : Untouched c s) (p : Poll) :
    Untouched c (pollPass c p s) := by
  obtain ⟨xmit, overwritten, less⟩ := pollPass_frame (c := c) p s
  refine ⟨overwritten.trans untouched.overwritten, ?_⟩
  have undoes := untouched.undoes
  rw [xmit]
  cases holder : s.xmit with
  | idle => trivial
  | mapping m => trivial
  | undoing skb itxd txd =>
    rw [holder] at undoes
    obtain ⟨place, left, positive, itxdPlace, txdPlace, free⟩ := undoes
    exact ⟨place, left, positive, itxdPlace, txdPlace, fun j below member =>
      free j below (less member)⟩

theorem txStep_untouched (s : TxState) (event : TxEvent)
    (both : TxKept c s ∧ Untouched c s) (clear : runsRound c s event = false) :
    TxKept c (txStep c s event) ∧ Untouched c (txStep c s event) := by
  obtain ⟨kept, untouched⟩ := both
  refine ⟨txStep_kept s event kept, ?_⟩
  unfold txStep
  cases kept with
  | down down idle none =>
    rw [down]
    cases event with
    | alloc =>
      refine ⟨untouched.overwritten, ?_⟩
      change s.xmit.UndoesFree ..
      rw [idle]
      trivial
    | _ => exact untouched
  | up last len done at' =>
    rw [at'.up]
    cases event with
    | alloc => exact untouched
    | xmit t skb mac =>
      cases holder : s.xmit with
      | idle => exact mtkStartXmit_untouched at' untouched t skb mac
      | _ => exact untouched
    | piece fails =>
      cases holder : s.xmit with
      | mapping m => exact mapPiece_untouched at' untouched fails m holder clear
      | _ => exact untouched
    | undo =>
      cases holder : s.xmit with
      | undoing skb itxd txd => exact undoPass_untouched untouched skb itxd txd holder
      | _ => exact untouched
    | poll budget =>
      cases poller : s.poll with
      | none => exact ⟨untouched.overwritten, untouched.undoes⟩
      | some p => exact untouched
    | pass =>
      cases poller : s.poll with
      | none => exact untouched
      | some p => exact pollPass_untouched untouched p
    | hw =>
      dsimp only
      unfold hwDone
      dsimp only
      split_ifs <;> exact ⟨untouched.overwritten, untouched.undoes⟩
    | clean =>
      cases holder : s.xmit with
      | idle =>
        cases poller : s.poll with
        | some p => exact untouched
        | none =>
          obtain ⟨buf, freed, same⟩ := txUnmap_fold (List.range c.txDmaSize) s
          dsimp only
          unfold txClean
          rw [same]
          refine ⟨untouched.overwritten, ?_⟩
          change s.xmit.UndoesFree ..
          rw [holder]
          trivial
      | _ => exact untouched

/-- The ring of a run that never unmaps all the way round keeps its accounts, and no descriptor in
flight is written. -/
theorem tx_ring_accounts (c : TxConf) (events : List TxEvent)
    (clear : Along (txStep c) (fun s event => runsRound c s event = false) txDown events) :
    (run (txStep c) txDown events).ring.overwritten = [] ∧
      ((run (txStep c) txDown events).up = true →
        TxAccounts c (run (txStep c) txDown events).ring) := by
  obtain ⟨kept, untouched⟩ := run_invariant (txStep c) _
    (fun s => TxKept c s ∧ Untouched c s) txStep_untouched txDown events
    ⟨.down rfl rfl rfl, rfl, trivial⟩ clear
  refine ⟨untouched.overwritten, fun up => ?_⟩
  cases kept with
  | down down => rw [up] at down; cases down
  | up last len done at' => exact at'.accounts

/-- A ring without QDMA, of eight descriptors. -/
def eightPdma : TxConf where
  qdma := false
  txDmaSize := 8
  dmaMaxLen := 16383
  netdev _ := true
  txDmaSize_pow := ⟨3, rfl⟩
  dmaMaxLen_pos := by decide

def nothingFails : XmitTry :=
  { resetting := false, cowFails := false, padFails := false, mapFails := false }

/-- A packet of 100 bytes is sent, and done. -/
def sentOne : List TxEvent :=
  [.alloc, .xmit nothingFails ⟨0, 100, [], false, 0⟩ mtkGmac1Id, .piece false, .hw, .poll 8, .pass, .pass]

theorem tx_ring_accounts_sent :
    (run (txStep eightPdma) txDown sentOne).ring.overwritten = [] ∧
      TxAccounts eightPdma (run (txStep eightPdma) txDown sentOne).ring := by
  obtain ⟨overwritten, accounts⟩ := tx_ring_accounts eightPdma sentOne (by decide)
  exact ⟨overwritten, accounts rfl⟩

/-- The fragment of a second packet cannot be mapped while the first one is in flight. -/
def failedSecond : List TxEvent :=
  [.alloc, .xmit nothingFails ⟨0, 100, [], false, 0⟩ mtkGmac1Id, .piece false,
    .xmit nothingFails ⟨1, 100, [100], false, 0⟩ mtkGmac1Id, .piece true] ++ List.replicate 8 .undo

theorem second_overwrites_first : ¬∀ (c : TxConf) (events : List TxEvent),
    (run (txStep c) txDown events).ring.overwritten = [] ∧
      ((run (txStep c) txDown events).up = true →
        TxAccounts c (run (txStep c) txDown events).ring) := by
  intro always
  exact absurd (always eightPdma failedSecond).1 (by decide)

end Untouched

end Filogic.Eth
