import Filogic.Eth.TxAccounts
import Filogic.Lib.Cells

/-! Who owns the packets that `mtk_start_xmit` was given, and what the queue limits are told. -/

namespace Filogic.Eth
open Lib

def BufSkb.holds (id : Nat) : BufSkb → Bool
  | .skb packet => packet.id == id
  | _ => false

/-- How many descriptors hold a packet. -/
def held (c : TxConf) (r : TxRing) (id : Nat) : Nat :=
  ((Finset.range c.txDmaSize).filter fun d => (r.buf d).skb.holds id = true).card

/-- The bytes that the limit of a queue was told are completed. -/
def completedBytes (completed : List (Txq × Nat × Nat)) (txq : Txq) : Nat :=
  ((completed.filter (·.1 = txq)).map (·.2.2)).sum

/-- The bytes of the packets of a queue whose completion was polled. -/
def polledBytes (polled : List Counted) (txq : Txq) : Nat :=
  ((polled.filter (·.txq = txq)).map Counted.bytes).sum

/-- Each packet accepted is freed once, or still in a descriptor; no other one is freed. Each packet
polled was sent with the same bytes for the same queue, and these are completed. -/
structure SkbOwned (c : TxConf) (s : TxState) : Prop where
  accepted : ∀ id, (id, .ok) ∈ s.answers → s.freed.count id + held c s.ring id = 1
  refused : ∀ id, (id, .ok) ∉ s.answers → s.freed.count id = 0 ∧ held c s.ring id = 0
  down : s.up = false → ∀ id, held c s.ring id = 0
  sent : (s.sent.map Counted.id).Nodup
  polled : (s.polled.map Counted.id).Nodup ∧ ∀ counted ∈ s.polled, counted ∈ s.sent
  bytes : s.poll = none → ∀ txq, completedBytes s.completed txq = polledBytes s.polled txq

/-- The packet that the holder of the page lock has. -/
def Xmit.skb? : Xmit → Option Skb
  | .idle => none
  | .mapping m => some m.skb
  | .undoing skb _ _ => some skb

/-- What the poller has counted and not told yet. -/
def pendingBytes (txq : Txq) : Option Poll → Nat
  | none => 0
  | some p => if p.txq = some txq then p.bytes else 0

def counted (skb : Skb) (mac : Fin 3) : Counted :=
  { id := skb.id, txq := (mac, skb.queueMapping), bytes := skb.len }

structure SkbInv (c : TxConf) (s : TxState) : Prop where
  count : ∀ id, s.freed.count id + held c s.ring id = s.answers.count (id, .ok)
  once : ∀ id, s.answers.count (id, .ok) ≤ 1
  fresh : ∀ skb, s.xmit.skb? = some skb → (skb.id, .ok) ∉ s.answers
  mac : ∀ m, s.xmit = .mapping m → (s.ring.buf m.itxd).mac = m.mac ∧ c.netdev m.mac = true
  inFlight : ∀ d skb, (s.ring.buf d).skb = .skb skb →
    d ∈ s.ring.inFlight ∧ counted skb (s.ring.buf d).mac ∈ s.sent
  sent : ∀ e ∈ s.sent, (e.id, .ok) ∈ s.answers ∧ c.netdev e.txq.1 = true
  sentOnce : (s.sent.map Counted.id).Nodup
  polled : ∀ e ∈ s.polled, e ∈ s.sent ∧ e.id ∈ s.freed
  polledOnce : (s.polled.map Counted.id).Nodup
  bytes : ∀ txq, completedBytes s.completed txq + pendingBytes txq s.poll =
    polledBytes s.polled txq
  down : s.up = false → s.ring.inFlight = []

variable {c : TxConf} {s : TxState}

theorem SkbInv.owned (inv : SkbInv c s) : SkbOwned c s := by
  constructor
  · intro id accepted
    rw [inv.count]
    exact le_antisymm (inv.once id) (List.count_pos_iff.mpr accepted)
  · intro id refused
    have none := inv.count id
    rw [List.count_eq_zero.mpr refused] at none
    omega
  · intro down id
    rw [held, Finset.card_eq_zero, Finset.filter_eq_empty_iff]
    intro d _ holds
    cases here : (s.ring.buf d).skb with
    | null => rw [here] at holds; cases holds
    | dummy => rw [here] at holds; cases holds
    | skb skb =>
      have member := (inv.inFlight d skb here).1
      rw [inv.down down] at member
      cases member
  · exact inv.sentOnce
  · exact ⟨inv.polledOnce, fun e member => (inv.polled e member).1⟩
  · intro rest txq
    have bytes := inv.bytes txq
    rw [rest] at bytes
    exact bytes

section Held

theorem held_congr (r r' : TxRing)
    (same : ∀ d id, (r'.buf d).skb.holds id = (r.buf d).skb.holds id) (id : Nat) :
    held c r' id = held c r id := by
  unfold held
  congr 1
  apply Finset.filter_congr
  intro d _
  rw [same d id]

/-- A descriptor that holds no packet is given another buffer that holds none. -/
theorem holds_update (buf : Nat → TxBuf) (d : Nat) (b : TxBuf)
    (old : ∀ skb, (buf d).skb ≠ .skb skb) (new : ∀ skb, b.skb ≠ .skb skb) (e id : Nat) :
    ((Function.update buf d b e).skb).holds id = ((buf e).skb).holds id := by
  have none : ∀ b : TxBuf, (∀ skb, b.skb ≠ .skb skb) → b.skb.holds id = false := by
    intro b other
    cases here : b.skb with
    | skb skb => exact absurd here (other skb)
    | _ => rfl
  by_cases here : e = d
  · subst here
    rw [Function.update_self, none b new, none (buf e) old]
  · rw [Function.update_of_ne here]

theorem held_update (r : TxRing) (d : Nat) (below : d < c.txDmaSize) (b : TxBuf) (id : Nat) :
    held c { r with buf := Function.update r.buf d b } id +
        (if (r.buf d).skb.holds id = true then 1 else 0) =
      held c r id + if b.skb.holds id = true then 1 else 0 :=
  card_update (fun b : TxBuf => b.skb.holds id = true) r.buf c.txDmaSize d below b

end Held

section Changes

/-- A buffer that holds no packet changes, and the user of the ring goes on. -/
theorem SkbInv.rebuf (inv : SkbInv c s) (d : Nat) (b : TxBuf)
    (old : ∀ skb, (s.ring.buf d).skb ≠ .skb skb) (new : ∀ skb, b.skb ≠ .skb skb)
    (owner : Nat → Bool) (overwritten : List Nat) (xmit : Xmit)
    (fresh : ∀ skb, xmit.skb? = some skb → (skb.id, .ok) ∉ s.answers)
    (mac : ∀ m, xmit = .mapping m →
      (Function.update s.ring.buf d b m.itxd).mac = m.mac ∧ c.netdev m.mac = true) :
    SkbInv c { s with
      ring := { s.ring with
        owner := owner, overwritten := overwritten, buf := Function.update s.ring.buf d b }
      xmit := xmit } := by
  constructor
  · intro id
    rw [held_congr s.ring _ (holds_update s.ring.buf d b old new)]
    exact inv.count id
  · exact inv.once
  · exact fresh
  · exact mac
  · intro e skb (holds : (Function.update s.ring.buf d b e).skb = .skb skb)
    by_cases here : e = d
    · subst here
      rw [Function.update_self] at holds
      exact absurd holds (new skb)
    · rw [Function.update_of_ne here] at holds
      have member := inv.inFlight e skb holds
      refine ⟨member.1, ?_⟩
      dsimp only
      rw [Function.update_of_ne here]
      exact member.2
  · exact inv.sent
  · exact inv.sentOnce
  · exact inv.polled
  · exact inv.polledOnce
  · exact inv.bytes
  · exact inv.down

/-- The user of the ring goes on, without a change to a buffer. -/
theorem SkbInv.goOn (inv : SkbInv c s) (xmit : Xmit)
    (fresh : ∀ skb, xmit.skb? = some skb → (skb.id, .ok) ∉ s.answers)
    (mac : ∀ m, xmit = .mapping m → (s.ring.buf m.itxd).mac = m.mac ∧ c.netdev m.mac = true) :
    SkbInv c { s with xmit := xmit } :=
  { inv with fresh := fresh, mac := mac }

theorem drop_inv (inv : SkbInv c s) (skb : Skb) (fresh : (skb.id, .ok) ∉ s.answers) :
    SkbInv c (drop skb s) := by
  have none := List.count_eq_zero.mpr fresh
  constructor
  · intro id
    have before := inv.count id
    change (skb.id :: s.freed).count id + held c s.ring id =
      ((skb.id, TxAnswer.ok) :: s.answers).count (id, .ok)
    simp only [List.count_cons, beq_iff_eq, Prod.mk.injEq, and_true]
    omega
  · intro id
    have before := inv.once id
    change ((skb.id, TxAnswer.ok) :: s.answers).count (id, .ok) ≤ 1
    simp only [List.count_cons, beq_iff_eq, Prod.mk.injEq, and_true]
    split_ifs with same
    · rw [← same, none]
    · exact before
  · nofun
  · nofun
  · exact inv.inFlight
  · intro e member
    exact ⟨List.mem_cons_of_mem _ (inv.sent e member).1, (inv.sent e member).2⟩
  · exact inv.sentOnce
  · intro e member
    exact ⟨(inv.polled e member).1, List.mem_cons_of_mem _ (inv.polled e member).2⟩
  · exact inv.polledOnce
  · exact inv.bytes
  · exact inv.down

/-- A packet in a descriptor was not freed. -/
theorem SkbInv.held_not_freed (inv : SkbInv c s) (d : Nat) (below : d < c.txDmaSize) (skb : Skb)
    (holds : (s.ring.buf d).skb = .skb skb) : skb.id ∉ s.freed := by
  have some : 0 < held c s.ring skb.id := by
    apply Finset.card_pos.mpr
    refine ⟨d, Finset.mem_filter.mpr ⟨Finset.mem_range.mpr below, ?_⟩⟩
    rw [holds]
    exact beq_self_eq_true _
  have count := inv.count skb.id
  have once := inv.once skb.id
  rw [← List.count_eq_zero]
  omega

/-- `mtk_tx_unmap` frees the packet that the descriptor held. -/
theorem txUnmap_inv (inv : SkbInv c s) (d : Nat)
    (inside : ∀ d ∈ s.ring.inFlight, d < c.txDmaSize)
    (other : ∀ m, s.xmit = .mapping m → d ≠ m.itxd) : SkbInv c (txUnmap d s) := by
  have mac : ∀ m, s.xmit = .mapping m →
      (Function.update s.ring.buf d TxBuf.zero m.itxd).mac = m.mac ∧ c.netdev m.mac = true := by
    intro m busy
    rw [Function.update_of_ne (other m busy).symm]
    exact inv.mac m busy
  by_cases real : ∃ skb, (s.ring.buf d).skb = .skb skb
  · obtain ⟨skb, holds⟩ := real
    have below := inside d (inv.inFlight d skb holds).1
    have freed : (txUnmap d s).freed = skb.id :: s.freed := by
      unfold txUnmap
      rw [holds]
    constructor
    · intro id
      have less : held c (txUnmap d s).ring id +
          (if (s.ring.buf d).skb.holds id = true then 1 else 0) = held c s.ring id + 0 :=
        held_update s.ring d below TxBuf.zero id
      have before := inv.count id
      rw [holds] at less
      simp only [BufSkb.holds, beq_iff_eq] at less
      rw [freed, List.count_cons]
      simp only [beq_iff_eq]
      change _ = s.answers.count (id, .ok)
      omega
    · exact inv.once
    · exact inv.fresh
    · exact mac
    · intro e packet (held : (Function.update s.ring.buf d TxBuf.zero e).skb = .skb packet)
      by_cases here : e = d
      · subst here
        rw [Function.update_self] at held
        cases held
      · rw [Function.update_of_ne here] at held
        have member := inv.inFlight e packet held
        refine ⟨member.1, ?_⟩
        change counted packet (Function.update s.ring.buf d TxBuf.zero e).mac ∈ _
        rw [Function.update_of_ne here]
        exact member.2
    · exact inv.sent
    · exact inv.sentOnce
    · intro e member
      rw [freed]
      exact ⟨(inv.polled e member).1, List.mem_cons_of_mem _ (inv.polled e member).2⟩
    · exact inv.polledOnce
    · exact inv.bytes
    · exact inv.down
  · have none : ∀ skb, (s.ring.buf d).skb ≠ .skb skb := fun skb holds => real ⟨skb, holds⟩
    have same : txUnmap d s = { s with
        ring := { s.ring with buf := Function.update s.ring.buf d TxBuf.zero } } := by
      unfold txUnmap
      cases here : (s.ring.buf d).skb with
      | skb skb => exact absurd here (none skb)
      | _ => rfl
    rw [same]
    exact inv.rebuf d TxBuf.zero none (by nofun) s.ring.owner s.ring.overwritten s.xmit inv.fresh mac

end Changes

section User

variable {last len done : Nat}

theorem SkbInv.free_empty (inv : SkbInv c s) (d : Nat) (free : d ∉ s.ring.inFlight) (skb : Skb) :
    (s.ring.buf d).skb ≠ .skb skb := fun holds => free (inv.inFlight d skb holds).1

theorem setFport_mac (skb : BufSkb) (mac : Fin 3) :
    ({ TxBuf.zero with skb := skb }.setFport mac).mac = mac := by
  fin_cases mac <;> rfl

/-- The port of a descriptor that several pieces share stays. -/
theorem setFport_same (b : TxBuf) (mac : Fin 3) (same : b.mac = mac) :
    (b.setFport mac).mac = mac := by
  obtain ⟨skb, fport1, fport2⟩ := b
  revert mac
  cases fport1 <;> cases fport2 <;> intro mac same <;> subst same <;> rfl

theorem setFport_skb (b : TxBuf) (mac : Fin 3) : (b.setFport mac).skb = b.skb := by
  unfold TxBuf.setFport
  split_ifs <;> rfl

theorem setupTxBuf_mac (k : Nat) (b : TxBuf) : (setupTxBuf c k b).mac = b.mac := by
  unfold setupTxBuf
  split_ifs <;> rfl

theorem setupTxBuf_empty (k : Nat) (b : TxBuf) (empty : ∀ skb, b.skb ≠ .skb skb) (skb : Skb) :
    (setupTxBuf c k b).skb ≠ .skb skb := by
  unfold setupTxBuf
  split_ifs
  · nofun
  · exact empty skb

theorem mapHead_inv (at' : TxAt c s last len done) (inv : SkbInv c s) (t : XmitTry) (skb : Skb)
    (mac : Fin 3) (idle : s.xmit = .idle) (fresh : (skb.id, .ok) ∉ s.answers)
    (netdev : c.netdev mac = true) : SkbInv c (mapHead c t skb mac s) := by
  have empty := inv.free_empty _ at'.head_free
  unfold mapHead
  dsimp only
  split_ifs
  · exact drop_inv inv skb fresh
  · have zeroed := inv.rebuf s.ring.nextFree TxBuf.zero empty (by nofun) s.ring.owner
      s.ring.overwritten s.xmit inv.fresh (by rw [idle]; nofun)
    exact drop_inv zeroed skb fresh
  · refine inv.rebuf s.ring.nextFree _ empty ?_ _ _ _ ?_ ?_
    · apply setupTxBuf_empty
      intro packet
      rw [setFport_skb]
      nofun
    · rintro packet same
      rw [← Option.some.inj same]
      exact fresh
    · rintro m same
      rw [← Xmit.mapping.inj same]
      dsimp only
      rw [Function.update_self, setupTxBuf_mac]
      exact ⟨setFport_mac .null mac, netdev⟩

/-- A packet is handed over only by who owns it, to an interface that exists. -/
def Handed (c : TxConf) (s : TxState) : TxEvent → Prop
  | .xmit _ skb mac => (skb.id, .ok) ∉ s.answers ∧ c.netdev mac = true
  | _ => True

/-- A short packet comes to be padded, and cannot be. -/
def padFailure (c : TxConf) (s : TxState) : TxEvent → Bool
  | .xmit t skb _ =>
    match s.up, s.xmit with
    | true, .idle => !t.resetting && !decide (s.ring.freeCount ≤ calTxdReq c skb) &&
        !(skb.isGso && t.cowFails) && decide (skb.len ≤ 40) && t.padFails
    | _, _ => false
  | _ => false

theorem mtkStartXmit_inv (at' : TxAt c s last len done) (inv : SkbInv c s) (t : XmitTry)
    (skb : Skb) (mac : Fin 3) (idle : s.xmit = .idle) (handed : Handed c s (.xmit t skb mac))
    (padded : padFailure c s (.xmit t skb mac) = false) :
    SkbInv c (mtkStartXmit c t skb mac s) := by
  unfold mtkStartXmit
  split_ifs with resetting full cow short fails
  · exact drop_inv inv skb handed.1
  · constructor
    · intro id
      have before := inv.count id
      change _ = ((skb.id, TxAnswer.busy) :: s.answers).count (id, .ok)
      rw [List.count_cons_of_ne (by nofun)]
      exact before
    · intro id
      change ((skb.id, TxAnswer.busy) :: s.answers).count (id, .ok) ≤ 1
      rw [List.count_cons_of_ne (by nofun)]
      exact inv.once id
    · intro packet busy
      rw [idle] at busy
      cases busy
    · exact inv.mac
    · exact inv.inFlight
    · intro e member
      exact ⟨List.mem_cons_of_mem _ (inv.sent e member).1, (inv.sent e member).2⟩
    · exact inv.sentOnce
    · exact inv.polled
    · exact inv.polledOnce
    · exact inv.bytes
    · exact inv.down
  · exact drop_inv inv skb handed.1
  · simp [padFailure, at'.up, idle, resetting, full, cow, short, fails] at padded
  · exact mapHead_inv at' inv t skb.padded mac idle handed.1 handed.2
  · exact mapHead_inv at' inv t skb mac idle handed.1 handed.2

theorem mapDone_inv (at' : TxAt c s last len done) (inv : SkbInv c s) (m : TxMap)
    (busy : s.xmit = .mapping m) : SkbInv c (mapDone c m s) := by
  have xmit := at'.xmit
  rw [busy] at xmit
  obtain ⟨taken, count, short, itxd, txd, all⟩ := xmit
  have room := at'.room
  have fresh := inv.fresh m.skb (by rw [busy]; rfl)
  have none := List.count_eq_zero.mpr fresh
  obtain ⟨mac, netdev⟩ := inv.mac m busy
  have below : m.itxd < c.txDmaSize := by
    rw [itxd]
    exact Nat.mod_lt _ (txDmaSize_pos c)
  have free : m.itxd ∉ s.ring.inFlight := by
    have first := at'.free 0 room
    rwa [Nat.add_zero, ← itxd] at first
  have empty : ∀ id, (s.ring.buf m.itxd).skb.holds id = false := by
    intro id
    cases here : (s.ring.buf m.itxd).skb with
    | skb skb => exact absurd here (inv.free_empty _ free skb)
    | _ => rfl
  constructor
  · intro id
    have more : held c (mapDone c m s).ring id +
        (if (s.ring.buf m.itxd).skb.holds id = true then 1 else 0) =
          held c s.ring id + if (BufSkb.skb m.skb).holds id = true then 1 else 0 :=
      held_update s.ring m.itxd below { s.ring.buf m.itxd with skb := .skb m.skb } id
    have before := inv.count id
    rw [empty id] at more
    simp only [Bool.false_eq_true, if_false, BufSkb.holds, beq_iff_eq] at more
    change s.freed.count id + _ = ((m.skb.id, TxAnswer.ok) :: s.answers).count (id, .ok)
    simp only [List.count_cons, beq_iff_eq, Prod.mk.injEq, and_true]
    omega
  · intro id
    have before := inv.once id
    change ((m.skb.id, TxAnswer.ok) :: s.answers).count (id, .ok) ≤ 1
    simp only [List.count_cons, beq_iff_eq, Prod.mk.injEq, and_true]
    split_ifs with same
    · rw [← same, none]
    · exact before
  · nofun
  · nofun
  · intro d skb holds
    change (Function.update s.ring.buf m.itxd { s.ring.buf m.itxd with skb := .skb m.skb } d).skb =
      .skb skb at holds
    change d ∈ s.ring.inFlight ++ m.taken ∧ counted skb (Function.update s.ring.buf m.itxd
      { s.ring.buf m.itxd with skb := .skb m.skb } d).mac ∈ counted m.skb m.mac :: s.sent
    by_cases here : d = m.itxd
    · subst here
      rw [Function.update_self] at holds ⊢
      obtain rfl := BufSkb.skb.inj holds
      constructor
      · rw [all, count, around.cons, itxd]
        exact List.mem_append_right _ List.mem_cons_self
      · change counted m.skb (s.ring.buf m.itxd).mac ∈ _
        rw [mac]
        exact List.mem_cons_self
    · rw [Function.update_of_ne here] at holds ⊢
      have member := inv.inFlight d skb holds
      exact ⟨List.mem_append_left _ member.1, List.mem_cons_of_mem _ member.2⟩
  · intro e member
    rcases List.mem_cons.mp member with rfl | old
    · exact ⟨List.mem_cons_self, netdev⟩
    · exact ⟨List.mem_cons_of_mem _ (inv.sent e old).1, (inv.sent e old).2⟩
  · apply List.nodup_cons.mpr
    refine ⟨?_, inv.sentOnce⟩
    intro again
    obtain ⟨e, member, same⟩ := List.mem_map.mp again
    have accepted := (inv.sent e member).1
    rw [same] at accepted
    exact fresh accepted
  · intro e member
    exact ⟨List.mem_cons_of_mem _ (inv.polled e member).1, (inv.polled e member).2⟩
  · exact inv.polledOnce
  · exact inv.bytes
  · intro down
    have up := at'.up
    change s.up = false at down
    rw [up] at down
    cases down

theorem mapPiece_inv (at' : TxAt c s last len done) (inv : SkbInv c s) (fails : Bool) (m : TxMap)
    (busy : s.xmit = .mapping m) : SkbInv c (mapPiece c fails m s) := by
  have fresh : ∀ skb, some m.skb = some skb → (skb.id, .ok) ∉ s.answers := by
    intro skb same
    exact inv.fresh skb (by rw [busy]; exact same)
  obtain ⟨mac, netdev⟩ := inv.mac m busy
  unfold mapPiece
  cases pieces : m.pieces with
  | nil => exact mapDone_inv at' inv m busy
  | cons i rest =>
    dsimp only
    by_cases full : newDesc c i ∧ (if newDesc c i then nextDesc c m.txd else m.txd) = s.ring.lastFree
    · rw [if_pos full]
      exact inv.goOn _ fresh (by nofun)
    · have free := at'.piece_free m busy i full
      rw [if_neg full]
      cases fails with
      | true => exact inv.goOn _ fresh (by nofun)
      | false =>
        rw [if_neg (by decide)]
        refine inv.rebuf _ _ (inv.free_empty _ free) ?_ _ _ _ fresh ?_
        · apply setupTxBuf_empty
          intro packet
          rw [setFport_skb]
          nofun
        · rintro m' same
          rw [← Xmit.mapping.inj same]
          dsimp only
          refine ⟨?_, netdev⟩
          by_cases here : m.itxd = if newDesc c i then nextDesc c m.txd else m.txd
          · rw [← here, Function.update_self, setupTxBuf_mac]
            cases new : newDesc c i with
            | true => exact setFport_mac .dummy m.mac
            | false => exact setFport_same _ m.mac mac
          · rw [Function.update_of_ne here]
            exact mac

theorem undoPass_inv (at' : TxAt c s last len done) (inv : SkbInv c s) (skb : Skb)
    (itxd txd : Nat) (busy : s.xmit = .undoing skb itxd txd) :
    SkbInv c (undoPass c skb itxd txd s) := by
  have fresh : (skb.id, .ok) ∉ s.answers := inv.fresh skb (by rw [busy]; rfl)
  have unmapped := txUnmap_inv inv itxd at'.inside (by rw [busy]; nofun)
  have written : SkbInv c { txUnmap itxd s with
      ring := (txUnmap itxd s).ring.write itxd true } := { unmapped with }
  unfold undoPass
  dsimp only
  split_ifs
  · exact drop_inv written skb fresh
  · exact written.goOn _ (by rintro packet same; rw [← Option.some.inj same]; exact fresh) (by nofun)

end User

section Poller

variable {last len done : Nat}

theorem completedBytes_cons (entry : Txq × Nat × Nat) (completed : List (Txq × Nat × Nat))
    (txq : Txq) : completedBytes (entry :: completed) txq =
      (if entry.1 = txq then entry.2.2 else 0) + completedBytes completed txq := by
  unfold completedBytes
  by_cases same : entry.1 = txq
  · simp [same]
  · simp [same]

theorem polledBytes_cons (e : Counted) (polled : List Counted) (txq : Txq) :
    polledBytes (e :: polled) txq =
      (if e.txq = txq then e.bytes else 0) + polledBytes polled txq := by
  unfold polledBytes
  by_cases same : e.txq = txq
  · simp [same]
  · simp [same]

/-- The poller counts a packet, and tells the limit of the queue before. -/
theorem pollTxDone_counts (mac : Fin 3) (skb : Skb) (p : Poll) (s : TxState)
    (netdev : c.netdev mac = true) :
    (pollTxDone c mac skb p s).2.polled = counted skb mac :: s.polled ∧
      ∀ txq, completedBytes (pollTxDone c mac skb p s).2.completed txq +
          pendingBytes txq (some (pollTxDone c mac skb p s).1) =
        (if (mac, skb.queueMapping) = txq then skb.len else 0) +
          (completedBytes s.completed txq + pendingBytes txq (some p)) := by
  unfold pollTxDone
  dsimp only
  rw [if_neg (by rw [netdev]; decide)]
  by_cases same : p.txq = some (mac, skb.queueMapping)
  · rw [if_pos same]
    refine ⟨rfl, fun txq => ?_⟩
    simp only [pendingBytes, same, Option.some.injEq]
    split_ifs
    · omega
    · omega
  · rw [if_neg same]
    cases before : p.txq with
    | none =>
      refine ⟨rfl, fun txq => ?_⟩
      simp only [pendingBytes, before, Option.some.injEq, reduceCtorEq, if_false]
      omega
    | some old =>
      refine ⟨rfl, fun txq => ?_⟩
      simp only [pendingBytes, before, Option.some.injEq, completedBytes_cons]
      omega

/-- A descriptor that holds no packet any more is released. -/
theorem SkbInv.released (inv : SkbInv c s) (d : Nat)
    (empty : ∀ skb, (s.ring.buf d).skb ≠ .skb skb) (freeCount : Int) (poll : Option Poll)
    (polled : List Counted) (completed : List (Txq × Nat × Nat))
    (counts : ∀ e ∈ polled, e ∈ s.sent ∧ e.id ∈ s.freed) (once : (polled.map Counted.id).Nodup)
    (bytes : ∀ txq, completedBytes completed txq + pendingBytes txq poll =
      polledBytes polled txq) :
    SkbInv c { s with
      ring := { s.ring with
        lastFree := d, freeCount := freeCount, inFlight := s.ring.inFlight.erase d }
      poll := poll, polled := polled, completed := completed } := by
  constructor
  · exact inv.count
  · exact inv.once
  · exact inv.fresh
  · exact inv.mac
  · intro e skb holds
    have member := inv.inFlight e skb holds
    have other : e ≠ d := by
      rintro rfl
      exact empty skb holds
    exact ⟨(List.mem_erase_of_ne other).mpr member.1, member.2⟩
  · exact inv.sent
  · exact inv.sentOnce
  · exact counts
  · exact once
  · exact bytes
  · intro down
    change s.ring.inFlight.erase d = []
    rw [inv.down down]
    rfl

theorem txRelease_inv (at' : TxAt c s last len done) (inv : SkbInv c s) (p : Poll)
    (busy : s.poll = some p) (d : Nat) (given : d ∈ s.ring.inFlight) (cpu : Nat) :
    SkbInv c { (txRelease c d p s).2 with
      poll := some { (txRelease c d p s).1 with cpu := cpu } } := by
  have other : ∀ m, s.xmit = .mapping m → d ≠ m.itxd := by
    intro m holder equal
    have xmit := at'.xmit
    rw [holder] at xmit
    obtain ⟨taken, -, -, itxd, -⟩ := xmit
    have free := at'.free 0 at'.room
    rw [Nat.add_zero, ← itxd, ← equal] at free
    exact free given
  have unmapped := txUnmap_inv inv d at'.inside other
  have empty : ∀ skb, ((txUnmap d s).ring.buf d).skb ≠ .skb skb := by
    intro skb
    change (Function.update s.ring.buf d TxBuf.zero d).skb ≠ _
    rw [Function.update_self]
    nofun
  unfold txRelease
  cases holds : (s.ring.buf d).skb with
  | null =>
    refine unmapped.released d empty _ _ _ _ unmapped.polled unmapped.polledOnce ?_
    have bytes := inv.bytes
    rw [busy] at bytes
    exact bytes
  | dummy =>
    refine unmapped.released d empty _ _ _ _ unmapped.polled unmapped.polledOnce ?_
    have bytes := inv.bytes
    rw [busy] at bytes
    exact bytes
  | skb skb =>
    have sent := (inv.inFlight d skb holds).2
    have netdev := (inv.sent _ sent).2
    have notFreed := inv.held_not_freed d (at'.inside d given) skb holds
    have counts := pollTxDone_counts (s.ring.buf d).mac skb p s netdev
    obtain ⟨-, polled', completed', frame⟩ := pollTxDone_frame (c := c) (s.ring.buf d).mac skb p s
    rcases result : pollTxDone c (s.ring.buf d).mac skb p s with ⟨p', s'⟩
    rw [result] at counts frame
    dsimp only at counts frame ⊢
    subst frame
    obtain ⟨rfl, bytes⟩ := counts
    rw [result]
    have freed : (txUnmap d s).freed = skb.id :: s.freed := by
      unfold txUnmap
      rw [holds]
    refine unmapped.released d empty _ _ (counted skb (s.ring.buf d).mac :: s.polled) completed'
      ?_ ?_ ?_
    · intro e member
      rcases List.mem_cons.mp member with rfl | old
      · refine ⟨sent, ?_⟩
        rw [freed]
        exact List.mem_cons_self
      · exact unmapped.polled e old
    · rw [List.map_cons, List.nodup_cons]
      refine ⟨?_, inv.polledOnce⟩
      intro again
      obtain ⟨e, member, same⟩ := List.mem_map.mp again
      have gone := (inv.polled e member).2
      rw [same] at gone
      exact notFreed gone
    · intro txq
      have before := inv.bytes txq
      rw [busy] at before
      rw [polledBytes_cons, ← before]
      exact bytes txq

theorem pollEnd_inv (inv : SkbInv c s) (p : Poll) (busy : s.poll = some p) :
    SkbInv c (pollEnd c p s) := by
  have bytes : ∀ txq, completedBytes (pollEnd c p s).completed txq + 0 =
      polledBytes s.polled txq := by
    intro txq
    rw [← inv.bytes txq, busy]
    unfold pollEnd pendingBytes
    dsimp only
    cases p.txq with
    | none => rfl
    | some old =>
      dsimp only
      simp only [completedBytes_cons, Option.some.injEq]
      omega
  unfold pollEnd at bytes ⊢
  cases mode : c.qdma with
  | true =>
    rw [mode] at bytes
    exact { inv with bytes := bytes }
  | false =>
    rw [mode] at bytes
    exact { inv with bytes := bytes }

theorem pollPass_inv (at' : TxAt c s last len done) (inv : SkbInv c s) (p : Poll)
    (busy : s.poll = some p) : SkbInv c (pollPass c p s) := by
  have poll := at'.poll
  rw [busy] at poll
  have place := poll.1
  unfold pollPass
  cases mode : c.qdma with
  | true =>
    rw [cpuPlace, mode, if_pos rfl] at place
    rw [if_pos rfl]
    unfold pollTxQdma
    dsimp only
    split_ifs with stop notOwner none
    · exact pollEnd_inv inv p busy
    · exact pollEnd_inv inv p busy
    · exact pollEnd_inv inv p busy
    · have given := at'.next_inFlight p busy fun same => stop (.inl same)
      rw [place, nextDesc_mod]
      exact txRelease_inv at' inv p busy _ given _
  | false =>
    rw [cpuPlace, mode, if_neg (by decide)] at place
    rw [if_neg (by decide)]
    unfold pollTxPdma
    dsimp only
    split_ifs with stop notOwner none
    · exact pollEnd_inv inv p busy
    · exact pollEnd_inv inv p busy
    · exact pollEnd_inv inv p busy
    · have given := at'.next_inFlight p busy fun same => stop (.inl same)
      rw [place]
      exact txRelease_inv at' inv p busy _ given _

end Poller

section Runs

theorem txUnmap_empty (d e : Nat) (empty : ∀ skb, (s.ring.buf e).skb ≠ .skb skb) (skb : Skb) :
    ((txUnmap d s).ring.buf e).skb ≠ .skb skb := by
  change (Function.update s.ring.buf d TxBuf.zero e).skb ≠ _
  by_cases here : e = d
  · subst here
    rw [Function.update_self]
    nofun
  · rw [Function.update_of_ne here]
    exact empty skb

/-- The descriptors that `mtk_tx_clean` has come to hold no packet. -/
theorem txUnmap_fold_inv (l : List Nat) (inv : SkbInv c s) (idle : s.xmit = .idle)
    (inside : ∀ d ∈ s.ring.inFlight, d < c.txDmaSize) :
    SkbInv c (l.foldl (fun s d => txUnmap d s) s) ∧
      ∀ e, (e ∈ l ∨ ∀ skb, (s.ring.buf e).skb ≠ .skb skb) →
        ∀ skb, ((l.foldl (fun s d => txUnmap d s) s).ring.buf e).skb ≠ .skb skb := by
  induction l generalizing s with
  | nil =>
    refine ⟨inv, fun e known skb => ?_⟩
    exact known.elim (fun none => absurd none List.not_mem_nil) (fun empty => empty skb)
  | cons d l ih =>
    obtain ⟨after, empty⟩ := ih (txUnmap_inv inv d inside (by rw [idle]; nofun)) idle inside
    refine ⟨after, fun e known => ?_⟩
    apply empty e
    rcases known with member | none
    · rcases List.mem_cons.mp member with rfl | later
      · right
        intro skb
        change (Function.update s.ring.buf e TxBuf.zero e).skb ≠ _
        rw [Function.update_self]
        nofun
      · exact .inl later
    · exact .inr (txUnmap_empty d e none)

theorem txClean_inv (inv : SkbInv c s) (idle : s.xmit = .idle)
    (inside : ∀ d ∈ s.ring.inFlight, d < c.txDmaSize) : SkbInv c (txClean c s) := by
  obtain ⟨after, empty⟩ := txUnmap_fold_inv (List.range c.txDmaSize) inv idle inside
  obtain ⟨buf, freed, same⟩ := txUnmap_fold (List.range c.txDmaSize) s
  unfold txClean
  rw [same] at after empty ⊢
  refine { after with inFlight := ?_, down := fun _ => rfl }
  intro d skb holds
  have below := inside d (after.inFlight d skb holds).1
  exact absurd holds (empty d (.inl (List.mem_range.mpr below)) skb)

theorem txAlloc_inv (inv : SkbInv c s) (down : s.up = false) (idle : s.xmit = .idle) :
    SkbInv c (txAlloc c s) := by
  have empty : ∀ d skb, (s.ring.buf d).skb ≠ .skb skb := by
    intro d
    apply inv.free_empty d
    rw [inv.down down]
    exact List.not_mem_nil
  refine { inv with count := ?_, mac := ?_, inFlight := ?_, down := ?_ }
  · intro id
    rw [held_congr s.ring]
    · exact inv.count id
    · intro d id
      cases here : (s.ring.buf d).skb with
      | skb skb => exact absurd here (empty d skb)
      | _ => rfl
  · intro m busy
    change s.xmit = _ at busy
    rw [idle] at busy
    cases busy
  · nofun
  · nofun

theorem txStep_inv (s : TxState) (event : TxEvent) (both : TxKept c s ∧ SkbInv c s)
    (guard : Handed c s event ∧ padFailure c s event = false) :
    TxKept c (txStep c s event) ∧ SkbInv c (txStep c s event) := by
  obtain ⟨kept, inv⟩ := both
  refine ⟨txStep_kept s event kept, ?_⟩
  unfold txStep
  cases kept with
  | down down idle none =>
    rw [down]
    cases event with
    | alloc => exact txAlloc_inv inv down idle
    | _ => exact inv
  | up last len done at' =>
    rw [at'.up]
    cases event with
    | alloc => exact inv
    | xmit t skb mac =>
      cases holder : s.xmit with
      | idle => exact mtkStartXmit_inv at' inv t skb mac holder guard.1 guard.2
      | _ => exact inv
    | piece fails =>
      cases holder : s.xmit with
      | mapping m => exact mapPiece_inv at' inv fails m holder
      | _ => exact inv
    | undo =>
      cases holder : s.xmit with
      | undoing skb itxd txd => exact undoPass_inv at' inv skb itxd txd holder
      | _ => exact inv
    | poll budget =>
      cases poller : s.poll with
      | none =>
        have bytes := inv.bytes
        rw [poller] at bytes
        exact { inv with bytes := bytes }
      | some p => exact inv
    | pass =>
      cases poller : s.poll with
      | none => exact inv
      | some p => exact pollPass_inv at' inv p poller
    | hw =>
      dsimp only
      unfold hwDone
      dsimp only
      split_ifs
      · exact { inv with }
      · exact inv
      · exact { inv with }
      · exact inv
    | clean =>
      cases holder : s.xmit with
      | idle =>
        cases poller : s.poll with
        | some p => exact inv
        | none => exact txClean_inv inv holder at'.inside
      | _ => exact inv

theorem txDown_inv : SkbInv c txDown := by
  constructor
  · intro id
    change 0 + held c txDown.ring id = 0
    rw [Nat.zero_add, held, Finset.card_eq_zero, Finset.filter_eq_empty_iff]
    intro d _ holds
    cases holds
  · intro id
    exact Nat.zero_le _
  · nofun
  · nofun
  · nofun
  · nofun
  · exact List.nodup_nil
  · nofun
  · exact List.nodup_nil
  · intro txq
    rfl
  · intro _
    rfl

/-- What cannot be padded is freed twice. -/
theorem padFailure_freed (event : TxEvent)
    (fails : padFailure c s event = true) : ¬SkbOwned c (txStep c s event) := by
  cases event with
  | xmit t skb mac =>
    unfold padFailure at fails
    cases up : s.up with
    | false => rw [up] at fails; cases fails
    | true =>
      cases holder : s.xmit with
      | mapping m => rw [up, holder] at fails; cases fails
      | undoing skb itxd txd => rw [up, holder] at fails; cases fails
      | idle =>
        rw [up, holder] at fails
        simp only [Bool.and_eq_true, Bool.not_eq_true', decide_eq_true_eq, decide_eq_false_iff_not,
          Bool.and_eq_false_iff] at fails
        obtain ⟨⟨⟨⟨resetting, full⟩, cow⟩, short⟩, pad⟩ := fails
        have twice : txStep c s (.xmit t skb mac) =
            drop skb { s with freed := skb.id :: s.freed } := by
          unfold txStep mtkStartXmit
          rw [up, holder]
          dsimp only
          rw [if_neg (by rw [resetting]; decide), if_neg full, if_neg, if_pos short, if_pos pad]
          rintro ⟨gso, fails⟩
          rcases cow with no | no
          · rw [gso] at no; cases no
          · rw [fails] at no; cases no
        rw [twice]
        intro owned
        have once := owned.accepted skb.id List.mem_cons_self
        change (skb.id :: skb.id :: s.freed).count skb.id + _ = 1 at once
        rw [List.count_cons_self, List.count_cons_self] at once
        omega
  | _ => cases fails

theorem run_inv (c : TxConf) (events : List TxEvent)
    (handed : Along (txStep c) (Handed c) txDown events)
    (clear : Along (txStep c) (fun s event => padFailure c s event = false) txDown events) :
    SkbInv c (run (txStep c) txDown events) :=
  (run_invariant (txStep c) _ (fun s => TxKept c s ∧ SkbInv c s) txStep_inv txDown events
    ⟨.down rfl rfl rfl, txDown_inv⟩ ((along_and ..).mpr ⟨handed, clear⟩)).2

/-- The packets of a run are freed once, and their bytes balance, exactly if no short packet fails
to be padded. -/
theorem skb_owned_iff (c : TxConf) (events : List TxEvent)
    (handed : Along (txStep c) (Handed c) txDown events) :
    (∀ early late, events = early ++ late → SkbOwned c (run (txStep c) txDown early)) ↔
      Along (txStep c) (fun s event => padFailure c s event = false) txDown events := by
  constructor
  · intro owned
    refine along_of_prefixes (txStep c) _ (SkbOwned c) txDown events ?_ owned
    rintro early event late rfl fails
    exact padFailure_freed event (Bool.eq_true_of_not_eq_false fails)
  · rintro clear early late rfl
    exact (run_inv c early ((along_append ..).mp handed).1
      ((along_append ..).mp clear).1).owned

instance decidableHanded (c : TxConf) (s : TxState) :
    ∀ event, Decidable (Handed c s event)
  | .xmit _ skb mac =>
    inferInstanceAs (Decidable ((skb.id, .ok) ∉ s.answers ∧ c.netdev mac = true))
  | .piece _ | .undo | .poll _ | .pass | .hw | .clean | .alloc => isTrue trivial

theorem skb_owned_sent : SkbOwned eightPdma (run (txStep eightPdma) txDown sentOne) := by
  apply (skb_owned_iff eightPdma sentOne (by decide)).mpr (by decide) sentOne []
  exact (List.append_nil _).symm

/-- A packet of 20 bytes that cannot be padded. -/
def shortPacket : List TxEvent :=
  [.alloc, .xmit { nothingFails with padFails := true } ⟨0, 20, [], false, 0⟩ mtkGmac1Id]

theorem short_freed_twice : ¬∀ (c : TxConf) (events : List TxEvent),
    Along (txStep c) (Handed c) txDown events →
      ∀ early late, events = early ++ late → SkbOwned c (run (txStep c) txDown early) := by
  intro always
  have owned := always eightPdma shortPacket (by decide) shortPacket [] rfl
  exact absurd (owned.accepted 0 (by decide)) (by decide)

end Runs

end Filogic.Eth
