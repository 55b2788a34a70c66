import Filogic.Dsa.PortMatrix

/-! The port matrices are right in every state of a run that enables no port left behind. -/

namespace Filogic.Dsa
open Lib

section Words

variable {β : Type} {tree : Tree} {dev dev' : PortNum → Option β} {port p q : PortNum} {bridge : β}

/-- A word is checked at the six ports; above them it has no bit. -/
theorem reaches_iff (word : BitVec 32) :
    Reaches tree dev p word ↔
      (∀ q : PortNum, word.getLsbD q.val = true ↔ q = cpuPort ∨ Peer tree dev p q) ∧
        ∀ i, 6 ≤ i → word.getLsbD i = false := by
  constructor
  · intro reaches
    apply And.intro
    · intro q
      rw [reaches q.val]
      constructor
      · intro ⟨other, same, allowed⟩
        exact Fin.ext same ▸ allowed
      · intro allowed
        exact ⟨q, rfl, allowed⟩
    · intro i high
      by_contra set
      obtain ⟨q, same, _⟩ := (reaches i).mp (Bool.eq_true_of_not_eq_false set)
      have bound := q.isLt
      omega
  · intro ⟨low, high⟩ i
    constructor
    · intro set
      have bound : i < 6 := by
        by_contra above
        rw [high i (by omega)] at set
        exact Bool.false_ne_true set
      exact ⟨⟨i, bound⟩, rfl, (low ⟨i, bound⟩).mp set⟩
    · intro ⟨q, same, allowed⟩
      exact same ▸ (low q).mpr allowed

theorem not_peer_of_none (none : dev p = none) : ¬Peer tree dev p q := by
  intro ⟨_, _, bridge, member, _⟩
  rw [none] at member
  exact Option.some_ne_none bridge member.symm

/-- A member has the port that joins for one more peer. -/
theorem peer_join_member (alone : dev port = none) (user : tree.user port = true)
    (other : p ≠ port) (member : dev p = some bridge) (q : PortNum) :
    Peer tree (Function.update dev port (some bridge)) p q ↔ Peer tree dev p q ∨ q = port := by
  unfold Peer
  rw [Function.update_of_ne other, member]
  by_cases joined : q = port
  · subst joined
    simp [user, other.symm]
  · simp [joined]

/-- Every other port keeps its peers. -/
theorem peer_join_apart (alone : dev port = none) (other : p ≠ port)
    (apart : dev p ≠ some bridge) (q : PortNum) :
    Peer tree (Function.update dev port (some bridge)) p q ↔ Peer tree dev p q := by
  unfold Peer
  rw [Function.update_of_ne other]
  by_cases joined : q = port
  · subst joined
    grind
  · simp [joined]

/-- A member has the port that leaves for a peer no more. -/
theorem peer_leave_member (was : dev port = some bridge) (other : p ≠ port)
    (member : dev p = some bridge) (q : PortNum) :
    Peer tree (Function.update dev port none) p q ↔ Peer tree dev p q ∧ q ≠ port := by
  unfold Peer
  rw [Function.update_of_ne other, member]
  by_cases left : q = port
  · subst left
    simp
  · simp [left]

theorem peer_leave_apart (was : dev port = some bridge) (other : p ≠ port)
    (apart : dev p ≠ some bridge) (q : PortNum) :
    Peer tree (Function.update dev port none) p q ↔ Peer tree dev p q := by
  unfold Peer
  rw [Function.update_of_ne other]
  by_cases left : q = port
  · subst left
    grind
  · simp [left]

/-- A word that gains the bit of a new peer. -/
theorem reaches_or {word : BitVec 32}
    (before : Reaches tree dev p word)
    (peers : ∀ q, Peer tree dev' p q ↔ Peer tree dev p q ∨ q = port) :
    Reaches tree dev' p (word ||| bit port) := by
  have bound := port.isLt
  obtain ⟨low, high⟩ := (reaches_iff word).mp before
  rw [reaches_iff]
  apply And.intro
  · intro q
    rw [BitVec.getLsbD_or, bit_getLsbD, peers, Bool.or_eq_true, low q, decide_eq_true_iff,
      ← Fin.ext_iff, or_assoc]
  · intro i above
    rw [BitVec.getLsbD_or, high i above, bit_getLsbD]
    simp only [Bool.false_or, decide_eq_false_iff_not]
    omega

theorem reaches_clear {word : BitVec 32}
    (before : Reaches tree dev p word) (user : tree.user port = true)
    (peers : ∀ q, Peer tree dev' p q ↔ Peer tree dev p q ∧ q ≠ port) :
    Reaches tree dev' p (clearBits word (bit port)) := by
  have notCpu : cpuPort ≠ port := fun same => by simp [← same, tree.cpu_not_user] at user
  obtain ⟨low, high⟩ := (reaches_iff word).mp before
  rw [reaches_iff]
  apply And.intro
  · intro q
    rw [clearBits_getLsbD, Bool.and_eq_true, low q, bit_getLsbD, peers]
    by_cases left : q = port
    · subst left
      simp [notCpu.symm]
    · simp [left, ← Fin.ext_iff]
  · intro i above
    rw [clearBits_getLsbD, high i above, Bool.false_and]

theorem reaches_congr {word : BitVec 32}
    (before : Reaches tree dev p word) (peers : ∀ q, Peer tree dev' p q ↔ Peer tree dev p q) :
    Reaches tree dev' p word := by
  intro i
  simp only [before i, peers]

/-- A port that gets a new matrix from a bitmap. -/
theorem reaches_rmw {word bitmap : BitVec 32} (high : ∀ i, 6 ≤ i → word.getLsbD i = false)
    (low : ∀ q : PortNum, bitmap.getLsbD q.val = true ↔ q = cpuPort ∨ Peer tree dev p q) :
    Reaches tree dev p (rmw word portmatrixMask (portmatrixMatrix bitmap)) := by
  rw [reaches_iff]
  apply And.intro
  · intro q
    rw [← low q]
    simp [portmatrixMask_getLsbD, portmatrixMatrix_getLsbD, q.isLt]
  · intro i above
    simp [portmatrixMask_getLsbD, portmatrixMatrix_getLsbD, high i above, above]

/-- A port on its own saved the bit of the CPU port at most, so that it gets the bitmap. -/
theorem reaches_gain {word bitmap : BitVec 32} (alone : dev p = none)
    (before : Reaches tree dev p (word ||| bit cpuPort))
    (low : ∀ q : PortNum, bitmap.getLsbD q.val = true ↔ q = cpuPort ∨ Peer tree dev' p q) :
    Reaches tree dev' p (word ||| portmatrixMatrix bitmap ||| bit cpuPort) := by
  obtain ⟨only, high⟩ := (reaches_iff _).mp before
  rw [reaches_iff]
  apply And.intro
  · intro q
    have own := only q
    simp only [not_peer_of_none alone, or_false, BitVec.getLsbD_or, Bool.or_eq_true] at own
    simp only [BitVec.getLsbD_or, Bool.or_eq_true, portmatrixMatrix_getLsbD, q.isLt, decide_true,
      Bool.and_true, low q]
    grind
  · intro i above
    have none := high i above
    rw [BitVec.getLsbD_or, Bool.or_eq_false_iff] at none
    simp [portmatrixMatrix_getLsbD, none, above]

theorem setBits_eq (word set : BitVec 32) : setBits word set = word ||| set := by
  apply BitVec.eq_of_getLsbD_eq
  intro i _
  rw [setBits_getLsbD, BitVec.getLsbD_or]

/-- The hardware matrix of a port is right, and so is the saved one of a port not left behind, but
for the bit of the CPU port that is set when the port is enabled. -/
def PortRight (tree : Tree) (dev : PortNum → Option β) (p : PortNum) (port : Port)
    (matrix : BitVec 32) (behind : Bool) : Prop :=
  (if port.enable then Reaches tree dev p matrix else matrix = 0) ∧
    (behind = false → Reaches tree dev p (port.pm ||| bit cpuPort))

variable {c : Port} {matrix : BitVec 32} {behind : Bool}

theorem portRight_enable (before : PortRight tree dev p c matrix false) :
    PortRight tree dev p ⟨true, c.pm ||| bit cpuPort⟩ (c.pm ||| bit cpuPort) behind := by
  have word := before.2 rfl
  exact ⟨by simpa using word, fun _ => by simpa [BitVec.or_assoc] using word⟩

theorem portRight_congr (before : PortRight tree dev p c matrix behind)
    (peers : ∀ q, Peer tree dev' p q ↔ Peer tree dev p q) :
    PortRight tree dev' p c matrix behind := by
  obtain ⟨hardware, saved⟩ := before
  apply And.intro
  · split_ifs at hardware ⊢
    · exact reaches_congr hardware peers
    · exact hardware
  · intro notBehind
    exact reaches_congr (saved notBehind) peers

/-- A member when another port joins. -/
theorem portRight_or (before : PortRight tree dev p c matrix behind)
    (peers : ∀ q, Peer tree dev' p q ↔ Peer tree dev p q ∨ q = port) :
    PortRight tree dev' p ⟨c.enable, c.pm ||| bit port⟩
      (if c.enable then setBits matrix (bit port) else matrix) behind := by
  obtain ⟨hardware, saved⟩ := before
  apply And.intro
  · dsimp only
    split_ifs at hardware ⊢
    · rw [setBits_eq]
      exact reaches_or hardware peers
    · exact hardware
  · intro notBehind
    rw [BitVec.or_assoc, BitVec.or_comm (bit port), ← BitVec.or_assoc]
    exact reaches_or (saved notBehind) peers

/-- The port that joins. -/
theorem portRight_join {bitmap : BitVec 32} (before : PortRight tree dev p c matrix behind)
    (alone : dev p = none)
    (low : ∀ q : PortNum, bitmap.getLsbD q.val = true ↔ q = cpuPort ∨ Peer tree dev' p q) :
    PortRight tree dev' p ⟨c.enable, c.pm ||| portmatrixMatrix bitmap⟩
      (if c.enable then rmw matrix portmatrixMask (portmatrixMatrix bitmap) else matrix)
      behind := by
  obtain ⟨hardware, saved⟩ := before
  apply And.intro
  · dsimp only
    split_ifs at hardware ⊢
    · exact reaches_rmw ((reaches_iff _).mp hardware).2 low
    · exact hardware
  · intro notBehind
    exact reaches_gain alone (saved notBehind) low

/-- A member when another port leaves: its saved matrix is spoilt. -/
theorem portRight_clear {pm : BitVec 32} (before : PortRight tree dev p c matrix behind)
    (user : tree.user port = true)
    (peers : ∀ q, Peer tree dev' p q ↔ Peer tree dev p q ∧ q ≠ port) :
    PortRight tree dev' p ⟨c.enable, pm⟩
      (if c.enable then clearBits matrix (bit port) else matrix) true := by
  obtain ⟨hardware, _⟩ := before
  apply And.intro
  · dsimp only
    split_ifs at hardware ⊢
    · exact reaches_clear hardware user peers
    · exact hardware
  · intro notBehind
    exact absurd notBehind (by decide)

/-- The port that leaves. -/
theorem portRight_leave (before : PortRight tree dev p c matrix behind) (alone : dev' p = none) :
    PortRight tree dev' p ⟨c.enable, bit cpuPort⟩
      (if c.enable then rmw matrix portmatrixMask (bit cpuPort) else matrix) false := by
  have low : ∀ q : PortNum, (bit cpuPort).getLsbD q.val = true ↔
      q = cpuPort ∨ Peer tree dev' p q := by
    intro q
    simp [not_peer_of_none alone, Fin.ext_iff]
  obtain ⟨hardware, _⟩ := before
  apply And.intro
  · dsimp only
    split_ifs at hardware ⊢
    · rw [← portmatrixMatrix_bit cpuPort]
      exact reaches_rmw ((reaches_iff _).mp hardware).2 low
    · exact hardware
  · intro _
    rw [BitVec.or_self, reaches_iff]
    apply And.intro low
    intro i above
    have bound := cpuPort.isLt
    simp only [bit_getLsbD, decide_eq_false_iff_not]
    omega

end Words

variable {β : Type} [DecidableEq β] {tree : Tree}

section Joining

variable {port : PortNum} {bridge : β} {dev : PortNum → Option β} {s : Isolation β}

theorem inBridge_iff (i : PortNum) :
    inBridge tree port bridge dev i = true ↔
      tree.user i = true ∧ i ≠ port ∧ dev i = some bridge := by
  simp [inBridge, and_assoc]

/-- The peers of a port that joins are the members of the bridge. -/
theorem peer_of_join (q : PortNum) :
    Peer tree (Function.update dev port (some bridge)) port q ↔
      inBridge tree port bridge (Function.update dev port (some bridge)) q = true := by
  rw [inBridge_iff]
  simp [Peer]

theorem portBridgeJoin_bridgeDev (same : s.bridgeDev = dev) :
    (portBridgeJoin tree port bridge s).bridgeDev = dev :=
  (join_loop tree port bridge dev s (bit cpuPort) same).1

theorem portBridgeJoin_other (same : s.bridgeDev = dev) {i : PortNum} (other : i ≠ port) :
    let after := portBridgeJoin tree port bridge s
    (after.ports i, after.matrix i) =
      if inBridge tree port bridge dev i then
        (⟨(s.ports i).enable, (s.ports i).pm ||| bit port⟩,
          if (s.ports i).enable then setBits (s.matrix i) (bit port) else s.matrix i)
      else (s.ports i, s.matrix i) := by
  have cell := (join_loop tree port bridge dev s (bit cpuPort) same).2 i
  simp only [portBridgeJoin, Isolation.setPort, Function.update_of_ne other]
  unfold joinCell at cell
  by_cases member : inBridge tree port bridge dev i = true
  · simp only [if_pos member, Prod.mk.injEq] at cell ⊢
    exact ⟨cell.1, cell.2.1⟩
  · simp only [if_neg member, Prod.mk.injEq] at cell ⊢
    exact ⟨cell.1, cell.2.1⟩

/-- The bitmap that the joining port gets holds the CPU port and the members. -/
theorem portBridgeJoin_self (same : s.bridgeDev = dev) :
    let after := portBridgeJoin tree port bridge s
    ∃ bitmap : BitVec 32,
      (∀ q : PortNum, bitmap.getLsbD q.val = true ↔
        q = cpuPort ∨ inBridge tree port bridge dev q = true) ∧
      after.ports port = ⟨(s.ports port).enable, (s.ports port).pm ||| portmatrixMatrix bitmap⟩ ∧
      after.matrix port = if (s.ports port).enable then
          rmw (s.matrix port) portmatrixMask (portmatrixMatrix bitmap)
        else s.matrix port := by
  intro after
  have cells := (join_loop tree port bridge dev s (bit cpuPort) same).2
  have passed : inBridge tree port bridge dev port = false := by simp [inBridge]
  have self := cells port
  simp only [joinCell, passed, Bool.false_eq_true, if_false, Prod.mk.injEq] at self
  apply Exists.intro ((List.finRange 6).foldl (joinPeer tree port bridge) (s, bit cpuPort)).2
  split_ands
  · intro q
    have cell := congrArg (fun c => c.2.2) (cells q)
    simp only [joinCell] at cell
    rw [cell]
    by_cases member : inBridge tree port bridge dev q = true
    · simp [member]
    · simp [member, Fin.ext_iff]
  · simp [after, portBridgeJoin, Isolation.setPort, self.1]
  · simp [after, portBridgeJoin, Isolation.setPort, self.1, self.2.1]

theorem portBridgeLeave_bridgeDev (same : s.bridgeDev = dev) :
    (portBridgeLeave tree port bridge s).bridgeDev = dev :=
  (leave_loop tree port bridge dev s same).1

theorem portBridgeLeave_other (same : s.bridgeDev = dev) {i : PortNum} (other : i ≠ port) :
    let after := portBridgeLeave tree port bridge s
    (after.ports i, after.matrix i) = leaveCell tree port bridge dev i (s.ports i, s.matrix i) := by
  have cell := (leave_loop tree port bridge dev s same).2 i
  simpa only [portBridgeLeave, Isolation.setPort, Function.update_of_ne other] using cell

theorem portBridgeLeave_self (same : s.bridgeDev = dev) :
    let after := portBridgeLeave tree port bridge s
    after.ports port = ⟨(s.ports port).enable, bit cpuPort⟩ ∧
      after.matrix port = if (s.ports port).enable then
          rmw (s.matrix port) portmatrixMask (bit cpuPort)
        else s.matrix port := by
  have self := (leave_loop tree port bridge dev s same).2 port
  have passed : inBridge tree port bridge dev port = false := by simp [inBridge]
  simp only [leaveCell, passed, Bool.false_eq_true, if_false, Prod.mk.injEq] at self
  simp [portBridgeLeave, Isolation.setPort, self.1, self.2]

end Joining

/-- Every user port is right. -/
def MatrixInv (tree : Tree) (w : Isolation β × (PortNum → Bool)) : Prop :=
  ∀ p, tree.user p = true →
    PortRight tree w.1.bridgeDev p (w.1.ports p) (w.1.matrix p) (w.2 p)

variable {w : Isolation β × (PortNum → Bool)}

theorem matrixInv_enable (inv : MatrixInv tree w) (port : PortNum)
    (kept : w.2 port = false) : MatrixInv tree (watchStep tree w (.enable port)) := by
  by_cases user : tree.user port = true
  · intro p isUser
    have before := inv p isUser
    simp only [watchStep, portStep, portEnable, if_pos user, Isolation.setPort, behindStep]
    by_cases here : p = port
    · subst here
      rw [kept] at before
      simpa using portRight_enable before
    · simpa [here] using before
  · have same : watchStep tree w (.enable port) = w := by
      simp [watchStep, portStep, portEnable, user, behindStep]
    rwa [same]

theorem matrixInv_disable (inv : MatrixInv tree w) (port : PortNum) :
    MatrixInv tree (watchStep tree w (.disable port)) := by
  by_cases user : tree.user port = true
  · intro p isUser
    have before := inv p isUser
    simp only [watchStep, portStep, portDisable, if_pos user, Isolation.setPort, behindStep]
    by_cases here : p = port
    · subst here
      apply And.intro
      · simp [portmatrixClr, portmatrixMatrix]
      · simpa using before.2
    · simpa [here] using before
  · have same : watchStep tree w (.disable port) = w := by
      simp [watchStep, portStep, portDisable, user, behindStep]
    rwa [same]

theorem matrixInv_join (inv : MatrixInv tree w) (port : PortNum) (bridge : β) :
    MatrixInv tree (watchStep tree w (.join port bridge)) := by
  by_cases joins : (tree.user port && (w.1.bridgeDev port).isNone) = true
  · obtain ⟨user, alone⟩ := Bool.and_eq_true_iff.mp joins
    rw [Option.isNone_iff_eq_none] at alone
    let start : Isolation β :=
      { w.1 with bridgeDev := Function.update w.1.bridgeDev port (some bridge) }
    have after : watchStep tree w (.join port bridge) =
        (portBridgeJoin tree port bridge start, w.2) := by
      simp [watchStep, portStep, behindStep, joins, start]
    have dev : (portBridgeJoin tree port bridge start).bridgeDev = start.bridgeDev :=
      portBridgeJoin_bridgeDev rfl
    intro p isUser
    have before := inv p isUser
    rw [after]
    dsimp only
    rw [dev]
    by_cases here : p = port
    · subst here
      obtain ⟨bitmap, holds, saved, hardware⟩ :=
        @portBridgeJoin_self β _ tree p bridge _ start rfl
      rw [saved, hardware]
      apply portRight_join before alone
      intro q
      rw [holds q, peer_of_join]
    · have cell := @portBridgeJoin_other β _ tree port bridge _ start rfl p here
      dsimp only at cell
      by_cases member : w.1.bridgeDev p = some bridge
      · have inside : inBridge tree port bridge start.bridgeDev p = true :=
          (inBridge_iff p).mpr ⟨isUser, here, by simp [start, here, member]⟩
        simp only [inside, if_true, Prod.mk.injEq] at cell
        rw [cell.1, cell.2]
        exact portRight_or before (peer_join_member alone user here member)
      · have outside : inBridge tree port bridge start.bridgeDev p = false := by
          simp [inBridge, start, here, member]
        simp only [outside, Bool.false_eq_true, if_false, Prod.mk.injEq] at cell
        rw [cell.1, cell.2]
        exact portRight_congr before (peer_join_apart alone here member)
  · have same : watchStep tree w (.join port bridge) = w := by
      simp [watchStep, portStep, joins, behindStep]
    rwa [same]

/-- Only user ports are in a bridge. -/
def MembersUser (tree : Tree) (dev : PortNum → Option β) : Prop :=
  ∀ p, dev p ≠ none → tree.user p = true

theorem matrixInv_leave (inv : MatrixInv tree w) (users : MembersUser tree w.1.bridgeDev)
    (port : PortNum) : MatrixInv tree (watchStep tree w (.leave port)) := by
  cases was : w.1.bridgeDev port with
  | none =>
    have same : watchStep tree w (.leave port) = w := by
      simp [watchStep, portStep, was, behindStep]
    rwa [same]
  | some bridge =>
    have user := users port (by simp [was])
    let start : Isolation β := { w.1 with bridgeDev := Function.update w.1.bridgeDev port none }
    have dev : (portBridgeLeave tree port bridge start).bridgeDev = start.bridgeDev :=
      portBridgeLeave_bridgeDev rfl
    intro p isUser
    have before := inv p isUser
    simp only [watchStep, portStep, behindStep, was]
    rw [dev]
    by_cases here : p = port
    · subst here
      obtain ⟨saved, hardware⟩ := @portBridgeLeave_self β _ tree p bridge _ start rfl
      rw [saved, hardware]
      simpa using portRight_leave before (by simp [start])
    · have cell := @portBridgeLeave_other β _ tree port bridge _ start rfl p here
      dsimp only [leaveCell] at cell
      by_cases member : w.1.bridgeDev p = some bridge
      · have inside : inBridge tree port bridge start.bridgeDev p = true :=
          (inBridge_iff p).mpr ⟨isUser, here, by simp [start, here, member]⟩
        simp only [inside, if_true, Prod.mk.injEq] at cell
        rw [cell.1, cell.2]
        simpa [here, isUser, member] using
          portRight_clear before user (peer_leave_member was here member)
      · have outside : inBridge tree port bridge start.bridgeDev p = false := by
          simp [inBridge, start, here, member]
        simp only [outside, Bool.false_eq_true, if_false, Prod.mk.injEq] at cell
        rw [cell.1, cell.2]
        simpa [here, member] using portRight_congr before (peer_leave_apart was here member)

theorem portStep_members (s : Isolation β) (event : PortEvent β)
    (users : MembersUser tree s.bridgeDev) : MembersUser tree (portStep tree s event).bridgeDev := by
  cases event with
  | enable port =>
    simp only [portStep, portEnable]
    split_ifs <;> exact users
  | disable port =>
    simp only [portStep, portDisable]
    split_ifs <;> exact users
  | join port bridge =>
    simp only [portStep]
    split_ifs with joins
    · rw [portBridgeJoin_bridgeDev rfl]
      intro p member
      by_cases here : p = port
      · exact here ▸ (Bool.and_eq_true_iff.mp joins).1
      · exact users p (by simpa [here] using member)
    · exact users
  | leave port =>
    cases was : s.bridgeDev port with
    | none => simpa only [portStep, was] using users
    | some bridge =>
      simp only [portStep, was]
      rw [portBridgeLeave_bridgeDev rfl]
      intro p member
      by_cases here : p = port
      · simp [here] at member
      · exact users p (by simpa [here] using member)

theorem matrixInv_step (event : PortEvent β) (inv : MatrixInv tree w)
    (users : MembersUser tree w.1.bridgeDev) (kept : NotBehind w event) :
    MatrixInv tree (watchStep tree w event) := by
  cases event with
  | enable port => exact matrixInv_enable inv port kept
  | disable port => exact matrixInv_disable inv port
  | join port bridge => exact matrixInv_join inv port bridge
  | leave port => exact matrixInv_leave inv users port

omit [DecidableEq β] in
theorem matrixInv_setup (other : PortNum → BitVec 32) :
    MatrixInv (β := β) tree (portsAtSetup tree other, fun _ => false) := by
  intro p isUser
  apply And.intro
  · simp [portsAtSetup, isUser, portmatrixClr, portmatrixMatrix]
  · intro _
    have bound := cpuPort.isLt
    rw [reaches_iff]
    apply And.intro
    · intro q
      simp [portsAtSetup, not_peer_of_none, Fin.ext_iff]
    · intro i above
      have apart : ¬i = cpuPort.val := by omega
      simp [portsAtSetup, apart]

theorem run_watch (events : List (PortEvent β)) :
    (run (watchStep tree) w events).1 = run (portStep tree) w.1 events := by
  induction events generalizing w with
  | nil => rfl
  | cons event rest ih => exact ih

/-- Bridges may be joined and left and ports disabled in any order: the matrices stay right as long
as no port left behind is enabled. -/
theorem isolated_along (tree : Tree) (other : PortNum → BitVec 32)
    (early late : List (PortEvent β))
    (kept : Along (watchStep tree) NotBehind (portsAtSetup tree other, fun _ => false)
      (early ++ late)) :
    Isolated tree (run (portStep tree) (portsAtSetup tree other) early) := by
  have inv := run_invariant (watchStep tree) NotBehind
    (fun w => MatrixInv tree w ∧ MembersUser tree w.1.bridgeDev)
    (fun w event both kept =>
      ⟨matrixInv_step event both.1 both.2 kept, portStep_members w.1 event both.2⟩)
    (portsAtSetup tree other, fun _ => false) early
    ⟨matrixInv_setup other, fun _ member => absurd rfl member⟩
    ((along_append _ _ _ early late).mp kept).1
  have same := @run_watch β _ tree (portsAtSetup tree other, fun _ => false) early
  intro p isUser
  rw [← same]
  exact (inv.1 p isUser).1

/-- Five user ports below the CPU port. -/
def fiveUsers : Tree where
  user := fun p => p ≠ cpuPort
  cpu_not_user := by decide

/-- Two ports in and out of a bridge, with a disable and an enable between. -/
def joinAndLeave : List (PortEvent Nat) :=
  [.enable lan0, .join lan0 1, .join lan1 1, .enable lan1, .disable lan0, .enable lan0, .leave lan1,
    .leave lan0, .disable lan0, .enable lan0]

theorem isolated_join_and_leave :
    Isolated fiveUsers
      (run (portStep fiveUsers) (portsAtSetup fiveUsers (fun _ => 0)) joinAndLeave) :=
  isolated_along fiveUsers (fun _ => 0) joinAndLeave [] (by decide)

/-- A port leaves, and its former peer that is enabled afterwards reaches it again. -/
def leaveThenEnable : List (PortEvent Nat) :=
  [.join lan0 1, .join lan1 1, .leave lan1, .enable lan0]

theorem former_peer_reached :
    ¬∀ (tree : Tree) (other : PortNum → BitVec 32) (events : List (PortEvent Nat)),
      Isolated tree (run (portStep tree) (portsAtSetup tree other) events) := by
  intro always
  have right := always fiveUsers (fun _ => 0) leaveThenEnable 0 (by decide)
  have matrix : (run (portStep fiveUsers) (portsAtSetup fiveUsers (fun _ => 0))
      leaveThenEnable).matrix 0 = 0x22#32 := by decide
  have alone : (run (portStep fiveUsers) (portsAtSetup fiveUsers (fun _ => 0))
      leaveThenEnable).bridgeDev 0 = some 1 ∧ (run (portStep fiveUsers)
        (portsAtSetup fiveUsers (fun _ => 0)) leaveThenEnable).bridgeDev 1 = none := by decide
  have enabled : ((run (portStep fiveUsers) (portsAtSetup fiveUsers (fun _ => 0))
      leaveThenEnable).ports 0).enable = true := by decide
  rw [if_pos enabled, matrix] at right
  obtain ⟨q, same, cpu | ⟨_, _, bridge, _, member⟩⟩ := (right 1).mp (by decide)
  · subst cpu
    exact absurd same (by decide)
  · obtain rfl : q = 1 := Fin.ext same
    rw [alone.2] at member
    exact Option.some_ne_none bridge member.symm

end Filogic.Dsa
