import Filogic.Dsa.Registers
import Filogic.Lib.Sweep
import Filogic.Lib.Runs

/-! Port isolation of the AN8855 switch: the port matrix registers, the copy of each that the
driver saves, and the bridges of the ports as the DSA core keeps them. -/

namespace Filogic.Dsa
open Lib

/-- `PORTMATRIX_MATRIX` -/
def portmatrixMatrix (x : BitVec 32) : BitVec 32 := x &&& 0x3f#32

/-- `PORTMATRIX_MASK` -/
def portmatrixMask : BitVec 32 := portmatrixMatrix 0x3f#32

/-- `PORTMATRIX_CLR` -/
def portmatrixClr : BitVec 32 := portmatrixMatrix 0#32

/-- The fields of `struct an8855_port` that port isolation uses. -/
structure Port where
  enable : Bool
  pm : BitVec 32
  deriving DecidableEq, Repr

/-- The ports that `dsa_is_user_port` holds for; the CPU port is none of them. -/
structure Tree where
  user : PortNum → Bool
  cpu_not_user : user cpuPort = false

/-- The saved ports, the registers `AN8855_PORTMATRIX_P(i)`, and the `bridge_dev` of each port. -/
structure Isolation (β : Type) where
  ports : PortNum → Port
  matrix : PortNum → BitVec 32
  bridgeDev : PortNum → Option β

variable {β : Type} [DecidableEq β] (tree : Tree)

def Isolation.setPort (s : Isolation β) (i : PortNum) (port : Port) (matrix : BitVec 32) :
    Isolation β :=
  { s with ports := Function.update s.ports i port, matrix := Function.update s.matrix i matrix }

/-- `an8855_port_enable` -/
def portEnable (port : PortNum) (s : Isolation β) : Isolation β :=
  if tree.user port then
    let pm := (s.ports port).pm ||| portmatrixMatrix (bit cpuPort)
    s.setPort port ⟨true, pm⟩ pm
  else s

/-- `an8855_port_disable` -/
def portDisable (port : PortNum) (s : Isolation β) : Isolation β :=
  if tree.user port then s.setPort port ⟨false, (s.ports port).pm⟩ portmatrixClr
  else s

/-- The loop body of `an8855_port_bridge_join`, with `port_bitmap`. -/
def joinPeer (port : PortNum) (bridge : β) (s : Isolation β × BitVec 32) (i : PortNum) :
    Isolation β × BitVec 32 :=
  if tree.user i && i ≠ port then
    if s.1.bridgeDev i ≠ some bridge then s
    else
      let matrix := if (s.1.ports i).enable then
          setBits (s.1.matrix i) (portmatrixMatrix (bit port))
        else s.1.matrix i
      let pm := (s.1.ports i).pm ||| portmatrixMatrix (bit port)
      (s.1.setPort i ⟨(s.1.ports i).enable, pm⟩ matrix, s.2 ||| bit i)
  else s

/-- `an8855_port_bridge_join` -/
def portBridgeJoin (port : PortNum) (bridge : β) (s : Isolation β) : Isolation β :=
  let swept := (List.finRange 6).foldl (joinPeer tree port bridge) (s, bit cpuPort)
  let s := swept.1
  let matrix := if (s.ports port).enable then
      rmw (s.matrix port) portmatrixMask (portmatrixMatrix swept.2)
    else s.matrix port
  s.setPort port ⟨(s.ports port).enable, (s.ports port).pm ||| portmatrixMatrix swept.2⟩ matrix

/-- The loop body of `an8855_port_bridge_leave`. -/
def leavePeer (port : PortNum) (bridge : β) (s : Isolation β) (i : PortNum) : Isolation β :=
  if tree.user i && i ≠ port then
    if s.bridgeDev i ≠ some bridge then s
    else
      let matrix := if (s.ports i).enable then
          clearBits (s.matrix i) (portmatrixMatrix (bit port))
        else s.matrix i
      -- the saved copy is masked with the port itself, not with its complement
      s.setPort i ⟨(s.ports i).enable, (s.ports i).pm &&& portmatrixMatrix (bit port)⟩ matrix
  else s

/-- `an8855_port_bridge_leave` -/
def portBridgeLeave (port : PortNum) (bridge : β) (s : Isolation β) : Isolation β :=
  let s := (List.finRange 6).foldl (leavePeer tree port bridge) s
  let matrix := if (s.ports port).enable then
      rmw (s.matrix port) portmatrixMask (portmatrixMatrix (bit cpuPort))
    else s.matrix port
  s.setPort port ⟨(s.ports port).enable, portmatrixMatrix (bit cpuPort)⟩ matrix

inductive PortEvent (β : Type) where
  | enable (port : PortNum)
  | disable (port : PortNum)
  | join (port : PortNum) (bridge : β)
  | leave (port : PortNum)
  deriving DecidableEq, Repr

/-- A port joins a bridge only as a user port that is in none, and leaves the one it is in; the DSA
core sets `bridge_dev` before the one call and clears it before the other. -/
def portStep (s : Isolation β) : PortEvent β → Isolation β
  | .enable port => portEnable tree port s
  | .disable port => portDisable tree port s
  | .join port bridge =>
      if tree.user port && (s.bridgeDev port).isNone then
        portBridgeJoin tree port bridge
          { s with bridgeDev := Function.update s.bridgeDev port (some bridge) }
      else s
  | .leave port =>
      match s.bridgeDev port with
      | some bridge =>
          portBridgeLeave tree port bridge
            { s with bridgeDev := Function.update s.bridgeDev port none }
      | none => s

/-- As `an8855_setup` leaves the switch: the ports are disabled, and no register of a user port has
a bit set. -/
def portsAtSetup (other : PortNum → BitVec 32) : Isolation β where
  ports := fun _ => ⟨false, 0⟩
  matrix := fun i => if tree.user i then portmatrixClr else other i
  bridgeDev := fun _ => none

/-- Another user port in the same bridge. -/
def Peer (dev : PortNum → Option β) (p q : PortNum) : Prop :=
  tree.user q = true ∧ q ≠ p ∧ ∃ bridge, dev p = some bridge ∧ dev q = some bridge

/-- The word has the bit of the CPU port and those of the peers, and no other. -/
def Reaches (dev : PortNum → Option β) (p : PortNum) (word : BitVec 32) : Prop :=
  ∀ i, word.getLsbD i = true ↔ ∃ q : PortNum, q.val = i ∧ (q = cpuPort ∨ Peer tree dev p q)

/-- The hardware matrix of each enabled user port is what it should be, and of each disabled one
empty. -/
def Isolated (s : Isolation β) : Prop :=
  ∀ p, tree.user p = true →
    if (s.ports p).enable then Reaches tree s.bridgeDev p (s.matrix p) else s.matrix p = 0

/-- Which ports have been left behind: another member has left their bridge since they last left
one themselves. -/
def behindStep (dev : PortNum → Option β) (behind : PortNum → Bool) :
    PortEvent β → PortNum → Bool
  | .leave port => fun i =>
      match dev port with
      | some bridge => i ≠ port && (behind i || tree.user i && dev i = some bridge)
      | none => behind i
  | _ => behind

/-- The switch together with the ports left behind. -/
def watchStep (w : Isolation β × (PortNum → Bool)) (event : PortEvent β) :
    Isolation β × (PortNum → Bool) :=
  (portStep tree w.1 event, behindStep tree w.1.bridgeDev w.2 event)

/-- No port is enabled while it is left behind. -/
def NotBehind (w : Isolation β × (PortNum → Bool)) : PortEvent β → Prop
  | .enable port => w.2 port = false
  | _ => True

instance decidableNotBehind (w : Isolation β × (PortNum → Bool)) :
    ∀ event, Decidable (NotBehind w event)
  | .enable port => inferInstanceAs (Decidable (w.2 port = false))
  | .disable _ => isTrue trivial
  | .join _ _ => isTrue trivial
  | .leave _ => isTrue trivial

theorem portmatrixMatrix_getLsbD (x : BitVec 32) (i : Nat) :
    (portmatrixMatrix x).getLsbD i = (x.getLsbD i && decide (i < 6)) := by
  have low : (0x3f#32).getLsbD i = decide (i < 6) := by
    change Nat.testBit (2 ^ 6 - 1) i = _
    rw [Nat.testBit_two_pow_sub_one]
  simp [portmatrixMatrix, low]

@[simp] theorem portmatrixMatrix_bit (port : PortNum) : portmatrixMatrix (bit port) = bit port := by
  apply BitVec.eq_of_getLsbD_eq
  intro i _
  have bound := port.isLt
  rw [portmatrixMatrix_getLsbD, bit_getLsbD]
  grind

theorem portmatrixMask_getLsbD (i : Nat) : portmatrixMask.getLsbD i = decide (i < 6) := by
  have same : portmatrixMask = 0x3f#32 := by decide
  rw [same]
  change Nat.testBit (2 ^ 6 - 1) i = _
  rw [Nat.testBit_two_pow_sub_one]

section Loops

variable (port : PortNum) (bridge : β) (dev : PortNum → Option β)

/-- The ports that the loops of join and leave do not pass over. -/
def inBridge (i : PortNum) : Bool := tree.user i && i ≠ port && dev i = some bridge

/-- What the loop of `an8855_port_bridge_join` makes of one port. -/
def joinCell (i : PortNum) (cell : Port × BitVec 32 × Bool) : Port × BitVec 32 × Bool :=
  if inBridge tree port bridge dev i then
    (⟨cell.1.enable, cell.1.pm ||| bit port⟩,
      if cell.1.enable then setBits cell.2.1 (bit port) else cell.2.1, true)
  else cell

/-- What the loop of `an8855_port_bridge_leave` makes of one port. -/
def leaveCell (i : PortNum) (cell : Port × BitVec 32) : Port × BitVec 32 :=
  if inBridge tree port bridge dev i then
    (⟨cell.1.enable, cell.1.pm &&& bit port⟩,
      if cell.1.enable then clearBits cell.2 (bit port) else cell.2)
  else cell

theorem join_loop (s : Isolation β) (bitmap : BitVec 32) (same : s.bridgeDev = dev) :
    let after := (List.finRange 6).foldl (joinPeer tree port bridge) (s, bitmap)
    after.1.bridgeDev = dev ∧ ∀ i,
      (after.1.ports i, after.1.matrix i, after.2.getLsbD i.val) =
        joinCell tree port bridge dev i (s.ports i, s.matrix i, bitmap.getLsbD i.val) := by
  apply foldl_sweep_all (joinPeer tree port bridge)
    (fun s i => (s.1.ports i, s.1.matrix i, s.2.getLsbD i.val)) (fun s => s.1.bridgeDev = dev)
    (joinCell tree port bridge dev)
  · intro s i framed
    unfold joinPeer
    split_ifs <;> exact framed
  · intro s i framed
    funext j
    unfold joinPeer joinCell inBridge
    rw [framed]
    by_cases here : j = i
    · subst here
      simp only [Function.update_self, portmatrixMatrix_bit]
      by_cases member : tree.user j && j ≠ port && dev j = some bridge
      · simp_all [Isolation.setPort]
      · simp only [member]
        split_ifs <;> simp_all
    · rw [Function.update_of_ne here]
      have apart : ¬j.val = i.val := fun equal => here (Fin.ext equal)
      split_ifs <;> simp [Isolation.setPort, here, apart]
  · exact List.nodup_finRange 6
  · exact List.mem_finRange
  · exact same

theorem leave_loop (s : Isolation β) (same : s.bridgeDev = dev) :
    let after := (List.finRange 6).foldl (leavePeer tree port bridge) s
    after.bridgeDev = dev ∧ ∀ i,
      (after.ports i, after.matrix i) =
        leaveCell tree port bridge dev i (s.ports i, s.matrix i) := by
  apply foldl_sweep_all (leavePeer tree port bridge)
    (fun s i => (s.ports i, s.matrix i)) (fun s => s.bridgeDev = dev)
    (leaveCell tree port bridge dev)
  · intro s i framed
    unfold leavePeer
    split_ifs <;> exact framed
  · intro s i framed
    funext j
    unfold leavePeer leaveCell inBridge
    rw [framed]
    by_cases here : j = i
    · subst here
      simp only [Function.update_self, portmatrixMatrix_bit]
      by_cases member : tree.user j && j ≠ port && dev j = some bridge
      · simp_all [Isolation.setPort]
      · simp only [member]
        split_ifs <;> simp_all
    · rw [Function.update_of_ne here]
      split_ifs <;> simp [Isolation.setPort, here]
  · exact List.nodup_finRange 6
  · exact List.mem_finRange
  · exact same

end Loops

end Filogic.Dsa
