import Filogic.Jffs2.Walk

/-! The buffer of the generator: at every step it holds whole nodes, and so do the blocks that were
handed on. -/

namespace Filogic.Jffs2
open Lib

/-- How much the buffer holds, and how many blocks were handed on. -/
structure Spot where
  ofs : Nat
  blocks : Nat

section Spots

variable (erasesize : Nat) (s : Spot)

/-- The block is handed on, if there is anything in it. -/
def Spot.flush : Spot := if s.ofs = 0 then s else ⟨0, s.blocks + 1⟩

/-- Behind the clean marker of a block. -/
def Spot.start : Spot := if s.ofs = 0 then ⟨12, s.blocks⟩ else s

/-- Behind a node of `len` bytes. -/
def Spot.node (len : Nat) : Spot :=
  if s.ofs + padLen len = erasesize then ⟨0, s.blocks + 1⟩ else ⟨s.ofs + padLen len, s.blocks⟩

end Spots

def Gen.spot (g : Gen) : Spot := ⟨g.buf.length, g.out.length⟩

/-- The generator with another buffer. -/
def Gen.hold (g : Gen) (buf : List UInt8) (out : List (List UInt8)) : Gen :=
  { g with buf := buf, out := out }

@[simp]
theorem Gen.hold_lastIno (g : Gen) (buf : List UInt8) (out : List (List UInt8)) :
    (g.hold buf out).lastIno = g.lastIno := rfl

@[simp]
theorem Gen.hold_lastVersion (g : Gen) (buf : List UInt8) (out : List (List UInt8)) :
    (g.hold buf out).lastVersion = g.lastVersion := rfl

@[simp]
theorem Gen.hold_hold (g : Gen) (buf buf' : List UInt8) (out out' : List (List UInt8)) :
    (g.hold buf out).hold buf' out' = g.hold buf' out' := rfl

/-- The nodes that were generated, those of each full block and those in the buffer. -/
structure Packed (erasesize : Nat) (g : Gen) (nodes : List Node) : Prop where
  parts : ∃ (full : List (List Node)) (cur : List Node), nodes = full.flatten ++ cur ∧
    g.out = full.map (blockOf erasesize) ∧ g.buf = padded cur ∧
    ∀ ns ∈ full, ns ≠ [] ∧ (padded ns).length ≤ erasesize
  raw : ∀ node ∈ nodes, Raw node
  room : g.buf.length < erasesize

/-- Neither dirents nor inodes. -/
def Plain (nodes : List Node) : Prop := ∀ node ∈ nodes, isDirent node = false ∧ isInode node = false

section Ops

variable {erasesize : Nat} {g g' : Gen} {nodes : List Node}

theorem put_eq_some (bytes : List UInt8) :
    put erasesize g bytes = some g' ↔
      g.buf.length + bytes.length ≤ erasesize ∧ g' = g.hold (g.buf ++ bytes) g.out := by
  unfold put
  split_ifs with full
  · simp only [false_iff]
    omega
  · rw [Option.some_inj]
    exact ⟨fun same => ⟨by omega, same.symm⟩, fun both => both.2.symm⟩

theorem pad_filled (size : Nat) (filled : List UInt8)
    (partly : ¬(g.buf.length % size = 0 ∧ g.buf.length < erasesize))
    (same : (if g.buf.length < erasesize then
      g.buf ++ List.replicate (size - g.buf.length % size) 0xff else g.buf) = filled) :
    pad erasesize g size =
      if erasesize < filled.length then none
      else if filled.length % erasesize = 0 then some (g.hold [] (g.out ++ [filled]))
      else some (g.hold filled g.out) := by
  subst same
  rw [pad, if_neg partly]
  rfl

theorem padded_aligned (nodes : List Node) (raw : ∀ node ∈ nodes, Raw node) :
    (padded nodes).length % 4 = 0 := by
  induction nodes with
  | nil => rfl
  | cons node nodes ih =>
    have first := raw node List.mem_cons_self
    have others := ih fun other member => raw other (List.mem_cons_of_mem node member)
    have split : padded (node :: nodes) = padNode node ++ padded nodes := rfl
    rw [split, List.length_append, padNode_length node first.short, padLen_eq _ first.short]
    omega

theorem Packed.aligned (packed : Packed erasesize g nodes) : g.buf.length % 4 = 0 := by
  obtain ⟨full, cur, rfl, -, buf, -⟩ := packed.parts
  rw [buf]
  exact padded_aligned cur fun node member => packed.raw node (List.mem_append_right _ member)

/-- The counters do not matter. -/
theorem Packed.counters (packed : Packed erasesize g nodes) (ino version : Nat) :
    Packed erasesize { g with lastIno := ino, lastVersion := version } nodes :=
  ⟨packed.parts, packed.raw, packed.room⟩

/-- The rest of a block is filled up, if there is anything in it. -/
theorem Packed.pad_block (packed : Packed erasesize g nodes) : ∃ out,
    pad erasesize g erasesize = some (g.hold [] out) ∧ Packed erasesize (g.hold [] out) nodes ∧
      (g.hold [] out).spot = g.spot.flush := by
  have room := packed.room
  obtain ⟨full, cur, rfl, out, buf, whole⟩ := packed.parts
  by_cases empty : g.buf = []
  · have nothing : padded cur = [] := buf ▸ empty
    have length : g.buf.length = 0 := by rw [empty, List.length_nil]
    refine ⟨g.out, ?_, ⟨⟨full, cur, rfl, out, nothing.symm, whole⟩, packed.raw, ?_⟩, ?_⟩
    · rw [pad, if_pos ⟨by rw [length, Nat.zero_mod], room⟩, ← empty]
      rfl
    · exact Nat.lt_of_le_of_lt (Nat.zero_le _) room
    · rw [Spot.flush, if_pos (show g.spot.ofs = 0 from length), Gen.spot, Gen.spot, length]
      rfl
  · have positive : 0 < g.buf.length := List.length_pos_iff.mpr empty
    have rest : g.buf.length % erasesize = g.buf.length := Nat.mod_eq_of_lt room
    have size : (blockOf erasesize cur).length = erasesize := by
      rw [blockOf, List.length_append, List.length_replicate, ← buf]
      omega
    have block : g.buf ++ List.replicate (erasesize - g.buf.length) 0xff = blockOf erasesize cur := by
      rw [blockOf, buf]
    refine ⟨g.out ++ [blockOf erasesize cur], ?_, ⟨⟨full ++ [cur], [], ?_, ?_, rfl, ?_⟩, packed.raw,
      Nat.lt_of_le_of_lt (Nat.zero_le _) room⟩, ?_⟩
    · rw [pad_filled erasesize (blockOf erasesize cur) (by rw [rest]; omega)
        (by rw [if_pos room, rest, block]), size, if_neg (Nat.lt_irrefl _), if_pos (Nat.mod_self _)]
    · simp
    · simp [Gen.hold, out]
    · intro ns member
      rw [List.mem_append, List.mem_singleton] at member
      rcases member with old | rfl
      · exact whole ns old
      · refine ⟨?_, by rw [← buf]; omega⟩
        rintro rfl
        exact empty buf
    · have some : g.spot.ofs ≠ 0 := by
        simp only [Gen.spot]
        omega
      rw [Spot.flush, if_neg some]
      simp [Gen.spot, Gen.hold]

/-- Padding behind a node, which may end the block. -/
theorem Packed.pad_behind (packed : Packed erasesize g nodes) (four : 4 ∣ erasesize) (node : Node)
    (raw : Raw node) (fits : g.buf.length + node.length ≤ erasesize) :
    pad erasesize (g.hold (g.buf ++ node) g.out) 4 =
      if g.buf.length + padLen node.length = erasesize then
        some (g.hold [] (g.out ++ [g.buf ++ padNode node]))
      else some (g.hold (g.buf ++ padNode node) g.out) := by
  have room := packed.room
  have aligned := packed.aligned
  have padLength := padLen_eq node.length raw.short
  have size : (g.buf ++ padNode node).length = g.buf.length + padLen node.length := by
    rw [List.length_append, padNode_length node raw.short]
  have lengths : (g.buf ++ node).length = g.buf.length + node.length := List.length_append
  have long := raw.header
  by_cases exact : (g.buf.length + node.length) % 4 = 0 ∧ g.buf.length + node.length < erasesize
  · have nothing : padNode node = node := by
      rw [padNode, show padLen node.length - node.length = 0 by omega, List.replicate_zero,
        List.append_nil]
    rw [pad, if_pos (by simpa only [Gen.hold, lengths] using exact), nothing, if_neg (by omega)]
  · have filled : (if (g.buf ++ node).length < erasesize then
        g.buf ++ node ++ List.replicate (4 - (g.buf ++ node).length % 4) 0xff
        else g.buf ++ node) = g.buf ++ padNode node := by
      split_ifs with short
      · rw [padNode, List.append_assoc, show 4 - (g.buf ++ node).length % 4 =
          padLen node.length - node.length by omega]
      · rw [padNode, show padLen node.length - node.length = 0 by omega, List.replicate_zero,
          List.append_nil]
    rw [pad_filled 4 (g.buf ++ padNode node) (by simpa only [Gen.hold, lengths] using exact) filled,
      if_neg (by omega), size]
    by_cases full : g.buf.length + padLen node.length = erasesize
    · rw [if_pos full, if_pos (by rw [full, Nat.mod_self])]
      rfl
    · rw [if_neg full, if_neg (by rw [Nat.mod_eq_of_lt (by omega)]; omega)]
      rfl

/-- A node that was put behind the others is padded. -/
theorem Packed.pad_node (packed : Packed erasesize g nodes) (four : 4 ∣ erasesize) (node : Node) (raw : Raw node)
    (fits : g.buf.length + node.length ≤ erasesize)
    (ok : pad erasesize (g.hold (g.buf ++ node) g.out) 4 = some g') : ∃ buf out,
    g' = g.hold buf out ∧ Packed erasesize g' (nodes ++ [node]) ∧
      g'.spot = g.spot.node erasesize node.length := by
  have room := packed.room
  have aligned := packed.aligned
  have padLength := padLen_eq node.length raw.short
  rw [packed.pad_behind four node raw fits] at ok
  have all : ∀ other ∈ nodes ++ [node], Raw other := by
    intro other member
    rw [List.mem_append, List.mem_singleton] at member
    rcases member with old | rfl
    · exact packed.raw other old
    · exact raw
  obtain ⟨full, cur, rfl, out, buf, whole⟩ := packed.parts
  have next : padded (cur ++ [node]) = g.buf ++ padNode node := by
    rw [padded_append, padded_singleton, buf]
  have size : (g.buf ++ padNode node).length = g.buf.length + padLen node.length := by
    rw [List.length_append, padNode_length node raw.short]
  split_ifs at ok with filled
  · obtain rfl := Option.some.inj ok
    refine ⟨_, _, rfl, ⟨⟨full ++ [cur ++ [node]], [], ?_, ?_, rfl, ?_⟩, all,
      Nat.lt_of_le_of_lt (Nat.zero_le _) room⟩, ?_⟩
    · simp
    · have block : blockOf erasesize (cur ++ [node]) = g.buf ++ padNode node := by
        rw [blockOf, next, size, filled, Nat.sub_self, List.replicate_zero, List.append_nil]
      simp [Gen.hold, out, block]
    · intro ns member
      rw [List.mem_append, List.mem_singleton] at member
      rcases member with old | rfl
      · exact whole ns old
      · exact ⟨by simp, by rw [next]; omega⟩
    · rw [Spot.node, if_pos (show g.spot.ofs + padLen node.length = erasesize from filled)]
      simp [Gen.spot, Gen.hold]
  · obtain rfl := Option.some.inj ok
    refine ⟨_, _, rfl, ⟨⟨full, cur ++ [node], ?_, out, next.symm, whole⟩, all, ?_⟩, ?_⟩
    · simp
    · dsimp only [Gen.hold]
      omega
    · have partly : ¬(g.spot.ofs + padLen node.length = erasesize) := filled
      rw [Spot.node, if_neg partly]
      simp only [Gen.spot, Gen.hold, size]

/-- A block begins with a clean marker. -/
theorem Packed.prep (packed : Packed erasesize g nodes) (large : 12 < erasesize) : ∃ buf marks,
    prepEraseblock erasesize g = some (g.hold buf g.out) ∧ Plain marks ∧
      Packed erasesize (g.hold buf g.out) (nodes ++ marks) ∧
      (g.hold buf g.out).spot = g.spot.start := by
  by_cases empty : g.buf = []
  · obtain ⟨full, cur, rfl, out, buf, whole⟩ := packed.parts
    have none : cur = [] := by
      have few := length_le_padded cur fun node member =>
        packed.raw node (List.mem_append_right _ member)
      rw [← buf, empty, List.length_nil] at few
      exact List.length_eq_zero_iff.mp (Nat.le_zero.mp few)
    subst none
    refine ⟨cleanmarker, [cleanmarker], ?_, ?_, ⟨⟨full, [cleanmarker], by simp, out, rfl, whole⟩,
      ?_, large⟩, ?_⟩
    · rw [prepEraseblock, if_neg (by simp [empty]), put_eq_some]
      exact ⟨by rw [empty]; exact Nat.le_of_lt large, by rw [empty, List.nil_append]⟩
    · intro node member
      rw [List.mem_singleton.mp member]
      exact cleanmarker_plain
    · intro node member
      rcases List.mem_append.mp member with old | new
      · exact packed.raw node old
      · rw [List.mem_singleton.mp new]
        exact cleanmarker_raw
    · rw [Spot.start, if_pos (by simp [Gen.spot, empty])]
      rfl
  · have positive : 0 < g.buf.length := List.length_pos_iff.mpr empty
    refine ⟨g.buf, [], by rw [prepEraseblock, if_pos positive]; rfl, by simp [Plain], ?_, ?_⟩
    · rw [List.append_nil]
      exact packed
    · rw [Spot.start, if_neg (by simp only [Gen.spot]; omega)]
      rfl

/-- Data that fits, or that comes right behind a clean marker, does not begin a block. -/
theorem Packed.addData_put (packed : Packed erasesize g nodes) (large : 12 < erasesize)
    (bytes : List UInt8) (place : g.buf.length + bytes.length ≤ erasesize ∨ g.buf.length = 12)
    (ok : addData erasesize g bytes = some g') : put erasesize g bytes = some g' := by
  unfold addData at ok
  split_ifs at ok with above
  · exfalso
    obtain ⟨out, padding, empty, spot⟩ := packed.pad_block
    obtain ⟨buf, marks, marker, -, -, begun⟩ := empty.prep large
    rw [padding, Option.bind_eq_bind, Option.bind_some, marker, Option.bind_some, put_eq_some] at ok
    have twelve : ((g.hold [] out).hold buf (g.hold [] out).out).buf.length = 12 :=
      congrArg Spot.ofs begun
    omega
  · exact ok

end Ops

end Filogic.Jffs2
