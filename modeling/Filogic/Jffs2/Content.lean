import Filogic.Jffs2.Scanned

/-! The nodes of a partition before and after `mtd_write_jffs2`, and what the file has to look like among
them. -/

namespace Filogic.Jffs2
open Lib Mtd

section Partition

variable (dev : Device)

def hasMagic (bytes : List UInt8) : Bool := magic bytes = 0x1985

/-- The nodes of the file system, which ends with the first good block that has none. -/
def fsNodes : List Node :=
  (((goodFrom dev.flash.bad 0 dev.mtd.blocks).map (blockBytes dev)).takeWhile hasMagic).flatMap
    (walk dev.mtd.erasesize)

/-- The first block that does not start with a node, be it good or bad. -/
def endBlock : Nat :=
  ((List.range dev.mtd.blocks).takeWhile fun b => hasMagic (blockBytes dev b)).length

/-- The nodes of all blocks up to there. -/
def scannedNodes : List Node :=
  (List.range (endBlock dev)).flatMap fun b => walk dev.mtd.erasesize (blockBytes dev b)

end Partition

section Directory

variable (nodes : List Node) (dir : List UInt8)

/-- A dirent of the root directory with that name. -/
def Named (node : Node) : Prop := isDirent node = true ∧ pino node = 1 ∧ nameOf node = dir

/-- The newest of the dirents of the root directory with that name is that of a directory, with the
inode. -/
def Live (ino : Nat) : Prop :=
  ino ≠ 0 ∧ ∃ node ∈ nodes, Named dir node ∧ direntType node = 4 ∧ direntIno node = ino ∧
    ∀ other ∈ nodes, Named dir other →
      version other < version node ∨ version other = version node ∧ direntIno other = ino

end Directory

section Asked

/-- Offsets that follow each other from `offset` on. -/
def Contiguous : Nat → List Node → Prop
  | _, [] => True
  | offset, node :: nodes => offsetOf node = offset ∧ Contiguous (offset + (dataOf node).length) nodes

/-- Inodes that hold the content of a file. -/
structure Holds (inodes : List Node) (content : List UInt8) : Prop where
  versions : (inodes.map version).Pairwise (· < ·)
  offsets : Contiguous 0 inodes
  content : inodes.flatMap dataOf = content

/-- Where the file is asked for: in the root directory, in the directory that there is, or in one that
is new. -/
def InDirectory (old new : List Node) (dir : List UInt8) (parent : Nat) : Prop :=
  (dir = [] ∧ parent = 1) ∨ (dir ≠ [] ∧ Live old dir parent) ∨
    (dir ≠ [] ∧ (∀ ino, ¬Live old dir ino) ∧ Live (old ++ new) dir parent)

/-- What the dirent of the file has to be. -/
structure Entry (old new : List Node) (dir name : List UInt8) (content : List UInt8) (entry : Node) :
    Prop where
  dirent : isDirent entry = true
  name : nameOf entry = name
  parent : InDirectory old new dir (pino entry)
  fresh : ∀ node ∈ old, (isDirent node = true → direntIno node ≠ direntIno entry) ∧
    (isInode node = true → inodeIno node ≠ direntIno entry)
  newest : ∀ node ∈ old, isDirent node = true → pino node = pino entry → version node < version entry
  holds : Holds (new.filter fun node => isInode node && (inodeIno node == direntIno entry)) content

/-- The old nodes are there, and behind them those of the file. -/
def Appended (before after : Device) (path dir content : List UInt8) : Prop :=
  ∃ new entry, fsNodes after = fsNodes before ++ new ∧ entry ∈ new ∧
    Entry (fsNodes before) new dir (basename path) content entry

end Asked

section Blocks

variable (m : MtdInfo) (f : Flash) (dir : List UInt8)

theorem scanBlocks_eq (left b : Nat) (st st' : Scan) (last : Nat)
    (ok : scanBlocks dir m f.data left b st = some (last, st')) :
    b ≤ last ∧ last < b + left ∧ hasMagic (blockBytes ⟨m, f⟩ last) = false ∧
      (∀ i, b ≤ i → i < last → hasMagic (blockBytes ⟨m, f⟩ i) = true) ∧
      st' = (List.range' b (last - b)).foldl
        (fun st i => parseData dir m.erasesize (blockBytes ⟨m, f⟩ i) st) st := by
  induction left generalizing b st with
  | zero => exact absurd ok (by simp [scanBlocks])
  | succ left ih =>
    have bytes : f.data.slice (b * m.erasesize) m.erasesize = blockBytes ⟨m, f⟩ b := rfl
    unfold scanBlocks at ok
    rw [bytes] at ok
    dsimp only at ok
    split_ifs at ok with wrong missing
    · obtain ⟨rfl, rfl⟩ := Prod.mk.inj (Option.some.inj ok)
      refine ⟨Nat.le_refl _, by omega, by simp [hasMagic, missing], by omega, ?_⟩
      rw [Nat.sub_self]
      rfl
    · rw [not_not] at missing
      obtain ⟨low, high, stops, before, same⟩ := ih (b + 1) _ ok
      refine ⟨by omega, by omega, stops, ?_, ?_⟩
      · intro i above below
        rcases Nat.eq_or_lt_of_le above with rfl | later
        · simp [hasMagic, missing]
        · exact before i later below
      · rw [show last - b = last - (b + 1) + 1 by omega, List.range'_succ, List.foldl_cons]
        exact same

theorem endBlock_eq (last : Nat) (inRange : last < m.blocks)
    (stops : hasMagic (blockBytes ⟨m, f⟩ last) = false)
    (before : ∀ i, i < last → hasMagic (blockBytes ⟨m, f⟩ i) = true) :
    endBlock ⟨m, f⟩ = last := by
  obtain ⟨more, blocks⟩ := Nat.exists_eq_add_of_lt inRange
  have first : ∀ i ∈ List.range last, hasMagic (blockBytes ⟨m, f⟩ i) = true :=
    fun i member => before i (List.mem_range.mp member)
  have rest : (List.range (more + 1)).map (last + ·) =
      last :: (List.range more).map (fun i => last + (i + 1)) := by
    rw [List.range_succ_eq_map, List.map_cons, List.map_map]
    rfl
  unfold endBlock
  dsimp only
  rw [blocks, Nat.add_assoc, List.range_add, List.takeWhile_append_of_pos first, rest,
    List.takeWhile_cons_of_neg (by simp [stops]), List.append_nil, List.length_range]

theorem parse_scanned (last : Nat) (st : Scan)
    (wellFormed : ∀ i, i < last → ∀ node ∈ walk m.erasesize (blockBytes ⟨m, f⟩ i), WellFormed node) :
    (List.range last).foldl (fun st i => parseData dir m.erasesize (blockBytes ⟨m, f⟩ i) st) st =
      ((List.range last).flatMap fun i => walk m.erasesize (blockBytes ⟨m, f⟩ i)).foldl
        (scanNode dir) st := by
  induction last with
  | zero => rfl
  | succ last ih =>
    rw [List.range_succ, List.foldl_append, List.flatMap_append, List.foldl_append,
      ih fun i below => wellFormed i (by omega), List.foldl_cons, List.foldl_nil,
      parseData_walk dir _ _ _ (wellFormed last (Nat.lt_succ_self _)), List.flatMap_singleton]

/-- The inode that the scanner takes for the directory; `0` where it finds none. -/
def target (dev : Device) (dir : List UInt8) : Nat :=
  if dir = [] then 1 else chosen dir (scannedNodes dev)

/-- The whole of what was found. -/
theorem scan_found (st : Scan) (last : Nat)
    (wellFormed : ∀ node ∈ scannedNodes ⟨m, f⟩, WellFormed node)
    (ok : scanBlocks dir m f.data (m.mtdsize / m.erasesize) 0 ⟨if dir = [] then 1 else 0, 0, 0⟩ =
      some (last, st)) :
    last = endBlock ⟨m, f⟩ ∧ last < m.blocks ∧
      (∀ i, i < last → hasMagic (blockBytes ⟨m, f⟩ i) = true) ∧
      st = ⟨target ⟨m, f⟩ dir, highest direntIno (scannedNodes ⟨m, f⟩),
        highest version (scannedNodes ⟨m, f⟩)⟩ := by
  obtain ⟨-, inRange, stops, before, same⟩ := scanBlocks_eq m f dir _ 0 _ st last ok
  have below : last < m.blocks := by rwa [Nat.zero_add] at inRange
  have first : ∀ i, i < last → hasMagic (blockBytes ⟨m, f⟩ i) = true :=
    fun i lower => before i (Nat.zero_le _) lower
  have isEnd := endBlock_eq m f last below stops first
  have scanned : scannedNodes ⟨m, f⟩ =
      (List.range last).flatMap fun i => walk m.erasesize (blockBytes ⟨m, f⟩ i) := by
    rw [scannedNodes, isEnd]
  refine ⟨isEnd.symm, below, first, ?_⟩
  rw [Nat.sub_zero, ← List.range_eq_range', parse_scanned m f dir last, ← scanned,
    scan_eq dir _ _ wellFormed] at same
  · rw [same, target, chosen]
    by_cases root : dir = []
    · rw [if_pos root, if_pos root, if_pos root]
      rfl
    · rw [if_neg root, if_neg root, if_neg root]
      rfl
  · intro i lower node member
    apply wellFormed
    rw [scanned]
    exact List.mem_flatMap.mpr ⟨i, List.mem_range.mpr lower, member⟩

/-- The nodes of the good blocks up to one, and those behind. -/
theorem fsNodes_split (last : Nat) (inRange : last ≤ m.blocks)
    (first : ∀ i, i < last → hasMagic (blockBytes ⟨m, f⟩ i) = true) :
    fsNodes ⟨m, f⟩ = (goodFrom f.bad 0 last).flatMap
        (fun i => walk m.erasesize (blockBytes ⟨m, f⟩ i)) ++
      (((goodFrom f.bad last m.blocks).map (blockBytes ⟨m, f⟩)).takeWhile hasMagic).flatMap
        (walk m.erasesize) := by
  have all : ∀ bytes ∈ (goodFrom f.bad 0 last).map (blockBytes ⟨m, f⟩), hasMagic bytes = true := by
    intro bytes member
    obtain ⟨i, inside, rfl⟩ := List.mem_map.mp member
    exact first i ((mem_goodFrom f.bad 0 last i).mp inside).2.1
  unfold fsNodes
  dsimp only
  rw [goodFrom_append f.bad 0 last m.blocks (Nat.zero_le _) inRange, List.map_append,
    List.takeWhile_append_of_pos all, List.flatMap_append, List.flatMap_map]

theorem hasMagic_eofBlock (erasesize : Nat) : hasMagic (eofBlock erasesize) = false := by
  have start : magic (eofBlock erasesize) = magic jffs2Eof :=
    field_append jffs2Eof _ 0 2 (by decide)
  rw [hasMagic, start]
  decide

/-- The blocks that were generated are the rest of the file system. -/
theorem generated_nodes (out rest : List (List UInt8)) (full : List (List Node))
    (blocks : Blocks m.erasesize out full) :
    ((out ++ rest).takeWhile hasMagic).flatMap (walk m.erasesize) = full.flatten := by
  have all : ∀ bytes ∈ full.map (blockOf m.erasesize), hasMagic bytes = true := by
    intro bytes member
    obtain ⟨ns, inside, rfl⟩ := List.mem_map.mp member
    rw [hasMagic, magic_blockOf _ ns (blocks.raw ns inside) (blocks.some ns inside)]
    rfl
  rw [blocks.out, List.append_assoc, List.singleton_append, List.takeWhile_append_of_pos all,
    List.takeWhile_cons_of_neg (by simp [hasMagic_eofBlock]), List.append_nil, List.flatMap_map,
    List.flatten_eq_flatMap]
  apply List.flatMap_congr
  intro ns inside
  exact walk_blockOf _ ns (blocks.raw ns inside) (blocks.fits ns inside)

theorem generated_sizes (out : List (List UInt8)) (full : List (List Node)) (large : 4 ≤ m.erasesize)
    (blocks : Blocks m.erasesize out full) : ∀ bytes ∈ out, bytes.length = m.erasesize := by
  intro bytes member
  rw [blocks.out, List.mem_append, List.mem_singleton] at member
  rcases member with mapped | rfl
  · obtain ⟨ns, inside, rfl⟩ := List.mem_map.mp mapped
    have fits := blocks.fits ns inside
    rw [blockOf, List.length_append, List.length_replicate]
    omega
  · rw [eofBlock, List.length_append, List.length_replicate, show jffs2Eof.length = 4 from rfl]
    omega

/-- What is there after the blocks reached the flash. -/
theorem fsNodes_after (out : List (List UInt8)) (full : List (List Node)) (last : Nat) (s : Sink)
    (inRange : last ≤ m.blocks) (large : 4 ≤ m.erasesize)
    (first : ∀ i, i < last → hasMagic (blockBytes ⟨m, f⟩ i) = true)
    (ending : ∀ block ∈ (goodFrom f.bad last m.blocks).head?,
      hasMagic (blockBytes ⟨m, f⟩ block) = false)
    (blocks : Blocks m.erasesize out full)
    (takes : ∀ block ∈ (goodFrom f.bad last m.blocks).take out.length, Takes m block)
    (ok : out.foldlM (flushBlock m) ⟨f, last * m.erasesize, last * m.erasesize⟩ = some s) :
    fsNodes ⟨m, f⟩ = (goodFrom f.bad 0 last).flatMap
        (fun i => walk m.erasesize (blockBytes ⟨m, f⟩ i)) ∧
      fsNodes ⟨m, s.flash⟩ = fsNodes ⟨m, f⟩ ++ full.flatten := by
  have sizes := generated_sizes m out full large blocks
  obtain ⟨bad, contents, others⟩ := flushed m out last f s sizes takes ok
  have old : fsNodes ⟨m, f⟩ = (goodFrom f.bad 0 last).flatMap
      (fun i => walk m.erasesize (blockBytes ⟨m, f⟩ i)) := by
    rw [fsNodes_split m f last inRange first]
    cases goods : goodFrom f.bad last m.blocks with
    | nil => simp
    | cons block rest =>
      have stops := ending block (by rw [goods]; rfl)
      rw [List.map_cons, List.takeWhile_cons_of_neg (by simp [stops]), List.flatMap_nil,
        List.append_nil]
  have kept : ∀ i, i < last → blockBytes ⟨m, s.flash⟩ i = blockBytes ⟨m, f⟩ i := by
    intro i below
    apply others
    intro member
    have inside := (mem_goodFrom f.bad last m.blocks i).mp (List.mem_of_mem_take member)
    omega
  refine ⟨old, ?_⟩
  rw [fsNodes_split m s.flash last inRange fun i below => (kept i below).symm ▸ first i below, bad, old]
  congr 1
  · apply List.flatMap_congr
    intro i member
    rw [kept i ((mem_goodFrom f.bad 0 last i).mp member).2.1]
  · have whole : (goodFrom f.bad last m.blocks).map (blockBytes ⟨m, s.flash⟩) =
        out ++ ((goodFrom f.bad last m.blocks).drop out.length).map (blockBytes ⟨m, s.flash⟩) := by
      conv_lhs => rw [← List.take_append_drop out.length (goodFrom f.bad last m.blocks),
        List.map_append, contents]
    rw [whole, generated_nodes m out _ full blocks]

end Blocks

end Filogic.Jffs2
