import Filogic.Jffs2.Content

/-! When a file that is appended is the one that was asked for. -/

namespace Filogic.Jffs2
open Lib Mtd

section Numbers

variable (dev : Device) (dir : List UInt8)

/-- The inode number after the highest of a dirent. -/
def nextIno : Nat := max (highest direntIno (scannedNodes dev)) 1 + 1

/-- The inode number of the file, after that of the directory where there is none yet. -/
def fileIno : Nat := if target dev dir = 0 then nextIno dev + 2 else nextIno dev

/-- The number of dirents that are made. -/
def entries : Nat := if target dev dir = 0 then 2 else 1

def lastVersion : Nat := highest version (scannedNodes dev)

/-- How many blocks the file takes, and how many pieces. -/
def sizesOf (path : List UInt8) (file : File) : Nat × Nat :=
  sizes dev.mtd.erasesize (if target dev dir = 0 then some dir.length else none)
    (basename path).length file.content.length

end Numbers

/-- When the append does what it is asked for. -/
structure Suited (dev : Device) (path dir : List UInt8) (file : File) : Prop where
  aligned : 4 ∣ dev.mtd.erasesize
  opens : file.opens = true
  names : (basename path).length < 256 ∧ dir.length < 256
  -- the first block without a node is the end of the file system, also if it is bad
  ending : ∀ block ∈ (goodFrom dev.flash.bad (endBlock dev) dev.mtd.blocks).head?,
    hasMagic (blockBytes dev block) = false
  -- neither an erase nor a write fails
  takes : ∀ block ∈ (goodFrom dev.flash.bad (endBlock dev) dev.mtd.blocks).take
    (sizesOf dev dir path file).1, Takes dev.mtd block
  -- the last name that starts like the directory is that of the directory
  directory : dir = [] ∨ Live (fsNodes dev) dir (target dev dir) ∨ (target dev dir = 0 ∧
    (∀ ino, ¬Live (fsNodes dev) dir ino) ∧
    ∀ node ∈ fsNodes dev, Named dir node → version node < lastVersion dev)
  -- no inode without a dirent has the number
  fresh : ∀ node ∈ fsNodes dev, isInode node = true → inodeIno node ≠ fileIno dev dir
  -- the newest of all dirents is not in the directory
  newest : target dev dir ≠ 0 → ∀ node ∈ fsNodes dev, isDirent node = true →
    pino node = target dev dir → version node < lastVersion dev
  -- no number needs more than 32 bits
  small : fileIno dev dir < 2 ^ 32 ∧
    lastVersion dev + entries dev dir + (sizesOf dev dir path file).2 < 2 ^ 32 ∧
    file.content.length ≤ 2 ^ 32

section Pieces

/-- The inodes that were generated hold the content. -/
theorem Pieces.holds (ino version offset : Nat) (nodes : List Node) (content : List UInt8)
    (pieces : Pieces ino version offset nodes content)
    (versions : version + nodes.length < 2 ^ 32) (offsets : offset + content.length ≤ 2 ^ 32) :
    (∀ node ∈ nodes, isInode node = true ∧ inodeIno node = ino % 2 ^ 32 ∧
      version < Jffs2.version node) ∧
      (nodes.map Jffs2.version).Pairwise (· < ·) ∧ Contiguous offset nodes ∧
      nodes.flatMap dataOf = content := by
  induction nodes generalizing version offset content with
  | nil =>
    obtain rfl : content = [] := pieces
    exact ⟨by simp, by simp, trivial, rfl⟩
  | cons node nodes ih =>
    obtain ⟨data, rest, rfl, some, fields, others⟩ := pieces
    rw [List.length_cons] at versions
    rw [List.length_append] at offsets
    have positive : 0 < data.length := List.length_pos_iff.mpr some
    have number : Jffs2.version node = version + 1 :=
      fields.version.trans (Nat.mod_eq_of_lt (by omega))
    obtain ⟨each, order, contiguous, all⟩ := ih (version + 1) (offset + data.length) rest others
      (by omega) (by omega)
    refine ⟨?_, ?_, ⟨?_, ?_⟩, ?_⟩
    · intro other member
      rcases List.mem_cons.mp member with rfl | later
      · exact ⟨fields.inode, fields.ino, by omega⟩
      · have more := (each other later).2.2
        exact ⟨(each other later).1, (each other later).2.1, by omega⟩
    · rw [List.map_cons, List.pairwise_cons]
      refine ⟨?_, order⟩
      intro later member
      obtain ⟨other, inside, rfl⟩ := List.mem_map.mp member
      rw [number]
      exact (each other inside).2.2
    · exact fields.offset.trans (Nat.mod_eq_of_lt (by omega))
    · rw [fields.data]
      exact contiguous
    · rw [List.flatMap_cons, fields.data, all]

/-- The inodes with the number of the file are its pieces. -/
theorem Pieces.holds_new (new others pieces : List Node) (ino version : Nat) (content : List UInt8)
    (inodes : new.filter isInode = others ++ pieces) (different : ∀ node ∈ others, inodeIno node ≠ ino)
    (made : Pieces ino version 0 pieces content) (number : ino < 2 ^ 32)
    (versions : version + pieces.length < 2 ^ 32) (offsets : content.length ≤ 2 ^ 32) :
    Holds (new.filter fun node => isInode node && (inodeIno node == ino)) content := by
  obtain ⟨each, order, contiguous, all⟩ :=
    made.holds ino version 0 pieces content versions (by omega)
  have same : (new.filter fun node => isInode node && (inodeIno node == ino)) = pieces := by
    have parts : (new.filter fun node => isInode node && (inodeIno node == ino)) =
        (new.filter isInode).filter (fun node => inodeIno node == ino) := by
      rw [List.filter_filter]
      apply List.filter_congr
      intro node _
      exact Bool.and_comm _ _
    have nothing : others.filter (fun node => inodeIno node == ino) = [] := by
      rw [List.filter_eq_nil_iff]
      intro node member
      simpa using different node member
    have whole : pieces.filter (fun node => inodeIno node == ino) = pieces := by
      rw [List.filter_eq_self]
      intro node member
      rw [beq_iff_eq, (each node member).2.1, Nat.mod_eq_of_lt number]
    rw [parts, inodes, List.filter_append, nothing, whole, List.nil_append]
  rw [same]
  exact ⟨order, contiguous, all⟩

end Pieces

section Whole

variable {crc : List UInt8 → Nat} {m : MtdInfo} {f f' : Flash} {path dir : List UInt8} {file : File}

theorem old_scanned (last : Nat) (isEnd : last = endBlock ⟨m, f⟩)
    (old : fsNodes ⟨m, f⟩ = (goodFrom f.bad 0 last).flatMap
      fun i => walk m.erasesize (blockBytes ⟨m, f⟩ i)) :
    ∀ node ∈ fsNodes ⟨m, f⟩, node ∈ scannedNodes ⟨m, f⟩ := by
  intro node member
  rw [old] at member
  obtain ⟨i, good, inside⟩ := List.mem_flatMap.mp member
  rw [scannedNodes, ← isEnd]
  exact List.mem_flatMap.mpr
    ⟨i, List.mem_range.mpr ((mem_goodFrom f.bad 0 last i).mp good).2.1, inside⟩

theorem target_lt (dev : Device) (suited : Suited dev path dir file) : target dev dir < 2 ^ 32 := by
  rcases suited.directory with rfl | live | gone
  · rw [target, if_pos rfl]
    decide
  · obtain ⟨-, node, -, -, -, ino, -⟩ := live
    rw [← ino]
    exact field_lt node 20 4
  · rw [gone.1]
    decide

/-- No dirent has the number of a new inode. -/
theorem direntIno_lt (dev : Device) (node : Node) (member : node ∈ scannedNodes dev)
    (dirent : isDirent node = true) : direntIno node < nextIno dev := by
  have low := le_highest direntIno (scannedNodes dev) node member dirent
  rw [nextIno]
  omega

/-- The directory is there. -/
theorem entry_found (full : List (List Node)) (suited : Suited ⟨m, f⟩ path dir file)
    (found : target ⟨m, f⟩ dir ≠ 0)
    (scanned : ∀ node ∈ fsNodes ⟨m, f⟩, node ∈ scannedNodes ⟨m, f⟩)
    (dirents : full.flatten.filter isDirent = [direntNode crc (target ⟨m, f⟩ dir) (lastVersion ⟨m, f⟩)
      (nextIno ⟨m, f⟩) 8 (basename path)])
    (pieces : Pieces (nextIno ⟨m, f⟩) (lastVersion ⟨m, f⟩ + 1) 0 (full.flatten.filter isInode)
      file.content)
    (count : (full.flatten.filter isInode).length = (sizesOf ⟨m, f⟩ dir path file).2) :
    ∃ entry ∈ full.flatten,
      Entry (fsNodes ⟨m, f⟩) full.flatten dir (basename path) file.content entry := by
  obtain ⟨inoSmall, versionSmall, contentSmall⟩ := suited.small
  have newest := suited.newest found
  have fresh := suited.fresh
  rw [fileIno, if_neg found] at inoSmall fresh
  rw [entries, if_neg found] at versionSmall
  have fields := direntNode_fields crc (target ⟨m, f⟩ dir) (lastVersion ⟨m, f⟩) (nextIno ⟨m, f⟩) 8
    (basename path) suited.names.1
  generalize entry_eq : direntNode crc (target ⟨m, f⟩ dir) (lastVersion ⟨m, f⟩) (nextIno ⟨m, f⟩) 8
    (basename path) = entry at dirents fields
  have pinoEq := fields.pino.trans (Nat.mod_eq_of_lt (target_lt _ suited))
  have inoEq := fields.ino.trans (Nat.mod_eq_of_lt inoSmall)
  have versionEq := fields.version.trans (Nat.mod_eq_of_lt (show lastVersion ⟨m, f⟩ < 2 ^ 32 by omega))
  have member : entry ∈ full.flatten.filter isDirent := by rw [dirents]; exact List.mem_singleton_self _
  refine ⟨entry, List.mem_of_mem_filter member, fields.dirent, fields.name, ?_, ?_, ?_, ?_⟩
  · rw [pinoEq]
    by_cases root : dir = []
    · exact .inl ⟨root, if_pos root⟩
    · rcases suited.directory with empty | live | gone
      · exact absurd empty root
      · exact .inr (.inl ⟨root, live⟩)
      · exact absurd gone.1 found
  · intro node old
    rw [inoEq]
    refine ⟨fun dirent => ?_, fresh node old⟩
    exact Nat.ne_of_lt (direntIno_lt _ node (scanned node old) dirent)
  · intro node old dirent parent
    rw [versionEq]
    exact newest node old dirent (parent.trans pinoEq)
  · rw [inoEq]
    exact pieces.holds_new full.flatten [] _ _ _ _ (List.nil_append _).symm (by simp) inoSmall
      (by omega) contentSmall

/-- The directory is made before the file. -/
theorem entry_made (full : List (List Node)) (pieces : List Node)
    (suited : Suited ⟨m, f⟩ path dir file) (missing : target ⟨m, f⟩ dir = 0)
    (scanned : ∀ node ∈ fsNodes ⟨m, f⟩, node ∈ scannedNodes ⟨m, f⟩)
    (dirents : full.flatten.filter isDirent =
      [direntNode crc 1 (lastVersion ⟨m, f⟩) (nextIno ⟨m, f⟩) 4 dir,
        direntNode crc (nextIno ⟨m, f⟩) (lastVersion ⟨m, f⟩ + 1) (nextIno ⟨m, f⟩ + 2) 8
          (basename path)])
    (inodes : full.flatten.filter isInode =
      inodeRaw crc dirStat (nextIno ⟨m, f⟩) 1 0 0 0 :: pieces)
    (made : Pieces (nextIno ⟨m, f⟩ + 2) (lastVersion ⟨m, f⟩ + 2) 0 pieces file.content)
    (count : pieces.length = (sizesOf ⟨m, f⟩ dir path file).2) :
    ∃ entry ∈ full.flatten,
      Entry (fsNodes ⟨m, f⟩) full.flatten dir (basename path) file.content entry := by
  obtain ⟨inoSmall, versionSmall, contentSmall⟩ := suited.small
  have fresh := suited.fresh
  have root : dir ≠ [] := by
    intro empty
    rw [target, if_pos empty] at missing
    exact absurd missing (by decide)
  obtain ⟨gone, older⟩ : (∀ ino, ¬Live (fsNodes ⟨m, f⟩) dir ino) ∧
      ∀ node ∈ fsNodes ⟨m, f⟩, Named dir node → version node < lastVersion ⟨m, f⟩ := by
    rcases suited.directory with empty | live | gone
    · exact absurd empty root
    · exact absurd missing live.1
    · exact gone.2
  rw [fileIno, if_pos missing] at inoSmall fresh
  rw [entries, if_pos missing] at versionSmall
  have two : 2 ≤ nextIno ⟨m, f⟩ := by
    rw [nextIno]
    omega
  have dirFields := direntNode_fields crc 1 (lastVersion ⟨m, f⟩) (nextIno ⟨m, f⟩) 4 dir suited.names.2
  have fields := direntNode_fields crc (nextIno ⟨m, f⟩) (lastVersion ⟨m, f⟩ + 1) (nextIno ⟨m, f⟩ + 2) 8
    (basename path) suited.names.1
  have inodeFields := @dirInode_fields crc (nextIno ⟨m, f⟩)
  generalize direntNode crc 1 (lastVersion ⟨m, f⟩) (nextIno ⟨m, f⟩) 4 dir = directory at dirents dirFields
  generalize direntNode crc (nextIno ⟨m, f⟩) (lastVersion ⟨m, f⟩ + 1) (nextIno ⟨m, f⟩ + 2) 8
    (basename path) = entry at dirents fields
  have pinoEq := fields.pino.trans (Nat.mod_eq_of_lt (show nextIno ⟨m, f⟩ < 2 ^ 32 by omega))
  have inoEq := fields.ino.trans (Nat.mod_eq_of_lt inoSmall)
  have versionEq := fields.version.trans
    (Nat.mod_eq_of_lt (show lastVersion ⟨m, f⟩ + 1 < 2 ^ 32 by omega))
  have dirIno := dirFields.ino.trans (Nat.mod_eq_of_lt (show nextIno ⟨m, f⟩ < 2 ^ 32 by omega))
  have dirVersion := dirFields.version.trans
    (Nat.mod_eq_of_lt (show lastVersion ⟨m, f⟩ < 2 ^ 32 by omega))
  have inside : directory ∈ full.flatten.filter isDirent ∧ entry ∈ full.flatten.filter isDirent := by
    rw [dirents]
    exact ⟨List.mem_cons_self, List.mem_cons_of_mem _ (List.mem_singleton_self _)⟩
  refine ⟨entry, List.mem_of_mem_filter inside.2, fields.dirent, fields.name, ?_, ?_, ?_, ?_⟩
  · rw [pinoEq]
    refine .inr (.inr ⟨root, gone, by omega, directory,
      List.mem_append_right _ (List.mem_of_mem_filter inside.1),
      ⟨dirFields.dirent, dirFields.pino, dirFields.name⟩, dirFields.type, dirIno, ?_⟩)
    intro other member named
    rcases List.mem_append.mp member with old | new
    · left
      rw [dirVersion]
      exact older other old named
    · have isOne : other ∈ full.flatten.filter isDirent := List.mem_filter.mpr ⟨new, named.1⟩
      rw [dirents, List.mem_cons, List.mem_singleton] at isOne
      rcases isOne with rfl | rfl
      · exact .inr ⟨rfl, dirIno⟩
      · have wrong := pinoEq.symm.trans named.2.1
        omega
  · intro node old
    rw [inoEq]
    refine ⟨fun dirent => ?_, fresh node old⟩
    have less := direntIno_lt _ node (scanned node old) dirent
    omega
  · intro node old dirent _
    rw [versionEq]
    have low := le_highest version (scannedNodes ⟨m, f⟩) node (scanned node old) dirent
    exact Nat.lt_succ_of_le low
  · rw [inoEq]
    have different : ∀ node ∈ [inodeRaw crc dirStat (nextIno ⟨m, f⟩) 1 0 0 0],
        inodeIno node ≠ nextIno ⟨m, f⟩ + 2 := by
      intro node member
      rw [List.mem_singleton.mp member,
        inodeFields.ino.trans (Nat.mod_eq_of_lt (show nextIno ⟨m, f⟩ < 2 ^ 32 by omega))]
      omega
    exact made.holds_new full.flatten _ _ _ _ _ inodes different inoSmall (by omega) contentSmall

/-- The file is there after a run that succeeds, with all that was there before. -/
theorem mtdWriteJffs2_appended (wellFormed : ∀ node ∈ scannedNodes ⟨m, f⟩, WellFormed node)
    (ok : mtdWriteJffs2 crc m f path dir (some file) = some f')
    (suited : Suited ⟨m, f⟩ path dir file) :
    Appended ⟨m, f⟩ ⟨m, f'⟩ path dir file.content := by
  unfold mtdWriteJffs2 at ok
  simp only [Option.bind_eq_bind, Option.bind_eq_some_iff, Prod.exists] at ok
  obtain ⟨last, st, scan, out, made, s, flush, same⟩ := ok
  obtain rfl := Option.some.inj same
  obtain ⟨isEnd, inRange, first, found⟩ := scan_found m f dir st last wellFormed scan
  have ending := suited.ending
  have takes := suited.takes
  dsimp only at ending takes
  rw [← isEnd] at ending takes
  have number : st.nextIno = nextIno ⟨m, f⟩ := by
    rw [found, Scan.nextIno, nextIno]
    dsimp only
    split_ifs <;> omega
  have targetIno : st.targetIno = target ⟨m, f⟩ dir := by rw [found]
  have version : st.lastVersion = lastVersion ⟨m, f⟩ := by
    rw [found]
    rfl
  have large : 4 ≤ m.erasesize := Nat.le_of_dvd m.erasesize_pos suited.aligned
  by_cases missing : target ⟨m, f⟩ dir = 0
  · obtain ⟨full, pieces, blocks, dirents, inodes, chunks, count⟩ :=
      generate_made st suited.aligned (targetIno.trans missing) suited.opens suited.names.1
        suited.names.2 made
    have counts : (out.length, pieces.length) = sizesOf ⟨m, f⟩ dir path file := by
      rw [count, sizesOf, if_pos missing]
    obtain ⟨old, new⟩ := fsNodes_after m f out full last s (Nat.le_of_lt inRange) large first ending
      blocks (by rw [show out.length = _ from congrArg Prod.fst counts]; exact takes) flush
    rw [number, version] at dirents chunks
    rw [number] at inodes
    obtain ⟨entry, member, right⟩ := entry_made full pieces suited missing
      (old_scanned last isEnd old) dirents inodes chunks (congrArg Prod.snd counts)
    exact ⟨full.flatten, entry, new, member, right⟩
  · obtain ⟨full, blocks, dirents, chunks, count⟩ :=
      generate_found st suited.aligned (targetIno ▸ missing) suited.opens suited.names.1 made
    have counts : (out.length, (full.flatten.filter isInode).length) =
        sizesOf ⟨m, f⟩ dir path file := by
      rw [count, sizesOf, if_neg missing]
    obtain ⟨old, new⟩ := fsNodes_after m f out full last s (Nat.le_of_lt inRange) large first ending
      blocks (by rw [show out.length = _ from congrArg Prod.fst counts]; exact takes) flush
    rw [number, version, targetIno] at dirents
    rw [number, version] at chunks
    obtain ⟨entry, member, right⟩ := entry_found full suited missing
      (old_scanned last isEnd old) dirents chunks (congrArg Prod.snd counts)
    exact ⟨full.flatten, entry, new, member, right⟩

end Whole

section Examples

theorem dvd_six_blocks : 256 ∣ 1536 := by decide

/-- Six blocks of 256 bytes. -/
def sixBlocks : MtdInfo where
  mtdsize := 1536
  erasesize := 256
  writesize := 1
  eraseAnswer _ := .ok
  writeAnswer _ := .ok
  setBadFails _ := false
  torn _ := 0
  erasesize_pos := Nat.succ_pos 255
  erasesize_dvd := dvd_six_blocks
  writesize_pos := Nat.one_pos
  writesize_dvd := Nat.one_dvd 256

/-- A file system of one block, before a bad one. -/
def oneBlock (nodes : List Node) : Flash where
  data k := (blockOf 256 nodes).getD k 0xff
  bad b := b = 1
  erased := []
  writes := []

/-- `tmp` -/
def tmpName : List UInt8 := [0x74, 0x6d, 0x70]

def threeBytes : File := ⟨⟨0x81a4, 3, 0, 0, 0⟩, true, [1, 2, 3]⟩

/-- A directory, and a file beside it. -/
def fileBeside : List Node :=
  [cleanmarker, direntNode crc32 1 1 2 4 tmpName, direntNode crc32 1 2 3 8 [0x61]]

/-- A directory, and a file in it. -/
def fileInside : List Node :=
  [cleanmarker, direntNode crc32 1 1 2 4 tmpName, direntNode crc32 2 2 3 8 [0x61]]

theorem fileBeside_wellFormed : ∀ node ∈ fileBeside, WellFormed node := by
  intro node member
  simp only [fileBeside, List.mem_cons, List.not_mem_nil, or_false] at member
  rcases member with rfl | rfl | rfl <;>
    exact ⟨by decide +kernel, by decide +kernel, by decide +kernel, by decide +kernel⟩

theorem fileBeside_suited :
    Suited ⟨sixBlocks, oneBlock fileBeside⟩ [0x2f, 0x78] tmpName threeBytes := by
  have nodes : fsNodes ⟨sixBlocks, oneBlock fileBeside⟩ = fileBeside := by decide +kernel
  have found : target ⟨sixBlocks, oneBlock fileBeside⟩ tmpName = 2 := by decide +kernel
  have last : lastVersion ⟨sixBlocks, oneBlock fileBeside⟩ = 2 := by decide +kernel
  have ino : fileIno ⟨sixBlocks, oneBlock fileBeside⟩ tmpName = 4 := by decide +kernel
  have directory : Live fileBeside tmpName 2 := by
    refine ⟨by decide, direntNode crc32 1 1 2 4 tmpName, by simp [fileBeside], ?_, by decide +kernel,
      by decide +kernel, ?_⟩
    · exact ⟨by decide +kernel, by decide +kernel, by decide +kernel⟩
    · unfold Named
      decide +kernel
  constructor
  · decide
  · rfl
  · decide
  · intro block member
    have head : (goodFrom (oneBlock fileBeside).bad (endBlock ⟨sixBlocks, oneBlock fileBeside⟩)
        sixBlocks.blocks).head? = some 2 := by decide +kernel
    obtain rfl := Option.some.inj (head.symm.trans member)
    decide +kernel
  · exact fun block member => ⟨rfl, rfl⟩
  · rw [nodes, found]
    exact .inr (.inl directory)
  · rw [nodes, ino]
    decide +kernel
  · rw [nodes, found, last]
    decide +kernel
  · decide +kernel

theorem appended_beside : ∃ f',
    mtdWriteJffs2 crc32 sixBlocks (oneBlock fileBeside) [0x2f, 0x78] tmpName (some threeBytes) =
      some f' ∧
    Appended ⟨sixBlocks, oneBlock fileBeside⟩ ⟨sixBlocks, f'⟩ [0x2f, 0x78] tmpName [1, 2, 3] := by
  have runs : (mtdWriteJffs2 crc32 sixBlocks (oneBlock fileBeside) [0x2f, 0x78] tmpName
      (some threeBytes)).isSome := by decide +kernel
  obtain ⟨f', ok⟩ := Option.isSome_iff_exists.mp runs
  have scanned : scannedNodes ⟨sixBlocks, oneBlock fileBeside⟩ = fileBeside := by decide +kernel
  have wellFormed : ∀ node ∈ scannedNodes ⟨sixBlocks, oneBlock fileBeside⟩, WellFormed node := by
    rw [scanned]
    exact fileBeside_wellFormed
  exact ⟨f', ok, mtdWriteJffs2_appended wellFormed ok fileBeside_suited⟩

theorem fileInside_wellFormed : ∀ node ∈ fileInside, WellFormed node := by
  intro node member
  simp only [fileInside, List.mem_cons, List.not_mem_nil, or_false] at member
  rcases member with rfl | rfl | rfl <;>
    exact ⟨by decide +kernel, by decide +kernel, by decide +kernel, by decide +kernel⟩

/-- The new dirent gets the version of the one that is in the directory. -/
theorem version_repeated :
    ¬∀ (m : MtdInfo) (f f' : Flash) (path dir : List UInt8) (file : File),
      (∀ node ∈ scannedNodes ⟨m, f⟩, WellFormed node) → file.opens = true →
      mtdWriteJffs2 crc32 m f path dir (some file) = some f' →
      Appended ⟨m, f⟩ ⟨m, f'⟩ path dir file.content := by
  intro always
  have after : (mtdWriteJffs2 crc32 sixBlocks (oneBlock fileInside) [0x2f, 0x78] tmpName
      (some threeBytes)).map (fun f => fsNodes ⟨sixBlocks, f⟩) =
      some (fileInside ++ [cleanmarker, direntNode crc32 2 2 4 8 [0x78],
        inodeRaw crc32 threeBytes.stat 4 4 0 (crc32 [1, 2, 3]) 3 ++ [1, 2, 3], cleanmarker]) := by
    decide +kernel
  obtain ⟨f', ok, nodes⟩ := Option.map_eq_some_iff.mp after
  have scanned : scannedNodes ⟨sixBlocks, oneBlock fileInside⟩ = fileInside := by decide +kernel
  have before : fsNodes ⟨sixBlocks, oneBlock fileInside⟩ = fileInside := by decide +kernel
  have wellFormed : ∀ node ∈ scannedNodes ⟨sixBlocks, oneBlock fileInside⟩, WellFormed node := by
    rw [scanned]
    exact fileInside_wellFormed
  obtain ⟨new, entry, whole, member, right⟩ := always sixBlocks (oneBlock fileInside) f' [0x2f, 0x78]
    tmpName threeBytes wellFormed rfl ok
  rw [nodes, before] at whole
  obtain rfl := List.append_cancel_left whole
  have inside : direntNode crc32 2 2 3 8 [0x61] ∈ fileInside := by simp [fileInside]
  have newest := right.newest _ (by rw [before]; exact inside) (by decide +kernel)
  have dirent := right.dirent
  simp only [List.mem_cons, List.not_mem_nil, or_false] at member
  rcases member with rfl | rfl | rfl | rfl
  · exact absurd dirent (by decide +kernel)
  · exact absurd (newest (by decide +kernel)) (by decide +kernel)
  · exact absurd dirent (by decide +kernel)
  · exact absurd dirent (by decide +kernel)

end Examples

end Filogic.Jffs2
