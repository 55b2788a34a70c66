import Filogic.Jffs2.Generated

/-! `jffs2.c`: where the nodes of `add_dirent`, `add_dir` and `add_file` come to lie, and how much room
in the buffer they need for it. -/

namespace Filogic.Jffs2.Room
open Lib

/-- The blocks that were handed on begin with a clean marker, and so does the buffer if there is
anything in it. -/
structure Marked (g : Gen) : Prop where
  out : ∀ block ∈ g.out, cleanmarker <+: block
  buf : g.buf = [] ∨ cleanmarker <+: g.buf

/-- The nodes lie whole in the blocks and in the buffer, each at a multiple of four and with no more
than padding between them, and behind clean markers. -/
structure Tight (erasesize : Nat) (g : Gen) (nodes : List Node) : Prop where
  packed : Packed erasesize g nodes
  marked : Marked g

/-- A call of `add_dirent`, `add_dir` or `add_file`; the file is `none` where `stat` finds none. -/
inductive Add where
  | dirent (name : List UInt8) (type parent : Nat)
  | dir (name : List UInt8) (parent : Nat)
  | file (path : List UInt8) (file : Option File) (parent : Nat)

section Lying

variable (crc : List UInt8 → Nat) (erasesize : Nat) (g : Gen) (nodes : List Node)

/-- `add_dirent` puts its node behind those that are there. -/
def DirentLies (name : List UInt8) (type parent : Nat) : Prop :=
  ∃ g' marks, addDirent crc erasesize g name type parent = some (g', g.lastIno + 1) ∧ Plain marks ∧
    Tight erasesize g' (nodes ++
      (marks ++ [direntNode crc parent g.lastVersion (g.lastIno + 1) type name]))

/-- The call puts its nodes behind those that are there, none of them over another. -/
def Lies : Add → Prop
  | .dirent name type parent => DirentLies crc erasesize g nodes name type parent
  | .dir name parent => DirentLies crc erasesize g nodes name 4 parent ∧
      ∃ g' marks marks', addDir crc erasesize g name parent = some (g', g.lastIno + 1) ∧
        Plain marks ∧ Plain marks' ∧ Tight erasesize g' (nodes ++
          (marks ++ [direntNode crc parent g.lastVersion (g.lastIno + 1) 4 name] ++
            (marks' ++ [inodeRaw crc dirStat (g.lastIno + 1) 1 0 0 0])))
  | .file path none parent =>
      ∃ g', addFile crc erasesize g path none parent = some g' ∧ Tight erasesize g' nodes
  | .file path (some file) parent => DirentLies crc erasesize g nodes (basename path) 8 parent ∧
      ∃ g' more, addFile crc erasesize g path (some file) parent = some g' ∧
        Tight erasesize g' (nodes ++ more) ∧ more.filter isDirent =
          [direntNode crc parent g.lastVersion (g.lastIno + 1) 8 (basename path)] ∧
        Pieces (g.lastIno + 1) (g.lastVersion + 1) 0 (more.filter isInode)
          (if file.opens then file.content else [])

/-- Where the next node goes: behind the clean marker of a block that is empty. -/
def behindMarker (ofs : Nat) : Nat := if ofs = 0 then 12 else ofs

/-- A name whose length is a byte, with room for its dirent. -/
def DirentRoom (ofs : Nat) (name : List UInt8) : Prop :=
  name.length < 256 ∧ behindMarker ofs + (40 + name.length) ≤ erasesize

/-- The room that a call needs, with `ofs` bytes in the buffer. The content of a file also needs
that the dirent does not end the block, since nothing puts a clean marker before the next node then. -/
def HasRoom (ofs : Nat) : Add → Prop
  | .dirent name _ _ => DirentRoom erasesize ofs name
  | .dir name _ => DirentRoom erasesize ofs name ∧ 12 + 68 ≤ erasesize
  | .file _ none _ => True
  | .file path (some file) _ => DirentRoom erasesize ofs (basename path) ∧ (file.opens →
      if behindMarker ofs + padLen (40 + (basename path).length) = erasesize then
        file.content = [] ∧ 68 + 128 < erasesize
      else 12 + 68 + 128 < erasesize)

end Lying

section Marks

variable {erasesize : Nat} {g g' : Gen} {nodes : List Node}

/-- What is in the buffer stays there, or goes to the flash with what is put behind it. -/
theorem pad_grown (size : Nat) (ok : pad erasesize g size = some g') :
    g'.out = g.out ∧ g.buf <+: g'.buf ∨
      ∃ rest, g'.out = g.out ++ [g.buf ++ rest] ∧ g'.buf = [] := by
  by_cases nothing : g.buf.length % size = 0 ∧ g.buf.length < erasesize
  · rw [pad, if_pos nothing] at ok
    obtain rfl := Option.some.inj ok
    exact .inl ⟨rfl, List.prefix_refl _⟩
  · obtain ⟨rest, filled⟩ : ∃ rest, (if g.buf.length < erasesize then
        g.buf ++ List.replicate (size - g.buf.length % size) 0xff else g.buf) = g.buf ++ rest := by
      split_ifs
      · exact ⟨_, rfl⟩
      · exact ⟨[], (List.append_nil _).symm⟩
    rw [pad_filled size _ nothing filled] at ok
    split_ifs at ok
    · obtain rfl := Option.some.inj ok
      exact .inr ⟨rest, rfl, rfl⟩
    · obtain rfl := Option.some.inj ok
      exact .inl ⟨rfl, List.prefix_append _ _⟩

theorem Tight.counters (tight : Tight erasesize g nodes) (ino version : Nat) :
    Tight erasesize { g with lastIno := ino, lastVersion := version } nodes :=
  ⟨tight.packed.counters ino version, ⟨tight.marked.out, tight.marked.buf⟩⟩

theorem Tight.prep (tight : Tight erasesize g nodes) (large : 12 < erasesize) : ∃ buf marks,
    prepEraseblock erasesize g = some (g.hold buf g.out) ∧ Plain marks ∧
      Tight erasesize (g.hold buf g.out) (nodes ++ marks) ∧ cleanmarker <+: buf ∧
      buf.length = behindMarker g.buf.length := by
  obtain ⟨buf, marks, marker, plain, begun, spot⟩ := tight.packed.prep large
  have ofs : buf.length = g.spot.start.ofs := congrArg Spot.ofs spot
  have length : buf.length = behindMarker g.buf.length := by
    have same : g.spot.ofs = g.buf.length := rfl
    rw [ofs, Spot.start, behindMarker, ← same]
    split_ifs <;> rfl
  have starts : cleanmarker <+: buf := by
    unfold prepEraseblock at marker
    split_ifs at marker with some
    · have same : g.buf = buf := congrArg Gen.buf (Option.some.inj marker)
      rw [← same]
      exact tight.marked.buf.resolve_left (List.length_pos_iff.mp some)
    · rw [put_eq_some] at marker
      have same : buf = g.buf ++ cleanmarker := congrArg Gen.buf marker.2
      rw [same, List.length_eq_zero_iff.mp (Nat.eq_zero_of_not_pos some), List.nil_append]
  exact ⟨buf, marks, marker, plain, ⟨begun, ⟨tight.marked.out, .inr starts⟩⟩, starts, length⟩

theorem Tight.pad_block (tight : Tight erasesize g nodes) : ∃ out,
    pad erasesize g erasesize = some (g.hold [] out) ∧ Tight erasesize (g.hold [] out) nodes := by
  obtain ⟨out, block, packed, -⟩ := tight.packed.pad_block
  refine ⟨out, block, packed, ⟨?_, .inl rfl⟩⟩
  rcases pad_grown erasesize block with ⟨same, -⟩ | ⟨rest, same, -⟩
  · rw [same]
    exact tight.marked.out
  · intro other member
    rw [same, List.mem_append, List.mem_singleton] at member
    rcases member with old | rfl
    · exact tight.marked.out other old
    · have some : g.buf ≠ [] := by
        intro empty
        have nothing : g.buf.length % erasesize = 0 := by
          rw [empty, List.length_nil, Nat.zero_mod]
        rw [pad, if_pos ⟨nothing, tight.packed.room⟩] at block
        have outs := congrArg (List.length ∘ Gen.out) (Option.some.inj block)
        have lengths := congrArg List.length same
        simp only [Function.comp, List.length_append, List.length_singleton] at outs lengths
        omega
      exact (tight.marked.buf.resolve_left some).trans (List.prefix_append _ _)

/-- A node that fits is padded, and may end its block. -/
theorem Tight.pad_node (tight : Tight erasesize g nodes) (four : 4 ∣ erasesize) (node : Node)
    (raw : Raw node) (begun : cleanmarker <+: g.buf)
    (fits : g.buf.length + node.length ≤ erasesize) : ∃ buf out,
    pad erasesize (g.hold (g.buf ++ node) g.out) 4 = some (g.hold buf out) ∧
      Tight erasesize (g.hold buf out) (nodes ++ [node]) ∧
      buf.length = if g.buf.length + padLen node.length = erasesize then 0
        else g.buf.length + padLen node.length := by
  have padding := tight.packed.pad_behind four node raw fits
  have starts : cleanmarker <+: g.buf ++ padNode node := begun.trans (List.prefix_append _ _)
  split_ifs at padding ⊢ with full
  · obtain ⟨-, -, -, packed, -⟩ := tight.packed.pad_node four node raw fits padding
    refine ⟨_, _, padding, ⟨packed, ⟨?_, .inl rfl⟩⟩, rfl⟩
    intro other member
    rcases List.mem_append.mp member with old | new
    · exact tight.marked.out other old
    · rw [List.mem_singleton.mp new]
      exact starts
  · obtain ⟨-, -, -, packed, -⟩ := tight.packed.pad_node four node raw fits padding
    refine ⟨_, _, padding, ⟨packed, ⟨tight.marked.out, .inr starts⟩⟩, ?_⟩
    rw [List.length_append, padNode_length node raw.short]

end Marks

section Dirents

variable {crc : List UInt8 → Nat} {erasesize : Nat} {g g' : Gen} {nodes : List Node}

/-- How much is in the buffer behind a dirent with a name of `len` bytes. -/
def behindDirent (erasesize ofs len : Nat) : Nat :=
  if behindMarker ofs + padLen (40 + len) = erasesize then 0
  else behindMarker ofs + padLen (40 + len)

/-- The test for room at the start of `add_dirent` never fails, which leaves this. -/
theorem addDirent_behind (tight : Tight erasesize g nodes) (name : List UInt8) (type parent : Nat) :
    addDirent crc erasesize g name type parent = do
      let g ← prepEraseblock erasesize g
      let node := direntNode crc parent g.lastVersion (g.lastIno + 1) type name
      let _ ← put erasesize g node
      let g' ← put erasesize g (node.take (40 + name.length % 256))
      let g' ← pad erasesize
        { g' with lastIno := g'.lastIno + 2, lastVersion := g'.lastVersion + 1 } 4
      return (g', g.lastIno + 1) := by
  have room := tight.packed.room
  unfold addDirent
  rw [if_neg (by omega)]
  rfl

theorem Tight.dirent (tight : Tight erasesize g nodes) (four : 4 ∣ erasesize) (name : List UInt8)
    (type parent : Nat) (room : DirentRoom erasesize g.buf.length name) : ∃ g' marks,
    addDirent crc erasesize g name type parent = some (g', g.lastIno + 1) ∧ Plain marks ∧
      Tight erasesize g' (nodes ++
        (marks ++ [direntNode crc parent g.lastVersion (g.lastIno + 1) type name])) ∧
      g'.buf.length = behindDirent erasesize g.buf.length name.length := by
  obtain ⟨short, fits⟩ := room
  have large : 12 < erasesize := by omega
  obtain ⟨buf, marks, marker, plain, begun, starts, length⟩ := tight.prep large
  have fields := direntNode_fields crc parent g.lastVersion (g.lastIno + 1) type name short
  have size := direntNode_length crc parent g.lastVersion (g.lastIno + 1) type name
  have behind := @addDirent_behind crc erasesize g nodes tight name type parent
  rw [marker] at behind
  simp only [Option.bind_eq_bind, Option.bind_some, Gen.hold_lastIno, Gen.hold_lastVersion,
    Nat.mod_eq_of_lt short] at behind
  generalize direntNode crc parent g.lastVersion (g.lastIno + 1) type name = node
    at fields size behind ⊢
  have inside : buf.length + node.length ≤ erasesize := by omega
  have stored : put erasesize (g.hold buf g.out) node = some (g.hold (buf ++ node) g.out) :=
    (put_eq_some node).mpr ⟨inside, rfl⟩
  rw [← size, List.take_length, stored, Option.bind_some, Option.bind_some] at behind
  have counted := begun.counters (g.lastIno + 2) (g.lastVersion + 1)
  obtain ⟨buf', out', padding, next, length'⟩ :=
    counted.pad_node four node fields.raw starts inside
  have padded : pad erasesize { g.hold (buf ++ node) g.out with
      lastIno := g.lastIno + 2, lastVersion := g.lastVersion + 1 } 4 =
      some ⟨buf', g.lastIno + 2, g.lastVersion + 1, out'⟩ := padding
  refine ⟨⟨buf', g.lastIno + 2, g.lastVersion + 1, out'⟩, marks, behind.trans ?_, plain, ?_, ?_⟩
  · exact congrArg (Option.bind · fun g' => some (g', g.lastIno + 1)) padded
  · rw [← List.append_assoc]
    exact next
  · rw [behindDirent, ← length, ← size]
    exact length'

/-- What nodes were generated can be read from the blocks and the buffer. -/
theorem packed_walk (packed : Packed erasesize g nodes) : ∃ cur,
    nodes = g.out.flatMap (walk erasesize) ++ cur ∧ g.buf = padded cur := by
  obtain ⟨full, cur, rfl, out, buf, whole⟩ := packed.parts
  refine ⟨cur, ?_, buf⟩
  have same : full = g.out.map (walk erasesize) := by
    rw [out, List.map_map]
    refine (List.map_id _).symm.trans (List.map_congr_left ?_)
    intro ns member
    have raw : ∀ node ∈ ns, Raw node := fun node inside =>
      packed.raw node (List.mem_append_left _ (List.mem_flatten_of_mem member inside))
    exact (walk_blockOf erasesize ns raw (whole ns member).2).symm
  rw [List.flatMap, ← same]

/-- Nodes behind the others in the same block lie in the buffer. -/
theorem packed_grown (more : List Node) (packed : Packed erasesize g nodes)
    (packed' : Packed erasesize g' (nodes ++ more)) (same : g'.out = g.out) :
    g'.buf.length = g.buf.length + (padded more).length := by
  obtain ⟨cur, split, buf⟩ := packed_walk packed
  obtain ⟨cur', split', buf'⟩ := packed_walk packed'
  have next : cur' = cur ++ more := by
    rw [same, split, List.append_assoc] at split'
    exact (List.append_cancel_left split').symm
  rw [buf', buf, next, padded_append, List.length_append]

theorem pad_four_within (within : g.buf.length + 4 < erasesize)
    (ok : pad erasesize g 4 = some g') : g'.out = g.out ∧ g'.buf.length < g.buf.length + 4 := by
  by_cases nothing : g.buf.length % 4 = 0 ∧ g.buf.length < erasesize
  · rw [pad, if_pos nothing] at ok
    obtain rfl := Option.some.inj ok
    exact ⟨rfl, by omega⟩
  · have length : (g.buf ++ List.replicate (4 - g.buf.length % 4) (0xff : UInt8)).length =
        g.buf.length + (4 - g.buf.length % 4) := by
      rw [List.length_append, List.length_replicate]
    rw [pad_filled 4 _ nothing (if_pos (by omega)), length, if_neg (by omega),
      if_neg (by rw [Nat.mod_eq_of_lt (by omega)]; omega)] at ok
    obtain rfl := Option.some.inj ok
    exact ⟨rfl, by rw [Gen.hold, length]; omega⟩

/-- A dirent needs the room that it takes, and a longer name moves the buffer on by too little. -/
theorem DirentLies.room (tight : Tight erasesize g nodes) (name : List UInt8) (type parent : Nat)
    (lies : DirentLies crc erasesize g nodes name type parent) :
    DirentRoom erasesize g.buf.length name := by
  obtain ⟨g', marks, ok, plain, next⟩ := lies
  have large := addDirent_large name type parent _ ok
  obtain ⟨buf, -, marker, -, begun, -, length⟩ := tight.prep large
  have size := direntNode_length crc parent g.lastVersion (g.lastIno + 1) type name
  rw [addDirent_behind tight name type parent, marker] at ok
  simp only [Option.bind_eq_bind, Option.bind_some, Option.bind_eq_some_iff, put_eq_some] at ok
  obtain ⟨_, ⟨fits, -⟩, g₂, ⟨-, rfl⟩, g₃, padding, last⟩ := ok
  obtain rfl := (Prod.mk.inj (Option.some.inj last)).1
  simp only [Gen.hold_lastIno, Gen.hold_lastVersion, size] at fits padding
  have inside : behindMarker g.buf.length + (40 + name.length) ≤ erasesize := length ▸ fits
  refine ⟨?_, inside⟩
  by_contra long
  have close : behindMarker g.buf.length ≤ g.buf.length + 12 := by
    unfold behindMarker
    split_ifs <;> omega
  generalize cut : direntNode crc parent g.lastVersion (g.lastIno + 1) type name = node
    at size next padding
  have few : (buf ++ node.take (40 + name.length % 256)).length =
      buf.length + (40 + name.length % 256) := by
    rw [List.length_append, List.length_take, size]
    omega
  obtain ⟨outs, short⟩ := pad_four_within (by
    simp only [Gen.hold, few]
    omega) padding
  simp only [Gen.hold, few] at short
  have grown := packed_grown (marks ++ [node]) tight.packed next.packed outs
  have raw : node.length < 2 ^ 31 := (next.packed.raw node (by simp)).short
  rw [padded_append, padded_singleton, List.length_append, padNode_length node raw, padLen_eq _ raw,
    size] at grown
  omega

end Dirents

section Dirs

variable {crc : List UInt8 → Nat} {erasesize : Nat} {g g' : Gen} {nodes : List Node}

/-- Data that fits is put behind what is there. -/
theorem addData_inside (bytes : List UInt8) (inside : g.buf.length + bytes.length ≤ erasesize) :
    addData erasesize g bytes = some (g.hold (g.buf ++ bytes) g.out) := by
  rw [addData, if_neg (Nat.not_lt.mpr inside), put_eq_some]
  exact ⟨inside, rfl⟩

/-- `add_data` never puts more than a block takes behind its clean marker. -/
theorem addData_needs (tight : Tight erasesize g nodes) (large : 12 < erasesize)
    (begun : cleanmarker <+: g.buf) (bytes : List UInt8)
    (ok : addData erasesize g bytes = some g') : 12 + bytes.length ≤ erasesize := by
  have twelve : 12 ≤ g.buf.length := begun.length_le
  unfold addData at ok
  split_ifs at ok with above
  · obtain ⟨out, block, empty⟩ := tight.pad_block
    obtain ⟨buf, -, marker, -, -, -, length⟩ := empty.prep large
    simp only [block, marker, Option.bind_eq_bind, Option.bind_some, put_eq_some] at ok
    have start : buf.length = 12 := length
    rw [← start]
    exact ok.1
  · omega

/-- The block is left for the next one when there is no room for an inode. -/
theorem Tight.leave (tight : Tight erasesize g nodes) (large : 12 + 68 ≤ erasesize) : ∃ g' buf out,
    (if erasesize - g.buf.length % erasesize < 68 then pad erasesize g erasesize else some g) =
      some g' ∧ g' = g.hold buf out ∧ Tight erasesize g' nodes ∧
      behindMarker g'.buf.length + 68 ≤ erasesize := by
  rw [Nat.mod_eq_of_lt tight.packed.room]
  by_cases full : erasesize - g.buf.length < 68
  · obtain ⟨out, block, empty⟩ := tight.pad_block
    rw [if_pos full]
    exact ⟨_, [], out, block, rfl, empty, large⟩
  · rw [if_neg full]
    refine ⟨g, g.buf, g.out, rfl, rfl, tight, ?_⟩
    unfold behindMarker
    split_ifs <;> omega

/-- What `add_dir` does behind its dirent. -/
theorem addDir_behind (name : List UInt8) (parent ino : Nat)
    (dirent : addDirent crc erasesize g name 4 parent = some (g', ino)) :
    addDir crc erasesize g name parent =
      ((if erasesize - g'.buf.length % erasesize < 68 then pad erasesize g' erasesize
        else some g').bind fun g => (prepEraseblock erasesize g).bind fun g =>
          (addData erasesize g (inodeRaw crc dirStat ino 1 0 0 0)).bind fun g =>
            (pad erasesize g 4).bind fun g => some (g, ino)) := by
  unfold addDir
  rw [dirent]
  simp only [Option.bind_eq_bind, Option.bind_some]
  split_ifs <;> rfl

theorem addDir_room (tight : Tight erasesize g nodes) (four : 4 ∣ erasesize) (name : List UInt8)
    (parent ino : Nat) (room : DirentRoom erasesize g.buf.length name)
    (ok : addDir crc erasesize g name parent = some (g', ino)) : 12 + 68 ≤ erasesize := by
  have large : 12 < erasesize := by
    unfold DirentRoom at room
    omega
  obtain ⟨g₁, marks, dirent, plain, first, -⟩ := tight.dirent four name 4 parent room
  rw [addDir_behind name parent _ dirent] at ok
  simp only [Option.bind_eq_some_iff] at ok
  obtain ⟨g₂, left, g₃, prep, g₄, data, -⟩ := ok
  have second : Tight erasesize g₂ (nodes ++
      (marks ++ [direntNode crc parent g.lastVersion (g.lastIno + 1) 4 name])) := by
    split_ifs at left
    · obtain ⟨out, block, empty⟩ := first.pad_block
      obtain rfl := Option.some.inj (block.symm.trans left)
      exact empty
    · obtain rfl := Option.some.inj left
      exact first
  obtain ⟨buf, marks', marker, -, third, begun, -⟩ := second.prep large
  obtain rfl := Option.some.inj (marker.symm.trans prep)
  have needs := addData_needs third large begun _ data
  rwa [inodeRaw_length] at needs

theorem Tight.dir (tight : Tight erasesize g nodes) (four : 4 ∣ erasesize) (name : List UInt8)
    (parent : Nat) (room : DirentRoom erasesize g.buf.length name) (large : 12 + 68 ≤ erasesize) :
    ∃ g' marks marks', addDir crc erasesize g name parent = some (g', g.lastIno + 1) ∧
      Plain marks ∧ Plain marks' ∧ Tight erasesize g' (nodes ++
        (marks ++ [direntNode crc parent g.lastVersion (g.lastIno + 1) 4 name] ++
          (marks' ++ [inodeRaw crc dirStat (g.lastIno + 1) 1 0 0 0]))) := by
  obtain ⟨g₁, marks, dirent, plain, first, -⟩ := tight.dirent four name 4 parent room
  obtain ⟨g₂, buf₂, out₂, left, -, second, fits⟩ := first.leave large
  obtain ⟨buf₃, marks', marker, plain', third, begun, length⟩ := second.prep (by omega)
  have fields := @dirInode_fields crc (g.lastIno + 1)
  have size := inodeRaw_length crc dirStat (g.lastIno + 1) 1 0 0 0
  have inside :
      buf₃.length + (inodeRaw crc dirStat (g.lastIno + 1) 1 0 0 0).length ≤ erasesize := by
    omega
  obtain ⟨buf₄, out₄, padding, fourth, -⟩ := third.pad_node four _ fields.raw begun inside
  have stored := addData_inside (inodeRaw crc dirStat (g.lastIno + 1) 1 0 0 0)
    (show (g₂.hold buf₃ g₂.out).buf.length + _ ≤ erasesize from inside)
  refine ⟨(g₂.hold buf₃ g₂.out).hold buf₄ out₄, marks, marks', ?_, plain, plain', ?_⟩
  · rw [addDir_behind name parent _ dirent, left, Option.bind_some, marker, Option.bind_some,
      stored, Option.bind_some]
    exact congrArg (Option.bind · fun g' => some (g', g.lastIno + 1)) padding
  · simpa only [List.append_assoc] using fourth

end Dirs

section Files

variable {crc : List UInt8 → Nat} {erasesize : Nat} {g g' : Gen} {nodes : List Node}

/-- In a block that is large enough there is room for a piece of a file, after at most one block is
left for the next. -/
theorem Tight.makeRoom (tight : Tight erasesize g nodes) (begun : cleanmarker <+: g.buf)
    (large : 12 + 68 + 128 < erasesize) : ∃ g' marks, Jffs2.makeRoom erasesize g = some g' ∧
      Tight erasesize g' (nodes ++ marks) ∧ cleanmarker <+: g'.buf ∧
      g'.buf.length + (68 + 128) < erasesize := by
  unfold Jffs2.makeRoom
  rw [Nat.mod_eq_of_lt tight.packed.room]
  by_cases enough : erasesize - g.buf.length > 68 + 128
  · rw [if_pos enough]
    refine ⟨g, [], rfl, ?_, begun, by omega⟩
    rw [List.append_nil]
    exact tight
  · obtain ⟨out, block, empty⟩ := tight.pad_block
    obtain ⟨buf, marks, marker, -, next, starts, length⟩ := empty.prep (by omega)
    have twelve : buf.length = 12 := length
    rw [if_neg enough]
    simp only [block, marker, Option.bind_eq_bind, Option.bind_some]
    have again : erasesize - ((g.hold [] out).hold buf (g.hold [] out).out).buf.length % erasesize >
        68 + 128 := by
      rw [Nat.mod_eq_of_lt next.packed.room]
      simp only [Gen.hold, twelve]
      omega
    rw [if_pos again]
    refine ⟨_, marks, rfl, next, starts, ?_⟩
    simp only [Gen.hold, twelve]
    omega

/-- The pieces of a file go behind one another; the fuel is for one piece for each byte. -/
theorem Tight.chunks (st : Stat) (ino fuel offset : Nat) (content : List UInt8)
    (four : 4 ∣ erasesize) (large : 12 + 68 + 128 < erasesize) (tight : Tight erasesize g nodes)
    (begun : cleanmarker <+: g.buf) (enough : content.length < fuel) :
    ∃ g', addChunks crc erasesize st ino fuel g offset content = some g' ∧ Marked g' := by
  induction fuel generalizing g nodes offset content with
  | zero => exact absurd enough (Nat.not_lt_zero _)
  | succ fuel ih =>
    obtain ⟨g₁, marks, made, first, starts, room⟩ := tight.makeRoom begun large
    unfold addChunks
    rw [made, Option.bind_eq_bind, Option.bind_some, Nat.mod_eq_of_lt first.packed.room]
    dsimp only
    have size : (content.take (min (erasesize - g₁.buf.length - 68) 4096)).length ≤
        min (erasesize - g₁.buf.length - 68) 4096 := List.length_take_le _ _
    have part : (content.take (min (erasesize - g₁.buf.length - 68) 4096)).length ≤
        content.length := List.length_take_le' _ _
    generalize content.take (min (erasesize - g₁.buf.length - 68) 4096) = chunk at size part ⊢
    by_cases last : chunk = []
    · rw [if_pos last]
      exact ⟨g₁, rfl, first.marked⟩
    · have positive : 0 < chunk.length := List.length_pos_iff.mpr last
      rw [if_neg last]
      have fields := inodeNode_fields crc st ino (g₁.lastVersion + 1) offset (crc chunk) chunk
        (by omega)
      have length := inodeRaw_length crc st ino (g₁.lastVersion + 1) offset (crc chunk) chunk.length
      generalize inodeRaw crc st ino (g₁.lastVersion + 1) offset (crc chunk) chunk.length = raw
        at fields length ⊢
      have counted := first.counters g₁.lastIno (g₁.lastVersion + 1)
      have both : (raw ++ chunk).length = 68 + chunk.length := by rw [List.length_append, length]
      have after : (g₁.buf ++ raw).length = g₁.buf.length + 68 := by rw [List.length_append, length]
      obtain ⟨buf₂, out₂, padding, second, length₂⟩ := counted.pad_node four (raw ++ chunk)
        fields.raw starts (show g₁.buf.length + _ ≤ erasesize by omega)
      obtain ⟨buf₃, marks', marker, -, third, starts', -⟩ := second.prep (by omega)
      have shorter : (content.drop chunk.length).length < fuel := by
        rw [List.length_drop]
        omega
      obtain ⟨g', others, marked⟩ := ih (offset + chunk.length) (content.drop chunk.length) third
        starts' shorter
      have head := @addData_inside erasesize { g₁ with lastVersion := g₁.lastVersion + 1 } raw
        (show g₁.buf.length + _ ≤ erasesize by omega)
      have data := @addData_inside erasesize
        { g₁ with buf := g₁.buf ++ raw, lastVersion := g₁.lastVersion + 1 } chunk
        (show (g₁.buf ++ raw).length + _ ≤ erasesize by omega)
      have behind : pad erasesize { g₁ with
          buf := g₁.buf ++ raw ++ chunk, lastVersion := g₁.lastVersion + 1 } 4 =
          some ⟨buf₂, g₁.lastIno, g₁.lastVersion + 1, out₂⟩ := by
        rw [List.append_assoc]
        exact padding
      refine ⟨g', ?_, marked⟩
      rw [head, Option.bind_some]
      refine (congrArg (Option.bind · _) data).trans ?_
      refine (congrArg (Option.bind · _) behind).trans ?_
      exact (congrArg (Option.bind · _) marker).trans others

end Files

section Starts

variable {crc : List UInt8 → Nat} {erasesize : Nat} {g g' : Gen} {start : List UInt8}

/-- A block, or the buffer, that begins with these bytes. -/
def Starts (start : List UInt8) (g : Gen) : Prop :=
  start <+: g.buf ∨ ∃ block ∈ g.out, start <+: block

theorem Starts.put (bytes : List UInt8) (ok : put erasesize g bytes = some g')
    (starts : Starts start g) : Starts start g' := by
  rw [put_eq_some] at ok
  obtain ⟨-, rfl⟩ := ok
  exact starts.imp_left fun here => here.trans (List.prefix_append _ _)

theorem Starts.pad (size : Nat) (ok : pad erasesize g size = some g') (starts : Starts start g) :
    Starts start g' := by
  rcases pad_grown size ok with ⟨outs, longer⟩ | ⟨rest, outs, -⟩
  · rcases starts with here | before
    · exact .inl (here.trans longer)
    · rw [← outs] at before
      exact .inr before
  · right
    rw [outs]
    rcases starts with here | ⟨block, member, there⟩
    · exact ⟨g.buf ++ rest, by simp, here.trans (List.prefix_append _ _)⟩
    · exact ⟨block, List.mem_append_left _ member, there⟩

theorem Starts.prep (ok : prepEraseblock erasesize g = some g') (starts : Starts start g) :
    Starts start g' := by
  unfold prepEraseblock at ok
  split_ifs at ok
  · obtain rfl := Option.some.inj ok
    exact starts
  · exact starts.put _ ok

theorem Starts.addData (bytes : List UInt8) (ok : addData erasesize g bytes = some g')
    (starts : Starts start g) : Starts start g' := by
  unfold Jffs2.addData at ok
  split_ifs at ok
  · simp only [Option.bind_eq_bind, Option.bind_eq_some_iff] at ok
    obtain ⟨g₁, padding, g₂, prep, ok⟩ := ok
    exact ((starts.pad _ padding).prep prep).put _ ok
  · exact starts.put _ ok

theorem Starts.makeRoom (ok : makeRoom erasesize g = some g') (starts : Starts start g) :
    Starts start g' := by
  unfold Jffs2.makeRoom at ok
  split_ifs at ok
  · obtain rfl := Option.some.inj ok
    exact starts
  · simp only [Option.bind_eq_bind, Option.bind_eq_some_iff] at ok
    obtain ⟨g₁, padding, g₂, prep, ok⟩ := ok
    split_ifs at ok
    obtain rfl := Option.some.inj ok
    exact (starts.pad _ padding).prep prep

/-- Whatever comes behind a node, the block that begins with it does so to the end. -/
theorem Starts.chunks (st : Stat) (ino fuel offset : Nat) (content : List UInt8)
    (ok : addChunks crc erasesize st ino fuel g offset content = some g')
    (starts : Starts start g) : Starts start g' := by
  induction fuel generalizing g offset content with
  | zero => simp [addChunks] at ok
  | succ fuel ih =>
    unfold addChunks at ok
    rw [Option.bind_eq_bind, Option.bind_eq_some_iff] at ok
    obtain ⟨g₁, made, ok⟩ := ok
    dsimp only at ok
    split_ifs at ok with last
    · obtain rfl := Option.some.inj ok
      exact starts.makeRoom made
    · simp only [Option.bind_eq_some_iff] at ok
      obtain ⟨g₂, raw, g₃, data, g₄, padding, g₅, prep, others⟩ := ok
      have kept : Starts start g₁ := starts.makeRoom made
      have first : Starts start { g₁ with lastVersion := g₁.lastVersion + 1 } := kept
      exact ih _ _ others ((((first.addData _ raw).addData _ data).pad _ padding).prep prep)

end Starts

section Needs

variable {crc : List UInt8 → Nat} {erasesize : Nat} {g g' : Gen} {nodes : List Node}

/-- The loop that looks for room ends only where there is room behind a clean marker. -/
theorem makeRoom_needs (tight : Tight erasesize g nodes) (large : 12 < erasesize)
    (ok : makeRoom erasesize g = some g') : 68 + 128 < erasesize ∧
      (g.buf = [] → g' = g) ∧ (g.buf ≠ [] → 12 + 68 + 128 < erasesize) := by
  unfold makeRoom at ok
  rw [Nat.mod_eq_of_lt tight.packed.room] at ok
  by_cases enough : erasesize - g.buf.length > 68 + 128
  · rw [if_pos enough] at ok
    obtain rfl := Option.some.inj ok
    refine ⟨by omega, fun _ => rfl, fun some => ?_⟩
    have twelve : 12 ≤ g.buf.length := (tight.marked.buf.resolve_left some).length_le
    omega
  · obtain ⟨out, block, empty⟩ := tight.pad_block
    obtain ⟨buf, marks, marker, -, next, -, length⟩ := empty.prep large
    have twelve : buf.length = 12 := length
    rw [if_neg enough] at ok
    simp only [block, marker, Option.bind_eq_bind, Option.bind_some] at ok
    rw [Nat.mod_eq_of_lt next.packed.room] at ok
    simp only [Gen.hold, twelve] at ok
    split_ifs at ok with again
    refine ⟨by omega, fun nothing => ?_, fun _ => by omega⟩
    rw [nothing, List.length_nil] at enough
    omega

/-- An inode that comes first in a block has no clean marker before it. -/
theorem Marked.not_starts (marked : Marked g) (raw data : List UInt8) (long : 12 ≤ raw.length)
    (inode : isInode (raw ++ data) = true) : ¬Starts raw g := by
  have differs : ∀ bytes, cleanmarker <+: bytes → ¬raw <+: bytes := by
    intro bytes marker node
    obtain ⟨rest, rfl⟩ := List.prefix_of_prefix_length_le marker node long
    rw [isInode, nodetype, List.append_assoc, field_append cleanmarker _ 2 2 (by decide)] at inode
    exact absurd inode (by decide)
  rintro (here | ⟨block, member, there⟩)
  · have filled : g.buf ≠ [] := by
      intro empty
      rw [empty, List.prefix_nil] at here
      rw [here] at long
      exact absurd long (by decide)
    exact differs g.buf (marked.buf.resolve_left filled) here
  · exact differs block (marked.out block member) there

/-- Content that comes where a dirent ended the block has no clean marker before it. -/
theorem chunks_unmarked (st : Stat) (ino fuel offset : Nat) (content : List UInt8)
    (tight : Tight erasesize g nodes) (large : 12 < erasesize) (empty : g.buf = [])
    (filled : content ≠ [])
    (ok : addChunks crc erasesize st ino fuel g offset content = some g') : ¬Marked g' := by
  intro marked
  cases fuel with
  | zero => simp [addChunks] at ok
  | succ fuel =>
    unfold addChunks at ok
    rw [Option.bind_eq_bind, Option.bind_eq_some_iff] at ok
    obtain ⟨g₁, made, ok⟩ := ok
    obtain ⟨room, same, -⟩ := makeRoom_needs tight large made
    obtain rfl := same empty
    have nothing : g₁.buf.length = 0 := by rw [empty, List.length_nil]
    have positive : 0 < content.length := List.length_pos_iff.mpr filled
    have size : (content.take (min (erasesize - g₁.buf.length % erasesize - 68) 4096)).length =
        min (min (erasesize - g₁.buf.length % erasesize - 68) 4096) content.length :=
      List.length_take
    rw [nothing, Nat.zero_mod] at size
    rw [nothing, Nat.zero_mod] at ok
    dsimp only at ok
    generalize content.take (min (erasesize - 0 - 68) 4096) = chunk at ok size
    have some : chunk ≠ [] := by
      rw [← List.length_pos_iff]
      omega
    rw [if_neg some] at ok
    simp only [Option.bind_eq_some_iff] at ok
    obtain ⟨g₂, head, g₃, data, g₄, padding, g₅, prep, others⟩ := ok
    have fields := inodeNode_fields crc st ino (g₁.lastVersion + 1) offset (crc chunk) chunk
      (by omega)
    have length := inodeRaw_length crc st ino (g₁.lastVersion + 1) offset (crc chunk) chunk.length
    generalize inodeRaw crc st ino (g₁.lastVersion + 1) offset (crc chunk) chunk.length = raw
      at fields length head
    have stored := addData_fits raw head
      (show g₁.buf.length + raw.length ≤ erasesize by omega)
    have first : Starts raw g₂ := by
      rw [stored]
      left
      simp only [Gen.hold, empty, List.nil_append, List.prefix_refl]
    exact marked.not_starts raw chunk (by omega) fields.inode
      ((((first.addData _ data).pad _ padding).prep prep).chunks _ _ _ _ _ others)

end Needs

section Lying

variable {crc : List UInt8 → Nat} {erasesize : Nat} {g g' : Gen} {nodes : List Node}

/-- What `add_file` does behind its dirent. -/
theorem addFile_behind (path : List UInt8) (file : File) (parent ino : Nat)
    (dirent : addDirent crc erasesize g (basename path) 8 parent = some (g', ino)) :
    addFile crc erasesize g path (some file) parent =
      if file.opens then
        addChunks crc erasesize file.stat ino (file.content.length + 1) g' 0 file.content
      else some g' := by
  simp only [addFile, dirent, Option.bind_eq_bind, Option.bind_some]
  cases file.opens <;> rfl

theorem addChunks_made (st : Stat) (ino fuel offset : Nat) (content : List UInt8)
    (ok : addChunks crc erasesize st ino fuel g offset content = some g') :
    ∃ g₁, makeRoom erasesize g = some g₁ := by
  cases fuel with
  | zero => simp [addChunks] at ok
  | succ fuel =>
    unfold addChunks at ok
    rw [Option.bind_eq_bind, Option.bind_eq_some_iff] at ok
    obtain ⟨g₁, made, -⟩ := ok
    exact ⟨g₁, made⟩

/-- Nothing comes behind the dirent of a file without content, or of one that cannot be opened. -/
theorem addChunks_none (st : Stat) (ino fuel offset : Nat) (empty : g.buf = [])
    (room : 68 + 128 < erasesize) :
    addChunks crc erasesize st ino (fuel + 1) g offset [] = some g := by
  unfold addChunks
  rw [makeRoom, if_pos (by rw [empty, List.length_nil, Nat.zero_mod]; omega), Option.bind_eq_bind,
    Option.bind_some]
  simp only [List.take_nil, if_true]

theorem behindDirent_empty (ofs len : Nat) :
    behindDirent erasesize ofs len = 0 ↔ behindMarker ofs + padLen (40 + len) = erasesize := by
  have positive : behindMarker ofs ≠ 0 := by
    unfold behindMarker
    split_ifs with zero
    · decide
    · exact zero
  unfold behindDirent
  split_ifs with full
  · exact ⟨fun _ => full, fun _ => rfl⟩
  · exact ⟨fun none => by omega, fun same => absurd same full⟩

/-- The content of a file lies behind its dirent where it needs no more room than there is. -/
theorem chunks_iff (tight : Tight erasesize g nodes) (four : 4 ∣ erasesize) (large : 12 < erasesize)
    (st : Stat) (ino : Nat) (content : List UInt8) :
    (∃ g' more, addChunks crc erasesize st ino (content.length + 1) g 0 content = some g' ∧
      Tight erasesize g' (nodes ++ more) ∧ more.filter isDirent = [] ∧
      Pieces ino g.lastVersion 0 (more.filter isInode) content) ↔
    if g.buf = [] then content = [] ∧ 68 + 128 < erasesize else 12 + 68 + 128 < erasesize := by
  constructor
  · rintro ⟨g', more, ok, next, -, -⟩
    obtain ⟨g₁, made⟩ := addChunks_made _ _ _ _ _ ok
    obtain ⟨room, -, roomier⟩ := makeRoom_needs tight large made
    split_ifs with empty
    · refine ⟨?_, room⟩
      by_contra filled
      exact chunks_unmarked _ _ _ _ _ tight large empty filled ok next.marked
    · exact roomier empty
  · intro room
    split_ifs at room with empty
    · obtain ⟨rfl, room⟩ := room
      refine ⟨g, [], addChunks_none _ _ _ _ empty room, ?_, rfl, rfl⟩
      rw [List.append_nil]
      exact tight
    · obtain ⟨g', ok, marked⟩ := tight.chunks st ino _ 0 content four room
        (tight.marked.buf.resolve_left empty) (Nat.lt_succ_self _)
      obtain ⟨more, packed, noDirent, pieces, -⟩ :=
        tight.packed.chunks st ino _ 0 content four large ok
      exact ⟨g', more, ok, ⟨packed, marked⟩, noDirent, pieces⟩

theorem direntLies_iff (tight : Tight erasesize g nodes) (four : 4 ∣ erasesize) (name : List UInt8)
    (type parent : Nat) : DirentLies crc erasesize g nodes name type parent ↔
      DirentRoom erasesize g.buf.length name := by
  constructor
  · exact fun lies => lies.room tight name type parent
  · intro room
    obtain ⟨g', marks, ok, plain, next, -⟩ := tight.dirent four name type parent room
    exact ⟨g', marks, ok, plain, next⟩

theorem lies_dir_iff (tight : Tight erasesize g nodes) (four : 4 ∣ erasesize) (name : List UInt8)
    (parent : Nat) : Lies crc erasesize g nodes (.dir name parent) ↔
      HasRoom erasesize g.buf.length (.dir name parent) := by
  rw [Lies, HasRoom, direntLies_iff tight four]
  refine and_congr_right fun room => ⟨?_, fun large => tight.dir four name parent room large⟩
  rintro ⟨g', marks, marks', ok, -⟩
  exact addDir_room tight four name parent _ room ok

theorem lies_file_iff (tight : Tight erasesize g nodes) (four : 4 ∣ erasesize) (path : List UInt8)
    (file : File) (parent : Nat) : Lies crc erasesize g nodes (.file path (some file) parent) ↔
      HasRoom erasesize g.buf.length (.file path (some file) parent) := by
  rw [Lies, HasRoom, direntLies_iff tight four]
  refine and_congr_right fun room => ?_
  obtain ⟨g₁, marks, dirent, plain, first, length⟩ := tight.dirent four _ 8 parent room
  obtain ⟨short, fits⟩ := room
  have large : 12 < erasesize := by omega
  obtain ⟨-, -, version, -⟩ := tight.packed.dirent four large _ 8 parent _ short dirent
  have fields := direntNode_fields crc parent g.lastVersion (g.lastIno + 1) 8 (basename path) short
  have empty : behindMarker g.buf.length + padLen (40 + (basename path).length) = erasesize ↔
      g₁.buf = [] := by
    rw [← List.length_eq_zero_iff, length, behindDirent_empty]
  have chunks := @chunks_iff crc erasesize g₁ _ first four large file.stat (g.lastIno + 1)
    file.content
  rw [addFile_behind path file parent _ dirent]
  simp only [empty, ← chunks, version]
  generalize direntNode crc parent g.lastVersion (g.lastIno + 1) 8 (basename path) = node
    at fields first
  have dirents : (marks ++ [node]).filter isDirent = [node] := by
    simp [(plain_filter marks plain).1, fields.dirent]
  have inodes : (marks ++ [node]).filter isInode = [] := by
    simp [(plain_filter marks plain).2, fields.not_inode]
  constructor
  · rintro ⟨g', more, ok, next, -⟩ opens
    rw [if_pos opens] at ok
    obtain ⟨more', packed, noDirent, pieces, -⟩ :=
      first.packed.chunks file.stat _ _ 0 file.content four large ok
    rw [version] at pieces
    exact ⟨g', more', ok, ⟨packed, next.marked⟩, noDirent, pieces⟩
  · intro others
    by_cases opens : file.opens = true
    · obtain ⟨g', more, ok, next, noDirent, pieces⟩ := others opens
      rw [if_pos opens, if_pos opens]
      refine ⟨g', marks ++ [node] ++ more, ok, ?_, ?_, ?_⟩
      · simpa only [List.append_assoc] using next
      · rw [List.filter_append, dirents, noDirent, List.append_nil]
      · rw [List.filter_append, inodes, List.nil_append]
        exact pieces
    · rw [if_neg opens, if_neg opens]
      exact ⟨g₁, marks ++ [node], rfl, first, dirents, by rw [inodes]; rfl⟩

/-- The nodes that a call puts behind those that are there lie in their blocks just when there is
the room that the call does not look for. -/
theorem lies_iff (tight : Tight erasesize g nodes) (four : 4 ∣ erasesize) (add : Add) :
    Lies crc erasesize g nodes add ↔ HasRoom erasesize g.buf.length add := by
  cases add with
  | dirent name type parent => exact direntLies_iff tight four name type parent
  | dir name parent => exact lies_dir_iff tight four name parent
  | file path file parent =>
    cases file with
    | none => exact iff_of_true ⟨g, rfl, tight⟩ trivial
    | some file => exact lies_file_iff tight four path file parent

/-- A buffer with nothing in it. -/
theorem tight_empty (large : 12 < erasesize) (ino version : Nat) :
    Tight erasesize ⟨[], ino, version, []⟩ [] :=
  ⟨packed_empty large ino version, ⟨fun _ member => absurd member List.not_mem_nil, .inl rfl⟩⟩

/-- A name of four bytes with some content, in an empty buffer. -/
theorem empty_lies : Lies crc32 4096 ⟨[], 1, 0, []⟩ []
    (.file [0x66, 0x69, 0x6c, 0x65] (some ⟨⟨0x81a4, 3, 0, 0, 0⟩, true, [1, 2, 3]⟩) 2) := by
  refine (lies_iff (tight_empty (by decide) 1 0) (by decide) _).mpr ?_
  refine ⟨by unfold DirentRoom; decide, fun _ => ?_⟩
  rw [if_neg (by decide)]
  decide

end Lying

section Past

variable {crc : List UInt8 → Nat} {erasesize : Nat} {g : Gen} {nodes : List Node}

/-- A dirent without room is written past the end of the buffer. -/
theorem addDirent_past (tight : Tight erasesize g nodes) (large : 12 < erasesize)
    (name : List UInt8) (type parent : Nat) (past : erasesize < behindMarker g.buf.length + (40 + name.length)) :
    addDirent crc erasesize g name type parent = none := by
  obtain ⟨buf, -, marker, -, -, -, length⟩ := tight.prep large
  have overflow : ∀ node : Node, node.length = 40 + name.length →
      put erasesize (g.hold buf g.out) node = none := by
    intro node size
    rw [put, if_pos]
    simp only [Gen.hold, size, length]
    exact past
  rw [addDirent_behind tight name type parent, marker, Option.bind_eq_bind, Option.bind_some]
  dsimp only
  rw [overflow _ (direntNode_length _ _ _ _ _ _)]
  rfl

/-- An inode with data that are all zero. -/
def zeroInode (len : Nat) : Node := inodeRaw crc32 dirStat 2 1 0 0 len ++ List.replicate len 0

/-- A buffer with such an inode behind its clean marker. -/
def behindInode (len : Nat) : Gen := ⟨cleanmarker ++ zeroInode len, 3, 1, []⟩

theorem behindInode_tight (len : Nat) (four : 4 ∣ len) (short : len < 2 ^ 30)
    (room : 80 + len < erasesize) :
    Tight erasesize (behindInode len) [cleanmarker, zeroInode len] := by
  have fields := inodeNode_fields crc32 dirStat 2 1 0 0 (List.replicate len 0)
    (by simpa using short)
  rw [List.length_replicate] at fields
  have raw : Raw (zeroInode len) := fields.raw
  have length : (zeroInode len).length = 68 + len := by
    rw [zeroInode, List.length_append, inodeRaw_length, List.length_replicate]
  have whole : padNode (zeroInode len) = zeroInode len := by
    rw [padNode, length, padLen_eq _ (by omega),
      show (68 + len + 3) / 4 * 4 - (68 + len) = 0 by omega, List.replicate_zero, List.append_nil]
  refine ⟨⟨⟨[], [cleanmarker, zeroInode len], rfl, rfl, ?_, by simp⟩, ?_, ?_⟩,
    ⟨fun _ member => absurd member List.not_mem_nil, .inr (List.prefix_append _ _)⟩⟩
  · rw [show [cleanmarker, zeroInode len] = [cleanmarker] ++ [zeroInode len] from rfl,
      padded_append, padded_singleton, padded_singleton, whole]
    rfl
  · intro node member
    simp only [List.mem_cons, List.not_mem_nil, or_false] at member
    rcases member with same | same
    · rw [same]
      exact cleanmarker_raw
    · rw [same]
      exact raw
  · simp only [behindInode, List.length_append, length, show cleanmarker.length = 12 from rfl]
    omega

/-- With 56 bytes left, a dirent of 59 bytes is not put into the next block. -/
theorem behindInode_not_lies : Tight 4096 (behindInode 3960) [cleanmarker, zeroInode 3960] ∧
    addDirent crc32 4096 (behindInode 3960) (List.replicate 19 0x61) 8 1 = none ∧
    ¬Lies crc32 4096 (behindInode 3960) [cleanmarker, zeroInode 3960]
      (.dirent (List.replicate 19 0x61) 8 1) := by
  have tight : Tight 4096 (behindInode 3960) [cleanmarker, zeroInode 3960] :=
    behindInode_tight 3960 (by decide) (by decide) (by decide)
  have length : (behindInode 3960).buf.length = 4040 := by
    simp only [behindInode, zeroInode, List.length_append, inodeRaw_length, List.length_replicate,
      show cleanmarker.length = 12 from rfl]
  have past : 4096 < behindMarker (behindInode 3960).buf.length +
      (40 + (List.replicate 19 (0x61 : UInt8)).length) := by
    rw [length, List.length_replicate]
    decide
  have none := @addDirent_past crc32 4096 _ _ tight (by decide) (List.replicate 19 0x61) 8 1 past
  refine ⟨tight, none, ?_⟩
  rintro ⟨g', marks, ok, -⟩
  rw [none] at ok
  exact absurd ok (by simp)

end Past

end Filogic.Jffs2.Room
