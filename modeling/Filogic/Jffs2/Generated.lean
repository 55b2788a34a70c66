import Filogic.Jffs2.Filling

/-! What is generated for a file: its dirent, that of a directory that is not there yet, and an inode
for each piece of the content. -/

namespace Filogic.Jffs2
open Lib

section Layout

variable (erasesize : Nat)

/-- Behind a dirent with a name of `len` bytes. -/
def Spot.dirent (s : Spot) (len : Nat) : Spot := s.start.node erasesize (40 + len)

/-- Behind a directory. -/
def Spot.dir (s : Spot) (len : Nat) : Spot :=
  let s := s.dirent erasesize len
  (if erasesize - s.ofs < 68 then s.flush else s).start.node erasesize 68

/-- Where there is room for a piece of a file. -/
def Spot.room (s : Spot) : Spot := if erasesize - s.ofs > 68 + 128 then s else s.flush.start

/-- Behind the pieces of `len` bytes of a file, and how many pieces there are. -/
def Spot.cut : Nat → Spot → Nat → Spot × Nat
  | 0, s, _ => (s, 0)
  | fuel + 1, s, len =>
      let s := s.room erasesize
      let size := min len (min (erasesize - s.ofs - 68) 4096)
      if size = 0 then (s, 0)
      else
        let (s, pieces) := Spot.cut fuel (s.node erasesize (68 + size)).start (len - size)
        (s, pieces + 1)

/-- How many blocks are generated, and how many pieces there are of the file. -/
def sizes (dirLen : Option Nat) (nameLen contentLen : Nat) : Nat × Nat :=
  let s := dirLen.elim ⟨0, 0⟩ (Spot.dir erasesize ⟨0, 0⟩)
  let (s, pieces) := (s.dirent erasesize nameLen).cut erasesize (contentLen + 1) contentLen
  (s.flush.blocks + 1, pieces)

/-- The block that ends the file system. -/
def eofBlock : List UInt8 := jffs2Eof ++ List.replicate (erasesize - 4) 0xff

end Layout

/-- The blocks that are generated, by the nodes that they hold. -/
structure Blocks (erasesize : Nat) (out : List (List UInt8)) (full : List (List Node)) : Prop where
  out : out = full.map (blockOf erasesize) ++ [eofBlock erasesize]
  some : ∀ ns ∈ full, ns ≠ []
  fits : ∀ ns ∈ full, (padded ns).length ≤ erasesize
  raw : ∀ ns ∈ full, ∀ node ∈ ns, Raw node

/-- Inodes that hold a file from `offset` on, with the versions behind `version`. -/
def Pieces (ino : Nat) : Nat → Nat → List Node → List UInt8 → Prop
  | _, _, [], content => content = []
  | version, offset, node :: nodes, content => ∃ data rest, content = data ++ rest ∧ data ≠ [] ∧
      InodeFields node ino (version + 1) offset data ∧
      Pieces ino (version + 1) (offset + data.length) nodes rest

section Ops

variable {crc : List UInt8 → Nat} {erasesize : Nat} {g g' : Gen} {nodes : List Node}

theorem Packed.dirent (packed : Packed erasesize g nodes) (four : 4 ∣ erasesize)
    (large : 12 < erasesize) (name : List UInt8) (type parent ino : Nat) (short : name.length < 256)
    (ok : addDirent crc erasesize g name type parent = some (g', ino)) :
    ino = g.lastIno + 1 ∧ g'.lastIno = g.lastIno + 2 ∧ g'.lastVersion = g.lastVersion + 1 ∧
      g'.spot = g.spot.dirent erasesize name.length ∧ ∃ marks, Plain marks ∧
      Packed erasesize g' (nodes ++ (marks ++ [direntNode crc parent g.lastVersion ino type name])) := by
  have room := packed.room
  obtain ⟨buf, marks, marker, plain, begun, spot⟩ := packed.prep large
  have fields := direntNode_fields crc parent g.lastVersion (g.lastIno + 1) type name short
  have length := direntNode_length crc parent g.lastVersion (g.lastIno + 1) type name
  unfold addDirent at ok
  rw [if_neg (by omega)] at ok
  simp only [Option.bind_eq_bind, Option.bind_some, marker, Gen.hold_lastIno, Gen.hold_lastVersion,
    Nat.mod_eq_of_lt short, Option.bind_eq_some_iff] at ok
  obtain ⟨_, _, g₂, second, g₃, padding, last⟩ := ok
  rw [List.take_of_length_le (by rw [length]), put_eq_some] at second
  obtain ⟨fits, rfl⟩ := second
  obtain ⟨rfl, rfl⟩ := Prod.mk.inj (Option.some.inj last)
  have counted := begun.counters (g.lastIno + 2) (g.lastVersion + 1)
  obtain ⟨buf', out', rfl, next, nextSpot⟩ := counted.pad_node four _ fields.raw fits padding
  refine ⟨rfl, rfl, rfl, ?_, marks, plain, ?_⟩
  · rw [nextSpot, length, Spot.dirent, ← spot]
    rfl
  · rw [← List.append_assoc]
    exact next

theorem dirInode_fields (ino : Nat) :
    InodeFields (inodeRaw crc dirStat ino 1 0 0 0) ino 1 0 [] := by
  have fields := inodeNode_fields crc dirStat ino 1 0 0 [] (by decide)
  rwa [List.append_nil] at fields

theorem Packed.dir (packed : Packed erasesize g nodes) (four : 4 ∣ erasesize)
    (large : 12 < erasesize) (name : List UInt8) (parent ino : Nat) (short : name.length < 256)
    (ok : addDir crc erasesize g name parent = some (g', ino)) :
    ino = g.lastIno + 1 ∧ g'.lastIno = g.lastIno + 2 ∧ g'.lastVersion = g.lastVersion + 1 ∧
      g'.spot = g.spot.dir erasesize name.length ∧ ∃ marks marks', Plain marks ∧ Plain marks' ∧
      Packed erasesize g' (nodes ++ (marks ++ [direntNode crc parent g.lastVersion ino 4 name] ++
        (marks' ++ [inodeRaw crc dirStat ino 1 0 0 0]))) := by
  unfold addDir at ok
  rw [Option.bind_eq_bind, Option.bind_eq_some_iff] at ok
  obtain ⟨⟨g₁, ino₁⟩, dirent, rest⟩ := ok
  obtain ⟨inoEq, lastIno, lastVersion, spot, marks, plain, first⟩ :=
    packed.dirent four large name 4 parent ino₁ short dirent
  obtain ⟨g₂, out₂, shape, second, spot₂, rest⟩ : ∃ g₂ out,
      g₂ = g₁.hold (if erasesize - g₁.buf.length < 68 then [] else g₁.buf) out ∧
      Packed erasesize g₂ (nodes ++ (marks ++ [direntNode crc parent g.lastVersion ino₁ 4 name])) ∧
      g₂.spot = (if erasesize - g₁.spot.ofs < 68 then g₁.spot.flush else g₁.spot) ∧
      (prepEraseblock erasesize g₂ >>= fun g =>
        addData erasesize g (inodeRaw crc dirStat ino₁ 1 0 0 0) >>= fun g =>
        pad erasesize g 4 >>= fun g => pure (g, ino₁)) = some (g', ino) := by
    have ofs : g₁.spot.ofs = g₁.buf.length := rfl
    dsimp only at rest
    rw [Nat.mod_eq_of_lt first.room] at rest
    rw [ofs]
    split_ifs at rest ⊢ with full
    · obtain ⟨out, block, packed', spot'⟩ := first.pad_block
      rw [block] at rest
      exact ⟨_, out, rfl, packed', spot', rest⟩
    · exact ⟨g₁, g₁.out, rfl, first, rfl, rest⟩
  simp only [Option.bind_eq_bind, Option.bind_eq_some_iff] at rest
  obtain ⟨g₃, prep, g₄, data, g₅, padding, last⟩ := rest
  obtain ⟨rfl, rfl⟩ := Prod.mk.inj (Option.some.inj last)
  obtain ⟨buf₃, marks', marker, plain', third, spot₃⟩ := second.prep large
  obtain rfl := Option.some.inj (marker.symm.trans prep)
  have length := inodeRaw_length crc dirStat ino₁ 1 0 0 0
  have fields := @dirInode_fields crc ino₁
  have place : (g₂.hold buf₃ g₂.out).buf.length + (inodeRaw crc dirStat ino₁ 1 0 0 0).length ≤ erasesize ∨
      (g₂.hold buf₃ g₂.out).buf.length = 12 := by
    have ofs : (g₂.hold buf₃ g₂.out).buf.length = g₂.spot.start.ofs := congrArg Spot.ofs spot₃
    have ofs₁ : g₁.spot.ofs = g₁.buf.length := rfl
    have room₁ := first.room
    rw [ofs, spot₂, length]
    unfold Spot.start
    split_ifs with full zero zero
    · exact .inr rfl
    · left
      unfold Spot.flush at zero ⊢
      split_ifs at zero ⊢ with nothing
      · exact absurd nothing zero
      · exact absurd rfl zero
    · exact .inr rfl
    · left
      omega
  have stored := third.addData_put large _ place data
  obtain ⟨fits, rfl⟩ := (put_eq_some _).mp stored
  obtain ⟨buf₅, out₅, shape₅, fifth, spot₅⟩ := third.pad_node four _ fields.raw fits padding
  refine ⟨inoEq, ?_, ?_, ?_, marks, marks', plain, plain', ?_⟩
  · rw [shape₅, shape]
    exact lastIno
  · rw [shape₅, shape]
    exact lastVersion
  · rw [spot₅, length, spot₃, spot₂, spot]
    rfl
  · simpa only [List.append_assoc] using fifth

theorem addData_fits (bytes : List UInt8) (ok : addData erasesize g bytes = some g')
    (fits : g.buf.length + bytes.length ≤ erasesize) : g' = g.hold (g.buf ++ bytes) g.out := by
  rw [addData, if_neg (by omega), put_eq_some] at ok
  exact ok.2

theorem Packed.makeRoom (packed : Packed erasesize g nodes) (large : 12 < erasesize)
    (ok : makeRoom erasesize g = some g') : ∃ buf out marks, g' = g.hold buf out ∧ Plain marks ∧
      Packed erasesize g' (nodes ++ marks) ∧ g'.spot = g.spot.room erasesize ∧
      g'.buf.length + (68 + 128) < erasesize := by
  have ofs : g.spot.ofs = g.buf.length := rfl
  unfold Jffs2.makeRoom at ok
  rw [Nat.mod_eq_of_lt packed.room] at ok
  rw [Spot.room, ofs]
  split_ifs at ok ⊢ with enough
  · obtain rfl := Option.some.inj ok
    refine ⟨g.buf, g.out, [], rfl, by simp [Plain], ?_, rfl, by omega⟩
    rw [List.append_nil]
    exact packed
  · obtain ⟨out, block, empty, spot⟩ := packed.pad_block
    obtain ⟨buf, marks, marker, plain, begun, spot'⟩ := empty.prep large
    simp only [block, marker, Option.bind_eq_bind, Option.bind_some,
      Nat.mod_eq_of_lt begun.room] at ok
    split_ifs at ok with again
    obtain rfl := Option.some.inj ok
    exact ⟨buf, out, marks, rfl, plain, begun, spot'.trans (by rw [spot]), by omega⟩

theorem plain_filter (marks : List Node) (plain : Plain marks) :
    marks.filter isDirent = [] ∧ marks.filter isInode = [] := by
  constructor
  · rw [List.filter_eq_nil_iff]
    intro node member
    rw [(plain node member).1]
    exact Bool.false_ne_true
  · rw [List.filter_eq_nil_iff]
    intro node member
    rw [(plain node member).2]
    exact Bool.false_ne_true

theorem InodeFields.not_dirent {node : Node} {ino version offset : Nat} {data : List UInt8}
    (fields : InodeFields node ino version offset data) : isDirent node = false := by
  have inode := fields.inode
  simp only [isInode, decide_eq_true_eq] at inode
  simp [isDirent, inode]

theorem DirentFields.not_inode {node : Node} {parent version ino type : Nat} {name : List UInt8}
    (fields : DirentFields node parent version ino type name) : isInode node = false := by
  have dirent := fields.dirent
  simp only [isDirent, decide_eq_true_eq] at dirent
  simp [isInode, dirent]

/-- One piece more, and then the others. -/
theorem Packed.chunks (st : Stat) (ino fuel : Nat) (offset : Nat) (content : List UInt8)
    (four : 4 ∣ erasesize) (large : 12 < erasesize) (packed : Packed erasesize g nodes)
    (ok : addChunks crc erasesize st ino fuel g offset content = some g') :
    ∃ more, Packed erasesize g' (nodes ++ more) ∧ more.filter isDirent = [] ∧
      Pieces ino g.lastVersion offset (more.filter isInode) content ∧
      (g'.spot, (more.filter isInode).length) = g.spot.cut erasesize fuel content.length := by
  induction fuel generalizing g nodes offset content with
  | zero => simp [addChunks] at ok
  | succ fuel ih =>
    unfold addChunks at ok
    rw [Option.bind_eq_bind, Option.bind_eq_some_iff] at ok
    obtain ⟨g₁, made, ok⟩ := ok
    obtain ⟨buf, out, marks, shape, plain, first, spot, enough⟩ := packed.makeRoom large made
    have version : g₁.lastVersion = g.lastVersion := by rw [shape]; rfl
    rw [Nat.mod_eq_of_lt first.room] at ok
    have ofs : g₁.buf.length = (g.spot.room erasesize).ofs := congrArg Spot.ofs spot
    unfold Spot.cut
    dsimp only
    rw [← ofs, ← spot]
    have size : (content.take (min (erasesize - g₁.buf.length - 68) 4096)).length =
        min content.length (min (erasesize - g₁.buf.length - 68) 4096) := by
      rw [List.length_take, Nat.min_comm]
    rw [← size]
    dsimp only at ok
    generalize cut : content.take (min (erasesize - g₁.buf.length - 68) 4096) = chunk at ok size ⊢
    by_cases last : chunk = []
    · rw [if_pos last] at ok
      obtain rfl := Option.some.inj ok
      have done : content = [] := by
        rw [← List.length_eq_zero_iff]
        rw [last, List.length_nil] at size
        omega
      refine ⟨marks, first, (plain_filter marks plain).1, ?_, ?_⟩
      · rw [(plain_filter marks plain).2]
        exact done
      · rw [(plain_filter marks plain).2, last]
        rfl
    · have positive : 0 < chunk.length := List.length_pos_iff.mpr last
      have whole : content = chunk ++ content.drop chunk.length := by
        rw [size, ← cut]
        rcases Nat.le_total content.length (min (erasesize - g₁.buf.length - 68) 4096) with few | many
        · rw [List.take_of_length_le few, Nat.min_eq_left few, List.drop_length, List.append_nil]
        · rw [Nat.min_eq_right many, List.take_append_drop]
      rw [if_neg last] at ok
      simp only [Option.bind_eq_some_iff] at ok
      obtain ⟨g₂, raw, g₃, data, g₄, padding, g₅, prep, others⟩ := ok
      have short : chunk.length ≤ 4096 ∧ chunk.length ≤ erasesize - g₁.buf.length - 68 := by omega
      have counted := first.counters g₁.lastIno (g₁.lastVersion + 1)
      generalize head : inodeRaw crc st ino (g₁.lastVersion + 1) offset (crc chunk) chunk.length = bytes
        at raw
      have fields : InodeFields (bytes ++ chunk) ino (g₁.lastVersion + 1) offset chunk :=
        head ▸ inodeNode_fields crc st ino (g₁.lastVersion + 1) offset (crc chunk) chunk (by omega)
      have length : bytes.length = 68 := by rw [← head, inodeRaw_length]
      have after : (g₁.buf ++ bytes).length = g₁.buf.length + 68 := by
        rw [List.length_append, length]
      obtain rfl := addData_fits bytes raw (show g₁.buf.length + bytes.length ≤ erasesize by omega)
      obtain rfl := addData_fits chunk data
        (show (g₁.buf ++ bytes).length + chunk.length ≤ erasesize by omega)
      have nodeLength : (bytes ++ chunk).length = 68 + chunk.length := by
        rw [List.length_append, length]
      obtain ⟨buf₄, out₄, shape₄, fourth, spot₄⟩ := counted.pad_node four (bytes ++ chunk) fields.raw
        (show g₁.buf.length + (bytes ++ chunk).length ≤ erasesize by omega)
        (by rw [← List.append_assoc]; exact padding)
      obtain ⟨buf₅, marks', marker, plain', fifth, spot₅⟩ := fourth.prep large
      obtain rfl := Option.some.inj (marker.symm.trans prep)
      have version₄ : g₄.lastVersion = g₁.lastVersion + 1 := by rw [shape₄]; rfl
      obtain ⟨more, packed', noDirent, pieces, rest⟩ := ih _ _ fifth others
      rw [Gen.hold_lastVersion, version₄, version] at pieces
      rw [version] at fields
      have shift : content.length - chunk.length = (content.drop chunk.length).length := by
        rw [List.length_drop]
      refine ⟨marks ++ (bytes ++ chunk) :: (marks' ++ more), ?_, ?_, ?_, ?_⟩
      · simpa only [List.append_assoc, List.cons_append, List.nil_append] using packed'
      · simp [(plain_filter marks plain).1, (plain_filter marks' plain').1, noDirent,
          fields.not_dirent]
      · simp only [List.filter_append, List.filter_cons, (plain_filter marks plain).2,
          (plain_filter marks' plain').2, fields.inode, if_true, List.nil_append]
        exact ⟨chunk, content.drop chunk.length, whole, last, fields, pieces⟩
      · rw [if_neg (by omega), shift, ← nodeLength]
        simp only [List.filter_append, List.filter_cons, (plain_filter marks plain).2,
          (plain_filter marks' plain').2, fields.inode, if_true, List.nil_append, List.length_cons]
        rw [spot₅, spot₄] at rest
        have same : ({ g₁ with lastVersion := g₁.lastVersion + 1 } : Gen).spot = g₁.spot := rfl
        rw [same] at rest
        rw [← rest]

theorem addDirent_large (name : List UInt8) (type parent ino : Nat)
    (ok : addDirent crc erasesize g name type parent = some (g', ino)) : 12 < erasesize := by
  unfold addDirent at ok
  simp only [Option.bind_eq_bind] at ok
  split_ifs at ok <;> simp only [Option.bind_eq_some_iff, put_eq_some, direntNode_length] at ok
  · obtain ⟨-, -, g₁, -, -, ⟨fits, -⟩, -⟩ := ok
    omega
  · obtain ⟨-, -, g₁, -, -, ⟨fits, -⟩, -⟩ := ok
    omega

/-- The end of the file system is a block of its own. -/
theorem Packed.finish (packed : Packed erasesize g nodes) (large : 12 < erasesize)
    (out : List (List UInt8))
    (ok : (pad erasesize g erasesize >>= fun g => addData erasesize g jffs2Eof >>= fun g =>
      pad erasesize g erasesize >>= fun g => pure g.out) = some out) :
    ∃ full : List (List Node), Blocks erasesize out full ∧ nodes = full.flatten ∧
      out.length = g.spot.flush.blocks + 1 := by
  obtain ⟨out₁, block, done, spot⟩ := packed.pad_block
  obtain ⟨full, cur, rfl, outs, buf, whole⟩ := done.parts
  have none : cur = [] := by
    have few := length_le_padded cur fun node member =>
      packed.raw node (List.mem_append_right _ member)
    rw [← buf] at few
    exact List.length_eq_zero_iff.mp (Nat.le_zero.mp few)
  subst none
  rw [block] at ok
  simp only [Option.bind_eq_bind, Option.bind_eq_some_iff, Option.bind_some] at ok
  obtain ⟨g₂, eof, g₃, padding, last⟩ := ok
  obtain rfl := addData_fits _ eof (show 4 ≤ erasesize by omega)
  have four : ((g.hold [] out₁).hold ((g.hold [] out₁).buf ++ jffs2Eof)
      (g.hold [] out₁).out).buf.length = 4 := rfl
  rw [pad_filled erasesize (eofBlock erasesize) (by rw [four, Nat.mod_eq_of_lt (by omega)]; omega)
    (by rw [if_pos (by omega), four, Nat.mod_eq_of_lt (by omega)]; rfl)] at padding
  have length : (eofBlock erasesize).length = erasesize := by
    rw [eofBlock, List.length_append, List.length_replicate, show jffs2Eof.length = 4 from rfl]
    omega
  rw [length, if_neg (Nat.lt_irrefl _), if_pos (Nat.mod_self _)] at padding
  obtain rfl := Option.some.inj padding
  obtain rfl := Option.some.inj last
  refine ⟨full, ⟨?_, fun ns member => (whole ns member).1, fun ns member => (whole ns member).2, ?_⟩,
    List.append_nil _, ?_⟩
  · exact congrArg (· ++ [eofBlock erasesize]) outs
  · intro ns member node inside
    exact packed.raw node (List.mem_append_left _ (List.mem_flatten_of_mem member inside))
  · have blocks : out₁.length = g.spot.flush.blocks := congrArg Spot.blocks spot
    rw [← blocks]
    simp [Gen.hold]

/-- The dirents and the inodes of a file, in a directory that may have been generated before it. -/
theorem Packed.file (packed : Packed erasesize g nodes) (four : 4 ∣ erasesize)
    (path : List UInt8) (file : File) (opens : file.opens) (parent : Nat)
    (short : (basename path).length < 256)
    (ok : addFile crc erasesize g path (some file) parent = some g') : ∃ more,
      Packed erasesize g' (nodes ++ more) ∧ more.filter isDirent =
        [direntNode crc parent g.lastVersion (g.lastIno + 1) 8 (basename path)] ∧
      Pieces (g.lastIno + 1) (g.lastVersion + 1) 0 (more.filter isInode) file.content ∧
      (g'.spot, (more.filter isInode).length) =
        (g.spot.dirent erasesize (basename path).length).cut erasesize (file.content.length + 1)
          file.content.length := by
  simp only [addFile, opens, Bool.not_true, Bool.false_eq_true, if_false, Option.bind_eq_bind,
    Option.bind_eq_some_iff, Prod.exists] at ok
  obtain ⟨g₁, ino, dirent, chunks⟩ := ok
  have large := addDirent_large _ _ _ _ dirent
  obtain ⟨rfl, -, lastVersion, spot, marks, plain, first⟩ :=
    packed.dirent four large (basename path) 8 parent ino short dirent
  obtain ⟨more, packed', noDirent, pieces, rest⟩ :=
    first.chunks file.stat _ _ 0 file.content four large chunks
  have fields := direntNode_fields crc parent g.lastVersion (g.lastIno + 1) 8 (basename path) short
  refine ⟨marks ++ [direntNode crc parent g.lastVersion (g.lastIno + 1) 8 (basename path)] ++ more,
    ?_, ?_, ?_, ?_⟩
  · simpa only [List.append_assoc] using packed'
  · simp [(plain_filter marks plain).1, noDirent, fields.dirent]
  · simpa [(plain_filter marks plain).2, fields.not_inode, lastVersion] using pieces
  · rw [← spot]
    simpa [(plain_filter marks plain).2, fields.not_inode] using rest

theorem packed_empty (large : 12 < erasesize) (ino version : Nat) :
    Packed erasesize ⟨[], ino, version, []⟩ [] :=
  ⟨⟨[], [], rfl, rfl, rfl, by simp⟩, by simp, Nat.lt_of_le_of_lt (Nat.zero_le _) large⟩

end Ops

section Whole

variable {crc : List UInt8 → Nat} {erasesize : Nat} (st : Scan) {dir path : List UInt8} {file : File}
variable {out : List (List UInt8)}

/-- The number that the first new inode gets. -/
def Scan.nextIno : Nat := (if st.lastIno = 0 then 1 else st.lastIno) + 1

theorem generate_found (four : 4 ∣ erasesize) (found : st.targetIno ≠ 0) (opens : file.opens)
    (short : (basename path).length < 256)
    (ok : generate crc erasesize st dir path (some file) = some out) : ∃ full,
      Blocks erasesize out full ∧ full.flatten.filter isDirent =
        [direntNode crc st.targetIno st.lastVersion st.nextIno 8 (basename path)] ∧
      Pieces st.nextIno (st.lastVersion + 1) 0 (full.flatten.filter isInode) file.content ∧
      (out.length, (full.flatten.filter isInode).length) =
        sizes erasesize none (basename path).length file.content.length := by
  unfold generate at ok
  rw [if_neg found, Option.bind_eq_bind, Option.bind_some, Option.bind_eq_bind,
    Option.bind_eq_some_iff] at ok
  obtain ⟨g, added, ok⟩ := ok
  have large : 12 < erasesize := by
    simp only [addFile, Option.bind_eq_bind, Option.bind_eq_some_iff, Prod.exists] at added
    obtain ⟨g₁, ino, dirent, -⟩ := added
    exact addDirent_large _ _ _ _ dirent
  obtain ⟨more, packed, dirents, pieces, spot⟩ :=
    (packed_empty large _ _).file four path file opens st.targetIno short added
  obtain ⟨full, blocks, flatten, count⟩ := packed.finish large out ok
  rw [List.nil_append] at flatten
  subst flatten
  refine ⟨full, blocks, dirents, pieces, ?_⟩
  rw [sizes, Option.elim_none]
  dsimp only
  have start : (⟨[], if st.lastIno = 0 then 1 else st.lastIno, st.lastVersion, []⟩ : Gen).spot =
      ⟨0, 0⟩ := rfl
  rw [start] at spot
  rw [← spot, count]

/-- The directory comes first where it is not there yet. -/
theorem generate_made (four : 4 ∣ erasesize) (missing : st.targetIno = 0) (opens : file.opens)
    (short : (basename path).length < 256) (shortDir : dir.length < 256)
    (ok : generate crc erasesize st dir path (some file) = some out) : ∃ full pieces,
      Blocks erasesize out full ∧ full.flatten.filter isDirent =
        [direntNode crc 1 st.lastVersion st.nextIno 4 dir,
          direntNode crc st.nextIno (st.lastVersion + 1) (st.nextIno + 2) 8 (basename path)] ∧
      full.flatten.filter isInode = inodeRaw crc dirStat st.nextIno 1 0 0 0 :: pieces ∧
      Pieces (st.nextIno + 2) (st.lastVersion + 2) 0 pieces file.content ∧
      (out.length, pieces.length) =
        sizes erasesize (some dir.length) (basename path).length file.content.length := by
  unfold generate at ok
  rw [if_pos missing, Option.bind_eq_bind, Option.bind_eq_some_iff] at ok
  obtain ⟨⟨g₁, ino⟩, directory, ok⟩ := ok
  dsimp only at ok
  rw [Option.bind_eq_bind, Option.bind_eq_some_iff] at ok
  obtain ⟨g, added, ok⟩ := ok
  have large : 12 < erasesize := by
    simp only [addDir, Option.bind_eq_bind, Option.bind_eq_some_iff, Prod.exists] at directory
    obtain ⟨g₂, ino', dirent, -⟩ := directory
    exact addDirent_large _ _ _ _ dirent
  obtain ⟨rfl, lastIno, lastVersion, spot₁, marks, marks', plain, plain', packed₁⟩ :=
    (packed_empty large _ _).dir four large dir 1 ino shortDir directory
  obtain ⟨more, packed, dirents, pieces, spot⟩ :=
    packed₁.file four path file opens _ short added
  obtain ⟨full, blocks, flatten, count⟩ := packed.finish large out ok
  dsimp only at lastIno lastVersion spot₁
  have nextIno : (if st.lastIno = 0 then 1 else st.lastIno) + 1 = st.nextIno := rfl
  rw [lastIno, lastVersion] at dirents pieces
  rw [nextIno] at flatten dirents
  have dirFields := direntNode_fields crc 1 st.lastVersion st.nextIno 4 dir shortDir
  have inodeFields := @dirInode_fields crc st.nextIno
  refine ⟨full, more.filter isInode, blocks, ?_, ?_, pieces, ?_⟩
  · rw [← flatten]
    simp [(plain_filter marks plain).1, (plain_filter marks' plain').1, dirFields.dirent,
      inodeFields.not_dirent, dirents]
    rfl
  · rw [← flatten]
    simp [(plain_filter marks plain).2, (plain_filter marks' plain').2, dirFields.not_inode,
      inodeFields.inode]
  · rw [sizes, Option.elim_some]
    dsimp only
    have start : (⟨[], if st.lastIno = 0 then 1 else st.lastIno, st.lastVersion, []⟩ : Gen).spot =
        ⟨0, 0⟩ := rfl
    rw [start] at spot₁
    rw [← spot₁, ← spot, count]

end Whole

end Filogic.Jffs2
