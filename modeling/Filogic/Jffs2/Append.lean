import Filogic.Jffs2.Nodes
import Filogic.Mtd.Writer

/-! `jffs2.c`: `mtd_write_jffs2`, which looks through the nodes of a partition, generates those of a new
file and writes them where the old ones end. -/

namespace Filogic.Jffs2
open Lib Mtd

/-- `target_ino`, `last_ino` and `last_version` -/
structure Scan where
  targetIno : Nat
  lastIno : Nat
  lastVersion : Nat

section Scanning

/-- `!strncmp(a, b, n)` of strings that end at a zero or at the end of the list. -/
def sameStart : Nat → List UInt8 → List UInt8 → Bool
  | 0, _, _ => true
  | n + 1, a, b =>
      if a.headD 0 ≠ b.headD 0 then false
      else if a.headD 0 = 0 then true
      else sameStart n a.tail b.tail

variable (dir : List UInt8)

/-- One node of `mtd_parse_jffs2data`, which the bytes start with. -/
def scanNode (st : Scan) (bytes : List UInt8) : Scan :=
  if isDirent bytes then
    { targetIno :=
        if dir ≠ [] ∧ pino bytes = 1 ∧ sameStart (nsize bytes) (bytes.drop 40) dir then
          direntIno bytes
        else st.targetIno
      lastIno := max st.lastIno (direntIno bytes)
      lastVersion := max st.lastVersion (version bytes) }
  else st

/-- `mtd_parse_jffs2data` -/
def parseData : Nat → List UInt8 → Scan → Scan
  | 0, _, st => st
  | fuel + 1, bytes, st =>
      if magic bytes = 0x1985 then
        parseData fuel (bytes.drop (padLen (totlen bytes))) (scanNode dir st bytes)
      else st

/-- The loop of `mtd_write_jffs2` over the blocks, of which `left` are there from `b` on; it ends with
the first block without the magic number. -/
def scanBlocks (m : MtdInfo) (data : Bytes) : Nat → Nat → Scan → Option (Nat × Scan)
  | 0, _, _ => none
  | left + 1, b, st =>
      let bytes := data.slice (b * m.erasesize) m.erasesize
      if magic bytes = 0x8519 then none
      else if magic bytes ≠ 0x1985 then some (b, st)
      else scanBlocks m data left (b + 1) (parseData dir m.erasesize bytes st)

end Scanning

/-- The first `ofs` bytes of `buf`, the counters, and the blocks handed to the flash so far. -/
structure Gen where
  buf : List UInt8
  lastIno : Nat
  lastVersion : Nat
  out : List (List UInt8)

/-- A file that `stat` finds. -/
structure File where
  stat : Stat
  opens : Bool
  content : List UInt8

section Generating

variable (crc : List UInt8 → Nat) (erasesize : Nat)

/-- `pad`; `none` stands for a buffer that overflows. -/
def pad (g : Gen) (size : Nat) : Option Gen :=
  if g.buf.length % size = 0 ∧ g.buf.length < erasesize then some g
  else
    let buf :=
      if g.buf.length < erasesize then
        g.buf ++ List.replicate (size - g.buf.length % size) 0xff
      else g.buf
    if buf.length > erasesize then none
    else if buf.length % erasesize = 0 then some { g with buf := [], out := g.out ++ [buf] }
    else some { g with buf := buf }

/-- Put bytes behind those in the buffer. -/
def put (g : Gen) (bytes : List UInt8) : Option Gen :=
  if g.buf.length + bytes.length > erasesize then none
  else some { g with buf := g.buf ++ bytes }

/-- `prep_eraseblock` -/
def prepEraseblock (g : Gen) : Option Gen :=
  if g.buf.length > 0 then some g else put erasesize g cleanmarker

/-- `add_data` -/
def addData (g : Gen) (bytes : List UInt8) : Option Gen :=
  if g.buf.length + bytes.length > erasesize then do
    let g ← pad erasesize g erasesize
    let g ← prepEraseblock erasesize g
    put erasesize g bytes
  else put erasesize g bytes

/-- `add_dirent`, with the number of its inode. `ofs - erasesize` is negative, which makes it large as a
`size_t`, as long as the buffer is not full. -/
def addDirent (g : Gen) (name : List UInt8) (type parent : Nat) : Option (Gen × Nat) := do
  let g ←
    if erasesize ≤ g.buf.length ∧ g.buf.length - erasesize < 40 + name.length then
      pad erasesize g erasesize
    else some g
  let g ← prepEraseblock erasesize g
  let ino := g.lastIno + 1
  let node := direntNode crc parent g.lastVersion ino type name
  let _ ← put erasesize g node
  -- `de->nsize` is a byte, by which `ofs` moves on
  let g ← put erasesize g (node.take (40 + name.length % 256))
  let g ← pad erasesize { g with lastIno := g.lastIno + 2, lastVersion := g.lastVersion + 1 } 4
  return (g, ino)

/-- `S_IFDIR | 0755` -/
def dirStat : Stat := ⟨0x41ed, 0, 0, 0, 0⟩

/-- `add_dir` -/
def addDir (g : Gen) (name : List UInt8) (parent : Nat) : Option (Gen × Nat) := do
  let (g, ino) ← addDirent crc erasesize g name 4 parent
  let g ←
    if erasesize - g.buf.length % erasesize < 68 then pad erasesize g erasesize else some g
  let g ← prepEraseblock erasesize g
  let g ← addData erasesize g (inodeRaw crc dirStat ino 1 0 0 0)
  let g ← pad erasesize g 4
  return (g, ino)

/-- The loop of `add_file` that looks for room; `none` also stands for one that never ends. -/
def makeRoom (g : Gen) : Option Gen :=
  if erasesize - g.buf.length % erasesize > 68 + 128 then some g
  else do
    let g ← pad erasesize g erasesize
    let g ← prepEraseblock erasesize g
    if erasesize - g.buf.length % erasesize > 68 + 128 then some g else none

/-- The loop of `add_file` over the content, from `offset` on. -/
def addChunks (st : Stat) (ino : Nat) : Nat → Gen → Nat → List UInt8 → Option Gen
  | 0, _, _, _ => none
  | fuel + 1, g, offset, content => do
      let g ← makeRoom erasesize g
      let chunk := content.take (min (erasesize - g.buf.length % erasesize - 68) 4096)
      if chunk = [] then some g
      else
        let raw := inodeRaw crc st ino (g.lastVersion + 1) offset (crc chunk) chunk.length
        let g ← addData erasesize { g with lastVersion := g.lastVersion + 1 } raw
        let g ← addData erasesize g chunk
        let g ← pad erasesize g 4
        let g ← prepEraseblock erasesize g
        addChunks st ino fuel g (offset + chunk.length) (content.drop chunk.length)

/-- What follows the last slash. -/
def basename (path : List UInt8) : List UInt8 := (path.reverse.takeWhile (· ≠ 0x2f)).reverse

/-- `add_file`; a file that is not there, or cannot be opened, ends it without an error. -/
def addFile (g : Gen) (path : List UInt8) (file : Option File) (parent : Nat) : Option Gen :=
  match file with
  | none => some g
  | some file => do
      let (g, ino) ← addDirent crc erasesize g (basename path) 8 parent
      if !file.opens then some g
      else addChunks crc erasesize file.stat ino (file.content.length + 1) g 0 file.content

/-- What `mtd_write_jffs2` generates from what it found. -/
def generate (st : Scan) (dir path : List UInt8) (file : Option File) :
    Option (List (List UInt8)) := do
  let g : Gen := ⟨[], if st.lastIno = 0 then 1 else st.lastIno, st.lastVersion, []⟩
  let (g, target) ←
    if st.targetIno = 0 then addDir crc erasesize g dir 1 else some (g, st.targetIno)
  let g ← addFile crc erasesize g path file target
  let g ← pad erasesize g erasesize
  let g ← addData erasesize g jffs2Eof
  let g ← pad erasesize g erasesize
  return g.out

end Generating

section Flashing

/-- The flash, `mtdofs`, and the file pointer. -/
structure Sink where
  flash : Flash
  mtdofs : Nat
  pos : Nat

/-- The loop of `pad` over bad blocks; asking about one past the end ends the program. -/
def skipBad (m : MtdInfo) : Nat → Sink → Option Sink
  | 0, _ => none
  | fuel + 1, s =>
      match memGetBadBlock m s.mtdofs s.flash with
      | none => none
      | some true =>
          if s.mtdofs < m.mtdsize then
            skipBad m fuel { s with mtdofs := s.mtdofs + m.erasesize, pos := s.pos + m.erasesize }
          else some s
      | some false => some s

/-- What `pad` does with a full block; neither the erase nor the write is checked. -/
def flushBlock (m : MtdInfo) (s : Sink) (block : List UInt8) : Option Sink := do
  let s ← skipBad m (m.mtdsize / m.erasesize + 1) s
  let flash := (memErase m s.mtdofs s.flash).2
  let (_, written, flash) := writeAt m s.pos block flash
  return { flash := flash, mtdofs := s.mtdofs + m.erasesize, pos := s.pos + written }

/-- `mtd_write_jffs2`; `none` unless it returns `0`. -/
def mtdWriteJffs2 (crc : List UInt8 → Nat) (m : MtdInfo) (f : Flash) (path dir : List UInt8)
    (file : Option File) : Option Flash := do
  let (b, st) ← scanBlocks dir m f.data (m.mtdsize / m.erasesize) 0
    ⟨if dir = [] then 1 else 0, 0, 0⟩
  let out ← generate crc m.erasesize st dir path file
  let s ← out.foldlM (flushBlock m) ⟨f, b * m.erasesize, b * m.erasesize⟩
  return s.flash

end Flashing

end Filogic.Jffs2
