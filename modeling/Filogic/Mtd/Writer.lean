import Filogic.Lib.Bytes

/-! `mtd.c`: `mtd_write` without the options that append JFFS2 data, as a machine that takes a
step for each pass of its inner loops, and the NAND partitions that it writes to. -/

namespace Filogic.Mtd
open Lib

/-- What the kernel answers to an erase or a write. -/
inductive Answer where
  | ok | eio | other
  deriving DecidableEq, Repr

/-- A partition on NAND flash: its geometry, what the kernel answers for each of its blocks, and
what a write that fails leaves there. -/
structure MtdInfo where
  mtdsize : Nat
  erasesize : Nat
  writesize : Nat
  eraseAnswer : Nat → Answer
  writeAnswer : Nat → Answer
  setBadFails : Nat → Bool
  torn : Bytes
  erasesize_pos : 0 < erasesize
  erasesize_dvd : erasesize ∣ mtdsize
  writesize_pos : 0 < writesize
  writesize_dvd : writesize ∣ erasesize

/-- The content of a partition and its bad blocks; the blocks erased in this run, and the writes
that succeeded with the block that each went to. -/
structure Flash where
  data : Bytes
  bad : Nat → Bool
  erased : List Nat
  writes : List (Nat × List UInt8)

structure Device where
  mtd : MtdInfo
  flash : Flash

/-- A partition before the run. -/
structure Partition where
  mtd : MtdInfo
  data : Bytes
  bad : Nat → Bool

def Partition.device (p : Partition) : Device :=
  { mtd := p.mtd, flash := { data := p.data, bad := p.bad, erased := [], writes := [] } }

/-- `MEMGETBADBLOCK`, refused past the end -/
def memGetBadBlock (m : MtdInfo) (o : Nat) (f : Flash) : Option Bool :=
  if o < m.mtdsize then some (f.bad (o / m.erasesize)) else none

/-- `MEMSETBADBLOCK` -/
def memSetBadBlock (m : MtdInfo) (o : Nat) (f : Flash) : Option Flash :=
  if o < m.mtdsize ∧ m.setBadFails (o / m.erasesize) = false then
    some { f with bad := Function.update f.bad (o / m.erasesize) true }
  else none

/-- `MEMERASE` of one block -/
def memErase (m : MtdInfo) (o : Nat) (f : Flash) : Answer × Flash :=
  if o < m.mtdsize then
    match m.eraseAnswer (o / m.erasesize) with
    | .ok => (.ok, { f with
        data := f.data.memset o 0xff m.erasesize, erased := o / m.erasesize :: f.erased })
    | answer => (answer, f)
  else (.other, f)

/-- `write`, for the block that it starts in, and how much was written -/
def writeAt (m : MtdInfo) (pos : Nat) (bytes : List UInt8) (f : Flash) : Answer × Nat × Flash :=
  if pos < m.mtdsize then
    match m.writeAnswer (pos / m.erasesize) with
    | .ok =>
      let bytes := bytes.take (m.mtdsize - pos)
      (.ok, bytes.length, { f with
        data := f.data.splice pos bytes, writes := f.writes ++ [(pos / m.erasesize, bytes)] })
    | answer => (answer, 0, { f with data := f.data.memcpy pos m.torn pos bytes.length })
  else (.other, 0, f)

/-- Where the code is: at the head of the `for` loop, or at the label `rewrite`. -/
inductive Label where
  | next | rewrite
  deriving DecidableEq, Repr

/-- The variables of `mtd_write`, with the open partition, the file position in it, those that
follow and those already closed; `buf` holds `buflen` bytes, and `image` is what is left of the
image file. -/
structure Writer where
  label : Label
  dev : Device
  pos : Nat
  following : List Device
  closed : List Device
  buf : List UInt8
  image : List UInt8
  w : Nat
  e : Nat
  skipBadBlocks : Nat
  physPartOff : Nat
  curOff : Nat
  offset : Nat

inductive Status where
  | running (s : Writer)
  | returned (devices : List Device)
  | exited

/-- The loop that skips to the logical offset, for `left` blocks at most: `cur_off`,
`phy_part_off` and `skip_bad_blocks`. -/
def seek (m : MtdInfo) (f : Flash) (partOffset : Nat) : Nat → Nat → Nat → Nat → Nat × Nat × Nat
  | 0, cur, phys, skip => (cur, phys, skip)
  | left + 1, cur, phys, skip =>
    if m.mtdsize ≤ phys then (cur, phys, skip)
    else if cur = partOffset then (cur, phys, skip)
    else if f.bad (phys / m.erasesize) = false then
      seek m f partOffset left (cur + m.erasesize) (phys + m.erasesize) skip
    else seek m f partOffset left cur (phys + m.erasesize) (skip + m.erasesize)

section Code

-- the options `-n` and `-p`, and what lies behind the buffer in memory
variable (noErase : Bool) (partOffset : Nat) (behind : List UInt8)

/-- From `resume` to the `for` loop -/
def resume (s : Writer) : Status :=
  let m := s.dev.mtd
  if partOffset = 0 then .running { s with label := .next, pos := 0, w := 0, e := 0 }
  else if partOffset % m.erasesize ≠ 0 then .exited
  else
    let (cur, phys, skip) := seek m s.dev.flash partOffset (m.mtdsize / m.erasesize)
      s.curOff s.physPartOff s.skipBadBlocks
    if phys = m.mtdsize then .exited
    else .running { s with
      label := .next, pos := phys, w := 0, e := 0
      curOff := cur, physPartOff := phys, skipBadBlocks := skip }

/-- `buf + offset`, of which `len` bytes are written -/
def fromBuf (s : Writer) (len : Nat) : List UInt8 := ((s.buf ++ behind).drop s.offset).take len

/-- Fill the buffer from the image, and pad what there is to a page. -/
def fill (s : Writer) : Writer :=
  let room := s.dev.mtd.erasesize - s.buf.length
  { s with buf := s.buf ++ s.image.take room, image := s.image.drop room }

def pad (s : Writer) : Writer :=
  let m := s.dev.mtd
  if s.buf.length < m.erasesize then
    let alignPage := (s.buf.length + m.writesize - 1) / m.writesize * m.writesize
    { s with buf := s.buf ++ List.replicate (alignPage - s.buf.length) 0xff }
  else s

/-- Move over the block at `e`, with the file pointer. -/
def skipBlock (s : Writer) : Writer :=
  let m := s.dev.mtd
  { s with
    skipBadBlocks := s.skipBadBlocks + m.erasesize
    e := s.e + m.erasesize
    pos := s.pos + m.erasesize }

/-- Go on with the next partition in the list. -/
def nextDevice (s : Writer) : Status :=
  match s.following with
  | [] => .exited
  | dev :: following =>
    let flushed :=
      if s.w < s.e then
        { s with
          dev := { s.dev with
            flash := (writeAt s.dev.mtd s.pos (fromBuf behind s (s.e - s.w)) s.dev.flash).2.2 }
          offset := s.e - s.w }
      else s
    resume partOffset { flushed with
      w := 0, e := 0, physPartOff := 0
      closed := flushed.closed ++ [flushed.dev], dev := dev, following := following }

/-- One pass of the loop that erases -/
def eraseNext (s : Writer) : Status :=
  let m := s.dev.mtd
  match memGetBadBlock m (s.e + s.physPartOff) s.dev.flash with
  | none => .exited
  | some true => .running (skipBlock s)
  | some false =>
    match memErase m (s.e + s.physPartOff) s.dev.flash with
    | (.ok, flash) =>
      let s := { s with dev := { s.dev with flash := flash }, e := s.e + m.erasesize }
      if m.mtdsize < s.e + s.physPartOff then .exited else .running s
    | (.eio, flash) =>
      match memSetBadBlock m (s.e + s.physPartOff) flash with
      | none => .exited
      | some flash =>
        let s := { s with dev := { s.dev with flash := flash } }
        if s.e + s.physPartOff + m.erasesize ≤ m.mtdsize then .running (skipBlock s)
        else nextDevice partOffset behind s
    | (.other, _) => .exited

/-- The write after it -/
def writeBuf (s : Writer) : Status :=
  let m := s.dev.mtd
  match writeAt m s.pos (fromBuf behind s s.buf.length) s.dev.flash with
  | (.ok, written, flash) =>
    if written < s.buf.length then .exited
    else .running { s with
      label := .next, dev := { s.dev with flash := flash }, pos := s.pos + written
      w := s.w + s.buf.length, buf := [], offset := 0 }
  | (.eio, _, flash) =>
    -- `e - erasesize + phy_part_off` is refused when it is negative
    if s.e + s.physPartOff < m.erasesize then .exited
    else
      match memSetBadBlock m (s.e + s.physPartOff - m.erasesize) flash with
      | none => .exited
      | some flash => .running { s with
          dev := { s.dev with flash := flash }
          skipBadBlocks := s.skipBadBlocks + m.erasesize, pos := s.e + s.physPartOff }
  | (.other, _) => .exited

def step (s : Writer) : Status :=
  match s.label with
  | .next =>
    let s := fill s
    if s.buf = [] then .returned (s.closed ++ s.dev :: s.following)
    else .running { pad s with label := .rewrite }
  | .rewrite =>
    -- `w + buflen > e - skip_bad_blocks`
    if noErase = false ∧ s.e < s.w + s.buf.length + s.skipBadBlocks then
      eraseNext partOffset behind s
    else writeBuf behind s

def Status.step : Status → Status
  | .running s => Mtd.step noErase partOffset behind s
  | status => status

/-- The writer at `resume` for the first time; the first `ready` bytes of the image, a block at
most, are in the buffer already. -/
def starting (image : List UInt8) (ready : Nat) (first : Partition)
    (following : List Partition) : Writer :=
  { label := .next, dev := first.device, pos := 0
    following := following.map Partition.device, closed := []
    buf := image.take (min ready first.mtd.erasesize)
    image := image.drop (min ready first.mtd.erasesize)
    w := 0, e := 0, skipBadBlocks := 0, physPartOff := 0, curOff := 0, offset := 0 }

/-- `mtd_write` for a number of steps -/
def mtdWrite (image : List UInt8) (ready : Nat) (first : Partition) (following : List Partition)
    (steps : Nat) : Status :=
  (Status.step noErase partOffset behind)^[steps]
    (resume partOffset (starting image ready first following))

end Code

/-- The good blocks of a partition, in order. -/
def goodBlocks (dev : Device) : List Nat :=
  (List.range (dev.mtd.mtdsize / dev.mtd.erasesize)).filter (fun b => !dev.flash.bad b)

def blockBytes (dev : Device) (b : Nat) : List UInt8 :=
  dev.flash.data.slice (b * dev.mtd.erasesize) dev.mtd.erasesize

/-- What is read from the good blocks of the partitions in order. -/
def logicalBytes (devices : List Device) : List UInt8 :=
  devices.flatMap fun dev => (goodBlocks dev).flatMap (blockBytes dev)

/-- The good blocks of the partitions in order, and the writes, by partition and block. -/
def places (devices : List Device) : List (Nat × Nat) :=
  devices.zipIdx.flatMap fun dev => (goodBlocks dev.1).map (dev.2, ·)

def written (devices : List Device) : List ((Nat × Nat) × List UInt8) :=
  devices.zipIdx.flatMap fun dev => dev.1.flash.writes.map fun write => ((dev.2, write.1), write.2)

/-- The image, padded with `0xff` to a page. -/
def padded (writesize : Nat) (image : List UInt8) : List UInt8 :=
  image ++ List.replicate
    ((image.length + writesize - 1) / writesize * writesize - image.length) 0xff

/-- The image is read back from the good blocks; its bytes were written once and in order to these
blocks, each of them erased in this run. -/
structure Placed (m : MtdInfo) (partOffset : Nat) (image : List UInt8) (devices : List Device) :
    Prop where
  read : padded m.writesize image <+: (logicalBytes devices).drop partOffset
  bytes : (written devices).flatMap Prod.snd = padded m.writesize image
  order : (written devices).map Prod.fst =
    ((places devices).drop (partOffset / m.erasesize)).take (written devices).length
  erased : ∀ dev ∈ devices, ∀ write ∈ dev.flash.writes, write.1 ∈ dev.flash.erased

/-- What the seek to the logical offset leaves: `cur_off`, `phy_part_off`, `skip_bad_blocks`. -/
def sought (p : Partition) (partOffset : Nat) : Nat × Nat × Nat :=
  if partOffset = 0 then (0, 0, 0)
  else seek p.mtd p.device.flash partOffset (p.mtd.mtdsize / p.mtd.erasesize) 0 0 0

/-- A block that is bad, or turns bad when it is erased. -/
def Stops (p : Partition) (b : Nat) : Prop := p.bad b = true ∨ p.mtd.eraseAnswer b = .eio

/-- After such blocks, as many good ones follow in a row as are needed and were skipped before,
and no write to one of the first of them fails. -/
def ClearRun (p : Partition) (start skipped needed : Nat) : Prop :=
  ∃ b ≥ start, (∀ x, start ≤ x → x < b → Stops p x) ∧
    (∀ x, b ≤ x → x < b + needed + skipped → ¬Stops p x) ∧
    ∀ x, b ≤ x → x < b + needed → p.mtd.writeAnswer x ≠ .eio

/-- The first block that the loop that erases looks at. -/
def startBlock (p : Partition) (partOffset : Nat) : Nat :=
  (sought p partOffset).2.1 / p.mtd.erasesize

/-- How many bad blocks were skipped while seeking. -/
def passedBad (p : Partition) (partOffset : Nat) : Nat :=
  (sought p partOffset).2.2 / p.mtd.erasesize

/-- The blocks that the image takes. -/
def needed (p : Partition) (image : List UInt8) : Nat :=
  (image.length + p.mtd.erasesize - 1) / p.mtd.erasesize

/-- No bad block was skipped while seeking, or none is met once a block was erased. -/
def NoneAstray (p : Partition) (partOffset : Nat) (image : List UInt8) : Prop :=
  passedBad p partOffset = 0 ∨
    ClearRun p (startBlock p partOffset) (passedBad p partOffset) (needed p image)

end Filogic.Mtd
