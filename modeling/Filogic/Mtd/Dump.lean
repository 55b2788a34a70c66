import Filogic.Mtd.Placed

/-! `mtd_dump` and `mtd_verify`, and which bytes of the partition they read. -/

namespace Filogic.Mtd
open Lib

section Code

variable (dev : Device)

/-- `read` at a file position: what is there, to the end of the partition -/
def readAt (pos len : Nat) : List UInt8 :=
  dev.flash.data.slice pos (min len (dev.mtd.mtdsize - pos))

/-- The loop of `mtd_dump`, for `left` passes at most: what it writes to the standard output. A
block is looked up by `offset`, which counts from zero wherever the file position starts. -/
def dumpFrom : (left offset pos size : Nat) → List UInt8
  | 0, _, _, _ => []
  | left + 1, offset, pos, size =>
    let len := if dev.mtd.erasesize < size then dev.mtd.erasesize else size
    let buf := readAt dev pos len
    if buf.length = 0 ∨ buf.length ≠ len then []
    else
      match memGetBadBlock dev.mtd offset dev.flash with
      | none => []
      | some true =>
        if 0 < size then dumpFrom left (offset + buf.length) (pos + buf.length) size else []
      | some false =>
        buf ++
          if 0 < size - buf.length then
            dumpFrom left (offset + buf.length) (pos + buf.length) (size - buf.length)
          else []

/-- `mtd_dump`; each pass moves the file position on. -/
def mtdDump (partOffset size : Nat) : List UInt8 :=
  dumpFrom dev (dev.mtd.mtdsize + 1) 0 partOffset (if size = 0 then dev.mtd.mtdsize else size)

/-- The loop of `mtd_verify`, for `left` passes at most: the bytes that are hashed. -/
def verifyFrom : (left pos size : Nat) → List UInt8
  | 0, _, _ => []
  | left + 1, pos, size =>
    let buf := readAt dev pos (if 256 < size then 256 else size)
    if buf.length = 0 then []
    else
      buf ++
        if 0 < size - buf.length then verifyFrom left (pos + buf.length) (size - buf.length) else []

/-- `mtd_verify` with the digest of `md5.c`: whether it says "Success", or "Failed"; it returns 0
either way. -/
def mtdVerify (md5 : List UInt8 → Fin 4 → UInt32) (file : List UInt8) : Bool :=
  md5 file = md5 (verifyFrom dev (dev.mtd.mtdsize + 1) 0 file.length)

/-- The bytes from a logical offset on, bad blocks skipped. -/
def stored (partOffset n : Nat) : List UInt8 := ((logicalBytes [dev]).drop partOffset).take n

def Device.holding (data : Bytes) : Device := { dev with flash := { dev.flash with data := data } }

end Code

section Places

variable (m : MtdInfo) (bad : Nat → Bool)

/-- How many blocks lie between the good one number `q` and the one before it, or `t`. -/
def gap : (t : Nat) → (good : List Nat) → (q : Nat) → Nat
  | _, [], _ => 0
  | t, b :: _, 0 => b - t
  | _, b :: good, q + 1 => gap (b + 1) good q

end Places

section Reading

variable (dev : Device)

end Reading

section Blocks

variable (m : MtdInfo) (bad : Nat → Bool)

/-- Blocks that are good from `t` on, and blocks of which as many bytes are wanted: the good ones
lie there, `p` blocks before, and what is read of the last one begins where a pass begins. -/
structure InStep (p size t : Nat) (good wanted : List Nat) : Prop where
  blocks : ∀ j, j * m.erasesize < size → ∃ b, good[j]? = some b ∧ wanted[j]? = some (b + p)
  tail : size % m.erasesize ≠ 0 →
    size % m.erasesize ∣ gap t good (size / m.erasesize) * m.erasesize

end Blocks

section Devices

variable (dev : Device)

/-- What the partition holds at a logical offset is what `mtd_dump` puts out there, whatever it is,
and from the start on what `mtd_verify` compares with. -/
structure ReadsBack (partOffset n : Nat) : Prop where
  dumped : ∀ data, mtdDump (dev.holding data) partOffset n = stored (dev.holding data) partOffset n
  verified : partOffset = 0 → ∀ data md5 file, file.length = n →
    (mtdVerify (dev.holding data) md5 file = true ↔ md5 file = md5 (stored (dev.holding data) 0 n))

end Devices

end Filogic.Mtd
