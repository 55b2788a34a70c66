import Filogic.Snand.Device

/-! `mtk-snand-ecc.c`: the decoder's report and the software repair of erased sectors. -/

namespace Filogic.Snand
open Lib

/-- `hweight8` -/
def hweight8 (b : UInt8) : Nat := (List.range 8).countP (fun i => b.toNat.testBit i)

def hweight32 (word : List UInt8) : Nat := (word.map hweight8).sum

/-- The byte loops of `mtk_ecc_check_buf_bitflips`; `none` is `-EBADMSG`. -/
def checkBytes (strength : Nat) : List UInt8 → Nat → Option Nat
  | [], bitflips => some bitflips
  | b :: rest, bitflips =>
      let flips := bitflips + (8 - hweight8 b)
      if flips > strength then none else checkBytes strength rest flips

/-- Its word loop, over `words` aligned words; it also returns what is left of the buffer. -/
def checkWords (strength : Nat) : Nat → List UInt8 → Nat → Option (Nat × List UInt8)
  | 0, buf, bitflips => some (bitflips, buf)
  | words + 1, buf, bitflips =>
      let d := buf.take 4
      let flips := if d = [0xff, 0xff, 0xff, 0xff] then bitflips else bitflips + (32 - hweight32 d)
      if flips > strength then none else checkWords strength words (buf.drop 4) flips

/-- `mtk_ecc_check_buf_bitflips` on a buffer at address `addr`. -/
def checkBufBitflips (strength addr : Nat) (buf : List UInt8) (bitflips : Nat) : Option Nat := do
  let head := min buf.length ((4 - addr % 4) % 4)
  let bitflips ← checkBytes strength (buf.take head) bitflips
  let (bitflips, tail) ← checkWords strength ((buf.length - head) / 4) (buf.drop head) bitflips
  checkBytes strength tail bitflips

/-- `mtk_ecc_check_parity_bitflips`; the bits past the last full byte are counted one by one. -/
def checkParityBitflips (strength addr : Nat) (buf : Bytes) (start bits bitflips : Nat) :
    Option Nat := do
  let len := bits / 8
  let flips ← checkBufBitflips strength (addr + start) (buf.slice start len) bitflips
  if bits % 8 = 0 then
    some flips
  else do
    let b := buf (start + len)
    let flips := flips + (List.range (bits % 8)).countP (fun i => !b.toNat.testBit i)
    if flips > strength then none else some flips

/-- `mtk_ecc_reset_parity` -/
def resetParity (buf : Bytes) (start bits : Nat) : Bytes :=
  let cleared := buf.memset start 0xff (bits / 8)
  if bits % 8 = 0 then
    cleared
  else fun k =>
    if k = start + bits / 8 then cleared k ||| UInt8.ofNat (2 ^ (bits % 8) - 1) else cleared k

namespace Geometry

/-- Bits of parity per sector: `ecc_strength * fls(sector_size * 8)`. -/
def eccBits (g : Geometry) : Nat := g.eccStrength * (g.soc.sectorSize * 8).size

/-- Where `page_cache` keeps a sector's data, its FDM and the parity read back for it. -/
def dataPtr (g : Geometry) (sect : Nat) : Nat := sect * g.soc.sectorSize
def fdmPtr (g : Geometry) (sect : Nat) : Nat := g.writesize + sect * g.soc.fdmSize
def eccPtr (g : Geometry) (sect : Nat) : Nat :=
  g.writesize + (g.eccSteps * g.soc.fdmSize + sect * g.eccBytes)

end Geometry

/-- The bitflips of a sector taken as erased; `none` is `-EBADMSG`. -/
def emptySectorBitflips (g : Geometry) (cache : Bytes) (sect : Nat) : Option Nat := do
  let flips ← checkBufBitflips g.eccStrength (g.pageCacheAddr + g.dataPtr sect)
    (cache.slice (g.dataPtr sect) g.soc.sectorSize) 0
  let flips ← checkBufBitflips g.eccStrength (g.pageCacheAddr + g.fdmPtr sect)
    (cache.slice (g.fdmPtr sect) g.soc.fdmEccSize) flips
  checkParityBitflips g.eccStrength g.pageCacheAddr cache (g.eccPtr sect) g.eccBits flips

/-- `mtk_ecc_fixup_empty_sector`: its return code and the page cache it leaves. -/
def fixupEmptySector (g : Geometry) (sect : Nat) (cache : Bytes) : Int × Bytes :=
  match emptySectorBitflips g cache sect with
  | none => (-ebadmsg, cache)
  | some 0 => (0, cache)
  | some (flips + 1) =>
      let cleared := (cache.memset (g.dataPtr sect) 0xff g.soc.sectorSize).memset
        (g.fdmPtr sect) 0xff g.soc.fdmEccSize
      ((flips + 1 : Nat), resetParity cleared (g.eccPtr sect) g.eccBits)

/-- `mtk_ecc_check_decode_error`: the five-bit error count of each sector. -/
def checkDecodeError (g : Geometry) (decEnum : Nat → Nat) (sectBf : Nat → Int) : Nat → Int :=
  fun i =>
    if i < g.eccSteps then
      if decEnum i % 32 ≤ g.eccStrength then (decEnum i % 32 : Nat) else -1
    else sectBf i

theorem checkBytes_erased (strength bitflips : Nat) (buf : List UInt8)
    (low : bitflips ≤ strength) (erased : ∀ b ∈ buf, b = 0xff) :
    checkBytes strength buf bitflips = some bitflips := by
  induction buf with
  | nil => rfl
  | cons b rest ih =>
    have full : b = 0xff := erased b (by simp)
    have none_lost : 8 - hweight8 0xff = 0 := by decide
    rw [checkBytes, full]
    simp only [none_lost, Nat.add_zero]
    rw [if_neg (by omega)]
    exact ih (fun c member => erased c (by simp [member]))

theorem checkWords_erased (strength words bitflips : Nat) (buf : List UInt8)
    (low : bitflips ≤ strength) (long : 4 * words ≤ buf.length) (erased : ∀ b ∈ buf, b = 0xff) :
    checkWords strength words buf bitflips = some (bitflips, buf.drop (4 * words)) := by
  induction words generalizing buf with
  | zero => simp [checkWords]
  | succ words ih =>
    have word : buf.take 4 = [0xff, 0xff, 0xff, 0xff] := by
      have : buf.take 4 = List.replicate 4 0xff := by
        rw [List.eq_replicate_iff]
        refine ⟨by rw [List.length_take]; omega, ?_⟩
        exact fun b member => erased b (List.mem_of_mem_take member)
      simpa using this
    rw [checkWords, word]
    simp only [if_true]
    rw [if_neg (by omega), ih (buf.drop 4) (by rw [List.length_drop]; omega)
      (fun b member => erased b (List.mem_of_mem_drop member)), List.drop_drop]
    congr 3
    omega

theorem checkBufBitflips_erased (strength addr bitflips : Nat) (buf : List UInt8)
    (low : bitflips ≤ strength) (erased : ∀ b ∈ buf, b = 0xff) :
    checkBufBitflips strength addr buf bitflips = some bitflips := by
  have dropped (n : Nat) : ∀ b ∈ buf.drop n, b = 0xff :=
    fun b member => erased b (List.mem_of_mem_drop member)
  rw [checkBufBitflips, checkBytes_erased strength bitflips _ low
    (fun b member => erased b (List.mem_of_mem_take member))]
  simp only [Option.bind_eq_bind, Option.bind_some]
  rw [checkWords_erased strength _ bitflips _ low (by rw [List.length_drop]; omega) (dropped _)]
  simp only [Option.bind_some, List.drop_drop]
  exact checkBytes_erased strength bitflips _ low (dropped _)

/-- An erased parity area, seen through every bit that counts. -/
theorem checkParityBitflips_erased (strength addr start bits bitflips : Nat) (buf : Bytes)
    (low : bitflips ≤ strength) (erased : ∀ k, k < (bits + 7) / 8 → buf (start + k) = 0xff) :
    checkParityBitflips strength addr buf start bits bitflips = some bitflips := by
  have whole : ∀ b ∈ buf.slice start (bits / 8), b = 0xff := by
    rw [Bytes.slice_eq_replicate buf start (bits / 8) 0xff (fun k lt => erased k (by omega))]
    exact fun b member => List.eq_of_mem_replicate member
  rw [checkParityBitflips, checkBufBitflips_erased strength _ bitflips _ low whole]
  simp only [Option.bind_eq_bind, Option.bind_some]
  by_cases full : bits % 8 = 0
  · rw [if_pos full]
  · have last : buf (start + bits / 8) = 0xff := erased _ (by omega)
    have ones : ∀ n < 8, (List.range n).countP
        (fun i => !(0xff : UInt8).toNat.testBit i) = 0 := by decide
    rw [if_neg full, last, ones (bits % 8) (by omega), Nat.add_zero, if_neg (by omega)]

end Filogic.Snand
