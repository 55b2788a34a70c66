import Filogic.Snand.Image

/-! Reading a page on a working bus. In raw mode the page cache is the raw page; in
auto-format mode it is the raw page renamed, provided every sector carries its parity or is
erased. An erased sector the decoder rejects goes through the software repair unchanged. -/

namespace Filogic.Snand
open Lib

variable {g : Geometry}

/-- What a read leaves as it was. -/
structure Fetched (w w' : World) : Prop where
  cells_eq : w'.cells = w.cells
  die_eq : w'.die = w.die
  bus_eq : w'.bus = w.bus
  bufCache_eq : w'.bufCache = w.bufCache
  failBits_eq : w'.failBits = w.failBits

theorem Fetched.refl (w : World) : Fetched w w := ⟨rfl, rfl, rfl, rfl, rfl⟩

theorem Fetched.trans {a b c : World} (one : Fetched a b) (two : Fetched b c) : Fetched a c :=
  ⟨two.cells_eq.trans one.cells_eq, two.die_eq.trans one.die_eq, two.bus_eq.trans one.bus_eq,
    two.bufCache_eq.trans one.bufCache_eq, two.failBits_eq.trans one.failBits_eq⟩

theorem Fetched.steady {w w' : World} (fetched : Fetched w w') (steady : Steady w) : Steady w' :=
  ⟨fetched.bus_eq ▸ steady.reliable, fetched.failBits_eq ▸ steady.failBits⟩

/-- Data, protected FDM and parity of the sector are all 0xff. -/
def ErasedSector (g : Geometry) (raw : Bytes) (i : Nat) : Prop :=
  ∀ b ∈ sectorData g raw i ++ sectorFdm g raw i ++ sectorParity g raw i, b = 0xff

theorem carries_decode (ecc : EccEngine g) (raw : Bytes) (i : Nat) (carries : Carries g ecc raw i) :
    (decodeSector g ecc raw i).data = sectorData g raw i ∧
    (decodeSector g ecc raw i).fdm = sectorFdm g raw i ∧
    ((decodeSector g ecc raw i).errnum = 0 ∨
      (decodeSector g ecc raw i).errnum = 31 ∧ ErasedSector g raw i) := by
  unfold decodeSector
  rcases carries with parity | erased
  · rw [parity, ecc.decode_encoded]
    exact ⟨rfl, rfl, Or.inl rfl⟩
  · obtain ⟨data, fdm, verdict⟩ := ecc.decode_erased _ _ _ erased
    exact ⟨data, fdm, verdict.imp id (fun failed => ⟨failed, erased⟩)⟩

/-- The page cache holds the raw page renamed, and every sector is clean or erased. -/
structure Delivered (g : Geometry) (raw : Bytes) (w : World) : Prop where
  page : ∀ k < g.formatted, w.pageCache k = raw (g.place k)
  cache : w.cacheReg = raw
  verdict : ∀ i < g.eccSteps, w.sectBf i = 0 ∨ w.sectBf i = -1 ∧ ErasedSector g raw i

theorem readFdm_apply (regs : Nat → Nat → UInt8) (cache : Bytes) (k : Nat)
    (inside : k < g.formatted) :
    readFdm g regs cache k = if k < g.writesize then cache k
      else regs ((k - g.writesize) / g.soc.fdmSize) ((k - g.writesize) % g.soc.fdmSize) := by
  have fdm := g.fdmSize_pos
  unfold readFdm
  rw [forRange_owned _ (fun k => if k < g.writesize then g.eccSteps
      else (k - g.writesize) / g.soc.fdmSize)
    (fun k _ => regs ((k - g.writesize) / g.soc.fdmSize) ((k - g.writesize) % g.soc.fdmSize))]
  · by_cases low : k < g.writesize
    · simp only [low, if_true, lt_irrefl, if_false]
    · have sector := g.sectorOf_lt k inside
      rw [Geometry.sectorOf, if_neg low] at sector
      simp only [low, if_false, sector, if_true]
  · intro i lt m k other
    apply Bytes.memcpy_outside
    by_contra own
    have row : (k - g.writesize) / g.soc.fdmSize = i :=
      Nat.div_eq_of_lt_le (by omega) (by rw [Nat.succ_mul]; omega)
    exact other (by rw [if_neg (by omega), row])
  · intro i lt m k own
    by_cases low : k < g.writesize
    · rw [if_pos low] at own
      omega
    · rw [if_neg low] at own
      have split := Nat.div_add_mod' (k - g.writesize) g.soc.fdmSize
      have column := Nat.mod_lt (k - g.writesize) fdm
      rw [own] at split ⊢
      rw [Bytes.memcpy_inside _ _ _ _ _ _ (by omega) (by omega), Nat.zero_add]
      congr 1
      omega

theorem loadFdmRegs_apply (ecc : EccEngine g) (raw : Bytes) (regs : Nat → Nat → UInt8) (i r : Nat)
    (sector : i < g.eccSteps) (column : r < g.soc.fdmSize) (carries : Carries g ecc raw i) :
    loadFdmRegs g ecc raw regs i r = raw (i * g.rawSectorSize + g.soc.sectorSize + r) := by
  rw [loadFdmRegs, if_pos ⟨sector, column⟩]
  split_ifs with covered
  · rw [(carries_decode ecc raw i carries).2.1, sectorFdm, Bytes.slice_getD _ _ _ _ covered]
  · rfl

/-- The transfer of an auto-format read. -/
theorem transferCache_run (ecc : EccEngine g) (w : World) (reliable : Reliable w.bus)
    (carries : ∀ i < g.eccSteps, Carries g ecc w.cacheReg i) :
    ∃ w', (transferCache g ecc false).run w = (0, w') ∧ Delivered g w.cacheReg w' ∧
      Fetched w w' := by
  have ret : w.cycle.ret = 0 := reliable.completes _
  let regs := loadFdmRegs g ecc w.cacheReg w.fdmRegs
  let decEnum := fun i => (decodeSector g ecc w.cacheReg i).errnum
  refine ⟨{ w with
    tick := w.tick + 1
    fdmRegs := regs
    decEnum := decEnum
    pageCache := readFdm g regs fun k =>
      if k < g.writesize then
        (decodeSector g ecc w.cacheReg (k / g.soc.sectorSize)).data.getD (k % g.soc.sectorSize) 0
      else w.pageCache k
    sectBf := checkDecodeError g decEnum w.sectBf }, ?_, ⟨?_, ?_, ?_⟩,
    ⟨rfl, rfl, rfl, rfl, rfl⟩⟩
  · simp only [transferCache, Prog.run, ret, ne_eq, not_true_eq_false, if_false,
      Bool.false_eq_true]
    rfl
  · intro k inside
    have sector := g.sectorOf_lt k inside
    have fdm := g.fdmSize_pos
    simp only [readFdm_apply _ _ k inside]
    unfold Geometry.place Geometry.sectorOf Geometry.columnOf
    unfold Geometry.sectorOf at sector
    by_cases data : k < g.writesize
    · simp only [data, if_true] at sector ⊢
      rw [(carries_decode ecc _ _ (carries _ sector)).1, sectorData,
        Bytes.slice_getD _ _ _ _ (Nat.mod_lt k g.sectorSize_pos)]
    · simp only [data, if_false] at sector ⊢
      exact (loadFdmRegs_apply ecc _ _ _ _ sector (Nat.mod_lt _ fdm) (carries _ sector)).trans
        (by rw [Nat.add_assoc])
  · rfl
  · intro i lt
    have strength := g.errnumFits
    obtain ⟨-, -, clean | ⟨failed, erased⟩⟩ := carries_decode ecc _ i (carries i lt)
    · have zero : decEnum i = 0 := clean
      left
      simp only [checkDecodeError, lt, zero, Nat.zero_mod, Nat.zero_le, if_true]
      rfl
    · have rejected : decEnum i = 31 := failed
      right
      refine ⟨?_, erased⟩
      simp only [checkDecodeError, lt, rejected, if_true]
      exact if_neg (by omega)

/-- An erased sector passes the software repair without a change. -/
theorem fixupEmptySector_erased (raw cache : Bytes) (i : Nat) (sector : i < g.eccSteps)
    (erased : ErasedSector g raw i) (page : ∀ k < g.formatted, cache k = raw (g.place k))
    (parity : ∀ k < g.eccBytes, cache (g.eccPtr i + k) =
      (sectorParity g raw i).getD k 0) :
    fixupEmptySector g i cache = (0, cache) := by
  have protectedFdm := g.fdmProtected
  have room := g.parityFitsSpare
  have full (l : List UInt8) (k : Nat) (member : ∀ b ∈ l, b = 0xff) (lt : k < l.length) :
      l.getD k 0 = 0xff := by
    rw [List.getD_eq_getElem?_getD, List.getElem?_eq_getElem lt]
    exact member _ (List.getElem_mem lt)
  have data : ∀ b ∈ cache.slice (g.dataPtr i) g.soc.sectorSize, b = 0xff := by
    intro b member
    obtain ⟨k, low, rfl⟩ := List.mem_map.mp member
    rw [List.mem_range] at low
    have inside : i * g.soc.sectorSize + k < g.writesize := by
      rw [g.writesize_eq]
      calc i * g.soc.sectorSize + k < (i + 1) * g.soc.sectorSize := by rw [Nat.succ_mul]; omega
        _ ≤ g.eccSteps * g.soc.sectorSize := Nat.mul_le_mul_right _ sector
    rw [Geometry.dataPtr, page _ (inside.trans g.writesize_lt_formatted),
      g.place_data i k sector low]
    apply erased
    rw [List.mem_append, List.mem_append]
    exact Or.inl (Or.inl (List.mem_map.mpr ⟨k, List.mem_range.mpr low, rfl⟩))
  have fdm : ∀ b ∈ cache.slice (g.fdmPtr i) g.soc.fdmEccSize, b = 0xff := by
    intro b member
    obtain ⟨k, low, rfl⟩ := List.mem_map.mp member
    rw [List.mem_range] at low
    have inside : g.writesize + (i * g.soc.fdmSize + k) < g.formatted := by
      have : i * g.soc.fdmSize + k < g.eccSteps * g.soc.fdmSize :=
        calc i * g.soc.fdmSize + k < (i + 1) * g.soc.fdmSize := by rw [Nat.succ_mul]; omega
          _ ≤ g.eccSteps * g.soc.fdmSize := Nat.mul_le_mul_right _ sector
      unfold Geometry.formatted
      omega
    rw [Geometry.fdmPtr, Nat.add_assoc, page _ inside, g.place_fdm i k (by omega)]
    apply erased
    rw [List.mem_append, List.mem_append]
    exact Or.inl (Or.inr (List.mem_map.mpr ⟨k, List.mem_range.mpr low, rfl⟩))
  have code : ∀ k, k < (g.eccBits + 7) / 8 → cache (g.eccPtr i + k) = 0xff := by
    intro k low
    have short : k < g.eccBytes := by
      unfold Geometry.eccBits at low
      unfold Geometry.eccBytes
      omega
    rw [parity k short]
    apply full _ _ _ (by rw [sectorParity, Bytes.slice_length]; exact short)
    intro b member
    apply erased
    rw [List.mem_append]
    exact Or.inr member
  have flips : emptySectorBitflips g cache i = some 0 := by
    unfold emptySectorBitflips
    rw [checkBufBitflips_erased _ _ 0 _ (Nat.zero_le _) data]
    simp only [Option.bind_eq_bind, Option.bind_some]
    rw [checkBufBitflips_erased _ _ 0 _ (Nat.zero_le _) fdm]
    simp only [Option.bind_some]
    exact checkParityBitflips_erased _ _ _ _ 0 _ (Nat.zero_le _) code
  rw [fixupEmptySector, flips]

theorem readEccParity_run (w : World) (reliable : Reliable w.bus) (i : Nat) :
    ∃ trace, (readEccParity g i).run w = (0, { w with
      pageCache := w.pageCache.splice (g.eccPtr i) (sectorParity g w.cacheReg i)
      tick := w.tick + 1
      trace := trace }) := by
  obtain ⟨trace, sent⟩ := macIo_run g w reliable (.readFromCache
    (i * g.rawSectorSize + (g.soc.sectorSize + g.soc.fdmSize)) g.eccBytes)
  have room := g.parityFitsGpram
  refine ⟨trace, ?_⟩
  rw [readEccParity, if_neg (by unfold Geometry.eccBytes; omega), Prog.run_bind, sent]
  rfl

/-- The loop over the sectors: no error and no bitflip, and the delivered bytes stay. -/
theorem checkEccFrom_run (raw : Bytes) (left i : Nat) (w : World) (steady : Steady w)
    (count : i + left = g.eccSteps) (delivered : Delivered g raw w) :
    ∃ w', (checkEccFrom g left i 0 0).run w = (0, w') ∧ Delivered g raw w' ∧ Fetched w w' := by
  induction left generalizing i w with
  | zero => exact ⟨w, rfl, delivered, Fetched.refl w⟩
  | succ left ih =>
    have sector : i < g.eccSteps := by omega
    rcases delivered.verdict i sector with clean | ⟨failed, erased⟩
    · obtain ⟨w', run, rest, fetched⟩ := ih (i + 1) w steady (by omega) delivered
      refine ⟨w', ?_, rest, fetched⟩
      rw [checkEccFrom, Prog.run_bind, Prog.run_get]
      simp only [clean, le_refl, if_true, max_self]
      exact run
    · obtain ⟨trace, parity⟩ := readEccParity_run (g := g) w steady.reliable i
      let w₁ : World := { w with
        pageCache := w.pageCache.splice (g.eccPtr i) (sectorParity g w.cacheReg i)
        tick := w.tick + 1
        trace := trace }
      let w₂ : World := { w₁ with sectBf := Function.update w₁.sectBf i 0 }
      have page : ∀ k < g.formatted, w₁.pageCache k = raw (g.place k) := by
        intro k inside
        rw [← delivered.page k inside]
        apply Bytes.splice_outside
        unfold Geometry.eccPtr
        unfold Geometry.formatted at inside
        omega
      have fixup : fixupEmptySector g i w₁.pageCache = (0, w₁.pageCache) := by
        apply fixupEmptySector_erased raw w₁.pageCache i sector erased page
        intro k short
        have length : (sectorParity g w.cacheReg i).length = g.eccBytes := Bytes.slice_length _ _ _
        change (w.pageCache.splice (g.eccPtr i) (sectorParity g w.cacheReg i)) _ = _
        rw [Bytes.splice_inside _ _ _ _ (by omega) (by omega), Nat.add_sub_cancel_left,
          delivered.cache]
      have delivered₂ : Delivered g raw w₂ := by
        refine ⟨page, delivered.cache, ?_⟩
        intro j lt
        by_cases same : j = i
        · left
          rw [same]
          exact Function.update_self _ _ _
        · change Function.update w.sectBf i 0 j = 0 ∨ Function.update w.sectBf i 0 j = -1 ∧ _
          rw [Function.update_of_ne same]
          exact delivered.verdict j lt
      obtain ⟨w', run, rest, fetched⟩ := ih (i + 1) w₂ ⟨steady.reliable, steady.failBits⟩
        (by omega) delivered₂
      have repaired : Fetched w w₂ := ⟨rfl, rfl, rfl, rfl, rfl⟩
      refine ⟨w', ?_, rest, repaired.trans fetched⟩
      have negative : ¬ (0 : Int) ≤ -1 := by omega
      rw [checkEccFrom, Prog.run_bind, Prog.run_get]
      simp only [failed, negative, if_false]
      rw [Prog.run_bind, parity]
      change (Prog.run (Prog.get >>= _) w₁) = _
      rw [Prog.run_bind, Prog.run_get]
      simp only [fixup, lt_irrefl, if_false]
      exact run

/-- Row address to cache register and back to ready. -/
theorem readToCache_run (w : World) (steady : Steady w) (page : Nat) :
    ∃ w', (pageOp g (.readToCache page)).run w = (0, w') ∧ Steady w' ∧ Fetched w w' ∧
      w'.pageCache = w.pageCache ∧ w'.cacheReg = w.cells w.die (page % 2 ^ 24) ∧
      ∀ t, w'.busy ≤ (w'.bus t).polls := by
  obtain ⟨trace, sent⟩ := macIo_run g w steady.reliable (.readToCache page)
  refine ⟨{ w with
      cacheReg := w.cells w.die (page % 2 ^ 24)
      busy := w.cycle.busy
      tick := w.tick + 1
      trace := trace }, ?_, ⟨steady.reliable, steady.failBits⟩, ⟨rfl, rfl, rfl, rfl, rfl⟩, rfl, rfl,
    steady.reliable.patient w.tick⟩
  rw [pageOp, Prog.run_bind, sent]
  rfl

theorem fetchPage_run (ecc : EccEngine g) (w : World) (steady : Steady w) (page : Nat) (raw : Bool)
    (readable : raw = false →
      ∀ i < g.eccSteps, Carries g ecc (w.cells w.die (page % 2 ^ 24)) i) :
    ∃ w', (fetchPage g ecc page raw).run w = ((0, true), w') ∧ Steady w' ∧ Fetched w w' ∧
      if raw then ∀ k < g.eccSteps * g.rawSectorSize,
          w'.pageCache k = w.cells w.die (page % 2 ^ 24) k
      else ∀ k < g.formatted, w'.pageCache k = w.cells w.die (page % 2 ^ 24) (g.place k) := by
  obtain ⟨w₁, sent, steady₁, fetched₁, -, loaded, inTime⟩ := readToCache_run (g := g) w steady page
  obtain ⟨busy, tick, trace, poll⟩ := pollStatus_run g w₁ steady₁ inTime
  let w₂ := w₁.waited busy tick trace
  have steady₂ : Steady w₂ := steady₁.waited _ _ _
  have fetched₂ : Fetched w w₂ := fetched₁.trans ⟨rfl, rfl, rfl, rfl, rfl⟩
  have ready : ¬ ((w₁.failBits : Nat) : Int) < 0 := by omega
  have tail (w₃ : World) (h : (readCacheRetry g ecc raw 16).run w₂ = (0, w₃)) :
      (fetchPage g ecc page raw).run w = ((0, true), w₃) := by
    rw [fetchPage, Prog.run_bind, sent]
    simp only [ne_eq, not_true_eq_false, if_false, Prog.run_bind, poll, ready]
    change Prog.run _ ((readCacheRetry g ecc raw 16).run w₂).2 = _
    rw [h]
    rfl
  cases raw with
  | true =>
    have ret : w₂.cycle.ret = 0 := steady₂.reliable.completes _
    let w₃ : World := { w₂ with
      pageCache := w₂.pageCache.memcpy 0 w₂.cacheReg 0 (g.eccSteps * g.rawSectorSize)
      tick := w₂.tick + 1 }
    have read : (readCache g ecc true).run w₂ = (0, w₃) := by
      rw [readCache, Prog.run_bind]
      simp only [transferCache, Prog.run, ret, ne_eq, not_true_eq_false, if_false, if_true]
      rfl
    refine ⟨w₃, tail w₃ ?_, ⟨steady₂.reliable, steady₂.failBits⟩,
      fetched₂.trans ⟨rfl, rfl, rfl, rfl, rfl⟩, ?_⟩
    · rw [readCacheRetry, Prog.run_bind, read]
      rfl
    · rw [if_pos rfl]
      intro k inside
      change w₂.pageCache.memcpy 0 w₁.cacheReg 0 (g.eccSteps * g.rawSectorSize) k = _
      rw [Bytes.memcpy_inside _ _ _ _ _ _ (Nat.zero_le _) (by omega), loaded, Nat.zero_add,
        Nat.sub_zero]
  | false =>
    have carries : ∀ i < g.eccSteps, Carries g ecc w₂.cacheReg i := by
      change ∀ i < g.eccSteps, Carries g ecc w₁.cacheReg i
      rw [loaded]
      exact readable rfl
    obtain ⟨w₃, transfer, delivered, fetched₃⟩ := transferCache_run ecc w₂ steady₂.reliable carries
    obtain ⟨w₄, check, delivered₄, fetched₄⟩ := checkEccFrom_run w₂.cacheReg g.eccSteps 0 w₃
      (fetched₃.steady steady₂) (Nat.zero_add _) delivered
    have read : (readCache g ecc false).run w₂ = (0, w₄) := by
      rw [readCache, Prog.run_bind, transfer]
      simp only [ne_eq, not_true_eq_false, if_false, Bool.false_eq_true, checkEccResult]
      exact check
    refine ⟨w₄, tail w₄ ?_, fetched₄.steady (fetched₃.steady steady₂),
      fetched₂.trans (fetched₃.trans fetched₄), ?_⟩
    · rw [readCacheRetry, Prog.run_bind, read]
      rfl
    · rw [if_neg Bool.false_ne_true]
      intro k inside
      rw [delivered₄.page k inside]
      change w₁.cacheReg _ = _
      rw [loaded]

end Filogic.Snand
