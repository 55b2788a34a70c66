import Filogic.Lib.Access
import Filogic.Lib.Bytes
import Filogic.Lib.LittleEndian

/-! `mtk_wed_load_firmware` of `mtk_wed_mcu.c`: the regions that the trailer of a firmware file lists
are copied to the memory that is mapped for them, and the processor is started. -/

namespace Filogic.Wed.Load
open Lib

/-- A file, and what lies around it; `request_firmware` takes none of 2 GiB. -/
structure Firmware where
  data : Int → UInt8
  size : Nat
  size_lt : size < 2 ^ 31

/-- `struct mtk_wed_fw_region`; `mapped` tells that `addr` is not null. -/
structure FwRegion where
  mapped : Bool
  addrPa : Nat
  size : Nat
  shared : Bool

/-- What of `wo->hw` is looked at -/
structure Hw where
  version : Nat
  index : Nat
  mt7981 : Bool

def maxRegionSize : Nat := 3
def woRegionMax : Nat := 4
def woRegionBoot : Nat := 3

/-- `sizeof(struct mtk_wed_fw_trailer)` and `sizeof(struct fw_info)` -/
def trailerSize : Nat := 36
def infoSize : Nat := 40

namespace Firmware

variable (fw : Firmware)

def hdr : Int := (fw.size : Int) - trailerSize

def nRegion : Nat := (fw.data (fw.hdr + 2)).toNat

def le32 (off : Int) : Nat :=
  ofLe [fw.data off, fw.data (off + 1), fw.data (off + 2), fw.data (off + 3)]

/-- Where the head of a region lies. -/
def region (i : Nat) : Int := fw.hdr - infoSize * ((fw.nRegion : Int) - i)

def addr (i : Nat) : Nat := fw.le32 (fw.region i + 16)

def len (i : Nat) : Nat := fw.le32 (fw.region i + 20)

end Firmware

/-- The loop's offset, the memory by physical address, the static flags of the regions that were
copied, and what was read of the file and written to the mapped regions. -/
structure Loader where
  ofs : Nat
  mem : Bytes
  shared : Nat → Bool
  reads : List (Int × Nat)
  writes : List (Nat × Access)

section Code

variable (regions : Nat → FwRegion) (fw : Firmware)

/-- `memcpy(wo_region->addr, fw->data + ofs, region->len)` -/
def Loader.copy (s : Loader) (i j : Nat) : Loader :=
  { s with
    mem := s.mem.memcpy (regions j).addrPa (fun k => fw.data k) s.ofs (fw.len i)
    reads := s.reads ++ [((s.ofs : Int), fw.len i)]
    writes := s.writes ++ [(j, ⟨0, fw.len i⟩)] }

/-- The body of the `while` loop behind its test for a null address -/
def matchRegion (i j : Nat) (s : Loader) : Loader :=
  let s := { s with reads := s.reads ++ [(fw.region i + 16, 4)] }
  if (regions j).addrPa = fw.addr i then
    if !(regions j).shared then s.copy regions fw i j
    else if !s.shared j then
      { s.copy regions fw i j with shared := Function.update s.shared j true }
    else s
  else s

/-- The `while` loop over the mapped regions, with where it stops -/
def matchRegions (i : Nat) : List Nat → Loader → Nat × Loader
  | [], s => (maxRegionSize, s)
  | j :: js, s =>
    if !(regions j).mapped then (j, s) else matchRegions i js (matchRegion regions fw i j s)

/-- The loop over the regions that are listed -/
def loadRegions : List Nat → Loader → Int × Loader
  | [], s => (0, s)
  | i :: is, s =>
    let after := matchRegions regions fw i (List.range maxRegionSize) s
    if after.1 = woRegionMax then (-2, after.2)
    else
      loadRegions is { after.2 with
        ofs := (after.2.ofs + fw.len i) % 2 ^ 32
        reads := after.2.reads ++ [(fw.region i + 20, 4)] }

def bootCr (hw : Hw) : Nat := if hw.version < 3 ∧ hw.index ≠ 0 then 0x064 else 0x060

def fwName (hw : Hw) : Option String :=
  if hw.version = 2 then
    some (if hw.mt7981 then "mediatek/mt7981_wo.bin"
      else if hw.index ≠ 0 then "mediatek/mt7986_wo_1.bin" else "mediatek/mt7986_wo_0.bin")
  else if hw.version = 3 then
    some (if hw.index ≠ 0 then "mediatek/mtk_wo_1.bin" else "mediatek/mtk_wo_0.bin")
  else none

structure Outcome where
  ret : Int
  started : Bool
  loader : Loader

/-- `mtk_wed_load_firmware` -/
def mtkWedLoadFirmware (hw : Hw) (request : String → Except {ret : Int // ret < 0} Firmware)
    (mem : Bytes) (shared : Nat → Bool) : Outcome :=
  let s : Loader := ⟨0, mem, shared, [], []⟩
  match fwName hw with
  | none => ⟨-22, false, s⟩
  | some name =>
    match request name with
    | .error ret => ⟨ret, false, s⟩
    | .ok fw =>
      let s := { s with reads := [(fw.hdr + 7, 10), (fw.hdr + 17, 15), (fw.hdr + 2, 1)] }
      let loaded := loadRegions regions fw (List.range fw.nRegion) s
      if loaded.1 ≠ 0 then ⟨loaded.1, false, loaded.2⟩
      else
        ⟨0, true, { loaded.2 with
          writes := loaded.2.writes ++ [(woRegionBoot, ⟨bootCr hw, 4⟩), (woRegionBoot, ⟨0x018, 4⟩),
            (woRegionBoot, ⟨0x050, 4⟩)] }⟩

end Code

section Spec

variable (regions : Nat → FwRegion) (fw : Firmware)

/-- Where the bytes of a region start: behind those of the regions before it. -/
def Firmware.start (i : Nat) : Nat := ((List.range i).map fw.len).sum

/-- The byte of a region for an address -/
def Firmware.byte (i x : Nat) : UInt8 := fw.data ((fw.start i + (x - fw.addr i) : Nat) : Int)

/-- The addresses that a region is for. -/
def Firmware.Covers (i x : Nat) : Prop := fw.addr i ≤ x ∧ x < fw.addr i + fw.len i

/-- The list of the regions is in the file, and every region listed has its bytes in the file and
the address of a region that is mapped. -/
structure Listed : Prop where
  heads : trailerSize + infoSize * fw.nRegion ≤ fw.size
  slices : ∀ i < fw.nRegion, fw.start i + fw.len i ≤ fw.size
  found : ∀ i < fw.nRegion, ∃ j < woRegionMax, (regions j).mapped = true ∧
    (regions j).addrPa = fw.addr i

/-- Every region that is listed is in memory. -/
def Held (mem : Bytes) : Prop := ∀ i < fw.nRegion, ∀ x, fw.Covers i x → mem x = fw.byte i x

/-- What a call is to do with a file. -/
structure Loaded (out : Outcome) : Prop where
  reads : ∀ r ∈ out.loader.reads, 0 ≤ r.1 ∧ r.1 + r.2 ≤ fw.size
  writes : ∀ w ∈ out.loader.writes, (regions w.1).mapped = true ∧ w.2.Within (regions w.1).size
  outcome : (out.ret = 0 ∧ Listed regions fw ∧ Held fw out.loader.mem) ∨
    (out.ret < 0 ∧ out.started = false)

/-- The file that is asked for, where there is one. -/
def obtained (hw : Hw) (request : String → Except {ret : Int // ret < 0} Firmware) :
    Option Firmware :=
  (fwName hw).bind fun name => (request name).toOption

/-- Without a file the call fails and touches nothing. -/
def Meets (hw : Hw) (request : String → Except {ret : Int // ret < 0} Firmware) (out : Outcome) :
    Prop :=
  match obtained hw request with
  | some fw => Loaded regions fw out
  | none => out.ret < 0 ∧ out.started = false ∧ out.loader.reads = [] ∧ out.loader.writes = []

/-- The regions that the loop comes to: those in front of the first that is not mapped -/
def visited : List Nat := (List.range maxRegionSize).takeWhile fun j => (regions j).mapped

def Takes (i j : Nat) : Prop := j ∈ visited regions ∧ (regions j).addrPa = fw.addr i

/-- A shared region is copied the first time only that it is listed, over all calls. -/
def Copied (shared : Nat → Bool) (i j : Nat) : Prop :=
  Takes regions fw i j ∧
    ((regions j).shared = false ∨ (shared j = false ∧ ∀ i' < i, ¬ Takes regions fw i' j))

/-- When a file is loaded as it should: what is copied fits its region, the boot registers are mapped,
regions that overlap agree, and what is not copied is in memory already. -/
structure Loadable (hw : Hw) (mem : Bytes) (shared : Nat → Bool) : Prop where
  listed : Listed regions fw
  room : ∀ i < fw.nRegion, ∀ j, Copied regions fw shared i j → fw.len i ≤ (regions j).size
  boot : (regions woRegionBoot).mapped = true ∧ bootCr hw + 4 ≤ (regions woRegionBoot).size
  agree : ∀ i < fw.nRegion, ∀ i' < fw.nRegion, ∀ x, fw.Covers i x → fw.Covers i' x →
    fw.byte i x = fw.byte i' x
  kept : ∀ i < fw.nRegion, ∀ x, fw.Covers i x →
    (∀ i' < fw.nRegion, ∀ j, Copied regions fw shared i' j → ¬ fw.Covers i' x) →
    mem x = fw.byte i x

end Spec

section Inner

variable {regions : Nat → FwRegion} {fw : Firmware} {i : Nat}

/-- The region's memory is copied as its flags stand. -/
def Copies (regions : Nat → FwRegion) (fw : Firmware) (shared : Nat → Bool) (i j : Nat) : Prop :=
  (regions j).addrPa = fw.addr i ∧ ((regions j).shared = false ∨ shared j = false)

/-- What comes of the mapped regions `here` for the `i`-th region listed. -/
structure Effect (regions : Nat → FwRegion) (fw : Firmware) (i : Nat) (here : Nat → Prop)
    (s s' : Loader) : Prop where
  ofs : s'.ofs = s.ofs
  shared : ∀ j, s'.shared j = true ↔ s.shared j = true ∨
    ((regions j).shared = true ∧ here j ∧ (regions j).addrPa = fw.addr i)
  writes : ∀ w, w ∈ s'.writes ↔ w ∈ s.writes ∨
    ∃ j, here j ∧ Copies regions fw s.shared i j ∧ w = (j, ⟨0, fw.len i⟩)
  new : ∀ x, (∃ j, here j ∧ Copies regions fw s.shared i j) → fw.Covers i x →
    s'.mem x = fw.data ((s.ofs + (x - fw.addr i) : Nat) : Int)
  old : ∀ x, ((∃ j, here j ∧ Copies regions fw s.shared i j) → ¬ fw.Covers i x) →
    s'.mem x = s.mem x
  reads : ∀ r ∈ s'.reads, r ∈ s.reads ∨ r = (fw.region i + 16, 4) ∨
    ((∃ j, here j ∧ Copies regions fw s.shared i j) ∧ r = ((s.ofs : Int), fw.len i))

/-- A region that is not copied -/
theorem Effect.skip (j : Nat) (s : Loader) (other : ¬ Copies regions fw s.shared i j) :
    Effect regions fw i (· = j) s
      { s with reads := s.reads ++ [(fw.region i + 16, 4)] } := by
  have none_ : ¬ ∃ j', j' = j ∧ Copies regions fw s.shared i j' := by
    rintro ⟨j', rfl, copies⟩
    exact other copies
  refine ⟨rfl, fun j' => ⟨.inl, ?_⟩, fun w => ⟨.inl, ?_⟩, fun x some_ => absurd some_ none_,
    fun x _ => rfl, fun r member => ?_⟩
  · rintro (before | ⟨-, rfl, same⟩)
    · exact before
    · by_contra unset
      exact other ⟨same, .inr (by simpa using unset)⟩
  · rintro (before | ⟨j', here, copies, -⟩)
    · exact before
    · exact absurd ⟨j', here, copies⟩ none_
  · rcases List.mem_append.mp member with before | last
    · exact .inl before
    · exact .inr (.inl (List.mem_singleton.mp last))

/-- A region that is copied; its flag is set if it is shared. -/
theorem Effect.copied (j : Nat) (s : Loader) (copies : Copies regions fw s.shared i j)
    (flags : Nat → Bool)
    (flag : ∀ j', flags j' = true ↔ s.shared j' = true ∨ ((regions j').shared = true ∧ j' = j)) :
    Effect regions fw i (· = j) s
      { ({ s with reads := s.reads ++ [(fw.region i + 16, 4)] } : Loader).copy regions fw i j with
        shared := flags } := by
  have one : ∃ j', j' = j ∧ Copies regions fw s.shared i j' := ⟨j, rfl, copies⟩
  have base : (regions j).addrPa = fw.addr i := copies.1
  refine ⟨rfl, fun j' => (flag j').trans (or_congr_right ?_), fun w => ?_, fun x _ covers => ?_,
    fun x outside => ?_, fun r member => ?_⟩
  · exact ⟨fun set => ⟨set.1, set.2, set.2 ▸ base⟩, fun set => ⟨set.1, set.2.1⟩⟩
  · change w ∈ s.writes ++ [(j, ⟨0, fw.len i⟩)] ↔ _
    rw [List.mem_append, List.mem_singleton]
    refine or_congr_right ⟨fun same => ⟨j, rfl, copies, same⟩, ?_⟩
    rintro ⟨j', rfl, -, same⟩
    exact same
  · change s.mem.memcpy (regions j).addrPa (fun k => fw.data k) s.ofs (fw.len i) x = _
    rw [base, Bytes.memcpy_inside _ _ _ _ _ _ covers.1 covers.2]
  · change s.mem.memcpy (regions j).addrPa (fun k => fw.data k) s.ofs (fw.len i) x = _
    refine Bytes.memcpy_outside _ _ _ _ _ _ ?_
    have apart : ¬ (fw.addr i ≤ x ∧ x < fw.addr i + fw.len i) := outside one
    rw [base]
    omega
  · change r ∈ s.reads ++ [(fw.region i + 16, 4)] ++ [((s.ofs : Int), fw.len i)] at member
    rw [List.mem_append, List.mem_append, List.mem_singleton, List.mem_singleton] at member
    rcases member with (before | addr) | slice
    · exact .inl before
    · exact .inr (.inl addr)
    · exact .inr (.inr ⟨one, slice⟩)

theorem matchRegion_effect (j : Nat) (s : Loader) :
    Effect regions fw i (· = j) s (matchRegion regions fw i j s) := by
  unfold matchRegion
  dsimp only
  split_ifs with same plain unset
  · refine Effect.copied j s ⟨same, .inl (by simpa using plain)⟩ s.shared fun j' => ?_
    refine ⟨.inl, ?_⟩
    rintro (set | ⟨shared, rfl⟩)
    · exact set
    · simp [shared] at plain
  · refine Effect.copied j s ⟨same, .inr (by simpa using unset)⟩ _ fun j' => ?_
    by_cases it : j' = j
    · rw [it, Function.update_self]
      simp [show (regions j).shared = true by simpa using plain]
    · rw [Function.update_of_ne it]
      simp [it]
  · exact Effect.skip j s fun copies => by
      rcases copies.2 with other | other <;> simp_all
  · exact Effect.skip j s fun copies => same copies.1

/-- One region after the other -/
theorem Effect.trans {j : Nat} {here : Nat → Prop} {s s' s'' : Loader}
    (first : Effect regions fw i (· = j) s s') (second : Effect regions fw i here s' s'')
    (apart : ¬ here j) : Effect regions fw i (fun j' => j' = j ∨ here j') s s'' := by
  have unchanged (j') (later : here j') :
      Copies regions fw s'.shared i j' ↔ Copies regions fw s.shared i j' := by
    have other : j' ≠ j := fun same => apart (same ▸ later)
    have flag : s'.shared j' = s.shared j' := by
      rw [Bool.eq_iff_iff, first.shared j']
      simp [other]
    unfold Copies
    rw [flag]
  have some_iff : (∃ j', (j' = j ∨ here j') ∧ Copies regions fw s.shared i j') ↔
      (∃ j', j' = j ∧ Copies regions fw s.shared i j') ∨
        ∃ j', here j' ∧ Copies regions fw s'.shared i j' := by
    constructor
    · rintro ⟨j', here' | later, copies⟩
      · exact .inl ⟨j', here', copies⟩
      · exact .inr ⟨j', later, (unchanged j' later).mpr copies⟩
    · rintro (⟨j', here', copies⟩ | ⟨j', later, copies⟩)
      · exact ⟨j', .inl here', copies⟩
      · exact ⟨j', .inr later, (unchanged j' later).mp copies⟩
  refine ⟨second.ofs.trans first.ofs, fun j' => ?_, fun w => ?_, fun x copied covers => ?_,
    fun x outside => ?_, fun r member => ?_⟩
  · rw [second.shared, first.shared]
    tauto
  · rw [second.writes, first.writes, or_assoc]
    refine or_congr_right ?_
    constructor
    · rintro (⟨j', here', copies, same⟩ | ⟨j', later, copies, same⟩)
      · exact ⟨j', .inl here', copies, same⟩
      · exact ⟨j', .inr later, (unchanged j' later).mp copies, same⟩
    · rintro ⟨j', here' | later, copies, same⟩
      · exact .inl ⟨j', here', copies, same⟩
      · exact .inr ⟨j', later, (unchanged j' later).mpr copies, same⟩
  · by_cases again : ∃ j', here j' ∧ Copies regions fw s'.shared i j'
    · rw [second.new x again covers, first.ofs]
    · rw [second.old x fun some_ => absurd some_ again]
      exact first.new x ((some_iff.mp copied).resolve_right again) covers
  · rw [second.old x fun some_ => outside (some_iff.mpr (.inr some_))]
    exact first.old x fun some_ => outside (some_iff.mpr (.inl some_))
  · rcases second.reads r member with before | addr | ⟨some_, slice⟩
    · rcases first.reads r before with before | addr | ⟨some_, slice⟩
      · exact .inl before
      · exact .inr (.inl addr)
      · exact .inr (.inr ⟨some_iff.mpr (.inl some_), slice⟩)
    · exact .inr (.inl addr)
    · exact .inr (.inr ⟨some_iff.mpr (.inr some_), first.ofs ▸ slice⟩)

/-- The inner loop, which stops before the fourth region in any case. -/
theorem matchRegions_effect (js : List Nat) (s : Loader) (nodup : js.Nodup)
    (below : ∀ j ∈ js, j < maxRegionSize) :
    (matchRegions regions fw i js s).1 < woRegionMax ∧
      Effect regions fw i (· ∈ js.takeWhile fun j => (regions j).mapped) s
        (matchRegions regions fw i js s).2 := by
  have still (s : Loader) : Effect regions fw i (· ∈ ([] : List Nat)) s s := by
    refine ⟨rfl, ?_, ?_, ?_, fun x _ => rfl, fun r => .inl⟩ <;> simp
  induction js generalizing s with
  | nil => exact ⟨by simp [matchRegions, maxRegionSize, woRegionMax], still s⟩
  | cons j js ih =>
    rw [matchRegions]
    rw [List.nodup_cons] at nodup
    have first := below j List.mem_cons_self
    cases mapped : (regions j).mapped with
    | false =>
      rw [if_pos (by decide), List.takeWhile_cons_of_neg (by simp [mapped])]
      exact ⟨by simp [maxRegionSize, woRegionMax] at first ⊢; omega, still s⟩
    | true =>
      have rest := ih (matchRegion regions fw i j s) nodup.2
        fun j' member => below j' (List.mem_cons_of_mem j member)
      rw [if_neg (by decide), List.takeWhile_cons_of_pos (by simp [mapped])]
      have both := (matchRegion_effect j s).trans rest.2 fun member =>
        nodup.1 ((List.takeWhile_prefix _).subset member)
      exact ⟨rest.1, by simpa only [List.mem_cons] using both⟩

end Inner

section Outer

variable {regions : Nat → FwRegion} {fw : Firmware}

/-- The loader behind a region that is listed -/
def next (regions : Nat → FwRegion) (fw : Firmware) (s : Loader) (i : Nat) : Loader :=
  let after := (matchRegions regions fw i (List.range maxRegionSize) s).2
  { after with
    ofs := (after.ofs + fw.len i) % 2 ^ 32
    reads := after.reads ++ [(fw.region i + 20, 4)] }

theorem range_effect (i : Nat) (s : Loader) :
    (matchRegions regions fw i (List.range maxRegionSize) s).1 < woRegionMax ∧
      Effect regions fw i (· ∈ visited regions) s
        (matchRegions regions fw i (List.range maxRegionSize) s).2 :=
  matchRegions_effect _ s List.nodup_range fun _ member => List.mem_range.mp member

/-- The test for a region that was not found never fires. -/
theorem loadRegions_eq (is : List Nat) (s : Loader) :
    loadRegions regions fw is s = (0, is.foldl (next regions fw) s) := by
  induction is generalizing s with
  | nil => rfl
  | cons i is ih =>
    rw [loadRegions]
    dsimp only
    rw [if_neg (Nat.ne_of_lt (range_effect i s).1), ih]
    rfl

/-- The loader behind the first `n` regions -/
structure Progress (regions : Nat → FwRegion) (fw : Firmware) (mem : Bytes) (shared : Nat → Bool)
    (reads : List (Int × Nat)) (n : Nat) (s : Loader) : Prop where
  ofs : s.ofs = fw.start n % 2 ^ 32
  flags : ∀ j, s.shared j = true ↔ shared j = true ∨
    ((regions j).shared = true ∧ ∃ i < n, Takes regions fw i j)
  writes : ∀ w, w ∈ s.writes ↔
    ∃ i < n, ∃ j, Copied regions fw shared i j ∧ w = (j, ⟨0, fw.len i⟩)
  new : ∀ x, (∃ i < n, ∃ j, Copied regions fw shared i j ∧ fw.Covers i x) →
    ∃ i < n, fw.Covers i x ∧
      s.mem x = fw.data ((fw.start i % 2 ^ 32 + (x - fw.addr i) : Nat) : Int)
  old : ∀ x, (∀ i < n, ∀ j, Copied regions fw shared i j → ¬ fw.Covers i x) → s.mem x = mem x
  read : ∀ r ∈ s.reads, r ∈ reads ∨ ∃ i < n, r = (fw.region i + 16, 4) ∨ r = (fw.region i + 20, 4) ∨
    r = (((fw.start i % 2 ^ 32 : Nat) : Int), fw.len i)

variable {mem : Bytes} {shared : Nat → Bool} {reads : List (Int × Nat)} {n : Nat} {s : Loader}

theorem Progress.start : Progress regions fw mem shared reads 0 ⟨0, mem, shared, reads, []⟩ := by
  refine ⟨rfl, ?_, ?_, ?_, fun x _ => rfl, fun r => .inl⟩ <;> simp

/-- What is copied now was not copied before. -/
theorem Progress.copies (progress : Progress regions fw mem shared reads n s) (j : Nat) :
    j ∈ visited regions ∧ Copies regions fw s.shared n j ↔ Copied regions fw shared n j := by
  have unset : s.shared j = false ↔ shared j = false ∧
      ¬ ((regions j).shared = true ∧ ∃ i < n, Takes regions fw i j) := by
    rw [← Bool.not_eq_true, progress.flags j, not_or, Bool.not_eq_true]
  unfold Copies Copied
  rw [unset]
  change _ ↔ (j ∈ visited regions ∧ (regions j).addrPa = fw.addr n) ∧ _
  rw [and_assoc]
  refine and_congr_right fun _ => and_congr_right fun _ => ?_
  cases plain : (regions j).shared with
  | false => simp
  | true => simp

theorem start_succ (n : Nat) : fw.start (n + 1) = fw.start n + fw.len n := by
  unfold Firmware.start
  rw [List.range_succ, List.map_append, List.sum_append]
  simp

theorem Progress.next (progress : Progress regions fw mem shared reads n s) :
    Progress regions fw mem shared reads (n + 1) (next regions fw s n) := by
  have effect : Effect regions fw n (· ∈ visited regions) s _ := (range_effect n s).2
  have copied (j) := progress.copies j
  have some_iff : (∃ j, j ∈ visited regions ∧ Copies regions fw s.shared n j) ↔
      ∃ j, Copied regions fw shared n j := exists_congr copied
  have split {P : Nat → Prop} : (∃ i < n + 1, P i) ↔ (∃ i < n, P i) ∨ P n := by
    simp only [Nat.lt_succ_iff_lt_or_eq, or_and_right, exists_or, exists_eq_left]
  refine ⟨?_, fun j => ?_, fun w => ?_, fun x covered => ?_, fun x outside => ?_,
    fun r member => ?_⟩
  · change ((matchRegions regions fw n (List.range maxRegionSize) s).2.ofs + fw.len n) % 2 ^ 32 = _
    rw [effect.ofs, progress.ofs, start_succ, Nat.mod_add_mod]
  · refine (effect.shared j).trans ?_
    rw [progress.flags j, split, or_assoc]
    refine or_congr_right ?_
    change _ ↔ (regions j).shared = true ∧
      ((∃ i < n, Takes regions fw i j) ∨ j ∈ visited regions ∧ (regions j).addrPa = fw.addr n)
    rw [and_or_left]
  · refine (effect.writes w).trans ?_
    rw [progress.writes w, split]
    refine or_congr_right (exists_congr fun j => ?_)
    rw [← and_assoc, copied j]
  · by_cases now : (∃ j, Copied regions fw shared n j) ∧ fw.Covers n x
    · refine ⟨n, Nat.lt_succ_self n, now.2, ?_⟩
      rw [← progress.ofs]
      exact effect.new x (some_iff.mpr now.1) now.2
    · have before : ∃ i < n, ∃ j, Copied regions fw shared i j ∧ fw.Covers i x := by
        rcases split.mp covered with earlier | ⟨j, it, covers⟩
        · exact earlier
        · exact absurd ⟨⟨j, it⟩, covers⟩ now
      obtain ⟨i, below, covers, value⟩ := progress.new x before
      refine ⟨i, Nat.lt_succ_of_lt below, covers, ?_⟩
      rw [← value]
      exact effect.old x fun some_ covers' => now ⟨some_iff.mp some_, covers'⟩
  · have kept := effect.old x fun some_ => by
      obtain ⟨j, it⟩ := some_iff.mp some_
      exact outside n (Nat.lt_succ_self n) j it
    exact kept.trans (progress.old x fun i below => outside i (Nat.lt_succ_of_lt below))
  · rcases List.mem_append.mp member with inner | len
    · rcases effect.reads r inner with earlier | addr | ⟨-, slice⟩
      · rcases progress.read r earlier with first | ⟨i, below, it⟩
        · exact .inl first
        · exact .inr ⟨i, Nat.lt_succ_of_lt below, it⟩
      · exact .inr ⟨n, Nat.lt_succ_self n, .inl addr⟩
      · exact .inr ⟨n, Nat.lt_succ_self n, .inr (.inr (progress.ofs ▸ slice))⟩
    · exact .inr ⟨n, Nat.lt_succ_self n, .inr (.inl (List.mem_singleton.mp len))⟩

theorem progress_range (n : Nat) : Progress regions fw mem shared reads n
    ((List.range n).foldl (next regions fw) ⟨0, mem, shared, reads, []⟩) := by
  induction n with
  | zero => exact Progress.start
  | succ n ih =>
    rw [List.range_succ, List.foldl_append]
    exact ih.next

end Outer

section Whole

variable {regions : Nat → FwRegion} {fw : Firmware} {hw : Hw}
  {request : String → Except {ret : Int // ret < 0} Firmware} {mem : Bytes} {shared : Nat → Bool}

/-- What is read of the trailer -/
def trailerReads (fw : Firmware) : List (Int × Nat) :=
  [(fw.hdr + 7, 10), (fw.hdr + 17, 15), (fw.hdr + 2, 1)]

/-- The loader after all regions of a file -/
def after (regions : Nat → FwRegion) (fw : Firmware) (mem : Bytes) (shared : Nat → Bool) : Loader :=
  (List.range fw.nRegion).foldl (next regions fw) ⟨0, mem, shared, trailerReads fw, []⟩

theorem after_progress (regions : Nat → FwRegion) (fw : Firmware) (mem : Bytes)
    (shared : Nat → Bool) : Progress regions fw mem shared (trailerReads fw) fw.nRegion
      (after regions fw mem shared) := progress_range fw.nRegion

/-- A file that is obtained is loaded whatever it holds, and the processor started. -/
theorem load_eq (there : obtained hw request = some fw) :
    mtkWedLoadFirmware regions hw request mem shared =
      ⟨0, true, { after regions fw mem shared with
        writes := (after regions fw mem shared).writes ++ [(woRegionBoot, ⟨bootCr hw, 4⟩),
          (woRegionBoot, ⟨0x018, 4⟩), (woRegionBoot, ⟨0x050, 4⟩)] }⟩ := by
  unfold obtained at there
  unfold mtkWedLoadFirmware
  obtain ⟨name, asked, given⟩ := Option.bind_eq_some_iff.mp there
  rw [asked]
  dsimp only
  cases answer : request name with
  | error ret =>
    rw [answer] at given
    cases given
  | ok found =>
    rw [answer] at given
    obtain rfl := Option.some.inj given
    dsimp only
    rw [loadRegions_eq]
    rfl

theorem fail_eq (none_ : obtained hw request = none) :
    let out := mtkWedLoadFirmware regions hw request mem shared
    out.ret < 0 ∧ out.started = false ∧ out.loader.reads = [] ∧ out.loader.writes = [] := by
  unfold obtained at none_
  unfold mtkWedLoadFirmware
  cases asked : fwName hw with
  | none => exact ⟨Int.negSucc_lt_zero 21, rfl, rfl, rfl⟩
  | some name =>
    rw [asked, Option.bind_some] at none_
    dsimp only
    cases answer : request name with
    | error ret => exact ⟨ret.2, rfl, rfl, rfl⟩
    | ok fw =>
      rw [answer] at none_
      cases none_

theorem start_le (i : Nat) (below : i < fw.nRegion) (listed : Listed regions fw) :
    fw.start i % 2 ^ 32 = fw.start i := by
  have inside := listed.slices i below
  have small := fw.size_lt
  exact Nat.mod_eq_of_lt (by omega)

/-- All reads lie in the file where its list of regions and their bytes do. -/
theorem reads_inside (listed : Listed regions fw) :
    ∀ r ∈ (after regions fw mem shared).reads, 0 ≤ r.1 ∧ r.1 + r.2 ≤ fw.size := by
  have heads := listed.heads
  have progress := after_progress regions fw mem shared
  intro r member
  unfold trailerSize infoSize at heads
  rcases progress.read r member with first | ⟨i, below, addr | len | slice⟩
  · unfold trailerReads at first
    simp only [List.mem_cons, List.not_mem_nil, or_false] at first
    unfold Firmware.hdr trailerSize at first
    rcases first with rfl | rfl | rfl <;> dsimp only <;> omega
  · subst addr
    unfold Firmware.region Firmware.hdr trailerSize infoSize
    dsimp only
    omega
  · subst len
    unfold Firmware.region Firmware.hdr trailerSize infoSize
    dsimp only
    omega
  · subst slice
    have inside := listed.slices i below
    rw [start_le i below listed]
    dsimp only
    omega

theorem held_of_loadable (loadable : Loadable regions fw hw mem shared) :
    Held fw (after regions fw mem shared).mem := by
  have progress := after_progress regions fw mem shared
  intro i below x covers
  by_cases copied : ∃ i' < fw.nRegion, ∃ j, Copied regions fw shared i' j ∧ fw.Covers i' x
  · obtain ⟨i', below', covers', value⟩ := progress.new x copied
    rw [start_le i' below' loadable.listed] at value
    exact value.trans (loadable.agree i' below' i below x covers' covers)
  · have outside : ∀ i' < fw.nRegion, ∀ j, Copied regions fw shared i' j → ¬ fw.Covers i' x :=
      fun i' below' j it covers' => copied ⟨i', below', j, it, covers'⟩
    exact (progress.old x outside).trans (loadable.kept i below x covers outside)

theorem writes_inside (loadable : Loadable regions fw hw mem shared) :
    ∀ w ∈ (after regions fw mem shared).writes ++ [(woRegionBoot, ⟨bootCr hw, 4⟩),
        (woRegionBoot, ⟨0x018, 4⟩), (woRegionBoot, ⟨0x050, 4⟩)],
      (regions w.1).mapped = true ∧ w.2.Within (regions w.1).size := by
  have progress := after_progress regions fw mem shared
  obtain ⟨mapped, space⟩ := loadable.boot
  have above : 0x060 ≤ bootCr hw := by
    unfold bootCr
    split_ifs <;> decide
  intro w member
  rcases List.mem_append.mp member with copy | boot
  · obtain ⟨i, below, j, copied, rfl⟩ := (progress.writes w).mp copy
    have room := loadable.room i below j copied
    have mapped := List.mem_takeWhile_imp (p := fun j => (regions j).mapped) copied.1.1
    refine ⟨mapped, ?_⟩
    unfold Access.Within
    dsimp only
    omega
  · simp only [List.mem_cons, List.not_mem_nil, or_false] at boot
    rcases boot with rfl | rfl | rfl
    · exact ⟨mapped, space⟩
    · refine ⟨mapped, ?_⟩
      unfold Access.Within
      dsimp only
      omega
    · refine ⟨mapped, ?_⟩
      unfold Access.Within
      dsimp only
      omega

/-- A file that is obtained is loaded as it should just when it is loadable. -/
theorem loaded_iff (there : obtained hw request = some fw) :
    Loaded regions fw (mtkWedLoadFirmware regions hw request mem shared) ↔
      Loadable regions fw hw mem shared := by
  have progress := after_progress regions fw mem shared
  rw [load_eq there]
  constructor
  · rintro ⟨-, writes, ⟨-, listed, held⟩ | ⟨negative, -⟩⟩
    · dsimp only at writes held
      refine ⟨listed, fun i below j copied => ?_, ?_, fun i below i' below' x covers covers' => ?_,
        fun i below x covers outside => ?_⟩
      · have copy : (j, ⟨0, fw.len i⟩) ∈ (after regions fw mem shared).writes :=
          (progress.writes _).mpr ⟨i, below, j, copied, rfl⟩
        have inside := (writes _ (List.mem_append_left _ copy)).2
        unfold Access.Within at inside
        dsimp only at inside
        omega
      · exact writes (woRegionBoot, ⟨bootCr hw, 4⟩) (List.mem_append_right _ (by simp))
      · exact (held i below x covers).symm.trans (held i' below' x covers')
      · exact (progress.old x outside).symm.trans (held i below x covers)
    · exact absurd negative (lt_irrefl 0)
  · intro loadable
    exact ⟨reads_inside loadable.listed, writes_inside loadable,
      .inl ⟨rfl, loadable.listed, held_of_loadable loadable⟩⟩

end Whole

/-- A call does what it is to do just when there is no file, or the file is loadable. -/
theorem load_meets_iff (regions : Nat → FwRegion) (hw : Hw)
    (request : String → Except {ret : Int // ret < 0} Firmware) (mem : Bytes)
    (shared : Nat → Bool) :
    Meets regions hw request (mtkWedLoadFirmware regions hw request mem shared) ↔
      ∀ fw, obtained hw request = some fw → Loadable regions fw hw mem shared := by
  unfold Meets
  cases there : obtained hw request with
  | none =>
    dsimp only
    refine ⟨fun _ fw some_ => ?_, fun _ => fail_eq there⟩
    cases some_
  | some fw =>
    dsimp only
    rw [loaded_iff there]
    constructor
    · rintro loadable found same
      obtain rfl := Option.some.inj same
      exact loadable
    · exact fun all => all fw rfl

/-- A file with one region of no bytes, at an address that is not mapped -/
def strayRegion : Firmware where
  data off := if off = 42 then 1 else if off = 19 then 0x90 else 0
  size := 76
  size_lt := by decide

theorem stray_region_starts : ¬ ∀ (regions : Nat → FwRegion) (hw : Hw)
    (request : String → Except {ret : Int // ret < 0} Firmware) (mem : Bytes)
    (shared : Nat → Bool),
    Meets regions hw request (mtkWedLoadFirmware regions hw request mem shared) := by
  intro all
  let regions : Nat → FwRegion := fun _ => ⟨true, 0x4fd00000, 0x40000, false⟩
  have loaded : Loaded regions strayRegion _ :=
    all regions ⟨2, 0, false⟩ (fun _ => .ok strayRegion) (fun _ => 0) fun _ => false
  rcases loaded.outcome with ⟨-, listed, -⟩ | ⟨negative, -⟩
  · obtain ⟨j, -, -, same⟩ := listed.found 0 (by decide)
    exact absurd same (by decide)
  · rw [load_eq rfl] at negative
    exact absurd negative (by decide)

end Filogic.Wed.Load
