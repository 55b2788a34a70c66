import Filogic.WifiTool.Assembled

/-! Whole packages: what the sections of a package that is as it should be leave behind. -/

namespace Filogic.WifiTool

section Good

variable (hal : Hal)

def isIntf (sec : Section) : Bool := sec.type = "wifi-iface"

def isDevice (sec : Section) : Bool := sec.type = "wifi-device"

/-- An interface section with the mode `ap` on a radio. -/
def isApSection (r : Fin 3) (sec : Section) : Bool :=
  isIntf sec && decide (radioOf hal sec.options = r) &&
    (seenAt hal 0 sec.options).any fun seen => isAp seen.2

def apSections (r : Fin 3) (package : List Section) : Nat := package.countP (isApSection hal r)

/-- The slot of the `c`-th VAP of a radio. -/
def slotOf (r : Fin 3) (c : Nat) : Option Nat :=
  (List.range hal.maxVaps).find? fun i =>
    ((startMap hal r).vapArray i).vapIndex = r + c * hal.maxRadioNum

def slotPhy (r : Fin 3) (i : Nat) : Int :=
  let radio := ((startMap hal r).vapArray i).radioIndex
  if hal.singleWiphy then radio else hal.radioIndexToPhy radio

/-- Sections of other types come after a device, before the next interface. -/
def othersInside : Bool → List Section → Prop
  | _, [] => True
  | parsing, sec :: rest =>
      (isIntf sec ∨ isDevice sec ∨ parsing) ∧ othersInside (startParsing parsing sec) rest

/-- The `c`-th VAP of a radio is one of its map, and its address can be read. -/
def Stored (r : Fin 3) (c : Nat) : Prop :=
  hal.radioEnable r ∧ ∃ i, slotOf hal r c = some i ∧ (hal.macaddress (slotPhy hal r i)).isSome

structure Good (package : List Section) : Prop where
  radios : hal.maxRadioNum ≤ 3
  intfs : ∀ sec ∈ package, isIntf sec → GoodIntf hal sec.options
  others : othersInside false package
  apart : hal.maxRadioNum ≠ 0 ∨ ∀ r, apSections hal r package ≤ 1
  stored : ∀ r, ∀ c < apSections hal r package, Stored hal r c

/-- Two interfaces of a radio have different offsets, and different indices when both are VAPs. -/
def Apart (a b : IntfParam × Option Nat) : Prop :=
  a.1.radioIndex = b.1.radioIndex → a.1.macOffset ≠ b.1.macOffset ∧
    (a.1.staMode = false → b.1.staMode = false → a.1.apIndex ≠ b.1.apIndex)

/-- A VAP is in the slot of its radio that has its index. -/
def InOwnSlot (s : Uci) (h : IntfParam × Option Nat) : Prop :=
  ∃ r : Fin 3, h.1.radioIndex = r ∧ ∃ i < hal.maxVaps, h.2 = some i ∧
    ((s.vapMap r).vapArray i).vapIndex = h.1.apIndex ∧
    ∃ base, ((s.vapMap r).vapArray i).bss = some ⟨h.1, base⟩

/-- The slots of a radio that were filled. -/
def filled (s : Uci) (r : Fin 3) : Finset Nat :=
  (Finset.range hal.maxVaps).filter fun i => ((s.vapMap r).vapArray i).bss.isSome

end Good

section Fill

/-- A slot with the settings of a VAP. -/
def VapMap.fill (map : VapMap) (i : Nat) (bss : BssInfo) : VapMap :=
  { map with vapArray := Function.update map.vapArray i { map.vapArray i with bss := some bss } }

variable (map : VapMap) (i : Nat) (bss : BssInfo)

@[simp]
theorem VapMap.fill_vapIndex (j : Nat) :
    ((map.fill i bss).vapArray j).vapIndex = (map.vapArray j).vapIndex := by
  by_cases same : j = i
  · subst same
    simp [VapMap.fill]
  · simp [VapMap.fill, same]

@[simp]
theorem VapMap.fill_radioIndex (j : Nat) :
    ((map.fill i bss).vapArray j).radioIndex = (map.vapArray j).radioIndex := by
  by_cases same : j = i
  · subst same
    simp [VapMap.fill]
  · simp [VapMap.fill, same]

@[simp]
theorem VapMap.fill_bss (j : Nat) :
    ((map.fill i bss).vapArray j).bss = if j = i then some bss else (map.vapArray j).bss := by
  by_cases same : j = i
  · subst same
    simp [VapMap.fill]
  · simp [VapMap.fill, same]

/-- The parameters of the next VAP of a radio. -/
def nextAp (hal : Hal) (s : Uci) (r : Fin 3) (settings : String → Option String) : IntfParam :=
  ⟨r, false, r + s.apCount r * hal.maxRadioNum, 0, s.staCount r + s.apCount r, settings⟩

end Fill

section Invariant

variable (hal : Hal)

/-- What holds after some of the sections. -/
structure Inv (done : List Section) (s : Uci) : Prop where
  all : s.handled.length = done.countP isIntf
  aps : ∀ r, s.apCount r = apSections hal r done
  vaps : ∀ r, (s.vapMap r).numVaps = s.apCount r
  index : ∀ r i, ((s.vapMap r).vapArray i).vapIndex = ((startMap hal r).vapArray i).vapIndex
  radio : ∀ r i, ((s.vapMap r).vapArray i).radioIndex = ((startMap hal r).vapArray i).radioIndex
  slots : ∀ r, ∀ i ∈ filled hal s r, ∃ c < s.apCount r, slotOf hal r c = some i
  counts : ∀ r, (filled hal s r).card = s.apCount r
  offsets : ∀ h ∈ s.handled, ∃ r : Fin 3, h.1.radioIndex = r ∧
    h.1.macOffset < s.staCount r + s.apCount r
  own : ∀ h ∈ s.handled, h.1.staMode = false → InOwnSlot hal s h ∧
    ∀ r : Fin 3, h.1.radioIndex = r → ∃ c < s.apCount r, h.1.apIndex = r + c * hal.maxRadioNum ∧
      h.2 = slotOf hal r c
  apart : s.handled.Pairwise Apart

theorem slotOf_index {r : Fin 3} {c i : Nat} (found : slotOf hal r c = some i) :
    i < hal.maxVaps ∧ ((startMap hal r).vapArray i).vapIndex = r + c * hal.maxRadioNum := by
  constructor
  · simpa using List.mem_of_find?_eq_some found
  · simpa using List.find?_some found

/-- VAPs with different indices have different slots. -/
theorem slotOf_ne (r : Fin 3) (c c' i : Nat) (found : slotOf hal r c' = some i)
    (fresh : (c : Int) * hal.maxRadioNum ≠ c' * hal.maxRadioNum) : slotOf hal r c ≠ some i := by
  intro same
  have here := (slotOf_index hal found).2
  have there := (slotOf_index hal same).2
  exact fresh (by omega)

theorem apSections_append (r : Fin 3) (done : List Section) (sec : Section) :
    apSections hal r (done ++ [sec]) =
      apSections hal r done + if isApSection hal r sec then 1 else 0 := by
  simp [apSections, List.countP_append, List.countP_singleton]

section Steps

variable {hal} {done : List Section} {s : Uci} {sec : Section}

/-- A section that is no interface. -/
theorem Inv.other (inv : Inv hal done s) (other : isIntf sec = false) (parsing : Bool)
    (radios : List RadioParam) :
    Inv hal (done ++ [sec]) { s with parsingRadio := parsing, radios := radios } where
  all := by simpa [List.countP_append, List.countP_singleton, other] using inv.all
  aps r := by
    rw [apSections_append, isApSection, other]
    exact inv.aps r
  vaps := inv.vaps
  index := inv.index
  radio := inv.radio
  slots := inv.slots
  counts := inv.counts
  offsets := inv.offsets
  own := inv.own
  apart := inv.apart

/-- One more offset is taken from the counters. -/
theorem Inv.pairwise (inv : Inv hal done s) (intf : IntfParam) (slot : Option Nat) (r : Fin 3)
    (radio : intf.radioIndex = r) (offset : intf.macOffset = s.staCount r + s.apCount r)
    (index : intf.staMode = false → ∀ c < s.apCount r,
      intf.apIndex ≠ r + c * hal.maxRadioNum) :
    (s.handled ++ [(intf, slot)]).Pairwise Apart := by
  rw [List.pairwise_append]
  refine ⟨inv.apart, List.pairwise_singleton _ _, ?_⟩
  intro h member new isNew same
  rw [List.mem_singleton] at isNew
  subst isNew
  have radioSame : h.1.radioIndex = r := same.trans radio
  constructor
  · obtain ⟨r', radio', below⟩ := inv.offsets h member
    have equal : r' = r := Fin.ext (by omega)
    rw [equal] at below
    dsimp only
    omega
  · intro ap newAp equal
    obtain ⟨c, less, value, -⟩ := (inv.own h member ap).2 r radioSame
    exact index newAp c less (equal.symm.trans value)

/-- Offsets stay below counters that grow. -/
theorem Inv.offsets_mono (inv : Inv hal done s) (intf : IntfParam) (slot : Option Nat) (r : Fin 3)
    (radio : intf.radioIndex = r) (offset : intf.macOffset = s.staCount r + s.apCount r)
    (sta ap : Fin 3 → Nat) (more : ∀ r', s.staCount r' + s.apCount r' ≤ sta r' + ap r')
    (new : s.staCount r + s.apCount r < sta r + ap r) :
    ∀ h ∈ s.handled ++ [(intf, slot)], ∃ r' : Fin 3, h.1.radioIndex = r' ∧
      h.1.macOffset < sta r' + ap r' := by
  intro h member
  rw [List.mem_append, List.mem_singleton] at member
  rcases member with old | rfl
  · obtain ⟨r', radio', below⟩ := inv.offsets h old
    have bound := more r'
    exact ⟨r', radio', by omega⟩
  · exact ⟨r, radio, by dsimp only; omega⟩

theorem Inv.sta (inv : Inv hal done s) (intf : isIntf sec) (noAp : ∀ r, isApSection hal r sec = false)
    (r : Fin 3) (settings : String → Option String) :
    Inv hal (done ++ [sec]) (intfStep hal { s with parsingRadio := false } r true settings) where
  all := by simp [intfStep, List.countP_append, intf, inv.all]
  aps r' := by
    rw [apSections_append, noAp]
    exact inv.aps r'
  vaps := inv.vaps
  index := inv.index
  radio := inv.radio
  slots := inv.slots
  counts := inv.counts
  offsets := by
    refine inv.offsets_mono _ _ r rfl rfl (Function.update s.staCount r (s.staCount r + 1)) s.apCount
      ?_ ?_
    · intro r'
      by_cases same : r' = r
      · subst same
        simp
      · simp [same]
    · simp
  own := by
    intro h member ap
    rw [intfStep, if_pos rfl, List.mem_append, List.mem_singleton] at member
    rcases member with old | rfl
    · exact inv.own h old ap
    · cases ap
  apart := inv.pairwise _ _ r rfl rfl nofun

/-- `set_ap_param` finds the slot of the next VAP of the radio. -/
theorem Inv.setApParam_stored (inv : Inv hal done s) (intf : IntfParam) (r : Fin 3)
    (radio : intf.radioIndex = r) (index : intf.apIndex = r + s.apCount r * hal.maxRadioNum)
    (stored : Stored hal r (s.apCount r)) : ∃ i base,
      slotOf hal r (s.apCount r) = some i ∧
      setApParam hal intf (s.vapMap r) = ((s.vapMap r).fill i ⟨intf, base⟩, some i) := by
  obtain ⟨enabled, i, found, readable⟩ := stored
  obtain ⟨address, known⟩ := Option.isSome_iff_exists.mp readable
  have place : vapIndexInMap hal (s.vapMap r) intf.apIndex = i := by
    simp only [slotOf] at found
    simp only [vapIndexInMap, inv.index, index, found, Option.getD_some]
  have there : intf.radioIndex ≠ -1 := by
    rw [radio]
    omega
  have on : hal.radioEnable intf.radioIndex = true := radio ▸ enabled
  obtain ⟨base, isBase⟩ : ∃ base,
      interfaceBase hal (slotPhy hal r i) (intf.settings "macaddr") = some base := by
    rw [interfaceBase, known]
    exact ⟨_, rfl⟩
  rw [slotPhy] at isBase
  refine ⟨i, base, found, ?_⟩
  simp only [setApParam, if_neg there, on, Bool.not_true, Bool.false_eq_true, if_false, place,
    inv.radio, isBase, VapMap.fill]

theorem Inv.ap (inv : Inv hal done s) (intf : isIntf sec) (r : Fin 3)
    (isAp : ∀ r', isApSection hal r' sec = decide (r' = r)) (settings : String → Option String)
    (stored : Stored hal r (s.apCount r))
    (fresh : ∀ c < s.apCount r, (c : Int) * hal.maxRadioNum ≠ s.apCount r * hal.maxRadioNum) :
    Inv hal (done ++ [sec]) (intfStep hal { s with parsingRadio := false } r false settings) := by
  obtain ⟨i, base, found, set⟩ := inv.setApParam_stored (nextAp hal s r settings) r rfl rfl stored
  have result : intfStep hal { s with parsingRadio := false } r false settings = { s with
      parsingRadio := false
      apCount := Function.update s.apCount r (s.apCount r + 1)
      vapMap := Function.update s.vapMap r { (s.vapMap r).fill i ⟨nextAp hal s r settings, base⟩ with
        numVaps := (s.vapMap r).numVaps + 1 }
      handled := s.handled ++ [(nextAp hal s r settings, some i)] } := by
    rw [nextAp] at set
    simp only [intfStep, Bool.false_eq_true, if_false, set]
    rfl
  rw [result]
  have free : ∀ c < s.apCount r, slotOf hal r c ≠ some i := fun c less =>
    slotOf_ne hal r c (s.apCount r) i found (fresh c less)
  obtain ⟨inside, index⟩ := slotOf_index hal found
  have notFilled : i ∉ filled hal s r := by
    intro member
    obtain ⟨c, less, same⟩ := inv.slots r i member
    exact free c less same
  constructor
  · simp [List.countP_append, intf, inv.all]
  · intro r'
    rw [apSections_append, isAp]
    by_cases same : r' = r
    · subst same
      simp [inv.aps]
    · simp [same, inv.aps]
  · intro r'
    by_cases same : r' = r
    · subst same
      simp [inv.vaps]
    · simp [same, inv.vaps]
  · intro r' j
    by_cases same : r' = r
    · subst same
      simp [inv.index]
    · simp [same, inv.index]
  · intro r' j
    by_cases same : r' = r
    · subst same
      simp [inv.radio]
    · simp [same, inv.radio]
  · intro r' j member
    by_cases same : r' = r
    · subst same
      by_cases new : j = i
      · exact ⟨s.apCount r', by simp, new ▸ found⟩
      · have old : j ∈ filled hal s r' := by
          simpa [filled, new] using member
        obtain ⟨c, less, slot⟩ := inv.slots r' j old
        exact ⟨c, by simp only [Function.update_self]; omega, slot⟩
    · have old : j ∈ filled hal s r' := by
        simpa [filled, same] using member
      simpa [same] using inv.slots r' j old
  · intro r'
    by_cases same : r' = r
    · subst same
      have more : ∀ s' : Uci, (s'.vapMap r').vapArray =
          ((s.vapMap r').fill i ⟨nextAp hal s r' settings, base⟩).vapArray →
          filled hal s' r' = insert i (filled hal s r') := by
        intro s' array
        ext j
        by_cases new : j = i
        · simp [filled, array, new, inside]
        · simp [filled, array, new]
      rw [more _ (by simp), Finset.card_insert_of_notMem notFilled, inv.counts]
      simp
    · have kept := inv.counts r'
      simpa [filled, same] using kept
  · refine inv.offsets_mono _ _ r rfl rfl s.staCount (Function.update s.apCount r (s.apCount r + 1))
      ?_ ?_
    · intro r'
      by_cases same : r' = r
      · subst same
        simp
      · simp [same]
    · simp
  · intro h member ap
    rw [List.mem_append, List.mem_singleton] at member
    rcases member with old | rfl
    · obtain ⟨⟨r', radio, j, below, slot, own, address, bss⟩, counted⟩ := inv.own h old ap
      obtain ⟨c, less, value, place⟩ := counted r' radio
      constructor
      · refine ⟨r', radio, j, below, slot, ?_, address, ?_⟩
        · by_cases same : r' = r
          · subst same
            simpa using own
          · simpa [same] using own
        · by_cases same : r' = r
          · subst same
            have other : j ≠ i := by
              rintro rfl
              exact free c less (place.symm.trans slot)
            simpa [other] using bss
          · simpa [same] using bss
      · intro r'' radio'
        obtain rfl : r'' = r' := Fin.ext (by omega)
        refine ⟨c, ?_, value, place⟩
        by_cases same : r'' = r
        · subst same
          simp only [Function.update_self]
          omega
        · simpa [same] using less
    · constructor
      · refine ⟨r, rfl, i, inside, rfl, ?_, base, ?_⟩
        · simp [inv.index, index, nextAp]
        · simp
      · intro r' radio
        obtain rfl : r' = r := Fin.ext (by simpa [nextAp] using radio.symm)
        exact ⟨s.apCount r', by simp, rfl, found.symm⟩
  · apply inv.pairwise _ _ r rfl rfl
    intro _ c less same
    have numbers : (r : Int) + s.apCount r * hal.maxRadioNum = r + c * hal.maxRadioNum := same
    exact fresh c less (by omega)

end Steps

end Invariant

section Run

variable {hal : Hal}

end Run

end Filogic.WifiTool
