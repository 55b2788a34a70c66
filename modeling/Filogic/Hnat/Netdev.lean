import Filogic.Lib.Replace
import Filogic.Lib.Runs

/-! The net devices that the driver holds on to: the external interfaces, the table of Wi-Fi
interfaces, and the devices that are found by the names of the PPE and WAN ports. -/

namespace Filogic.Hnat
open Lib

abbrev Name := List Char

def maxExtDevs : Nat := 63
def maxIfNum : Nat := 64

/-- `struct extdev_entry` -/
structure ExtdevEntry where
  name : Name
  dev : Option Nat
  deriving DecidableEq, Repr

/-- The part of `struct mtk_hnat` that points to net devices, the Wi-Fi table without its unused
member 0; whether the driver is bound; and the references it holds on each device. -/
structure HnatDevs where
  bound : Bool
  ppd : Name
  wan : Name
  extIf : List ExtdevEntry
  wifiHookIf : List (Option Nat)
  gPpdev : Option Nat
  gWandev : Option Nat
  refs : Nat → Int

def devHold (dev : Nat) (s : HnatDevs) : HnatDevs :=
  { s with refs := fun d => if d = dev then s.refs d + 1 else s.refs d }

def devPut (dev : Nat) (s : HnatDevs) : HnatDevs :=
  { s with refs := fun d => if d = dev then s.refs d - 1 else s.refs d }

/-- `dev_get_by_name` holds what it finds. -/
def devGet (found : Option Nat) (s : HnatDevs) : HnatDevs :=
  match found with
  | some dev => devHold dev s
  | none => s

def putIfAny (dev : Option Nat) (s : HnatDevs) : HnatDevs :=
  match dev with
  | some dev => devPut dev s
  | none => s

/-- `find_extif_from_devname` -/
def findExtifFromDevname (name : Name) (s : HnatDevs) : Bool := s.extIf.any (·.name = name)

/-- `extif_set_dev` -/
def extifSetDev (dev : Nat) (name : Name) (s : HnatDevs) : HnatDevs :=
  match replaceFirst (fun e => e.name = name && e.dev = none)
      (fun e => { e with dev := some dev }) s.extIf with
  | some extIf => { devHold dev s with extIf := extIf }
  | none => s

/-- `extif_put_dev` -/
def extifPutDev (dev : Nat) (s : HnatDevs) : HnatDevs :=
  match replaceFirst (·.dev = some dev) (fun e => { e with dev := none }) s.extIf with
  | some extIf => { devPut dev s with extIf := extIf }
  | none => s

/-- `ext_if_add` -/
def extIfAdd (entry : ExtdevEntry) (s : HnatDevs) : HnatDevs :=
  if s.extIf.length < maxExtDevs then { s with extIf := s.extIf ++ [entry] } else s

/-- The end of `hnat_hw_init`, with what the two lookups find. -/
def hwInitDevs (found : Option Nat × Option Nat) (s : HnatDevs) : HnatDevs :=
  let s := { devGet found.1 s with gPpdev := found.1 }
  { devGet found.2 s with gWandev := found.2 }

/-- `hnat_probe`, for the names in the device tree; one lookup for each PPE that is initialised,
and whether the probe succeeds. The driver's data is freed where it does not. -/
def probeDevs (ppd wan : Name) (extDevices : List Name) (lookups : List (Option Nat × Option Nat))
    (succeeds : Bool) (s : HnatDevs) : HnatDevs :=
  let empty : HnatDevs :=
    { bound := true, ppd := ppd, wan := wan, extIf := []
      wifiHookIf := List.replicate (maxIfNum - 1) none, gPpdev := none, gWandev := none
      refs := s.refs }
  let named := extDevices.foldl (fun s name => extIfAdd ⟨name, none⟩ s) empty
  let started := lookups.foldl (fun s found => hwInitDevs found s) named
  if succeeds then started else { empty with bound := false, refs := started.refs }

/-- `hnat_warm_init` -/
def warmInitDevs (lookups : List (Option Nat × Option Nat)) (s : HnatDevs) : HnatDevs :=
  lookups.foldl (fun s found => hwInitDevs found s) s

/-- The loop of `hnat_release_netdev` from index `i` on: `ext_if_del` closes the gap, and the
index moves on nevertheless. -/
def releaseExtIf : Nat → Nat → HnatDevs → HnatDevs
  | 0, _, s => s
  | left + 1, i, s =>
    match s.extIf[i]? with
    | none => s
    | some entry =>
      releaseExtIf left (i + 1) { putIfAny entry.dev s with extIf := s.extIf.eraseIdx i }

/-- `hnat_release_netdev`, after which the driver's data is freed -/
def releaseNetdev (s : HnatDevs) : HnatDevs :=
  let released := putIfAny s.gWandev (putIfAny s.gPpdev (releaseExtIf maxExtDevs 0 s))
  { released with
    bound := false, extIf := [], wifiHookIf := [], gPpdev := none, gWandev := none }

/-- `mtk_ppe_dev_register_hook` -/
def ppeDevRegisterHook (dev : Nat) (name : Name) (noMemory : Bool) (s : HnatDevs) : HnatDevs :=
  if some dev ∈ s.wifiHookIf then s
  else
    match replaceFirst (· = none) (fun _ => some dev) s.wifiHookIf with
    | none => s
    | some wifiHookIf =>
      let add := fun s : HnatDevs => { devHold dev s with wifiHookIf := wifiHookIf }
      if findExtifFromDevname name s then add (extifSetDev dev name s)
      else if maxExtDevs ≤ s.extIf.length then s
      else if noMemory then s
      else add (extIfAdd ⟨name, some dev⟩ (devHold dev s))

/-- `mtk_ppe_dev_unregister_hook` -/
def ppeDevUnregisterHook (dev : Nat) (s : HnatDevs) : HnatDevs :=
  let s := match replaceFirst (· = some dev) (fun _ => none) s.wifiHookIf with
    | some wifiHookIf => { devPut dev s with wifiHookIf := wifiHookIf }
    | none => s
  extifPutDev dev s

/-- The events of a net device that `nf_hnat_netdevice_event` handles, with what the lookups
would find; and `get_wandev_from_index`, which looks the WAN port up as well. -/
inductive NetdeviceEvent where
  | up (dev : Nat) (name : Name)
  | goingDown (dev : Nat)
  | unregister (dev : Nat)
  | register (name : Name) (ppdev wandev : Option Nat)
  | resetNatDone (lookups : List (Option Nat × Option Nat))
  | wandevFromIndex (found : Option Nat)

def unregisterDev (dev : Nat) (s : HnatDevs) : HnatDevs :=
  let s := if s.gPpdev = some dev then devPut dev { s with gPpdev := none } else s
  if s.gWandev = some dev then devPut dev { s with gWandev := none } else s

/-- `if (!g_ppdev) g_ppdev = dev_get_by_name(…)` -/
def lookupPpdev (found : Option Nat) (s : HnatDevs) : HnatDevs :=
  if s.gPpdev = none then { devGet found s with gPpdev := found } else s

def lookupWandev (found : Option Nat) (s : HnatDevs) : HnatDevs :=
  if s.gWandev = none then { devGet found s with gWandev := found } else s

/-- `nf_hnat_netdevice_event` -/
def nfHnatNetdeviceEvent (s : HnatDevs) : NetdeviceEvent → HnatDevs
  | .up dev name => extifSetDev dev name s
  | .goingDown dev => if some dev ∈ s.wifiHookIf then s else extifPutDev dev s
  | .unregister dev => unregisterDev dev s
  | .register name ppdev wandev =>
    let s := if name = s.ppd then lookupPpdev ppdev s else s
    if s.wan.isPrefixOf name then lookupWandev wandev s else s
  | .resetNatDone lookups => warmInitDevs lookups s
  | .wandevFromIndex found => lookupWandev found s

/-- The notifier chain replays `register` and `up` for every device when the driver registers
with it, and `goingDown` and `unregister` when it leaves: these are events like the others. -/
inductive DevsEvent where
  | probe (ppd wan : Name) (extDevices : List Name)
      (lookups : List (Option Nat × Option Nat)) (succeeds : Bool)
  | remove
  | netdevice (event : NetdeviceEvent)
  | registerHook (dev : Nat) (name : Name) (noMemory : Bool)
  | unregisterHook (dev : Nat)

/-- Without a bound driver only a probe does anything. -/
def devsStep (s : HnatDevs) : DevsEvent → HnatDevs
  | .probe ppd wan extDevices lookups succeeds =>
    if s.bound then s else probeDevs ppd wan extDevices lookups succeeds s
  | .remove => if s.bound then releaseNetdev s else s
  | .netdevice event => if s.bound then nfHnatNetdeviceEvent s event else s
  | .registerHook dev name noMemory => if s.bound then ppeDevRegisterHook dev name noMemory s else s
  | .unregisterHook dev => if s.bound then ppeDevUnregisterHook dev s else s

def unbound : HnatDevs :=
  { bound := false, ppd := [], wan := [], extIf := [], wifiHookIf := [], gPpdev := none
    gWandev := none, refs := fun _ => 0 }

def points (slot : Option Nat) (dev : Nat) : Nat := if slot = some dev then 1 else 0

/-- The slots that point to a device. -/
def slots (s : HnatDevs) (dev : Nat) : Nat :=
  s.extIf.countP (·.dev = some dev) + s.wifiHookIf.countP (· = some dev) +
    points s.gPpdev dev + points s.gWandev dev

/-- One reference for each slot, and none without a driver. -/
structure RefsMatch (s : HnatDevs) : Prop where
  slots : ∀ dev, s.refs dev = slots s dev
  unbound : s.bound = false → ∀ dev, s.refs dev = 0

/-- The references match, and the external interfaces fit. -/
structure Holding (s : HnatDevs) : Prop where
  refs : RefsMatch s
  short : s.extIf.length ≤ maxExtDevs

/-- Each lookup comes to an empty slot. -/
def EmptyAt (ppdev wandev : Option Nat) : List (Option Nat × Option Nat) → Prop
  | [] => True
  | found :: rest => ppdev = none ∧ wandev = none ∧ EmptyAt found.1 found.2 rest

/-- The PPE and WAN ports are looked up into empty slots only; a probe fails with both slots
empty; a removal finds no Wi-Fi interface in the table and no device at an odd place of the external
interfaces; and the hooks, whose pointers outlive the driver, are called on a bound driver. -/
def Orderly (s : HnatDevs) : DevsEvent → Prop
  | .probe _ _ _ lookups succeeds => s.bound = false → EmptyAt none none lookups ∧
      (succeeds = false → ∀ found ∈ lookups, found = (none, none))
  | .remove => s.bound = true → (∀ dev, some dev ∉ s.wifiHookIf) ∧
      ∀ i entry, s.extIf[i]? = some entry → i % 2 = 1 → entry.dev = none
  | .netdevice (.resetNatDone lookups) => s.bound = true → EmptyAt s.gPpdev s.gWandev lookups
  | .netdevice _ => True
  | .registerHook _ _ _ | .unregisterHook _ => s.bound = true

section Slots

variable {s : HnatDevs}

/-- The first half of `RefsMatch`, which every function on a bound driver keeps. -/
def Match (s : HnatDevs) : Prop := ∀ dev, s.refs dev = slots s dev

@[simp] theorem points_none (dev : Nat) : points none dev = 0 := rfl

@[simp] theorem devHold_refs (dev d : Nat) :
    (devHold dev s).refs d = s.refs d + points (some dev) d := by
  simp only [devHold, points, Option.some.injEq, eq_comm]
  split_ifs <;> simp

@[simp] theorem devPut_refs (dev d : Nat) :
    (devPut dev s).refs d = s.refs d - points (some dev) d := by
  simp only [devPut, points, Option.some.injEq, eq_comm]
  split_ifs <;> simp

@[simp] theorem devGet_refs (found : Option Nat) (d : Nat) :
    (devGet found s).refs d = s.refs d + points found d := by
  cases found with
  | none => simp [devGet]
  | some dev => exact devHold_refs dev d

@[simp] theorem putIfAny_refs (dev : Option Nat) (d : Nat) :
    (putIfAny dev s).refs d = s.refs d - points dev d := by
  cases dev with
  | none => simp [putIfAny]
  | some dev => exact devPut_refs dev d

@[simp] theorem devGet_slots (found : Option Nat) (d : Nat) :
    slots (devGet found s) d = slots s d := by
  cases found <;> rfl

@[simp] theorem devHold_slots (dev d : Nat) : slots (devHold dev s) d = slots s d := rfl

@[simp] theorem devPut_slots (dev d : Nat) : slots (devPut dev s) d = slots s d := rfl

/-- Replacing the first member of a kind moves one slot. -/
theorem replaceFirst_points {α : Type} (slot : α → Option Nat) (p : α → Bool) (f : α → α)
    (members after : List α) (replaced : replaceFirst p f members = some after) (d : Nat) :
    ∃ a, p a = true ∧ after.countP (slot · = some d) + points (slot a) d =
      members.countP (slot · = some d) + points (slot (f a)) d := by
  obtain ⟨a, meets, counts⟩ := replaceFirst_countP p f members after replaced (slot · = some d)
  refine ⟨a, meets, ?_⟩
  simpa only [points, decide_eq_true_eq] using counts

theorem extifSetDev_match (dev : Nat) (name : Name) (holds : Match s) :
    Match (extifSetDev dev name s) := by
  intro d
  have before := holds d
  unfold extifSetDev
  split
  · rename_i extIf replaced
    obtain ⟨a, meets, counts⟩ := replaceFirst_points ExtdevEntry.dev _ _ _ _ replaced d
    simp only [Bool.and_eq_true, decide_eq_true_eq] at meets
    simp only [slots, devHold_refs, meets.2, points_none] at before counts ⊢
    simp only [devHold]
    omega
  · exact before

theorem extifPutDev_match (dev : Nat) (holds : Match s) : Match (extifPutDev dev s) := by
  intro d
  have before := holds d
  unfold extifPutDev
  split
  · rename_i extIf replaced
    obtain ⟨a, meets, counts⟩ := replaceFirst_points ExtdevEntry.dev _ _ _ _ replaced d
    simp only [decide_eq_true_eq] at meets
    simp only [slots, devPut_refs, meets, points_none] at before counts ⊢
    simp only [devPut]
    omega
  · exact before

theorem putPpdev_match (dev : Nat) (ppdev : s.gPpdev = some dev) (holds : Match s) :
    Match (devPut dev { s with gPpdev := none }) := by
  intro d
  have before := holds d
  rw [devPut_refs, devPut_slots]
  simp only [slots, ppdev, points_none] at before ⊢
  omega

theorem putWandev_match (dev : Nat) (wandev : s.gWandev = some dev) (holds : Match s) :
    Match (devPut dev { s with gWandev := none }) := by
  intro d
  have before := holds d
  rw [devPut_refs, devPut_slots]
  simp only [slots, wandev, points_none] at before ⊢
  omega

theorem unregisterDev_match (dev : Nat) (holds : Match s) : Match (unregisterDev dev s) := by
  unfold unregisterDev
  by_cases ppdev : s.gPpdev = some dev
  · rw [if_pos ppdev]
    dsimp only
    split_ifs with wandev
    · exact putWandev_match dev wandev (putPpdev_match dev ppdev holds)
    · exact putPpdev_match dev ppdev holds
  · rw [if_neg ppdev]
    dsimp only
    split_ifs with wandev
    · exact putWandev_match dev wandev holds
    · exact holds

theorem lookupPpdev_match (found : Option Nat) (holds : Match s) :
    Match (lookupPpdev found s) := by
  intro d
  have before := holds d
  have same := @devGet_slots s found d
  unfold lookupPpdev
  split_ifs with none
  · change (devGet found s).refs d = _
    rw [devGet_refs]
    have kept : (devGet found s).gPpdev = s.gPpdev := by cases found <;> rfl
    simp only [slots, kept, none, points_none] at before same ⊢
    omega
  · exact before

theorem lookupWandev_match (found : Option Nat) (holds : Match s) :
    Match (lookupWandev found s) := by
  intro d
  have before := holds d
  have same := @devGet_slots s found d
  unfold lookupWandev
  split_ifs with none
  · change (devGet found s).refs d = _
    rw [devGet_refs]
    have kept : (devGet found s).gWandev = s.gWandev := by cases found <;> rfl
    simp only [slots, kept, none, points_none] at before same ⊢
    omega
  · exact before

/-- Lookups into empty slots are what the notifier does as well. -/
theorem hwInitDevs_match (found : Option Nat × Option Nat) (ppdev : s.gPpdev = none)
    (wandev : s.gWandev = none) (holds : Match s) : Match (hwInitDevs found s) := by
  have first : lookupPpdev found.1 s = { devGet found.1 s with gPpdev := found.1 } :=
    if_pos ppdev
  have second : lookupWandev found.2 (lookupPpdev found.1 s) = hwInitDevs found s := by
    rw [first]
    apply if_pos
    rcases found.1 with _ | dev <;> exact wandev
  rw [← second]
  exact lookupWandev_match _ (lookupPpdev_match _ holds)

theorem hwInitDevs_slots (found : Option Nat × Option Nat) :
    (hwInitDevs found s).gPpdev = found.1 ∧ (hwInitDevs found s).gWandev = found.2 := by
  obtain ⟨ppdev, wandev⟩ := found
  cases wandev <;> exact ⟨rfl, rfl⟩

theorem warmInitDevs_match (lookups : List (Option Nat × Option Nat))
    (empty : EmptyAt s.gPpdev s.gWandev lookups) (holds : Match s) :
    Match (warmInitDevs lookups s) := by
  unfold warmInitDevs
  induction lookups generalizing s with
  | nil => exact holds
  | cons found rest ih =>
    obtain ⟨ppdev, wandev, empty⟩ := empty
    apply ih _ (hwInitDevs_match found ppdev wandev holds)
    rw [(hwInitDevs_slots found).1, (hwInitDevs_slots found).2]
    exact empty

/-- A Wi-Fi interface gets a slot of the table and a reference. -/
theorem addHook_match (dev : Nat) (wifiHookIf : List (Option Nat)) (t : HnatDevs)
    (replaced : replaceFirst (fun slot => decide (slot = none)) (fun _ => some dev)
      t.wifiHookIf = some wifiHookIf) (holds : Match t) :
    Match { devHold dev t with wifiHookIf := wifiHookIf } := by
  intro d
  have before := holds d
  obtain ⟨a, meets, counts⟩ := replaceFirst_points id _ _ _ _ replaced d
  simp only [decide_eq_true_eq] at meets
  change (devHold dev t).refs d = _
  rw [devHold_refs]
  simp only [slots, meets, id, points_none] at before counts ⊢
  simp only [devHold]
  omega

theorem registerHook_match (dev : Nat) (name : Name) (noMemory : Bool) (holds : Match s) :
    Match (ppeDevRegisterHook dev name noMemory s) := by
  unfold ppeDevRegisterHook
  by_cases present : some dev ∈ s.wifiHookIf
  · rw [if_pos present]
    exact holds
  · rw [if_neg present]
    split
    · exact holds
    · rename_i wifiHookIf replaced
      dsimp only
      by_cases named : findExtifFromDevname name s = true
      · rw [if_pos named]
        apply addHook_match
        · unfold extifSetDev
          split <;> exact replaced
        · exact extifSetDev_match dev name holds
      · rw [if_neg named]
        split_ifs with full noMem
        · exact holds
        · exact holds
        · have room : s.extIf.length < maxExtDevs := by omega
          have added : extIfAdd ⟨name, some dev⟩ (devHold dev s) =
              { devHold dev s with extIf := s.extIf ++ [⟨name, some dev⟩] } := if_pos room
          rw [added]
          apply addHook_match
          · exact replaced
          · intro d
            have before := holds d
            have one : List.countP (fun e : ExtdevEntry => decide (e.dev = some d))
                [⟨name, some dev⟩] = points (some dev) d := by
              simp [points, List.countP_singleton]
            change (devHold dev s).refs d = _
            rw [devHold_refs]
            simp only [slots, devHold, List.countP_append, one] at before ⊢
            omega

theorem unregisterHook_match (dev : Nat) (holds : Match s) :
    Match (ppeDevUnregisterHook dev s) := by
  unfold ppeDevUnregisterHook
  apply extifPutDev_match
  split
  · rename_i wifiHookIf replaced
    intro d
    have before := holds d
    obtain ⟨a, meets, counts⟩ := replaceFirst_points id _ _ _ _ replaced d
    simp only [decide_eq_true_eq] at meets
    change (devPut dev s).refs d = _
    rw [devPut_refs]
    simp only [slots, meets, id, points_none] at before counts ⊢
    simp only [devPut]
    omega
  · exact holds

theorem netdeviceEvent_match (event : NetdeviceEvent)
    (orderly : Orderly s (.netdevice event)) (bound : s.bound = true) (holds : Match s) :
    Match (nfHnatNetdeviceEvent s event) := by
  cases event with
  | up dev name => exact extifSetDev_match dev name holds
  | goingDown dev =>
    simp only [nfHnatNetdeviceEvent]
    split_ifs
    · exact holds
    · exact extifPutDev_match dev holds
  | unregister dev => exact unregisterDev_match dev holds
  | register name ppdev wandev =>
    have first : Match (if name = s.ppd then lookupPpdev ppdev s else s) := by
      split_ifs
      · exact lookupPpdev_match ppdev holds
      · exact holds
    simp only [nfHnatNetdeviceEvent]
    generalize (if name = s.ppd then lookupPpdev ppdev s else s) = t at first ⊢
    split_ifs
    · exact lookupWandev_match wandev first
    · exact first
  | resetNatDone lookups => exact warmInitDevs_match lookups (orderly bound) holds
  | wandevFromIndex found => exact lookupWandev_match found holds

/-! None of these binds the driver or unbinds it, or lets the external interfaces outgrow their
array. -/

/-- `t` comes from `s` without a change of the binding, and with no more entries than fit. -/
structure Fits (s t : HnatDevs) : Prop where
  bound : t.bound = s.bound
  short : s.extIf.length ≤ maxExtDevs → t.extIf.length ≤ maxExtDevs

theorem Fits.refl (s : HnatDevs) : Fits s s := ⟨rfl, id⟩

theorem Fits.trans {a b c : HnatDevs} (first : Fits a b) (second : Fits b c) : Fits a c :=
  ⟨second.bound.trans first.bound, fun short => second.short (first.short short)⟩

theorem devGet_fits (found : Option Nat) : Fits s (devGet found s) := by
  cases found <;> exact ⟨rfl, id⟩

theorem extifSetDev_fits (dev : Nat) (name : Name) : Fits s (extifSetDev dev name s) := by
  unfold extifSetDev
  split
  · rename_i extIf replaced
    refine ⟨rfl, ?_⟩
    intro short
    simpa [replaceFirst_length _ _ _ _ replaced] using short
  · exact Fits.refl s

theorem extifPutDev_fits (dev : Nat) : Fits s (extifPutDev dev s) := by
  unfold extifPutDev
  split
  · rename_i extIf replaced
    refine ⟨rfl, ?_⟩
    intro short
    simpa [replaceFirst_length _ _ _ _ replaced] using short
  · exact Fits.refl s

theorem extIfAdd_fits (entry : ExtdevEntry) : Fits s (extIfAdd entry s) := by
  unfold extIfAdd
  split_ifs with room
  · refine ⟨rfl, fun _ => ?_⟩
    rw [List.length_append, List.length_singleton]
    omega
  · exact Fits.refl s

theorem lookupPpdev_fits (found : Option Nat) : Fits s (lookupPpdev found s) := by
  unfold lookupPpdev
  split_ifs
  · exact (devGet_fits found).trans ⟨rfl, id⟩
  · exact Fits.refl s

theorem lookupWandev_fits (found : Option Nat) : Fits s (lookupWandev found s) := by
  unfold lookupWandev
  split_ifs
  · exact (devGet_fits found).trans ⟨rfl, id⟩
  · exact Fits.refl s

theorem hwInitDevs_fits (found : Option Nat × Option Nat) : Fits s (hwInitDevs found s) := by
  have first : Fits s { devGet found.1 s with gPpdev := found.1 } :=
    (devGet_fits found.1).trans ⟨rfl, id⟩
  exact first.trans ((devGet_fits found.2).trans ⟨rfl, id⟩)

theorem hwInits_fits (lookups : List (Option Nat × Option Nat)) :
    Fits s (lookups.foldl (fun s found => hwInitDevs found s) s) := by
  induction lookups generalizing s with
  | nil => exact Fits.refl s
  | cons found rest ih => exact (hwInitDevs_fits found).trans ih

theorem unregisterDev_fits (dev : Nat) : Fits s (unregisterDev dev s) := by
  unfold unregisterDev
  dsimp only
  by_cases ppdev : s.gPpdev = some dev
  · rw [if_pos ppdev]
    split_ifs <;> exact ⟨rfl, id⟩
  · rw [if_neg ppdev]
    split_ifs <;> exact ⟨rfl, id⟩

theorem netdeviceEvent_fits (event : NetdeviceEvent) : Fits s (nfHnatNetdeviceEvent s event) := by
  cases event with
  | up dev name => exact extifSetDev_fits dev name
  | goingDown dev =>
    simp only [nfHnatNetdeviceEvent]
    split_ifs
    · exact Fits.refl s
    · exact extifPutDev_fits dev
  | unregister dev => exact unregisterDev_fits dev
  | register name ppdev wandev =>
    have first : Fits s (if name = s.ppd then lookupPpdev ppdev s else s) := by
      split_ifs
      · exact lookupPpdev_fits ppdev
      · exact Fits.refl s
    simp only [nfHnatNetdeviceEvent]
    generalize (if name = s.ppd then lookupPpdev ppdev s else s) = t at first ⊢
    split_ifs
    · exact first.trans (lookupWandev_fits wandev)
    · exact first
  | resetNatDone lookups => exact hwInits_fits lookups
  | wandevFromIndex found => exact lookupWandev_fits found

theorem registerHook_fits (dev : Nat) (name : Name) (noMemory : Bool) :
    Fits s (ppeDevRegisterHook dev name noMemory s) := by
  unfold ppeDevRegisterHook
  by_cases present : some dev ∈ s.wifiHookIf
  · rw [if_pos present]
    exact Fits.refl s
  · rw [if_neg present]
    split
    · exact Fits.refl s
    · dsimp only
      split_ifs
      · exact (extifSetDev_fits dev name).trans ⟨rfl, id⟩
      · exact Fits.refl s
      · exact Fits.refl s
      · have held : Fits s (devHold dev s) := ⟨rfl, id⟩
        exact held.trans ((extIfAdd_fits _).trans ⟨rfl, id⟩)

theorem unregisterHook_fits (dev : Nat) : Fits s (ppeDevUnregisterHook dev s) := by
  unfold ppeDevUnregisterHook
  refine Fits.trans ?_ (extifPutDev_fits dev)
  split
  · exact ⟨rfl, id⟩
  · exact Fits.refl s

/-! ## Probe -/

theorem replicate_slots (n dev : Nat) :
    (List.replicate n (none : Option Nat)).countP (· = some dev) = 0 := by
  simp [List.countP_replicate]

theorem extIfAdd_named (names : List Name) (t : HnatDevs) (d : Nat) :
    let after := names.foldl (fun s name => extIfAdd ⟨name, none⟩ s) t
    after.refs = t.refs ∧ slots after d = slots t d ∧ after.gPpdev = t.gPpdev ∧
      after.gWandev = t.gWandev ∧ Fits t after := by
  induction names generalizing t with
  | nil => exact ⟨rfl, rfl, rfl, rfl, Fits.refl t⟩
  | cons name rest ih =>
    obtain ⟨refs, slots_eq, ppdev, wandev, fits⟩ := ih (extIfAdd ⟨name, none⟩ t)
    rw [List.foldl_cons]
    have one : (extIfAdd ⟨name, none⟩ t).refs = t.refs ∧
        slots (extIfAdd ⟨name, none⟩ t) d = slots t d ∧
        (extIfAdd ⟨name, none⟩ t).gPpdev = t.gPpdev ∧
        (extIfAdd ⟨name, none⟩ t).gWandev = t.gWandev := by
      unfold extIfAdd
      split_ifs
      · refine ⟨rfl, ?_, rfl, rfl⟩
        simp [slots]
      · exact ⟨rfl, rfl, rfl, rfl⟩
    exact ⟨refs.trans one.1, slots_eq.trans one.2.1, ppdev.trans one.2.2.1,
      wandev.trans one.2.2.2, (extIfAdd_fits _).trans fits⟩

theorem hwInits_nothing (lookups : List (Option Nat × Option Nat))
    (nothing : ∀ found ∈ lookups, found = (none, none)) (t : HnatDevs) :
    (lookups.foldl (fun s found => hwInitDevs found s) t).refs = t.refs := by
  induction lookups generalizing t with
  | nil => rfl
  | cons found rest ih =>
    obtain rfl := nothing found List.mem_cons_self
    exact ih (fun later member => nothing later (List.mem_cons_of_mem _ member)) _

theorem probeDevs_match (ppd wan : Name) (extDevices : List Name)
    (lookups : List (Option Nat × Option Nat)) (succeeds : Bool)
    (orderly : Orderly s (.probe ppd wan extDevices lookups succeeds)) (isUnbound : s.bound = false)
    (none_held : ∀ dev, s.refs dev = 0) :
    Holding (probeDevs ppd wan extDevices lookups succeeds s) := by
  obtain ⟨empty, failure⟩ := orderly isUnbound
  have blank : ∀ bound d, slots (⟨bound, ppd, wan, [], List.replicate (maxIfNum - 1) none, none,
      none, s.refs⟩ : HnatDevs) d = 0 := by
    intro bound d
    simp only [slots, replicate_slots, List.countP_nil, points_none]
  have named := extIfAdd_named extDevices
    (⟨true, ppd, wan, [], List.replicate (maxIfNum - 1) none, none, none, s.refs⟩ : HnatDevs)
  unfold probeDevs
  dsimp only
  generalize extDevices.foldl (fun s name => extIfAdd ⟨name, none⟩ s)
    (⟨true, ppd, wan, [], List.replicate (maxIfNum - 1) none, none, none, s.refs⟩ : HnatDevs) =
      t at named ⊢
  have refs : t.refs = s.refs := (named 0).1
  cases succeeds with
  | true =>
    have fits := (named 0).2.2.2.2.trans (@hwInits_fits t lookups)
    refine ⟨⟨?_, ?_⟩, fits.short (Nat.zero_le _)⟩
    · apply @warmInitDevs_match t lookups
      · rw [(named 0).2.2.1, (named 0).2.2.2.1]
        exact empty
      · intro d
        rw [(named d).2.1, blank, refs]
        exact none_held d
    · intro impossible
      rw [if_pos rfl, fits.bound] at impossible
      cases impossible
  | false =>
    have nothing := hwInits_nothing lookups (failure rfl) t
    rw [if_neg Bool.false_ne_true]
    refine ⟨⟨?_, ?_⟩, Nat.zero_le _⟩
    · intro d
      rw [nothing, refs, none_held d]
      exact_mod_cast (blank false d).symm
    · intro _ d
      dsimp only
      rw [nothing, refs]
      exact none_held d

/-! ## Removal -/

/-- At the odd places of the entries still ahead stands no device. -/
def OddFree (ahead : List ExtdevEntry) : Prop :=
  ∀ (i : Nat) (entry : ExtdevEntry), ahead[i]? = some entry → i % 2 = 1 → entry.dev = none

/-- The loop drops the reference of every entry ahead of it, if those that it skips have none. -/
theorem releaseExtIf_refs (left i : Nat) (s : HnatDevs) (enough : (s.extIf.drop i).length ≤ left)
    (odd : OddFree (s.extIf.drop i)) (d : Nat) :
    let after := releaseExtIf left i s
    after.refs d = s.refs d - (s.extIf.drop i).countP (·.dev = some d) ∧
      after.gPpdev = s.gPpdev ∧ after.gWandev = s.gWandev := by
  induction left generalizing i s with
  | zero =>
    have none_ahead := List.length_eq_zero_iff.mp (Nat.le_zero.mp enough)
    rw [none_ahead]
    exact ⟨by simp [releaseExtIf], rfl, rfl⟩
  | succ left ih =>
    unfold releaseExtIf
    rcases found : s.extIf[i]? with _ | entry
    · have past := List.getElem?_eq_none_iff.mp found
      rw [List.drop_eq_nil_of_le past]
      exact ⟨by simp, rfl, rfl⟩
    · obtain ⟨below, here⟩ := List.getElem?_eq_some_iff.mp found
      have ahead : s.extIf.drop i = entry :: s.extIf.drop (i + 1) := by
        rw [List.drop_eq_getElem_cons below, here]
      have next : (s.extIf.eraseIdx i).drop (i + 1) = s.extIf.drop (i + 2) := by
        have taken : (s.extIf.take i).length = i := by
          rw [List.length_take]
          omega
        rw [List.eraseIdx_eq_take_drop_succ, List.drop_append, taken,
          List.drop_eq_nil_of_le (by omega), List.nil_append, List.drop_drop]
        congr 1
        omega
      generalize moved : ({ putIfAny entry.dev s with extIf := s.extIf.eraseIdx i } : HnatDevs) = t
      have t_ahead : t.extIf.drop (i + 1) = s.extIf.drop (i + 2) := by rw [← moved, ← next]
      have t_refs : t.refs d = s.refs d - points entry.dev d := by
        rw [← moved]
        exact putIfAny_refs entry.dev d
      have t_slots : t.gPpdev = s.gPpdev ∧ t.gWandev = s.gWandev := by
        rw [← moved]
        cases entry.dev <;> exact ⟨rfl, rfl⟩
      have skipped : (s.extIf.drop (i + 1)).countP (·.dev = some d) =
          (s.extIf.drop (i + 2)).countP (·.dev = some d) := by
        rcases second : s.extIf[i + 1]? with _ | other
        · have past := List.getElem?_eq_none_iff.mp second
          rw [List.drop_eq_nil_of_le past, List.drop_eq_nil_of_le (by omega)]
        · obtain ⟨inside, there⟩ := List.getElem?_eq_some_iff.mp second
          have none : other.dev = Option.none := odd 1 other (by
            rw [List.getElem?_drop]
            exact second) rfl
          rw [List.drop_eq_getElem_cons inside, there]
          simp [none]
      have odd' : OddFree (t.extIf.drop (i + 1)) := by
        intro j e at_j parity
        rw [t_ahead, List.getElem?_drop] at at_j
        apply odd (j + 2) e _ (by omega)
        rw [List.getElem?_drop, ← at_j]
        congr 1
        omega
      have enough' : (t.extIf.drop (i + 1)).length ≤ left := by
        rw [t_ahead]
        simp only [List.length_drop] at enough ⊢
        omega
      obtain ⟨refs, ppdev, wandev⟩ := ih (i + 1) t enough' odd'
      have dropped : (releaseExtIf left (i + 1) t).refs d =
          s.refs d - (s.extIf.drop i).countP (·.dev = some d) := by
        rw [refs, t_refs, t_ahead, ← skipped, ahead, List.countP_cons]
        simp only [points, decide_eq_true_eq]
        push_cast
        ring
      subst moved
      exact ⟨dropped, ppdev.trans t_slots.1, wandev.trans t_slots.2⟩

theorem releaseNetdev_match (short : s.extIf.length ≤ maxExtDevs) (bound : s.bound = true)
    (orderly : Orderly s .remove) (holds : Match s) : Holding (releaseNetdev s) := by
  obtain ⟨noWifi, odd⟩ := orderly bound
  have gone : ∀ d, (releaseNetdev s).refs d = 0 := by
    intro d
    obtain ⟨refs, ppdev, wandev⟩ := releaseExtIf_refs maxExtDevs 0 s short odd d
    have before := holds d
    have wifi : s.wifiHookIf.countP (· = some d) = 0 := by
      rw [List.countP_eq_zero]
      intro slot member
      simp only [decide_eq_true_eq]
      rintro rfl
      exact noWifi d member
    change (putIfAny s.gWandev (putIfAny s.gPpdev (releaseExtIf maxExtDevs 0 s))).refs d = 0
    rw [putIfAny_refs, putIfAny_refs, refs]
    simp only [slots, wifi, List.drop_zero] at before ⊢
    omega
  refine ⟨⟨?_, fun _ => gone⟩, Nat.zero_le _⟩
  intro d
  rw [gone d]
  rfl

/-- A step on a bound driver that keeps the references keeps them also for the whole. -/
theorem Holding.bound_step {t : HnatDevs} (holding : Holding s) (bound : s.bound = true)
    (fits : Fits s t) (holds : Match t) : Holding t := by
  refine ⟨⟨holds, ?_⟩, fits.short holding.short⟩
  intro impossible
  rw [fits.bound, bound] at impossible
  cases impossible

/-- One step. -/
theorem devsStep_holding (holding : Holding s) (event : DevsEvent) (orderly : Orderly s event) :
    Holding (devsStep s event) := by
  have holds : Match s := holding.refs.slots
  cases event with
  | probe ppd wan extDevices lookups succeeds =>
    simp only [devsStep]
    split_ifs with bound
    · exact holding
    · have isUnbound : s.bound = false := by simpa using bound
      exact probeDevs_match ppd wan extDevices lookups succeeds orderly isUnbound
        (holding.refs.unbound isUnbound)
  | remove =>
    simp only [devsStep]
    split_ifs with bound
    · exact releaseNetdev_match holding.short bound orderly holds
    · exact holding
  | netdevice event =>
    simp only [devsStep]
    split_ifs with bound
    · exact holding.bound_step bound (netdeviceEvent_fits event)
        (netdeviceEvent_match event orderly bound holds)
    · exact holding
  | registerHook dev name noMemory =>
    simp only [devsStep]
    split_ifs with bound
    · exact holding.bound_step bound (registerHook_fits dev name noMemory)
        (registerHook_match dev name noMemory holds)
    · exact holding
  | unregisterHook dev =>
    simp only [devsStep]
    split_ifs with bound
    · exact holding.bound_step bound (unregisterHook_fits dev) (unregisterHook_match dev holds)
    · exact holding

end Slots

theorem unbound_holding : Holding unbound :=
  ⟨⟨fun _ => rfl, fun _ _ => rfl⟩, Nat.zero_le _⟩

/-- In a orderly run the references held are those of the slots. -/
theorem refs_match (events : List DevsEvent) (orderly : Along devsStep Orderly unbound events) :
    RefsMatch (run devsStep unbound events) := by
  have holding := run_invariant devsStep Orderly Holding
    (fun _ event holding orderly => devsStep_holding holding event orderly) unbound events
    unbound_holding orderly
  exact holding.refs

/-- One PPE, with a port that comes and goes, and a Wi-Fi interface. -/
def comeAndGo : List DevsEvent :=
  [.probe ['e', '0'] ['e', '1'] [['r', 'a']] [(some 0, none)] true,
    .netdevice (.register ['e', '1'] none (some 1)), .netdevice (.up 2 ['r', 'a']),
    .registerHook 3 ['w'] false, .netdevice (.goingDown 2), .unregisterHook 3,
    .netdevice (.unregister 0), .netdevice (.unregister 1), .remove]

theorem refs_match_comeAndGo :
    Along devsStep Orderly unbound comeAndGo ∧ RefsMatch (run devsStep unbound comeAndGo) := by
  have orderly : Along devsStep Orderly unbound comeAndGo := by
    refine ⟨?_, trivial, trivial, rfl, trivial, rfl, trivial, trivial, ?_, trivial⟩
    · exact fun _ => ⟨⟨rfl, rfl, trivial⟩, fun fails => by cases fails⟩
    · intro _
      refine ⟨?_, ?_⟩
      · intro dev member
        have table : (run devsStep unbound (comeAndGo.take 8)).wifiHookIf =
          List.replicate (maxIfNum - 1) none := by decide
        change some dev ∈ (run devsStep unbound (comeAndGo.take 8)).wifiHookIf at member
        rw [table] at member
        cases (List.mem_replicate.mp member).2
      · intro i entry at_i _
        have entries : (run devsStep unbound (comeAndGo.take 8)).extIf =
          [⟨['r', 'a'], none⟩, ⟨['w'], none⟩] := by decide
        change (run devsStep unbound (comeAndGo.take 8)).extIf[i]? = some entry at at_i
        have member := List.mem_of_getElem? at_i
        rw [entries] at member
        simp only [List.mem_cons, List.not_mem_nil, or_false] at member
        rcases member with rfl | rfl <;> rfl
  exact ⟨orderly, refs_match comeAndGo orderly⟩

/-- The second of two PPEs looks the same port up again. -/
theorem second_ppe_holds_twice : ¬∀ events, RefsMatch (run devsStep unbound events) := by
  intro refs
  have twice := (refs [.probe ['e', '0'] ['e', '1'] [] [(some 0, none), (some 0, none)]
    true]).slots 0
  revert twice
  decide

end Filogic.Hnat
