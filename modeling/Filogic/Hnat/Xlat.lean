import Filogic.Lib.Pairing
import Filogic.Lib.Runs

/-! `hnat_debugfs.c`: the 464XLAT map, a list of address pairs that is kept by commands and searched
in both directions. -/

namespace Filogic.Hnat
open Lib

/-- `struct in6_addr` -/
abbrev In6Addr := BitVec 128

/-- `struct xlat_conf`; a `struct map46` is the pair of its addresses. -/
structure XlatConf where
  mapList : List (UInt32 × In6Addr)
  pfx : In6Addr
  prefixLen : Int

/-- A line that is written to `xlat_cfg`, with the addresses that the parsers leave. `noMemory` is
a failing `kmalloc`. -/
inductive XlatCmd where
  | pfx (addr : In6Addr)
  | pfxLen (len : Int)
  | mapAdd (ipv4 : UInt32) (ipv6 : In6Addr) (noMemory : Bool)
  | mapDel (ipv4 : UInt32) (ipv6 : In6Addr)
  | show_
  | inputError

/-- `hnat_xlat_cfg_write` for a line of `len` characters -/
def hnatXlatCfgWrite (len : Int) (conf : XlatConf) : XlatCmd → XlatConf × Int
  | .pfx addr => ({ conf with pfx := addr }, len)
  | .pfxLen n => ({ conf with prefixLen := n }, len)
  | .mapAdd ipv4 ipv6 noMemory =>
    if noMemory then (conf, -1)
    else if conf.mapList.any fun m => m.2 = ipv6 ∧ m.1 = ipv4 then (conf, -1)
    else ({ conf with mapList := (ipv4, ipv6) :: conf.mapList }, len)
  | .mapDel ipv4 ipv6 =>
    ({ conf with mapList := conf.mapList.eraseP fun m => m.2 = ipv6 ∧ m.1 = ipv4 }, len)
  | .show_ => (conf, len)
  | .inputError => (conf, -1)

/-- `mtk_ppe_get_xlat_v6_by_v4`: the address and the prefix. -/
def mtkPpeGetXlatV6ByV4 (conf : XlatConf) (ipv4 : UInt32) : Option (In6Addr × In6Addr) :=
  (conf.mapList.find? (·.1 = ipv4)).map fun m => (m.2, conf.pfx)

/-- `mtk_ppe_get_xlat_v4_by_v6` -/
def mtkPpeGetXlatV4ByV6 (conf : XlatConf) (ipv6 : In6Addr) : Option UInt32 :=
  (conf.mapList.find? (·.2 = ipv6)).map Prod.fst

/-- The lookups undo each other, and every listed address has one partner. -/
structure Translates (conf : XlatConf) : Prop where
  inverse : ∀ ipv4 ipv6, mtkPpeGetXlatV6ByV4 conf ipv4 = some (ipv6, conf.pfx) ↔
    mtkPpeGetXlatV4ByV6 conf ipv6 = some ipv4
  listed : ∀ m ∈ conf.mapList, mtkPpeGetXlatV6ByV4 conf m.1 = some (m.2, conf.pfx) ∧
    mtkPpeGetXlatV4ByV6 conf m.2 = some m.1

/-- An addition has both addresses in common with a listed map, or neither. -/
def ConflictFree (conf : XlatConf) : XlatCmd → Prop
  | .mapAdd ipv4 ipv6 noMemory => noMemory = true ∨ ∀ m ∈ conf.mapList, m.1 = ipv4 ↔ m.2 = ipv6
  | .pfx _ | .pfxLen _ | .mapDel _ _ | .show_ | .inputError => True

/-- The map after `INIT_LIST_HEAD`. -/
def XlatConf.init : XlatConf := { mapList := [], pfx := 0, prefixLen := 0 }

def xlatStep (conf : XlatConf) (line : Int × XlatCmd) : XlatConf :=
  (hnatXlatCfgWrite line.1 conf line.2).1

theorem xlatV6ByV4_image (conf : XlatConf) (ipv4 : UInt32) (ipv6 : In6Addr) :
    mtkPpeGetXlatV6ByV4 conf ipv4 = some (ipv6, conf.pfx) ↔
      image conf.mapList ipv4 = some ipv6 := by
  unfold mtkPpeGetXlatV6ByV4 image
  cases conf.mapList.find? (·.1 = ipv4) <;> simp

theorem translates_iff (conf : XlatConf) : Translates conf ↔ OneToOne conf.mapList := by
  constructor
  · intro ok p hp q hq
    obtain ⟨p6, p4⟩ := ok.listed p hp
    obtain ⟨q6, q4⟩ := ok.listed q hq
    constructor
    · intro same
      rw [same, q6, Option.some_inj, Prod.mk.injEq] at p6
      exact p6.1.symm
    · intro same
      rw [same, q4, Option.some_inj] at p4
      exact p4.symm
  · intro matched
    have forward (ipv4 : UInt32) (ipv6 : In6Addr) :=
      (xlatV6ByV4_image conf ipv4 ipv6).trans (matched.image_iff ipv4 ipv6)
    have back (ipv4 : UInt32) (ipv6 : In6Addr) :
        mtkPpeGetXlatV4ByV6 conf ipv6 = some ipv4 ↔ (ipv4, ipv6) ∈ conf.mapList :=
      matched.preimage_iff ipv4 ipv6
    constructor
    · exact fun ipv4 ipv6 => (forward ipv4 ipv6).trans (back ipv4 ipv6).symm
    · exact fun m member => ⟨(forward m.1 m.2).mpr member, (back m.1 m.2).mpr member⟩

theorem xlatStep_iff (conf : XlatConf) (line : Int × XlatCmd) (ok : Translates conf) :
    ConflictFree conf line.2 ↔ Translates (xlatStep conf line) := by
  obtain ⟨len, cmd⟩ := line
  have matched := (translates_iff conf).mp ok
  rw [translates_iff]
  unfold xlatStep hnatXlatCfgWrite ConflictFree
  cases cmd with
  | pfx addr => exact iff_of_true trivial matched
  | pfxLen n => exact iff_of_true trivial matched
  | show_ => exact iff_of_true trivial matched
  | inputError => exact iff_of_true trivial matched
  | mapDel ipv4 ipv6 =>
    apply iff_of_true trivial
    exact matched.sublist fun m member => List.mem_of_mem_eraseP member
  | mapAdd ipv4 ipv6 noMemory =>
    dsimp only
    cases noMemory with
    | true => exact iff_of_true (Or.inl rfl) matched
    | false =>
      rw [if_neg Bool.false_ne_true]
      split_ifs with known
      · -- the exact pair is listed, so nothing else meets one of its addresses
        apply iff_of_true _ matched
        right
        obtain ⟨m, member, same⟩ := List.any_eq_true.mp known
        obtain ⟨rfl, rfl⟩ := of_decide_eq_true same
        exact fun other listed => matched other listed m member
      · rw [oneToOne_cons]
        simp only [false_or]
        exact (and_iff_right matched).symm

/-- The two lookups are inverse after every command exactly if no addition meets one address of a
listed map and not the other. -/
theorem translates_along (lines : List (Int × XlatCmd)) :
    Along xlatStep (fun conf line => ConflictFree conf line.2) .init lines ↔
      ∀ early late, lines = early ++ late → Translates (run xlatStep .init early) :=
  along_iff_prefixes xlatStep (fun conf line => ConflictFree conf line.2) Translates
    xlatStep_iff .init lines ((translates_iff _).mpr OneToOne.nil)

/-- A second IPv6 address for one IPv4 address: it leads back to an address that leads elsewhere. -/
theorem second_address : ¬∀ lines, Translates (run xlatStep .init lines) := by
  intro all
  have back := (all [(20, .mapAdd 1 1 false), (20, .mapAdd 1 2 false)]).inverse 1 1
  revert back
  decide

end Filogic.Hnat
