import Mathlib

/-! `wifi-test-tool.c`: how `apply_uci_config` puts the VAP maps of the radios together from the sections
of the wireless package. What an option sets apart from the radio and the mode is kept under its name. -/

namespace Filogic.WifiTool

/-- A section of a package; UCI keeps one option of a name. -/
structure Section where
  type : String
  name : String
  options : List (String × String)
  nodup : (options.map Prod.fst).Nodup

/-- `wifi_radio_param` -/
structure RadioParam where
  radioIndex : Int
  settings : String → Option String

/-- `wifi_intf_param` -/
structure IntfParam where
  radioIndex : Int
  staMode : Bool
  apIndex : Int
  staIndex : Int
  macOffset : Int
  settings : String → Option String

/-- What `set_ap_param` fills into a slot; the address is `base` with twice the offset added to its first
byte. -/
structure BssInfo where
  intf : IntfParam
  base : String

/-- `wifi_vap_info_t`; `none` where the slot is as the HAL gave it. -/
structure VapInfo where
  vapIndex : Int
  radioIndex : Int
  bss : Option BssInfo

/-- `wifi_vap_info_map_t` -/
structure VapMap where
  numVaps : Nat
  vapArray : Nat → VapInfo

/-- The HAL and the system around the tool. -/
structure Hal where
  maxRadioNum : Int
  /-- `MAX_NUM_VAP_PER_RADIO` -/
  maxVaps : Nat
  /-- The index and the radio of every slot. -/
  radioVapInfoMap : Nat → Nat → Int × Int
  radioEnable : Int → Bool
  /-- `SINGLE_WIPHY_SUPPORT` -/
  singleWiphy : Bool
  /-- The `wifi` number that `/tmp` lists for a phy, or `RETURN_ERR`. -/
  wifiIndex : Int → Int
  radioIndexToPhy : Int → Int
  /-- The address in `/sys/class/ieee80211`. -/
  macaddress : Int → Option String

section Helpers

variable (hal : Hal)

/-- `phy_index_to_radio` -/
def phyIndexToRadio (phyIndex : Int) : Int :=
  if hal.singleWiphy then phyIndex else hal.wifiIndex phyIndex

def decimal (digits : List Char) : Nat :=
  (digits.takeWhile Char.isDigit).foldl (fun val c => val * 10 + (c.toNat - '0'.toNat)) 0

/-- `strtoul`, put into an `int` -/
def strtoulInt (digits : List Char) : Int :=
  Int.bmod (min (decimal digits) (2 ^ 64 - 1) : Nat) (2 ^ 32)

/-- The radio of a phy name, when a digit is in it. -/
def radioNum (phyName : String) : Option Int :=
  match phyName.toList.dropWhile (fun c => !c.isDigit) with
  | [] => none
  | c :: rest => some (phyIndexToRadio hal (strtoulInt (c :: rest)))

/-- `set_interface_bssid`, up to the offset -/
def interfaceBase (phy : Int) (setmacaddr : Option String) : Option String :=
  (hal.macaddress phy).map fun address =>
    match setmacaddr with
    | none => address
    | some set => if set = "" then address else set

theorem zero_lt_radios : 0 < 3 := by decide

theorem one_lt_radios : 1 < 3 := by decide

theorem two_lt_radios : 2 < 3 := by decide

/-- An index of the arrays of `apply_uci_config`. -/
def arrayIndex (radio : Int) : Option (Fin 3) :=
  if radio = 0 then some ⟨0, zero_lt_radios⟩
  else if radio = 1 then some ⟨1, one_lt_radios⟩
  else if radio = 2 then some ⟨2, two_lt_radios⟩
  else none

end Helpers

section Code

variable (hal : Hal)

/-- The variables of `apply_uci_config`, the radios set, and for each interface section that was set its
parameters and the slot that it filled. -/
structure Uci where
  parsingRadio : Bool
  apCount : Fin 3 → Nat
  staCount : Fin 3 → Nat
  vapMap : Fin 3 → VapMap
  radios : List RadioParam
  handled : List (IntfParam × Option Nat)

/-- The options of a `wifi-device` section that are set. -/
def radioOptions : List String :=
  ["channel", "hwmode", "htmode", "disabled", "band", "country", "noscan", "rxantenna", "txantenna",
    "ht_coex", "rts", "background_radar", "he_bss_color", "txpower"]

/-- The options of a `wifi-iface` section that are set, without `device` and `mode`. -/
def intfOptions : List String :=
  ["ssid", "encryption", "key", "ifname", "wds", "hidden", "igmpsn_enable", "macfilter", "maclist",
    "wps_state", "wps_pushbutton", "macaddr"]

/-- `strncmp(value, word, strlen(word)) == 0` -/
def startsWith (value word : String) : Bool := word.toList.isPrefixOf value.toList

/-- The slot that `set_ap_param` takes: the first with the index, or else the first. -/
def vapIndexInMap (map : VapMap) (apIndex : Int) : Nat :=
  ((List.range hal.maxVaps).find? fun i => (map.vapArray i).vapIndex = apIndex).getD 0

/-- `set_ap_param`, with the slot that it filled. -/
def setApParam (intf : IntfParam) (map : VapMap) : VapMap × Option Nat :=
  if intf.radioIndex = -1 then (map, none)
  else if !hal.radioEnable intf.radioIndex then (map, none)
  else
    let i := vapIndexInMap hal map intf.apIndex
    let vap := map.vapArray i
    let phy := if hal.singleWiphy then vap.radioIndex else hal.radioIndexToPhy vap.radioIndex
    match interfaceBase hal phy (intf.settings "macaddr") with
    | none => (map, none)
    | some base =>
        ({ map with
            vapArray := Function.update map.vapArray i { vap with bss := some ⟨intf, base⟩ } },
          some i)

def startParsing (parsing : Bool) (sec : Section) : Bool :=
  if sec.type = "wifi-device" then true
  else if sec.type = "wifi-iface" then false
  else parsing

/-- The maps before the sections; the HAL is asked for every radio that it counts. -/
def startMap (r : Fin 3) : VapMap :=
  if (r : Int) < hal.maxRadioNum then
    ⟨0, fun i => ⟨(hal.radioVapInfoMap r i).1, (hal.radioVapInfoMap r i).2, none⟩⟩
  else ⟨0, fun _ => ⟨0, 0, none⟩⟩

def start : Uci where
  parsingRadio := false
  apCount := fun _ => 0
  staCount := fun _ => 0
  vapMap := startMap hal
  radios := []
  handled := []

end Code

end Filogic.WifiTool
