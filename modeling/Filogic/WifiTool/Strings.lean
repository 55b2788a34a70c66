import Filogic.Lib.CString
import Filogic.WifiTool.Uci

/-! `wifi-test-tool.c`: the strings that the options of a section put into the fields of
`wifi_radio_param` and `wifi_intf_param`. -/

namespace Filogic.WifiTool.Strings
open Lib

abbrev Text := List Char

def nul : Char := Char.ofNat 0

/-- The value of an option -/
structure Value where
  text : Text
  plain : nul ∉ text

/-- The fields with a string of a section -/
inductive Field where
  | country | band | htmode | macfilter | macAddress | maclist | ssid | key | ifname
  deriving DecidableEq, Repr

/-- The size of a field; that of a key is the HAL's. -/
def size (keySize : Nat) : Field → Nat
  | .country => 3
  | .band => 8
  | .htmode => 16
  | .macfilter => 10
  | .macAddress => 20
  | .maclist => 512
  | .ssid => 33
  | .key => keySize
  | .ifname => 16

/-- `wifi_radio_param` or `wifi_intf_param`: the fields with a string, what else `set_htmode` sets, and
the values of the options that set something else. -/
structure Param where
  buf : Field → Text
  bandwidth : Int
  eht320Conf : Nat
  other : String → Option Text

section Code

def Param.store (p : Param) (field : Field) (buf : Text) : Param :=
  { p with buf := Function.update p.buf field buf }

def setField (field : Field) (buf : Option Text) (p : Param) : Option Param :=
  buf.map (p.store field)

/-- `set_country` -/
def setCountry (p : Param) (country : Text) : Option Param :=
  setField .country (strcpy nul (p.buf .country) country) p

/-- `set_band` -/
def setBand (p : Param) (band : Text) : Option Param :=
  setField .band (strcpy nul (p.buf .band) band) p

/-- `strstr` -/
def has (word : String) (text : Text) : Bool := word.toList <:+: text

/-- `tmp` of `set_htmode` -/
def htmodeTmp (htmode : Text) : Option Text :=
  let tmp := List.replicate 16 nul
  if has "40+" htmode then
    (strncpy nul tmp htmode (htmode.length - 1)).bind fun tmp => strcat nul tmp "PLUS".toList
  else if has "40-" htmode then
    (strncpy nul tmp htmode (htmode.length - 1)).bind fun tmp => strcat nul tmp "MINUS".toList
  else strcpy nul tmp htmode

/-- What `set_htmode` puts before a mode, unless only the band can tell. -/
def family (htmode : Text) : Option String :=
  if has "VHT" htmode then some "11AC"
  else if has "EHT" htmode then some "11BE"
  else if has "HT" htmode && !has "NO" htmode then some "11NG"
  else if has "HE" htmode then some "11AX"
  else none

def htmodeBandwidth (htmode : Text) : Int :=
  match htmode.dropWhile (fun c => !c.isDigit) with
  | [] => 20
  | digits => strtoulInt digits

def setEht320Conf (p : Param) (htmode : Text) : Param :=
  if family htmode = some "11BE" then
    { p with eht320Conf := if has "320-1" htmode then 1 else if has "320" htmode then 2 else 0 }
  else p

/-- `set_htmode` -/
def setHtmode (p : Param) (htmode : Text) : Option Param :=
  let p := { p with bandwidth := htmodeBandwidth htmode }
  (htmodeTmp htmode).bind fun tmp =>
    match family htmode with
    | some prefix_ =>
      setField .htmode (some (snprintf nul (p.buf .htmode) (prefix_.toList ++ cstring nul tmp)))
        (setEht320Conf p htmode)
    | none => setField .htmode (strcpy nul (p.buf .htmode) (cstring nul tmp)) p

/-- `set_macfilter` -/
def setMacfilter (p : Param) (macfilter : Text) : Option Param :=
  setField .macfilter (strncpy nul (p.buf .macfilter) macfilter 10) p

/-- `set_macaddr` -/
def setMacaddr (p : Param) (macaddr : Text) : Option Param :=
  setField .macAddress (strncpy nul (p.buf .macAddress) macaddr 20) p

/-- `set_maclist` -/
def setMaclist (p : Param) (maclist : Text) : Option Param :=
  setField .maclist (strncpy nul (p.buf .maclist) maclist 512) p

/-- `set_ssid` -/
def setSsid (p : Param) (ssid : Text) : Option Param :=
  setField .ssid (strncpy nul (p.buf .ssid) ssid 32) p

/-- `set_key` -/
def setKey (p : Param) (key : Text) : Option Param :=
  setField .key (strncpy nul (p.buf .key) key 64) p

/-- `set_ifname` -/
def setIfname (p : Param) (ifname : Text) : Option Param :=
  if ifname.length > 15 then some p
  else setField .ifname (strncpy nul (p.buf .ifname) ifname (ifname.length + 1)) p

def setString : Field → Param → Text → Option Param
  | .country => setCountry
  | .band => setBand
  | .htmode => setHtmode
  | .macfilter => setMacfilter
  | .macAddress => setMacaddr
  | .maclist => setMaclist
  | .ssid => setSsid
  | .key => setKey
  | .ifname => setIfname

/-- The field that an option is about. -/
def fieldOf (parsingRadio : Bool) (name : String) : Option Field :=
  if parsingRadio then
    if name = "htmode" then some .htmode
    else if name = "band" then some .band
    else if name = "country" then some .country
    else none
  else
    if name = "ssid" then some .ssid
    else if name = "key" then some .key
    else if name = "ifname" then some .ifname
    else if name = "macfilter" then some .macfilter
    else if name = "maclist" then some .maclist
    else if name = "macaddr" then some .macAddress
    else none

def knownOptions (parsingRadio : Bool) : List String :=
  if parsingRadio then radioOptions else "device" :: "mode" :: intfOptions

/-- The step of the loop of `apply_uci_config` over the options of a section. -/
def applyOption (parsingRadio : Bool) (p : Param) (name : String) (value : Value) : Option Param :=
  match fieldOf parsingRadio name with
  | some field => setString field p value.text
  | none =>
    if name ∈ knownOptions parsingRadio then
      some { p with other := Function.update p.other name (some value.text) }
    else some p

/-- The parameters at the start of a section -/
def zeroed (keySize : Nat) : Param :=
  ⟨fun field => List.replicate (size keySize field) nul, 0, 0, fun _ => none⟩

end Code

section Property

variable (keySize : Nat)

/-- A mode as the field has it: `VHT40+` is `11ACVHT40PLUS`. -/
def htmodeText (htmode : Text) : Text :=
  ((family htmode).getD "").toList ++
    if has "40+" htmode then htmode.dropLast ++ "PLUS".toList
    else if has "40-" htmode then htmode.dropLast ++ "MINUS".toList
    else htmode

def form : Field → Text → Text
  | .htmode, value => htmodeText value
  | _, value => value

/-- Where a string is cut. -/
def limit : Field → Nat
  | .key => 64
  | field => size 0 field - 1

/-- The field of an option holds its value, cut to the field's limit, or the value was rejected; all
else is as before. -/
structure Stored (field : Field) (value : Text) (before after : Param) : Prop where
  length : (after.buf field).length = size keySize field
  ends : nul ∈ after.buf field
  text : cstring nul (after.buf field) = (form field value).take (limit field) ∨
    after.buf field = before.buf field
  fields : ∀ other, other ≠ field → after.buf other = before.buf other
  others : after.other = before.other
  numbers : field ≠ .htmode →
    after.bandwidth = before.bandwidth ∧ after.eht320Conf = before.eht320Conf

/-- Every option of a section stays inside its field and leaves it so. -/
def Kept (parsingRadio : Bool) : Param → List (String × Value) → Prop
  | _, [] => True
  | p, (name, value) :: rest => ∃ after, applyOption parsingRadio p name value = some after ∧
      (match fieldOf parsingRadio name with
      | some field => Stored keySize field value.text p after
      | none => after.buf = p.buf) ∧ Kept parsingRadio after rest

/-- The lengths that a field is safe with -/
def Fits : Field → Text → Prop
  | .country, value => value.length < 3
  | .band, value => value.length < 8
  | .htmode, value =>
    if has "40+" value then value.length < 13
    else if has "40-" value then value.length < 12
    else value.length < 16
  | .macfilter, value => value.length < 10
  | .macAddress, value => value.length < 20
  | .maclist, value => value.length < 512
  | .ssid, _ | .key, _ | .ifname, _ => True

/-- Between two options -/
structure Ready (p : Param) : Prop where
  length : ∀ field, (p.buf field).length = size keySize field
  ends : ∀ field, nul ∈ p.buf field
  behind : ∀ field, field = .ssid ∨ field = .key →
    ∃ rest, (p.buf field).drop (limit field) = nul :: rest

end Property

section Steps

variable {keySize : Nat} {p : Param} {field : Field}

theorem Ready.of_buf (ready : Ready keySize p) (after : Param) (same : after.buf = p.buf) :
    Ready keySize after := by
  constructor
  all_goals rw [same]
  · exact ready.length
  · exact ready.ends
  · exact ready.behind

/-- A new string in a field -/
theorem stored_update {value text buf : Text} (ready : Ready keySize p)
    (held : Holding nul (size keySize field) text buf)
    (same : text = (form field value).take (limit field))
    (behind : field = .ssid ∨ field = .key → ∃ rest, buf.drop (limit field) = nul :: rest)
    (after : Param) (bufs : after.buf = Function.update p.buf field buf)
    (others : after.other = p.other)
    (numbers : field ≠ .htmode → after.bandwidth = p.bandwidth ∧ after.eht320Conf = p.eht320Conf) :
    Stored keySize field value p after ∧ Ready keySize after := by
  have own : after.buf field = buf := by rw [bufs, Function.update_self]
  have apart (other : Field) (differs : other ≠ field) : after.buf other = p.buf other := by
    rw [bufs, Function.update_of_ne differs]
  refine ⟨⟨by rw [own, held.length], by rw [own]; exact held.ends,
    .inl (by rw [own, held.text, same]), apart, others, numbers⟩, ?_, ?_, ?_⟩
  · intro other
    by_cases it : other = field
    · rw [it, own, held.length]
    · rw [apart other it, ready.length]
  · intro other
    by_cases it : other = field
    · rw [it, own]
      exact held.ends
    · rw [apart other it]
      exact ready.ends other
  · intro other which
    by_cases it : other = field
    · subst it
      rw [own]
      exact behind which
    · rw [apart other it]
      exact ready.behind other which

/-- `strcpy`, as long as the string is shorter than the field -/
theorem strcpy_fits (ready : Ready keySize p) (value : Value)
    (identity : form field value.text = value.text)
    (whole : limit field + 1 = size keySize field) (plainField : field ≠ .ssid ∧ field ≠ .key)
    (fits : value.text.length < size keySize field) :
    ∃ after, setField field (strcpy nul (p.buf field) value.text) p = some after ∧
      Stored keySize field value.text p after ∧ Ready keySize after := by
  obtain ⟨buf, copied, held⟩ := strcpy_holding (p.buf field) value.text value.plain
    (by rwa [ready.length])
  rw [ready.length] at held
  refine ⟨p.store field buf, by rw [copied]; rfl, stored_update ready held ?_ ?_ _ rfl rfl
    fun _ => ⟨rfl, rfl⟩⟩
  · rw [identity, List.take_of_length_le (by omega)]
  · rintro (rfl | rfl)
    · exact absurd rfl plainField.1
    · exact absurd rfl plainField.2

theorem strcpy_misfits (ready : Ready keySize p) (value : Value)
    (long : size keySize field ≤ value.text.length) :
    setField field (strcpy nul (p.buf field) value.text) p = none := by
  unfold strcpy
  rw [if_neg (by rw [ready.length]; omega)]
  rfl

/-- `strncpy` over the whole field, as long as the string is shorter than it -/
theorem strncpy_fits (ready : Ready keySize p) (value : Value)
    (identity : form field value.text = value.text)
    (whole : limit field + 1 = size keySize field) (plainField : field ≠ .ssid ∧ field ≠ .key)
    (fits : value.text.length < size keySize field) :
    ∃ after, setField field (strncpy nul (p.buf field) value.text (size keySize field)) p =
        some after ∧
      Stored keySize field value.text p after ∧ Ready keySize after := by
  obtain ⟨buf, copied, held⟩ := strncpy_short (p.buf field) value.text (size keySize field)
    value.plain (ready.length field).ge fits
  rw [ready.length] at held
  refine ⟨p.store field buf, by rw [copied]; rfl, stored_update ready held ?_ ?_ _ rfl rfl
    fun _ => ⟨rfl, rfl⟩⟩
  · rw [identity, List.take_of_length_le (by omega)]
  · rintro (rfl | rfl)
    · exact absurd rfl plainField.1
    · exact absurd rfl plainField.2

theorem strncpy_misfits (ready : Ready keySize p) (value : Value) (after : Param)
    (long : size keySize field ≤ value.text.length)
    (copied : setField field (strncpy nul (p.buf field) value.text (size keySize field)) p =
      some after) : ¬Stored keySize field value.text p after := by
  intro stored
  obtain ⟨buf, full, unended⟩ := strncpy_full (p.buf field) value.text value.plain
    (by rwa [ready.length])
  rw [ready.length] at full
  rw [full] at copied
  obtain rfl := Option.some.inj copied
  have ends := stored.ends
  unfold Param.store at ends
  dsimp only at ends
  rw [Function.update_self] at ends
  exact unended ends

/-- `strncpy` over all but the end of a field that nothing else is written to -/
theorem strncpy_cuts (ready : Ready keySize p) (value : Value)
    (identity : form field value.text = value.text)
    (which : field = .ssid ∨ field = .key) (inside : limit field ≤ size keySize field) :
    ∃ after, setField field (strncpy nul (p.buf field) value.text (limit field)) p = some after ∧
      Stored keySize field value.text p after ∧ Ready keySize after := by
  obtain ⟨rest, behind⟩ := ready.behind field which
  obtain ⟨buf, copied, held, kept⟩ := strncpy_cut (p.buf field) value.text rest (limit field)
    value.plain (by rwa [ready.length]) behind
  rw [ready.length] at held
  exact ⟨p.store field buf, by rw [copied]; rfl, stored_update ready held (by rw [identity])
    (fun _ => ⟨rest, kept⟩) _ rfl rfl fun _ => ⟨rfl, rfl⟩⟩

theorem setIfname_fits (ready : Ready keySize p) (value : Value) :
    ∃ after, setIfname p value.text = some after ∧ Stored keySize .ifname value.text p after ∧
      Ready keySize after := by
  unfold setIfname
  split_ifs with long
  · exact ⟨p, rfl, ⟨ready.length .ifname, ready.ends .ifname, .inr rfl, fun _ _ => rfl, rfl,
      fun _ => ⟨rfl, rfl⟩⟩, ready⟩
  · have size_ : (p.buf .ifname).length = 16 := ready.length .ifname
    obtain ⟨buf, copied, held⟩ := strncpy_short (p.buf .ifname) value.text (value.text.length + 1)
      value.plain (by omega) (Nat.lt_succ_self _)
    rw [size_] at held
    change Holding nul (size keySize .ifname) _ _ at held
    refine ⟨p.store .ifname buf, by rw [copied]; rfl, stored_update ready held ?_ (by simp) _ rfl rfl
      fun _ => ⟨rfl, rfl⟩⟩
    exact (List.take_of_length_le (show value.text.length ≤ 15 by omega)).symm

/-- The work buffer of `set_htmode` -/
theorem htmodeTmp_fits (value : Value) (fits : Fits .htmode value.text) :
    ∃ tmp, htmodeTmp value.text = some tmp ∧
      ((family value.text).getD "").toList ++ cstring nul tmp = htmodeText value.text ∧
      (cstring nul tmp).length < 16 := by
  have dropped (room : value.text.length < 16) (suffix_ : Text) (plain : nul ∉ suffix_)
      (more : value.text.length - 1 + suffix_.length < 16) :
      ∃ tmp, ((strncpy nul (List.replicate 16 nul) value.text (value.text.length - 1)).bind
        fun tmp => strcat nul tmp suffix_) = some tmp ∧
        Holding nul 16 (value.text.dropLast ++ suffix_) tmp := by
    have behind : (List.replicate 16 nul).drop (value.text.length - 1) =
        nul :: List.replicate (15 - (value.text.length - 1)) nul := by
      rw [List.drop_replicate, ← List.replicate_succ]
      congr 1
      omega
    obtain ⟨tmp, copied, held, -⟩ := strncpy_cut (List.replicate 16 nul) value.text _ _ value.plain
      (by simp; omega) behind
    rw [List.length_replicate, ← List.dropLast_eq_take] at held
    obtain ⟨joined, appended, holding⟩ :=
      strcat_holding 16 tmp _ suffix_ held plain (by simpa using more)
    exact ⟨joined, by rw [copied]; exact appended, holding⟩
  unfold Fits at fits
  unfold htmodeTmp htmodeText
  dsimp only at fits ⊢
  by_cases plus : has "40+" value.text = true
  · rw [if_pos plus] at fits ⊢
    rw [if_pos plus]
    obtain ⟨tmp, made, held⟩ := dropped (by omega) "PLUS".toList (by decide) (by simp; omega)
    exact ⟨tmp, made, by rw [held.text], held.length ▸ cstring_length_lt tmp held.ends⟩
  rw [if_neg plus] at fits ⊢
  rw [if_neg plus]
  by_cases minus : has "40-" value.text = true
  · rw [if_pos minus] at fits ⊢
    rw [if_pos minus]
    obtain ⟨tmp, made, held⟩ := dropped (by omega) "MINUS".toList (by decide) (by simp; omega)
    exact ⟨tmp, made, by rw [held.text], held.length ▸ cstring_length_lt tmp held.ends⟩
  · rw [if_neg minus] at fits ⊢
    rw [if_neg minus]
    obtain ⟨tmp, made, held⟩ := strcpy_holding (List.replicate 16 nul) value.text value.plain
      (by simpa using fits)
    rw [List.length_replicate] at held
    exact ⟨tmp, made, by rw [held.text], held.length ▸ cstring_length_lt tmp held.ends⟩

theorem htmodeTmp_misfits (value : Value) (misfits : ¬Fits .htmode value.text) :
    htmodeTmp value.text = none := by
  have dropped (suffix_ : Text) (long : 16 ≤ value.text.length - 1 + suffix_.length)
      (some_ : 0 < value.text.length) :
      ((strncpy nul (List.replicate 16 nul) value.text (value.text.length - 1)).bind
        fun tmp => strcat nul tmp suffix_) = none := by
    rcases Nat.lt_or_ge 16 (value.text.length - 1) with above | inside
    · rw [strncpy, if_neg (by rw [List.length_replicate]; omega)]
      rfl
    · rw [strncpy_long _ _ _ (by simpa using inside) (by omega), Option.bind_some, strcat, if_neg]
      rintro ⟨ends, room⟩
      have cut : nul ∉ value.text.take (value.text.length - 1) := fun member =>
        value.plain (List.mem_of_mem_take member)
      have pad := List.drop_replicate (n := 16) (a := nul) (i := value.text.length - 1)
      rw [List.drop_replicate] at ends room
      rcases Nat.lt_or_eq_of_le inside with less | same
      · obtain ⟨k, pads⟩ : ∃ k, 16 - (value.text.length - 1) = k + 1 :=
          ⟨16 - (value.text.length - 1) - 1, by omega⟩
        rw [pads, List.replicate_succ, cstring_append _ _ cut] at room
        simp at room
        omega
      · rw [same, Nat.sub_self, List.replicate_zero, List.append_nil] at ends
        exact value.plain (List.mem_of_mem_take ends)
  unfold Fits at misfits
  unfold htmodeTmp
  dsimp only at misfits ⊢
  by_cases plus : has "40+" value.text = true
  · rw [if_pos plus] at misfits ⊢
    exact dropped "PLUS".toList (by simp; omega) (by omega)
  rw [if_neg plus] at misfits ⊢
  by_cases minus : has "40-" value.text = true
  · rw [if_pos minus] at misfits ⊢
    exact dropped "MINUS".toList (by simp; omega) (by omega)
  · rw [if_neg minus] at misfits ⊢
    rw [strcpy, if_neg (by rw [List.length_replicate]; exact misfits)]

theorem setHtmode_fits (ready : Ready keySize p) (value : Value) (fits : Fits .htmode value.text) :
    ∃ after, setHtmode p value.text = some after ∧ Stored keySize .htmode value.text p after ∧
      Ready keySize after := by
  obtain ⟨tmp, made, text, short⟩ := htmodeTmp_fits value fits
  have length : (p.buf .htmode).length = 16 := ready.length .htmode
  unfold setHtmode
  rw [made, Option.bind_some]
  cases named : family value.text with
  | some prefix_ =>
    rw [named] at text
    have plain : nul ∉ prefix_.toList ++ cstring nul tmp := by
      rw [List.mem_append]
      rintro (left | right)
      · unfold family at named
        revert named
        split_ifs <;> rintro ⟨⟩ <;> revert left <;> decide
      · exact cstring_plain tmp right
    have held := snprintf_holding (p.buf .htmode) _ plain (by omega)
    rw [length] at held
    change Holding nul (size keySize .htmode) _ _ at held
    exact ⟨_, rfl, stored_update ready held (by rw [form, ← text]; rfl) (by simp) _
      (by unfold setEht320Conf; split_ifs <;> rfl) (by unfold setEht320Conf; split_ifs <;> rfl)
      (fun other => absurd rfl other)⟩
  | none =>
    rw [named] at text
    obtain ⟨buf, copied, held⟩ := strcpy_holding (p.buf .htmode) (cstring nul tmp)
      (cstring_plain tmp) (by omega)
    rw [length] at held
    change Holding nul (size keySize .htmode) _ _ at held
    dsimp only
    rw [copied]
    refine ⟨_, rfl, stored_update ready held ?_ (by simp) _ rfl rfl
      (fun other => absurd rfl other)⟩
    change cstring nul tmp = (htmodeText value.text).take 15
    rw [← text]
    exact (List.take_of_length_le (show (cstring nul tmp).length ≤ 15 by omega)).symm

/-- What fits is stored, and nothing else. -/
theorem setString_iff (large : 64 < keySize) (ready : Ready keySize p) (field : Field)
    (value : Value) :
    (Fits field value.text → ∃ after, setString field p value.text = some after ∧
      Stored keySize field value.text p after ∧ Ready keySize after) ∧
    ∀ after, setString field p value.text = some after →
      Stored keySize field value.text p after → Fits field value.text := by
  have shorter (n : Nat) (stored : ¬n ≤ value.text.length) : value.text.length < n := by omega
  cases field with
  | country =>
    refine ⟨fun fits => strcpy_fits ready value rfl rfl ⟨by decide, by decide⟩ fits,
      fun after copied _ => shorter 3 fun long => ?_⟩
    have misfit : setCountry p value.text = none := strcpy_misfits ready value long
    exact absurd (copied.symm.trans misfit) (by simp)
  | band =>
    refine ⟨fun fits => strcpy_fits ready value rfl rfl ⟨by decide, by decide⟩ fits,
      fun after copied _ => shorter 8 fun long => ?_⟩
    have misfit : setBand p value.text = none := strcpy_misfits ready value long
    exact absurd (copied.symm.trans misfit) (by simp)
  | htmode =>
    refine ⟨setHtmode_fits ready value, fun after copied _ => ?_⟩
    by_contra misfits
    have none_ := htmodeTmp_misfits value misfits
    rw [setString, setHtmode, none_] at copied
    cases copied
  | macfilter =>
    exact ⟨fun fits => strncpy_fits ready value rfl rfl ⟨by decide, by decide⟩ fits,
      fun after copied stored => shorter 10 fun long =>
        absurd stored (strncpy_misfits ready value after long copied)⟩
  | macAddress =>
    exact ⟨fun fits => strncpy_fits ready value rfl rfl ⟨by decide, by decide⟩ fits,
      fun after copied stored => shorter 20 fun long =>
        absurd stored (strncpy_misfits ready value after long copied)⟩
  | maclist =>
    exact ⟨fun fits => strncpy_fits ready value rfl rfl ⟨by decide, by decide⟩ fits,
      fun after copied stored => shorter 512 fun long =>
        absurd stored (strncpy_misfits ready value after long copied)⟩
  | ssid =>
    exact ⟨fun _ => strncpy_cuts ready value rfl (.inl rfl) (show 32 ≤ 33 by decide),
      fun _ _ _ => trivial⟩
  | key =>
    exact ⟨fun _ => strncpy_cuts ready value rfl (.inr rfl) large.le, fun _ _ _ => trivial⟩
  | ifname => exact ⟨fun _ => setIfname_fits ready value, fun _ _ _ => trivial⟩

end Steps

section Sections

variable (keySize : Nat) (large : 64 < keySize)

include large in
theorem ready_zeroed : Ready keySize (zeroed keySize) := by
  have some_ (field : Field) : limit field < size keySize field := by
    cases field <;> simp [limit, size, large]
  refine ⟨fun field => List.length_replicate, fun field => ?_, fun field _ => ?_⟩
  · exact List.mem_replicate.mpr ⟨by have below := some_ field; omega, rfl⟩
  · obtain ⟨k, more⟩ := Nat.exists_eq_add_of_lt (some_ field)
    refine ⟨List.replicate k nul, ?_⟩
    rw [zeroed, List.drop_replicate, more, ← List.replicate_succ]
    congr 1
    omega

/-- The option about a string of its section, if it is one, fits. -/
def OptionFits (parsingRadio : Bool) (option : String × Value) : Prop :=
  ∀ field, fieldOf parsingRadio option.1 = some field → Fits field option.2.text

include large in
theorem kept_iff_of_ready (parsingRadio : Bool) (options : List (String × Value)) (p : Param)
    (ready : Ready keySize p) :
    Kept keySize parsingRadio p options ↔ ∀ option ∈ options, OptionFits parsingRadio option := by
  induction options generalizing p with
  | nil => simp [Kept]
  | cons option rest ih =>
    obtain ⟨name, value⟩ := option
    rw [Kept, List.forall_mem_cons]
    unfold applyOption
    cases about : fieldOf parsingRadio name with
    | some field =>
      obtain ⟨stores, only⟩ := setString_iff large ready field value
      have fits_iff : OptionFits parsingRadio (name, value) ↔ Fits field value.text := by
        unfold OptionFits
        rw [about]
        simp
      rw [fits_iff]
      constructor
      · rintro ⟨after, copied, stored, kept⟩
        have fits := only after copied stored
        obtain ⟨after', copied', -, ready'⟩ := stores fits
        obtain rfl := Option.some.inj (copied.symm.trans copied')
        exact ⟨fits, (ih after ready').mp kept⟩
      · rintro ⟨fits, others⟩
        obtain ⟨after, copied, stored, ready'⟩ := stores fits
        exact ⟨after, copied, stored, (ih after ready').mpr others⟩
    | none =>
      have fits : OptionFits parsingRadio (name, value) := by
        intro field named
        rw [about] at named
        cases named
      dsimp only
      constructor
      · rintro ⟨after, -, bufs, kept⟩
        exact ⟨fits, (ih after (ready.of_buf after bufs)).mp kept⟩
      · rintro ⟨-, others⟩
        split_ifs
        · let after : Param := { p with other := Function.update p.other name (some value.text) }
          exact ⟨after, rfl, rfl, (ih after (ready.of_buf after rfl)).mpr others⟩
        · exact ⟨p, rfl, rfl, (ih p ready).mpr others⟩

end Sections

/-- In a section every option stays inside its field, which it leaves with a string that ends there,
exactly if all their values fit. -/
theorem section_kept_iff (keySize : Nat) (large : 64 < keySize) (parsingRadio : Bool)
    (options : List (String × Value)) :
    Kept keySize parsingRadio (zeroed keySize) options ↔
      ∀ option ∈ options, OptionFits parsingRadio option :=
  kept_iff_of_ready keySize large parsingRadio options _ (ready_zeroed keySize large)

/-- A mode of the configuration that the tool comes with -/
def vht40Plus : Value := ⟨"VHT40+".toList, by decide⟩

theorem kept_vht40Plus : Kept 256 true (zeroed 256) [("htmode", vht40Plus)] :=
  (section_kept_iff 256 (by decide) true [("htmode", vht40Plus)]).mpr (by
    rintro option member field named
    obtain rfl := List.mem_singleton.mp member
    obtain rfl := Option.some.inj named
    change Fits .htmode "VHT40+".toList
    unfold Fits
    decide)

example : (setHtmode (zeroed 256) vht40Plus.text).map (fun p => cstring nul (p.buf .htmode)) =
    some "11ACVHT40PLUS".toList := by
  decide

/-- A country with three letters, as in ISO 3166-1 alpha-3 -/
def usa : Value := ⟨"USA".toList, by decide⟩

theorem country_with_three_letters_overflows :
    ¬∀ keySize, 64 < keySize → ∀ parsingRadio options,
      Kept keySize parsingRadio (zeroed keySize) options := by
  intro all
  obtain ⟨after, copied, -⟩ := all 256 (by decide) true [("country", usa)]
  have none_ : applyOption true (zeroed 256) "country" usa = none := by decide
  rw [none_] at copied
  cases copied

end Filogic.WifiTool.Strings
