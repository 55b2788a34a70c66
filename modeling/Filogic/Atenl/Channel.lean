import Filogic.Atenl.Commands

/-! The channel that `atenl_hqa_set_channel` hands to `iw`: the tables of the channels in the 5 and
6 GHz bands, the loops that look a centre up in them, and the blocks that the centres stand for. -/

namespace Filogic.Atenl.Channels

/-- `struct atenl_channel` without the frequency: the control channel and the centres of its blocks,
with zero for a block that there is not. -/
structure Channel where
  ch : Nat
  ch80 : Nat
  ch160 : Nat
  ch3201 : Nat
  ch3202 : Nat
  /-- Only for channels that do not have 80 but have 40. -/
  ch40 : Nat
deriving DecidableEq, Repr

def atenlChannels5ghz : List Channel :=
  [⟨8, 0, 0, 0, 0, 0⟩, ⟨12, 0, 0, 0, 0, 0⟩, ⟨16, 0, 0, 0, 0, 0⟩, ⟨36, 42, 50, 0, 0, 0⟩,
    ⟨40, 42, 50, 0, 0, 0⟩, ⟨44, 42, 50, 0, 0, 0⟩, ⟨48, 42, 50, 0, 0, 0⟩, ⟨52, 58, 50, 0, 0, 0⟩,
    ⟨56, 58, 50, 0, 0, 0⟩, ⟨60, 58, 50, 0, 0, 0⟩, ⟨64, 58, 50, 0, 0, 0⟩, ⟨68, 0, 0, 0, 0, 0⟩,
    ⟨80, 0, 0, 0, 0, 0⟩, ⟨84, 0, 0, 0, 0, 0⟩, ⟨88, 0, 0, 0, 0, 0⟩, ⟨92, 0, 0, 0, 0, 0⟩,
    ⟨96, 0, 0, 0, 0, 0⟩, ⟨100, 106, 114, 0, 0, 0⟩, ⟨104, 106, 114, 0, 0, 0⟩,
    ⟨108, 106, 114, 0, 0, 0⟩, ⟨112, 106, 114, 0, 0, 0⟩, ⟨116, 122, 114, 0, 0, 0⟩,
    ⟨120, 122, 114, 0, 0, 0⟩, ⟨124, 122, 114, 0, 0, 0⟩, ⟨128, 122, 114, 0, 0, 0⟩,
    ⟨132, 138, 0, 0, 0, 0⟩, ⟨136, 138, 0, 0, 0, 0⟩, ⟨140, 138, 0, 0, 0, 0⟩, ⟨144, 138, 0, 0, 0, 0⟩,
    ⟨149, 155, 0, 0, 0, 0⟩, ⟨153, 155, 0, 0, 0, 0⟩, ⟨157, 155, 0, 0, 0, 0⟩, ⟨161, 155, 0, 0, 0, 0⟩,
    ⟨165, 0, 0, 0, 0, 167⟩, ⟨169, 0, 0, 0, 0, 167⟩, ⟨173, 0, 0, 0, 0, 0⟩, ⟨184, 0, 0, 0, 0, 0⟩,
    ⟨188, 0, 0, 0, 0, 0⟩, ⟨192, 0, 0, 0, 0, 0⟩, ⟨196, 0, 0, 0, 0, 0⟩]

def atenlChannels6ghz : List Channel :=
  [⟨1, 7, 15, 31, 0, 0⟩, ⟨5, 7, 15, 31, 0, 0⟩, ⟨9, 7, 15, 31, 0, 0⟩, ⟨13, 7, 15, 31, 0, 0⟩,
    ⟨17, 23, 15, 31, 0, 0⟩, ⟨21, 23, 15, 31, 0, 0⟩, ⟨25, 23, 15, 31, 0, 0⟩, ⟨29, 23, 15, 31, 0, 0⟩,
    ⟨33, 39, 47, 31, 63, 0⟩, ⟨37, 39, 47, 31, 63, 0⟩, ⟨41, 39, 47, 31, 63, 0⟩,
    ⟨45, 39, 47, 31, 63, 0⟩, ⟨49, 55, 47, 31, 63, 0⟩, ⟨53, 55, 47, 31, 63, 0⟩,
    ⟨57, 55, 47, 31, 63, 0⟩, ⟨61, 55, 47, 31, 63, 0⟩, ⟨65, 71, 79, 95, 63, 0⟩,
    ⟨69, 71, 79, 95, 63, 0⟩, ⟨73, 71, 79, 95, 63, 0⟩, ⟨77, 71, 79, 95, 63, 0⟩,
    ⟨81, 87, 79, 95, 63, 0⟩, ⟨85, 87, 79, 95, 63, 0⟩, ⟨89, 87, 79, 95, 63, 0⟩,
    ⟨93, 87, 79, 95, 63, 0⟩, ⟨97, 103, 111, 95, 127, 0⟩, ⟨101, 103, 111, 95, 127, 0⟩,
    ⟨105, 103, 111, 95, 127, 0⟩, ⟨109, 103, 111, 95, 127, 0⟩, ⟨113, 119, 111, 95, 127, 0⟩,
    ⟨117, 119, 111, 95, 127, 0⟩, ⟨121, 119, 111, 95, 127, 0⟩, ⟨125, 119, 111, 95, 127, 0⟩,
    ⟨129, 135, 143, 159, 127, 0⟩, ⟨133, 135, 143, 159, 127, 0⟩, ⟨137, 135, 143, 159, 127, 0⟩,
    ⟨141, 135, 143, 159, 127, 0⟩, ⟨145, 151, 143, 159, 127, 0⟩, ⟨149, 151, 143, 159, 127, 0⟩,
    ⟨153, 151, 143, 159, 127, 0⟩, ⟨157, 151, 143, 159, 127, 0⟩, ⟨161, 167, 175, 159, 191, 0⟩,
    ⟨165, 167, 175, 159, 191, 0⟩, ⟨169, 167, 175, 159, 191, 0⟩, ⟨173, 167, 175, 159, 191, 0⟩,
    ⟨177, 183, 175, 159, 191, 0⟩, ⟨181, 183, 175, 159, 191, 0⟩, ⟨185, 183, 175, 159, 191, 0⟩,
    ⟨189, 183, 175, 159, 191, 0⟩, ⟨193, 199, 207, 0, 191, 0⟩, ⟨197, 199, 207, 0, 191, 0⟩,
    ⟨201, 199, 207, 0, 191, 0⟩, ⟨205, 199, 207, 0, 191, 0⟩, ⟨209, 215, 207, 0, 191, 0⟩,
    ⟨213, 215, 207, 0, 191, 0⟩, ⟨217, 215, 207, 0, 191, 0⟩, ⟨221, 215, 207, 0, 191, 0⟩,
    ⟨225, 0, 0, 0, 0, 227⟩, ⟨229, 0, 0, 0, 0, 227⟩, ⟨233, 0, 0, 0, 0, 0⟩]

section Lookup

/-- Where a loop leaves `chan`. -/
inductive Lookup where
  | entry (i : Nat)
  | outside
  | missing
deriving DecidableEq, Repr

/-- `&ch_list[i - 1]` -/
def back : Nat → Lookup
  | 0 => .outside
  | i + 1 => .entry i

/-- The loop for 320 MHz, from the `i`-th entry on. -/
def find320 (ch1 : Nat) : List Channel → Nat → Lookup
  | [], _ => .missing
  | c :: rest, i =>
      if ch1 = c.ch3201 then .entry i
      else if ch1 = c.ch3202 then .entry i
      else find320 ch1 rest (i + 1)

/-- The loops for 160 MHz and 80 MHz, each with its centre. -/
def findCentre (centre : Channel → Nat) (ch1 : Nat) : List Channel → Nat → Lookup
  | [], _ => .missing
  | c :: rest, i =>
      if ch1 = centre c then .entry i
      else if ch1 < centre c then back i
      else findCentre centre ch1 rest (i + 1)

/-- The loop for all other bandwidths. -/
def findChannel (ch1 : Nat) : List Channel → Nat → Lookup
  | [], _ => .missing
  | c :: rest, i =>
      if ch1 ≤ c.ch then (if ch1 = c.ch then .entry i else back i)
      else findChannel ch1 rest (i + 1)

end Lookup

/-- `TEST_CBW_20MHZ` and the other codes, which are not in the order of the widths. -/
def testCbw20mhz : Nat := 0
def testCbw40mhz : Nat := 1
def testCbw80mhz : Nat := 2
def testCbw10mhz : Nat := 3
def testCbw5mhz : Nat := 4
def testCbw160mhz : Nat := 5
def testCbw320mhz : Nat := 12

/-- `CH_BAND_2GHZ` and `CH_BAND_6GHZ`; every other number is the 5 GHz band. -/
def chBand2ghz : Nat := 0
def chBand6ghz : Nat := 2

/-- How a request ends: refused, with a pointer that has left its table, or with the control channel
that is programmed, if the bandwidth has a code. -/
inductive SetChannel where
  | einval
  | outside
  | accepted (ctrlCh : Option Nat)
deriving DecidableEq, Repr

def chList (chBand : Nat) : List Channel :=
  if chBand = chBand6ghz then atenlChannels6ghz else atenlChannels5ghz

/-- The fields of a request that the lookup takes, in the variables of the function. -/
structure ChannelRequest where
  band : BitVec 8
  ch1 : BitVec 16
  bw : BitVec 8
  priSel : BitVec 8
  chBand : BitVec 8
deriving DecidableEq, Repr

def channelRequest (v : Words) : ChannelRequest where
  band := (v 2).setWidth 8
  ch1 := (v 3).setWidth 16
  bw := (v 5).setWidth 8
  priSel := (v 7).setWidth 8
  chBand := (v 9).setWidth 8

/-- The selectors that are refused. -/
def priSelWrong (bw priSel : Nat) : Prop :=
  (bw = testCbw320mhz ∧ priSel > 15) ∨ (bw = testCbw160mhz ∧ priSel > 7) ∨
    (bw = testCbw80mhz ∧ priSel > 3) ∨ (bw = testCbw40mhz ∧ priSel > 1)

instance (bw priSel : Nat) : Decidable (priSelWrong bw priSel) :=
  inferInstanceAs (Decidable ((bw = testCbw320mhz ∧ priSel > 15) ∨
    (bw = testCbw160mhz ∧ priSel > 7) ∨ (bw = testCbw80mhz ∧ priSel > 3) ∨
    (bw = testCbw40mhz ∧ priSel > 1)))

/-- `atenl_set_channel` does nothing for a bandwidth above `TEST_CBW_MAX`. -/
def programmed (bw ctrlCh : Nat) : Option Nat := if bw > testCbw320mhz then none else some ctrlCh

/-- `chan` after the loop of the bandwidth. -/
def lookup (list : List Channel) (bw ch1 : Nat) : Lookup :=
  if bw = testCbw320mhz then find320 ch1 list 0
  else if bw = testCbw160mhz then findCentre Channel.ch160 ch1 list 0
  else if bw = testCbw80mhz then findCentre Channel.ch80 ch1 list 0
  else findChannel ch1 list 0

/-- What becomes of the request in the 5 and 6 GHz bands once the loop is over. -/
def settle (list : List Channel) (bw priSel : Nat) : Lookup → SetChannel
  | .missing => .einval
  | .outside => .outside
  | .entry i =>
      let i := if bw ≠ testCbw20mhz then i + priSel else i
      if h : i < list.length then .accepted (programmed bw list[i].ch) else .einval

/-- `atenl_hqa_set_channel` -/
def setChannel (r : ChannelRequest) : SetChannel :=
  let ch1 := r.ch1.toNat
  let bw := r.bw.toNat
  let priSel := r.priSel.toNat
  if r.band.toNat ≥ 3 then .einval
  else if priSelWrong bw priSel then .einval
  else if r.chBand.toNat = chBand2ghz then
    .accepted (programmed bw (
      if bw = testCbw40mhz then
        (if priSel = 1 then r.ch1 + 2 else r.ch1 - 2).toNat
      else ch1))
  else
    let list := chList r.chBand.toNat
    settle list bw priSel (lookup list bw ch1)

section Blocks

/-- The centre of the 40 MHz block: where there are 80 MHz, 4 below or above their centre. -/
def Channel.centre40 (c : Channel) : Nat :=
  if c.ch40 ≠ 0 then c.ch40
  else if c.ch80 = 0 then 0
  else if c.ch < c.ch80 then c.ch80 - 4
  else c.ch80 + 4

/-- The centres of the blocks of this bandwidth that the channel is in; zero stands for none. -/
def Channel.centres (bw : Nat) (c : Channel) : List Nat :=
  if bw = testCbw20mhz ∨ bw = testCbw10mhz ∨ bw = testCbw5mhz then [c.ch]
  else if bw = testCbw40mhz then [c.centre40]
  else if bw = testCbw80mhz then [c.ch80]
  else if bw = testCbw160mhz then [c.ch160]
  else if bw = testCbw320mhz then [c.ch3201, c.ch3202]
  else []

def blockIn (list : List Channel) (bw centre : Nat) : List Nat :=
  (list.filter fun c => centre ≠ 0 ∧ centre ∈ c.centres bw).map Channel.ch

/-- The 2.4 GHz band has the channels 1 to 14, and blocks of 40 MHz among the first 13. -/
def block2ghz (bw centre : Nat) : List Nat :=
  if bw = testCbw20mhz ∨ bw = testCbw10mhz ∨ bw = testCbw5mhz then
    (if 1 ≤ centre ∧ centre ≤ 14 then [centre] else [])
  else if bw = testCbw40mhz then
    (if 3 ≤ centre ∧ centre ≤ 11 then [centre - 2, centre + 2] else [])
  else []

/-- The 20 MHz channels of the block, none if the centre is the centre of no block. -/
def block (chBand bw centre : Nat) : List Nat :=
  if chBand = chBand2ghz then block2ghz bw centre else blockIn (chList chBand) bw centre

/-- The channel of a block that the selector names. A block of one channel has nothing to select. -/
def selected (priSel : Nat) : List Nat → Option Nat
  | [ch] => some ch
  | channels => channels[priSel]?

end Blocks

/-- The lookup stays in its table, and what is accepted is the selected channel of the block with
the requested centre. -/
def Right (r : ChannelRequest) : Prop :=
  setChannel r ≠ .outside ∧ ∀ ctrlCh, setChannel r = .accepted ctrlCh →
    ctrlCh.isSome ∧ ctrlCh = selected r.priSel.toNat (block r.chBand.toNat r.bw.toNat r.ch1.toNat)

/-- The centre lies past the blocks of its bandwidth or, where the channels themselves are compared,
the selector leads past the last one. -/
def Beyond (list : List Channel) (bw ch1 priSel : Nat) : Prop :=
  if bw = testCbw320mhz then ∀ c ∈ list, ch1 ≠ c.ch3201 ∧ ch1 ≠ c.ch3202
  else if bw = testCbw160mhz then ∀ c ∈ list, c.ch160 < ch1
  else if bw = testCbw80mhz then ∀ c ∈ list, c.ch80 < ch1
  else
    (∀ c ∈ list, c.ch < ch1) ∨
      (bw ≠ testCbw20mhz ∧ 0 < list.countP (·.ch ≤ ch1) ∧
        list.length < list.countP (·.ch ≤ ch1) + priSel)

/-- The centre is the centre of a block, and the selector stays in it or is not looked at. -/
def Centred (r : ChannelRequest) : Prop :=
  let channels := block r.chBand.toNat r.bw.toNat r.ch1.toNat
  channels ≠ [] ∧
    (r.priSel.toNat < channels.length ∨ r.bw.toNat = testCbw20mhz ∨ r.chBand.toNat = chBand2ghz)

/-- The request is refused for its band or its selector, or it names a block, or its centre is past
everything in the table. -/
def Reachable (r : ChannelRequest) : Prop :=
  r.band.toNat ≥ 3 ∨ priSelWrong r.bw.toNat r.priSel.toNat ∨ Centred r ∨
    (r.chBand.toNat ≠ chBand2ghz ∧
      Beyond (chList r.chBand.toNat) r.bw.toNat r.ch1.toNat r.priSel.toNat)

section Loops

theorem back_ne_missing (i : Nat) : back i ≠ .missing := by
  cases i <;> simp [back]

theorem find320_missing_iff (ch1 : Nat) (list : List Channel) (i : Nat) :
    find320 ch1 list i = .missing ↔ ∀ c ∈ list, ch1 ≠ c.ch3201 ∧ ch1 ≠ c.ch3202 := by
  induction list generalizing i with
  | nil => simp [find320]
  | cons c rest ih =>
    simp only [find320, List.forall_mem_cons]
    split_ifs with first second
    · simp [first]
    · simp [second]
    · rw [ih]
      exact ⟨fun h => ⟨⟨first, second⟩, h⟩, And.right⟩

theorem findCentre_missing_iff (centre : Channel → Nat) (ch1 : Nat) (list : List Channel)
    (i : Nat) :
    findCentre centre ch1 list i = .missing ↔ ∀ c ∈ list, centre c < ch1 := by
  induction list generalizing i with
  | nil => simp [findCentre]
  | cons c rest ih =>
    simp only [findCentre, List.forall_mem_cons]
    split_ifs with same less
    · simp [same]
    · simp [back_ne_missing, less.not_gt]
    · rw [ih]
      exact ⟨fun h => ⟨by omega, h⟩, And.right⟩

/-- In a table in ascending order the loop steps back from the first channel that is not below, which
is one entry too many for a centre before the first. -/
theorem findChannel_eq (ch1 : Nat) (list : List Channel) (i : Nat)
    (sorted : list.Pairwise (·.ch < ·.ch)) :
    findChannel ch1 list i =
      if ∀ c ∈ list, c.ch < ch1 then .missing else back (i + list.countP (·.ch ≤ ch1)) := by
  induction list generalizing i with
  | nil => simp [findChannel]
  | cons c rest ih =>
    obtain ⟨above, tail⟩ := List.pairwise_cons.mp sorted
    simp only [findChannel, List.forall_mem_cons]
    by_cases below : c.ch < ch1
    · rw [if_neg (by omega), ih (i + 1) tail,
        List.countP_cons_of_pos (by simpa using below.le)]
      simp only [below, true_and]
      rw [show i + 1 + rest.countP (·.ch ≤ ch1) = i + (rest.countP (·.ch ≤ ch1) + 1) by omega]
    · have none : rest.countP (·.ch ≤ ch1) = 0 := by
        rw [List.countP_eq_zero]
        intro d mem
        have := above d mem
        simp only [decide_eq_true_eq]
        omega
      rw [if_pos (by omega)]
      split_ifs with same all
      · omega
      · rw [List.countP_cons_of_pos (by simp [same]), none]
        rfl
      · omega
      · rw [List.countP_cons_of_neg (by simp only [decide_eq_true_eq]; omega), none]
        rfl

theorem findChannel_count {ch1 i : Nat} {list : List Channel} (sorted : list.Pairwise (·.ch < ·.ch))
    (found : findChannel ch1 list 0 = .entry i) : list.countP (·.ch ≤ ch1) = i + 1 := by
  rw [findChannel_eq ch1 list 0 sorted] at found
  by_cases below : ∀ c ∈ list, c.ch < ch1
  · rw [if_pos below] at found
    cases found
  · rw [if_neg below, Nat.zero_add] at found
    cases count : list.countP (·.ch ≤ ch1) with
    | zero =>
      rw [count] at found
      cases found
    | succ n =>
      rw [count] at found
      cases found
      rfl

/-- No lookup goes past the first entry whose centre is not below. -/
theorem findCentre_le (centre : Channel → Nat) (ch1 : Nat) (list : List Channel) (i j k : Nat)
    (bound : k < list.length) (notBelow : ch1 ≤ centre list[k])
    (found : findCentre centre ch1 list i = .entry j) : j ≤ i + k := by
  induction list generalizing i k with
  | nil => simp at bound
  | cons c rest ih =>
    simp only [findCentre] at found
    split_ifs at found with same less
    · cases found
      omega
    · cases i with
      | zero => simp [back] at found
      | succ i =>
        cases found
        omega
    · cases k with
      | zero =>
        simp only [List.getElem_cons_zero] at notBelow
        omega
      | succ k =>
        have := ih (i + 1) k (by simpa using bound) (by simpa using notBelow) found
        omega

end Loops

section Tables

/-- The channels of a block of the bandwidth. -/
def channels (bw : Nat) : Nat :=
  if bw = testCbw320mhz then 16
  else if bw = testCbw160mhz then 8
  else if bw = testCbw80mhz then 4
  else if bw = testCbw40mhz then 2
  else 1

/-- The bandwidths that the tables hold blocks of. -/
def widths : List Nat :=
  [testCbw20mhz, testCbw40mhz, testCbw80mhz, testCbw160mhz, testCbw320mhz]

theorem chList_cases (chBand : Nat) :
    chList chBand = atenlChannels5ghz ∨ chList chBand = atenlChannels6ghz := by
  unfold chList
  split_ifs
  · exact .inr rfl
  · exact .inl rfl

def Lookup.index : Lookup → Nat
  | .entry i => i
  | _ => 0

/-- The lookup ends at the first channel of the block, and the table has all of the block. -/
def StartsBlock (list : List Channel) (bw ch1 : Nat) : Prop :=
  let i := (lookup list bw ch1).index
  lookup list bw ch1 = .entry i ∧ i + channels bw ≤ list.length ∧
    blockIn list bw ch1 = ((list.drop i).take (channels bw)).map Channel.ch

instance (list : List Channel) (bw ch1 : Nat) : Decidable (StartsBlock list bw ch1) := by
  unfold StartsBlock
  infer_instance

theorem startsBlock_5ghz : ∀ bw ∈ widths, ∀ ch1 ∈ (atenlChannels5ghz.flatMap (·.centres bw)).dedup,
    ch1 ≠ 0 → StartsBlock atenlChannels5ghz bw ch1 := by decide +kernel

theorem startsBlock_6ghz : ∀ bw ∈ widths, ∀ ch1 ∈ (atenlChannels6ghz.flatMap (·.centres bw)).dedup,
    ch1 ≠ 0 → StartsBlock atenlChannels6ghz bw ch1 := by decide +kernel

/-- Where the table has a block at all. -/
theorem startsBlock (chBand bw ch1 : Nat) (some : blockIn (chList chBand) bw ch1 ≠ []) :
    StartsBlock (chList chBand) bw ch1 := by
  obtain ⟨ch, mem⟩ := List.exists_mem_of_ne_nil _ some
  obtain ⟨c, inBlock, -⟩ := List.mem_map.mp mem
  obtain ⟨inTable, nonzero, centre⟩ : c ∈ chList chBand ∧ ch1 ≠ 0 ∧ ch1 ∈ c.centres bw := by
    simpa using List.mem_filter.mp inBlock
  have listed : ch1 ∈ ((chList chBand).flatMap (·.centres bw)).dedup :=
    List.mem_dedup.mpr (List.mem_flatMap.mpr ⟨c, inTable, centre⟩)
  have known : bw = testCbw10mhz ∨ bw = testCbw5mhz ∨ bw ∈ widths := by
    by_contra other
    simp only [widths, List.mem_cons, List.not_mem_nil, or_false, not_or] at other
    simp [Channel.centres, other] at centre
  have onTable : ∀ w ∈ widths, ch1 ∈ ((chList chBand).flatMap (·.centres w)).dedup →
      StartsBlock (chList chBand) w ch1 := by
    intro w known mem
    obtain table | table := chList_cases chBand
    · rw [table] at mem ⊢
      exact startsBlock_5ghz w known ch1 mem nonzero
    · rw [table] at mem ⊢
      exact startsBlock_6ghz w known ch1 mem nonzero
  obtain ten | five | known := known
  · rw [ten] at listed ⊢
    exact onTable testCbw20mhz (by simp [widths]) listed
  · rw [five] at listed ⊢
    exact onTable testCbw20mhz (by simp [widths]) listed
  · exact onTable bw known listed

theorem sorted (chBand : Nat) : (chList chBand).Pairwise (·.ch < ·.ch) := by
  obtain table | table := chList_cases chBand
  · rw [table]
    decide +kernel
  · rw [table]
    decide +kernel

/-- From the last block of the table on there is room for its channels. -/
def Room (list : List Channel) (centre : Channel → Nat) (n : Nat) : Prop :=
  ∃ k, ∃ h : k < list.length, (∀ c ∈ list, centre c ≤ centre list[k]) ∧ k + n ≤ list.length

theorem room_160mhz (chBand : Nat) : Room (chList chBand) Channel.ch160 8 := by
  obtain table | table := chList_cases chBand
  · rw [table]
    exact ⟨17, by decide, by decide, by decide⟩
  · rw [table]
    exact ⟨48, by decide, by decide, by decide⟩

theorem room_80mhz (chBand : Nat) : Room (chList chBand) Channel.ch80 4 := by
  obtain table | table := chList_cases chBand
  · rw [table]
    exact ⟨29, by decide, by decide, by decide⟩
  · rw [table]
    exact ⟨52, by decide, by decide, by decide⟩

theorem findCentre_room {list : List Channel} {centre : Channel → Nat} {ch1 n i : Nat}
    (room : Room list centre n) (found : findCentre centre ch1 list 0 = .entry i) :
    i + n ≤ list.length := by
  obtain ⟨k, bound, last, fits⟩ := room
  have notMissing : ¬ ∀ c ∈ list, centre c < ch1 := by
    rw [← findCentre_missing_iff centre ch1 list 0, found]
    simp
  push Not at notMissing
  obtain ⟨c, mem, above⟩ := notMissing
  have := findCentre_le centre ch1 list 0 i k bound (above.trans (last c mem)) found
  omega

theorem find320_room (chBand ch1 : Nat) {i : Nat}
    (found : find320 ch1 (chList chBand) 0 = .entry i) : i + 16 ≤ (chList chBand).length := by
  by_cases zero : ch1 = 0
  · -- the first channel has a zero entry in both tables
    have first : find320 0 (chList chBand) 0 = .entry 0 := by
      obtain table | table := chList_cases chBand
      all_goals rw [table]; rfl
    rw [zero, first] at found
    cases found
    obtain table | table := chList_cases chBand
    all_goals rw [table]; decide
  · have notMissing : ¬ ∀ c ∈ chList chBand, ch1 ≠ c.ch3201 ∧ ch1 ≠ c.ch3202 := by
      rw [← find320_missing_iff ch1 _ 0, found]
      simp
    push Not at notMissing
    obtain ⟨c, mem, centre⟩ := notMissing
    have some : blockIn (chList chBand) testCbw320mhz ch1 ≠ [] := by
      have : c.ch ∈ blockIn (chList chBand) testCbw320mhz ch1 := by
        refine List.mem_map_of_mem (List.mem_filter.mpr ⟨mem, ?_⟩)
        simp only [decide_eq_true_eq]
        refine ⟨zero, ?_⟩
        change ch1 ∈ [c.ch3201, c.ch3202]
        by_cases lower : ch1 = c.ch3201
        · simp [lower]
        · simp [centre lower]
      exact List.ne_nil_of_mem this
    obtain ⟨at_, fits, -⟩ := startsBlock chBand testCbw320mhz ch1 some
    change find320 ch1 (chList chBand) 0 = _ at at_
    rw [found] at at_
    change Lookup.entry i = .entry (find320 ch1 (chList chBand) 0).index at at_
    change (find320 ch1 (chList chBand) 0).index + 16 ≤ _ at fits
    rwa [← Lookup.entry.inj at_] at fits

end Tables

section Selected

theorem selected_of_lt {p : Nat} {b : List Nat} (inside : p < b.length) : selected p b = b[p]? := by
  match b, inside with
  | [c], inside =>
    obtain rfl : p = 0 := by simpa using inside
    rfl
  | c :: d :: rest, _ => rfl

theorem selected_of_ge {p : Nat} {b : List Nat} (outside : b.length ≤ p)
    (some : (selected p b).isSome) : ∃ c, b = [c] := by
  match b, outside, some with
  | [], _, some => simp [selected] at some
  | [c], _, _ => exact ⟨c, rfl⟩
  | c :: d :: rest, outside, some =>
    change ((c :: d :: rest)[p]?).isSome = true at some
    rw [List.getElem?_eq_none outside] at some
    cases some

theorem programmed_some {bw ch : Nat} (known : bw ≤ testCbw320mhz) : programmed bw ch = some ch :=
  if_neg (by omega)

theorem bw_of_block {list : List Channel} {bw ch1 : Nat} (some : blockIn list bw ch1 ≠ []) :
    bw ≤ testCbw320mhz := by
  by_contra above
  apply some
  have none : ∀ c : Channel, c.centres bw = [] := by
    intro c
    simp only [testCbw320mhz] at above
    unfold Channel.centres testCbw20mhz testCbw10mhz testCbw5mhz testCbw40mhz testCbw80mhz
      testCbw160mhz testCbw320mhz
    repeat rw [if_neg (by omega)]
  simp [blockIn, none]

theorem StartsBlock.length {list : List Channel} {bw ch1 : Nat} (starts : StartsBlock list bw ch1) :
    (blockIn list bw ch1).length = channels bw := by
  have fits := starts.2.1
  rw [starts.2.2, List.length_map, List.length_take, List.length_drop]
  omega

/-- The `p`-th channel of a block is the `p`-th entry from the one that the lookup ends at. -/
theorem StartsBlock.getElem? {list : List Channel} {bw ch1 : Nat}
    (starts : StartsBlock list bw ch1) :
    ∃ i, lookup list bw ch1 = .entry i ∧ i + channels bw ≤ list.length ∧
      ∀ p < channels bw, (blockIn list bw ch1)[p]? = list[i + p]?.map Channel.ch := by
  refine ⟨_, starts.1, starts.2.1, ?_⟩
  intro p inside
  rw [starts.2.2, List.getElem?_map, List.getElem?_take, if_pos inside, List.getElem?_drop]

theorem priSel_lt {bw p : Nat} (right : ¬ priSelWrong bw p) (wide : channels bw ≠ 1) :
    p < channels bw := by
  simp only [priSelWrong, not_or, not_and] at right
  obtain ⟨wrong320, wrong160, wrong80, wrong40⟩ := right
  unfold channels at wide ⊢
  split_ifs at wide ⊢ with is320 is160 is80 is40
  · have := wrong320 is320
    omega
  · have := wrong160 is160
    omega
  · have := wrong80 is80
    omega
  · have := wrong40 is40
    omega
  · exact absurd rfl wide

end Selected

section Table

/-- `Right` in the 5 and 6 GHz bands, once the band and the selector are taken. -/
def RightIn (list : List Channel) (bw ch1 priSel : Nat) : Prop :=
  settle list bw priSel (lookup list bw ch1) ≠ .outside ∧
    ∀ ctrlCh, settle list bw priSel (lookup list bw ch1) = .accepted ctrlCh →
      ctrlCh.isSome ∧ ctrlCh = selected priSel (blockIn list bw ch1)

theorem settle_plain {list : List Channel} {i : Nat} (p : Nat) (within : i < list.length) :
    settle list testCbw20mhz p (.entry i) = .accepted (some list[i].ch) := by
  simp [settle, within, programmed, testCbw20mhz]

theorem settle_selected {list : List Channel} {bw i p : Nat} (wide : bw ≠ testCbw20mhz)
    (within : i + p < list.length) :
    settle list bw p (.entry i) = .accepted (programmed bw list[i + p].ch) := by
  simp [settle, wide, within]

theorem settle_past {list : List Channel} {bw i p : Nat} (wide : bw ≠ testCbw20mhz)
    (past : list.length ≤ i + p) : settle list bw p (.entry i) = .einval := by
  simp [settle, wide, past]

theorem rightIn_of_einval {list : List Channel} {bw ch1 p : Nat}
    (refused : settle list bw p (lookup list bw ch1) = .einval) : RightIn list bw ch1 p := by
  refine ⟨by simp [refused], ?_⟩
  intro ctrlCh accepted
  simp [refused] at accepted

theorem rightIn_of_accepted {list : List Channel} {bw ch1 p ch : Nat}
    (accepted : settle list bw p (lookup list bw ch1) = .accepted (some ch))
    (right : selected p (blockIn list bw ch1) = some ch) : RightIn list bw ch1 p := by
  refine ⟨by simp [accepted], ?_⟩
  intro ctrlCh accepted'
  rw [accepted] at accepted'
  cases accepted'
  exact ⟨rfl, right.symm⟩

theorem rightIn_of_block {list : List Channel} {bw ch1 p : Nat} (starts : StartsBlock list bw ch1)
    (some : blockIn list bw ch1 ≠ [])
    (inside : p < (blockIn list bw ch1).length ∨ bw = testCbw20mhz) : RightIn list bw ch1 p := by
  have length := starts.length
  obtain ⟨i, found, fits, entries⟩ := starts.getElem?
  by_cases plain : bw = testCbw20mhz
  · have one : channels bw = 1 := by
      rw [plain]
      rfl
    have within : i < list.length := by omega
    have first := entries 0 (by omega)
    rw [Nat.add_zero, List.getElem?_eq_getElem within, Option.map_some] at first
    obtain ⟨ch, only⟩ := List.length_eq_one_iff.mp (length.trans one)
    rw [only, List.getElem?_cons_zero] at first
    cases first
    apply rightIn_of_accepted
    · rw [found, plain]
      exact settle_plain p within
    · rw [only]
      rfl
  · have inside := inside.resolve_right plain
    have within : i + p < list.length := by omega
    have entry := entries p (by omega)
    rw [List.getElem?_eq_getElem within, Option.map_some] at entry
    apply rightIn_of_accepted
    · rw [found, settle_selected plain within, programmed_some (bw_of_block some)]
    · rw [selected_of_lt inside, entry]

/-- Past the blocks, and past the channels, the request is refused. -/
theorem settle_of_beyond {list : List Channel} {bw ch1 p : Nat}
    (sorted : list.Pairwise (·.ch < ·.ch)) (beyond : Beyond list bw ch1 p) :
    settle list bw p (lookup list bw ch1) = .einval := by
  unfold Beyond at beyond
  unfold lookup
  split_ifs at beyond ⊢ with is320 is160 is80
  · rw [(find320_missing_iff ch1 list 0).mpr beyond]
    rfl
  · rw [(findCentre_missing_iff Channel.ch160 ch1 list 0).mpr beyond]
    rfl
  · rw [(findCentre_missing_iff Channel.ch80 ch1 list 0).mpr beyond]
    rfl
  · rw [findChannel_eq ch1 list 0 sorted]
    obtain below | ⟨wide, positive, past⟩ := beyond
    · rw [if_pos below]
      rfl
    · by_cases below : ∀ c ∈ list, c.ch < ch1
      · rw [if_pos below]
        rfl
      · rw [if_neg below, Nat.zero_add]
        cases count : list.countP (·.ch ≤ ch1) with
        | zero => omega
        | succ i =>
          rw [count] at past
          exact settle_past wide (by omega)

/-- A lookup that ends at an entry is refused for the selector only where channels are compared. -/
theorem beyond_of_past {chBand bw ch1 p i : Nat} (right : ¬ priSelWrong bw p)
    (found : lookup (chList chBand) bw ch1 = .entry i) (wide : bw ≠ testCbw20mhz)
    (past : (chList chBand).length ≤ i + p) : Beyond (chList chBand) bw ch1 p := by
  simp only [priSelWrong, not_or, not_and] at right
  obtain ⟨wrong320, wrong160, wrong80, -⟩ := right
  unfold lookup at found
  unfold Beyond
  split_ifs at found ⊢ with is320 is160 is80
  · have := find320_room chBand ch1 found
    have := wrong320 is320
    omega
  · have := findCentre_room (room_160mhz chBand) found
    have := wrong160 is160
    omega
  · have := findCentre_room (room_80mhz chBand) found
    have := wrong80 is80
    omega
  · have count := findChannel_count (sorted chBand) found
    exact .inr ⟨wide, by omega, by omega⟩

theorem beyond_of_missing {list : List Channel} {bw ch1 p : Nat}
    (missing : lookup list bw ch1 = .missing) (sorted : list.Pairwise (·.ch < ·.ch)) :
    Beyond list bw ch1 p := by
  unfold lookup at missing
  unfold Beyond
  split_ifs at missing ⊢ with is320 is160 is80
  · exact (find320_missing_iff ch1 list 0).mp missing
  · exact (findCentre_missing_iff Channel.ch160 ch1 list 0).mp missing
  · exact (findCentre_missing_iff Channel.ch80 ch1 list 0).mp missing
  · left
    rw [findChannel_eq ch1 list 0 sorted] at missing
    by_contra above
    rw [if_neg above] at missing
    exact back_ne_missing _ missing

/-- A request that is accepted names a block, and its selector stays in it unless only one channel
could have been meant. -/
theorem centred_of_accepted {chBand bw ch1 p i : Nat}
    (found : lookup (chList chBand) bw ch1 = .entry i) (rightIn : RightIn (chList chBand) bw ch1 p)
    (within : i + (if bw = testCbw20mhz then 0 else p) < (chList chBand).length) :
    blockIn (chList chBand) bw ch1 ≠ [] ∧
      (p < (blockIn (chList chBand) bw ch1).length ∨ bw = testCbw20mhz) := by
  have accepted : settle (chList chBand) bw p (lookup (chList chBand) bw ch1) =
      .accepted (programmed bw
        (chList chBand)[i + (if bw = testCbw20mhz then 0 else p)].ch) := by
    rw [found]
    by_cases plain : bw = testCbw20mhz
    · simp only [plain, ↓reduceIte, Nat.add_zero] at within ⊢
      rw [settle_plain p within]
      rfl
    · simp only [plain, ↓reduceIte] at within ⊢
      exact settle_selected plain within
  obtain ⟨isSome, same⟩ := rightIn.2 _ accepted
  have some : blockIn (chList chBand) bw ch1 ≠ [] := by
    intro none
    rw [same, none] at isSome
    simp [selected] at isSome
  refine ⟨some, ?_⟩
  by_contra neither
  obtain ⟨outside, wide⟩ := not_or.mp neither
  -- one channel, and the selector has moved away from it
  obtain ⟨c, only⟩ := selected_of_ge (Nat.le_of_not_lt outside) (same ▸ isSome)
  obtain ⟨j, found', -, entries⟩ := (startsBlock chBand bw ch1 some).getElem?
  have length := (startsBlock chBand bw ch1 some).length
  rw [found] at found'
  cases found'
  simp only [wide, ↓reduceIte] at within same
  rw [programmed_some (bw_of_block some), only] at same
  rw [only] at outside length entries
  have first := entries 0 (by simp [← length])
  have here : i < (chList chBand).length := by omega
  rw [Nat.add_zero, List.getElem?_eq_getElem here] at first
  have ascending := List.pairwise_iff_getElem.mp (sorted chBand) i (i + p) here within
    (by simp only [List.length_cons, List.length_nil] at outside; omega)
  have moved : (chList chBand)[i + p].ch = c := Option.some.inj same
  have stayed : c = (chList chBand)[i].ch := Option.some.inj first
  omega

theorem rightIn_iff (chBand bw ch1 p : Nat) (right : ¬ priSelWrong bw p) :
    RightIn (chList chBand) bw ch1 p ↔
      (blockIn (chList chBand) bw ch1 ≠ [] ∧
        (p < (blockIn (chList chBand) bw ch1).length ∨ bw = testCbw20mhz)) ∨
      Beyond (chList chBand) bw ch1 p := by
  constructor
  · intro rightIn
    cases found : lookup (chList chBand) bw ch1 with
    | missing => exact .inr (beyond_of_missing found (sorted chBand))
    | outside => simp [RightIn, found, settle] at rightIn
    | entry i =>
      by_cases plain : bw = testCbw20mhz
      · have count : (chList chBand).countP (·.ch ≤ ch1) = i + 1 := by
          rw [plain] at found
          exact findChannel_count (sorted chBand) found
        have := (chList chBand).countP_le_length (p := (·.ch ≤ ch1))
        exact .inl (centred_of_accepted found rightIn (by rw [if_pos plain]; omega))
      · by_cases past : (chList chBand).length ≤ i + p
        · exact .inr (beyond_of_past right found plain past)
        · exact .inl (centred_of_accepted found rightIn (by rw [if_neg plain]; omega))
  · rintro (⟨some, inside⟩ | beyond)
    · exact rightIn_of_block (startsBlock chBand bw ch1 some) some inside
    · exact rightIn_of_einval (settle_of_beyond (sorted chBand) beyond)

end Table

section Right

/-- In the 2.4 GHz band the control channel is computed, and nothing is refused. -/
theorem right2ghz_iff (r : ChannelRequest) (band : ¬ r.band.toNat ≥ 3)
    (right : ¬ priSelWrong r.bw.toNat r.priSel.toNat) (low : r.chBand.toNat = chBand2ghz) :
    Right r ↔ block2ghz r.bw.toNat r.ch1.toNat ≠ [] := by
  have accepted : ∃ ch, setChannel r = .accepted (programmed r.bw.toNat ch) ∧
      ch = if r.bw.toNat = testCbw40mhz then
        (if r.priSel.toNat = 1 then r.ch1 + 2 else r.ch1 - 2).toNat else r.ch1.toNat := by
    refine ⟨_, ?_, rfl⟩
    simp only [setChannel, band, right, low, ↓reduceIte]
  obtain ⟨ch, accepted, computed⟩ := accepted
  have same : Right r ↔ (programmed r.bw.toNat ch).isSome ∧
      programmed r.bw.toNat ch = selected r.priSel.toNat (block2ghz r.bw.toNat r.ch1.toNat) := by
    simp [Right, accepted, block, low]
  rw [same]
  constructor
  · rintro ⟨isSome, chosen⟩ none
    rw [chosen, none] at isSome
    simp [selected] at isSome
  · intro some
    unfold block2ghz at some ⊢
    by_cases narrow :
        r.bw.toNat = testCbw20mhz ∨ r.bw.toNat = testCbw10mhz ∨ r.bw.toNat = testCbw5mhz
    · simp only [narrow, ↓reduceIte] at some ⊢
      have inBand : 1 ≤ r.ch1.toNat ∧ r.ch1.toNat ≤ 14 := by
        by_contra out
        exact some (if_neg out)
      simp only [testCbw20mhz, testCbw10mhz, testCbw5mhz] at narrow
      rw [if_neg (by simp only [testCbw40mhz]; omega)] at computed
      rw [if_pos inBand, programmed_some (by simp only [testCbw320mhz]; omega), computed]
      exact ⟨rfl, rfl⟩
    · simp only [narrow, ↓reduceIte] at some ⊢
      by_cases forty : r.bw.toNat = testCbw40mhz
      · simp only [forty, ↓reduceIte] at some computed ⊢
        have inBand : 3 ≤ r.ch1.toNat ∧ r.ch1.toNat ≤ 11 := by
          by_contra out
          exact some (if_neg out)
        have side : r.priSel.toNat < 2 := by
          have := priSel_lt right (by rw [forty]; decide)
          rwa [forty] at this
        have two : (2 : BitVec 16).toNat = 2 := rfl
        rw [if_pos inBand, programmed_some (by decide)]
        refine ⟨rfl, ?_⟩
        by_cases upper : r.priSel.toNat = 1
        · rw [if_pos upper, BitVec.toNat_add, two] at computed
          rw [upper, computed]
          change Option.some _ = Option.some _
          congr 1
          omega
        · rw [if_neg upper, BitVec.toNat_sub, two] at computed
          rw [show r.priSel.toNat = 0 by omega, computed]
          change Option.some _ = Option.some _
          congr 1
          omega
      · simp only [forty, ↓reduceIte] at some
        exact absurd rfl some

/-- The lookup is right exactly where the request is refused at once, where it names a block, and
where it is past everything in the table. -/
theorem setChannel_right_iff (r : ChannelRequest) : Right r ↔ Reachable r := by
  by_cases band : r.band.toNat ≥ 3
  · simp [Right, setChannel, Reachable, band]
  by_cases wrong : priSelWrong r.bw.toNat r.priSel.toNat
  · simp [Right, setChannel, Reachable, wrong]
  by_cases low : r.chBand.toNat = chBand2ghz
  · rw [right2ghz_iff r band wrong low]
    simp [Reachable, Centred, block, band, wrong, low]
  · have table : Right r ↔
        RightIn (chList r.chBand.toNat) r.bw.toNat r.ch1.toNat r.priSel.toNat := by
      simp only [Right, RightIn, setChannel, block, band, wrong, low, ↓reduceIte]
    rw [table, rightIn_iff _ _ _ _ wrong]
    simp [Reachable, Centred, block, band, wrong, low]

/-- 160 MHz around channel 3 of the 6 GHz band: below the centre of the first block. -/
def belowFirst : ChannelRequest := ⟨0, 3, 5, 0, 2⟩

theorem belowFirst_not_right : ¬ Right belowFirst ∧ setChannel belowFirst = .outside := by
  have outside : setChannel belowFirst = .outside := by decide
  exact ⟨fun right => right.1 outside, outside⟩

end Right

end Filogic.Atenl.Channels
