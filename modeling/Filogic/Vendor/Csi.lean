import Filogic.Lib.Seek

/-! The capture of channel state information: what the messages put into the records, and the JSON text
that the records are written as. -/

namespace Filogic.Vendor.Csi
open Lib

abbrev Text := List Char

/-- The attributes in `tb_data` that are there, with what is read of each. -/
structure Data where
  ver : Option (BitVec 8)
  ts : Option (BitVec 32)
  rssi : Option (BitVec 8)
  snr : Option (BitVec 8)
  bw : Option (BitVec 8)
  chIdx : Option (BitVec 8)
  ta : Option (List (BitVec 8))
  num : Option (BitVec 32)
  i : Option (List (BitVec 16))
  q : Option (List (BitVec 16))
  info : Option (BitVec 32)
  txAnt : Option (BitVec 16)
  rxAnt : Option (BitVec 16)
  mode : Option (BitVec 8)
  chainInfo : Option (BitVec 32)

/-- A message: whether it has vendor data, and the CSI data in it. -/
structure Message where
  vendorData : Bool
  csiData : Option Data

/-- `struct csi_data` without the fields that nothing here reads -/
structure Record where
  dataNum : BitVec 16
  dataI : List (BitVec 16)
  dataQ : List (BitVec 16)
  rssi : BitVec 8
  snr : BitVec 8
  ts : BitVec 32
  dataBw : BitVec 8
  priChIdx : BitVec 8
  ta : List (BitVec 8)
  extInfo : BitVec 32
  rxMode : BitVec 8
  chainInfo : BitVec 32
  txIdx : BitVec 16
  rxIdx : BitVec 16

/-- `CSI_BW160_DATA_COUNT` -/
def dataCount : Nat := 512

def ethAlen : Nat := 6

section Capture

/-- The attributes that the callback asks for before it reads any. -/
def Data.checked (d : Data) : Bool :=
  d.ver.isSome && d.ts.isSome && d.rssi.isSome && d.snr.isSome && d.bw.isSome && d.chIdx.isSome &&
    d.ta.isSome && d.i.isSome && d.q.isSome && d.info.isSome && d.mode.isSome && d.chainInfo.isSome

/-- The loop over the samples in an attribute; `none` stands for an access that is not allowed, here and
below. -/
def storeSamples (dataNum : Nat) :
    Nat → List (BitVec 16) → List (BitVec 16) → Option (List (BitVec 16))
  | _, samples, [] => some samples
  | idx, samples, cur :: rest =>
      if idx < dataNum then
        (put samples idx cur).bind fun samples => storeSamples dataNum (idx + 1) samples rest
      else storeSamples dataNum idx samples rest

/-- The bytes of `ta`, as many as there is room for -/
def storeAddress (bytes : List (BitVec 8)) : List (BitVec 8) :=
  (bytes.take ethAlen) ++ List.replicate (ethAlen - bytes.length) 0

/-- What `mt76_csi_dump_cb` puts into a record that `calloc` has cleared. -/
def fill (d : Data) : Option Record := do
  let rssi ← d.rssi
  let snr ← d.snr
  let dataBw ← d.bw
  let priChIdx ← d.chIdx
  let rxMode ← d.mode
  let txIdx ← d.txAnt
  let rxIdx ← d.rxAnt
  let extInfo ← d.info
  let chainInfo ← d.chainInfo
  let ts ← d.ts
  let num ← d.num
  let dataNum := num.setWidth 16
  let ta ← d.ta
  let i ← d.i
  let dataI ← storeSamples dataNum.toNat 0 (List.replicate dataCount 0) i
  let q ← d.q
  let dataQ ← storeSamples dataNum.toNat 0 (List.replicate dataCount 0) q
  return { dataNum, dataI, dataQ, rssi, snr, ts, dataBw, priChIdx, ta := storeAddress ta, extInfo,
           rxMode, chainInfo, txIdx, rxIdx }

/-- The CSI data of a message that the callback does not skip -/
def Message.accepted (m : Message) : Option Data :=
  if m.vendorData = true then m.csiData.filter Data.checked else none

/-- `mt76_csi_dump_cb` with the records so far, of which there is room for `pktNum`. -/
def dumpCb (pktNum : Nat) (csi : List Record) (m : Message) : Option (List Record) :=
  match m.accepted with
  | none => some csi
  | some d =>
      if csi.length < pktNum then (fill d).map fun c => csi ++ [c] else none

/-- The requests that are left, and whether all of them could be made: `none` for a request that finds
no nl80211. -/
def requestLoop (pktNum : Nat) (requests : Nat → Option (List Message)) :
    (left i : Nat) → List Record → Option (List Record × Bool)
  | 0, _, csi => some (csi, true)
  | left + 1, i, csi =>
      match requests i with
      | none => some (csi, false)
      | some messages =>
          (messages.foldlM (dumpCb pktNum) csi).bind (requestLoop pktNum requests left (i + 1))

end Capture

section Json

/-- `MAX_BUF_SIZE` -/
def maxBufSize : Nat := 6000

/-- `%d` and `%u` -/
def decimal (n : Int) : Text :=
  if n < 0 then '-' :: Nat.toDigits 10 n.natAbs else Nat.toDigits 10 n.natAbs

/-- `%02x` -/
def hexByte (b : BitVec 8) : Text := [Nat.digitChar (b.toNat / 16), Nat.digitChar (b.toNat % 16)]

def quotes : Char := Char.ofNat 0x22

/-- A `snprintf` at `pos`: its text and the terminator must be in the buffer. -/
def snprintf (buf piece : Text) : Option Text :=
  if buf.length + piece.length < maxBufSize then some (buf ++ piece) else none

/-- The loop over the samples of a record, from `j` on -/
def samplesPieces (dataNum : Nat) (samples : List (BitVec 16)) :
    (left j : Nat) → Option (List Text)
  | 0, _ => some []
  | left + 1, j => do
      let sample ← samples[j]?
      let behind ← samplesPieces dataNum samples left (j + 1)
      return decimal sample.toInt ::
        (if (j : Int) ≠ (dataNum : Int) - 1 then [','] :: behind else behind)

/-- The texts that a record is printed in -/
def recordPieces (c : Record) (last : Bool) : Option (List Text) := do
  let samplesI ← samplesPieces c.dataNum.toNat c.dataI c.dataNum.toNat 0
  let samplesQ ← samplesPieces c.dataNum.toNat c.dataQ c.dataNum.toNat 0
  return [['['], decimal c.ts.toInt ++ [','], quotes :: c.ta.flatMap hexByte ++ [quotes, ','],
      decimal c.rssi.toInt ++ [','], decimal c.snr.toNat ++ [','], decimal c.dataBw.toNat ++ [','],
      decimal c.priChIdx.toNat ++ [','], decimal c.rxMode.toNat ++ [','],
      decimal c.txIdx.toNat ++ [','], decimal c.rxIdx.toNat ++ [','],
      decimal c.chainInfo.toInt ++ [','], decimal c.extInfo.toInt ++ [','], ['[']] ++
    samplesI ++ [[']', ','], ['[']] ++ samplesQ ++ [[']'], [']']] ++ (if last then [] else [[',']])

def recordText (c : Record) (last : Bool) : Option Text := do
  let pieces ← recordPieces c last
  pieces.foldlM snprintf []

def recordsText : List Record → Option Text
  | [] => some []
  | c :: rest => do
      let text ← recordText c rest.isEmpty
      let behind ← recordsText rest
      return text ++ behind

/-- `mt76_csi_to_json` -/
def toJson (csi : List Record) : Option Text := do
  let text ← recordsText csi
  return '[' :: text ++ [']']

end Json

/-- How `mt76_csi_dump` ends: the number of packets is refused, nl80211 is not found, or the text is
written. -/
inductive Ending where
  | refused
  | unconnected (csi : List Record)
  | written (csi : List Record) (text : Text)

/-- `mt76_csi_dump` -/
def dump (pktNum : Int) (requests : Nat → Option (List Message)) : Option Ending :=
  if pktNum < 0 ∨ pktNum > 30000 then some .refused
  else do
    let (csi, connected) ← requestLoop pktNum.toNat requests (pktNum.toNat / 3) 0 []
    if connected = true then
      let text ← toJson csi
      return .written csi text
    else return .unconnected csi

section Claims

/-- The text of a JSON array with members of these texts -/
def arrayText (members : List Text) : Text := '[' :: [','].intercalate members ++ [']']

/-- The JSON text of a record: its values by the types of the fields. -/
def Record.text (c : Record) : Text :=
  arrayText [decimal c.ts.toNat, quotes :: c.ta.flatMap hexByte ++ [quotes], decimal c.rssi.toInt,
    decimal c.snr.toNat, decimal c.dataBw.toNat, decimal c.priChIdx.toNat, decimal c.rxMode.toNat,
    decimal c.txIdx.toNat, decimal c.rxIdx.toNat, decimal c.chainInfo.toNat,
    decimal c.extInfo.toNat, arrayText ((c.dataI.take c.dataNum.toNat).map fun a => decimal a.toInt),
    arrayText ((c.dataQ.take c.dataNum.toNat).map fun a => decimal a.toInt)]

/-- The messages of the requests that are made -/
def delivered (requests : Nat → Option (List Message)) : (left i : Nat) → List Message
  | 0, _ => []
  | left + 1, i =>
      match requests i with
      | none => []
      | some messages => messages ++ delivered requests left (i + 1)

/-- The records of the messages that are accepted -/
def captured (messages : List Message) : List Record :=
  messages.filterMap fun m => m.accepted.bind fill

/-- The records are those of the messages, no more than have been asked for, and the text is one JSON
array of them. -/
def Right (pktNum : Int) (messages : List Message) : Ending → Prop
  | .refused => True
  | .unconnected csi => csi = captured messages ∧ (csi.length : Int) ≤ pktNum
  | .written csi text => csi = captured messages ∧ (csi.length : Int) ≤ pktNum ∧
      text = arrayText (csi.map Record.text)

def Captured (pktNum : Int) (requests : Nat → Option (List Message)) : Prop :=
  ∃ ending, dump pktNum requests = some ending ∧
    Right pktNum (delivered requests (pktNum.toNat / 3) 0) ending

/-- The data have the three attributes that are not asked for, and no more samples are taken of them
than a record has room for. -/
structure Data.Storable (d : Data) : Prop where
  txAnt : d.txAnt.isSome = true
  rxAnt : d.rxAnt.isSome = true
  num : ∃ num, d.num = some num ∧ ∀ samples, d.i = some samples ∨ d.q = some samples →
    min samples.length (num.toNat % 2 ^ 16) ≤ dataCount

/-- A record that is printed as it is: its samples are in the arrays, the values that are printed with
a sign have none, and its text is in the buffer. -/
structure Record.Printable (c : Record) (last : Bool) : Prop where
  inside : c.dataNum.toNat ≤ dataCount
  ts : c.ts.toNat < 2 ^ 31
  chainInfo : c.chainInfo.toNat < 2 ^ 31
  extInfo : c.extInfo.toNat < 2 ^ 31
  short : c.text.length + (if last then 0 else 1) < maxBufSize

/-- All requests that are to be made are. -/
def Connected (requests : Nat → Option (List Message)) (count : Nat) : Prop :=
  ∀ i < count, (requests i).isSome = true

/-- The number of packets is refused; or no more messages are accepted than it, what is accepted can be
stored, and where the text is written each record is printable. -/
def Fitting (pktNum : Int) (requests : Nat → Option (List Message)) : Prop :=
  0 ≤ pktNum → pktNum ≤ 30000 →
    let messages := delivered requests (pktNum.toNat / 3) 0
    (∀ d ∈ messages.filterMap Message.accepted, d.Storable) ∧
    ((messages.filterMap Message.accepted).length : Int) ≤ pktNum ∧
    (Connected requests (pktNum.toNat / 3) → ∀ k (c : Record), (captured messages)[k]? = some c →
      c.Printable (decide (k + 1 = (captured messages).length)))

end Claims

section Stores

/-- The samples that are stored are those of the attribute up to the number. -/
theorem storeSamples_iff (n idx : Nat) (samples cur : List (BitVec 16)) :
    (storeSamples n idx samples cur).isSome = true ↔
      min n (idx + cur.length) ≤ max idx samples.length := by
  induction cur generalizing idx samples with
  | nil =>
    simp only [storeSamples, Option.isSome_some, List.length_nil, true_iff]
    omega
  | cons sample rest ih =>
    unfold storeSamples
    by_cases stored : idx < n
    · rw [if_pos stored]
      by_cases inside : idx < samples.length
      · rw [put, if_pos inside, Option.bind_some, ih, List.length_set, List.length_cons]
        omega
      · rw [put, if_neg inside, Option.bind_none, Option.isSome_none, List.length_cons]
        simp only [Bool.false_eq_true, false_iff]
        omega
    · rw [if_neg stored, ih, List.length_cons]
      omega

theorem storeSamples_length {n idx : Nat} {samples cur after : List (BitVec 16)}
    (stored : storeSamples n idx samples cur = some after) : after.length = samples.length := by
  induction cur generalizing idx samples with
  | nil =>
    cases stored
    rfl
  | cons sample rest ih =>
    unfold storeSamples at stored
    split_ifs at stored
    · obtain ⟨samples', place, behind⟩ := Option.bind_eq_some_iff.mp stored
      unfold put at place
      split_ifs at place
      · cases place
        rw [ih behind, List.length_set]
    · exact ih stored

/-- The arrays of a record -/
structure Record.Sized (c : Record) : Prop where
  dataI : c.dataI.length = dataCount
  dataQ : c.dataQ.length = dataCount

theorem fill_sized {d : Data} {c : Record} (filled : fill d = some c) : c.Sized := by
  unfold fill at filled
  -- what is read before the samples
  iterate 13 obtain ⟨_, -, filled⟩ := Option.bind_eq_some_iff.mp filled
  obtain ⟨dataI, storedI, filled⟩ := Option.bind_eq_some_iff.mp filled
  obtain ⟨_, -, filled⟩ := Option.bind_eq_some_iff.mp filled
  obtain ⟨dataQ, storedQ, filled⟩ := Option.bind_eq_some_iff.mp filled
  cases filled
  exact ⟨by simpa using storeSamples_length storedI, by simpa using storeSamples_length storedQ⟩

/-- Data that have been checked fill a record exactly when they can be stored. -/
theorem fill_iff {d : Data} (checked : d.checked = true) :
    (fill d).isSome = true ↔ d.Storable := by
  simp only [Data.checked, Bool.and_eq_true, Option.isSome_iff_exists] at checked
  obtain ⟨⟨⟨⟨⟨⟨⟨⟨⟨⟨⟨⟨ver, hver⟩, ⟨ts, hts⟩⟩, ⟨rssi, hrssi⟩⟩, ⟨snr, hsnr⟩⟩, ⟨bw, hbw⟩⟩, ⟨chIdx, hch⟩⟩,
    ⟨ta, hta⟩⟩, ⟨i, hi⟩⟩, ⟨q, hq⟩⟩, ⟨info, hinfo⟩⟩, ⟨mode, hmode⟩⟩, ⟨chainInfo, hchain⟩⟩ := checked
  have room (n : BitVec 32) (samples : List (BitVec 16)) :
      (storeSamples (n.setWidth 16).toNat 0 (List.replicate dataCount 0) samples).isSome = true ↔
        min samples.length (n.toNat % 2 ^ 16) ≤ dataCount := by
    rw [storeSamples_iff, List.length_replicate, BitVec.toNat_setWidth]
    omega
  unfold fill
  simp only [hts, hrssi, hsnr, hbw, hch, hta, hi, hq, hinfo, hmode, hchain, Option.bind_eq_bind,
    Option.bind_some]
  constructor
  · intro some_
    obtain ⟨c, filled⟩ := Option.isSome_iff_exists.mp some_
    simp only [Option.bind_eq_some_iff] at filled
    obtain ⟨tx, htx, rx, hrx, n, hn, dataI, storedI, dataQ, storedQ, -⟩ := filled
    refine ⟨by rw [htx]; rfl, by rw [hrx]; rfl, n, hn, ?_⟩
    rintro samples (same | same)
    · rw [hi] at same
      obtain rfl := Option.some.inj same
      exact (room n i).mp (by rw [storedI]; rfl)
    · rw [hq] at same
      obtain rfl := Option.some.inj same
      exact (room n q).mp (by rw [storedQ]; rfl)
  · rintro ⟨txAnt, rxAnt, n, hn, within⟩
    obtain ⟨tx, htx⟩ := Option.isSome_iff_exists.mp txAnt
    obtain ⟨rx, hrx⟩ := Option.isSome_iff_exists.mp rxAnt
    obtain ⟨dataI, storedI⟩ := Option.isSome_iff_exists.mp ((room n i).mpr (within i (.inl hi)))
    obtain ⟨dataQ, storedQ⟩ := Option.isSome_iff_exists.mp ((room n q).mpr (within q (.inr hq)))
    simp only [htx, hrx, hn, Option.bind_some, storedI, storedQ]
    rfl

end Stores

section Messages

variable (pktNum : Nat)

theorem accepted_checked {m : Message} {d : Data} (accepted : m.accepted = some d) :
    d.checked = true := by
  unfold Message.accepted at accepted
  split_ifs at accepted
  exact (Option.filter_eq_some_iff.mp accepted).2

theorem captured_append (first second : List Message) :
    captured (first ++ second) = captured first ++ captured second := List.filterMap_append

theorem captured_length {messages : List Message}
    (storable : ∀ d ∈ messages.filterMap Message.accepted, d.Storable) :
    (captured messages).length = (messages.filterMap Message.accepted).length := by
  induction messages with
  | nil => rfl
  | cons m messages ih =>
    cases accepted : m.accepted with
    | none =>
      rw [List.filterMap_cons_none accepted] at storable ⊢
      rw [← ih storable]
      simp [captured, accepted]
    | some d =>
      rw [List.filterMap_cons_some accepted] at storable ⊢
      have fits := (fill_iff (accepted_checked accepted)).mpr (storable d (by simp))
      obtain ⟨c, filled⟩ := Option.isSome_iff_exists.mp fits
      rw [List.length_cons, ← ih fun d member => storable d (by simp [member])]
      simp [captured, accepted, filled]

/-- What some messages do to the records, and when they only touch what they may. -/
theorem foldlM_dumpCb (messages : List Message) (csi csi' : List Record)
    (room : csi.length ≤ pktNum) :
    messages.foldlM (dumpCb pktNum) csi = some csi' ↔
      (∀ d ∈ messages.filterMap Message.accepted, d.Storable) ∧
      csi.length + (messages.filterMap Message.accepted).length ≤ pktNum ∧
      csi' = csi ++ captured messages := by
  induction messages generalizing csi with
  | nil => simp [captured, room, eq_comm]
  | cons m messages ih =>
    rw [List.foldlM_cons]
    cases accepted : m.accepted with
    | none =>
      have skipped : dumpCb pktNum csi m = some csi := by simp [dumpCb, accepted]
      rw [skipped, Option.bind_eq_bind, Option.bind_some, ih csi room]
      simp [captured, accepted]
    | some d =>
      have storable := fill_iff (accepted_checked accepted)
      cases filled : fill d with
      | none =>
        have fault : dumpCb pktNum csi m = none := by simp [dumpCb, accepted, filled]
        have wrong : ¬ d.Storable := by
          rw [← storable, filled]
          simp
        rw [fault]
        simp [accepted, wrong]
      | some c =>
        have fits : d.Storable := by
          rw [← storable, filled]
          rfl
        by_cases more : csi.length < pktNum
        · have stored : dumpCb pktNum csi m = some (csi ++ [c]) := by
            simp [dumpCb, accepted, filled, more]
          rw [stored, Option.bind_eq_bind, Option.bind_some, ih (csi ++ [c]) (by simp; omega)]
          simp [captured, accepted, filled, fits, Nat.add_assoc, Nat.add_comm 1]
        · have fault : dumpCb pktNum csi m = none := by simp [dumpCb, accepted, more]
          rw [fault]
          simp [accepted]
          omega

/-- No more messages come. -/
theorem stops_iff (csi csi' : List Record) (stop connected : Bool) (goesOn : Prop)
    (room : csi.length ≤ pktNum) (same : stop = true ↔ goesOn) :
    some (csi, stop) = some (csi', connected) ↔
      (∀ d ∈ ([] : List Message).filterMap Message.accepted, d.Storable) ∧
      csi.length + (([] : List Message).filterMap Message.accepted).length ≤ pktNum ∧
      csi' = csi ++ captured [] ∧ (connected = true ↔ goesOn) := by
  rw [← same, ← Bool.eq_iff_iff]
  constructor
  · intro ended
    cases ended
    exact ⟨by simp, by simpa using room, by simp [captured], rfl⟩
  · rintro ⟨-, -, rfl, rfl⟩
    simp [captured]

/-- What the requests do to the records. -/
theorem requestLoop_iff (requests : Nat → Option (List Message)) (left i : Nat)
    (csi csi' : List Record) (connected : Bool) (room : csi.length ≤ pktNum) :
    requestLoop pktNum requests left i csi = some (csi', connected) ↔
      (∀ d ∈ (delivered requests left i).filterMap Message.accepted, d.Storable) ∧
      csi.length + ((delivered requests left i).filterMap Message.accepted).length ≤ pktNum ∧
      csi' = csi ++ captured (delivered requests left i) ∧
      (connected = true ↔ ∀ j < left, (requests (i + j)).isSome = true) := by
  induction left generalizing i csi with
  | zero => exact stops_iff pktNum csi csi' true connected _ room (by simp)
  | succ left ih =>
    unfold requestLoop delivered
    cases made : requests i with
    | none =>
      refine stops_iff pktNum csi csi' false connected _ room ?_
      simp only [Bool.false_eq_true, false_iff]
      intro all
      have first := all 0 (by omega)
      rw [Nat.add_zero, made] at first
      cases first
    | some messages =>
      have next : (∀ j < left + 1, (requests (i + j)).isSome = true) ↔
          ∀ j < left, (requests (i + 1 + j)).isSome = true := by
        constructor
        · intro all j less
          rw [show i + 1 + j = i + (j + 1) by omega]
          exact all (j + 1) (by omega)
        · intro all j less
          cases j with
          | zero =>
            rw [Nat.add_zero, made]
            rfl
          | succ j =>
            rw [show i + (j + 1) = i + 1 + j by omega]
            exact all j (by omega)
      rw [next, Option.bind_eq_some_iff]
      simp only [List.filterMap_append, List.mem_append, or_imp, forall_and, List.length_append,
        captured_append]
      constructor
      · rintro ⟨csi₁, stored, behind⟩
        obtain ⟨storable, few, rfl⟩ := (foldlM_dumpCb pktNum messages csi csi₁ room).mp stored
        have length := captured_length storable
        obtain ⟨storable', few', same, all⟩ := (ih (i + 1) _ (by simp; omega)).mp behind
        rw [List.length_append] at few'
        exact ⟨⟨storable, storable'⟩, by omega, by rw [same, List.append_assoc], all⟩
      · rintro ⟨⟨storable, storable'⟩, few, same, all⟩
        have length := captured_length storable
        refine ⟨csi ++ captured messages, (foldlM_dumpCb pktNum messages csi _ room).mpr
          ⟨storable, by omega, rfl⟩, (ih (i + 1) _ (by simp; omega)).mpr
          ⟨storable', ?_, by rw [same, List.append_assoc], all⟩⟩
        rw [List.length_append]
        omega

end Messages

section Printing

theorem intercalate_cons (first : Text) (rest : List Text) (more : rest ≠ []) :
    [','].intercalate (first :: rest) = first ++ ',' :: [','].intercalate rest := by
  cases rest with
  | nil => exact absurd rfl more
  | cons second rest => simp [List.intercalate, List.intersperse]

/-- The samples of a record, when they are in the array -/
theorem samplesPieces_some (n : Nat) (samples : List (BitVec 16)) (left j : Nat)
    (total : j + left = n) (room : n ≤ samples.length) :
    ∃ pieces, samplesPieces n samples left j = some pieces ∧
      pieces.flatten =
        [','].intercalate (((samples.drop j).take left).map fun a => decimal a.toInt) := by
  induction left generalizing j with
  | zero => exact ⟨[], rfl, by simp [List.intercalate]⟩
  | succ left ih =>
    obtain ⟨pieces, behind, flat⟩ := ih (j + 1) (by omega)
    have inside : j < samples.length := by omega
    have here : samples[j]? = some samples[j] := List.getElem?_eq_getElem inside
    have shape : (samples.drop j).take (left + 1) =
        samples[j] :: (samples.drop (j + 1)).take left := by
      rw [List.drop_eq_getElem_cons inside, List.take_succ_cons]
    unfold samplesPieces
    simp only [here, behind, Option.bind_eq_bind, Option.bind_some]
    refine ⟨_, rfl, ?_⟩
    rw [shape, List.map_cons]
    by_cases last : (j : Int) = (n : Int) - 1
    · have none_ : left = 0 := by omega
      subst none_
      obtain rfl : pieces = [] := by
        rw [samplesPieces] at behind
        exact (Option.some.inj behind).symm
      simp [last, List.intercalate]
    · rw [if_pos last, intercalate_cons _ _ (by
        intro empty
        have length := congrArg List.length empty
        simp only [List.length_map, List.length_take, List.length_drop, List.length_nil] at length
        omega), ← flat]
      simp

theorem samplesPieces_room (n : Nat) (samples : List (BitVec 16)) (left j : Nat) {pieces : List Text}
    (printed : samplesPieces n samples left j = some pieces) :
    left = 0 ∨ j + left ≤ samples.length := by
  induction left generalizing j pieces with
  | zero => exact .inl rfl
  | succ left ih =>
    unfold samplesPieces at printed
    obtain ⟨sample, here, printed⟩ := Option.bind_eq_some_iff.mp printed
    obtain ⟨behind, printed, -⟩ := Option.bind_eq_some_iff.mp printed
    have inside := (List.getElem?_eq_some_iff.mp here).1
    have := ih (j + 1) printed
    right
    omega

/-- The text that is printed for a record, where some values are printed with a sign -/
def Record.printed (c : Record) : Text :=
  arrayText [decimal c.ts.toInt, quotes :: c.ta.flatMap hexByte ++ [quotes], decimal c.rssi.toInt,
    decimal c.snr.toNat, decimal c.dataBw.toNat, decimal c.priChIdx.toNat, decimal c.rxMode.toNat,
    decimal c.txIdx.toNat, decimal c.rxIdx.toNat, decimal c.chainInfo.toInt,
    decimal c.extInfo.toInt, arrayText ((c.dataI.take c.dataNum.toNat).map fun a => decimal a.toInt),
    arrayText ((c.dataQ.take c.dataNum.toNat).map fun a => decimal a.toInt)]

/-- A comma behind all records but the last -/
def comma (last : Bool) : Text := if last then [] else [',']

theorem recordPieces_some {c : Record} (sized : c.Sized) (last : Bool)
    (inside : c.dataNum.toNat ≤ dataCount) :
    ∃ pieces, recordPieces c last = some pieces ∧ pieces.flatten = c.printed ++ comma last ∧
      pieces ≠ [] := by
  obtain ⟨piecesI, printedI, flatI⟩ := samplesPieces_some c.dataNum.toNat c.dataI c.dataNum.toNat 0
    (by omega) (by rw [sized.dataI]; exact inside)
  obtain ⟨piecesQ, printedQ, flatQ⟩ := samplesPieces_some c.dataNum.toNat c.dataQ c.dataNum.toNat 0
    (by omega) (by rw [sized.dataQ]; exact inside)
  unfold recordPieces
  simp only [printedI, printedQ, Option.bind_eq_bind, Option.bind_some]
  refine ⟨_, rfl, ?_, by simp⟩
  rw [List.drop_zero] at flatI flatQ
  simp only [List.flatten_append, List.flatten_cons, List.flatten_nil, flatI, flatQ, Record.printed,
    arrayText, comma]
  cases last <;> simp [List.intercalate, List.intersperse]

theorem recordPieces_inside {c : Record} (sized : c.Sized) (last : Bool) {pieces : List Text}
    (printed : recordPieces c last = some pieces) : c.dataNum.toNat ≤ dataCount := by
  unfold recordPieces at printed
  obtain ⟨piecesI, printedI, -⟩ := Option.bind_eq_some_iff.mp printed
  have := samplesPieces_room _ _ _ _ printedI
  rw [sized.dataI] at this
  omega

/-- Pieces are printed into the buffer when they fit with a terminator. -/
theorem foldlM_snprintf (pieces : List Text) (buf : Text) (some_ : pieces ≠ []) :
    pieces.foldlM snprintf buf =
      if buf.length + pieces.flatten.length < maxBufSize then some (buf ++ pieces.flatten)
      else none := by
  induction pieces generalizing buf with
  | nil => exact absurd rfl some_
  | cons piece pieces ih =>
    rw [List.foldlM_cons, List.flatten_cons, List.length_append]
    by_cases fits : buf.length + piece.length < maxBufSize
    · rw [snprintf, if_pos fits, Option.bind_eq_bind, Option.bind_some]
      cases pieces with
      | nil => simp [fits]
      | cons second pieces =>
        rw [ih _ (by simp), List.length_append, List.append_assoc, Nat.add_assoc]
    · rw [snprintf, if_neg fits, if_neg (by omega)]
      rfl

theorem recordText_iff {c : Record} (sized : c.Sized) (last : Bool) (text : Text) :
    recordText c last = some text ↔ c.dataNum.toNat ≤ dataCount ∧
      (c.printed ++ comma last).length < maxBufSize ∧ text = c.printed ++ comma last := by
  unfold recordText
  constructor
  · intro printed
    obtain ⟨pieces, made, printed⟩ := Option.bind_eq_some_iff.mp printed
    have inside := recordPieces_inside sized last made
    obtain ⟨pieces', made', flat, some_⟩ := recordPieces_some sized last inside
    obtain rfl := Option.some.inj (made.symm.trans made')
    rw [foldlM_snprintf pieces [] some_, flat, List.length_nil, Nat.zero_add] at printed
    split_ifs at printed with short
    exact ⟨inside, short, (Option.some.inj printed).symm⟩
  · rintro ⟨inside, short, rfl⟩
    obtain ⟨pieces, made, flat, some_⟩ := recordPieces_some sized last inside
    rw [made, Option.bind_eq_bind, Option.bind_some, foldlM_snprintf pieces [] some_, flat,
      List.length_nil, Nat.zero_add, if_pos short]
    rfl

/-- A record is printed without an access that is not allowed. -/
def Record.Prints (c : Record) (last : Bool) : Prop :=
  c.dataNum.toNat ≤ dataCount ∧ (c.printed ++ comma last).length < maxBufSize

theorem recordsText_iff (csi : List Record) (sized : ∀ c ∈ csi, c.Sized) (text : Text) :
    recordsText csi = some text ↔
      (∀ k (c : Record), csi[k]? = some c → c.Prints (decide (k + 1 = csi.length))) ∧
      text = [','].intercalate (csi.map Record.printed) := by
  induction csi generalizing text with
  | nil => simp [recordsText, List.intercalate, eq_comm]
  | cons c rest ih =>
    have tail := ih fun d member => sized d (by simp [member])
    have first := recordText_iff (sized c (by simp)) rest.isEmpty
    have last : rest.isEmpty = decide (0 + 1 = (c :: rest).length) := by
      cases rest <;> simp
    have shift (k : Nat) : decide (k + 1 + 1 = (c :: rest).length) =
        decide (k + 1 = rest.length) := by simp
    have joined : [','].intercalate ((c :: rest).map Record.printed) =
        c.printed ++ comma rest.isEmpty ++ [','].intercalate (rest.map Record.printed) := by
      cases rest with
      | nil => simp [List.intercalate, comma]
      | cons d rest =>
        rw [List.map_cons, intercalate_cons _ _ (by simp)]
        simp [comma]
    constructor
    · intro printed
      obtain ⟨head, one, printed⟩ := Option.bind_eq_some_iff.mp printed
      obtain ⟨behind, others, ended⟩ := Option.bind_eq_some_iff.mp printed
      obtain ⟨inside, short, rfl⟩ := (first head).mp one
      obtain ⟨prints, rfl⟩ := (tail behind).mp others
      obtain rfl := Option.some.inj ended
      refine ⟨fun k d here => ?_, joined.symm⟩
      cases k with
      | zero =>
        obtain rfl := Option.some.inj here
        rw [← last]
        exact ⟨inside, short⟩
      | succ k =>
        rw [shift]
        exact prints k d here
    · rintro ⟨prints, rfl⟩
      have head := prints 0 c rfl
      rw [← last] at head
      have others := (tail _).mpr ⟨fun k d here => by
        have := prints (k + 1) d here
        rwa [shift] at this, rfl⟩
      rw [recordsText, (first _).mpr ⟨head.1, head.2, rfl⟩, Option.bind_eq_bind, Option.bind_some,
        others, joined]
      rfl

/-- How many minus signs there are -/
def signs (text : Text) : Nat := text.count '-'

theorem signs_digits (n : Nat) : signs (Nat.toDigits 10 n) = 0 := by
  apply List.count_eq_zero.mpr
  intro member
  have digit := Nat.isDigit_of_mem_toDigits (by decide) (by decide) member
  exact absurd digit (by decide)

/-- A value of 32 bits has a sign more when its highest bit is set. -/
theorem signs_signed (b : BitVec 32) :
    signs (decimal b.toInt) = signs (decimal b.toNat) + if 2 ^ 31 ≤ b.toNat then 1 else 0 := by
  have plain : signs (decimal b.toNat) = 0 := by
    rw [decimal, if_neg (by omega)]
    exact signs_digits _
  rw [plain, Nat.zero_add]
  by_cases high : 2 ^ 31 ≤ b.toNat
  · have negative : b.toInt < 0 := by
      rw [BitVec.toInt_eq_toNat_cond, if_neg (by omega)]
      have := b.isLt
      omega
    rw [if_pos high, decimal, if_pos negative]
    have digits := signs_digits b.toInt.natAbs
    unfold signs at digits ⊢
    rw [List.count_cons_self, digits]
  · have same : b.toInt = b.toNat := BitVec.toInt_eq_toNat_of_lt (by omega)
    rw [if_neg high, same, plain]

theorem decimal_small {b : BitVec 32} (small : b.toNat < 2 ^ 31) :
    decimal b.toInt = decimal b.toNat := by
  rw [BitVec.toInt_eq_toNat_of_lt (by omega)]

theorem signs_intercalate (texts : List Text) :
    signs ([','].intercalate texts) = (texts.map signs).sum := by
  induction texts with
  | nil => rfl
  | cons first rest ih =>
    cases rest with
    | nil => simp [List.intercalate, signs]
    | cons second rest =>
      rw [intercalate_cons _ _ (by simp), List.map_cons, List.sum_cons, ← ih]
      simp [signs, List.count_append]

theorem signs_array (texts : List Text) : signs (arrayText texts) = (texts.map signs).sum := by
  rw [← signs_intercalate]
  simp [arrayText, signs, List.count_append]

/-- The values of a record that are printed with a sign they do not have -/
def Record.excess (c : Record) : Nat :=
  (if 2 ^ 31 ≤ c.ts.toNat then 1 else 0) + (if 2 ^ 31 ≤ c.chainInfo.toNat then 1 else 0) +
    (if 2 ^ 31 ≤ c.extInfo.toNat then 1 else 0)

theorem signs_printed (c : Record) : signs c.printed = signs c.text + c.excess := by
  unfold Record.printed Record.text Record.excess
  rw [signs_array, signs_array]
  simp only [List.map_cons, List.sum_cons, signs_signed]
  omega

theorem Record.excess_zero_iff (c : Record) :
    c.excess = 0 ↔ c.ts.toNat < 2 ^ 31 ∧ c.chainInfo.toNat < 2 ^ 31 ∧ c.extInfo.toNat < 2 ^ 31 := by
  have one (n : Nat) : (if 2 ^ 31 ≤ n then 1 else 0) = 0 ↔ n < 2 ^ 31 := by
    split_ifs with high
    · exact iff_of_false (by decide) (by omega)
    · exact iff_of_true rfl (by omega)
  rw [Record.excess, Nat.add_eq_zero_iff, Nat.add_eq_zero_iff, one, one, one, and_assoc]

theorem printed_small {c : Record} (small : c.excess = 0) : c.printed = c.text := by
  obtain ⟨ts, chainInfo, extInfo⟩ := c.excess_zero_iff.mp small
  unfold Record.printed Record.text
  rw [decimal_small ts, decimal_small chainInfo, decimal_small extInfo]

/-- The text is the one of the records only when no value is printed with a sign too many. -/
theorem excess_of_same (csi : List Record)
    (same : arrayText (csi.map Record.printed) = arrayText (csi.map Record.text)) :
    ∀ c ∈ csi, c.excess = 0 := by
  have counts := congrArg signs same
  rw [signs_array, signs_array, List.map_map, List.map_map] at counts
  have split : (csi.map (signs ∘ Record.printed)).sum =
      (csi.map (signs ∘ Record.text)).sum + (csi.map Record.excess).sum := by
    rw [← List.sum_map_add]
    congr 1
    exact List.map_congr_left fun c _ => signs_printed c
  have none_ : (csi.map Record.excess).sum = 0 := by omega
  intro c member
  exact List.sum_eq_zero_iff.mp none_ _ (List.mem_map.mpr ⟨c, member, rfl⟩)

theorem printable_iff (c : Record) (last : Bool) :
    c.Printable last ↔ c.Prints last ∧ c.excess = 0 := by
  have length : (c.text ++ comma last).length = c.text.length + if last then 0 else 1 := by
    cases last <;> simp [comma]
  constructor
  · rintro ⟨inside, ts, chainInfo, extInfo, short⟩
    have small := c.excess_zero_iff.mpr ⟨ts, chainInfo, extInfo⟩
    refine ⟨⟨inside, ?_⟩, small⟩
    rw [printed_small small, length]
    exact short
  · rintro ⟨⟨inside, short⟩, small⟩
    rw [printed_small small, length] at short
    obtain ⟨ts, chainInfo, extInfo⟩ := c.excess_zero_iff.mp small
    exact ⟨inside, ts, chainInfo, extInfo, short⟩

end Printing

section Settled

theorem captured_sized (messages : List Message) : ∀ c ∈ captured messages, c.Sized := by
  intro c member
  obtain ⟨m, -, filled⟩ := List.mem_filterMap.mp member
  obtain ⟨d, -, filled⟩ := Option.bind_eq_some_iff.mp filled
  exact fill_sized filled

/-- The text is one JSON array of the records exactly when each is printable. -/
theorem toJson_iff (csi : List Record) (sized : ∀ c ∈ csi, c.Sized) :
    (∃ text, toJson csi = some text ∧ text = arrayText (csi.map Record.text)) ↔
      ∀ k (c : Record), csi[k]? = some c → c.Printable (decide (k + 1 = csi.length)) := by
  constructor
  · rintro ⟨text, written, same⟩ k c here
    obtain ⟨records, printed, ended⟩ := Option.bind_eq_some_iff.mp written
    obtain ⟨prints, rfl⟩ := (recordsText_iff csi sized records).mp printed
    obtain rfl := Option.some.inj ended
    exact (printable_iff c _).mpr
      ⟨prints k c here, excess_of_same csi same c (List.mem_of_getElem? here)⟩
  · intro printable
    have prints : ∀ k (c : Record), csi[k]? = some c → c.Prints (decide (k + 1 = csi.length)) :=
      fun k c here => ((printable_iff c _).mp (printable k c here)).1
    have texts : csi.map Record.printed = csi.map Record.text := by
      apply List.map_congr_left
      intro c member
      obtain ⟨k, here⟩ := List.getElem?_of_mem member
      exact printed_small ((printable_iff c _).mp (printable k c here)).2
    have written := (recordsText_iff csi sized _).mpr ⟨prints, rfl⟩
    refine ⟨arrayText (csi.map Record.printed), ?_, by rw [texts]⟩
    unfold toJson
    rw [written]
    rfl

/-- The capture stays in its arrays and writes its records exactly when the messages fit. -/
theorem captured_iff (pktNum : Int) (requests : Nat → Option (List Message)) :
    Captured pktNum requests ↔ Fitting pktNum requests := by
  by_cases refused : pktNum < 0 ∨ pktNum > 30000
  · constructor
    · intro _ least most
      omega
    · intro _
      exact ⟨.refused, by rw [dump, if_pos refused], trivial⟩
  have loop (csi : List Record) (connected : Bool) :=
    requestLoop_iff pktNum.toNat requests (pktNum.toNat / 3) 0 [] csi connected (Nat.zero_le _)
  simp only [List.nil_append, List.length_nil, Nat.zero_add] at loop
  have sized := captured_sized (delivered requests (pktNum.toNat / 3) 0)
  have json := toJson_iff _ sized
  constructor
  · rintro ⟨ending, made, right⟩ least most
    rw [dump, if_neg refused] at made
    obtain ⟨⟨csi, connected⟩, ran, made⟩ := Option.bind_eq_some_iff.mp made
    obtain ⟨storable, few, rfl, all⟩ := (loop csi connected).mp ran
    refine ⟨storable, by omega, fun made_ => ?_⟩
    dsimp only at made
    rw [if_pos (all.mpr made_)] at made
    obtain ⟨text, written, made⟩ := Option.bind_eq_some_iff.mp made
    obtain rfl := Option.some.inj made
    exact json.mp ⟨text, written, right.2.2⟩
  · intro fitting
    obtain ⟨storable, few, printable⟩ := fitting (by omega) (by omega)
    have length := captured_length storable
    have ran (connected : Bool)
        (all : connected = true ↔ Connected requests (pktNum.toNat / 3)) :=
      (loop _ connected).mpr ⟨storable, by omega, rfl, all⟩
    by_cases made : Connected requests (pktNum.toNat / 3)
    · obtain ⟨text, written, same⟩ := json.mpr (printable made)
      refine ⟨.written (captured (delivered requests (pktNum.toNat / 3) 0)) text, ?_, rfl,
        by omega, same⟩
      rw [dump, if_neg refused, ran true (by simpa using made), Option.bind_eq_bind,
        Option.bind_some]
      dsimp only
      rw [if_pos rfl, written]
      rfl
    · refine ⟨.unconnected (captured (delivered requests (pktNum.toNat / 3) 0)), ?_, rfl,
        by omega⟩
      rw [dump, if_neg refused, ran false (by simpa using made), Option.bind_eq_bind,
        Option.bind_some]
      rfl

/-- Data of one antenna and one sample, where the attribute of the other antenna is missing -/
def oneAntenna : Data :=
  ⟨some 1, some 5, some 200, some 30, some 1, some 0, some [1, 2, 3, 4, 5, 6], some 1, some [7],
    some [9], some 0, none, some 0, some 0, some 0⟩

/-- An attribute that is not asked for is read though it is absent. -/
theorem absent_antenna_read :
    dump 3 (fun _ => some [⟨true, some oneAntenna⟩]) = none ∧
      ¬ Captured 3 fun _ => some [⟨true, some oneAntenna⟩] := by
  have fault : dump 3 (fun _ => some [⟨true, some oneAntenna⟩]) = none := by rfl
  refine ⟨fault, ?_⟩
  rintro ⟨ending, made, -⟩
  rw [fault] at made
  cases made

end Settled

end Filogic.Vendor.Csi
