import Filogic.Lib.Runs

/-! The HQA commands of `atenl` that reach the kernel: which band and phy they choose, and which test
state they put into their messages. -/

namespace Filogic.Atenl

/-- `enum mt76_testmode_state` -/
inductive TestmodeState
  | off
  | idle
  | txFrames
  | rxFrames
  | txCont
  | on
  deriving DecidableEq, Repr

abbrev BandNum := Fin 3

/-- `struct atenl_band` -/
structure Band where
  valid : Bool
  phyIdx : BitVec 8
  curState : TestmodeState
  rfMode : BitVec 32
  deriving DecidableEq, Repr

/-- `struct atenl` -/
structure An where
  anb : BandNum → Band
  chipId : BitVec 16
  curBand : BitVec 8

/-- A state attribute in a message that is handed to the kernel: the band it is meant for and the phy
of the message. -/
structure Sent where
  band : BandNum
  phy : BitVec 8
  state : TestmodeState
  deriving DecidableEq, Repr

/-- The program, the last test state that the kernel acknowledged for each phy, and what was sent. -/
structure Sys where
  an : An
  acked : BitVec 8 → TestmodeState
  sent : List Sent

/-- What the sockets and the kernel do with one message: `unl_genl_init` succeeds, there is room for the
test data and for a nest inside of them, and `unl_genl_request` returns `0`. -/
structure Answer where
  connects : Bool
  room : Bool
  roomInside : Bool
  acks : Bool
  deriving DecidableEq, Repr

/-- The words of a request in the order of the host. -/
abbrev Words := Nat → BitVec 32

section Messages

def isMt7996 (an : An) : Bool := an.chipId = 0x7990

def isMt7992 (an : An) : Bool := an.chipId = 0x7992

def isConnac3 (an : An) : Bool := isMt7996 an || isMt7992 an

def An.setState (an : An) (band : BandNum) (state : TestmodeState) : An :=
  { an with anb := Function.update an.anb band { an.anb band with curState := state } }

/-- `atenl_set_attr_state`: the attribute is left out where the cached state is the same. -/
def setAttrState (s : Sys) (band : BandNum) (state : TestmodeState) : Sys × Option TestmodeState :=
  if (s.an.anb band).curState = state then (s, none)
  else ({ s with an := s.an.setState band state }, some state)

/-- `unl_genl_request`: a state that is acknowledged is the state of the phy. -/
def genlRequest (s : Sys) (phy : BitVec 8) (band : BandNum) (attr : Option TestmodeState)
    (acks : Bool) : Sys :=
  match attr with
  | none => s
  | some state =>
      { s with
        acked := if acks then Function.update s.acked phy state else s.acked
        sent := s.sent ++ [⟨band, phy, state⟩] }

/-- A message with a state, put together and sent. -/
def stateRequest (s : Sys) (phy : BitVec 8) (band : BandNum) (state : TestmodeState)
    (acks : Bool) : Sys :=
  let (s, attr) := setAttrState s band state
  genlRequest s phy band attr acks

/-- The band of a number, which must be an index of `an->anb`. -/
def bandNum (band : BitVec 8) : Option BandNum :=
  if h : band.toNat < 3 then some ⟨band.toNat, h⟩ else none

end Messages

section Handlers

/-- `atenl_nl_set_state` -/
def nlSetState (s : Sys) (band : BandNum) (state : TestmodeState) (a : Answer) : Sys :=
  if !a.connects then s
  else if !a.room then s
  else stateRequest s (s.an.anb band).phyIdx band state a.acks

/-- The first loop of `atenl_hqa_adapter`. -/
def adapterOff (opens : Bool) (answers : Nat → Answer) (s : Sys) (i : BandNum) : Sys :=
  if !(s.an.anb i).valid then s
  else if opens then s
  else nlSetState s i .off (answers i.val)

/-- The second loop of `atenl_hqa_adapter`. -/
def adapterIdle (answers : Nat → Answer) (s : Sys) (i : BandNum) : Sys :=
  nlSetState s i .idle (answers (3 + i.val))

/-- `atenl_hqa_adapter` -/
def hqaAdapter (s : Sys) (opens : Bool) (answers : Nat → Answer) : Sys :=
  let s := (List.finRange 3).foldl (adapterOff opens answers) s
  (List.finRange 3).foldl (adapterIdle answers) s

def An.setRfMode (an : An) (band : BandNum) (mode : BitVec 32) : An :=
  { an with anb := Function.update an.anb band { an.anb band with rfMode := mode } }

theorem zero_lt_bands : 0 < 3 := by decide

theorem one_lt_bands : 1 < 3 := by decide

/-- `atenl_hqa_set_rf_mode`, for the bands 0 and 1 -/
def hqaSetRfMode (s : Sys) (v : Words) : Sys :=
  { s with an := (s.an.setRfMode ⟨0, zero_lt_bands⟩ (v 0)).setRfMode ⟨1, one_lt_bands⟩ (v 0) }

/-- `atenl_hqa_set_channel`, of which the band stays; the channel goes to `iw`. -/
def hqaSetChannel (s : Sys) (v : Words) : Sys :=
  let band := (v 2).setWidth 8
  let bw := ((v 5).setWidth 8).toNat
  let priSel := ((v 7).setWidth 8).toNat
  if band.toNat ≥ 3 then s
  else if (bw = 12 ∧ priSel > 15) ∨ (bw = 5 ∧ priSel > 7) ∨ (bw = 2 ∧ priSel > 3) ∨
      (bw = 1 ∧ priSel > 1) then s
  else { s with an := { s.an with curBand := band } }

/-- `phy_type_to_attr`: the modes of the types that are there, and `0` for the gaps. -/
def phyTypeToAttr (phyType : Nat) : Nat :=
  [0, 1, 2, 2, 3, 0, 0, 0, 4, 5, 6, 7, 0, 8, 9, 10].getD phyType 0

/-- The modes of `he_sgi_groups`. -/
def heSgiGroups : List Nat := [4, 4, 4, 4, 4, 5, 5, 5, 5, 5, 6, 6, 6, 7, 7, 7, 7]

/-- Whether `START_TX` finds a guard interval for its rate. -/
def sgiFound (an : An) (v : Words) : Bool :=
  let txRateMode := phyTypeToAttr ((v 4).setWidth 8).toNat
  let sgi := ((v 13).setWidth 8).toNat
  decide (sgi ≤ 5) &&
    (isConnac3 an || decide (txRateMode < 4) ||
      decide (heSgiGroups.findIdx (· = txRateMode) + sgi < heSgiGroups.length))

/-- `atenl_nl_tx` for a message to `phy`. -/
def nlTx (s : Sys) (stops : Bool) (v : Words) (phy : BitVec 8) (a : Answer) : Sys :=
  match bandNum ((v 2).setWidth 8) with
  | none => s
  | some band =>
      if !a.room then s
      else if stops then stateRequest s phy band .idle a.acks
      else if !sgiFound s.an v then s
      else if !a.roomInside then s
      else stateRequest s phy band .txFrames a.acks

/-- `atenl_nl_rx` for a message to `phy`. -/
def nlRx (s : Sys) (stops : Bool) (v : Words) (phy : BitVec 8) (a : Answer) : Sys :=
  match bandNum ((v 2).setWidth 8) with
  | none => s
  | some band =>
      if !a.room then s
      else if stops then stateRequest s phy band .idle a.acks
      else stateRequest s phy band .rxFrames a.acks

/-- `atenl_nl_continuous_tx` for a message to `phy`. -/
def nlContinuousTx (s : Sys) (v : Words) (phy : BitVec 8) (a : Answer) : Sys :=
  if !a.room then s
  else
    match bandNum ((v 0).setWidth 8) with
    | none => s
    | some band =>
        if v 1 = 0 then stateRequest s phy band .idle a.acks
        else if (s.an.anb band).rfMode ≠ 1 then s
        else stateRequest s phy band .txCont a.acks

/-- The loop of `atenl_nl_set_ru`: one message each, of which the first one has a state. -/
def ruLoop (cur : BandNum) (answers : Nat → Answer) : Sys → Nat → Nat → Sys
  | s, _, 0 => s
  | s, i, n + 1 =>
      if !(answers i).connects then s
      else if !(answers i).room then s
      else
        ruLoop cur answers
          (if i = 0 then stateRequest s (s.an.anb cur).phyIdx cur .idle (answers i).acks else s)
          (i + 1) n

/-- `atenl_nl_set_ru`; `none` stands for an access outside of `an->anb`. -/
def nlSetRu (s : Sys) (v : Words) (answers : Nat → Answer) : Option Sys :=
  let seg0Num := (v 1).toNat
  if seg0Num > 8 then some s
  else if seg0Num = 0 || !(answers 0).connects then some s
  else (bandNum s.an.curBand).map fun cur => ruLoop cur answers s 0 seg0Num

/-- The band that `TXBF_ACT_CHANNEL` makes the current one. -/
def ibfBand (v : Words) : BitVec 8 :=
  if ((v 2).setWidth 16).toNat > 14 then 1 else (v 3).setWidth 8

/-- `atenl_nl_ibf_set_val` for a message to the phy of the current band. -/
def nlIbfSetVal (s : Sys) (v : Words) (cur : BandNum) (a : Answer) : Option Sys :=
  let phy := (s.an.anb cur).phyIdx
  if !a.room then some s
  else
    match (v 1).toNat with
    | 2 => (bandNum (ibfBand v)).map fun _ => { s with an := { s.an with curBand := ibfBand v } }
    | 6 => some (stateRequest s phy cur .rxFrames a.acks)
    | 10 =>
        if !a.roomInside then some s
        else some (stateRequest s phy cur .txFrames a.acks)
    | _ => some s

/-- `atenl_nl_process`: the message goes to the phy of the current band. -/
def nlProcess (s : Sys) (a : Answer) (ops : BandNum → Option Sys) : Option Sys :=
  if !a.connects then some s else (bandNum s.an.curBand).bind ops

/-- The commands. `other` stands for those of `atenl_nl_process` whose messages have no state. -/
inductive Cmd
  | adapter (opens : Bool)
  | setRfMode (v : Words)
  | setChannel (v : Words)
  | tx (stops : Bool) (v : Words)
  | rx (stops : Bool) (v : Words)
  | continuousTx (v : Words)
  | setRu (v : Words)
  | ibfSetVal (v : Words)
  | other

/-- One command, with the answers to its messages in their order. -/
def handle (s : Sys) (cmd : Cmd) (answers : Nat → Answer) : Option Sys :=
  match cmd with
  | .adapter opens => some (hqaAdapter s opens answers)
  | .setRfMode v => some (hqaSetRfMode s v)
  | .setChannel v => some (hqaSetChannel s v)
  | .tx stops v =>
      nlProcess s (answers 0) fun cur => some (nlTx s stops v (s.an.anb cur).phyIdx (answers 0))
  | .rx stops v =>
      nlProcess s (answers 0) fun cur => some (nlRx s stops v (s.an.anb cur).phyIdx (answers 0))
  | .continuousTx v =>
      nlProcess s (answers 0) fun cur =>
        some (nlContinuousTx s v (s.an.anb cur).phyIdx (answers 0))
  | .setRu v => nlSetRu s v answers
  | .ibfSetVal v => nlProcess s (answers 0) fun cur => nlIbfSetVal s v cur (answers 0)
  | .other => nlProcess s (answers 0) fun _ => some s

/-- The start: `atenl_eeprom_init` numbers the phys of the bands that the chip has. -/
def init (phyIdx : BitVec 8) (valid : BandNum → Bool) (chipId : BitVec 16) : Sys where
  an :=
    { anb := fun band =>
        { valid := valid band
          phyIdx := if band.val = 0 ∨ valid band then phyIdx + BitVec.ofNat 8 band.val else 0
          curState := .off
          rfMode := 0 }
      chipId := chipId
      curBand := 0 }
  acked := fun _ => .off
  sent := []

abbrev Event := Cmd × (Nat → Answer)

def step (s : Option Sys) (event : Event) : Option Sys :=
  s.bind fun s => handle s event.1 event.2

end Handlers

end Filogic.Atenl
