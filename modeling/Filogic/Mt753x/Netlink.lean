import Mathlib

/-! `mt753x_nl.c`: the requests of the netlink family, with the mutex of the list of switches and the
text that lists them. -/

namespace Filogic.Mt753x.Netlink

/-- `struct gsw_mt753x`, with the name of its node -/
structure Gsw where
  id : BitVec 32
  name : List Char
  node : List Char

/-- `mt753x_devs_lock` -/
inductive LockOp where
  | lock
  | unlock
  deriving DecidableEq

section Listing

/-- `%d` -/
def printInt (i : Int) : List Char :=
  if i < 0 then '-' :: Nat.toDigits 10 i.natAbs else Nat.toDigits 10 i.natAbs

/-- `"id: %d, model: %s, node: %s\n"` -/
def devLine (gsw : Gsw) : List Char :=
  ['i', 'd', ':', ' '] ++ printInt gsw.id.toInt ++
    [',', ' ', 'm', 'o', 'd', 'e', 'l', ':', ' '] ++ gsw.name ++
    [',', ' ', 'n', 'o', 'd', 'e', ':', ' '] ++ gsw.node ++ ['\n']

/-- The buffer: its text, how far it has been written, and `total`. -/
structure ListBuf where
  text : List Char
  reach : Nat
  total : Nat

/-- `strncat` with a room that was an `int` and is a `size_t`. -/
def strncat (b : ListBuf) (line : List Char) (room : Int) : ListBuf :=
  let n := if room < 0 then 2 ^ 64 - room.natAbs else room.natAbs
  let text := b.text ++ line.take n
  { b with text := text, reach := max b.reach (text.length + 1) }

/-- One round of `mt753x_nl_list_devs`; `snprintf` has room for 79 characters. -/
def listDev (size : Nat) (b : ListBuf) (gsw : Gsw) : ListBuf :=
  let line := devLine gsw
  let buf := line.take 79
  if line.length = buf.length then
    let b := strncat b buf (size - b.total)
    { b with total := b.total + line.length }
  else b

/-- `mt753x_nl_list_devs` -/
def nlListDevs (devs : List Gsw) (size : Nat) : ListBuf × List LockOp :=
  (devs.foldl (listDev size) ⟨[], size, 0⟩, [.lock, .unlock])

end Listing

section Requests

/-- `enum mt753x_attr`, as far as a request is asked for it -/
inductive Attr where
  | phy | devad | reg | val | devId
  deriving DecidableEq

structure Info where
  cmd : Nat
  attrs : Attr → Option (BitVec 32)

/-- The answers of the netlink layer, and the value that the switch gives. -/
structure Answers where
  prepareReply : Int
  putMesg : Int
  putReg : Int
  putVal : Int
  sendReply : Int
  value : BitVec 32

/-- What is accessed of the switch. -/
inductive Access where
  | miiRead (phy reg : Int)
  | mmdRead (phy devad reg : Int)
  | regRead (reg : Int)
  | miiWrite (phy reg : Int) (val : BitVec 32)
  | mmdWrite (phy devad reg : Int) (val : BitVec 32)
  | regWrite (reg : Int) (val : BitVec 32)

/-- The return value, what was done to the mutex, and the access. -/
structure Response where
  ret : Int
  locks : List LockOp
  access : Option Access

variable (devs : List Gsw) (info : Info) (answers : Answers)

/-- `mt753x_get_gsw`: with a switch, the mutex stays locked. -/
def getGsw (id : BitVec 32) : Option Gsw × List LockOp :=
  match devs.find? (·.id = id) with
  | some dev => (some dev, [.lock])
  | none => (none, [.lock, .unlock])

/-- `mt753x_get_first_gsw` -/
def getFirstGsw : Option Gsw × List LockOp :=
  match devs with
  | dev :: _ => (some dev, [.lock])
  | [] => (none, [.lock, .unlock])

/-- `mt753x_nl_get_s32` -/
def nlGetS32 (attr : Attr) (defval : Int) : Int :=
  match info.attrs attr with
  | some na => na.toInt
  | none => defval

/-- `mt753x_nl_parse_find_gsw` -/
def nlParseFindGsw : Option Gsw × List LockOp :=
  match info.attrs .devId with
  | some na => if 0 ≤ na.toInt then getGsw devs na else getFirstGsw devs
  | none => getFirstGsw devs

/-- The end of a reply: the first error, or the result of sending it. -/
def reply (puts : List Int) (sendReply : Int) : Int :=
  match puts.find? (· < 0) with
  | some ret => ret
  | none => sendReply

/-- `mt753x_nl_get_swdevs` -/
def nlGetSwdevs : Response :=
  let (b, locks) := nlListDevs devs 512
  if b.total = 0 then ⟨-22, locks, none⟩
  else ⟨reply [answers.prepareReply, answers.putMesg] answers.sendReply, locks, none⟩

/-- `mt753x_nl_reply_read` -/
def nlReplyRead : Response :=
  let phy := nlGetS32 info .phy (-1)
  let devad := nlGetS32 info .devad (-1)
  let reg := nlGetS32 info .reg (-1)
  if reg < 0 then ⟨0, [], none⟩
  else if answers.prepareReply < 0 then ⟨answers.prepareReply, [], none⟩
  else
    let access :=
      if 0 ≤ phy then if devad < 0 then .miiRead phy reg else .mmdRead phy devad reg
      else .regRead reg
    ⟨reply [answers.putReg, answers.putVal] answers.sendReply, [], some access⟩

/-- `mt753x_nl_reply_write` -/
def nlReplyWrite : Response :=
  let phy := nlGetS32 info .phy (-1)
  let devad := nlGetS32 info .devad (-1)
  let reg := nlGetS32 info .reg (-1)
  match info.attrs .val with
  | none => ⟨0, [], none⟩
  | some value =>
    if reg < 0 then ⟨0, [], none⟩
    else if answers.prepareReply < 0 then ⟨answers.prepareReply, [], none⟩
    else
      let access :=
        if 0 ≤ phy then if devad < 0 then .miiWrite phy reg value else .mmdWrite phy devad reg value
        else .regWrite reg value
      ⟨reply [answers.putReg, answers.putVal] answers.sendReply, [], some access⟩

/-- `struct mt753x_nl_cmd_item` -/
structure CmdItem where
  cmd : Nat
  requireDev : Bool
  process : Response
  requiredAttrs : List Attr

/-- `MT753X_CMD_REQUEST` -/
def cmdRequest : Nat := 1

/-- `mt753x_nl_cmds` -/
def nlCmds : List CmdItem :=
  [⟨cmdRequest, false, nlGetSwdevs devs answers, []⟩,
    ⟨3, true, nlReplyRead info answers, [.reg]⟩,
    ⟨4, true, nlReplyWrite info answers, [.reg, .val]⟩]

/-- `mt753x_nl_response` from the lookup of the switch on -/
def nlProcess (item : CmdItem) : Response :=
  let (gsw, locks) := if item.requireDev then nlParseFindGsw devs info else (none, [])
  if item.requireDev && gsw.isNone then ⟨-22, locks, none⟩
  else { item.process with locks := locks ++ item.process.locks ++ [LockOp.unlock] }

/-- `mt753x_nl_response` -/
def nlResponse : Response :=
  match (nlCmds devs info answers).find? (·.cmd = info.cmd) with
  | none => ⟨-22, [], none⟩
  | some item =>
    if item.requiredAttrs.countP (info.attrs · |>.isSome) ≠ item.requiredAttrs.length then
      ⟨-22, [], none⟩
    else nlProcess devs info item

end Requests

section Balance

/-- The mutex is locked as often as unlocked, and never unlocked when it is not held. -/
def Balanced (locks : List LockOp) : Prop :=
  locks.count .lock = locks.count .unlock ∧
    ∀ early ∈ locks.inits, early.count .unlock ≤ early.count .lock

instance (locks : List LockOp) : Decidable (Balanced locks) :=
  inferInstanceAs (Decidable (_ ∧ _))

variable (devs : List Gsw) (info : Info) (answers : Answers)

/-- A lookup keeps the mutex just if it finds a switch. -/
theorem nlParseFindGsw_locks :
    (nlParseFindGsw devs info).2 =
      if (nlParseFindGsw devs info).1.isSome then [.lock] else [.lock, .unlock] := by
  have first : (getFirstGsw devs).2 =
      if (getFirstGsw devs).1.isSome then [.lock] else [.lock, .unlock] := by
    cases devs <;> rfl
  have one (id : BitVec 32) : (getGsw devs id).2 =
      if (getGsw devs id).1.isSome then [.lock] else [.lock, .unlock] := by
    unfold getGsw
    cases devs.find? (·.id = id) <;> rfl
  unfold nlParseFindGsw
  cases info.attrs .devId with
  | none => exact first
  | some na =>
    by_cases known : 0 ≤ na.toInt
    · simp only [if_pos known]
      exact one na
    · simp only [if_neg known]
      exact first

theorem nlReplyRead_locks : (nlReplyRead info answers).locks = [] := by
  unfold nlReplyRead
  dsimp only
  split_ifs <;> rfl

theorem nlReplyWrite_locks : (nlReplyWrite info answers).locks = [] := by
  unfold nlReplyWrite
  dsimp only
  cases info.attrs .val with
  | none => rfl
  | some value =>
    dsimp only
    split_ifs <;> rfl

theorem nlGetSwdevs_locks : (nlGetSwdevs devs answers).locks = [.lock, .unlock] := by
  unfold nlGetSwdevs nlListDevs
  dsimp only
  split_ifs <;> rfl

/-- A command that needs a switch and leaves the mutex alone. -/
theorem nlProcess_balanced (item : CmdItem) (quiet : item.process.locks = [])
    (dev : item.requireDev = true) : Balanced (nlProcess devs info item).locks := by
  have locks := nlParseFindGsw_locks devs info
  have even : Balanced [.lock, .unlock] := by decide
  unfold nlProcess
  simp only [dev, if_true, Bool.true_and, quiet]
  cases found : (nlParseFindGsw devs info).1 with
  | none =>
    rw [found] at locks
    simp only [Option.isNone_none, if_true, locks]
    exact even
  | some gsw =>
    rw [found] at locks
    simp only [Option.isNone_some, Bool.false_eq_true, if_false, locks]
    exact even

/-- The list is made without a switch, and the mutex that it took is given back twice. -/
theorem nlResponse_balanced_iff :
    Balanced (nlResponse devs info answers).locks ↔ info.cmd ≠ cmdRequest := by
  by_cases list : info.cmd = cmdRequest
  · have twice : (nlResponse devs info answers).locks = [.lock, .unlock, .unlock] := by
      have locks := nlGetSwdevs_locks devs answers
      simp [nlResponse, nlCmds, list, nlProcess, locks]
    rw [twice]
    simp only [list, ne_eq, not_true, iff_false]
    decide
  · have untouched : Balanced [] := by decide
    simp only [ne_eq, list, not_false_iff, iff_true]
    unfold nlResponse
    cases chosen : (nlCmds devs info answers).find? (·.cmd = info.cmd) with
    | none => exact untouched
    | some item =>
      dsimp only
      split_ifs with missing
      · exact untouched
      · have member := List.mem_of_find?_eq_some chosen
        have cmd := List.find?_some chosen
        simp only [nlCmds, List.mem_cons, List.not_mem_nil, or_false] at member
        rcases member with rfl | rfl | rfl
        · exact absurd (of_decide_eq_true cmd).symm list
        · exact nlProcess_balanced devs info _ (nlReplyRead_locks info answers) rfl
        · exact nlProcess_balanced devs info _ (nlReplyWrite_locks info answers) rfl

end Balance

section Room

/-- The listing stays in the buffer and ends in it with a `NUL`, and its count fits the size. -/
def Fits (size : Nat) (b : ListBuf) : Prop :=
  b.reach ≤ size ∧ b.text.length < size ∧ b.total ≤ size

/-- The characters that a switch adds. -/
def lineLength (gsw : Gsw) : Nat :=
  if (devLine gsw).length ≤ 79 then (devLine gsw).length else 0

/-- Nothing has been cut off so far, or there was a write behind the end. -/
def Honest (size : Nat) (b : ListBuf) : Prop :=
  b.total < size ∧ b.text.length = b.total ∧ b.reach = size ∨ size ≤ b.total ∧ size < b.reach

theorem listDev_total (size : Nat) (b : ListBuf) (gsw : Gsw) :
    (listDev size b gsw).total = b.total + lineLength gsw := by
  unfold listDev lineLength
  simp only [List.length_take]
  by_cases short : (devLine gsw).length ≤ 79
  · rw [if_pos (by omega), if_pos short]
    rfl
  · rw [if_neg (by omega), if_neg short, Nat.add_zero]

theorem strncat_reach (b : ListBuf) (line : List Char) (room : Int) :
    b.reach ≤ (strncat b line room).reach := le_max_left ..

/-- A line that fits is added whole; one that does not puts its `NUL` behind the end. -/
theorem listDev_honest (size : Nat) (b : ListBuf) (gsw : Gsw) (honest : Honest size b) :
    Honest size (listDev size b gsw) := by
  have total := listDev_total size b gsw
  have mono : b.reach ≤ (listDev size b gsw).reach := by
    unfold listDev
    dsimp only
    split_ifs
    · exact strncat_reach ..
    · exact le_rfl
  rcases honest with ⟨below, text, reach⟩ | ⟨above, past⟩
  · by_cases short : (devLine gsw).length ≤ 79
    · have whole : (devLine gsw).take 79 = devLine gsw := List.take_of_length_le short
      have room : ¬ ((size : Int) - b.total < 0) := by omega
      have left : ((size : Int) - b.total).natAbs = size - b.total := by omega
      have here : listDev size b gsw =
          { text := b.text ++ (devLine gsw).take (size - b.total)
            reach := max b.reach ((b.text ++ (devLine gsw).take (size - b.total)).length + 1)
            total := b.total + (devLine gsw).length } := by
        unfold listDev strncat
        simp only [whole, if_neg room, left, if_true]
      rw [here]
      unfold Honest
      simp only [List.length_append, List.length_take]
      omega
    · left
      have skipped : listDev size b gsw = b := by
        unfold listDev
        rw [if_neg]
        rw [List.length_take]
        omega
      rw [skipped]
      exact ⟨below, text, reach⟩
  · right
    exact ⟨by omega, by omega⟩

theorem listDevs_total (size : Nat) (devs : List Gsw) (b : ListBuf) :
    (devs.foldl (listDev size) b).total = b.total + (devs.map lineLength).sum := by
  induction devs generalizing b with
  | nil => rfl
  | cons gsw devs ih =>
    rw [List.foldl_cons, ih, listDev_total, List.map_cons, List.sum_cons, Nat.add_assoc]

theorem nlListDevs_fits_iff (devs : List Gsw) (size : Nat) :
    Fits size (nlListDevs devs size).1 ↔ (devs.map lineLength).sum < size := by
  have total : (nlListDevs devs size).1.total = (devs.map lineLength).sum := by
    unfold nlListDevs
    rw [listDevs_total]
    exact Nat.zero_add _
  by_cases some_room : 0 < size
  · have honest : Honest size (nlListDevs devs size).1 := by
      apply List.foldlRecOn devs (listDev size) (motive := Honest size)
      · exact .inl ⟨some_room, rfl, rfl⟩
      · exact fun b honest gsw _ => listDev_honest size b gsw honest
    rw [← total]
    unfold Fits
    rcases honest with ⟨below, text, reach⟩ | ⟨above, past⟩ <;> omega
  · unfold Fits
    omega

/-- A request is balanced, and a listing fits its buffer, just if the request is not for the list and
the lines of the switches are shorter than the buffer. -/
theorem netlink_safe_iff (devs : List Gsw) (info : Info) (answers : Answers) (size : Nat) :
    Balanced (nlResponse devs info answers).locks ∧ Fits size (nlListDevs devs size).1 ↔
      info.cmd ≠ cmdRequest ∧ (devs.map lineLength).sum < size := by
  rw [nlResponse_balanced_iff, nlListDevs_fits_iff]

/-- The list of no switches at all gives the mutex back that it does not hold. -/
theorem list_unbalanced :
    (nlResponse [] ⟨1, fun _ => none⟩ ⟨0, 0, 0, 0, 0, 0⟩).locks = [.lock, .unlock, .unlock] ∧
      ¬ Balanced (nlResponse [] ⟨1, fun _ => none⟩ ⟨0, 0, 0, 0, 0, 0⟩).locks := by
  decide

end Room

end Filogic.Mt753x.Netlink
