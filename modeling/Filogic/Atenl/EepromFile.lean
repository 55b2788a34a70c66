import Mathlib

/-! The file that `atenl_create_file` fills with the driver's EEPROM, when reads and writes are short,
are interrupted or fail. -/

namespace Filogic.Atenl.EepromFile

/-- What a `read` answers: one byte more than a number, as far as that many are asked for and left,
or -1. -/
inductive ReadAnswer where
  | bytes (more : Nat)
  | error
  deriving DecidableEq

/-- What a `write` answers: one byte more than a number, as far as that many are given, or nothing,
where `errno` is `EINTR` or not. -/
inductive WriteAnswer where
  | bytes (more : Nat)
  | nothing (interrupted : Bool)
  deriving DecidableEq

/-- A loop comes to its end, or a write fails in it, or its answers do not reach so far. -/
inductive Course (α : Type) where
  | cut
  | failed
  | ended (at_ : α)
  deriving DecidableEq

def Course.bind {α β : Type} : Course α → (α → Course β) → Course β
  | .cut, _ => .cut
  | .failed, _ => .failed
  | .ended a, f => f a

section Code

/-- `EEPROM_PART_SIZE` -/
def eepromPartSize : Nat := 0xFF000

def maxLen (flashMode : Bool) : Nat := if flashMode then eepromPartSize else 0x1e00

/-- The size of `buf` -/
def bufSize : Nat := 1024

/-- What is read into the buffer: nothing only at the end of the file. -/
def readLen (more left : Nat) : Nat := min (min (more + 1) bufSize) left

/-- The write of a buffer up to the label `retry`: how much is written, and the answers behind. -/
def retry (len : Nat) : List WriteAnswer → Course (Nat × List WriteAnswer)
  | [] => .cut
  | .bytes more :: writes => .ended (min (more + 1) len, writes)
  | .nothing true :: writes => retry len writes
  | .nothing false :: _ => .failed

/-- The loop that copies: the file and `total_len` behind it. -/
def copyLoop (rest file : List UInt8) (totalLen : Nat) (writes : List WriteAnswer) :
    List ReadAnswer → Course (List UInt8 × Nat)
  | [] => .cut
  | .error :: _ => .ended (file, totalLen)
  | .bytes more :: reads =>
      let len := readLen more rest.length
      if len = 0 then .ended (file, totalLen)
      else (retry len writes).bind fun (w, writes) =>
        copyLoop (rest.drop len) (file ++ (rest.take len).take w) (totalLen + len) writes reads

/-- The loop that reserves the space behind -/
def zeroLoop (maxLen : Nat) (file : List UInt8) (totalLen : Nat) :
    List WriteAnswer → Course (List UInt8)
  | [] => if totalLen < maxLen then .cut else .ended file
  | .bytes more :: writes =>
      if totalLen < maxLen then
        zeroLoop maxLen (file ++ List.replicate (min (more + 1) bufSize) 0) (totalLen + bufSize)
          writes
      else .ended file
  | .nothing interrupted :: writes =>
      if totalLen < maxLen then
        if interrupted = true then zeroLoop maxLen file totalLen writes else .failed
      else .ended file

/-- What the kernel answers: `fd_ori`, `fd`, the reads, the writes of the two loops, and whether
`lseek` fails. -/
structure Kernel where
  fdOri : Int
  fd : Int
  reads : List ReadAnswer
  writes : List WriteAnswer
  zeros : List WriteAnswer
  seeks : Bool

/-- `atenl_create_file`: the result, and the file that it leaves. -/
def createFile (k : Kernel) (flashMode : Bool) (eeprom : List UInt8) :
    Course (Int × Option (List UInt8)) :=
  if k.fdOri < 0 then .ended (-1, none)
  else if k.fd < 0 then .ended (k.fd, none)
  else
    let filled := (copyLoop eeprom [] 0 k.writes k.reads).bind fun (file, totalLen) =>
      zeroLoop (maxLen flashMode) file totalLen k.zeros
    match filled with
    | .cut => .cut
    | .failed => .ended (-1, none)
    | .ended file => .ended (if k.seeks then k.fd else -1, some file)

end Code

section Claims

/-- The driver's EEPROM, and zeros up to the reserved length at least. -/
def Whole (flashMode : Bool) (eeprom file : List UInt8) : Prop :=
  ∃ n, file = eeprom ++ List.replicate n 0 ∧ maxLen flashMode ≤ file.length

/-- A valid descriptor is of a whole file, and with a negative value no partial one is left. -/
structure Created (flashMode : Bool) (eeprom : List UInt8) (ret : Int)
    (left : Option (List UInt8)) : Prop where
  valid : 0 ≤ ret → ∃ file, left = some file ∧ Whole flashMode eeprom file
  negative : ret < 0 → ∀ file, left = some file → Whole flashMode eeprom file

/-- The writes of the copy, what each is given and what it writes, and how much is left unread. -/
def transfers (left : Nat) (writes : List WriteAnswer) :
    List ReadAnswer → Course (List (Nat × Nat) × Nat)
  | [] => .cut
  | .error :: _ => .ended ([], left)
  | .bytes more :: reads =>
      let len := readLen more left
      if len = 0 then .ended ([], left)
      else (retry len writes).bind fun (w, writes) =>
        (transfers (left - len) writes reads).bind fun (behind, left) =>
          .ended ((len, w) :: behind, left)

/-- How many zeros are written behind `totalLen` bytes -/
def reserved (maxLen totalLen : Nat) : List WriteAnswer → Course Nat
  | [] => if totalLen < maxLen then .cut else .ended 0
  | .bytes more :: writes =>
      if totalLen < maxLen then
        (reserved maxLen (totalLen + bufSize) writes).bind fun n =>
          .ended (min (more + 1) bufSize + n)
      else .ended 0
  | .nothing interrupted :: writes =>
      if totalLen < maxLen then
        if interrupted = true then reserved maxLen totalLen writes else .failed
      else .ended 0

/-- Where both loops come to their ends, the reads have come to the end of the driver's file, no write
of the copy was short, and the zeros reach the reserved length. -/
def Unshortened (k : Kernel) (flashMode : Bool) (size : Nat) : Prop :=
  0 ≤ k.fdOri → 0 ≤ k.fd →
    ∀ moved left zeros, transfers size k.writes k.reads = .ended (moved, left) →
      reserved (maxLen flashMode) (size - left) k.zeros = .ended zeros →
      left = 0 ∧ (∀ t ∈ moved, t.2 = t.1) ∧ maxLen flashMode ≤ size + zeros

end Claims

section Copy

/-- What the writes take of what is read -/
def taken {α : Type} (rest : List α) : List (Nat × Nat) → List α
  | [] => []
  | (len, w) :: behind => (rest.take len).take w ++ taken (rest.drop len) behind

def asked (moved : List (Nat × Nat)) : Nat := (moved.map Prod.fst).sum

def written (moved : List (Nat × Nat)) : Nat := (moved.map Prod.snd).sum

theorem retry_le {len w : Nat} {writes behind : List WriteAnswer}
    (ended : retry len writes = .ended (w, behind)) : w ≤ len := by
  induction writes with
  | nil => cases ended
  | cons answer writes ih =>
    cases answer with
    | bytes more =>
      cases ended
      exact Nat.min_le_right _ _
    | nothing interrupted =>
      cases interrupted with
      | false => cases ended
      | true => exact ih ended

theorem Course.bind_ended {α β : Type} {c : Course α} {f : α → Course β} {b : β}
    (ended : c.bind f = .ended b) : ∃ a, c = .ended a ∧ f a = .ended b := by
  cases c with
  | cut => cases ended
  | failed => cases ended
  | ended a => exact ⟨a, rfl, ended⟩

@[simp] theorem Course.bind_cut {α β : Type} (f : α → Course β) : Course.cut.bind f = .cut := rfl

@[simp] theorem Course.bind_failed {α β : Type} (f : α → Course β) :
    Course.failed.bind f = .failed := rfl

@[simp] theorem Course.bind_of_ended {α β : Type} (a : α) (f : α → Course β) :
    (Course.ended a).bind f = f a := rfl

theorem Course.bind_assoc {α β γ : Type} (c : Course α) (f : α → Course β) (g : β → Course γ) :
    (c.bind f).bind g = c.bind fun a => (f a).bind g := by
  cases c <;> rfl

/-- The copy in terms of its transfers. -/
theorem copyLoop_eq (reads : List ReadAnswer) (rest file : List UInt8) (totalLen : Nat)
    (writes : List WriteAnswer) :
    copyLoop rest file totalLen writes reads =
      (transfers rest.length writes reads).bind fun (moved, _) =>
        .ended (file ++ taken rest moved, totalLen + asked moved) := by
  induction reads generalizing rest file totalLen writes with
  | nil => rfl
  | cons answer reads ih =>
    cases answer with
    | error => simp [copyLoop, transfers, taken, asked]
    | bytes more =>
      unfold copyLoop transfers
      by_cases ends : readLen more rest.length = 0
      · simp [ends, taken, asked]
      · simp only [if_neg ends]
        cases retry (readLen more rest.length) writes with
        | cut => rfl
        | failed => rfl
        | ended answered =>
          simp only [Course.bind_of_ended, ih, List.length_drop, Course.bind_assoc]
          congr 1
          funext ⟨moved, left⟩
          simp [taken, asked, Nat.add_assoc]

/-- The transfers of a copy: each within what is given, and all that is not left has been given. -/
theorem transfers_bounds (reads : List ReadAnswer) {size left : Nat} {writes : List WriteAnswer}
    {moved : List (Nat × Nat)} (ended : transfers size writes reads = .ended (moved, left)) :
    (∀ t ∈ moved, t.2 ≤ t.1) ∧ asked moved + left = size := by
  induction reads generalizing size writes moved with
  | nil => cases ended
  | cons answer reads ih =>
    cases answer with
    | error =>
      cases ended
      exact ⟨by simp, by simp [asked]⟩
    | bytes more =>
      unfold transfers at ended
      by_cases ends : readLen more size = 0
      · simp only [if_pos ends] at ended
        cases ended
        exact ⟨by simp, by simp [asked]⟩
      · simp only [if_neg ends] at ended
        obtain ⟨⟨w, writes'⟩, answered, ended⟩ := Course.bind_ended ended
        obtain ⟨⟨behind, left'⟩, after, ended⟩ := Course.bind_ended ended
        cases ended
        obtain ⟨within, total⟩ := ih after
        have given : readLen more size ≤ size := Nat.min_le_right _ _
        constructor
        · intro t member
          rcases List.mem_cons.mp member with rfl | member
          · exact retry_le answered
          · exact within t member
        · simp only [asked, List.map_cons, List.sum_cons] at total ⊢
          omega

/-- Full writes of all that there is take all. -/
theorem taken_full {α : Type} (moved : List (Nat × Nat)) (rest : List α)
    (full : ∀ t ∈ moved, t.2 = t.1) (all : asked moved = rest.length) : taken rest moved = rest := by
  induction moved generalizing rest with
  | nil =>
    simp only [asked, List.map_nil, List.sum_nil] at all
    exact (List.length_eq_zero_iff.mp all.symm).symm
  | cons t moved ih =>
    obtain ⟨len, w⟩ := t
    have same : w = len := full (len, w) (by simp)
    simp only [asked, List.map_cons, List.sum_cons] at all
    rw [taken, ih (rest.drop len) (fun t member => full t (by simp [member]))
      (by simp [asked]; omega), same, List.take_take, Nat.min_self, List.take_append_drop]

/-- Of bytes that are all alike as many are taken as are written. -/
theorem taken_replicate {α : Type} (a : α) (moved : List (Nat × Nat)) (size : Nat)
    (within : ∀ t ∈ moved, t.2 ≤ t.1) (enough : asked moved ≤ size) :
    taken (List.replicate size a) moved = List.replicate (written moved) a := by
  induction moved generalizing size with
  | nil => rfl
  | cons t moved ih =>
    obtain ⟨len, w⟩ := t
    have short : w ≤ len := within (len, w) (by simp)
    simp only [asked, List.map_cons, List.sum_cons] at enough
    rw [taken, List.drop_replicate, ih _ (fun t member => within t (by simp [member]))
      (by simp only [asked]; omega), List.take_replicate, List.take_replicate,
      List.replicate_append_replicate]
    congr 1
    simp only [written, List.map_cons, List.sum_cons]
    omega

theorem written_le (moved : List (Nat × Nat)) (within : ∀ t ∈ moved, t.2 ≤ t.1) :
    written moved ≤ asked moved := List.sum_le_sum within

/-- As much is written as is given only when each write is full. -/
theorem full_of_written (moved : List (Nat × Nat)) (within : ∀ t ∈ moved, t.2 ≤ t.1)
    (all : asked moved ≤ written moved) : ∀ t ∈ moved, t.2 = t.1 := by
  induction moved with
  | nil => simp
  | cons t moved ih =>
    have here := within t (by simp)
    have behind := written_le moved fun t member => within t (by simp [member])
    simp only [asked, written, List.map_cons, List.sum_cons] at all behind
    intro t' member
    rcases List.mem_cons.mp member with rfl | member
    · omega
    · exact ih (fun t member => within t (by simp [member]))
        (by simp only [asked, written]; omega) t' member

theorem zeroLoop_eq (maxLen : Nat) (writes : List WriteAnswer) (file : List UInt8)
    (totalLen : Nat) :
    zeroLoop maxLen file totalLen writes =
      (reserved maxLen totalLen writes).bind fun n => .ended (file ++ List.replicate n 0) := by
  induction writes generalizing file totalLen with
  | nil =>
    unfold zeroLoop reserved
    split_ifs <;> simp
  | cons answer writes ih =>
    cases answer with
    | bytes more =>
      unfold zeroLoop reserved
      split_ifs
      · simp only [ih, Course.bind_assoc, Course.bind_of_ended, List.append_assoc,
          List.replicate_append_replicate]
      · simp
    | nothing interrupted =>
      unfold zeroLoop reserved
      split_ifs
      · exact ih file totalLen
      · simp
      · simp

end Copy

section Whole

variable (k : Kernel) (flashMode : Bool)

/-- Both loops in terms of the transfers and of the zeros. -/
theorem createFile_eq (eeprom : List UInt8) (source : 0 ≤ k.fdOri) (target : 0 ≤ k.fd) :
    createFile k flashMode eeprom =
      match (transfers eeprom.length k.writes k.reads).bind fun (moved, _) =>
        (reserved (maxLen flashMode) (asked moved) k.zeros).bind fun zeros =>
          .ended (taken eeprom moved ++ List.replicate zeros 0) with
      | .cut => .cut
      | .failed => .ended (-1, none)
      | .ended file => .ended (if k.seeks then k.fd else -1, some file) := by
  unfold createFile
  rw [if_neg (by omega), if_neg (by omega), copyLoop_eq, Course.bind_assoc]
  simp only [Course.bind_of_ended, zeroLoop_eq, List.nil_append, Nat.zero_add]

/-- A file is left when both loops come to their ends. -/
theorem createFile_left {eeprom file : List UInt8} {ret : Int}
    (ended : createFile k flashMode eeprom = .ended (ret, some file)) :
    0 ≤ k.fdOri ∧ 0 ≤ k.fd ∧ ∃ moved left zeros,
      transfers eeprom.length k.writes k.reads = .ended (moved, left) ∧
      reserved (maxLen flashMode) (asked moved) k.zeros = .ended zeros ∧
      file = taken eeprom moved ++ List.replicate zeros 0 := by
  by_cases source : k.fdOri < 0
  · simp [createFile, source] at ended
  by_cases target : k.fd < 0
  · simp [createFile, source, target] at ended
  rw [createFile_eq k flashMode eeprom (by omega) (by omega)] at ended
  refine ⟨by omega, by omega, ?_⟩
  cases copied : transfers eeprom.length k.writes k.reads with
  | cut => simp [copied] at ended
  | failed => simp [copied] at ended
  | ended t =>
    obtain ⟨moved, left⟩ := t
    cases filled : reserved (maxLen flashMode) (asked moved) k.zeros with
    | cut => simp [copied, filled] at ended
    | failed => simp [copied, filled] at ended
    | ended zeros =>
      simp only [copied, filled, Course.bind_of_ended, Course.ended.injEq, Prod.mk.injEq,
        Option.some.injEq] at ended
      exact ⟨moved, left, zeros, rfl, filled, ended.2.symm⟩

/-- A valid descriptor comes with a file. -/
theorem createFile_valid {eeprom : List UInt8} {ret : Int} {left : Option (List UInt8)}
    (ended : createFile k flashMode eeprom = .ended (ret, left)) (valid : 0 ≤ ret) :
    ∃ file, left = some file := by
  cases left with
  | some file => exact ⟨file, rfl⟩
  | none =>
    exfalso
    by_cases source : k.fdOri < 0
    · simp only [createFile, if_pos source] at ended
      cases ended
      omega
    by_cases target : k.fd < 0
    · simp only [createFile, if_neg source, if_pos target] at ended
      cases ended
      omega
    rw [createFile_eq k flashMode eeprom (by omega) (by omega)] at ended
    split at ended
    · cases ended
    · cases ended
      omega
    · cases ended

/-- Bytes other than zero show how many of them are in a whole file. -/
theorem Whole.size {size w zeros : Nat}
    (whole : Whole flashMode (List.replicate size 1)
      (List.replicate w 1 ++ List.replicate zeros 0)) :
    w = size ∧ maxLen flashMode ≤ w + zeros := by
  obtain ⟨n, same, long⟩ := whole
  have ones := congrArg (List.count 1) same
  simp [List.count_replicate] at ones
  exact ⟨ones, by simpa using long⟩

/-- The EEPROM file is right for all contents of a size exactly when no transfer was shortened. -/
theorem created_iff (size : Nat) :
    (∀ eeprom, eeprom.length = size → ∀ ret left,
      createFile k flashMode eeprom = .ended (ret, left) → Created flashMode eeprom ret left) ↔
      Unshortened k flashMode size := by
  constructor
  · intro created source target moved left zeros copied filled
    obtain ⟨within, total⟩ := transfers_bounds _ copied
    rw [show size - left = asked moved by omega] at filled
    have ended := createFile_eq k flashMode (List.replicate size 1) source target
    rw [List.length_replicate, copied, Course.bind_of_ended] at ended
    dsimp only at ended
    rw [filled, Course.bind_of_ended, taken_replicate 1 moved size within (by omega)] at ended
    have right := created _ (List.length_replicate) _ _ ended
    have whole : Whole flashMode (List.replicate size 1)
        (List.replicate (written moved) 1 ++ List.replicate zeros 0) := by
      by_cases valid : 0 ≤ (if k.seeks then k.fd else -1)
      · obtain ⟨file, same, whole⟩ := right.valid valid
        rw [Option.some.inj same]
        exact whole
      · exact right.negative (by omega) _ rfl
    obtain ⟨all, long⟩ := Whole.size flashMode whole
    have less := written_le moved within
    refine ⟨by omega, full_of_written moved within (by omega), by omega⟩
  · intro unshortened eeprom length ret left ended
    have whole : ∀ file, left = some file → Whole flashMode eeprom file := by
      rintro file rfl
      obtain ⟨source, target, moved, left, zeros, copied, filled, rfl⟩ :=
        createFile_left k flashMode ended
      obtain ⟨within, total⟩ := transfers_bounds _ copied
      rw [length] at copied total
      rw [show asked moved = size - left by omega] at filled
      obtain ⟨read, full, long⟩ := unshortened source target moved left zeros copied filled
      have same : taken eeprom moved = eeprom := taken_full moved eeprom full (by omega)
      refine ⟨zeros, by rw [same], ?_⟩
      rw [same, List.length_append, List.length_replicate, length]
      exact long
    constructor
    · intro valid
      obtain ⟨file, same⟩ := createFile_valid k flashMode ended valid
      exact ⟨file, same, whole file same⟩
    · intro _ file same
      exact whole file same

/-- A write of the copy and those of the zeros are short: of two bytes one is in the file. -/
theorem short_writes_shift :
    let k : Kernel := ⟨3, 4, [.bytes 1, .bytes 0], [.bytes 0], List.replicate 8 (.bytes 0), true⟩
    let file : List UInt8 := [7, 0, 0, 0, 0, 0, 0, 0, 0]
    createFile k false [7, 9] = .ended (4, some file) ∧
      ¬ Created false [7, 9] 4 (some file) := by
  have ended : createFile ⟨3, 4, [.bytes 1, .bytes 0], [.bytes 0], List.replicate 8 (.bytes 0), true⟩
      false [7, 9] = .ended (4, some [7, 0, 0, 0, 0, 0, 0, 0, 0]) := by decide
  refine ⟨ended, ?_⟩
  intro created
  obtain ⟨file, same, n, shape, -⟩ := created.valid (by decide)
  rw [← Option.some.inj same] at shape
  have second := congrArg (fun file : List UInt8 => file[1]?) shape
  revert second
  simp

end Whole

end Filogic.Atenl.EepromFile
