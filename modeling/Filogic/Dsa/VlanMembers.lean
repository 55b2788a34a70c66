import Filogic.Dsa.VlanTable

/-! The entries of the VLAN table against the additions and deletions that made them. -/

namespace Filogic.Dsa
open Lib

/-- For each VID the user ports that were added to it, with the untagged flag of the last addition,
and whether a command for it has failed. -/
structure VlanLog where
  members : Nat → PortNum → Option Bool
  failed : Nat → Bool

/-- Both commands of an update are done. -/
def succeeds (vid : Nat) (replies : Reply × Reply) : Bool :=
  decide (vid ≤ 0xfff) && decide (replies = (.done, .done))

def VlanLog.note (log : VlanLog) (vid : Nat) (port : PortNum) (mode : Option Bool)
    (replies : Reply × Reply) : VlanLog where
  members := if port = cpuPort then log.members
    else Function.update log.members vid (Function.update (log.members vid) port mode)
  failed := Function.update log.failed vid (log.failed vid || !succeeds vid replies)

def watchAddVid (port : PortNum) (untagged : Bool) (replies : Nat → Reply × Reply)
    (w : VlanSwitch × VlanLog) (vid : Nat) : VlanSwitch × VlanLog :=
  (addVid port untagged replies w.1 vid, w.2.note vid port (some untagged) (replies vid))

def watchDelVid (port : PortNum) (replies : Nat → Reply × Reply)
    (w : VlanSwitch × VlanLog) (vid : Nat) : VlanSwitch × VlanLog :=
  (delVid port replies w.1 vid, w.2.note vid port none (replies vid))

def watchVlanStep (w : VlanSwitch × VlanLog) (event : VlanEvent) : VlanSwitch × VlanLog :=
  match event with
  | .add port range untagged _ replies =>
      (vlanStep w.1 event, (range.vids.foldl (watchAddVid port untagged replies) w).2)
  | .del port range replies =>
      (vlanStep w.1 event, (range.vids.foldl (watchDelVid port replies) w).2)

/-- Some user port is a member. -/
def HasMember (members : PortNum → Option Bool) : Prop :=
  ∃ p, p ≠ cpuPort ∧ (members p).isSome = true

/-- An entry is what the members make it: valid when there are any, listing them and the CPU port,
each with its mode. -/
structure EntryRight (word : BitVec 32) (members : PortNum → Option Bool) : Prop where
  valid : word.getLsbD 0 = true ↔ HasMember members
  ports : ∀ q, lists word q = true ↔
    HasMember members ∧ (q = cpuPort ∨ (members q).isSome = true)
  tags : ∀ q, q ≠ cpuPort → ∀ untagged, members q = some untagged →
    etag word q = egressMode untagged
  cpuTag : HasMember members → etag word cpuPort = 3#2

/-- The commands of the VID have all succeeded, and it is not the VLAN of the unused ports. -/
def Counts (unused : PortNum → Bool) (w : VlanSwitch × VlanLog) (vid : Nat) : Prop :=
  w.2.failed vid = false ∧ (vid = reservedVlan → ∀ p, unused p = false)

/-- Every entry that counts is right. -/
def TableRight (unused : PortNum → Bool) (w : VlanSwitch × VlanLog) : Prop :=
  ∀ vid, Counts unused w vid → EntryRight (w.1.table vid).1 (w.2.members vid)

/-- An addition names a user port, or a VLAN that has one. -/
def AddClean (port : PortNum) (w : VlanSwitch × VlanLog) (vid : Nat) : Prop :=
  port = cpuPort → HasMember (w.2.members vid)

/-- A word that is no entry. -/
def Blank (word : BitVec 32) : Prop :=
  word.getLsbD 0 = false ∧ ∀ q, lists word q = false

/-- A deletion takes the last user port from a VLAN; or the VLAN has none, and no entry is left in
the staging register from the command before. -/
def DelClean (port : PortNum) (w : VlanSwitch × VlanLog) (vid : Nat) : Prop :=
  (∀ q, q ≠ cpuPort → q ≠ port → w.2.members vid q = none) ∧
    (¬HasMember (w.2.members vid) → Blank w.1.vawd0)

/-- Every round of the event's loop is clean, unless a command for its VID fails. -/
def CleanEvent (unused : PortNum → Bool) (w : VlanSwitch × VlanLog) : VlanEvent → Prop
  | .add port range untagged _ replies =>
      Along (watchAddVid port untagged replies)
        (fun w vid => Counts unused w vid → succeeds vid (replies vid) → AddClean port w vid)
        w range.vids
  | .del port range replies =>
      Along (watchDelVid port replies)
        (fun w vid => Counts unused w vid → succeeds vid (replies vid) → DelClean port w vid)
        w range.vids

section Rounds

variable {s : VlanSwitch} {vid other : Nat} {port : PortNum} {untagged : Bool}
  {replies : Nat → Reply × Reply}

@[simp] theorem vlanCmdRead_table (reply : Reply) : (vlanCmdRead vid reply s).table = s.table := by
  unfold vlanCmdRead
  split_ifs <;> rfl

@[simp] theorem vlanCmdRead_vawd0 (reply : Reply) : (vlanCmdRead vid reply s).vawd0 = s.vawd0 := by
  unfold vlanCmdRead
  split_ifs <;> rfl

@[simp] theorem hwVlanAdd_table (entry : HwVlanEntry) : (hwVlanAdd entry s).table = s.table := rfl

@[simp] theorem hwVlanDel_table (entry : HwVlanEntry) : (hwVlanDel entry s).table = s.table := by
  simp only [hwVlanDel]
  split_ifs <;> rfl

theorem vlanCmdWrite_other (apart : other ≠ vid) (reply : Reply) :
    (vlanCmdWrite vid reply s).table other = s.table other := by
  unfold vlanCmdWrite
  split_ifs <;> simp [apart]

/-- An update reaches no entry but that of its VID, however its commands end. -/
theorem addVid_other (apart : other ≠ vid) :
    (addVid port untagged replies s vid).table other = s.table other := by
  unfold addVid hwVlanUpdate
  simp only [vlanCmdWrite_other apart, hwVlanAdd_table, vlanCmdRead_table]

theorem delVid_other (apart : other ≠ vid) :
    (delVid port replies s vid).table other = s.table other := by
  unfold delVid hwVlanUpdate
  simp only [vlanCmdWrite_other apart, hwVlanDel_table, vlanCmdRead_table]

theorem succeeds_iff (reply : Reply × Reply) :
    succeeds vid reply = true ↔ vid ≤ 0xfff ∧ reply = (.done, .done) := by
  simp [succeeds]

theorem read_done (inside : vid ≤ 0xfff) :
    vlanCmdRead vid .done s = { s with vard0 := (s.table vid).1 } := by
  have bound : ¬vid > 0xfff := by omega
  simp [vlanCmdRead, bound, Reply.carries]

theorem write_done (inside : vid ≤ 0xfff) :
    (vlanCmdWrite vid .done s).table vid = (s.vawd0, s.vawd1) := by
  have bound : ¬vid > 0xfff := by omega
  simp [vlanCmdWrite, bound, Reply.carries]

theorem addVid_entry (done : succeeds vid (replies vid) = true) :
    ((addVid port untagged replies s vid).table vid).1 =
      addWord (s.table vid).1 (oldMembers (s.table vid).1) port untagged := by
  obtain ⟨inside, both⟩ := (succeeds_iff _).mp done
  simp only [addVid, hwVlanUpdate, both]
  rw [read_done inside, write_done inside]
  rfl

theorem delVid_entry (done : succeeds vid (replies vid) = true) :
    ((delVid port replies s vid).table vid).1 =
      let word := (s.table vid).1
      let left := membersWithout (oldMembers word) port
      if word.getLsbD 0 = false then s.vawd0
      else if left ≠ 0 ∧ left ≠ (bit cpuPort).setWidth 8 then keepWord left
      else 0 := by
  obtain ⟨inside, both⟩ := (succeeds_iff _).mp done
  simp only [delVid, hwVlanUpdate, both]
  rw [read_done inside, write_done inside]
  simp only [hwVlanDel]
  split_ifs <;> rfl

end Rounds

section Entries

variable {word : BitVec 32} {members : PortNum → Option Bool} {port : PortNum}

/-- What the log has for the members after an addition or a deletion. -/
def noted (members : PortNum → Option Bool) (port : PortNum) (mode : Option Bool) :
    PortNum → Option Bool :=
  if port = cpuPort then members else Function.update members port mode

theorem hasMember_of {q : PortNum} (user : q ≠ cpuPort) (member : (members q).isSome = true) :
    HasMember members :=
  ⟨q, user, member⟩

theorem entryRight_blank (blank : Blank word) (none : ¬HasMember members) :
    EntryRight word members where
  valid := by rw [blank.1]; simp [none]
  ports := by simp [blank.2, none]
  tags := by
    intro q user untagged member
    exact absurd (hasMember_of user (by simp [member])) none
  cpuTag := fun has => absurd has none

theorem oldMembers_lists (q : PortNum) : (oldMembers word).getLsbD q.val = lists word q := by
  simp [lists, portMemShft, q.isLt]

theorem entryRight_add (right : EntryRight word members) (untagged : Bool)
    (clean : port = cpuPort → HasMember members) :
    EntryRight (addWord word (oldMembers word) port untagged)
      (noted members port (some untagged)) := by
  have has : HasMember (noted members port (some untagged)) := by
    unfold noted
    split_ifs with isCpu
    · exact clean isCpu
    · exact hasMember_of isCpu (by simp)
  constructor
  · rw [addWord_valid]
    simp [has]
  · intro q
    have before := right.ports q
    rw [addWord_lists, oldMembers_lists, and_iff_right has]
    by_cases isCpu : port = cpuPort
    · simp only [noted, isCpu, if_true, clean isCpu, true_and] at before ⊢
      grind
    · by_cases here : q = port
      · simp [here, noted, isCpu]
      · have lone := @hasMember_of members q
        simp only [noted, if_neg isCpu, Function.update_of_ne here]
        grind
  · intro q user mode member
    rw [addWord_etag, if_neg user]
    unfold noted at member
    by_cases here : q = port
    · subst here
      rw [if_neg user, Function.update_self] at member
      rw [if_pos rfl, Option.some.inj member]
    · rw [if_neg here]
      apply right.tags q user
      split_ifs at member
      · exact member
      · rwa [Function.update_of_ne here] at member
  · intro _
    rw [addWord_etag, if_pos rfl]

/-- The masks that a deletion compares with tell whether a user port is left. -/
theorem membersWithout_none (right : EntryRight word members)
    (last : ∀ q, q ≠ cpuPort → q ≠ port → members q = none) :
    ¬(membersWithout (oldMembers word) port ≠ 0 ∧
      membersWithout (oldMembers word) port ≠ (bit cpuPort).setWidth 8) := by
  have low : ∀ q : PortNum, q ≠ cpuPort →
      (membersWithout (oldMembers word) port).getLsbD q.val = false := by
    intro q user
    rw [membersWithout_getLsbD, oldMembers_lists]
    by_cases here : q = port
    · simp [here]
    · have out := last q user here
      have listed := right.ports q
      simp only [out, user, Option.isSome_none, Bool.false_eq_true, or_false, and_false,
        iff_false, Bool.not_eq_true] at listed
      rw [listed, Bool.false_and]
  have high : ∀ i, 6 ≤ i → (membersWithout (oldMembers word) port).getLsbD i = false := by
    intro i above
    simp [membersWithout, show ¬i < 6 by omega]
  rintro ⟨notZero, notCpu⟩
  by_cases cpu : (membersWithout (oldMembers word) port).getLsbD cpuPort.val = true
  · apply notCpu
    apply BitVec.eq_of_getLsbD_eq
    intro i inside
    by_cases isCpu : i = cpuPort.val
    · rw [isCpu, cpu]
      decide
    · rw [BitVec.getLsbD_setWidth, bit_getLsbD, decide_eq_false isCpu, Bool.and_false]
      by_cases above : 6 ≤ i
      · exact high i above
      · exact low ⟨i, by omega⟩ (fun same => isCpu (congrArg Fin.val same))
  · apply notZero
    apply BitVec.eq_of_getLsbD_eq
    intro i inside
    change _ = (0#8).getLsbD i
    rw [BitVec.getLsbD_zero]
    by_cases above : 6 ≤ i
    · exact high i above
    · by_cases isCpu : i = cpuPort.val
      · rw [isCpu]
        exact Bool.eq_false_of_not_eq_true cpu
      · exact low ⟨i, by omega⟩ (fun same => isCpu (congrArg Fin.val same))

theorem entryRight_del (right : EntryRight word members) (staged : BitVec 32)
    (last : ∀ q, q ≠ cpuPort → q ≠ port → members q = none)
    (blank : ¬HasMember members → Blank staged) :
    EntryRight
      (if word.getLsbD 0 = false then staged
      else if membersWithout (oldMembers word) port ≠ 0 ∧
          membersWithout (oldMembers word) port ≠ (bit cpuPort).setWidth 8 then
        keepWord (membersWithout (oldMembers word) port)
      else 0) (noted members port none) := by
  have none : ¬HasMember (noted members port none) := by
    intro ⟨q, user, member⟩
    unfold noted at member
    split_ifs at member with isCpu
    · rw [last q user (isCpu ▸ user)] at member
      exact absurd member (by decide)
    · by_cases here : q = port
      · simp [here] at member
      · rw [Function.update_of_ne here, last q user here] at member
        exact absurd member (by decide)
  split_ifs with invalid left
  · have was : ¬HasMember members := by
      intro has
      rw [right.valid.mpr has] at invalid
      exact absurd invalid (by decide)
    exact entryRight_blank (blank was) none
  · exact absurd left (membersWithout_none right last)
  · exact entryRight_blank ⟨by decide, by decide⟩ none

theorem addClean_of_right {word' : BitVec 32} {untagged : Bool}
    (after : EntryRight (addWord word' (oldMembers word') port untagged)
      (noted members port (some untagged))) (isCpu : port = cpuPort) : HasMember members := by
  have has := after.valid.mp (addWord_valid _ _ _ _)
  rwa [noted, if_pos isCpu] at has

/-- A deletion that leaves a user port takes the CPU port's stack mode away, and one from a VLAN
without an entry writes what was staged before. -/
theorem delClean_of_right {staged : BitVec 32} (right : EntryRight word members)
    (after : EntryRight
      (if word.getLsbD 0 = false then staged
      else if membersWithout (oldMembers word) port ≠ 0 ∧
          membersWithout (oldMembers word) port ≠ (bit cpuPort).setWidth 8 then
        keepWord (membersWithout (oldMembers word) port)
      else 0) (noted members port none)) :
    (∀ q, q ≠ cpuPort → q ≠ port → members q = none) ∧ (¬HasMember members → Blank staged) := by
  apply And.intro
  · intro q user other
    by_contra member
    have isMember : (members q).isSome = true := Option.isSome_iff_ne_none.mpr member
    have stays : HasMember (noted members port none) := by
      apply hasMember_of user
      unfold noted
      split_ifs
      · exact isMember
      · rwa [Function.update_of_ne other]
    have valid := right.valid.mpr (hasMember_of user isMember)
    have left : (membersWithout (oldMembers word) port).getLsbD q.val = true := by
      rw [membersWithout_getLsbD, oldMembers_lists]
      simp [(right.ports q).mpr ⟨hasMember_of user isMember, .inr isMember⟩, other]
    have some : membersWithout (oldMembers word) port ≠ 0 ∧
        membersWithout (oldMembers word) port ≠ (bit cpuPort).setWidth 8 := by
      apply And.intro
      · intro zero
        rw [zero] at left
        simp at left
      · intro cpu
        rw [cpu, BitVec.getLsbD_setWidth, bit_getLsbD] at left
        simp only [Bool.and_eq_true, decide_eq_true_eq] at left
        exact user (Fin.ext left.2)
    rw [if_neg (by rw [valid]; decide), if_pos some] at after
    have stack := after.cpuTag stays
    rw [keepWord_etag] at stack
    exact absurd stack (by decide)
  · intro none
    have noMember : ¬HasMember (noted members port Option.none) := by
      intro ⟨q, user, member⟩
      unfold noted at member
      split_ifs at member with isCpu
      · exact none (hasMember_of user member)
      · by_cases here : q = port
        · simp [here] at member
        · rw [Function.update_of_ne here] at member
          exact none (hasMember_of user member)
    have invalid : word.getLsbD 0 = false :=
      Bool.eq_false_of_not_eq_true (fun valid => none (right.valid.mp valid))
    rw [if_pos invalid] at after
    apply And.intro
    · exact Bool.eq_false_of_not_eq_true (fun valid => noMember (after.valid.mp valid))
    · intro q
      exact Bool.eq_false_of_not_eq_true (fun listed => noMember ((after.ports q).mp listed).1)

end Entries

section Log

variable (log : VlanLog) (vid : Nat) (port : PortNum) (mode : Option Bool)
  (replies : Reply × Reply)

theorem note_members : (log.note vid port mode replies).members vid =
    noted (log.members vid) port mode := by
  unfold VlanLog.note noted
  split_ifs <;> simp

theorem note_members_other {other : Nat} (apart : other ≠ vid) :
    (log.note vid port mode replies).members other = log.members other := by
  unfold VlanLog.note
  split_ifs <;> simp [apart]

theorem note_failed : (log.note vid port mode replies).failed vid =
    (log.failed vid || !succeeds vid replies) := by
  simp [VlanLog.note]

theorem note_failed_other {other : Nat} (apart : other ≠ vid) :
    (log.note vid port mode replies).failed other = log.failed other := by
  simp [VlanLog.note, apart]

end Log

section Runs

variable {unused : PortNum → Bool} {w : VlanSwitch × VlanLog}

/-- A round for one VID: the switch and the log change at no other VID. -/
def OnlyAt (round : VlanSwitch × VlanLog → Nat → VlanSwitch × VlanLog) : Prop :=
  ∀ w vid other, other ≠ vid → (round w vid).1.table other = w.1.table other ∧
    (round w vid).2.members other = w.2.members other ∧
    (round w vid).2.failed other = w.2.failed other

/-- A guard that is exactly what keeps a round from making its own entry wrong. -/
def ExactAt (unused : PortNum → Bool) (round : VlanSwitch × VlanLog → Nat → VlanSwitch × VlanLog)
    (guard : VlanSwitch × VlanLog → Nat → Prop) : Prop :=
  ∀ w vid, TableRight unused w → (guard w vid ↔ (Counts unused (round w vid) vid →
    EntryRight ((round w vid).1.table vid).1 ((round w vid).2.members vid)))

variable {round : VlanSwitch × VlanLog → Nat → VlanSwitch × VlanLog}
  {guard : VlanSwitch × VlanLog → Nat → Prop}

theorem tableRight_round (only : OnlyAt round) (exact : ExactAt unused round guard) (vid : Nat)
    (right : TableRight unused w) (clean : guard w vid) : TableRight unused (round w vid) := by
  intro other counts
  by_cases here : other = vid
  · subst here
    exact (exact w other right).mp clean counts
  · obtain ⟨table, members, failed⟩ := only w vid other here
    rw [table, members]
    exact right other ⟨failed ▸ counts.1, counts.2⟩

theorem rounds_other (only : OnlyAt round) (vids : List Nat) {vid : Nat} (out : vid ∉ vids) :
    (vids.foldl round w).1.table vid = w.1.table vid ∧
      (vids.foldl round w).2.members vid = w.2.members vid ∧
      (vids.foldl round w).2.failed vid = w.2.failed vid := by
  induction vids generalizing w with
  | nil => exact ⟨rfl, rfl, rfl⟩
  | cons first rest ih =>
    have apart := List.ne_of_not_mem_cons out
    obtain ⟨table, members, failed⟩ := only w first vid apart
    rw [← table, ← members, ← failed]
    exact ih (List.not_mem_of_not_mem_cons out)

/-- The rounds of an event have different VIDs, so that an entry made wrong stays wrong. -/
theorem rounds_iff (only : OnlyAt round) (exact : ExactAt unused round guard) (vids : List Nat)
    (nodup : vids.Nodup) (right : TableRight unused w) :
    Along round guard w vids ↔ TableRight unused (vids.foldl round w) := by
  induction vids generalizing w with
  | nil => exact ⟨fun _ => right, fun _ => trivial⟩
  | cons vid rest ih =>
    obtain ⟨fresh, distinct⟩ := List.nodup_cons.mp nodup
    constructor
    · intro ⟨first, later⟩
      exact (ih distinct (tableRight_round only exact vid right first)).mp later
    · intro after
      have first : guard w vid := by
        rw [exact w vid right]
        intro counts
        obtain ⟨table, members, failed⟩ := @rounds_other (round w vid) round only rest vid fresh
        rw [← table, ← members]
        exact after vid ⟨failed ▸ counts.1, counts.2⟩
      exact ⟨first, (ih distinct (tableRight_round only exact vid right first)).mpr after⟩

variable (port : PortNum) (untagged : Bool) (replies : Nat → Reply × Reply)

theorem onlyAt_addVid : OnlyAt (watchAddVid port untagged replies) := by
  intro w vid other apart
  exact ⟨addVid_other apart, note_members_other _ _ _ _ _ apart, note_failed_other _ _ _ _ _ apart⟩

theorem onlyAt_delVid : OnlyAt (watchDelVid port replies) := by
  intro w vid other apart
  exact ⟨delVid_other apart, note_members_other _ _ _ _ _ apart, note_failed_other _ _ _ _ _ apart⟩

theorem counts_note {port : PortNum} {vid : Nat} {s : VlanSwitch} {mode : Option Bool} {reply : Reply × Reply} :
    Counts unused (s, w.2.note vid port mode reply) vid ↔
      Counts unused w vid ∧ succeeds vid reply = true := by
  unfold Counts
  rw [note_failed, Bool.or_eq_false_iff, Bool.not_eq_false']
  tauto

theorem exactAt_addVid : ExactAt unused (watchAddVid port untagged replies)
    (fun w vid => Counts unused w vid → succeeds vid (replies vid) → AddClean port w vid) := by
  intro w vid right
  have entry := fun done => @addVid_entry w.1 vid port untagged replies done
  constructor
  · intro clean counts
    obtain ⟨before, done⟩ := counts_note.mp counts
    rw [watchAddVid, entry done, note_members]
    exact entryRight_add (right vid before) untagged (clean before done)
  · intro after before done
    have added := after (counts_note.mpr ⟨before, done⟩)
    rw [watchAddVid, entry done, note_members] at added
    exact fun isCpu => addClean_of_right added isCpu

theorem exactAt_delVid : ExactAt unused (watchDelVid port replies)
    (fun w vid => Counts unused w vid → succeeds vid (replies vid) → DelClean port w vid) := by
  intro w vid right
  have entry := fun done => @delVid_entry w.1 vid port replies done
  constructor
  · intro clean counts
    obtain ⟨before, done⟩ := counts_note.mp counts
    obtain ⟨last, blank⟩ := clean before done
    rw [watchDelVid, entry done, note_members]
    exact entryRight_del (right vid before) w.1.vawd0 last blank
  · intro after before done
    have deleted := after (counts_note.mpr ⟨before, done⟩)
    rw [watchDelVid, entry done, note_members] at deleted
    exact delClean_of_right (right vid before) deleted

theorem foldl_fst {α β ε : Type*} (f : α → ε → α) (g : α × β → ε → α × β)
    (same : ∀ w e, (g w e).1 = f w.1 e) (events : List ε) (w : α × β) :
    (events.foldl g w).1 = events.foldl f w.1 := by
  induction events generalizing w with
  | nil => rfl
  | cons event rest ih => rw [List.foldl_cons, List.foldl_cons, ih, same]

theorem vids_nodup (range : VidRange) : range.vids.Nodup := List.nodup_range'

/-- An event is clean exactly when it leaves the table right. -/
theorem cleanEvent_iff (event : VlanEvent) (right : TableRight unused w) :
    CleanEvent unused w event ↔ TableRight unused (watchVlanStep w event) := by
  cases event with
  | add port range untagged pvid replies =>
    have rounds := rounds_iff (onlyAt_addVid port untagged replies)
      (exactAt_addVid port untagged replies) range.vids (vids_nodup range) right
    have same := foldl_fst (addVid port untagged replies) (watchAddVid port untagged replies)
      (fun _ _ => rfl) range.vids w
    have table : (watchVlanStep w (.add port range untagged pvid replies)).1.table =
        (range.vids.foldl (watchAddVid port untagged replies) w).1.table := by
      rw [same]
      simp only [watchVlanStep, vlanStep, portVlanAdd]
      split_ifs <;> rfl
    refine rounds.trans (forall_congr' fun vid => ?_)
    rw [table]
    rfl
  | del port range replies =>
    have rounds := rounds_iff (onlyAt_delVid port replies) (exactAt_delVid port replies)
      range.vids (vids_nodup range) right
    have same := foldl_fst (delVid port replies) (watchDelVid port replies)
      (fun _ _ => rfl) range.vids w
    have table : (watchVlanStep w (.del port range replies)).1.table =
        (range.vids.foldl (watchDelVid port replies) w).1.table := by
      rw [same]
      rfl
    refine rounds.trans (forall_congr' fun vid => ?_)
    rw [table]
    rfl

/-- Nothing has been added, and no command has failed. -/
def emptyLog : VlanLog where
  members := fun _ _ => none
  failed := fun _ => false

theorem unusedPm_none (none : ∀ p, unused p = false) : unusedPm unused = 0 := by
  simp [unusedPm, none]

theorem tableRight_setup (fresh : FreshSwitch) (unused : PortNum → Bool) (reply : Reply) :
    TableRight unused (vlanAtSetup fresh unused reply, emptyLog) := by
  intro vid ⟨_, reserved⟩
  have none : ¬HasMember (emptyLog.members vid) := by
    intro ⟨_, _, member⟩
    exact Bool.false_ne_true member
  have blank : Blank 0 := ⟨by decide, by decide⟩
  have entry : ((vlanAtSetup fresh unused reply).table vid).1 = 0 := by
    rw [← fresh.empty vid]
    unfold vlanAtSetup setupUnusedPorts
    by_cases here : vid = reservedVlan
    · simp [unusedPm_none (reserved here)]
    · dsimp only
      split_ifs
      · rfl
      · rw [vlanCmdWrite_other here]
  dsimp only
  rw [entry]
  exact entryRight_blank blank none

theorem watchVlanStep_fst (w : VlanSwitch × VlanLog) (event : VlanEvent) :
    (watchVlanStep w event).1 = vlanStep w.1 event := by
  cases event <;> rfl

/-- The VIDs that an event is about. -/
def VlanEvent.vids : VlanEvent → List Nat
  | .add _ range _ _ _ => range.vids
  | .del _ range _ => range.vids

/-- An event changes no entry of another VID, whatever its commands do. -/
theorem vlanStep_other (s : VlanSwitch) (event : VlanEvent) {vid : Nat}
    (out : vid ∉ event.vids) : (vlanStep s event).table vid = s.table vid := by
  cases event with
  | add port range untagged pvid replies =>
    have kept := (@rounds_other (s, emptyLog) _ (onlyAt_addVid port untagged replies) _ vid out).1
    rw [foldl_fst (addVid port untagged replies) _ (fun _ _ => rfl)] at kept
    simp only [vlanStep, portVlanAdd]
    split_ifs <;> exact kept
  | del port range replies =>
    have kept := (@rounds_other (s, emptyLog) _ (onlyAt_delVid port replies) _ vid out).1
    rwa [foldl_fst (delVid port replies) _ (fun _ _ => rfl)] at kept

/-- The table is right in every state of a run, and each event changes only the entries of its VIDs,
exactly when the additions and deletions are clean. -/
theorem vlan_table_iff (fresh : FreshSwitch) (unused : PortNum → Bool) (reply : Reply)
    (events : List VlanEvent) :
    (∀ early late, events = early ++ late →
      let start := vlanAtSetup fresh unused reply
      let s := run vlanStep start early
      TableRight unused (s, (run watchVlanStep (start, emptyLog) early).2) ∧
        ∀ event rest, late = event :: rest → ∀ vid, vid ∉ event.vids →
          (vlanStep s event).table vid = s.table vid) ↔
      Along watchVlanStep (CleanEvent unused) (vlanAtSetup fresh unused reply, emptyLog) events := by
  have exact := along_iff_prefixes watchVlanStep (CleanEvent unused) (TableRight unused)
    (fun _ event right => cleanEvent_iff event right) _ events
    (tableRight_setup fresh unused reply)
  have same := fun early => foldl_fst vlanStep watchVlanStep watchVlanStep_fst early
    (vlanAtSetup fresh unused reply, emptyLog)
  rw [exact]
  constructor
  · intro all early late split
    have right := (all early late split).1
    have first : run vlanStep (vlanAtSetup fresh unused reply) early =
        (run watchVlanStep (vlanAtSetup fresh unused reply, emptyLog) early).1 := (same early).symm
    rwa [first] at right
  · intro all early late split
    have right := all early late split
    apply And.intro
    · have first : run vlanStep (vlanAtSetup fresh unused reply) early =
          (run watchVlanStep (vlanAtSetup fresh unused reply, emptyLog) early).1 := (same early).symm
      rwa [first]
    · intro event rest _ vid out
      exact vlanStep_other _ event out

end Runs

/-- All registers are zero. -/
def zeroSwitch : FreshSwitch where
  switch := ⟨0, 0, 0, fun _ => (0, 0), fun _ => 0, fun _ => 0⟩
  empty := fun _ => rfl

def oneVid (vid : Nat) (bound : vid < 0xffff) : VidRange := ⟨vid, vid, bound⟩

theorem ten_bounded : 10 < 0xffff := by decide

theorem twenty_bounded : 20 < 0xffff := by decide

/-- A port is added to VLAN 10, and one is deleted from VLAN 20, which nobody was added to. -/
def addThenDelete : List VlanEvent :=
  [.add lan0 (oneVid 10 ten_bounded) false false (fun _ => (.done, .done)),
    .del lan1 (oneVid 20 twenty_bounded) (fun _ => (.done, .done))]

theorem stale_entry_written :
    ¬∀ (fresh : FreshSwitch) (unused : PortNum → Bool) (reply : Reply)
      (events early late : List VlanEvent), events = early ++ late →
        TableRight unused (run watchVlanStep (vlanAtSetup fresh unused reply, emptyLog) early) := by
  intro always
  have right := always zeroSwitch (fun _ => false) .done addThenDelete addThenDelete []
    (List.append_nil _).symm 20 ⟨by decide, fun _ _ => rfl⟩
  have valid : ((run watchVlanStep (vlanAtSetup zeroSwitch (fun _ => false) .done, emptyLog)
      addThenDelete).1.table 20).1.getLsbD 0 = true := by decide
  obtain ⟨q, _, member⟩ := right.valid.mp valid
  have none : ∀ q, ((run watchVlanStep (vlanAtSetup zeroSwitch (fun _ => false) .done, emptyLog)
      addThenDelete).2.members 20 q).isSome = false := by decide
  rw [none q] at member
  exact Bool.false_ne_true member

end Filogic.Dsa
