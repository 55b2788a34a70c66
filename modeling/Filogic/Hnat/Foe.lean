import Filogic.Lib.Bytes

/-! `hnat.h`: an entry of the PPE's flow table, and the lock bit that the driver keeps in it. -/

namespace Filogic.Hnat
open Lib

/-- `enum FoeEntryState` -/
inductive FoeEntryState where
  | invalid | unbind | bind | fin
  deriving DecidableEq, Repr

/-- `enum FoeIpAct`, the packet type of an entry; `unused` is a code without a name. -/
inductive FoeIpAct where
  | ipv4Hnapt | ipv4Hnat | ipv4Dslite | ipv6ThreeTRoute | ipv6FiveTRoute | ipv6SixRd
  | ipv4MapT | ipv4MapE | ipv6Hnapt | ipv6Hnat
  | unused (code : Nat)
  deriving DecidableEq, Repr

/-- The first word of an entry, `bfib1` and `udib1` in one: the fields that the hooks write. -/
structure InfoBlk1 where
  pktType : FoeIpAct
  state : FoeEntryState
  timeStamp : Nat
  sp : Nat
  vlanLayer : Nat
  psn : Bool
  vpm : Bool
  cah : Bool
  rmt : Bool
  ttl : Bool
  udp : Bool
  sta : Bool
  deriving DecidableEq, Repr

/-- `struct foe_entry`: the first word, and the union behind it by byte offset. -/
structure FoeEntry where
  bfib1 : InfoBlk1
  union : Bytes

/-- `IS_IPV4_GRP` -/
def isIpv4Grp (pktType : FoeIpAct) : Bool :=
  pktType = .ipv4Hnapt ∨ pktType = .ipv4Hnat

/-- Where `act_dp` lies: the last byte of word 10 in `struct hnat_ipv4_hnapt`, of word 13 in
every other layout of the union. -/
def actDpOffset (pktType : FoeIpAct) : Nat :=
  if isIpv4Grp pktType then 43 else 55

/-- `UDF_HNAT_ENTRY_LOCKED` -/
def udfHnatEntryLocked : UInt8 := 0x80

/-- `UDF_PINGPONG_IFIDX` -/
def udfPingpongIfidx : UInt8 := 0x7f

namespace FoeEntry

def actDp (entry : FoeEntry) : UInt8 := entry.union (actDpOffset entry.bfib1.pktType)

def setActDp (entry : FoeEntry) (udf : UInt8) : FoeEntry :=
  { entry with union := Function.update entry.union (actDpOffset entry.bfib1.pktType) udf }

end FoeEntry

/-- `is_hnat_entry_locked` -/
def isHnatEntryLocked (entry : FoeEntry) : Bool :=
  entry.actDp &&& udfHnatEntryLocked ≠ 0

/-- `hnat_set_entry_lock` -/
def hnatSetEntryLock (entry : FoeEntry) (locked : Bool) : FoeEntry :=
  if locked then entry.setActDp (entry.actDp ||| udfHnatEntryLocked)
  else entry.setActDp (entry.actDp &&& ~~~udfHnatEntryLocked)

/-- `hnat_check_release_entry_lock` -/
def hnatCheckReleaseEntryLock (entry : FoeEntry) : FoeEntry :=
  if isHnatEntryLocked entry then hnatSetEntryLock entry false else entry

@[simp] theorem setActDp_bfib1 (entry : FoeEntry) (udf : UInt8) :
    (entry.setActDp udf).bfib1 = entry.bfib1 := rfl

@[simp] theorem actDp_setActDp (entry : FoeEntry) (udf : UInt8) :
    (entry.setActDp udf).actDp = udf := by
  unfold FoeEntry.actDp
  exact Function.update_self _ _ _

@[simp] theorem hnatSetEntryLock_bfib1 (entry : FoeEntry) (locked : Bool) :
    (hnatSetEntryLock entry locked).bfib1 = entry.bfib1 := by
  cases locked <;> rfl

theorem unlocked_after_unlock (entry : FoeEntry) :
    isHnatEntryLocked (hnatSetEntryLock entry false) = false := by
  have cleared : entry.actDp &&& ~~~udfHnatEntryLocked &&& udfHnatEntryLocked = 0 := by
    rw [UInt8.and_assoc, show ~~~udfHnatEntryLocked &&& udfHnatEntryLocked = 0 from rfl,
      UInt8.and_zero]
  simp [isHnatEntryLocked, hnatSetEntryLock, cleared]

theorem released_unlocked (entry : FoeEntry) :
    isHnatEntryLocked (hnatCheckReleaseEntryLock entry) = false := by
  unfold hnatCheckReleaseEntryLock
  split_ifs with locked
  · exact unlocked_after_unlock entry
  · exact eq_false_of_ne_true locked

end Filogic.Hnat
