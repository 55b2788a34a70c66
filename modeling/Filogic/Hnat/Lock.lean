import Filogic.Hnat.Hook
import Filogic.Lib.Runs

/-! The lock of a flow entry on its way to Wi-Fi offload: who may write the entry between the
post-routing hook that locks it and the transmit hook that binds or releases it. -/

namespace Filogic.Hnat
open Lib

/-- The flow table, and the entries that a post-routing hook locked and no transmit hook
has bound or released since. -/
structure Locking where
  tables : FoeTables
  held : Nat → Nat → Bool

variable {hnat : HnatPriv}

/-- The step sets the lock of an entry on behalf of a packet for a Wi-Fi device. -/
def locksEntry (hnat : HnatPriv) (t : FoeTables) (event : HookEvent) (ppe index : Nat) : Bool :=
  match event with
  | .postRouting .. =>
    !isHnatEntryLocked (t.foe ppe index) && isHnatEntryLocked ((hookStep hnat t event).foe ppe index)
  | _ => false

/-- The event is the transmit hook of a packet with this entry. -/
def transmitsEntry (hnat : HnatPriv) (event : HookEvent) (ppe index : Nat) : Bool :=
  match event with
  | .hookTx skb _ => transmits hnat skb ∧ skbHnatPpe hnat skb = ppe ∧ skb.entry = index
  | _ => false

namespace Locking

/-- At first no entry is held, whatever the table. -/
def start (tables : FoeTables) : Locking := { tables := tables, held := fun _ _ => false }

def step (hnat : HnatPriv) (m : Locking) (event : HookEvent) : Locking where
  tables := hookStep hnat m.tables event
  held := fun ppe index =>
    if locksEntry hnat m.tables event ppe index then true
    else if transmitsEntry hnat event ppe index then false
    else m.held ppe index

end Locking

/-- What the next step does to the held entries: the transmit hook of the entry binds it or
releases it, every other step leaves it as it is. -/
def LockKept (hnat : HnatPriv) (m : Locking) (event : HookEvent) : Prop :=
  ∀ ppe index, m.held ppe index = true →
    let entry := m.tables.foe ppe index
    let next := (hookStep hnat m.tables event).foe ppe index
    if transmitsEntry hnat event ppe index then
      next.bfib1.state = .bind ∨ next = hnatSetEntryLock entry false
    else next = entry

/-- No bound entry has its lock bit set. -/
def BoundUnlocked (t : FoeTables) : Prop :=
  ∀ ppe index, (t.foe ppe index).bfib1.state = .bind →
    isHnatEntryLocked (t.foe ppe index) = false

/-- A hook that gives an entry another packet type does not come to a held entry; in a bound
entry the byte that the new type takes for `act_dp` has the lock bit clear. -/
def RewriteFree (hnat : HnatPriv) (m : Locking) (skb : Skb) (hook : Rewrite) : Prop :=
  let entry := entryOf hnat m.tables skb
  ∀ next ∈ hook hnat skb entry,
    m.held (skbHnatPpe hnat skb) skb.entry = false ∧
      (entry.bfib1.state = .bind →
        entry.union (actDpOffset next.bfib1.pktType) &&& udfHnatEntryLocked = 0)

/-- No hook that ignores the lock comes to a held entry: no 464XLAT entry is written there, no
packet for a device other than Wi-Fi is bound there, no keepalive packet refreshes it, and no
hook changes its packet type. -/
def LockHeeded (hnat : HnatPriv) (m : Locking) : HookEvent → Prop
  | .preRouting _ | .hookTx _ _ => True
  | .postRouting skb out fn =>
    let held := m.held (skbHnatPpe hnat skb) skb.entry
    let entry := entryOf hnat m.tables skb
    match if hnat.xlatToggle then xlatPostProcess hnat m.tables skb else none with
    | some (ppe, hash, _) => m.held ppe hash = false
    | none =>
      postRoutes hnat skb out = true →
        match skb.crsn with
        | .hitUnbindRateReach =>
          learns skb fn entry = true → (buildEntry hnat skb out entry).isSome = true →
            isWhnat hnat out = false → held = false
        | .hitBindKeepaliveDupOldHdr =>
          (fn = true → skb.accelType = true) →
            ((staleDscp skb entry).isSome = true ∨ stampsMcast hnat entry = true) → held = false
        | _ => True
  | .ipv6LocalOut skb => RewriteFree hnat m skb ipv6NfLocalOut
  | .ipv4LocalOut skb => RewriteFree hnat m skb ipv4NfLocalOut
  | .pingPong skb dev => RewriteFree hnat m skb (extToGe2 dev)

/-- Every way in which a hook writes an entry, with the checks that it made. -/
inductive Writes (hnat : HnatPriv) (t : FoeTables) : HookEvent → Nat → Nat → FoeEntry → Prop where
  | xlat {skb out fn ppe hash entry}
      (found : (if hnat.xlatToggle then xlatPostProcess hnat t skb else none) =
        some (ppe, hash, entry)) :
      Writes hnat t (.postRouting skb out fn) ppe hash entry
  | bind {skb out fn entry}
      (noXlat : (if hnat.xlatToggle then xlatPostProcess hnat t skb else none) = none)
      (routed : postRoutes hnat skb out = true) (reason : skb.crsn = .hitUnbindRateReach)
      (learned : learns skb fn (entryOf hnat t skb) = true)
      (built : buildEntry hnat skb out (entryOf hnat t skb) = some entry)
      (wired : isWhnat hnat out = false) :
      Writes hnat t (.postRouting skb out fn) (skbHnatPpe hnat skb) skb.entry
        { entry with bfib1 := { entry.bfib1 with ttl := true, state := .bind } }
  | lock {skb out fn entry}
      (built : buildEntry hnat skb out (entryOf hnat t skb) = some entry)
      (unlocked : isHnatEntryLocked (entryOf hnat t skb) = false) :
      Writes hnat t (.postRouting skb out fn) (skbHnatPpe hnat skb) skb.entry
        (hnatSetEntryLock entry true)
  | keepalive {skb out fn}
      (noXlat : (if hnat.xlatToggle then xlatPostProcess hnat t skb else none) = none)
      (routed : postRoutes hnat skb out = true) (reason : skb.crsn = .hitBindKeepaliveDupOldHdr)
      (accel : fn = true → skb.accelType = true)
      (touched : (staleDscp skb (entryOf hnat t skb)).isSome = true ∨
        stampsMcast hnat (entryOf hnat t skb) = true) :
      Writes hnat t (.postRouting skb out fn) (skbHnatPpe hnat skb) skb.entry
        (mcastStamp hnat skb (hnatDscpUpdate skb (entryOf hnat t skb)))
  | ipv6LocalOut {skb entry} (next : ipv6NfLocalOut hnat skb (entryOf hnat t skb) = some entry) :
      Writes hnat t (.ipv6LocalOut skb) (skbHnatPpe hnat skb) skb.entry entry
  | ipv4LocalOut {skb entry} (next : ipv4NfLocalOut hnat skb (entryOf hnat t skb) = some entry) :
      Writes hnat t (.ipv4LocalOut skb) (skbHnatPpe hnat skb) skb.entry entry
  | pingPong {skb dev entry} (next : extToGe2 dev hnat skb (entryOf hnat t skb) = some entry) :
      Writes hnat t (.pingPong skb dev) (skbHnatPpe hnat skb) skb.entry entry
  | hookTx {skb gmacNo} (hashed : transmits hnat skb = true) :
      Writes hnat t (.hookTx skb gmacNo) (skbHnatPpe hnat skb) skb.entry
        (hookTxEntry hnat skb gmacNo (entryOf hnat t skb))

@[simp] theorem FoeTables.write_same (t : FoeTables) (ppe index : Nat) (entry : FoeEntry) :
    (t.write ppe index entry).foe ppe index = entry := by
  simp [FoeTables.write]

theorem FoeTables.write_other (t : FoeTables) {ppe index ppe' index' : Nat} (entry : FoeEntry)
    (other : ¬(ppe' = ppe ∧ index' = index)) :
    (t.write ppe index entry).foe ppe' index' = t.foe ppe' index' := by
  by_cases same : ppe' = ppe
  · subst same
    have apart : index' ≠ index := fun h => other ⟨rfl, h⟩
    simp [FoeTables.write, apart]
  · simp [FoeTables.write, same]

theorem FoeTables.write_entryOf (t : FoeTables) (skb : Skb) :
    (writeEntryOf hnat t skb (entryOf hnat t skb)).foe = t.foe := by
  unfold writeEntryOf entryOf FoeTables.write
  simp

/-- A step changes one entry at most. -/
theorem hookStep_writes (t : FoeTables) (event : HookEvent) :
    (hookStep hnat t event).foe = t.foe ∨
      ∃ ppe index entry, Writes hnat t event ppe index entry ∧
        (hookStep hnat t event).foe = (t.write ppe index entry).foe := by
  have rewritten : ∀ skb hook, (rewriteEntry hnat skb hook t).foe = t.foe ∨
      ∃ entry, hook hnat skb (entryOf hnat t skb) = some entry ∧
        (rewriteEntry hnat skb hook t).foe = (writeEntryOf hnat t skb entry).foe := by
    intro skb hook
    unfold rewriteEntry
    cases next : hook hnat skb (entryOf hnat t skb) with
    | none => exact .inl rfl
    | some entry => exact .inr ⟨entry, rfl, rfl⟩
  cases event with
  | preRouting skb =>
    left
    simp only [hookStep, xlatPreProcess]
    split_ifs <;> rfl
  | postRouting skb out fn =>
    simp only [hookStep, nfPostRouting]
    cases xlat : (if hnat.xlatToggle then xlatPostProcess hnat t skb else none) with
    | some found => exact .inr ⟨_, _, _, .xlat xlat, rfl⟩
    | none =>
      by_cases routed : postRoutes hnat skb out = true
      swap
      · simp [routed]
      simp only [routed, if_true]
      cases reason : skb.crsn with
      | hitUnbindRateReach =>
        by_cases learned : learns skb fn (entryOf hnat t skb) = true
        swap
        · simp [learned]
        simp only [learned, if_true, skbToHnatInfo]
        cases built : buildEntry hnat skb out (entryOf hnat t skb) with
        | none => exact .inl (FoeTables.write_entryOf t skb)
        | some entry =>
          split_ifs with wifi locked bound bound
          · exact .inl (FoeTables.write_entryOf t skb)
          · exact .inl (FoeTables.write_entryOf t skb)
          · exact .inr ⟨_, _, _, .lock built (eq_false_of_ne_true locked), rfl⟩
          · exact .inl (FoeTables.write_entryOf t skb)
          · exact .inr ⟨_, _, _, .bind xlat routed reason learned built
              (eq_false_of_ne_true wifi), rfl⟩
      | hitBindKeepaliveDupOldHdr =>
        dsimp only
        split_ifs with skipped
        · exact .inl rfl
        · have accel : fn = true → skb.accelType = true := by simpa using skipped
          by_cases touched : (staleDscp skb (entryOf hnat t skb)).isSome = true ∨
              stampsMcast hnat (entryOf hnat t skb) = true
          · exact .inr ⟨_, _, _, .keepalive xlat routed reason accel touched, rfl⟩
          · obtain ⟨fresh, unstamped⟩ := not_or.mp touched
            left
            have current : hnatDscpUpdate skb (entryOf hnat t skb) = entryOf hnat t skb := by
              rw [hnatDscpUpdate, Option.not_isSome_iff_eq_none.mp fresh]
            rw [current, mcastStamp, if_neg unstamped]
            exact FoeTables.write_entryOf t skb
      | hitBindMulticastToCpu => exact .inl rfl
      | hitBindMulticastToGmacCpu => exact .inl rfl
      | other => exact .inl rfl
  | ipv6LocalOut skb =>
    rcases rewritten skb ipv6NfLocalOut with same | ⟨entry, next, written⟩
    · exact .inl same
    · exact .inr ⟨_, _, _, .ipv6LocalOut next, written⟩
  | ipv4LocalOut skb =>
    rcases rewritten skb ipv4NfLocalOut with same | ⟨entry, next, written⟩
    · exact .inl same
    · exact .inr ⟨_, _, _, .ipv4LocalOut next, written⟩
  | pingPong skb dev =>
    rcases rewritten skb (extToGe2 dev) with same | ⟨entry, next, written⟩
    · exact .inl same
    · exact .inr ⟨_, _, _, .pingPong next, written⟩
  | hookTx skb gmacNo =>
    simp only [hookStep, swNatHookTx]
    split_ifs with hashed
    · exact .inr ⟨_, _, _, .hookTx hashed, rfl⟩
    · exact .inl rfl

theorem actDpOffset_eq (pktType : FoeIpAct) :
    actDpOffset pktType = 43 ∨ actDpOffset pktType = 55 := by
  unfold actDpOffset
  split_ifs <;> simp

theorem pingpong_unlocked (ifindex : UInt8) :
    ifindex &&& udfPingpongIfidx &&& udfHnatEntryLocked = 0 := by
  rw [UInt8.and_assoc, show udfPingpongIfidx &&& udfHnatEntryLocked = 0 from rfl,
    UInt8.and_zero]

/-- The lock bit is read at the packet type, and nothing else of the first word counts. -/
theorem isHnatEntryLocked_congr {entry other : FoeEntry}
    (pktType : entry.bfib1.pktType = other.bfib1.pktType)
    (actDp : entry.union (actDpOffset other.bfib1.pktType) =
      other.union (actDpOffset other.bfib1.pktType)) :
    isHnatEntryLocked entry = isHnatEntryLocked other := by
  unfold isHnatEntryLocked FoeEntry.actDp
  rw [pktType, actDp]

theorem unlocked_of_actDp {entry : FoeEntry} (udf : UInt8)
    (clear : udf &&& udfHnatEntryLocked = 0) :
    isHnatEntryLocked (entry.setActDp udf) = false := by
  simp [isHnatEntryLocked, clear]

theorem newEntry_unlocked (dev : NetDev) (foe : FoeEntry) (fill : HeaderFill) :
    isHnatEntryLocked (newEntry hnat dev foe fill) = false := by
  apply unlocked_of_actDp
  unfold newActDp
  split_ifs
  · rfl
  · exact pingpong_unlocked dev.ifindex

theorem buildEntry_spec {skb : Skb} {dev : NetDev} {foe entry : FoeEntry}
    (built : buildEntry hnat skb dev foe = some entry) :
    foe.bfib1.state = .unbind ∧ entry.bfib1.state = .unbind ∧
      isHnatEntryLocked entry = false := by
  unfold buildEntry at built
  cases walk : skb.headers foe with
  | none => simp [walk] at built
  | some fill =>
    simp only [walk] at built
    split_ifs at built with multicast state
    simp only [Option.some.injEq] at built
    subst built
    exact ⟨not_not.mp state, rfl, newEntry_unlocked dev foe fill⟩

theorem xlatPostProcess_spec {t : FoeTables} {skb : Skb} {ppe hash : Nat} {entry : FoeEntry}
    (found : (if hnat.xlatToggle then xlatPostProcess hnat t skb else none) =
      some (ppe, hash, entry)) :
    entry.bfib1.state = .bind ∧ isHnatEntryLocked entry = false := by
  split_ifs at found
  unfold xlatPostProcess at found
  split at found <;> try contradiction
  split at found <;> try contradiction
  split_ifs at found
  dsimp only at found
  split at found <;> try contradiction
  simp only [Option.some.injEq, Prod.mk.injEq] at found
  obtain ⟨-, -, rfl⟩ := found
  exact ⟨rfl, unlocked_of_actDp 0 rfl⟩

theorem dscpUpdate_lock (skb : Skb) (entry : FoeEntry) :
    (hnatDscpUpdate skb entry).bfib1 = entry.bfib1 ∧
      isHnatEntryLocked (hnatDscpUpdate skb entry) = isHnatEntryLocked entry := by
  unfold hnatDscpUpdate
  cases staleDscp skb entry with
  | none => exact ⟨rfl, rfl⟩
  | some dscp =>
    have apart : actDpOffset entry.bfib1.pktType ≠ dscpOffset entry.bfib1.pktType := by
      unfold actDpOffset dscpOffset
      split_ifs <;> decide
    exact ⟨rfl, isHnatEntryLocked_congr rfl (Function.update_of_ne apart _ _)⟩

theorem mcastStamp_lock (skb : Skb) (entry : FoeEntry) :
    (mcastStamp hnat skb entry).bfib1 = entry.bfib1 ∧
      isHnatEntryLocked (mcastStamp hnat skb entry) = isHnatEntryLocked entry := by
  unfold mcastStamp
  split_ifs
  · refine ⟨rfl, isHnatEntryLocked_congr rfl (Bytes.splice_outside _ _ _ _ (.inr ?_))⟩
    rcases actDpOffset_eq entry.bfib1.pktType with offset | offset <;> simp [offset]
  · exact ⟨rfl, rfl⟩

/-- A hook that changes the packet type leaves the state, and the bytes at which the two lock
bits lie. -/
def KeepsLockBytes (hook : Rewrite) : Prop :=
  ∀ hnat skb entry next, hook hnat skb entry = some next →
    next.bfib1.state = entry.bfib1.state ∧
      ∀ pktType, next.union (actDpOffset pktType) = entry.union (actDpOffset pktType)

theorem recordInner_actDp (bytes : Bytes) (inner : InnerHdr) (dscp flow : Nat)
    (layout : (dscp = 59 ∧ flow = 84) ∨ (dscp = 23 ∧ flow = 24)) (pktType : FoeIpAct) :
    recordInner bytes inner dscp flow (actDpOffset pktType) = bytes (actDpOffset pktType) := by
  have size : (List.ofFn inner.flow).length = 12 := List.length_ofFn
  have offset := actDpOffset_eq pktType
  unfold recordInner
  rw [Bytes.splice_outside _ _ _ _ (by omega)]
  exact Function.update_of_ne (by omega) _ _

theorem ipv6NfLocalOut_keeps : KeepsLockBytes ipv6NfLocalOut := by
  intro hnat skb entry next rewritten
  unfold ipv6NfLocalOut at rewritten
  split_ifs at rewritten
  unfold tunnelOut at rewritten
  cases inner : skb.inner with
  | none =>
    simp only [inner] at rewritten
    split_ifs at rewritten
    simp only [Option.some.injEq] at rewritten
    subst rewritten
    exact ⟨rfl, fun _ => rfl⟩
  | some hdr =>
    simp only [inner] at rewritten
    split_ifs at rewritten
    all_goals
      simp only [Option.some.injEq] at rewritten
      subst rewritten
    · exact ⟨rfl, recordInner_actDp _ hdr 59 84 (.inl ⟨rfl, rfl⟩)⟩
    · exact ⟨rfl, recordInner_actDp _ hdr 23 24 (.inr ⟨rfl, rfl⟩)⟩
    · exact ⟨rfl, fun _ => rfl⟩

theorem ipv4NfLocalOut_keeps : KeepsLockBytes ipv4NfLocalOut := by
  intro hnat skb entry next rewritten
  unfold ipv4NfLocalOut at rewritten
  split_ifs at rewritten
  simp only [Option.some.injEq] at rewritten
  subst rewritten
  exact ⟨rfl, fun _ => rfl⟩

theorem extToGe2_keeps (dev : NetDev) : KeepsLockBytes (extToGe2 dev) := by
  intro hnat skb entry next rewritten
  unfold extToGe2 at rewritten
  split_ifs at rewritten
  simp only [Option.some.injEq] at rewritten
  subst rewritten
  exact ⟨rfl, fun _ => rfl⟩

/-- After the transmit hook the entry is not locked, whichever way it took. -/
theorem hookTxEntry_unlocked (skb : Skb) (gmacNo : Nat) (entry : FoeEntry) :
    isHnatEntryLocked (hookTxEntry hnat skb gmacNo entry) = false := by
  unfold hookTxEntry
  split_ifs with unlocked complete
  · exact unlocked
  · exact unlocked_after_unlock _
  · exact released_unlocked entry

theorem hookTxEntry_ends (skb : Skb) (gmacNo : Nat) {entry : FoeEntry}
    (locked : isHnatEntryLocked entry = true) :
    (hookTxEntry hnat skb gmacNo entry).bfib1.state = .bind ∨
      hookTxEntry hnat skb gmacNo entry = hnatSetEntryLock entry false := by
  unfold hookTxEntry
  rw [if_neg (by simp [locked])]
  split_ifs with complete
  · left
    simp [wifiEntry]
  · right
    simp [hnatCheckReleaseEntryLock, locked]

/-- A held entry is unbound and locked, and no bound entry is locked. -/
structure LockInv (m : Locking) : Prop where
  held : ∀ ppe index, m.held ppe index = true →
    (m.tables.foe ppe index).bfib1.state = .unbind ∧
      isHnatEntryLocked (m.tables.foe ppe index) = true
  bound : BoundUnlocked m.tables

variable {m : Locking} {event : HookEvent} {ppe index : Nat} {entry : FoeEntry}

/-- A held entry is written by its transmit hook only. -/
theorem Writes.kept (inv : LockInv m) (heeded : LockHeeded hnat m event)
    (writes : Writes hnat m.tables event ppe index entry) (held : m.held ppe index = true) :
    transmitsEntry hnat event ppe index = true ∧
      (entry.bfib1.state = .bind ∨
        entry = hnatSetEntryLock (m.tables.foe ppe index) false) := by
  obtain ⟨-, locked⟩ := inv.held ppe index held
  have free : ∀ {P : Prop}, m.held ppe index = false → P := fun no => by simp [no] at held
  cases writes with
  | xlat found =>
    simp only [LockHeeded, found] at heeded
    exact free heeded
  | bind noXlat routed reason learned built wired =>
    simp only [LockHeeded, noXlat, reason] at heeded
    exact free (heeded routed learned (by simp [built]) wired)
  | lock built unlocked =>
    have no := locked.symm.trans unlocked
    contradiction
  | keepalive noXlat routed reason accel touched =>
    simp only [LockHeeded, noXlat, reason] at heeded
    exact free (heeded routed accel touched)
  | ipv6LocalOut next => exact free (heeded _ next).1
  | ipv4LocalOut next => exact free (heeded _ next).1
  | pingPong next => exact free (heeded _ next).1
  | hookTx hashed => exact ⟨by simp [transmitsEntry, hashed], hookTxEntry_ends _ _ locked⟩

/-- A hook that changes the packet type of a bound entry leaves it unlocked. -/
theorem RewriteFree.bound {skb : Skb} {hook : Rewrite} {next : FoeEntry}
    (free : RewriteFree hnat m skb hook) (keeps : KeepsLockBytes hook)
    (rewritten : hook hnat skb (entryOf hnat m.tables skb) = some next)
    (bound : next.bfib1.state = .bind) : isHnatEntryLocked next = false := by
  obtain ⟨state, bytes⟩ := keeps hnat skb _ next rewritten
  have clear := (free next rewritten).2 (state.symm.trans bound)
  unfold isHnatEntryLocked FoeEntry.actDp
  rw [bytes, clear]
  rfl

theorem Writes.bound (inv : LockInv m) (heeded : LockHeeded hnat m event)
    (writes : Writes hnat m.tables event ppe index entry) (bound : entry.bfib1.state = .bind) :
    isHnatEntryLocked entry = false := by
  cases writes with
  | xlat found => exact (xlatPostProcess_spec found).2
  | bind noXlat routed reason learned built wired => exact (buildEntry_spec built).2.2
  | lock built unlocked =>
    rw [hnatSetEntryLock_bfib1, (buildEntry_spec built).2.1] at bound
    contradiction
  | keepalive noXlat routed reason accel touched =>
    rw [(mcastStamp_lock _ _).2, (dscpUpdate_lock _ _).2]
    rw [(mcastStamp_lock _ _).1, (dscpUpdate_lock _ _).1] at bound
    exact inv.bound _ _ bound
  | ipv6LocalOut next => exact heeded.bound ipv6NfLocalOut_keeps next bound
  | ipv4LocalOut next => exact heeded.bound ipv4NfLocalOut_keeps next bound
  | pingPong next => exact heeded.bound (extToGe2_keeps _) next bound
  | hookTx hashed => exact hookTxEntry_unlocked _ _ _

/-- The post-routing hook locks unbound entries only. -/
theorem Writes.locking {t : FoeTables} {skb : Skb} {out : NetDev} {fn : Bool}
    (writes : Writes hnat t (.postRouting skb out fn) ppe index entry)
    (before : isHnatEntryLocked (t.foe ppe index) = false)
    (after : isHnatEntryLocked entry = true) : entry.bfib1.state = .unbind := by
  cases writes with
  | xlat found =>
    have no := after.symm.trans (xlatPostProcess_spec found).2
    contradiction
  | bind noXlat routed reason learned built wired =>
    have no := after.symm.trans (buildEntry_spec built).2.2
    contradiction
  | lock built unlocked =>
    rw [hnatSetEntryLock_bfib1]
    exact (buildEntry_spec built).2.1
  | keepalive noXlat routed reason accel touched =>
    rw [(mcastStamp_lock _ _).2, (dscpUpdate_lock _ _).2] at after
    have no := before.symm.trans after
    contradiction

/-- What a step does to one entry: nothing, or one of the writes. -/
theorem hookStep_entry (t : FoeTables) (event : HookEvent) (ppe index : Nat) :
    (hookStep hnat t event).foe ppe index = t.foe ppe index ∨
      Writes hnat t event ppe index ((hookStep hnat t event).foe ppe index) := by
  rcases @hookStep_writes hnat t event with same | ⟨p, i, entry, writes, written⟩
  · left
    rw [same]
  · rw [written]
    by_cases here : ppe = p ∧ index = i
    · obtain ⟨rfl, rfl⟩ := here
      right
      rw [FoeTables.write_same]
      exact writes
    · left
      exact t.write_other entry here

/-- The transmit hook of an entry leaves it unlocked, so it leaves a held entry different. -/
theorem hookTx_written {t : FoeTables} (tx : transmitsEntry hnat event ppe index = true) :
    ∃ skb gmacNo, (hookStep hnat t event).foe ppe index =
      hookTxEntry hnat skb gmacNo (t.foe ppe index) := by
  cases event with
  | hookTx skb gmacNo =>
    simp only [transmitsEntry, decide_eq_true_eq] at tx
    obtain ⟨hashed, rfl, rfl⟩ := tx
    refine ⟨skb, gmacNo, ?_⟩
    simp [hookStep, swNatHookTx, hashed, writeEntryOf, entryOf]
  | preRouting | postRouting | ipv6LocalOut | ipv4LocalOut | pingPong =>
    simp [transmitsEntry] at tx

theorem LockInv.kept (inv : LockInv m) (heeded : LockHeeded hnat m event) :
    LockKept hnat m event := by
  intro ppe index held
  dsimp only
  split_ifs with tx
  · obtain ⟨skb, gmacNo, written⟩ := hookTx_written (t := m.tables) tx
    rw [written]
    exact hookTxEntry_ends skb gmacNo (inv.held ppe index held).2
  · rcases @hookStep_entry hnat m.tables event ppe index with same | writes
    · exact same
    · exact absurd (writes.kept inv heeded held).1 tx

theorem LockInv.step (inv : LockInv m) (heeded : LockHeeded hnat m event) :
    LockInv (m.step hnat event) := by
  constructor
  · intro ppe index held
    change (hookStep hnat m.tables event |>.foe ppe index).bfib1.state = _ ∧ _
    simp only [Locking.step] at held ⊢
    split_ifs at held with locks tx
    · -- The entry is locked by this step.
      cases event with
      | postRouting skb out fn =>
        simp only [locksEntry, Bool.and_eq_true, Bool.not_eq_true'] at locks
        rcases @hookStep_entry hnat m.tables (.postRouting skb out fn) ppe index with
          same | writes
        · rw [same, locks.1] at locks
          exact absurd locks.2 Bool.false_ne_true
        · exact ⟨writes.locking locks.1 locks.2, locks.2⟩
      | preRouting | hookTx | ipv6LocalOut | ipv4LocalOut | pingPong =>
        simp [locksEntry] at locks
    · have kept := inv.kept heeded ppe index held
      dsimp only at kept
      rw [if_neg tx] at kept
      rw [kept]
      exact inv.held ppe index held
  · intro ppe index bound
    rcases @hookStep_entry hnat m.tables event ppe index with same | writes
    · change (hookStep hnat m.tables event |>.foe ppe index).bfib1.state = _ at bound
      change isHnatEntryLocked (hookStep hnat m.tables event |>.foe ppe index) = _
      rw [same] at bound ⊢
      exact inv.bound ppe index bound
    · exact writes.bound inv heeded bound

theorem LockInv.start {tables : FoeTables} (bound : BoundUnlocked tables) :
    LockInv (Locking.start tables) where
  held := by simp [Locking.start]
  bound := bound

end Filogic.Hnat
