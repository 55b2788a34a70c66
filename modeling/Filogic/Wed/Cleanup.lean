import Filogic.Wed.Attach

/-! How the set-up of `mtk_wed_attach` may go, stage by stage, and what `__mtk_wed_detach` gives back of
what a stage leaves. -/

namespace Filogic.Wed.Attach
open Lib

section Owning

/-- What the fields of a device own: the TX buffers, and the ring for RRO. -/
def txGoods (dev : Dev) : Multiset Good :=
  match dev.txPages with
  | none => 0
  | some k => {.txList} + if dev.txDesc then {.txDesc} + pageGoods .txPage .txMap k else 0

def ringGoods (dev : Dev) : Multiset Good := if dev.rroRing then {.rroRing} else 0

/-- What the pointer to the AMSDU pages owns, and that to the WO object. -/
def amsduGoods (p : Ptr) : Multiset Good :=
  if p = .live then pageGoods .amsduPage .amsduMap amsduNpages else 0

def woPart (p : Ptr) : Multiset Good := if p = .live then Hw.woGoods else 0

/-- A WED with this device, which holds what its pointers own. -/
def owning (dev : Dev) (amsdu wo : Ptr) : Hw :=
  ⟨dev.version, some dev, wo, amsdu,
    ⟨amsduGoods amsdu + (txGoods dev + (ringGoods dev + woPart wo)), false⟩, false⟩

/-- A free WED that holds nothing, with the pointers that are left. -/
def idle (version : Nat) (amsdu wo : Ptr) : Hw := ⟨version, none, wo, amsdu, .empty, false⟩

variable {dev : Dev} {amsdu wo : Ptr}

theorem owning_eq {hw : Hw} (version : hw.version = dev.version) (attached : hw.wedDev = some dev)
    (object : hw.wedWo = wo) (pages : hw.wedAmsdu = amsdu)
    (held : hw.held.held = amsduGoods amsdu + (txGoods dev + (ringGoods dev + woPart wo)))
    (sound : hw.held.fault = false) (used : hw.misused = false) : hw = owning dev amsdu wo := by
  obtain ⟨_, _, _, _, ⟨_, _⟩, _⟩ := hw
  dsimp only at version attached object pages held sound used
  subst version attached object pages held sound used
  rfl

theorem pageGoods_succ (page map : Nat → Good) (k : Nat) :
    pageGoods page map (k + 1) = map k ::ₘ page k ::ₘ pageGoods page map k := by
  rw [pageGoods, Multiset.range_succ, Multiset.map_cons, Multiset.map_cons, Multiset.cons_add,
    Multiset.add_cons, Multiset.cons_swap]
  rfl

end Owning

section Detach

variable {dev : Dev} {amsdu wo : Ptr} (hw : Hw)

theorem giveAll_giveAll (goods more : Multiset Good) :
    (hw.giveAll goods).giveAll more = hw.giveAll (goods + more) := by
  simp only [Hw.giveAll, Ledger.giveAll_add]

theorem give_eq (g : Good) : hw.give g = hw.giveAll {g} := by
  simp only [Hw.give, Hw.giveAll, Ledger.giveBack_eq]

/-- The TX buffers of a device are given back as they are held. -/
theorem freeTxBuffer_eq (dev : Dev) :
    hw.freeTxBuffer dev = hw.giveAll (txGoods dev) := by
  unfold Hw.freeTxBuffer txGoods
  cases dev.txPages with
  | none => simp [Hw.giveAll]
  | some k =>
    dsimp only
    split_ifs with desc
    · rw [give_eq, give_eq, giveAll_giveAll, giveAll_giveAll]
      congr 1
      abel
    · rw [give_eq, add_zero]

theorem freeRxRings_eq (dev : Dev) :
    hw.freeRxRings dev = hw.giveAll (ringGoods dev) := by
  unfold Hw.freeRxRings ringGoods
  split_ifs
  · exact give_eq hw _
  · simp [Hw.giveAll]

/-- The pages of AMSDU are given back, unless the pointer to them is left of others. -/
theorem amsduFreeBuffer_eq (pages : hw.wedAmsdu ≠ .freed) :
    hw.amsduFreeBuffer =
      { hw.giveAll (amsduGoods hw.wedAmsdu) with wedAmsdu := hw.wedAmsdu.dangle } := by
  obtain ⟨version, wedDev, wo, amsdu, held, misused⟩ := hw
  unfold Hw.amsduFreeBuffer amsduGoods
  cases amsdu with
  | null => simp [Ptr.dangle, Hw.giveAll]
  | live => rfl
  | freed => exact absurd rfl pages

/-- All is given back by a WED with its own pages and, if it has to do with RX, its own WO object. -/
theorem detach_owning (pages : amsdu ≠ .freed) (own : dev.rxCapa = true → wo ≠ .freed)
    (other : dev.rxCapa = false → wo ≠ .live) (ring : dev.rroRing = true → dev.rxCapa = true) :
    (owning dev amsdu wo).detach =
      idle dev.version amsdu.dangle (if dev.rxCapa then wo.dangle else wo) := by
  have buffers : (owning dev amsdu wo).amsduFreeBuffer.freeTxBuffer dev =
      ⟨dev.version, some dev, wo, amsdu.dangle, ⟨ringGoods dev + woPart wo, false⟩, false⟩ := by
    rw [amsduFreeBuffer_eq _ pages, freeTxBuffer_eq]
    simp only [Hw.giveAll, owning, Ledger.giveAll_first]
  rw [Hw.detach, show (owning dev amsdu wo).wedDev = some dev from rfl]
  dsimp only
  rw [buffers]
  by_cases rx : dev.rxCapa = true
  · rw [if_pos rx, if_pos rx, freeRxRings_eq]
    cases wo with
    | null =>
      simp only [ne_eq, not_true_eq_false, if_false, Hw.giveAll, Ledger.giveAll_first, woPart,
        reduceCtorEq, Ptr.dangle]
      rfl
    | live =>
      simp only [ne_eq, reduceCtorEq, not_false_eq_true, if_true, Hw.useWo, Hw.giveAll, Hw.woExit,
        Ledger.giveAll_first, woPart, Ptr.dangle]
      have last := Ledger.giveAll_first Hw.woGoods 0
      rw [add_zero] at last
      rw [last]
      rfl
    | freed => exact absurd rfl (own rx)
  · rw [if_neg rx, if_neg rx]
    have without : ringGoods dev = 0 := if_neg fun has => rx (ring has)
    have object : woPart wo = 0 := if_neg (other (by simpa using rx))
    rw [without, object]
    rfl

/-- Whatever a WED holds, the detach leaves its pointers as they were, if not dangling. -/
theorem detach_pointers (has : hw.wedDev = some dev) :
    hw.detach.wedAmsdu = hw.wedAmsdu.dangle ∧ (hw.detach.wedWo = .null → hw.wedWo = .null) := by
  have buffers : (hw.amsduFreeBuffer.freeTxBuffer dev).wedAmsdu = hw.wedAmsdu.dangle ∧
      (hw.amsduFreeBuffer.freeTxBuffer dev).wedWo = hw.wedWo := by
    rw [freeTxBuffer_eq]
    simp only [Hw.giveAll, Hw.amsduFreeBuffer]
    split_ifs with none
    · simp [none, Ptr.dangle]
    · exact ⟨rfl, rfl⟩
  rw [Hw.detach, has]
  dsimp only
  generalize hw.amsduFreeBuffer.freeTxBuffer dev = hw' at buffers
  obtain ⟨pages, object⟩ := buffers
  rw [← pages, ← object]
  by_cases rx : dev.rxCapa = true
  · rw [if_pos rx]
    simp only [freeRxRings_eq]
    cases kind : hw'.wedWo with
    | null => simp [Hw.giveAll, kind]
    | live => simp [Hw.giveAll, Hw.useWo, Hw.woExit, kind]
    | freed => simp [Hw.giveAll, Hw.useWo, Hw.woExit, Hw.give, kind]
  · rw [if_neg rx]
    exact ⟨rfl, id⟩

/-- Pages of AMSDU that no pointer has stay. -/
theorem detach_amsduPage (has : hw.wedDev = some dev) (pages : hw.wedAmsdu = .null)
    (object : hw.wedWo = .null) {i : Nat} (held : .amsduPage i ∈ hw.held.held) :
    .amsduPage i ∈ hw.detach.held.held := by
  have stays (goods : Multiset Good) (hw : Hw) (held : .amsduPage i ∈ hw.held.held)
      (other : .amsduPage i ∉ goods) : .amsduPage i ∈ (hw.giveAll goods).held.held := by
    change _ ∈ hw.held.held - goods
    rw [← Multiset.count_pos, Multiset.count_sub, Multiset.count_eq_zero_of_notMem other]
    exact Multiset.count_pos.mpr held
  have tx : .amsduPage i ∉ txGoods dev := by
    unfold txGoods
    cases dev.txPages with
    | none => simp
    | some k =>
      dsimp only
      split_ifs <;> simp [pageGoods]
  have ring : .amsduPage i ∉ ringGoods dev := by
    unfold ringGoods
    split_ifs <;> simp
  have free : hw.amsduFreeBuffer = hw := if_pos pages
  rw [Hw.detach, has]
  dsimp only
  rw [free, freeTxBuffer_eq]
  by_cases rx : dev.rxCapa = true
  · have without (goods : Multiset Good) : ¬(hw.giveAll goods).wedWo ≠ .null := not_not.mpr object
    rw [if_pos rx, if_neg (without _), freeRxRings_eq, giveAll_giveAll, if_neg (without _)]
    exact stays _ hw held (by simp [tx, ring])
  · rw [if_neg rx]
    exact stays _ hw held tx

end Detach

section Stages

variable (ans : Answers) (dev : Dev) (amsdu wo : Ptr)

/-- One of the TX buffers, their list or their descriptors fail. -/
def TxFails : Prop :=
  ans.txList = false ∨ ans.txDesc = false ∨
    ∃ i < dev.pages, ans.txPage i = false ∨ ans.txMap i = false

/-- The pages of AMSDU fail, at once or behind a page that is there. -/
def AmsduFirst : Prop := ans.amsduList = false ∨ ans.amsduPage 0 = false

def AmsduFails : Prop :=
  ans.amsduList = false ∨ ∃ i < amsduNpages, ans.amsduPage i = false ∨ ans.amsduMap i = false

def RroFails : Prop :=
  ans.rroNode = false ∨ ans.rroAddress ≠ 0 ∨ ans.rroRing = false

def QueueFails (i : Nat) : Prop :=
  ans.queueRegs i = false ∨ ans.queueDesc i = false ∨ ans.queueEntry i = false

def HardwareFails : Prop :=
  ans.ccifNode = false ∨ ans.ccifRegs = false ∨ ans.irq ≠ 0 ∨ QueueFails ans 0 ∨ QueueFails ans 1

def FirmwareFails : Prop :=
  (∃ i < 4, ans.regionNode i = false ∨ ans.regionAddress i ≠ 0) ∨ ans.firmware ≠ 0 ∨ ans.boots = false

def ExceptionFails : Prop :=
  ans.log = false ∨ ans.logMap = false ∨ ans.exceptionMsg ≠ 0

/-- The WO object is there, and its hardware, its firmware or its exception log fails. -/
def WoFails : Prop := HardwareFails ans ∨ FirmwareFails ans ∨ ExceptionFails ans

/-- Behind a page that is there, something fails among the rest. -/
theorem exists_behind (fails : Nat → Prop) (k left : Nat) (first : ¬fails k) :
    (∃ i < left + 1, fails (k + i)) ↔ ∃ i < left, fails (k + 1 + i) := by
  rw [Nat.exists_lt_succ_left, or_iff_right (by simpa using first)]
  simp only [Nat.add_assoc, Nat.add_comm 1]

/-- The loop over the TX pages stops at the first that fails, with the pages before it. -/
theorem txPages_owning (k left : Nat) :
    ∃ k', (Hw.txPages ans k left
        (owning { dev with txPages := some k, txDesc := true } amsdu wo)).2 =
        owning { dev with txPages := some k', txDesc := true } amsdu wo ∧
      ((Hw.txPages ans k left
        (owning { dev with txPages := some k, txDesc := true } amsdu wo)).1 ≠ 0 ↔
        ∃ i < left, ans.txPage (k + i) = false ∨ ans.txMap (k + i) = false) := by
  induction left generalizing k with
  | zero => exact ⟨k, rfl, by simp [Hw.txPages]⟩
  | succ left ih =>
    have error : enomem ≠ 0 := by decide
    rw [Hw.txPages]
    split_ifs with page map
    · exact ⟨k, rfl, iff_of_true error ⟨0, by omega, .inl page⟩⟩
    · refine ⟨k, ?_, iff_of_true error ⟨0, by omega, .inr map⟩⟩
      simp only [Hw.take, Hw.give, Ledger.giveBack_take]
    · have next : ((((owning { dev with txPages := some k, txDesc := true } amsdu wo).take
          (.txPage k)).take (.txMap k)).modifyDev fun dev => { dev with txPages := some (k + 1) }) =
          owning { dev with txPages := some (k + 1), txDesc := true } amsdu wo := by
        apply owning_eq rfl rfl rfl rfl _ rfl rfl
        simp only [Hw.take, Hw.modifyDev, Ledger.take, owning, txGoods, if_true, pageGoods_succ,
          ringGoods, ← Multiset.singleton_add]
        abel
      rw [next]
      obtain ⟨k', same, fails⟩ := ih (k + 1)
      have behind := exists_behind (fun i => ans.txPage i = false ∨ ans.txMap i = false) k left
        (not_or.mpr ⟨page, map⟩)
      exact ⟨k', same, fails.trans behind.symm⟩

/-- The TX buffers are the device's, as far as they are there. -/
theorem txBufferAlloc_owning (new : dev.txPages = none) (none : dev.txDesc = false) :
    ∃ pages desc, ((owning dev amsdu wo).txBufferAlloc ans dev).2 =
        owning { dev with txPages := pages, txDesc := desc } amsdu wo ∧
      (((owning dev amsdu wo).txBufferAlloc ans dev).1 ≠ 0 ↔ TxFails ans dev) := by
  have error : enomem ≠ 0 := by decide
  have list : ((owning dev amsdu wo).take .txList).modifyDev (fun dev => { dev with txPages := some 0 }) =
      owning { dev with txPages := some 0 } amsdu wo := by
    apply owning_eq rfl rfl rfl rfl _ rfl rfl
    simp only [Hw.take, Hw.modifyDev, Ledger.take, owning, txGoods, new, none, ringGoods,
      ← Multiset.singleton_add, Bool.false_eq_true, if_false]
    abel
  have descs : ((owning { dev with txPages := some 0 } amsdu wo).take .txDesc).modifyDev
      (fun dev => { dev with txDesc := true }) =
      owning { dev with txPages := some 0, txDesc := true } amsdu wo := by
    apply owning_eq rfl rfl rfl rfl _ rfl rfl
    simp only [Hw.take, Hw.modifyDev, Ledger.take, owning, txGoods, none, ringGoods,
      ← Multiset.singleton_add, Bool.false_eq_true, if_false, if_true, pageGoods, Multiset.range_zero,
      Multiset.map_zero]
    abel
  rw [Hw.txBufferAlloc, TxFails]
  split_ifs with noList noDesc
  · exact ⟨dev.txPages, dev.txDesc, rfl, iff_of_true error (.inl noList)⟩
  · exact ⟨some 0, dev.txDesc, list, iff_of_true error (.inr (.inl noDesc))⟩
  · dsimp only
    rw [list, descs]
    obtain ⟨k, same, fails⟩ := txPages_owning ans dev amsdu wo 0 dev.pages
    refine ⟨some k, true, same, fails.trans ?_⟩
    rw [or_iff_right noList, or_iff_right noDesc]
    simp only [Nat.zero_add]

/-- What a WED holds besides. -/
def holding (hw : Hw) (goods : Multiset Good) : Hw :=
  { hw with held := ⟨goods + hw.held.held, false⟩ }

/-- The loop over the AMSDU pages takes all, or leaves pages without their mappings. -/
theorem amsduPages_cases (hw : Hw) (k left : Nat) :
    ((Hw.amsduPages ans k left (holding hw (pageGoods .amsduPage .amsduMap k))).1 = 0 ∧
      (Hw.amsduPages ans k left (holding hw (pageGoods .amsduPage .amsduMap k))).2 =
        holding hw (pageGoods .amsduPage .amsduMap (k + left)) ∧
      ¬∃ i < left, ans.amsduPage (k + i) = false ∨ ans.amsduMap (k + i) = false) ∨
    ((Hw.amsduPages ans k left (holding hw (pageGoods .amsduPage .amsduMap k))).1 ≠ 0 ∧
      (∃ i < left, ans.amsduPage (k + i) = false ∨ ans.amsduMap (k + i) = false) ∧
      ∃ j, (Hw.amsduPages ans k left (holding hw (pageGoods .amsduPage .amsduMap k))).2 =
        holding hw ((Multiset.range j).map .amsduPage) ∧ (j = 0 ↔ k = 0 ∧ ans.amsduPage k = false)) := by
  have error : enomem ≠ 0 := by decide
  have unmapped (k : Nat) (pages : Multiset Good) :
      (holding hw (pages + (Multiset.range k).map .amsduMap)).giveAll
        ((Multiset.range k).map .amsduMap) = holding hw pages := by
    have back := Ledger.giveAll_first ((Multiset.range k).map .amsduMap) (pages + hw.held.held)
    rw [← add_assoc, add_comm _ pages] at back
    simp only [holding, Hw.giveAll, back]
  induction left generalizing k with
  | zero => exact .inl ⟨rfl, rfl, by simp⟩
  | succ left ih =>
    rw [Hw.amsduPages]
    split_ifs with page map
    · refine .inr ⟨error, ⟨0, by omega, .inl page⟩, k, ?_, by simp [page]⟩
      exact unmapped k ((Multiset.range k).map .amsduPage)
    · refine .inr ⟨error, ⟨0, by omega, .inr map⟩, k + 1, ?_,
        iff_of_false (by omega) fun both => page both.2⟩
      have taken : (holding hw (pageGoods .amsduPage .amsduMap k)).take (.amsduPage k) =
          holding hw ((.amsduPage k ::ₘ (Multiset.range k).map .amsduPage) +
            (Multiset.range k).map .amsduMap) := by
        simp only [holding, Hw.take, Ledger.take, pageGoods, Multiset.cons_add]
      rw [taken, Multiset.range_succ, Multiset.map_cons]
      exact unmapped k _
    · have next : ((holding hw (pageGoods .amsduPage .amsduMap k)).take (.amsduPage k)).take
          (.amsduMap k) = holding hw (pageGoods .amsduPage .amsduMap (k + 1)) := by
        simp only [holding, Hw.take, Ledger.take, pageGoods_succ, Multiset.cons_add]
      have behind := exists_behind (fun i => ans.amsduPage i = false ∨ ans.amsduMap i = false) k left
        (not_or.mpr ⟨page, map⟩)
      rw [next, behind]
      obtain ⟨zero, same, all⟩ | ⟨err, fails, j, same, first⟩ := ih (k + 1)
      · exact .inl ⟨zero, by rw [same, Nat.add_right_comm, Nat.add_assoc], all⟩
      · refine .inr ⟨err, fails, j, same, first.trans ?_⟩
        exact iff_of_false (fun both => Nat.succ_ne_zero k both.1) fun both => page both.2

/-- The AMSDU pages are all there, or none was, or some are left. -/
theorem amsduBufferAlloc_cases (v3 : 3 ≤ dev.version) (pages : amsdu ≠ .live) :
    (((owning dev amsdu wo).amsduBufferAlloc ans).1 = 0 ∧
      ((owning dev amsdu wo).amsduBufferAlloc ans).2 = owning dev .live wo ∧ ¬AmsduFails ans) ∨
    (((owning dev amsdu wo).amsduBufferAlloc ans).1 ≠ 0 ∧
      ((owning dev amsdu wo).amsduBufferAlloc ans).2 = owning dev amsdu wo ∧ AmsduFirst ans) ∨
    (((owning dev amsdu wo).amsduBufferAlloc ans).1 ≠ 0 ∧ AmsduFails ans ∧ ¬AmsduFirst ans ∧
      ∃ goods, .amsduPage 0 ∈ goods ∧
        ((owning dev amsdu wo).amsduBufferAlloc ans).2 = holding (owning dev amsdu wo) goods) := by
  have error : enomem ≠ 0 := by decide
  have none : holding (owning dev amsdu wo) (pageGoods .amsduPage .amsduMap 0) = owning dev amsdu wo := by
    simp [holding, pageGoods, owning]
  unfold Hw.amsduBufferAlloc AmsduFails AmsduFirst
  rw [if_neg (show ¬(owning dev amsdu wo).version < 3 from not_lt.mpr v3)]
  have loop := amsduPages_cases ans (owning dev amsdu wo) 0 amsduNpages
  simp only [none, Nat.zero_add] at loop
  by_cases list : ans.amsduList = false
  · rw [if_pos list]
    exact .inr (.inl ⟨error, rfl, .inl list⟩)
  · rw [if_neg list, or_iff_right list, or_iff_right list]
    generalize Hw.amsduPages ans 0 amsduNpages (owning dev amsdu wo) = r at loop
    obtain ⟨ret, hw⟩ := r
    dsimp only at loop ⊢
    obtain ⟨zero, rfl, all⟩ | ⟨err, fails, j, rfl, first⟩ := loop
    · rw [if_neg (not_not.mpr zero)]
      refine .inl ⟨rfl, ?_, all⟩
      simp [holding, owning, amsduGoods, pages]
    · rw [if_pos err]
      by_cases empty : j = 0
      · refine .inr (.inl ⟨err, ?_, (first.mp empty).2⟩)
        simp [empty, holding, owning]
      · refine .inr (.inr ⟨err, fails, fun at_once => empty (first.mpr ⟨trivial, at_once⟩), _, ?_, rfl⟩)
        exact Multiset.mem_map.mpr ⟨0, Multiset.mem_range.mpr (Nat.pos_of_ne_zero empty), rfl⟩

/-- The ring for RRO is there, or nothing happened. -/
theorem rroAlloc_owning (none : dev.rroRing = false) :
    (((owning dev amsdu wo).rroAlloc ans).1 ≠ 0 ↔ RroFails ans) ∧
      ((owning dev amsdu wo).rroAlloc ans).2 =
        if ((owning dev amsdu wo).rroAlloc ans).1 = 0 then owning { dev with rroRing := true } amsdu wo
        else owning dev amsdu wo := by
  have missing : enodev ≠ 0 := by decide
  have error : enomem ≠ 0 := by decide
  have ring : ((owning dev amsdu wo).take .rroRing).modifyDev (fun dev => { dev with rroRing := true }) =
      owning { dev with rroRing := true } amsdu wo := by
    apply owning_eq rfl rfl rfl rfl _ rfl rfl
    simp only [Hw.take, Hw.modifyDev, Ledger.take, owning, txGoods, ringGoods, none,
      ← Multiset.singleton_add, Bool.false_eq_true, if_false, if_true]
    abel
  unfold Hw.rroAlloc RroFails
  by_cases node : ans.rroNode = false
  · rw [if_pos node]
    exact ⟨iff_of_true missing (.inl node), (if_neg missing).symm⟩
  · rw [if_neg node]
    by_cases address : ans.rroAddress ≠ 0
    · rw [if_pos address]
      exact ⟨iff_of_true address (.inr (.inl address)), (if_neg address).symm⟩
    · rw [if_neg address]
      by_cases memory : ans.rroRing = false
      · rw [if_pos memory]
        exact ⟨iff_of_true error (.inr (.inr memory)), (if_neg error).symm⟩
      · rw [if_neg memory, ring]
        have fine : ¬(ans.rroNode = false ∨ ans.rroAddress ≠ 0 ∨ ans.rroRing = false) :=
          not_or.mpr ⟨node, not_or.mpr ⟨address, memory⟩⟩
        exact ⟨iff_of_false (not_not.mpr rfl) fine, (if_pos rfl).symm⟩

section Wo

variable (hw : Hw)

theorem queueAlloc_fails (i : Nat) : (hw.queueAlloc ans i).1 ≠ 0 ↔ QueueFails ans i := by
  have error : enomem ≠ 0 := by decide
  unfold Hw.queueAlloc QueueFails
  split_ifs <;> simp_all

theorem queueAlloc_done (i : Nat) (done : ¬QueueFails ans i) : (hw.queueAlloc ans i).2 =
    if i = 0 then (hw.take (.queue i)).take (.buffers 0) else hw.take (.queue i) := by
  rw [QueueFails, not_or, not_or] at done
  rw [Hw.queueAlloc, if_neg done.1, if_neg done.2.1, if_neg done.2.2]

theorem queueAlloc_wedDev (i : Nat) : (hw.queueAlloc ans i).2.wedDev = hw.wedDev := by
  unfold Hw.queueAlloc
  split_ifs <;> rfl

theorem hardwareInit_fails : (hw.hardwareInit ans).1 ≠ 0 ↔ HardwareFails ans := by
  have missing : enodev ≠ 0 := by decide
  rw [HardwareFails, ← or_assoc, Hw.hardwareInit]
  by_cases node : ans.ccifNode = false ∨ ans.ccifRegs = false
  · rw [if_pos node]
    exact iff_of_true missing (.inl node)
  · rw [if_neg node, or_iff_right node]
    by_cases irq : ans.irq ≠ 0
    · rw [if_pos irq]
      exact iff_of_true irq (.inl irq)
    · rw [if_neg irq, or_iff_right irq, ← queueAlloc_fails ans (hw.take .irq) 0]
      dsimp only
      by_cases tx : ((hw.take .irq).queueAlloc ans 0).1 ≠ 0
      · rw [if_pos tx]
        exact iff_of_true tx (.inl tx)
      · rw [if_neg tx, or_iff_right tx, ← queueAlloc_fails ans ((hw.take .irq).queueAlloc ans 0).2 1]
        by_cases rx : (((hw.take .irq).queueAlloc ans 0).2.queueAlloc ans 1).1 ≠ 0
        · rw [if_pos rx]
        · rw [if_neg rx]
          exact iff_of_false (by simp) rx

theorem hardwareInit_wedDev : (hw.hardwareInit ans).2.wedDev = hw.wedDev := by
  unfold Hw.hardwareInit
  dsimp only
  split_ifs <;> simp [Hw.take, Hw.give, queueAlloc_wedDev]

theorem firmwareRegions_fails (i left : Nat) : Hw.firmwareRegions ans i left ≠ 0 ↔
    ∃ j < left, ans.regionNode (i + j) = false ∨ ans.regionAddress (i + j) ≠ 0 := by
  have missing : enodev ≠ 0 := by decide
  induction left generalizing i with
  | zero => simp [Hw.firmwareRegions]
  | succ left ih =>
    rw [Hw.firmwareRegions]
    split_ifs with node address
    · exact iff_of_true missing ⟨0, by omega, .inl node⟩
    · exact iff_of_true address ⟨0, by omega, .inr address⟩
    · have behind := exists_behind
        (fun j => ans.regionNode j = false ∨ ans.regionAddress j ≠ 0) i left
        (not_or.mpr ⟨node, address⟩)
      exact (ih (i + 1)).trans behind.symm

theorem mcuInit_fails : Hw.mcuInit ans ≠ 0 ↔ FirmwareFails ans := by
  have busy : ebusy ≠ 0 := by decide
  have regions := firmwareRegions_fails ans 0 4
  simp only [Nat.zero_add] at regions
  rw [Hw.mcuInit, FirmwareFails, ← regions]
  split_ifs with region firmware boots <;> simp_all

theorem exceptionInit_fails : (hw.exceptionInit ans).1 ≠ 0 ↔ ExceptionFails ans := by
  have error : enomem ≠ 0 := by decide
  unfold Hw.exceptionInit ExceptionFails
  dsimp only
  split_ifs <;> simp_all

theorem exceptionInit_wedDev : (hw.exceptionInit ans).2.wedDev = hw.wedDev := by
  unfold Hw.exceptionInit
  split_ifs <;> rfl

theorem hardwareInit_done (done : ¬(hw.hardwareInit ans).1 ≠ 0) : (hw.hardwareInit ans).2 =
    ((((hw.take .irq).take (.queue 0)).take (.buffers 0)).take (.queue 1)).take (.buffers 1) := by
  rw [hardwareInit_fails, HardwareFails] at done
  simp only [not_or] at done
  obtain ⟨node, regs, irq, tx, rx⟩ := done
  have first := queueAlloc_done ans (hw.take .irq) 0 tx
  have second (hw : Hw) := queueAlloc_done ans hw 1 rx
  have txFine (hw : Hw) := not_iff_not.mpr (queueAlloc_fails ans hw 0) |>.mpr tx
  have rxFine (hw : Hw) := not_iff_not.mpr (queueAlloc_fails ans hw 1) |>.mpr rx
  rw [Hw.hardwareInit, if_neg (not_or.mpr ⟨node, regs⟩), if_neg irq]
  dsimp only
  rw [if_neg (txFine _), if_neg (rxFine _), second, first]
  rfl

theorem exceptionInit_done (done : ¬(hw.exceptionInit ans).1 ≠ 0) :
    (hw.exceptionInit ans).2 = (hw.take .log).take .logMap := by
  rw [exceptionInit_fails, ExceptionFails] at done
  simp only [not_or] at done
  rw [Hw.exceptionInit, if_neg done.1]
  dsimp only
  rw [if_neg done.2.1]

end Wo

/-- The WO object is there with all its own, it was refused, or its pointer dangles. -/
theorem woInit_cases (object : wo ≠ .live) :
    (((owning dev amsdu wo).woInit ans).1 = 0 ∧
      ((owning dev amsdu wo).woInit ans).2 = owning dev amsdu .live ∧
      ans.wo = true ∧ ¬WoFails ans) ∨
    (((owning dev amsdu wo).woInit ans).1 ≠ 0 ∧
      ((owning dev amsdu wo).woInit ans).2 = owning dev amsdu wo ∧ ans.wo = false) ∨
    (((owning dev amsdu wo).woInit ans).1 ≠ 0 ∧ ans.wo = true ∧ WoFails ans ∧
      ((owning dev amsdu wo).woInit ans).2.wedWo = .freed ∧
      ((owning dev amsdu wo).woInit ans).2.wedDev = some dev) := by
  have error : enomem ≠ 0 := by decide
  by_cases refused : ans.wo = false
  · rw [Hw.woInit, if_pos refused]
    exact .inr (.inl ⟨error, rfl, refused⟩)
  · have there : ans.wo = true := by simpa using refused
    rw [Hw.woInit, if_neg refused]
    dsimp only
    generalize known : ({ (owning dev amsdu wo).take .wo with wedWo := .live } : Hw) = hw
    have attached : hw.wedDev = some dev := by
      rw [← known]
      rfl
    by_cases hardware : (hw.hardwareInit ans).1 ≠ 0
    · rw [if_pos hardware]
      exact .inr (.inr ⟨hardware, there, .inl ((hardwareInit_fails ..).mp hardware), rfl,
        (hardwareInit_wedDev ans hw).trans attached⟩)
    · rw [if_neg hardware]
      by_cases firmware : Hw.mcuInit ans ≠ 0
      · rw [if_pos firmware]
        exact .inr (.inr ⟨firmware, there, .inr (.inl ((mcuInit_fails ans).mp firmware)), rfl,
          (hardwareInit_wedDev ans hw).trans attached⟩)
      · rw [if_neg firmware]
        by_cases exception : ((hw.hardwareInit ans).2.exceptionInit ans).1 ≠ 0
        · rw [if_pos exception]
          exact .inr (.inr ⟨exception, there, .inr (.inr ((exceptionInit_fails ..).mp exception)), rfl,
            (exceptionInit_wedDev ..).trans ((hardwareInit_wedDev ..).trans attached)⟩)
        · rw [if_neg exception]
          refine .inl ⟨rfl, ?_, there, ?_⟩
          · rw [exceptionInit_done ans _ exception, hardwareInit_done ans _ hardware, ← known]
            apply owning_eq rfl rfl rfl rfl _ rfl rfl
            simp only [Hw.take, Ledger.take, owning, woPart, object, if_false, if_true, Hw.woGoods,
              Multiset.insert_eq_cons, ← Multiset.singleton_add]
            abel
          · rw [hardwareInit_fails] at hardware
            rw [mcuInit_fails] at firmware
            rw [exceptionInit_fails] at exception
            exact not_or.mpr ⟨hardware, not_or.mpr ⟨firmware, exception⟩⟩

end Stages

section Course

/-- The pointer to the AMSDU pages behind their set-up. -/
def amsduThen (dev : Dev) (amsdu : Ptr) : Ptr := if 3 ≤ dev.version then .live else amsdu

/-- How the set-up of a WED with these pointers may go. -/
inductive Course (ans : Answers) (dev : Dev) (amsdu wo : Ptr) : Int → Hw → Prop
  | txFails {ret : Int} {pages : Option Nat} {desc : Bool} (error : ret ≠ 0)
      (tx : TxFails ans dev) :
      Course ans dev amsdu wo ret (owning { dev with txPages := pages, txDesc := desc } amsdu wo)
  | amsduFirst {ret : Int} {pages : Option Nat} {desc : Bool} (error : ret ≠ 0)
      (tx : ¬TxFails ans dev) (v3 : 3 ≤ dev.version) (first : AmsduFirst ans) :
      Course ans dev amsdu wo ret (owning { dev with txPages := pages, txDesc := desc } amsdu wo)
  | amsduLate {ret : Int} {dev' : Dev} {goods : Multiset Good} (error : ret ≠ 0)
      (tx : ¬TxFails ans dev) (v3 : 3 ≤ dev.version) (fails : AmsduFails ans)
      (late : ¬AmsduFirst ans) (left : .amsduPage 0 ∈ goods) :
      Course ans dev amsdu wo ret (holding (owning dev' amsdu wo) goods)
  | rroFails {ret : Int} {pages : Option Nat} {desc : Bool} (error : ret ≠ 0)
      (tx : ¬TxFails ans dev) (fine : 3 ≤ dev.version → ¬AmsduFails ans) (rx : dev.rxCapa = true)
      (rro : RroFails ans) :
      Course ans dev amsdu wo ret
        (owning { dev with txPages := pages, txDesc := desc } (amsduThen dev amsdu) wo)
  | woRefused {ret : Int} {pages : Option Nat} {desc : Bool} (error : ret ≠ 0)
      (tx : ¬TxFails ans dev) (fine : 3 ≤ dev.version → ¬AmsduFails ans) (rx : dev.rxCapa = true)
      (rro : ¬RroFails ans) (refused : ans.wo = false) :
      Course ans dev amsdu wo ret
        (owning { dev with txPages := pages, txDesc := desc, rroRing := true } (amsduThen dev amsdu) wo)
  | woFails {ret : Int} {dev' : Dev} {hw : Hw} (error : ret ≠ 0) (tx : ¬TxFails ans dev)
      (fine : 3 ≤ dev.version → ¬AmsduFails ans) (rx : dev.rxCapa = true) (rro : ¬RroFails ans)
      (there : ans.wo = true) (fails : WoFails ans) (has : hw.wedDev = some dev')
      (dangles : hw.wedWo = .freed) :
      Course ans dev amsdu wo ret hw
  | done {pages : Option Nat} {desc : Bool} (tx : ¬TxFails ans dev)
      (fine : 3 ≤ dev.version → ¬AmsduFails ans)
      (object : dev.rxCapa = true → ¬RroFails ans ∧ ans.wo = true ∧ ¬WoFails ans) :
      Course ans dev amsdu wo 0
        (owning { dev with txPages := pages, txDesc := desc, rroRing := dev.rxCapa }
          (amsduThen dev amsdu) (if dev.rxCapa then .live else wo))

variable {ans : Answers} {dev : Dev} {amsdu wo : Ptr}

/-- What a WED that has to do with RX sets up behind the AMSDU pages. -/
theorem rx_course (pages : Option Nat) (desc : Bool) (noRing : dev.rroRing = false)
    (object : wo ≠ .live) (tx : ¬TxFails ans dev) (fine : 3 ≤ dev.version → ¬AmsduFails ans)
    (rx : dev.rxCapa = true) {hw : Hw}
    (here : hw = owning { dev with txPages := pages, txDesc := desc } (amsduThen dev amsdu) wo)
    {r : Int × Hw}
    (result : r = if (hw.rroAlloc ans).1 ≠ 0 then hw.rroAlloc ans else (hw.rroAlloc ans).2.woInit ans) :
    Course ans dev amsdu wo r.1 r.2 := by
  have rro := rroAlloc_owning ans { dev with txPages := pages, txDesc := desc }
    (amsduThen dev amsdu) wo noRing
  rw [← here] at rro
  obtain ⟨fails, left⟩ := rro
  by_cases ring : (hw.rroAlloc ans).1 = 0
  · rw [if_pos ring] at left
    rw [if_neg (not_not.mpr ring), left] at result
    have rroFine := fun bad => fails.mpr bad ring
    obtain ⟨zero, same, there, good⟩ | ⟨err, same, refused⟩ | ⟨err, there, bad, dangles, has⟩ :=
      woInit_cases ans { dev with txPages := pages, txDesc := desc, rroRing := true }
        (amsduThen dev amsdu) wo object
    · have course : Course ans dev amsdu wo 0
          (owning { dev with txPages := pages, txDesc := desc, rroRing := dev.rxCapa }
            (amsduThen dev amsdu) (if dev.rxCapa then .live else wo)) :=
        .done tx fine fun _ => ⟨rroFine, there, good⟩
      rw [rx, if_pos rfl] at course
      rw [result, zero, same]
      exact course
    · rw [result, same]
      exact .woRefused err tx fine rx rroFine refused
    · rw [result]
      exact .woFails err tx fine rx rroFine there bad has dangles
  · have same := left.trans (if_neg ring)
    rw [if_pos ring] at result
    rw [result, same]
    have course (ret : Int) (error : ret ≠ 0) : Course ans dev amsdu wo ret hw := by
      rw [here]
      exact .rroFails error tx fine rx (fails.mp ring)
    exact course _ ring

/-- The set-up of a free WED takes one of these courses. -/
theorem setUp_course (new : dev.txPages = none) (noDesc : dev.txDesc = false)
    (noRing : dev.rroRing = false) (pages : amsdu ≠ .live) (object : wo ≠ .live) :
    Course ans dev amsdu wo ((owning dev amsdu wo).setUp ans dev).1
      ((owning dev amsdu wo).setUp ans dev).2 := by
  obtain ⟨k, desc, bufs, tx⟩ := txBufferAlloc_owning ans dev amsdu wo new noDesc
  rw [Hw.setUp]
  dsimp only
  rw [bufs]
  by_cases txFails : ((owning dev amsdu wo).txBufferAlloc ans dev).1 ≠ 0
  · rw [if_pos txFails]
    exact .txFails txFails (tx.mp txFails)
  · rw [if_neg txFails]
    have txFine := fun fails => txFails (tx.mpr fails)
    -- behind the AMSDU pages
    have behind (fine : 3 ≤ dev.version → ¬AmsduFails ans) (hw : Hw)
        (here : hw = owning { dev with txPages := k, txDesc := desc } (amsduThen dev amsdu) wo)
        (r : Int × Hw)
        (result : r = if dev.rxCapa then
          if (hw.rroAlloc ans).1 ≠ 0 then hw.rroAlloc ans else (hw.rroAlloc ans).2.woInit ans
          else (0, hw)) : Course ans dev amsdu wo r.1 r.2 := by
      by_cases rx : dev.rxCapa = true
      · rw [if_pos rx] at result
        exact rx_course k desc noRing object txFine fine rx here result
      · have course : Course ans dev amsdu wo 0
            (owning { dev with txPages := k, txDesc := desc, rroRing := dev.rxCapa }
              (amsduThen dev amsdu) (if dev.rxCapa then .live else wo)) :=
          .done txFine fine fun has => absurd has rx
        have without : dev.rxCapa = false := by simpa using rx
        rw [if_neg rx, without, ← noRing, ← here] at course
        rw [if_neg rx] at result
        rw [result]
        exact course
    by_cases v3 : 3 ≤ dev.version
    · have live : amsduThen dev amsdu = .live := if_pos v3
      obtain ⟨zero, same, fine⟩ | ⟨err, same, first⟩ | ⟨err, fails, late, goods, left, same⟩ :=
        amsduBufferAlloc_cases ans { dev with txPages := k, txDesc := desc } amsdu wo v3 pages
      · rw [if_neg (not_not.mpr zero), same]
        exact behind (fun _ => fine) _ (by rw [live]) _ rfl
      · rw [if_pos err, same]
        exact .amsduFirst err txFine v3 first
      · rw [if_pos err, same]
        exact .amsduLate err txFine v3 fails late left
    · have none : (owning { dev with txPages := k, txDesc := desc } amsdu wo).amsduBufferAlloc ans =
          (0, owning { dev with txPages := k, txDesc := desc } amsdu wo) := if_pos (not_le.mp v3)
      have same : amsduThen dev amsdu = amsdu := if_neg v3
      rw [none, if_neg (not_not.mpr rfl)]
      exact behind (fun has => absurd has v3) _ (by rw [same]) _ rfl

end Course

end Filogic.Wed.Attach
