import Filogic.Ppe.Lists

/-! Bound hardware entries against the hashes that flows record. -/

namespace Filogic.Ppe

namespace FoeEntry

/-- Two entries agree in what a flow is matched by. -/
def SameKey (a b : FoeEntry) : Prop :=
  a.ib1 &&& (ib1PacketType ||| ib1Udp) = b.ib1 &&& (ib1PacketType ||| ib1Udp) ∧ a.data = b.data

theorem SameKey.refl (a : FoeEntry) : a.SameKey a := ⟨rfl, rfl⟩

theorem SameKey.trans {a b c : FoeEntry} (one : a.SameKey b) (two : b.SameKey c) : a.SameKey c :=
  ⟨one.1.trans two.1, one.2.trans two.2⟩

theorem SameKey.symm {a b : FoeEntry} (same : a.SameKey b) : b.SameKey a :=
  ⟨same.1.symm, same.2.symm⟩

/-- A field that lies in a mask the other field is out of. -/
theorem setIb1_sameKey (a : FoeEntry) (mask value : UInt32)
    (apart : mask &&& (ib1PacketType ||| ib1Udp) = 0) : (a.setIb1 mask value).SameKey a :=
  ⟨masked_other _ _ _ _ apart, rfl⟩

theorem SameKey.matchesFlow {a b : FoeEntry} (same : a.SameKey b) : a.matchesFlow b = true := by
  have udp : (a.ib1 ^^^ b.ib1) &&& ib1Udp = 0 := by
    have field : ib1Udp = (ib1PacketType ||| ib1Udp) &&& ib1Udp := by decide
    have split : (a.ib1 ^^^ b.ib1) &&& (ib1PacketType ||| ib1Udp) =
        a.ib1 &&& (ib1PacketType ||| ib1Udp) ^^^ b.ib1 &&& (ib1PacketType ||| ib1Udp) :=
      UInt32.toBitVec_inj.mp (BitVec.eq_of_getElem_eq (by simp [Bool.and_xor_distrib_right]))
    rw [field, ← UInt32.and_assoc, split, same.1, UInt32.xor_self, UInt32.zero_and]
  rw [FoeEntry.matchesFlow, if_neg (not_not.mpr udp)]
  simp [same.2]

theorem invalidated_unbound (a : FoeEntry) : ¬a.invalidated.Bound := by
  have cleared : a.invalidated.ib1 &&& ib1State = 0 := by
    change (a.ib1 &&& ~~~ib1State ||| stateInvalid <<< 28 &&& ib1State) &&& ib1State = 0
    rw [masked_own]
    decide
  intro bound
  change (a.invalidated.ib1 &&& ib1State) >>> 28 = stateBind at bound
  rw [cleared] at bound
  exact absurd bound (by decide)

end FoeEntry

variable {s s' : FlowTable}

/-- The flow records the hardware entry as its own. -/
def Records (s : FlowTable) (id : FlowId) (h : UInt16) : Prop :=
  ∃ e, s.flows id = some e ∧ e.type ≠ .l2 ∧ e.hash = h

/-- The hardware entry is that of the flow and of no other. -/
structure Owns (s : FlowTable) (h : UInt16) (id : FlowId) : Prop where
  slot : h ≠ noHash
  recorded : ∀ k, Records s k h ↔ k = id
  agrees : ∀ e, s.flows id = some e → e.type = .l4 → (s.foeTable h).SameKey e.data

/-- A hardware entry that is still bound for a flow is that flow's. -/
def TrackedAt (s : FlowTable) (h : UInt16) : Prop :=
  ∀ id, s.writtenFor h = some id → (s.foeTable h).Bound → Owns s h id

def Tracked (s : FlowTable) : Prop := ∀ h, TrackedAt s h

theorem TrackedAt.unbound {h : UInt16} (unbound : ¬(s.foeTable h).Bound) : TrackedAt s h :=
  fun _ _ bound => absurd bound unbound

/-- An entry that is not written to stays tracked when the flows that record it go on to do so, and
no other comes to. -/
theorem TrackedAt.keep {h : UInt16} (tracked : TrackedAt s h)
    (written : s'.writtenFor h = s.writtenFor h) (slot : s'.foeTable h = s.foeTable h)
    (kept : (s.foeTable h).Bound → ∀ k e, Owns s h k → s.flows k = some e → e.type ≠ .l2 →
      e.hash = h → ∃ e', s'.flows k = some e' ∧ e'.type = e.type ∧ e'.hash = h ∧ e'.data.SameKey e.data)
    (back : (s.foeTable h).Bound → h ≠ noHash → ∀ k, Records s' k h → Records s k h) :
    TrackedAt s' h := by
  intro id ownedBy bound
  rw [written] at ownedBy
  rw [slot] at bound
  have owns := tracked id ownedBy bound
  obtain ⟨some_, recorded, agrees⟩ := tracked id ownedBy bound
  obtain ⟨e, has, kind, hash⟩ := (recorded id).mpr rfl
  obtain ⟨e', has', type, hash', same⟩ := kept bound id e owns has kind hash
  refine ⟨some_, fun k => ⟨fun record => (recorded k).mp (back bound some_ k record), ?_⟩, ?_⟩
  · rintro rfl
    exact ⟨e', has', type ▸ kind, hash'⟩
  · intro e'' has'' l4
    obtain rfl := Option.some.inj (has'.symm.trans has'')
    rw [slot]
    exact (agrees e has (type ▸ l4)).trans same.symm

section Steps

variable {id : FlowId} {e : FlowEntry} (has : s.flows id = some e) {h : UInt16}
include has

/-- A flow loses its hash, which no bound entry goes by. -/
theorem TrackedAt.reset (tracked : TrackedAt s h)
    (lost : Owns s h id → e.hash = h → ¬(s.foeTable h).Bound) :
    TrackedAt (s.setFlow id { e with hash := noHash }) h := by
  have flows (k : FlowId) : (s.setFlow id { e with hash := noHash }).flows k =
      if k = id then some { e with hash := noHash } else s.flows k := by
    simp [FlowTable.setFlow, Function.update_apply]
  refine tracked.keep (by rfl) (by rfl) ?_ ?_
  · intro bound k ek owns hk kind' hash
    have some_ := owns.slot
    rw [flows]
    have := FoeEntry.SameKey.refl ek.data
    grind
  · rintro bound some_ k ⟨ek, hk, kind', hash⟩
    rw [flows] at hk
    unfold Records
    grind

/-- The data of a flow change in what it is not matched by. -/
theorem TrackedAt.setData (tracked : TrackedAt s h) (data : FoeEntry)
    (same : (s.foeTable h).Bound → Owns s h id → e.type ≠ .l2 → data.SameKey e.data) :
    TrackedAt (s.setFlow id { e with data := data }) h := by
  have flows (k : FlowId) : (s.setFlow id { e with data := data }).flows k =
      if k = id then some { e with data := data } else s.flows k := by
    simp [FlowTable.setFlow, Function.update_apply]
  refine tracked.keep (by rfl) (by rfl) ?_ ?_
  · intro bound k ek owns hk kind hash
    have some_ := owns.slot
    rw [flows]
    have := FoeEntry.SameKey.refl ek.data
    grind
  · rintro bound - k ⟨ek, hk, kind, hash⟩
    rw [flows] at hk
    unfold Records
    grind

/-- A subflow is cleared, after its entry was invalidated or was no longer bound. -/
theorem TrackedAt.clearSubflow (tracked : TrackedAt s h)
    (kind : e.type = .l2Subflow) (e' : FlowEntry) (type : e'.type = e.type)
    (lost : e.hash = h → h ≠ noHash → e'.hash = h ∨ ¬(s.foeTable h).Bound) :
    TrackedAt (s.clearFlow id e') h := by
  have flows := clearFlow_sub (s := s) id e' (type.trans kind)
  have slot := clearFlow_foeTable (s := s) id e' h
  by_cases own : e'.hash ≠ noHash ∧ h = e'.hash
  · rw [if_pos own] at slot
    exact .unbound (slot ▸ FoeEntry.invalidated_unbound _)
  · rw [if_neg own] at slot
    refine tracked.keep (by rw [clearFlow_writtenFor]) slot ?_ ?_
    · intro bound k ek owns hk kind' hash
      have some_ := owns.slot
      rw [flows]
      have := FoeEntry.SameKey.refl ek.data
      grind
    · rintro bound some_ k ⟨ek, hk, kind', hash⟩
      rw [flows] at hk
      unfold Records
      cases found : s.flows k <;> grind

/-- A flow of another kind is cleared and freed. -/
theorem TrackedAt.clearL4 (tracked : TrackedAt s h) (kind : e.type = .l4) :
    TrackedAt ((s.clearFlow id e).free id) h := by
  have flows (k : FlowId) : ((s.clearFlow id e).free id).flows k = if k = id then none else s.flows k := by
    simp only [FlowTable.free, Function.update_apply, clearFlow_other (s := s) id e (by simp [kind])]
    grind
  have slot := clearFlow_foeTable (s := s) id e h
  by_cases own : e.hash ≠ noHash ∧ h = e.hash
  · rw [if_pos own] at slot
    apply TrackedAt.unbound
    change ¬((s.clearFlow id e).foeTable h).Bound
    exact slot ▸ FoeEntry.invalidated_unbound _
  · rw [if_neg own] at slot
    refine tracked.keep (by change (s.clearFlow id e).writtenFor h = _; rw [clearFlow_writtenFor])
      slot ?_ ?_
    · intro bound k ek owns hk kind' hash
      have some_ := owns.slot
      rw [flows]
      have := FoeEntry.SameKey.refl ek.data
      grind
    · rintro bound some_ k ⟨ek, hk, kind', hash⟩
      rw [flows] at hk
      unfold Records
      grind

end Steps

end Filogic.Ppe
