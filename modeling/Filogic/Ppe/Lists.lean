import Filogic.Ppe.Flows

/-! The lists that flows are kept on: a flow that is on a list is allocated, and a subflow is on the
list of the L2 flow it belongs to. -/

namespace Filogic.Ppe

/-- The bucket of a hash. -/
def bucketOf (hash : UInt16) : Nat := hash.toNat / 4

/-- What holds of the lists after every operation of the driver. -/
structure Listed (s : FlowTable) : Prop where
  bucket : ∀ b, ∀ id ∈ s.foeFlow b, ∃ e, s.flows id = some e ∧ e.type ≠ .l2 ∧
    (e.hash = noHash ∨ bucketOf e.hash = b)
  hashed : ∀ id e, s.flows id = some e → e.type ≠ .l2 → e.hash ≠ noHash →
    id ∈ s.foeFlow (bucketOf e.hash)
  nodup : ∀ b, (s.foeFlow b).Nodup
  apart : ∀ b b' id, id ∈ s.foeFlow b → id ∈ s.foeFlow b' → b = b'
  table : ∀ id ∈ s.l2Flows, ∃ e, s.flows id = some e ∧ e.type = .l2
  sub : ∀ id e, s.flows id = some e → ∀ x ∈ e.l2Flows, e.type = .l2 ∧
    ∃ e', s.flows x = some e' ∧ e'.type = .l2Subflow ∧ e'.baseFlow = id
  base : ∀ x e', s.flows x = some e' → e'.type = .l2Subflow →
    ∃ e, s.flows e'.baseFlow = some e ∧ x ∈ e.l2Flows

theorem Listed.start : Listed .start := by
  constructor <;> simp [FlowTable.start]

variable {s : FlowTable}

/-- An entry is changed in place: its data, or the hash of a flow to none or one of its bucket. -/
theorem Listed.setFlow (listed : Listed s) {id : FlowId} {e : FlowEntry} (has : s.flows id = some e)
    (e' : FlowEntry) (type : e'.type = e.type) (subs : e'.l2Flows = e.l2Flows)
    (base : e'.baseFlow = e.baseFlow)
    (hash : e.type ≠ .l2 → e'.hash = noHash ∨ id ∈ s.foeFlow (bucketOf e'.hash)) :
    Listed (s.setFlow id e') := by
  obtain ⟨bucket, hashed, nodup, apart, table, sub, baseOf⟩ := listed
  constructor
  · intro b x member
    obtain ⟨ex, hx, kind, inBucket⟩ := bucket b x member
    by_cases same : x = id
    · subst same
      refine ⟨e', by simp [FlowTable.setFlow], ?_, ?_⟩
      · grind
      · exact (hash (by grind)).imp (fun none => none) fun own => apart _ _ x own member
    · exact ⟨ex, by simp [FlowTable.setFlow, same, hx], kind, inBucket⟩
  · intro x ex hx kind some_
    simp only [FlowTable.setFlow, Function.update_apply] at hx
    split_ifs at hx with same
    · obtain rfl := Option.some.inj hx
      subst same
      exact (hash (type ▸ kind)).resolve_left some_
    · exact hashed x ex hx kind some_
  · exact nodup
  · exact apart
  · intro x member
    obtain ⟨ex, hx, kind⟩ := table x member
    by_cases same : x = id
    · subst same
      exact ⟨e', by simp [FlowTable.setFlow], by grind⟩
    · exact ⟨ex, by simp [FlowTable.setFlow, same, hx], kind⟩
  · intro x ex hx y member
    simp only [FlowTable.setFlow, Function.update_apply] at hx ⊢
    grind
  · intro x ex hx kind
    simp only [FlowTable.setFlow, Function.update_apply] at hx ⊢
    grind

section Clear

variable (id : FlowId) (e : FlowEntry)

/-- What `clearFlow` leaves, for a subflow and for any other flow. -/
theorem clearFlow_foeFlow (b : Nat) :
    (s.clearFlow id e).foeFlow b = (s.foeFlow b).filter (· ≠ id) := by
  unfold FlowTable.clearFlow
  dsimp only
  split_ifs <;> rfl

theorem clearFlow_l2Flows : (s.clearFlow id e).l2Flows = s.l2Flows := by
  unfold FlowTable.clearFlow
  dsimp only
  split_ifs <;> rfl

theorem clearFlow_writtenFor : (s.clearFlow id e).writtenFor = s.writtenFor := by
  unfold FlowTable.clearFlow
  dsimp only
  split_ifs <;> rfl

theorem clearFlow_foeTable (h : UInt16) :
    (s.clearFlow id e).foeTable h =
      if e.hash ≠ noHash ∧ h = e.hash then (s.foeTable h).invalidated else s.foeTable h := by
  have cell : (if e.hash ≠ noHash then (s.unlist id).invalidate e.hash else s.unlist id).foeTable h =
      if e.hash ≠ noHash ∧ h = e.hash then (s.foeTable h).invalidated else s.foeTable h := by
    by_cases some_ : e.hash ≠ noHash
    · by_cases own : h = e.hash
      · subst own
        simp [some_, FlowTable.invalidate, FlowTable.unlist]
      · simp [some_, own, FlowTable.invalidate, FlowTable.unlist]
    · simp [some_, FlowTable.unlist]
  rw [← cell]
  unfold FlowTable.clearFlow
  dsimp only
  by_cases kind : e.type ≠ .l2Subflow
  · rw [if_pos kind]
    rfl
  · rw [if_neg kind]
    rfl

theorem clearFlow_sub (kind : e.type = .l2Subflow) (k : FlowId) :
    (s.clearFlow id e).flows k =
      if k = id then none
      else if k = e.baseFlow then
        (s.flows k).map fun base => { base with l2Flows := base.l2Flows.filter (· ≠ id) }
      else s.flows k := by
  have cell : (if e.hash ≠ noHash then (s.unlist id).invalidate e.hash else s.unlist id).flows =
      s.flows := by split_ifs <;> rfl
  unfold FlowTable.clearFlow
  dsimp only
  rw [if_neg (by simp [kind])]
  simp only [FlowTable.free, FlowTable.modifyFlow, FlowTable.setFlow, Function.update_apply, cell]
  by_cases own : k = id
  · simp [own]
  · by_cases base : k = e.baseFlow
    · subst base
      simp [own]
    · simp [own, base]

theorem clearFlow_other (kind : e.type ≠ .l2Subflow) (k : FlowId) :
    (s.clearFlow id e).flows k = if k = id then some { e with hash := noHash } else s.flows k := by
  have cell : (if e.hash ≠ noHash then (s.unlist id).invalidate e.hash else s.unlist id).flows =
      s.flows := by split_ifs <;> rfl
  unfold FlowTable.clearFlow
  dsimp only
  rw [if_pos kind]
  simp only [FlowTable.setFlow, Function.update_apply, cell]

end Clear

/-- A subflow is cleared: it leaves its bucket and its L2 flow and is freed. -/
theorem Listed.clearSubflow (listed : Listed s) {id : FlowId} {e : FlowEntry}
    (has : s.flows id = some e) (e' : FlowEntry) (kind : e.type = .l2Subflow)
    (type : e'.type = e.type) (base : e'.baseFlow = e.baseFlow) :
    Listed (s.clearFlow id e') := by
  obtain ⟨bucket, hashed, nodup, apart, table, sub, baseOf⟩ := listed
  have flows := clearFlow_sub (s := s) id e' (type.trans kind)
  rw [base] at flows
  constructor
  · intro b x member
    rw [clearFlow_foeFlow] at member
    obtain ⟨ex, hx, kind', inBucket⟩ := bucket b x (List.mem_filter.mp member).1
    have other : x ≠ id := by simpa using (List.mem_filter.mp member).2
    rw [flows]
    grind
  · intro x ex hx kind' some_
    rw [flows] at hx
    rw [clearFlow_foeFlow, List.mem_filter]
    grind
  · intro b
    rw [clearFlow_foeFlow]
    exact (nodup b).filter _
  · intro b b' x member member'
    rw [clearFlow_foeFlow] at member member'
    exact apart b b' x (List.mem_filter.mp member).1 (List.mem_filter.mp member').1
  · intro x member
    rw [clearFlow_l2Flows] at member
    rw [flows]
    grind
  · intro x ex hx y member
    rw [flows] at hx ⊢
    grind
  · intro x ex hx kind'
    rw [flows] at hx ⊢
    grind

/-- A flow of another kind is cleared and freed. -/
theorem Listed.clearL4 (listed : Listed s) {id : FlowId} {e : FlowEntry}
    (has : s.flows id = some e) (kind : e.type = .l4) : Listed ((s.clearFlow id e).free id) := by
  obtain ⟨bucket, hashed, nodup, apart, table, sub, baseOf⟩ := listed
  have flows (k : FlowId) : ((s.clearFlow id e).free id).flows k = if k = id then none else s.flows k := by
    simp only [FlowTable.free, Function.update_apply, clearFlow_other (s := s) id e (by simp [kind])]
    grind
  constructor
  · intro b x member
    change x ∈ (s.clearFlow id e).foeFlow b at member
    rw [clearFlow_foeFlow] at member
    rw [flows]
    grind
  · intro x ex hx kind' some_
    rw [flows] at hx
    change x ∈ (s.clearFlow id e).foeFlow _
    rw [clearFlow_foeFlow, List.mem_filter]
    grind
  · intro b
    change ((s.clearFlow id e).foeFlow b).Nodup
    rw [clearFlow_foeFlow]
    exact (nodup b).filter _
  · intro b b' x member member'
    change x ∈ (s.clearFlow id e).foeFlow _ at member member'
    rw [clearFlow_foeFlow] at member member'
    exact apart b b' x (List.mem_filter.mp member).1 (List.mem_filter.mp member').1
  · intro x member
    change x ∈ (s.clearFlow id e).l2Flows at member
    rw [clearFlow_l2Flows] at member
    rw [flows]
    grind
  · intro x ex hx y member
    rw [flows] at hx ⊢
    grind
  · intro x ex hx kind'
    rw [flows] at hx ⊢
    grind

/-- The lists do not depend on the hardware. -/
theorem Listed.same {s' : FlowTable} (listed : Listed s) (flows : s'.flows = s.flows)
    (foeFlow : s'.foeFlow = s.foeFlow) (l2Flows : s'.l2Flows = s.l2Flows) : Listed s' := by
  obtain ⟨bucket, hashed, nodup, apart, table, sub, baseOf⟩ := listed
  constructor <;> simpa only [flows, foeFlow, l2Flows]

theorem modifyFlow_eq {id : FlowId} {e : FlowEntry} (has : s.flows id = some e)
    (f : FlowEntry → FlowEntry) : s.modifyFlow id f = s.setFlow id (f e) := by
  rw [FlowTable.modifyFlow, FlowTable.setFlow, has, Option.map_some]

section Commit

variable {id : FlowId} (fresh : s.flows id = none)
include fresh

theorem Listed.unlisted (listed : Listed s) (b : Nat) : id ∉ s.foeFlow b := by
  intro member
  obtain ⟨e, has, -⟩ := listed.bucket b id member
  rw [fresh] at has
  exact absurd has (by simp)

theorem Listed.commitL4 (listed : Listed s) (data : FoeEntry) (b : Nat) :
    Listed ((s.setFlow id ⟨.l4, noHash, data, [], 0⟩).enlist b id) := by
  have unlisted := listed.unlisted fresh
  obtain ⟨bucket, hashed, nodup, apart, table, sub, baseOf⟩ := listed
  have foeFlow (b' : Nat) : ((s.setFlow id ⟨.l4, noHash, data, [], 0⟩).enlist b id).foeFlow b' =
      if b' = b then id :: s.foeFlow b else s.foeFlow b' := by
    simp [FlowTable.enlist, FlowTable.setFlow, Function.update_apply]
  have flows (k : FlowId) : ((s.setFlow id ⟨.l4, noHash, data, [], 0⟩).enlist b id).flows k =
      if k = id then some ⟨.l4, noHash, data, [], 0⟩ else s.flows k := by
    simp [FlowTable.enlist, FlowTable.setFlow, Function.update_apply]
  constructor
  · intro b' x member
    rw [foeFlow] at member
    rw [flows]
    grind
  · intro x ex hx kind some_
    rw [flows] at hx
    rw [foeFlow]
    grind
  · intro b'
    rw [foeFlow]
    grind
  · intro b' b'' x member member'
    rw [foeFlow] at member member'
    grind
  · intro x member
    change x ∈ s.l2Flows at member
    rw [flows]
    grind
  · intro x ex hx y member
    rw [flows] at hx ⊢
    grind
  · intro x ex hx kind
    rw [flows] at hx ⊢
    grind

theorem Listed.commitL2 (listed : Listed s) (data : FoeEntry) :
    Listed { s.setFlow id ⟨.l2, 0, data, [], 0⟩ with l2Flows := id :: s.l2Flows } := by
  obtain ⟨bucket, hashed, nodup, apart, table, sub, baseOf⟩ := listed
  have flows (k : FlowId) : (s.setFlow id ⟨.l2, 0, data, [], 0⟩).flows k =
      if k = id then some ⟨.l2, 0, data, [], 0⟩ else s.flows k := by
    simp [FlowTable.setFlow, Function.update_apply]
  constructor
  · intro b x member
    change x ∈ s.foeFlow b at member
    rw [flows]
    grind
  · intro x ex hx kind some_
    change _ = _ at hx
    rw [flows] at hx
    change x ∈ s.foeFlow _
    grind
  · exact nodup
  · exact apart
  · intro x member
    rw [flows]
    grind
  · intro x ex hx y member
    rw [flows] at hx ⊢
    grind
  · intro x ex hx kind
    rw [flows] at hx ⊢
    grind

theorem Listed.commitSubflow (listed : Listed s) {base : FlowId} {e : FlowEntry}
    (has : s.flows base = some e) (kind : e.type = .l2) (hash : UInt16) :
    Listed (((s.setFlow id ⟨.l2Subflow, hash, .zero, [], base⟩).enlist (bucketOf hash) id).modifyFlow
      base fun flow => { flow with l2Flows := id :: flow.l2Flows }) := by
  have unlisted := listed.unlisted fresh
  obtain ⟨bucket, hashed, nodup, apart, table, sub, baseOf⟩ := listed
  have ne : base ≠ id := by
    rintro rfl
    rw [has] at fresh
    exact absurd fresh (by simp)
  have before : ((s.setFlow id ⟨.l2Subflow, hash, .zero, [], base⟩).enlist (bucketOf hash) id).flows
      base = some e := by
    simp [FlowTable.enlist, FlowTable.setFlow, ne, has]
  rw [modifyFlow_eq before]
  generalize table' : ((s.setFlow id ⟨.l2Subflow, hash, .zero, [], base⟩).enlist (bucketOf hash)
    id).setFlow base { e with l2Flows := id :: e.l2Flows } = s'
  have foeFlow (b : Nat) : s'.foeFlow b =
      if b = bucketOf hash then id :: s.foeFlow b else s.foeFlow b := by
    subst table'
    simp only [FlowTable.setFlow, FlowTable.enlist, Function.update_apply]
    grind
  have flows (k : FlowId) : s'.flows k =
      if k = base then some { e with l2Flows := id :: e.l2Flows }
      else if k = id then some ⟨.l2Subflow, hash, .zero, [], base⟩ else s.flows k := by
    subst table'
    simp [FlowTable.setFlow, FlowTable.enlist, Function.update_apply]
  have l2Flows : s'.l2Flows = s.l2Flows := by
    subst table'
    rfl
  constructor
  · intro b x member
    rw [foeFlow] at member
    rw [flows]
    grind
  · intro x ex hx kind some_
    rw [flows] at hx
    rw [foeFlow]
    grind
  · intro b
    rw [foeFlow]
    grind
  · intro b b' x member member'
    rw [foeFlow] at member member'
    grind
  · intro x member
    rw [l2Flows] at member
    rw [flows]
    grind
  · intro x ex hx y member
    rw [flows] at hx ⊢
    grind
  · intro x ex hx kind'
    rw [flows] at hx ⊢
    grind

end Commit

/-- An L2 flow without subflows that is no longer in the table is freed. -/
theorem Listed.freeL2 (listed : Listed s) {id : FlowId} {e : FlowEntry} (has : s.flows id = some e)
    (kind : e.type = .l2) (alone : e.l2Flows = []) (out : id ∉ s.l2Flows) : Listed (s.free id) := by
  obtain ⟨bucket, hashed, nodup, apart, table, sub, baseOf⟩ := listed
  have flows (k : FlowId) : (s.free id).flows k = if k = id then none else s.flows k := by
    simp [FlowTable.free, Function.update_apply]
  constructor
  · intro b x member
    change x ∈ s.foeFlow b at member
    rw [flows]
    grind
  · intro x ex hx kind' some_
    rw [flows] at hx
    change x ∈ s.foeFlow _
    grind
  · exact nodup
  · exact apart
  · intro x member
    change x ∈ s.l2Flows at member
    rw [flows]
    grind
  · intro x ex hx y member
    rw [flows] at hx ⊢
    grind
  · intro x ex hx kind'
    rw [flows] at hx ⊢
    grind

end Filogic.Ppe
