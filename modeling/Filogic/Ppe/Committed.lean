import Filogic.Ppe.Cleared

/-! Which flows are committed: what packets and the hardware do leaves them as they are, and a clear
takes one of them away. -/

namespace Filogic.Ppe

variable {s t : FlowTable} {id : FlowId}

/-- A flow of a user, on the list of its kind. -/
def Committed (s : FlowTable) (id : FlowId) : Prop :=
  ∃ e, s.flows id = some e ∧
    (e.type = .l4 ∧ (∃ b, id ∈ s.foeFlow b) ∨ e.type = .l2 ∧ id ∈ s.l2Flows)

theorem Committed.hasUser (committed : Committed s id) : s.hasUser id = true := by
  obtain ⟨e, has, kind⟩ := committed
  have user : e.type ≠ .l2Subflow := by
    obtain ⟨l4, -⟩ | ⟨l2, -⟩ := kind
    · simp [l4]
    · simp [l2]
  simp [FlowTable.hasUser, has, user]

theorem not_committed (fresh : s.flows id = none) : ¬Committed s id := by
  rintro ⟨e, has, -⟩
  rw [fresh] at has
  exact absurd has (by simp)

/-- The lists of `t` are right, and the committed flows those of `s`. -/
structure KeepsUsers (s t : FlowTable) : Prop where
  listed : Listed t
  committed : ∀ k, Committed t k ↔ Committed s k

theorem KeepsUsers.refl (listed : Listed s) : KeepsUsers s s := ⟨listed, fun _ => Iff.rfl⟩

theorem KeepsUsers.trans {u : FlowTable} (one : KeepsUsers s t) (two : KeepsUsers t u) :
    KeepsUsers s u := ⟨two.listed, fun k => (two.committed k).trans (one.committed k)⟩

section Steps

variable {e : FlowEntry}

theorem committed_setFlow (has : s.flows id = some e) (e' : FlowEntry) (type : e'.type = e.type)
    (k : FlowId) : Committed (s.setFlow id e') k ↔ Committed s k := by
  simp only [Committed, FlowTable.setFlow, Function.update_apply]
  by_cases own : k = id
  · subst own
    simp [has, type]
  · simp [own]

theorem committed_clearSubflow (has : s.flows id = some e) (kind : e.type = .l2Subflow)
    (e' : FlowEntry) (type : e'.type = e.type) (k : FlowId) :
    Committed (s.clearFlow id e') k ↔ Committed s k := by
  unfold Committed
  simp only [clearFlow_foeFlow, clearFlow_l2Flows, clearFlow_sub id e' (type.trans kind)]
  by_cases own : k = id
  · subst own
    simp [has, kind]
  · by_cases base : k = e'.baseFlow
    · subst base
      cases before : s.flows e'.baseFlow <;> simp [own]
    · simp [own, base]

theorem committed_same (flows : t.flows = s.flows) (foeFlow : t.foeFlow = s.foeFlow)
    (l2Flows : t.l2Flows = s.l2Flows) (k : FlowId) : Committed t k ↔ Committed s k := by
  simp only [Committed, flows, foeFlow, l2Flows]

theorem KeepsUsers.same (listed : Listed s) (flows : t.flows = s.flows)
    (foeFlow : t.foeFlow = s.foeFlow) (l2Flows : t.l2Flows = s.l2Flows) : KeepsUsers s t :=
  ⟨listed.same flows foeFlow l2Flows, committed_same flows foeFlow l2Flows⟩

theorem KeepsUsers.setFlow (listed : Listed s) (has : s.flows id = some e) (e' : FlowEntry)
    (type : e'.type = e.type) (subs : e'.l2Flows = e.l2Flows) (base : e'.baseFlow = e.baseFlow)
    (hash : e.type ≠ .l2 → e'.hash = noHash ∨ id ∈ s.foeFlow (bucketOf e'.hash)) :
    KeepsUsers s (s.setFlow id e') :=
  ⟨listed.setFlow has e' type subs base hash, committed_setFlow has e' type⟩

theorem KeepsUsers.setData (listed : Listed s) (has : s.flows id = some e) (data : FoeEntry) :
    KeepsUsers s (s.setFlow id { e with data := data }) := by
  apply KeepsUsers.setFlow listed has { e with data := data } rfl rfl rfl
  intro kind
  by_cases none : e.hash = noHash
  · exact .inl none
  · exact .inr (listed.hashed id e has kind none)

theorem KeepsUsers.clearSubflow (listed : Listed s) (has : s.flows id = some e)
    (kind : e.type = .l2Subflow) (e' : FlowEntry) (type : e'.type = e.type)
    (base : e'.baseFlow = e.baseFlow) : KeepsUsers s (s.clearFlow id e') :=
  ⟨listed.clearSubflow has e' kind type base, committed_clearSubflow has kind e' type⟩

end Steps

section Idle

variable {now : UInt32}

theorem Listed.onlySubflows (listed : Listed s) {e : FlowEntry} (has : s.flows id = some e) :
    OnlySubflows s id e.l2Flows := by
  intro x member ex hx
  obtain ⟨-, e', has', kind, base⟩ := listed.sub id e has x member
  obtain rfl := Option.some.inj (hx.symm.trans has')
  exact ⟨kind, base⟩

theorem KeepsUsers.updateSubflows (w : FlowTable × Int) {ids : List FlowId} (listed : Listed w.1)
    (only : OnlySubflows w.1 id ids) (isL2 : ∀ e, w.1.flows id = some e → e.type = .l2) :
    KeepsUsers w.1 (ids.foldl (FlowTable.updateSubflow now id) w).1 := by
  induction ids generalizing w with
  | nil => exact .refl listed
  | cons cur ids ih =>
    have first : KeepsUsers w.1 (FlowTable.updateSubflow now id w cur).1 := by
      obtain stay | ⟨entry, found, -, gone⟩ | ⟨e, data, has, set⟩ := updateSubflow_cases w cur
      · rw [stay]
        exact .refl listed
      · rw [gone]
        obtain ⟨kind, -⟩ := only cur List.mem_cons_self entry found
        exact .clearSubflow listed found kind _ rfl rfl
      · rw [set]
        exact .setData listed has data
    obtain ⟨only', isL2'⟩ := only.update isL2
    exact first.trans (ih _ first.listed only' isL2')

theorem KeepsUsers.idle (listed : Listed s) : KeepsUsers s (s.foeEntryIdleTime now id).1 := by
  cases has : s.flows id with
  | none =>
    simp only [FlowTable.foeEntryIdleTime, FlowTable.update, has]
    exact .refl listed
  | some e =>
    simp only [FlowTable.foeEntryIdleTime, FlowTable.update, has]
    split_ifs with l2 none keeps
    · apply KeepsUsers.updateSubflows (s, idleTime now e.data.ib1) listed (listed.onlySubflows has)
      intro e' has'
      exact Option.some.inj (has.symm.trans has') ▸ l2
    · exact .refl listed
    · exact .setData listed has _
    · exact .setFlow listed has _ rfl rfl rfl fun _ => .inl rfl

end Idle

section Check

variable {hash : UInt16} {now : UInt32}

/-- One flow of the walk over a bucket; the flows behind it stay in the bucket. -/
theorem KeepsUsers.checkFlow (now : UInt32) {w : FlowTable × Bool} {ids : List FlowId}
    (listed : Listed w.1)
    (distinct : (id :: ids).Nodup) (inBucket : ∀ x ∈ id :: ids, x ∈ w.1.foeFlow (bucketOf hash)) :
    KeepsUsers w.1 (FlowTable.checkFlow hash now w id).1 ∧
      ∀ x ∈ ids, x ∈ (FlowTable.checkFlow hash now w id).1.foeFlow (bucketOf hash) := by
  have behind (x : FlowId) (member : x ∈ ids) : x ∈ w.1.foeFlow (bucketOf hash) :=
    inBucket x (List.mem_cons_of_mem _ member)
  rw [FlowTable.checkFlow]
  cases has : w.1.flows id with
  | none => exact ⟨.refl listed, behind⟩
  | some e =>
    dsimp only
    split_ifs with kind bound passed
    · exact ⟨.refl listed, behind⟩
    · refine ⟨.clearSubflow listed has kind _ rfl rfl, fun x member => ?_⟩
      rw [clearFlow_foeFlow, List.mem_filter]
      have other : x ≠ id := fun same => (List.nodup_cons.mp distinct).1 (same ▸ member)
      exact ⟨behind x member, by simpa using other⟩
    · exact ⟨.setFlow listed has _ rfl rfl rfl fun _ => .inl rfl, behind⟩
    · have placed : KeepsUsers w.1 (w.1.setFlow id
          { e with hash := hash, data := e.data.stamped now }) :=
        .setFlow listed has _ rfl rfl rfl fun _ => .inr (inBucket id List.mem_cons_self)
      exact ⟨placed.trans (.same placed.listed rfl rfl rfl), behind⟩

theorem KeepsUsers.walk (listed : Listed s) : KeepsUsers s (s.walk hash now).1 := by
  have fold (ids : List FlowId) : ∀ w : FlowTable × Bool, Listed w.1 → ids.Nodup →
      (∀ x ∈ ids, x ∈ w.1.foeFlow (bucketOf hash)) →
      KeepsUsers w.1 (ids.foldl (FlowTable.checkFlow hash now) w).1 := by
    induction ids with
    | nil => exact fun w listed _ _ => .refl listed
    | cons id ids ih =>
      intro w listed distinct inBucket
      obtain ⟨first, behind⟩ := KeepsUsers.checkFlow now listed distinct inBucket
      exact first.trans (ih _ first.listed distinct.tail behind)
  exact fold _ (s, false) listed (listed.nodup _) fun x member => member

/-- A new subflow joins the lists; the committed flows are as before. -/
theorem KeepsUsers.commitSubflow (listed : Listed s) {e : FlowEntry} (has : s.flows id = some e)
    (kind : e.type = .l2) (fresh : Option FlowId) :
    KeepsUsers s (s.commitSubflow hash now id e (fresh.filter fun sub => (s.flows sub).isNone)) := by
  cases given : fresh.filter fun sub => (s.flows sub).isNone with
  | none => exact .refl listed
  | some sub =>
    have unused : s.flows sub = none := by
      simpa using (Option.filter_eq_some_iff.mp given).2
    refine ⟨(listed.commitSubflow unused has kind hash).same rfl rfl rfl, fun k => ?_⟩
    have ne : id ≠ sub := by
      rintro rfl
      rw [has] at unused
      exact absurd unused (by simp)
    simp only [Committed, FlowTable.commitSubflow, FlowTable.writeFoe, FlowTable.modifyFlow,
      FlowTable.enlist, FlowTable.setFlow, Function.update_apply]
    grind

theorem KeepsUsers.check (listed : Listed s) (netDsa : Bool) (skb : Option Skb)
    (fresh : Option FlowId) : KeepsUsers s (s.checkSkb netDsa skb hash now fresh) := by
  rw [FlowTable.checkSkb]
  split_ifs with refused
  · exact .refl listed
  · have walked : KeepsUsers s (s.walk hash now).1 := .walk listed
    generalize s.walk hash now = w at walked ⊢
    obtain ⟨s', found⟩ := w
    dsimp only at walked ⊢
    split_ifs
    · exact walked
    · cases looked : skb.bind fun skb => (skb.vlan netDsa).bind (s'.lookupL2 skb) with
      | none => exact walked
      | some id =>
        obtain ⟨_, -, named⟩ := Option.bind_eq_some_iff.mp looked
        obtain ⟨_, -, member⟩ := Option.bind_eq_some_iff.mp named
        obtain ⟨e, has, kind⟩ := walked.listed.table id (List.mem_of_find?_eq_some member)
        dsimp only
        rw [has]
        exact walked.trans (.commitSubflow walked.listed has kind fresh)

end Check

section Clear

/-- The table without the record of what was written for which flow. -/
def FlowTable.forget (s : FlowTable) : FlowTable := { s with writtenFor := fun _ => none }

theorem forget_clearFlow (e : FlowEntry) :
    s.forget.clearFlow id e = (s.clearFlow id e).forget := by
  unfold FlowTable.clearFlow
  dsimp only
  split_ifs <;> rfl

theorem forget_clearSubflows (ids : List FlowId) :
    ids.foldl FlowTable.clearSubflow s.forget = (ids.foldl FlowTable.clearSubflow s).forget := by
  induction ids generalizing s with
  | nil => rfl
  | cons x ids ih =>
    have first : s.forget.clearSubflow x = (s.clearSubflow x).forget := by
      simp only [FlowTable.clearSubflow, show s.forget.flows = s.flows from rfl]
      cases s.flows x with
      | none => rfl
      | some e => exact forget_clearFlow e
    rw [List.foldl_cons, List.foldl_cons, first, ih]

theorem forget_clear : s.forget.clear id = (s.clear id).forget := by
  simp only [FlowTable.clear, FlowTable.foeEntryClear, show s.forget.flows = s.flows from rfl]
  cases s.flows id with
  | none => rfl
  | some e =>
    dsimp only
    split_ifs
    · exact congrArg (FlowTable.free · id) (forget_clearSubflows (s :=
        { s with l2Flows := s.l2Flows.filter (· ≠ id) }) e.l2Flows)
    · exact congrArg (FlowTable.free · id) (forget_clearFlow e)

/-- Nothing is written for a flow where the record is lost, so a clear needs only the lists. -/
theorem Listed.clear (listed : Listed s) (user : s.hasUser id = true) :
    Listed (s.clear id) ∧ (s.clear id).flows id = none := by
  have sound : Sound s.forget := ⟨listed.same rfl rfl rfl, fun h k by_ => absurd by_ (by simp [FlowTable.forget])⟩
  obtain ⟨cleared, gone⟩ := sound.clear user
  have none := gone id (.inl rfl)
  rw [forget_clear] at cleared none
  exact ⟨cleared.listed.same rfl rfl rfl, none⟩

theorem committed_clearSubflows {ids : List FlowId} (only : OnlySubflows s id ids) (k : FlowId) :
    Committed (ids.foldl FlowTable.clearSubflow s) k ↔ Committed s k := by
  induction ids generalizing s with
  | nil => exact Iff.rfl
  | cons x ids ih =>
    rw [List.foldl_cons, FlowTable.clearSubflow]
    cases has : s.flows x with
    | none => exact ih only.tail
    | some e =>
      obtain ⟨kind, -⟩ := only x List.mem_cons_self e has
      exact (ih (only.tail.clearSub e kind)).trans (committed_clearSubflow has kind e rfl k)

/-- A clear takes the flow from the committed ones, and no other. -/
theorem committed_clear (listed : Listed s) (user : s.hasUser id = true) (k : FlowId) :
    Committed (s.clear id) k ↔ Committed s k ∧ k ≠ id := by
  cases has : s.flows id with
  | none => simp [FlowTable.hasUser, has] at user
  | some e =>
    have notSub : e.type ≠ .l2Subflow := by simpa [FlowTable.hasUser, has] using user
    have freed (t : FlowTable) : Committed (t.free id) k ↔ Committed t k ∧ k ≠ id := by
      simp only [Committed, FlowTable.free, Function.update_apply]
      by_cases own : k = id <;> simp [own]
    simp only [FlowTable.clear, FlowTable.foeEntryClear, has, freed, and_congr_left_iff]
    intro other
    split_ifs with l2
    · have only : OnlySubflows { s with l2Flows := s.l2Flows.filter (· ≠ id) } id e.l2Flows :=
        listed.onlySubflows has
      rw [committed_clearSubflows only]
      simp [Committed, other]
    · unfold Committed
      simp [clearFlow_foeFlow, clearFlow_l2Flows, clearFlow_other id e notSub, other]

end Clear

section Commit

variable (data : FoeEntry)

/-- A new flow is committed beside the others. -/
theorem Listed.commit (listed : Listed s) (fresh : s.flows id = none) :
    Listed (s.commit id data true) ∧
      ∀ k, Committed (s.commit id data true) k ↔ k = id ∨ Committed s k := by
  rw [FlowTable.commit, if_pos rfl]
  split_ifs with bridge
  · refine ⟨listed.commitL2 fresh data, fun k => ?_⟩
    simp only [Committed, FlowTable.setFlow, Function.update_apply]
    by_cases own : k = id <;> simp [own]
  · refine ⟨listed.commitL4 fresh data _, fun k => ?_⟩
    simp only [Committed, FlowTable.setFlow, FlowTable.enlist, Function.update_apply]
    by_cases own : k = id
    · have placed : ∃ b, k ∈ if b = data.hashEntry.toNat / 4 then
          id :: s.foeFlow (data.hashEntry.toNat / 4) else s.foeFlow b :=
        ⟨data.hashEntry.toNat / 4, by simp [own]⟩
      simpa [own] using placed
    · have behind (b : Nat) : (k ∈ if b = data.hashEntry.toNat / 4 then
          id :: s.foeFlow (data.hashEntry.toNat / 4) else s.foeFlow b) ↔ k ∈ s.foeFlow b := by
        split_ifs with here
        · simp [own, here]
        · exact Iff.rfl
      simp [own, behind]

attribute [ext] FlowTable

/-- A flow that is committed and cleared at once leaves everything as it was. -/
theorem commit_clear (listed : Listed s) (fresh : s.flows id = none) :
    (s.commit id data true).clear id = s := by
  have freed (e : FlowEntry) :
      Function.update (Function.update s.flows id (some e)) id none = s.flows := by
    rw [Function.update_idem, ← fresh, Function.update_eq_self]
  rw [FlowTable.commit, if_pos rfl]
  split_ifs with bridge
  · have out : id ∉ s.l2Flows := by
      intro member
      obtain ⟨e, has, -⟩ := listed.table id member
      rw [fresh] at has
      exact absurd has (by simp)
    have kept : (id :: s.l2Flows).filter (· ≠ id) = s.l2Flows := by
      rw [List.filter_cons_of_neg (by simp), List.filter_eq_self]
      exact fun x member => decide_eq_true fun same => out (same ▸ member)
    simp only [FlowTable.clear, FlowTable.foeEntryClear, FlowTable.setFlow, Function.update_self,
      if_pos, List.foldl_nil, kept, FlowTable.free]
    rw [freed]
  · have kept (b : Nat) : ((Function.update s.foeFlow (data.hashEntry.toNat / 4)
        (id :: s.foeFlow (data.hashEntry.toNat / 4))) b).filter (· ≠ id) = s.foeFlow b := by
      have alone : (s.foeFlow b).filter (· ≠ id) = s.foeFlow b := by
        rw [List.filter_eq_self]
        intro x member
        have other : x ≠ id := by
          rintro rfl
          exact listed.unlisted fresh b member
        simpa using other
      rw [Function.update_apply]
      split_ifs with here
      · rw [← here, List.filter_cons_of_neg (by simp), alone]
      · exact alone
    let e : FlowEntry := ⟨.l4, noHash, data, [], 0⟩
    let t := (s.setFlow id e).enlist (data.hashEntry.toNat / 4) id
    change t.clear id = s
    have has : t.flows id = some e := Function.update_self ..
    rw [FlowTable.clear, FlowTable.foeEntryClear, has]
    change (t.clearFlow id e).free id = s
    apply FlowTable.ext
    · funext h
      exact (clearFlow_foeTable (s := t) id e h).trans (if_neg fun own => own.1 rfl)
    · funext b
      exact (clearFlow_foeFlow (s := t) id e b).trans (kept b)
    · exact clearFlow_l2Flows (s := t) id e
    · rw [← freed e]
      funext k
      change Function.update (t.clearFlow id e).flows id none k = _
      rw [Function.update_apply, Function.update_apply, clearFlow_other (s := t) id e (by simp [e])]
      split_ifs
      · rfl
      · rfl
    · exact clearFlow_writtenFor (s := t) id e

end Commit

end Filogic.Ppe
