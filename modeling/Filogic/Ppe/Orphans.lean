import Filogic.Ppe.Tracked

/-! The walk over a bucket, and what the bucket has to be like for it to leave no bound entry
behind. -/

namespace Filogic.Ppe

variable {s : FlowTable}

/-- A visit of the walk for an unbound slot leaves nothing behind: a flow that loses its hash, or gets
that of the slot, does not go by another bound entry; and a subflow that is passed over because the
slot has just been bound does not go by that slot. -/
def Spares (hash : UInt16) (w : FlowTable × Bool) (id : FlowId) : Prop :=
  ∀ e ∈ w.1.flows id,
    if e.type = .l2Subflow ∧ (w.1.foeTable hash).Bound then e.hash ≠ hash
    else e.hash = noHash ∨ e.hash = hash ∨ ¬(w.1.foeTable e.hash).Bound

/-- The walk has come to the flows `ids` of the bucket. -/
structure Walking (hash : UInt16) (w : FlowTable × Bool) (ids : List FlowId) : Prop where
  listed : Listed w.1
  tracked : ∀ h ≠ hash, TrackedAt w.1 h
  vacant : w.2 = false → ¬(w.1.foeTable hash).Bound
  chosen : w.2 = true → ∃ c e, w.1.flows c = some e ∧ e.type = .l4 ∧ e.hash = hash ∧ c ∉ ids ∧
    w.1.writtenFor hash = some c ∧ (w.1.foeTable hash).SameKey e.data
  rest : ∀ k, Records w.1 k hash → k ∈ ids ∨ w.2 = true ∧ w.1.writtenFor hash = some k
  inBucket : ∀ id ∈ ids, ∀ e, w.1.flows id = some e → id ∈ w.1.foeFlow (bucketOf hash)
  nodup : ids.Nodup

theorem Walking.start (listed : Listed s) (tracked : Tracked s) {hash : UInt16}
    (some_ : hash ≠ noHash) (vacant : ¬(s.foeTable hash).Bound) :
    Walking hash (s, false) (s.foeFlow (bucketOf hash)) where
  listed := listed
  tracked h _ := tracked h
  vacant _ := vacant
  chosen found := absurd found Bool.false_ne_true
  rest := by
    rintro k ⟨e, has, kind, rfl⟩
    exact .inl (listed.hashed k e has kind some_)
  inBucket id member _ _ := member
  nodup := listed.nodup _

section Visit

variable {hash : UInt16} {now : UInt32} {found : Bool} {id : FlowId} {ids : List FlowId}
  {e : FlowEntry} (walking : Walking hash (s, found) (id :: ids)) (has : s.flows id = some e)
include walking has

/-- A subflow is passed over. -/
theorem Walking.skip (apart : e.hash ≠ hash) : Walking hash (s, found) ids := by
  obtain ⟨listed, tracked, vacant, chosen, rest, inBucket, nodup⟩ := walking
  refine ⟨listed, tracked, vacant, ?_, ?_, ?_, (List.nodup_cons.mp nodup).2⟩
  · intro on
    obtain ⟨c, ec, hc, l4, own, out, more⟩ := chosen on
    exact ⟨c, ec, hc, l4, own, fun member => out (List.mem_cons_of_mem _ member), more⟩
  · rintro k ⟨ek, hk, kind, own⟩
    obtain member | last := rest k ⟨ek, hk, kind, own⟩
    · obtain rfl | member := List.mem_cons.mp member
      · exact absurd own (Option.some.inj (has.symm.trans hk) ▸ apart)
      · exact .inl member
    · exact .inr last
  · exact fun x member => inBucket x (List.mem_cons_of_mem _ member)

/-- A subflow is removed. -/
theorem Walking.remove (kind : e.type = .l2Subflow)
    (lost : e.hash = noHash ∨ e.hash = hash ∨ ¬(s.foeTable e.hash).Bound) :
    Walking hash (s.clearFlow id { e with hash := noHash }, found) ids := by
  obtain ⟨listed, tracked, vacant, chosen, rest, inBucket, nodup⟩ := walking
  have flows := clearFlow_sub (s := s) id { e with hash := noHash } kind
  have slot (h : UInt16) := clearFlow_foeTable (s := s) id { e with hash := noHash } h
  have written := clearFlow_writtenFor (s := s) id { e with hash := noHash }
  simp only [ne_eq, not_true_eq_false, false_and, if_false] at slot
  dsimp only at listed tracked vacant chosen rest inBucket flows
  refine ⟨listed.clearSubflow has _ kind rfl rfl, ?_, ?_, ?_, ?_, ?_, (List.nodup_cons.mp nodup).2⟩
  · intro h other
    refine (tracked h other).clearSubflow has kind _ rfl fun own some_ => .inr ?_
    grind
  · simpa only [slot] using vacant
  · intro on
    obtain ⟨c, ec, hc, l4, own, out, by_, same⟩ := chosen on
    have ne : c ≠ id := fun same => out (same ▸ List.mem_cons_self)
    have ne' : c ≠ e.baseFlow := by
      rintro rfl
      obtain ⟨eb, hb, member⟩ := listed.base id e has kind
      have := (listed.sub _ eb hb _ member).1
      grind
    dsimp only
    rw [written, slot]
    exact ⟨c, ec, by rw [flows, if_neg ne, if_neg ne', hc], l4, own,
      fun member => out (List.mem_cons_of_mem _ member), by_, same⟩
  · rintro k ⟨ek, hk, kind', own⟩
    dsimp only at hk ⊢
    rw [flows] at hk
    rw [written]
    have := rest k
    unfold Records at this
    cases before : s.flows k <;> grind
  · intro x member ex hx
    dsimp only at hx ⊢
    rw [flows] at hx
    rw [clearFlow_foeFlow, List.mem_filter]
    have := inBucket x (List.mem_cons_of_mem _ member)
    cases before : s.flows x <;> grind

/-- A flow that is not the one, or comes after it, loses its hash. -/
theorem Walking.lose (some_ : hash ≠ noHash)
    (lost : e.hash = noHash ∨ e.hash = hash ∨ ¬(s.foeTable e.hash).Bound) :
    Walking hash (s.setFlow id { e with hash := noHash }, found) ids := by
  obtain ⟨listed, tracked, vacant, chosen, rest, inBucket, nodup⟩ := walking
  have flows (k : FlowId) : (s.setFlow id { e with hash := noHash }).flows k =
      if k = id then some { e with hash := noHash } else s.flows k := by
    simp [FlowTable.setFlow, Function.update_apply]
  dsimp only at listed tracked vacant chosen rest inBucket
  refine ⟨?_, ?_, vacant, ?_, ?_, ?_, (List.nodup_cons.mp nodup).2⟩
  · exact listed.setFlow has _ rfl rfl rfl fun _ => .inl rfl
  · intro h other
    refine (tracked h other).reset has fun owns own => ?_
    have some_ := owns.slot
    grind
  · intro on
    obtain ⟨c, ec, hc, l4, own, out, by_, same⟩ := chosen on
    have ne : c ≠ id := fun same => out (same ▸ List.mem_cons_self)
    exact ⟨c, ec, by rw [flows, if_neg ne, hc], l4, own,
      fun member => out (List.mem_cons_of_mem _ member), by_, same⟩
  · rintro k ⟨ek, hk, kind', own⟩
    dsimp only at hk ⊢
    rw [flows] at hk
    have := rest k
    unfold Records at this
    change k ∈ ids ∨ found = true ∧ s.writtenFor hash = some k
    grind
  · intro x member ex hx
    dsimp only at hx ⊢
    rw [flows] at hx
    have := inBucket x (List.mem_cons_of_mem _ member)
    change x ∈ s.foeFlow _
    grind

/-- The first flow that matches is written to the slot. -/
theorem Walking.choose (kind : e.type = .l4) (first : found = false)
    (lost : e.hash = noHash ∨ e.hash = hash ∨ ¬(s.foeTable e.hash).Bound) :
    Walking hash ((s.setFlow id { e with hash := hash, data := e.data.stamped now }).writeFoe hash
      (e.data.stamped now) id, true) ids := by
  obtain ⟨listed, tracked, vacant, chosen, rest, inBucket, nodup⟩ := walking
  dsimp only at listed tracked vacant chosen rest inBucket
  let e' : FlowEntry := { e with hash := hash, data := e.data.stamped now }
  have flows (k : FlowId) : ((s.setFlow id e').writeFoe hash (e.data.stamped now) id).flows k =
      if k = id then some e' else s.flows k := by
    simp [FlowTable.writeFoe, FlowTable.setFlow, Function.update_apply]
  have own : ((s.setFlow id e').writeFoe hash (e.data.stamped now) id).foeTable hash =
      e.data.stamped now := by simp [FlowTable.writeFoe]
  have by_ : ((s.setFlow id e').writeFoe hash (e.data.stamped now) id).writtenFor hash = some id := by
    simp [FlowTable.writeFoe]
  refine ⟨?_, ?_, fun off => absurd off (by simp), ?_, ?_, ?_, (List.nodup_cons.mp nodup).2⟩
  · refine Listed.same ?_ (by rfl) (by rfl) (by rfl) (s := s.setFlow id e')
    exact listed.setFlow has e' rfl rfl rfl fun _ => .inr (inBucket id List.mem_cons_self e has)
  · intro h other
    refine (tracked h other).keep ?_ ?_ ?_ ?_
    · simp [FlowTable.writeFoe, FlowTable.setFlow, other]
    · simp [FlowTable.writeFoe, FlowTable.setFlow, other]
    · intro bound k ek owns hk kind' hash'
      have some_ := owns.slot
      dsimp only
      rw [flows]
      have := FoeEntry.SameKey.refl ek.data
      grind
    · rintro bound some_ k ⟨ek, hk, kind', hash'⟩
      dsimp only at hk
      rw [flows] at hk
      unfold Records
      grind
  · intro _
    refine ⟨id, e', ?_, kind, rfl, (List.nodup_cons.mp nodup).1, by_, ?_⟩
    · rw [flows, if_pos rfl]
    · rw [own]
      exact .refl _
  · rintro k ⟨ek, hk, kind', hash'⟩
    dsimp only at hk ⊢
    rw [flows] at hk
    rw [by_]
    have := rest k
    unfold Records at this
    grind
  · intro x member ex hx
    dsimp only at hx ⊢
    rw [flows] at hx
    have := inBucket x (List.mem_cons_of_mem _ member)
    change x ∈ s.foeFlow _
    grind

end Visit

/-- A flow that is not there any more is no one to visit. -/
theorem Walking.gone {hash : UInt16} {w : FlowTable × Bool} {id : FlowId} {ids : List FlowId}
    (walking : Walking hash w (id :: ids)) (none : w.1.flows id = .none) : Walking hash w ids := by
  obtain ⟨listed, tracked, vacant, chosen, rest, inBucket, nodup⟩ := walking
  refine ⟨listed, tracked, vacant, ?_, ?_, ?_, (List.nodup_cons.mp nodup).2⟩
  · intro on
    obtain ⟨c, ec, hc, l4, own, out, more⟩ := chosen on
    exact ⟨c, ec, hc, l4, own, fun member => out (List.mem_cons_of_mem _ member), more⟩
  · rintro k ⟨ek, hk, kind, own⟩
    have := rest k ⟨ek, hk, kind, own⟩
    grind
  · exact fun x member => inBucket x (List.mem_cons_of_mem _ member)

/-- One visit, in the order of the tests in the source. -/
theorem Walking.visit {hash : UInt16} {now : UInt32} {w : FlowTable × Bool} {id : FlowId}
    {ids : List FlowId} (walking : Walking hash w (id :: ids)) (some_ : hash ≠ noHash)
    (keeps : Spares hash w id) : Walking hash (FlowTable.checkFlow hash now w id) ids := by
  obtain ⟨s, found⟩ := w
  cases has : s.flows id with
  | none =>
    rw [FlowTable.checkFlow]
    simp only [has]
    exact walking.gone has
  | some e =>
    have kept := keeps e has
    have notL2 : e.type ≠ .l2 := by
      obtain ⟨e', has', kind, -⟩ := walking.listed.bucket _ id
        (walking.inBucket id List.mem_cons_self e has)
      exact Option.some.inj (has.symm.trans has') ▸ kind
    rw [FlowTable.checkFlow]
    simp only [has]
    by_cases subflow : e.type = .l2Subflow
    · rw [if_pos subflow]
      by_cases bound : (s.foeTable hash).Bound
      · rw [if_pos ⟨subflow, bound⟩] at kept
        rw [if_pos bound]
        exact walking.skip has kept
      · rw [if_neg (fun both => bound both.2)] at kept
        rw [if_neg bound]
        exact walking.remove has subflow kept
    · have l4 : e.type = .l4 := by
        cases kind : e.type with
        | l4 => rfl
        | l2 => exact absurd kind notL2
        | l2Subflow => exact absurd kind subflow
      rw [if_neg (fun both => subflow both.1)] at kept
      rw [if_neg subflow]
      by_cases other : found = true ∨ (s.foeTable hash).matchesFlow e.data = false
      · rw [if_pos other]
        exact walking.lose has some_ kept
      · rw [if_neg other]
        exact walking.choose has l4 (by simpa using fun on => other (.inl on)) kept

section Before

variable {hash : UInt16} {now : UInt32} {w : FlowTable × Bool} {id : FlowId} {before ids : List FlowId}

/-- The flow that a walk for the slot takes. -/
def FlowTable.taken (s : FlowTable) (hash : UInt16) (ids : List FlowId) : Option FlowEntry :=
  (ids.filterMap s.flows).find? fun e =>
    decide (e.type ≠ .l2Subflow) && (s.foeTable hash).matchesFlow e.data

/-- Before the walk for an unbound slot: a flow of the bucket does not go by another bound entry; and
a subflow that comes after a flow that the slot will be bound to does not go by that slot. -/
def KeepsFlow (s : FlowTable) (hash : UInt16) (before : List FlowId) (e : FlowEntry) : Prop :=
  if e.type = .l2Subflow ∧ (s.taken hash before).any (fun first => decide first.data.Bound) then
    e.hash ≠ hash
  else e.hash = noHash ∨ e.hash = hash ∨ ¬(s.foeTable e.hash).Bound

instance (before : List FlowId) (e : FlowEntry) : Decidable (KeepsFlow s hash before e) :=
  inferInstanceAs (Decidable (if e.type = .l2Subflow ∧ _ then _ else _))

/-- The flows of a bucket, behind those of `before`. -/
def KeepsFlows (s : FlowTable) (hash : UInt16) : List FlowId → List FlowId → Prop
  | _, [] => True
  | before, id :: ids =>
    (∀ e ∈ s.flows id, KeepsFlow s hash before e) ∧ KeepsFlows s hash (before ++ [id]) ids

instance decidableKeepsFlows (s : FlowTable) (hash : UInt16) :
    ∀ before ids, Decidable (KeepsFlows s hash before ids)
  | _, [] => isTrue trivial
  | before, id :: ids =>
      have := decidableKeepsFlows s hash (before ++ [id]) ids
      inferInstanceAs (Decidable ((∀ e ∈ s.flows id, KeepsFlow s hash before e) ∧ _))

/-- How far a walk has come from the state before it, with `before` behind it and `ids` to go. -/
structure Since (s : FlowTable) (hash : UInt16) (now : UInt32) (w : FlowTable × Bool)
    (before ids : List FlowId) : Prop where
  entries : ∀ h ≠ hash, w.1.foeTable h = s.foeTable h
  coming : ∀ id ∈ ids, w.1.flows id = s.flows id
  found : w.2 = (s.taken hash before).isSome
  slot : w.1.foeTable hash = (s.taken hash before).elim (s.foeTable hash) fun e => e.data.stamped now

theorem Since.start : Since s hash now (s, false) [] ids :=
  ⟨fun _ _ => rfl, fun _ _ => rfl, rfl, rfl⟩

theorem taken_append (id : FlowId) :
    s.taken hash (before ++ [id]) = (s.taken hash before).or ((s.flows id).filter fun e =>
      decide (e.type ≠ .l2Subflow) && (s.foeTable hash).matchesFlow e.data) := by
  rw [FlowTable.taken, List.filterMap_append, List.find?_append, FlowTable.taken]
  cases has : s.flows id with
  | none => simp [has]
  | some e =>
    rw [List.filterMap_cons, has, List.filterMap_nil, List.find?_singleton, Option.filter]

theorem stamped_bound (data : FoeEntry) (now : UInt32) : (data.stamped now).Bound ↔ data.Bound := by
  have same : (data.stamped now).state = data.state := by
    rw [FoeEntry.state, FoeEntry.state, FoeEntry.stamped, FoeEntry.setIb1,
      masked_other _ _ _ _ (by decide)]
  rw [FoeEntry.Bound, same, FoeEntry.Bound]

/-- The slot is bound behind the flow that is taken, if that flow's data are. -/
theorem Since.bound (since : Since s hash now w before ids) (vacant : ¬(s.foeTable hash).Bound) :
    (w.1.foeTable hash).Bound ↔
      (s.taken hash before).any (fun first => decide first.data.Bound) = true := by
  rw [since.slot]
  cases s.taken hash before with
  | none => simpa using vacant
  | some first => simpa using stamped_bound first.data now

theorem Since.spares (since : Since s hash now w before (id :: ids))
    (vacant : ¬(s.foeTable hash).Bound) (keeps : ∀ e ∈ s.flows id, KeepsFlow s hash before e) :
    Spares hash w id := by
  intro e has
  rw [since.coming id List.mem_cons_self] at has
  have kept := keeps e has
  simp only [KeepsFlow, ← since.bound vacant] at kept
  split_ifs at kept ⊢
  · exact kept
  · obtain none | own | unbound := kept
    · exact .inl none
    · exact .inr (.inl own)
    · by_cases own : e.hash = hash
      · exact .inr (.inl own)
      · exact .inr (.inr (since.entries _ own ▸ unbound))

/-- The walk goes on with the same slot and without a flow taken. -/
theorem Since.pass (since : Since s hash now w before (id :: ids)) {w' : FlowTable × Bool}
    (entries : w'.1.foeTable = w.1.foeTable) (found : w'.2 = w.2)
    (coming : ∀ k ∈ ids, w'.1.flows k = w.1.flows k)
    (untaken : s.taken hash (before ++ [id]) = s.taken hash before) :
    Since s hash now w' (before ++ [id]) ids where
  entries h other := by rw [entries, since.entries h other]
  coming k member := by rw [coming k member, since.coming k (List.mem_cons_of_mem _ member)]
  found := by rw [found, untaken, since.found]
  slot := by rw [entries, untaken, since.slot]

theorem Since.visit (since : Since s hash now w before (id :: ids))
    (walking : Walking hash w (id :: ids)) :
    Since s hash now (FlowTable.checkFlow hash now w id) (before ++ [id]) ids := by
  obtain ⟨out, -⟩ := List.nodup_cons.mp walking.nodup
  have here := since.coming id List.mem_cons_self
  have taken : s.taken hash (before ++ [id]) = _ := taken_append id
  rw [FlowTable.checkFlow]
  cases has : w.1.flows id with
  | none =>
    rw [← here, has, Option.filter_none, Option.or_none] at taken
    exact since.pass rfl rfl (fun _ _ => rfl) taken
  | some e =>
    rw [← here, has] at taken
    dsimp only
    by_cases subflow : e.type = .l2Subflow
    · rw [Option.filter_some, if_neg (by simp [subflow]), Option.or_none] at taken
      rw [if_pos subflow]
      split_ifs with bound
      · exact since.pass rfl rfl (fun _ _ => rfl) taken
      · refine since.pass ?_ (by rfl) ?_ taken
        · funext h
          rw [clearFlow_foeTable, if_neg (by simp)]
        · intro k member
          have ne : k ≠ id := fun same => out (same ▸ member)
          have notBase : k ≠ e.baseFlow := by
            rintro rfl
            obtain ⟨eb, hb, sub⟩ := walking.listed.base id e has subflow
            obtain ⟨eb', hb', kind, -⟩ := walking.listed.bucket _ _
              (walking.inBucket _ (List.mem_cons_of_mem _ member) eb hb)
            obtain rfl := Option.some.inj (hb.symm.trans hb')
            exact kind (walking.listed.sub _ eb hb _ sub).1
          rw [clearFlow_sub _ { e with hash := noHash } subflow, if_neg ne, if_neg notBase]
    · rw [if_neg subflow]
      have others (e' : FlowEntry) (k : FlowId) (member : k ∈ ids) :
          (w.1.setFlow id e').flows k = w.1.flows k := by
        have ne : k ≠ id := fun same => out (same ▸ member)
        simp [FlowTable.setFlow, ne]
      cases first : s.taken hash before with
      | some earlier =>
        have found := since.found
        rw [first] at found taken
        rw [if_pos (.inl found)]
        exact since.pass rfl rfl (others _) (taken.trans first.symm)
      | none =>
        have found := since.found
        have slot := since.slot
        rw [first] at found slot taken
        rw [Option.none_or, ← show w.1.foeTable hash = s.foeTable hash from slot] at taken
        by_cases match_ : (w.1.foeTable hash).matchesFlow e.data
        · rw [if_neg (by simpa [match_] using found)]
          rw [Option.filter_some, if_pos (by simp [subflow, match_])] at taken
          constructor
          · intro h other
            rw [← since.entries h other]
            simp [FlowTable.writeFoe, FlowTable.setFlow, other]
          · intro k member
            rw [← since.coming k (List.mem_cons_of_mem _ member)]
            exact others _ k member
          · rw [taken]
            rfl
          · rw [taken]
            simp [FlowTable.writeFoe]
        · rw [if_pos (.inr (by simpa using match_))]
          rw [Option.filter_some, if_neg (by simp [match_])] at taken
          exact since.pass rfl rfl (others _) (taken.trans first.symm)

theorem Walking.run (walking : Walking hash w ids) (since : Since s hash now w before ids)
    (some_ : hash ≠ noHash) (vacant : ¬(s.foeTable hash).Bound)
    (keeps : KeepsFlows s hash before ids) : Walking hash (ids.foldl (FlowTable.checkFlow hash now) w) [] := by
  induction ids generalizing w before with
  | nil => exact walking
  | cons id ids ih =>
    have spares := since.spares vacant keeps.1
    exact ih (walking.visit some_ spares) (since.visit walking) keeps.2

end Before

/-- Behind the walk every entry is tracked, and an entry that no flow was found for is no flow's. -/
theorem Walking.done {hash : UInt16} {w : FlowTable × Bool} (walking : Walking hash w [])
    (some_ : hash ≠ noHash) :
    Tracked w.1 ∧ (w.2 = false → ∀ k, ¬Records w.1 k hash) := by
  constructor
  · intro h
    by_cases other : h = hash
    · subst other
      cases found : w.2 with
      | false => exact .unbound (walking.vacant found)
      | true =>
        obtain ⟨c, e, has, l4, own, -, by_, same⟩ := walking.chosen found
        intro id ownedBy bound
        obtain rfl := Option.some.inj (by_.symm.trans ownedBy)
        refine ⟨some_, fun k => ⟨fun record => ?_, ?_⟩, ?_⟩
        · have last := (walking.rest k record).resolve_left (by simp)
          exact (Option.some.inj (by_.symm.trans last.2)).symm
        · rintro rfl
          exact ⟨e, has, by simp [l4], own⟩
        · intro e' has' _
          exact Option.some.inj (has.symm.trans has') ▸ same
    · exact walking.tracked h other
  · intro none k record
    obtain member | last := walking.rest k record
    · simp at member
    · rw [none] at last
      exact absurd last.1 Bool.false_ne_true

section Subflow

/-- A new subflow is written to an entry that is no flow's. -/
theorem Tracked.commitSubflow (tracked : Tracked s) {id sub : FlowId} {e : FlowEntry}
    (has : s.flows id = some e) (kind : e.type = .l2) (fresh : s.flows sub = none) {hash : UInt16}
    (some_ : hash ≠ noHash) (none : ∀ k, ¬Records s k hash) (now : UInt32) :
    Tracked (s.commitSubflow hash now id e (some sub)) := by
  have ne : id ≠ sub := by
    rintro rfl
    rw [has] at fresh
    exact absurd fresh (by simp)
  let foe := ((s.foeTable hash).subflow e.data).stamped now
  have flows (k : FlowId) : (s.commitSubflow hash now id e (some sub)).flows k =
      if k = id then some { e with l2Flows := sub :: e.l2Flows }
      else if k = sub then some ⟨.l2Subflow, hash, .zero, [], id⟩ else s.flows k := by
    simp only [FlowTable.commitSubflow, FlowTable.writeFoe, FlowTable.modifyFlow, FlowTable.enlist,
      FlowTable.setFlow, Function.update_apply]
    grind
  intro h
  by_cases other : h = hash
  · subst other
    intro owner ownedBy bound
    have by_ : (s.commitSubflow h now id e (some sub)).writtenFor h = some sub := by
      simp [FlowTable.commitSubflow, FlowTable.writeFoe]
    obtain rfl := Option.some.inj (by_.symm.trans ownedBy)
    refine ⟨some_, fun k => ?_, ?_⟩
    · have free := none k
      unfold Records at free ⊢
      rw [flows]
      grind
    · intro e' has' l4
      rw [flows] at has'
      grind
  · refine (tracked h).keep ?_ ?_ ?_ ?_
    · simp [FlowTable.commitSubflow, FlowTable.writeFoe, FlowTable.modifyFlow, FlowTable.enlist,
        FlowTable.setFlow, other]
    · simp [FlowTable.commitSubflow, FlowTable.writeFoe, FlowTable.modifyFlow, FlowTable.enlist,
        FlowTable.setFlow, other]
    · intro bound k ek owns hk kind' hash'
      have some_ := owns.slot
      rw [flows]
      have := FoeEntry.SameKey.refl ek.data
      grind
    · rintro bound some_ k ⟨ek, hk, kind', hash'⟩
      rw [flows] at hk
      unfold Records
      grind

end Subflow

end Filogic.Ppe
