import Filogic.Ppe.Replace

/-! Flow offload is all or nothing in exactly the runs whose calls fail where the way back undoes what
was taken. -/

namespace Filogic.Ppe.Replace
open Lib

section Spec

/-- The flow count of a WED, and the live flows that go to the Wi-Fi device behind it. -/
def cellCount (cell : Option Hw) : UInt32 := (cell.map Hw.numFlows).getD 0

def Eth.numFlows (eth : Eth) (i : Nat) : UInt32 := cellCount (eth.hw i)

def Eth.live (eth : Eth) (i : Nat) : Nat := eth.flowTable.countP fun flow => flow.wedIndex = some i

/-- Every count is that of the live flows. -/
def Counted (eth : Eth) : Prop := ∀ i, eth.numFlows i = UInt32.ofNat (eth.live i)

/-- The flow of the rule is in the table now, committed, with its reference to the Wi-Fi device. -/
def Taken (before after : Eth) (cookie : UInt64) (rule : FlowRule) : Prop :=
  ∃ offload id, check before.ppeNum rule = .ok offload ∧
    after.flowTable = ⟨cookie, id, offload.ppeIndex, offload.wedIndex⟩ :: before.flowTable ∧
    Committed (after.ppe offload.ppeIndex) id ∧
    ∀ i, after.numFlows i = before.numFlows i + if offload.wedIndex = some i then 1 else 0

/-- The table of flows, the lists of the engines and the flow counts are as they were. -/
structure Untouched (before after : Eth) : Prop where
  flowTable : after.flowTable = before.flowTable
  foeFlow : ∀ i b, (after.ppe i).foeFlow b = (before.ppe i).foeFlow b
  l2Flows : ∀ i, (after.ppe i).l2Flows = (before.ppe i).l2Flows
  numFlows : ∀ i, after.numFlows i = before.numFlows i

/-- All or nothing: 0 for a flow that is taken, an error for one that leaves no trace. -/
def ReplaceMeets (before : Eth) (cookie : UInt64) (rule : FlowRule) (ret : Int) (after : Eth) : Prop :=
  (ret = 0 ↔ Taken before after cookie rule) ∧ (ret ≠ 0 → ret < 0 ∧ Untouched before after)

/-- The flow is off the table and the lists, no other is, and its reference is given back. -/
structure Undone (flow : Flow) (before after : Eth) : Prop where
  flowTable : (flow :: after.flowTable).Perm before.flowTable
  bucket : ∀ b, flow.id ∉ (after.ppe flow.ppeIndex).foeFlow b
  l2Flows : flow.id ∉ (after.ppe flow.ppeIndex).l2Flows
  committed : ∀ j k, Committed (after.ppe j) k ↔
    Committed (before.ppe j) k ∧ ¬(j = flow.ppeIndex ∧ k = flow.id)
  numFlows : ∀ i, before.numFlows i = after.numFlows i + if flow.wedIndex = some i then 1 else 0

def DestroyMeets (before : Eth) (cookie : UInt64) (ret : Int) (after : Eth) : Prop :=
  match before.lookup cookie with
  | none => ret = enoent ∧ after = before
  | some flow => ret = 0 ∧ Undone flow before after

/-- An event keeps the promise of its call, and the counts are right behind it. -/
def Meets (netDsa : Bool) (eth : Eth) (event : Event) : Prop :=
  (match event with
    | .replace cookie rule outcome =>
      ReplaceMeets eth cookie rule (eth.replace cookie rule outcome).1
        (eth.replace cookie rule outcome).2
    | .destroy cookie => DestroyMeets eth cookie (eth.destroy cookie).1 (eth.destroy cookie).2
    | _ => True) ∧
  Counted (step netDsa eth event)

end Spec

section Condition

/-- `mtk_wed_flow_add` lets the flow pass: there is a Wi-Fi device, and it does not refuse. -/
def Admits (enable : Int) (cell : Option Hw) : Prop :=
  ∃ hw dev, cell = some hw ∧ hw.wedDev = some dev ∧
    (dev.offloadEnable = false ∨ hw.numFlows ≠ 0 ∨ 0 ≤ enable)

/-- It counts the flow: the device has `offload_enable`, which returns 0 for a first flow. -/
def Takes (enable : Int) (cell : Option Hw) : Prop :=
  ∃ hw dev, cell = some hw ∧ hw.wedDev = some dev ∧ dev.offloadEnable = true ∧
    (hw.numFlows ≠ 0 ∨ enable = 0)

/-- `mtk_wed_flow_remove` counts a flow off: there is a device, and it has `offload_disable`. -/
def Releases (cell : Option Hw) : Prop :=
  ∃ hw dev, cell = some hw ∧ hw.wedDev = some dev ∧ dev.offloadDisable = true

/-- The rule gets as far as memory for its flow. -/
structure Reached (eth : Eth) (cookie : UInt64) (rule : FlowRule) (outcome : Outcome)
    (offload : Offload) : Prop where
  new : eth.lookup cookie = none
  checked : check eth.ppeNum rule = .ok offload
  admitted : ∀ i, offload.wedIndex = some i → Admits outcome.enable (eth.hw i)

/-- When a new rule is all or nothing: what comes to memory and to the insertion of the flow finds the
count of its device as the way back will leave it, and a bridge flow is inserted. -/
def GoodReplace (eth : Eth) (cookie : UInt64) (rule : FlowRule) (outcome : Outcome) : Prop :=
  ∀ offload, Reached eth cookie rule outcome offload →
    match eth.fresh offload.ppeIndex outcome.alloc with
    | none => ∀ i, offload.wedIndex = some i → ¬Takes outcome.enable (eth.hw i)
    | some _ =>
      0 ≤ commitRet (eth.ppe offload.ppeIndex) offload.foe outcome.insertL2 ∧
      ∀ i, offload.wedIndex = some i →
        if outcome.insert < 0 then Takes outcome.enable (eth.hw i) ↔ Releases (eth.hw i)
        else Takes outcome.enable (eth.hw i)

/-- A Wi-Fi flow is destroyed while its device is there with `offload_disable`. -/
def Good (eth : Eth) : Event → Prop
  | .replace cookie rule outcome => GoodReplace eth cookie rule outcome
  | .destroy cookie =>
    ∀ flow, eth.lookup cookie = some flow → ∀ i, flow.wedIndex = some i → Releases (eth.hw i)
  | _ => True

end Condition

section Cells

variable {enable : Int} {cell : Option Hw}

theorem Takes.admits (takes : Takes enable cell) : Admits enable cell := by
  obtain ⟨hw, dev, has, attached, -, counts⟩ := takes
  exact ⟨hw, dev, has, attached, .inr (counts.imp_right ge_of_eq)⟩

theorem wedFlowAdd_admits : 0 ≤ (wedFlowAdd enable cell).1 ↔ Admits enable cell := by
  cases cell with
  | none => simp [wedFlowAdd, Admits, enodev]
  | some hw =>
    cases attached : hw.wedDev with
    | none => simp [wedFlowAdd, Admits, attached, enodev]
    | some dev =>
      simp only [wedFlowAdd, Admits, attached]
      split_ifs with without flows none <;> simp_all

theorem wedFlowAdd_count (takes : Takes enable cell) :
    cellCount (wedFlowAdd enable cell).2 = cellCount cell + 1 := by
  obtain ⟨hw, dev, rfl, attached, with_, counts⟩ := takes
  simp only [wedFlowAdd, attached]
  rw [if_neg (by simp [with_])]
  split_ifs with flows first
  · rfl
  · rfl
  · exact absurd (counts.resolve_left flows) first

theorem wedFlowAdd_same (takes : ¬Takes enable cell) : (wedFlowAdd enable cell).2 = cell := by
  cases cell with
  | none => rfl
  | some hw =>
    cases attached : hw.wedDev with
    | none => simp only [wedFlowAdd, attached]
    | some dev =>
      have counts (with_ : dev.offloadEnable = true) : ¬(hw.numFlows ≠ 0 ∨ enable = 0) :=
        fun counts => takes ⟨hw, dev, rfl, attached, with_, counts⟩
      simp only [wedFlowAdd, attached]
      split_ifs with without flows first
      · rfl
      · exact absurd (.inl flows) (counts (by simpa using without))
      · exact absurd (.inr first) (counts (by simpa using without))
      · rfl

theorem releases_wedFlowAdd : Releases (wedFlowAdd enable cell).2 ↔ Releases cell := by
  cases cell with
  | none => exact Iff.rfl
  | some hw =>
    cases attached : hw.wedDev with
    | none => simp only [wedFlowAdd, attached]
    | some dev =>
      simp only [wedFlowAdd, attached]
      split_ifs <;> simp [Releases, attached]

theorem wedFlowRemove_count (releases : Releases cell) :
    cellCount (wedFlowRemove cell) = cellCount cell - 1 := by
  obtain ⟨hw, dev, rfl, attached, with_⟩ := releases
  simp only [wedFlowRemove, attached]
  rw [if_neg (by simp [with_])]
  rfl

theorem wedFlowRemove_same (releases : ¬Releases cell) : wedFlowRemove cell = cell := by
  cases cell with
  | none => rfl
  | some hw =>
    cases attached : hw.wedDev with
    | none => simp only [wedFlowRemove, attached]
    | some dev =>
      have without : dev.offloadDisable = false := by
        by_contra with_
        exact releases ⟨hw, dev, rfl, attached, by simpa using with_⟩
      simp only [wedFlowRemove, attached, if_pos without]

end Cells

section Counts

variable (eth : Eth) (enable : Int) (w : Option Nat)

@[simp] theorem addFlow_flowTable : (eth.addFlow enable w).2.flowTable = eth.flowTable := by
  cases w <;> rfl

@[simp] theorem addFlow_ppe : (eth.addFlow enable w).2.ppe = eth.ppe := by cases w <;> rfl

@[simp] theorem removeFlow_flowTable : (eth.removeFlow w).flowTable = eth.flowTable := by
  cases w <;> rfl

@[simp] theorem removeFlow_ppe : (eth.removeFlow w).ppe = eth.ppe := by cases w <;> rfl

@[simp] theorem removeFlow_ppeNum : (eth.removeFlow w).ppeNum = eth.ppeNum := by cases w <;> rfl

/-- A Wi-Fi flow is let pass, or there is none. -/
theorem addFlow_admits : 0 ≤ (eth.addFlow enable w).1 ↔
    ∀ i, w = some i → Admits enable (eth.hw i) := by
  cases w with
  | none => simp [Eth.addFlow]
  | some i => simpa [Eth.addFlow] using wedFlowAdd_admits

theorem addFlow_same (takes : ∀ i, w = some i → ¬Takes enable (eth.hw i)) :
    (eth.addFlow enable w).2 = eth := by
  cases w with
  | none => rfl
  | some i =>
    rw [Eth.addFlow, wedFlowAdd_same (takes i rfl), Eth.setHw, Function.update_eq_self]

variable {w}

theorem addFlow_numFlows (takes : ∀ i, w = some i → Takes enable (eth.hw i)) (i : Nat) :
    (eth.addFlow enable w).2.numFlows i = eth.numFlows i + if w = some i then 1 else 0 := by
  cases w with
  | none => simp [Eth.addFlow]
  | some j =>
    by_cases own : j = i
    · subst own
      simpa [Eth.addFlow, Eth.numFlows, Eth.setHw] using wedFlowAdd_count (takes j rfl)
    · simp [Eth.addFlow, Eth.numFlows, Eth.setHw, own, Ne.symm own]

theorem removeFlow_numFlows (releases : ∀ i, w = some i → Releases (eth.hw i)) (i : Nat) :
    (eth.removeFlow w).numFlows i = eth.numFlows i - if w = some i then 1 else 0 := by
  cases w with
  | none => simp [Eth.removeFlow]
  | some j =>
    by_cases own : j = i
    · subst own
      simpa [Eth.removeFlow, Eth.numFlows, Eth.setHw] using wedFlowRemove_count (releases j rfl)
    · simp [Eth.removeFlow, Eth.numFlows, Eth.setHw, own, Ne.symm own]

theorem removeFlow_congr {after : Eth} (w : Option Nat) (hw : after.hw = eth.hw) (i : Nat) :
    (after.removeFlow w).numFlows i = (eth.removeFlow w).numFlows i := by
  cases w <;> simp only [Eth.removeFlow, Eth.numFlows, Eth.setHw, hw]

theorem removeFlow_same (releases : ∀ i, w = some i → ¬Releases (eth.hw i)) :
    eth.removeFlow w = eth := by
  cases w with
  | none => rfl
  | some i =>
    rw [Eth.removeFlow, wedFlowRemove_same (releases i rfl), Eth.setHw, Function.update_eq_self]

theorem addFlow_releases (i : Nat) :
    Releases ((eth.addFlow enable w).2.hw i) ↔ Releases (eth.hw i) := by
  cases w with
  | none => exact Iff.rfl
  | some j =>
    by_cases own : j = i
    · subst own
      simpa [Eth.addFlow, Eth.setHw] using releases_wedFlowAdd
    · simp [Eth.addFlow, Eth.setHw, Ne.symm own]

end Counts

section Course

/-- How `mtk_flow_offload_replace` may go. -/
inductive Course (eth : Eth) (cookie : UInt64) (rule : FlowRule) (outcome : Outcome) : Int → Eth → Prop
  | refused {ret : Int} (below : ret < 0)
      (early : ∀ offload, ¬Reached eth cookie rule outcome offload) :
      Course eth cookie rule outcome ret eth
  | noMemory {offload : Offload} (reached : Reached eth cookie rule outcome offload)
      (none : eth.fresh offload.ppeIndex outcome.alloc = none) :
      Course eth cookie rule outcome enomem (eth.addFlow outcome.enable offload.wedIndex).2
  | uncommitted {offload : Offload} {id : FlowId} {ret : Int}
      (reached : Reached eth cookie rule outcome offload)
      (fresh : eth.fresh offload.ppeIndex outcome.alloc = some id)
      (fails : commitRet (eth.ppe offload.ppeIndex) offload.foe outcome.insertL2 < 0)
      (above : 0 ≤ ret) :
      Course eth cookie rule outcome ret
        ((eth.addFlow outcome.enable offload.wedIndex).2.removeFlow offload.wedIndex)
  | uninserted {offload : Offload} {id : FlowId} (reached : Reached eth cookie rule outcome offload)
      (fresh : eth.fresh offload.ppeIndex outcome.alloc = some id)
      (commits : 0 ≤ commitRet (eth.ppe offload.ppeIndex) offload.foe outcome.insertL2)
      (fails : outcome.insert < 0) :
      Course eth cookie rule outcome outcome.insert
        ((eth.addFlow outcome.enable offload.wedIndex).2.removeFlow offload.wedIndex)
  | inserted {offload : Offload} {id : FlowId} (reached : Reached eth cookie rule outcome offload)
      (fresh : eth.fresh offload.ppeIndex outcome.alloc = some id)
      (commits : 0 ≤ commitRet (eth.ppe offload.ppeIndex) offload.foe outcome.insertL2)
      (goes : 0 ≤ outcome.insert) :
      Course eth cookie rule outcome 0
        { (eth.addFlow outcome.enable offload.wedIndex).2.setPpe offload.ppeIndex
            ((eth.ppe offload.ppeIndex).commit id offload.foe true) with
          flowTable := ⟨cookie, id, offload.ppeIndex, offload.wedIndex⟩ :: eth.flowTable }

variable {eth : Eth} {cookie : UInt64} {rule : FlowRule} {outcome : Outcome}

theorem fresh_unused {i : Nat} {alloc : Option FlowId} {id : FlowId}
    (fresh : eth.fresh i alloc = some id) : (eth.ppe i).flows id = none := by
  simpa using (Option.filter_eq_some_iff.mp fresh).2

theorem replace_course (listed : ∀ i, Listed (eth.ppe i)) :
    Course eth cookie rule outcome (eth.replace cookie rule outcome).1
      (eth.replace cookie rule outcome).2 := by
  rw [Eth.replace]
  cases found : eth.lookup cookie with
  | some flow =>
    have below : eexist < 0 := by decide
    exact .refused below fun offload reached => by simp [reached.new] at found
  | none =>
    rw [if_neg (by simp)]
    cases checked : check eth.ppeNum rule with
    | error err =>
      exact .refused (check_negative _ _ err checked) fun offload reached => by
        simp [reached.checked] at checked
    | ok offload =>
      dsimp only
      by_cases refuses : (eth.addFlow outcome.enable offload.wedIndex).1 < 0
      · rw [if_pos refuses]
        have early : ¬∀ i, offload.wedIndex = some i → Admits outcome.enable (eth.hw i) :=
          fun admitted => not_le.mpr refuses ((addFlow_admits ..).mpr admitted)
        have same : (eth.addFlow outcome.enable offload.wedIndex).2 = eth := by
          apply addFlow_same
          rintro i own takes
          exact early fun j other => Option.some.inj (own.symm.trans other) ▸ takes.admits
        dsimp only
        rw [same]
        refine .refused refuses fun offload' reached => early ?_
        obtain rfl := Except.ok.inj (checked.symm.trans reached.checked)
        exact reached.admitted
      · rw [if_neg refuses]
        have above := not_lt.mp refuses
        have reached : Reached eth cookie rule outcome offload :=
          ⟨found, checked, (addFlow_admits ..).mp above⟩
        have memory : (eth.addFlow outcome.enable offload.wedIndex).2.fresh offload.ppeIndex
            outcome.alloc = eth.fresh offload.ppeIndex outcome.alloc := by
          simp only [Eth.fresh, addFlow_ppe]
        rw [memory]
        cases fresh : eth.fresh offload.ppeIndex outcome.alloc with
        | none => exact .noMemory reached fresh
        | some id =>
          have unused := fresh_unused fresh
          dsimp only
          simp only [addFlow_ppe]
          by_cases fails : commitRet (eth.ppe offload.ppeIndex) offload.foe outcome.insertL2 < 0
          · rw [if_pos fails]
            exact .uncommitted reached fresh fails above
          · rw [if_neg fails]
            have new (s : FlowTable) : (((eth.addFlow outcome.enable offload.wedIndex).2.setPpe
                offload.ppeIndex s).lookup cookie) = none := by
              rw [← found]
              simp only [Eth.lookup, Eth.setPpe, addFlow_flowTable]
            have absent : rhashtableInsert (none : Option Flow).isSome outcome.insert =
                outcome.insert := rfl
            rw [new, absent]
            by_cases inserts : outcome.insert < 0
            · have back : ((eth.addFlow outcome.enable offload.wedIndex).2.setPpe offload.ppeIndex
                  ((eth.ppe offload.ppeIndex).commit id offload.foe true)).setPpe offload.ppeIndex
                  (((eth.ppe offload.ppeIndex).commit id offload.foe true).clear id) =
                  (eth.addFlow outcome.enable offload.wedIndex).2 := by
                rw [commit_clear offload.foe (listed _) unused]
                simp only [Eth.setPpe, Function.update_idem]
                rw [← addFlow_ppe eth outcome.enable offload.wedIndex, Function.update_eq_self]
              rw [if_pos inserts]
              have placed := Course.uninserted reached fresh (not_lt.mp fails) inserts
              rw [← back] at placed
              simpa only [Eth.setPpe, Function.update_self] using placed
            · rw [if_neg inserts]
              have placed := Course.inserted reached fresh (not_lt.mp fails) (not_lt.mp inserts)
              simpa only [Eth.setPpe, addFlow_flowTable] using placed

end Course

section Exact

variable {eth after : Eth} {cookie : UInt64} {rule : FlowRule} {outcome : Outcome} {ret : Int}

theorem not_taken (same : after.flowTable = eth.flowTable) : ¬Taken eth after cookie rule := by
  rintro ⟨offload, id, -, table, -⟩
  rw [same] at table
  exact absurd (congrArg List.length table) (by simp)

theorem meets_error (below : ret < 0) :
    ReplaceMeets eth cookie rule ret after ↔ Untouched eth after := by
  constructor
  · exact fun meets => (meets.2 below.ne).2
  · intro untouched
    refine ⟨⟨fun zero => absurd zero below.ne, fun taken => ?_⟩, fun _ => ⟨below, untouched⟩⟩
    exact absurd taken (not_taken untouched.flowTable)

theorem untouched_iff (flowTable : after.flowTable = eth.flowTable) (ppe : after.ppe = eth.ppe) :
    Untouched eth after ↔ ∀ i, after.numFlows i = eth.numFlows i :=
  ⟨fun untouched => untouched.numFlows, fun numFlows =>
    ⟨flowTable, fun i b => by rw [ppe], fun i => by rw [ppe], numFlows⟩⟩

section Counts

variable {enable : Int} {w : Option Nat}

theorem addFlow_untouched : (∀ i, (eth.addFlow enable w).2.numFlows i = eth.numFlows i) ↔
    ∀ i, w = some i → ¬Takes enable (eth.hw i) := by
  constructor
  · rintro same i rfl takes
    have more := addFlow_numFlows eth enable (w := some i)
      (fun j own => Option.some.inj own ▸ takes) i
    rw [same, if_pos rfl] at more
    grind
  · intro takes i
    rw [addFlow_same eth enable w takes]

/-- Back and forth leaves the counts where the flow is counted off if it was counted. -/
theorem removeFlow_untouched :
    (∀ i, ((eth.addFlow enable w).2.removeFlow w).numFlows i = eth.numFlows i) ↔
      ∀ i, w = some i → (Takes enable (eth.hw i) ↔ Releases (eth.hw i)) := by
  cases w with
  | none => simp [Eth.addFlow, Eth.removeFlow]
  | some j =>
    have only {p : Nat → Prop} (own : p j) : ∀ i, some j = some i → p i :=
      fun i same => Option.some.inj same ▸ own
    have released := addFlow_releases eth enable (w := some j) j
    by_cases takes : Takes enable (eth.hw j)
    · have forth := addFlow_numFlows eth enable (only takes)
      by_cases releases : Releases (eth.hw j)
      · have back := removeFlow_numFlows _ (only (released.mpr releases))
        refine iff_of_true (fun i => ?_) (only ⟨fun _ => releases, fun _ => takes⟩)
        rw [back, forth]
        split_ifs <;> grind
      · rw [removeFlow_same _ (only fun has => releases (released.mp has))]
        refine iff_of_false (fun same => ?_) fun both => releases ((both j rfl).mp takes)
        have more := forth j
        rw [same, if_pos rfl] at more
        grind
    · rw [addFlow_same eth enable _ (only takes)]
      by_cases releases : Releases (eth.hw j)
      · refine iff_of_false (fun same => ?_) fun both => takes ((both j rfl).mpr releases)
        have less := removeFlow_numFlows eth (only releases) j
        rw [same, if_pos rfl] at less
        grind
      · rw [removeFlow_same _ (only releases)]
        exact iff_of_true (fun i => rfl) (only ⟨fun has => absurd has takes, fun has => absurd has releases⟩)

end Counts

theorem Reached.unique {offload offload' : Offload} (one : Reached eth cookie rule outcome offload)
    (two : Reached eth cookie rule outcome offload') : offload = offload' :=
  Except.ok.inj (one.checked.symm.trans two.checked)

/-- A rule keeps the promise in exactly the good cases. -/
theorem Course.meets (listed : ∀ i, Listed (eth.ppe i))
    (course : Course eth cookie rule outcome ret after) :
    ReplaceMeets eth cookie rule ret after ↔ GoodReplace eth cookie rule outcome := by
  cases course with
  | refused below early =>
    rw [meets_error below, untouched_iff rfl rfl]
    exact iff_of_true (fun i => rfl) fun offload reached => absurd reached (early offload)
  | @noMemory offload reached none =>
    have below : enomem < 0 := by decide
    rw [meets_error below, untouched_iff (addFlow_flowTable ..) (addFlow_ppe ..), addFlow_untouched]
    constructor
    · intro takes offload' reached'
      obtain rfl := reached.unique reached'
      rw [none]
      exact takes
    · intro good
      have here := good offload reached
      rwa [none] at here
  | @uncommitted offload id _ reached fresh fails above =>
    refine iff_of_false ?_ fun good => ?_
    · rintro ⟨zero, other⟩
      by_cases none : ret = 0
      · exact not_taken (by simp) (zero.mp none)
      · exact not_lt.mpr above (other none).1
    · have here := good offload reached
      rw [fresh] at here
      exact not_lt.mpr here.1 fails
  | @uninserted offload id reached fresh commits fails =>
    rw [meets_error fails, untouched_iff (by simp) (by simp), removeFlow_untouched]
    constructor
    · intro both offload' reached'
      obtain rfl := reached.unique reached'
      rw [fresh]
      refine ⟨commits, fun i own => ?_⟩
      rw [if_pos fails]
      exact both i own
    · intro good i own
      have here := good offload reached
      rw [fresh] at here
      have both := here.2 i own
      rwa [if_pos fails] at both
  | @inserted offload id reached fresh commits goes =>
    have good_iff : GoodReplace eth cookie rule outcome ↔
        ∀ i, offload.wedIndex = some i → Takes outcome.enable (eth.hw i) := by
      constructor
      · intro good i own
        have here := good offload reached
        rw [fresh] at here
        have takes := here.2 i own
        rwa [if_neg (not_lt.mpr goes)] at takes
      · intro takes offload' reached'
        obtain rfl := reached.unique reached'
        rw [fresh]
        refine ⟨commits, fun i own => ?_⟩
        rw [if_neg (not_lt.mpr goes)]
        exact takes i own
    rw [good_iff]
    constructor
    · rintro ⟨zero, -⟩ i own
      obtain ⟨offload', id', checked', -, -, numFlows⟩ := zero.mp rfl
      obtain rfl := Except.ok.inj (reached.checked.symm.trans checked')
      by_contra takes
      have same : ∀ j, offload.wedIndex = some j → ¬Takes outcome.enable (eth.hw j) :=
        fun j other => Option.some.inj (own.symm.trans other) ▸ takes
      have more := numFlows i
      rw [addFlow_same eth _ _ same, if_pos own] at more
      change eth.numFlows i = eth.numFlows i + 1 at more
      grind
    · intro takes
      refine ⟨iff_of_true rfl ⟨offload, id, reached.checked, rfl, ?_, ?_⟩, fun other => absurd rfl other⟩
      · have committed := ((listed offload.ppeIndex).commit offload.foe (fresh_unused fresh)).2 id
        simpa [Eth.setPpe] using committed.mpr (.inl rfl)
      · exact addFlow_numFlows eth _ takes

end Exact

/-- The lists of the engines are right, and their committed flows those of the table, which has each
cookie and each place once. -/
structure Shaped (eth : Eth) : Prop where
  listed : ∀ i, Listed (eth.ppe i)
  cookies : (eth.flowTable.map Flow.cookie).Nodup
  places : (eth.flowTable.map fun flow => (flow.ppeIndex, flow.id)).Nodup
  committed : ∀ j k, Committed (eth.ppe j) k ↔ ∃ flow ∈ eth.flowTable, flow.ppeIndex = j ∧ flow.id = k

section Shape

variable {eth after : Eth} {cookie : UInt64} {rule : FlowRule} {outcome : Outcome} {ret : Int}

theorem Shaped.start (ppeNum : Nat) (devices : Nat → Option (Option Wed)) :
    Shaped (.start ppeNum devices) where
  listed _ := .start
  cookies := List.nodup_nil
  places := List.nodup_nil
  committed j k := by simp [Eth.start, Committed, FlowTable.start]

theorem Shaped.same (shaped : Shaped eth) (flowTable : after.flowTable = eth.flowTable)
    (ppe : after.ppe = eth.ppe) : Shaped after := by
  obtain ⟨listed, cookies, places, committed⟩ := shaped
  constructor <;> simpa only [flowTable, ppe]

/-- Something happens to an engine that leaves its committed flows. -/
theorem Shaped.setPpe (shaped : Shaped eth) {i : Nat} {s : FlowTable}
    (keeps : KeepsUsers (eth.ppe i) s) : Shaped (eth.setPpe i s) where
  listed j := by
    change Listed (Function.update eth.ppe i s j)
    rw [Function.update_apply]
    split_ifs
    · exact keeps.listed
    · exact shaped.listed j
  cookies := shaped.cookies
  places := shaped.places
  committed j k := by
    rw [← show Committed (eth.ppe j) k ↔ ∃ flow ∈ (eth.setPpe i s).flowTable,
      flow.ppeIndex = j ∧ flow.id = k from shaped.committed j k]
    change Committed (Function.update eth.ppe i s j) k ↔ _
    rw [Function.update_apply]
    split_ifs with own
    · rw [own]
      exact keeps.committed k
    · exact Iff.rfl

theorem lookup_none (none : eth.lookup cookie = none) : cookie ∉ eth.flowTable.map Flow.cookie := by
  rw [Eth.lookup, List.find?_eq_none] at none
  rw [List.mem_map]
  rintro ⟨flow, member, same⟩
  exact none flow member (decide_eq_true same)

theorem Course.shaped (shaped : Shaped eth) (course : Course eth cookie rule outcome ret after) :
    Shaped after := by
  cases course with
  | refused => exact shaped
  | noMemory => exact shaped.same (by simp) (by simp)
  | uncommitted => exact shaped.same (by simp) (by simp)
  | uninserted => exact shaped.same (by simp) (by simp)
  | @inserted offload id reached fresh commits goes =>
    have unused := fresh_unused fresh
    obtain ⟨listed, committed⟩ := (shaped.listed offload.ppeIndex).commit offload.foe unused
    have cell (j : Nat) : ((eth.addFlow outcome.enable offload.wedIndex).2.setPpe offload.ppeIndex
        ((eth.ppe offload.ppeIndex).commit id offload.foe true)).ppe j = if j = offload.ppeIndex then
          (eth.ppe offload.ppeIndex).commit id offload.foe true else eth.ppe j := by
      simp only [Eth.setPpe, addFlow_ppe, Function.update_apply]
    constructor
    · intro j
      dsimp only
      rw [cell]
      split_ifs
      · exact listed
      · exact shaped.listed j
    · exact List.nodup_cons.mpr ⟨lookup_none reached.new, shaped.cookies⟩
    · refine List.nodup_cons.mpr ⟨fun member => ?_, shaped.places⟩
      obtain ⟨flow, placed, same⟩ := List.mem_map.mp member
      obtain ⟨ppeIndex, place⟩ := Prod.mk.inj same
      exact not_committed unused ((shaped.committed _ _).mpr ⟨flow, placed, ppeIndex, place⟩)
    · intro j k
      dsimp only
      rw [cell, List.exists_mem_cons_iff]
      split_ifs with own
      · rw [committed, shaped.committed, own]
        simp [eq_comm]
      · rw [shaped.committed]
        simp [Ne.symm own]

/-- What `mtk_flow_offload_destroy` does to the tables, whatever becomes of the count. -/
theorem destroy_tables (shaped : Shaped eth) {flow : Flow} (found : eth.lookup cookie = some flow) :
    (flow :: (eth.destroy cookie).2.flowTable).Perm eth.flowTable ∧
      (∀ j, Listed ((eth.destroy cookie).2.ppe j)) ∧
      ((eth.destroy cookie).2.ppe flow.ppeIndex).flows flow.id = none ∧
      ∀ j k, Committed ((eth.destroy cookie).2.ppe j) k ↔
        Committed (eth.ppe j) k ∧ ¬(j = flow.ppeIndex ∧ k = flow.id) := by
  obtain ⟨own, early, late, split, before⟩ := List.find?_eq_some_iff_append.mp found
  have erased : eth.flowTable.eraseP (fun flow => flow.cookie = cookie) = early ++ late := by
    rw [split, List.eraseP_append_right _ (by simpa using before),
      List.eraseP_cons_of_pos (p := fun flow : Flow => decide (flow.cookie = cookie)) own]
  have member : flow ∈ eth.flowTable := by simp [split]
  have user := ((shaped.committed _ _).mpr ⟨flow, member, rfl, rfl⟩).hasUser
  obtain ⟨cleared, gone⟩ := (shaped.listed flow.ppeIndex).clear user
  have committed := committed_clear (shaped.listed flow.ppeIndex) user
  simp only [Eth.destroy, found, removeFlow_flowTable, removeFlow_ppe, Eth.setPpe,
    Function.update_apply]
  refine ⟨?_, fun j => ?_, ?_, fun j k => ?_⟩
  · rw [erased, split]
    exact List.perm_middle.symm
  · split_ifs
    · exact cleared
    · exact shaped.listed j
  · rw [if_pos trivial]
    exact gone
  · split_ifs with here
    · rw [committed, here]
      simp
    · simp [here]

theorem Shaped.destroy (shaped : Shaped eth) : Shaped (eth.destroy cookie).2 := by
  cases found : eth.lookup cookie with
  | none =>
    rw [Eth.destroy, found]
    exact shaped
  | some flow =>
    obtain ⟨perm, listed, -, committed⟩ := destroy_tables shaped found
    have cookies := (perm.map Flow.cookie).nodup_iff.mpr shaped.cookies
    have places := (perm.map fun flow => (flow.ppeIndex, flow.id)).nodup_iff.mpr shaped.places
    rw [List.map_cons, List.nodup_cons] at cookies places
    refine ⟨listed, cookies.2, places.2, fun j k => ?_⟩
    rw [committed, shaped.committed]
    constructor
    · rintro ⟨⟨other, member, rfl, rfl⟩, apart⟩
      obtain rfl | rest := List.mem_cons.mp (perm.mem_iff.mpr member)
      · exact absurd ⟨rfl, rfl⟩ apart
      · exact ⟨other, rest, rfl, rfl⟩
    · rintro ⟨other, rest, rfl, rfl⟩
      refine ⟨⟨other, perm.mem_iff.mp (List.mem_cons_of_mem _ rest), rfl, rfl⟩, ?_⟩
      rintro ⟨ppeIndex, place⟩
      exact places.1 (List.mem_map.mpr ⟨other, rest, Prod.ext ppeIndex place⟩)

theorem Shaped.step (shaped : Shaped eth) (netDsa : Bool) (event : Event) :
    Shaped (step netDsa eth event) := by
  cases event with
  | replace cookie rule outcome => exact (replace_course shaped.listed).shaped shaped
  | destroy cookie => exact shaped.destroy
  | stats cookie now =>
    simp only [Replace.step]
    cases eth.lookup cookie with
    | none => exact shaped
    | some flow => exact shaped.setPpe (.idle (shaped.listed _))
  | device i dev => exact shaped.same rfl rfl
  | check i skb hash now fresh => exact shaped.setPpe (.check (shaped.listed _) netDsa skb fresh)
  | age i hash entry =>
    apply shaped.setPpe
    simp only [Ppe.step]
    split_ifs
    · exact .refl (shaped.listed i)
    · exact .same (shaped.listed i) rfl rfl rfl
  | touch i hash ib1 =>
    apply shaped.setPpe
    simp only [Ppe.step]
    split_ifs
    · exact .same (shaped.listed i) rfl rfl rfl
    · exact .refl (shaped.listed i)

end Shape

section Destroy

variable {eth after : Eth} {cookie : UInt64} {rule : FlowRule}

/-- A destroy undoes what was taken exactly when the count of a Wi-Fi flow can be given back. -/
theorem destroy_meets (shaped : Shaped eth) :
    DestroyMeets eth cookie (eth.destroy cookie).1 (eth.destroy cookie).2 ↔
      Good eth (.destroy cookie) := by
  cases found : eth.lookup cookie with
  | none =>
    rw [DestroyMeets, found, Eth.destroy, found]
    exact iff_of_true ⟨rfl, rfl⟩ fun flow has => by simp [found] at has
  | some flow =>
    obtain ⟨perm, listed, gone, committed⟩ := destroy_tables shaped found
    have good_iff : Good eth (.destroy cookie) ↔
        ∀ i, flow.wedIndex = some i → Releases (eth.hw i) := by
      constructor
      · exact fun good => good flow found
      · intro releases flow' found'
        obtain rfl := Option.some.inj (found.symm.trans found')
        exact releases
    have zero : (eth.destroy cookie).1 = 0 := by rw [Eth.destroy, found]
    have counts (i : Nat) : (eth.destroy cookie).2.numFlows i =
        (eth.removeFlow flow.wedIndex).numFlows i := by
      rw [Eth.destroy, found]
      apply removeFlow_congr
      rfl
    rw [good_iff, DestroyMeets, found]
    constructor
    · rintro ⟨-, undone⟩ i own
      by_contra keeps
      have same := removeFlow_same eth (w := flow.wedIndex) fun j other =>
        Option.some.inj (own.symm.trans other) ▸ keeps
      have less := undone.numFlows i
      rw [counts, same, if_pos own] at less
      grind
    · intro releases
      refine ⟨zero, perm, (listed _).unlisted gone, fun member => ?_, committed, fun i => ?_⟩
      · obtain ⟨e, has, -⟩ := (listed _).table _ member
        rw [gone] at has
        exact absurd has (by simp)
      · rw [counts, removeFlow_numFlows eth releases]
        grind

theorem live_cons (flow : Flow) (i : Nat) (flows : List Flow) :
    (flow :: flows).countP (fun flow => flow.wedIndex = some i) =
      flows.countP (fun flow => flow.wedIndex = some i) + if flow.wedIndex = some i then 1 else 0 := by
  simp [List.countP_cons]

/-- The count and the number of live flows go on together. -/
theorem ofNat_add_ite (n : Nat) (p : Prop) [Decidable p] :
    UInt32.ofNat (n + if p then 1 else 0) = UInt32.ofNat n + if p then 1 else 0 := by
  split_ifs
  · exact UInt32.ofNat_add n 1
  · exact (add_zero _).symm

theorem Undone.counted {flow : Flow} (undone : Undone flow eth after) (counted : Counted eth) :
    Counted after := by
  intro i
  have live : eth.live i = after.live i + if flow.wedIndex = some i then 1 else 0 := by
    rw [Eth.live, ← undone.flowTable.countP_eq, live_cons]
    rfl
  have count := counted i
  rw [undone.numFlows, live, ofNat_add_ite] at count
  exact add_right_cancel count

theorem ReplaceMeets.counted {ret : Int} (meets : ReplaceMeets eth cookie rule ret after)
    (counted : Counted eth) : Counted after := by
  intro i
  by_cases zero : ret = 0
  · obtain ⟨offload, id, -, table, -, numFlows⟩ := meets.1.mp zero
    rw [numFlows, counted, Eth.live, Eth.live, table, live_cons, ofNat_add_ite]
  · have untouched := (meets.2 zero).2
    rw [untouched.numFlows, counted, Eth.live, Eth.live, untouched.flowTable]

end Destroy

section Runs

variable {eth : Eth}

/-- In a shaped state whose counts are right, an event keeps the promise exactly when it is good. -/
theorem meets_iff_good (netDsa : Bool) (shaped : Shaped eth) (counted : Counted eth) (event : Event) :
    Meets netDsa eth event ↔ Good eth event := by
  have quiet {after : Eth} (live : after.flowTable = eth.flowTable)
      (numFlows : ∀ i, after.numFlows i = eth.numFlows i) : Counted after := by
    intro i
    rw [numFlows, counted, Eth.live, Eth.live, live]
  cases event with
  | replace cookie rule outcome =>
    have course : Course eth cookie rule outcome (eth.replace cookie rule outcome).1
        (eth.replace cookie rule outcome).2 := replace_course shaped.listed
    refine (and_iff_left_of_imp fun meets => ?_).trans (course.meets shaped.listed)
    exact ReplaceMeets.counted meets counted
  | destroy cookie =>
    refine (and_iff_left_of_imp fun meets => ?_).trans (destroy_meets shaped)
    change DestroyMeets eth cookie _ _ at meets
    unfold DestroyMeets at meets
    cases found : eth.lookup cookie with
    | none =>
      rw [found] at meets
      simpa only [step, meets.2] using counted
    | some flow =>
      rw [found] at meets
      exact meets.2.counted counted
  | stats cookie now =>
    refine iff_of_true ⟨trivial, ?_⟩ trivial
    simp only [step]
    cases eth.lookup cookie with
    | none => exact counted
    | some flow => exact quiet rfl fun _ => rfl
  | device i dev =>
    refine iff_of_true ⟨trivial, quiet rfl fun j => ?_⟩ trivial
    simp only [step, Eth.setHw, Eth.numFlows, Function.update_apply]
    split_ifs with own
    · subst own
      cases eth.hw j <;> rfl
    · rfl
  | check => exact iff_of_true ⟨trivial, quiet rfl fun _ => rfl⟩ trivial
  | age => exact iff_of_true ⟨trivial, quiet rfl fun _ => rfl⟩ trivial
  | touch => exact iff_of_true ⟨trivial, quiet rfl fun _ => rfl⟩ trivial

theorem counted_start (ppeNum : Nat) (devices : Nat → Option (Option Wed)) :
    Counted (.start ppeNum devices) := by
  intro i
  simp only [Eth.numFlows, Eth.start, Eth.live, List.countP_nil]
  cases devices i <;> rfl

/-- Every call of a run is all or nothing, and the counts are those of the live flows behind every
event, exactly when every event is good. -/
theorem offload_kept_iff (netDsa : Bool) (ppeNum : Nat) (devices : Nat → Option (Option Wed))
    (events : List Event) :
    Along (step netDsa) (Meets netDsa) (.start ppeNum devices) events ↔
      Along (step netDsa) Good (.start ppeNum devices) events := by
  apply along_congr (step netDsa) (Meets netDsa) Good fun eth => Shaped eth ∧ Counted eth
  · exact fun eth event ⟨shaped, counted⟩ => meets_iff_good netDsa shaped counted event
  · exact fun eth event ⟨shaped, _⟩ meets => ⟨shaped.step netDsa event, meets.2⟩
  · exact ⟨.start ppeNum devices, counted_start ppeNum devices⟩

/-- A rule of a bridge, for two hosts behind the last port. -/
def sampleRule : FlowRule where
  isMeta := true
  control := some 0
  basic := some 6
  ip := some 0
  ethAddrs := some fun k => if k % 6 = 0 then 2 else 1
  vlan := none
  ports := none
  ipv4Addrs := (0, 0)
  ipv6Addrs _ := 0
  actions := [.redirect (.gdm (some (Fin.last 2)))]
  redirects := ⟨.gdm (some (Fin.last 2)), List.mem_singleton.mpr rfl⟩
  receivePpe := none
  rest := .zero

/-- The two connections of these hosts have one key. The second rule is not inserted into the table
of L2 flows, and the call returns 0 without a flow. -/
theorem second_connection_lost : ¬Along (step true) (Meets true) (.start 1 fun _ => none)
    [.replace 1 sampleRule ⟨0, some 1, 0, 0⟩, .replace 2 sampleRule ⟨0, some 2, 0, 0⟩] := by
  rintro ⟨-, ⟨meets, -⟩, -⟩
  have zero : ((step true (.start 1 fun _ => none) (.replace 1 sampleRule ⟨0, some 1, 0, 0⟩)).replace 2
      sampleRule ⟨0, some 2, 0, 0⟩).1 = 0 := by decide +kernel
  have table : ((step true (.start 1 fun _ => none) (.replace 1 sampleRule ⟨0, some 1, 0, 0⟩)).replace 2
      sampleRule ⟨0, some 2, 0, 0⟩).2.flowTable = (step true (.start 1 fun _ => none)
        (.replace 1 sampleRule ⟨0, some 1, 0, 0⟩)).flowTable := by decide +kernel
  exact not_taken table (meets.1.mp zero)

end Runs

end Filogic.Ppe.Replace
