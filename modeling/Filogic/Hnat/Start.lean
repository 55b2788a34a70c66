import Mathlib

/-! `hnat_start`, `hnat_stop` and their callers: the tables that the driver allocates for each
PPE, of a size that it halves for all of them whenever an allocation fails. -/

namespace Filogic.Hnat

def defEtryNum : Nat := 8192
def defEtryNumCfg : Nat := 3

/-- Which allocations fail during start-up: the FOE table of a PPE at a size, its MIB table, and
its accounting records. -/
structure AllocFails where
  foe : Nat → Nat → Bool
  mib : Nat → Bool
  acct : Nat → Bool

inductive Table where
  | foe | mib
  deriving DecidableEq, Repr

/-- A call of `dma_free_coherent`, in entries. -/
structure Free where
  table : Table
  allocated : Nat
  size : Nat
  deriving DecidableEq, Repr

/-- `struct mtk_hnat`: the tables by PPE with the number of entries allocated for each, the field
`TB_ETRY_NUM` of each PPE that was initialised, and the frees so far. -/
structure HnatStart where
  foeEtryNum : Nat
  etryNumCfg : Nat
  foeTableCpu : Nat → Option Nat
  foeMibCpu : Nat → Option Nat
  acct : Nat → Option Nat
  tbEtryNum : Nat → Option Nat
  freed : List Free

/-- The allocation loop of `hnat_start`: the size that was granted, none after the smallest was
refused, and the entry count it leaves. -/
def mapFoeTable (refused : Nat → Bool) : Nat → Nat → Option Nat × Nat
  | 0, foeEtryNum => if refused 0 then (none, foeEtryNum / 2) else (some 0, foeEtryNum)
  | cfg + 1, foeEtryNum =>
    if refused (cfg + 1) then mapFoeTable refused cfg (foeEtryNum / 2)
    else (some (cfg + 1), foeEtryNum)

/-- `hnat_hw_init`, its first write -/
def hnatHwInit (ppeId : Nat) (priv : HnatStart) : HnatStart :=
  { priv with tbEtryNum := Function.update priv.tbEtryNum ppeId (some priv.etryNumCfg) }

section Start

variable (perFlowAccounting : Bool) (fails : AllocFails)

/-- `hnat_start` from the MIB table on. -/
def startAccounting (ppeId : Nat) (priv : HnatStart) : HnatStart × Bool :=
  if perFlowAccounting then
    if fails.mib ppeId then (priv, false)
    else
      let priv := { priv with
        foeMibCpu := Function.update priv.foeMibCpu ppeId (some priv.foeEtryNum) }
      if fails.acct ppeId then (priv, false)
      else ({ priv with acct := Function.update priv.acct ppeId (some priv.foeEtryNum) }, true)
  else (priv, true)

/-- `hnat_start`, and whether it returns 0 -/
def hnatStart (ppeId : Nat) (priv : HnatStart) : HnatStart × Bool :=
  let mapped := mapFoeTable (fails.foe ppeId) defEtryNumCfg priv.foeEtryNum
  let priv := { priv with foeEtryNum := mapped.2 }
  match mapped.1 with
  | none => (priv, false)
  | some etryNumCfg =>
    let accounted := startAccounting perFlowAccounting fails ppeId
      { priv with foeTableCpu := Function.update priv.foeTableCpu ppeId (some priv.foeEtryNum) }
    if accounted.2 then (hnatHwInit ppeId { accounted.1 with etryNumCfg := etryNumCfg }, true)
    else (accounted.1, false)

/-- The loop of `hnat_probe` over the PPEs, which the first failure ends. -/
def startAll : List Nat → HnatStart → HnatStart × Bool
  | [], priv => (priv, true)
  | ppeId :: rest, priv =>
    let started := hnatStart perFlowAccounting fails ppeId priv
    if started.2 then startAll rest started.1 else (started.1, false)

/-- `hnat_stop`, which frees the tables at the entry count of the moment -/
def hnatStop (ppeId : Nat) (priv : HnatStart) : HnatStart :=
  let foe := (priv.foeTableCpu ppeId).toList.map fun n => Free.mk .foe n priv.foeEtryNum
  let mib := if perFlowAccounting then
    (priv.foeMibCpu ppeId).toList.map fun n => Free.mk .mib n priv.foeEtryNum else []
  { priv with
    foeTableCpu := Function.update priv.foeTableCpu ppeId none
    freed := priv.freed ++ foe ++ mib }

/-- The loop over the PPEs in `hnat_remove`, and at the label `err_out` of `hnat_probe`. -/
def stopAll (ppeNum : Nat) (priv : HnatStart) : HnatStart :=
  (List.range ppeNum).foldl (fun priv ppeId => hnatStop perFlowAccounting ppeId priv) priv

/-- `hnat_warm_init`, of which the registers are left over -/
def hnatWarmInit (ppeNum : Nat) (priv : HnatStart) : HnatStart :=
  (List.range ppeNum).foldl (fun priv ppeId => hnatHwInit ppeId priv) priv

/-- The state in which `hnat_probe` starts the PPEs. -/
def zeroed : HnatStart :=
  { foeEtryNum := defEtryNum, etryNumCfg := 0, foeTableCpu := fun _ => none
    foeMibCpu := fun _ => none, acct := fun _ => none, tbEtryNum := fun _ => none, freed := [] }

/-- The sizes agree: the field of each PPE with its table, the entry count with every table, and
every free with what was allocated. -/
structure Agreed (priv : HnatStart) : Prop where
  field : ∀ ppeId cfg n, priv.tbEtryNum ppeId = some cfg → priv.foeTableCpu ppeId = some n →
    1024 <<< cfg = n
  foe : ∀ ppeId n, priv.foeTableCpu ppeId = some n → priv.foeEtryNum ≤ n
  mib : ∀ ppeId n, priv.foeMibCpu ppeId = some n → priv.foeEtryNum ≤ n
  freed : ∀ f ∈ priv.freed, f.size = f.allocated

/-- They do so while the PPEs are started one after the other, after any number of warm
initialisations, and when the PPEs are stopped, be it by an error of the probe or later. -/
def AgreedThroughout (ppeNum : Nat) : Prop :=
  (∀ k ≤ ppeNum, Agreed (startAll perFlowAccounting fails (List.range k) zeroed).1) ∧
  Agreed (stopAll perFlowAccounting ppeNum
    (startAll perFlowAccounting fails (List.range ppeNum) zeroed).1) ∧
  ((startAll perFlowAccounting fails (List.range ppeNum) zeroed).2 = true → ∀ inits,
    let warm := (hnatWarmInit ppeNum)^[inits]
      (startAll perFlowAccounting fails (List.range ppeNum) zeroed).1
    Agreed warm ∧ Agreed (stopAll perFlowAccounting ppeNum warm))

/-- No allocation that `hnat_start` cannot do without fails. -/
def starts (ppeId : Nat) : Bool :=
  !(fails.foe ppeId 3 && fails.foe ppeId 2 && fails.foe ppeId 1 && fails.foe ppeId 0) &&
    !(perFlowAccounting && (fails.mib ppeId || fails.acct ppeId))

/-- Each PPE that is tried after the first gets its FOE table at the first attempt, and so does
the first unless the second is not started. -/
def FirstAttempts (ppeNum : Nat) : Prop :=
  (∀ ppeId < ppeNum, 0 < ppeId → (∀ earlier < ppeId, starts perFlowAccounting fails earlier) →
    fails.foe ppeId 3 = false) ∧
  (fails.foe 0 3 = true → 1 < ppeNum → starts perFlowAccounting fails 0 = true →
    starts perFlowAccounting fails 1 = false)

end Start

attribute [simp] mapFoeTable

theorem mapFoeTable_le (refused : Nat → Bool) (cfg n : Nat) :
    (mapFoeTable refused cfg n).2 ≤ n := by
  induction cfg generalizing n with
  | zero =>
    unfold mapFoeTable
    split_ifs
    · exact Nat.div_le_self n 2
    · exact le_refl n
  | succ cfg ih =>
    unfold mapFoeTable
    split_ifs
    · exact (ih (n / 2)).trans (Nat.div_le_self n 2)
    · exact le_refl n

theorem mapFoeTable_first (refused : Nat → Bool) (cfg n : Nat) (granted : refused cfg = false) :
    mapFoeTable refused cfg n = (some cfg, n) := by
  cases cfg <;> simp [mapFoeTable, granted]

theorem mapFoeTable_half (refused : Nat → Bool) (cfg n : Nat) (refusal : refused cfg = true) :
    (mapFoeTable refused cfg n).2 ≤ n / 2 := by
  cases cfg with
  | zero => simp [mapFoeTable, refusal]
  | succ cfg =>
    simp only [mapFoeTable, refusal, if_true]
    exact mapFoeTable_le refused cfg (n / 2)

theorem mapFoeTable_isSome (refused : Nat → Bool) (n : Nat) :
    (mapFoeTable refused defEtryNumCfg n).1.isSome =
      !(refused 3 && refused 2 && refused 1 && refused 0) := by
  simp only [defEtryNumCfg, mapFoeTable]
  cases refused 3 <;> cases refused 2 <;> cases refused 1 <;> cases refused 0 <;> rfl

/-- From the size that belongs to the first field value, a granted size belongs to its own. -/
theorem mapFoeTable_size (refused : Nat → Bool) (cfg granted : Nat)
    (found : (mapFoeTable refused cfg (1024 <<< cfg)).1 = some granted) :
    1024 <<< granted = (mapFoeTable refused cfg (1024 <<< cfg)).2 := by
  induction cfg with
  | zero =>
    unfold mapFoeTable at found ⊢
    split_ifs at found ⊢
    obtain rfl := Option.some.inj found
    rfl
  | succ cfg ih =>
    have half : 1024 <<< (cfg + 1) / 2 = 1024 <<< cfg := by
      rw [Nat.shiftLeft_succ]
      omega
    unfold mapFoeTable at found ⊢
    split_ifs at found ⊢
    · rw [half] at found ⊢
      exact ih found
    · obtain rfl := Option.some.inj found
      rfl

section Steps

variable {perFlowAccounting : Bool} {fails : AllocFails}

theorem startAccounting_frame (ppeId : Nat) (priv : HnatStart) :
    let after := (startAccounting perFlowAccounting fails ppeId priv).1
    after.foeEtryNum = priv.foeEtryNum ∧ after.foeTableCpu = priv.foeTableCpu ∧
      after.tbEtryNum = priv.tbEtryNum ∧ after.etryNumCfg = priv.etryNumCfg ∧
      after.freed = priv.freed ∧ (after.foeMibCpu = priv.foeMibCpu ∨
        after.foeMibCpu = Function.update priv.foeMibCpu ppeId (some priv.foeEtryNum)) := by
  unfold startAccounting
  dsimp only
  split_ifs
  · exact ⟨rfl, rfl, rfl, rfl, rfl, Or.inl rfl⟩
  · exact ⟨rfl, rfl, rfl, rfl, rfl, Or.inr rfl⟩
  · exact ⟨rfl, rfl, rfl, rfl, rfl, Or.inr rfl⟩
  · exact ⟨rfl, rfl, rfl, rfl, rfl, Or.inl rfl⟩

theorem startAccounting_snd (ppeId : Nat) (priv : HnatStart) :
    (startAccounting perFlowAccounting fails ppeId priv).2 =
      !(perFlowAccounting && (fails.mib ppeId || fails.acct ppeId)) := by
  unfold startAccounting
  cases perFlowAccounting <;> cases fails.mib ppeId <;> cases fails.acct ppeId <;> rfl

/-- What `hnat_start` does: nothing is allocated, a table is but the PPE is not started, or the
PPE is started. -/
inductive Started (fails : AllocFails) (ppeId : Nat) (priv after : HnatStart) : Bool → Prop where
  | unmapped (num : after = { priv with
        foeEtryNum := (mapFoeTable (fails.foe ppeId) defEtryNumCfg priv.foeEtryNum).2 })
      (refusal : fails.foe ppeId 3 = true) : Started fails ppeId priv after false
  | mapped (cfg : Nat) (ok : Bool)
      (found : (mapFoeTable (fails.foe ppeId) defEtryNumCfg priv.foeEtryNum).1 = some cfg)
      (num : after.foeEtryNum =
        (mapFoeTable (fails.foe ppeId) defEtryNumCfg priv.foeEtryNum).2)
      (foe : after.foeTableCpu =
        Function.update priv.foeTableCpu ppeId (some after.foeEtryNum))
      (mib : after.foeMibCpu = priv.foeMibCpu ∨
        after.foeMibCpu = Function.update priv.foeMibCpu ppeId (some after.foeEtryNum))
      (field : after.tbEtryNum =
        if ok then Function.update priv.tbEtryNum ppeId (some cfg) else priv.tbEtryNum)
      (etryNumCfg : after.etryNumCfg = if ok then cfg else priv.etryNumCfg)
      (freed : after.freed = priv.freed) : Started fails ppeId priv after ok

theorem hnatStart_started (ppeId : Nat) (priv : HnatStart) :
    Started fails ppeId priv (hnatStart perFlowAccounting fails ppeId priv).1
      (starts perFlowAccounting fails ppeId) := by
  have granted := mapFoeTable_isSome (fails.foe ppeId) priv.foeEtryNum
  unfold hnatStart
  dsimp only
  rcases found : (mapFoeTable (fails.foe ppeId) defEtryNumCfg priv.foeEtryNum).1 with _ | cfg
  · rw [found] at granted
    simp only [Option.isSome_none, Bool.false_eq, Bool.not_eq_false', Bool.and_eq_true] at granted
    have stuck : starts perFlowAccounting fails ppeId = false := by simp [starts, granted]
    rw [stuck]
    exact Started.unmapped rfl granted.1.1.1
  · rw [found] at granted
    dsimp only
    generalize eq : ({ priv with
      foeEtryNum := (mapFoeTable (fails.foe ppeId) defEtryNumCfg priv.foeEtryNum).2
      foeTableCpu := Function.update priv.foeTableCpu ppeId
        (some (mapFoeTable (fails.foe ppeId) defEtryNumCfg priv.foeEtryNum).2) } : HnatStart) =
        allocated
    obtain ⟨num, foe, field, etryNumCfg, freed, mib⟩ :=
      @startAccounting_frame perFlowAccounting fails ppeId allocated
    have ok : starts perFlowAccounting fails ppeId =
        (startAccounting perFlowAccounting fails ppeId allocated).2 := by
      rw [startAccounting_snd, starts, ← granted]
      rfl
    rw [ok]
    generalize startAccounting perFlowAccounting fails ppeId allocated = accounted at *
    subst eq
    obtain ⟨after, accounted⟩ := accounted
    dsimp only at num foe field etryNumCfg freed mib
    rw [← num] at foe mib
    cases accounted with
    | false => exact Started.mapped cfg false found num foe mib field etryNumCfg freed
    | true =>
      refine Started.mapped cfg true found num foe mib ?_ rfl freed
      simp only [if_true, hnatHwInit, field]

/-- `hnat_start` of another PPE leaves a table alone. -/
theorem Started.other {ppeId : Nat} {priv after : HnatStart} {ok : Bool}
    (started : Started fails ppeId priv after ok) (other : Nat) (ne : other ≠ ppeId) :
    after.foeTableCpu other = priv.foeTableCpu other := by
  cases started with
  | unmapped num => rw [num]
  | mapped cfg ok found num foe => rw [foe, Function.update_of_ne ne]

theorem Started.num_le {ppeId : Nat} {priv after : HnatStart} {ok : Bool}
    (started : Started fails ppeId priv after ok) : after.foeEtryNum ≤ priv.foeEtryNum := by
  cases started with
  | unmapped num =>
    rw [num]
    exact mapFoeTable_le _ _ _
  | mapped cfg ok found num =>
    rw [num]
    exact mapFoeTable_le _ _ _

theorem Started.num_half {ppeId : Nat} {priv after : HnatStart} {ok : Bool}
    (started : Started fails ppeId priv after ok) (refusal : fails.foe ppeId 3 = true) :
    after.foeEtryNum ≤ priv.foeEtryNum / 2 := by
  cases started with
  | unmapped num =>
    rw [num]
    exact mapFoeTable_half _ _ _ refusal
  | mapped cfg ok found num =>
    rw [num]
    exact mapFoeTable_half _ _ _ refusal

/-- All tables have the current size, which is the one of every field. -/
structure Uniform (priv : HnatStart) : Prop where
  foe : ∀ ppeId n, priv.foeTableCpu ppeId = some n → n = priv.foeEtryNum
  mib : ∀ ppeId n, priv.foeMibCpu ppeId = some n → n = priv.foeEtryNum
  field : ∀ ppeId cfg, priv.tbEtryNum ppeId = some cfg →
    1024 <<< cfg = priv.foeEtryNum ∧ cfg = priv.etryNumCfg
  freed : ∀ f ∈ priv.freed, f.size = f.allocated

theorem Uniform.agreed {priv : HnatStart} (uniform : Uniform priv) : Agreed priv := by
  refine ⟨?_, ?_, ?_, uniform.freed⟩
  · intro ppeId cfg n field table
    rw [(uniform.field ppeId cfg field).1, uniform.foe ppeId n table]
  · intro ppeId n table
    exact (uniform.foe ppeId n table).ge
  · intro ppeId n table
    exact (uniform.mib ppeId n table).ge

theorem update_some {f : Nat → Option Nat} {i j n m : Nat}
    (value : Function.update f i (some m) j = some n) : n = m ∨ f j = some n := by
  by_cases same : j = i
  · subst same
    rw [Function.update_self] at value
    exact Or.inl (Option.some.inj value).symm
  · rw [Function.update_of_ne same] at value
    exact Or.inr value

/-- A PPE whose first attempt succeeds keeps the tables uniform, if the size is still the one
of that attempt or the PPE is not started. -/
theorem Started.uniform {ppeId : Nat} {priv after : HnatStart} {ok : Bool}
    (started : Started fails ppeId priv after ok) (uniform : Uniform priv)
    (first : fails.foe ppeId 3 = false)
    (whole : ok = true → priv.foeEtryNum = defEtryNum ∧
      ∀ other cfg, priv.tbEtryNum other = some cfg → cfg = defEtryNumCfg) :
    Uniform after ∧ after.foeEtryNum = priv.foeEtryNum := by
  cases started with
  | unmapped num refusal =>
    rw [first] at refusal
    cases refusal
  | mapped cfg ok found num foe mib field etryNumCfg freed =>
    rw [mapFoeTable_first _ defEtryNumCfg _ first] at found num
    obtain rfl := Option.some.inj found
    have num : after.foeEtryNum = priv.foeEtryNum := num
    refine ⟨⟨?_, ?_, ?_, by rw [freed]; exact uniform.freed⟩, num⟩
    · intro other n table
      rw [foe] at table
      rcases update_some table with same | old
      · exact same
      · rw [num]
        exact uniform.foe other n old
    · intro other n table
      have old_or : n = after.foeEtryNum ∨ priv.foeMibCpu other = some n := by
        rcases mib with kept | updated
        · rw [kept] at table
          exact Or.inr table
        · rw [updated] at table
          exact update_some table
      rcases old_or with same | old
      · exact same
      · rw [num]
        exact uniform.mib other n old
    · intro other cfg value
      rw [field] at value
      rw [num, etryNumCfg]
      cases ok with
      | false => exact uniform.field other cfg value
      | true =>
        obtain ⟨full, fields⟩ := whole rfl
        rw [if_pos rfl] at value ⊢
        have cfg_eq : cfg = defEtryNumCfg := by
          rcases update_some value with same | old
          · exact same
          · exact fields other cfg old
        rw [full, cfg_eq]
        exact ⟨rfl, rfl⟩

theorem zeroed_uniform : Uniform zeroed := by
  refine ⟨?_, ?_, ?_, ?_⟩ <;> simp [zeroed]

/-- The first PPE sets the size for all. -/
theorem Started.first_uniform {after : HnatStart} {ok : Bool}
    (started : Started fails 0 zeroed after ok) : Uniform after := by
  cases started with
  | unmapped num refusal =>
    subst num
    refine ⟨?_, ?_, ?_, ?_⟩ <;> simp [zeroed]
  | mapped cfg ok found num foe mib field etryNumCfg freed =>
    have size : 1024 <<< cfg = after.foeEtryNum := by
      rw [num]
      exact mapFoeTable_size (fails.foe 0) defEtryNumCfg cfg found
    refine ⟨?_, ?_, ?_, by rw [freed]; exact zeroed_uniform.freed⟩
    · intro other n table
      rw [foe] at table
      rcases update_some table with same | old
      · exact same
      · cases old
    · intro other n table
      rcases mib with kept | updated
      · rw [kept] at table
        cases table
      · rw [updated] at table
        rcases update_some table with same | old
        · exact same
        · cases old
    · intro other value_cfg value
      rw [field] at value
      rw [etryNumCfg, ← size]
      cases ok with
      | false => cases value
      | true =>
        rw [if_pos rfl] at value ⊢
        rcases update_some value with rfl | old
        · exact ⟨rfl, rfl⟩
        · cases old

theorem startAll_append (early : List Nat) (ppeId : Nat) (priv : HnatStart) :
    startAll perFlowAccounting fails (early ++ [ppeId]) priv =
      if (startAll perFlowAccounting fails early priv).2 then
        hnatStart perFlowAccounting fails ppeId (startAll perFlowAccounting fails early priv).1
      else startAll perFlowAccounting fails early priv := by
  induction early generalizing priv with
  | nil =>
    simp only [List.nil_append, startAll, if_true]
    generalize hnatStart perFlowAccounting fails ppeId priv = started
    rcases started with ⟨after, _ | _⟩ <;> rfl
  | cons first rest ih =>
    simp only [List.cons_append, startAll]
    by_cases ok : (hnatStart perFlowAccounting fails first priv).2
    · simp only [ok, if_true, ih]
    · simp only [ok, Bool.false_eq_true, if_false]

theorem hnatStart_snd (ppeId : Nat) (priv : HnatStart) :
    (hnatStart perFlowAccounting fails ppeId priv).2 = starts perFlowAccounting fails ppeId := by
  have granted := mapFoeTable_isSome (fails.foe ppeId) priv.foeEtryNum
  unfold hnatStart starts
  dsimp only
  rw [← granted]
  rcases (mapFoeTable (fails.foe ppeId) defEtryNumCfg priv.foeEtryNum).1 with _ | cfg
  · rfl
  · simp only [Option.isSome_some, Bool.true_and]
    split_ifs with ok
    · rw [startAccounting_snd] at ok
      exact ok.symm
    · rw [startAccounting_snd] at ok
      exact (Bool.not_eq_true _ ▸ ok).symm

/-- The state when `k` PPEs were to be started. -/
def probing (perFlowAccounting : Bool) (fails : AllocFails) (k : Nat) : HnatStart × Bool :=
  startAll perFlowAccounting fails (List.range k) zeroed

theorem probing_succ (k : Nat) :
    probing perFlowAccounting fails (k + 1) =
      if (probing perFlowAccounting fails k).2 then
        hnatStart perFlowAccounting fails k (probing perFlowAccounting fails k).1
      else probing perFlowAccounting fails k := by
  rw [probing, List.range_succ, startAll_append]
  rfl

theorem probing_one : probing perFlowAccounting fails 1 =
    hnatStart perFlowAccounting fails 0 zeroed := by
  have none : (probing perFlowAccounting fails 0).2 = true := rfl
  rw [probing_succ, if_pos none]
  rfl

theorem probing_snd (k : Nat) : (probing perFlowAccounting fails k).2 = true ↔
    ∀ ppeId < k, starts perFlowAccounting fails ppeId = true := by
  induction k with
  | zero => simp [probing, startAll]
  | succ k ih =>
    rw [probing_succ]
    split_ifs with ok
    · rw [hnatStart_snd]
      constructor
      · intro last ppeId below
        rcases Nat.lt_succ_iff_lt_or_eq.mp below with below | rfl
        · exact ih.mp ok ppeId below
        · exact last
      · exact fun all => all k (Nat.lt_succ_self k)
    · constructor
      · exact fun same => absurd same ok
      · intro all
        exact absurd (ih.mpr fun ppeId below => all ppeId (Nat.lt_succ_of_lt below)) ok

/-- Under the condition the tables are uniform throughout, and of full size if the first PPE
got one. -/
theorem probing_uniform (ppeNum : Nat) (attempts : FirstAttempts perFlowAccounting fails ppeNum)
    (k : Nat) (bound : k ≤ ppeNum) :
    Uniform (probing perFlowAccounting fails k).1 ∧
      ((k = 0 ∨ fails.foe 0 3 = false) → (probing perFlowAccounting fails k).1.foeEtryNum =
        defEtryNum ∧ ∀ other cfg, (probing perFlowAccounting fails k).1.tbEtryNum other =
          some cfg → cfg = defEtryNumCfg) := by
  induction k with
  | zero => exact ⟨zeroed_uniform, fun _ => ⟨rfl, fun _ _ value => by cases value⟩⟩
  | succ k ih =>
    obtain ⟨uniform, full⟩ := ih (by omega)
    have fields : ∀ after : HnatStart, Uniform after → after.foeEtryNum = defEtryNum →
        ∀ other cfg, after.tbEtryNum other = some cfg → cfg = defEtryNumCfg := by
      intro after uniform whole other cfg value
      have size := (uniform.field other cfg value).1
      rw [whole] at size
      have : 1024 <<< cfg = 1024 * 2 ^ cfg := Nat.shiftLeft_eq 1024 cfg
      have power : 2 ^ cfg = 2 ^ 3 := by
        simp only [defEtryNum] at size
        omega
      exact Nat.pow_right_injective (le_refl 2) power
    rw [probing_succ]
    split_ifs with ok
    · have started : Started fails k (probing perFlowAccounting fails k).1
        (hnatStart perFlowAccounting fails k (probing perFlowAccounting fails k).1).1
        (starts perFlowAccounting fails k) := hnatStart_started k _
      by_cases zero : k = 0
      · subst zero
        have uniform' := Started.first_uniform started
        refine ⟨uniform', ?_⟩
        rintro (impossible | first)
        · cases impossible
        · obtain ⟨-, num⟩ := started.uniform uniform first fun _ => full (Or.inl rfl)
          rw [num]
          exact ⟨rfl, fields _ uniform' (num.trans rfl)⟩
      · have all := probing_snd k |>.mp ok
        have first := attempts.1 k (by omega) (by omega) all
        obtain ⟨uniform', num⟩ := started.uniform uniform first (by
          intro itself
          apply full
          right
          by_contra refusal
          simp only [Bool.not_eq_false] at refusal
          have second := attempts.2 refusal (by omega) (all 0 (by omega))
          by_cases one : k = 1
          · rw [one, second] at itself
            cases itself
          · rw [all 1 (by omega)] at second
            cases second)
        refine ⟨uniform', ?_⟩
        rintro (impossible | first)
        · exact impossible.elim
        · have whole := (full (Or.inr first)).1
          rw [num]
          exact ⟨whole, fields _ uniform' (num.trans whole)⟩
    · refine ⟨uniform, ?_⟩
      rintro (impossible | first)
      · cases impossible
      · exact full (Or.inr first)

theorem hnatStop_uniform (ppeId : Nat) {priv : HnatStart} (uniform : Uniform priv) :
    Uniform (hnatStop perFlowAccounting ppeId priv) := by
  refine ⟨?_, uniform.mib, uniform.field, ?_⟩
  · intro other n table
    by_cases same : other = ppeId
    · subst same
      simp [hnatStop] at table
    · simp only [hnatStop, Function.update_of_ne same] at table
      exact uniform.foe other n table
  · intro f member
    simp only [hnatStop, List.mem_append] at member
    rcases member with (old | foe) | mib
    · exact uniform.freed f old
    · simp only [List.mem_map, Option.mem_toList] at foe
      obtain ⟨n, table, rfl⟩ := foe
      exact (uniform.foe ppeId n table).symm
    · split_ifs at mib
      · simp only [List.mem_map, Option.mem_toList] at mib
        obtain ⟨n, table, rfl⟩ := mib
        exact (uniform.mib ppeId n table).symm
      · cases mib

theorem stopAll_uniform (ppeNum : Nat) {priv : HnatStart} (uniform : Uniform priv) :
    Uniform (stopAll perFlowAccounting ppeNum priv) := by
  unfold stopAll
  generalize List.range ppeNum = ids
  induction ids generalizing priv with
  | nil => exact uniform
  | cons ppeId rest ih => exact ih (hnatStop_uniform ppeId uniform)

/-- Writing the fields again changes nothing where they all are the current one. -/
theorem hnatWarmInit_same (ppeNum : Nat) (priv : HnatStart)
    (written : ∀ ppeId < ppeNum, priv.tbEtryNum ppeId = some priv.etryNumCfg) :
    hnatWarmInit ppeNum priv = priv := by
  unfold hnatWarmInit
  induction ppeNum with
  | zero => rfl
  | succ n ih =>
    rw [List.range_succ, List.foldl_append, ih fun ppeId below => written ppeId (by omega)]
    simp only [List.foldl_cons, List.foldl_nil, hnatHwInit, ← written n (by omega),
      Function.update_eq_self]

theorem probing_fields (k : Nat) (ok : (probing perFlowAccounting fails k).2 = true) :
    ∀ ppeId < k, (probing perFlowAccounting fails k).1.tbEtryNum ppeId ≠ none := by
  induction k with
  | zero => exact fun ppeId below => absurd below (Nat.not_lt_zero ppeId)
  | succ k ih =>
    have all := (probing_snd (k + 1)).mp ok
    have earlier := (probing_snd k).mpr fun ppeId below => all ppeId (by omega)
    rw [probing_succ, if_pos earlier]
    have started : Started fails k (probing perFlowAccounting fails k).1
      (hnatStart perFlowAccounting fails k (probing perFlowAccounting fails k).1).1
      (starts perFlowAccounting fails k) := hnatStart_started k _
    rw [all k (Nat.lt_succ_self k)] at started
    intro ppeId below
    cases started with
    | mapped cfg ok found num foe mib field =>
      rw [field, if_pos rfl]
      by_cases same : ppeId = k
      · rw [same, Function.update_self]
        simp
      · rw [Function.update_of_ne same]
        exact ih earlier ppeId (by omega)

theorem agreedThroughout_of_firstAttempts (ppeNum : Nat)
    (attempts : FirstAttempts perFlowAccounting fails ppeNum) :
    AgreedThroughout perFlowAccounting fails ppeNum := by
  have uniform := fun k bound => (probing_uniform ppeNum attempts k bound).1
  refine ⟨fun k bound => (uniform k bound).agreed,
    (stopAll_uniform ppeNum (uniform ppeNum (le_refl _))).agreed, ?_⟩
  intro ok inits
  have written : ∀ ppeId < ppeNum, (probing perFlowAccounting fails ppeNum).1.tbEtryNum ppeId =
      some (probing perFlowAccounting fails ppeNum).1.etryNumCfg := by
    intro ppeId below
    obtain ⟨cfg, value⟩ := Option.ne_none_iff_exists'.mp (probing_fields ppeNum ok ppeId below)
    rw [value, ((uniform ppeNum (le_refl _)).field ppeId cfg value).2]
  have same : (hnatWarmInit ppeNum)^[inits] (probing perFlowAccounting fails ppeNum).1 =
      (probing perFlowAccounting fails ppeNum).1 :=
    Function.iterate_fixed (hnatWarmInit_same ppeNum _ written) inits
  change Agreed ((hnatWarmInit ppeNum)^[inits] (probing perFlowAccounting fails ppeNum).1) ∧
    Agreed (stopAll perFlowAccounting ppeNum
      ((hnatWarmInit ppeNum)^[inits] (probing perFlowAccounting fails ppeNum).1))
  rw [same]
  exact ⟨(uniform ppeNum (le_refl _)).agreed,
    (stopAll_uniform ppeNum (uniform ppeNum (le_refl _))).agreed⟩

theorem freed_foldl (ids : List Nat) (priv : HnatStart) (f : Free) (old : f ∈ priv.freed) :
    f ∈ (ids.foldl (fun priv id => hnatStop perFlowAccounting id priv) priv).freed := by
  induction ids generalizing priv with
  | nil => exact old
  | cons id rest ih =>
    apply ih
    simp only [hnatStop, List.mem_append]
    exact Or.inl (Or.inl old)

/-- A table that is there when the PPEs are stopped is freed, at the size of that moment. -/
theorem freed_table (ids : List Nat) (priv : HnatStart) (ppeId n : Nat) (member : ppeId ∈ ids)
    (table : priv.foeTableCpu ppeId = some n) :
    Free.mk .foe n priv.foeEtryNum ∈
      (ids.foldl (fun priv id => hnatStop perFlowAccounting id priv) priv).freed := by
  induction ids generalizing priv with
  | nil => cases member
  | cons id rest ih =>
    by_cases same : ppeId = id
    · subst same
      apply freed_foldl rest
      simp [hnatStop, table]
    · rcases List.mem_cons.mp member with first | later
      · exact absurd first same
      · have kept : (hnatStop perFlowAccounting id priv).foeTableCpu ppeId = some n := by
          simp only [hnatStop, Function.update_of_ne same, table]
        exact ih _ later kept

/-- More starts do not give the entries back, and keep the tables that are there. -/
theorem probing_later (k more : Nat) :
    (probing perFlowAccounting fails (k + more)).1.foeEtryNum ≤
      (probing perFlowAccounting fails k).1.foeEtryNum ∧
    ∀ ppeId < k, (probing perFlowAccounting fails (k + more)).1.foeTableCpu ppeId =
      (probing perFlowAccounting fails k).1.foeTableCpu ppeId := by
  induction more with
  | zero => exact ⟨le_refl _, fun _ _ => rfl⟩
  | succ more ih =>
    rw [← Nat.add_assoc, probing_succ]
    split_ifs
    · have started : Started fails (k + more) (probing perFlowAccounting fails (k + more)).1
        (hnatStart perFlowAccounting fails (k + more)
          (probing perFlowAccounting fails (k + more)).1).1
        (starts perFlowAccounting fails (k + more)) := hnatStart_started (k + more) _
      refine ⟨started.num_le.trans ih.1, ?_⟩
      intro ppeId below
      rw [started.other ppeId (by omega)]
      exact ih.2 ppeId below
    · exact ih

theorem first_refusal_disagrees (ppeNum ppeId : Nat) (below : ppeId < ppeNum)
    (later : 0 < ppeId) (tried : ∀ earlier < ppeId, starts perFlowAccounting fails earlier)
    (refusal : fails.foe ppeId 3 = true) : ¬AgreedThroughout perFlowAccounting fails ppeNum := by
  rintro ⟨during, stopped, -⟩
  have ok := (probing_snd ppeId).mpr tried
  have agreed : Agreed (probing perFlowAccounting fails ppeId).1 := during ppeId below.le
  -- the first PPE has a table, of the size that its field says
  obtain ⟨cfg, field⟩ := Option.ne_none_iff_exists'.mp (probing_fields ppeId ok 0 later)
  have table : ∃ n, (probing perFlowAccounting fails ppeId).1.foeTableCpu 0 = some n := by
    have first : Started fails 0 zeroed (hnatStart perFlowAccounting fails 0 zeroed).1
      (starts perFlowAccounting fails 0) := hnatStart_started 0 zeroed
    have kept := (@probing_later perFlowAccounting fails 1 (ppeId - 1)).2 0 Nat.one_pos
    rw [show 1 + (ppeId - 1) = ppeId by omega] at kept
    rw [kept, probing_one]
    rw [tried 0 later] at first
    cases first with
    | mapped cfg ok found num foe => exact ⟨_, by rw [foe, Function.update_self]⟩
  obtain ⟨n, table⟩ := table
  have size := agreed.field 0 cfg n field table
  have atMost := agreed.foe 0 n table
  have positive : 0 < n := by
    rw [← size, Nat.shiftLeft_eq]
    positivity
  -- the refusal halves the entry count, at which that table is then freed
  have started : Started fails ppeId (probing perFlowAccounting fails ppeId).1
    (hnatStart perFlowAccounting fails ppeId (probing perFlowAccounting fails ppeId).1).1
    (starts perFlowAccounting fails ppeId) := hnatStart_started ppeId _
  have half := started.num_half refusal
  have next : probing perFlowAccounting fails (ppeId + 1) = hnatStart perFlowAccounting fails
      ppeId (probing perFlowAccounting fails ppeId).1 := by rw [probing_succ, if_pos ok]
  obtain ⟨less, kept⟩ := @probing_later perFlowAccounting fails (ppeId + 1) (ppeNum - (ppeId + 1))
  rw [show ppeId + 1 + (ppeNum - (ppeId + 1)) = ppeNum by omega, next] at less kept
  have last : (probing perFlowAccounting fails ppeNum).1.foeTableCpu 0 = some n := by
    rw [kept 0 (by omega), started.other 0 (by omega), table]
  have freed := stopped.freed _ (freed_table (List.range ppeNum)
    (probing perFlowAccounting fails ppeNum).1 0 n (List.mem_range.mpr (by omega)) last)
  dsimp only at freed
  omega

theorem firstAttempts_of_agreedThroughout (ppeNum : Nat)
    (agreed : AgreedThroughout perFlowAccounting fails ppeNum) :
    FirstAttempts perFlowAccounting fails ppeNum := by
  constructor
  · intro ppeId below later tried
    by_contra refusal
    simp only [Bool.not_eq_false] at refusal
    exact first_refusal_disagrees ppeNum ppeId below later tried refusal agreed
  · intro refusal two zero
    by_contra one
    simp only [Bool.not_eq_false] at one
    have tried : ∀ earlier < 1, starts perFlowAccounting fails earlier = true := by
      intro earlier below
      rwa [show earlier = 0 by omega]
    have second : fails.foe 1 3 = false := by
      by_contra again
      simp only [Bool.not_eq_false] at again
      exact first_refusal_disagrees ppeNum 1 two Nat.one_pos tried again agreed
    -- the second PPE gets the halved count at once, and the field of the full one
    have started : Started fails 1 (probing perFlowAccounting fails 1).1
      (hnatStart perFlowAccounting fails 1 (probing perFlowAccounting fails 1).1).1
      (starts perFlowAccounting fails 1) := hnatStart_started 1 _
    have next : probing perFlowAccounting fails 2 = hnatStart perFlowAccounting fails 1
        (probing perFlowAccounting fails 1).1 := by
      rw [probing_succ, if_pos ((probing_snd 1).mpr tried)]
    have first : Started fails 0 zeroed (probing perFlowAccounting fails 1).1
        (starts perFlowAccounting fails 0) := by
      rw [probing_one]
      exact hnatStart_started 0 zeroed
    have half := first.num_half refusal
    have field := (agreed.1 2 two).field 1
    change ∀ cfg n, (probing perFlowAccounting fails 2).1.tbEtryNum 1 = some cfg →
      (probing perFlowAccounting fails 2).1.foeTableCpu 1 = some n → _ at field
    rw [next] at field
    rw [one] at started
    cases started with
    | mapped cfg ok found num foe mib tb =>
      rw [mapFoeTable_first _ defEtryNumCfg _ second] at found num
      obtain rfl := Option.some.inj found
      have size := field defEtryNumCfg _ (by rw [tb, if_pos rfl, Function.update_self])
        (by rw [foe, Function.update_self])
      rw [num] at size
      change 8192 = _ at size
      change _ ≤ 4096 at half
      dsimp only at size
      omega

end Steps

/-- The sizes agree throughout exactly if every PPE that is tried after the first gets its FOE
table at the first attempt, and so does the first one unless the second is not started. -/
theorem agreedThroughout_iff (perFlowAccounting : Bool) (fails : AllocFails) (ppeNum : Nat) :
    AgreedThroughout perFlowAccounting fails ppeNum ↔
      FirstAttempts perFlowAccounting fails ppeNum :=
  ⟨firstAttempts_of_agreedThroughout ppeNum, agreedThroughout_of_firstAttempts ppeNum⟩

/-- The largest table is refused to the second of two PPEs: the first keeps its 8192 entries,
and frees 4096 of them. -/
theorem second_refused_disagrees :
    ¬∀ perFlowAccounting fails ppeNum, AgreedThroughout perFlowAccounting fails ppeNum := by
  intro agreed
  have freed := (agreed false ⟨fun ppeId cfg => ppeId = 1 ∧ cfg = 3, fun _ => false,
    fun _ => false⟩ 2).2.1.freed
  revert freed
  decide

end Filogic.Hnat
