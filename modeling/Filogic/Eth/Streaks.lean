import Filogic.Eth.Monitor

/-! When a monitor's counter is the length of the current run of hanging samples, and its report
the sign that this run has reached the threshold. -/

namespace Filogic.Eth
open Lib

/-- The shapes of the counting code, with their bounds. -/
inductive Rule where
  | plain (n : Nat) | inner (n : Nat) | above (n : Nat)

def Rule.count : Rule → Bool → U32 → U32 × Bool
  | .plain n => tally n
  | .inner n => tallyInner n
  | .above n => tallyAbove n

/-- The number of hanging samples at which the code raises the error flag. -/
def Rule.threshold : Rule → Nat
  | .plain n | .inner n => n
  | .above n => n + 1

/-- The shapes that throw the count away. -/
def Rule.faulty : Rule → Bool
  | .plain _ => false
  | .inner _ | .above _ => true

/-- The counters of a monitor: a PSE queue, the MAC part of a port, and the engine or port. -/
inductive Counter where
  | queue (port : Nat) | gmac (i : Nat) | engine (i : Nat)
  deriving DecidableEq, Repr

/-- A monitor with its counters: the hang condition of each at a sample, none where the monitor
skips it, and the proof that the code counts by the rule. -/
structure Monitor where
  Statics : Type
  start : Statics
  call : Sample → Statics → Statics × U32
  errCnt : Statics → Counter → U32
  hang : Sample → Statics → Counter → Option Bool
  rule : Counter → Rule
  alarm : Counter → Bool
  zero : ∀ c, errCnt start c = 0
  bound : ∀ c, 1 < (rule c).threshold
  counts : ∀ x s c, errCnt (call x s).1 c =
    match hang x s c with
    | some held => ((rule c).count held (errCnt s c)).1
    | none => errCnt s c
  reports : ∀ x s, (call x s).2 ≠ 0 ↔ ∃ c, alarm c = true ∧ ∃ held, hang x s c = some held ∧
    ((rule c).count held (errCnt s c)).2 = true

namespace Monitor

variable (m : Monitor)

/-- A monitor and, for each counter, whether its condition held at the samples taken so far,
newest first. -/
structure Watched where
  statics : m.Statics
  seen : Counter → List Bool

def fresh : m.Watched := { statics := m.start, seen := fun _ => [] }

def watch (w : m.Watched) (x : Sample) : m.Watched :=
  { statics := (m.call x w.statics).1
    seen := fun c => (m.hang x w.statics c).toList ++ w.seen c }

/-- The monitor reports at a sample exactly if one of its hang conditions, taken at this sample,
has held at the last `threshold` samples; and each counter is the length of the current run. -/
def Prompt (w : m.Watched) (x : Sample) : Prop :=
  ((m.call x w.statics).2 ≠ 0 ↔ ∃ c, m.alarm c = true ∧ (m.hang x w.statics c).isSome ∧
    (m.rule c).threshold ≤ streak ((m.watch w x).seen c)) ∧
  ∀ c, (m.errCnt (m.watch w x).statics c).toNat = streak ((m.watch w x).seen c)

/-- No condition counted by a faulty shape holds at the sample, and no other has held at `2^32`
samples in a row. -/
def Calm (w : m.Watched) (x : Sample) : Prop :=
  ∀ c, if (m.rule c).faulty then m.hang x w.statics c ≠ some true
    else streak ((m.watch w x).seen c) < 2 ^ 32

/-- What the counters are worth after any samples. -/
def Counted (w : m.Watched) : Prop :=
  ∀ c, m.errCnt w.statics c =
    if (m.rule c).faulty then 0 else BitVec.ofNat 32 (streak (w.seen c))

/-- What they are worth where the conditions of the faulty shapes never held. -/
def Even (w : m.Watched) : Prop :=
  m.Counted w ∧ ∀ c, (m.rule c).faulty → streak (w.seen c) = 0

variable {m}

/-- A faulty shape is back at zero after every sample, and raises no flag. -/
theorem count_faulty (rule : Rule) (faulty : rule.faulty = true) (bound : 1 < rule.threshold)
    (held : Bool) : rule.count held 0 = (0, false) := by
  cases rule with
  | plain n => simp [Rule.faulty] at faulty
  | inner n =>
    simp only [Rule.threshold] at bound
    cases held
    · rfl
    · simp [Rule.count, tallyInner, show ¬n ≤ 1 by omega]
  | above n =>
    simp only [Rule.threshold] at bound
    cases held
    · simp [Rule.count, tallyAbove]
    · simp [Rule.count, tallyAbove, show ¬n < 1 by omega]

theorem count_sound (rule : Rule) (sound : rule.faulty = false) (held : Bool) (n : Nat) :
    (rule.count held (BitVec.ofNat 32 n)).1 =
      BitVec.ofNat 32 (if held then n + 1 else 0) := by
  cases rule with
  | plain k =>
    cases held
    · rfl
    · simp [Rule.count, tally, BitVec.ofNat_add]
  | inner k => simp [Rule.faulty] at sound
  | above k => simp [Rule.faulty] at sound

/-- The flag is raised exactly where the counter has reached the threshold. -/
theorem count_flag (rule : Rule) (bound : 1 < rule.threshold) (held : Bool) (cnt : U32)
    (zero : rule.faulty = true → cnt = 0) :
    (rule.count held cnt).2 = true ↔ rule.threshold ≤ (rule.count held cnt).1.toNat := by
  by_cases faulty : rule.faulty
  · rw [zero faulty, count_faulty rule faulty bound]
    rw [show (0 : U32).toNat = 0 from rfl]
    simp only [Bool.false_eq_true, false_iff]
    omega
  · cases rule with
    | plain n =>
      simp only [Rule.threshold] at bound
      cases held
      · simp [Rule.count, Rule.threshold, tally]
        omega
      · simp [Rule.count, Rule.threshold, tally]
    | inner n => simp [Rule.faulty] at faulty
    | above n => simp [Rule.faulty] at faulty

theorem streak_seen (w : m.Watched) (x : Sample) (c : Counter) :
    streak ((m.watch w x).seen c) =
      match m.hang x w.statics c with
      | some held => if held then streak (w.seen c) + 1 else 0
      | none => streak (w.seen c) := by
  simp only [watch]
  rcases m.hang x w.statics c with _ | held
  · rfl
  · cases held <;> rfl

/-- One sample keeps the worth of the counters. -/
theorem counted_watch (w : m.Watched) (x : Sample) (counted : m.Counted w) :
    m.Counted (m.watch w x) := by
  intro c
  have before := counted c
  rw [streak_seen]
  change m.errCnt (m.call x w.statics).1 c = _
  rw [m.counts]
  rcases hang : m.hang x w.statics c with _ | held
  · exact before
  · dsimp only
    rw [before]
    by_cases faulty : (m.rule c).faulty
    · simp only [faulty, if_true, count_faulty _ faulty (m.bound c)]
    · simp only [Bool.not_eq_true] at faulty
      simp only [faulty, Bool.false_eq_true, if_false]
      rw [count_sound _ faulty]

theorem counted_fresh : m.Counted m.fresh := by
  intro c
  rw [show m.fresh.statics = m.start from rfl, m.zero]
  split_ifs <;> rfl

/-- At a sample at which nothing faulty was ever seen to hang, prompt and calm are one. -/
theorem prompt_iff_calm (w : m.Watched) (x : Sample) (even : m.Even w) :
    m.Prompt w x ↔ m.Calm w x := by
  obtain ⟨counted, quiet⟩ := even
  have after := counted_watch w x counted
  constructor
  · rintro ⟨-, exactly⟩ c
    have same := exactly c
    rw [after c] at same
    split_ifs at same ⊢ with faulty
    · intro hang
      rw [streak_seen, hang] at same
      simp at same
    · rw [BitVec.toNat_ofNat] at same
      omega
  · intro calm
    have exactly : ∀ c, (m.errCnt (m.watch w x).statics c).toNat =
        streak ((m.watch w x).seen c) := by
      intro c
      have calm := calm c
      rw [after c]
      split_ifs at calm ⊢ with faulty
      · rw [streak_seen]
        rcases hang : m.hang x w.statics c with _ | held
        · exact (quiet c faulty).symm
        · cases held
          · rfl
          · exact absurd hang calm
      · rw [BitVec.toNat_ofNat]
        omega
    refine ⟨?_, exactly⟩
    rw [m.reports]
    apply exists_congr
    intro c
    rw [and_congr_right_iff]
    intro _
    have worth := m.counts x w.statics c
    rcases hang : m.hang x w.statics c with _ | held
    · simp
    · simp only [hang] at worth
      simp only [Option.some.injEq, exists_eq_left', Option.isSome_some, true_and]
      rw [← exactly c]
      change _ ↔ _ ≤ (m.errCnt (m.call x w.statics).1 c).toNat
      rw [worth]
      apply count_flag _ (m.bound c)
      intro faulty
      rw [counted c, if_pos faulty]

theorem even_watch (w : m.Watched) (x : Sample) (even : m.Even w) (calm : m.Calm w x) :
    m.Even (m.watch w x) := by
  refine ⟨counted_watch w x even.1, ?_⟩
  intro c faulty
  have calm := calm c
  rw [if_pos faulty] at calm
  rw [streak_seen]
  rcases hang : m.hang x w.statics c with _ | held
  · exact even.2 c faulty
  · cases held
    · rfl
    · exact absurd hang calm

/-- Along a whole trace of samples. -/
theorem prompt_along_iff (samples : List Sample) :
    Along m.watch m.Prompt m.fresh samples ↔ Along m.watch m.Calm m.fresh samples := by
  apply along_congr _ _ _ m.Even
  · exact fun w x even => prompt_iff_calm w x even
  · exact fun w x even prompt => even_watch w x even ((prompt_iff_calm w x even).mp prompt)
  · exact ⟨counted_fresh, fun _ _ => rfl⟩

end Monitor

/-! ## The nine monitors -/

section Monitors

variable (soc : Soc)

theorem checkQueues_apply (x : Sample) (queue : Nat → OqSta) (port : Nat) :
    checkQueues x queue port =
      if port ∈ oqPorts then mtkCheckPseOqSta x port (queue port) else queue port :=
  foldl_update (mtkCheckPseOqSta x) oqPorts (by decide) queue port

theorem event_ne_zero (flag : Bool) (event : U32) (named : event ≠ 0) :
    (if flag then event else 0) ≠ 0 ↔ flag = true := by
  cases flag
  · simp
  · simpa using named

def wdmaTxMonitor : Monitor where
  Statics := WdmaTx
  start := ⟨fun _ => ⟨0, 0⟩, fun _ => ⟨0, 0⟩⟩
  call := mtkMonitorWdmaTx soc
  errCnt s
    | .queue port => (s.queue port).errOpq
    | .engine i => (s.wdma i).errCnt
    | .gmac _ => 0
  hang x s
    | .queue port => if port ∈ oqPorts then some (oqStuck x port (s.queue port)) else none
    | .engine i =>
      if i < soc.wdmaCnt then some (wdmaTxHang x (errOpq (checkQueues x s.queue)) i (s.wdma i))
      else none
    | .gmac _ => none
  rule _ := .plain 3
  alarm
    | .engine _ => true
    | _ => false
  zero c := by cases c <;> rfl
  bound _ := by decide
  counts x s c := by
    cases c with
    | queue port =>
      simp only [mtkMonitorWdmaTx, checkQueues_apply]
      split_ifs <;> rfl
    | gmac i => rfl
    | engine i =>
      simp only [mtkMonitorWdmaTx, sweep_fst]
      split_ifs <;> rfl
  reports x s := by
    unfold mtkMonitorWdmaTx
    dsimp only
    rw [event_ne_zero _ _ (by decide), sweep_snd]
    constructor
    · rintro ⟨i, below, hit⟩
      exact ⟨.engine i, rfl, _, if_pos below, hit⟩
    · rintro ⟨c, alarm, held, taken, hit⟩
      cases c with
      | engine i =>
        dsimp only at taken hit
        split_ifs at taken with below
        obtain rfl := Option.some.inj taken
        exact ⟨i, below, hit⟩
      | queue port => cases alarm
      | gmac i => cases alarm

def wdmaRxMonitor : Monitor where
  Statics := Nat → WdmaRxUnit
  start := fun _ => ⟨0, 0, 0, 0⟩
  call := mtkMonitorWdmaRx soc
  errCnt s
    | .engine i => (s i).errCnt
    | _ => 0
  hang x s
    | .engine i => if i < soc.wdmaCnt then some (wdmaRxHang x i (s i)) else none
    | _ => none
  rule _ := .plain 3
  alarm _ := true
  zero c := by cases c <;> rfl
  bound _ := by decide
  counts x s c := by
    cases c with
    | queue port => rfl
    | gmac i => rfl
    | engine i =>
      simp only [mtkMonitorWdmaRx, sweep_fst]
      split_ifs <;> rfl
  reports x s := by
    unfold mtkMonitorWdmaRx
    dsimp only
    rw [event_ne_zero _ _ (by decide), sweep_snd]
    constructor
    · rintro ⟨i, below, hit⟩
      exact ⟨.engine i, rfl, _, if_pos below, hit⟩
    · rintro ⟨c, -, held, taken, hit⟩
      cases c with
      | engine i =>
        dsimp only at taken hit
        split_ifs at taken with below
        obtain rfl := Option.some.inj taken
        exact ⟨i, below, hit⟩
      | queue port => cases taken
      | gmac i => cases taken

/-- A monitor of one engine. -/
def single (Statics : Type) (start : Statics) (call : Sample → Statics → Statics × U32)
    (errCnt : Statics → U32) (hang : Sample → Statics → Option Bool) (rule : Rule)
    (zero : errCnt start = 0) (bound : 1 < rule.threshold)
    (counts : ∀ x s, errCnt (call x s).1 =
      match hang x s with
      | some held => (rule.count held (errCnt s)).1
      | none => errCnt s)
    (reports : ∀ x s, (call x s).2 ≠ 0 ↔
      ∃ held, hang x s = some held ∧ (rule.count held (errCnt s)).2 = true) : Monitor where
  Statics := Statics
  start := start
  call := call
  errCnt s c := if c = .engine 0 then errCnt s else 0
  hang x s c := if c = .engine 0 then hang x s else none
  rule _ := rule
  alarm _ := true
  zero c := by
    split_ifs
    · exact zero
    · rfl
  bound _ := bound
  counts x s c := by
    split_ifs
    · exact counts x s
    · rfl
  reports x s := by
    rw [reports]
    constructor
    · rintro ⟨held, taken, hit⟩
      exact ⟨.engine 0, rfl, held, by rwa [if_pos rfl], by rwa [if_pos rfl]⟩
    · rintro ⟨c, -, held, taken, hit⟩
      split_ifs at taken hit
      exact ⟨held, taken, hit⟩

def qdmaTxMonitor : Monitor :=
  single QdmaTx ⟨fun _ => 0, 0⟩ (mtkMonitorQdmaTx soc) (·.errCntQtx)
    (fun x s => some (qdmaTxHang soc x s)) (.plain 3) rfl (by decide) (fun _ _ => rfl) (by
      intro x s
      simp only [Option.some.injEq, exists_eq_left']
      exact event_ne_zero _ _ (by decide))

def qdmaRxMonitor : Monitor :=
  single QdmaRx ⟨0, 0, 0⟩ mtkMonitorQdmaRx (·.errCntQrx) (fun x s => some (qdmaRxHang x s))
    (.inner 3) rfl (by decide) (fun _ _ => rfl) (by
      intro x s
      simp only [Option.some.injEq, exists_eq_left']
      exact event_ne_zero _ _ (by decide))

def admaRxMonitor : Monitor :=
  single AdmaRx ⟨0, 0, 0⟩ mtkMonitorAdmaRx (·.errCntArx) (fun x s => some (admaRxHang x s))
    (.plain 3) rfl (by decide) (fun _ _ => rfl) (by
      intro x s
      simp only [Option.some.injEq, exists_eq_left']
      exact event_ne_zero _ _ (by decide))

def tdmaTxMonitor : Monitor :=
  single TdmaTx ⟨0, 0, false⟩ (mtkMonitorTdmaTx soc) (·.errCntTtx)
    (fun x s => if soc.netsysV3 then some (tdmaTxHang x s) else none) (.plain 3) rfl (by decide)
    (by
      intro x s
      unfold mtkMonitorTdmaTx
      split_ifs <;> rfl)
    (by
      intro x s
      unfold mtkMonitorTdmaTx
      split_ifs
      · simp only [Option.some.injEq, exists_eq_left']
        exact event_ne_zero _ _ (by decide)
      · simp)

def tdmaRxMonitor : Monitor :=
  single TdmaRx ⟨0, false⟩ (mtkMonitorTdmaRx soc) (·.errCntTrx)
    (fun x s => if soc.netsysV3 then some (tdmaRxHang x s) else none) (.plain 3) rfl (by decide)
    (by
      intro x s
      unfold mtkMonitorTdmaRx
      split_ifs <;> rfl)
    (by
      intro x s
      unfold mtkMonitorTdmaRx
      split_ifs
      · simp only [Option.some.injEq, exists_eq_left']
        exact event_ne_zero _ _ (by decide)
      · simp)

/-- The body of a loop over the ports: it counts by the rule, and skips a port that is down. -/
def CountsPorts {δ : Type} (x : Sample) (rule : Rule) (cnt : δ → U32) (hang : Nat → δ → Bool)
    (body : Nat → δ → δ × Bool) : Prop :=
  ∀ i s, if x.up i then (cnt (body i s).1, (body i s).2) = rule.count (hang i s) (cnt s)
    else body i s = (s, false)

namespace CountsPorts

variable {δ : Type} {x : Sample} {rule : Rule} {cnt : δ → U32} {hang : Nat → δ → Bool}
  {body : Nat → δ → δ × Bool}

theorem fst (loop : CountsPorts x rule cnt hang body) (n i : Nat) (array : Nat → δ) :
    cnt ((sweep body n array).1 i) =
      match if i < n ∧ x.up i then some (hang i (array i)) else none with
      | some held => (rule.count held (cnt (array i))).1
      | none => cnt (array i) := by
  have at_i := loop i (array i)
  rw [sweep_fst]
  by_cases below : i < n
  · by_cases up : x.up i
    · rw [if_pos up] at at_i
      rw [if_pos below, if_pos ⟨below, up⟩]
      exact congrArg Prod.fst at_i
    · rw [if_neg up] at at_i
      rw [if_pos below, if_neg fun both => up both.2, at_i]
  · rw [if_neg below, if_neg fun both => below both.1]

theorem snd (loop : CountsPorts x rule cnt hang body) (n : Nat) (array : Nat → δ) :
    (sweep body n array).2 = true ↔ ∃ i held,
      (if i < n ∧ x.up i then some (hang i (array i)) else none) = some held ∧
        (rule.count held (cnt (array i))).2 = true := by
  rw [sweep_snd]
  apply exists_congr
  intro i
  have at_i := loop i (array i)
  constructor
  · rintro ⟨below, hit⟩
    have up : x.up i := by
      by_contra down
      rw [if_neg down] at at_i
      rw [at_i] at hit
      cases hit
    rw [if_pos up] at at_i
    exact ⟨_, if_pos ⟨below, up⟩, by rwa [← at_i]⟩
  · rintro ⟨held, taken, hit⟩
    split_ifs at taken with both
    obtain rfl := Option.some.inj taken
    rw [if_pos both.2] at at_i
    exact ⟨both.1, by rwa [← at_i] at hit⟩

end CountsPorts

theorem gmacRxUnit_counts (x : Sample) :
    CountsPorts x (.above 4) (·.gmacCnt) (gmacRxHang x) (gmacRxUnit x) := by
  intro i s
  unfold gmacRxUnit
  split_ifs <;> rfl

theorem gdmRxUnit_counts (x : Sample) :
    CountsPorts x (.plain 3) (·.gdmCnt) (gdmRxHang x) (gdmRxUnit x) := by
  intro i s
  unfold gdmRxUnit
  split_ifs <;> rfl

theorem gmacTxUnit_counts (x : Sample) :
    CountsPorts x (.above 4) (·.errCnt) (gmacTxHang x) (gmacTxUnit x) := by
  intro i s
  unfold gmacTxUnit
  split_ifs <;> rfl

theorem gdmTxUnit_counts (x : Sample) :
    CountsPorts x (.above 4) (·.gdmErrCnt) (gdmTxHang x) (gdmTxUnit x) := by
  intro i s
  unfold gdmTxUnit
  split_ifs <;> rfl

def gdmRxMonitor : Monitor where
  Statics := GdmRx
  start := ⟨fun _ => ⟨0, 0⟩, fun _ => ⟨0, 0, 0⟩⟩
  call := mtkMonitorGdmRx soc
  errCnt s
    | .gmac i => (s.gmac i).gmacCnt
    | .engine i => (s.gdm i).gdmCnt
    | .queue _ => 0
  hang x s
    | .gmac i => if i < soc.maxDevs ∧ x.up i then some (gmacRxHang x i (s.gmac i)) else none
    | .engine i =>
      if soc.netsysV3 then
        if i < soc.maxDevs ∧ x.up i then some (gdmRxHang x i (s.gdm i)) else none
      else none
    | .queue _ => none
  rule
    | .gmac _ => .above 4
    | _ => .plain 3
  alarm _ := true
  zero c := by cases c <;> rfl
  bound c := by cases c <;> simp [Rule.threshold]
  counts x s c := by
    cases c with
    | queue port => rfl
    | gmac i => exact (gmacRxUnit_counts x).fst soc.maxDevs i s.gmac
    | engine i =>
      simp only [mtkMonitorGdmRx]
      by_cases v3 : soc.netsysV3
      · rw [if_pos v3, if_pos v3]
        exact (gdmRxUnit_counts x).fst soc.maxDevs i s.gdm
      · rw [if_neg v3, if_neg v3]
  reports x s := by
    unfold mtkMonitorGdmRx
    dsimp only
    have gmac := (gmacRxUnit_counts x).snd soc.maxDevs s.gmac
    have gdm := (gdmRxUnit_counts x).snd soc.maxDevs s.gdm
    rw [event_ne_zero _ _ (by decide), Bool.or_eq_true, gmac]
    constructor
    · rintro (⟨i, held, taken, hit⟩ | hit)
      · exact ⟨.gmac i, rfl, held, taken, hit⟩
      · split_ifs at hit with v3
        obtain ⟨i, held, taken, hit⟩ := gdm.mp hit
        exact ⟨.engine i, rfl, held, (if_pos v3).trans taken, hit⟩
    · rintro ⟨c, -, held, taken, hit⟩
      cases c with
      | queue port => cases taken
      | gmac i => exact Or.inl ⟨i, held, taken, hit⟩
      | engine i =>
        right
        dsimp only at taken
        by_cases v3 : soc.netsysV3
        · rw [if_pos v3] at taken ⊢
          exact gdm.mpr ⟨i, held, taken, hit⟩
        · rw [if_neg v3] at taken
          cases taken

def gdmTxMonitor : Monitor where
  Statics := GdmTx
  start := ⟨fun _ => ⟨0, 0⟩, fun _ => ⟨0, 0, 0⟩⟩
  call := mtkMonitorGdmTx soc
  errCnt s
    | .gmac i => (s.gmac i).errCnt
    | .engine i => (s.gdm i).gdmErrCnt
    | .queue _ => 0
  hang x s
    | .gmac i => if i < soc.maxDevs ∧ x.up i then some (gmacTxHang x i (s.gmac i)) else none
    | .engine i => if i < soc.maxDevs ∧ x.up i then some (gdmTxHang x i (s.gdm i)) else none
    | .queue _ => none
  rule _ := .above 4
  alarm _ := true
  zero c := by cases c <;> rfl
  bound c := by decide
  counts x s c := by
    cases c with
    | queue port => rfl
    | gmac i => exact (gmacTxUnit_counts x).fst soc.maxDevs i s.gmac
    | engine i => exact (gdmTxUnit_counts x).fst soc.maxDevs i s.gdm
  reports x s := by
    unfold mtkMonitorGdmTx
    dsimp only
    have gmac := (gmacTxUnit_counts x).snd soc.maxDevs s.gmac
    have gdm := (gdmTxUnit_counts x).snd soc.maxDevs s.gdm
    rw [event_ne_zero _ _ (by decide), Bool.or_eq_true, gmac, gdm]
    constructor
    · rintro (⟨i, held, taken, hit⟩ | ⟨i, held, taken, hit⟩)
      · exact ⟨.gmac i, rfl, held, taken, hit⟩
      · exact ⟨.engine i, rfl, held, taken, hit⟩
    · rintro ⟨c, -, held, taken, hit⟩
      cases c with
      | queue port => cases taken
      | gmac i => exact Or.inl ⟨i, held, taken, hit⟩
      | engine i => exact Or.inr ⟨i, held, taken, hit⟩

/-- The members of `mtk_reset_monitor_func`. -/
inductive MonitorId where
  | wdmaTx | wdmaRx | qdmaTx | qdmaRx | admaRx | tdmaTx | tdmaRx | gdmTx | gdmRx
  deriving DecidableEq, Repr

def monitor : MonitorId → Monitor
  | .wdmaTx => wdmaTxMonitor soc
  | .wdmaRx => wdmaRxMonitor soc
  | .qdmaTx => qdmaTxMonitor soc
  | .qdmaRx => qdmaRxMonitor
  | .admaRx => admaRxMonitor
  | .tdmaTx => tdmaTxMonitor soc
  | .tdmaRx => tdmaRxMonitor soc
  | .gdmTx => gdmTxMonitor soc
  | .gdmRx => gdmRxMonitor soc

/-- Whatever a monitor samples, all is well at every sample exactly if the conditions that
`mtk_monitor_qdma_rx`, `mtk_monitor_gdm_tx` and the MAC part of `mtk_monitor_gdm_rx` count never
hold, and no other holds at `2^32` samples in a row. -/
theorem monitor_prompt_iff (id : MonitorId) (samples : List Sample) :
    Along (monitor soc id).watch (monitor soc id).Prompt (monitor soc id).fresh samples ↔
      Along (monitor soc id).watch (monitor soc id).Calm (monitor soc id).fresh samples :=
  Monitor.prompt_along_iff samples

/-- The queue's free list stands at zero and its state machine at 9. -/
def stuckFreeQueue : Sample :=
  { r32 := fun reg => if reg = .qdmaFsm then 9 else 0
    mac := fun _ => false
    netifRunning := fun _ => false
    hwStats := fun _ => ⟨0, 0, 0⟩ }

/-- Three samples at which the QDMA's RX side hangs are not reported. -/
theorem qdma_rx_hang_unreported :
    ¬∀ soc id samples, Along (monitor soc id).watch (monitor soc id).Prompt
      (monitor soc id).fresh samples := by
  intro prompt
  obtain ⟨-, -, ⟨reported, -⟩, -⟩ := prompt ⟨3, 3, 3, true⟩ .qdmaRx
    [stuckFreeQueue, stuckFreeQueue, stuckFreeQueue]
  have hung := reported.mpr ⟨.engine 0, by decide +kernel, by decide +kernel, by decide +kernel⟩
  exact hung (by decide +kernel)

/-! ## `mtk_dma_monitor` -/

end Monitors

end Filogic.Eth
