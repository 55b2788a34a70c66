import Filogic.Atenl.Reply

/-! Which frames keep the handlers inside of the buffer. All handlers do, but for those whose loop takes
its count from the request: the buffer ends before the declared size of the data. -/

namespace Filogic.Atenl
open Lib

/-- The program never leaves the buffer. -/
def Run.Total {α : Type} (x : Run α) : Prop := ∀ m, (x m).isSome

section Rules

variable {α β : Type}

theorem bind_apply (x : Run α) (f : α → Run β) (m : Bytes) :
    (x >>= f) m = (x m).bind fun result => f result.1 result.2 := rfl

theorem pure_apply (a : α) (m : Bytes) : (pure a : Run α) m = some (a, m) := rfl

@[grind .]
theorem total_pure (a : α) : (pure a : Run α).Total := fun _ => rfl

@[grind ←]
theorem total_bind (x : Run α) (f : α → Run β) (first : x.Total) (rest : ∀ a, (f a).Total) :
    (x >>= f).Total := by
  intro m
  obtain ⟨result, eq⟩ := Option.isSome_iff_exists.mp (first m)
  rw [bind_apply, eq]
  exact rest result.1 result.2

/-- Bytes that were fetched are as many as were asked for. -/
theorem total_fetch_bind (off len : Nat) (f : List UInt8 → Run β) (inside : 26 + off + len ≤ 1600)
    (rest : ∀ bytes, bytes.length = len → (f bytes).Total) : (fetch off len >>= f).Total := by
  intro m
  have bound : hdrData + off + len ≤ frameSize := inside
  simp only [bind_apply, fetch, if_pos bound, Option.bind_some]
  exact rest _ (Bytes.slice_length m _ len) m

@[grind ←]
theorem total_fetch (off len : Nat) (inside : 26 + off + len ≤ 1600) : (fetch off len).Total := by
  intro m
  have bound : hdrData + off + len ≤ frameSize := inside
  simp [fetch, bound]

@[grind ←]
theorem total_store (off : Nat) (bytes : List UInt8) (inside : 26 + off + bytes.length ≤ 1600) :
    (store off bytes).Total := by
  intro m
  have bound : hdrData + off + bytes.length ≤ frameSize := inside
  simp [store, bound]

@[grind ←]
theorem total_be32 (off : Nat) (inside : 30 + off ≤ 1600) : (be32 off).Total := by
  unfold be32
  grind

@[grind ←]
theorem total_be16 (off : Nat) (inside : 28 + off ≤ 1600) : (be16 off).Total := by
  unfold be16
  grind

theorem wordBytes_length (val : BitVec 32) : (wordBytes val).length = 4 := rfl

@[grind ←]
theorem total_putBe32 (off : Nat) (val : BitVec 32) (inside : 30 + off ≤ 1600) :
    (putBe32 off val).Total := by
  apply total_store
  rw [List.length_reverse, wordBytes_length]
  omega

@[grind ←]
theorem total_put32 (off : Nat) (val : BitVec 32) (inside : 30 + off ≤ 1600) :
    (put32 off val).Total := by
  apply total_store
  rw [wordBytes_length]
  omega

@[grind .]
theorem total_setLen (len : Nat) : (setLen len).Total := fun _ => rfl

@[grind .]
theorem total_putExtId (extId : BitVec 8) : (putExtId extId).Total := by
  unfold putExtId
  grind

@[grind .]
theorem total_zeroStatus (status : BitVec 16) : (zeroStatus status).Total := by
  unfold zeroStatus
  apply total_bind
  · exact total_store 0 [0, 0] (by decide)
  · exact fun _ => total_pure status

end Rules

section Loops

variable (env : Env)

@[grind ←]
theorem total_readWords (off i n : Nat) (inside : off + 4 * (i + n) ≤ 1574) :
    (readWords off i n).Total := by
  induction n generalizing i with
  | zero => exact total_pure ()
  | succ n ih =>
    have rest := ih (i + 1) (by omega)
    unfold readWords
    grind

@[grind ←]
theorem total_putStats (off i n : Nat) (inside : off + 4 * (i + n) ≤ 1574) :
    (putStats env off i n).Total := by
  induction n generalizing i with
  | zero => exact total_pure ()
  | succ n ih =>
    have rest := ih (i + 1) (by omega)
    unfold putStats
    grind

@[grind ←]
theorem total_putPaths (off i n : Nat) (inside : off + 24 * (i + n) ≤ 1574) :
    (putPaths env off i n).Total := by
  induction n generalizing i with
  | zero => exact total_pure ()
  | succ n ih =>
    have rest := ih (i + 1) (by omega)
    unfold putPaths
    grind

theorem total_ruWords (off : Nat) (inside : off ≤ 1538) : (ruWords off).Total := by
  unfold ruWords
  grind

theorem total_ruLoopAt (i n : Nat) (inside : i + n ≤ 8) : (ruLoopAt env i n).Total := by
  induction n generalizing i with
  | zero => exact total_pure 0
  | succ n ih =>
    have rest := ih (i + 1) (by omega)
    have words := total_ruWords (12 + 44 * i) (by omega)
    unfold ruLoopAt
    grind

theorem total_profileLoop (i n : Nat) (inside : i + n ≤ 64) : (profileLoop env i n).Total := by
  induction n generalizing i with
  | zero => exact total_pure none
  | succ n ih =>
    have rest := ih (i + 1) (by omega)
    unfold profileLoop
    grind

theorem popcount_le (byte : BitVec 8) : popcount byte ≤ 8 :=
  (List.length_filter_le _ _).trans (by simp)

end Loops

section Handlers

variable (env : Env) (extId : BitVec 8)

@[simp]
theorem total_hqaSetRfModeAt : hqaSetRfModeAt.Total := by
  unfold hqaSetRfModeAt
  grind

@[simp]
theorem total_hqaGetChipId : (hqaGetChipId env).Total := by
  unfold hqaGetChipId
  grind

@[simp]
theorem total_hqaGetSubChipId : (hqaGetSubChipId env).Total := by
  unfold hqaGetSubChipId
  grind

@[simp]
theorem total_hqaGetRfCap : (hqaGetRfCap env).Total := by
  unfold hqaGetRfCap
  have copy : (fetch 2 4 >>= fun ant => do store 6 ant; return (0 : BitVec 16)).Total := by
    apply total_fetch_bind 2 4 _ (by decide)
    intro ant length
    have stored := total_store 6 ant (by omega)
    grind
  grind

@[simp]
theorem total_hqaReadMacBbpRegQa : (hqaReadMacBbpRegQa env).Total := by
  unfold hqaReadMacBbpRegQa
  grind

@[simp]
theorem total_hqaWriteMacBbpReg : (hqaWriteMacBbpReg env).Total := by
  unfold hqaWriteMacBbpReg
  grind

@[simp]
theorem total_hqaWriteBufferDone : hqaWriteBufferDone.Total := by
  unfold hqaWriteBufferDone
  grind

theorem total_hqaFixed (off : Nat) (val : BitVec 32) (inside : off ≤ 6) :
    (hqaFixed off val).Total := by
  unfold hqaFixed
  grind

@[simp]
theorem total_hqaGetBand : (hqaGetBand env).Total := by
  unfold hqaGetBand
  grind

@[simp]
theorem total_hqaReadTemperature : (hqaReadTemperature env).Total := by
  unfold hqaReadTemperature
  grind

@[simp]
theorem total_hqaCheckEfuseMode (flash other : BitVec 32) :
    (hqaCheckEfuseMode env flash other).Total := by
  unfold hqaCheckEfuseMode
  grind

@[simp]
theorem total_hqaSetChannelAt : (hqaSetChannelAt env extId).Total := by
  unfold hqaSetChannelAt
  grind

@[simp]
theorem total_hqaTxTimeOption : (hqaTxTimeOption extId).Total := by
  unfold hqaTxTimeOption
  grind

@[simp]
theorem total_nlSetAttr (nests : Bool) : (nlSetAttr env nests).Total := by
  unfold nlSetAttr
  grind

@[simp]
theorem total_nlSetCfg : (nlSetCfg env).Total := by
  unfold nlSetCfg
  grind

@[simp]
theorem total_nlSetTx : (nlSetTx env extId).Total := by
  unfold nlSetTx
  grind

@[simp]
theorem total_nlTxAt (stops : Bool) : (nlTxAt env stops extId).Total := by
  unfold nlTxAt
  apply total_bind _ _ (total_be32 8 (by decide))
  intro band
  split
  · exact total_pure einval
  split
  · exact total_pure enomem
  split
  · grind
  · iterate 5
      apply total_bind _ _ (total_be32 _ (by decide))
      intro word
    grind

@[simp]
theorem total_nlRxAt (stops : Bool) : (nlRxAt env stops extId).Total := by
  unfold nlRxAt
  grind

@[simp]
theorem total_offChScan : (offChScan env extId).Total := by
  unfold offChScan
  grind

@[simp]
theorem total_nlDumpAttr : (nlDumpAttr env).Total := by
  unfold nlDumpAttr
  have band := env.curBand.isLt
  grind

@[simp]
theorem total_nlContinuousTxAt : (nlContinuousTxAt env).Total := by
  unfold nlContinuousTxAt
  grind

@[grind ←]
theorem total_putRxHdr (off : Nat) (type val size : BitVec 32) (inside : off ≤ 1558) :
    (putRxHdr off type val size).Total := by
  unfold putRxHdr
  grind

theorem total_nlGetRxInfoCb : (nlGetRxInfoCb env).Total := by
  unfold nlGetRxInfoCb
  have paths := popcount_le (env.chainmask env.curBand.toNat)
  apply total_bind _ _ (total_put32 2 _ (by decide))
  intro _
  iterate 4
    apply total_bind _ _ (total_putRxHdr _ _ _ _ (by omega))
    intro _
  grind

@[simp]
theorem total_nlGetRxInfo : (nlGetRxInfo env).Total := by
  unfold nlGetRxInfo
  have filled := total_nlGetRxInfoCb env
  grind

@[simp]
theorem total_nlSetRuAt : (nlSetRuAt env).Total := by
  unfold nlSetRuAt
  apply total_bind _ _ (total_be32 4 (by decide))
  intro seg0Num
  have units := total_ruLoopAt env 0 seg0Num
  grind

@[simp]
theorem total_nlIbfSetValAt : (nlIbfSetValAt env extId).Total := by
  unfold nlIbfSetValAt
  grind

@[simp]
theorem total_nlIbfGetStatus : (nlIbfGetStatus extId).Total := by
  unfold nlIbfGetStatus
  grind

@[simp]
theorem total_nlIbfProfileUpdateAll : (nlIbfProfileUpdateAll env extId).Total := by
  unfold nlIbfProfileUpdateAll
  have profiles := total_profileLoop env 0 64 (by decide)
  grind

@[simp]
theorem total_nl (ops : Env → Run (BitVec 16)) (total : (ops env).Total) : (nl ops env).Total := by
  unfold nl nlProcessAt
  grind

end Handlers

section Counted

variable (env : Env) {α : Type}

theorem fetch_inside (off len : Nat) (m : Bytes) (inside : 26 + off + len ≤ 1600) :
    fetch off len m = some (m.slice (26 + off) len, m) := if_pos inside

theorem fetch_outside (off len : Nat) (m : Bytes) (outside : 1600 < 26 + off + len) :
    fetch off len m = none := if_neg (Nat.not_le.mpr outside)

theorem store_inside (off : Nat) (bytes : List UInt8) (m : Bytes)
    (inside : 26 + off + bytes.length ≤ 1600) :
    store off bytes m = some ((), m.splice (26 + off) bytes) := if_pos inside

theorem store_outside (off : Nat) (bytes : List UInt8) (m : Bytes)
    (outside : 1600 < 26 + off + bytes.length) : store off bytes m = none :=
  if_neg (Nat.not_le.mpr outside)

/-- A loop that leaves the buffer in its step `limit`, unless it ends early. -/
theorem counted_isSome_iff (loop : Nat → Nat → Run α) (limit : Nat) (ends : Nat → Prop)
    (done : ∀ i m, (loop i 0 m).isSome)
    (early : ∀ i n m, i ≤ limit → ends i → (loop i (n + 1) m).isSome)
    (next : ∀ i n m, i < limit → ¬ ends i → ∃ m', loop i (n + 1) m = loop (i + 1) n m')
    (leaves : ∀ n m, ¬ ends limit → loop limit (n + 1) m = none)
    (i n : Nat) (m : Bytes) (start : i ≤ limit) :
    (loop i n m).isSome ↔ i + n ≤ limit ∨ ∃ j ≤ limit, i ≤ j ∧ ends j := by
  induction n generalizing i m with
  | zero => simp [done i m, start]
  | succ n ih =>
    by_cases now : ends i
    · simp only [early i n m start now, true_iff]
      exact .inr ⟨i, start, Nat.le_refl i, now⟩
    · rcases Nat.lt_or_eq_of_le start with inside | rfl
      · obtain ⟨m', step⟩ := next i n m inside now
        have later : (∃ j ≤ limit, i + 1 ≤ j ∧ ends j) ↔ ∃ j ≤ limit, i ≤ j ∧ ends j := by
          constructor
          · exact fun ⟨j, high, low, stop⟩ => ⟨j, high, Nat.le_of_lt low, stop⟩
          · rintro ⟨j, high, low, stop⟩
            have other : i ≠ j := by
              rintro rfl
              exact now stop
            exact ⟨j, high, Nat.lt_of_le_of_ne low other, stop⟩
        rw [step, ih (i + 1) m' inside, later, Nat.add_right_comm, Nat.add_assoc]
      · simp only [leaves n m now, Option.isSome_none, Bool.false_eq_true, false_iff, not_or]
        refine ⟨by omega, ?_⟩
        rintro ⟨j, high, low, stop⟩
        exact now (Nat.le_antisymm low high ▸ stop)

theorem readRegs_isSome_iff (n : Nat) (m : Bytes) :
    (readRegs env.regRead env.refusal 0 n m).isSome ↔
      n ≤ 393 ∨ ∃ j ≤ 393, env.regRead j = none := by
  have counted := counted_isSome_iff (readRegs env.regRead env.refusal) 393
    (fun i => env.regRead i = none) (fun _ _ => rfl)
    (fun i n m _ fails => by simp [readRegs, fails, pure_apply]) ?_ ?_ 0 n m (by decide)
  · simpa using counted
  · intro i n m inside works
    obtain ⟨res, value⟩ := Option.ne_none_iff_exists'.mp works
    have word : (wordBytes res).reverse.length = 4 := rfl
    refine ⟨m.splice (26 + (2 + 4 * i)) (wordBytes res).reverse, ?_⟩
    simp only [readRegs, value, bind_apply, putBe32]
    rw [store_inside _ _ _ (by omega), Option.bind_some]
  · intro n m works
    obtain ⟨res, value⟩ := Option.ne_none_iff_exists'.mp works
    have word : (wordBytes res).reverse.length = 4 := rfl
    simp only [readRegs, value, bind_apply, putBe32]
    rw [store_outside _ _ _ (by omega), Option.bind_none]

/-- The request is read before the register is written. -/
theorem writeRegs_isSome_iff (n : Nat) (m : Bytes) :
    (writeRegs env.regWrite env.refusal 0 n m).isSome ↔
      n ≤ 390 ∨ ∃ j < 390, env.regWrite j = false := by
  have counted := counted_isSome_iff (writeRegs env.regWrite env.refusal) 390
    (fun i => i < 390 ∧ env.regWrite i = false) (fun _ _ => rfl) ?_ ?_ ?_ 0 n m (by decide)
  · have same : (∃ j ≤ 390, 0 ≤ j ∧ j < 390 ∧ env.regWrite j = false) ↔
        ∃ j < 390, env.regWrite j = false := by
      constructor
      · exact fun ⟨j, _, _, low, fails⟩ => ⟨j, low, fails⟩
      · exact fun ⟨j, low, fails⟩ => ⟨j, Nat.le_of_lt low, Nat.zero_le j, low, fails⟩
    rw [counted, same, Nat.zero_add]
  · rintro i n m - ⟨low, fails⟩
    simp only [writeRegs, be32, bind_apply]
    rw [fetch_inside _ _ _ (by omega)]
    simp [fails, pure_apply]
  · intro i n m inside works
    have value : env.regWrite i = true := by simpa [inside] using works
    refine ⟨m, ?_⟩
    simp only [writeRegs, be32, bind_apply]
    rw [fetch_inside _ _ _ (by omega)]
    simp [value, pure_apply]
  · intro n m _
    simp only [writeRegs, be32, bind_apply]
    rw [fetch_outside _ _ _ (by omega)]
    rfl

theorem readPairs_isSome_iff (offset n : Nat) (m : Bytes) :
    (readPairs env offset 0 n m).isSome ↔ n ≤ 786 := by
  have counted := counted_isSome_iff (readPairs env offset) 786 (fun _ => False)
    (fun _ _ => rfl) (fun _ _ _ _ never => never.elim) ?_ ?_ 0 n m (by decide)
  · simpa using counted
  · intro i n m inside _
    simp only [readPairs, bind_apply]
    rw [store_inside _ _ _ (by split <;> simp <;> omega), Option.bind_some]
    exact ⟨_, rfl⟩
  · intro n m _
    simp only [readPairs, bind_apply]
    rw [store_outside _ _ _ (by split <;> simp), Option.bind_none]

theorem writePairs_isSome_iff (n : Nat) (m : Bytes) : (writePairs 0 n m).isSome ↔ n ≤ 785 := by
  have counted := counted_isSome_iff writePairs 785 (fun _ => False) (fun _ _ => rfl)
    (fun _ _ _ _ never => never.elim) ?_ ?_ 0 n m (by decide)
  · simpa using counted
  · intro i n m inside _
    simp only [writePairs, be16, bind_apply]
    rw [fetch_inside _ _ _ (by omega)]
    exact ⟨m, rfl⟩
  · intro n m _
    simp only [writePairs, be16, bind_apply]
    rw [fetch_outside _ _ _ (by omega)]
    rfl

end Counted

end Filogic.Atenl
