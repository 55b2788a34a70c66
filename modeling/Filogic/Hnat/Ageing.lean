import Filogic.Hnat.Fields

/-! `hnat_mcast.c`: the timer that takes old static multicast entries out of the table, with
16-bit time stamps in signed arithmetic. -/

namespace Filogic.Hnat
open Lib

/-- `entry_delete`; index -1 stands for the whole table. -/
def entryDelete (ppeNum foeEtryNum : Nat) (foe : Nat → Nat → FoeEntry) (ppeId : Nat)
    (index : Int) : Nat → Nat → FoeEntry :=
  if ppeNum ≤ ppeId then foe
  else if index < -1 ∨ foeEtryNum ≤ index then foe
  else if index = -1 then
    Function.update foe ppeId fun k => if k < foeEtryNum then .zero else foe ppeId k
  else writeAt foe (ppeId, index.toNat) .zero

/-- `m_timestamp` -/
def mTimestamp (entry : FoeEntry) : UInt16 := entry.union.u16 32

/-- The test of `hnat_mcast_check_timestamp`, on the two 16-bit times promoted to `int`. -/
def mcastExpired (eTs foeTs : UInt16) : Bool :=
  let foeTs := if (foeTs.toNat : Int) - eTs.toNat > 0x3000 then ~~~foeTs else foeTs
  ((foeTs.toNat : Int) - eTs.toNat).natAbs > 20

/-- One round of its loops; the timer is read for each static entry anew. -/
def mcastCheckEntry (ppeNum foeEtryNum : Nat) (foeTimestamp : Nat × Nat → UInt16)
    (foe : Nat → Nat → FoeEntry) (place : Nat × Nat) : Nat → Nat → FoeEntry :=
  let entry := foe place.1 place.2
  if entry.bfib1.sta ∧ mcastExpired (mTimestamp entry) (foeTimestamp place) then
    entryDelete ppeNum foeEtryNum foe place.1 place.2
  else foe

/-- `hnat_mcast_check_timestamp` -/
def hnatMcastCheckTimestamp (ppeNum foeEtryNum : Nat) (foeTimestamp : Nat × Nat → UInt16)
    (foe : Nat → Nat → FoeEntry) : Nat → Nat → FoeEntry :=
  (List.range ppeNum ×ˢ List.range foeEtryNum).foldl
    (mcastCheckEntry ppeNum foeEtryNum foeTimestamp) foe

/-- The time from a stamp to now, on a timer of 16 bits. -/
def age (stamp now : UInt16) : UInt16 := now - stamp

/-- A static entry of more than 20 ticks. -/
def OverAge (foeTimestamp : Nat × Nat → UInt16) (foe : Nat → Nat → FoeEntry)
    (place : Nat × Nat) : Prop :=
  (foe place.1 place.2).bfib1.sta = true ∧
    20 < age (mTimestamp (foe place.1 place.2)) (foeTimestamp place)

/-- The over-age entries of the tables are deleted, and all others are as before. -/
def AgesExactly (ppeNum foeEtryNum : Nat) (foeTimestamp : Nat × Nat → UInt16)
    (foe after : Nat → Nat → FoeEntry) : Prop :=
  ∀ ppe index,
    (ppe < ppeNum ∧ index < foeEtryNum ∧ OverAge foeTimestamp foe (ppe, index) →
      after ppe index = .zero) ∧
    (¬(ppe < ppeNum ∧ index < foeEtryNum ∧ OverAge foeTimestamp foe (ppe, index)) →
      after ppe index = foe ppe index)

/-- A pair of times that the test gets right. Without a wrap since the stamp: the age is at most
0x3000, or the complement of the time is more than 20 from the stamp. With a wrap: the stamp is
more than 20 and less than 65516 above the time. -/
def TimesRight (stamp now : UInt16) : Prop :=
  let late := (now.toNat : Int) - stamp.toNat
  if 0x3000 < late then 20 < (0xffff - (now.toNat : Int) - stamp.toNat).natAbs
  else 0 ≤ late ∨ (late < -20 ∧ -65516 < late)

theorem mcastExpired_iff (stamp now : UInt16) :
    (mcastExpired stamp now = true ↔ 20 < age stamp now) ↔ TimesRight stamp now := by
  have lowS := stamp.toNat_lt
  have lowN := now.toNat_lt
  have aged : 20 < age stamp now ↔ 20 < (2 ^ 16 - stamp.toNat + now.toNat) % 2 ^ 16 := by
    rw [age, UInt16.lt_iff_toNat_lt, UInt16.toNat_sub]
    rfl
  have complement : (~~~now).toNat = 0xffff - now.toNat := by
    rw [UInt16.toNat_not]
    rfl
  rw [aged]
  unfold mcastExpired TimesRight
  dsimp only
  split_ifs with far
  · rw [complement, decide_eq_true_iff]
    omega
  · rw [decide_eq_true_iff]
    omega

theorem entryDelete_inside (ppeNum foeEtryNum : Nat) (foe : Nat → Nat → FoeEntry)
    (place : Nat × Nat) : entryDelete ppeNum foeEtryNum foe place.1 place.2 =
      if place.1 < ppeNum ∧ place.2 < foeEtryNum then writeAt foe place .zero else foe := by
  unfold entryDelete
  by_cases ppe : place.1 < ppeNum
  · by_cases index : place.2 < foeEtryNum
    · rw [if_neg (by omega), if_neg (by omega), if_neg (by omega), if_pos ⟨ppe, index⟩]
      rfl
    · rw [if_neg (by omega), if_pos (by omega), if_neg (fun both => index both.2)]
  · rw [if_pos (by omega), if_neg (fun both => ppe both.1)]

theorem checkTimestamp_foe (ppeNum foeEtryNum : Nat) (foeTimestamp : Nat × Nat → UInt16)
    (foe : Nat → Nat → FoeEntry) (ppe index : Nat) :
    hnatMcastCheckTimestamp ppeNum foeEtryNum foeTimestamp foe ppe index =
      if (ppe < ppeNum ∧ index < foeEtryNum) ∧ (foe ppe index).bfib1.sta = true ∧
          mcastExpired (mTimestamp (foe ppe index)) (foeTimestamp (ppe, index)) = true then .zero
      else foe ppe index := by
  have writes (foe : Nat → Nat → FoeEntry) (place : Nat × Nat) :
      mcastCheckEntry ppeNum foeEtryNum foeTimestamp foe place = writeAt foe place
        (if (place.1 < ppeNum ∧ place.2 < foeEtryNum) ∧
            (foe place.1 place.2).bfib1.sta = true ∧
            mcastExpired (mTimestamp (foe place.1 place.2)) (foeTimestamp place) = true then .zero
          else foe place.1 place.2) := by
    unfold mcastCheckEntry
    dsimp only
    by_cases old : (foe place.1 place.2).bfib1.sta = true ∧
        mcastExpired (mTimestamp (foe place.1 place.2)) (foeTimestamp place) = true
    · rw [if_pos old, entryDelete_inside]
      by_cases inside : place.1 < ppeNum ∧ place.2 < foeEtryNum
      · rw [if_pos inside, if_pos ⟨inside, old⟩]
      · rw [if_neg inside, if_neg (fun both => inside both.1), writeAt_self]
    · rw [if_neg old, if_neg (fun both => old both.2), writeAt_self]
  have swept := sweep_tables (mcastCheckEntry ppeNum foeEtryNum foeTimestamp) id
    (fun place entry => if (place.1 < ppeNum ∧ place.2 < foeEtryNum) ∧ entry.bfib1.sta = true ∧
      mcastExpired (mTimestamp entry) (foeTimestamp place) = true then .zero else entry)
    writes ppeNum foeEtryNum foe ppe index
  refine swept.trans ?_
  by_cases inside : ppe < ppeNum ∧ index < foeEtryNum
  · rw [if_pos inside]
    rfl
  · rw [if_neg inside, if_neg (fun both => inside both.1)]
    rfl

/-- The timer deletes by age exactly if it gets the times of every static entry right. -/
theorem ages_exactly_iff (ppeNum foeEtryNum : Nat) (foeTimestamp : Nat × Nat → UInt16)
    (foe : Nat → Nat → FoeEntry) :
    (∀ ppe < ppeNum, ∀ index < foeEtryNum, (foe ppe index).bfib1.sta = true →
      TimesRight (mTimestamp (foe ppe index)) (foeTimestamp (ppe, index))) ↔
      AgesExactly ppeNum foeEtryNum foeTimestamp foe
        (hnatMcastCheckTimestamp ppeNum foeEtryNum foeTimestamp foe) := by
  have result := checkTimestamp_foe ppeNum foeEtryNum foeTimestamp foe
  constructor
  · intro right_ ppe index
    rw [result]
    constructor
    · rintro ⟨inside, below, static, old⟩
      rw [if_pos]
      exact ⟨⟨inside, below⟩, static,
        ((mcastExpired_iff _ _).mpr (right_ ppe inside index below static)).mpr old⟩
    · intro young
      rw [if_neg]
      rintro ⟨⟨inside, below⟩, static, expired⟩
      exact young ⟨inside, below, static,
        ((mcastExpired_iff _ _).mpr (right_ ppe inside index below static)).mp expired⟩
  · intro exact_ ppe inside index below static
    have zero_ne : FoeEntry.zero ≠ foe ppe index := by
      intro same
      rw [← same] at static
      exact absurd static (by decide)
    obtain ⟨old, young⟩ := exact_ ppe index
    rw [result] at old young
    apply (mcastExpired_iff _ _).mp
    constructor
    · intro expired
      by_contra fresh
      have kept := young fun both => fresh both.2.2.2
      rw [if_pos ⟨⟨inside, below⟩, static, expired⟩] at kept
      exact zero_ne kept
    · intro aged
      by_contra kept
      have cleared := old ⟨inside, below, static, aged⟩
      rw [if_neg fun both => kept both.2.2] at cleared
      exact zero_ne cleared.symm

/-- A static entry of the last tick before the timer wraps. -/
def stampedLast : FoeEntry :=
  { bfib1 := { FoeEntry.zero.bfib1 with state := .bind, sta := true }
    union := fun k => if k = 32 ∨ k = 33 then 0xff else 0 }

/-- One tick later, the timer is at zero and the entry goes. -/
theorem wrap_deletes : ¬∀ (ppeNum foeEtryNum : Nat) (foeTimestamp : Nat × Nat → UInt16)
    (foe : Nat → Nat → FoeEntry), AgesExactly ppeNum foeEtryNum foeTimestamp foe
      (hnatMcastCheckTimestamp ppeNum foeEtryNum foeTimestamp foe) := by
  intro all
  have kept := (all 1 1 (fun _ => 0) (fun _ _ => stampedLast) 0 0).2
    (fun both => absurd both.2.2.2 (by decide))
  have static := congrArg (fun entry => entry.bfib1.sta) kept
  revert static
  decide

end Filogic.Hnat
