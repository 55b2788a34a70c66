import Filogic.Bootargs.Parse
import Filogic.SwitchTool.Strings

/-! The device-mapper table that is put together from the summary of veritysetup. -/

namespace Filogic.Bootargs.DmTable
open SwitchTool

/-- What `asprintf` makes the argument of: the numbers are `uint32_t`. -/
structure Table where
  sectors : Nat
  rootdev : Text
  datablockSize : Text
  hashblockSize : Text
  datablocks : Nat
  hashStart : Nat
  hashAlgo : Text
  rootHash : Text
  salt : Text
  deriving DecidableEq

def decimal (n : Nat) : Text := Nat.toDigits 10 n

/-- `"dm-verity,,,ro,0 %u verity 1 %s %s %s %s %u %u %s %s %s"` -/
def Table.dmstr (t : Table) : Text :=
  [' '].intercalate
    ["dm-verity,,,ro,0".toList, decimal t.sectors, "verity".toList, ['1'], t.rootdev, t.rootdev,
      t.datablockSize, t.hashblockSize, decimal t.datablocks, decimal t.hashStart, t.hashAlgo,
      t.rootHash, t.salt]

/-- `verity_summary_find` in the pairs of `summary_lines` -/
def veritySummaryFind (summary : List (Text × Text)) (name : String) : Option Text :=
  let pairs := summary.map fun pair => (⟨pair.1, some pair.2, false, false⟩ : Kvpair)
  (kvpairFind pairs name.toList).bind fun i => pairs[i]?.bind Kvpair.value

/-- The part of `main` that makes the table, or the code that it returns. -/
def main (summary : List (Text × Text)) (rootdev : Text) : Except Nat Table :=
  match veritySummaryFind summary "Data blocks", veritySummaryFind summary "Data block size",
    veritySummaryFind summary "Hash block size", veritySummaryFind summary "Hash algorithm",
    veritySummaryFind summary "Salt", veritySummaryFind summary "Root hash" with
  | some datablocks, some datablockSize, some hashblockSize, some hashAlgo, some salt,
      some rootHash =>
      let datablocksNum := (strtoul 0 datablocks).value % 2 ^ 32
      -- a `uint32_t` against `ULONG_MAX`
      if datablocksNum = 2 ^ 64 - 1 then .error 9
      else .ok ⟨datablocksNum * 8 % 2 ^ 32, rootdev, datablockSize, hashblockSize, datablocksNum,
        (datablocksNum + 1) % 2 ^ 32, hashAlgo, rootHash, salt⟩
  | _, _, _, _, _, _ => .error 8

section Claims

/-- The number that a text is, taken as a whole and fitting. -/
def Number (text : Text) (n : Nat) : Prop :=
  text ≠ [] ∧ strtoul 0 text = ⟨n, [], false⟩ ∧ n < 2 ^ 32

/-- The table is the one of so many data blocks: the sectors of the data, and the first hash block
behind the data and the superblock, without a wrap. -/
structure Lawful (superblock n dataSize hashSize : Nat) (t : Table) : Prop where
  sectors : t.sectors * 512 = n * dataSize
  datablocks : t.datablocks = n
  hashStart : IsLeast {block | n * dataSize + superblock ≤ block * hashSize} t.hashStart
  unwrapped : n * 8 < 2 ^ 32 ∧ n + 1 < 2 ^ 32

/-- A summary is rejected, or its numbers are complete and the table is theirs. -/
def Created (superblock : Nat) (summary : List (Text × Text)) (rootdev : Text) : Prop :=
  ∀ t, main summary rootdev = .ok t → ∃ datablocks n dataSize hashSize,
    veritySummaryFind summary "Data blocks" = some datablocks ∧ Number datablocks n ∧
    Number t.datablockSize dataSize ∧ Number t.hashblockSize hashSize ∧
    Lawful superblock n dataSize hashSize t

/-- The values of the six lines that the table is made of -/
def Complete (summary : List (Text × Text)) : Prop :=
  ∀ name ∈ ["Data blocks", "Data block size", "Hash block size", "Hash algorithm", "Salt",
    "Root hash"], (veritySummaryFind summary name).isSome = true

/-- The three numbers are complete; eight times the first one does not wrap; the data blocks are of
eight sectors, if there are any; and the superblock ends in the block after the data. -/
def Expected (superblock : Nat) (summary : List (Text × Text)) : Prop :=
  ∃ datablocks datablockSize hashblockSize n dataSize hashSize,
    veritySummaryFind summary "Data blocks" = some datablocks ∧
    veritySummaryFind summary "Data block size" = some datablockSize ∧
    veritySummaryFind summary "Hash block size" = some hashblockSize ∧
    Number datablocks n ∧ Number datablockSize dataSize ∧ Number hashblockSize hashSize ∧
    n * 8 < 2 ^ 32 ∧ (n = 0 ∨ dataSize = 4096) ∧
    n * hashSize < n * dataSize + superblock ∧ n * dataSize + superblock ≤ (n + 1) * hashSize

end Claims

/-- The next block is the first one from `x` on. -/
theorem isLeast_succ (n x size : Nat) :
    IsLeast {block | x ≤ block * size} (n + 1) ↔ n * size < x ∧ x ≤ (n + 1) * size := by
  constructor
  · rintro ⟨inside, least⟩
    refine ⟨?_, inside⟩
    by_contra reached
    have := least (show n ∈ {block | x ≤ block * size} by
      rw [Set.mem_ofPred_eq]
      omega)
    omega
  · rintro ⟨before, inside⟩
    refine ⟨inside, fun block reached => ?_⟩
    have less : n * size < block * size := lt_of_lt_of_le before reached
    exact Nat.lt_of_mul_lt_mul_right less

/-- The table of a complete summary -/
theorem main_complete (summary : List (Text × Text)) (rootdev : Text)
    (complete : Complete summary) :
    ∃ datablocks datablockSize hashblockSize hashAlgo salt rootHash,
      veritySummaryFind summary "Data blocks" = some datablocks ∧
      veritySummaryFind summary "Data block size" = some datablockSize ∧
      veritySummaryFind summary "Hash block size" = some hashblockSize ∧
      let n := (strtoul 0 datablocks).value % 2 ^ 32
      main summary rootdev = .ok ⟨n * 8 % 2 ^ 32, rootdev, datablockSize, hashblockSize, n,
        (n + 1) % 2 ^ 32, hashAlgo, rootHash, salt⟩ := by
  simp only [Complete, List.mem_cons, List.not_mem_nil, or_false, forall_eq_or_imp, forall_eq,
    Option.isSome_iff_exists] at complete
  obtain ⟨⟨datablocks, a⟩, ⟨datablockSize, b⟩, ⟨hashblockSize, c⟩, ⟨hashAlgo, d⟩, ⟨salt, e⟩,
    ⟨rootHash, f⟩⟩ := complete
  refine ⟨datablocks, datablockSize, hashblockSize, hashAlgo, salt, rootHash, a, b, c, ?_⟩
  have narrow : (strtoul 0 datablocks).value % 2 ^ 32 ≠ 2 ^ 64 - 1 := by omega
  simp only [main, a, b, c, d, e, f, if_neg narrow]

theorem main_incomplete (summary : List (Text × Text)) (rootdev : Text) {t : Table}
    (made : main summary rootdev = .ok t) : Complete summary := by
  unfold main at made
  split at made
  · rename_i a b c d e f
    simp [Complete, a, b, c, d, e, f]
  · cases made

/-- The table is right exactly for complete summaries whose numbers are those that the constants of
the tool assume. -/
theorem created_iff_expected (superblock : Nat) (summary : List (Text × Text)) (rootdev : Text) :
    Created superblock summary rootdev ↔ (Complete summary → Expected superblock summary) := by
  constructor
  · intro created complete
    obtain ⟨datablocks, datablockSize, hashblockSize, hashAlgo, salt, rootHash, a, b, c, made⟩ :=
      main_complete summary rootdev complete
    obtain ⟨datablocks', n, dataSize, hashSize, a', number, dataNumber, hashNumber, lawful⟩ :=
      created _ made
    obtain rfl := Option.some.inj (a.symm.trans a')
    obtain ⟨sectors, blocks, start, unwrapped⟩ := lawful
    dsimp only at sectors blocks start dataNumber hashNumber
    rw [blocks, Nat.mod_eq_of_lt unwrapped.1] at sectors
    rw [blocks, Nat.mod_eq_of_lt unwrapped.2, isLeast_succ] at start
    have size : n = 0 ∨ dataSize = 4096 := by
      rw [Nat.mul_assoc] at sectors
      rcases Nat.eq_zero_or_pos n with none_ | some_
      · exact .inl none_
      · exact .inr (Nat.eq_of_mul_eq_mul_left some_ sectors).symm
    exact ⟨datablocks, datablockSize, hashblockSize, n, dataSize, hashSize, a, b, c, number,
      dataNumber, hashNumber, unwrapped.1, size, start.1, start.2⟩
  · intro expected t made
    have complete := main_incomplete summary rootdev made
    obtain ⟨datablocks, datablockSize, hashblockSize, n, dataSize, hashSize, a, b, c, number,
      dataNumber, hashNumber, unwrapped, size, before, behind⟩ := expected complete
    obtain ⟨datablocks', datablockSize', hashblockSize', hashAlgo, salt, rootHash, a', b', c',
      made'⟩ := main_complete summary rootdev complete
    obtain rfl := Option.some.inj (a.symm.trans a')
    obtain rfl := Option.some.inj (b.symm.trans b')
    obtain rfl := Option.some.inj (c.symm.trans c')
    have value : (strtoul 0 datablocks).value % 2 ^ 32 = n := by
      rw [number.2.1]
      exact Nat.mod_eq_of_lt number.2.2
    dsimp only at made'
    rw [value, Nat.mod_eq_of_lt unwrapped, Nat.mod_eq_of_lt (show n + 1 < 2 ^ 32 by omega)] at made'
    obtain rfl := Except.ok.inj (made'.symm.trans made)
    refine ⟨datablocks, n, dataSize, hashSize, a, number, dataNumber, hashNumber, ?_, rfl,
      (isLeast_succ n _ hashSize).mpr ⟨before, behind⟩, unwrapped, by omega⟩
    rcases size with rfl | rfl
    · simp
    · exact Nat.mul_assoc n 8 512

/-- The summary of a number of data blocks -/
def summaryOf (datablocks : String) : List (Text × Text) :=
  [("Data blocks", datablocks), ("Data block size", "4096"), ("Hash block size", "4096"),
    ("Hash algorithm", "sha256"), ("Salt", "00"), ("Root hash", "11")].map
      fun pair => (pair.1.toList, pair.2.toList)

/-- A number of data blocks that does not fit is taken for the number 1. -/
theorem wrapped_number_taken :
    (main (summaryOf "4294967297") "/dev/a".toList).toOption.map Table.dmstr =
      some "dm-verity,,,ro,0 8 verity 1 /dev/a /dev/a 4096 4096 1 2 sha256 11 00".toList ∧
    ¬ Created 512 (summaryOf "4294967297") "/dev/a".toList := by
  refine ⟨by decide, fun created => ?_⟩
  have value : strtoul 0 "4294967297".toList = ⟨4294967297, [], false⟩ := by decide
  have made : main (summaryOf "4294967297") "/dev/a".toList =
      .ok ⟨8, "/dev/a".toList, "4096".toList, "4096".toList, 1, 2, "sha256".toList, "11".toList,
        "00".toList⟩ := by decide
  obtain ⟨datablocks, n, -, -, found, number, -⟩ := created _ made
  have there : veritySummaryFind (summaryOf "4294967297") "Data blocks" =
      some "4294967297".toList := by decide
  obtain rfl := Option.some.inj (there.symm.trans found)
  have same : n = 4294967297 := congrArg Strtoul.value (number.2.1.symm.trans value)
  have fits := number.2.2
  omega

end Filogic.Bootargs.DmTable
