import Filogic.Snand.BadBlock

/-! The erase of a range, `mtk_snand_mtd_erase`: the blocks that it erases, and what it says of them. -/

namespace Filogic.Snand
open Lib

variable {g : Geometry}

section Spec

variable (g) (ecc : EccEngine g)

/-- The blocks of the device that share a byte with a range, by their addresses. -/
def touchedBlocks (addr len : Nat) : List Nat :=
  ((List.range (g.size / g.erasesize + 1)).map (· * g.erasesize)).filter fun block =>
    max addr block < min (addr + len) (block + g.erasesize)

/-- A block is found good and erased, and what that leaves; otherwise the code and what was left. -/
def eraseOne (block : Nat) (w : World) : Except (Int × World) World :=
  let looked := (blockIsbad g ecc block).run w
  if looked.1 ≠ 0 then .error (-eio, looked.2)
  else
    let erased := (eraseBlock g block).run looked.2
    if erased.1 ≠ 0 then .error erased else .ok erased.2

/-- Blocks erased in order, if none of them fails. -/
def eraseAll : List Nat → World → Option World
  | [], w => some w
  | block :: blocks, w => (eraseOne g ecc block w).toOption.bind (eraseAll blocks)

/-- The code is 0 exactly if all the blocks were erased; otherwise those before one that failed were
erased, its code and its address are reported, and nothing came behind it. -/
structure ErasesExactly (blocks : List Nat) (w : World) (out : (Int × Option Nat) × World) : Prop where
  code_iff : out.1.1 = 0 ↔ eraseAll g ecc blocks w = some out.2
  success : out.1.1 = 0 → out.1.2 = none
  failure : out.1.1 ≠ 0 → ∃ before block later w', blocks = before ++ block :: later ∧
    eraseAll g ecc before w = some w' ∧ eraseOne g ecc block w' = .error (out.1.1, out.2) ∧
      out.1.2 = some block

end Spec

section Time

/-- The bus has seen no fewer cycles. -/
def Later (w w' : World) : Prop := w.tick ≤ w'.tick

theorem macIo_tick (command : Command) (w : World) :
    ((macIo g command).run w).2.tick = w.tick + 1 := rfl

theorem later_frame : Frame g Later where
  refl w := le_refl w.tick
  trans _ _ _ one two := one.trans two
  macIo command _ w := by
    rw [Later, macIo_tick]
    exact Nat.le_succ _
  transfer := by
    intro ecc raw w
    unfold transferCache Prog.run Later
    dsimp only
    split_ifs <;> exact Nat.le_succ _
  buffers w _ _ _ := le_refl w.tick

theorem pageOp_later (command : Command) (w : World) :
    w.tick < ((pageOp g command).run w).2.tick := Nat.lt_succ_self w.tick

theorem writeEnable_later (w : World) : w.tick < ((writeEnable g).run w).2.tick := by
  have frame : Frame g Later := later_frame
  have rest : Moves Later (do
      let val ← getFeature g featureStatusAddr
      if val < 0 then pure ((macIo g .writeEnable).run w).1.1
      else if val / 2 % 2 = 1 then pure 0
      else pure (-enotsupp) : Prog World Int) :=
    frame.bind (frame.getFeature _) fun _ => Moves.ite _ (fun _ => frame.pure _)
      fun _ => Moves.ite _ (fun _ => frame.pure _) fun _ => frame.pure _
  rw [writeEnable, Prog.run_bind]
  by_cases sent : ((macIo g .writeEnable).run w).1.1 = 0
  · simp only [sent, ne_eq, not_true_eq_false, if_false]
    rw [sent] at rest
    exact rest ((macIo g .writeEnable).run w).2
  · simp only [ne_eq, sent, not_false_eq_true, if_true]
    exact Nat.lt_succ_self _

/-- An erase that says it went well was on the bus. -/
theorem eraseBlock_later (block : Nat) (w : World) (done : ((eraseBlock g block).run w).1 = 0) :
    w.tick < ((eraseBlock g block).run w).2.tick := by
  have frame : Frame g Later := later_frame
  rw [eraseBlock] at done ⊢
  split_ifs at done ⊢ with outside
  · exact absurd done (show ¬-einval = 0 by decide)
  · have selected := frame.selectDieAddress block w
    rw [Prog.run_bind] at done ⊢
    have enabled := @writeEnable_later g ((selectDieAddress g block).run w).2
    have tail (page : Nat) : Moves Later (do
        let ret ← pageOp g (.blockErase page)
        if ret ≠ 0 then pure ret
        else do
          let ret ← pollStatus g
          if ret < 0 then pure ret
          else if ret / 4 % 2 = 1 then pure (-eio)
          else pure 0 : Prog World Int) :=
      frame.bind (fun w => (@pageOp_later g _ w).le) fun _ =>
        Moves.ite _ (fun _ => frame.pure _) fun _ =>
          frame.bind frame.pollStatus fun _ =>
            Moves.ite _ (fun _ => frame.pure _) fun _ =>
              Moves.ite _ (fun _ => frame.pure _) fun _ => frame.pure _
    rw [Prog.run_bind]
    split_ifs
    · exact selected.trans_lt enabled
    · exact (selected.trans_lt enabled).trans_le (tail _ _)

variable {ecc : EccEngine g}

theorem eraseOne_later {block : Nat} {w w' : World} (erased : eraseOne g ecc block w = .ok w') :
    w.tick < w'.tick := by
  have frame : Frame g Later := later_frame
  have looked := frame.blockIsbad ecc block w
  unfold eraseOne at erased
  dsimp only at erased
  split_ifs at erased with bad failed
  rw [← Except.ok.inj erased]
  exact looked.trans_lt (eraseBlock_later block _ (not_not.mp failed))

theorem eraseAll_later {blocks : List Nat} {w w' : World}
    (erased : eraseAll g ecc blocks w = some w') (some_ : blocks ≠ []) : w.tick < w'.tick := by
  induction blocks generalizing w with
  | nil => exact absurd rfl some_
  | cons block blocks ih =>
    rw [eraseAll] at erased
    obtain ⟨w₁, first, rest⟩ := Option.bind_eq_some_iff.mp erased
    cases one : eraseOne g ecc block w with
    | error failed =>
      rw [one] at first
      cases first
    | ok w₂ =>
      rw [one] at first
      rw [← Option.some.inj first] at rest
      have step := eraseOne_later one
      by_cases last : blocks = []
      · subst last
        rw [← Option.some.inj rest]
        exact step
      · exact step.trans (ih rest last)

end Time

section Loop

variable {ecc : EccEngine g}

/-- The blocks that the loop is to come to. -/
def blocksFrom (g : Geometry) (start n : Nat) : List Nat :=
  (List.range' start n).map (· * g.erasesize)

theorem mtdEraseFrom_step (n addr : Nat) (ret : Int) (w : World) :
    (mtdEraseFrom g ecc (n + 1) addr ret).run w =
      match eraseOne g ecc addr w with
      | .ok w' => (mtdEraseFrom g ecc n (addr + g.erasesize) 0).run w'
      | .error failed => ((failed.1, some addr), failed.2) := by
  rw [mtdEraseFrom, Prog.run_bind, eraseOne]
  dsimp only
  by_cases bad : ((blockIsbad g ecc addr).run w).1 = 0
  · rw [if_neg (not_not.mpr bad), if_neg (not_not.mpr bad), Prog.run_bind]
    by_cases done : ((eraseBlock g addr).run ((blockIsbad g ecc addr).run w).2).1 = 0
    · rw [if_neg (not_not.mpr done), if_neg (not_not.mpr done), done]
    · rw [if_pos done, if_pos done]
      rfl
  · rw [if_pos bad, if_pos bad]
    rfl

/-- The loop erases its blocks, from a code of 0 on or where it has any. -/
theorem mtdEraseFrom_exact (n start : Nat) (ret : Int) (w : World) (defined : n = 0 → ret = 0) :
    ErasesExactly g ecc (blocksFrom g start n) w
      ((mtdEraseFrom g ecc n (start * g.erasesize) ret).run w) := by
  induction n generalizing start ret w with
  | zero =>
    rw [defined rfl]
    exact ⟨iff_of_true rfl rfl, fun _ => rfl, fun failed => absurd rfl failed⟩
  | succ n ih =>
    have blocks : blocksFrom g start (n + 1) = start * g.erasesize :: blocksFrom g (start + 1) n := rfl
    rw [mtdEraseFrom_step, blocks]
    cases one : eraseOne g ecc (start * g.erasesize) w with
    | error failed =>
      have code : failed.1 ≠ 0 := by
        unfold eraseOne at one
        dsimp only at one
        split_ifs at one with bad lost
        · rw [← Except.error.inj one]
          exact show -eio ≠ 0 by decide
        · rw [← Except.error.inj one]
          exact lost
      constructor
      · apply iff_of_false code
        rw [eraseAll, one]
        exact fun none => absurd none (by simp [Except.toOption])
      · exact fun zero => absurd zero code
      · exact fun _ => ⟨[], start * g.erasesize, _, w, rfl, rfl, one, rfl⟩
    | ok w' =>
      rw [← Nat.succ_mul]
      obtain ⟨codeIff, success, failure⟩ := ih (start + 1) 0 w' fun _ => rfl
      have first (blocks : List Nat) :
          eraseAll g ecc (start * g.erasesize :: blocks) w = eraseAll g ecc blocks w' := by
        rw [eraseAll, one]
        rfl
      constructor
      · rw [first]
        exact codeIff
      · exact success
      · intro failed
        obtain ⟨before, block, later, w₁, split, all, last, place⟩ := failure failed
        refine ⟨start * g.erasesize :: before, block, later, w₁, ?_, ?_, last, place⟩
        · rw [split, List.cons_append]
        · rw [first]
          exact all

end Loop

section Range

variable (g) (addr len : Nat)

/-- The end of the range is rounded up to 4 GiB, which the 32-bit mask takes for 0. -/
def EndWraps : Prop :=
  (addr + len) % g.erasesize ≠ 0 ∧ 2 ^ 32 < addr + len + g.erasesize

/-- The erase has a range to go by that is the one asked for, or has to return what `ret` holds by
chance, and that is 0. -/
def EraseDefined (unset : Int) : Prop :=
  if len = 0 then unset = 0 ∧ (EndWraps g addr len ∨ addr % g.erasesize = 0 ∧ addr < 2 ^ 32)
  else ¬EndWraps g addr len

instance : Decidable (EndWraps g addr len) := inferInstanceAs (Decidable (_ ∧ _))

instance (unset : Int) : Decidable (EraseDefined g addr len unset) := by
  unfold EraseDefined
  infer_instance

/-- The block behind the last one of the range. -/
def blockTop : Nat := (addr + len + g.erasesize - 1) / g.erasesize

theorem erasesize_pos : 0 < g.erasesize := Nat.two_pow_pos _

theorem erasesize_dvd : g.erasesize ∣ 2 ^ 32 := Nat.pow_dvd_pow 2 g.blockFits.le

theorem erasesize_le : g.erasesize ≤ 2 ^ 32 := Nat.le_of_dvd (by decide) (erasesize_dvd g)

theorem filter_between (first last n : Nat) (enough : last ≤ n) :
    ((List.range n).filter fun k => first ≤ k ∧ k < last) = List.range' first (last - first) := by
  induction n generalizing last with
  | zero =>
    rw [Nat.le_zero.mp enough, Nat.zero_sub]
    rfl
  | succ n ih =>
    rw [List.range_succ, List.filter_append]
    by_cases end_ : last = n + 1
    · subst end_
      have before : ((List.range n).filter fun k => first ≤ k ∧ k < n + 1) =
          (List.range n).filter fun k => first ≤ k ∧ k < n := by
        apply List.filter_congr
        intro k member
        have below := List.mem_range.mp member
        simp only [below, below.trans (Nat.lt_succ_self n)]
      rw [before, ih n le_rfl]
      by_cases start : first ≤ n
      · rw [show n + 1 - first = (n - first) + 1 by omega, List.range'_concat]
        simp [start]
      · rw [Nat.sub_eq_zero_of_le (by omega), Nat.sub_eq_zero_of_le (by omega)]
        simp [start]
    · rw [ih last (by omega)]
      have none : [n].filter (fun k => decide (first ≤ k ∧ k < last)) = [] := by
        simp
        omega
      rw [none, List.append_nil]

/-- The blocks of a range that is not empty. -/
theorem touchedBlocks_eq (inside : addr + len ≤ g.size) (more : len ≠ 0) :
    touchedBlocks g addr len =
      blocksFrom g (addr / g.erasesize) (blockTop g addr len - addr / g.erasesize) := by
  have pos := erasesize_pos g
  have same (k : Nat) : max addr (k * g.erasesize) < min (addr + len) (k * g.erasesize + g.erasesize) ↔
      addr / g.erasesize ≤ k ∧ k < blockTop g addr len := by
    rw [blockTop, ← Nat.lt_succ_iff, Nat.div_lt_iff_lt_mul pos, Nat.lt_div_iff_mul_lt pos, Nat.succ_mul]
    omega
  rw [touchedBlocks, List.filter_map, blocksFrom]
  congr 1
  rw [← filter_between (addr / g.erasesize) (blockTop g addr len) (g.size / g.erasesize + 1)]
  · apply List.filter_congr
    intro k _
    rw [Function.comp_apply, decide_eq_decide]
    exact same k
  · rw [blockTop]
    have top : addr + len + g.erasesize - 1 < (g.size / g.erasesize + 1 + 1) * g.erasesize := by
      have := Nat.lt_mul_div_succ g.size pos
      rw [Nat.succ_mul, Nat.mul_comm]
      omega
    rw [← Nat.lt_succ_iff]
    exact (Nat.div_lt_iff_lt_mul pos).mpr top

theorem touchedBlocks_none : touchedBlocks g addr 0 = [] := by
  rw [touchedBlocks, List.filter_eq_nil_iff]
  intro block _
  simp only [decide_eq_true_eq]
  omega

/-- How many blocks the loop goes over. -/
def eraseCount : Nat :=
  if EndWraps g addr len then 0 else blockTop g addr len - addr % 2 ^ 32 / g.erasesize

theorem mask_eq_mod (n : Nat) : n &&& g.erasesizeMask = n % g.erasesize :=
  Nat.and_two_pow_sub_one_eq_mod n _

/-- Where the loop starts and how far it goes, as the masks have it. -/
theorem mtdErase_eq (ecc : EccEngine g) (unset : Int) (inside : addr + len ≤ g.size) :
    mtdErase g ecc addr len unset = mtdEraseFrom g ecc (eraseCount g addr len)
      (addr % 2 ^ 32 / g.erasesize * g.erasesize) unset := by
  have pos := erasesize_pos g
  have limit : addr + len ≤ 2 ^ 32 := inside.trans g.addressable
  have start : addr % 2 ^ 32 / g.erasesize * g.erasesize ≤ addr + len :=
    (Nat.div_mul_le_self _ _).trans ((Nat.mod_le _ _).trans (Nat.le_add_right _ _))
  have maskVal : g.erasesizeMask = g.erasesize - 1 := rfl
  have single : (g.erasesize - 1) / g.erasesize = 0 := Nat.div_eq_of_lt (by omega)
  rw [mtdErase, if_neg (by omega)]
  dsimp only
  rw [mask_eq_mod, blockStart_mod, blockStart_mod, eraseCount]
  congr 1
  by_cases aligned : (addr + len) % g.erasesize = 0
  · rw [if_neg (not_not.mpr aligned), if_neg fun wraps => wraps.1 aligned, blockTop, maskVal,
      show addr + len - addr % 2 ^ 32 / g.erasesize * g.erasesize + (g.erasesize - 1) =
        addr + len + g.erasesize - 1 - g.erasesize * (addr % 2 ^ 32 / g.erasesize) by
          rw [Nat.mul_comm g.erasesize]
          omega, Nat.sub_mul_div]
  · rw [if_pos aligned, maskVal]
    by_cases wraps : 2 ^ 32 < addr + len + g.erasesize
    · have below : addr + len < 2 ^ 32 := by
        apply lt_of_le_of_ne limit
        intro full
        rw [full] at aligned
        exact aligned (Nat.mod_eq_zero_of_dvd (erasesize_dvd g))
      have rest : (addr + len + (g.erasesize - 1)) % 2 ^ 32 = addr + len + (g.erasesize - 1) - 2 ^ 32 := by
        have less := erasesize_le g
        rw [Nat.mod_eq_sub_mod (by omega), Nat.mod_eq_of_lt (by omega)]
      have gone : (addr + len + (g.erasesize - 1) - 2 ^ 32) / g.erasesize = 0 :=
        Nat.div_eq_of_lt (by omega)
      rw [if_pos ⟨aligned, wraps⟩, rest, gone, Nat.zero_mul, Nat.zero_sub, Nat.zero_add, single]
    · rw [if_neg fun both => wraps both.2, Nat.mod_eq_of_lt (show _ < 2 ^ 32 by omega), blockTop,
        show addr + len + (g.erasesize - 1) = addr + len + g.erasesize - 1 by omega, ← Nat.sub_mul,
        Nat.mul_comm, Nat.mul_add_div pos, single, Nat.add_zero]

theorem blockTop_above (more : len ≠ 0) : addr / g.erasesize < blockTop g addr len := by
  have pos := erasesize_pos g
  have below := Nat.div_mul_le_self addr g.erasesize
  rw [blockTop, ← Nat.succ_le_iff, Nat.le_div_iff_mul_le pos, Nat.succ_mul]
  omega

/-- An empty range has no block to go over if its end wraps, or if it is between two blocks. -/
theorem eraseCount_zero_iff (limit : addr ≤ 2 ^ 32) :
    eraseCount g addr 0 = 0 ↔ EndWraps g addr 0 ∨ addr % g.erasesize = 0 ∧ addr < 2 ^ 32 := by
  have pos := erasesize_pos g
  rw [eraseCount]
  split_ifs with wraps
  · exact iff_of_true rfl (.inl wraps)
  · rw [or_iff_right wraps, Nat.sub_eq_zero_iff_le, blockTop, Nat.add_zero]
    by_cases top : addr = 2 ^ 32
    · rw [top, Nat.mod_self, Nat.zero_div]
      apply iff_of_false
      · have some_ : 0 < (2 ^ 32 + g.erasesize - 1) / g.erasesize := Nat.div_pos (by omega) pos
        omega
      · exact fun both => absurd both.2 (lt_irrefl _)
    · rw [Nat.mod_eq_of_lt (show addr < 2 ^ 32 by omega), and_iff_left (show addr < 2 ^ 32 by omega)]
      have split := Nat.div_add_mod addr g.erasesize
      have rest := Nat.mod_lt addr pos
      rw [← Nat.lt_succ_iff, Nat.div_lt_iff_lt_mul pos, Nat.succ_mul, Nat.mul_comm]
      omega

end Range

section Exact

variable (g) (ecc : EccEngine g) (w : World) (addr len : Nat) (unset : Int)

/-- The erase of a range of the device is exact if and only if it is defined. -/
theorem mtdErase_exact_iff (inside : addr + len ≤ g.size) :
    ErasesExactly g ecc (touchedBlocks g addr len) w ((mtdErase g ecc addr len unset).run w) ↔
      EraseDefined g addr len unset := by
  have pos := erasesize_pos g
  have limit : addr + len ≤ 2 ^ 32 := inside.trans g.addressable
  rw [mtdErase_eq g addr len ecc unset inside, EraseDefined]
  by_cases none : len = 0
  · subst none
    rw [if_pos rfl, touchedBlocks_none, ← eraseCount_zero_iff g addr limit]
    constructor
    · intro exact_
      have zero : ((mtdEraseFrom g ecc (eraseCount g addr 0)
          (addr % 2 ^ 32 / g.erasesize * g.erasesize) unset).run w).1.1 = 0 := by
        by_contra failed
        obtain ⟨before, block, later, w', split, -⟩ := exact_.failure failed
        exact absurd split (by simp)
      have still := Option.some.inj (exact_.code_iff.mp zero)
      by_cases over_ : eraseCount g addr 0 = 0
      · rw [over_] at zero
        exact ⟨zero, over_⟩
      · have exact_ := @mtdEraseFrom_exact g ecc (eraseCount g addr 0)
          (addr % 2 ^ 32 / g.erasesize) unset w fun none => absurd none over_
        have erased := exact_.code_iff.mp zero
        have later := eraseAll_later erased fun none => over_ (by simpa [blocksFrom] using none)
        rw [← still] at later
        exact absurd later (lt_irrefl _)
    · rintro ⟨rfl, over_⟩
      rw [over_]
      exact mtdEraseFrom_exact 0 (addr % 2 ^ 32 / g.erasesize) 0 w fun _ => rfl
  · rw [if_neg none, touchedBlocks_eq g addr len inside none]
    have low : addr % 2 ^ 32 = addr := Nat.mod_eq_of_lt (by omega)
    have some_ := blockTop_above g addr len none
    by_cases wraps : EndWraps g addr len
    · rw [eraseCount, if_pos wraps]
      apply iff_of_false _ (not_not.mpr wraps)
      intro exact_
      by_cases zero : unset = 0
      · have later := eraseAll_later (exact_.code_iff.mp zero) (by simpa [blocksFrom] using by omega)
        exact absurd later (lt_irrefl _)
      · obtain ⟨before, block, rest, w', -, -, -, place⟩ := exact_.failure zero
        exact absurd place (by nofun)
    · apply iff_of_true _ wraps
      rw [eraseCount, if_neg wraps, low]
      exact mtdEraseFrom_exact _ _ unset w (by omega)

/-- A range that ends inside the second of two blocks, and `ret` as chance has it. -/
theorem mtdErase_exact_sample :
    ErasesExactly sampleGeometry sampleEcc (touchedBlocks sampleGeometry 4 20) sampleWorld
      ((mtdErase sampleGeometry sampleEcc 4 20 7).run sampleWorld) :=
  (mtdErase_exact_iff sampleGeometry sampleEcc sampleWorld 4 20 7 (by decide)).mpr (by decide)

/-- Nothing to erase, and a code that is not 0. -/
theorem empty_erase_undefined : ¬∀ (g : Geometry) (ecc : EccEngine g) (w : World) (addr len : Nat)
    (unset : Int), addr + len ≤ g.size →
      ErasesExactly g ecc (touchedBlocks g addr len) w ((mtdErase g ecc addr len unset).run w) := by
  intro all
  have exact_ := all sampleGeometry sampleEcc sampleWorld 0 0 7 (by decide)
  obtain ⟨before, block, later, w', split, -⟩ := exact_.failure (by decide)
  exact absurd split (by simp [touchedBlocks_none])

end Exact

end Filogic.Snand
