import Filogic.Jffs2.Flushed

/-! What the scanner finds, in terms of the nodes that it passes. -/

namespace Filogic.Jffs2
open Lib Mtd

section Strings

theorem sameStart_cons (n : Nat) (x y : UInt8) (a b : List UInt8) :
    sameStart (n + 1) (x :: a) (y :: b) =
      if x ≠ y then false else if x = 0 then true else sameStart n a b := rfl

theorem sameStart_end (n : Nat) (x : UInt8) (a : List UInt8) :
    sameStart (n + 1) (x :: a) [] = if x ≠ 0 then false else true := by
  unfold sameStart
  split_ifs with first second <;> simp_all

theorem sameStart_take (n : Nat) (a b : List UInt8) : sameStart n (a.take n) b = sameStart n a b := by
  induction n generalizing a b with
  | zero => rfl
  | succ n ih =>
    cases a with
    | nil => rw [List.take_nil]
    | cons x a =>
      rw [List.take_succ_cons]
      cases b with
      | nil => rw [sameStart_end, sameStart_end]
      | cons y b => rw [sameStart_cons, sameStart_cons, ih]

/-- A name that is compared in its own length is compared as a prefix. -/
theorem sameStart_prefix (name dir : List UInt8) (plain : 0 ∉ name) :
    sameStart name.length name dir = true ↔ name <+: dir := by
  induction name generalizing dir with
  | nil => simp [sameStart]
  | cons x name ih =>
    rw [List.mem_cons, not_or] at plain
    have some : x ≠ 0 := fun zero => plain.1 zero.symm
    cases dir with
    | nil =>
      rw [List.length_cons, sameStart_end, if_pos some]
      simp
    | cons y dir =>
      rw [List.length_cons, sameStart_cons, List.cons_prefix_cons, if_neg some]
      by_cases same : x = y
      · rw [if_neg (not_not_intro same), ih dir plain.2]
        exact ⟨fun rest => ⟨same, rest⟩, fun both => both.2⟩
      · rw [if_pos same]
        simp [same]

end Strings

section Scanning

variable (dir : List UInt8)

/-- A dirent of the root directory that the scanner takes for that of `dir`. -/
def taken (node : Node) : Bool := isDirent node && (pino node == 1) && (nameOf node).isPrefixOf dir

/-- The inode that the scanner takes for `dir`. -/
def chosen (nodes : List Node) : Nat :=
  (((nodes.filter (taken dir)).getLast?).map direntIno).getD 0

/-- The highest of the numbers that the dirents have in a field. -/
def highest (value : Node → Nat) (nodes : List Node) : Nat :=
  ((nodes.filter isDirent).map value).foldl max 0

theorem le_highest (value : Node → Nat) (nodes : List Node) (node : Node) (member : node ∈ nodes)
    (dirent : isDirent node = true) : value node ≤ highest value nodes := by
  have above : ∀ (l : List Nat) (start : Nat), start ≤ l.foldl max start ∧
      ∀ n ∈ l, n ≤ l.foldl max start := by
    intro l
    induction l with
    | nil => intro start; exact ⟨Nat.le_refl _, by simp⟩
    | cons n l ih =>
      intro start
      obtain ⟨low, all⟩ := ih (max start n)
      refine ⟨Nat.le_trans (Nat.le_max_left _ _) low, ?_⟩
      intro k inside
      rcases List.mem_cons.mp inside with rfl | later
      · exact Nat.le_trans (Nat.le_max_right _ _) low
      · exact all k later
  apply (above _ 0).2
  exact List.mem_map_of_mem (List.mem_filter.mpr ⟨member, dirent⟩)

/-- What a node in a block says, its own bytes say. -/
theorem scanNode_take (st : Scan) (bytes : List UInt8)
    (wellFormed : WellFormed (bytes.take (totlen bytes))) :
    scanNode dir st bytes = scanNode dir st (bytes.take (totlen bytes)) := by
  generalize node_eq : bytes.take (totlen bytes) = node at wellFormed
  have length : node.length ≤ totlen bytes := by
    rw [← node_eq, List.length_take]
    exact Nat.min_le_left _ _
  have same : ∀ off len, off + len ≤ node.length → field node off len = field bytes off len := by
    intro off len inside
    rw [← node_eq, field_take bytes _ off len (by omega)]
  have header := wellFormed.header
  have kind : isDirent node = isDirent bytes := by
    rw [isDirent, isDirent, nodetype, nodetype, same 2 2 (by omega)]
  unfold scanNode
  rw [kind]
  by_cases dirent : isDirent bytes = true
  · obtain ⟨room, -⟩ := wellFormed.name (kind.trans dirent)
    have size : nsize node = nsize bytes := same 28 1 (by omega)
    have name : sameStart (nsize bytes) (node.drop 40) dir =
        sameStart (nsize bytes) (bytes.drop 40) dir := by
      rw [← sameStart_take _ (node.drop 40), ← sameStart_take _ (bytes.drop 40), ← node_eq,
        List.drop_take, List.take_take, Nat.min_eq_left (by omega)]
    rw [if_pos dirent, if_pos dirent, size, name, pino, pino, direntIno, direntIno, version, version,
      same 12 4 (by omega), same 16 4 (by omega), same 20 4 (by omega)]
  · rw [if_neg dirent, if_neg dirent]

theorem parseData_walk (fuel : Nat) (bytes : List UInt8) (st : Scan)
    (wellFormed : ∀ node ∈ walk fuel bytes, WellFormed node) :
    parseData dir fuel bytes st = (walk fuel bytes).foldl (scanNode dir) st := by
  induction fuel generalizing bytes st with
  | zero => rfl
  | succ fuel ih =>
    unfold parseData walk
    by_cases isMagic : magic bytes = 0x1985
    · have all := wellFormed
      rw [walk, if_pos isMagic] at all
      rw [if_pos isMagic, if_pos isMagic, List.foldl_cons,
        ← scanNode_take dir st bytes (all _ List.mem_cons_self)]
      exact ih _ _ fun node member => all node (List.mem_cons_of_mem _ member)
    · rw [if_neg isMagic, if_neg isMagic, List.foldl_nil]

theorem scanNode_eq (st : Scan) (node : Node) (wellFormed : WellFormed node) :
    scanNode dir st node =
      ⟨if dir ≠ [] ∧ taken dir node then direntIno node else st.targetIno,
        if isDirent node then max st.lastIno (direntIno node) else st.lastIno,
        if isDirent node then max st.lastVersion (version node) else st.lastVersion⟩ := by
  unfold scanNode
  by_cases dirent : isDirent node = true
  · obtain ⟨room, plain⟩ := wellFormed.name dirent
    have length : (nameOf node).length = nsize node := by
      rw [nameOf, List.length_take, List.length_drop]
      omega
    have name : sameStart (nsize node) (node.drop 40) dir = true ↔ nameOf node <+: dir := by
      rw [← sameStart_prefix _ _ plain, length, nameOf, sameStart_take]
    simp only [dirent, if_true, taken, Bool.true_and, Bool.and_eq_true, beq_iff_eq, name,
      List.isPrefixOf_iff_prefix]
  · simp [dirent, taken]

/-- The scanner as a whole. -/
theorem scan_eq (nodes : List Node) (st : Scan) (wellFormed : ∀ node ∈ nodes, WellFormed node) :
    nodes.foldl (scanNode dir) st =
      ⟨if dir = [] then st.targetIno
        else (((nodes.filter (taken dir)).getLast?).map direntIno).getD st.targetIno,
        ((nodes.filter isDirent).map direntIno).foldl max st.lastIno,
        ((nodes.filter isDirent).map version).foldl max st.lastVersion⟩ := by
  induction nodes generalizing st with
  | nil => simp
  | cons node nodes ih =>
    rw [List.foldl_cons, ih _ fun other member => wellFormed other (List.mem_cons_of_mem _ member),
      scanNode_eq dir st node (wellFormed node List.mem_cons_self)]
    congr 1
    · by_cases root : dir = []
      · simp [root]
      · by_cases here : taken dir node = true
        · simp only [root, if_false, here, List.filter_cons_of_pos, List.getLast?_cons, ne_eq,
            not_false_eq_true, true_and, if_true, Option.map_some, Option.getD_some]
          cases (nodes.filter (taken dir)).getLast? <;> rfl
        · simp [root, here]
    · by_cases dirent : isDirent node = true <;> simp [dirent]
    · by_cases dirent : isDirent node = true <;> simp [dirent]

end Scanning

end Filogic.Jffs2
