import Filogic.Jffs2.Append

/-! The fields of the nodes that are generated, and nodes read back from the block that they fill. -/

namespace Filogic.Jffs2
open Lib

section Fields

theorem field_take (bytes : List UInt8) (t off len : Nat) (inside : off + len ≤ t) :
    field (bytes.take t) off len = field bytes off len := by
  rw [field, field, List.drop_take, List.take_take, Nat.min_eq_left (by omega)]

theorem field_lt (bytes : List UInt8) (off len : Nat) : field bytes off len < 256 ^ len := by
  have short : ((bytes.drop off).take len).length ≤ len := by
    rw [List.length_take]
    exact Nat.min_le_left _ _
  exact Nat.lt_of_lt_of_le (ofLe_lt _) (Nat.pow_le_pow_right (by decide) short)

theorem field_append (a b : List UInt8) (off len : Nat) (inside : off + len ≤ a.length) :
    field (a ++ b) off len = field a off len := by
  rw [field, field, List.drop_append_of_le_length (by omega), List.take_append_of_le_length]
  rw [List.length_drop]
  omega

/-- A field behind a part of known length. -/
theorem field_behind (a b : List UInt8) (off len : Nat) (behind : a.length ≤ off) :
    field (a ++ b) off len = field b (off - a.length) len := by
  rw [field, field, List.drop_append, List.drop_eq_nil_of_le behind, List.nil_append]

theorem field_first (len n : Nat) (rest : List UInt8) :
    field (leBytes len n ++ rest) 0 len = n % 256 ^ len := by
  rw [field, List.drop_zero, List.take_left' (leBytes_length len n), ofLe_leBytes]

end Fields

section Raw

/-- What the walk needs of a node. -/
structure Raw (node : Node) : Prop where
  magic : magic node = 0x1985
  size : totlen node = node.length
  header : 12 ≤ node.length
  short : node.length < 2 ^ 31

/-- A node with the bytes that follow it up to the next one. -/
def padNode (node : Node) : List UInt8 :=
  node ++ List.replicate (padLen node.length - node.length) 0xff

theorem padLen_eq (len : Nat) (short : len < 2 ^ 31) : padLen len = (len + 3) / 4 * 4 := by
  rw [padLen, Nat.mod_eq_of_lt (by omega)]

theorem padNode_length (node : Node) (short : node.length < 2 ^ 31) :
    (padNode node).length = padLen node.length := by
  rw [padNode, List.length_append, List.length_replicate, padLen_eq _ short]
  omega

def padded (nodes : List Node) : List UInt8 := nodes.flatMap padNode

theorem padded_append (nodes more : List Node) : padded (nodes ++ more) = padded nodes ++ padded more :=
  List.flatMap_append

theorem padded_singleton (node : Node) : padded [node] = padNode node := List.append_nil _

/-- The next step of the walk. -/
theorem walk_raw (node : Node) (raw : Raw node) (rest : List UInt8) (fuel : Nat) :
    walk (fuel + 1) (padNode node ++ rest) = node :: walk fuel rest := by
  have long := raw.header
  have front : ∀ off len, off + len ≤ 12 →
      field (padNode node ++ rest) off len = field node off len := by
    intro off len inside
    rw [padNode, List.append_assoc, field_append node _ off len (by omega)]
  have isMagic : magic (padNode node ++ rest) = 0x1985 := (front 0 2 (by decide)).trans raw.magic
  have size : totlen (padNode node ++ rest) = node.length :=
    (front 4 4 (by decide)).trans raw.size
  rw [walk, if_pos isMagic, size]
  congr 1
  · rw [padNode, List.append_assoc, List.take_left]
  · rw [List.drop_left' (padNode_length node raw.short)]

theorem walk_padded (nodes : List Node) (raw : ∀ node ∈ nodes, Raw node) (rest : List UInt8)
    (fuel : Nat) :
    walk (nodes.length + fuel) (padded nodes ++ rest) = nodes ++ walk fuel rest := by
  induction nodes with
  | nil => simp [padded]
  | cons node nodes ih =>
    have first := raw node List.mem_cons_self
    have others := ih fun other member => raw other (List.mem_cons_of_mem node member)
    have split : padded (node :: nodes) = padNode node ++ padded nodes := rfl
    rw [split, List.append_assoc, List.length_cons, Nat.add_right_comm, walk_raw node first, others,
      List.cons_append]

/-- A block with nodes at its start and nothing behind them. -/
def blockOf (erasesize : Nat) (nodes : List Node) : List UInt8 :=
  padded nodes ++ List.replicate (erasesize - (padded nodes).length) 0xff

theorem magic_blank (len : Nat) : magic (List.replicate len 0xff) ≠ 0x1985 := by
  rw [magic, field, List.drop_zero, List.take_replicate]
  rcases Nat.lt_or_ge len 2 with short | long
  · interval_cases len <;> decide
  · rw [Nat.min_eq_left long]
    decide

theorem length_le_padded (nodes : List Node) (raw : ∀ node ∈ nodes, Raw node) :
    nodes.length ≤ (padded nodes).length := by
  induction nodes with
  | nil => exact Nat.le_refl 0
  | cons node nodes ih =>
    have first := raw node List.mem_cons_self
    have others := ih fun other member => raw other (List.mem_cons_of_mem node member)
    have split : padded (node :: nodes) = padNode node ++ padded nodes := rfl
    have long := first.header
    rw [split, List.length_append, List.length_cons, padNode, List.length_append]
    omega

/-- The nodes of a block are read back. -/
theorem walk_blockOf (erasesize : Nat) (nodes : List Node) (raw : ∀ node ∈ nodes, Raw node)
    (fits : (padded nodes).length ≤ erasesize) :
    walk erasesize (blockOf erasesize nodes) = nodes := by
  have few := length_le_padded nodes raw
  have rest : ∀ fuel len, walk fuel (List.replicate len 0xff) = [] := by
    intro fuel len
    cases fuel with
    | zero => rfl
    | succ fuel => rw [walk, if_neg (magic_blank len)]
  have fuel : erasesize = nodes.length + (erasesize - nodes.length) := by omega
  rw [blockOf]
  nth_rewrite 1 [fuel]
  rw [walk_padded nodes raw, rest, List.append_nil]

/-- A block with a node starts with the magic number. -/
theorem magic_blockOf (erasesize : Nat) (nodes : List Node) (raw : ∀ node ∈ nodes, Raw node)
    (some : nodes ≠ []) : magic (blockOf erasesize nodes) = 0x1985 := by
  obtain ⟨node, rest, rfl⟩ := List.exists_cons_of_ne_nil some
  have first := raw node List.mem_cons_self
  have long := first.header
  have split : padded (node :: rest) = padNode node ++ padded rest := rfl
  rw [blockOf, split, padNode, List.append_assoc, List.append_assoc, magic,
    field_append node _ 0 2 (by omega)]
  exact first.magic

end Raw

section Generated

variable (crc : List UInt8 → Nat)

theorem header_length (nodetype totlen : Nat) : (header nodetype totlen).length = 8 := by
  simp [header]

theorem checkedHeader_length (nodetype totlen : Nat) :
    (checkedHeader crc nodetype totlen).length = 12 := by
  simp [checkedHeader, header_length]

theorem direntHead_length (parent version ino type : Nat) (name : List UInt8) :
    (direntHead crc parent version ino type name).length = 32 := by
  simp [direntHead, checkedHeader_length]

theorem direntNode_length (parent version ino type : Nat) (name : List UInt8) :
    (direntNode crc parent version ino type name).length = 40 + name.length := by
  simp [direntNode, direntHead_length]
  omega

theorem inodeHead_length (st : Stat) (ino version offset len : Nat) :
    (inodeHead crc st ino version offset len).length = 60 := by
  simp [inodeHead, checkedHeader_length]

theorem inodeRaw_length (st : Stat) (ino version offset dataCrc len : Nat) :
    (inodeRaw crc st ino version offset dataCrc len).length = 68 := by
  simp [inodeRaw, inodeHead_length]

/-- The fields of a dirent, as far as they fit. -/
structure DirentFields (node : Node) (parent version ino type : Nat) (name : List UInt8) : Prop where
  raw : Raw node
  dirent : isDirent node
  pino : pino node = parent % 2 ^ 32
  version : Jffs2.version node = version % 2 ^ 32
  ino : direntIno node = ino % 2 ^ 32
  type : direntType node = type % 256
  name : nameOf node = name

theorem direntNode_fields (parent version ino type : Nat) (name : List UInt8)
    (short : name.length < 256) :
    DirentFields (direntNode crc parent version ino type name) parent version ino type name := by
  have length := direntNode_length crc parent version ino type name
  have size : nsize (direntNode crc parent version ino type name) = name.length := by
    simp [nsize, direntNode, direntHead, checkedHeader, header, List.append_assoc, field_behind,
      field_first, Nat.mod_eq_of_lt short]
  constructor
  · constructor
    · simp [magic, direntNode, direntHead, checkedHeader, header, List.append_assoc, field_first]
    · rw [length]
      simp only [totlen, direntNode, direntHead, checkedHeader, header, List.append_assoc]
      simp [field_behind, field_first]
      omega
    · omega
    · omega
  · simp [isDirent, nodetype, direntNode, direntHead, checkedHeader, header, List.append_assoc,
      field_behind, field_first]
  · simp [Jffs2.pino, direntNode, direntHead, checkedHeader, header, List.append_assoc, field_behind,
      field_first]
  · simp [Jffs2.version, direntNode, direntHead, checkedHeader, header, List.append_assoc,
      field_behind, field_first]
  · simp [direntIno, direntNode, direntHead, checkedHeader, header, List.append_assoc, field_behind,
      field_first]
  · simp [direntType, direntNode, direntHead, checkedHeader, header, List.append_assoc, field_behind,
      field_first]
  · rw [nameOf, size, direntNode, List.drop_left', List.take_length]
    simp [direntHead_length]

/-- The fields of an inode, as far as they fit. -/
structure InodeFields (node : Node) (ino version offset : Nat) (data : List UInt8) : Prop where
  raw : Raw node
  inode : isInode node
  ino : inodeIno node = ino % 2 ^ 32
  version : Jffs2.version node = version % 2 ^ 32
  offset : offsetOf node = offset % 2 ^ 32
  data : dataOf node = data

theorem inodeNode_fields (st : Stat) (ino version offset dataCrc : Nat) (data : List UInt8)
    (short : data.length < 2 ^ 30) :
    InodeFields (inodeRaw crc st ino version offset dataCrc data.length ++ data) ino version offset
      data := by
  have length := inodeRaw_length crc st ino version offset dataCrc data.length
  have size : dsize (inodeRaw crc st ino version offset dataCrc data.length ++ data) =
      data.length := by
    have fits : data.length % 4294967296 = data.length := Nat.mod_eq_of_lt (by omega)
    simp [dsize, inodeRaw, inodeHead, checkedHeader, header, List.append_assoc, field_behind,
      field_first, fits]
  constructor
  · constructor
    · simp [magic, inodeRaw, inodeHead, checkedHeader, header, List.append_assoc, field_first]
    · rw [List.length_append, length]
      simp only [totlen, inodeRaw, inodeHead, checkedHeader, header, List.append_assoc]
      simp [field_behind, field_first]
      omega
    · rw [List.length_append]
      omega
    · rw [List.length_append]
      omega
  · simp [isInode, nodetype, inodeRaw, inodeHead, checkedHeader, header, List.append_assoc,
      field_behind, field_first]
  · simp [inodeIno, inodeRaw, inodeHead, checkedHeader, header, List.append_assoc, field_behind,
      field_first]
  · simp [Jffs2.version, inodeRaw, inodeHead, checkedHeader, header, List.append_assoc,
      field_behind, field_first]
  · simp [offsetOf, inodeRaw, inodeHead, checkedHeader, header, List.append_assoc, field_behind,
      field_first]
  · rw [dataOf, size, List.drop_left' length, List.take_length]

theorem cleanmarker_raw : Raw cleanmarker := by
  constructor <;> decide

theorem cleanmarker_plain : isDirent cleanmarker = false ∧ isInode cleanmarker = false := by
  decide

end Generated

end Filogic.Jffs2
