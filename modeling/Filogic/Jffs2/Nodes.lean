import Filogic.Lib.LittleEndian

/-! `jffs2.h`: nodes as the bytes that are on the flash, and the nodes of an erase block. -/

namespace Filogic.Jffs2
open Lib

/-- The bytes of a node, from its magic number to the end of its data. -/
abbrev Node := List UInt8

section Fields

variable (node : Node)

/-- A number in a node. -/
def field (off len : Nat) : Nat := ofLe ((node.drop off).take len)

def magic : Nat := field node 0 2

def nodetype : Nat := field node 2 2

def totlen : Nat := field node 4 4

/-- `struct jffs2_raw_dirent` -/
def pino : Nat := field node 12 4

def version : Nat := field node 16 4

def direntIno : Nat := field node 20 4

def nsize : Nat := field node 28 1

def direntType : Nat := field node 29 1

def nameOf : List UInt8 := (node.drop 40).take (nsize node)

/-- `struct jffs2_raw_inode`, whose version is at the place of that of a dirent. -/
def inodeIno : Nat := field node 12 4

def offsetOf : Nat := field node 44 4

def dsize : Nat := field node 52 4

def dataOf : List UInt8 := (node.drop 68).take (dsize node)

/-- `JFFS2_NODETYPE_DIRENT` -/
def isDirent : Bool := nodetype node = 0xe001

/-- `JFFS2_NODETYPE_INODE` -/
def isInode : Bool := nodetype node = 0xe002

/-- `PAD` of a `uint32_t` -/
def padLen (len : Nat) : Nat := (len + 3) % 2 ^ 32 / 4 * 4

end Fields

/-- The nodes at the start of an erase block, up to the first place without the magic number. -/
def walk : Nat → List UInt8 → List Node
  | 0, _ => []
  | fuel + 1, bytes =>
      if magic bytes = 0x1985 then
        bytes.take (totlen bytes) :: walk fuel (bytes.drop (padLen (totlen bytes)))
      else []

/-- A node that ends where its header says, with a name that is one. -/
structure WellFormed (node : Node) : Prop where
  size : node.length = totlen node
  header : 12 ≤ node.length
  short : node.length < 2 ^ 31
  name : isDirent node → 40 + nsize node ≤ node.length ∧ 0 ∉ nameOf node

section Crc

/-- `crc32_table` -/
def crc32Table (byte : Nat) : Nat :=
  (List.range 8).foldl (fun val _ => if val % 2 = 1 then val / 2 ^^^ 0xedb88320 else val / 2) byte

/-- `crc32`, from `0` -/
def crc32 (bytes : List UInt8) : Nat :=
  bytes.foldl (fun val byte => crc32Table ((val ^^^ byte.toNat) % 256) ^^^ val / 256) 0

end Crc

section Encode

-- `crc32` of bytes, from `0`
variable (crc : List UInt8 → Nat)

def header (nodetype totlen : Nat) : List UInt8 :=
  leBytes 2 0x1985 ++ leBytes 2 nodetype ++ leBytes 4 totlen

/-- The header with its check sum. -/
def checkedHeader (nodetype totlen : Nat) : List UInt8 :=
  header nodetype totlen ++ leBytes 4 (crc (header nodetype totlen))

/-- A dirent up to its check sums. -/
def direntHead (parent version ino type : Nat) (name : List UInt8) : List UInt8 :=
  checkedHeader crc 0xe001 (40 + name.length) ++ leBytes 4 parent ++ leBytes 4 version ++
    leBytes 4 ino ++ leBytes 4 0 ++ leBytes 1 name.length ++ leBytes 1 type ++ [0, 0]

def direntNode (parent version ino type : Nat) (name : List UInt8) : Node :=
  direntHead crc parent version ino type name ++
    leBytes 4 (crc (direntHead crc parent version ino type name)) ++ leBytes 4 (crc name) ++ name

/-- What `stat` says about a file. -/
structure Stat where
  mode : Nat
  size : Nat
  atime : Nat
  mtime : Nat
  ctime : Nat

/-- An inode up to its check sums. -/
def inodeHead (st : Stat) (ino version offset len : Nat) : List UInt8 :=
  checkedHeader crc 0xe002 (68 + len) ++ leBytes 4 ino ++ leBytes 4 version ++ leBytes 4 st.mode ++
    leBytes 2 0 ++ leBytes 2 0 ++ leBytes 4 st.size ++ leBytes 4 st.atime ++ leBytes 4 st.mtime ++
    leBytes 4 st.ctime ++ leBytes 4 offset ++ leBytes 4 len ++ leBytes 4 len ++ [0, 0, 0, 0]

/-- An inode without its data. -/
def inodeRaw (st : Stat) (ino version offset : Nat) (dataCrc : Nat) (len : Nat) : List UInt8 :=
  inodeHead crc st ino version offset len ++ leBytes 4 dataCrc ++
    leBytes 4 (crc (inodeHead crc st ino version offset len))

/-- `CLEANMARKER` -/
def cleanmarker : Node := [0x85, 0x19, 0x03, 0x20, 0x0c, 0, 0, 0, 0xb1, 0xb0, 0x1e, 0xe4]

-- its own check sum
example : leBytes 4 (crc32 (cleanmarker.take 8)) = cleanmarker.drop 8 := by decide +kernel

/-- `JFFS2_EOF` -/
def jffs2Eof : List UInt8 := [0xde, 0xad, 0xc0, 0xde]

end Encode

end Filogic.Jffs2
