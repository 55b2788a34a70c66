import Filogic.Lib.FirstSeen

/-! `network.c` of `dnsmasq` with the XDNS patches: the override records and the lists of servers that
`reload_servers` makes of the `dnsoverride` lines of a resolv file. -/

namespace Filogic.Xdns
open Lib

abbrev Text := List Char

def xdnsNullMac : Text := "00:00:00:00:00:00".toList
def recAddrMax : Nat := 32
def recStrMax : Nat := 256

/-- `inet_pton` and `inet_ntop` for either family; an address that is printed is read back. -/
structure Inet where
  pton4 : Text → Option (BitVec 32)
  ntop4 : BitVec 32 → Text
  pton6 : Text → Option (BitVec 128)
  ntop6 : BitVec 128 → Text
  pton4_ntop4 : ∀ addr, pton4 (ntop4 addr) = some addr
  pton6_ntop6 : ∀ addr, pton6 (ntop6 addr) = some addr

/-- `struct dnsoverride_record` -/
structure Record where
  macaddr : Text
  dnsaddr4 : BitVec 32
  dnsaddr6 : BitVec 128
  cpetag : Text
  listTag : Nat
  deriving DecidableEq

/-- `struct server`, as far as it is set -/
inductive Server where
  | in4 (addr : BitVec 32)
  | in6 (addr : BitVec 128)
  deriving DecidableEq

/-- `struct server_lists` -/
structure ServerList where
  levelList : List Server
  levelTag : Nat
  deriving DecidableEq

/-- `struct daemon`, with `dnsrecs` of `arp.c` -/
structure Daemon where
  dnsrecs : List Record
  xdnsServerLists : List ServerList
  xdnsServerListsCount : Nat
  xdnsDefaultListNo : Nat

section Code

variable (inet : Inet)

/-- The loops that look for a record; none has the tag 0. -/
def findTag (found : Record → Bool) : List Record → Nat
  | [] => 0
  | temp :: rest => if found temp then temp.listTag else findTag found rest

/-- `find_mac_list` -/
def findMacList (pprec : List Record) (mac : Text) : Nat :=
  findTag (fun temp => temp.macaddr = mac) pprec

/-- `find_ip_list` -/
def findIpList (srvaddr4 srvaddr6 : Text) (pprec : List Record) : Nat :=
  findTag (fun temp => temp.macaddr ≠ xdnsNullMac ∧ inet.ntop4 temp.dnsaddr4 = srvaddr4 ∧
    inet.ntop6 temp.dnsaddr6 = srvaddr6) pprec

/-- `add_xdns_servers_list` -/
def addXdnsServersList (srvaddr4 srvaddr6 : Text) (listno : Nat) :
    List ServerList → List ServerList
  | [] => []
  | traverse :: rest =>
    if traverse.levelTag = listno then
      match inet.pton4 srvaddr4, inet.pton6 srvaddr6 with
      | some addr4, some addr6 =>
        { traverse with levelList := traverse.levelList ++ [.in4 addr4, .in6 addr6] } :: rest
      | _, _ => traverse :: rest
    else traverse :: addXdnsServersList srvaddr4 srvaddr6 listno rest

/-- `create_xdns_servers_list` -/
def createXdnsServersList (srvaddr4 srvaddr6 : Text) (xdnsServers : List ServerList)
    (listno : Nat) : List ServerList :=
  addXdnsServersList inet srvaddr4 srvaddr6 listno (xdnsServers ++ [⟨[], listno⟩])

/-- A new list for a record -/
def newList (srvaddr4 srvaddr6 : Text) (count : Nat) (d : Daemon) : Nat × Daemon :=
  (count, { d with
    xdnsServerListsCount := count
    xdnsServerLists := createXdnsServersList inet srvaddr4 srvaddr6 d.xdnsServerLists count })

/-- `entry->list_tag` of `create_dnsoverride_servers`, and what is set with it -/
def tagEntry (pprec : List Record) (macaddr srvaddr4 srvaddr6 : Text) (d : Daemon) :
    Nat × Daemon :=
  if pprec = [] then
    let (tag, d) := newList inet srvaddr4 srvaddr6 1 d
    (tag, if macaddr = xdnsNullMac then { d with xdnsDefaultListNo := tag } else d)
  else if macaddr = xdnsNullMac then
    let index := findMacList pprec xdnsNullMac
    if index = 0 then
      let (tag, d) := newList inet srvaddr4 srvaddr6 (d.xdnsServerListsCount + 1) d
      (tag, { d with xdnsDefaultListNo := tag })
    else
      (index, { d with
        xdnsServerLists := addXdnsServersList inet srvaddr4 srvaddr6 index d.xdnsServerLists })
  else
    let index := findIpList inet srvaddr4 srvaddr6 pprec
    if index = 0 then newList inet srvaddr4 srvaddr6 (d.xdnsServerListsCount + 1) d
    else (index, d)

/-- `create_dnsoverride_servers` -/
def createDnsoverrideServers (refactor : Bool) (macaddr srvaddr4 srvaddr6 : Text)
    (cpetag : Option Text) (s : List Record × Daemon) : List Record × Daemon :=
  match inet.pton4 srvaddr4, inet.pton6 srvaddr6 with
  | some addr4, some addr6 =>
    let (tag, d) :=
      if refactor then tagEntry inet s.1 macaddr srvaddr4 srvaddr6 s.2 else (0, s.2)
    let entry : Record :=
      { macaddr := if macaddr.length < recAddrMax then macaddr else []
        dnsaddr4 := addr4
        dnsaddr6 := addr6
        cpetag := (cpetag.filter fun tag => tag.length < recStrMax).getD []
        listTag := tag }
    (s.1 ++ [entry], d)
  | _, _ => s

/-- `strtok` with `" \t\n\r"` -/
def tokens (line : Text) : List Text :=
  (line.splitOnP fun c => c ∈ [' ', Char.ofNat 9, Char.ofNat 10, Char.ofNat 13]).filter (· ≠ [])

/-- The loop of `reload_servers` over the lines, where it is about XDNS -/
def reloadLine (refactor : Bool) (s : List Record × Daemon) (line : Text) : List Record × Daemon :=
  match tokens line with
  | token :: macaddr :: srvaddr4 :: srvaddr6 :: rest =>
    if token = "dnsoverride".toList then
      createDnsoverrideServers inet refactor macaddr srvaddr4 srvaddr6 rest.head? s
    else s
  | _ => s

/-- `reload_servers`, of a file that may be missing -/
def reloadServers (refactor : Bool) (file : Option (List Text)) (d : Daemon) : Daemon :=
  let d := { d with xdnsServerLists := [] }
  match file with
  | none => d
  | some lines =>
    let (prec, d) := lines.foldl (reloadLine inet refactor) ([], d)
    { d with dnsrecs := prec }

end Code

section Spec

variable (inet : Inet)

/-- A well-formed line: its MAC, and the addresses as they are spelled and as they are. -/
structure Override where
  macaddr : Text
  srvaddr4 : Text
  srvaddr6 : Text
  cpetag : Option Text
  addr4 : BitVec 32
  addr6 : BitVec 128

def readOverride (line : Text) : Option Override :=
  match tokens line with
  | token :: macaddr :: srvaddr4 :: srvaddr6 :: rest =>
    if token = "dnsoverride".toList then
      match inet.pton4 srvaddr4, inet.pton6 srvaddr6 with
      | some addr4, some addr6 => some ⟨macaddr, srvaddr4, srvaddr6, rest.head?, addr4, addr6⟩
      | _, _ => none
    else none
  | _ => none

/-- The well-formed lines of a file -/
def overrides (lines : List Text) : List Override := lines.filterMap (readOverride inet)

def servers (addr4 : BitVec 32) (addr6 : BitVec 128) : List Server := [.in4 addr4, .in6 addr6]

/-- The list that a tag names holds these servers. -/
def Holds (d : Daemon) (tag : Nat) (held : List Server) : Prop :=
  ∀ l ∈ d.xdnsServerLists, l.levelTag = tag → l.levelList = held

/-- The addresses of all default records, in their order -/
def defaultServers (records : List Record) : List Server :=
  (records.filter (·.macaddr = xdnsNullMac)).flatMap fun r => servers r.dnsaddr4 r.dnsaddr6

/-- The records are the lines, and the lists group them. -/
structure Grouped (lines : List Override) (d : Daemon) : Prop where
  records : d.dnsrecs.map (fun r => (r.macaddr, r.dnsaddr4, r.dnsaddr6)) =
    lines.map fun o => (o.macaddr, o.addr4, o.addr6)
  named : ∀ r ∈ d.dnsrecs, (d.xdnsServerLists.map ServerList.levelTag).count r.listTag = 1
  default_ : ∀ r ∈ d.dnsrecs, r.macaddr = xdnsNullMac →
    r.listTag = d.xdnsDefaultListNo ∧ Holds d r.listTag (defaultServers d.dnsrecs)
  pair : ∀ r ∈ d.dnsrecs, r.macaddr ≠ xdnsNullMac →
    Holds d r.listTag (servers r.dnsaddr4 r.dnsaddr6)
  shared : ∀ r ∈ d.dnsrecs, ∀ r' ∈ d.dnsrecs, r.macaddr ≠ xdnsNullMac →
    r'.macaddr ≠ xdnsNullMac → (r.listTag = r'.listTag ↔
      r.dnsaddr4 = r'.dnsaddr4 ∧ r.dnsaddr6 = r'.dnsaddr6)
  none_ : (∀ r ∈ d.dnsrecs, r.macaddr ≠ xdnsNullMac) →
    ∀ l ∈ d.xdnsServerLists, l.levelTag ≠ d.xdnsDefaultListNo

/-- What a list is for: all default records, or one pair of addresses. -/
def Override.key (o : Override) : Option (BitVec 32 × BitVec 128) :=
  if o.macaddr = xdnsNullMac then none else some (o.addr4, o.addr6)

/-- The addresses are spelled as they are printed. -/
def Spelled (o : Override) : Prop :=
  inet.ntop4 o.addr4 = o.srvaddr4 ∧ inet.ntop6 o.addr6 = o.srvaddr6

/-- No MAC is too long for a record, a pair that has occurred is spelled as it is printed, and there is
a default record unless the default list number of earlier names none of the lists, which are numbered
from 1 on. -/
structure Regular (lines : List Override) (defaultNo : Nat) : Prop where
  short : ∀ o ∈ lines, o.macaddr.length < recAddrMax
  spelled : lines.Pairwise fun earlier o =>
    o.macaddr ≠ xdnsNullMac → earlier.key = o.key → Spelled inet o
  fresh : (∃ o ∈ lines, o.macaddr = xdnsNullMac) ∨ defaultNo = 0 ∨
    (lines.map Override.key).dedup.length < defaultNo

end Spec

section Lines

variable (inet : Inet)

/-- The addresses of a line are what its texts convert to. -/
def Converts (o : Override) : Prop :=
  inet.pton4 o.srvaddr4 = some o.addr4 ∧ inet.pton6 o.srvaddr6 = some o.addr6

def addOverride (s : List Record × Daemon) (o : Override) : List Record × Daemon :=
  createDnsoverrideServers inet true o.macaddr o.srvaddr4 o.srvaddr6 o.cpetag s

theorem reloadLine_eq (s : List Record × Daemon) (line : Text) :
    reloadLine inet true s line = (readOverride inet line).elim s (addOverride inet s) := by
  unfold reloadLine readOverride
  split
  · split_ifs
    · unfold createDnsoverrideServers
      split <;> rename_i converted <;> simp only [*, Option.elim_none, Option.elim_some]
      · unfold addOverride createDnsoverrideServers
        simp only [*]
    · rfl
  · rfl

theorem overrides_converts (lines : List Text) : ∀ o ∈ overrides inet lines, Converts inet o := by
  intro o member
  obtain ⟨line, -, read⟩ := List.mem_filterMap.mp member
  unfold readOverride at read
  split at read
  · split_ifs at read
    split at read
    · rename_i four six
      obtain rfl := Option.some.inj read
      exact ⟨four, six⟩
    · cases read
  · cases read

/-- A reload goes through the well-formed lines. -/
theorem reloadServers_eq (lines : List Text) (d : Daemon) :
    reloadServers inet true (some lines) d =
      let after := (overrides inet lines).foldl (addOverride inet)
        ([], { d with xdnsServerLists := [] })
      { after.2 with dnsrecs := after.1 } := by
  have folded (s : List Record × Daemon) : lines.foldl (reloadLine inet true) s =
      (overrides inet lines).foldl (addOverride inet) s := by
    unfold overrides
    induction lines generalizing s with
    | nil => rfl
    | cons line rest ih =>
      rw [List.foldl_cons, reloadLine_eq, ih]
      cases read : readOverride inet line <;> simp [read]
  unfold reloadServers
  dsimp only
  rw [folded]

end Lines

section Tags

theorem findTag_eq (found : Record → Bool) (records : List Record) (tag : Nat)
    (some_ : ∃ r ∈ records, found r = true) (same : ∀ r ∈ records, found r = true → r.listTag = tag) :
    findTag found records = tag := by
  induction records with
  | nil => simp at some_
  | cons r rest ih =>
    rw [findTag]
    split_ifs with here
    · exact same r List.mem_cons_self here
    · obtain ⟨other, member, it⟩ := some_
      rcases List.mem_cons.mp member with rfl | later
      · exact absurd it here
      · exact ih ⟨other, later, it⟩ fun r' member' => same r' (List.mem_cons_of_mem r member')

theorem findTag_zero (found : Record → Bool) (records : List Record)
    (none_ : ∀ r ∈ records, found r = false) : findTag found records = 0 := by
  induction records with
  | nil => rfl
  | cons r rest ih =>
    rw [findTag, if_neg (by simp [none_ r List.mem_cons_self])]
    exact ih fun r' member => none_ r' (List.mem_cons_of_mem r member)

/-- Tags of their own: the servers go to the list that is named. -/
theorem addXdnsServersList_eq (inet : Inet) (o : Override) (converts : Converts inet o)
    (listno : Nat) (lists : List ServerList) (nodup : (lists.map ServerList.levelTag).Nodup) :
    addXdnsServersList inet o.srvaddr4 o.srvaddr6 listno lists = lists.map fun l =>
      if l.levelTag = listno then { l with levelList := l.levelList ++ servers o.addr4 o.addr6 }
      else l := by
  induction lists with
  | nil => rfl
  | cons l rest ih =>
    rw [List.map_cons, List.nodup_cons] at nodup
    rw [addXdnsServersList, converts.1, converts.2, List.map_cons, ih nodup.2]
    dsimp only
    split_ifs with here
    · congr 1
      symm
      refine (List.map_congr_left fun other member => ?_).trans (List.map_id rest)
      rw [if_neg, id]
      rintro rfl
      exact nodup.1 (here ▸ List.mem_map_of_mem member)
    · rfl

end Tags

section Simulation

/-- The record of a line, with the number of its key -/
def recordOf (lines : List Override) (o : Override) : Record :=
  { macaddr := o.macaddr
    dnsaddr4 := o.addr4
    dnsaddr6 := o.addr6
    cpetag := (o.cpetag.filter fun tag => tag.length < recStrMax).getD []
    listTag := number (lines.map Override.key) o.key }

/-- What the list of a key holds. -/
def contents (lines : List Override) : Option (BitVec 32 × BitVec 128) → List Server
  | none => (lines.filter (·.macaddr = xdnsNullMac)).flatMap fun o => servers o.addr4 o.addr6
  | some (addr4, addr6) => servers addr4 addr6

/-- The list of a key -/
def listOf (lines : List Override) (k : Option (BitVec 32 × BitVec 128)) : ServerList :=
  ⟨contents lines k, number (lines.map Override.key) k⟩

/-- The state after some lines: one list for each key, in the order in which they are first seen. -/
structure Simulates (defaultNo : Nat) (lines : List Override) (s : List Record × Daemon) :
    Prop where
  records : s.1 = lines.map (recordOf lines)
  lists : s.2.xdnsServerLists = (firstSeen (lines.map Override.key)).map (listOf lines)
  count : lines ≠ [] →
    s.2.xdnsServerListsCount = (firstSeen (lines.map Override.key)).length
  default_ : s.2.xdnsDefaultListNo =
    if none ∈ lines.map Override.key then number (lines.map Override.key) none else defaultNo

variable {inet : Inet} {defaultNo : Nat} {lines : List Override} {s : List Record × Daemon}
  {o : Override}

theorem key_none (o : Override) : o.key = none ↔ o.macaddr = xdnsNullMac := by
  unfold Override.key
  split_ifs with null <;> simp [null]

theorem key_some (o : Override) (addr4 : BitVec 32) (addr6 : BitVec 128) :
    o.key = some (addr4, addr6) ↔
      o.macaddr ≠ xdnsNullMac ∧ o.addr4 = addr4 ∧ o.addr6 = addr6 := by
  unfold Override.key
  split_ifs with null <;> simp [null]

theorem records_concat (lines : List Override) (o : Override) :
    lines.map (recordOf (lines ++ [o])) = lines.map (recordOf lines) := by
  refine List.map_congr_left fun earlier member => ?_
  unfold recordOf
  rw [List.map_append, List.map_singleton,
    number_concat _ _ _ (List.mem_map_of_mem (f := Override.key) member)]

theorem contents_concat (lines : List Override) (o : Override)
    (k : Option (BitVec 32 × BitVec 128)) : contents (lines ++ [o]) k =
      if k = none ∧ o.key = none then contents lines k ++ servers o.addr4 o.addr6
      else contents lines k := by
  cases k with
  | none =>
    unfold contents
    dsimp only
    rw [List.filter_append, List.flatMap_append]
    by_cases null : o.key = none
    · simp [null, (key_none o).mp null]
    · have other : o.macaddr ≠ xdnsNullMac := fun same => null ((key_none o).mpr same)
      simp [null, other]
  | some pair => simp [contents]

theorem contents_new (lines : List Override) (o : Override)
    (new : o.key ∉ lines.map Override.key) :
    contents (lines ++ [o]) o.key = servers o.addr4 o.addr6 := by
  rw [contents_concat]
  cases key : o.key with
  | none =>
    have empty : lines.filter (·.macaddr = xdnsNullMac) = [] := by
      rw [List.filter_eq_nil_iff]
      intro earlier member null
      refine new (List.mem_map.mpr ⟨earlier, member, ?_⟩)
      rw [key, (key_none earlier).mpr (by simpa using null)]
    rw [if_pos ⟨rfl, rfl⟩, contents, empty]
    rfl
  | some pair =>
    obtain ⟨-, four, six⟩ := (key_some o pair.1 pair.2).mp key
    rw [if_neg (by simp), four, six]
    rfl

/-- A list that is there already changes only for another default record. -/
theorem listOf_concat (lines : List Override) (o : Override)
    (k : Option (BitVec 32 × BitVec 128)) (seen : k ∈ lines.map Override.key) :
    listOf (lines ++ [o]) k =
      if k = none ∧ o.key = none then
        { listOf lines k with levelList := (listOf lines k).levelList ++ servers o.addr4 o.addr6 }
      else listOf lines k := by
  unfold listOf
  rw [contents_concat, List.map_append, List.map_singleton, number_concat _ _ _ seen]
  split_ifs <;> rfl

theorem tags_nodup (lines : List Override) (ks : List (Option (BitVec 32 × BitVec 128)))
    (nodup : ks.Nodup) (seen : ∀ k ∈ ks, k ∈ lines.map Override.key) :
    ((ks.map (listOf lines)).map ServerList.levelTag).Nodup := by
  rw [List.map_map]
  refine List.Nodup.map_on ?_ nodup
  intro k member k' _ same
  exact (number_inj _ k k' (seen k member)).mp same

theorem seen_tags_nodup (lines : List Override) :
    (((firstSeen (lines.map Override.key)).map (listOf lines)).map ServerList.levelTag).Nodup :=
  tags_nodup lines _ (firstSeen_nodup _) fun k member => (mem_firstSeen _ k).mp member

/-- A new list for a key that was not seen -/
theorem newList_eq (converts : Converts inet o) (new : o.key ∉ lines.map Override.key)
    (d : Daemon) (lists : d.xdnsServerLists =
      (firstSeen (lines.map Override.key)).map (listOf lines)) (count : Nat)
    (next : count = (firstSeen (lines.map Override.key)).length + 1) :
    newList inet o.srvaddr4 o.srvaddr6 count d =
      (number ((lines ++ [o]).map Override.key) o.key, { d with
        xdnsServerListsCount := (firstSeen ((lines ++ [o]).map Override.key)).length
        xdnsServerLists :=
          (firstSeen ((lines ++ [o]).map Override.key)).map (listOf (lines ++ [o])) }) := by
  have keys : (lines ++ [o]).map Override.key = lines.map Override.key ++ [o.key] := by simp
  have tag : number ((lines ++ [o]).map Override.key) o.key = count := by
    rw [keys, number_new _ _ new, next]
  have length : (firstSeen ((lines ++ [o]).map Override.key)).length = count := by
    rw [keys, firstSeen_new _ _ new, List.length_append, next]
    rfl
  have old (k) (member : k ∈ firstSeen (lines.map Override.key)) :
      (listOf lines k).levelTag < count := by
    have le := number_le _ k ((mem_firstSeen _ k).mp member)
    rw [next]
    exact Nat.lt_succ_of_le le
  let last : ServerList := ⟨[], count⟩
  have fresh : ((d.xdnsServerLists ++ [last]).map ServerList.levelTag).Nodup := by
    rw [lists, List.map_append, List.nodup_append]
    refine ⟨seen_tags_nodup lines, List.nodup_singleton _, ?_⟩
    intro a member b single same
    have b_eq : b = count := List.mem_singleton.mp single
    rw [List.map_map] at member
    obtain ⟨k, there, rfl⟩ := List.mem_map.mp member
    have less := old k there
    rw [Function.comp_apply] at same
    omega
  have added : createXdnsServersList inet o.srvaddr4 o.srvaddr6 d.xdnsServerLists count =
      (firstSeen ((lines ++ [o]).map Override.key)).map (listOf (lines ++ [o])) := by
    rw [createXdnsServersList, addXdnsServersList_eq inet o converts count _ fresh, lists,
      List.map_append, List.map_map, keys, firstSeen_new _ _ new, List.map_append]
    congr 1
    · refine List.map_congr_left fun k member => ?_
      have seen := (mem_firstSeen _ k).mp member
      have differs : ¬(k = none ∧ o.key = none) := by
        rintro ⟨rfl, null⟩
        exact new (null ▸ seen)
      rw [Function.comp_apply, if_neg (by have less := old k member; omega),
        listOf_concat lines o k seen, if_neg differs]
    · rw [List.map_singleton, List.map_singleton, if_pos rfl]
      congr 1
      rw [listOf, contents_new lines o new, tag]
      rfl
  unfold newList
  rw [added, tag, length]

theorem findMacList_eq (sim : Simulates defaultNo lines s) :
    findMacList s.1 xdnsNullMac =
      if none ∈ lines.map Override.key then number (lines.map Override.key) none else 0 := by
  rw [sim.records]
  split_ifs with seen
  · obtain ⟨o, member, key⟩ := List.mem_map.mp seen
    refine findTag_eq _ _ _ ⟨recordOf lines o, List.mem_map_of_mem member, ?_⟩ ?_
    · exact decide_eq_true ((key_none o).mp key)
    · intro r there null
      obtain ⟨o', -, rfl⟩ := List.mem_map.mp there
      have key' : o'.key = none := (key_none o').mpr (of_decide_eq_true null)
      simp [recordOf, key']
  · refine findTag_zero _ _ fun r there => ?_
    obtain ⟨o, member, rfl⟩ := List.mem_map.mp there
    rw [decide_eq_false_iff_not]
    intro null
    exact seen (List.mem_map.mpr ⟨o, member, (key_none o).mpr null⟩)

/-- What `find_ip_list` finds is spelled as it is printed, and has the pair. -/
theorem found_iff (converts : Converts inet o) (null : o.macaddr ≠ xdnsNullMac) (e : Override) :
    ((e.macaddr ≠ xdnsNullMac ∧ inet.ntop4 e.addr4 = o.srvaddr4 ∧
      inet.ntop6 e.addr6 = o.srvaddr6) ↔ e.key = o.key ∧ Spelled inet o) := by
  have key : o.key = some (o.addr4, o.addr6) := (key_some o _ _).mpr ⟨null, rfl, rfl⟩
  rw [key, key_some]
  constructor
  · rintro ⟨other, four, six⟩
    have same4 : e.addr4 = o.addr4 := by
      have back := inet.pton4_ntop4 e.addr4
      rw [four, converts.1] at back
      exact (Option.some.inj back).symm
    have same6 : e.addr6 = o.addr6 := by
      have back := inet.pton6_ntop6 e.addr6
      rw [six, converts.2] at back
      exact (Option.some.inj back).symm
    exact ⟨⟨other, same4, same6⟩, same4 ▸ four, same6 ▸ six⟩
  · rintro ⟨⟨other, four, six⟩, spelled⟩
    exact ⟨other, four ▸ spelled.1, six ▸ spelled.2⟩

theorem findIpList_eq (sim : Simulates defaultNo lines s) (converts : Converts inet o)
    (null : o.macaddr ≠ xdnsNullMac) (spelled : o.key ∈ lines.map Override.key → Spelled inet o) :
    findIpList inet o.srvaddr4 o.srvaddr6 s.1 =
      if o.key ∈ lines.map Override.key then number (lines.map Override.key) o.key else 0 := by
  rw [sim.records]
  split_ifs with seen
  · obtain ⟨e, member, key⟩ := List.mem_map.mp seen
    refine findTag_eq _ _ _ ⟨recordOf lines e, List.mem_map_of_mem member, ?_⟩ ?_
    · exact decide_eq_true ((found_iff converts null e).mpr ⟨key, spelled seen⟩)
    · intro r there found
      obtain ⟨e', -, rfl⟩ := List.mem_map.mp there
      have key' := ((found_iff converts null e').mp (of_decide_eq_true found)).1
      simp [recordOf, key']
  · refine findTag_zero _ _ fun r there => ?_
    obtain ⟨e, member, rfl⟩ := List.mem_map.mp there
    refine decide_eq_false fun found => seen ?_
    exact List.mem_map.mpr ⟨e, member, ((found_iff converts null e).mp found).1⟩

/-- The lists when a key comes again -/
theorem lists_seen (converts : Converts inet o) (seen : o.key ∈ lines.map Override.key) :
    (firstSeen ((lines ++ [o]).map Override.key)).map (listOf (lines ++ [o])) =
      if o.key = none then
        addXdnsServersList inet o.srvaddr4 o.srvaddr6 (number (lines.map Override.key) none)
          ((firstSeen (lines.map Override.key)).map (listOf lines))
      else (firstSeen (lines.map Override.key)).map (listOf lines) := by
  rw [List.map_append, List.map_singleton, firstSeen_seen _ _ seen]
  split_ifs with key
  · rw [addXdnsServersList_eq inet o converts _ _ (seen_tags_nodup lines), List.map_map]
    refine List.map_congr_left fun k member => ?_
    have there := (mem_firstSeen _ k).mp member
    have named : (listOf lines k).levelTag = number (lines.map Override.key) none ↔ k = none :=
      number_inj _ k none there
    rw [listOf_concat lines o k there, Function.comp_apply]
    by_cases it : k = none
    · rw [if_pos ⟨it, key⟩, if_pos (named.mpr it)]
    · rw [if_neg fun both => it both.1, if_neg fun same => it (named.mp same)]
  · refine List.map_congr_left fun k member => ?_
    rw [listOf_concat lines o k ((mem_firstSeen _ k).mp member), if_neg fun both => key both.2]

/-- The tag of a record is the number of its key, and the lists keep up with the keys. -/
theorem tagEntry_eq (sim : Simulates defaultNo lines s) (converts : Converts inet o)
    (spelled : o.macaddr ≠ xdnsNullMac → o.key ∈ lines.map Override.key → Spelled inet o) :
    tagEntry inet s.1 o.macaddr o.srvaddr4 o.srvaddr6 s.2 =
      (number ((lines ++ [o]).map Override.key) o.key, { s.2 with
        xdnsServerListsCount := (firstSeen ((lines ++ [o]).map Override.key)).length
        xdnsServerLists :=
          (firstSeen ((lines ++ [o]).map Override.key)).map (listOf (lines ++ [o]))
        xdnsDefaultListNo :=
          if o.macaddr = xdnsNullMac then number ((lines ++ [o]).map Override.key) none
          else s.2.xdnsDefaultListNo }) := by
  have keys : (lines ++ [o]).map Override.key = lines.map Override.key ++ [o.key] := by simp
  unfold tagEntry
  by_cases empty : s.1 = []
  · have none_ : lines = [] := by simpa [sim.records] using empty
    subst none_
    rw [if_pos empty, newList_eq converts (by simp) s.2 sim.lists 1 rfl]
    dsimp only
    split_ifs with null
    · rw [(key_none o).mpr null]
    · rfl
  have count : s.2.xdnsServerListsCount = (firstSeen (lines.map Override.key)).length :=
    sim.count fun none_ => empty (by rw [sim.records, none_]; rfl)
  rw [if_neg empty]
  by_cases null : o.macaddr = xdnsNullMac
  · have key := (key_none o).mpr null
    rw [if_pos null, if_pos null, findMacList_eq sim]
    dsimp only
    by_cases seen : none ∈ lines.map Override.key
    · have tag : number ((lines ++ [o]).map Override.key) none =
          number (lines.map Override.key) none := by rw [keys, number_concat _ _ _ seen]
      have default_ : number (lines.map Override.key) none = s.2.xdnsDefaultListNo := by
        rw [sim.default_, if_pos seen]
      rw [if_pos seen, if_neg (number_ne_zero _ _), lists_seen converts (key ▸ seen), if_pos key,
        key, tag, keys, firstSeen_seen _ _ (key ▸ seen), ← count, sim.lists]
      rw [default_]
    · rw [if_neg seen, if_pos rfl, newList_eq converts (by rwa [key]) s.2 sim.lists _ (by rw [count]),
        key]
  · rw [if_neg null, if_neg null, findIpList_eq sim converts null (spelled null)]
    dsimp only
    by_cases seen : o.key ∈ lines.map Override.key
    · rw [if_pos seen, if_neg (number_ne_zero _ _), lists_seen converts seen,
        if_neg fun key => null ((key_none o).mp key), keys, number_concat _ _ _ seen,
        firstSeen_seen _ _ seen, ← count, ← sim.lists]
    · rw [if_neg seen, if_pos rfl, newList_eq converts seen s.2 sim.lists _ (by rw [count])]

/-- A line that is added -/
theorem Simulates.step (sim : Simulates defaultNo lines s) (converts : Converts inet o)
    (short : o.macaddr.length < recAddrMax)
    (spelled : o.macaddr ≠ xdnsNullMac → o.key ∈ lines.map Override.key → Spelled inet o) :
    Simulates defaultNo (lines ++ [o]) (addOverride inet s o) := by
  have keys : (lines ++ [o]).map Override.key = lines.map Override.key ++ [o.key] := by simp
  have tagged := tagEntry_eq sim converts spelled
  unfold addOverride createDnsoverrideServers
  rw [converts.1, converts.2]
  dsimp only
  rw [if_pos rfl, tagged, if_pos short]
  have later : (lines ++ [o]).map (recordOf (lines ++ [o])) =
      lines.map (recordOf lines) ++ [recordOf (lines ++ [o]) o] := by
    rw [List.map_append, records_concat]
    rfl
  refine ⟨?_, rfl, fun _ => rfl, ?_⟩
  · rw [later, ← sim.records]
    rfl
  · dsimp only
    by_cases null : o.macaddr = xdnsNullMac
    · have key := (key_none o).mpr null
      rw [if_pos null, if_pos (by simp [keys, key])]
    · have key : o.key ≠ none := fun same => null ((key_none o).mp same)
      rw [if_neg null, sim.default_, keys]
      have member : none ∈ lines.map Override.key ++ [o.key] ↔ none ∈ lines.map Override.key := by
        simp [key.symm]
      by_cases seen : none ∈ lines.map Override.key
      · rw [if_pos seen, if_pos (member.mpr seen), number_concat _ _ _ seen]
      · rw [if_neg seen, if_neg fun there => seen (member.mp there)]

theorem simulates_nil (d : Daemon) (empty : d.xdnsServerLists = []) :
    Simulates d.xdnsDefaultListNo [] ([], d) :=
  ⟨rfl, by simp [empty], fun other => absurd rfl other, by simp⟩

/-- The whole file -/
theorem simulates_foldl (d : Daemon) (empty : d.xdnsServerLists = []) (lines : List Override)
    (converts : ∀ o ∈ lines, Converts inet o)
    (short : ∀ o ∈ lines, o.macaddr.length < recAddrMax)
    (spelled : lines.Pairwise fun earlier o =>
      o.macaddr ≠ xdnsNullMac → earlier.key = o.key → Spelled inet o) :
    Simulates d.xdnsDefaultListNo lines (lines.foldl (addOverride inet) ([], d)) := by
  induction lines using List.reverseRecOn with
  | nil => exact simulates_nil d empty
  | append_singleton lines o ih =>
    rw [List.pairwise_append] at spelled
    rw [List.foldl_append]
    have sim := ih (fun e member => converts e (List.mem_append_left _ member))
      (fun e member => short e (List.mem_append_left _ member)) spelled.1
    refine sim.step (converts o (by simp)) (short o (by simp)) fun null seen => ?_
    obtain ⟨e, member, key⟩ := List.mem_map.mp seen
    exact spelled.2.2 e member o (List.mem_singleton_self o) null key

theorem defaultServers_eq (records lines' : List Override) :
    defaultServers (records.map (recordOf lines')) = contents records none := by
  unfold defaultServers contents
  rw [List.filter_map, List.flatMap_map]
  rfl

/-- The records are handed over at the end. -/
theorem Simulates.final (sim : Simulates defaultNo lines s) :
    Simulates defaultNo lines (s.1, { s.2 with dnsrecs := s.1 }) :=
  ⟨sim.records, sim.lists, sim.count, sim.default_⟩

theorem Simulates.grouped (d : Daemon) (sim : Simulates defaultNo lines (d.dnsrecs, d))
    (fresh : (∃ o ∈ lines, o.macaddr = xdnsNullMac) ∨ defaultNo = 0 ∨
      (lines.map Override.key).dedup.length < defaultNo) : Grouped lines d := by
  have records : d.dnsrecs = lines.map (recordOf lines) := sim.records
  have lists : d.xdnsServerLists = (firstSeen (lines.map Override.key)).map (listOf lines) :=
    sim.lists
  have key_mem {o : Override} (member : o ∈ lines) : o.key ∈ lines.map Override.key :=
    List.mem_map_of_mem member
  have holds (k) (seen : k ∈ lines.map Override.key) :
      Holds d (number (lines.map Override.key) k) (contents lines k) := by
    intro l member tag
    rw [lists] at member
    obtain ⟨k', -, rfl⟩ := List.mem_map.mp member
    have same := (number_inj _ k k' seen).mp tag.symm
    rw [same]
    rfl
  refine ⟨?_, ?_, ?_, ?_, ?_, ?_⟩
  · rw [records, List.map_map]
    rfl
  · intro r member
    rw [records] at member
    obtain ⟨o, there, rfl⟩ := List.mem_map.mp member
    rw [lists]
    refine List.count_eq_one_of_mem (seen_tags_nodup lines) ?_
    rw [List.map_map]
    exact List.mem_map.mpr ⟨o.key, (mem_firstSeen _ _).mpr (key_mem there), rfl⟩
  · intro r member null
    rw [records, defaultServers_eq]
    rw [records] at member
    obtain ⟨o, there, rfl⟩ := List.mem_map.mp member
    have key : o.key = none := (key_none o).mpr null
    have seen : none ∈ lines.map Override.key := key ▸ key_mem there
    have tag : (recordOf lines o).listTag = number (lines.map Override.key) none := by
      rw [recordOf, key]
    rw [tag]
    refine ⟨?_, holds none seen⟩
    have default_ := sim.default_
    rw [if_pos seen] at default_
    exact default_.symm
  · intro r member null
    rw [records] at member
    obtain ⟨o, there, rfl⟩ := List.mem_map.mp member
    have key : o.key = some (o.addr4, o.addr6) := (key_some o _ _).mpr ⟨null, rfl, rfl⟩
    have held := holds o.key (key_mem there)
    rw [key] at held
    change Holds d (number (lines.map Override.key) o.key) _
    rw [key]
    exact held
  · intro r member r' member' null null'
    rw [records] at member member'
    obtain ⟨o, there, rfl⟩ := List.mem_map.mp member
    obtain ⟨o', -, rfl⟩ := List.mem_map.mp member'
    have key : o.key = some (o.addr4, o.addr6) := (key_some o _ _).mpr ⟨null, rfl, rfl⟩
    have key' : o'.key = some (o'.addr4, o'.addr6) := (key_some o' _ _).mpr ⟨null', rfl, rfl⟩
    change number _ o.key = number _ o'.key ↔ o.addr4 = o'.addr4 ∧ o.addr6 = o'.addr6
    rw [number_inj _ _ _ (key_mem there), key, key']
    simp
  · intro others l member tag
    have unseen : none ∉ lines.map Override.key := by
      intro seen
      obtain ⟨o, there, key⟩ := List.mem_map.mp seen
      refine others (recordOf lines o) ?_ ((key_none o).mp key)
      rw [records]
      exact List.mem_map_of_mem there
    rw [lists] at member
    obtain ⟨k, there, rfl⟩ := List.mem_map.mp member
    have default_ := sim.default_
    rw [if_neg unseen] at default_
    change number _ k = d.xdnsDefaultListNo at tag
    rw [default_] at tag
    have le := number_le _ k ((mem_firstSeen _ k).mp there)
    rw [length_firstSeen] at le
    rcases fresh with ⟨o, inside, null⟩ | zero | above
    · exact unseen ((key_none o).mpr null ▸ key_mem inside)
    · exact number_ne_zero _ k (tag.trans zero)
    · omega

end Simulation

section Necessary

variable {inet : Inet} {s : List Record × Daemon} {o : Override}

/-- Every line gets a record at the end, with its addresses and with its MAC when that is short. -/
theorem addOverride_records (converts : Converts inet o) :
    ∃ r, (addOverride inet s o).1 = s.1 ++ [r] ∧
      r.listTag = (tagEntry inet s.1 o.macaddr o.srvaddr4 o.srvaddr6 s.2).1 ∧
      (r.macaddr, r.dnsaddr4, r.dnsaddr6) =
        (if o.macaddr.length < recAddrMax then o.macaddr else [], o.addr4, o.addr6) := by
  unfold addOverride createDnsoverrideServers
  rw [converts.1, converts.2]
  exact ⟨_, rfl, rfl, rfl⟩

theorem records_foldl (d : Daemon) (lines : List Override) (converts : ∀ o ∈ lines, Converts inet o) :
    (lines.foldl (addOverride inet) ([], d)).1.map
        (fun r => (r.macaddr, r.dnsaddr4, r.dnsaddr6)) =
      lines.map fun o =>
        (if o.macaddr.length < recAddrMax then o.macaddr else [], o.addr4, o.addr6) := by
  induction lines using List.reverseRecOn with
  | nil => rfl
  | append_singleton lines o ih =>
    rw [List.foldl_append, List.map_append]
    obtain ⟨r, records, -, fields⟩ := addOverride_records
      (s := lines.foldl (addOverride inet) ([], d)) (converts o (by simp))
    rw [List.foldl_cons, List.foldl_nil, records, List.map_append,
      ih fun e member => converts e (List.mem_append_left _ member), List.map_singleton,
      List.map_singleton, fields]

/-- An address that is not spelled as it is printed is not found. -/
theorem findIpList_zero {defaultNo : Nat} {lines : List Override}
    (sim : Simulates defaultNo lines s) (converts : Converts inet o)
    (null : o.macaddr ≠ xdnsNullMac) (other : ¬ Spelled inet o) :
    findIpList inet o.srvaddr4 o.srvaddr6 s.1 = 0 := by
  rw [sim.records]
  refine findTag_zero _ _ fun r there => ?_
  obtain ⟨e, -, rfl⟩ := List.mem_map.mp there
  exact decide_eq_false fun found => other ((found_iff converts null e).mp found).2

/-- The records with one pair of addresses have one tag. -/
def OneTag (records : List Record) : Prop :=
  ∀ r ∈ records, ∀ r' ∈ records, r.macaddr ≠ xdnsNullMac → r'.macaddr ≠ xdnsNullMac →
    r.dnsaddr4 = r'.dnsaddr4 → r.dnsaddr6 = r'.dnsaddr6 → r.listTag = r'.listTag

/-- A line with the pair of an earlier one that is spelled otherwise gets a list of its own. -/
theorem not_oneTag {defaultNo : Nat} {lines : List Override} (sim : Simulates defaultNo lines s)
    (converts : Converts inet o) (short : o.macaddr.length < recAddrMax)
    (null : o.macaddr ≠ xdnsNullMac) (earlier : Override) (member : earlier ∈ lines)
    (key : earlier.key = o.key) (other : ¬ Spelled inet o) :
    ¬ OneTag (addOverride inet s o).1 := by
  obtain ⟨r, records, tag, fields⟩ := addOverride_records (s := s) converts
  rw [if_pos short, Prod.mk.injEq, Prod.mk.injEq] at fields
  have some_ : s.1 ≠ [] := by
    rw [sim.records]
    exact List.ne_nil_of_mem (List.mem_map_of_mem member)
  have new : r.listTag = (firstSeen (lines.map Override.key)).length + 1 := by
    rw [tag]
    unfold tagEntry
    rw [if_neg some_, if_neg null, findIpList_zero sim converts null other]
    dsimp only
    rw [if_pos rfl, ← sim.count (List.ne_nil_of_mem member)]
    rfl
  have pair : earlier.key = some (o.addr4, o.addr6) :=
    key.trans ((key_some o _ _).mpr ⟨null, rfl, rfl⟩)
  obtain ⟨null', four, six⟩ := (key_some earlier _ _).mp pair
  have le := number_le (lines.map Override.key) earlier.key (List.mem_map_of_mem member)
  intro one
  have same := one (recordOf lines earlier)
    (by rw [records, sim.records]; exact List.mem_append_left _ (List.mem_map_of_mem member))
    r (by rw [records]; simp) null' (fields.1 ▸ null) (four.trans fields.2.1.symm)
    (six.trans fields.2.2.symm)
  rw [new] at same
  change number _ earlier.key = _ at same
  omega

/-- Where equal pairs have one tag, all lines up to the end were spelled as they are printed. -/
theorem spelled_of_oneTag (d : Daemon) (empty : d.xdnsServerLists = []) (lines : List Override)
    (converts : ∀ o ∈ lines, Converts inet o)
    (short : ∀ o ∈ lines, o.macaddr.length < recAddrMax)
    (one : OneTag (lines.foldl (addOverride inet) ([], d)).1) :
    lines.Pairwise fun earlier o =>
      o.macaddr ≠ xdnsNullMac → earlier.key = o.key → Spelled inet o := by
  induction lines using List.reverseRecOn with
  | nil => exact List.Pairwise.nil
  | append_singleton lines o ih =>
    have converts' (e) (member : e ∈ lines) := converts e (List.mem_append_left _ member)
    have short' (e) (member : e ∈ lines) := short e (List.mem_append_left _ member)
    rw [List.foldl_append, List.foldl_cons, List.foldl_nil] at one
    have before : OneTag (lines.foldl (addOverride inet) ([], d)).1 := by
      obtain ⟨r, records, -, -⟩ := addOverride_records
        (s := lines.foldl (addOverride inet) ([], d)) (converts o (by simp))
      rw [records] at one
      exact fun e there e' there' =>
        one e (List.mem_append_left _ there) e' (List.mem_append_left _ there')
    have spelled := ih converts' short' before
    have sim := simulates_foldl d empty lines converts' short' spelled
    rw [List.pairwise_append]
    refine ⟨spelled, List.pairwise_singleton _ o, fun e member o' single null key => ?_⟩
    obtain rfl := List.mem_singleton.mp single
    by_contra other
    exact not_oneTag sim (converts o' (by simp)) (short o' (by simp)) null e member key other one

/-- Without a default record, the default list number of earlier is that of one of the lists. -/
theorem fresh_of_none {defaultNo : Nat} {lines : List Override} {d : Daemon}
    (sim : Simulates defaultNo lines (d.dnsrecs, d))
    (none_ : (∀ r ∈ d.dnsrecs, r.macaddr ≠ xdnsNullMac) →
      ∀ l ∈ d.xdnsServerLists, l.levelTag ≠ d.xdnsDefaultListNo) :
    (∃ o ∈ lines, o.macaddr = xdnsNullMac) ∨ defaultNo = 0 ∨
      (lines.map Override.key).dedup.length < defaultNo := by
  have records : d.dnsrecs = lines.map (recordOf lines) := sim.records
  have lists : d.xdnsServerLists = (firstSeen (lines.map Override.key)).map (listOf lines) :=
    sim.lists
  have default_ : d.xdnsDefaultListNo =
      if none ∈ lines.map Override.key then number (lines.map Override.key) none
      else defaultNo := sim.default_
  by_contra stale
  rw [not_or, not_or, ← length_firstSeen] at stale
  obtain ⟨others, nonzero, below⟩ := stale
  have unseen : none ∉ lines.map Override.key := by
    intro seen
    obtain ⟨o, there, key⟩ := List.mem_map.mp seen
    exact others ⟨o, there, (key_none o).mp key⟩
  rw [if_neg unseen] at default_
  obtain ⟨k, seen, tag⟩ := exists_number (lines.map Override.key) defaultNo (by omega) (by omega)
  refine none_ ?_ (listOf lines k) ?_ (tag.trans default_.symm)
  · intro r member null
    rw [records] at member
    obtain ⟨o, there, rfl⟩ := List.mem_map.mp member
    exact others ⟨o, there, null⟩
  · rw [lists]
    exact List.mem_map_of_mem ((mem_firstSeen _ k).mpr seen)

end Necessary

/-- After a reload in refactor mode, whatever earlier reloads left, the lists group the records just
when the file is regular. -/
theorem reload_grouped_iff (inet : Inet) (lines : List Text) (d : Daemon) :
    Grouped (overrides inet lines) (reloadServers inet true (some lines) d) ↔
      Regular inet (overrides inet lines) d.xdnsDefaultListNo := by
  rw [reloadServers_eq]
  have converts := overrides_converts inet lines
  generalize overrides inet lines = lines at converts ⊢
  let start : Daemon := { d with xdnsServerLists := [] }
  have simulates (short : ∀ o ∈ lines, o.macaddr.length < recAddrMax)
      (spelled : lines.Pairwise fun earlier o =>
        o.macaddr ≠ xdnsNullMac → earlier.key = o.key → Spelled inet o) :=
    simulates_foldl start rfl lines converts short spelled
  have final (sim : Simulates d.xdnsDefaultListNo lines
      (lines.foldl (addOverride inet) ([], start))) := sim.final
  constructor
  · intro grouped
    have short : ∀ o ∈ lines, o.macaddr.length < recAddrMax := by
      have records := grouped.records
      dsimp only at records
      rw [records_foldl start lines converts] at records
      intro o member
      by_contra long
      have same := List.map_inj_left.mp records o member
      rw [if_neg long, Prod.mk.injEq] at same
      rw [← same.1] at long
      exact long (by decide)
    have spelled := spelled_of_oneTag start rfl lines converts short
      fun r there r' there' null null' four six =>
        (grouped.shared r there r' there' null null').mpr ⟨four, six⟩
    exact ⟨short, spelled, fresh_of_none (final (simulates short spelled)) grouped.none_⟩
  · intro regular
    exact (final (simulates regular.short regular.spelled)).grouped _ regular.fresh

/-- An address that is printed as the first of its spellings, where other addresses are printed by
colons -/
def printAddr {w : Nat} (known : BitVec w) (spelling : Text) (addr : BitVec w) : Text :=
  if addr = known then spelling else List.replicate addr.toNat ':'

def readAddr {w : Nat} (known : BitVec w) (spellings : List Text) (text : Text) :
    Option (BitVec w) :=
  if spellings.contains text then some known
  else if text = List.replicate text.length ':' then some (BitVec.ofNat w text.length) else none

theorem readAddr_printAddr {w : Nat} (known : BitVec w) (spelling : Text) (others : List Text)
    (digits : ∀ t ∈ spelling :: others, t.head? ≠ none ∧ t.head? ≠ some ':') (addr : BitVec w) :
    readAddr known (spelling :: others) (printAddr known spelling addr) = some addr := by
  unfold readAddr printAddr
  by_cases same : addr = known
  · rw [if_pos same, if_pos (List.contains_iff_mem.mpr List.mem_cons_self), same]
  · have outside : List.replicate addr.toNat ':' ∉ spelling :: others := by
      intro member
      have head := digits _ member
      rw [List.head?_replicate] at head
      split_ifs at head <;> simp at head
    rw [if_neg same, if_neg fun member => outside (List.contains_iff_mem.mp member)]
    simp

def oneAddress : Inet where
  pton4 := readAddr 0xc0000201 ["192.0.2.1".toList]
  ntop4 := printAddr 0xc0000201 "192.0.2.1".toList
  pton6 := readAddr 0x20010db8000000000000000000000001 ["2001:db8::1".toList, "2001:DB8::1".toList]
  ntop6 := printAddr 0x20010db8000000000000000000000001 "2001:db8::1".toList
  pton4_ntop4 := readAddr_printAddr _ _ _ (by decide)
  pton6_ntop6 := readAddr_printAddr _ _ _ (by decide)

def upperCaseFile : List Text :=
  ["dnsoverride 00:00:5e:00:53:01 192.0.2.1 2001:db8::1".toList,
    "dnsoverride 00:00:5e:00:53:02 192.0.2.1 2001:DB8::1".toList]

/-- The pair of the first line, spelled with capital letters on the second -/
theorem capitals_get_second_list : ¬ ∀ (inet : Inet) (lines : List Text) (d : Daemon),
    Grouped (overrides inet lines) (reloadServers inet true (some lines) d) := by
  intro all
  have grouped := all oneAddress upperCaseFile ⟨[], [], 0, 0⟩
  let first : Record := ⟨"00:00:5e:00:53:01".toList, 0xc0000201,
    0x20010db8000000000000000000000001, [], 1⟩
  let second : Record := ⟨"00:00:5e:00:53:02".toList, 0xc0000201,
    0x20010db8000000000000000000000001, [], 2⟩
  have records : (reloadServers oneAddress true (some upperCaseFile) ⟨[], [], 0, 0⟩).dnsrecs =
      [first, second] := by decide
  have shared := grouped.shared first (by simp [records]) second (by simp [records])
    (by decide) (by decide)
  have same : first.listTag = second.listTag := shared.mpr ⟨rfl, rfl⟩
  exact absurd same (by decide)

end Filogic.Xdns
