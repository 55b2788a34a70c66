import Filogic.Lib.Access

/-! `mtk_wed_wo_ctrl` of `mtk_wed_mcu.c`: a line written to the debug file is cut at its blanks, and the
command that its first word names is sent to the firmware with the numbers behind it. -/

namespace Filogic.Wed.Ctrl
open Lib

abbrev Text := List UInt8

def ascii (s : String) : Text := s.toList.map fun c => UInt8.ofNat c.toNat

def newline : UInt8 := 10
def blank : UInt8 := 32

/-- The sizes of `buf`, `input` and `msgbuf` -/
def bufSize : Nat := 100
def inputSize : Nat := 11
def msgbufSize : Nat := 128

/-- `sizeof(struct wo_cmd_query)` -/
def querySize : Nat := 8

/-- What a name stands for: the command that is sent, and whether a response is waited for. -/
structure Command where
  name : String
  sends : Option (Nat × Bool)
  deriving DecidableEq

/-- The names of a line of one word -/
def plainCommands : List Command :=
  [⟨"bainfo", some (10, false)⟩, ⟨"bactrl", some (20, false)⟩, ⟨"fbcmdq", some (11, false)⟩,
    ⟨"logflush", some (13, false)⟩, ⟨"cpustat.dump", some (16, false)⟩, ⟨"state", some (1, false)⟩,
    ⟨"prof_hit_dump", none⟩, ⟨"rxcnt_info", some (22, true)⟩]

/-- The names of a line with numbers -/
def queryCommands : List Command :=
  [⟨"devinfo", some (7, false)⟩, ⟨"bssinfo", some (8, false)⟩, ⟨"starec", some (9, false)⟩,
    ⟨"starec_ba", some (19, false)⟩, ⟨"logctrl", some (12, false)⟩,
    ⟨"cpustat.en", some (15, false)⟩, ⟨"prof_conf", some (18, false)⟩,
    ⟨"rxcnt_ctrl", some (21, false)⟩, ⟨"dbg_set", some (3, false)⟩]

/-- The stack's memory from `buf` on, and what lies in `cmd_id`, before anything is written -/
structure Stack where
  bytes : Text
  cmdId : Nat
  behind : bufSize < bytes.length

structure Message where
  cmdId : Nat
  query0 : BitVec 32
  query1 : BitVec 32
  wait : Bool
  deriving DecidableEq

/-- What a call returns, where it goes in `buf`, which entries of `input` it writes, where it goes in
`msgbuf`, and the messages that it sends. -/
structure Outcome where
  ret : Int
  buf : List Access
  input : List Nat
  msgbuf : List Access
  sent : List Message

section Code

def isspace (c : UInt8) : Bool := (9 ≤ c && c ≤ 13) || c == 32 || c == 160

def isdigit (c : UInt8) : Bool := 48 ≤ c && c ≤ 57

/-- `sscanf` with `"%u"`, for which blanks in front and text behind the digits do not matter -/
def scanU (token : Text) : Option (BitVec 32) :=
  let digits := (token.dropWhile isspace).takeWhile isdigit
  if digits = [] then none
  else
    some (BitVec.ofNat 32 (digits.foldl (fun res c => (res * 10 + (c.toNat - 48)) % 2 ^ 64) 0))

/-- The loop over the numbers, which stops at a word that is none: what it writes of `msgbuf` from
the `i`-th word on, and the numbers if it does not stop. -/
def scanWords : Nat → List Text → List Access × Option (List (BitVec 32))
  | _, [] => ([], some [])
  | i, token :: rest =>
    match scanU token with
    | none => ([], none)
    | some value =>
      let scanned := scanWords (i + 1) rest
      (⟨4 * i, 4⟩ :: scanned.1, scanned.2.map (value :: ·))

/-- `strncmp(cmd, name, strlen(cmd)) == 0`, along the names in their order -/
def findCommand (commands : List Command) (cmd : Text) : Option Command :=
  commands.find? fun c => cmd.isPrefixOf (ascii c.name)

/-- `buf`, once the copy has its terminator -/
def line (stack : Stack) (user : Text) : Text :=
  let count := user.length
  let buf := user ++ stack.bytes.drop count
  if count ≠ 0 ∧ buf.getD (count - 1) 0 = newline then buf.set (count - 1) 0 else buf.set count 0

/-- The accesses to `buf` up to the loop over `strsep`, which goes to the terminator. -/
def lineAccesses (stack : Stack) (user : Text) : List Access :=
  let count := user.length
  let ends := user ≠ [] ∧ (user ++ stack.bytes.drop count).getD (count - 1) 0 = newline
  [⟨0, count⟩, ⟨count - 1, if user = [] then 0 else 1⟩, ⟨if ends then count - 1 else count, 1⟩,
    stringAt 0 (line stack user) 0]

/-- `mtk_wed_wo_ctrl`, where `fault` tells that the bytes cannot be copied. -/
def mtkWedWoCtrl (stack : Stack) (fault : Bool) (user : Text) : Outcome :=
  if bufSize < user.length then ⟨-22, [], [], [], []⟩
  else if fault then ⟨-14, [⟨0, user.length⟩], [], [], []⟩
  else
    let tokens := (cstring 0 (line stack user)).splitOn blank
    let out : Outcome :=
      ⟨user.length, lineAccesses stack user, List.range tokens.length, [], []⟩
    match tokens with
    | [] => out
    | [cmd] =>
      match (findCommand plainCommands cmd).bind Command.sends with
      | none => out
      | some (id, wait) => { out with msgbuf := [⟨0, querySize⟩], sent := [⟨id, 0, 0, wait⟩] }
    | cmd :: words =>
      let scanned := scanWords 0 words
      match scanned.2 with
      | none => { out with msgbuf := scanned.1 }
      | some numbers =>
        -- without a name that fits, `cmd_id` is sent as it lies on the stack
        let sends :=
          ((findCommand queryCommands cmd).bind Command.sends).getD (stack.cmdId, false)
        { out with
          msgbuf := scanned.1 ++ [⟨0, querySize⟩]
          sent := [⟨sends.1, numbers.getD 0 0, numbers.getD 1 0, sends.2⟩] }

end Code

section Spec

/-- The line that was typed: up to a newline at its end, or to a terminator in it -/
def typed (user : Text) : Text :=
  cstring 0 (if user.getLast? = some newline then user.dropLast else user)

def words (user : Text) : List Text := (typed user).splitOn blank

/-- A message that the typed line asks for: the command whose full name is its first word, with the
numbers behind it. -/
def Asked (user : Text) (m : Message) : Prop :=
  match words user with
  | [] => False
  | [cmd] => ∃ c ∈ plainCommands, ascii c.name = cmd ∧ c.sends = some (m.cmdId, m.wait) ∧
      m.query0 = 0 ∧ m.query1 = 0
  | cmd :: rest => ∃ c ∈ queryCommands, ascii c.name = cmd ∧ c.sends = some (m.cmdId, m.wait) ∧
      ∃ numbers, rest.mapM scanU = some numbers ∧ m.query0 = numbers.getD 0 0 ∧
        m.query1 = numbers.getD 1 0

structure Sound (user : Text) (out : Outcome) : Prop where
  buf : ∀ a ∈ out.buf, a.Within bufSize
  input : ∀ i ∈ out.input, i < inputSize
  msgbuf : ∀ a ∈ out.msgbuf, a.Within msgbufSize
  sent : ∀ m ∈ out.sent, Asked user m

/-- A word that begins the name of a command that is sent is that name. -/
def Full (cmd : Text) : Prop :=
  (∃ c ∈ plainCommands, c.sends ≠ none ∧ cmd <+: ascii c.name) →
    ∃ c ∈ plainCommands, c.sends ≠ none ∧ ascii c.name = cmd

/-- The first word is a full name, unless nothing is sent. -/
def Named (user : Text) : Prop :=
  match words user with
  | [] => True
  | [cmd] => Full cmd
  | cmd :: rest => (∀ w ∈ rest, (scanU w).isSome) → ∃ c ∈ queryCommands, ascii c.name = cmd

/-- There is room for the terminator and for the words, and the first is a full name. -/
def Proper (fault : Bool) (user : Text) : Prop :=
  bufSize < user.length ∨ fault = true ∨
    ((user.length < bufSize ∨ user.getLast? = some newline) ∧ (words user).length ≤ inputSize ∧
      Named user)

end Spec

section Line

variable (stack : Stack) {user : Text}

/-- The typed bytes without a newline at the end -/
def chomp (user : Text) : Text := if user.getLast? = some newline then user.dropLast else user

theorem cstring_terminated (text rest : Text) : cstring 0 (text ++ 0 :: rest) = cstring 0 text := by
  unfold cstring
  induction text with
  | nil => simp
  | cons c text ih =>
    rw [List.cons_append]
    by_cases plain : c = 0
    · simp [plain]
    · rw [List.takeWhile_cons_of_pos (by simpa using plain), ih,
        List.takeWhile_cons_of_pos (by simpa using plain)]

theorem last_newline (rest : Text) :
    (user ≠ [] ∧ (user ++ rest).getD (user.length - 1) 0 = newline) ↔
      user.getLast? = some newline := by
  induction user using List.reverseRecOn with
  | nil => simp
  | append_singleton init c =>
    rw [List.getLast?_concat, List.append_assoc, List.length_append, List.length_singleton,
      Nat.add_sub_cancel, List.getD_append_right _ _ _ _ le_rfl, Nat.sub_self]
    simp

theorem line_eq (short : user.length ≤ bufSize) :
    ∃ rest, line stack user = chomp user ++ 0 :: rest := by
  have ends : (user.length ≠ 0 ∧ (user ++ stack.bytes.drop user.length).getD (user.length - 1) 0 =
      newline) ↔ user.getLast? = some newline := by
    rw [← last_newline (stack.bytes.drop user.length), ne_eq, List.length_eq_zero_iff]
  unfold line chomp
  dsimp only
  rw [if_congr ends rfl rfl]
  split_ifs with last
  · obtain ⟨init, rfl⟩ := List.getLast?_eq_some_iff.mp last
    refine ⟨stack.bytes.drop (init ++ [newline]).length, ?_⟩
    rw [List.dropLast_concat, List.append_assoc, List.length_append, List.length_singleton,
      Nat.add_sub_cancel, List.set_append_right _ _ le_rfl, Nat.sub_self]
    rfl
  · have more : user.length < stack.bytes.length := Nat.lt_of_le_of_lt short stack.behind
    refine ⟨stack.bytes.drop (user.length + 1), ?_⟩
    rw [List.set_append_right _ _ le_rfl, Nat.sub_self, List.drop_eq_getElem_cons more]
    rfl

/-- The words are those of the typed line. -/
theorem tokens_eq (short : user.length ≤ bufSize) :
    (cstring 0 (line stack user)).splitOn blank = words user := by
  obtain ⟨rest, whole⟩ := line_eq stack short
  rw [whole, cstring_terminated]
  rfl

theorem chomp_length : (chomp user).length =
    if user.getLast? = some newline then user.length - 1 else user.length := by
  unfold chomp
  split_ifs
  · exact List.length_dropLast
  · rfl

theorem lineAccesses_within (short : user.length ≤ bufSize) :
    (∀ a ∈ lineAccesses stack user, a.Within bufSize) ↔
      user.length < bufSize ∨ user.getLast? = some newline := by
  obtain ⟨rest, whole⟩ := line_eq stack short
  have string : (cstring 0 (line stack user)).length ≤ (chomp user).length := by
    rw [whole, cstring_terminated]
    exact (List.takeWhile_prefix _).length_le
  have nonempty (last : user.getLast? = some newline) : 0 < user.length := by
    obtain ⟨init, rfl⟩ := List.getLast?_eq_some_iff.mp last
    simp
  rw [chomp_length] at string
  unfold lineAccesses
  dsimp only
  rw [if_congr (last_newline (stack.bytes.drop user.length)) rfl rfl]
  simp only [List.forall_mem_cons, List.not_mem_nil, false_imp_iff, implies_true, and_true]
  change 0 + user.length ≤ bufSize ∧ user.length - 1 + (if user = [] then 0 else 1) ≤ bufSize ∧
    (if user.getLast? = some newline then user.length - 1 else user.length) + 1 ≤ bufSize ∧
      0 + ((cstring 0 (line stack user)).length + 1) ≤ bufSize ↔ _
  have first : user.length - 1 + (if user = [] then 0 else 1) ≤ bufSize := by
    split_ifs with empty
    · simp [empty]
    · have some_ : 0 < user.length := List.length_pos_of_ne_nil empty
      omega
  by_cases last : user.getLast? = some newline
  · rw [if_pos last] at string ⊢
    have some_ := nonempty last
    constructor
    · exact fun _ => .inr last
    · exact fun _ => ⟨by omega, first, by omega, by omega⟩
  · rw [if_neg last] at string ⊢
    constructor
    · exact fun all => .inl all.2.2.1
    · rintro (room | newline_)
      · exact ⟨by omega, first, by omega, by omega⟩
      · exact absurd newline_ last

end Line

section Names

/-- A full name is the first name that it begins. -/
theorem plain_found : ∀ c ∈ plainCommands, findCommand plainCommands (ascii c.name) = some c := by
  decide

theorem query_found : ∀ c ∈ queryCommands, findCommand queryCommands (ascii c.name) = some c := by
  decide

theorem query_sends : ∀ c ∈ queryCommands, c.sends.map Prod.snd = some false := by decide

/-- The name that sends nothing has no beginning with the names behind it but those of the first. -/
theorem silent_alone : ∀ c ∈ plainCommands, c.sends = none →
    ∀ cmd ∈ (ascii c.name).inits, findCommand plainCommands cmd = some c →
      ∀ c' ∈ plainCommands, c'.sends ≠ none → ¬ cmd <+: ascii c'.name := by
  decide

theorem found_spec {commands : List Command} {cmd : Text} {c : Command}
    (found : findCommand commands cmd = some c) : c ∈ commands ∧ cmd <+: ascii c.name := by
  have begins := List.find?_some (p := fun c : Command => cmd.isPrefixOf (ascii c.name)) found
  exact ⟨List.mem_of_find?_eq_some found, List.isPrefixOf_iff_prefix.mp begins⟩

/-- A word that is sent on stands for its own name just when it is a full one. -/
theorem full_iff (cmd : Text) : Full cmd ↔ ∀ id wait,
    (findCommand plainCommands cmd).bind Command.sends = some (id, wait) →
      ∃ c ∈ plainCommands, ascii c.name = cmd ∧ c.sends = some (id, wait) := by
  constructor
  · intro full id wait sends
    obtain ⟨c, found, some_⟩ := Option.bind_eq_some_iff.mp sends
    obtain ⟨member, begins⟩ := found_spec found
    obtain ⟨c', member', -, same⟩ := full ⟨c, member, by simp [some_], begins⟩
    have itself : findCommand plainCommands cmd = some c' := same ▸ plain_found c' member'
    obtain rfl := Option.some.inj (found.symm.trans itself)
    exact ⟨c, member, same, some_⟩
  · rintro own ⟨c, member, sends, begins⟩
    obtain ⟨first, found⟩ : ∃ first, findCommand plainCommands cmd = some first := by
      have some_ := (List.find?_isSome (p := fun c : Command => cmd.isPrefixOf (ascii c.name))).mpr
        ⟨c, member, List.isPrefixOf_iff_prefix.mpr begins⟩
      exact Option.isSome_iff_exists.mp some_
    obtain ⟨member', begins'⟩ := found_spec found
    cases silent : first.sends with
    | none =>
      have alone := silent_alone first member' silent cmd ((List.mem_inits _ _).mpr begins') found
      exact absurd begins (alone c member sends)
    | some sent =>
      have through : (findCommand plainCommands cmd).bind Command.sends = some sent := by
        rw [found, Option.bind_some, silent]
      obtain ⟨c', member', same, some_⟩ := own sent.1 sent.2 through
      exact ⟨c', member', by simp [some_], same⟩

theorem scanWords_eq (i : Nat) (tokens : List Text) :
    (scanWords i tokens).2 = tokens.mapM scanU ∧
      ∀ a ∈ (scanWords i tokens).1, a.Within (4 * (i + tokens.length)) := by
  induction tokens generalizing i with
  | nil => exact ⟨rfl, by simp [scanWords]⟩
  | cons token rest ih =>
    obtain ⟨result, within⟩ := ih (i + 1)
    rw [scanWords]
    cases value : scanU token with
    | none => exact ⟨by simp [List.mapM_cons, value], by simp⟩
    | some v =>
      dsimp only
      refine ⟨?_, ?_⟩
      · calc (scanWords (i + 1) rest).2.map (v :: ·)
            = (rest.mapM scanU).map (v :: ·) := by rw [result]
          _ = (token :: rest).mapM scanU := by
              rw [List.mapM_cons, value]
              cases rest.mapM scanU <;> rfl
      · rw [List.forall_mem_cons]
        constructor
        · unfold Access.Within
          simp only [List.length_cons]
          omega
        · intro a member
          have inside := within a member
          unfold Access.Within at inside ⊢
          simp only [List.length_cons]
          omega

theorem mapM_none_or (tokens : List Text) :
    (tokens.mapM scanU = none ∧ ¬ ∀ w ∈ tokens, (scanU w).isSome) ∨
      ∃ numbers, tokens.mapM scanU = some numbers ∧ ∀ w ∈ tokens, (scanU w).isSome := by
  induction tokens with
  | nil => exact .inr ⟨[], rfl, by simp⟩
  | cons token rest ih =>
    cases value : scanU token with
    | none => exact .inl ⟨by simp [List.mapM_cons, value], by simp [value]⟩
    | some v =>
      rcases ih with ⟨none_, other⟩ | ⟨numbers, some_, all⟩
      · exact .inl ⟨by simp [List.mapM_cons, value, none_], fun all => other fun w member =>
          all w (List.mem_cons_of_mem token member)⟩
      · exact .inr ⟨v :: numbers, by simp [List.mapM_cons, value, some_], by simpa [value] using all⟩

end Names

section Calls

variable (stack : Stack) {user : Text}

theorem range_lt (n : Nat) : (∀ i ∈ List.range n, i < inputSize) ↔ n ≤ inputSize := by
  constructor
  · intro all
    by_contra more
    have last := all inputSize (List.mem_range.mpr (Nat.lt_of_not_le more))
    exact absurd last (lt_irrefl inputSize)
  · exact fun le i member => Nat.lt_of_lt_of_le (List.mem_range.mp member) le

/-- A line that is copied, as to its messages -/
theorem sent_iff (short : ¬ bufSize < user.length) :
    (∀ m ∈ (mtkWedWoCtrl stack false user).sent, Asked user m) ↔ Named user := by
  unfold mtkWedWoCtrl
  rw [if_neg short, if_neg (by decide), tokens_eq stack (Nat.le_of_not_lt short)]
  unfold Asked Named
  dsimp only
  match words user with
  | [] => simp
  | [cmd] =>
    dsimp only
    rw [full_iff]
    cases sends : (findCommand plainCommands cmd).bind Command.sends with
    | none => simp
    | some sent =>
      dsimp only
      rw [List.forall_mem_singleton]
      constructor
      · rintro ⟨c, member, same, some_, -⟩ id wait it
        obtain rfl := Option.some.inj it
        exact ⟨c, member, same, some_⟩
      · intro own
        obtain ⟨c, member, same, some_⟩ := own sent.1 sent.2 rfl
        exact ⟨c, member, same, some_, rfl, rfl⟩
  | cmd :: word :: rest =>
    dsimp only
    rw [(scanWords_eq 0 (word :: rest)).1]
    rcases mapM_none_or (word :: rest) with ⟨none_, other⟩ | ⟨numbers, some_, all⟩
    · rw [none_]
      exact ⟨fun _ all => absurd all other, fun _ m member => absurd member List.not_mem_nil⟩
    · rw [some_]
      dsimp only
      rw [List.forall_mem_singleton]
      constructor
      · rintro ⟨c, member, same, -⟩ -
        exact ⟨c, member, same⟩
      · intro named
        obtain ⟨c, member, same⟩ := named all
        have found : findCommand queryCommands cmd = some c := same ▸ query_found c member
        have sends : (findCommand queryCommands cmd).bind Command.sends = c.sends := by
          rw [found, Option.bind_some]
        obtain ⟨sent, it, -⟩ := Option.map_eq_some_iff.mp (query_sends c member)
        rw [sends, it]
        exact ⟨c, member, same, it, numbers, rfl, rfl, rfl⟩

/-- As to where it goes in `msgbuf` -/
theorem msgbuf_within (short : ¬ bufSize < user.length) (few : (words user).length ≤ inputSize) :
    ∀ a ∈ (mtkWedWoCtrl stack false user).msgbuf, a.Within msgbufSize := by
  have query : (⟨0, querySize⟩ : Access).Within msgbufSize := by decide
  unfold mtkWedWoCtrl
  rw [if_neg short, if_neg (by decide), tokens_eq stack (Nat.le_of_not_lt short)]
  dsimp only
  match all : words user with
  | [] => simp
  | [cmd] =>
    dsimp only
    split
    · simp
    · simpa using query
  | cmd :: word :: rest =>
    rw [all] at few
    have scanned : ∀ a ∈ (scanWords 0 (word :: rest)).1, a.Within msgbufSize := by
      intro a member
      have inside := (scanWords_eq 0 (word :: rest)).2 a member
      have room : (word :: rest).length + 1 ≤ inputSize := few
      unfold Access.Within at inside ⊢
      unfold inputSize at room
      unfold msgbufSize
      omega
    dsimp only
    split
    · exact scanned
    · dsimp only
      rw [List.forall_mem_append, List.forall_mem_singleton]
      exact ⟨scanned, query⟩

theorem copied_accesses (short : ¬ bufSize < user.length) :
    (mtkWedWoCtrl stack false user).buf = lineAccesses stack user ∧
      (mtkWedWoCtrl stack false user).input = List.range (words user).length := by
  unfold mtkWedWoCtrl
  rw [if_neg short, if_neg (by decide), tokens_eq stack (Nat.le_of_not_lt short)]
  dsimp only
  split
  · exact ⟨rfl, rfl⟩
  · split <;> exact ⟨rfl, rfl⟩
  · split <;> exact ⟨rfl, rfl⟩

end Calls

/-- A line is handled as it should be just when there is room for its terminator and its words and
its first word is a full name, unless nothing is sent. -/
theorem ctrl_sound_iff (stack : Stack) (fault : Bool) (user : Text) :
    Sound user (mtkWedWoCtrl stack fault user) ↔ Proper fault user := by
  unfold Proper
  by_cases long : bufSize < user.length
  · refine ⟨fun _ => .inl long, fun _ => ?_⟩
    unfold mtkWedWoCtrl
    rw [if_pos long]
    constructor <;> simp
  rw [or_iff_right long]
  cases fault with
  | true =>
    refine ⟨fun _ => .inl rfl, fun _ => ?_⟩
    unfold mtkWedWoCtrl
    rw [if_neg long, if_pos rfl]
    have copied : (⟨0, user.length⟩ : Access).Within bufSize := by
      unfold Access.Within
      dsimp only
      omega
    constructor <;> simp [copied]
  | false =>
    rw [or_iff_right (by decide), ← lineAccesses_within stack (Nat.le_of_not_lt long),
      ← range_lt, ← sent_iff stack long, ← (copied_accesses stack long).1,
      ← (copied_accesses stack long).2]
    constructor
    · exact fun sound => ⟨sound.buf, sound.input, sound.sent⟩
    · rintro ⟨buf, input, sent⟩
      refine ⟨buf, input, msgbuf_within stack long ?_, sent⟩
      rw [(copied_accesses stack long).2] at input
      exact (range_lt _).mp input

/-- An unknown name with a number -/
def helloOne : Text := ascii "hello 1"

theorem unknown_name_sends : ¬ ∀ (stack : Stack) (fault : Bool) (user : Text),
    Sound user (mtkWedWoCtrl stack fault user) := by
  intro all
  let stack : Stack := ⟨List.replicate 128 0, 0, by simp [bufSize]⟩
  have sent := (all stack false helloOne).sent ⟨0, 1, 0, false⟩
  obtain ⟨c, member, same, -⟩ := sent (by decide +kernel)
  revert c
  decide

end Filogic.Wed.Ctrl
