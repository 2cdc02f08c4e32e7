import Foreseerr.CheckedReads
import Foreseerr.Delimited
import Foreseerr.Run
import Mathlib.Data.List.DropRight
import Mathlib.Data.UInt

/-!
# DNS answers

`dnsquery.rs`: the packet of a query, and what its answer says. The answer is a header, the
questions again and the answer records, whose names are labels, a pointer to earlier bytes or
labels that end in one; the reader passes over a name by its lengths alone and never follows
a pointer.

A message that reports no error and is whole reads back as it was written: its addresses of
the asked family, each with the smallest of its own TTL and those of the aliases
(`parse_encode`). Whatever the bytes are, no read leaves the packet and no offset wraps
around (`ends_parse`).
-/

namespace Foreseerr

namespace DnsAnswers

open CheckedReads

/-- `A` or `AAAA`. -/
inductive Family
  | v4
  | v6
deriving DecidableEq, Repr

/-- `Family::qtype`. -/
def Family.qtype : Family → UInt16
  | .v4 => 1
  | .v6 => 28

/-- An address by its octets. -/
inductive Address
  | v4 (octets : { octets : List UInt8 // octets.length = 4 })
  | v6 (octets : { octets : List UInt8 // octets.length = 16 })
deriving DecidableEq

/-- One answer: an address and its TTL in seconds. -/
abbrev Record := Address × UInt32

/-- What an answer said. -/
inductive Parsed
  /-- The addresses of the asked type. -/
  | records (records : List Record)
  /-- Truncated: ask again over TCP. -/
  | truncated
  /-- An error code. -/
  | failed (rcode : UInt8)
deriving DecidableEq

/-- `u16::to_be_bytes`. -/
def beBytes16 (x : UInt16) : List UInt8 :=
  [UInt8.ofNat (x.toNat / 256), UInt8.ofNat x.toNat]

/-- `u32::to_be_bytes`. -/
def beBytes32 (x : UInt32) : List UInt8 :=
  [UInt8.ofNat (x.toNat / 256 ^ 3), UInt8.ofNat (x.toNat / 256 ^ 2),
    UInt8.ofNat (x.toNat / 256), UInt8.ofNat x.toNat]

/-- `u16::from_be_bytes`. -/
def fromBeBytes16 (b₀ b₁ : UInt8) : UInt16 :=
  UInt16.ofNat (256 * b₀.toNat + b₁.toNat)

/-- `u32::from_be_bytes`. -/
def fromBeBytes32 (b₀ b₁ b₂ b₃ : UInt8) : UInt32 :=
  UInt32.ofNat (256 ^ 3 * b₀.toNat + 256 ^ 2 * b₁.toNat + 256 * b₂.toNat + b₃.toNat)

/-! ## The query -/

/-- The bytes of a label with its length before them; `none` where it is empty or too long. -/
def queryLabel (label : List Char) : Option (List UInt8) :=
  let bytes := label.flatMap String.utf8EncodeChar
  if 1 ≤ bytes.length ∧ bytes.length < 64 then some (UInt8.ofNat bytes.length :: bytes) else none

/-- `query`: the query packet for `host`; `none` for a name DNS can't carry. -/
def query (id : UInt16) (host : List Char) (family : Family) : Option (List UInt8) := do
  let labels ← ((host.rdropWhile (· = '.')).splitOn '.').mapM queryLabel
  return beBytes16 id ++ [0x01, 0x00, 0, 1, 0, 0, 0, 0, 0, 0] ++ labels.flatten ++ [0]
    ++ beBytes16 family.qtype ++ [0, 1]

/-! ## The reader -/

/-- `u16_at`. -/
def u16At (bytes : Slice) (pos : ℕ) : Read UInt16 := do
  let b₀ ← bytes.get pos
  let pos₁ ← add pos 1
  let b₁ ← bytes.get pos₁
  return fromBeBytes16 b₀ b₁

/-- `u32_at`. -/
def u32At (bytes : Slice) (pos : ℕ) : Read UInt32 := do
  let b₀ ← bytes.get pos
  let pos₁ ← add pos 1
  let b₁ ← bytes.get pos₁
  let pos₂ ← add pos 2
  let b₂ ← bytes.get pos₂
  let pos₃ ← add pos 3
  let b₃ ← bytes.get pos₃
  return fromBeBytes32 b₀ b₁ b₂ b₃

/-- `skip_name`: the offset just past the (possibly compressed) name at `pos`. -/
def skipName (bytes : Slice) (pos : ℕ) : Read ℕ :=
  match _ : bytes.get pos with
  | .error stop => .error stop
  | .ok len =>
    if len &&& 0xC0 = 0xC0 then add pos 2
    else if len = 0 then add pos 1
    else
      match _ : add pos (len.toNat + 1) with
      | .error stop => .error stop
      | .ok next => skipName bytes next
termination_by bytes.bytes.length - pos
decreasing_by
  have hlt := (Ends.get bytes pos).value _ ‹_›
  have hnext := eq_add_of_ok ‹_›
  omega

/-- The questions, which `parse` passes over. -/
def skipQuestions (bytes : Slice) : ℕ → ℕ → Read ℕ
  | 0, pos => .ok pos
  | n + 1, pos => do
    let pos ← skipName bytes pos
    let pos ← add pos 4
    skipQuestions bytes n pos

/-- What the loop over the answers carries. -/
structure Reading where
  pos : ℕ
  records : List Record
  cnameTtl : UInt32

/-- What one answer adds to it. -/
def Reading.note (family : Family) (kind : UInt16) (ttl : UInt32) (data : List UInt8)
    (reading : Reading) : Read Reading :=
  match kind, family with
  | 5, _ => .ok { reading with cnameTtl := min reading.cnameTtl ttl }
  | 1, .v4 =>
    if h : data.length = 4 then
      .ok { reading with records := reading.records ++ [(.v4 ⟨data, h⟩, ttl)] }
    else .error .absent
  | 28, .v6 =>
    if h : data.length = 16 then
      .ok { reading with records := reading.records ++ [(.v6 ⟨data, h⟩, ttl)] }
    else .error .absent
  | _, _ => .ok reading

/-- One answer. -/
def readAnswer (bytes : Slice) (family : Family) (reading : Reading) : Read Reading := do
  let pos ← skipName bytes reading.pos
  let kind ← u16At bytes pos
  let ttlAt ← add pos 4
  let ttl ← u32At bytes ttlAt
  let lenAt ← add pos 8
  let len ← u16At bytes lenAt
  let start ← add pos 10
  let stop ← add start len.toNat
  let data ← bytes.range start stop
  Reading.note family kind ttl data { reading with pos := stop }

/-- The answers. -/
def readAnswers (bytes : Slice) (family : Family) : ℕ → Reading → Read Reading
  | 0, reading => .ok reading
  | n + 1, reading => do
    let reading ← readAnswer bytes family reading
    readAnswers bytes family n reading

/-- `parse`. -/
def parse (bytes : Slice) (id : UInt16) (family : Family) : Read Parsed := do
  let answered ← u16At bytes 0
  if answered ≠ id then .error .absent
  else
    let flags ← u16At bytes 2
    if flags &&& 0x0200 ≠ 0 then return .truncated
    else
      let rcode := (flags &&& 0x000F).toUInt8
      if rcode ≠ 0 then return .failed rcode
      else
        let questions ← u16At bytes 4
        let answers ← u16At bytes 6
        let pos ← skipQuestions bytes questions.toNat 12
        let reading ← readAnswers bytes family answers.toNat ⟨pos, [], 0xFFFFFFFF⟩
        return .records (reading.records.map fun record =>
          (record.1, min record.2 reading.cnameTtl))

/-! ## Well-formed messages -/

/-- A label of a name. -/
structure Label where
  bytes : List UInt8
  nonempty : 0 < bytes.length
  short : bytes.length < 64

/-- How a name ends. -/
inductive NameEnd
  | root
  /-- The rest of the name stands at an earlier offset. -/
  | pointer (offset : Fin (2 ^ 14))

/-- A name as it is written. -/
structure Name where
  labels : List Label
  last : NameEnd

structure Question where
  name : Name
  qtype : UInt16
  qclass : UInt16

/-- An answer record of any type; an address has its octets as data. -/
structure Answer where
  name : Name
  kind : UInt16
  rclass : UInt16
  ttl : UInt32
  data : List UInt8
  short : data.length < 2 ^ 16
  length_a : kind = 1 → data.length = 4
  length_aaaa : kind = 28 → data.length = 16

/-- A message that is whole and reports no error. -/
structure Message where
  id : UInt16
  flags : UInt16
  whole : flags &&& 0x0200 = 0
  noError : flags &&& 0x000F = 0
  questions : List Question
  questionsFit : questions.length < 2 ^ 16
  answers : List Answer
  answersFit : answers.length < 2 ^ 16
  authorities : UInt16
  additionals : UInt16
  /-- The authority and additional records. -/
  rest : List UInt8

def Label.encode (label : Label) : List UInt8 :=
  UInt8.ofNat label.bytes.length :: label.bytes

def NameEnd.encode : NameEnd → List UInt8
  | .root => [0]
  | .pointer offset => [UInt8.ofNat (192 + offset / 256), UInt8.ofNat offset]

def Name.encode (name : Name) : List UInt8 :=
  name.labels.flatMap Label.encode ++ name.last.encode

def Question.encode (question : Question) : List UInt8 :=
  question.name.encode ++ (beBytes16 question.qtype ++ beBytes16 question.qclass)

def Answer.encode (answer : Answer) : List UInt8 :=
  answer.name.encode ++ (beBytes16 answer.kind ++ (beBytes16 answer.rclass ++
    (beBytes32 answer.ttl ++ (beBytes16 (UInt16.ofNat answer.data.length) ++ answer.data))))

def Message.encode (message : Message) : List UInt8 :=
  beBytes16 message.id ++ (beBytes16 message.flags ++
    (beBytes16 (UInt16.ofNat message.questions.length) ++
    (beBytes16 (UInt16.ofNat message.answers.length) ++
    (beBytes16 message.authorities ++ (beBytes16 message.additionals ++
    (message.questions.flatMap Question.encode ++
    (message.answers.flatMap Answer.encode ++ message.rest)))))))

/-- The address of an answer, where it is of the family. -/
def Answer.address (answer : Answer) : Family → Option Address
  | .v4 => if h : answer.kind = 1 then some (.v4 ⟨answer.data, answer.length_a h⟩) else none
  | .v6 => if h : answer.kind = 28 then some (.v6 ⟨answer.data, answer.length_aaaa h⟩) else none

/-- The TTLs of the aliases. -/
def Message.cnameTtls (message : Message) : List UInt32 :=
  (message.answers.filter fun answer => answer.kind = 5).map Answer.ttl

/-- The addresses of a family in the order of the answers, each with the smallest of its own
TTL and those of the aliases. -/
def Message.records (message : Message) (family : Family) : List Record :=
  message.answers.filterMap fun answer => (answer.address family).map fun address =>
    (address, message.cnameTtls.foldr min answer.ttl)

/-- The message a query is: one question and nothing else. -/
def Message.asking (id : UInt16) (name : Name) (family : Family) : Message where
  id := id
  flags := 0x0100
  whole := rfl
  noError := rfl
  questions := [⟨name, family.qtype, 1⟩]
  questionsFit := Nat.one_lt_two_pow (by decide)
  answers := []
  answersFit := by decide
  authorities := 0
  additionals := 0
  rest := []

/-! ## Queries are well-formed -/

theorem queryLabel_eq_some_iff {label : List Char} {out : List UInt8} :
    queryLabel label = some out
      ↔ ∃ l : Label, l.bytes = label.flatMap String.utf8EncodeChar ∧ l.encode = out := by
  rw [queryLabel, Option.ite_none_right_eq_some]
  constructor
  · rintro ⟨hlen, hout⟩
    exact ⟨⟨_, hlen.1, hlen.2⟩, rfl, Option.some.inj hout⟩
  · rintro ⟨l, hbytes, rfl⟩
    rw [← hbytes]
    exact ⟨⟨l.nonempty, l.short⟩, rfl⟩

theorem mapM_queryLabel_eq_some_iff {texts : List (List Char)} {outs : List (List UInt8)} :
    texts.mapM queryLabel = some outs
      ↔ ∃ labels : List Label,
        labels.map Label.bytes = texts.map (List.flatMap String.utf8EncodeChar)
          ∧ labels.map Label.encode = outs := by
  induction texts generalizing outs with
  | nil =>
    constructor
    · intro h
      exact ⟨[], rfl, Option.some.inj h⟩
    · rintro ⟨labels, hlabels, rfl⟩
      rw [List.map_eq_nil_iff.mp hlabels]
      rfl
  | cons text texts ih =>
    simp only [List.mapM_cons, Option.bind_eq_bind, Option.bind_eq_some_iff, ih,
      queryLabel_eq_some_iff]
    constructor
    · rintro ⟨_, ⟨l, hbytes, rfl⟩, _, ⟨labels, hlabels, rfl⟩, ⟨⟩⟩
      exact ⟨l :: labels, by rw [List.map_cons, List.map_cons, hbytes, hlabels], rfl⟩
    · rintro ⟨labels, hlabels, rfl⟩
      obtain ⟨l, labels, rfl, hbytes, hlabels⟩ := List.map_eq_cons_iff.mp hlabels
      exact ⟨_, ⟨l, hbytes, rfl⟩, _, ⟨labels, hlabels, rfl⟩, rfl⟩

/-- **What is sent is a whole message that asks for the host**, label by label; nothing is
sent exactly where a label of the host is none. -/
theorem query_eq_some_iff {id : UInt16} {host : List Char} {family : Family}
    {packet : List UInt8} :
    query id host family = some packet
      ↔ ∃ labels : List Label,
        labels.map Label.bytes = ((host.rdropWhile (· = '.')).splitOn '.').map
            (List.flatMap String.utf8EncodeChar)
          ∧ (Message.asking id ⟨labels, .root⟩ family).encode = packet := by
  have hpacket : ∀ labels : List Label,
      beBytes16 id ++ [0x01, 0x00, 0, 1, 0, 0, 0, 0, 0, 0] ++ (labels.map Label.encode).flatten
          ++ [0] ++ beBytes16 family.qtype ++ [0, 1]
        = (Message.asking id ⟨labels, .root⟩ family).encode := by
    intro labels
    rw [← List.flatMap_def]
    have hheader : ([0x01, 0x00, 0, 1, 0, 0, 0, 0, 0, 0] : List UInt8)
        = beBytes16 0x0100 ++ (beBytes16 (UInt16.ofNat 1) ++ (beBytes16 (UInt16.ofNat 0) ++
          (beBytes16 0 ++ beBytes16 0))) := by
      decide
    have hclass : ([0, 1] : List UInt8) = beBytes16 1 := by
      decide
    rw [hheader, hclass]
    simp only [Message.encode, Message.asking, Question.encode, Name.encode, NameEnd.encode,
      List.flatMap_cons, List.flatMap_nil, List.append_assoc, List.append_nil,
      List.length_singleton, List.length_nil]
  simp only [query, Option.bind_eq_bind, Option.bind_eq_some_iff, mapM_queryLabel_eq_some_iff]
  constructor
  · rintro ⟨_, ⟨labels, hlabels, rfl⟩, hsent⟩
    exact ⟨labels, hlabels, (hpacket labels).symm.trans (Option.some.inj hsent)⟩
  · rintro ⟨labels, hlabels, rfl⟩
    exact ⟨_, ⟨labels, hlabels, rfl⟩, congrArg some (hpacket labels)⟩

/-! ## Fields read back -/

@[simp]
theorem length_beBytes16 (x : UInt16) : (beBytes16 x).length = 2 := rfl

@[simp]
theorem length_beBytes32 (x : UInt32) : (beBytes32 x).length = 4 := rfl

theorem fromBeBytes16_beBytes16 (x : UInt16) :
    fromBeBytes16 (UInt8.ofNat (x.toNat / 256)) (UInt8.ofNat x.toNat) = x := by
  have hlt := x.toNat_lt
  rw [fromBeBytes16, UInt8.toNat_ofNat', UInt8.toNat_ofNat', ← UInt16.toNat_inj,
    UInt16.toNat_ofNat']
  omega

theorem fromBeBytes32_beBytes32 (x : UInt32) :
    fromBeBytes32 (UInt8.ofNat (x.toNat / 256 ^ 3)) (UInt8.ofNat (x.toNat / 256 ^ 2))
      (UInt8.ofNat (x.toNat / 256)) (UInt8.ofNat x.toNat) = x := by
  have hlt := x.toNat_lt
  rw [fromBeBytes32, UInt8.toNat_ofNat', UInt8.toNat_ofNat', UInt8.toNat_ofNat',
    UInt8.toNat_ofNat', ← UInt32.toNat_inj, UInt32.toNat_ofNat']
  omega

variable {bytes : Slice} {pos : ℕ} {rest : List UInt8}

theorem u16At_of_drop {x : UInt16} (h : bytes.bytes.drop pos = beBytes16 x ++ rest) :
    u16At bytes pos = .ok x := by
  have hle := length_le_of_drop h (List.cons_ne_nil _ _)
  have hfits := bytes.fits
  rw [length_beBytes16] at hle
  rw [u16At, Slice.get_of_drop h, add_of_lt (by omega)]
  dsimp only [bind, Except.bind, pure, Except.pure]
  rw [Slice.get_add_of_drop h rfl]
  exact congrArg Except.ok (fromBeBytes16_beBytes16 x)

theorem u32At_of_drop {x : UInt32} (h : bytes.bytes.drop pos = beBytes32 x ++ rest) :
    u32At bytes pos = .ok x := by
  have hle := length_le_of_drop h (List.cons_ne_nil _ _)
  have hfits := bytes.fits
  rw [length_beBytes32] at hle
  rw [u32At, Slice.get_of_drop h, add_of_lt (by omega), add_of_lt (by omega),
    add_of_lt (by omega)]
  dsimp only [bind, Except.bind, pure, Except.pure]
  rw [Slice.get_add_of_drop h rfl]
  dsimp only
  rw [Slice.get_add_of_drop h rfl]
  dsimp only
  rw [Slice.get_add_of_drop h rfl]
  exact congrArg Except.ok (fromBeBytes32_beBytes32 x)

/-! ## Names passed over -/

/-- One length byte of a name. -/
theorem skipName_of_get {len : UInt8} (h : bytes.get pos = .ok len) :
    skipName bytes pos
      = if len &&& 0xC0 = 0xC0 then add pos 2
        else if len = 0 then add pos 1
        else add pos (len.toNat + 1) >>= skipName bytes := by
  rw [skipName]
  split
  · rename_i hget
    rw [h] at hget
    cases hget
  · rename_i len' hget
    rw [h] at hget
    cases hget
    split
    · rfl
    · split
      · rfl
      · split
        · rename_i hadd
          rw [hadd]
          rfl
        · rename_i hadd
          rw [hadd]
          rfl

theorem pointer_byte (k : Fin 64) : UInt8.ofNat (192 + k) &&& 0xC0 = 0xC0 := by
  decide +revert

theorem label_byte (k : Fin 64) : UInt8.ofNat k &&& 0xC0 ≠ 0xC0 := by
  decide +revert

theorem NameEnd.encode_ne_nil (last : NameEnd) : last.encode ≠ [] := by
  cases last <;> exact List.cons_ne_nil _ _

theorem Name.encode_ne_nil (name : Name) : name.encode ≠ [] :=
  List.append_ne_nil_of_right_ne_nil _ name.last.encode_ne_nil

theorem Question.encode_ne_nil (question : Question) : question.encode ≠ [] :=
  List.append_ne_nil_of_left_ne_nil question.name.encode_ne_nil _

theorem Answer.encode_ne_nil (answer : Answer) : answer.encode ≠ [] :=
  List.append_ne_nil_of_left_ne_nil answer.name.encode_ne_nil _

theorem skipName_end {last : NameEnd} (h : bytes.bytes.drop pos = last.encode ++ rest) :
    skipName bytes pos = .ok (pos + last.encode.length) := by
  have hfits := bytes.fits
  have hle := length_le_of_drop h last.encode_ne_nil
  cases last with
  | root =>
    rw [skipName_of_get (Slice.get_of_drop h), if_neg (by decide), if_pos rfl]
    exact add_of_lt (lt_of_le_of_lt hle (by omega))
  | pointer offset =>
    have hk : (offset : ℕ) / 256 < 64 := by omega
    rw [skipName_of_get (Slice.get_of_drop h), if_pos (pointer_byte ⟨_, hk⟩)]
    exact add_of_lt (lt_of_le_of_lt hle (by omega))

/-- A name is passed over label by label. -/
theorem skipName_encode {name : Name} (h : bytes.bytes.drop pos = name.encode ++ rest) :
    skipName bytes pos = .ok (pos + name.encode.length) := by
  obtain ⟨labels, last⟩ := name
  induction labels generalizing pos with
  | nil => exact skipName_end h
  | cons label labels ih =>
    have hfits := bytes.fits
    have hname : (Name.mk (label :: labels) last).encode
        = label.encode ++ (Name.mk labels last).encode := by
      rw [Name.encode, List.flatMap_cons, List.append_assoc]
      rfl
    rw [hname, List.append_assoc] at h
    have hle := length_le_of_drop h (List.cons_ne_nil _ _)
    have hlen : (UInt8.ofNat label.bytes.length).toNat = label.bytes.length := by
      rw [UInt8.toNat_ofNat']
      exact Nat.mod_eq_of_lt (lt_trans label.short (by decide))
    have hzero : UInt8.ofNat label.bytes.length ≠ 0 := by
      rw [Ne, ← UInt8.toNat_inj, hlen]
      exact label.nonempty.ne'
    have hnext : pos + label.encode.length = pos + (label.bytes.length + 1) := rfl
    rw [skipName_of_get (Slice.get_of_drop h), if_neg (label_byte ⟨_, label.short⟩),
      if_neg hzero, hlen, add_of_lt (by omega), ← hnext]
    dsimp only [bind, Except.bind]
    rw [ih (drop_add_of_append h), hname, List.length_append, Nat.add_assoc]

/-! ## Questions and answers read back -/

theorem skipQuestions_encode {questions : List Question}
    (h : bytes.bytes.drop pos = questions.flatMap Question.encode ++ rest) :
    skipQuestions bytes questions.length pos
      = .ok (pos + (questions.flatMap Question.encode).length) := by
  induction questions generalizing pos with
  | nil => rfl
  | cons question questions ih =>
    rw [List.flatMap_cons, List.append_assoc] at h
    have hfits := bytes.fits
    have hle := length_le_of_drop h question.encode_ne_nil
    have hlen : question.encode.length = question.name.encode.length + 4 := by
      rw [Question.encode, List.length_append]
      rfl
    have hname := skipName_encode (by rw [h, Question.encode, List.append_assoc])
    have hnext := ih (drop_add_of_append h)
    rw [List.length_cons, skipQuestions, hname]
    dsimp only [bind, Except.bind]
    rw [add_of_lt (by omega)]
    dsimp only
    rw [Nat.add_assoc, ← hlen, hnext, List.flatMap_cons, List.length_append, Nat.add_assoc]

/-- What the loop carries after an answer. -/
def Reading.after (family : Family) (reading : Reading) (answer : Answer) : Reading where
  pos := reading.pos + answer.encode.length
  records := reading.records
    ++ ((answer.address family).map fun address => (address, answer.ttl)).toList
  cnameTtl := if answer.kind = 5 then min reading.cnameTtl answer.ttl else reading.cnameTtl

theorem Answer.address_v4 {answer : Answer} (h : answer.kind = 1) :
    answer.address .v4 = some (.v4 ⟨answer.data, answer.length_a h⟩) :=
  dif_pos h

theorem Answer.address_v6 {answer : Answer} (h : answer.kind = 28) :
    answer.address .v6 = some (.v6 ⟨answer.data, answer.length_aaaa h⟩) :=
  dif_pos h

theorem Answer.address_of_ne {answer : Answer} {family : Family}
    (h : answer.kind ≠ family.qtype) : answer.address family = none := by
  cases family <;> exact dif_neg h

/-- An address has its proper length, so no answer is refused. -/
theorem Reading.note_answer (family : Family) (answer : Answer) (reading : Reading) :
    reading.note family answer.kind answer.ttl answer.data
      = .ok { reading.after family answer with pos := reading.pos } := by
  rw [Reading.note.eq_def]
  split
  · next family _ _ hkind =>
    have hne : answer.kind ≠ family.qtype := by
      rw [hkind]
      cases family <;> decide
    rw [Reading.after, Answer.address_of_ne hne, if_pos hkind]
    dsimp only [Option.map_none, Option.toList_none]
    rw [List.append_nil]
  · next hkind =>
    rw [dif_pos (answer.length_a hkind), Reading.after, Answer.address_v4 hkind,
      if_neg (by rw [hkind]; decide)]
    rfl
  · next hkind =>
    rw [dif_pos (answer.length_aaaa hkind), Reading.after, Answer.address_v6 hkind,
      if_neg (by rw [hkind]; decide)]
    rfl
  · next family _ _ hcname hv4 hv6 =>
    have hne : answer.kind ≠ family.qtype := by
      cases family with
      | v4 => exact fun h => hv4 h rfl
      | v6 => exact fun h => hv6 h rfl
    rw [Reading.after, Answer.address_of_ne hne, if_neg hcname]
    dsimp only [Option.map_none, Option.toList_none]
    rw [List.append_nil]

theorem readAnswer_encode {family : Family} {reading : Reading} {answer : Answer}
    (h : bytes.bytes.drop reading.pos = answer.encode ++ rest) :
    readAnswer bytes family reading = .ok (reading.after family answer) := by
  have hfits := bytes.fits
  have hle := length_le_of_drop h answer.encode_ne_nil
  have hlen : answer.encode.length = answer.name.encode.length + (10 + answer.data.length) := by
    rw [Answer.encode, List.length_append]
    simp only [List.length_append, length_beBytes16, length_beBytes32]
    omega
  have hdata : (UInt16.ofNat answer.data.length).toNat = answer.data.length := by
    rw [UInt16.toNat_ofNat']
    exact Nat.mod_eq_of_lt answer.short
  rw [Answer.encode] at h
  simp only [List.append_assoc] at h
  have hname := skipName_encode h
  -- Where each field of the answer stands.
  have hkind := drop_add_of_append h
  generalize hpos : reading.pos + answer.name.encode.length = pos at hname hkind
  have hclass : bytes.bytes.drop (pos + 2) = _ := drop_add_of_append hkind
  have httl : bytes.bytes.drop (pos + 4) = _ := drop_add_of_append hclass
  have hlength : bytes.bytes.drop (pos + 8) = _ := drop_add_of_append httl
  have hstart : bytes.bytes.drop (pos + 10) = _ := drop_add_of_append hlength
  rw [readAnswer, hname]
  dsimp only [bind, Except.bind]
  rw [u16At_of_drop hkind]
  dsimp only
  rw [add_of_lt (by omega)]
  dsimp only
  rw [u32At_of_drop httl]
  dsimp only
  rw [add_of_lt (by omega)]
  dsimp only
  rw [u16At_of_drop hlength]
  dsimp only
  rw [add_of_lt (by omega)]
  dsimp only
  rw [hdata, add_of_lt (by omega)]
  dsimp only
  rw [Slice.range_of_drop hstart (by omega)]
  dsimp only
  have hstop : pos + 10 + answer.data.length = reading.pos + answer.encode.length := by
    omega
  rw [hstop, Reading.note_answer]
  rfl

theorem readAnswers_encode {family : Family} {answers : List Answer} {reading : Reading}
    (h : bytes.bytes.drop reading.pos = answers.flatMap Answer.encode ++ rest) :
    readAnswers bytes family answers.length reading
      = .ok (answers.foldl (Reading.after family) reading) := by
  induction answers generalizing reading with
  | nil => rfl
  | cons answer answers ih =>
    rw [List.flatMap_cons, List.append_assoc] at h
    have hnext : bytes.bytes.drop (reading.after family answer).pos = _ := drop_add_of_append h
    rw [List.length_cons, readAnswers, readAnswer_encode h]
    exact ih hnext

theorem records_foldl_after (family : Family) (answers : List Answer) (reading : Reading) :
    (answers.foldl (Reading.after family) reading).records
      = reading.records ++ answers.filterMap fun answer =>
        (answer.address family).map fun address => (address, answer.ttl) := by
  induction answers generalizing reading with
  | nil => exact (List.append_nil _).symm
  | cons answer answers ih =>
    rw [List.foldl_cons, ih, Reading.after, List.append_assoc]
    refine congrArg (reading.records ++ ·) ?_
    rw [List.filterMap_cons]
    cases answer.address family with
    | none => rfl
    | some address => rfl

theorem cnameTtl_foldl_after (family : Family) (answers : List Answer) (reading : Reading) :
    (answers.foldl (Reading.after family) reading).cnameTtl
      = ((answers.filter fun answer => answer.kind = 5).map Answer.ttl).foldl min
        reading.cnameTtl := by
  induction answers generalizing reading with
  | nil => rfl
  | cons answer answers ih =>
    rw [List.foldl_cons, ih, Reading.after]
    by_cases h : answer.kind = 5
    · rw [List.filter_cons_of_pos (p := fun answer : Answer => decide (answer.kind = 5))
        (decide_eq_true h), List.map_cons, List.foldl_cons, if_pos h]
    · rw [List.filter_cons_of_neg (p := fun answer : Answer => decide (answer.kind = 5))
        (fun h' => h (of_decide_eq_true h')), if_neg h]

theorem min_foldl_min (ttls : List UInt32) (ttl start : UInt32) :
    min ttl (ttls.foldl min start) = min start (ttls.foldr min ttl) := by
  induction ttls generalizing start with
  | nil => exact Std.Commutative.comm ttl start
  | cons first ttls ih =>
    rw [List.foldl_cons, ih, List.foldr_cons]
    exact Std.Associative.assoc start first _

/-- The TTL that the aliases' are taken below takes nothing away. -/
theorem min_top (ttl : UInt32) : min 0xFFFFFFFF ttl = ttl := by
  have hle : ttl ≤ 0xFFFFFFFF := UInt32.le_iff_toNat_le.mpr (Nat.le_of_lt_succ ttl.toNat_lt)
  exact (Std.Commutative.comm _ _).trans (Std.min_eq_if.trans (if_pos hle))

/-- **A message reads back as it was written.** -/
theorem parse_encode {message : Message} (family : Family)
    (h : bytes.bytes = message.encode) :
    parse bytes message.id family = .ok (.records (message.records family)) := by
  have hid : bytes.bytes.drop 0 = _ := h
  have hflags : bytes.bytes.drop 2 = _ := drop_add_of_append hid
  have hquestions : bytes.bytes.drop 4 = _ := drop_add_of_append hflags
  have hanswers : bytes.bytes.drop 6 = _ := drop_add_of_append hquestions
  have hauthorities : bytes.bytes.drop 8 = _ := drop_add_of_append hanswers
  have hadditionals : bytes.bytes.drop 10 = _ := drop_add_of_append hauthorities
  have hsections : bytes.bytes.drop 12 = _ := drop_add_of_append hadditionals
  have hlenQ : (UInt16.ofNat message.questions.length).toNat = message.questions.length := by
    rw [UInt16.toNat_ofNat']
    exact Nat.mod_eq_of_lt message.questionsFit
  have hlenA : (UInt16.ofNat message.answers.length).toNat = message.answers.length := by
    rw [UInt16.toNat_ofNat']
    exact Nat.mod_eq_of_lt message.answersFit
  rw [parse, u16At_of_drop hid]
  dsimp only [bind, Except.bind]
  rw [if_neg (not_not_intro rfl), u16At_of_drop hflags]
  dsimp only
  rw [if_neg (not_not_intro message.whole), message.noError, if_neg (by decide),
    u16At_of_drop hquestions]
  dsimp only
  rw [u16At_of_drop hanswers]
  dsimp only
  rw [hlenQ, skipQuestions_encode hsections]
  dsimp only
  rw [hlenA, readAnswers_encode (drop_add_of_append hsections)]
  dsimp only [pure, Except.pure]
  rw [records_foldl_after, cnameTtl_foldl_after, List.nil_append, List.map_filterMap]
  refine congrArg (Except.ok ∘ Parsed.records) (List.filterMap_congr fun answer _ => ?_)
  rw [Option.map_map]
  refine congrArg (Option.map · _) (funext fun address => ?_)
  exact congrArg (Prod.mk address) ((min_foldl_min _ _ _).trans (min_top _))

/-! ## No read leaves the packet -/

theorem ends_u16At (bytes : Slice) {pos : ℕ} (hpos : pos < 2 ^ 63 + 2 ^ 20) :
    Ends (u16At bytes pos) fun _ => True := by
  rw [u16At]
  refine (Ends.get bytes pos).bind fun b₀ _ => ?_
  refine (Ends.add (by omega)).bind fun pos₁ _ => ?_
  exact (Ends.get bytes pos₁).bind fun b₁ _ => Ends.ok trivial

theorem ends_u32At (bytes : Slice) {pos : ℕ} (hpos : pos < 2 ^ 63 + 2 ^ 20) :
    Ends (u32At bytes pos) fun _ => True := by
  rw [u32At]
  refine (Ends.get bytes pos).bind fun b₀ _ => ?_
  refine (Ends.add (by omega)).bind fun pos₁ _ => ?_
  refine (Ends.get bytes pos₁).bind fun b₁ _ => ?_
  refine (Ends.add (by omega)).bind fun pos₂ _ => ?_
  refine (Ends.get bytes pos₂).bind fun b₂ _ => ?_
  refine (Ends.add (by omega)).bind fun pos₃ _ => ?_
  exact (Ends.get bytes pos₃).bind fun b₃ _ => Ends.ok trivial

/-- A name ends at most one byte behind the packet. -/
theorem ends_skipName (bytes : Slice) (pos : ℕ) :
    Ends (skipName bytes pos) fun next => next ≤ bytes.bytes.length + 1 := by
  have hfits := bytes.fits
  fun_induction skipName bytes pos with
  | case1 pos stop hget =>
    refine ⟨nofun, fun h => (Ends.get bytes pos).noFault ?_⟩
    cases h
    exact hget
  | case2 pos len hget hpointer =>
    have hlt := (Ends.get bytes pos).value _ hget
    exact (Ends.add (by omega)).mono fun next hnext => by omega
  | case3 pos hget _ =>
    have hlt := (Ends.get bytes pos).value _ hget
    exact (Ends.add (by omega)).mono fun next hnext => by omega
  | case4 pos len hget _ _ stop hadd =>
    have hlt := (Ends.get bytes pos).value _ hget
    have hlen := len.toNat_lt
    refine ⟨nofun, fun h => (Ends.add (a := pos) (b := len.toNat + 1) (by omega)).noFault ?_⟩
    cases h
    exact hadd
  | case5 pos len hget _ _ next hadd ih => exact ih

theorem ends_skipQuestions (bytes : Slice) (n : ℕ) {pos : ℕ}
    (hpos : pos ≤ bytes.bytes.length + 12) :
    Ends (skipQuestions bytes n pos) fun next => next ≤ bytes.bytes.length + 12 := by
  have hfits := bytes.fits
  induction n generalizing pos with
  | zero => exact Ends.ok hpos
  | succ n ih =>
    refine (ends_skipName bytes pos).bind fun after hafter => ?_
    refine (Ends.add (by omega)).bind fun next hnext => ?_
    exact ih (by omega)

theorem ends_note (family : Family) (kind : UInt16) (ttl : UInt32) (data : List UInt8)
    (reading : Reading) : Ends (reading.note family kind ttl data) fun _ => True := by
  rw [Reading.note.eq_def]
  split
  · exact Ends.ok trivial
  · split
    · exact Ends.ok trivial
    · exact Ends.absent
  · split
    · exact Ends.ok trivial
    · exact Ends.absent
  · exact Ends.ok trivial

theorem ends_readAnswer (bytes : Slice) (family : Family) (reading : Reading) :
    Ends (readAnswer bytes family reading) fun _ => True := by
  have hfits := bytes.fits
  rw [readAnswer]
  refine (ends_skipName bytes reading.pos).bind fun pos hpos => ?_
  refine (ends_u16At bytes (by omega)).bind fun kind _ => ?_
  refine (Ends.add (by omega)).bind fun ttlAt httlAt => ?_
  refine (ends_u32At bytes (by omega)).bind fun ttl _ => ?_
  refine (Ends.add (by omega)).bind fun lenAt hlenAt => ?_
  refine (ends_u16At bytes (by omega)).bind fun len _ => ?_
  have hlen := len.toNat_lt
  refine (Ends.add (by omega)).bind fun start hstart => ?_
  refine (Ends.add (by omega)).bind fun stop _ => ?_
  refine (Ends.range bytes start stop).bind fun data _ => ?_
  exact ends_note family kind ttl data _

theorem ends_readAnswers (bytes : Slice) (family : Family) (n : ℕ) (reading : Reading) :
    Ends (readAnswers bytes family n reading) fun _ => True := by
  induction n generalizing reading with
  | zero => exact Ends.ok trivial
  | succ n ih => exact (ends_readAnswer bytes family reading).bind fun next _ => ih next

/-- **No read leaves the packet**, and no offset wraps around. -/
theorem ends_parse (bytes : Slice) (id : UInt16) (family : Family) :
    Ends (parse bytes id family) fun _ => True := by
  rw [parse]
  refine (ends_u16At bytes (by omega)).bind fun answered _ => ?_
  split
  · exact Ends.absent
  refine (ends_u16At bytes (by omega)).bind fun flags _ => ?_
  split
  · exact Ends.ok trivial
  dsimp only
  split
  · exact Ends.ok trivial
  refine (ends_u16At bytes (by omega)).bind fun questions _ => ?_
  refine (ends_u16At bytes (by omega)).bind fun answers _ => ?_
  refine (ends_skipQuestions bytes _ (Nat.le_add_left _ _)).bind fun pos _ => ?_
  refine (ends_readAnswers bytes family _ _).bind fun reading _ => ?_
  exact Ends.ok trivial

theorem beBytes16_fromBeBytes16 (b₀ b₁ : UInt8) :
    beBytes16 (fromBeBytes16 b₀ b₁) = [b₀, b₁] := by
  have h₀ := b₀.toNat_lt
  have h₁ := b₁.toNat_lt
  have hvalue : (fromBeBytes16 b₀ b₁).toNat = 256 * b₀.toNat + b₁.toNat := by
    rw [fromBeBytes16, UInt16.toNat_ofNat']
    exact Nat.mod_eq_of_lt (by omega)
  have hhigh : UInt8.ofNat ((256 * b₀.toNat + b₁.toNat) / 256) = b₀ := by
    rw [← UInt8.toNat_inj, UInt8.toNat_ofNat']
    omega
  have hlow : UInt8.ofNat (256 * b₀.toNat + b₁.toNat) = b₁ := by
    rw [← UInt8.toNat_inj, UInt8.toNat_ofNat']
    omega
  rw [beBytes16, hvalue, hhigh, hlow]

/-- The first two bytes are the identifier that is read. -/
theorem take_of_u16At {id : UInt16} (h : u16At bytes 0 = .ok id) :
    bytes.bytes.take 2 = beBytes16 id := by
  rw [u16At] at h
  obtain ⟨b₀, h₀, hrest⟩ := except_bind_eq_ok h
  obtain ⟨pos₁, hpos₁, hrest⟩ := except_bind_eq_ok hrest
  obtain ⟨b₁, h₁, hlast⟩ := except_bind_eq_ok hrest
  cases eq_add_of_ok hpos₁
  cases hlast
  rw [beBytes16_fromBeBytes16, List.take_add_one, List.take_add_one, Slice.getElem?_of_get h₀,
    Slice.getElem?_of_get h₁]
  rfl

/-- Another query's answer is none. -/
theorem parse_of_other_id {id : UInt16} (family : Family)
    (h : bytes.bytes.take 2 ≠ beBytes16 id) : parse bytes id family = .error .absent := by
  rw [parse]
  cases hid : u16At bytes 0 with
  | error stop =>
    cases stop with
    | absent => rfl
    | fault => exact absurd hid (ends_u16At bytes (by omega)).noFault
  | ok answered =>
    refine if_pos fun hsame => h ?_
    rw [← hsame]
    exact take_of_u16At hid

/-! ## Answers undo their encoding -/

/-- **A message reads back as it was written, and nothing else is taken for its answer.** -/
theorem parse_undoes_encode (bytes : Slice) (id : UInt16) (family : Family) :
    (∀ message : Message, message.id = id → bytes.bytes = message.encode →
        parse bytes id family = .ok (.records (message.records family)))
      ∧ parse bytes id family ≠ .error .fault
      ∧ (bytes.bytes.take 2 ≠ beBytes16 id → parse bytes id family = .error .absent) := by
  refine ⟨fun message hid h => ?_, (ends_parse bytes id family).noFault,
    parse_of_other_id family⟩
  rw [← hid]
  exact parse_encode family h

/-- An alias of the question's name that lives 30 seconds, and its address for 300. -/
def aliasMessage : Message where
  id := 0x1234
  flags := 0x8180
  whole := rfl
  noError := rfl
  questions := [⟨⟨[⟨[97], by decide, by decide⟩], .root⟩, 1, 1⟩]
  questionsFit := by decide
  answers :=
    [⟨⟨[], .pointer 12⟩, 5, 1, 30, [0xC0, 12], by decide, by decide, by decide⟩,
      ⟨⟨[], .pointer 12⟩, 1, 1, 300, [10, 0, 0, 1], by decide, by decide, by decide⟩]
  answersFit := by decide
  authorities := 0
  additionals := 0
  rest := []

theorem parse_undoes_encode_alias :
    parse ⟨aliasMessage.encode, by decide⟩ 0x1234 .v4
        = .ok (.records [(.v4 ⟨[10, 0, 0, 1], rfl⟩, 30)])
      ∧ parse ⟨aliasMessage.encode, by decide⟩ 1 .v4 = .error .absent :=
  ⟨(parse_undoes_encode ⟨aliasMessage.encode, by decide⟩ 0x1234 .v4).1 aliasMessage rfl rfl,
    (parse_undoes_encode ⟨aliasMessage.encode, by decide⟩ 1 .v4).2.2 (by decide)⟩

end DnsAnswers

end Foreseerr
