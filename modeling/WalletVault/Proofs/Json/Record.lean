import WalletVault.Json.Record
import WalletVault.Proofs.Fallible
import WalletVault.Proofs.Json.Scalar

/-! Written lists and records are read back. A record is followed through its draft, member by member,
so one statement serves every shape. -/
namespace WalletVault.Json

def joined (first : Bool) : List Bytes → Bytes
  | [] => []
  | piece :: rest => (if first then [] else [44]) ++ (piece ++ joined false rest)

theorem joinedFirst (pieces : List Bytes) : commaSeparated pieces = joined true pieces := by
  induction pieces with
  | nil => rfl
  | cons piece rest ih =>
    cases rest with
    | nil => simp [commaSeparated, joined]
    | cons next rest => simp [commaSeparated, ih, joined]

theorem followsJoined (pieces : List Bytes) {closing : UInt8} (bracket : closing = 93 ∨ closing = 125)
    (rest : Bytes) : Follows (joined false pieces ++ closing :: rest) := by
  intro b head
  cases pieces with
  | nil => simp [joined] at head; subst b; exact Or.inr bracket
  | cons piece tail => simp [joined] at head; exact Or.inl head.symm

theorem skipSolid {b : UInt8} (solid : isBlank b = false) (rest : Bytes) :
    skipBlanks (b :: rest) = b :: rest :=
  List.dropWhile_cons_of_neg (by simp [solid])

theorem commaSolid : isBlank 44 = false := by decide

theorem elementNext {α : Type} {reader : Reader α} {written : Bytes} {value : α}
    (element : Reads reader written value) (first : Bool) (rest : Bytes) :
    nextElement first ((if first then [] else [44]) ++ (written ++ rest)) = .ok (some (written ++ rest)) := by
  obtain ⟨b, tail, rfl, blank, notEnd, _⟩ := element.starts
  cases first with
  | true => simp [nextElement, skipSolid blank, notEnd]
  | false => simp [nextElement, skipSolid commaSolid, skipSolid blank, notEnd]

theorem elementsRead {α : Type} {reader : Reader α} {write : α → Bytes} (values : List α)
    (all : ∀ value ∈ values, Reads reader (write value) value) (fuel : Nat) (enough : values.length < fuel)
    (done : List α) (rest : Bytes) :
    readElements reader fuel done (joined done.isEmpty (values.map write) ++ 93 :: rest) =
      .ok (done.reverse ++ values, rest) := by
  induction values generalizing fuel done with
  | nil =>
    obtain ⟨fuel, rfl⟩ := Nat.exists_eq_succ_of_ne_zero (Nat.ne_of_gt enough)
    have solid : isBlank 93 = false := by decide
    simp [joined, readElements, nextElement, skipSolid solid]
  | cons value values ih =>
    obtain ⟨fuel, rfl⟩ := Nat.exists_eq_succ_of_ne_zero (Nat.ne_of_gt (Nat.zero_lt_of_lt enough))
    have element := all value (by simp)
    have next := elementNext element done.isEmpty (joined false (values.map write) ++ 93 :: rest)
    have read := element.reads _ (followsJoined (values.map write) (Or.inl rfl) rest)
    have tail := ih (fun value member => all value (List.mem_cons_of_mem _ member)) fuel
      (by simpa using enough) (value :: done)
    simp only [List.isEmpty_cons, List.reverse_cons, List.append_assoc, List.singleton_append] at tail
    simp only [readElements, List.map_cons, joined, List.append_assoc, next, read, tail]

theorem compactItemsMap {α : Type} (json : α → Json) (values : List α) :
    compactItems (values.map json) = values.map fun value => (json value).compact := by
  induction values with
  | nil => rfl
  | cons value rest ih => simp [compactItems, ih]

theorem piecesLength (pieces : List Bytes) (solid : ∀ piece ∈ pieces, piece ≠ []) (first : Bool) :
    pieces.length ≤ (joined first pieces).length := by
  induction pieces generalizing first with
  | nil => simp
  | cons piece rest ih =>
    have head : 0 < piece.length := List.length_pos_iff.mpr (solid piece (by simp))
    have tail := ih (fun piece member => solid piece (List.mem_cons_of_mem _ member)) false
    simp only [joined, List.length_append, List.length_cons]
    omega

theorem listRead {α : Type} {reader : Reader α} {json : α → Json} (values : List α)
    (all : ∀ value ∈ values, Reads reader (json value).compact value) :
    Reads (readList reader) (compact (.list (values.map json))) values := by
  refine ⟨⟨91, _, rfl, by decide, by decide, by decide⟩, fun rest _ => ?_⟩
  have solid : isBlank 91 = false := by decide
  have pieces := piecesLength (values.map fun value => (json value).compact) (by
    intro piece member
    obtain ⟨value, inside, rfl⟩ := List.mem_map.mp member
    obtain ⟨b, tail, written, _⟩ := (all value inside).starts
    simp [written]) true
  have elements := elementsRead values all
    ((joined true (values.map fun value => (json value).compact) ++ 93 :: rest).length + 1)
    (by simp at pieces ⊢; omega) [] rest
  rw [compact, compactItemsMap, joinedFirst, List.cons_append, List.append_assoc, readList, skipSolid solid]
  simpa using elements

inductive Fills {δ : Type} (fields : List (Field δ)) : δ → List (String × Json) → δ → Prop where
  | done (draft : δ) : Fills fields draft [] draft
  | member {draft next last : δ} {name : String} {value : Json} {members : List (String × Json)}
      (field : Field δ) (known : fields.find? (·.name = name) = some field)
      (unread : field.isRead draft = false)
      (read : ∀ rest, Follows rest → field.read draft (value.compact ++ rest) = .ok (next, rest))
      (tail : Fills fields next members last) : Fills fields draft ((name, value) :: members) last

theorem fieldRead {δ : Type} {field : Field δ} {written : Bytes} {value : field.α}
    (reads : Reads field.reader written value) (draft : δ) (rest : Bytes) (follows : Follows rest) :
    field.read draft (written ++ rest) = .ok (field.put draft value, rest) := by
  simp [Field.read, reads.reads rest follows, Except.map]

def writeMember (member : String × Json) : Bytes := writeText member.1 ++ 58 :: member.2.compact

theorem compactMembersMap (members : List (String × Json)) :
    compactMembers members = members.map writeMember := by
  induction members with
  | nil => rfl
  | cons member rest ih => simp [compactMembers, writeMember, ih]

theorem memberNext (name : String) (value : Json) (first : Bool) (rest : Bytes) :
    nextMember first ((if first then [] else [44]) ++ (writeMember (name, value) ++ rest)) =
      .ok (some (name, colon :: (value.compact ++ rest))) := by
  have tail := textTailRead name (58 :: (value.compact ++ rest))
  have solid : isBlank 34 = false := by decide
  cases first with
  | true =>
    simp [nextMember, writeMember, writeText, quote, skipSolid solid, colon] at tail ⊢
    simp [tail, Except.map]
  | false =>
    simp [nextMember, writeMember, writeText, quote, skipSolid solid, skipSolid commaSolid, colon] at tail ⊢
    simp [tail, Except.map]

theorem membersRead {δ : Type} {fields : List (Field δ)} {draft last : δ} {members : List (String × Json)}
    (fills : Fills fields draft members last) (fuel : Nat) (enough : members.length < fuel) (first : Bool)
    (rest : Bytes) :
    readMembers fields fuel first draft (joined first (members.map writeMember) ++ 125 :: rest) =
      .ok (last, 125 :: rest) := by
  induction fills generalizing fuel first with
  | done draft =>
    obtain ⟨fuel, rfl⟩ := Nat.exists_eq_succ_of_ne_zero (Nat.ne_of_gt enough)
    have solid : isBlank 125 = false := by decide
    simp [joined, readMembers, nextMember, skipSolid solid]
  | @member draft next last name value members field known unread read tail ih =>
    obtain ⟨fuel, rfl⟩ := Nat.exists_eq_succ_of_ne_zero (Nat.ne_of_gt (Nat.zero_lt_of_lt enough))
    have name := memberNext name value first (joined false (members.map writeMember) ++ 125 :: rest)
    have solid : isBlank colon = false := by decide
    have value := read _ (followsJoined (members.map writeMember) (Or.inr rfl) rest)
    have tail := ih fuel (by simpa using enough) false
    simp only [readMembers, List.map_cons, joined, List.append_assoc, name, known, unread, readByte,
      skipSolid solid, if_true, value, tail]
    rfl

theorem recordRead {δ α : Type} {shape : Shape δ α} {members : List (String × Json)} {last : δ} {value : α}
    (fills : Fills shape.fields shape.empty members last) (finished : shape.finish last = some value) :
    Reads (readRecord shape) (compact (.object members)) value := by
  refine ⟨⟨123, _, rfl, by decide, by decide, by decide⟩, fun rest _ => ?_⟩
  have solid : isBlank 123 = false := by decide
  have closing : isBlank 125 = false := by decide
  have pieces := piecesLength (members.map writeMember) (by
    intro piece member
    obtain ⟨member, _, rfl⟩ := List.mem_map.mp member
    simp [writeMember, writeText]) true
  have read := membersRead fills ((joined true (members.map writeMember) ++ 125 :: rest).length + 1)
    (by simp at pieces ⊢; omega) true rest
  rw [compact, compactMembersMap, joinedFirst, List.cons_append, List.append_assoc, readRecord, skipSolid solid]
  simp only [List.singleton_append, if_true, read, finished, skipSolid closing, List.tail_cons]

inductive RecordSource {δ α : Type} (shape : Shape δ α) (text : Bytes) (value : α) (rest : Bytes) : Prop where
  | object {inner left : Bytes} {last : δ} (token : skipBlanks text = 123 :: inner)
      (taken : readMembers shape.fields (inner.length + 1) true shape.empty inner = .ok (last, left))
      (finished : shape.finish last = some value) (ends : rest = (skipBlanks left).tail)
  | list {inner left : Bytes} {last : δ} (token : skipBlanks text = 91 :: inner)
      (taken : readFields shape.fields true shape.empty inner = .ok (last, left))
      (finished : shape.finish last = some value) (ends : readListEnd left = .ok rest)

theorem readRecordSource {δ α : Type} {shape : Shape δ α} {text rest : Bytes} {value : α}
    (read : readRecord shape text = .ok (value, rest)) : RecordSource shape text value rest := by
  unfold readRecord at read
  split at read
  · cases read
  rename_i b inner token
  split at read
  · rename_i opens
    subst opens
    split at read
    · cases read
    rename_i last left taken
    split at read <;> cases read
    rename_i finished
    exact .object token taken finished rfl
  split at read
  · rename_i opens
    subst opens
    split at read
    · cases read
    rename_i last left taken
    split at read
    · cases read
    rename_i finished
    obtain ⟨after, ends, same⟩ := Fallible.mapOk.mp read
    cases same
    exact .list token taken finished ends
  · cases read

theorem documentRead {α : Type} {reader : Reader α} {document : Bytes} {value : α}
    (reads : Reads reader document value) : readDocument reader document = .ok value := by
  have read := reads.reads [] (by simp [Follows])
  rw [List.append_nil] at read
  simp [readDocument, read, skipBlanks]

end WalletVault.Json
