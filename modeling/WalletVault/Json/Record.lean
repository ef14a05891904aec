import WalletVault.Json.Scalar

/-! Readers for lists, for records with named fields and for choices between words. A record is an object, whose
members may come in any order and among others, or the list of its fields in their order. Values that nobody asked for
are passed over: their shape is checked to any depth, by a stack of the lists and objects that are open. -/
namespace WalletVault.Json

inductive Frame where
  | list
  | object
  deriving DecidableEq, Repr

def Frame.closing : Frame → UInt8
  | list => 93
  | object => 125

inductive Expecting where
  | value
  | firstEntry
  | nextEntry
  | name
  deriving DecidableEq, Repr

/-- Passes over the rest of a text, after its opening quote. A control byte is refused unread, and
escaped code units may be any four digits. -/
def skipTextTail : Bytes → Except Fault Bytes
  | [] => .error (.before [] .malformed)
  | b :: rest =>
    if b = 34 then .ok rest
    else if b = 92 then
      match rest with
      | [] => .error (.before [] .malformed)
      | e :: rest =>
        if e = 117 then
          match rest with
          | p :: q :: r :: s :: rest =>
            if (codeUnit? p q r s).isSome then skipTextTail rest else .error (.before rest .malformed)
          | _ => .error (.before [] .malformed)
        else if (escaped? e).isSome then skipTextTail rest
        else .error (.before rest .malformed)
    else if b < 32 then .error (.before (b :: rest) .malformed)
    else skipTextTail rest

def skipScalar (b : UInt8) (rest : Bytes) : Except Fault (Option Bytes) :=
  if b = 110 then (readWord nullTail rest).map some
  else if b = 116 then (readWord trueTail rest).map some
  else if b = 102 then (readWord falseTail rest).map some
  else if b = 45 ∨ isDigit b then (readNumeral (b :: rest)).map fun (_, rest) => some rest
  else if b = 34 then (skipTextTail rest).map some
  else if b = 91 ∨ b = 123 then .ok none
  else .error (.within (b :: rest))

/-- Passes over what is expected inside the open frames, innermost first, until none is open. A byte is
passed at least in every second step, so twice the length of the text is fuel enough. -/
def skipFrom : (fuel : Nat) → Expecting → List Frame → Bytes → Except Fault Bytes
  | 0, _, _, bytes => .error (.before bytes .malformed)
  | fuel + 1, expecting, frames, bytes =>
    match skipBlanks bytes with
    | [] => .error (.within [])
    | b :: rest =>
      match expecting, frames with
      | .value, frames =>
        match skipScalar b rest with
        | .error fault => .error fault
        | .ok none => skipFrom fuel .firstEntry ((if b = 91 then .list else .object) :: frames) rest
        | .ok (some rest) =>
          match frames with
          | [] => .ok rest
          | _ => skipFrom fuel .nextEntry frames rest
      | _, [] => .error (.before (b :: rest) .malformed)
      | .name, frames =>
        if b = 34 then
          match skipTextTail rest with
          | .error fault => .error fault
          | .ok rest =>
            match skipBlanks rest with
            | [] => .error (.within [])
            | c :: rest =>
              if c = 58 then skipFrom fuel .value frames rest else .error (.within (c :: rest))
        else .error (.within (b :: rest))
      | expecting, frame :: outer =>
        if b = frame.closing then
          match outer with
          | [] => .ok rest
          | _ => skipFrom fuel .nextEntry outer rest
        else if expecting = .firstEntry then
          skipFrom fuel (if frame = .list then .value else .name) (frame :: outer) (b :: rest)
        else if b = 44 then skipFrom fuel (if frame = .list then .value else .name) (frame :: outer) rest
        else .error (.within (b :: rest))

def skipValue (bytes : Bytes) : Except Fault Bytes := skipFrom (2 * bytes.length + 2) .value [] bytes

def nextElement (first : Bool) (bytes : Bytes) : Except Fault (Option Bytes) :=
  match skipBlanks bytes with
  | [] => .error (.within [])
  | b :: rest =>
    if b = 93 then .ok none
    else if first then .ok (some (b :: rest))
    else if b = 44 then
      match skipBlanks rest with
      | [] => .error (.within [])
      | c :: tail => if c = 93 then .error (.within (c :: tail)) else .ok (some (c :: tail))
    else .error (.within (b :: rest))

/-- The elements of a list up to its end, with those read so far in reverse. Each takes a byte at least,
so the length of the text is fuel enough. -/
def readElements {α : Type} (reader : Reader α) : (fuel : Nat) → (done : List α) → Reader (List α)
  | 0, _, bytes => .error (.before bytes .malformed)
  | fuel + 1, done, bytes =>
    match nextElement done.isEmpty bytes with
    | .error fault => .error fault
    | .ok none => .ok (done.reverse, (skipBlanks bytes).tail)
    | .ok (some bytes) =>
      match reader bytes with
      | .error fault => .error fault
      | .ok (value, rest) => readElements reader fuel (value :: done) rest

def readList {α : Type} (reader : Reader α) : Reader (List α) := fun bytes =>
  match skipBlanks bytes with
  | b :: rest =>
    if b = 91 then readElements reader (rest.length + 1) [] rest else .error (mismatch (b :: rest))
  | [] => .error (.within [])

/-- A named field of a record, whose value is put into a draft of the type `δ`. -/
structure Field (δ : Type) where
  {α : Type}
  name : String
  get : δ → Option α
  put : δ → α → δ
  reader : Reader α

def Field.isRead {δ : Type} (field : Field δ) (draft : δ) : Bool := (field.get draft).isSome

def Field.read {δ : Type} (field : Field δ) (draft : δ) : Reader δ := fun bytes =>
  (field.reader bytes).map fun (value, rest) => (field.put draft value, rest)

structure Shape (δ α : Type) where
  empty : δ
  fields : List (Field δ)
  finish : δ → Option α

/-- The fault of a record as a whole: it is shown after the closing byte, if that comes next. -/
def closingFault (closing : UInt8) (bytes : Bytes) : Fault :=
  match skipBlanks bytes with
  | b :: rest => if b = closing then .before rest .unexpected else .before (b :: rest) .unexpected
  | [] => .before [] .unexpected

def nextMember (first : Bool) (bytes : Bytes) : Except Fault (Option (String × Bytes)) :=
  let name (bytes : Bytes) : Except Fault (Option (String × Bytes)) :=
    match bytes with
    | [] => .error (.within [])
    | b :: rest =>
      if b = 34 then (readTextTail rest).map some else .error (.within (b :: rest))
  match skipBlanks bytes with
  | [] => .error (.within [])
  | b :: rest =>
    if b = 125 then .ok none
    else if first then name (b :: rest)
    else if b = 44 then name (skipBlanks rest)
    else .error (.within (b :: rest))

def readByte (byte : UInt8) (bytes : Bytes) : Except Fault Bytes :=
  match skipBlanks bytes with
  | [] => .error (.within [])
  | b :: rest => if b = byte then .ok rest else .error (.within (b :: rest))

def colon : UInt8 := 58

def readMembers {δ : Type} (fields : List (Field δ)) : (fuel : Nat) → (first : Bool) → δ → Reader δ
  | 0, _, _, bytes => .error (.before bytes .malformed)
  | fuel + 1, first, draft, bytes =>
    match nextMember first bytes with
    | .error fault => .error fault
    | .ok none => .ok (draft, bytes)
    | .ok (some (name, rest)) =>
      match fields.find? (·.name = name) with
      | some field =>
        if field.isRead draft then .error (closingFault 125 rest)
        else
          match readByte colon rest with
          | .error fault => .error fault
          | .ok rest =>
            match field.read draft rest with
            | .error fault => .error fault
            | .ok (draft, rest) => readMembers fields fuel false draft rest
      | none =>
        match readByte colon rest with
        | .error fault => .error fault
        | .ok rest =>
          match skipValue rest with
          | .error fault => .error fault
          | .ok rest => readMembers fields fuel false draft rest

def readFields {δ : Type} : (fields : List (Field δ)) → (first : Bool) → δ → Reader δ
  | [], _, draft, bytes => .ok (draft, bytes)
  | field :: fields, first, draft, bytes =>
    match nextElement first bytes with
    | .error fault => .error fault
    | .ok none => .ok (draft, bytes)
    | .ok (some bytes) =>
      match field.read draft bytes with
      | .error fault => .error fault
      | .ok (draft, rest) => readFields fields false draft rest

def readListEnd (bytes : Bytes) : Except Fault Bytes :=
  match skipBlanks bytes with
  | [] => .error (.within [])
  | b :: rest =>
    if b = 93 then .ok rest
    else if b = 44 then .error (.within (skipBlanks rest))
    else .error (.within (b :: rest))

def readRecord {δ α : Type} (shape : Shape δ α) : Reader α := fun bytes =>
  match skipBlanks bytes with
  | [] => .error (.within [])
  | b :: rest =>
    if b = 123 then
      match readMembers shape.fields (rest.length + 1) true shape.empty rest with
      | .error fault => .error fault
      | .ok (draft, rest) =>
        match shape.finish draft with
        | none => .error (closingFault 125 rest)
        | some value => .ok (value, (skipBlanks rest).tail)
    else if b = 91 then
      match readFields shape.fields true shape.empty rest with
      | .error fault => .error fault
      | .ok (draft, rest) =>
        match shape.finish draft with
        | none => .error (closingFault 93 rest)
        | some value => (readListEnd rest).map (value, ·)
    else .error (mismatch (b :: rest))

def readChosen {α : Type} (choose : String → Option α) : Reader α := fun bytes => do
  let (word, rest) ← readTextTail bytes
  match choose word with
  | some value => pure (value, rest)
  | none => throw (.before rest .unexpected)

def readNull (bytes : Bytes) : Except Fault Bytes :=
  match skipBlanks bytes with
  | [] => .error (.within [])
  | b :: rest => if b = 110 then readWord nullTail rest else .error (mismatch (b :: rest))

def readChoice {α : Type} (choose : String → Option α) : Reader α := fun bytes =>
  match skipBlanks bytes with
  | [] => .error (.within [])
  | b :: rest =>
    if b = 34 then readChosen choose rest
    else if b = 123 then do
      let rest ← readByte 34 rest
      let (value, rest) ← readChosen choose rest
      let rest ← readNull (← readByte colon rest)
      let rest ← readByte 125 rest
      pure (value, rest)
    else .error (.within (b :: rest))

def readDocument {α : Type} (reader : Reader α) (document : Bytes) : Except Fault α :=
  match reader document with
  | .error fault => .error fault
  | .ok (value, rest) =>
    match skipBlanks rest with
    | [] => .ok value
    | rest => .error (.within rest)

end WalletVault.Json
