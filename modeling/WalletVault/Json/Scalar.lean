import WalletVault.Bytes

/-! Readers for the scalars of a document: words, numbers and texts. A scalar is read to its end before its type is
found wrong, so a fault within it comes first. A fault carries the number of bytes after it, so that readers need only
the rest of the document; its line and column are counted once, at the end. -/
namespace WalletVault.Json

inductive Cause where
  | malformed
  | unexpected
  | refused (reason : String)
  deriving DecidableEq, Repr

/-- A fault, with the number of bytes after it. `back` is how many columns before that point it is shown. -/
structure Fault where
  cause : Cause
  left : Nat
  back : Nat
  deriving DecidableEq, Repr

namespace Fault

def before (rest : Bytes) (cause : Cause) : Fault := ⟨cause, rest.length, 0⟩

def within (rest : Bytes) : Fault := ⟨.malformed, rest.length - 1, 0⟩

def lineColumn (line column : Nat) : Bytes → Nat × Nat
  | [] => (line, column)
  | b :: rest => if b = 10 then lineColumn (line + 1) 0 rest else lineColumn line (column + 1) rest

def position (fault : Fault) (document : Bytes) : Nat × Nat :=
  let (line, column) := lineColumn 1 0 (document.take (document.length - fault.left))
  (line, column - fault.back)

end Fault

abbrev Reader (α : Type) := Bytes → Except Fault (α × Bytes)

def isBlank (b : UInt8) : Bool := b = 32 || b = 10 || b = 13 || b = 9

def skipBlanks (bytes : Bytes) : Bytes := bytes.dropWhile isBlank

def readWord : (word : Bytes) → Bytes → Except Fault Bytes
  | [], bytes => .ok bytes
  | _ :: _, [] => .error (.before [] .malformed)
  | w :: word, b :: rest => if b = w then readWord word rest else .error (.before rest .malformed)

def nullTail : Bytes := [117, 108, 108]

def trueTail : Bytes := [114, 117, 101]

def falseTail : Bytes := [97, 108, 115, 101]

def isDigit (b : UInt8) : Bool := 48 ≤ b ∧ b ≤ 57

structure Numeral where
  negative : Bool
  whole : Bytes
  fraction : Bytes
  exponent : Option (Bool × Bytes)
  deriving DecidableEq, Repr

def readExponent (numeral : Numeral) : Reader Numeral
  | b :: rest =>
    if b = 101 ∨ b = 69 then
      let (negative, rest) := match rest with
        | s :: tail => if s = 45 then (true, tail) else if s = 43 then (false, tail) else (false, rest)
        | [] => (false, [])
      match rest with
      | [] => .error (.before [] .malformed)
      | d :: tail =>
        if isDigit d then
          let (digits, rest) := (d :: tail).span isDigit
          .ok ({ numeral with exponent := some (negative, digits) }, rest)
        else .error (.before tail .malformed)
    else .ok (numeral, b :: rest)
  | [] => .ok (numeral, [])

def readFraction (numeral : Numeral) : Reader Numeral
  | b :: rest =>
    if b = 46 then
      match rest.span isDigit with
      | ([], rest) => .error (.within rest)
      | (digits, rest) => readExponent { numeral with fraction := digits } rest
    else readExponent numeral (b :: rest)
  | [] => .ok (numeral, [])

def readMagnitude (negative : Bool) : Reader Numeral
  | [] => .error (.before [] .malformed)
  | d :: rest =>
    if d = 48 then
      match rest with
      | e :: _ => if isDigit e then .error (.within rest) else readFraction ⟨negative, [d], [], none⟩ rest
      | [] => .ok (⟨negative, [d], [], none⟩, [])
    else if isDigit d then
      let (digits, rest) := rest.span isDigit
      readFraction ⟨negative, d :: digits, [], none⟩ rest
    else .error (.before rest .malformed)

def readNumeral : Reader Numeral
  | b :: rest => if b = 45 then readMagnitude true rest else readMagnitude false (b :: rest)
  | [] => .error (.before [] .malformed)

def appendDigits (value : Nat) : Bytes → Nat × Nat
  | [] => (value, 0)
  | d :: rest =>
    let next := 10 * value + (d.toNat - 48)
    if next < Nat.pow 2 64 then appendDigits next rest else (value, rest.length + 1)

def roundToDouble (n : Nat) : Nat :=
  let unit := Nat.pow 2 (n.log2 + 1 - 53)
  let low := n / unit
  let up := 2 * (n % unit) > unit ∨ (2 * (n % unit) = unit ∧ low % 2 = 1)
  (if up then low + 1 else low) * unit

/-- Whether `significand * 10 ^ exponent` is beyond the largest double, as the product of the two
rounded factors. -/
def beyondDouble (significand : Nat) (exponent : Int) : Bool :=
  significand ≠ 0 ∧ (exponent > 308 ∨
    (exponent ≥ 0 ∧
      roundToDouble significand * roundToDouble (Nat.pow 10 exponent.toNat) ≥
        Nat.pow 2 1024 - Nat.pow 2 970))

namespace Numeral

def natural? (numeral : Numeral) : Option Nat :=
  match numeral with
  | ⟨false, whole, [], none⟩ =>
    match appendDigits 0 whole with
    | (value, 0) => some value
    | _ => none
  | _ => none

def significand (numeral : Numeral) : Nat × Int :=
  let (whole, dropped) := appendDigits 0 numeral.whole
  let (value, lost) := appendDigits whole numeral.fraction
  (value, (dropped : Int) - (numeral.fraction.length - lost : Nat))

def boundedExponent (value : Nat) : Bytes → Except Nat Nat
  | [] => .ok value
  | d :: rest =>
    let next := 10 * value + (d.toNat - 48)
    if next < Nat.pow 2 31 then boundedExponent next rest else .error rest.length

/-- The fault of a numeral beyond the doubles, with the rest after it. An exponent from 2³¹ on is
refused at the digit that reaches it, any other such numeral at its end. -/
def fault? (numeral : Numeral) (rest : Bytes) : Option Fault :=
  let (value, power) := numeral.significand
  match numeral.exponent with
  | none => if beyondDouble value power then some (.before rest .malformed) else none
  | some (negative, digits) =>
    match boundedExponent 0 digits with
    | .error after =>
      if value ≠ 0 ∧ negative = false then some ⟨.malformed, rest.length + after, 0⟩ else none
    | .ok exponent =>
      if beyondDouble value (if negative then power - exponent else power + exponent) then
        some (.before rest .malformed)
      else none

end Numeral

def readDouble (bytes : Bytes) : Except Fault (Numeral × Bytes) := do
  let (numeral, rest) ← readNumeral bytes
  match numeral.fault? rest with
  | some fault => throw fault
  | none => pure (numeral, rest)

def hexValue? (b : UInt8) : Option Nat :=
  if 48 ≤ b ∧ b ≤ 57 then some (b.toNat - 48)
  else if 97 ≤ b ∧ b ≤ 102 then some (b.toNat - 87)
  else if 65 ≤ b ∧ b ≤ 70 then some (b.toNat - 55)
  else none

def codeUnit? (a b c d : UInt8) : Option Nat := do
  let a ← hexValue? a
  let b ← hexValue? b
  let c ← hexValue? c
  let d ← hexValue? d
  some (a * 4096 + b * 256 + c * 16 + d)

def escaped? (b : UInt8) : Option UInt8 :=
  if b = 34 ∨ b = 92 ∨ b = 47 then some b
  else if b = 98 then some 8
  else if b = 102 then some 12
  else if b = 110 then some 10
  else if b = 114 then some 13
  else if b = 116 then some 9
  else none

def isHighSurrogate (n : Nat) : Bool := 0xD800 ≤ n ∧ n ≤ 0xDBFF

def isLowSurrogate (n : Nat) : Bool := 0xDC00 ≤ n ∧ n ≤ 0xDFFF

def surrogatePair (high low : Nat) : Nat := 0x10000 + (high - 0xD800) * 1024 + (low - 0xDC00)

def readTextBytes (done : Bytes) : Reader Bytes
  | [] => .error (.before [] .malformed)
  | b :: rest =>
    if b = 34 then .ok (done.reverse, rest)
    else if b = 92 then
      match rest with
      | [] => .error (.before [] .malformed)
      | e :: rest =>
        if e = 117 then
          match rest with
          | p :: q :: r :: s :: rest =>
            match codeUnit? p q r s with
            | none => .error (.before rest .malformed)
            | some unit =>
              if isLowSurrogate unit then .error (.before rest .malformed)
              else if isHighSurrogate unit then
                match rest with
                | [] => .error (.before [] .malformed)
                | e :: rest =>
                  if e = 92 then
                    match rest with
                    | [] => .error (.before [] .malformed)
                    | u :: rest =>
                      if u = 117 then
                        match rest with
                        | p :: q :: r :: s :: rest =>
                          match codeUnit? p q r s with
                          | none => .error (.before rest .malformed)
                          | some low =>
                            if isLowSurrogate low then
                              readTextBytes ((Utf8.codePoint (surrogatePair unit low)).reverse ++ done) rest
                            else .error (.before rest .malformed)
                        | _ => .error (.before [] .malformed)
                      else .error (.before rest .malformed)
                  else .error (.before rest .malformed)
              else readTextBytes ((Utf8.codePoint unit).reverse ++ done) rest
          | _ => .error (.before [] .malformed)
        else
          match escaped? e with
          | some byte => readTextBytes (byte :: done) rest
          | none => .error (.before rest .malformed)
    else if b < 32 then .error (.before rest .malformed)
    else readTextBytes (b :: done) rest

/-- A text after its opening quote. Bytes that are no UTF-8 are found last, and shown as many columns
before the closing quote's end as there are bytes after the well-formed beginning. -/
def readTextTail (bytes : Bytes) : Except Fault (String × Bytes) :=
  match readTextBytes [] bytes with
  | .error fault => .error fault
  | .ok (raw, rest) =>
    match Utf8.decode? raw with
    | some text => .ok (text, rest)
    | none => .error ⟨.malformed, rest.length, raw.length - Utf8.validLength raw⟩

def mismatch (bytes : Bytes) : Fault :=
  let after (result : Except Fault Bytes) : Fault :=
    match result with
    | .ok rest => .before rest .unexpected
    | .error fault => fault
  match bytes with
  | [] => .within []
  | b :: rest =>
    if b = 110 then after (readWord nullTail rest)
    else if b = 116 then after (readWord trueTail rest)
    else if b = 102 then after (readWord falseTail rest)
    else if b = 45 ∨ isDigit b then after ((readDouble bytes).map (·.2))
    else if b = 34 then after ((readTextTail rest).map (·.2))
    else if b = 91 ∨ b = 123 then .before bytes .unexpected
    else .within bytes

def readText : Reader String := fun bytes =>
  match skipBlanks bytes with
  | b :: rest => if b = 34 then readTextTail rest else .error (mismatch (b :: rest))
  | [] => .error (.within [])

def readWord32 : Reader UInt32 := fun bytes =>
  match skipBlanks bytes with
  | b :: rest =>
    if b = 45 ∨ isDigit b then
      match readDouble (b :: rest) with
      | .error fault => .error fault
      | .ok (numeral, rest) =>
        match numeral.natural? with
        | some n => if n < Nat.pow 2 32 then .ok (UInt32.ofNat n, rest) else .error (.before rest .unexpected)
        | none => .error (.before rest .unexpected)
    else .error (mismatch (b :: rest))
  | [] => .error (.within [])

def readFlag : Reader Bool := fun bytes =>
  match skipBlanks bytes with
  | b :: rest =>
    if b = 116 then (readWord trueTail rest).map (true, ·)
    else if b = 102 then (readWord falseTail rest).map (false, ·)
    else .error (mismatch (b :: rest))
  | [] => .error (.within [])

def readOptional {α : Type} (reader : Reader α) : Reader (Option α) := fun bytes =>
  match skipBlanks bytes with
  | b :: rest =>
    if b = 110 then (readWord nullTail rest).map (none, ·)
    else (reader (b :: rest)).map fun (value, rest) => (some value, rest)
  | [] => (reader []).map fun (value, rest) => (some value, rest)

def readChecked {α β : Type} (reader : Reader α) (check : α → Except String β) : Reader β := fun bytes =>
  match reader bytes with
  | .error fault => .error fault
  | .ok (value, rest) =>
    match check value with
    | .ok checked => .ok (checked, rest)
    | .error reason => .error (.before rest (.refused reason))

end WalletVault.Json
