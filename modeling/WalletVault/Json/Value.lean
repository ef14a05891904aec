import WalletVault.Bytes

/-! JSON documents as values, and the two ways they are written: compact, and indented with the members of
every object in the order of their names. -/
namespace WalletVault

inductive Json where
  | null
  | flag (value : Bool)
  | number (value : Nat)
  | text (value : String)
  | list (items : List Json)
  | object (members : List (String × Json))

namespace Json

def ascii (text : String) : Bytes := text.toList.map fun c => UInt8.ofNat c.toNat

def quote : UInt8 := 34

def backslash : UInt8 := 92

def hexDigit (n : UInt8) : UInt8 := if n < 10 then 48 + n else 87 + n

def escape (b : UInt8) : Bytes :=
  if b = quote then [backslash, quote]
  else if b = backslash then [backslash, backslash]
  else if b = 8 then [backslash, 98]
  else if b = 12 then [backslash, 102]
  else if b = 10 then [backslash, 110]
  else if b = 13 then [backslash, 114]
  else if b = 9 then [backslash, 116]
  else if b < 32 then [backslash, 117, 48, 48, hexDigit (b >>> 4), hexDigit (b &&& 15)]
  else [b]

def writeText (text : String) : Bytes := quote :: ((Utf8.encode text).flatMap escape ++ [quote])

def writeNumber (n : Nat) : Bytes := (Nat.toDigits 10 n).map fun c => UInt8.ofNat c.toNat

def commaSeparated : List Bytes → Bytes
  | [] => []
  | [piece] => piece
  | piece :: rest => piece ++ 44 :: commaSeparated rest

mutual

def compact : Json → Bytes
  | null => ascii "null"
  | flag value => ascii (if value then "true" else "false")
  | number value => writeNumber value
  | text value => writeText value
  | list items => 91 :: (commaSeparated (compactItems items) ++ [93])
  | object members => 123 :: (commaSeparated (compactMembers members) ++ [125])

def compactItems : List Json → List Bytes
  | [] => []
  | item :: rest => compact item :: compactItems rest

def compactMembers : List (String × Json) → List Bytes
  | [] => []
  | (name, value) :: rest => (writeText name ++ 58 :: compact value) :: compactMembers rest

end

def block (depth : Nat) (opening closing : UInt8) (pieces : List Bytes) : Bytes :=
  let indent (levels : Nat) : Bytes := 10 :: List.replicate (2 * levels) 32
  if pieces.isEmpty then [opening, closing]
  else opening :: (commaSeparated (pieces.map (indent (depth + 1) ++ ·)) ++ indent depth ++ [closing])

mutual

def indented (depth : Nat) : Json → Bytes
  | list items => block depth 91 93 (indentedItems (depth + 1) items)
  | object members => block depth 123 125
      (((indentedMembers (depth + 1) members).mergeSort fun a b => a.1 ≤ b.1).map (·.2))
  | value => compact value

def indentedItems (depth : Nat) : List Json → List Bytes
  | [] => []
  | item :: rest => indented depth item :: indentedItems depth rest

def indentedMembers (depth : Nat) : List (String × Json) → List (String × Bytes)
  | [] => []
  | (name, value) :: rest =>
    (name, writeText name ++ 58 :: 32 :: indented depth value) :: indentedMembers depth rest

end

def optional (name : String) : Option Json → List (String × Json)
  | some value => [(name, value)]
  | none => []

end Json

end WalletVault
