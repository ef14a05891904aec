/-! TOML documents, as far as settings need them: texts, lists and tables are kept, numbers, truth values and
dates are only checked. A table may be opened once by a header, and keys with dots open tables that no
header and no other way of writing may open again. -/
namespace WalletVault.Toml

/-- How a table came to be: by a header of its own, as a parent in the header of another, or by a key
with dots. -/
inductive Opened where
  | header
  | parent
  | dots
  deriving DecidableEq, Repr

inductive Item where
  | text (value : String)
  | scalar
  | list (items : List Item)
  | inline (entries : List (String × Item))
  | table (opened : Opened) (entries : List (String × Item))
  | tables (all : List (List (String × Item)))

abbrev Entries := List (String × Item)

def put (key : String) (item : Item) : Entries → Entries
  | [] => [(key, item)]
  | (k, old) :: rest => if k = key then (k, item) :: rest else (k, old) :: put key item rest

/-- Changes the table at the end of a path. Tables that are not there are opened, by dots or as parents;
a path with dots does not enter a table that a header opened, and no path enters a value. Where a key
holds a list of tables, the path goes on in the last. -/
def changeAt (dots : Bool) (f : Opened → Entries → Option Entries) :
    (path : List String) → Opened → Entries → Option Entries
  | [], opened, entries => f opened entries
  | key :: path, _, entries =>
    match entries.lookup key with
    | none =>
      let opened := if dots then Opened.dots else .parent
      (changeAt dots f path opened []).map fun inner => put key (.table opened inner) entries
    | some (.table opened inner) =>
      if dots ∧ opened = .header then none
      else (changeAt dots f path opened inner).map fun inner => put key (.table opened inner) entries
    | some (.tables all) =>
      match all.reverse with
      | last :: before =>
        (changeAt dots f path .header last).map fun inner =>
          put key (.tables (before.reverse ++ [inner])) entries
      | [] => none
    | some _ => none

def addValue (path : List String) (key : String) (item : Item) (opened : Opened) (entries : Entries) :
    Option Entries :=
  changeAt true (fun opened inner =>
    if path ≠ [] ∧ opened ≠ .dots then none
    else if (inner.lookup key).isSome then none
    else some (inner ++ [(key, item)])) path opened entries

def openTable (path : List String) (key : String) (root : Entries) : Option Entries :=
  changeAt false (fun _ inner =>
    match inner.lookup key with
    | none => some (inner ++ [(key, .table .header [])])
    | some (.table .parent entries) => some (put key (.table .header entries) inner)
    | some _ => none) path .header root

def openListed (path : List String) (key : String) (root : Entries) : Option Entries :=
  changeAt false (fun _ inner =>
    match inner.lookup key with
    | none => some (inner ++ [(key, .tables [[]])])
    | some (.tables all) => some (put key (.tables (all ++ [[]])) inner)
    | some _ => none) path .header root

def skipBlanks (text : List Char) : List Char := text.dropWhile fun c => c = ' ' ∨ c = '\t'

def isPlain (c : Char) : Bool := c = '\t' ∨ (0x20 ≤ c.toNat ∧ c.toNat ≠ 0x7F)

def skipComment : List Char → List Char
  | '#' :: rest => rest.dropWhile isPlain
  | text => text

def lineEnd? : List Char → Option (List Char)
  | [] => some []
  | '\n' :: rest => some rest
  | '\r' :: '\n' :: rest => some rest
  | _ => none

def restOfLine? (text : List Char) : Option (List Char) := lineEnd? (skipComment (skipBlanks text))

def skipLines : (fuel : Nat) → List Char → List Char
  | 0, text => text
  | fuel + 1, text =>
    let text := skipBlanks text
    match skipComment text with
    | '\n' :: rest => skipLines fuel rest
    | '\r' :: '\n' :: rest => skipLines fuel rest
    | _ => text

def skipSpace (text : List Char) : List Char := skipLines (text.length + 1) text

def hexValue? (c : Char) : Option Nat :=
  if '0' ≤ c ∧ c ≤ '9' then some (c.toNat - 48)
  else if 'a' ≤ c ∧ c ≤ 'f' then some (c.toNat - 87)
  else if 'A' ≤ c ∧ c ≤ 'F' then some (c.toNat - 55)
  else none

def numbered? (count : Nat) (text : List Char) : Option (Char × List Char) := do
  let digits := text.take count
  if digits.length < count then none
  else
    let n ← digits.foldlM (fun n c => (hexValue? c).map (16 * n + ·)) 0
    if n < 0xD800 ∨ (0xDFFF < n ∧ n < 0x110000) then some (Char.ofNat n, text.drop count) else none

def escaped? : List Char → Option (Char × List Char)
  | 'b' :: rest => some ('\x08', rest)
  | 't' :: rest => some ('\t', rest)
  | 'n' :: rest => some ('\n', rest)
  | 'f' :: rest => some ('\x0C', rest)
  | 'r' :: rest => some ('\r', rest)
  | '"' :: rest => some ('"', rest)
  | '\\' :: rest => some ('\\', rest)
  | 'u' :: rest => numbered? 4 rest
  | 'U' :: rest => numbered? 8 rest
  | _ => none

def readBasic : (fuel : Nat) → (done : List Char) → List Char → Option (String × List Char)
  | 0, _, _ => none
  | _, _, [] => none
  | fuel + 1, done, c :: rest =>
    if c = '"' then some (String.ofList done.reverse, rest)
    else if c = '\\' then
      match escaped? rest with
      | some (c, rest) => readBasic fuel (c :: done) rest
      | none => none
    else if isPlain c then readBasic fuel (c :: done) rest
    else none

def readLiteral (text : List Char) : Option (String × List Char) :=
  match text.span fun c => isPlain c ∧ c ≠ '\'' with
  | (value, '\'' :: rest) => some (String.ofList value, rest)
  | _ => none

/-- What a run of quotes does in a text of several lines: up to two belong to the text; of three to five
the last three close it. -/
def quoteRun (quote : Char) (text : List Char) : Nat × Bool × List Char :=
  let count := min 5 (text.takeWhile (· = quote)).length
  if count < 3 then (count, false, text.drop count) else (count - 3, true, text.drop count)

def dropSpace : List Char → List Char
  | ' ' :: rest => dropSpace rest
  | '\t' :: rest => dropSpace rest
  | '\n' :: rest => dropSpace rest
  | '\r' :: '\n' :: rest => dropSpace rest
  | text => text

def readLines (quote : Char) (escapes : Bool) :
    (fuel : Nat) → (done : List Char) → List Char → Option (String × List Char)
  | 0, _, _ => none
  | _, _, [] => none
  | fuel + 1, done, c :: rest =>
    if c = quote then
      match quoteRun quote (c :: rest) with
      | (count, true, rest) => some (String.ofList (List.replicate count quote ++ done).reverse, rest)
      | (count, false, rest) => readLines quote escapes fuel (List.replicate count quote ++ done) rest
    else if c = '\n' then readLines quote escapes fuel ('\n' :: done) rest
    else if c = '\r' then
      match rest with
      | '\n' :: rest => readLines quote escapes fuel ('\n' :: done) rest
      | _ => none
    else if c = '\\' ∧ escapes then
      match lineEnd? (skipBlanks rest) with
      | some (e :: tail) => readLines quote escapes fuel done (dropSpace (e :: tail))
      | _ =>
        match escaped? rest with
        | some (c, rest) => readLines quote escapes fuel (c :: done) rest
        | none => none
    else if isPlain c then readLines quote escapes fuel (c :: done) rest
    else none

def skipFirstLineEnd : List Char → List Char
  | '\n' :: rest => rest
  | '\r' :: '\n' :: rest => rest
  | text => text

def readText : List Char → Option (String × List Char)
  | '"' :: '"' :: '"' :: rest =>
    let rest := skipFirstLineEnd rest
    readLines '"' true (rest.length + 1) [] rest
  | '\'' :: '\'' :: '\'' :: rest =>
    let rest := skipFirstLineEnd rest
    readLines '\'' false (rest.length + 1) [] rest
  | '"' :: rest => readBasic (rest.length + 1) [] rest
  | '\'' :: rest => readLiteral rest
  | _ => none

def isBare (c : Char) : Bool := c.isAlphanum || c = '-' || c = '_'

def readPart : List Char → Option (String × List Char)
  | '"' :: rest => readBasic (rest.length + 1) [] rest
  | '\'' :: rest => readLiteral rest
  | text =>
    match text.span isBare with
    | ([], _) => none
    | (name, rest) => some (String.ofList name, rest)

def readParts : (fuel : Nat) → (done : List String) → List Char → Option (List String × List Char)
  | 0, _, _ => none
  | fuel + 1, done, text =>
    match readPart (skipBlanks text) with
    | none => none
    | some (name, rest) =>
      match skipBlanks rest with
      | '.' :: rest => readParts fuel (name :: done) rest
      | rest => some (name :: done, rest)

def depthLimit : Nat := 80

def readKey (text : List Char) : Option ((List String × String) × List Char) :=
  match readParts (text.length + 1) [] text with
  | some (last :: before, rest) =>
    if before.length + 1 < depthLimit then some ((before.reverse, last), rest) else none
  | _ => none

/-! Numbers, truth values and dates, which are only checked. -/

def isDigit (c : Char) : Bool := c.isDigit

def isGrouped (isDigit : Char → Bool) : List Char → Bool
  | [] => false
  | [c] => isDigit c
  | c :: '_' :: rest => isDigit c && isGrouped isDigit rest
  | c :: rest => isDigit c && isGrouped isDigit rest

def numberIn (base : Nat) (digits : List Char) : Nat :=
  digits.foldl (fun n c => match hexValue? c with
    | some value => base * n + value
    | none => n) 0

def isDecimal (text : List Char) : Bool :=
  text = ['0'] || (text.head? ≠ some '0' && isGrouped isDigit text)

def dropSign : List Char → Bool × List Char
  | '-' :: rest => (true, rest)
  | '+' :: rest => (false, rest)
  | text => (false, text)

def isInteger (token : List Char) : Bool :=
  match token with
  | '0' :: 'x' :: digits => isGrouped (fun c => (hexValue? c).isSome) digits && numberIn 16 digits < Nat.pow 2 63
  | '0' :: 'o' :: digits => isGrouped (fun c => '0' ≤ c ∧ c ≤ '7') digits && numberIn 8 digits < Nat.pow 2 63
  | '0' :: 'b' :: digits => isGrouped (fun c => c = '0' ∨ c = '1') digits && numberIn 2 digits < Nat.pow 2 63
  | _ =>
    let (negative, digits) := dropSign token
    isDecimal digits && numberIn 10 digits < Nat.pow 2 63 + negative.toNat

/-- The least number that rounds to more than the largest double. -/
def beyondDoubles : Nat := Nat.pow 2 1024 - Nat.pow 2 970

def isTooLarge (digits : List Char) (places : Nat) (negative : Bool) (exponent : List Char) : Bool :=
  let value := numberIn 10 digits
  let power := numberIn 10 exponent
  if value = 0 then false
  else if negative then power < digits.length && value ≥ beyondDoubles * Nat.pow 10 (places + power)
  else if power > places + 400 then true
  else value * Nat.pow 10 power ≥ beyondDoubles * Nat.pow 10 places

def isFloat (token : List Char) : Bool :=
  let (minus, body) := dropSign token
  if body = ['i', 'n', 'f'] ∨ body = ['n', 'a', 'n'] then true
  else
    let (whole, rest) := body.span fun c => isDigit c ∨ c = '_'
    let (fraction, rest) := match rest with
      | '.' :: rest => let (digits, rest) := rest.span (fun c => isDigit c ∨ c = '_'); (some digits, rest)
      | _ => (none, rest)
    let (exponent, rest) := match rest with
      | e :: rest => if e = 'e' ∨ e = 'E' then (some (dropSign rest), []) else (none, e :: rest)
      | [] => (none, [])
    let places := ((fraction.getD []).filter isDigit).length
    rest.isEmpty && isDecimal whole && (fraction.isSome || exponent.isSome) &&
      (match fraction with
        | some digits => isGrouped isDigit digits
        | none => true) &&
      (match exponent with
        | some (_, digits) => isGrouped isDigit digits
        | none => true) &&
      (minus || !isTooLarge (whole ++ fraction.getD []) places
        ((exponent.map (·.1)).getD false) ((exponent.map (·.2)).getD []))

def twoDigits? (largest : Nat) : List Char → Option (Nat × List Char)
  | a :: b :: rest =>
    let n := numberIn 10 [a, b]
    if isDigit a ∧ isDigit b ∧ n ≤ largest then some (n, rest) else none
  | _ => none

def after? (c : Char) : List Char → Option (List Char)
  | d :: rest => if d = c then some rest else none
  | [] => none

def daysIn (year month : Nat) : Nat :=
  if month = 2 then (if year % 4 = 0 ∧ (year % 100 ≠ 0 ∨ year % 400 = 0) then 29 else 28)
  else if month = 4 ∨ month = 6 ∨ month = 9 ∨ month = 11 then 30 else 31

def afterDate? (text : List Char) : Option (List Char) := do
  let year := text.take 4
  if year.length < 4 ∨ !year.all isDigit then none
  else
    let text ← after? '-' (text.drop 4)
    let (month, text) ← twoDigits? 12 text
    let text ← after? '-' text
    let (day, text) ← twoDigits? 31 text
    if month = 0 ∨ day = 0 ∨ day > daysIn (numberIn 10 year) month then none else some text

def afterTime? (text : List Char) : Option (List Char) := do
  let (_, text) ← twoDigits? 23 text
  let (_, text) ← twoDigits? 59 (← after? ':' text)
  let (_, text) ← twoDigits? 60 (← after? ':' text)
  match text with
  | '.' :: rest =>
    match rest.span isDigit with
    | ([], _) => none
    | (_, rest) => some rest
  | rest => some rest

def isOffset : List Char → Bool
  | [] => true
  | ['Z'] => true
  | ['z'] => true
  | c :: rest =>
    (c = '+' ∨ c = '-') && ((twoDigits? 23 rest).bind fun (_, rest) =>
      (after? ':' rest).bind (twoDigits? 59)).any (·.2.isEmpty)

def isDateTime (token : List Char) : Bool :=
  match afterDate? token with
  | some [] => true
  | some (c :: rest) => (c = 'T' ∨ c = 't' ∨ c = ' ') && (afterTime? rest).any isOffset
  | none => afterTime? token = some []

def isTokenChar (c : Char) : Bool :=
  c.isAlphanum || c = '+' || c = '-' || c = '_' || c = '.' || c = ':'

def readToken (text : List Char) : List Char × List Char :=
  let (token, rest) := text.span isTokenChar
  match rest with
  | ' ' :: c :: _ =>
    if afterDate? token = some [] ∧ isDigit c then
      let (time, rest) := (rest.drop 1).span isTokenChar
      (token ++ ' ' :: time, rest)
    else (token, rest)
  | _ => (token, rest)

def isScalar (token : List Char) : Bool :=
  token = ['t', 'r', 'u', 'e'] || token = ['f', 'a', 'l', 's', 'e'] || isInteger token || isFloat token ||
  isDateTime token

mutual

/-- A value inside `depth` lists and inline tables. Every second step takes a character. -/
def readValue : (fuel depth : Nat) → List Char → Option (Item × List Char)
  | 0, _, _ => none
  | fuel + 1, depth, text =>
    match text with
    | '[' :: rest =>
      if depth + 1 < depthLimit then
        match readItems fuel (depth + 1) [] (skipSpace rest) with
        | some (items, rest) => some (.list items, rest)
        | none => none
      else none
    | '\x7b' :: rest =>
      if depth + 1 < depthLimit then
        match skipBlanks rest with
        | '\x7d' :: rest => some (.inline [], rest)
        | rest =>
          match readPairs fuel (depth + 1) [] rest with
          | some (entries, rest) => some (.inline entries, rest)
          | none => none
      else none
    | c :: _ =>
      if c = '"' ∨ c = '\'' then
        match readText text with
        | some (value, rest) => some (.text value, rest)
        | none => none
      else
        let (token, rest) := readToken text
        if isScalar token then some (.scalar, rest) else none
    | [] => none

def readItems : (fuel depth : Nat) → (done : List Item) → List Char → Option (List Item × List Char)
  | 0, _, _, _ => none
  | fuel + 1, depth, done, text =>
    match text with
    | ']' :: rest => some (done.reverse, rest)
    | _ =>
      match readValue fuel depth text with
      | none => none
      | some (item, rest) =>
        match skipSpace rest with
        | ',' :: rest => readItems fuel depth (item :: done) (skipSpace rest)
        | ']' :: rest => some ((item :: done).reverse, rest)
        | _ => none

def readPairs : (fuel depth : Nat) → (done : Entries) → List Char → Option (Entries × List Char)
  | 0, _, _, _ => none
  | fuel + 1, depth, done, text =>
    match readKey text with
    | none => none
    | some ((path, key), rest) =>
      match rest with
      | '=' :: rest =>
        match readValue fuel depth (skipBlanks rest) with
        | none => none
        | some (item, rest) =>
          match addValue path key item .header done with
          | none => none
          | some entries =>
            match skipBlanks rest with
            | ',' :: rest => readPairs fuel depth entries rest
            | '\x7d' :: rest => some (entries, rest)
            | _ => none
      | _ => none

end

def readDocument : (fuel : Nat) → (current : List String) → (root : Entries) → List Char → Option Entries
  | 0, _, _, _ => none
  | fuel + 1, current, root, text =>
    match skipBlanks text with
    | [] => some root
    | '#' :: rest => (restOfLine? ('#' :: rest)).bind (readDocument fuel current root)
    | '[' :: '[' :: rest => do
      let ((path, key), rest) ← readKey rest
      let rest ← after? ']' rest >>= after? ']' >>= restOfLine?
      let root ← openListed path key root
      readDocument fuel (path ++ [key]) root rest
    | '[' :: rest => do
      let ((path, key), rest) ← readKey rest
      let rest ← after? ']' rest >>= restOfLine?
      let root ← openTable path key root
      readDocument fuel (path ++ [key]) root rest
    | c :: rest =>
      if c = '\n' ∨ c = '\r' then (lineEnd? (c :: rest)).bind (readDocument fuel current root)
      else do
        let ((path, key), rest) ← readKey (c :: rest)
        let rest ← after? '=' rest
        let (item, rest) ← readValue (2 * rest.length + 2) 0 (skipBlanks rest)
        let rest ← restOfLine? rest
        let root ← changeAt false (addValue path key item) current .header root
        readDocument fuel current root rest

def read (text : String) : Option Entries :=
  let chars := match text.toList with
    | '\uFEFF' :: rest => rest
    | chars => chars
  readDocument (chars.length + 1) [] [] chars

end WalletVault.Toml
