import Mathlib.Data.List.DropRight
import WalletVault.Proofs.Json.Record

/-! The grammar of documents: which bytes spell which tree. A tree keeps every scalar and every name as it is
written, and leaves out the blanks between the tokens. -/
namespace WalletVault.Json

/- What stands between the quotes of a text: no control byte, and a backslash only before a known letter or
before `u` and four digits. -/
inductive TextBody : Bytes → Prop where
  | done : TextBody []
  | plain {b : UInt8} {rest : Bytes} (notQuote : b ≠ 34) (notBackslash : b ≠ 92) (notControl : ¬ b < 32)
      (tail : TextBody rest) : TextBody (b :: rest)
  | letter {e : UInt8} {rest : Bytes} (known : (escaped? e).isSome) (tail : TextBody rest) :
      TextBody (92 :: e :: rest)
  | unit {p q r s : UInt8} {rest : Bytes} (digits : (codeUnit? p q r s).isSome) (tail : TextBody rest) :
      TextBody (92 :: 117 :: p :: q :: r :: s :: rest)

def Plain (bytes : Bytes) : Prop := ∀ b ∈ bytes, b ≠ 34 ∧ b ≠ 92 ∧ ¬ b < 32

instance (bytes : Bytes) : Decidable (Plain bytes) := inferInstanceAs (Decidable (∀ b ∈ bytes, _))

theorem plainBody {body : Bytes} (plain : Plain body) : TextBody body := by
  induction body with
  | nil => exact .done
  | cons b body ih =>
    obtain ⟨⟨notQuote, notBackslash, notControl⟩, tail⟩ := List.forall_mem_cons.mp plain
    exact .plain notQuote notBackslash notControl (ih tail)

def Digits (digits : Bytes) : Prop := digits ≠ [] ∧ ∀ d ∈ digits, isDigit d = true

def WholeText (digits : Bytes) : Prop :=
  digits = [48] ∨ ∃ d rest, digits = d :: rest ∧ d ≠ 48 ∧ ∀ b ∈ d :: rest, isDigit b = true

inductive FractionText : (digits raw : Bytes) → Prop where
  | none : FractionText [] []
  | point {digits : Bytes} (written : Digits digits) : FractionText digits (46 :: digits)

inductive SignText : (negative : Bool) → (raw : Bytes) → Prop where
  | none : SignText false []
  | plus : SignText false [43]
  | minus : SignText true [45]

inductive ExponentText : Option (Bool × Bytes) → (raw : Bytes) → Prop where
  | none : ExponentText none []
  | power {e : UInt8} {negative : Bool} {sign digits : Bytes} (letter : e = 101 ∨ e = 69)
      (signed : SignText negative sign) (written : Digits digits) :
      ExponentText (some (negative, digits)) (e :: (sign ++ digits))

inductive NumeralText : Numeral → (raw : Bytes) → Prop where
  | written {negative : Bool} {whole digits fraction power : Bytes} {exponent : Option (Bool × Bytes)}
      (front : WholeText whole) (middle : FractionText digits fraction) (back : ExponentText exponent power) :
      NumeralText ⟨negative, whole, digits, exponent⟩
        ((if negative then [45] else []) ++ (whole ++ (fraction ++ power)))

inductive ScalarText : (raw : Bytes) → Prop where
  | null : ScalarText (110 :: nullTail)
  | yes : ScalarText (116 :: trueTail)
  | no : ScalarText (102 :: falseTail)
  | number {numeral : Numeral} {raw : Bytes} (written : NumeralText numeral raw) : ScalarText raw
  | text {body : Bytes} (written : TextBody body) : ScalarText (34 :: (body ++ [34]))

inductive Tree where
  | scalar (raw : Bytes)
  | list (items : List Tree)
  | object (members : List (Bytes × Tree))

/- What is spelled: a value; a member of an object; the items of a list or the members of an object up to the
closing bracket, from the first one on or after another. -/
inductive Part where
  | value (tree : Tree)
  | member (name : Bytes) (tree : Tree)
  | items (first : Bool) (trees : List Tree)
  | members (first : Bool) (entries : List (Bytes × Tree))

/-- The front of a text spells a part, and the rest is left. Blanks may stand before every token. -/
inductive Spells : Part → (text rest : Bytes) → Prop where
  | scalar {text raw rest : Bytes} (written : ScalarText raw) (token : skipBlanks text = raw ++ rest) :
      Spells (.value (.scalar raw)) text rest
  | list {text inner rest : Bytes} {trees : List Tree} (token : skipBlanks text = 91 :: inner)
      (items : Spells (.items true trees) inner rest) : Spells (.value (.list trees)) text rest
  | object {text inner rest : Bytes} {entries : List (Bytes × Tree)} (token : skipBlanks text = 123 :: inner)
      (members : Spells (.members true entries) inner rest) : Spells (.value (.object entries)) text rest
  | lastItem {text rest : Bytes} {first : Bool} (token : skipBlanks text = 93 :: rest) :
      Spells (.items first []) text rest
  | firstItem {text middle rest : Bytes} {tree : Tree} {trees : List Tree} (item : Spells (.value tree) text middle)
      (later : Spells (.items false trees) middle rest) : Spells (.items true (tree :: trees)) text rest
  | nextItem {text next middle rest : Bytes} {tree : Tree} {trees : List Tree} (token : skipBlanks text = 44 :: next)
      (item : Spells (.value tree) next middle) (later : Spells (.items false trees) middle rest) :
      Spells (.items false (tree :: trees)) text rest
  | member {text name after value rest : Bytes} {tree : Tree} (written : TextBody name)
      (token : skipBlanks text = 34 :: (name ++ 34 :: after)) (colon : skipBlanks after = 58 :: value)
      (spelled : Spells (.value tree) value rest) : Spells (.member name tree) text rest
  | lastMember {text rest : Bytes} {first : Bool} (token : skipBlanks text = 125 :: rest) :
      Spells (.members first []) text rest
  | firstMember {text middle rest name : Bytes} {tree : Tree} {entries : List (Bytes × Tree)}
      (member : Spells (.member name tree) text middle) (later : Spells (.members false entries) middle rest) :
      Spells (.members true ((name, tree) :: entries)) text rest
  | nextMember {text next middle rest name : Bytes} {tree : Tree} {entries : List (Bytes × Tree)}
      (token : skipBlanks text = 44 :: next) (member : Spells (.member name tree) next middle)
      (later : Spells (.members false entries) middle rest) :
      Spells (.members false ((name, tree) :: entries)) text rest

def Spelled (tree : Tree) (document : Bytes) : Prop :=
  ∃ rest, Spells (.value tree) document rest ∧ skipBlanks rest = []

/-! Items and members, whether they are the first or come after others. -/

def Starts (first : Bool) (text entry : Bytes) : Prop := if first then entry = text else skipBlanks text = 44 :: entry

theorem spellsNoItems {first : Bool} {text rest : Bytes} :
    Spells (.items first []) text rest ↔ skipBlanks text = 93 :: rest := by
  constructor
  · intro spelled
    cases spelled with
    | lastItem token => exact token
  · exact .lastItem

theorem spellsItems {first : Bool} {tree : Tree} {trees : List Tree} {text rest : Bytes} :
    Spells (.items first (tree :: trees)) text rest ↔ ∃ entry middle, Starts first text entry ∧
      Spells (.value tree) entry middle ∧ Spells (.items false trees) middle rest := by
  constructor
  · intro spelled
    cases spelled with
    | firstItem item later => exact ⟨text, _, rfl, item, later⟩
    | nextItem token item later => exact ⟨_, _, token, item, later⟩
  · rintro ⟨entry, middle, starts, item, later⟩
    cases first with
    | true => cases starts; exact .firstItem item later
    | false => exact .nextItem starts item later

theorem spellsNoMembers {first : Bool} {text rest : Bytes} :
    Spells (.members first []) text rest ↔ skipBlanks text = 125 :: rest := by
  constructor
  · intro spelled
    cases spelled with
    | lastMember token => exact token
  · exact .lastMember

theorem spellsMembers {first : Bool} {name : Bytes} {tree : Tree} {entries : List (Bytes × Tree)} {text rest : Bytes} :
    Spells (.members first ((name, tree) :: entries)) text rest ↔ ∃ entry middle, Starts first text entry ∧
      Spells (.member name tree) entry middle ∧ Spells (.members false entries) middle rest := by
  constructor
  · intro spelled
    cases spelled with
    | firstMember member later => exact ⟨text, _, rfl, member, later⟩
    | nextMember token member later => exact ⟨_, _, token, member, later⟩
  · rintro ⟨entry, middle, starts, member, later⟩
    cases first with
    | true => cases starts; exact .firstMember member later
    | false => exact .nextMember starts member later

def Delimited (rest : Bytes) : Prop := ∀ b ∈ rest.head?, isBlank b = true ∨ b = 44 ∨ b = 93 ∨ b = 125

theorem skipBlanksTwice (bytes : Bytes) : skipBlanks (skipBlanks bytes) = skipBlanks bytes :=
  List.dropWhile_idempotent _ _

theorem skipBlanksLength (bytes : Bytes) : (skipBlanks bytes).length ≤ bytes.length :=
  (List.dropWhile_sublist isBlank).length_le

theorem delimitedSkip {rest after : Bytes} {b : UInt8} (skipped : skipBlanks rest = b :: after)
    (closes : b = 44 ∨ b = 93 ∨ b = 125) : Delimited rest := by
  cases rest with
  | nil => cases skipped
  | cons c tail =>
    intro d head
    cases head
    by_cases blank : isBlank c = true
    · exact Or.inl blank
    · rw [skipBlanks, List.dropWhile_cons_of_neg (by simpa using blank)] at skipped
      cases skipped
      exact Or.inr closes

theorem delimitedEnd {rest : Bytes} (skipped : skipBlanks rest = []) : Delimited rest := by
  cases rest with
  | nil => simp [Delimited]
  | cons c tail =>
    intro d head
    cases head
    exact Or.inl (List.dropWhile_eq_nil_iff.mp skipped c List.mem_cons_self)

theorem Spells.delimitedItems {trees : List Tree} {text rest : Bytes}
    (spelled : Spells (.items false trees) text rest) : Delimited text := by
  cases spelled with
  | lastItem token => exact delimitedSkip token (Or.inr (Or.inl rfl))
  | nextItem token _ _ => exact delimitedSkip token (Or.inl rfl)

theorem Spells.delimitedMembers {entries : List (Bytes × Tree)} {text rest : Bytes}
    (spelled : Spells (.members false entries) text rest) : Delimited text := by
  cases spelled with
  | lastMember token => exact delimitedSkip token (Or.inr (Or.inr rfl))
  | nextMember token _ _ => exact delimitedSkip token (Or.inl rfl)

end WalletVault.Json
