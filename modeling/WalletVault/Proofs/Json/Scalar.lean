import Mathlib.Data.List.TakeDrop
import WalletVault.Json.Scalar
import WalletVault.Json.Value
import WalletVault.Proofs.Text.Utf8

/-! Written scalars are read back: texts over all their escapes, numbers below 2³², and truth values.
What follows a value is left for the next reader. -/
namespace WalletVault.Json

def Follows (rest : Bytes) : Prop := ∀ b ∈ rest.head?, b = 44 ∨ b = 93 ∨ b = 125

/-- A reader takes the written form of a value off the front, whatever follows it. The form starts with a
byte that no list takes for its end and no optional value for `null`. -/
structure Reads {α : Type} (reader : Reader α) (written : Bytes) (value : α) : Prop where
  starts : ∃ b rest, written = b :: rest ∧ isBlank b = false ∧ b ≠ 93 ∧ b ≠ 110
  reads : ∀ rest, Follows rest → reader (written ++ rest) = .ok (value, rest)

theorem letterRead {letter byte : UInt8} (known : escaped? letter = some byte) (done rest : Bytes) :
    readTextBytes done (backslash :: letter :: rest) = readTextBytes (byte :: done) rest := by
  have notUnit : letter ≠ 117 := by
    intro same
    simp [same, escaped?] at known
  rw [readTextBytes.eq_def]
  simp [backslash, known, notUnit]

theorem controlTable : ∀ n : Fin 32,
    codeUnit? 48 48 (hexDigit (UInt8.ofNat n >>> 4)) (hexDigit (UInt8.ofNat n &&& 15)) = some n.val ∧
      isLowSurrogate n = false ∧ isHighSurrogate n = false ∧ Utf8.codePoint n = [UInt8.ofNat n] := by
  decide

theorem controlRead {b : UInt8} (control : b < 32) (done rest : Bytes) :
    readTextBytes done ([backslash, 117, 48, 48, hexDigit (b >>> 4), hexDigit (b &&& 15)] ++ rest) =
      readTextBytes (b :: done) rest := by
  obtain ⟨unit, low, high, point⟩ := controlTable ⟨b.toNat, UInt8.lt_iff_toNat_lt.mp control⟩
  simp only [UInt8.ofNat_toNat] at unit low high point
  rw [readTextBytes.eq_def]
  simp [backslash, unit, low, high, point]

theorem plainRead {b : UInt8} (notQuote : b ≠ quote) (notBackslash : b ≠ backslash) (notControl : ¬b < 32)
    (done rest : Bytes) : readTextBytes done (b :: rest) = readTextBytes (b :: done) rest := by
  rw [readTextBytes.eq_def]
  simp only [quote, backslash] at notQuote notBackslash
  simp only [if_neg notQuote, if_neg notBackslash, if_neg notControl]

theorem closingRead (done rest : Bytes) : readTextBytes done (quote :: rest) = .ok (done.reverse, rest) := by
  rw [readTextBytes.eq_def]
  simp [quote]

theorem escapeRead (done : Bytes) (b : UInt8) (rest : Bytes) :
    readTextBytes done (escape b ++ rest) = readTextBytes (b :: done) rest := by
  unfold escape
  split
  · subst b; exact letterRead (by decide) done rest
  split
  · subst b; exact letterRead (by decide) done rest
  split
  · subst b; exact letterRead (by decide) done rest
  split
  · subst b; exact letterRead (by decide) done rest
  split
  · subst b; exact letterRead (by decide) done rest
  split
  · subst b; exact letterRead (by decide) done rest
  split
  · subst b; exact letterRead (by decide) done rest
  split
  · exact controlRead (by assumption) done rest
  · exact plainRead (by assumption) (by assumption) (by assumption) done rest

theorem bytesRead (done bytes rest : Bytes) :
    readTextBytes done (bytes.flatMap escape ++ quote :: rest) = .ok (done.reverse ++ bytes, rest) := by
  induction bytes generalizing done with
  | nil => simp [closingRead]
  | cons b tail ih => simp [List.append_assoc, escapeRead, ih]

theorem textTailRead (text : String) (rest : Bytes) :
    readTextTail ((Utf8.encode text).flatMap escape ++ quote :: rest) = .ok (text, rest) := by
  simp [readTextTail, bytesRead, Utf8.decodeEncoded]

theorem textRead (text : String) : Reads readText (writeText text) text where
  starts := ⟨quote, _, rfl, by decide, by decide, by decide⟩
  reads rest _ := by
    have tail := textTailRead text rest
    simpa [writeText, readText, skipBlanks, isBlank, quote] using tail

theorem digitTable : ∀ n : Fin 10, UInt8.ofNat (Nat.digitChar n).toNat = UInt8.ofNat (48 + n) ∧
    isDigit (UInt8.ofNat (48 + n)) = true ∧ (UInt8.ofNat (48 + n)).toNat - 48 = n := by
  decide

theorem numberSmall {n : Nat} (small : n < 10) : writeNumber n = [UInt8.ofNat (48 + n)] := by
  simp only [writeNumber, Nat.toDigits_of_lt_base small, List.map_cons, List.map_nil,
    (digitTable ⟨n, small⟩).1]

theorem numberLarge {n : Nat} (large : 10 ≤ n) :
    writeNumber n = writeNumber (n / 10) ++ [UInt8.ofNat (48 + n % 10)] := by
  have last := (digitTable ⟨n % 10, Nat.mod_lt n (by decide)⟩).1
  simp only [writeNumber, Nat.toDigits_of_base_le (by decide) large, List.map_append, List.map_cons,
    List.map_nil, last]

theorem numberDigits (n : Nat) : ∀ b ∈ writeNumber n, isDigit b = true := by
  induction n using Nat.strongRecOn with
  | ind n ih =>
    rcases Nat.lt_or_ge n 10 with small | large
    · simp only [numberSmall small, List.mem_singleton, forall_eq]
      exact (digitTable ⟨n, small⟩).2.1
    · intro b member
      rw [numberLarge large] at member
      rcases List.mem_append.mp member with front | last
      · exact ih (n / 10) (by omega) b front
      · rw [List.mem_singleton.mp last]
        exact (digitTable ⟨n % 10, Nat.mod_lt n (by decide)⟩).2.1

theorem leadingTable : ∀ n : Fin 10, n ≠ 0 → UInt8.ofNat (48 + n) ≠ 48 := by
  decide

theorem numberLeading {n : Nat} (positive : 0 < n) : ∃ d rest, writeNumber n = d :: rest ∧ d ≠ 48 := by
  induction n using Nat.strongRecOn with
  | ind n ih =>
    rcases Nat.lt_or_ge n 10 with small | large
    · exact ⟨_, [], numberSmall small, leadingTable ⟨n, small⟩ (by simp [Fin.ext_iff]; omega)⟩
    · obtain ⟨d, rest, front, notZero⟩ := ih (n / 10) (by omega) (by omega)
      exact ⟨d, rest ++ [UInt8.ofNat (48 + n % 10)], by rw [numberLarge large, front]; rfl, notZero⟩

theorem appendDigitsSnoc {value joined : Nat} {digits : Bytes} {d : UInt8}
    (front : appendDigits value digits = (joined, 0))
    (small : 10 * joined + (d.toNat - 48) < Nat.pow 2 64) :
    appendDigits value (digits ++ [d]) = (10 * joined + (d.toNat - 48), 0) := by
  induction digits generalizing value with
  | nil =>
    cases front
    simp only [List.nil_append, appendDigits, if_pos small]
  | cons c rest ih =>
    rw [appendDigits] at front
    split at front
    · rename_i next
      simp only [List.cons_append, appendDigits, if_pos next]
      exact ih front
    · simp at front

theorem numberValue {n : Nat} (small : n < Nat.pow 2 64) : appendDigits 0 (writeNumber n) = (n, 0) := by
  induction n using Nat.strongRecOn with
  | ind n ih =>
    rcases Nat.lt_or_ge n 10 with digit | large
    · have value := (digitTable ⟨n, digit⟩).2.2
      simp only [numberSmall digit, appendDigits, value, Nat.mul_zero, Nat.zero_add, if_pos small]
    · have value := (digitTable ⟨n % 10, Nat.mod_lt n (by decide)⟩).2.2
      have joined : 10 * (n / 10) + n % 10 = n := Nat.div_add_mod n 10
      have front := ih (n / 10) (by omega) (by omega)
      rw [numberLarge large, appendDigitsSnoc front (by rw [value, joined]; exact small), value, joined]

theorem roundSmall {n : Nat} (small : n < Nat.pow 2 53) : roundToDouble n = n := by
  have bits : n.log2 < 53 := by
    rcases Nat.eq_zero_or_pos n with rfl | positive
    · decide
    · exact (Nat.log2_lt (by omega)).mpr small
  have unit : n.log2 + 1 - 53 = 0 := by omega
  simp [roundToDouble, unit, Nat.mod_one]

theorem withinDoubles {n : Nat} (small : n < Nat.pow 2 32) : beyondDouble n 0 = false := by
  have rounded : roundToDouble n = n := roundSmall (Nat.lt_trans small (by decide))
  have one : roundToDouble (Nat.pow 10 0) = 1 := roundSmall (n := 1) (by decide)
  have limit : n < Nat.pow 2 1024 - Nat.pow 2 970 := Nat.lt_trans small (by decide +kernel)
  have within : ¬(n ≠ 0 ∧ ((0 : Int) > 308 ∨ ((0 : Int) ≥ 0 ∧
      roundToDouble n * roundToDouble (Nat.pow 10 (0 : Int).toNat) ≥ Nat.pow 2 1024 - Nat.pow 2 970))) := by
    rintro ⟨_, large | ⟨_, beyond⟩⟩
    · exact absurd large (by decide)
    · rw [rounded, Int.toNat_zero, one, Nat.mul_one] at beyond
      exact Nat.not_le_of_lt limit beyond
  exact decide_eq_false within

def plainNumeral (n : Nat) : Numeral := ⟨false, writeNumber n, [], none⟩

theorem numeralInRange {n : Nat} (small : n < Nat.pow 2 32) (rest : Bytes) :
    (plainNumeral n).fault? rest = none := by
  have value := numberValue (Nat.lt_trans small (by decide : Nat.pow 2 32 < Nat.pow 2 64))
  simp [Numeral.fault?, plainNumeral, Numeral.significand, value, appendDigits, withinDoubles small]

theorem followsNoDigit {rest : Bytes} (follows : Follows rest) : ∀ b ∈ rest.head?,
    isDigit b = false ∧ b ≠ 46 ∧ b ≠ 101 ∧ b ≠ 69 := by
  intro b head
  rcases follows b head with rfl | rfl | rfl <;> decide

theorem fractionAbsent (numeral : Numeral) {rest : Bytes} (follows : Follows rest) :
    readFraction numeral rest = .ok (numeral, rest) := by
  cases rest with
  | nil => rfl
  | cons b tail =>
    obtain ⟨_, noPoint, noSmall, noLarge⟩ := followsNoDigit follows b rfl
    simp [readFraction, readExponent, noPoint, noSmall, noLarge]

theorem spanDigits {digits rest : Bytes} (all : ∀ b ∈ digits, isDigit b = true) (follows : Follows rest) :
    (digits ++ rest).span isDigit = (digits, rest) := by
  rw [List.span_eq_takeWhile_dropWhile, List.takeWhile_append_of_pos all, List.dropWhile_append_of_pos all]
  cases rest with
  | nil => simp
  | cons b tail => simp [(followsNoDigit follows b rfl).1]

theorem numeralRead (n : Nat) {rest : Bytes} (follows : Follows rest) :
    readNumeral (writeNumber n ++ rest) = .ok (plainNumeral n, rest) := by
  rcases Nat.eq_zero_or_pos n with rfl | positive
  · have zero : writeNumber 0 = [48] := numberSmall (by decide)
    have fraction := fractionAbsent ⟨false, [48], [], none⟩ follows
    cases rest with
    | nil => rfl
    | cons b tail =>
      simp [readNumeral, readMagnitude, plainNumeral, zero, (followsNoDigit follows b rfl).1, fraction]
  · obtain ⟨d, tail, written, notZero⟩ := numberLeading positive
    have digits := numberDigits n
    rw [written] at digits
    have digit : isDigit d = true := digits d (by simp)
    have notMinus : d ≠ 45 := by
      rintro rfl
      exact absurd digit (by decide)
    have span := spanDigits (fun b member => digits b (List.mem_cons_of_mem _ member)) follows
    simp only [written, List.cons_append, readNumeral, if_neg notMinus, readMagnitude, if_neg notZero,
      digit, if_true, span, fractionAbsent _ follows, plainNumeral]

theorem numberStart (n : Nat) : ∃ d rest, writeNumber n = d :: rest ∧ isDigit d = true := by
  have digits := numberDigits n
  cases written : writeNumber n with
  | nil => simp [writeNumber, Nat.toDigits_ne_nil] at written
  | cons d rest => exact ⟨d, rest, rfl, digits d (by simp [written])⟩

theorem digitStarts {d : UInt8} (digit : isDigit d = true) : isBlank d = false ∧ d ≠ 93 ∧ d ≠ 110 := by
  simp only [isDigit, decide_eq_true_eq, UInt8.le_iff_toNat_le] at digit
  have low : 48 ≤ d.toNat := digit.1
  have high : d.toNat ≤ 57 := digit.2
  have blank : isBlank d = false := by
    simp only [isBlank, Bool.or_eq_false_iff, decide_eq_false_iff_not]
    refine ⟨⟨⟨?_, ?_⟩, ?_⟩, ?_⟩ <;> rintro rfl <;> exact absurd low (by decide)
  refine ⟨blank, ?_, ?_⟩ <;> rintro rfl <;> exact absurd high (by decide)

theorem doubleRead {n : Nat} (small : n < Nat.pow 2 32) {rest : Bytes} (follows : Follows rest) :
    readDouble (writeNumber n ++ rest) = .ok (plainNumeral n, rest) := by
  simp only [readDouble, numeralRead n follows, bind, Except.bind, numeralInRange small]
  rfl

theorem numberRead (n : UInt32) : Reads readWord32 (writeNumber n.toNat) n := by
  obtain ⟨d, tail, written, digit⟩ := numberStart n.toNat
  have starts := digitStarts digit
  refine ⟨⟨d, tail, written, starts⟩, fun rest follows => ?_⟩
  have small : n.toNat < Nat.pow 2 32 := n.toNat_lt
  have double := doubleRead small follows
  have natural : (plainNumeral n.toNat).natural? = some n.toNat := by
    simp only [Numeral.natural?, plainNumeral,
      numberValue (Nat.lt_trans small (by decide : Nat.pow 2 32 < Nat.pow 2 64))]
  rw [written, List.cons_append] at double ⊢
  rw [readWord32, skipBlanks, List.dropWhile_cons_of_neg (by simp [starts.1])]
  simp only [digit, or_true, if_true, double, natural, if_pos small, UInt32.ofNat_toNat]

theorem flagRead (value : Bool) : Reads readFlag (compact (.flag value)) value := by
  cases value with
  | true => exact ⟨⟨116, trueTail, rfl, by decide, by decide, by decide⟩, fun _ _ => rfl⟩
  | false => exact ⟨⟨102, falseTail, rfl, by decide, by decide, by decide⟩, fun _ _ => rfl⟩

theorem optionalRead {α : Type} {reader : Reader α} {written : Bytes} {value : α}
    (present : Reads reader written value) : Reads (readOptional reader) written (some value) := by
  obtain ⟨b, tail, rfl, blank, notEnd, notNull⟩ := present.starts
  refine ⟨⟨b, tail, rfl, blank, notEnd, notNull⟩, fun rest follows => ?_⟩
  have read := present.reads rest follows
  rw [List.cons_append] at read ⊢
  rw [readOptional, skipBlanks, List.dropWhile_cons_of_neg (by simp [blank])]
  simp only [if_neg notNull, read]
  rfl

end WalletVault.Json
