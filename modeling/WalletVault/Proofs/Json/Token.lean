import WalletVault.Proofs.Fallible
import WalletVault.Proofs.Json.Syntax

/-! The readers of tokens against the grammar: what the grammar calls a numeral or a text is read to its end,
and whatever is read was one. -/
namespace WalletVault.Json
open Fallible

theorem delimitedPlain {rest : Bytes} (delimited : Delimited rest) : ∀ b ∈ rest.head?,
    isDigit b = false ∧ b ≠ 46 ∧ b ≠ 101 ∧ b ≠ 69 := by
  intro b head
  rcases delimited b head with blank | rfl | rfl | rfl
  · simp only [isBlank, Bool.or_eq_true, decide_eq_true_eq] at blank
    rcases blank with ((rfl | rfl) | rfl) | rfl <;> decide
  all_goals decide

theorem digitSign {d : UInt8} (digit : isDigit d = true) : d ≠ 45 ∧ d ≠ 43 ∧ d ≠ 46 ∧ d ≠ 101 ∧ d ≠ 69 := by
  refine ⟨?_, ?_, ?_, ?_, ?_⟩ <;> rintro rfl <;> exact absurd digit (by decide)

theorem spanAll {digits rest : Bytes} (all : ∀ d ∈ digits, isDigit d = true)
    (apart : ∀ b ∈ rest.head?, isDigit b = false) : (digits ++ rest).span isDigit = (digits, rest) := by
  rw [List.span_eq_takeWhile_dropWhile, List.takeWhile_append_of_pos all, List.dropWhile_append_of_pos all]
  cases rest with
  | nil => simp
  | cons b tail => simp [apart b rfl]

theorem spanSource {bytes digits rest : Bytes} (spanned : bytes.span isDigit = (digits, rest)) :
    bytes = digits ++ rest ∧ ∀ d ∈ digits, isDigit d = true := by
  rw [List.span_eq_takeWhile_dropWhile] at spanned
  cases spanned
  exact ⟨List.takeWhile_append_dropWhile.symm, fun d member => List.mem_takeWhile_imp member⟩

theorem spanDigit {d : UInt8} {tail digits rest : Bytes} (digit : isDigit d = true)
    (spanned : (d :: tail).span isDigit = (digits, rest)) : d :: tail = digits ++ rest ∧ Digits digits := by
  obtain ⟨split, all⟩ := spanSource spanned
  refine ⟨split, ?_, all⟩
  rintro rfl
  rw [List.span_eq_takeWhile_dropWhile, List.takeWhile_cons_of_pos digit] at spanned
  cases spanned

section Numeral
variable {negative : Bool} {whole digits : Bytes} {exponent : Option (Bool × Bytes)} {raw rest : Bytes}

theorem exponentForward (written : ExponentText exponent raw) (delimited : Delimited rest) :
    readExponent ⟨negative, whole, digits, none⟩ (raw ++ rest) =
      .ok (⟨negative, whole, digits, exponent⟩, rest) := by
  cases written with
  | none =>
    cases rest with
    | nil => rfl
    | cons b tail =>
      obtain ⟨_, _, small, large⟩ := delimitedPlain delimited b rfl
      simp [readExponent, small, large]
  | power letter signed written =>
    obtain ⟨some, all⟩ := written
    obtain ⟨d, tail, rfl⟩ := List.exists_cons_of_ne_nil some
    have digit := all d List.mem_cons_self
    obtain ⟨notMinus, notPlus, _⟩ := digitSign digit
    have spanned := spanAll all fun b head => (delimitedPlain delimited b head).1
    simp only [List.cons_append] at spanned
    cases signed with
    | none =>
      simp only [List.cons_append, List.nil_append, readExponent, if_pos letter, if_neg notMinus, if_neg notPlus,
        digit, if_true, spanned]
    | plus => simp [-List.span_eq_takeWhile_dropWhile, readExponent, letter, digit, spanned]
    | minus => simp [-List.span_eq_takeWhile_dropWhile, readExponent, letter, digit, spanned]

theorem powerRead (numeral : Numeral) {e : UInt8} (letter : e = 101 ∨ e = 69) (bytes : Bytes) :
    ∃ negative sign after, SignText negative sign ∧ bytes = sign ++ after ∧
      readExponent numeral (e :: bytes) = match after with
        | [] => .error (.before [] .malformed)
        | d :: tail =>
          if isDigit d then
            .ok ({ numeral with exponent := some (negative, ((d :: tail).span isDigit).1) },
              ((d :: tail).span isDigit).2)
          else .error (.before tail .malformed) := by
  cases bytes with
  | nil => exact ⟨false, [], [], .none, rfl, by simp [readExponent, letter]⟩
  | cons s tail =>
    by_cases minus : s = 45
    · subst minus
      exact ⟨true, [45], tail, .minus, rfl, by simp [readExponent, letter]; cases tail <;> rfl⟩
    · by_cases plus : s = 43
      · subst plus
        exact ⟨false, [43], tail, .plus, rfl, by simp [readExponent, letter]; cases tail <;> rfl⟩
      · exact ⟨false, [], s :: tail, .none, rfl, by simp [readExponent, letter, minus, plus]⟩

theorem exponentSource {numeral : Numeral} {bytes : Bytes}
    (read : readExponent ⟨negative, whole, digits, none⟩ bytes = .ok (numeral, rest)) :
    ∃ exponent raw, ExponentText exponent raw ∧ numeral = ⟨negative, whole, digits, exponent⟩ ∧
      bytes = raw ++ rest := by
  cases bytes with
  | nil =>
    cases read
    exact ⟨none, [], .none, rfl, rfl⟩
  | cons e tail =>
    by_cases letter : e = 101 ∨ e = 69
    · obtain ⟨minus, sign, after, signed, rfl, taken⟩ := powerRead ⟨negative, whole, digits, none⟩ letter tail
      rw [taken] at read
      cases after with
      | nil => cases read
      | cons d more =>
        dsimp only at read
        split at read
        · rename_i digit
          cases spanned : (d :: more).span isDigit with
          | mk found left =>
            rw [spanned] at read
            cases read
            obtain ⟨split, written⟩ := spanDigit digit spanned
            refine ⟨_, _, .power letter signed written, rfl, ?_⟩
            rw [split, List.cons_append, List.append_assoc]
        · cases read
    · rw [readExponent.eq_def] at read
      simp only [if_neg letter] at read
      cases read
      exact ⟨none, [], .none, rfl, rfl⟩

theorem fractionForward {fraction power : Bytes} (middle : FractionText digits fraction)
    (back : ExponentText exponent power) (delimited : Delimited rest) :
    readFraction ⟨negative, whole, [], none⟩ (fraction ++ (power ++ rest)) =
      .ok (⟨negative, whole, digits, exponent⟩, rest) := by
  -- Neither an exponent nor what follows the numeral goes on with a digit or a point.
  have apart : ∀ b ∈ (power ++ rest).head?, isDigit b = false ∧ b ≠ 46 := by
    intro b head
    cases back with
    | none => exact ⟨(delimitedPlain delimited b head).1, (delimitedPlain delimited b head).2.1⟩
    | power letter signed written =>
      cases head
      rcases letter with rfl | rfl <;> decide
  have read : readExponent ⟨negative, whole, digits, none⟩ (power ++ rest) = _ := exponentForward back delimited
  cases middle with
  | none =>
    rw [List.nil_append]
    cases after : power ++ rest with
    | nil => rw [after] at read; exact read
    | cons b tail =>
      rw [after] at apart read
      rw [readFraction, if_neg (apart b rfl).2, read]
  | point written =>
    have spanned := spanAll written.2 fun b head => (apart b head).1
    rw [List.cons_append, readFraction, if_pos rfl, spanned]
    obtain ⟨d, tail, rfl⟩ := List.exists_cons_of_ne_nil written.1
    exact read

theorem fractionSource {numeral : Numeral} {bytes : Bytes}
    (read : readFraction ⟨negative, whole, [], none⟩ bytes = .ok (numeral, rest)) :
    ∃ digits fraction exponent power, FractionText digits fraction ∧ ExponentText exponent power ∧
      numeral = ⟨negative, whole, digits, exponent⟩ ∧ bytes = fraction ++ (power ++ rest) := by
  unfold readFraction at read
  split at read
  · rename_i b tail
    split at read
    · rename_i point
      subst point
      split at read
      · cases read
      · rename_i digits left some spanned
        obtain ⟨split, all⟩ := spanSource spanned
        obtain ⟨exponent, power, back, same, rfl⟩ := exponentSource read
        exact ⟨digits, 46 :: digits, exponent, power, .point ⟨some, all⟩, back, same, congrArg (List.cons 46) split⟩
    · obtain ⟨exponent, power, back, same, split⟩ := exponentSource read
      exact ⟨[], [], exponent, power, .none, back, same, split⟩
  · cases read
    exact ⟨[], [], none, [], .none, .none, rfl, rfl⟩

theorem afterWhole {fraction power : Bytes} (middle : FractionText digits fraction)
    (back : ExponentText exponent power) (delimited : Delimited rest) :
    ∀ b ∈ (fraction ++ (power ++ rest)).head?, isDigit b = false := by
  intro b head
  cases middle with
  | point written =>
    cases head
    decide
  | none =>
    cases back with
    | none => exact (delimitedPlain delimited b head).1
    | power letter signed written =>
      cases head
      rcases letter with rfl | rfl <;> decide

theorem magnitudeForward {fraction power : Bytes} (front : WholeText whole) (middle : FractionText digits fraction)
    (back : ExponentText exponent power) (delimited : Delimited rest) :
    readMagnitude negative (whole ++ (fraction ++ (power ++ rest))) =
      .ok (⟨negative, whole, digits, exponent⟩, rest) := by
  have apart := afterWhole middle back delimited
  have read : readFraction ⟨negative, whole, [], none⟩ _ = _ := fractionForward middle back delimited
  rcases front with rfl | ⟨d, tail, rfl, notZero, all⟩
  · cases after : fraction ++ (power ++ rest) with
    | nil => rw [after] at read; exact read
    | cons b tail =>
      rw [after] at apart read
      simp only [List.cons_append, List.nil_append, readMagnitude, if_true, apart b rfl]
      exact read
  · have spanned := spanAll (fun b member => all b (List.mem_cons_of_mem d member)) apart
    simp only [List.cons_append, readMagnitude, if_neg notZero, all d List.mem_cons_self, if_true, spanned, read]

theorem magnitudeSource {numeral : Numeral} {bytes : Bytes}
    (read : readMagnitude negative bytes = .ok (numeral, rest)) :
    ∃ whole digits fraction exponent power, WholeText whole ∧ FractionText digits fraction ∧
      ExponentText exponent power ∧ numeral = ⟨negative, whole, digits, exponent⟩ ∧
      bytes = whole ++ (fraction ++ (power ++ rest)) := by
  unfold readMagnitude at read
  split at read
  · cases read
  · rename_i d tail
    split at read
    · rename_i zero
      subst zero
      split at read
      · split at read
        · cases read
        · obtain ⟨digits, fraction, exponent, power, middle, back, same, split⟩ := fractionSource read
          exact ⟨[48], digits, fraction, exponent, power, Or.inl rfl, middle, back, same,
            congrArg (List.cons 48) split⟩
      · cases read
        exact ⟨[48], [], [], none, [], Or.inl rfl, .none, .none, rfl, rfl⟩
    · rename_i notZero
      split at read
      · rename_i digit
        cases spanned : tail.span isDigit with
        | mk found left =>
          rw [spanned] at read
          obtain ⟨split, all⟩ := spanSource spanned
          obtain ⟨digits, fraction, exponent, power, middle, back, same, rfl⟩ := fractionSource read
          refine ⟨d :: found, digits, fraction, exponent, power, Or.inr ⟨d, found, rfl, notZero, ?_⟩, middle, back,
            same, congrArg (List.cons d) split⟩
          exact List.forall_mem_cons.mpr ⟨digit, all⟩
      · cases read

theorem numeralForward {numeral : Numeral} (written : NumeralText numeral raw) (delimited : Delimited rest) :
    readNumeral (raw ++ rest) = .ok (numeral, rest) := by
  cases written with
  | @written negative whole digits fraction power exponent front middle back =>
    have read : readMagnitude negative _ = _ := magnitudeForward front middle back delimited
    cases negative with
    | true => simpa [readNumeral] using read
    | false =>
      obtain ⟨d, tail, rfl, plain⟩ : ∃ d tail, whole = d :: tail ∧ d ≠ 45 := by
        rcases front with rfl | ⟨d, tail, rfl, _, all⟩
        · exact ⟨48, [], rfl, by decide⟩
        · exact ⟨d, tail, rfl, (digitSign (all d List.mem_cons_self)).1⟩
      simpa [readNumeral, plain] using read

theorem numeralSource {numeral : Numeral} {bytes : Bytes} (read : readNumeral bytes = .ok (numeral, rest)) :
    ∃ raw, NumeralText numeral raw ∧ bytes = raw ++ rest := by
  unfold readNumeral at read
  split at read
  · rename_i b tail
    split at read
    · rename_i minus
      obtain ⟨whole, digits, fraction, exponent, power, front, middle, back, rfl, rfl⟩ := magnitudeSource read
      exact ⟨_, .written front middle back, by simp [minus]⟩
    · obtain ⟨whole, digits, fraction, exponent, power, front, middle, back, rfl, split⟩ := magnitudeSource read
      exact ⟨_, .written front middle back, by simp [split]⟩
  · cases read

end Numeral

theorem wordForward (word rest : Bytes) : readWord word (word ++ rest) = .ok rest := by
  induction word with
  | nil => rfl
  | cons w word ih => rw [List.cons_append, readWord, if_pos rfl, ih]

theorem wordSource {word bytes rest : Bytes} (read : readWord word bytes = .ok rest) : bytes = word ++ rest := by
  induction word generalizing bytes with
  | nil =>
    cases read
    rfl
  | cons w word ih =>
    cases bytes with
    | nil => cases read
    | cons b tail =>
      rw [readWord] at read
      split at read
      · rename_i same
        rw [same, ih read, List.cons_append]
      · cases read

theorem escapedLetter {e : UInt8} (known : (escaped? e).isSome) : e ≠ 117 := by
  rintro rfl
  cases known

theorem textPassed {body : Bytes} (written : TextBody body) (rest : Bytes) :
    skipTextTail (body ++ 34 :: rest) = .ok rest := by
  induction written with
  | done => rw [List.nil_append, skipTextTail.eq_def]; rfl
  | plain notQuote notBackslash notControl tail ih =>
    rw [List.cons_append, skipTextTail.eq_def]
    simp only [if_neg notQuote, if_neg notBackslash, if_neg notControl, ih]
  | letter known tail ih =>
    rw [List.cons_append, List.cons_append, skipTextTail.eq_def]
    simp [escapedLetter known, known, ih]
  | unit digits tail ih =>
    simp only [List.cons_append]
    rw [skipTextTail.eq_def]
    simp [digits, ih]

theorem textPassedSource {bytes rest : Bytes} (passed : skipTextTail bytes = .ok rest) :
    ∃ body, TextBody body ∧ bytes = body ++ 34 :: rest := by
  fun_induction skipTextTail bytes with
  | case2 tail =>
    cases passed
    exact ⟨[], .done, rfl⟩
  | case4 p q r s tail digits _ ih =>
    obtain ⟨body, written, rfl⟩ := ih passed
    exact ⟨_, .unit digits written, rfl⟩
  | case7 e tail _ known _ ih =>
    obtain ⟨body, written, rfl⟩ := ih passed
    exact ⟨_, .letter known written, rfl⟩
  | case10 b tail notQuote notBackslash notControl ih =>
    obtain ⟨body, written, rfl⟩ := ih passed
    exact ⟨_, .plain notQuote notBackslash notControl written, rfl⟩
  | _ => cases passed

theorem unitRead {p q r s : UInt8} {unit : Nat} (digits : codeUnit? p q r s = some unit)
    (notLow : ¬ isLowSurrogate unit = true) (notHigh : ¬ isHighSurrogate unit = true) (done rest : Bytes) :
    readTextBytes done (92 :: 117 :: p :: q :: r :: s :: rest) =
      readTextBytes ((Utf8.codePoint unit).reverse ++ done) rest := by
  rw [readTextBytes.eq_def]
  simp [digits, notLow, notHigh]

theorem pairRead {p q r s t u v w : UInt8} {high low : Nat} (digits : codeUnit? p q r s = some high)
    (notLow : ¬ isLowSurrogate high = true) (isHigh : isHighSurrogate high = true)
    (more : codeUnit? t u v w = some low) (isLow : isLowSurrogate low = true) (done rest : Bytes) :
    readTextBytes done (92 :: 117 :: p :: q :: r :: s :: 92 :: 117 :: t :: u :: v :: w :: rest) =
      readTextBytes ((Utf8.codePoint (surrogatePair high low)).reverse ++ done) rest := by
  rw [readTextBytes.eq_def]
  simp [digits, notLow, isHigh, more, isLow]

theorem textBytesSource {done bytes raw rest : Bytes} (read : readTextBytes done bytes = .ok (raw, rest)) :
    ∃ body, TextBody body ∧ bytes = body ++ 34 :: rest ∧
      ∀ after, readTextBytes done (body ++ 34 :: after) = .ok (raw, after) := by
  fun_induction readTextBytes done bytes with
  | case2 done tail =>
    cases read
    exact ⟨[], .done, rfl, closingRead done⟩
  | case9 done p q r s high digits notLow isHigh t u v w tail low more isLow _ ih =>
    obtain ⟨body, written, rfl, again⟩ := ih read
    have both : TextBody (92 :: 117 :: p :: q :: r :: s :: 92 :: 117 :: t :: u :: v :: w :: body) :=
      .unit (by rw [digits]; rfl) (.unit (by rw [more]; rfl) written)
    exact ⟨_, both, rfl, fun after => (pairRead digits notLow isHigh more isLow done _).trans (again after)⟩
  | case14 done p q r s tail unit digits notLow notHigh _ ih =>
    obtain ⟨body, written, rfl, again⟩ := ih read
    exact ⟨_, .unit (by rw [digits]; rfl) written, rfl,
      fun after => (unitRead digits notLow notHigh done _).trans (again after)⟩
  | case16 done e tail _ byte known _ ih =>
    obtain ⟨body, written, rfl, again⟩ := ih read
    exact ⟨_, .letter (by rw [known]; rfl) written, rfl,
      fun after => (letterRead known done _).trans (again after)⟩
  | case19 done b tail notQuote notBackslash notControl ih =>
    obtain ⟨body, written, rfl, again⟩ := ih read
    exact ⟨_, .plain notQuote notBackslash notControl written, rfl,
      fun after => (plainRead notQuote notBackslash notControl done _).trans (again after)⟩
  | _ => cases read

def textOf? (body : Bytes) : Option String := (readTextTail (body ++ [34])).toOption.map (·.1)

theorem textTailSource {bytes rest : Bytes} {text : String} (read : readTextTail bytes = .ok (text, rest)) :
    ∃ body, TextBody body ∧ bytes = body ++ 34 :: rest ∧
      ∀ after, readTextTail (body ++ 34 :: after) = .ok (text, after) := by
  unfold readTextTail at read
  split at read
  · cases read
  · rename_i raw left taken
    split at read
    · rename_i decoded
      cases read
      obtain ⟨body, written, split, again⟩ := textBytesSource taken
      exact ⟨body, written, split, fun after => by simp only [readTextTail, again after, decoded]⟩
    · cases read

theorem bodyUnique {body other rest after : Bytes} (written : TextBody body) (another : TextBody other)
    (same : body ++ 34 :: rest = other ++ 34 :: after) : body = other ∧ rest = after := by
  have passed := textPassed another after
  rw [← same, textPassed written rest] at passed
  cases passed
  exact ⟨List.append_cancel_right same, rfl⟩

theorem textOfSource {body : Bytes} {text : String} (written : TextBody body) :
    textOf? body = some text ↔ ∀ after, readTextTail (body ++ 34 :: after) = .ok (text, after) := by
  constructor
  · intro found
    obtain ⟨⟨_, rest⟩, read, rfl⟩ := Option.map_eq_some_iff.mp found
    cases result : readTextTail (body ++ [34]) with
    | error fault => rw [result] at read; cases read
    | ok both =>
      rw [result] at read
      cases read
      obtain ⟨other, another, split, again⟩ := textTailSource result
      rw [(bodyUnique written another split).1]
      exact again
  · intro reads
    rw [textOf?, reads []]
    rfl

theorem digitScalar {b : UInt8} (digit : isDigit b = true) : b ≠ 110 ∧ b ≠ 116 ∧ b ≠ 102 := by
  refine ⟨?_, ?_, ?_⟩ <;> rintro rfl <;> exact absurd digit (by decide)

theorem numeralStart {numeral : Numeral} {raw : Bytes} (written : NumeralText numeral raw) :
    ∃ b tail, raw = b :: tail ∧ (b = 45 ∨ isDigit b = true) := by
  cases written with
  | @written negative whole digits fraction power exponent front middle back =>
    cases negative with
    | true => exact ⟨45, _, rfl, Or.inl rfl⟩
    | false =>
      rcases front with rfl | ⟨d, tail, rfl, _, all⟩
      · exact ⟨48, _, rfl, Or.inr rfl⟩
      · exact ⟨d, _, rfl, Or.inr (all d List.mem_cons_self)⟩

theorem scalarPassed {raw rest : Bytes} (written : ScalarText raw) (delimited : Delimited rest) :
    ∃ b tail, raw = b :: tail ∧ isBlank b = false ∧ skipScalar b (tail ++ rest) = .ok (some rest) := by
  cases written with
  | null =>
    refine ⟨110, nullTail, rfl, by decide, ?_⟩
    rw [skipScalar, if_pos rfl, wordForward]
    rfl
  | yes =>
    refine ⟨116, trueTail, rfl, by decide, ?_⟩
    rw [skipScalar, if_neg (by decide), if_pos rfl, wordForward]
    rfl
  | no =>
    refine ⟨102, falseTail, rfl, by decide, ?_⟩
    rw [skipScalar, if_neg (by decide), if_neg (by decide), if_pos rfl, wordForward]
    rfl
  | number written =>
    obtain ⟨b, tail, rfl, starts⟩ := numeralStart written
    have read := numeralForward written delimited
    obtain ⟨solid, notNull, notTrue, notFalse⟩ : isBlank b = false ∧ b ≠ 110 ∧ b ≠ 116 ∧ b ≠ 102 := by
      rcases starts with rfl | digit
      · decide
      · exact ⟨(digitStarts digit).1, digitScalar digit⟩
    refine ⟨b, tail, rfl, solid, ?_⟩
    rw [skipScalar, if_neg notNull, if_neg notTrue, if_neg notFalse, if_pos starts, ← List.cons_append, read]
    rfl
  | text written =>
    refine ⟨34, _, rfl, by decide, ?_⟩
    have passed := textPassed written rest
    rw [List.append_assoc, List.singleton_append]
    simp [skipScalar, isDigit, passed, Except.map]

theorem scalarPassedSource {b : UInt8} {bytes : Bytes} {result : Option Bytes}
    (passed : skipScalar b bytes = .ok result) :
    (∃ raw rest, ScalarText raw ∧ b :: bytes = raw ++ rest ∧ result = some rest) ∨
      (result = none ∧ (b = 91 ∨ b = 123)) := by
  have word {first : UInt8} {tail : Bytes} (written : ScalarText (first :: tail)) (same : b = first)
      (read : (readWord tail bytes).map some = .ok result) :
      ∃ raw rest, ScalarText raw ∧ b :: bytes = raw ++ rest ∧ result = some rest := by
    obtain ⟨rest, taken, rfl⟩ := mapOk.mp read
    exact ⟨_, rest, written, by rw [same, wordSource taken]; rfl, rfl⟩
  unfold skipScalar at passed
  split at passed
  · exact Or.inl (word .null (by assumption) passed)
  split at passed
  · exact Or.inl (word .yes (by assumption) passed)
  split at passed
  · exact Or.inl (word .no (by assumption) passed)
  split at passed
  · obtain ⟨⟨numeral, rest⟩, read, rfl⟩ := mapOk.mp passed
    obtain ⟨raw, written, split⟩ := numeralSource read
    exact Or.inl ⟨raw, rest, .number written, split, rfl⟩
  split at passed
  · rename_i quoted
    obtain ⟨rest, read, rfl⟩ := mapOk.mp passed
    obtain ⟨body, written, rfl⟩ := textPassedSource read
    exact Or.inl ⟨_, rest, .text written, by simp [quoted], rfl⟩
  split at passed
  · cases passed
    exact Or.inr ⟨rfl, by assumption⟩
  · cases passed

end WalletVault.Json
