import WalletVault.Proofs.Json.Passing

/-! What a reader takes a tree for. A reader that succeeds has met a tree of the grammar, and takes every text
that spells this tree, with whatever blanks and whatever after it, for the same value. -/
namespace WalletVault.Json
open Fallible

def Tree.Written (tree : Tree) : Prop := ∃ document, Spelled tree document

theorem Spells.replaced {part : Part} {text rest : Bytes} (spelled : Spells part text rest) (after : Bytes) :
    ∃ other, Spells part other after := by
  have solid {b : UInt8} {tail : Bytes} (notBlank : isBlank b = false) : skipBlanks (b :: tail) = b :: tail :=
    skipSolid notBlank tail
  induction spelled generalizing after with
  | scalar written token =>
    obtain ⟨b, tail, rfl, notBlank, _⟩ := scalarStart written
    exact ⟨b :: tail ++ after, .scalar written (solid notBlank)⟩
  | list token items ih =>
    obtain ⟨inner, items⟩ := ih after
    exact ⟨91 :: inner, .list (solid (by decide)) items⟩
  | object token members ih =>
    obtain ⟨inner, members⟩ := ih after
    exact ⟨123 :: inner, .object (solid (by decide)) members⟩
  | lastItem token => exact ⟨93 :: after, .lastItem (solid (by decide))⟩
  | firstItem item later ih rest =>
    obtain ⟨middle, later⟩ := rest after
    obtain ⟨text, item⟩ := ih middle
    exact ⟨text, .firstItem item later⟩
  | nextItem token item later ih rest =>
    obtain ⟨middle, later⟩ := rest after
    obtain ⟨next, item⟩ := ih middle
    exact ⟨44 :: next, .nextItem (solid (by decide)) item later⟩
  | member written token colon value ih =>
    obtain ⟨text, value⟩ := ih after
    exact ⟨_, .member written (solid (by decide)) (solid (by decide)) value⟩
  | lastMember token => exact ⟨125 :: after, .lastMember (solid (by decide))⟩
  | firstMember member later ih rest =>
    obtain ⟨middle, later⟩ := rest after
    obtain ⟨text, member⟩ := ih middle
    exact ⟨text, .firstMember member later⟩
  | nextMember token member later ih rest =>
    obtain ⟨middle, later⟩ := rest after
    obtain ⟨next, member⟩ := ih middle
    exact ⟨44 :: next, .nextMember (solid (by decide)) member later⟩

theorem Spells.isWritten {tree : Tree} {text rest : Bytes} (spelled : Spells (.value tree) text rest) :
    tree.Written := by
  obtain ⟨document, alone⟩ := spelled.replaced []
  exact ⟨document, [], alone, rfl⟩

theorem Spells.shorter {tree : Tree} {text rest : Bytes} (spelled : Spells (.value tree) text rest)
    (delimited : Delimited rest) : rest.length < text.length := by
  obtain ⟨cost, bound, _⟩ := spelled.passed delimited []
  omega

def Tree.lead? : Tree → Option UInt8
  | scalar raw => raw.head?
  | list _ => some 91
  | object _ => some 123

theorem Spells.lead {tree : Tree} {text rest : Bytes} (spelled : Spells (.value tree) text rest) :
    (skipBlanks text).head? = tree.lead? := by
  cases spelled with
  | scalar written token =>
    obtain ⟨b, tail, rfl, _⟩ := scalarStart written
    rw [token]
    rfl
  | list token _ => rw [token]; rfl
  | object token _ => rw [token]; rfl

/-- The reader takes every text that spells the tree for the value, and leaves what comes after it. -/
structure Takes {α : Type} (reader : Reader α) (tree : Tree) (value : α) : Prop where
  written : tree.Written
  reads : ∀ text rest, Spells (.value tree) text rest → Delimited rest → reader text = .ok (value, rest)

/-- What the reader takes off the front of a text is the value of the tree that stands there. -/
def Grammatical {α : Type} (reader : Reader α) : Prop :=
  ∀ text value rest, reader text = .ok (value, rest) → ∃ tree, Spells (.value tree) text rest ∧ Takes reader tree value

theorem Takes.source {α : Type} {reader : Reader α} {tree : Tree} {value : α} {means : Tree → α → Prop}
    (takes : Takes reader tree value)
    (sources : ∀ text value rest, reader text = .ok (value, rest) →
      ∃ tree, Spells (.value tree) text rest ∧ means tree value) : means tree value := by
  obtain ⟨document, rest, spelled, blank⟩ := takes.written
  have ends := delimitedEnd blank
  obtain ⟨other, again, holds⟩ := sources document value rest (takes.reads document rest spelled ends)
  obtain ⟨rfl, _⟩ := spelled.unique ends other rest again ends
  exact holds

theorem Takes.same {α : Type} {reader : Reader α} {tree : Tree} {value other : α} (takes : Takes reader tree value)
    (again : Takes reader tree other) : value = other := by
  obtain ⟨document, rest, spelled, blank⟩ := takes.written
  have read := (takes.reads document rest spelled (delimitedEnd blank)).symm.trans
    (again.reads document rest spelled (delimitedEnd blank))
  cases read
  rfl

theorem scalarTaken {α : Type} {reader : Reader α} {raw : Bytes} {value : α} (written : ScalarText raw)
    (reads : ∀ text rest, skipBlanks text = raw ++ rest → Delimited rest → reader text = .ok (value, rest)) :
    Takes reader (.scalar raw) value := by
  obtain ⟨b, tail, rfl, solid, _⟩ := scalarStart written
  have token : skipBlanks (b :: tail) = b :: tail ++ [] := by rw [skipSolid solid, List.append_nil]
  refine ⟨⟨b :: tail, [], .scalar written token, rfl⟩, fun text rest spelled delimited => ?_⟩
  cases spelled with
  | scalar _ token => exact reads text rest token delimited

def quoted (body : Bytes) : Bytes := 34 :: (body ++ [34])

theorem quotedToken {text body rest : Bytes} :
    skipBlanks text = quoted body ++ rest ↔ skipBlanks text = 34 :: (body ++ 34 :: rest) := by
  simp [quoted]

theorem textTaken {body : Bytes} {text : String} (written : TextBody body) (spells : textOf? body = some text) :
    Takes readText (.scalar (quoted body)) text := by
  refine scalarTaken (.text written) fun front rest token _ => ?_
  rw [readText, quotedToken.mp token]
  exact (textOfSource written).mp spells rest

theorem textSource (text : Bytes) (value : String) (rest : Bytes) (read : readText text = .ok (value, rest)) :
    ∃ tree, Spells (.value tree) text rest ∧ ∃ body, tree = .scalar (quoted body) ∧ TextBody body ∧
      textOf? body = some value := by
  unfold readText at read
  split at read
  · rename_i b tail token
    split at read
    · rename_i isQuote
      subst isQuote
      obtain ⟨body, written, rfl, again⟩ := textTailSource read
      exact ⟨_, .scalar (.text written) (quotedToken.mpr token), body, rfl, written, (textOfSource written).mpr again⟩
    · cases read
  · cases read

theorem textMeans {body : Bytes} {text value : String} (spells : textOf? body = some text)
    (takes : Takes readText (.scalar (quoted body)) value) : value = text := by
  obtain ⟨other, same, _, again⟩ := takes.source textSource
  have bodies : body = other := by simpa [quoted] using same
  subst bodies
  exact Option.some.inj (again.symm.trans spells)

theorem textGrammatical : Grammatical readText := by
  intro text value rest read
  obtain ⟨tree, spelled, body, rfl, written, spells⟩ := textSource text value rest read
  exact ⟨_, spelled, textTaken written spells⟩

theorem faultNowhere {numeral : Numeral} {rest : Bytes} (within : numeral.fault? rest = none) (after : Bytes) :
    numeral.fault? after = none := by
  obtain ⟨negative, whole, fraction, exponent⟩ := numeral
  cases exponent with
  | none => simpa [Numeral.fault?] using within
  | some power =>
    obtain ⟨sign, digits⟩ := power
    cases bounded : Numeral.boundedExponent 0 digits with
    | error left => simpa [Numeral.fault?, bounded] using within
    | ok exponent => simpa [Numeral.fault?, bounded] using within

theorem doubleOk {bytes rest : Bytes} {numeral : Numeral} : readDouble bytes = .ok (numeral, rest) ↔
    readNumeral bytes = .ok (numeral, rest) ∧ numeral.fault? rest = none := by
  unfold readDouble
  rw [bindOk]
  constructor
  · rintro ⟨⟨found, left⟩, read, checked⟩
    dsimp only at checked
    split at checked
    · cases checked
    · rename_i within
      cases pureOk.mp checked
      exact ⟨read, within⟩
  · rintro ⟨read, within⟩
    refine ⟨(numeral, rest), read, ?_⟩
    simp only [within]
    rfl

theorem numberGrammatical : Grammatical readWord32 := by
  intro text value rest read
  unfold readWord32 at read
  split at read
  · rename_i b tail token
    split at read
    · rename_i starts
      split at read
      · cases read
      · rename_i numeral left double
        split at read
        · rename_i n natural
          split at read
          · rename_i small
            cases read
            obtain ⟨parsed, within⟩ := doubleOk.mp double
            obtain ⟨raw, written, split⟩ := numeralSource parsed
            refine ⟨.scalar raw, .scalar (.number written) (token.trans split), ?_⟩
            obtain ⟨c, digits, rfl, starts⟩ := numeralStart written
            refine scalarTaken (.number written) fun front after again delimited => ?_
            have double := doubleOk.mpr ⟨numeralForward written delimited, faultNowhere within after⟩
            rw [List.cons_append] at again double
            simp only [readWord32, again, if_pos starts, double, natural, if_pos small]
          · cases read
        · cases read
    · cases read
  · cases read

def flagText (value : Bool) : Bytes := if value then 116 :: trueTail else 102 :: falseTail

theorem flagTaken (value : Bool) : Takes readFlag (.scalar (flagText value)) value := by
  cases value with
  | true =>
    refine scalarTaken .yes fun front rest token _ => ?_
    have token : skipBlanks front = 116 :: (trueTail ++ rest) := token
    rw [readFlag, token]
    simp [wordForward, Except.map]
  | false =>
    refine scalarTaken .no fun front rest token _ => ?_
    have token : skipBlanks front = 102 :: (falseTail ++ rest) := token
    rw [readFlag, token]
    simp [wordForward, Except.map]

theorem flagGrammatical : Grammatical readFlag := by
  intro text value rest read
  unfold readFlag at read
  split at read
  · rename_i b tail token
    split at read
    · rename_i yes
      subst yes
      obtain ⟨left, word, same⟩ := mapOk.mp read
      cases same
      rw [wordSource word] at token
      exact ⟨_, .scalar .yes token, flagTaken true⟩
    · split at read
      · rename_i no
        subst no
        obtain ⟨left, word, same⟩ := mapOk.mp read
        cases same
        rw [wordSource word] at token
        exact ⟨_, .scalar .no token, flagTaken false⟩
      · cases read
  · cases read

def nullText : Bytes := 110 :: nullTail

section Optional
variable {α : Type} {reader : Reader α}

theorem nullTaken : Takes (readOptional reader) (.scalar nullText) none := by
  refine scalarTaken .null fun front rest token _ => ?_
  rw [nullText, List.cons_append] at token
  rw [readOptional, token]
  simp [wordForward, Except.map]

theorem presentTaken {tree : Tree} {value : α} (takes : Takes reader tree value) (present : tree.lead? ≠ some 110) :
    Takes (readOptional reader) tree (some value) := by
  refine ⟨takes.written, fun text rest spelled delimited => ?_⟩
  have lead := spelled.lead
  have read := takes.reads _ rest spelled.unspaced delimited
  unfold readOptional
  cases token : skipBlanks text with
  | nil =>
    obtain ⟨b, tail, start, _⟩ := spelled.start
    rw [token] at start
    cases start
  | cons b tail =>
    rw [token] at lead read
    have notNull : b ≠ 110 := by
      rintro rfl
      exact present lead.symm
    simp [notNull, read, Except.map]

theorem optionalSource (grammatical : Grammatical reader) (text : Bytes) (found : Option α) (rest : Bytes)
    (read : readOptional reader text = .ok (found, rest)) : ∃ tree, Spells (.value tree) text rest ∧
      ((tree = .scalar nullText ∧ found = none) ∨
        ∃ value, found = some value ∧ Takes reader tree value ∧ tree.lead? ≠ some 110) := by
  unfold readOptional at read
  split at read
  · rename_i b tail token
    split at read
    · rename_i isNull
      subst isNull
      obtain ⟨left, word, same⟩ := mapOk.mp read
      cases same
      rw [wordSource word] at token
      exact ⟨_, .scalar .null token, .inl ⟨rfl, rfl⟩⟩
    · rename_i notNull
      obtain ⟨⟨value, left⟩, taken, same⟩ := mapOk.mp read
      cases same
      rw [← token] at taken
      obtain ⟨tree, spelled, takes⟩ := grammatical _ _ _ taken
      refine ⟨tree, spelled.spaced, .inr ⟨value, rfl, takes, ?_⟩⟩
      rw [← spelled.lead, skipBlanksTwice, token]
      simpa using notNull
  · obtain ⟨⟨value, left⟩, taken, same⟩ := mapOk.mp read
    cases same
    obtain ⟨tree, spelled, _⟩ := grammatical _ _ _ taken
    obtain ⟨b, tail, start, _⟩ := spelled.start
    cases start

theorem optionalGrammatical (grammatical : Grammatical reader) : Grammatical (readOptional reader) := by
  intro text found rest read
  obtain ⟨tree, spelled, ⟨rfl, rfl⟩ | ⟨value, rfl, takes, present⟩⟩ := optionalSource grammatical text found rest read
  · exact ⟨_, spelled, nullTaken⟩
  · exact ⟨tree, spelled, presentTaken takes present⟩

theorem presentMeans (grammatical : Grammatical reader) {tree : Tree} {value : α}
    (takes : Takes (readOptional reader) tree (some value)) : Takes reader tree value := by
  rcases takes.source (optionalSource grammatical) with ⟨_, absent⟩ | ⟨other, same, present, _⟩
  · cases absent
  · cases same
    exact present

end Optional

theorem Starts.shorter {first : Bool} {text entry : Bytes} (starts : Starts first text entry) :
    entry.length ≤ text.length := by
  cases first with
  | true => exact (congrArg List.length starts).le
  | false => exact (skippedShorter starts).le

theorem elementNone {first : Bool} {text : Bytes} :
    nextElement first text = .ok none ↔ ∃ rest, skipBlanks text = 93 :: rest := by
  unfold nextElement
  split
  · rename_i token
    simp [token]
  · rename_i b tail token
    rw [token]
    split
    · rename_i closes
      simp [closes]
    · rename_i goesOn
      have apart : ¬ ∃ rest, b :: tail = 93 :: rest := by
        rintro ⟨rest, same⟩
        exact goesOn (List.cons.inj same).1
      refine iff_of_false (fun next => ?_) apart
      split at next
      · cases next
      split at next
      · split at next
        · cases next
        · split at next <;> cases next
      · cases next

theorem elementSome {first : Bool} {text inner : Bytes} (next : nextElement first text = .ok (some inner)) :
    ∃ entry, Starts first text entry ∧ inner = skipBlanks entry := by
  unfold nextElement at next
  split at next
  · cases next
  · rename_i b tail token
    split at next
    · cases next
    split at next
    · rename_i isFirst
      cases next
      exact ⟨text, by rw [Starts, if_pos isFirst], token.symm⟩
    split at next
    · rename_i isFirst comma
      subst comma
      split at next
      · cases next
      · rename_i c after behind
        split at next
        · cases next
        · cases next
          exact ⟨tail, by rw [Starts, if_neg isFirst, token], behind.symm⟩
    · cases next

theorem elementAt {first : Bool} {text entry rest : Bytes} {tree : Tree} (starts : Starts first text entry)
    (item : Spells (.value tree) entry rest) : nextElement first text = .ok (some (skipBlanks entry)) := by
  obtain ⟨b, tail, start, _, notEnd, _⟩ := item.start
  cases first with
  | true =>
    cases starts
    simp [nextElement, start, notEnd]
  | false =>
    have token : skipBlanks text = 44 :: entry := starts
    simp [nextElement, token, start, notEnd]

section List
variable {α : Type} {reader : Reader α}

theorem Spells.itemsCount {trees : List Tree} {first : Bool} {text rest : Bytes}
    (spelled : Spells (.items first trees) text rest) : trees.length < text.length := by
  induction trees generalizing first text with
  | nil => exact Nat.zero_lt_of_lt (skippedShorter (spellsNoItems.mp spelled))
  | cons tree trees ih =>
    obtain ⟨entry, middle, starts, item, later⟩ := spellsItems.mp spelled
    have entryShorter := starts.shorter
    have middleShorter := item.shorter later.delimitedItems
    have count := ih later
    rw [List.length_cons]
    omega

theorem elementsTaken {trees : List Tree} {values : List α} (all : List.Forall₂ (Takes reader) trees values)
    {fuel : Nat} (enough : trees.length < fuel) {done : List α} {text rest : Bytes}
    (spelled : Spells (.items done.isEmpty trees) text rest) :
    readElements reader fuel done text = .ok (done.reverse ++ values, rest) := by
  induction all generalizing fuel done text with
  | nil =>
    obtain ⟨fuel, rfl⟩ := Nat.exists_eq_succ_of_ne_zero (Nat.ne_of_gt enough)
    have token := spellsNoItems.mp spelled
    simp [readElements, elementNone.mpr ⟨rest, token⟩, token]
  | @cons tree value trees values takes _ ih =>
    obtain ⟨fuel, rfl⟩ := Nat.exists_eq_succ_of_ne_zero (Nat.ne_of_gt (Nat.zero_lt_of_lt enough))
    obtain ⟨entry, middle, starts, item, later⟩ := spellsItems.mp spelled
    have read := takes.reads _ _ item.unspaced later.delimitedItems
    have tail := @ih fuel (by simpa using enough) (value :: done) middle later
    simp only [readElements, elementAt starts item, read, tail, List.reverse_cons, List.append_assoc,
      List.singleton_append]

theorem listWritten {trees : List Tree} (all : ∀ tree ∈ trees, tree.Written) : (Tree.list trees).Written := by
  have items (first : Bool) : ∃ text, Spells (.items first trees) text [] := by
    induction trees generalizing first with
    | nil => exact ⟨[93], .lastItem rfl⟩
    | cons tree trees ih =>
      obtain ⟨middle, later⟩ := ih (fun tree member => all tree (List.mem_cons_of_mem _ member)) false
      obtain ⟨document, rest, spelled, _⟩ := all tree List.mem_cons_self
      obtain ⟨entry, item⟩ := spelled.replaced middle
      cases first with
      | true => exact ⟨entry, .firstItem item later⟩
      | false => exact ⟨44 :: entry, .nextItem (skipSolid (by decide) _) item later⟩
  obtain ⟨inner, items⟩ := items true
  exact ⟨91 :: inner, [], .list (skipSolid (by decide) _) items, rfl⟩

theorem listTaken {trees : List Tree} {values : List α} (all : List.Forall₂ (Takes reader) trees values) :
    Takes (readList reader) (.list trees) values := by
  have written : ∀ tree ∈ trees, tree.Written := by
    induction all with
    | nil => simp
    | cons takes _ ih => exact List.forall_mem_cons.mpr ⟨takes.written, ih⟩
  refine ⟨listWritten written, fun text rest spelled _ => ?_⟩
  cases spelled with
  | @list _ inner _ _ token items =>
    have enough : trees.length < inner.length + 1 := Nat.lt_succ_of_lt items.itemsCount
    simp only [readList, token, if_true]
    exact @elementsTaken _ _ _ _ all _ enough [] _ _ items

theorem elementsSource (grammatical : Grammatical reader) {fuel : Nat} {done values : List α} {text rest : Bytes}
    (read : readElements reader fuel done text = .ok (values, rest)) : ∃ trees more,
      Spells (.items done.isEmpty trees) text rest ∧ values = done.reverse ++ more ∧
      List.Forall₂ (Takes reader) trees more := by
  induction fuel generalizing done text with
  | zero => cases read
  | succ fuel ih =>
    unfold readElements at read
    split at read
    · cases read
    · rename_i closed
      obtain ⟨after, token⟩ := elementNone.mp closed
      cases read
      exact ⟨[], [], .lastItem (by rw [token]; rfl), (List.append_nil _).symm, .nil⟩
    · rename_i inner next
      obtain ⟨entry, starts, rfl⟩ := elementSome next
      split at read
      · cases read
      · rename_i value middle taken
        obtain ⟨tree, item, takes⟩ := grammatical _ _ _ taken
        obtain ⟨trees, more, later, rfl, all⟩ := ih read
        exact ⟨tree :: trees, value :: more, spellsItems.mpr ⟨entry, middle, starts, item.spaced, later⟩,
          by simp, .cons takes all⟩

theorem listSource (grammatical : Grammatical reader) (text : Bytes) (values : List α) (rest : Bytes)
    (read : readList reader text = .ok (values, rest)) : ∃ tree, Spells (.value tree) text rest ∧
      ∃ trees, tree = .list trees ∧ List.Forall₂ (Takes reader) trees values := by
  unfold readList at read
  split at read
  · rename_i b tail token
    split at read
    · rename_i opens
      subst opens
      obtain ⟨trees, more, items, rfl, all⟩ := elementsSource grammatical read
      exact ⟨_, .list token items, trees, rfl, all⟩
    · cases read
  · cases read

theorem listGrammatical (grammatical : Grammatical reader) : Grammatical (readList reader) := by
  intro text values rest read
  obtain ⟨_, spelled, trees, rfl, all⟩ := listSource grammatical text values rest read
  exact ⟨_, spelled, listTaken all⟩

theorem listMeans (grammatical : Grammatical reader) {trees : List Tree} {values : List α} :
    Takes (readList reader) (.list trees) values ↔ List.Forall₂ (Takes reader) trees values := by
  refine ⟨fun takes => ?_, listTaken⟩
  obtain ⟨_, ⟨⟩, all⟩ := takes.source (listSource grammatical)
  exact all

end List

end WalletVault.Json
