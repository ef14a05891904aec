import WalletVault.Proofs.Json.Token

/-! Values that are passed over are those of the grammar, of any depth, and no more and no less of the text is
passed than they take up. -/
namespace WalletVault.Json

theorem scalarStart {raw : Bytes} (written : ScalarText raw) : ∃ b tail, raw = b :: tail ∧ isBlank b = false ∧
    b ≠ 44 ∧ b ≠ 91 ∧ b ≠ 93 ∧ b ≠ 123 ∧ b ≠ 125 := by
  cases written with
  | null => exact ⟨110, _, rfl, by decide⟩
  | yes => exact ⟨116, _, rfl, by decide⟩
  | no => exact ⟨102, _, rfl, by decide⟩
  | text _ => exact ⟨34, _, rfl, by decide⟩
  | number written =>
    obtain ⟨b, tail, rfl, starts⟩ := numeralStart written
    refine ⟨b, tail, rfl, ?_⟩
    rcases starts with rfl | digit
    · decide
    · refine ⟨(digitStarts digit).1, ?_, ?_, ?_, ?_, ?_⟩ <;> rintro rfl <;> exact absurd digit (by decide)

theorem Spells.start {tree : Tree} {text rest : Bytes} (spelled : Spells (.value tree) text rest) :
    ∃ b tail, skipBlanks text = b :: tail ∧ b ≠ 44 ∧ b ≠ 93 ∧ b ≠ 125 := by
  cases spelled with
  | scalar written token =>
    obtain ⟨b, tail, rfl, _, notComma, _, notList, _, notObject⟩ := scalarStart written
    exact ⟨b, tail ++ rest, token, notComma, notList, notObject⟩
  | list token _ => exact ⟨91, _, token, by decide⟩
  | object token _ => exact ⟨123, _, token, by decide⟩

def resume (fuel : Nat) (frames : List Frame) (rest : Bytes) : Except Fault Bytes :=
  match frames with
  | [] => .ok rest
  | _ => skipFrom fuel .nextEntry frames rest

def Frame.entry : Frame → Expecting
  | list => .value
  | object => .name

section Steps
variable {fuel : Nat} {expecting : Expecting} {frame : Frame} {frames outer : List Frame} {text rest tail : Bytes}
  {b : UInt8}

theorem skipFromBlanks (text : Bytes) :
    skipFrom (fuel + 1) expecting frames (skipBlanks text) = skipFrom (fuel + 1) expecting frames text := by
  simp only [skipFrom, skipBlanksTwice]

theorem scalarStep (token : skipBlanks text = b :: tail) (passed : skipScalar b tail = .ok (some rest)) :
    skipFrom (fuel + 1) .value frames text = resume fuel frames rest := by
  simp only [skipFrom, token, passed]
  cases frames <;> rfl

theorem openStep (token : skipBlanks text = b :: tail) (passed : skipScalar b tail = .ok none) :
    skipFrom (fuel + 1) .value frames text =
      skipFrom fuel .firstEntry ((if b = 91 then .list else .object) :: frames) tail := by
  simp only [skipFrom, token, passed]

theorem closeStep (entry : expecting = .firstEntry ∨ expecting = .nextEntry)
    (token : skipBlanks text = frame.closing :: tail) :
    skipFrom (fuel + 1) expecting (frame :: outer) text = resume fuel outer tail := by
  rcases entry with rfl | rfl <;> simp only [skipFrom, token, if_true] <;> cases outer <;> rfl

theorem enterStep (token : skipBlanks text = b :: tail) (opens : b ≠ frame.closing) :
    skipFrom (fuel + 1) .firstEntry (frame :: outer) text = skipFrom fuel frame.entry (frame :: outer) (b :: tail) := by
  simp only [skipFrom, token, if_neg opens, if_true]
  cases frame <;> rfl

theorem commaStep (token : skipBlanks text = 44 :: tail) :
    skipFrom (fuel + 1) .nextEntry (frame :: outer) text = skipFrom fuel frame.entry (frame :: outer) tail := by
  simp only [skipFrom, token]
  cases frame <;> rfl

theorem nameStep {after value : Bytes} (token : skipBlanks text = 34 :: tail) (passed : skipTextTail tail = .ok after)
    (colon : skipBlanks after = 58 :: value) :
    skipFrom (fuel + 1) .name (frame :: outer) text = skipFrom fuel .value (frame :: outer) value := by
  simp only [skipFrom, token, passed, colon, if_true]

end Steps

/-! What the grammar spells is passed over. -/

/- The machine gets from the text to the rest, and takes less than two steps for every byte. -/
def Passes (run done : (fuel : Nat) → Except Fault Bytes) (text rest : Bytes) : Prop :=
  ∃ cost, cost + 2 + 2 * rest.length ≤ 2 * text.length ∧ ∀ fuel, run (fuel + cost + 1) = done fuel

namespace Passes
variable {run first between done : (fuel : Nat) → Except Fault Bytes} {text inner middle rest : Bytes}

theorem one (step : ∀ fuel, run (fuel + 1) = done fuel) (shorter : rest.length < text.length) :
    Passes run done text rest :=
  ⟨0, by omega, step⟩

theorem after (step : ∀ fuel, run (fuel + 1) = first fuel) (shorter : inner.length < text.length)
    (passes : Passes first done inner rest) : Passes run done text rest := by
  obtain ⟨cost, bound, steps⟩ := passes
  exact ⟨cost + 1, by omega, fun fuel => (step (fuel + cost + 1)).trans (steps fuel)⟩

/- The step onto a first entry takes up no byte, but an entry and an end together take up enough. -/
theorem entry (step : ∀ fuel, run (fuel + 1) = first fuel) (shorter : inner.length ≤ text.length)
    (passes : Passes first between inner middle) (later : Passes between done middle rest) :
    Passes run done text rest := by
  obtain ⟨cost, bound, steps⟩ := passes
  obtain ⟨more, limit, goes⟩ := later
  refine ⟨cost + more + 2, by omega, fun fuel => ?_⟩
  have total : fuel + (cost + more + 2) + 1 = fuel + more + 1 + cost + 1 + 1 := by omega
  rw [total, step, steps, goes]

end Passes

theorem skippedShorter {text tail : Bytes} {b : UInt8} (token : skipBlanks text = b :: tail) :
    tail.length < text.length := by
  have shorter := skipBlanksLength text
  rw [token, List.length_cons] at shorter
  exact shorter

theorem Passes.unspaced {expecting : Expecting} {frames : List Frame} {done : (fuel : Nat) → Except Fault Bytes}
    {text rest : Bytes} (passes : Passes (fun fuel => skipFrom fuel expecting frames text) done text rest) :
    Passes (fun fuel => skipFrom fuel expecting frames (skipBlanks text)) done text rest := by
  obtain ⟨cost, bound, steps⟩ := passes
  exact ⟨cost, bound, fun fuel => (skipFromBlanks text).trans (steps fuel)⟩

def Part.Passed : Part → (bytes rest : Bytes) → Prop
  | value _, bytes, rest => Delimited rest → ∀ frames,
      Passes (fun fuel => skipFrom fuel .value frames bytes) (fun fuel => resume fuel frames rest) bytes rest
  | member _ _, bytes, rest => Delimited rest → ∀ frame outer,
      Passes (fun fuel => skipFrom fuel .name (frame :: outer) bytes)
        (fun fuel => skipFrom fuel .nextEntry (frame :: outer) rest) bytes rest
  | items first _, bytes, rest => ∀ outer,
      Passes (fun fuel => skipFrom fuel (if first then .firstEntry else .nextEntry) (.list :: outer) bytes)
        (fun fuel => resume fuel outer rest) bytes rest
  | members first _, bytes, rest => ∀ outer,
      Passes (fun fuel => skipFrom fuel (if first then .firstEntry else .nextEntry) (.object :: outer) bytes)
        (fun fuel => resume fuel outer rest) bytes rest

theorem Spells.startMember {name : Bytes} {tree : Tree} {text rest : Bytes}
    (spelled : Spells (.member name tree) text rest) : ∃ tail, skipBlanks text = 34 :: tail := by
  cases spelled with
  | member _ token _ _ => exact ⟨_, token⟩

theorem entryOr (first : Bool) : (if first then Expecting.firstEntry else .nextEntry) = .firstEntry ∨
    (if first then Expecting.firstEntry else .nextEntry) = .nextEntry := by
  cases first
  · exact Or.inr rfl
  · exact Or.inl rfl

theorem Spells.passed {part : Part} {text rest : Bytes} (spelled : Spells part text rest) : part.Passed text rest := by
  induction spelled with
  | scalar written token =>
    intro delimited frames
    obtain ⟨b, tail, rfl, _, passed⟩ := scalarPassed written delimited
    rw [List.cons_append] at token
    have shorter := skippedShorter token
    rw [List.length_append] at shorter
    exact .one (fun fuel => scalarStep token passed) (by omega)
  | list token _ ih =>
    intro _ frames
    exact .after (fun fuel => openStep token rfl) (skippedShorter token) (ih frames)
  | object token _ ih =>
    intro _ frames
    exact .after (fun fuel => openStep token rfl) (skippedShorter token) (ih frames)
  | @lastItem _ _ first token =>
    intro outer
    exact .one (fun fuel => @closeStep _ _ .list _ _ _ (entryOr first) token) (skippedShorter token)
  | firstItem item later ih rest =>
    intro outer
    obtain ⟨b, tail, token, _, opens, _⟩ := item.start
    have passes := (ih later.delimitedItems (.list :: outer)).unspaced
    rw [token] at passes
    exact .entry (fun fuel => enterStep token opens) (Nat.le_refl _) passes (rest outer)
  | nextItem token item later ih rest =>
    intro outer
    exact .entry (fun fuel => commaStep token) (skippedShorter token).le (ih later.delimitedItems _) (rest outer)
  | member written token colon _ ih =>
    intro delimited frame outer
    have shorter := skippedShorter token
    have less := skippedShorter colon
    simp only [List.length_append, List.length_cons] at shorter
    exact .after (fun fuel => nameStep token (textPassed written _) colon) (by omega) (ih delimited _)
  | @lastMember _ _ first token =>
    intro outer
    exact .one (fun fuel => @closeStep _ _ .object _ _ _ (entryOr first) token) (skippedShorter token)
  | firstMember member later ih rest =>
    intro outer
    obtain ⟨tail, token⟩ := member.startMember
    have passes := (ih later.delimitedMembers .object outer).unspaced
    rw [token] at passes
    exact .entry (fun fuel => enterStep token (by decide)) (Nat.le_refl _) passes (rest outer)
  | nextMember token member later ih rest =>
    intro outer
    exact .entry (fun fuel => commaStep token) (skippedShorter token).le (ih later.delimitedMembers _ _) (rest outer)

theorem valuePassed {tree : Tree} {text rest : Bytes} (spelled : Spells (.value tree) text rest)
    (delimited : Delimited rest) : skipValue text = .ok rest := by
  obtain ⟨cost, bound, steps⟩ := spelled.passed delimited []
  have enough : 2 * text.length + 2 = (2 * text.length + 1 - cost) + cost + 1 := by omega
  rw [skipValue, enough]
  exact steps _

/-! What is passed over was spelled. -/

def Frame.Ends : Frame → (first : Bool) → (bytes rest : Bytes) → Prop
  | list, first, bytes, rest => ∃ trees, Spells (.items first trees) bytes rest
  | object, first, bytes, rest => ∃ entries, Spells (.members first entries) bytes rest

def Closes : List Frame → (bytes rest : Bytes) → Prop
  | [], bytes, rest => bytes = rest
  | frame :: outer, bytes, rest => ∃ middle, frame.Ends false bytes middle ∧ Closes outer middle rest

/- What the machine still has to meet. A name is expected in an object only. -/
def Completes : Expecting → List Frame → (bytes rest : Bytes) → Prop
  | .value, frames, bytes, rest => ∃ tree middle, Spells (.value tree) bytes middle ∧ Closes frames middle rest
  | .nextEntry, frames, bytes, rest => Closes frames bytes rest
  | .firstEntry, frame :: outer, bytes, rest => ∃ middle, frame.Ends true bytes middle ∧ Closes outer middle rest
  | .name, .object :: outer, bytes, rest => ∃ name tree middle,
      Spells (.member name tree) bytes middle ∧ Closes (.object :: outer) middle rest
  | _, _, _, _ => False

theorem Spells.spaced {tree : Tree} {text rest : Bytes} (spelled : Spells (.value tree) (skipBlanks text) rest) :
    Spells (.value tree) text rest := by
  cases spelled with
  | scalar written token => exact .scalar written ((skipBlanksTwice text).symm.trans token)
  | list token items => exact .list ((skipBlanksTwice text).symm.trans token) items
  | object token members => exact .object ((skipBlanksTwice text).symm.trans token) members

theorem Spells.unspaced {tree : Tree} {text rest : Bytes} (spelled : Spells (.value tree) text rest) :
    Spells (.value tree) (skipBlanks text) rest := by
  cases spelled with
  | scalar written token => exact .scalar written ((skipBlanksTwice text).trans token)
  | list token items => exact .list ((skipBlanksTwice text).trans token) items
  | object token members => exact .object ((skipBlanksTwice text).trans token) members

theorem Spells.spacedMember {name : Bytes} {tree : Tree} {text rest : Bytes}
    (spelled : Spells (.member name tree) (skipBlanks text) rest) : Spells (.member name tree) text rest := by
  cases spelled with
  | member written token colon spelled =>
    exact .member written ((skipBlanksTwice text).symm.trans token) colon spelled

theorem entered {frame : Frame} {outer : List Frame} {text rest : Bytes} {b : UInt8} {tail : Bytes}
    (token : skipBlanks text = b :: tail) (completes : Completes frame.entry (frame :: outer) (b :: tail) rest) :
    ∃ middle, frame.Ends true text middle ∧ Closes outer middle rest := by
  rw [← token] at completes
  cases frame with
  | list =>
    obtain ⟨tree, middle, spelled, after, ⟨trees, items⟩, closes⟩ := completes
    exact ⟨after, ⟨_, .firstItem spelled.spaced items⟩, closes⟩
  | object =>
    obtain ⟨name, tree, middle, spelled, after, ⟨entries, members⟩, closes⟩ := completes
    exact ⟨after, ⟨_, .firstMember spelled.spacedMember members⟩, closes⟩

theorem separated {frame : Frame} {outer : List Frame} {text rest tail : Bytes} (token : skipBlanks text = 44 :: tail)
    (completes : Completes frame.entry (frame :: outer) tail rest) : Closes (frame :: outer) text rest := by
  cases frame with
  | list =>
    obtain ⟨tree, middle, spelled, after, ⟨trees, items⟩, closes⟩ := completes
    exact ⟨after, ⟨_, .nextItem token spelled items⟩, closes⟩
  | object =>
    obtain ⟨name, tree, middle, spelled, after, ⟨entries, members⟩, closes⟩ := completes
    exact ⟨after, ⟨_, .nextMember token spelled members⟩, closes⟩

theorem ended {frame : Frame} {text rest : Bytes} (first : Bool) (token : skipBlanks text = frame.closing :: rest) :
    frame.Ends first text rest := by
  cases frame with
  | list => exact ⟨[], .lastItem token⟩
  | object => exact ⟨[], .lastMember token⟩

theorem entryProper (frame : Frame) (outer : List Frame) (name : frame.entry = .name) :
    ∃ others, frame :: outer = .object :: others := by
  cases frame with
  | list => cases name
  | object => exact ⟨outer, rfl⟩

def Sources (fuel : Nat) (rest : Bytes) : Prop :=
  ∀ expecting frames text, (expecting = .name → ∃ outer, frames = .object :: outer) →
    skipFrom fuel expecting frames text = .ok rest → Completes expecting frames text rest

namespace Sources
variable {fuel : Nat} {frame : Frame} {frames outer : List Frame} {text tail rest : Bytes} {b : UInt8}

theorem resumed (sources : Sources fuel rest) (passed : resume fuel frames text = .ok rest) :
    Closes frames text rest := by
  cases frames with
  | nil =>
    cases passed
    rfl
  | cons frame outer => exact sources .nextEntry _ _ nofun passed

theorem value (sources : Sources fuel rest) (token : skipBlanks text = b :: tail)
    (passed : skipFrom (fuel + 1) .value frames text = .ok rest) : Completes .value frames text rest := by
  cases scalar : skipScalar b tail with
  | error fault => simp [skipFrom, token, scalar] at passed
  | ok result =>
    rcases scalarPassedSource scalar with ⟨raw, after, written, split, rfl⟩ | ⟨rfl, opens⟩
    · rw [scalarStep token scalar] at passed
      exact ⟨.scalar raw, after, .scalar written (token.trans split), sources.resumed passed⟩
    · rw [openStep token scalar] at passed
      obtain ⟨middle, ends, closes⟩ := sources .firstEntry _ _ nofun passed
      rcases opens with rfl | rfl
      · obtain ⟨trees, items⟩ := ends
        exact ⟨.list trees, middle, .list token items, closes⟩
      · obtain ⟨entries, members⟩ := ends
        exact ⟨.object entries, middle, .object token members, closes⟩

theorem name (sources : Sources fuel rest) (token : skipBlanks text = b :: tail)
    (passed : skipFrom (fuel + 1) .name (.object :: outer) text = .ok rest) :
    Completes .name (.object :: outer) text rest := by
  by_cases quoted : b = 34
  · subst quoted
    cases named : skipTextTail tail with
    | error fault => simp [skipFrom, token, named] at passed
    | ok after =>
      obtain ⟨name, written, rfl⟩ := textPassedSource named
      cases colon : skipBlanks after with
      | nil => simp [skipFrom, token, named, colon] at passed
      | cons c value =>
        by_cases isColon : c = 58
        · subst isColon
          rw [nameStep token named colon] at passed
          obtain ⟨tree, middle, spelled, closes⟩ := sources .value _ _ nofun passed
          exact ⟨name, tree, middle, .member written token colon spelled, closes⟩
        · simp [skipFrom, token, named, colon, isColon] at passed
  · simp [skipFrom, token, quoted] at passed

theorem firstEntry (sources : Sources fuel rest) (token : skipBlanks text = b :: tail)
    (passed : skipFrom (fuel + 1) .firstEntry (frame :: outer) text = .ok rest) :
    Completes .firstEntry (frame :: outer) text rest := by
  by_cases closes : b = frame.closing
  · rw [closes] at token
    rw [closeStep (Or.inl rfl) token] at passed
    exact ⟨tail, ended true token, sources.resumed passed⟩
  · rw [enterStep token closes] at passed
    exact entered token (sources _ _ _ (entryProper frame outer) passed)

theorem nextEntry (sources : Sources fuel rest) (token : skipBlanks text = b :: tail)
    (passed : skipFrom (fuel + 1) .nextEntry (frame :: outer) text = .ok rest) :
    Completes .nextEntry (frame :: outer) text rest := by
  by_cases closes : b = frame.closing
  · rw [closes] at token
    rw [closeStep (Or.inr rfl) token] at passed
    exact ⟨tail, ended false token, sources.resumed passed⟩
  · by_cases comma : b = 44
    · rw [comma] at token
      rw [commaStep token] at passed
      exact separated token (sources _ _ _ (entryProper frame outer) passed)
    · simp [skipFrom, token, closes, comma] at passed

end Sources

theorem skipFromSource (fuel : Nat) (rest : Bytes) : Sources fuel rest := by
  induction fuel with
  | zero => exact fun _ _ _ _ passed => nomatch passed
  | succ fuel ih =>
    intro expecting frames text proper passed
    cases token : skipBlanks text with
    | nil => simp [skipFrom, token] at passed
    | cons b tail =>
      cases expecting with
      | value => exact ih.value token passed
      | name =>
        obtain ⟨outer, rfl⟩ := proper rfl
        exact ih.name token passed
      | firstEntry =>
        cases frames with
        | nil => simp [skipFrom, token] at passed
        | cons frame outer => exact ih.firstEntry token passed
      | nextEntry =>
        cases frames with
        | nil => simp [skipFrom, token] at passed
        | cons frame outer => exact ih.nextEntry token passed

theorem valuePassedSource {text rest : Bytes} (passed : skipValue text = .ok rest) :
    ∃ tree, Spells (.value tree) text rest := by
  obtain ⟨tree, middle, spelled, closed⟩ := skipFromSource _ _ .value _ _ nofun passed
  cases closed
  exact ⟨tree, spelled⟩

def Part.Unique : Part → (bytes rest : Bytes) → Prop
  | value tree, bytes, rest => Delimited rest → ∀ other after,
      Spells (.value other) bytes after → Delimited after → other = tree ∧ after = rest
  | member name tree, bytes, rest => Delimited rest → ∀ label other after,
      Spells (.member label other) bytes after → Delimited after → label = name ∧ other = tree ∧ after = rest
  | items first trees, bytes, rest => ∀ others after,
      Spells (.items first others) bytes after → others = trees ∧ after = rest
  | members first entries, bytes, rest => ∀ others after,
      Spells (.members first others) bytes after → others = entries ∧ after = rest

theorem scalarNoFrame {raw rest inner text : Bytes} {b : UInt8} (written : ScalarText raw)
    (opens : b = 91 ∨ b = 123) (token : skipBlanks text = raw ++ rest) : skipBlanks text ≠ b :: inner := by
  intro frame
  obtain ⟨c, tail, rfl, _, _, notList, _, notObject, _⟩ := scalarStart written
  rw [token, List.cons_append] at frame
  cases frame
  rcases opens with rfl | rfl
  · exact notList rfl
  · exact notObject rfl

theorem scalarUnique {raw text rest : Bytes} (written : ScalarText raw) (token : skipBlanks text = raw ++ rest) :
    (Part.value (.scalar raw)).Unique text rest := by
  intro delimited other after again ends
  have same := (valuePassed again ends).symm.trans (valuePassed (.scalar written token) delimited)
  cases same
  cases again with
  | scalar _ twice => exact ⟨congrArg Tree.scalar (List.append_cancel_right (twice.symm.trans token)), rfl⟩
  | list frame _ => exact absurd frame (scalarNoFrame written (Or.inl rfl) token)
  | object frame _ => exact absurd frame (scalarNoFrame written (Or.inr rfl) token)

theorem listUnique {text inner rest : Bytes} {trees : List Tree} (token : skipBlanks text = 91 :: inner)
    (items : (Part.items true trees).Unique inner rest) : (Part.value (.list trees)).Unique text rest := by
  intro _ other after again _
  cases again with
  | scalar written scalar => exact absurd token (scalarNoFrame written (Or.inl rfl) scalar)
  | list twice others =>
    cases token.symm.trans twice
    obtain ⟨rfl, rfl⟩ := items _ _ others
    exact ⟨rfl, rfl⟩
  | object twice _ => cases token.symm.trans twice

theorem objectUnique {text inner rest : Bytes} {entries : List (Bytes × Tree)} (token : skipBlanks text = 123 :: inner)
    (members : (Part.members true entries).Unique inner rest) : (Part.value (.object entries)).Unique text rest := by
  intro _ other after again _
  cases again with
  | scalar written scalar => exact absurd token (scalarNoFrame written (Or.inr rfl) scalar)
  | list twice _ => cases token.symm.trans twice
  | object twice others =>
    cases token.symm.trans twice
    obtain ⟨rfl, rfl⟩ := members _ _ others
    exact ⟨rfl, rfl⟩

theorem memberUnique {text name after value rest : Bytes} {tree : Tree} (written : TextBody name)
    (token : skipBlanks text = 34 :: (name ++ 34 :: after)) (colon : skipBlanks after = 58 :: value)
    (unique : (Part.value tree).Unique value rest) : (Part.member name tree).Unique text rest := by
  intro delimited label other left again ends
  cases again with
  | member another twice separator spelled =>
    obtain ⟨rfl, rfl⟩ := bodyUnique another written (List.cons.inj (twice.symm.trans token)).2
    cases colon.symm.trans separator
    obtain ⟨rfl, rfl⟩ := unique delimited _ _ spelled ends
    exact ⟨rfl, rfl, rfl⟩

theorem Starts.same {first : Bool} {text entry other : Bytes} (starts : Starts first text entry)
    (again : Starts first text other) : other = entry := by
  cases first with
  | true => exact again.trans starts.symm
  | false => exact (List.cons.inj (again.symm.trans starts)).2

theorem Starts.unclosed {first : Bool} {text entry after tail : Bytes} {b c : UInt8} (starts : Starts first text entry)
    (token : skipBlanks entry = b :: tail) (differs : b ≠ c) (comma : c ≠ 44) : skipBlanks text ≠ c :: after := by
  intro closed
  cases first with
  | true =>
    cases starts
    exact differs (List.cons.inj (token.symm.trans closed)).1
  | false => exact comma (List.cons.inj (closed.symm.trans starts)).1

theorem noItemsUnique {first : Bool} {text rest : Bytes} (token : skipBlanks text = 93 :: rest) :
    (Part.items first []).Unique text rest := by
  intro others after again
  cases others with
  | nil =>
    cases token.symm.trans (spellsNoItems.mp again)
    exact ⟨rfl, rfl⟩
  | cons other others =>
    obtain ⟨entry, middle, starts, item, _⟩ := spellsItems.mp again
    obtain ⟨b, tail, start, _, notClosing, _⟩ := item.start
    exact absurd token (starts.unclosed start notClosing (by decide))

theorem itemsUnique {first : Bool} {tree : Tree} {trees : List Tree} {text entry middle rest : Bytes}
    (starts : Starts first text entry) (item : Spells (.value tree) entry middle)
    (later : Spells (.items false trees) middle rest) (here : (Part.value tree).Unique entry middle)
    (behind : (Part.items false trees).Unique middle rest) : (Part.items first (tree :: trees)).Unique text rest := by
  intro others after again
  cases others with
  | nil =>
    obtain ⟨b, tail, start, _, notClosing, _⟩ := item.start
    exact absurd (spellsNoItems.mp again) (starts.unclosed start notClosing (by decide))
  | cons other others =>
    obtain ⟨place, left, same, another, more⟩ := spellsItems.mp again
    cases starts.same same
    obtain ⟨rfl, rfl⟩ := here later.delimitedItems _ _ another more.delimitedItems
    obtain ⟨rfl, rfl⟩ := behind _ _ more
    exact ⟨rfl, rfl⟩

theorem noMembersUnique {first : Bool} {text rest : Bytes} (token : skipBlanks text = 125 :: rest) :
    (Part.members first []).Unique text rest := by
  intro others after again
  cases others with
  | nil =>
    cases token.symm.trans (spellsNoMembers.mp again)
    exact ⟨rfl, rfl⟩
  | cons other others =>
    obtain ⟨entry, middle, starts, member, _⟩ := spellsMembers.mp again
    obtain ⟨tail, start⟩ := member.startMember
    exact absurd token (starts.unclosed start (by decide) (by decide))

theorem membersUnique {first : Bool} {name : Bytes} {tree : Tree} {entries : List (Bytes × Tree)}
    {text entry middle rest : Bytes} (starts : Starts first text entry)
    (member : Spells (.member name tree) entry middle)
    (later : Spells (.members false entries) middle rest) (here : (Part.member name tree).Unique entry middle)
    (behind : (Part.members false entries).Unique middle rest) :
    (Part.members first ((name, tree) :: entries)).Unique text rest := by
  intro others after again
  cases others with
  | nil =>
    obtain ⟨tail, start⟩ := member.startMember
    exact absurd (spellsNoMembers.mp again) (starts.unclosed start (by decide) (by decide))
  | cons other others =>
    obtain ⟨place, left, same, another, more⟩ := spellsMembers.mp again
    cases starts.same same
    obtain ⟨rfl, rfl, rfl⟩ := here later.delimitedMembers _ _ _ another more.delimitedMembers
    obtain ⟨rfl, rfl⟩ := behind _ _ more
    exact ⟨rfl, rfl⟩

theorem Spells.unique {part : Part} {text rest : Bytes} (spelled : Spells part text rest) : part.Unique text rest := by
  induction spelled with
  | scalar written token => exact scalarUnique written token
  | list token _ items => exact listUnique token items
  | object token _ members => exact objectUnique token members
  | lastItem token => exact noItemsUnique token
  | @firstItem text _ _ _ _ item later here behind =>
    exact @itemsUnique true _ _ text _ _ _ rfl item later here behind
  | nextItem token item later here behind => exact @itemsUnique false _ _ _ _ _ _ token item later here behind
  | member written token colon _ unique => exact memberUnique written token colon unique
  | lastMember token => exact noMembersUnique token
  | @firstMember text _ _ _ _ _ member later here behind =>
    exact @membersUnique true _ _ _ text _ _ _ rfl member later here behind
  | nextMember token member later here behind =>
    exact @membersUnique false _ _ _ _ _ _ _ token member later here behind

theorem spelledUnique {tree other : Tree} {document : Bytes} (spelled : Spelled tree document)
    (again : Spelled other document) : other = tree := by
  obtain ⟨rest, spelled, blank⟩ := spelled
  obtain ⟨after, again, ends⟩ := again
  exact (spelled.unique (delimitedEnd blank) other after again (delimitedEnd ends)).1

end WalletVault.Json
