import WalletVault.Proofs.Json.Meaning

/-! Objects are read member by member: a draft is filled by the trees of the names that are known, and the other
trees are passed over. -/
namespace WalletVault.Json
open Fallible

theorem byteOk {byte : UInt8} {text rest : Bytes} : readByte byte text = .ok rest ↔ skipBlanks text = byte :: rest := by
  unfold readByte
  split
  · rename_i token
    simp [token]
  · rename_i b tail token
    rw [token]
    split
    · rename_i same
      simp [same]
    · rename_i differs
      simp [differs]

def readName : Bytes → Except Fault (Option (String × Bytes))
  | [] => .error (.within [])
  | b :: rest => if b = 34 then (readTextTail rest).map some else .error (.within (b :: rest))

theorem memberCases (first : Bool) (text : Bytes) : nextMember first text =
    match skipBlanks text with
    | [] => .error (.within [])
    | b :: rest =>
      if b = 125 then .ok none
      else if first then readName (b :: rest)
      else if b = 44 then readName (skipBlanks rest)
      else .error (.within (b :: rest)) := by
  unfold nextMember
  cases skipBlanks text with
  | nil => rfl
  | cons b rest => cases skipBlanks rest <;> rfl

theorem nameOk {bytes : Bytes} {result : Option (String × Bytes)} : readName bytes = .ok result ↔
    ∃ name body after, result = some (name, after) ∧ TextBody body ∧ textOf? body = some name ∧
      bytes = 34 :: (body ++ 34 :: after) := by
  constructor
  · intro read
    cases bytes with
    | nil => cases read
    | cons b rest =>
      rw [readName] at read
      split at read
      · rename_i isQuote
        subst isQuote
        obtain ⟨⟨name, after⟩, taken, rfl⟩ := mapOk.mp read
        obtain ⟨body, written, rfl, again⟩ := textTailSource taken
        exact ⟨name, body, after, rfl, written, (textOfSource written).mpr again, rfl⟩
      · cases read
  · rintro ⟨name, body, after, rfl, written, named, rfl⟩
    simp only [readName, if_true, (textOfSource written).mp named after]
    rfl

theorem memberNone {first : Bool} {text : Bytes} :
    nextMember first text = .ok none ↔ ∃ rest, skipBlanks text = 125 :: rest := by
  have noName (bytes : Bytes) : readName bytes ≠ .ok none := by
    intro read
    obtain ⟨_, _, _, absurd, _⟩ := nameOk.mp read
    cases absurd
  rw [memberCases]
  cases skipBlanks text with
  | nil => simp
  | cons b tail =>
    by_cases closes : b = 125
    · simp [closes]
    · have apart : ¬ ∃ rest, b :: tail = 125 :: rest := fun ⟨_, same⟩ => closes (List.cons.inj same).1
      refine iff_of_false (fun next => ?_) apart
      simp only [if_neg closes] at next
      split at next
      · exact noName _ next
      · split at next
        · exact noName _ next
        · cases next

theorem memberSome {first : Bool} {text after : Bytes} {name : String}
    (next : nextMember first text = .ok (some (name, after))) : ∃ entry body, Starts first text entry ∧
      TextBody body ∧ textOf? body = some name ∧ skipBlanks entry = 34 :: (body ++ 34 :: after) := by
  rw [memberCases] at next
  split at next
  · cases next
  · rename_i b tail token
    split at next
    · cases next
    split at next
    · rename_i isFirst
      obtain ⟨_, body, _, same, written, named, split⟩ := nameOk.mp next
      cases same
      exact ⟨text, body, by rw [Starts, if_pos isFirst], written, named, token.trans split⟩
    split at next
    · rename_i isFirst comma
      subst comma
      obtain ⟨_, body, _, same, written, named, split⟩ := nameOk.mp next
      cases same
      exact ⟨tail, body, by rw [Starts, if_neg isFirst, token], written, named, split⟩
    · cases next

theorem memberAt {first : Bool} {text entry body after : Bytes} {name : String} (starts : Starts first text entry)
    (written : TextBody body) (named : textOf? body = some name)
    (token : skipBlanks entry = 34 :: (body ++ 34 :: after)) :
    nextMember first text = .ok (some (name, after)) := by
  have read := nameOk.mpr ⟨name, body, after, rfl, written, named, rfl⟩
  rw [memberCases]
  cases first with
  | true =>
    cases starts
    simpa [token] using read
  | false =>
    have comma : skipBlanks text = 44 :: entry := starts
    simpa [comma, token] using read

theorem Spells.membersCount {entries : List (Bytes × Tree)} {first : Bool} {text rest : Bytes}
    (spelled : Spells (.members first entries) text rest) : entries.length < text.length := by
  induction entries generalizing first text with
  | nil => exact Nat.zero_lt_of_lt (skippedShorter (spellsNoMembers.mp spelled))
  | cons entry entries ih =>
    obtain ⟨front, middle, starts, member, later⟩ := spellsMembers.mp spelled
    cases member with
    | member _ token colon value =>
      have entryShorter := starts.shorter
      have nameShorter := skippedShorter token
      have valueShorter := skippedShorter colon
      have middleShorter := value.shorter later.delimitedMembers
      have count := ih later
      simp only [List.length_append, List.length_cons] at nameShorter ⊢
      omega

structure Names (member : Bytes × Tree) (entry : String × Tree) : Prop where
  written : TextBody member.1
  named : textOf? member.1 = some entry.1
  tree : member.2 = entry.2

/- Entries fill a draft one by one: a field that was not read takes the tree, and other trees are passed over. -/
inductive Gathers {δ : Type} (fields : List (Field δ)) : δ → List (String × Tree) → δ → Prop where
  | done (draft : δ) : Gathers fields draft [] draft
  | known {draft next last : δ} {name : String} {tree : Tree} {entries : List (String × Tree)} (field : Field δ)
      (found : fields.find? (·.name = name) = some field) (unread : field.isRead draft = false)
      (takes : Takes (field.read draft) tree next) (later : Gathers fields next entries last) :
      Gathers fields draft ((name, tree) :: entries) last
  | unknown {draft last : δ} {name : String} {tree : Tree} {entries : List (String × Tree)}
      (foreign : fields.find? (·.name = name) = none) (written : tree.Written)
      (later : Gathers fields draft entries last) : Gathers fields draft ((name, tree) :: entries) last

section Draft
variable {δ : Type} {fields : List (Field δ)} {draft last : δ} {entries : List (String × Tree)}

theorem Gathers.written (gathers : Gathers fields draft entries last) : ∀ entry ∈ entries, entry.2.Written := by
  induction gathers with
  | done => simp
  | known field _ _ takes _ ih => exact List.forall_mem_cons.mpr ⟨takes.written, ih⟩
  | unknown _ written _ ih => exact List.forall_mem_cons.mpr ⟨written, ih⟩

theorem memberTaken {first : Bool} {text front middle : Bytes} {member : Bytes × Tree} {entry : String × Tree}
    (starts : Starts first text front) (spelled : Spells (.member member.1 member.2) front middle)
    (names : Names member entry) : ∃ after value, nextMember first text = .ok (some (entry.1, after)) ∧
      readByte colon after = .ok value ∧ Spells (.value entry.2) value middle := by
  cases spelled with
  | member written token separator value =>
    exact ⟨_, _, memberAt starts written names.named token, byteOk.mpr separator, names.tree ▸ value⟩

theorem membersTaken (gathers : Gathers fields draft entries last) {members : List (Bytes × Tree)}
    (names : List.Forall₂ Names members entries) {fuel : Nat} (enough : members.length < fuel) {first : Bool}
    {text rest : Bytes} (spelled : Spells (.members first members) text rest) :
    ∃ left, readMembers fields fuel first draft text = .ok (last, left) ∧ skipBlanks left = 125 :: rest := by
  induction gathers generalizing members fuel first text with
  | done draft =>
    cases names
    obtain ⟨fuel, rfl⟩ := Nat.exists_eq_succ_of_ne_zero (Nat.ne_of_gt enough)
    have token := spellsNoMembers.mp spelled
    exact ⟨text, by simp only [readMembers, memberNone.mpr ⟨rest, token⟩], token⟩
  | known field found unread takes _ ih =>
    obtain ⟨fuel, rfl⟩ := Nat.exists_eq_succ_of_ne_zero (Nat.ne_of_gt (Nat.zero_lt_of_lt enough))
    cases names with
    | cons member names =>
      obtain ⟨front, middle, starts, spelled, later⟩ := spellsMembers.mp spelled
      obtain ⟨after, value, next, separator, spelled⟩ := memberTaken starts spelled member
      obtain ⟨left, read, token⟩ := ih names (by simpa using enough) later
      refine ⟨left, ?_, token⟩
      simp only [readMembers, next, found, unread, separator, takes.reads _ _ spelled later.delimitedMembers]
      exact read
  | unknown foreign _ _ ih =>
    obtain ⟨fuel, rfl⟩ := Nat.exists_eq_succ_of_ne_zero (Nat.ne_of_gt (Nat.zero_lt_of_lt enough))
    cases names with
    | cons member names =>
      obtain ⟨front, middle, starts, spelled, later⟩ := spellsMembers.mp spelled
      obtain ⟨after, value, next, separator, spelled⟩ := memberTaken starts spelled member
      obtain ⟨left, read, token⟩ := ih names (by simpa using enough) later
      refine ⟨left, ?_, token⟩
      simp only [readMembers, next, foreign, separator, valuePassed spelled later.delimitedMembers]
      exact read

theorem membersSource (grammatical : ∀ field ∈ fields, ∀ draft, Grammatical (field.read draft)) {fuel : Nat}
    {first : Bool} {text left : Bytes} (read : readMembers fields fuel first draft text = .ok (last, left)) :
    ∃ members entries rest, Spells (.members first members) text rest ∧ skipBlanks left = 125 :: rest ∧
      List.Forall₂ Names members entries ∧ Gathers fields draft entries last := by
  induction fuel generalizing first draft text with
  | zero => cases read
  | succ fuel ih =>
    unfold readMembers at read
    split at read
    · cases read
    · rename_i closed
      obtain ⟨rest, token⟩ := memberNone.mp closed
      cases read
      exact ⟨[], [], rest, .lastMember token, token, .nil, .done _⟩
    · rename_i name after next
      obtain ⟨entry, body, starts, written, named, token⟩ := memberSome next
      split at read
      · rename_i field found
        split at read
        · cases read
        rename_i unread
        split at read
        · cases read
        rename_i value separator
        split at read
        · cases read
        rename_i following middle taken
        have member := List.mem_of_find?_eq_some found
        obtain ⟨tree, spelled, takes⟩ := grammatical field member draft _ _ _ taken
        obtain ⟨members, entries, rest, later, ends, names, gathers⟩ := ih read
        refine ⟨(body, tree) :: members, (name, tree) :: entries, rest, ?_, ends, .cons ⟨written, named, rfl⟩ names,
          .known field found (by simpa using unread) takes gathers⟩
        exact spellsMembers.mpr ⟨entry, middle, starts, .member written token (byteOk.mp separator) spelled, later⟩
      · rename_i foreign
        split at read
        · cases read
        rename_i value separator
        split at read
        · cases read
        rename_i middle passed
        obtain ⟨tree, spelled⟩ := valuePassedSource passed
        obtain ⟨members, entries, rest, later, ends, names, gathers⟩ := ih read
        refine ⟨(body, tree) :: members, (name, tree) :: entries, rest, ?_, ends, .cons ⟨written, named, rfl⟩ names,
          .unknown foreign spelled.isWritten gathers⟩
        exact spellsMembers.mpr ⟨entry, middle, starts, .member written token (byteOk.mp separator) spelled, later⟩

end Draft

end WalletVault.Json
