import Mathlib.Data.List.Pairwise
import WalletVault.Proofs.Json.Members

/-! What a reader of records takes a tree for: an object by the names of its members, a list by the order of the
fields. Both come down to entries with names, of which only those with the names of the fields count. -/
namespace WalletVault.Json
open Fallible

def Field.Apart {δ : Type} (field other : Field δ) : Prop :=
  ∀ draft, (∀ value, other.get (field.put draft value) = other.get draft) ∧
    ∀ value, field.get (other.put draft value) = field.get draft

instance {δ : Type} : Std.Symm (@Field.Apart δ) where
  symm _ _ apart draft := (apart draft).symm

/- Every field has a name and a place of its own. -/
structure Lawful {δ : Type} (fields : List (Field δ)) : Prop where
  distinct : (fields.map Field.name).Nodup
  readers : ∀ field ∈ fields, Grammatical field.reader
  set : ∀ field ∈ fields, ∀ draft value, field.get (field.put draft value) = some value
  apart : fields.Pairwise Field.Apart

section Places
variable {δ : Type} {fields : List (Field δ)} {field other : Field δ} {name : String} {draft next last : δ}
  {text rest : Bytes} {tree : Tree} {entries : List (String × Tree)}

theorem fieldOk : field.read draft text = .ok (next, rest) ↔
    ∃ value, field.reader text = .ok (value, rest) ∧ next = field.put draft value := by
  constructor
  · intro read
    obtain ⟨⟨value, left⟩, taken, same⟩ := mapOk.mp read
    cases same
    exact ⟨value, taken, rfl⟩
  · rintro ⟨value, taken, rfl⟩
    exact mapOk.mpr ⟨(value, rest), taken, rfl⟩

theorem fieldTaken (grammatical : Grammatical field.reader) :
    Takes (field.read draft) tree next ↔ ∃ value, Takes field.reader tree value ∧ next = field.put draft value := by
  constructor
  · have sources (text : Bytes) (next : δ) (rest : Bytes) (read : field.read draft text = .ok (next, rest)) :
        ∃ tree, Spells (.value tree) text rest ∧
          ∃ value, Takes field.reader tree value ∧ next = field.put draft value := by
      obtain ⟨value, taken, rfl⟩ := fieldOk.mp read
      obtain ⟨tree, spelled, takes⟩ := grammatical _ _ _ taken
      exact ⟨tree, spelled, value, takes, rfl⟩
    exact fun takes => takes.source sources
  · rintro ⟨value, takes, rfl⟩
    exact ⟨takes.written, fun text rest spelled delimited =>
      fieldOk.mpr ⟨value, takes.reads text rest spelled delimited, rfl⟩⟩

theorem Lawful.found (lawful : Lawful fields) (member : field ∈ fields) :
    fields.find? (·.name = field.name) = some field := by
  have distinct := lawful.distinct
  clear lawful
  induction fields with
  | nil => cases member
  | cons head tail ih =>
    obtain ⟨apart, distinct⟩ := List.nodup_cons.mp distinct
    rcases List.mem_cons.mp member with rfl | later
    · simp
    · have differs : head.name ≠ field.name := by
        intro same
        exact apart (same ▸ List.mem_map_of_mem later)
      rw [List.find?_cons_of_neg (by simpa using differs)]
      exact ih later distinct

theorem Lawful.grammatical (lawful : Lawful fields) : ∀ field ∈ fields, ∀ draft, Grammatical (field.read draft) := by
  intro field member draft text next rest read
  obtain ⟨value, taken, rfl⟩ := fieldOk.mp read
  obtain ⟨tree, spelled, takes⟩ := lawful.readers field member _ _ _ taken
  exact ⟨tree, spelled, (fieldTaken (lawful.readers field member)).mpr ⟨value, takes, rfl⟩⟩

theorem Lawful.kept (lawful : Lawful fields) (member : field ∈ fields) (another : other ∈ fields)
    (differs : field.name ≠ other.name) (value : field.α) : other.get (field.put draft value) = other.get draft :=
  (lawful.apart.forall member another (fun same => differs (congrArg Field.name same)) draft).1 value

theorem Lawful.isRead (lawful : Lawful fields) (member : field ∈ fields) (another : other ∈ fields)
    (takes : Takes (field.read draft) tree next) :
    other.isRead next = (decide (other.name = field.name) || other.isRead draft) := by
  obtain ⟨value, _, rfl⟩ := (fieldTaken (lawful.readers field member)).mp takes
  by_cases equal : other.name = field.name
  · have only : field = other := Option.some.inj ((lawful.found member).symm.trans (equal ▸ lawful.found another))
    subst only
    simp [Field.isRead, lawful.set field member]
  · simp [Field.isRead, lawful.kept member another (Ne.symm equal), equal]

def entryOf? (entries : List (String × Tree)) (name : String) : Option Tree :=
  (entries.find? (·.1 = name)).map (·.2)

theorem entryHere : entryOf? ((name, tree) :: entries) name = some tree := by
  simp [entryOf?]

theorem entryElsewhere {other : String} (differs : other ≠ name) :
    entryOf? ((other, tree) :: entries) name = entryOf? entries name := by
  simp [entryOf?, List.find?_cons_of_neg, differs]

theorem Gathers.place (lawful : Lawful fields) (member : field ∈ fields)
    (gathers : Gathers fields draft entries last) :
    (entryOf? entries field.name = none ∧ field.get last = field.get draft) ∨
      ∃ tree value, entryOf? entries field.name = some tree ∧ field.get draft = none ∧
        Takes field.reader tree value ∧ field.get last = some value := by
  induction gathers with
  | done draft => exact Or.inl ⟨rfl, rfl⟩
  | @known draft next last name tree entries other found unread takes _ ih =>
    have inside := List.mem_of_find?_eq_some found
    have named : other.name = name := by simpa using List.find?_some found
    obtain ⟨value, taken, rfl⟩ := (fieldTaken (lawful.readers other inside)).mp takes
    by_cases here : name = field.name
    · cases (here ▸ found).symm.trans (lawful.found member)
      have empty : field.get draft = none := by simpa [Field.isRead] using unread
      have filled := lawful.set field member draft value
      rcases ih with ⟨_, left⟩ | ⟨_, _, _, unfilled, _⟩
      · exact Or.inr ⟨tree, value, here ▸ entryHere, empty, taken, left.trans filled⟩
      · cases filled.symm.trans unfilled
    · have kept : field.get (other.put draft value) = field.get draft :=
        lawful.kept inside member (named ▸ here) value
      rw [entryElsewhere here, ← kept]
      exact ih
  | @unknown draft last name tree entries foreign _ _ ih =>
    have differs : name ≠ field.name := by
      rintro rfl
      cases foreign.symm.trans (lawful.found member)
    rw [entryElsewhere differs]
    exact ih

theorem Gathers.holds (lawful : Lawful fields) (found : fields.find? (·.name = name) = some field)
    (gathers : Gathers fields draft entries last) (empty : field.get draft = none) :
    Option.Rel (Takes field.reader) (entryOf? entries name) (field.get last) := by
  have member := List.mem_of_find?_eq_some found
  have named : field.name = name := by simpa using List.find?_some found
  rcases gathers.place lawful member with ⟨absent, kept⟩ | ⟨tree, value, entry, _, takes, filled⟩
  · rw [← named, absent, kept, empty]
    exact .none
  · rw [← named, entry, filled]
    exact .some takes

def Once (names : List String) (entries : List (String × Tree)) : Prop :=
  entries.Pairwise fun entry other => entry.1 ∈ names → entry.1 ≠ other.1

theorem notFound {name : String} : fields.find? (·.name = name) = none ↔ name ∉ fields.map Field.name := by
  simp only [List.find?_eq_none, List.mem_map, not_exists, not_and, decide_eq_true_eq]

theorem Gathers.absent (lawful : Lawful fields) (gathers : Gathers fields draft entries last) {field : Field δ}
    (member : field ∈ fields) (read : field.isRead draft = true) : ∀ entry ∈ entries, entry.1 ≠ field.name := by
  induction gathers with
  | done => simp
  | @known draft next last name tree entries other found unread takes _ ih =>
    have named : other.name = name := by simpa using List.find?_some found
    have differs : field.name ≠ other.name := by
      intro same
      have only := (lawful.found member).symm.trans ((same.trans named) ▸ found)
      cases only
      rw [unread] at read
      cases read
    have still : field.isRead next = true := by
      rw [lawful.isRead (List.mem_of_find?_eq_some found) member takes, read, Bool.or_true]
    exact List.forall_mem_cons.mpr ⟨named ▸ differs.symm, ih still⟩
  | unknown foreign _ _ ih =>
    refine List.forall_mem_cons.mpr ⟨?_, ih read⟩
    rintro rfl
    exact notFound.mp foreign (List.mem_map_of_mem member)

theorem Gathers.once (lawful : Lawful fields) (gathers : Gathers fields draft entries last) :
    Once (fields.map Field.name) entries := by
  induction gathers with
  | done => exact .nil
  | @known draft next last name tree entries field found unread takes later ih =>
    refine .cons (fun entry member _ => ?_) ih
    have here := List.mem_of_find?_eq_some found
    have named : field.name = name := by simpa using List.find?_some found
    have read : field.isRead next = true := by simp [lawful.isRead here here takes]
    exact named ▸ (later.absent lawful here read entry member).symm
  | unknown foreign _ _ ih => exact .cons (fun _ _ known => absurd known (notFound.mp foreign)) ih

theorem gathersOf (lawful : Lawful fields) (once : Once (fields.map Field.name) entries)
    (written : ∀ entry ∈ entries, entry.1 ∉ fields.map Field.name → entry.2.Written)
    (taken : ∀ field ∈ fields, ∀ tree, entryOf? entries field.name = some tree →
      field.isRead draft = false ∧ ∀ draft, ∃ next, Takes (field.read draft) tree next) :
    ∃ last, Gathers fields draft entries last := by
  induction entries generalizing draft with
  | nil => exact ⟨draft, .done draft⟩
  | cons entry entries ih =>
    obtain ⟨name, tree⟩ := entry
    obtain ⟨apart, later⟩ := List.pairwise_cons.mp once
    obtain ⟨here, others⟩ := List.forall_mem_cons.mp written
    cases found : fields.find? (·.name = name) with
    | none =>
      have elsewhere {field : Field δ} (member : field ∈ fields) : name ≠ field.name := by
        rintro rfl
        exact notFound.mp found (List.mem_map_of_mem member)
      obtain ⟨last, gathers⟩ := @ih draft later others fun field member tree entry =>
        taken field member tree ((entryElsewhere (elsewhere member)).trans entry)
      exact ⟨last, .unknown found (here (notFound.mp found)) gathers⟩
    | some field =>
      have member := List.mem_of_find?_eq_some found
      have named : field.name = name := by simpa using List.find?_some found
      subst named
      obtain ⟨unread, takes⟩ := taken field member tree entryHere
      obtain ⟨next, takes⟩ := takes draft
      obtain ⟨last, gathers⟩ := @ih next later others fun other another tree entry => by
        have differs : field.name ≠ other.name := by
          obtain ⟨found, first, _⟩ := Option.map_eq_some_iff.mp entry
          have inside := List.mem_of_find?_eq_some first
          have labelled : found.1 = other.name := by simpa using List.find?_some first
          exact labelled ▸ apart found inside (List.mem_map_of_mem member)
        obtain ⟨unread, takes⟩ := taken other another tree ((entryElsewhere differs).trans entry)
        refine ⟨?_, takes⟩
        rw [lawful.isRead member another ‹_›, unread]
        simp [differs.symm]
      exact ⟨last, .known field found unread takes gathers⟩

theorem entryOnce {names : List String} (once : Once names entries) (known : name ∈ names) :
    entryOf? entries name = some tree ↔ (name, tree) ∈ entries := by
  induction entries with
  | nil => simp [entryOf?]
  | cons entry entries ih =>
    obtain ⟨other, here⟩ := entry
    obtain ⟨apart, once⟩ := List.pairwise_cons.mp once
    by_cases same : other = name
    · subst same
      rw [entryHere, List.mem_cons]
      constructor
      · rintro ⟨⟩
        exact Or.inl rfl
      · rintro (⟨⟨⟩⟩ | later)
        · rfl
        · exact absurd rfl (apart (other, tree) later known)
    · rw [entryElsewhere same, ih once, List.mem_cons]
      simp [Ne.symm same]

theorem oncePermuted {names : List String} {others : List (String × Tree)} (permuted : entries.Perm others)
    (once : Once names entries) : Once names others := by
  refine (permuted.pairwise_iff ?_).mp once
  exact fun differs known same => differs (same ▸ known) same.symm

theorem entryPermuted {names : List String} {others : List (String × Tree)} (permuted : entries.Perm others)
    (once : Once names entries) (known : name ∈ names) : entryOf? others name = entryOf? entries name := by
  refine Option.ext fun tree => ?_
  rw [entryOnce once known, entryOnce (oncePermuted permuted once) known, permuted.mem_iff]

end Places

def Tree.Entries (names : List String) : Tree → List (String × Tree) → Prop
  | scalar _, _ => False
  | list trees, entries => trees.length ≤ names.length ∧ entries = names.zip trees
  | object members, entries => List.Forall₂ Names members entries

theorem listEndOk {text rest : Bytes} : readListEnd text = .ok rest ↔ skipBlanks text = 93 :: rest := by
  unfold readListEnd
  split
  · rename_i token
    simp [token]
  · rename_i b tail token
    rw [token]
    split
    · rename_i closes
      simp [closes]
    · rename_i goesOn
      split <;> simp [goesOn]

section Record
variable {δ α : Type} {shape : Shape δ α} {draft last : δ}

theorem placesTaken {fields places : List (Field δ)} (lawful : Lawful fields)
    (within : ∀ field ∈ places, field ∈ fields)
    {trees : List Tree} (short : trees.length ≤ places.length)
    (gathers : Gathers fields draft ((places.map Field.name).zip trees) last) {first : Bool} {text rest : Bytes}
    (spelled : Spells (.items first trees) text rest) :
    ∃ left, readFields places first draft text = .ok (last, left) ∧ readListEnd left = .ok rest := by
  induction places generalizing trees draft first text with
  | nil =>
    cases trees with
    | nil =>
      cases gathers
      exact ⟨text, rfl, listEndOk.mpr (spellsNoItems.mp spelled)⟩
    | cons tree trees => cases Nat.not_succ_le_zero _ short
  | cons place places ih =>
    obtain ⟨here, within⟩ := List.forall_mem_cons.mp within
    cases trees with
    | nil =>
      cases gathers
      have token := spellsNoItems.mp spelled
      exact ⟨text, by simp only [readFields, elementNone.mpr ⟨rest, token⟩], listEndOk.mpr token⟩
    | cons tree trees =>
      obtain ⟨entry, middle, starts, item, later⟩ := spellsItems.mp spelled
      cases gathers with
      | unknown foreign _ _ => cases foreign.symm.trans (lawful.found here)
      | known field found unread takes gathers =>
        cases found.symm.trans (lawful.found here)
        obtain ⟨left, read, ends⟩ := ih within (Nat.le_of_succ_le_succ short) gathers later
        refine ⟨left, ?_, ends⟩
        simp only [readFields, elementAt starts item, takes.reads _ _ item.unspaced later.delimitedItems, read]

theorem placesSource {fields places : List (Field δ)} (lawful : Lawful fields)
    (within : ∀ field ∈ places, field ∈ fields) (distinct : (places.map Field.name).Nodup)
    (unread : ∀ field ∈ places, field.isRead draft = false) {first : Bool} {text left rest : Bytes}
    (read : readFields places first draft text = .ok (last, left)) (ends : readListEnd left = .ok rest) :
    ∃ trees, Spells (.items first trees) text rest ∧ trees.length ≤ places.length ∧
      Gathers fields draft ((places.map Field.name).zip trees) last := by
  induction places generalizing draft first text with
  | nil =>
    cases read
    exact ⟨[], .lastItem (listEndOk.mp ends), Nat.le_refl _, .done _⟩
  | cons place places ih =>
    obtain ⟨here, within⟩ := List.forall_mem_cons.mp within
    obtain ⟨apart, distinct⟩ := List.nodup_cons.mp distinct
    obtain ⟨fresh, unread⟩ := List.forall_mem_cons.mp unread
    unfold readFields at read
    split at read
    · cases read
    · cases read
      exact ⟨[], .lastItem (listEndOk.mp ends), Nat.zero_le _, .done _⟩
    · rename_i inner next
      obtain ⟨entry, starts, rfl⟩ := elementSome next
      split at read
      · cases read
      · rename_i following middle taken
        obtain ⟨tree, item, takes⟩ := lawful.grammatical place here draft _ _ _ taken
        have still : ∀ field ∈ places, field.isRead following = false := by
          intro field member
          have differs : field.name ≠ place.name := fun same => apart (same ▸ List.mem_map_of_mem member)
          rw [lawful.isRead here (within field member) takes, unread field member]
          simp [differs]
        obtain ⟨trees, later, short, gathers⟩ := ih within distinct still read
        exact ⟨tree :: trees, spellsItems.mpr ⟨entry, middle, starts, item.spaced, later⟩,
          Nat.succ_le_succ short, .known place (lawful.found here) fresh takes gathers⟩

theorem objectWritten {members : List (Bytes × Tree)}
    (all : ∀ member ∈ members, TextBody member.1 ∧ member.2.Written) : (Tree.object members).Written := by
  have entries (first : Bool) : ∃ text, Spells (.members first members) text [] := by
    induction members generalizing first with
    | nil => exact ⟨[125], .lastMember rfl⟩
    | cons member members ih =>
      obtain ⟨⟨named, document, rest, spelled, _⟩, others⟩ := List.forall_mem_cons.mp all
      obtain ⟨middle, later⟩ := ih others false
      obtain ⟨value, spelled⟩ := spelled.replaced middle
      have entry : Spells (.member member.1 member.2) (34 :: (member.1 ++ 34 :: 58 :: value)) middle :=
        .member named (skipSolid (by decide) _) (skipSolid (by decide) _) spelled
      cases first with
      | true => exact ⟨_, .firstMember entry later⟩
      | false => exact ⟨44 :: _, .nextMember (skipSolid (by decide) _) entry later⟩
  obtain ⟨inner, members⟩ := entries true
  exact ⟨123 :: inner, [], .object (skipSolid (by decide) _) members, rfl⟩

theorem entriesWritten {names : List String} {tree : Tree} {entries : List (String × Tree)}
    (gives : tree.Entries names entries) (written : ∀ entry ∈ entries, entry.2.Written) : tree.Written := by
  cases tree with
  | scalar raw => cases gives
  | list trees =>
    obtain ⟨short, rfl⟩ := gives
    refine listWritten fun tree member => ?_
    have trees : ((names.zip trees).map Prod.snd) = trees := List.map_snd_zip short
    rw [← trees] at member
    obtain ⟨entry, inside, rfl⟩ := List.mem_map.mp member
    exact written entry inside
  | object members =>
    refine objectWritten ?_
    induction gives with
    | nil => simp
    | cons names _ ih =>
      obtain ⟨here, others⟩ := List.forall_mem_cons.mp written
      exact List.forall_mem_cons.mpr ⟨⟨names.written, names.tree ▸ here⟩, ih others⟩

structure LawfulShape (shape : Shape δ α) : Prop extends Lawful shape.fields where
  fresh : ∀ field ∈ shape.fields, field.get shape.empty = none

def Records (shape : Shape δ α) (tree : Tree) (value : α) : Prop :=
  ∃ entries last, tree.Entries (shape.fields.map Field.name) entries ∧
    Gathers shape.fields shape.empty entries last ∧ shape.finish last = some value

theorem recordTaken (lawful : Lawful shape.fields) {tree : Tree} {value : α} (records : Records shape tree value) :
    Takes (readRecord shape) tree value := by
  obtain ⟨entries, last, gives, gathers, finished⟩ := records
  refine ⟨entriesWritten gives gathers.written, fun text rest spelled _ => ?_⟩
  cases spelled with
  | scalar _ _ => cases gives
  | @list _ inner _ trees token items =>
    obtain ⟨short, rfl⟩ := gives
    rw [List.length_map] at short
    obtain ⟨left, read, ends⟩ := placesTaken lawful (fun _ => id) short gathers items
    simp only [readRecord, token, if_neg (by decide : ¬ (91 : UInt8) = 123), if_true, read, finished, ends]
    rfl
  | @object _ inner _ members token spelled =>
    have enough : members.length < inner.length + 1 := Nat.lt_succ_of_lt spelled.membersCount
    obtain ⟨left, read, ends⟩ := membersTaken gathers gives enough spelled
    simp only [readRecord, token, if_true, read, finished, ends, List.tail_cons]

theorem recordSource (lawful : LawfulShape shape) (text : Bytes) (value : α) (rest : Bytes)
    (read : readRecord shape text = .ok (value, rest)) :
    ∃ tree, Spells (.value tree) text rest ∧ Records shape tree value := by
  cases readRecordSource read with
  | @object inner left last token taken finished ends =>
    obtain ⟨members, entries, after, spelled, closes, names, gathers⟩ := membersSource lawful.grammatical taken
    rw [closes] at ends
    cases ends
    exact ⟨.object members, .object token spelled, entries, last, names, gathers, finished⟩
  | list token taken finished ends =>
    have unread : ∀ field ∈ shape.fields, field.isRead shape.empty = false := by
      intro field member
      rw [Field.isRead, lawful.fresh field member]
      rfl
    obtain ⟨trees, items, short, gathers⟩ :=
      placesSource lawful.toLawful (fun _ => id) lawful.distinct unread taken ends
    exact ⟨.list trees, .list token items, _, _, ⟨by rwa [List.length_map], rfl⟩, gathers, finished⟩

theorem recordGrammatical (lawful : LawfulShape shape) : Grammatical (readRecord shape) := by
  intro text value rest read
  obtain ⟨tree, spelled, records⟩ := recordSource lawful text value rest read
  exact ⟨tree, spelled, recordTaken lawful.toLawful records⟩

theorem recordMeans (lawful : LawfulShape shape) {tree : Tree} {value : α} :
    Takes (readRecord shape) tree value ↔ Records shape tree value :=
  ⟨fun takes => takes.source (recordSource lawful), recordTaken lawful.toLawful⟩

end Record

theorem documentMeans {α : Type} {reader : Reader α} (grammatical : Grammatical reader) {document : Bytes} {value : α} :
    readDocument reader document = .ok value ↔ ∃ tree, Spelled tree document ∧ Takes reader tree value := by
  unfold readDocument
  constructor
  · intro read
    split at read
    · cases read
    · rename_i found rest taken
      split at read
      · rename_i blank
        cases read
        obtain ⟨tree, spelled, takes⟩ := grammatical _ _ _ taken
        exact ⟨tree, ⟨rest, spelled, blank⟩, takes⟩
      · cases read
  · rintro ⟨tree, ⟨rest, spelled, blank⟩, takes⟩
    simp only [takes.reads document rest spelled (delimitedEnd blank), blank]

end WalletVault.Json
