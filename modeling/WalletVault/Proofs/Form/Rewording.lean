import WalletVault.Proofs.Form.Shapes

/-! Documents of one meaning. A document may be reworded in ways that leave the record of a wallet the same, or the
same but for the case of its digits and the order of its keys. -/
namespace WalletVault
open Json (Reader Shape Tree TextBody textOf? quoted nullText flagText Takes Gathers LawfulShape Once entryOf?
  nullTaken flagTaken listTaken gathersOf fieldTaken)

inductive RecordKind where
  | wallet
  | key
  | note
  | algorithm
  deriving DecidableEq

inductive Wording where
  | record (kind : RecordKind)
  | keys
  | notes
  | digits

namespace RecordKind

def names : RecordKind → List String
  | wallet => ["version", "name", "node", "keys"]
  | key => ["index", "public_key", "private_key", "meta", "tainted", "algorithm"]
  | note => ["key", "value"]
  | algorithm => ["name", "version"]

def inner? : RecordKind → String → Option Wording
  | wallet, "keys" => some .keys
  | key, "public_key" => some .digits
  | key, "private_key" => some .digits
  | key, "meta" => some .notes
  | key, "algorithm" => some (.record .algorithm)
  | _, _ => none

/- What a record without the field says of it. -/
def implied? : RecordKind → String → Option Tree
  | wallet, "node" => some (.scalar nullText)
  | wallet, "keys" => some (.list [])
  | key, "index" => some (.scalar nullText)
  | key, "meta" => some (.list [])
  | key, "tainted" => some (.scalar (flagText false))
  | _, _ => none

end RecordKind

/-- The ways to reword a document. The members of a record may change places, and members of unknown names may come
and go. What a record says without a field may be said by the field. The digits of keys may change their case, and
keys may change places if no public key is written twice. Values within a value may be reworded, and so may what
has been reworded already. -/
inductive Rewrites : Wording → Tree → Tree → Prop where
  | refl (wording : Wording) (tree : Tree) : Rewrites wording tree tree
  | symm {wording : Wording} {tree other : Tree} (rewrites : Rewrites wording tree other) :
      Rewrites wording other tree
  | trans {wording : Wording} {tree other third : Tree} (first : Rewrites wording tree other)
      (second : Rewrites wording other third) : Rewrites wording tree third
  | permuted {kind : RecordKind} {members others : List (Bytes × Tree)} (permuted : members.Perm others) :
      Rewrites (.record kind) (.object members) (.object others)
  | added {kind : RecordKind} {name : Bytes} {label : String} {value : Tree} {members : List (Bytes × Tree)}
      (written : TextBody name) (named : textOf? name = some label) (unknown : label ∉ kind.names)
      (wellFormed : value.Written) : Rewrites (.record kind) (.object members) (.object ((name, value) :: members))
  | said {kind : RecordKind} {name : Bytes} {label : String} {value : Tree} {members : List (Bytes × Tree)}
      (written : TextBody name) (named : textOf? name = some label) (implied : kind.implied? label = some value)
      (absent : ∀ member ∈ members, textOf? member.1 ≠ some label) :
      Rewrites (.record kind) (.object members) (.object ((name, value) :: members))
  | saidLast {kind : RecordKind} {label : String} {value : Tree} {trees : List Tree}
      (next : kind.names[trees.length]? = some label) (implied : kind.implied? label = some value) :
      Rewrites (.record kind) (.list trees) (.list (trees ++ [value]))
  | member {kind : RecordKind} {wording : Wording} {name : Bytes} {label : String} {value other : Tree}
      {before after : List (Bytes × Tree)} (named : textOf? name = some label)
      (inner : kind.inner? label = some wording) (changed : Rewrites wording value other) :
      Rewrites (.record kind) (.object (before ++ (name, value) :: after)) (.object (before ++ (name, other) :: after))
  | field {kind : RecordKind} {wording : Wording} {label : String} {value other : Tree} {before after : List Tree}
      (place : kind.names[before.length]? = some label) (inner : kind.inner? label = some wording)
      (changed : Rewrites wording value other) :
      Rewrites (.record kind) (.list (before ++ value :: after)) (.list (before ++ other :: after))
  | key {value other : Tree} {before after : List Tree} (changed : Rewrites (.record .key) value other) :
      Rewrites .keys (.list (before ++ value :: after)) (.list (before ++ other :: after))
  | note {value other : Tree} {before after : List Tree} (changed : Rewrites (.record .note) value other) :
      Rewrites .notes (.list (before ++ value :: after)) (.list (before ++ other :: after))
  | cased {body other : Bytes} {text spelling : String} (written : TextBody body) (again : TextBody other)
      (spells : textOf? body = some text) (spelled : textOf? other = some spelling)
      (same : text.toLower = spelling.toLower) :
      Rewrites .digits (.scalar (quoted body)) (.scalar (quoted other))
  | shuffled {keys others : List Tree} {records : List KeyRecord}
      (read : List.Forall₂ (Takes KeyRecord.reader) keys records)
      (distinct : (records.map fun record => record.publicKey.toLower).Nodup) (permuted : keys.Perm others) :
      Rewrites .keys (.list keys) (.list others)

namespace KeyRecord

def lower (record : KeyRecord) : KeyRecord :=
  { record with publicKey := record.publicKey.toLower, privateKey := record.privateKey.toLower }

/- The same keys in the same order, or in any order if their public keys are distinct. -/
def SameList (records others : List KeyRecord) : Prop :=
  records.map lower = others.map lower ∨
    ((records.map fun record => record.publicKey.toLower).Nodup ∧ (records.map lower).Perm (others.map lower))

end KeyRecord

structure WalletRecord.Same (record other : WalletRecord) : Prop where
  version : record.version = other.version
  name : record.name = other.name
  node : record.node = other.node
  keys : KeyRecord.SameList record.keys other.keys

namespace RecordKind

def Value : RecordKind → Type
  | wallet => WalletRecord
  | key => KeyRecord
  | note => Note
  | algorithm => Descriptor

def Draft : RecordKind → Type
  | wallet => WalletRecord.Draft
  | key => KeyRecord.Draft
  | note => Note.Draft
  | algorithm => Descriptor.Draft

def shape : (kind : RecordKind) → Shape kind.Draft kind.Value
  | wallet => WalletRecord.shape
  | key => KeyRecord.shape
  | note => Note.shape
  | algorithm => Descriptor.shape

def Same : (kind : RecordKind) → kind.Value → kind.Value → Prop
  | wallet => WalletRecord.Same
  | key => fun record other => record.lower = other.lower
  | note => Eq
  | algorithm => Eq

theorem namesOfShape (kind : RecordKind) : kind.names = kind.shape.fields.map Json.Field.name := by
  cases kind <;> rfl

theorem lawful (kind : RecordKind) : LawfulShape kind.shape := by
  cases kind with
  | wallet => exact WalletRecord.lawful
  | key => exact KeyRecord.lawful
  | note => exact Note.lawful
  | algorithm => exact Descriptor.lawful

end RecordKind

namespace Wording

def Value : Wording → Type
  | record kind => kind.Value
  | keys => List KeyRecord
  | notes => List Note
  | digits => String

def reader : (wording : Wording) → Reader wording.Value
  | record kind => Json.readRecord kind.shape
  | keys => Json.readList KeyRecord.reader
  | notes => Json.readList Note.reader
  | digits => Json.readText

def Same : (wording : Wording) → wording.Value → wording.Value → Prop
  | record kind => kind.Same
  | keys => KeyRecord.SameList
  | notes => Eq
  | digits => fun text other => text.toLower = other.toLower

end Wording

/- Whatever is read from the one tree, the same is read from the other. -/
def Conveys (wording : Wording) (tree other : Tree) : Prop :=
  ∀ value, Takes wording.reader tree value → ∃ again, Takes wording.reader other again ∧ wording.Same value again

namespace KeyRecord

theorem lowerKeys (records : List KeyRecord) :
    (records.map fun record => record.publicKey.toLower) = (records.map lower).map publicKey := by
  rw [List.map_map]
  rfl

theorem sameList : Equivalence SameList where
  refl records := Or.inl rfl
  symm {records others} same := by
    rcases same with same | ⟨distinct, permuted⟩
    · exact Or.inl same.symm
    · rw [lowerKeys] at distinct
      refine Or.inr ⟨?_, permuted.symm⟩
      rw [lowerKeys]
      exact (permuted.map _).nodup_iff.mp distinct
  trans {records others third} first second := by
    rcases first with same | ⟨distinct, permuted⟩
    · rcases second with again | ⟨distinct, permuted⟩
      · exact Or.inl (same.trans again)
      · rw [lowerKeys, ← same, ← lowerKeys] at distinct
        exact Or.inr ⟨distinct, same ▸ permuted⟩
    · rcases second with again | ⟨_, further⟩
      · exact Or.inr ⟨distinct, again ▸ permuted⟩
      · exact Or.inr ⟨distinct, permuted.trans further⟩

end KeyRecord

theorem Wording.same (wording : Wording) : Equivalence wording.Same := by
  cases wording with
  | keys => exact KeyRecord.sameList
  | notes => exact eq_equivalence
  | digits => exact ⟨fun _ => rfl, Eq.symm, Eq.trans⟩
  | record kind =>
    cases kind with
    | key => exact ⟨fun _ => rfl, Eq.symm, Eq.trans⟩
    | note => exact eq_equivalence
    | algorithm => exact eq_equivalence
    | wallet =>
      have keys := KeyRecord.sameList
      exact ⟨fun _ => ⟨rfl, rfl, rfl, keys.refl _⟩,
        fun same => ⟨same.version.symm, same.name.symm, same.node.symm, keys.symm same.keys⟩,
        fun first second => ⟨first.version.trans second.version, first.name.trans second.name,
          first.node.trans second.node, keys.trans first.keys second.keys⟩⟩

namespace Conveys
variable {wording : Wording} {tree other third : Tree}

theorem refl (wording : Wording) (tree : Tree) : Conveys wording tree tree :=
  fun value takes => ⟨value, takes, wording.same.refl value⟩

theorem trans (first : Conveys wording tree other) (second : Conveys wording other third) :
    Conveys wording tree third := by
  intro value takes
  obtain ⟨again, takes, same⟩ := first value takes
  obtain ⟨last, takes, further⟩ := second again takes
  exact ⟨last, takes, wording.same.trans same further⟩

end Conveys

/-! Fields. What a rewording does to the entry of one name, and what it leaves of the value read there. -/

inductive Alters (kind : RecordKind) (label : String) : Option Tree → Option Tree → Prop where
  | same (entry : Option Tree) : Alters kind label entry entry
  | changed {wording : Wording} {tree other : Tree} (inner : kind.inner? label = some wording)
      (conveys : Conveys wording tree other) : Alters kind label (some tree) (some other)
  | said {tree : Tree} (implied : kind.implied? label = some tree) : Alters kind label none (some tree)
  | unsaid {tree : Tree} (implied : kind.implied? label = some tree) : Alters kind label (some tree) none

structure Steady {β : Type} (kind : RecordKind) (label : String) (reader : Reader β) (implied : Option β)
    (like : β → β → Prop) : Prop where
  refl : ∀ value, like value value
  inner : ∀ wording, kind.inner? label = some wording → ∀ tree other value, Conveys wording tree other →
    Takes reader tree value → ∃ again, Takes reader other again ∧ like value again
  implied : ∀ tree, kind.implied? label = some tree → ∃ value, implied = some value ∧ Takes reader tree value

section Steady
variable {β : Type} {kind : RecordKind} {label : String} {reader : Reader β} {implied value : Option β}
  {like : β → β → Prop} {entry other : Option Tree}

theorem Steady.plain (kind : RecordKind) {label : String} (reader : Reader β) (kept : kind.inner? label = none)
    (required : kind.implied? label = none) : Steady kind label reader none Eq where
  refl _ := rfl
  inner wording inner := by
    rw [kept] at inner
    cases inner
  implied tree implied := by
    rw [required] at implied
    cases implied

theorem Steady.altered (steady : Steady kind label reader implied like) (holds : Option.Rel (Takes reader) entry value)
    (alters : Alters kind label entry other) : ∃ again, Option.Rel (Takes reader) other again ∧
      Option.Rel like (value.or implied) (again.or implied) := by
  have itself (value : Option β) : Option.Rel like value value := by
    cases value with
    | none => exact .none
    | some value => exact .some (steady.refl value)
  cases alters with
  | same => exact ⟨value, holds, itself _⟩
  | changed inner conveys =>
    cases holds with
    | some takes =>
      obtain ⟨again, takes, alike⟩ := steady.inner _ inner _ _ _ conveys takes
      exact ⟨some again, .some takes, .some alike⟩
  | said tree =>
    cases holds with
    | none =>
      obtain ⟨value, rfl, takes⟩ := steady.implied _ tree
      exact ⟨some value, .some takes, itself _⟩
  | unsaid tree =>
    cases holds with
    | some takes =>
      obtain ⟨value, rfl, again⟩ := steady.implied _ tree
      cases takes.same again
      exact ⟨none, .none, itself _⟩

end Steady

theorem nullSteady {β : Type} {kind : RecordKind} {label : String} (reader : Reader β)
    (kept : kind.inner? label = none) (said : kind.implied? label = some (.scalar nullText)) :
    Steady kind label (Json.readOptional reader) (some none) Eq where
  refl _ := rfl
  inner wording inner := by
    rw [kept] at inner
    cases inner
  implied tree implied := by
    rw [said] at implied
    cases implied
    exact ⟨none, rfl, nullTaken⟩

theorem digitsSteady {kind : RecordKind} {label : String} (digits : kind.inner? label = some .digits)
    (required : kind.implied? label = none) :
    Steady kind label Json.readText none fun text other => text.toLower = other.toLower where
  refl _ := rfl
  inner wording inner tree other text conveys takes := by
    rw [digits] at inner
    cases inner
    exact conveys text takes
  implied tree implied := by
    rw [required] at implied
    cases implied

theorem notesSteady : Steady .key "meta" (Json.readList Note.reader) (some []) Eq where
  refl _ := rfl
  inner wording inner tree other notes conveys takes := by
    cases inner
    exact conveys notes takes
  implied tree implied := by
    cases implied
    exact ⟨[], rfl, listTaken .nil⟩

theorem taintedSteady : Steady .key "tainted" Json.readFlag (some false) Eq where
  refl _ := rfl
  inner wording inner := nomatch inner
  implied tree implied := by
    cases implied
    exact ⟨false, rfl, flagTaken false⟩

theorem algorithmSteady : Steady .key "algorithm" Descriptor.reader none Eq where
  refl _ := rfl
  inner wording inner tree other descriptor conveys takes := by
    cases inner
    exact conveys descriptor takes
  implied tree implied := nomatch implied

theorem keysSteady : Steady .wallet "keys" (Json.readList KeyRecord.reader) (some []) KeyRecord.SameList where
  refl := KeyRecord.sameList.refl
  inner wording inner tree other keys conveys takes := by
    cases inner
    exact conveys keys takes
  implied tree implied := by
    cases implied
    exact ⟨[], rfl, listTaken .nil⟩

def SteadyField (kind : RecordKind) (field : Json.Field kind.Draft) : Prop :=
  ∃ (implied : Option field.α) (like : field.α → field.α → Prop), Steady kind field.name field.reader implied like

theorem fieldsSteady (kind : RecordKind) : ∀ field ∈ kind.shape.fields, SteadyField kind field := by
  have both {kind : RecordKind} {field : Json.Field kind.Draft} {others : List (Json.Field kind.Draft)}
      (first : SteadyField kind field) (rest : ∀ field ∈ others, SteadyField kind field) :
      ∀ other ∈ field :: others, SteadyField kind other := List.forall_mem_cons.mpr ⟨first, rest⟩
  cases kind with
  | wallet =>
    exact both ⟨_, _, .plain _ _ rfl rfl⟩ <| both ⟨_, _, .plain _ _ rfl rfl⟩ <|
      both ⟨_, _, nullSteady _ rfl rfl⟩ <| both ⟨_, _, keysSteady⟩ nofun
  | key =>
    exact both ⟨_, _, nullSteady _ rfl rfl⟩ <| both ⟨_, _, digitsSteady rfl rfl⟩ <|
      both ⟨_, _, digitsSteady rfl rfl⟩ <| both ⟨_, _, notesSteady⟩ <| both ⟨_, _, taintedSteady⟩ <|
      both ⟨_, _, algorithmSteady⟩ nofun
  | note => exact both ⟨_, _, .plain _ _ rfl rfl⟩ <| both ⟨_, _, .plain _ _ rfl rfl⟩ nofun
  | algorithm => exact both ⟨_, _, .plain _ _ rfl rfl⟩ <| both ⟨_, _, .plain _ _ rfl rfl⟩ nofun

section Records
variable {kind : RecordKind} {entries others : List (String × Tree)} {last : kind.Draft}

theorem altersGather (gathers : Gathers kind.shape.fields kind.shape.empty entries last)
    (once : Once kind.names others) (written : ∀ entry ∈ others, entry.1 ∉ kind.names → entry.2.Written)
    (alters : ∀ label ∈ kind.names, Alters kind label (entryOf? entries label) (entryOf? others label)) :
    ∃ left, Gathers kind.shape.fields kind.shape.empty others left := by
  rw [kind.namesOfShape] at once written alters
  refine gathersOf kind.lawful.toLawful once written fun field member tree found => ?_
  have empty := kind.lawful.fresh field member
  refine ⟨by rw [Json.Field.isRead, empty]; rfl, fun draft => ?_⟩
  obtain ⟨implied, like, steady⟩ := fieldsSteady kind field member
  have holds := gathers.holds kind.lawful.toLawful (kind.lawful.found member) empty
  obtain ⟨again, holds, _⟩ := steady.altered holds (alters field.name (List.mem_map_of_mem member))
  rw [found] at holds
  cases holds with
  | some takes => exact ⟨_, (fieldTaken (kind.lawful.readers field member)).mpr ⟨_, takes, rfl⟩⟩

theorem heldOnce {β : Type} {reader : Reader β} {entry : Option Tree} {value other : Option β}
    (holds : Option.Rel (Takes reader) entry value) (again : Option.Rel (Takes reader) entry other) :
    value = other := by
  cases holds with
  | none =>
    cases again
    rfl
  | some takes =>
    cases again with
    | some other => rw [takes.same other]

structure Altered {kind : RecordKind} (entries others : List (String × Tree)) (last left : kind.Draft) : Prop where
  before : Gathers kind.shape.fields kind.shape.empty entries last
  after : Gathers kind.shape.fields kind.shape.empty others left
  alters : ∀ label ∈ kind.names, Alters kind label (entryOf? entries label) (entryOf? others label)

theorem Altered.alike {left : kind.Draft} (altered : Altered entries others last left) (label : String)
    {field : Json.Field kind.Draft} (found : kind.shape.fields.find? (·.name = label) = some field)
    {implied : Option field.α} {like : field.α → field.α → Prop}
    (steady : Steady kind label field.reader implied like) :
    Option.Rel like ((field.get last).or implied) ((field.get left).or implied) := by
  have member := List.mem_of_find?_eq_some found
  have named : field.name = label := by simpa using List.find?_some found
  have known : label ∈ kind.names := by
    rw [kind.namesOfShape]
    exact named ▸ List.mem_map_of_mem member
  have empty := kind.lawful.fresh field member
  have lawful := kind.lawful.toLawful
  obtain ⟨value, holds, alike⟩ :=
    steady.altered (altered.before.holds lawful found empty) (altered.alters label known)
  have same : value = field.get left := heldOnce holds (altered.after.holds lawful found empty)
  exact same ▸ alike

end Records

end WalletVault
