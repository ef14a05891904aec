import Mathlib.Data.List.Perm.Basic
import WalletVault.Proofs.Form.Rewording

/-! What is read from a reworded document. Every rewording keeps what is read, one way and back: for records this
is told by the entries of their names, for lists by their items. -/
namespace WalletVault
open Json (Reader Tree TextBody textOf? quoted Takes Gathers Names Once Grammatical entryOf? entryHere entryElsewhere
  entryOnce oncePermuted entryPermuted textTaken textMeans listMeans recordMeans)

theorem middleRelated {α β : Type} {related : α → β → Prop} {item : α} {before after : List α} {values : List β}
    (all : List.Forall₂ related (before ++ item :: after) values) : ∃ front value back,
      values = front ++ value :: back ∧ related item value ∧
      ∀ other again, related other again →
        List.Forall₂ related (before ++ other :: after) (front ++ again :: back) := by
  induction before generalizing values with
  | nil =>
    cases all with
    | cons here later => exact ⟨[], _, _, rfl, here, fun _ _ instead => .cons instead later⟩
  | cons first before ih =>
    cases all with
    | cons here later =>
      obtain ⟨front, value, back, rfl, middle, instead⟩ := ih later
      exact ⟨_ :: front, value, back, rfl, middle, fun other again like => .cons here (instead other again like)⟩

section Values
variable {β : Type} {like : β → β → Prop} {value other : Option β} {found implied : β}

theorem alikeRequired (alike : Option.Rel like (value.or none) (other.or none)) (here : value = some found) :
    ∃ again, other = some again ∧ like found again := by
  subst here
  rw [Option.or_none, Option.or_none] at alike
  cases alike with
  | some alike => exact ⟨_, rfl, alike⟩

theorem alikeImplied (alike : Option.Rel like (value.or (some implied)) (other.or (some implied))) :
    like (value.getD implied) (other.getD implied) := by
  cases value <;> cases other <;> cases alike <;> assumption

theorem alikeNull {value other : Option (Option β)}
    (alike : Option.Rel Eq (value.or (some none)) (other.or (some none))) : value.join = other.join := by
  cases value <;> cases other <;> cases alike <;> simp_all

end Values

section Records
variable {kind : RecordKind} {entries others : List (String × Tree)} {tree other : Tree}

theorem walletAlike {last left : RecordKind.wallet.Draft} {value : WalletRecord}
    (altered : Altered entries others last left) (finished : RecordKind.wallet.shape.finish last = some value) :
    ∃ other, RecordKind.wallet.shape.finish left = some other ∧ RecordKind.wallet.Same value other := by
  obtain ⟨version, name, node, keys⟩ := WalletRecord.finishes.mp finished
  have versions := altered.alike "version" rfl (.plain _ _ rfl rfl)
  have names := altered.alike "name" rfl (.plain _ _ rfl rfl)
  have nodes := altered.alike "node" rfl (nullSteady _ rfl rfl)
  have lists := altered.alike "keys" rfl keysSteady
  obtain ⟨_, version, rfl⟩ := alikeRequired versions version
  obtain ⟨_, name, rfl⟩ := alikeRequired names name
  have sameKeys := alikeImplied lists
  rw [keys] at sameKeys
  exact ⟨{ value with keys := left.keys.getD [] },
    WalletRecord.finishes.mpr ⟨version, name, (alikeNull nodes).symm.trans node, rfl⟩,
    ⟨rfl, rfl, rfl, sameKeys⟩⟩

theorem keyAlike {last left : RecordKind.key.Draft} {value : KeyRecord}
    (altered : Altered entries others last left) (finished : RecordKind.key.shape.finish last = some value) :
    ∃ other, RecordKind.key.shape.finish left = some other ∧ RecordKind.key.Same value other := by
  obtain ⟨index, publicKey, privateKey, notes, tainted, algorithm⟩ := KeyRecord.finishes.mp finished
  have indices := altered.alike "index" rfl (nullSteady _ rfl rfl)
  have publicKeys := altered.alike "public_key" rfl (digitsSteady rfl rfl)
  have privateKeys := altered.alike "private_key" rfl (digitsSteady rfl rfl)
  have lists := altered.alike "meta" rfl notesSteady
  have taints := altered.alike "tainted" rfl taintedSteady
  have algorithms := altered.alike "algorithm" rfl algorithmSteady
  obtain ⟨_, publicKey, samePublic⟩ := alikeRequired publicKeys publicKey
  obtain ⟨_, privateKey, samePrivate⟩ := alikeRequired privateKeys privateKey
  obtain ⟨_, algorithm, rfl⟩ := alikeRequired algorithms algorithm
  refine ⟨⟨_, _, _, _, _, _⟩, KeyRecord.finishes.mpr ⟨rfl, publicKey, privateKey, rfl, rfl, algorithm⟩, ?_⟩
  simp only [RecordKind.Same, KeyRecord.lower, KeyRecord.mk.injEq, and_true]
  exact ⟨index.symm.trans (alikeNull indices), samePublic, samePrivate, notes.symm.trans (alikeImplied lists),
    tainted.symm.trans (alikeImplied taints)⟩

theorem noteAlike {last left : RecordKind.note.Draft} {value : Note}
    (altered : Altered entries others last left) (finished : RecordKind.note.shape.finish last = some value) :
    ∃ other, RecordKind.note.shape.finish left = some other ∧ RecordKind.note.Same value other := by
  obtain ⟨key, text⟩ := Note.finishes.mp finished
  have keys := altered.alike "key" rfl (.plain _ _ rfl rfl)
  have texts := altered.alike "value" rfl (.plain _ _ rfl rfl)
  obtain ⟨_, key, rfl⟩ := alikeRequired keys key
  obtain ⟨_, text, rfl⟩ := alikeRequired texts text
  exact ⟨value, Note.finishes.mpr ⟨key, text⟩, rfl⟩

theorem algorithmAlike {last left : RecordKind.algorithm.Draft} {value : Descriptor}
    (altered : Altered entries others last left) (finished : RecordKind.algorithm.shape.finish last = some value) :
    ∃ other, RecordKind.algorithm.shape.finish left = some other ∧ RecordKind.algorithm.Same value other := by
  obtain ⟨name, version⟩ := Descriptor.finishes.mp finished
  have names := altered.alike "name" rfl (.plain _ _ rfl rfl)
  have versions := altered.alike "version" rfl (.plain _ _ rfl rfl)
  obtain ⟨_, name, rfl⟩ := alikeRequired names name
  obtain ⟨_, version, rfl⟩ := alikeRequired versions version
  exact ⟨value, Descriptor.finishes.mpr ⟨name, version⟩, rfl⟩

theorem finishedAlike {last left : kind.Draft} {value : kind.Value} (altered : Altered entries others last left)
    (finished : kind.shape.finish last = some value) :
    ∃ other, kind.shape.finish left = some other ∧ kind.Same value other := by
  cases kind with
  | wallet => exact walletAlike altered finished
  | key => exact keyAlike altered finished
  | note => exact noteAlike altered finished
  | algorithm => exact algorithmAlike altered finished

structure Reentered (kind : RecordKind) (entries others : List (String × Tree)) : Prop where
  once : Once kind.names others
  written : ∀ entry ∈ others, entry.1 ∉ kind.names → entry.2.Written
  alters : ∀ label ∈ kind.names, Alters kind label (entryOf? entries label) (entryOf? others label)

theorem recordConveys (reworded : ∀ entries, tree.Entries kind.names entries → Once kind.names entries →
      (∀ entry ∈ entries, entry.2.Written) →
        ∃ others, other.Entries kind.names others ∧ Reentered kind entries others) :
    Conveys (.record kind) tree other := by
  intro value takes
  obtain ⟨entries, last, gives, gathers, finished⟩ := (recordMeans kind.lawful).mp takes
  have once := gathers.once kind.lawful.toLawful
  rw [← kind.namesOfShape] at gives once
  obtain ⟨others, instead, entered⟩ := reworded entries gives once gathers.written
  obtain ⟨left, again⟩ := altersGather gathers entered.once entered.written entered.alters
  obtain ⟨like, refinished, same⟩ := finishedAlike ⟨gathers, again, entered.alters⟩ finished
  rw [kind.namesOfShape] at instead
  exact ⟨like, (recordMeans kind.lawful).mpr ⟨others, left, instead, again, refinished⟩, same⟩

section Entries
variable {label : String} {value : Tree}

theorem Reentered.permuted {third : List (String × Tree)} (entered : Reentered kind entries others)
    (permuted : others.Perm third) : Reentered kind entries third where
  once := oncePermuted permuted entered.once
  written entry member := entered.written entry (permuted.mem_iff.mpr member)
  alters label known := by
    rw [entryPermuted permuted entered.once known]
    exact entered.alters label known

theorem permutedEntries (once : Once kind.names entries) (written : ∀ entry ∈ entries, entry.2.Written)
    (permuted : entries.Perm others) : Reentered kind entries others := by
  have itself : Reentered kind entries entries := ⟨once, fun entry member _ => written entry member, fun _ _ => .same _⟩
  exact itself.permuted permuted

theorem Reentered.fromPermuted {third : List (String × Tree)} (entered : Reentered kind entries others)
    (once : Once kind.names entries) (permuted : entries.Perm third) : Reentered kind third others where
  once := entered.once
  written := entered.written
  alters label known := by
    rw [entryPermuted permuted once known]
    exact entered.alters label known

theorem RecordKind.impliedKnown {kind : RecordKind} {label : String} {value : Tree}
    (implied : kind.implied? label = some value) : label ∈ kind.names := by
  unfold RecordKind.implied? at implied
  split at implied
  case h_6 => cases implied
  all_goals decide

theorem RecordKind.innerKnown {kind : RecordKind} {label : String} {wording : Wording}
    (inner : kind.inner? label = some wording) : label ∈ kind.names := by
  unfold RecordKind.inner? at inner
  split at inner
  case h_6 => cases inner
  all_goals decide

theorem absentEntry (absent : ∀ entry ∈ entries, entry.1 ≠ label) : entryOf? entries label = none := by
  simpa [entryOf?] using absent

theorem spareEntry (once : Once kind.names ((label, value) :: entries))
    (written : ∀ entry ∈ (label, value) :: entries, entry.1 ∉ kind.names → entry.2.Written)
    (spare : label ∉ kind.names ∨ kind.implied? label = some value) :
    Reentered kind entries ((label, value) :: entries) ∧ Reentered kind ((label, value) :: entries) entries := by
  obtain ⟨apart, later⟩ := List.pairwise_cons.mp once
  have others := (List.forall_mem_cons.mp written).2
  have elsewhere {name : String} (differs : label ≠ name) :
      entryOf? ((label, value) :: entries) name = entryOf? entries name := entryElsewhere differs
  rcases spare with unknown | implied
  · have differs {name : String} (known : name ∈ kind.names) : label ≠ name := fun same => unknown (same ▸ known)
    exact ⟨⟨once, written, fun name known => elsewhere (differs known) ▸ .same _⟩,
      ⟨later, others, fun name known => elsewhere (differs known) ▸ .same _⟩⟩
  · have absent : entryOf? entries label = none :=
      absentEntry fun entry member => (apart entry member (RecordKind.impliedKnown implied)).symm
    have both (name : String) : Alters kind name (entryOf? entries name) (entryOf? ((label, value) :: entries) name) ∧
        Alters kind name (entryOf? ((label, value) :: entries) name) (entryOf? entries name) := by
      by_cases same : label = name
      · subst same
        rw [entryHere, absent]
        exact ⟨.said implied, .unsaid implied⟩
      · rw [elsewhere same]
        exact ⟨.same _, .same _⟩
    exact ⟨⟨once, written, fun name _ => (both name).1⟩, ⟨later, others, fun name _ => (both name).2⟩⟩

theorem changedEntry {before after : List (String × Tree)} {wording : Wording} {again : Tree}
    (once : Once kind.names (before ++ (label, value) :: after))
    (written : ∀ entry ∈ before ++ (label, value) :: after, entry.2.Written)
    (inner : kind.inner? label = some wording) (conveys : Conveys wording value again) :
    Reentered kind (before ++ (label, value) :: after) (before ++ (label, again) :: after) := by
  have known := RecordKind.innerKnown inner
  have onceAgain : Once kind.names (before ++ (label, again) :: after) := by
    simpa only [Once, List.pairwise_append, List.pairwise_cons, List.forall_mem_cons] using once
  refine ⟨onceAgain, ?_, fun name wanted => ?_⟩
  · simp only [List.forall_mem_append, List.forall_mem_cons] at written ⊢
    exact ⟨fun entry member _ => written.1 entry member, fun unknown => absurd known unknown,
      fun entry member _ => written.2.2 entry member⟩
  · by_cases same : label = name
    · subst same
      have here : entryOf? (before ++ (label, value) :: after) label = some value :=
        (entryOnce once known).mpr (by simp)
      have instead : entryOf? (before ++ (label, again) :: after) label = some again :=
        (entryOnce onceAgain known).mpr (by simp)
      rw [here, instead]
      exact .changed inner conveys
    · have elsewhere : entryOf? (before ++ (label, again) :: after) name =
          entryOf? (before ++ (label, value) :: after) name := by
        refine Option.ext fun tree => ?_
        rw [entryOnce once wanted, entryOnce onceAgain wanted]
        simp [Ne.symm same]
      rw [elsewhere]
      exact .same _

end Entries

section Objects
variable {members rest : List (Bytes × Tree)} {name : Bytes} {label : String} {value again : Tree}

theorem permutedConveys (permuted : members.Perm rest) : Conveys (.record kind) (.object members) (.object rest) := by
  refine recordConveys fun entries gives once written => ?_
  obtain ⟨others, instead, moved⟩ := List.perm_comp_forall₂ permuted.symm gives
  exact ⟨others, instead, permutedEntries once written moved.symm⟩

theorem absentEntries (gives : List.Forall₂ Names members entries)
    (absent : ∀ member ∈ members, textOf? member.1 ≠ some label) : ∀ entry ∈ entries, entry.1 ≠ label := by
  induction gives with
  | nil => simp
  | cons names _ ih =>
    obtain ⟨here, others⟩ := List.forall_mem_cons.mp absent
    exact List.forall_mem_cons.mpr ⟨fun same => here (same ▸ names.named), ih others⟩

theorem entryNamed {entry : String × Tree} (names : Names (name, value) entry) (named : textOf? name = some label) :
    entry = (label, value) :=
  Prod.ext (Option.some.inj (names.named.symm.trans named)) names.tree.symm

theorem spareMember (written : TextBody name) (named : textOf? name = some label)
    (spare : label ∉ kind.names ∧ value.Written ∨
      kind.implied? label = some value ∧ ∀ member ∈ members, textOf? member.1 ≠ some label) :
    Conveys (.record kind) (.object members) (.object ((name, value) :: members)) ∧
      Conveys (.record kind) (.object ((name, value) :: members)) (.object members) := by
  have kept : label ∉ kind.names ∨ kind.implied? label = some value := spare.imp And.left And.left
  constructor
  · refine recordConveys fun entries gives once others => ?_
    have apart : ∀ entry ∈ entries, label ∈ kind.names → label ≠ entry.1 := fun entry member known => by
      rcases spare with ⟨unknown, _⟩ | ⟨_, absent⟩
      · exact absurd known unknown
      · exact (absentEntries gives absent entry member).symm
    have wellFormed : label ∉ kind.names → value.Written := fun unknown => by
      rcases spare with ⟨_, wellFormed⟩ | ⟨implied, _⟩
      · exact wellFormed
      · exact absurd (RecordKind.impliedKnown implied) unknown
    have every : ∀ entry ∈ (label, value) :: entries, entry.1 ∉ kind.names → entry.2.Written :=
      List.forall_mem_cons.mpr ⟨wellFormed, fun entry member _ => others entry member⟩
    exact ⟨_, .cons ⟨written, named, rfl⟩ gives, (spareEntry (.cons apart once) every kept).1⟩
  · refine recordConveys fun entries gives once others => ?_
    cases gives with
    | cons names gives =>
      cases entryNamed names named
      exact ⟨_, gives, (spareEntry once (fun entry member _ => others entry member) kept).2⟩

theorem changedMember {before after : List (Bytes × Tree)} {wording : Wording} (named : textOf? name = some label)
    (inner : kind.inner? label = some wording) (conveys : Conveys wording value again) :
    Conveys (.record kind) (.object (before ++ (name, value) :: after))
      (.object (before ++ (name, again) :: after)) := by
  refine recordConveys fun entries gives once written => ?_
  obtain ⟨front, entry, back, rfl, names, instead⟩ := middleRelated gives
  cases entryNamed names named
  exact ⟨_, instead (name, again) (label, again) ⟨names.written, named, rfl⟩, changedEntry once written inner conveys⟩

end Objects

section Places
variable {label : String} {value again : Tree} {trees : List Tree}

theorem zipAt {labels : List String} {label : String} {before after : List Tree} (value : Tree)
    (place : labels[before.length]? = some label) : labels.zip (before ++ value :: after) =
      labels.zip before ++ (label, value) :: (labels.drop (before.length + 1)).zip after := by
  induction before generalizing labels with
  | nil =>
    obtain ⟨here, rfl⟩ := List.getElem?_eq_some_iff.mp place
    obtain ⟨first, others, rfl⟩ := List.exists_cons_of_length_pos here
    simp
  | cons tree before ih =>
    cases labels with
    | nil => cases place
    | cons first others => simpa using ih place

theorem zipDistinct {labels : List String} (distinct : labels.Nodup) (trees : List Tree) :
    (labels.zip trees).Pairwise fun entry other => entry.1 ≠ other.1 := by
  induction labels generalizing trees with
  | nil => simp
  | cons label labels ih =>
    cases trees with
    | nil => simp
    | cons tree trees =>
      obtain ⟨foreign, distinct⟩ := List.nodup_cons.mp distinct
      have apart : ∀ entry ∈ labels.zip trees, label ≠ entry.1 := by
        rintro entry member rfl
        exact foreign (List.of_mem_zip member).1
      exact .cons apart (ih distinct trees)

theorem RecordKind.zipOnce (kind : RecordKind) (trees : List Tree) : Once kind.names (kind.names.zip trees) := by
  have distinct : kind.names.Nodup := kind.namesOfShape ▸ kind.lawful.distinct
  refine List.Pairwise.imp ?_ (zipDistinct distinct trees)
  exact fun differs _ => differs

theorem saidPlace (next : kind.names[trees.length]? = some label) (implied : kind.implied? label = some value) :
    Conveys (.record kind) (.list trees) (.list (trees ++ [value])) ∧
      Conveys (.record kind) (.list (trees ++ [value])) (.list trees) := by
  have longer : kind.names.zip (trees ++ [value]) = kind.names.zip trees ++ [(label, value)] := by
    simpa using @zipAt _ _ _ [] value next
  have moved : (kind.names.zip (trees ++ [value])).Perm ((label, value) :: kind.names.zip trees) :=
    longer ▸ List.perm_append_singleton (label, value) (kind.names.zip trees)
  have once := kind.zipOnce (trees ++ [value])
  have fits : trees.length < kind.names.length := (List.getElem?_eq_some_iff.mp next).1
  have known : label ∈ kind.names := RecordKind.impliedKnown implied
  have every : ∀ entry ∈ (label, value) :: kind.names.zip trees, entry.1 ∉ kind.names → entry.2.Written :=
    List.forall_mem_cons.mpr ⟨fun unknown => absurd known unknown,
      fun entry member unknown => absurd (List.of_mem_zip member).1 unknown⟩
  have both := spareEntry (oncePermuted moved once) every (Or.inr implied)
  constructor
  · refine recordConveys fun entries gives _ _ => ?_
    obtain ⟨_, rfl⟩ := gives
    exact ⟨_, ⟨by simpa using Nat.succ_le_of_lt fits, rfl⟩, both.1.permuted moved.symm⟩
  · refine recordConveys fun entries gives _ _ => ?_
    obtain ⟨_, rfl⟩ := gives
    exact ⟨_, ⟨Nat.le_of_lt fits, rfl⟩, both.2.fromPermuted (oncePermuted moved once) moved.symm⟩

theorem changedPlace {before after : List Tree} {wording : Wording} (place : kind.names[before.length]? = some label)
    (inner : kind.inner? label = some wording) (conveys : Conveys wording value again) :
    Conveys (.record kind) (.list (before ++ value :: after)) (.list (before ++ again :: after)) := by
  refine recordConveys fun entries gives once written => ?_
  obtain ⟨short, rfl⟩ := gives
  have instead := changedEntry (zipAt value place ▸ once) (zipAt value place ▸ written) inner conveys
  rw [← zipAt value place, ← zipAt again place] at instead
  exact ⟨_, ⟨by simpa using short, rfl⟩, instead⟩

end Places

end Records

section Lists
variable {before after : List Tree} {value again : Tree}

theorem changedKey (conveys : Conveys (.record .key) value again) :
    Conveys .keys (.list (before ++ value :: after)) (.list (before ++ again :: after)) := by
  intro records takes
  have all := (listMeans KeyRecord.grammatical).mp takes
  obtain ⟨front, record, back, rfl, here, instead⟩ := middleRelated all
  obtain ⟨(other : KeyRecord), taken, same⟩ := conveys record here
  have alike : record.lower = other.lower := same
  have lower : (front ++ record :: back).map KeyRecord.lower = (front ++ other :: back).map KeyRecord.lower := by
    simpa using alike
  exact ⟨_, (listMeans KeyRecord.grammatical).mpr (instead again other taken), Or.inl lower⟩

theorem changedNote (conveys : Conveys (.record .note) value again) :
    Conveys .notes (.list (before ++ value :: after)) (.list (before ++ again :: after)) := by
  intro notes takes
  have all := (listMeans Note.grammatical).mp takes
  obtain ⟨front, note, back, rfl, here, instead⟩ := middleRelated all
  obtain ⟨other, taken, same⟩ := conveys note here
  cases same
  exact ⟨_, (listMeans Note.grammatical).mpr (instead again note taken), rfl⟩

theorem casedDigits {body other : Bytes} {text spelling : String} (again : TextBody other)
    (spells : textOf? body = some text) (spelled : textOf? other = some spelling)
    (same : text.toLower = spelling.toLower) : Conveys .digits (.scalar (quoted body)) (.scalar (quoted other)) := by
  intro value takes
  cases textMeans spells takes
  exact ⟨spelling, textTaken again spelled, same⟩

theorem takenSame {α : Type} {reader : Reader α} {trees : List Tree} {values others : List α}
    (all : List.Forall₂ (Takes reader) trees values) (again : List.Forall₂ (Takes reader) trees others) :
    values = others := by
  induction all generalizing others with
  | nil =>
    cases again
    rfl
  | cons takes _ ih =>
    cases again with
    | cons other later => rw [takes.same other, ih later]

theorem shuffledKeys {keys others : List Tree} {records : List KeyRecord}
    (read : List.Forall₂ (Takes KeyRecord.reader) keys records)
    (distinct : (records.map fun record => record.publicKey.toLower).Nodup) (permuted : keys.Perm others) :
    Conveys .keys (.list keys) (.list others) ∧ Conveys .keys (.list others) (.list keys) := by
  obtain ⟨moved, instead, same⟩ := List.perm_comp_forall₂ permuted.symm read
  have like : KeyRecord.SameList records moved := Or.inr ⟨distinct, same.symm.map _⟩
  constructor
  · intro values takes
    cases takenSame ((listMeans KeyRecord.grammatical).mp takes) read
    exact ⟨moved, (listMeans KeyRecord.grammatical).mpr instead, like⟩
  · intro values takes
    cases takenSame ((listMeans KeyRecord.grammatical).mp takes) instead
    exact ⟨records, (listMeans KeyRecord.grammatical).mpr read, KeyRecord.sameList.symm like⟩

end Lists

theorem rewritesConvey {wording : Wording} {tree other : Tree} (rewrites : Rewrites wording tree other) :
    Conveys wording tree other ∧ Conveys wording other tree := by
  -- Both ways at once, so that a rewording taken back has its half already.
  induction rewrites with
  | refl wording tree => exact ⟨.refl wording tree, .refl wording tree⟩
  | symm _ ih => exact ih.symm
  | trans _ _ first second => exact ⟨first.1.trans second.1, second.2.trans first.2⟩
  | permuted permuted => exact ⟨permutedConveys permuted, permutedConveys permuted.symm⟩
  | added written named unknown wellFormed => exact spareMember written named (Or.inl ⟨unknown, wellFormed⟩)
  | said written named implied absent => exact spareMember written named (Or.inr ⟨implied, absent⟩)
  | saidLast next implied => exact saidPlace next implied
  | member named inner _ ih => exact ⟨changedMember named inner ih.1, changedMember named inner ih.2⟩
  | field place inner _ ih => exact ⟨changedPlace place inner ih.1, changedPlace place inner ih.2⟩
  | key _ ih => exact ⟨changedKey ih.1, changedKey ih.2⟩
  | note _ ih => exact ⟨changedNote ih.1, changedNote ih.2⟩
  | cased written again spells spelled same =>
    exact ⟨casedDigits again spells spelled same, casedDigits written spelled spells same.symm⟩
  | shuffled read distinct permuted => exact shuffledKeys read distinct permuted

end WalletVault
