import WalletVault.Form.Full
import WalletVault.Proofs.Json.Fields

/-! The fields of the records that a wallet is written in. Every field has a place of its own in the draft, so that a
record says the same in whatever order its members come. -/
namespace WalletVault
open Json (Field LawfulShape Grammatical textGrammatical numberGrammatical flagGrammatical optionalGrammatical
  listGrammatical recordGrammatical)

namespace Note

theorem lawful : LawfulShape shape where
  distinct := by decide
  readers := by simp [shape, textGrammatical]
  set := by simp [shape]
  apart := by simp [shape, Field.Apart]
  fresh := by simp [shape]

theorem grammatical : Grammatical reader := recordGrammatical lawful

theorem finishes {draft : Draft} {note : Note} : shape.finish draft = some note ↔
    draft.key = some note.key ∧ draft.value = some note.value := by
  cases note
  simp [shape, Option.bind_eq_some_iff]

end Note

namespace Descriptor

theorem lawful : LawfulShape shape where
  distinct := by decide
  readers := by simp [shape, textGrammatical, numberGrammatical]
  set := by simp [shape]
  apart := by simp [shape, Field.Apart]
  fresh := by simp [shape]

theorem grammatical : Grammatical reader := recordGrammatical lawful

theorem finishes {draft : Draft} {descriptor : Descriptor} : shape.finish draft = some descriptor ↔
    draft.name = some descriptor.name ∧ draft.version = some descriptor.version := by
  cases descriptor
  simp [shape, Option.bind_eq_some_iff]

end Descriptor

namespace KeyRecord

theorem lawful : LawfulShape shape where
  distinct := by decide
  readers := by simp [shape, textGrammatical, flagGrammatical, optionalGrammatical numberGrammatical,
    listGrammatical Note.grammatical, Descriptor.grammatical]
  set := by simp [shape]
  apart := by simp [shape, Field.Apart]
  fresh := by simp [shape]

theorem grammatical : Grammatical reader := recordGrammatical lawful

theorem finishes {draft : Draft} {record : KeyRecord} : shape.finish draft = some record ↔
    draft.index.join = record.index ∧ draft.publicKey = some record.publicKey ∧
      draft.privateKey = some record.privateKey ∧ draft.notes.getD [] = record.notes ∧
      draft.tainted.getD false = record.tainted ∧ draft.algorithm = some record.algorithm := by
  cases record
  simp only [shape, Option.bind_eq_bind, Option.bind_eq_some_iff, Option.some.injEq, KeyRecord.mk.injEq]
  constructor
  · rintro ⟨_, publicKey, _, privateKey, _, algorithm, rfl, rfl, rfl, rfl, rfl, rfl⟩
    exact ⟨rfl, publicKey, privateKey, rfl, rfl, algorithm⟩
  · rintro ⟨index, publicKey, privateKey, notes, tainted, algorithm⟩
    exact ⟨_, publicKey, _, privateKey, _, algorithm, index, rfl, rfl, notes, tainted, rfl⟩

end KeyRecord

namespace WalletRecord

theorem lawful : LawfulShape shape where
  distinct := by decide
  readers := by simp [shape, textGrammatical, numberGrammatical, optionalGrammatical textGrammatical,
    listGrammatical KeyRecord.grammatical]
  set := by simp [shape]
  apart := by simp [shape, Field.Apart]
  fresh := by simp [shape]

theorem grammatical : Grammatical reader := recordGrammatical lawful

theorem finishes {draft : Draft} {record : WalletRecord} : shape.finish draft = some record ↔
    draft.version = some record.version ∧ draft.name = some record.name ∧
      draft.node.join = record.node ∧ draft.keys.getD [] = record.keys := by
  cases record
  simp [shape, Option.bind_eq_some_iff]

end WalletRecord

end WalletVault
