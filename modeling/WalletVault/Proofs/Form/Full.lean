import WalletVault.Form.Full
import WalletVault.Proofs.Json.Record
import WalletVault.Proofs.Text.Base64
import WalletVault.Proofs.Text.Hex

/-! Records of wallets are read back from their documents, whatever texts and numbers they hold. -/
namespace WalletVault
open Json (Reads Fills recordRead fieldRead textRead numberRead flagRead listRead optionalRead)

theorem Note.documentRead (note : Note) : Reads Note.reader note.json.compact note := by
  have members : Fills shape.fields shape.empty [("key", .text note.key), ("value", .text note.value)]
      ⟨some note.key, some note.value⟩ := by
    refine .member _ rfl rfl (fieldRead (textRead note.key) _) ?_
    refine .member _ rfl rfl (fieldRead (textRead note.value) _) ?_
    exact .done _
  exact recordRead members rfl

theorem Descriptor.documentRead (descriptor : Descriptor) :
    Reads Descriptor.reader descriptor.json.compact descriptor := by
  have members : Fills shape.fields shape.empty
      [("name", .text descriptor.name), ("version", .number descriptor.version.toNat)]
      ⟨some descriptor.name, some descriptor.version⟩ := by
    refine .member _ rfl rfl (fieldRead (textRead descriptor.name) _) ?_
    refine .member _ rfl rfl (fieldRead (numberRead descriptor.version) _) ?_
    exact .done _
  exact recordRead members rfl

namespace KeyRecord

/- The index stands in the document only if the key has one, so the draft starts from two places. -/
theorem membersAfterIndex (record : KeyRecord) (index : Option (Option UInt32)) :
    Fills shape.fields ⟨index, none, none, none, none, none⟩
      [("public_key", .text record.publicKey), ("private_key", .text record.privateKey),
        ("meta", .list (record.notes.map Note.json)), ("tainted", .flag record.tainted),
        ("algorithm", record.algorithm.json)]
      ⟨index, some record.publicKey, some record.privateKey, some record.notes, some record.tainted,
        some record.algorithm⟩ := by
  refine .member _ rfl rfl (fieldRead (textRead record.publicKey) _) ?_
  refine .member _ rfl rfl (fieldRead (textRead record.privateKey) _) ?_
  refine .member _ rfl rfl (fieldRead (listRead record.notes fun note _ => note.documentRead) _) ?_
  refine .member _ rfl rfl (fieldRead (flagRead record.tainted) _) ?_
  refine .member _ rfl rfl (fieldRead record.algorithm.documentRead _) ?_
  exact .done _

theorem documentRead (record : KeyRecord) : Reads reader record.json.compact record := by
  obtain ⟨index, publicKey, privateKey, notes, tainted, algorithm⟩ := record
  cases index with
  | none =>
    have members := membersAfterIndex ⟨none, publicKey, privateKey, notes, tainted, algorithm⟩ none
    exact recordRead members rfl
  | some index =>
    have members := membersAfterIndex ⟨some index, publicKey, privateKey, notes, tainted, algorithm⟩
      (some (some index))
    exact recordRead (.member _ rfl rfl (fieldRead (optionalRead (numberRead index)) _) members) rfl

end KeyRecord

namespace WalletRecord

theorem membersAfterNode (version : UInt32) (name : String) (node : Option (Option String))
    (keys : List KeyRecord) :
    Fills shape.fields ⟨some version, some name, node, none⟩ [("keys", .list (keys.map KeyRecord.json))]
      ⟨some version, some name, node, some keys⟩ :=
  .member _ rfl rfl (fieldRead (listRead keys fun key _ => key.documentRead) _) (.done _)

theorem membersOfNode (version : UInt32) (name : String) (node : Option String) (keys : List KeyRecord) :
    Fills shape.fields ⟨some version, some name, none, none⟩
      (Json.optional "node" (node.map .text) ++ [("keys", .list (keys.map KeyRecord.json))])
      ⟨some version, some name, node.map some, some keys⟩ := by
  cases node with
  | none => exact membersAfterNode version name none keys
  | some node =>
    have members := membersAfterNode version name (some (some node)) keys
    exact .member _ rfl rfl (fieldRead (optionalRead (textRead node)) _) members

theorem documentRead (record : WalletRecord) : Reads reader record.json.compact record := by
  obtain ⟨version, name, node, keys⟩ := record
  have members := membersOfNode version name node keys
  refine recordRead (.member _ rfl rfl (fieldRead (numberRead version) _)
    (.member _ rfl rfl (fieldRead (textRead name) _) members)) ?_
  cases node <;> rfl

theorem ofDocumentJson (record : WalletRecord) : ofDocument record.json.compact = .ok record := by
  rw [ofDocument, Json.documentRead record.documentRead]

end WalletRecord

end WalletVault
