import WalletVault.Proofs.Form.Loading
import WalletVault.Proofs.Form.Precedence

/-! The text of a node. Every node has one text, and a wallet is written with the text that its node had in the
document it was loaded from, however this document spells it. -/
namespace WalletVault
open Fallible
open Json (Tree Spelled Takes readText textSource textGrammatical textOf? quoted spelledUnique presentMeans
  entryOf? entryOnce recordMeans)

namespace Json

def Tree.IsText (tree : Tree) (text : String) : Prop := ∃ body, tree = .scalar (quoted body) ∧ textOf? body = some text

theorem Tree.IsText.unique {tree : Tree} {text other : String} (written : tree.IsText text)
    (again : tree.IsText other) : text = other := by
  obtain ⟨body, rfl, named⟩ := written
  obtain ⟨spelling, same, instead⟩ := again
  have bodies : body = spelling := by simpa [quoted] using same
  exact Option.some.inj (named.symm.trans (bodies ▸ instead))

theorem Takes.isText {tree : Tree} {text : String} (takes : Takes readText tree text) : tree.IsText text := by
  obtain ⟨body, rfl, _, named⟩ := takes.source textSource
  exact ⟨body, rfl, named⟩

theorem entriesUnique {names : List String} {tree : Tree} {entries others : List (String × Tree)}
    (gives : tree.Entries names entries) (again : tree.Entries names others) : entries = others := by
  cases tree with
  | scalar raw => cases gives
  | list trees => exact gives.2.trans again.2.symm
  | object members =>
    refine List.right_unique_forall₂' (fun member entry other named again => ?_) gives again
    exact Prod.ext (Option.some.inj (named.named.symm.trans again.named)) (named.tree.symm.trans again.tree)

end Json

theorem WalletRecord.decodeNodeOk {text : Option String} {node : Node} :
    decodeNode text = .ok node ↔ text = some (Base64.encode node.bytes) := by
  constructor
  · intro decoded
    rcases nodeCases text with ⟨raw, length, rfl⟩ | ⟨why, refused⟩
    · simp only [decodeNode, Base64.decodeEncoded, Node.ofBytes, dif_pos length] at decoded
      cases decoded
      simp [Node.bytes, Node.ofHalves]
    · rw [refusedNode refused] at decoded
      cases decoded
  · rintro rfl
    exact nodeWritten node

namespace Wallet
variable {document : Bytes} {record : WalletRecord} {text other : String}

/- The document of a wallet has one node, as a member or in its place, and it is this text. -/
def NodeText (document : Bytes) (text : String) : Prop :=
  ∃ tree entries node, Spelled tree document ∧ tree.Entries RecordKind.wallet.names entries ∧
    (∀ value, ("node", value) ∈ entries ↔ value = node) ∧ node.IsText text

theorem nodeTextUnique (written : NodeText document text) (again : NodeText document other) : text = other := by
  obtain ⟨tree, entries, node, spelled, gives, only, isText⟩ := written
  obtain ⟨_, _, _, respelled, instead, single, isOther⟩ := again
  cases spelledUnique spelled respelled
  cases Json.entriesUnique gives instead
  cases (single node).mp ((only node).mpr rfl)
  exact isText.unique isOther

theorem nodeTextOnly (written : NodeText document text) : NodeText document other ↔ other = text :=
  ⟨fun again => nodeTextUnique again written, fun same => same ▸ written⟩

theorem recordNodeText (opened : WalletRecord.ofDocument document = .ok record) (node : record.node = some text) :
    NodeText document text := by
  obtain ⟨tree, spelled, takes⟩ := WalletRecord.ofDocumentMeans.mp opened
  obtain ⟨entries, last, gives, gathers, finished⟩ := (recordMeans WalletRecord.lawful).mp takes
  have filled : last.node = some (some text) := by
    have joined := (WalletRecord.finishes.mp finished).2.2.1
    rw [node] at joined
    exact Option.join_eq_some_iff.mp joined
  have lawful := WalletRecord.lawful.toLawful
  have place : WalletRecord.shape.fields.find? (·.name = "node") = some _ := rfl
  have holds : Option.Rel (Takes (Json.readOptional readText)) (entryOf? entries "node") last.node :=
    gathers.holds lawful place rfl
  rw [filled] at holds
  cases found : entryOf? entries "node" with
  | none =>
    rw [found] at holds
    cases holds
  | some value =>
    rw [found] at holds
    cases holds with
    | some taken =>
      have known : "node" ∈ WalletRecord.shape.fields.map Json.Field.name := by decide
      refine ⟨tree, entries, value, spelled, gives, fun other => ?_, (presentMeans textGrammatical taken).isText⟩
      rw [← entryOnce (gathers.once lawful) known, found, Option.some.injEq, eq_comm]

/-- The text of a node is canonical. Decoding it gives back the node, and no other text is decoded to this node: not
one with other padding, nor one that sets bits that no byte uses. A derived wallet has one text for its node in the
document that it is loaded from, and is written with this text. -/
theorem nodeTextKept :
    (∀ node : Node, ∃ raw, Base64.decode? (Base64.encode node.bytes) = some raw ∧ Node.ofBytes raw = .ok node) ∧
    (∀ text other node, WalletRecord.decodeNode (some text) = .ok node →
      WalletRecord.decodeNode (some other) = .ok node → text = other) ∧
    ∀ document record wallet, WalletRecord.ofDocument document = .ok record → record.version = derivedVersion →
      ofFullForm document = .ok wallet → ∃ node, wallet.origin = .derived node ∧
        ∃ text, WalletRecord.decodeNode (some text) = .ok node ∧
          (∀ other, NodeText document other ↔ other = text) ∧
          ∀ other, NodeText wallet.fullForm other ↔ other = text := by
  refine ⟨fun node => ⟨_, Base64.decodeEncoded _, Node.ofBytesWritten node⟩, ?_, ?_⟩
  · intro text other node decoded again
    have same := (WalletRecord.decodeNodeOk.mp decoded).trans (WalletRecord.decodeNodeOk.mp again).symm
    exact Option.some.inj same
  · intro document record wallet opened version loaded
    rw [ofFullFormOpened opened] at loaded
    obtain ⟨pairs, _, loaded⟩ := bindOk.mp loaded
    rw [if_pos version] at loaded
    obtain ⟨node, decoded, loaded⟩ := bindOk.mp loaded
    obtain ⟨_, _, loaded⟩ := bindOk.mp loaded
    cases pureOk.mp loaded
    have read := recordNodeText opened (WalletRecord.decodeNodeOk.mp decoded)
    have rewritten := WalletRecord.ofDocumentJson (.ofWallet ⟨record.name, .derived node, .ofList pairs⟩)
    have written := recordNodeText rewritten rfl
    exact ⟨node, rfl, _, WalletRecord.nodeWritten node, fun _ => nodeTextOnly read, fun _ => nodeTextOnly written⟩

def zeroText : String := String.ofList (List.replicate 86 'A' ++ ['=', '='])

def zeroDocument : Bytes := Utf8.encode <|
  "\x7b\"keys\" : [], \"node\" : \"\\u0041" ++ String.ofList (zeroText.toList.drop 1) ++
    "\", \"name\" : \"savings\", \"version\" : 2\x7d"

theorem zeroNodeKept : ∃ wallet node, ofFullForm zeroDocument = .ok wallet ∧ wallet.origin = .derived node ∧
    NodeText zeroDocument zeroText ∧ NodeText wallet.fullForm zeroText := by
  have opened : WalletRecord.ofDocument zeroDocument = .ok ⟨2, "savings", some zeroText, []⟩ := by decide +kernel
  have readable : (ofFullForm zeroDocument).isOk = true := by decide +kernel
  cases loaded : ofFullForm zeroDocument with
  | error fault =>
    rw [loaded] at readable
    cases readable
  | ok wallet =>
    obtain ⟨node, origin, text, _, read, written⟩ := nodeTextKept.2.2 _ _ wallet opened rfl loaded
    cases (read zeroText).mp (recordNodeText opened rfl)
    exact ⟨wallet, node, rfl, origin, (read zeroText).mpr rfl, (written zeroText).mpr rfl⟩

example : WalletRecord.decodeNode (some (String.ofList (List.replicate 85 'A' ++ ['B', '=', '=']))) =
    .error (.invalidNode .notBase64) := by decide +kernel

end Wallet

end WalletVault
