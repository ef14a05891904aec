import WalletVault.Form.Public
import WalletVault.Proofs.Form.Full
import WalletVault.Proofs.Form.RoundTrip
import WalletVault.Proofs.Json.Yield

/-! The public form of a wallet. It is read back from its document as long as every key has a byte, which is so in
every wallet and in every public form that was read. -/
namespace WalletVault
open Json (Field Reads Yields Fills recordRead fieldRead textRead numberRead flagRead listRead optionalRead
  checkedYields listYields fieldYields recordYields)

theorem Json.checkedRead {α β : Type} {reader : Reader α} {check : α → Except String β} {written : Bytes} {raw : α}
    {value : β} (reads : Reads reader written raw) (passes : check raw = .ok value) :
    Reads (readChecked reader check) written value :=
  ⟨reads.starts, fun rest follows => by simp only [readChecked, reads.reads rest follows, passes]⟩

theorem PublicKey.documentRead {key : PublicKey} (nonempty : key.bytes ≠ []) : Reads reader key.json.compact key :=
  Json.checkedRead (textRead key.hex) (Fallible.mapErrorOk.mpr (readHex nonempty))

theorem Algorithm.documentRead (algorithm : Algorithm) : Reads reader algorithm.json.compact algorithm :=
  Json.checkedRead algorithm.descriptor.documentRead (Fallible.mapErrorOk.mpr (ofDescriptorWritten algorithm))

namespace PublicKeyView

def Addressed (view : PublicKeyView) : Prop := view.publicKey.bytes ≠ []

theorem membersAfterIndex {view : PublicKeyView} (addressed : view.Addressed) (index : Option (Option UInt32)) :
    Fills shape.fields ⟨index, none, none, none, none⟩
      [("public_key", view.publicKey.json), ("meta", .list (view.notes.map Note.json)),
        ("tainted", .flag view.tainted), ("algorithm", view.algorithm.json)]
      ⟨index, some view.publicKey, some view.notes, some view.tainted, some view.algorithm⟩ := by
  refine .member _ rfl rfl (fieldRead (PublicKey.documentRead addressed) _) ?_
  refine .member _ rfl rfl (fieldRead (listRead view.notes fun note _ => note.documentRead) _) ?_
  refine .member _ rfl rfl (fieldRead (flagRead view.tainted) _) ?_
  refine .member _ rfl rfl (fieldRead view.algorithm.documentRead _) ?_
  exact .done _

theorem documentRead {view : PublicKeyView} (addressed : view.Addressed) : Reads reader view.json.compact view := by
  have members := membersAfterIndex addressed
  obtain ⟨index, publicKey, notes, tainted, algorithm⟩ := view
  cases index with
  | none => exact recordRead (members none) rfl
  | some index =>
    exact recordRead (.member _ rfl rfl (fieldRead (optionalRead (numberRead index)) _) (members _)) rfl

def Draft.Addressed (draft : Draft) : Prop := ∀ key, draft.publicKey = some key → key.bytes ≠ []

theorem readAddressed : Yields reader Addressed := by
  have key : Yields PublicKey.reader fun key => key.bytes ≠ [] :=
    checkedYields fun _ _ passed => (PublicKey.ofHexOk.mp (Fallible.mapErrorOk.mp passed)).2
  have start : Draft.Addressed shape.empty := nofun
  refine recordYields start ?_ ?_
  · simp only [shape, List.forall_mem_cons]
    refine ⟨?_, ?_, ?_, ?_, ?_, nofun⟩
    case refine_2 => exact fieldYields key fun _ value _ good _ same => Option.some.inj same ▸ good
    all_goals exact fieldYields (fun _ _ _ _ => trivial) fun _ _ before _ => before
  · intro draft view before made
    simp only [shape, Option.bind_eq_bind, Option.bind_eq_some_iff, Option.some.injEq] at made
    obtain ⟨key, found, _, _, _, _, _, _, rfl⟩ := made
    exact before key found

end PublicKeyView

namespace PublicWallet

def Addressed (view : PublicWallet) : Prop := ∀ key ∈ view.keys, key.Addressed

theorem documentRead {view : PublicWallet} (addressed : view.Addressed) : Reads reader view.json.compact view := by
  obtain ⟨version, name, keys⟩ := view
  have members : Fills shape.fields shape.empty [("version", .number version.toNat), ("name", .text name),
      ("keys", .list (keys.map PublicKeyView.json))] ⟨some version, some name, some keys⟩ := by
    refine .member _ rfl rfl (fieldRead (numberRead version) _) ?_
    refine .member _ rfl rfl (fieldRead (textRead name) _) ?_
    refine .member _ rfl rfl (fieldRead (listRead keys fun key member => ?_) _) ?_
    · exact PublicKeyView.documentRead (addressed key member)
    · exact .done _
  exact recordRead members rfl

def Draft.Addressed (draft : Draft) : Prop := ∀ keys, draft.keys = some keys → ∀ key ∈ keys, key.Addressed

theorem readAddressed : Yields reader Addressed := by
  have start : Draft.Addressed shape.empty := nofun
  refine recordYields start ?_ ?_
  · simp only [shape, List.forall_mem_cons]
    refine ⟨?_, ?_, ?_, nofun⟩
    case refine_3 =>
      exact fieldYields (listYields PublicKeyView.readAddressed) fun _ _ _ good _ same => Option.some.inj same ▸ good
    all_goals exact fieldYields (fun _ _ _ _ => trivial) fun _ _ before _ => before
  · intro draft view before made
    simp only [shape, Option.bind_eq_bind, Option.bind_eq_some_iff, Option.some.injEq] at made
    obtain ⟨_, _, _, _, keys, found, rfl⟩ := made
    exact before keys found

/- The document that stands for what another one says, in the order and the spelling of the program. -/
def restated (document : Bytes) : Except Json.Fault Bytes :=
  (Json.readDocument reader document).map fun view => view.json.compact

end PublicWallet

theorem KeyPair.viewAddressed {pair : KeyPair} (keyed : pair.Keyed) : pair.view.Addressed := by
  have nonempty : pair.publicKey.bytes ≠ [] := List.ne_nil_of_length_pos (by rw [keyed.publicLength]; decide)
  exact nonempty

theorem Wallet.viewAddressed {wallet : Wallet} (sound : wallet.Sound) : wallet.view.Addressed := by
  intro key member
  obtain ⟨pair, listed, rfl⟩ := List.mem_map.mp member
  exact KeyPair.viewAddressed (sound.keyed pair listed)

/-- The public form of a wallet is read back whole, after any history of the wallet. So is every public form that was
read from a document, whoever wrote it: to read and to write again changes a document once and never again. -/
theorem publicFormRestored :
    (∀ start : Wallet, start.Begun → ∀ moves : List Wallet.Move,
      Json.readDocument PublicWallet.reader (start.run moves).view.json.compact = .ok (start.run moves).view) ∧
    (∀ (document : Bytes) (view : PublicWallet), Json.readDocument PublicWallet.reader document = .ok view →
      Json.readDocument PublicWallet.reader view.json.compact = .ok view) ∧
    ∀ document text : Bytes, PublicWallet.restated document = .ok text → PublicWallet.restated text = .ok text := by
  have again (document : Bytes) (view : PublicWallet)
      (read : Json.readDocument PublicWallet.reader document = .ok view) :
      Json.readDocument PublicWallet.reader view.json.compact = .ok view :=
    Json.documentRead (PublicWallet.documentRead (Json.documentYields PublicWallet.readAddressed read))
  refine ⟨fun start begun moves => ?_, again, fun document text written => ?_⟩
  · have sound := Wallet.runKeeps Wallet.movedSound (Wallet.begunSound begun) moves
    exact Json.documentRead (PublicWallet.documentRead (Wallet.viewAddressed sound))
  · obtain ⟨view, read, rfl⟩ := Fallible.mapOk.mp written
    exact Fallible.mapOk.mpr ⟨view, again document view read, rfl⟩

def PublicWallet.sampleDocument : Bytes := Utf8.encode <|
  "\x7b\"keys\" : [ \x7b\"algorithm\" : [\"walletd/ed25519\", 1], \"meta\" : [[\"use\", \"r\\u00e9nt\"]], " ++
  "\"tainted\" : false, \"public_key\" : \"3B6A27\", \"owner\" : [null]\x7d ], \"version\" : 9, \"name\" : \"\"\x7d"

theorem sampleFormRestored :
    (∃ start, Wallet.importPhrase "savings" Wallet.samplePhrase = .ok start ∧
      Json.readDocument PublicWallet.reader
          (start.run [.generate Wallet.sampleSeed [⟨"use", "réel\n"⟩], .reload]).view.json.compact =
        .ok (start.run [.generate Wallet.sampleSeed [⟨"use", "réel\n"⟩], .reload]).view) ∧
    ∃ view text, Json.readDocument PublicWallet.reader PublicWallet.sampleDocument = .ok view ∧
      Json.readDocument PublicWallet.reader view.json.compact = .ok view ∧
      PublicWallet.restated PublicWallet.sampleDocument = .ok text ∧ PublicWallet.restated text = .ok text := by
  obtain ⟨wallets, views, texts⟩ := publicFormRestored
  obtain ⟨node, made⟩ := Wallet.samplePhraseOk "savings"
  refine ⟨⟨_, made, wallets _ (.fresh (.imported made)) _⟩, ?_⟩
  have readable : (Json.readDocument PublicWallet.reader PublicWallet.sampleDocument).isOk := by decide +kernel
  cases read : Json.readDocument PublicWallet.reader PublicWallet.sampleDocument with
  | error fault =>
    rw [read] at readable
    cases readable
  | ok view =>
    have written : PublicWallet.restated PublicWallet.sampleDocument = .ok view.json.compact :=
      Fallible.mapOk.mpr ⟨view, read, rfl⟩
    exact ⟨view, _, rfl, views _ view read, written, texts _ _ written⟩

end WalletVault
