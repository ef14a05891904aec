import WalletVault.Proofs.Wallet.Sound
import WalletVault.Proofs.Form.Reworded
import WalletVault.Proofs.Wallet.FiniteMap

/-! A wallet is loaded from what its document means, and written in one way. -/
namespace WalletVault
open Fallible
open Json (Tree Spells Spelled Takes TextBody ScalarText NumeralText Plain plainBody textOf? quoted quotedToken nullText
  spelledUnique documentMeans)

namespace KeyRecord
variable {record other : KeyRecord} {records others : List KeyRecord} {pair : KeyPair} {pairs : List KeyPair}

theorem pairCased (read : record.pair = .ok pair) (same : record.lower = other.lower) : other.pair = .ok pair := by
  simp only [lower, KeyRecord.mk.injEq] at same
  obtain ⟨index, samePublic, samePrivate, notes, tainted, descriptor⟩ := same
  obtain ⟨algorithm, known, read⟩ := bindOk.mp read
  obtain ⟨publicKey, written, read⟩ := bindOk.mp read
  obtain ⟨privateKey, hidden, read⟩ := bindOk.mp read
  obtain ⟨expected, gives, read⟩ := bindOk.mp read
  have again : PublicKey.ofHex other.publicKey = .ok publicKey :=
    PublicKey.ofHexOk.mpr (samePublic ▸ PublicKey.ofHexOk.mp (mapErrorOk.mp written))
  have secret : PrivateKey.ofHex other.privateKey = .ok privateKey :=
    PrivateKey.ofHexOk.mpr (samePrivate ▸ PrivateKey.ofHexOk.mp (mapErrorOk.mp hidden))
  rw [index, notes, tainted] at read
  refine bindOk.mpr ⟨algorithm, descriptor ▸ known, ?_⟩
  refine bindOk.mpr ⟨publicKey, mapErrorOk.mpr again, ?_⟩
  refine bindOk.mpr ⟨privateKey, mapErrorOk.mpr secret, ?_⟩
  exact bindOk.mpr ⟨expected, gives, read⟩

theorem pairsCased (read : records.mapM KeyRecord.pair = .ok pairs) (same : records.map lower = others.map lower) :
    others.mapM KeyRecord.pair = .ok pairs := by
  rw [collectedOk] at read ⊢
  induction read generalizing others with
  | nil =>
    cases others with
    | nil => exact .nil
    | cons => cases same
  | cons first _ ih =>
    cases others with
    | nil => cases same
    | cons other others =>
      obtain ⟨here, later⟩ := List.cons.inj same
      exact .cons (pairCased first here) (ih later)

theorem pairsDistinct (read : records.mapM KeyRecord.pair = .ok pairs)
    (distinct : (records.map fun record => record.publicKey.toLower).Nodup) :
    (pairs.map KeyPair.publicKey).Nodup := by
  have digits : (records.map fun record => record.publicKey.toLower) =
      (pairs.map KeyPair.publicKey).map PublicKey.hex := by
    rw [collectedOk] at read
    clear distinct
    induction read with
    | nil => rfl
    | cons first _ ih =>
      simp only [List.map_cons, (PublicKey.ofHexOk.mp (pairPublic first)).1, ih]
  exact (digits ▸ distinct).of_map

theorem pairsAgain (read : records.mapM KeyRecord.pair = .ok pairs) (same : SameList records others) :
    ∃ again, others.mapM KeyRecord.pair = .ok again ∧ KeyRing.ofList again = KeyRing.ofList pairs ∧
      again.Perm pairs := by
  rcases same with same | ⟨distinct, permuted⟩
  · exact ⟨pairs, pairsCased read same, rfl, .refl _⟩
  · have itself : List.Forall₂ (fun low record => low = lower record) (records.map lower) records := by
      simp
    obtain ⟨moved, lowered, order⟩ := List.perm_comp_forall₂ permuted.symm itself
    have cased : others.map lower = moved.map lower := by
      rwa [← List.forall₂_eq_eq_eq, List.forall₂_map_right_iff]
    obtain ⟨again, taken, pairsOrder⟩ := List.perm_comp_forall₂ order (collectedOk.mp read)
    have rings := KeyRing.ofListAnyOrder pairsOrder.symm (pairsDistinct read distinct)
    exact ⟨again, pairsCased (collectedOk.mpr taken) cased.symm, rings.symm, pairsOrder⟩

end KeyRecord

theorem WalletRecord.walletAgain {record other : WalletRecord} {wallet : Wallet} (read : record.wallet = .ok wallet)
    (same : record.Same other) : other.wallet = .ok wallet := by
  obtain ⟨pairs, collected, read⟩ := bindOk.mp read
  obtain ⟨again, taken, rings, order⟩ := KeyRecord.pairsAgain collected same.keys
  refine bindOk.mpr ⟨again, taken, ?_⟩
  rw [same.version, same.name, same.node] at read
  rw [rings]
  split
  · rename_i version
    rw [if_pos version] at read
    obtain ⟨node, decoded, read⟩ := bindOk.mp read
    obtain ⟨_, checked, read⟩ := bindOk.mp read
    have every : again.forM (checkDerived node) = .ok () :=
      checkedOk.mpr fun pair member => checkedOk.mp checked pair (order.mem_iff.mp member)
    exact bindOk.mpr ⟨node, decoded, bindOk.mpr ⟨(), every, read⟩⟩
  · rename_i version
    rwa [if_neg version] at read

theorem WalletRecord.ofDocumentMeans {document : Bytes} {record : WalletRecord} :
    ofDocument document = .ok record ↔ ∃ tree, Spelled tree document ∧ Takes reader tree record := by
  rw [← documentMeans grammatical, ofDocument]
  split <;> simp_all

namespace Wallet
variable {document : Bytes} {wallet : Wallet}

theorem loadedTree (loaded : ofFullForm document = .ok wallet) : ∃ tree record, Spelled tree document ∧
    Takes WalletRecord.reader tree record ∧ record.wallet = .ok wallet := by
  obtain ⟨record, read, made⟩ := decodedSource loaded
  obtain ⟨tree, spelled, takes⟩ := WalletRecord.ofDocumentMeans.mp read
  exact ⟨tree, record, spelled, takes, made⟩

theorem treeLoads {tree : Tree} {record : WalletRecord} (spelled : Spelled tree document)
    (takes : Takes WalletRecord.reader tree record) (made : record.wallet = .ok wallet) :
    ofFullForm document = .ok wallet :=
  bindOk.mpr ⟨record, WalletRecord.ofDocumentMeans.mpr ⟨tree, spelled, takes⟩, made⟩

/-- The full form as it is written when the map of keys gives out the pairs in some order: sorted before they are
recorded. -/
def formTaking (wallet : Wallet) (order : List KeyPair) : Bytes :=
  let record := WalletRecord.ofWallet wallet
  WalletRecord.json { record with keys := (order.mergeSort KeyRing.listedBefore).map .ofPair } |>.compact

structure Alike (wallet other : Wallet) : Prop where
  name : wallet.name = other.name
  origin : wallet.origin = other.origin
  keys : ∀ key : String, wallet.ring.keys[key]? = other.ring.keys[key]?

theorem formAnyOrder (filed : wallet.ring.Filed) {other : Wallet} (alike : wallet.Alike other) {order : List KeyPair}
    (taken : order.Perm other.ring.keys.values) : other.formTaking order = wallet.fullForm := by
  have keys : wallet.ring.keys = other.ring.keys := Std.ExtTreeMap.ext_getElem? fun key => alike.keys key
  have sorted := KeyRing.listAnyOrder filed (keys ▸ taken)
  obtain ⟨name, origin, ring⟩ := wallet
  obtain ⟨_, _, _⟩ := other
  cases alike.name
  cases alike.origin
  exact congrArg (fun list => (WalletRecord.mk _ name _ (list.map KeyRecord.ofPair)).json.compact) sorted

/-- A wallet is loaded from what its document means: the document spells one tree, and whatever spells a rewording of
this tree loads to the same wallet. A wallet is written in one way: another one with the same name, origin and keys
has the same full form, byte for byte, in whatever order its keys come out of the map. -/
theorem loadsByMeaning (loaded : ofFullForm document = .ok wallet) :
    (∃ tree, (∀ other, Spelled other document ↔ other = tree) ∧
      ∀ changed, Rewrites (.record .wallet) tree changed → changed.Written ∧
        ∀ again, Spelled changed again → ofFullForm again = .ok wallet) ∧
    wallet.ring.Filed ∧
    ∀ first second : Wallet, first.ring.Filed → first.Alike second →
      ∀ order : List KeyPair, order.Perm second.ring.keys.values → second.formTaking order = first.fullForm := by
  obtain ⟨tree, record, spelled, takes, made⟩ := loadedTree loaded
  refine ⟨⟨tree, fun other => ⟨spelledUnique spelled, ?_⟩, fun changed rewrites => ?_⟩, ?_, ?_⟩
  · rintro rfl
    exact spelled
  · obtain ⟨instead, taken, same⟩ := (rewritesConvey rewrites).1 record takes
    exact ⟨taken.written, fun again respelled => treeLoads respelled taken (WalletRecord.walletAgain made same)⟩
  · obtain ⟨_, _, ring, _⟩ := WalletRecord.walletSource made
    exact ring ▸ KeyRing.ofListFiled _
  · exact fun first second filed alike order => formAnyOrder filed alike

/-! A legacy wallet of one key, and a rewording: with blanks, its members in another order, the digits of one key in
upper case, notes and a node that say nothing, and an owner that no one asks for. -/

def samplePrivate : String := String.ofList (List.replicate 64 '0')

def samplePublic : String := "3b6a27bcceb6a42d62a3a8d02a6f0d73653215771de243a63ac048a18b59da29"

def sampleUpper : String := "3B6A27BCCEB6A42D62A3A8D02A6F0D73653215771DE243A63AC048A18B59DA29"

def told (text : String) (rest : Bytes) : Bytes := quoted (Utf8.encode text) ++ rest

def called (name : String) (rest : Bytes) : Bytes := told name (58 :: rest)

def algorithmBytes (rest : Bytes) : Bytes :=
  123 :: called "name" (told "walletd/ed25519" (44 :: called "version" (49 :: 125 :: rest)))

def keyBytes (rest : Bytes) : Bytes :=
  123 :: called "public_key" (told samplePublic (44 :: called "private_key" (told samplePrivate (44 ::
    called "algorithm" (algorithmBytes (125 :: rest))))))

def sampleDocument : Bytes :=
  123 :: called "version" (49 :: 44 :: called "name" (told "savings" (44 :: called "keys" (91 :: keyBytes [93, 125]))))

def rewordedKeyBytes (rest : Bytes) : Bytes :=
  123 :: called "meta" (91 :: 32 :: 93 :: 44 :: called "algorithm" (algorithmBytes (44 ::
    called "private_key" (told samplePrivate (44 :: called "public_key" (told sampleUpper (125 :: rest)))))))

def rewordedDocument : Bytes :=
  123 :: 10 :: called "owner" (49 :: 44 :: called "node" (nullText ++ 44 :: called "keys" (91 :: rewordedKeyBytes (93 ::
    32 :: 44 :: called "name" (told "savings" (44 :: called "version" (49 :: [10, 125, 10])))))))

def named (name : String) (tree : Tree) : Bytes × Tree := (Utf8.encode name, tree)

def textTree (text : String) : Tree := .scalar (quoted (Utf8.encode text))

def algorithmTree : Tree := .object [named "name" (textTree "walletd/ed25519"), named "version" (.scalar [49])]

def keyTree : Tree :=
  .object [named "public_key" (textTree samplePublic), named "private_key" (textTree samplePrivate),
    named "algorithm" algorithmTree]

def walletTree : Tree :=
  .object [named "version" (.scalar [49]), named "name" (textTree "savings"), named "keys" (.list [keyTree])]

def rewordedKeyTree : Tree :=
  .object [named "meta" (.list []), named "algorithm" algorithmTree, named "private_key" (textTree samplePrivate),
    named "public_key" (textTree sampleUpper)]

def rewordedTree : Tree :=
  .object [named "owner" (.scalar [49]), named "node" (.scalar nullText), named "keys" (.list [rewordedKeyTree]),
    named "name" (textTree "savings"), named "version" (.scalar [49])]

def sampleWords : List String :=
  ["version", "name", "keys", "public_key", "private_key", "algorithm", "meta", "node", "owner", "savings",
    "walletd/ed25519", samplePublic, samplePrivate, sampleUpper]

theorem sampleWordsPlain : ∀ word ∈ sampleWords,
    Plain (Utf8.encode word) ∧ textOf? (Utf8.encode word) = some word := by
  decide +kernel

theorem sampleBody {word : String} (known : word ∈ sampleWords) : TextBody (Utf8.encode word) :=
  plainBody (sampleWordsPlain word known).1

theorem sampleText {word : String} (known : word ∈ sampleWords) : textOf? (Utf8.encode word) = some word :=
  (sampleWordsPlain word known).2

theorem oneText : ScalarText [49] :=
  .number (@NumeralText.written false [49] [] [] [] none
    (Or.inr ⟨49, [], rfl, by decide, List.forall_mem_singleton.mpr rfl⟩) .none .none)

theorem oneSpelled (rest : Bytes) : Spells (.value (.scalar [49])) (49 :: rest) rest := .scalar oneText rfl

theorem toldSpelled {text : String} (known : text ∈ sampleWords) (rest : Bytes) :
    Spells (.value (textTree text)) (told text rest) rest := .scalar (.text (sampleBody known)) rfl

theorem calledSpelled {name : String} {tree : Tree} {value rest : Bytes} (known : name ∈ sampleWords)
    (spelled : Spells (.value tree) value rest) : Spells (.member (Utf8.encode name) tree) (called name value) rest :=
  .member (sampleBody known) (quotedToken.mp rfl) rfl spelled

theorem algorithmSpelled (rest : Bytes) : Spells (.value algorithmTree) (algorithmBytes rest) rest := by
  refine .object rfl (.firstMember (calledSpelled (by simp [sampleWords]) (toldSpelled (by simp [sampleWords]) _)) ?_)
  exact .nextMember rfl (calledSpelled (by simp [sampleWords]) (oneSpelled _)) (.lastMember rfl)

theorem keySpelled (rest : Bytes) : Spells (.value keyTree) (keyBytes rest) rest := by
  refine .object rfl (.firstMember (calledSpelled (by simp [sampleWords]) (toldSpelled (by simp [sampleWords]) _)) ?_)
  refine .nextMember rfl (calledSpelled (by simp [sampleWords]) (toldSpelled (by simp [sampleWords]) _)) ?_
  exact .nextMember rfl (calledSpelled (by simp [sampleWords]) (algorithmSpelled _)) (.lastMember rfl)

theorem walletSpelled : Spelled walletTree sampleDocument := by
  refine ⟨[], ?_, rfl⟩
  refine .object rfl (.firstMember (calledSpelled (by simp [sampleWords]) (oneSpelled _)) ?_)
  refine .nextMember rfl (calledSpelled (by simp [sampleWords]) (toldSpelled (by simp [sampleWords]) _)) ?_
  refine .nextMember rfl
    (calledSpelled (by simp [sampleWords]) (.list rfl (.firstItem (keySpelled _) (.lastItem rfl)))) ?_
  exact .lastMember rfl

theorem rewordedKeySpelled (rest : Bytes) : Spells (.value rewordedKeyTree) (rewordedKeyBytes rest) rest := by
  refine .object rfl (.firstMember (calledSpelled (by simp [sampleWords]) (.list rfl (.lastItem rfl))) ?_)
  refine .nextMember rfl (calledSpelled (by simp [sampleWords]) (algorithmSpelled _)) ?_
  refine .nextMember rfl (calledSpelled (by simp [sampleWords]) (toldSpelled (by simp [sampleWords]) _)) ?_
  exact .nextMember rfl (calledSpelled (by simp [sampleWords]) (toldSpelled (by simp [sampleWords]) _))
    (.lastMember rfl)

theorem rewordedSpelled : Spelled rewordedTree rewordedDocument := by
  refine ⟨[10], ?_, rfl⟩
  refine .object rfl (.firstMember (Spells.spacedMember (calledSpelled (by simp [sampleWords]) (oneSpelled _))) ?_)
  refine .nextMember rfl (calledSpelled (by simp [sampleWords]) (.scalar .null rfl)) ?_
  refine .nextMember rfl
    (calledSpelled (by simp [sampleWords]) (.list rfl (.firstItem (rewordedKeySpelled _) (.lastItem rfl)))) ?_
  refine .nextMember rfl (calledSpelled (by simp [sampleWords]) (toldSpelled (by simp [sampleWords]) _)) ?_
  exact .nextMember rfl (calledSpelled (by simp [sampleWords]) (oneSpelled _)) (.lastMember rfl)

theorem sampleCased : samplePublic.toLower = sampleUpper.toLower := by
  have same : Hex.decode sampleUpper = Hex.decode samplePublic := by decide +kernel
  have written : (Hex.decode samplePublic).isOk = true := by decide +kernel
  cases read : Hex.decode samplePublic with
  | error fault =>
    rw [read] at written
    cases written
  | ok bytes => exact (Hex.decodeMeans.mp read).trans (Hex.decodeMeans.mp (same.trans read)).symm

theorem keyReworded : Rewrites (.record .key) keyTree rewordedKeyTree := by
  have reversed : Rewrites (.record .key) keyTree (.object [named "algorithm" algorithmTree,
      named "private_key" (textTree samplePrivate), named "public_key" (textTree samplePublic)]) :=
    .permuted (List.reverse_perm _).symm
  have lower : samplePublic ∈ sampleWords := by simp [sampleWords]
  have upper : sampleUpper ∈ sampleWords := by simp [sampleWords]
  have digits := Rewrites.cased (sampleBody lower) (sampleBody upper) (sampleText lower) (sampleText upper) sampleCased
  have publicKey : textOf? (Utf8.encode "public_key") = some "public_key" := sampleText (by simp [sampleWords])
  have cased := @Rewrites.member .key _ _ _ _ _ [named "algorithm" algorithmTree,
    named "private_key" (textTree samplePrivate)] [] publicKey rfl digits
  have notes : "meta" ∈ sampleWords := by simp [sampleWords]
  exact (reversed.trans cased).trans (.said (sampleBody notes) (sampleText notes) rfl (by decide +kernel))

theorem walletReworded : Rewrites (.record .wallet) walletTree rewordedTree := by
  have reversed : Rewrites (.record .wallet) walletTree (.object [named "keys" (.list [keyTree]),
      named "name" (textTree "savings"), named "version" (.scalar [49])]) := .permuted (List.reverse_perm _).symm
  have keys : Rewrites .keys (.list [keyTree]) (.list [rewordedKeyTree]) := @Rewrites.key _ _ [] [] keyReworded
  have inside : textOf? (Utf8.encode "keys") = some "keys" := sampleText (by simp [sampleWords])
  have within := @Rewrites.member .wallet _ _ _ _ _ [] [named "name" (textTree "savings"),
    named "version" (.scalar [49])] inside rfl keys
  have node : "node" ∈ sampleWords := by simp [sampleWords]
  have owner : "owner" ∈ sampleWords := by simp [sampleWords]
  have said := (reversed.trans within).trans (.said (sampleBody node) (sampleText node) rfl (by decide +kernel))
  exact said.trans (.added (sampleBody owner) (sampleText owner) (by decide) (oneSpelled []).isWritten)

theorem sampleReloads : ∃ wallet, ofFullForm sampleDocument = .ok wallet ∧
    ofFullForm rewordedDocument = .ok wallet ∧
    wallet.formTaking wallet.ring.keys.values.reverse = wallet.fullForm := by
  have readable : (ofFullForm sampleDocument).isOk = true := by decide +kernel
  cases loaded : ofFullForm sampleDocument with
  | error fault =>
    rw [loaded] at readable
    cases readable
  | ok wallet =>
    obtain ⟨⟨tree, only, reloads⟩, filed, writes⟩ := loadsByMeaning loaded
    have same : walletTree = tree := (only walletTree).mp walletSpelled
    exact ⟨wallet, rfl, (reloads _ (same ▸ walletReworded)).2 _ rewordedSpelled,
      writes wallet wallet filed ⟨rfl, rfl, fun _ => rfl⟩ _ (List.reverse_perm _)⟩

end Wallet

end WalletVault
