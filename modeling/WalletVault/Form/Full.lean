import WalletVault.Form.Public
import WalletVault.Text.Encoding
import WalletVault.Wallet.Basic

/-! The full form of a wallet, private keys and node included: what is sealed for storage. Decoding first
reads a record, then checks every key against its private key, then the version, the node, and every
key of a derived wallet against the node. -/
namespace WalletVault
open Json (Shape Reader)

structure KeyRecord where
  index : Option UInt32
  publicKey : String
  privateKey : String
  notes : List Note
  tainted : Bool
  algorithm : Descriptor
  deriving DecidableEq

structure WalletRecord where
  version : UInt32
  name : String
  node : Option String
  keys : List KeyRecord
  deriving DecidableEq

namespace KeyRecord

def json (record : KeyRecord) : Json :=
  .object (Json.optional "index" (record.index.map fun index => .number index.toNat) ++
    [("public_key", .text record.publicKey), ("private_key", .text record.privateKey),
      ("meta", .list (record.notes.map Note.json)), ("tainted", .flag record.tainted),
      ("algorithm", record.algorithm.json)])

structure Draft where
  index : Option (Option UInt32)
  publicKey : Option String
  privateKey : Option String
  notes : Option (List Note)
  tainted : Option Bool
  algorithm : Option Descriptor

def shape : Shape Draft KeyRecord where
  empty := ⟨none, none, none, none, none, none⟩
  fields := [
    ⟨"index", Draft.index, fun d index => { d with index := some index }, Json.readOptional Json.readWord32⟩,
    ⟨"public_key", Draft.publicKey, fun d key => { d with publicKey := some key }, Json.readText⟩,
    ⟨"private_key", Draft.privateKey, fun d key => { d with privateKey := some key }, Json.readText⟩,
    ⟨"meta", Draft.notes, fun d list => { d with notes := some list }, Json.readList Note.reader⟩,
    ⟨"tainted", Draft.tainted, fun d tainted => { d with tainted := some tainted }, Json.readFlag⟩,
    ⟨"algorithm", Draft.algorithm, fun d algorithm => { d with algorithm := some algorithm }, Descriptor.reader⟩]
  finish d := do
    some ⟨d.index.join, ← d.publicKey, ← d.privateKey, d.notes.getD [], d.tainted.getD false,
      ← d.algorithm⟩

def reader : Reader KeyRecord := Json.readRecord shape

def ofPair (pair : KeyPair) : KeyRecord :=
  ⟨pair.index, pair.publicKey.hex, pair.privateKey.hex, pair.notes, pair.tainted,
    pair.algorithm.descriptor⟩

def pair (record : KeyRecord) : Except WalletFault KeyPair := do
  let algorithm ← (Algorithm.ofDescriptor record.algorithm).mapError .crypto
  let publicKey ← (PublicKey.ofHex record.publicKey).mapError .keyEncoding
  let privateKey ← (PrivateKey.ofHex record.privateKey).mapError .keyEncoding
  let expected ← (algorithm.publicKey privateKey.bytes).mapError .crypto
  if expected = publicKey then
    pure ⟨record.index, publicKey, privateKey, record.tainted, record.notes, algorithm⟩
  else throw (.invalidKeyRecord (.mismatch publicKey.hex))

end KeyRecord

namespace WalletRecord

def json (record : WalletRecord) : Json :=
  .object ([("version", .number record.version.toNat), ("name", .text record.name)] ++
    Json.optional "node" (record.node.map .text) ++ [("keys", .list (record.keys.map KeyRecord.json))])

structure Draft where
  version : Option UInt32
  name : Option String
  node : Option (Option String)
  keys : Option (List KeyRecord)

def shape : Shape Draft WalletRecord where
  empty := ⟨none, none, none, none⟩
  fields := [
    ⟨"version", Draft.version, fun d version => { d with version := some version }, Json.readWord32⟩,
    ⟨"name", Draft.name, fun d name => { d with name := some name }, Json.readText⟩,
    ⟨"node", Draft.node, fun d node => { d with node := some node }, Json.readOptional Json.readText⟩,
    ⟨"keys", Draft.keys, fun d keys => { d with keys := some keys }, Json.readList KeyRecord.reader⟩]
  finish d := do some ⟨← d.version, ← d.name, d.node.join, d.keys.getD []⟩

def reader : Reader WalletRecord := Json.readRecord shape

def ofDocument (document : Bytes) : Except WalletFault WalletRecord :=
  match Json.readDocument reader document with
  | .ok record => .ok record
  | .error fault =>
    let (line, column) := fault.position document
    .error (.malformedRecord line column)

def decodeNode : Option String → Except WalletFault Node
  | none => .error (.invalidNode .missing)
  | some text =>
    match Base64.decode? text with
    | none => .error (.invalidNode .notBase64)
    | some raw => (Node.ofBytes raw).mapError fun fault => .invalidNode (.badLength fault)

def checkDerived (node : Node) (pair : KeyPair) : Except WalletFault Unit :=
  match pair.index with
  | none => .error (.invalidKeyRecord (.missingIndex pair.publicKey.hex))
  | some index => do
    let derived ← Wallet.derivePair node index
    if derived.publicKey = pair.publicKey then pure ()
    else throw (.invalidKeyRecord (.notDerived pair.publicKey.hex index))

def wallet (record : WalletRecord) : Except WalletFault Wallet := do
  let pairs ← record.keys.mapM KeyRecord.pair
  if record.version = Wallet.derivedVersion then
    let node ← decodeNode record.node
    pairs.forM (checkDerived node)
    pure ⟨record.name, .derived node, .ofList pairs⟩
  else if record.version = Wallet.legacyVersion then pure ⟨record.name, .legacy, .ofList pairs⟩
  else throw (.unsupportedVersion record.version)

def ofWallet (wallet : Wallet) : WalletRecord :=
  let node := match wallet.origin with
    | .derived node => some (Base64.encode node.bytes)
    | .legacy => none
  ⟨wallet.version, wallet.name, node, wallet.ring.list.map KeyRecord.ofPair⟩

end WalletRecord

namespace Wallet

def fullForm (wallet : Wallet) : Bytes := (WalletRecord.ofWallet wallet).json.compact

def ofFullForm (document : Bytes) : Except WalletFault Wallet := do
  (← WalletRecord.ofDocument document).wallet

end Wallet

end WalletVault
