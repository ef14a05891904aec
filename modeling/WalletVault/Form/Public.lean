import WalletVault.Algorithm
import WalletVault.Json.Record
import WalletVault.Json.Value
import WalletVault.Key
import WalletVault.Wallet.Basic
import WalletVault.Wallet.Fault

/-! The written forms of what may be shown: notes, algorithms, signatures, public keys and kinds of failure, each with a
document and a reader, and the public form of a wallet, which leaves out private keys and the node. -/
namespace WalletVault
open Json (Shape Reader)

namespace Note

def json (note : Note) : Json :=
  .object [("key", .text note.key), ("value", .text note.value)]

structure Draft where
  key : Option String
  value : Option String

def shape : Shape Draft Note where
  empty := ⟨none, none⟩
  fields := [
    ⟨"key", Draft.key, fun d key => { d with key := some key }, Json.readText⟩,
    ⟨"value", Draft.value, fun d value => { d with value := some value }, Json.readText⟩]
  finish d := do some ⟨← d.key, ← d.value⟩

def reader : Reader Note := Json.readRecord shape

end Note

namespace Descriptor

def json (descriptor : Descriptor) : Json :=
  .object [("name", .text descriptor.name), ("version", .number descriptor.version.toNat)]

structure Draft where
  name : Option String
  version : Option UInt32

def shape : Shape Draft Descriptor where
  empty := ⟨none, none⟩
  fields := [
    ⟨"name", Draft.name, fun d name => { d with name := some name }, Json.readText⟩,
    ⟨"version", Draft.version, fun d version => { d with version := some version }, Json.readWord32⟩]
  finish d := do some ⟨← d.name, ← d.version⟩

def reader : Reader Descriptor := Json.readRecord shape

end Descriptor

namespace Algorithm

def json (algorithm : Algorithm) : Json := algorithm.descriptor.json

def reader : Reader Algorithm :=
  Json.readChecked Descriptor.reader fun d => (ofDescriptor d).mapError CryptoFault.message

end Algorithm

namespace Signature

def json (signature : Signature) : Json :=
  .object [("value", .text signature.value), ("algo", .text signature.algorithm),
    ("version", .number signature.version.toNat)]

structure Draft where
  value : Option String
  algorithm : Option String
  version : Option UInt32

def shape : Shape Draft Signature where
  empty := ⟨none, none, none⟩
  fields := [
    ⟨"value", Draft.value, fun d value => { d with value := some value }, Json.readText⟩,
    ⟨"algo", Draft.algorithm, fun d name => { d with algorithm := some name }, Json.readText⟩,
    ⟨"version", Draft.version, fun d version => { d with version := some version }, Json.readWord32⟩]
  finish d := do some ⟨← d.value, ← d.algorithm, ← d.version⟩

def reader : Reader Signature := Json.readRecord shape

end Signature

namespace PublicKey

def json (key : PublicKey) : Json := .text key.hex

def reader : Reader PublicKey :=
  Json.readChecked Json.readText fun text => (ofHex text).mapError KeyFault.message

end PublicKey

namespace ErrorKind

def json (kind : ErrorKind) : Json := .text kind.word

def ofWord? (word : String) : Option ErrorKind := all.find? (·.word = word)

def reader : Reader ErrorKind := Json.readChoice ofWord?

end ErrorKind

namespace PublicKeyView

def json (view : PublicKeyView) : Json :=
  .object (Json.optional "index" (view.index.map fun index => .number index.toNat) ++
    [("public_key", view.publicKey.json), ("meta", .list (view.notes.map Note.json)),
      ("tainted", .flag view.tainted), ("algorithm", view.algorithm.json)])

structure Draft where
  index : Option (Option UInt32)
  publicKey : Option PublicKey
  notes : Option (List Note)
  tainted : Option Bool
  algorithm : Option Algorithm

def shape : Shape Draft PublicKeyView where
  empty := ⟨none, none, none, none, none⟩
  fields := [
    ⟨"index", Draft.index, fun d index => { d with index := some index }, Json.readOptional Json.readWord32⟩,
    ⟨"public_key", Draft.publicKey, fun d key => { d with publicKey := some key }, PublicKey.reader⟩,
    ⟨"meta", Draft.notes, fun d list => { d with notes := some list }, Json.readList Note.reader⟩,
    ⟨"tainted", Draft.tainted, fun d tainted => { d with tainted := some tainted }, Json.readFlag⟩,
    ⟨"algorithm", Draft.algorithm, fun d algorithm => { d with algorithm := some algorithm }, Algorithm.reader⟩]
  finish d := do some ⟨d.index.join, ← d.publicKey, ← d.notes, ← d.tainted, ← d.algorithm⟩

def reader : Reader PublicKeyView := Json.readRecord shape

end PublicKeyView

namespace PublicWallet

def json (wallet : PublicWallet) : Json :=
  .object [("version", .number wallet.version.toNat), ("name", .text wallet.name),
    ("keys", .list (wallet.keys.map PublicKeyView.json))]

structure Draft where
  version : Option UInt32
  name : Option String
  keys : Option (List PublicKeyView)

def shape : Shape Draft PublicWallet where
  empty := ⟨none, none, none⟩
  fields := [
    ⟨"version", Draft.version, fun d version => { d with version := some version }, Json.readWord32⟩,
    ⟨"name", Draft.name, fun d name => { d with name := some name }, Json.readText⟩,
    ⟨"keys", Draft.keys, fun d keys => { d with keys := some keys }, Json.readList PublicKeyView.reader⟩]
  finish d := do some ⟨← d.version, ← d.name, ← d.keys⟩

def reader : Reader PublicWallet := Json.readRecord shape

end PublicWallet

end WalletVault
