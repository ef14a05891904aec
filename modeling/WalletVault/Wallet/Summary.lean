import WalletVault.Wallet.Basic

/-! One-line summaries of wallets and keys for diagnosis. Private keys and nodes are left out: two dots stand
where a summary leaves something out. -/
namespace WalletVault.Summary

def record (name : String) (fields : List String) : String :=
  name ++ String.ofList [' ', '\x7b', ' '] ++ ", ".intercalate fields ++ String.ofList [' ', '\x7d']

def field (name value : String) : String := name ++ ": " ++ value

def list (items : List String) : String := "[" ++ ", ".intercalate items ++ "]"

def flag (value : Bool) : String := if value then "true" else "false"

def index : Option UInt32 → String
  | some index => "Some(" ++ toString index ++ ")"
  | none => "None"

def algorithm : Algorithm → String
  | .ed25519 => "Ed25519"

def note (note : Note) : String :=
  record "Meta" [field "key" (Quoted.text note.key), field "value" (Quoted.text note.value)]

def keyPair (pair : KeyPair) : String :=
  record "KeyPair" [field "index" (index pair.index), field "public_key" (Quoted.text pair.publicKey.hex),
    field "tainted" (flag pair.tainted), field "meta" (list (pair.notes.map note)),
    field "algorithm" (algorithm pair.algorithm), ".."]

def keyRing (ring : KeyRing) : String :=
  let keys := ring.keys.toList.map fun (key, pair) => field (Quoted.text key) (keyPair pair)
  record "KeyRing" [
    field "keys" (String.ofList ['\x7b'] ++ ", ".intercalate keys ++ String.ofList ['\x7d']),
    field "next_index" (toString ring.nextIndex)]

def wallet (wallet : Wallet) : String :=
  let name := field "name" (Quoted.text wallet.name)
  let rest := [field "key_ring" (keyRing wallet.ring), field "algorithm" (algorithm Wallet.algorithm)]
  match wallet.origin with
  | .derived _ =>
    "Hd(" ++ record "HdWallet" (name :: field "node" (record "HdNode" [".."]) :: rest) ++ ")"
  | .legacy => "Legacy(" ++ record "LegacyWallet" (name :: rest) ++ ")"

def masterKey (master : MasterKey) : String :=
  record "MasterKeyPair" [field "public_key" (Quoted.text master.publicKey.hex),
    field "algorithm" (algorithm master.algorithm), ".."]

end WalletVault.Summary
