import WalletVault.Text.Encoding
import WalletVault.Text.Quoted

/-! Keys and their notes. Keys are raw bytes, and the hexadecimal form in lower case is the address of a key inside a
wallet. A fault in the text of a private key says nothing about that text. -/
namespace WalletVault

inductive KeyFault where
  | notHex (fault : Hex.Fault)
  | secretNotHex
  | empty
  deriving DecidableEq, Repr

def KeyFault.message : KeyFault → String
  | .notHex fault => "invalid hex encoding: " ++ fault.message
  | .secretNotHex => "invalid hex encoding: private key is not valid hex"
  | .empty => "empty key"

structure PublicKey where
  bytes : Bytes
  deriving DecidableEq, Repr

structure PrivateKey where
  bytes : Bytes
  deriving DecidableEq

namespace PublicKey

def hex (key : PublicKey) : String := Hex.encode key.bytes

def ofHex (text : String) : Except KeyFault PublicKey :=
  match Hex.decode text with
  | .error fault => .error (.notHex fault)
  | .ok bytes => if bytes = [] then .error .empty else .ok ⟨bytes⟩

end PublicKey

namespace PrivateKey

def hex (key : PrivateKey) : String := Hex.encode key.bytes

def ofHex (text : String) : Except KeyFault PrivateKey :=
  match Hex.decode text with
  | .error _ => .error .secretNotHex
  | .ok bytes => if bytes = [] then .error .empty else .ok ⟨bytes⟩

end PrivateKey

structure Note where
  key : String
  value : String
  deriving DecidableEq, Repr

namespace Note

def value? (notes : List Note) (name : String) : Option String :=
  (notes.find? (·.key = name)).map (·.value)

def expected (text : String) : String := "expected key=value, got " ++ Quoted.text text

def ofText (text : String) : Except String Note :=
  match text.toList.span (· ≠ '=') with
  | (key, _ :: value) => if key = [] then .error (expected text) else .ok ⟨String.ofList key, String.ofList value⟩
  | (_, []) => .error (expected text)

end Note

end WalletVault
