import SynoraErp.Python.Sha256

/-!
# HMAC-SHA256

`hmac.new(key, message, hashlib.sha256)`, and the digest of SHA-256 as bytes.
-/

namespace Python

namespace Sha256

/-- The bytes of a word, big endian. -/
def wordBytes (w : UInt32) : List UInt8 :=
  (List.range 4).map fun i => UInt8.ofNat (w.toNat / 256 ^ (3 - i))

/-- `hashlib.sha256(data).digest()`. -/
def digest (data : ByteArray) : ByteArray :=
  let words := toWords (pad data.data.toList)
  ⟨((blocks (words.length / 16) State.initial words).words.flatMap wordBytes).toArray⟩

end Sha256

namespace Hmac

/-- A key as one block: hashed when it is longer than one, with zeros at its end. -/
def block (key : ByteArray) : List UInt8 :=
  let key := if 64 < key.size then Sha256.digest key else key
  key.data.toList ++ List.replicate (64 - key.size) 0

/-- What is hashed: the block against a padding byte, then the message. -/
def padded (key : ByteArray) (byte : UInt8) (message : ByteArray) : ByteArray :=
  ⟨((block key).map (· ^^^ byte)).toArray⟩ ++ message

/-- `hmac.new(key, message, hashlib.sha256).digest()`. -/
def digest (key message : ByteArray) : ByteArray :=
  Sha256.digest (padded key 0x5C (Sha256.digest (padded key 0x36 message)))

/-- `hmac.new(key, message, hashlib.sha256).hexdigest()`. -/
def hexdigest (key message : ByteArray) : Text :=
  Sha256.hexdigest (padded key 0x5C (Sha256.digest (padded key 0x36 message)))

end Hmac

end Python
