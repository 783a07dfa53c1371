import SynoraErp.Python.Json

/-!
# SHA-256

`hashlib.sha256(data).hexdigest()`. The contracts only rely on the form of the
digest: 64 hexadecimal digits in lower case.
-/

namespace Python

namespace Sha256

/-- The round constants. -/
def roundConstants : List UInt32 :=
  [0x428a2f98, 0x71374491, 0xb5c0fbcf, 0xe9b5dba5, 0x3956c25b, 0x59f111f1, 0x923f82a4, 0xab1c5ed5,
    0xd807aa98, 0x12835b01, 0x243185be, 0x550c7dc3, 0x72be5d74, 0x80deb1fe, 0x9bdc06a7, 0xc19bf174,
    0xe49b69c1, 0xefbe4786, 0x0fc19dc6, 0x240ca1cc, 0x2de92c6f, 0x4a7484aa, 0x5cb0a9dc, 0x76f988da,
    0x983e5152, 0xa831c66d, 0xb00327c8, 0xbf597fc7, 0xc6e00bf3, 0xd5a79147, 0x06ca6351, 0x14292967,
    0x27b70a85, 0x2e1b2138, 0x4d2c6dfc, 0x53380d13, 0x650a7354, 0x766a0abb, 0x81c2c92e, 0x92722c85,
    0xa2bfe8a1, 0xa81a664b, 0xc24b8b70, 0xc76c51a3, 0xd192e819, 0xd6990624, 0xf40e3585, 0x106aa070,
    0x19a4c116, 0x1e376c08, 0x2748774c, 0x34b0bcb5, 0x391c0cb3, 0x4ed8aa4a, 0x5b9cca4f, 0x682e6ff3,
    0x748f82ee, 0x78a5636f, 0x84c87814, 0x8cc70208, 0x90befffa, 0xa4506ceb, 0xbef9a3f7, 0xc67178f2]

def rotateRight (x : UInt32) (n : UInt32) : UInt32 := (x >>> n) ||| (x <<< (32 - n))

/-- The eight words of the state. -/
structure State where
  a : UInt32
  b : UInt32
  c : UInt32
  d : UInt32
  e : UInt32
  f : UInt32
  g : UInt32
  h : UInt32

def State.initial : State :=
  ⟨0x6a09e667, 0xbb67ae85, 0x3c6ef372, 0xa54ff53a, 0x510e527f, 0x9b05688c, 0x1f83d9ab, 0x5be0cd19⟩

def State.add (s t : State) : State :=
  ⟨s.a + t.a, s.b + t.b, s.c + t.c, s.d + t.d, s.e + t.e, s.f + t.f, s.g + t.g, s.h + t.h⟩

def State.words (s : State) : List UInt32 := [s.a, s.b, s.c, s.d, s.e, s.f, s.g, s.h]

/-- One round, with its constant and its word of the schedule. -/
def State.round (s : State) (k w : UInt32) : State :=
  let s1 := rotateRight s.e 6 ^^^ rotateRight s.e 11 ^^^ rotateRight s.e 25
  let ch := (s.e &&& s.f) ^^^ ((~~~s.e) &&& s.g)
  let t1 := s.h + s1 + ch + k + w
  let s0 := rotateRight s.a 2 ^^^ rotateRight s.a 13 ^^^ rotateRight s.a 22
  let maj := (s.a &&& s.b) ^^^ (s.a &&& s.c) ^^^ (s.b &&& s.c)
  ⟨t1 + (s0 + maj), s.a, s.b, s.c, s.d + t1, s.e, s.f, s.g⟩

/-- The next word of the schedule, from the words so far, latest first. -/
def nextWord (ws : List UInt32) : UInt32 :=
  let w15 := ws.getD 14 0
  let w2 := ws.getD 1 0
  let s0 := rotateRight w15 7 ^^^ rotateRight w15 18 ^^^ (w15 >>> 3)
  let s1 := rotateRight w2 17 ^^^ rotateRight w2 19 ^^^ (w2 >>> 10)
  ws.getD 15 0 + s0 + ws.getD 6 0 + s1

def schedule : ℕ → List UInt32 → List UInt32
  | 0, ws => ws
  | n + 1, ws => schedule n (nextWord ws :: ws)

def State.block (s : State) (words : List UInt32) : State :=
  ((roundConstants.zip (schedule 48 words.reverse).reverse).foldl
    (fun t p => t.round p.1 p.2) s).add s

/-- Big endian words. -/
def toWords : List UInt8 → List UInt32
  | a :: b :: c :: d :: bytes =>
      ((a.toUInt32 <<< 24) ||| (b.toUInt32 <<< 16) ||| (c.toUInt32 <<< 8) ||| d.toUInt32) ::
        toWords bytes
  | _ => []

/-- The message with its padding and its length in bits. -/
def pad (bytes : List UInt8) : List UInt8 :=
  let length := bytes.length
  bytes ++ 0x80 :: List.replicate ((119 - length % 64) % 64) 0 ++
    (List.range 8).map fun i => UInt8.ofNat (length * 8 / 256 ^ (7 - i))

def blocks : ℕ → State → List UInt32 → State
  | 0, s, _ => s
  | n + 1, s, words => blocks n (s.block (words.take 16)) (words.drop 16)

/-- The hexadecimal digits of a word. -/
def hexWord (w : UInt32) : Text :=
  (List.range 8).map fun i => Json.hexDigit (Fin.ofNat 16 (w.toNat / 16 ^ (7 - i)))

/-- `hashlib.sha256(data).hexdigest()`. -/
def hexdigest (data : ByteArray) : Text :=
  let words := toWords (pad data.data.toList)
  (blocks (words.length / 16) State.initial words).words.flatMap hexWord

@[simp] theorem length_hexdigest (data : ByteArray) : (hexdigest data).length = 64 := by
  simp [hexdigest, State.words, hexWord]

theorem exists_hexDigit_of_mem {data : ByteArray} {c : CodePoint} (h : c ∈ hexdigest data) :
    ∃ d, c = Json.hexDigit d := by
  simp only [hexdigest, List.mem_flatMap, hexWord, List.mem_map] at h
  obtain ⟨-, -, -, -, rfl⟩ := h
  exact ⟨_, rfl⟩

end Sha256

end Python
