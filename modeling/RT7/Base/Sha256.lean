import RT7.Base.Bytes

/-!
# SHA-256 digests

* `Digest`          thirty-two bytes; `Digest.hexdigest` is the text of `hashlib`, in lower case;
* `Digest.hexdigest_injective`   the text determines the digest;
* `Sha256.sha256`   the hash function itself.  The models take the hash as a parameter; this is the
  function it stands for.
-/

namespace RT7

structure Digest where
  bytes : Bytes
  length_eq : bytes.length = 32
  deriving DecidableEq

namespace Digest

@[ext] theorem ext {d d' : Digest} (h : d.bytes = d'.bytes) : d = d' := by
  cases d; cases d'; cases h; rfl

/-- `digest.hexdigest()` -/
def hexdigest (d : Digest) : String := hex d.bytes

/-- the two digits of a byte -/
def hexByte (x : UInt8) : List Char := [hexDigit (x.toNat / 16), hexDigit (x.toNat % 16)]

theorem toList_hexdigest (d : Digest) : d.hexdigest.toList = d.bytes.flatMap hexByte :=
  String.toList_ofList

theorem hexDigit_inj : ∀ a < 16, ∀ b < 16, hexDigit a = hexDigit b → a = b := by decide

theorem hexByte_inj {x y : UInt8} (h : hexByte x = hexByte y) : x = y := by
  have hx := x.toNat_lt
  have hy := y.toNat_lt
  have h1 := hexDigit_inj (x.toNat / 16) (by omega) (y.toNat / 16) (by omega) (List.cons.inj h).1
  have h2 := hexDigit_inj (x.toNat % 16) (by omega) (y.toNat % 16) (by omega)
    (List.cons.inj (List.cons.inj h).2).1
  refine UInt8.toNat_inj.mp ?_
  omega

theorem flatMap_hexByte_inj {xs ys : Bytes} (h : xs.flatMap hexByte = ys.flatMap hexByte) :
    xs = ys := by
  induction xs generalizing ys with
  | nil => cases ys with
    | nil => rfl
    | cons y ys => exact absurd h.symm (List.cons_ne_nil _ _)
  | cons x xs ih => cases ys with
    | nil => exact absurd h (List.cons_ne_nil _ _)
    | cons y ys =>
      rw [List.flatMap_cons, List.flatMap_cons] at h
      have hsplit := List.append_inj h rfl
      rw [hexByte_inj hsplit.1, ih hsplit.2]

theorem hexdigest_injective : Function.Injective hexdigest := by
  intro d d' h
  refine ext (flatMap_hexByte_inj ?_)
  rw [← toList_hexdigest, ← toList_hexdigest, h]

theorem length_hexdigest (d : Digest) : d.hexdigest.toList.length = 64 := by
  have h : ∀ xs : Bytes, (xs.flatMap hexByte).length = 2 * xs.length := by
    intro xs
    induction xs with
    | nil => rfl
    | cons x xs ih =>
      rw [List.flatMap_cons, List.length_append, ih, List.length_cons]
      show 2 + 2 * xs.length = _
      omega
  rw [toList_hexdigest, h, d.length_eq]

/-- the characters of the text are the sixteen digits -/
theorem mem_hexdigest {d : Digest} {c : Char} (h : c ∈ d.hexdigest.toList) :
    ∃ n < 16, c = hexDigit n := by
  rw [toList_hexdigest] at h
  obtain ⟨x, -, hx⟩ := List.mem_flatMap.mp h
  have hlt := x.toNat_lt
  cases hx with
  | head => exact ⟨x.toNat / 16, by omega, rfl⟩
  | tail _ hx => exact ⟨x.toNat % 16, by omega, List.mem_singleton.mp hx⟩

end Digest

namespace Sha256

/-- the round constants -/
def k : List UInt32 :=
  [0x428a2f98, 0x71374491, 0xb5c0fbcf, 0xe9b5dba5, 0x3956c25b, 0x59f111f1, 0x923f82a4, 0xab1c5ed5,
    0xd807aa98, 0x12835b01, 0x243185be, 0x550c7dc3, 0x72be5d74, 0x80deb1fe, 0x9bdc06a7, 0xc19bf174,
    0xe49b69c1, 0xefbe4786, 0x0fc19dc6, 0x240ca1cc, 0x2de92c6f, 0x4a7484aa, 0x5cb0a9dc, 0x76f988da,
    0x983e5152, 0xa831c66d, 0xb00327c8, 0xbf597fc7, 0xc6e00bf3, 0xd5a79147, 0x06ca6351, 0x14292967,
    0x27b70a85, 0x2e1b2138, 0x4d2c6dfc, 0x53380d13, 0x650a7354, 0x766a0abb, 0x81c2c92e, 0x92722c85,
    0xa2bfe8a1, 0xa81a664b, 0xc24b8b70, 0xc76c51a3, 0xd192e819, 0xd6990624, 0xf40e3585, 0x106aa070,
    0x19a4c116, 0x1e376c08, 0x2748774c, 0x34b0bcb5, 0x391c0cb3, 0x4ed8aa4a, 0x5b9cca4f, 0x682e6ff3,
    0x748f82ee, 0x78a5636f, 0x84c87814, 0x8cc70208, 0x90befffa, 0xa4506ceb, 0xbef9a3f7, 0xc67178f2]

/-- The eight words of the hash value. -/
structure Words where
  (a b c d e f g h : UInt32)

def initial : Words :=
  ⟨0x6a09e667, 0xbb67ae85, 0x3c6ef372, 0xa54ff53a,
    0x510e527f, 0x9b05688c, 0x1f83d9ab, 0x5be0cd19⟩

def rotr (x n : UInt32) : UInt32 := (x >>> n) ||| (x <<< (32 - n))

/-- one more word of the message schedule; the list holds the latest word first -/
def extend (w : List UInt32) : List UInt32 :=
  let w2 := w.getD 1 0
  let w15 := w.getD 14 0
  let s0 := rotr w15 7 ^^^ rotr w15 18 ^^^ (w15 >>> 3)
  let s1 := rotr w2 17 ^^^ rotr w2 19 ^^^ (w2 >>> 10)
  (w.getD 15 0 + s0 + w.getD 6 0 + s1) :: w

def extendBy : Nat → List UInt32 → List UInt32
  | 0, w => w
  | n + 1, w => extendBy n (extend w)

def round (s : Words) (kw : UInt32 × UInt32) : Words :=
  let s1 := rotr s.e 6 ^^^ rotr s.e 11 ^^^ rotr s.e 25
  let ch := (s.e &&& s.f) ^^^ (~~~s.e &&& s.g)
  let t1 := s.h + s1 + ch + kw.1 + kw.2
  let s0 := rotr s.a 2 ^^^ rotr s.a 13 ^^^ rotr s.a 22
  let maj := (s.a &&& s.b) ^^^ (s.a &&& s.c) ^^^ (s.b &&& s.c)
  ⟨t1 + s0 + maj, s.a, s.b, s.c, s.d + t1, s.e, s.f, s.g⟩

def word (b : Bytes) : UInt32 := UInt32.ofNat (leNat b.reverse)

def compress (s : Words) (block : Bytes) : Words :=
  let w := (List.range 16).map fun i => word (window block (i * 4) 4)
  let t := (k.zip (extendBy 48 w.reverse).reverse).foldl round s
  ⟨s.a + t.a, s.b + t.b, s.c + t.c, s.d + t.d, s.e + t.e, s.f + t.f, s.g + t.g, s.h + t.h⟩

/-- the message with its padding, a whole number of blocks -/
def pad (message : Bytes) : Bytes :=
  message ++ 0x80 :: List.replicate ((119 - message.length % 64) % 64) 0 ++
    (leBytes 8 (8 * message.length)).reverse

def Words.digest (s : Words) : Digest where
  bytes := [s.a, s.b, s.c, s.d, s.e, s.f, s.g, s.h].flatMap fun x => (leBytes 4 x.toNat).reverse
  length_eq := rfl

/-- `hashlib.sha256(message)` -/
def sha256 (message : Bytes) : Digest :=
  let padded := pad message
  let blocks := (List.range (padded.length / 64)).map fun i => window padded (i * 64) 64
  (blocks.foldl compress initial).digest

/-- the test vector of the standard for the message `abc` -/
example : (sha256 [0x61, 0x62, 0x63]).hexdigest =
    "ba7816bf8f01cfea414140de5dae2223b00361a396177a9cb410ff61f20015ad" := by
  decide +kernel

end Sha256

end RT7
