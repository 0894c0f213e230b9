/-
This file models `content.c` and `compression.c`: the digest and the compression that
documents go through, and the check on the name of a document.

OpenSSL and LZ4 are parameters of the development. Nothing below assumes more than
that a digest is a function of the bytes, that a decompression is a function of the
block and of the size of the output buffer, and that the bound on a compressed size is
a function of the raw size. Each has a reference implementation for use at concrete
inputs.
-/

import SuperPeerNet.Protocol

namespace SuperPeerNet

/-! ### SHA-256 -/

/-- The part of OpenSSL that the repository calls. -/
class Sha256 where
  /-- `SHA256(data, size, digest)`. -/
  digest : List UInt8 → Octets objectIdSize

/-- `content_sha256`. -/
def contentSha256 [Sha256] (data : List UInt8) : Octets objectIdSize := Sha256.digest data

namespace Sha256

/-- The sixty-four round constants. -/
def roundConstants : List UInt32 :=
  [0x428a2f98, 0x71374491, 0xb5c0fbcf, 0xe9b5dba5, 0x3956c25b, 0x59f111f1, 0x923f82a4, 0xab1c5ed5,
    0xd807aa98, 0x12835b01, 0x243185be, 0x550c7dc3, 0x72be5d74, 0x80deb1fe, 0x9bdc06a7, 0xc19bf174,
    0xe49b69c1, 0xefbe4786, 0x0fc19dc6, 0x240ca1cc, 0x2de92c6f, 0x4a7484aa, 0x5cb0a9dc, 0x76f988da,
    0x983e5152, 0xa831c66d, 0xb00327c8, 0xbf597fc7, 0xc6e00bf3, 0xd5a79147, 0x06ca6351, 0x14292967,
    0x27b70a85, 0x2e1b2138, 0x4d2c6dfc, 0x53380d13, 0x650a7354, 0x766a0abb, 0x81c2c92e, 0x92722c85,
    0xa2bfe8a1, 0xa81a664b, 0xc24b8b70, 0xc76c51a3, 0xd192e819, 0xd6990624, 0xf40e3585, 0x106aa070,
    0x19a4c116, 0x1e376c08, 0x2748774c, 0x34b0bcb5, 0x391c0cb3, 0x4ed8aa4a, 0x5b9cca4f, 0x682e6ff3,
    0x748f82ee, 0x78a5636f, 0x84c87814, 0x8cc70208, 0x90befffa, 0xa4506ceb, 0xbef9a3f7, 0xc67178f2]

/-- The initial hash value. -/
def initialState : List UInt32 :=
  [0x6a09e667, 0xbb67ae85, 0x3c6ef372, 0xa54ff53a, 0x510e527f, 0x9b05688c, 0x1f83d9ab, 0x5be0cd19]

/-- Rotate a word to the right. -/
def rotate (word count : UInt32) : UInt32 := (word >>> count) ||| (word <<< (32 - count))

/-- The message schedule, kept as a window of sixteen words. -/
def schedule : Nat → List UInt32 → List UInt32
  | 0, _ => []
  | rounds + 1, window =>
    let early := window.getD 1 0
    let late := window.getD 14 0
    let mixed := window.getD 0 0 + (rotate early 7 ^^^ rotate early 18 ^^^ (early >>> 3)) +
      window.getD 9 0 + (rotate late 17 ^^^ rotate late 19 ^^^ (late >>> 10))
    window.getD 0 0 :: schedule rounds (window.drop 1 ++ [mixed])

/-- One round on the eight working words. -/
def round (state : List UInt32) (input : UInt32 × UInt32) : List UInt32 :=
  match state with
  | [a, b, c, d, e, f, g, h] =>
    let first := h + (rotate e 6 ^^^ rotate e 11 ^^^ rotate e 25) + ((e &&& f) ^^^ (~~~e &&& g)) +
      input.1 + input.2
    let second := (rotate a 2 ^^^ rotate a 13 ^^^ rotate a 22) +
      ((a &&& b) ^^^ (a &&& c) ^^^ (b &&& c))
    [first + second, a, b, c, d + first, e, f, g]
  | other => other

/-- The big-endian words of a block. -/
def words : List UInt8 → List UInt32
  | first :: second :: third :: fourth :: rest =>
    wireGetU32 [first, second, third, fourth] :: words rest
  | _ => []

/-- Absorb the given number of 64-byte blocks. -/
def absorb : Nat → List UInt32 → List UInt8 → List UInt32
  | 0, state, _ => state
  | count + 1, state, message =>
    let rounds := (schedule 64 (words (message.take 64))).zip roundConstants
    absorb count (List.zipWith (· + ·) state (rounds.foldl round state)) (message.drop 64)

/-- A message with its padding and its length in bits. -/
def padded (data : List UInt8) : List UInt8 :=
  data ++ [0x80] ++ List.replicate ((119 - data.length % 64) % 64) 0 ++
    wirePutU64 (UInt64.ofNat (8 * data.length))

/-- SHA-256 as it is documented, for use at concrete inputs. -/
@[reducible] def reference : Sha256 where
  digest data :=
    Octets.read objectIdSize
      ((absorb ((padded data).length / 64) initialState (padded data)).flatMap wirePutU32)

/-- The published digest of the three letters `abc`. -/
example : (reference.digest [0x61, 0x62, 0x63]).toList =
    [0xba, 0x78, 0x16, 0xbf, 0x8f, 0x01, 0xcf, 0xea, 0x41, 0x41, 0x40, 0xde, 0x5d, 0xae, 0x22, 0x23,
      0xb0, 0x03, 0x61, 0xa3, 0x96, 0x17, 0x7a, 0x9c, 0xb4, 0x10, 0xff, 0x61, 0xf2, 0x00, 0x15,
      0xad] := by
  decide +kernel

end Sha256

/-! ### LZ4 -/

/-- The part of LZ4 that the repository calls on a received chunk. -/
class Lz4 where
  /-- `LZ4_compressBound(size)`; zero for a size that LZ4 does not support. -/
  compressBound : Nat → Nat
  /-- The bytes that `LZ4_decompress_safe` writes into a buffer of the given size, unless it
  returns an error. -/
  decompressSafe : List UInt8 → Nat → Option (List UInt8)

/-- `INT_MAX`. -/
def intMax : Nat := 2 ^ 31 - 1

/-- `compression_lz4_bound`. -/
def compressionLz4Bound [Lz4] (inputSize : Nat) : Except Errno Nat :=
  if inputSize > intMax then .error .einval
  else if Lz4.compressBound inputSize = 0 then .error .eoverflow
  else .ok (Lz4.compressBound inputSize)

/-- `compression_lz4_decompress`. The output has to fill the expected size exactly. -/
def compressionLz4Decompress [Lz4] (input : List UInt8) (expectedSize : Nat) :
    Except Errno (List UInt8) :=
  if input.length = 0 ∨ input.length > intMax ∨ expectedSize = 0 ∨ expectedSize > intMax then
    .error .einval
  else match Lz4.decompressSafe input expectedSize with
    | none => .error .ebadmsg
    | some output => if output.length ≠ expectedSize then .error .ebadmsg else .ok output

/-- What a successful decompression has checked. -/
theorem compressionLz4Decompress_ok [Lz4] {input output : List UInt8} {expectedSize : Nat}
    (done : compressionLz4Decompress input expectedSize = .ok output) :
    input.length ≠ 0 ∧ expectedSize ≠ 0 ∧ output.length = expectedSize := by
  unfold compressionLz4Decompress at done
  split at done
  · cases done
  · rename_i sizes
    rw [not_or, not_or, not_or] at sizes
    cases written : Lz4.decompressSafe input expectedSize with
    | none =>
      rw [written] at done
      cases done
    | some bytes =>
      rw [written] at done
      simp only at done
      split at done
      · cases done
      · rename_i filled
        cases done
        exact ⟨sizes.1, sizes.2.2.1, not_not.mp filled⟩

namespace Lz4

/-- The bytes that extend a length of fifteen. -/
def extension : List UInt8 → Nat → Option (Nat × List UInt8)
  | [], _ => none
  | byte :: rest, length =>
    if byte = 255 then extension rest (length + 255) else some (length + byte.toNat, rest)

/-- A length of a sequence, with its extension when the token has no room for it. -/
def sequenceLength (nibble : Nat) (input : List UInt8) : Option (Nat × List UInt8) :=
  if nibble = 15 then extension input 15 else some (nibble, input)

/-- Copy a match byte by byte, so that it may overlap its own output. -/
def copyMatch (offset : Nat) : Nat → List UInt8 → List UInt8
  | 0, output => output
  | count + 1, output =>
    copyMatch offset count (output ++ [output.getD (output.length - offset) 0])

/-- The sequences of a block: literals, then a match, except after the last literals. -/
def sequences (capacity : Nat) : Nat → List UInt8 → List UInt8 → Option (List UInt8)
  | 0, _, _ => none
  | _ + 1, [], _ => none
  | fuel + 1, token :: input, output => do
    let (literals, input) ← sequenceLength (token.toNat / 16) input
    if input.length < literals ∨ output.length + literals > capacity then none
    let output := output ++ input.take literals
    match input.drop literals with
    | [] => some output
    | [_] => none
    | low :: high :: input =>
      let offset := low.toNat + 256 * high.toNat
      let (length, input) ← sequenceLength (token.toNat % 16) input
      if offset = 0 ∨ offset > output.length ∨ output.length + length + 4 > capacity then none
      sequences capacity fuel input (copyMatch offset (length + 4) output)

/-- LZ4 as its block format is documented, for use at concrete inputs. -/
@[reducible] def reference : Lz4 where
  compressBound size := if size > 0x7e000000 then 0 else size + size / 255 + 16
  decompressSafe input capacity := sequences capacity (input.length + 1) input []

/-- A block of one literal. -/
example : reference.decompressSafe [0x10, 65] 1 = some [65] := by decide

end Lz4

/-! ### Names -/

/-- `tolower` of the C locale. -/
def toLower (byte : UInt8) : UInt8 := if 65 ≤ byte ∧ byte ≤ 90 then byte + 32 else byte

/-- `content_pdf_name`: the name ends in `.pdf`, in any case. -/
def contentPdfName (path : List UInt8) : Bool :=
  path.length ≥ 4 && path.getD (path.length - 4) 0 == 46 &&
    toLower (path.getD (path.length - 3) 0) == 112 &&
    toLower (path.getD (path.length - 2) 0) == 100 && toLower (path.getD (path.length - 1) 0) == 102

end SuperPeerNet
