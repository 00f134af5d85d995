import Mathlib.Data.List.Nodup
import Mathlib.Logic.Function.Basic

/-!
# SHA-256

The digest of a message, by the operations that numbers are computed with, such that short
messages can be hashed by evaluation. Where a digest has to be injective, a function takes its
place that agrees with it on some messages and has no collision at all.
-/

namespace Sha256

/-! ### Words -/

/-- Three rotations of a word, each a shift of the word written twice. -/
def rotations (r s t x : Nat) : Nat :=
  let twice := x.mul 4294967297
  (((twice.shiftRight r).xor (twice.shiftRight s)).xor (twice.shiftRight t)).mod 4294967296

/-- Two rotations of a word and a shift. -/
def schedules (r s t x : Nat) : Nat :=
  let twice := x.mul 4294967297
  (((twice.shiftRight r).xor (twice.shiftRight s)).mod 4294967296).xor (x.shiftRight t)

def roundConstants : List Nat := [
  0x428a2f98, 0x71374491, 0xb5c0fbcf, 0xe9b5dba5, 0x3956c25b, 0x59f111f1, 0x923f82a4, 0xab1c5ed5,
  0xd807aa98, 0x12835b01, 0x243185be, 0x550c7dc3, 0x72be5d74, 0x80deb1fe, 0x9bdc06a7, 0xc19bf174,
  0xe49b69c1, 0xefbe4786, 0x0fc19dc6, 0x240ca1cc, 0x2de92c6f, 0x4a7484aa, 0x5cb0a9dc, 0x76f988da,
  0x983e5152, 0xa831c66d, 0xb00327c8, 0xbf597fc7, 0xc6e00bf3, 0xd5a79147, 0x06ca6351, 0x14292967,
  0x27b70a85, 0x2e1b2138, 0x4d2c6dfc, 0x53380d13, 0x650a7354, 0x766a0abb, 0x81c2c92e, 0x92722c85,
  0xa2bfe8a1, 0xa81a664b, 0xc24b8b70, 0xc76c51a3, 0xd192e819, 0xd6990624, 0xf40e3585, 0x106aa070,
  0x19a4c116, 0x1e376c08, 0x2748774c, 0x34b0bcb5, 0x391c0cb3, 0x4ed8aa4a, 0x5b9cca4f, 0x682e6ff3,
  0x748f82ee, 0x78a5636f, 0x84c87814, 0x8cc70208, 0x90befffa, 0xa4506ceb, 0xbef9a3f7, 0xc67178f2]

structure State where
  a : Nat
  b : Nat
  c : Nat
  d : Nat
  e : Nat
  f : Nat
  g : Nat
  h : Nat

def initial : State :=
  ⟨0x6a09e667, 0xbb67ae85, 0x3c6ef372, 0xa54ff53a, 0x510e527f, 0x9b05688c, 0x1f83d9ab, 0x5be0cd19⟩

def State.words : State → List Nat
  | ⟨a, b, c, d, e, f, g, h⟩ => [a, b, c, d, e, f, g, h]

/-! ### Blocks -/

/-- The word of a block that has so many bits after it. The first word is the highest. -/
def wordAt (block after : Nat) : Nat := (block.shiftRight after).mod 4294967296

/-- The words of a block from the second on, and the next word of the schedule. -/
def nextBlock (block : Nat) : Nat :=
  let word := (((wordAt block 480).add (schedules 7 18 3 (wordAt block 448))).add
    ((wordAt block 192).add (schedules 17 19 10 (wordAt block 32)))).mod 4294967296
  ((block.mod (Nat.pow 2 480)).shiftLeft 32).add word

def round (state : State) (constant word : Nat) : State :=
  match state with
  | ⟨a, b, c, d, e, f, g, h⟩ =>
    let first := (((h.add (rotations 6 11 25 e)).add (g.xor (e.land (f.xor g)))).add constant).add
      word
    let second := (rotations 2 13 22 a).add ((a.land b).xor (c.land (a.xor b)))
    ⟨(first.add second).mod 4294967296, a, b, c, (d.add first).mod 4294967296, e, f, g⟩

def rounds : List Nat → Nat → State → State
  | [], _, state => state
  | constant :: constants, block, state =>
    rounds constants (nextBlock block) (round state constant (wordAt block 480))

def compress (state : State) (block : Nat) : State :=
  let sum (x y : Nat) := (x.add y).mod 4294967296
  match state, rounds roundConstants block state with
  | ⟨a, b, c, d, e, f, g, h⟩, ⟨a', b', c', d', e', f', g', h'⟩ =>
    ⟨sum a a', sum b b', sum c c', sum d d', sum e e', sum f f', sum g g', sum h h'⟩

/-! ### Messages -/

/-- The number whose bytes these are, the highest first. -/
def number (bytes : List UInt8) : Nat :=
  bytes.foldl (fun n byte => (n.mul 256).add byte.toNat) 0

/-- What is left of a message, with a bit set after it and the length of the message in bits, in
one block or in two. -/
def finish (bits : Nat) (rest : List UInt8) (state : State) : State :=
  let marked := (((number rest).mul 256).add 128).shiftLeft (8 * (63 - rest.length))
  if rest.length < 56 then compress state (marked.add bits)
  else compress (compress state marked) bits

/-- So many whole blocks, and what is left of the message. -/
def absorb (bits : Nat) : Nat → List UInt8 → State → State
  | 0, rest, state => finish bits rest state
  | count + 1, bytes, state =>
    absorb bits count (bytes.drop 64) (compress state (number (bytes.take 64)))

/-- The bytes of a word, the highest first. -/
def bytesOf (word : Nat) : List UInt8 :=
  [24, 16, 8, 0].map fun after => .ofNat (word.shiftRight after)

@[irreducible] def sha256 (message : List UInt8) : List UInt8 :=
  (absorb (8 * message.length) (message.length / 64) message initial).words.flatMap bytesOf

example : sha256 [97, 98, 99] = [0xba, 0x78, 0x16, 0xbf, 0x8f, 0x01, 0xcf, 0xea, 0x41, 0x41, 0x40,
    0xde, 0x5d, 0xae, 0x22, 0x23, 0xb0, 0x03, 0x61, 0xa3, 0x96, 0x17, 0x7a, 0x9c, 0xb4, 0x10, 0xff,
    0x61, 0xf2, 0x00, 0x15, 0xad] := by
  decide +kernel

theorem sha256_length (message : List UInt8) : (sha256 message).length = 32 := by
  have bytes (word : Nat) : (bytesOf word).length = 4 := by simp [bytesOf]
  simp [sha256, State.words, bytes]

/-! ### Without collisions -/

/-- Some messages without a collision among them. -/
structure Messages where
  texts : List (List UInt8)
  apart : (texts.map sha256).Nodup

namespace Messages

variable (messages : Messages)

/-- The digests of the messages. No other message has one of them, and no two share one. -/
def digest (bytes : List UInt8) : List UInt8 :=
  if bytes ∈ messages.texts then sha256 bytes else bytes ++ List.replicate 33 0

theorem digest_injective : Function.Injective messages.digest := by
  intro a b same
  unfold digest at same
  split at same
  next listed =>
    split at same
    next listed' => exact List.inj_on_of_nodup_map messages.apart listed listed' same
    next =>
      have lengths := congrArg List.length same
      simp [sha256_length] at lengths
  next =>
    split at same
    next =>
      have lengths := congrArg List.length same
      simp [sha256_length] at lengths
    next => exact List.append_cancel_right same

end Messages

end Sha256
