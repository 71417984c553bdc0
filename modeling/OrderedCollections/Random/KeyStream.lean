/-
**The key stream of a seed.**

A seeded source of random words: the ChaCha stream cipher with twelve rounds, run on an all-zero
text. The 64-bit seed is stretched to the 256-bit key by a permuted congruential generator. The
stream is random-access: the word number `n` is computed from the key and `n` alone, so a stream is
its key and the count of words drawn.

* `quarterRound`, `doubleRound`, `block`: the cipher.
* `Key.ofSeed`: the key of a seed.
* `KeyStream.word`: the word in turn, low half first.
-/

import OrderedCollections.Random.Source

namespace OrderedCollections

namespace ChaCha

/-- The sixteen words that the cipher stirs. -/
abbrev State := Vector UInt32 16

/-- Eight words of key. -/
abbrev Key := Vector UInt32 8

/-- The word with its bits moved up by `amount`, those that leave coming back at the bottom. -/
def rotateLeft (word : UInt32) (amount : UInt32) : UInt32 :=
  (word <<< amount) ||| (word >>> (32 - amount))

/-- Adds the word at `source` to the word at `target`, then stirs the sum into the word at `stirred`
and turns that. -/
def mix (target source stirred : Fin 16) (amount : UInt32) (state : State) : State :=
  let state := state.set target (state[target] + state[source])
  state.set stirred (rotateLeft (state[stirred] ^^^ state[target]) amount)

/-- The quarter round on four of the sixteen words. -/
def quarterRound (a b c d : Fin 16) (state : State) : State :=
  mix c d b 7 (mix a b d 8 (mix c d b 12 (mix a b d 16 state)))

/-- A round on the columns and a round on the diagonals. -/
def doubleRound (state : State) : State :=
  let columns := quarterRound 3 7 11 15 (quarterRound 2 6 10 14
    (quarterRound 1 5 9 13 (quarterRound 0 4 8 12 state)))
  quarterRound 3 4 9 14 (quarterRound 2 7 8 13
    (quarterRound 1 6 11 12 (quarterRound 0 5 10 15 columns)))

/-- The state before the rounds: the constants, the key, the number of the block, and no nonce. -/
def initialState (key : Key) (number : UInt64) : State :=
  #v[0x61707865, 0x3320646e, 0x79622d32, 0x6b206574,
    key[0], key[1], key[2], key[3], key[4], key[5], key[6], key[7],
    number.toUInt32, (number >>> 32).toUInt32, 0, 0]

/-- The block of sixteen words with the given number: twelve rounds, then the state before them is
added. -/
def block (key : Key) (number : UInt64) : State :=
  let start := initialState key number
  let stirred := doubleRound (doubleRound (doubleRound (doubleRound (doubleRound
    (doubleRound start)))))
  Vector.zipWith (· + ·) stirred start

/-- One step of the generator that stretches a seed. -/
def stretchStep (state : UInt64) : UInt64 :=
  state * 6364136223846793005 + 11634580027462260723

/-- The word shown by a state of the generator that stretches a seed: high bits are folded down and
turned by an amount that the top five bits give. -/
def stretchWord (state : UInt64) : UInt32 :=
  let folded := (((state >>> 18) ^^^ state) >>> 27).toUInt32
  let amount := (state >>> 59).toUInt32
  (folded >>> amount) ||| (folded <<< ((32 - amount) &&& 31))

/-- The key of a seed. -/
def Key.ofSeed (seed : UInt64) : Key :=
  Vector.ofFn fun index => stretchWord (Nat.repeat stretchStep (index.val + 1) seed)

end ChaCha

/-- A seeded source: the key of a stream and the count of words drawn from it. -/
structure KeyStream where
  key : ChaCha.Key
  drawn : Nat := 0
  deriving DecidableEq

namespace KeyStream

/-- The stream of a seed, nothing drawn from it yet. -/
def ofSeed (seed : UInt64) : KeyStream :=
  { key := ChaCha.Key.ofSeed seed }

/-- The word in turn: each block holds eight of them, the low half of a word stands before the high
half. -/
def word (stream : KeyStream) : UInt64 :=
  let words := ChaCha.block stream.key (stream.drawn / 8).toUInt64
  let low := words[2 * (stream.drawn % 8)]
  let high := words[2 * (stream.drawn % 8) + 1]
  high.toUInt64 <<< 32 ||| low.toUInt64

instance : RandomSource KeyStream where
  next stream := (stream.word, { stream with drawn := stream.drawn + 1 })

end KeyStream

end OrderedCollections
