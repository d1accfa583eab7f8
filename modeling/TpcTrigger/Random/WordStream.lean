import TpcTrigger.Random.Cipher

/-! # Streams of random words

A seed is drawn out into the key of a cipher by a permuted congruential generator, and the
words of the cipher's blocks 0, 1, 2, … in order are the stream.  The same seed always gives
the same stream.
-/

namespace TpcTrigger

structure WordStream where
  key : Vector UInt32 8
  /-- The counter of the block that comes after the current one. -/
  nextBlock : UInt64
  words : Vector UInt32 16
  /-- Words of the current block that are used up. -/
  used : Nat
deriving Repr, DecidableEq

namespace WordStream

def seedStep (state : UInt64) : UInt64 := state * 6364136223846793005 + 11634580027462260723

/-- Turns a word to the right by `n` bits modulo 32. -/
def rotateRight (x n : UInt32) : UInt32 := (x >>> (n % 32)) ||| (x <<< ((32 - n % 32) % 32))

/-- The word that a state of the congruential generator shows: two shifts folded together and
turned by the highest five bits. -/
def seedWord (state : UInt64) : UInt32 :=
  rotateRight (((state >>> 18) ^^^ state) >>> 27).toUInt32 (state >>> 59).toUInt32

def seedKey (seed : UInt64) : Vector UInt32 8 :=
  .ofFn fun i => seedWord (Nat.repeat seedStep (i + 1) seed)

def ofSeed (seed : UInt64) : WordStream where
  key := seedKey seed
  nextBlock := 1
  words := cipherWords (seedKey seed) 0
  used := 0

def next (s : WordStream) : UInt32 × WordStream :=
  if h : s.used < 16 then (s.words[s.used], { s with used := s.used + 1 })
  else
    let words := cipherWords s.key s.nextBlock
    (words[0], { s with nextBlock := s.nextBlock + 1, words, used := 1 })

def nextDouble (s : WordStream) : UInt64 × WordStream :=
  let (low, s) := s.next
  let (high, s) := s.next
  (low.toUInt64 ||| (high.toUInt64 <<< 32), s)

end WordStream

end TpcTrigger
