/-!
The Mersenne Twister with 624 words of 32 bits, seeded from the words of a whole
number, and the draws that are made from it: words, fractions and indices.
-/

namespace Fluxion

structure Twister where
  words : Array UInt32
  index : Nat

namespace Twister

def wordCount : Nat := 624

def lag : Nat := 397

def word (words : Array UInt32) (i : Nat) : UInt32 := words.getD i 0

def fold (w : UInt32) : UInt32 := w ^^^ (w >>> 30)

def expand (seed : UInt32) : Array UInt32 :=
  (List.range (wordCount - 1)).foldl (fun words i =>
    words.push (1812433253 * fold (word words i) + UInt32.ofNat (i + 1))) #[seed]

def keyWords (n : Nat) : List UInt32 :=
  if n < UInt32.size then [UInt32.ofNat n] else UInt32.ofNat n :: keyWords (n / UInt32.size)
termination_by n
decreasing_by exact Nat.div_lt_self (by simp_all [UInt32.size]; omega) (by decide)

/-- Behind the last word comes the second again, the last being copied to the
first. -/
def wrap (words : Array UInt32) (i : Nat) : Array UInt32 × Nat :=
  if wordCount ≤ i then (words.setIfInBounds 0 (word words (wordCount - 1)), 1) else (words, i)

/-- Mixes a key into the words: the place in the words and that in the key go round
independently. -/
def mixKey (key : Array UInt32) : Nat → Array UInt32 → Nat → Nat → Array UInt32 × Nat
  | 0, words, i, _ => (words, i)
  | left + 1, words, i, j =>
      let mixed := (word words i ^^^ (fold (word words (i - 1)) * 1664525)) +
        word key j + UInt32.ofNat j
      let (words, i) := wrap (words.setIfInBounds i mixed) (i + 1)
      mixKey key left words i (if key.size ≤ j + 1 then 0 else j + 1)

def mixAgain : Nat → Array UInt32 → Nat → Array UInt32
  | 0, words, _ => words
  | left + 1, words, i =>
      let mixed := (word words i ^^^ (fold (word words (i - 1)) * 1566083941)) - UInt32.ofNat i
      let (words, i) := wrap (words.setIfInBounds i mixed) (i + 1)
      mixAgain left words i

def ofSeed (seed : Int) : Twister :=
  let key := (keyWords seed.natAbs).toArray
  let (words, i) := mixKey key (max wordCount key.size) (expand 19650218) 1 0
  let words := mixAgain (wordCount - 1) words i
  ⟨words.setIfInBounds 0 0x80000000, wordCount⟩

def regenerate (words : Array UInt32) : Array UInt32 :=
  (List.range wordCount).foldl (fun words i =>
    let joined := (word words i &&& 0x80000000) |||
      (word words ((i + 1) % wordCount) &&& 0x7fffffff)
    let mask : UInt32 := if joined &&& 1 = 0 then 0 else 0x9908b0df
    words.setIfInBounds i (word words ((i + lag) % wordCount) ^^^ (joined >>> 1) ^^^ mask)) words

def temper (w : UInt32) : UInt32 :=
  let w := w ^^^ (w >>> 11)
  let w := w ^^^ ((w <<< 7) &&& 0x9d2c5680)
  let w := w ^^^ ((w <<< 15) &&& 0xefc60000)
  w ^^^ (w >>> 18)

def next (t : Twister) : UInt32 × Twister :=
  let t := if wordCount ≤ t.index then ⟨regenerate t.words, 0⟩ else t
  (temper (word t.words t.index), ⟨t.words, t.index + 1⟩)

/-- A fraction of `2 ^ 53` below one, of two words. -/
def fraction (t : Twister) : Nat × Twister :=
  let (high, t) := t.next
  let (low, t) := t.next
  ((high >>> 5).toNat * 67108864 + (low >>> 6).toNat, t)

def bitLength (n : Nat) : Nat := if n = 0 then 0 else n.log2 + 1

/-- Draws as many bits as a number has until they are below it. A draw is refused
less than half of the time, so the limit is out of reach. -/
def below (n : Nat) : Nat → Twister → Nat × Twister
  | 0, t => (0, t)
  | left + 1, t =>
      let (w, t) := t.next
      let r := (w >>> UInt32.ofNat (32 - bitLength n)).toNat
      if r < n then (r, t) else below n left t

def drawIndex (n : Nat) (t : Twister) : Nat × Twister := below n 10000 t

end Twister

end Fluxion
