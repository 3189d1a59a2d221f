import Troupe.Number.Power

/-! # Random numbers

A generator of 64-bit words with a 64-bit state: the state grows by an odd constant, and
a word is the product of the state with a mixed copy of itself, its two halves combined.

* `Random.next` — the next word.
* `Random.flip`, `Random.below`, `Random.unit` — a coin, a whole number below a bound,
  and a number from zero up to one.
-/

namespace Troupe.Demo

open Troupe.Number (powerOfTwo)

structure Random where
  state : UInt64
deriving Repr, DecidableEq, Inhabited

abbrev Drawing := StateM Random

namespace Random

def ofSeed (seed : Nat) : Random :=
  ⟨UInt64.ofNat seed⟩

def next : Drawing UInt64 := fun random =>
  let state := random.state + 0x2d358dccaa6c78a5
  let product := state.toNat * (state ^^^ 0x8bb84b93962eacc9).toNat
  (UInt64.ofNat (product % powerOfTwo 64) ^^^ UInt64.ofNat (product / powerOfTwo 64), ⟨state⟩)

def nextBits (bits : Nat) : Drawing Nat := do
  let word ← next
  return word.toNat % powerOfTwo bits

/-- A fair coin. -/
def flip : Drawing Bool := do
  let word ← next
  return word.toNat % 2 = 0

/-- How often a draw is repeated at most when its outcome has to be rejected. A rejection
    has probability below one in four million for the bounds in use. -/
def maxDraws : Nat := 64

/-- Draws words until the product with `bound` does not fall into the part of the words
    that would favour small numbers; the number drawn is the upper half of the
    product. -/
def drawBelow (bits bound : Nat) : (draws : Nat) → Drawing Nat
  | 0 => return 0
  | draws + 1 => do
    let word ← nextBits bits
    let product := word * bound
    let low := product % powerOfTwo bits
    if low < bound && low < (powerOfTwo bits - bound) % bound then drawBelow bits bound draws
    else return product / powerOfTwo bits

/-- A whole number below `bound`, all of them equally likely, from words of the given
    width. -/
def below (bits bound : Nat) : Drawing Nat :=
  drawBelow bits bound maxDraws

/-- Draws words of 63 bits as fractions until one is less than one after rounding. -/
def drawUnit : (draws : Nat) → Drawing Float32
  | 0 => return 0
  | draws + 1 => do
    let word ← next
    let fraction := (word >>> 1).toFloat32 * Float32.ofBits 0x20000000
    if fraction < 1 then return fraction else drawUnit draws

def unit : Drawing Float32 :=
  drawUnit maxDraws

end Random

end Troupe.Demo
