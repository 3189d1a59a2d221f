/-! # White space

The characters with the Unicode property `White_Space`. Text fields of the editor may
start with any of them, so the ASCII blanks alone would not do.
-/

namespace Troupe.Text

/-- The code points with the property `White_Space`, as ranges with both ends included. -/
def blankRanges : List (Nat × Nat) :=
  [(0x9, 0xd), (0x20, 0x20), (0x85, 0x85), (0xa0, 0xa0), (0x1680, 0x1680), (0x2000, 0x200a),
    (0x2028, 0x2029), (0x202f, 0x202f), (0x205f, 0x205f), (0x3000, 0x3000)]

-- twenty-five code points, and each range ends before the next one starts
example : blankRanges.foldr (fun r n => r.2 + 1 - r.1 + n) 0 = 25 := by decide
example : (blankRanges.zip blankRanges.tail).all (fun p => p.1.2 < p.2.1) = true := by decide

/-- Whether a character has the Unicode property `White_Space`. -/
def isBlank (c : Char) : Bool :=
  blankRanges.any fun r => decide (r.1 ≤ c.toNat) && decide (c.toNat ≤ r.2)

def skipBlanks (text : List Char) : List Char :=
  text.dropWhile isBlank

end Troupe.Text
