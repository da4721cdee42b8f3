import Fluxion.Text.Ranges

/-!
Blank characters: the white space of Unicode 14 together with the four
information separators U+001C to U+001F.
-/

namespace Fluxion.Text

def blankRanges : Ranges :=
  [(0x9, 0xD), (0x1C, 0x20), (0x85, 0x85), (0xA0, 0xA0), (0x1680, 0x1680), (0x2000, 0x200A),
   (0x2028, 0x2029), (0x202F, 0x202F), (0x205F, 0x205F), (0x3000, 0x3000)]

def isBlank (c : Char) : Bool := blankRanges.covers c.toNat

def isAllBlank (text : List Char) : Bool := text.all isBlank

theorem blank_ranges_ascending : blankRanges.Ascending := by decide

theorem is_blank_iff {c : Char} : isBlank c = true ↔
    ∃ range ∈ blankRanges, range.1 ≤ c.toNat ∧ c.toNat ≤ range.2 :=
  blank_ranges_ascending.covers_iff

end Fluxion.Text
