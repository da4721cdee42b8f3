/-!
Sets of code points, written as ascending lists of inclusive ranges. Membership
stops at the first range that starts beyond the code point, so a test on a small
code point looks at few entries however long the list is. Main statement: in an
ascending list nothing is missed that way.
-/

namespace Fluxion.Text

abbrev Ranges := List (Nat × Nat)

namespace Ranges

def covers : Ranges → Nat → Bool
  | [], _ => false
  | (low, high) :: rest, point =>
      if point < low then false else point ≤ high || covers rest point

/-- The ranges do not overlap and each starts beyond the one before it. -/
def Ascending : Ranges → Prop
  | [] => True
  | [(low, high)] => low ≤ high
  | (low, high) :: (next, last) :: rest =>
      low ≤ high ∧ high < next ∧ Ascending ((next, last) :: rest)

instance decidableAscending : (ranges : Ranges) → Decidable ranges.Ascending
  | [] => isTrue trivial
  | [(low, high)] => inferInstanceAs (Decidable (low ≤ high))
  | (low, high) :: (next, last) :: rest =>
      have := decidableAscending ((next, last) :: rest)
      inferInstanceAs (Decidable (low ≤ high ∧ high < next ∧ Ascending ((next, last) :: rest)))

variable {range : Nat × Nat} {rest ranges : Ranges} {point : Nat}

theorem Ascending.ordered (ascending : Ascending (range :: rest)) : range.1 ≤ range.2 := by
  cases rest with
  | nil => exact ascending
  | cons next rest => exact ascending.1

theorem Ascending.tail (ascending : Ascending (range :: rest)) : Ascending rest := by
  cases rest with
  | nil => trivial
  | cons next rest => exact ascending.2.2

theorem Ascending.beyond (ascending : Ascending (range :: rest)) :
    ∀ later ∈ rest, range.2 < later.1 := by
  induction rest generalizing range with
  | nil => exact nofun
  | cons next rest induction =>
      obtain ⟨-, gap, ascending⟩ := ascending
      intro later member
      rcases List.mem_cons.1 member with rfl | member
      · exact gap
      · calc range.2 < next.1 := gap
          _ ≤ next.2 := ascending.ordered
          _ < later.1 := induction ascending later member

theorem Ascending.covers_iff (ascending : ranges.Ascending) : ranges.covers point = true ↔
    ∃ range ∈ ranges, range.1 ≤ point ∧ point ≤ range.2 := by
  induction ranges with
  | nil => simp [covers]
  | cons range rest induction =>
      simp only [covers, List.mem_cons, exists_eq_or_imp]
      by_cases before : point < range.1
      · have ordered := ascending.ordered
        have none : ¬∃ later ∈ rest, later.1 ≤ point ∧ point ≤ later.2 := by
          rintro ⟨later, member, from_, -⟩
          have beyond := ascending.beyond later member
          omega
        simp [before, Nat.not_le.2 before, none]
      · simp [before, Nat.not_lt.1 before, induction ascending.tail]

end Ranges

end Fluxion.Text
