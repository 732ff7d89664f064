import Roman.Letter

/-!
# Spellings

A spelling is a list of letters. Its value is read from left to right: a letter
that stands before a larger one is taken away from it, and every other letter
counts for itself. Nothing is asked here about which spellings are well formed;
`Spelling.value_append` says when the values of two parts add up.
-/

namespace Roman

/-- A list of letters, from left to right. -/
abbrev Spelling := List Letter

namespace Spelling

/-- The characters of a spelling. -/
def chars (s : Spelling) : List Char := s.map Letter.char

@[simp] theorem chars_cons (a : Letter) (s : Spelling) : chars (a :: s) = a.char :: chars s := rfl

/-- The text of a spelling. -/
def text (s : Spelling) : String := String.ofList s.chars

/-- The number a spelling stands for: a letter before a larger one is taken away
from it. -/
def value : Spelling → Nat
  | a :: b :: s => if a.value < b.value then (b.value - a.value) + value s else a.value + value (b :: s)
  | [a] => a.value
  | [] => 0

@[simp] theorem value_nil : value [] = 0 := rfl

theorem value_pos : ∀ {s : Spelling}, s ≠ [] → 0 < value s
  | [], h => absurd rfl h
  | [a], _ => a.value_pos
  | a :: b :: s, _ => by
    have := a.value_pos
    unfold value
    split <;> omega

/-- The values of two parts add up when the first part does not end with a letter
smaller than the one the second part begins with. -/
theorem value_append : ∀ {s t : Spelling},
    (∀ a ∈ s.getLast?, ∀ b ∈ t.head?, b.value ≤ a.value) → value (s ++ t) = value s + value t
  | [], t, _ => by simp
  | [a], [], _ => by simp
  | [a], b :: t, h => by
    have hab : b.value ≤ a.value := h a rfl b rfl
    simp [value, Nat.not_lt.mpr hab]
  | a :: b :: s, t, h => by
    rw [List.cons_append, List.cons_append, value, value]
    split
    · have hs : ∀ a ∈ s.getLast?, ∀ b ∈ t.head?, b.value ≤ a.value := by
        cases s with
        | nil => simp
        | cons c s => simpa using h
      rw [value_append hs, Nat.add_assoc]
    · have hs : ∀ c ∈ (b :: s).getLast?, ∀ d ∈ t.head?, d.value ≤ c.value := by
        simpa using h
      rw [← List.cons_append, value_append hs, Nat.add_assoc]

end Spelling

end Roman
