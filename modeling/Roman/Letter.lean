/-!
# Letters

The seven letters that Roman numerals are written with, the number each of them
stands for, and the character it is written as. The character determines the
letter (`Letter.ofChar?_char`), and only the seven capitals are letters
(`Letter.char_of_ofChar?`).
-/

namespace Roman

/-- The letters of Roman numerals. -/
inductive Letter where
  /-- One. -/
  | I
  /-- Five. -/
  | V
  /-- Ten. -/
  | X
  /-- Fifty. -/
  | L
  /-- A hundred. -/
  | C
  /-- Five hundred. -/
  | D
  /-- A thousand. -/
  | M
  deriving DecidableEq

namespace Letter

/-- The number a letter stands for. -/
def value : Letter → Nat
  | I => 1
  | V => 5
  | X => 10
  | L => 50
  | C => 100
  | D => 500
  | M => 1000

/-- The character a letter is written as. -/
def char : Letter → Char
  | I => 'I'
  | V => 'V'
  | X => 'X'
  | L => 'L'
  | C => 'C'
  | D => 'D'
  | M => 'M'

/-- The letter a character is, if it is one; small letters are not. -/
def ofChar? : Char → Option Letter
  | 'I' => some I
  | 'V' => some V
  | 'X' => some X
  | 'L' => some L
  | 'C' => some C
  | 'D' => some D
  | 'M' => some M
  | _ => none

@[simp] theorem ofChar?_char (a : Letter) : ofChar? a.char = some a := by
  cases a <;> rfl

theorem char_of_ofChar? {c : Char} {a : Letter} (h : ofChar? c = some a) : a.char = c := by
  unfold ofChar? at h
  split at h <;> cases h <;> rfl

theorem value_pos (a : Letter) : 0 < a.value := by
  cases a <;> decide

end Letter

end Roman
