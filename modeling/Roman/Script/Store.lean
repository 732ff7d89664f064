import Roman.Script.Variable
import Roman.Text.Digits

/-!
# Stores

A store holds variables under their names, in the order of the names. A token is
resolved in a store: a numeral or an integer literal stands for itself, whatever the
store holds, and anything else is looked up.
-/

namespace Roman

/-- The variables of a script. -/
structure Store where
  /-- The variables with their names, in increasing order of the names. -/
  entries : List (String × Variable)
  deriving DecidableEq

/-- A list of entries with one more; an entry of the same name is replaced. -/
def insertEntry (name : String) (v : Variable) : List (String × Variable) → List (String × Variable)
  | [] => [(name, v)]
  | (other, w) :: rest =>
    if name < other then (name, v) :: (other, w) :: rest
    else if name = other then (name, v) :: rest
    else (other, w) :: insertEntry name v rest

/-- An entry that was inserted is found, and no other look-up changes. -/
theorem lookup_insertEntry (name other : String) (v : Variable) (entries : List (String × Variable)) :
    (insertEntry name v entries).lookup other =
      if other = name then some v else entries.lookup other := by
  induction entries with
  | nil => grind [insertEntry]
  | cons e rest ih => grind [insertEntry]

namespace Store

/-- The store without a variable. -/
def empty : Store := ⟨[]⟩

/-- The variable of a name, if there is one. -/
def find? (s : Store) (name : String) : Option Variable := s.entries.lookup name

/-- Whether there is a variable of a name. -/
def contains (s : Store) (name : String) : Bool := s.entries.any fun e => e.1 = name

/-- The names in increasing order. -/
def names (s : Store) : List String := s.entries.map Prod.fst

/-- How many variables there are. -/
def size (s : Store) : Nat := s.entries.length

/-- The variable of a name. -/
def get (s : Store) (name : String) : Except StatementError Variable :=
  match s.find? name with
  | some v => .ok v
  | none => .error (.unresolved name)

/-- The store with a variable put under a name. -/
def put (s : Store) (name : String) (v : Variable) : Store := ⟨insertEntry name v s.entries⟩

/-- A variable that was put under a name is found there, and what is found under
other names does not change. -/
theorem find?_put (s : Store) (name other : String) (v : Variable) :
    (s.put name v).find? other = if other = name then some v else s.find? other :=
  lookup_insertEntry name other v s.entries

/-- The store with a name set to a value, if they make a variable. -/
def set (s : Store) (name : String) (value : Value) : Except StatementError Store :=
  (Variable.make name value).map (s.put name)

/-- The text of a store: a line for each variable, in the order of the names. -/
def toText (s : Store) : String := "\n".intercalate (s.entries.map fun e => e.2.toText)

/-- The integer of a literal, if it fits into 64 bits. -/
def integerOfLiteral (token : String) (n : Nat) : Except StatementError Value :=
  if (n : Int) ≤ Int64.maxValue.toInt then .ok (.integer (Int64.ofNat n))
  else .error (.literalTooLarge token)

/-- The value that a token stands for: a numeral, an integer literal, or else the
value of the variable of that name. -/
def resolve (s : Store) (token : String) : Except StatementError Value :=
  match Numeral.parse token with
  | .ok n => .ok (.numeral n)
  | .error _ =>
    match natural? token with
    | some n => integerOfLiteral token n
    | none => (s.get token).map Variable.value

end Store

end Roman
