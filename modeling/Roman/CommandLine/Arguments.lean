/-!
# Arguments

How the arguments of a command line are told apart. A form says which flags and
which options with a value are known; what is left are the plain arguments. An
argument that begins with a hyphen and is longer than that has to be known, unless
the form takes such arguments as plain ones or `--` has come before.
-/

namespace Roman

/-- What arguments are known. -/
structure Form where
  /-- The spellings of the flag. -/
  flag : List String
  /-- The options that have a value. -/
  options : List String
  /-- Whether a plain argument may begin with a hyphen. -/
  takesHyphens : Bool

/-- Arguments told apart. -/
structure Arguments where
  /-- How often the flag is given. -/
  flags : Nat
  /-- The options with their values. -/
  options : List (String × String)
  /-- The plain arguments. -/
  plain : List String

namespace Arguments

/-- No arguments but plain ones. -/
def ofPlain (plain : List String) : Arguments := ⟨0, [], plain⟩

/-- The arguments with the flag in front. -/
def addFlag (a : Arguments) : Arguments := { a with flags := a.flags + 1 }

/-- The arguments with an option in front. -/
def addOption (name value : String) (a : Arguments) : Arguments :=
  { a with options := (name, value) :: a.options }

/-- The arguments with a plain one in front. -/
def addPlain (arg : String) (a : Arguments) : Arguments := { a with plain := arg :: a.plain }

end Arguments

/-- Whether an argument looks like a flag or an option. -/
def looksLikeOption (arg : String) : Bool := arg.toList.head? = some '-' && 1 < arg.length

namespace Form

/-- The option and the value in an argument that holds both, with an equals sign
between them. -/
def assignment? (form : Form) (arg : String) : Option (String × String) :=
  let name := String.ofList (arg.toList.takeWhile (· ≠ '='))
  match arg.toList.dropWhile (· ≠ '=') with
  | [] => none
  | _ :: value => if name ∈ form.options then some (name, String.ofList value) else none

/-- Tells arguments apart, if all of them are known. -/
def read? (form : Form) : List String → Option Arguments
  | [] => some (.ofPlain [])
  | arg :: rest =>
    if arg = "--" then some (.ofPlain rest)
    else if arg ∈ form.flag then (form.read? rest).map .addFlag
    else if arg ∈ form.options then
      match rest with
      | [] => none
      | value :: rest =>
        if looksLikeOption value then none else (form.read? rest).map (.addOption arg value)
    else
      match form.assignment? arg with
      | some (name, value) => (form.read? rest).map (.addOption name value)
      | none =>
        if looksLikeOption arg && !form.takesHyphens then none
        else (form.read? rest).map (.addPlain arg)

end Form

namespace Arguments

/-- The only plain argument, if there is exactly one. -/
def single? (a : Arguments) : Option String :=
  match a.plain with
  | [arg] => some arg
  | _ => none

/-- Whether the flag is given; it may be given once. -/
def flag? (a : Arguments) : Option Bool :=
  match a.flags with
  | 0 => some false
  | 1 => some true
  | _ => none

/-- The value of an option, or else the given one; an option may be given once. -/
def option? (a : Arguments) (name default : String) : Option String :=
  match a.options.filter fun o => o.1 = name with
  | [] => some default
  | [o] => some o.2
  | _ => none

end Arguments

end Roman
