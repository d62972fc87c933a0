import CampaignRouting.Decimal.Literal

/-! Command-line arguments. An option has a long name and perhaps a letter; its value is the next
argument, or follows the name behind an equals sign. What is no option is an operand. -/

namespace CampaignRouting.CommandLine

/-- Why a command line makes no sense. -/
inductive UsageError where
  | unknownOption (text : String)
  | missingValue (option : String)
  | unexpectedValue (option : String)
  | repeated (option : String)
  | badNumber (option text : String)
  | missingOperand (name : String)
  | unexpectedOperand (text : String)
  | unknownCommand (text : String)
deriving DecidableEq, Repr

def UsageError.message : UsageError → String
  | unknownOption text => "unknown option '" ++ text ++ "'"
  | missingValue option => "option --" ++ option ++ " needs a value"
  | unexpectedValue option => "option --" ++ option ++ " takes no value"
  | repeated option => "option --" ++ option ++ " is given more than once"
  | badNumber option text => "option --" ++ option ++ " needs a number, not '" ++ text ++ "'"
  | missingOperand name => "missing " ++ name
  | unexpectedOperand text => "unexpected argument '" ++ text ++ "'"
  | unknownCommand text => "unknown command '" ++ text ++ "'"

/-- An option that a command knows. -/
structure KnownOption where
  name : String
  letter : Option Char
  takesValue : Bool
  mayBeEmpty : Bool
  mayRepeat : Bool

namespace KnownOption

/-- An option that is there or not. -/
def flag (name : String) : KnownOption := ⟨name, none, false, true, false⟩

/-- An option whose value is any text. -/
def text (name : String) : KnownOption := ⟨name, none, true, true, false⟩

/-- An option whose value is a path. -/
def path (name : String) : KnownOption := ⟨name, none, true, false, false⟩

/-- An option that may also be called by a letter. -/
def withLetter (o : KnownOption) (letter : Char) : KnownOption := { o with letter := some letter }

def repeatable (o : KnownOption) : KnownOption := { o with mayRepeat := true }

end KnownOption

/-- What an argument looks like. -/
inductive Shape where
  | operand
  /-- All arguments behind it are operands. -/
  | separator
  | long (name : List Char) (value : Option (List Char))
  | short (letter : Char) (value : Option (List Char))
deriving DecidableEq, Repr

/-- A single hyphen looks like an operand. -/
def shape (arg : String) : Shape :=
  match arg.toList with
  | ['-', '-'] => .separator
  | '-' :: '-' :: cs =>
    match cs.dropWhile (· ≠ '=') with
    | [] => .long cs none
    | _ :: value => .long (cs.takeWhile (· ≠ '=')) (some value)
  | ['-', letter] => .short letter none
  | '-' :: letter :: '=' :: value => .short letter (some value)
  | '-' :: letter :: value => .short letter (some value)
  | _ => .operand

/-- The option that an argument calls, and the value with it, if it calls any. -/
def called? (known : List KnownOption) (arg : String) :
    Option (Except UsageError (KnownOption × Option String)) :=
  let find (p : KnownOption → Bool) (value : Option (List Char)) :=
    match known.find? p with
    | some o => .ok (o, value.map String.ofList)
    | none => .error (.unknownOption arg)
  match shape arg with
  | .operand | .separator => none
  | .long name value => some (find (·.name.toList = name) value)
  | .short letter value => some (find (·.letter = some letter) value)

/-- Arguments in order: the options with their values, and the operands. -/
structure Arguments where
  options : List (String × String)
  operands : List String
deriving DecidableEq, Repr

namespace Arguments

/-- Adds an option in front of those that follow it, unless it is given once too often. -/
def addOption (o : KnownOption) (value : String) (as : Arguments) : Except UsageError Arguments :=
  if value = "" ∧ ¬o.mayBeEmpty then .error (.missingValue o.name)
  else if as.options.any (·.1 = o.name) ∧ ¬o.mayRepeat then .error (.repeated o.name)
  else .ok { as with options := (o.name, value) :: as.options }

/-- Reads arguments. With `atCommand` set, the first operand is a command, and what follows it is
left to that command. -/
def read (known : List KnownOption) (atCommand : Bool) :
    List String → Except UsageError Arguments
  | [] => .ok ⟨[], []⟩
  | arg :: args =>
    match called? known arg with
    | none =>
      if shape arg = .separator then
        if atCommand then .error (.unexpectedOperand arg) else .ok ⟨[], args⟩
      else if atCommand then .ok ⟨[], arg :: args⟩
      else (read known atCommand args).map fun as => { as with operands := arg :: as.operands }
    | some (.error e) => .error e
    | some (.ok (o, some value)) =>
      if o.takesValue then do (← read known atCommand args).addOption o value
      else .error (.unexpectedValue o.name)
    | some (.ok (o, none)) =>
      if o.takesValue then
        match args with
        | [] => .error (.missingValue o.name)
        | value :: args =>
          if shape value = .operand then do (← read known atCommand args).addOption o value
          else .error (.missingValue o.name)
      else do (← read known atCommand args).addOption o ""

/-- The value of an option that may be given once. -/
def option? (as : Arguments) (name : String) : Option String := as.options.lookup name

/-- The values of an option that may be repeated. -/
def values (as : Arguments) (name : String) : List String :=
  (as.options.filter (·.1 = name)).map (·.2)

/-- The one operand that is due, a path. -/
def onlyPath (as : Arguments) (name : String) : Except UsageError String :=
  match as.operands with
  | [path] => if path = "" then .error (.missingOperand name) else .ok path
  | [] => .error (.missingOperand name)
  | _ :: more :: _ => .error (.unexpectedOperand more)

/-- A number of 64 bits. -/
def number (as : Arguments) (name : String) (default : Nat) : Except UsageError Nat :=
  match as.option? name with
  | none => .ok default
  | some text =>
    match Decimal.naturalOf? text with
    | some n => if n < UInt64.size then .ok n else .error (.badNumber name text)
    | none => .error (.badNumber name text)

end Arguments
end CampaignRouting.CommandLine
