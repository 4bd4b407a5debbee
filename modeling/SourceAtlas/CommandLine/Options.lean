import SourceAtlas.Text.Basic

/-!
# Options

Reads the words behind a command into values.  An option is written with its
long name or as one of several short ones behind a single hyphen; its value is
attached or is the next word.  A value is looked at when the next argument
begins, so an argument nobody knows is noticed before a bad value.
-/

namespace SourceAtlas.CommandLine

/-- Why words do not make an invocation, or what they ask for instead. -/
inductive UsageError
  | unknownArgument
  | invalidValue
  | valueValidation
  | invalidSubcommand
  | missingRequiredArgument
  | argumentConflict
  | tooManyValues
  | helpWanted
  | versionWanted
  | nothingGiven
  deriving DecidableEq, Repr

/-- The exit code.  Only what was asked for is a success. -/
def UsageError.exitCode : UsageError → Nat
  | helpWanted => 0
  | versionWanted => 0
  | _ => 2

/-- The values that an argument accepts. -/
inductive ValueKind
  | text
  /-- Any text that is not empty. -/
  | path
  /-- A number of 64 bits. -/
  | number
  | choice (names : List String)
  deriving DecidableEq, Repr

/-- What an argument does. -/
inductive Action
  | flag
  | help
  | version
  | take (kind : ValueKind)
  /-- Takes one value each time it is given. -/
  | collect (kind : ValueKind)
  deriving DecidableEq, Repr

/-- An argument that a command knows. -/
structure Argument where
  name : String
  short : Option Char
  action : Action
  deriving DecidableEq, Repr

/-- The arguments of a command.  The positional one has no hyphens. -/
structure Grammar where
  options : List Argument
  positional : Option Argument
  deriving DecidableEq, Repr

/-- A value that was given for an argument. -/
structure Given where
  name : String
  value : String
  deriving DecidableEq, Repr

/-- An argument whose value has not been looked at. -/
structure Pending where
  argument : Argument
  value : Option String
  deriving DecidableEq, Repr

/-- Arguments in reading. -/
structure State where
  given : List Given
  pending : Option Pending
  /-- Whether the positional argument has been met. -/
  metPositional : Bool
  deriving DecidableEq, Repr

namespace State

def start : State := { given := [], pending := none, metPositional := false }

def has (state : State) (name : String) : Bool :=
  state.given.any (·.name = name)

end State

def number? (text : String) : Option Nat :=
  let digits :=
    match text.toList with
    | '+' :: rest => rest
    | digits => digits
  if digits.isEmpty || !digits.all Text.isAsciiDigit then none
  else
    let value := digits.foldl (fun value c => 10 * value + (c.toNat - 48)) 0
    if value < 18446744073709551616 then some value else none

def ValueKind.check (kind : ValueKind) (value : String) : Except UsageError Unit :=
  match kind with
  | text => .ok ()
  | path => if value.isEmpty then .error .invalidValue else .ok ()
  | number => if (number? value).isSome then .ok () else .error .valueValidation
  | choice names => if names.contains value then .ok () else .error .invalidValue

namespace State

def accept (state : State) (argument : Argument) (value : String) : Except UsageError State :=
  let taken := { state with given := state.given ++ [{ name := argument.name, value }] }
  match argument.action with
  | .help => .error .helpWanted
  | .version => .error .versionWanted
  | .flag => if state.has argument.name then .error .argumentConflict else .ok taken
  | .take kind =>
      if state.has argument.name then .error .argumentConflict
      else (kind.check value).map fun _ => taken
  | .collect kind => (kind.check value).map fun _ => taken

def settle (state : State) : Except UsageError State :=
  match state.pending with
  | none => .ok state
  | some pending =>
      match pending.value with
      | none => .error .invalidValue
      | some value => { state with pending := none }.accept pending.argument value

def take (state : State) (argument : Argument) (value : String) : Except UsageError State :=
  state.settle.bind (·.accept argument value)

def putOff (state : State) (argument : Argument) (value : Option String) :
    Except UsageError State :=
  state.settle.map ({ · with pending := some { argument, value } })

end State

def Argument.takesValue (argument : Argument) : Bool :=
  match argument.action with
  | .take _ => true
  | .collect _ => true
  | _ => false

/-- Takes an option that has a value, attached to it or in the next word. -/
def takeOption (state : State) (argument : Argument) (attached : Option String) :
    Except UsageError State :=
  match attached with
  | some value => state.take argument value
  | none => state.putOff argument none

def readLong (grammar : Grammar) (state : State) (word : List Char) :
    Except UsageError State :=
  let name := String.ofList (word.takeWhile (· ≠ '='))
  let attached :=
    match word.dropWhile (· ≠ '=') with
    | [] => none
    | _ :: value => some (String.ofList value)
  match grammar.options.find? (·.name = name) with
  | none => .error .unknownArgument
  | some argument =>
      if argument.takesValue then takeOption state argument attached
      else if attached.isSome then .error .tooManyValues
      else state.take argument ""

def readShort (grammar : Grammar) (state : State) : List Char → Except UsageError State
  | [] => .ok state
  | c :: rest =>
      match grammar.options.find? (·.short = some c) with
      | none => .error .unknownArgument
      | some argument =>
          if argument.takesValue then
            match rest with
            | [] => takeOption state argument none
            | '=' :: value => takeOption state argument (some (String.ofList value))
            | value => takeOption state argument (some (String.ofList value))
          else
            match state.take argument "" with
            | .error error => .error error
            | .ok state => readShort grammar state rest

def readPositional (grammar : Grammar) (state : State) (word : String) :
    Except UsageError State :=
  match grammar.positional with
  | none => .error .unknownArgument
  | some argument =>
      if state.metPositional then .error .unknownArgument
      else
        (state.putOff argument (some word)).map ({ · with metPositional := true })

def State.awaitsValue (state : State) : Bool :=
  state.pending.any (·.value.isNone)

/-- Gives the option that waits for a value the next word. -/
def State.fill (state : State) (word : String) : State :=
  { state with pending := state.pending.map ({ · with value := some word }) }

def readWords (grammar : Grammar) (onlyPositional : Bool) (state : State) :
    List String → Except UsageError State
  | [] => state.settle
  | word :: words =>
      let next :=
        if onlyPositional then readPositional grammar state word
        else
          match word.toList with
          | ['-', '-'] => .ok state
          | '-' :: '-' :: name => readLong grammar state name
          | '-' :: c :: rest => readShort grammar state (c :: rest)
          | _ =>
              if state.awaitsValue then .ok (state.fill word)
              else readPositional grammar state word
      match next with
      | .error error => .error error
      | .ok state => readWords grammar (onlyPositional || word = "--") state words

/-- The arguments of a command.  Its positional argument must be there. -/
def Grammar.read (grammar : Grammar) (words : List String) : Except UsageError (List Given) :=
  match readWords grammar false .start words with
  | .error error => .error error
  | .ok state =>
      match grammar.positional with
      | some argument =>
          if state.has argument.name then .ok state.given else .error .missingRequiredArgument
      | none => .ok state.given

end SourceAtlas.CommandLine
