import TaggedUnion.Text.Quoted
import TaggedUnion.Text.Similarity

/-!
# Options

The arguments of the command are options and operands in any order.  A long
option is written out after two hyphens, and its value follows an equals sign
or is the next argument; short options stand together after one hyphen, and a
value is what follows them or the next argument.  After two hyphens alone all
arguments are operands.
-/

namespace TaggedUnion

/-- The arguments of a command, sorted. -/
structure Invocation where
  /-- The path of the settings that was given last. -/
  config : Option Text := none
  verbose : Bool := false
  debug : Bool := false
  help : Bool := false
  operands : List Text := []
deriving DecidableEq, Repr

/-- What an option does. -/
inductive CommandOption where
  | config
  | verbose
  | debug
  | help
deriving DecidableEq, Repr

/-- Why arguments cannot be sorted. -/
inductive OptionError where
  /-- There is no such option, but perhaps similar ones. -/
  | unknown (name : Text) (similar : List Text)
  /-- The value of the option is missing. -/
  | missingValue (name : Text)
  /-- The option takes no value. -/
  | unexpectedValue (name : Text)
deriving DecidableEq, Repr

namespace OptionError

/-- The error in words. -/
def message : OptionError → Text
  | unknown name similar =>
      .cat
        ["No such option: ", name,
          match similar with
          | [] => []
          | [other] => .cat [" Did you mean ", other, "?"]
          | others => .cat [" (Possible options: ", .joinWith ", " others, ")"]]
  | missingValue name => .cat ["Option ", Text.quote name, " requires an argument."]
  | unexpectedValue name => .cat ["Option ", Text.quote name, " does not take a value."]

/-- Whether the error is shown together with the usage of the command. -/
def showsUsage : OptionError → Bool
  | unknown _ _ => true
  | missingValue _ | unexpectedValue _ => false

end OptionError

namespace CommandOption

/-- The long names, in alphabetical order. -/
def longNames : List (Text × CommandOption) :=
  [("--config", config), ("--debug", debug), ("--help", help), ("--verbose", verbose)]

/-- The option with the given long name. -/
def ofLongName? (name : Text) : Option CommandOption :=
  (longNames.find? (·.1 = name)).map (·.2)

/-- The option with the given letter. -/
def ofLetter? : Char → Option CommandOption
  | 'c' => some config
  | 'v' => some verbose
  | _ => none

end CommandOption

namespace Invocation

/-- Set an option that takes no value. -/
def setFlag (invocation : Invocation) : CommandOption → Invocation
  | .config => invocation
  | .verbose => { invocation with verbose := true }
  | .debug => { invocation with debug := true }
  | .help => { invocation with help := true }

/-- What reading an argument leaves to be done. -/
inductive Pending where
  /-- Nothing. -/
  | nothing
  /-- The next argument is the value of the option with the given name. -/
  | value (name : Text)

/-- Read letters that stand together after a hyphen. -/
def readLetters (invocation : Invocation) : Text → Except OptionError (Invocation × Pending)
  | [] => .ok (invocation, .nothing)
  | letter :: rest =>
      match CommandOption.ofLetter? letter with
      | none => .error (.unknown ['-', letter] [])
      | some .config =>
          if rest.isEmpty then .ok (invocation, .value ['-', letter])
          else .ok ({ invocation with config := some rest }, .nothing)
      | some option => readLetters (invocation.setFlag option) rest

/-- Cut an argument at its first equals sign. -/
def splitValue (argument : Text) : Text × Option Text :=
  match argument.span (· ≠ '=') with
  | (name, _ :: value) => (name, some value)
  | (name, []) => (name, none)

/-- The long names that are similar to a given one. -/
def similarNames (name : Text) : List Text :=
  (CommandOption.longNames.map (·.1)).filter (Text.isSimilar · name)

/-- Read a long option. -/
def readLong (invocation : Invocation) (argument : Text) :
    Except OptionError (Invocation × Pending) :=
  let (name, value) := splitValue argument
  match CommandOption.ofLongName? name, value with
  | none, _ => .error (.unknown name (similarNames name))
  | some .config, some value => .ok ({ invocation with config := some value }, .nothing)
  | some .config, none => .ok (invocation, .value name)
  | some _, some _ => .error (.unexpectedValue name)
  | some option, none => .ok (invocation.setFlag option, .nothing)

/-- Read one argument. -/
def readArgument (invocation : Invocation) (argument : Text) :
    Except OptionError (Invocation × Pending) :=
  match argument with
  | '-' :: '-' :: _ => invocation.readLong argument
  | '-' :: letter :: rest => invocation.readLetters (letter :: rest)
  | _ => .ok ({ invocation with operands := invocation.operands ++ [argument] }, .nothing)

/-- Read arguments in order. -/
def readFrom (invocation : Invocation) : List Text → Except OptionError Invocation
  | [] => .ok invocation
  | argument :: rest =>
      if argument = ['-', '-'] then
        .ok { invocation with operands := invocation.operands ++ rest }
      else
        match invocation.readArgument argument with
        | .error error => .error error
        | .ok (next, .nothing) => next.readFrom rest
        | .ok (next, .value name) =>
            match rest with
            | [] => .error (.missingValue name)
            | value :: rest => { next with config := some value }.readFrom rest

/-- Sort the arguments of a command. -/
def ofArguments (arguments : List Text) : Except OptionError Invocation :=
  readFrom {} arguments

end Invocation

end TaggedUnion
