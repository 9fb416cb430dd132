/-!
# Command line arguments

The arguments of a command are options, some of which take a value, and at most one argument that is
no option. The value of an option follows it after an equals sign or as the next argument, which
then may not look like an option itself. Two hyphens end the options. Asking for help or for the
version ends the reading.
-/

namespace RecordQuery.CommandLine

/-- The options of a command, without their hyphens: those that take a value, with a test that the
value has to pass, and those that stand alone. -/
structure Interface where
  valued : List (String × (String → Bool))
  flags : List String

/-- What has been given to a command. -/
structure Arguments where
  values : List (String × String)
  flags : List String
  argument? : Option String

/-- What is wrong with the arguments. -/
inductive UsageFault where
  | missingArgument (name : String)
  | unexpectedArgument (written : String)
  | emptyArgument
  | missingValue (option : String)
  | unneededValue (option : String)
  | invalidValue (option value : String)
  | repeatedOption (option : String)
deriving DecidableEq

def UsageFault.message : UsageFault → String
  | missingArgument name => "the argument <" ++ name ++ "> is missing"
  | unexpectedArgument written => "unexpected argument '" ++ written ++ "'"
  | emptyArgument => "an argument is empty"
  | missingValue option => "the option '--" ++ option ++ "' needs a value"
  | unneededValue option => "the option '--" ++ option ++ "' takes no value"
  | invalidValue option value => "invalid value '" ++ value ++ "' for '--" ++ option ++ "'"
  | repeatedOption option => "the option '--" ++ option ++ "' is given more than once"

/-- What is asked of a command. -/
inductive Request where
  | help
  | version
  | run (arguments : Arguments)

namespace Arguments

def empty : Arguments := ⟨[], [], none⟩

def value? (a : Arguments) (option : String) : Option String :=
  a.values.lookup option

def addValue (interface : Interface) (a : Arguments) (option value : String) :
    Except UsageFault Arguments :=
  if (a.value? option).isSome then .error (.repeatedOption option)
  else if ((interface.valued.lookup option).map (· value)).getD false then
    .ok { a with values := (option, value) :: a.values }
  else .error (.invalidValue option value)

def addFlag (a : Arguments) (option : String) : Except UsageFault Arguments :=
  if a.flags.contains option then .error (.repeatedOption option)
  else .ok { a with flags := option :: a.flags }

def addArgument (a : Arguments) (written : String) : Except UsageFault Arguments :=
  if a.argument?.isSome then .error (.unexpectedArgument written)
  else if written == "" then .error .emptyArgument
  else .ok { a with argument? := some written }

end Arguments

/-- What an argument looks like. -/
inductive Form where
  /-- Two hyphens alone. -/
  | separator
  /-- Two hyphens and a name, and perhaps a value after an equals sign. -/
  | long (name : String) (value? : Option String)
  /-- One hyphen and a character, and perhaps more. -/
  | short (c : Char)
  /-- Anything else, a lone hyphen included. -/
  | plain

def Form.ofText (written : String) : Form :=
  match written.toList with
  | ['-', '-'] => separator
  | '-' :: '-' :: cs =>
    let value? :=
      match cs.dropWhile (· != '=') with
      | _ :: value => some (String.ofList value)
      | [] => none
    long (String.ofList (cs.takeWhile (· != '='))) value?
  | '-' :: c :: _ => short c
  | _ => plain

/-- Reads arguments after the end of the options. -/
def readRest (a : Arguments) : List String → Except UsageFault Request
  | [] => .ok (.run a)
  | written :: rest => do readRest (← a.addArgument written) rest

/-- Reads arguments one after the other, after `a` has been read. -/
def readFrom (interface : Interface) (a : Arguments) : List String → Except UsageFault Request
  | [] => .ok (.run a)
  | written :: rest =>
    match Form.ofText written with
    | .separator => readRest a rest
    | .plain => do readFrom interface (← a.addArgument written) rest
    | .short c =>
      if c == 'h' then .ok .help
      else if c == 'V' then .ok .version
      else .error (.unexpectedArgument written)
    | .long name (some value) =>
      if (interface.valued.lookup name).isSome then do
        readFrom interface (← a.addValue interface name value) rest
      else if interface.flags.contains name || name == "help" || name == "version" then
        .error (.unneededValue name)
      else .error (.unexpectedArgument written)
    | .long name none =>
      if (interface.valued.lookup name).isSome then
        match rest with
        | value :: rest =>
          match Form.ofText value with
          | .plain => do readFrom interface (← a.addValue interface name value) rest
          | _ => .error (.missingValue name)
        | [] => .error (.missingValue name)
      else if interface.flags.contains name then do readFrom interface (← a.addFlag name) rest
      else if name == "help" then .ok .help
      else if name == "version" then .ok .version
      else .error (.unexpectedArgument written)

def read (interface : Interface) (arguments : List String) : Except UsageFault Request :=
  readFrom interface .empty arguments

end RecordQuery.CommandLine
