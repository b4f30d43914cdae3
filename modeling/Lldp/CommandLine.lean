/-
# Command line

The daemon is told two things when it is started: where its configuration is
and how grave a message has to be to be written.  Each option has a short and a
long form; a value follows it as the next argument, or in the same one, after an
equals sign where the form is long.
-/

namespace Lldp

/-- How grave a message is, the least grave first. -/
inductive LogLevel where
  | trace
  | debug
  | info
  | warn
  | error
deriving DecidableEq, Repr

namespace LogLevel

/-- The level that a word names.  Any other word asks for errors alone. -/
def ofText (text : String) : LogLevel :=
  match text.toLower with
  | "trace" => .trace
  | "debug" => .debug
  | "info" => .info
  | "warn" => .warn
  | _ => .error

/-- Whether messages of one level are written when another is asked for. -/
def isWritten (level wanted : LogLevel) : Bool := wanted.ctorIdx ≤ level.ctorIdx

end LogLevel

/-- What can be told on the command line. -/
inductive OptionName where
  | config
  | logLevel
deriving DecidableEq, Repr

namespace OptionName

def short : OptionName → String
  | config => "-c"
  | logLevel => "-l"

def long : OptionName → String
  | config => "--config"
  | logLevel => "--log-level"

/-- The value that an argument holds beside the option itself. -/
def attached? (name : OptionName) (argument : String) : Option String :=
  let after (front : String) : Option String :=
    if argument.startsWith front then some (argument.drop front.length).toString else none
  (after (name.long ++ "=")).orElse fun _ =>
    (after (name.short ++ "=")).orElse fun _ =>
      if argument = name.short then none else after name.short

/-- Whether an argument is the option, its value being the next one. -/
def isAlone (name : OptionName) (argument : String) : Bool :=
  argument = name.short || argument = name.long

end OptionName

/-- Why a command line cannot be understood. -/
inductive UsageError where
  | unexpected (argument : String)
  | withoutValue (name : OptionName)
  | repeated (name : OptionName)
deriving DecidableEq, Repr

def UsageError.message : UsageError → String
  | unexpected argument => s!"unexpected argument '{argument}' found"
  | withoutValue name => s!"a value is required for '{name.long}' but none was supplied"
  | repeated name => s!"the argument '{name.long}' cannot be used multiple times"

/-- A command line, as far as it says something. -/
structure Options where
  configPath? : Option String := none
  logLevel? : Option String := none
deriving DecidableEq, Repr

namespace Options

/-- Where the configuration is. -/
def configPath (o : Options) : String := o.configPath?.getD "/etc/sonic/lldpd.toml"

/-- The level from which messages are written. -/
def logLevel (o : Options) : LogLevel := .ofText (o.logLevel?.getD "info")

/-- Takes note of an option, which may be given once. -/
def note (o : Options) (name : OptionName) (value : String) : Except UsageError Options :=
  match name with
  | .config =>
    if o.configPath?.isSome then .error (.repeated name) else .ok { o with configPath? := value }
  | .logLevel =>
    if o.logLevel?.isSome then .error (.repeated name) else .ok { o with logLevel? := value }

/-- Reads arguments one after another into what is known so far. -/
def readInto (o : Options) : List String → Except UsageError Options
  | [] => .ok o
  | argument :: rest =>
    let names := [OptionName.config, .logLevel]
    match names.find? (·.isAlone argument) with
    | some name =>
      match rest with
      | [] => .error (.withoutValue name)
      | value :: rest => (o.note name value).bind fun o => o.readInto rest
    | none =>
      match names.findSome? fun name => (name.attached? argument).map (name, ·) with
      | some (name, value) => (o.note name value).bind fun o => o.readInto rest
      | none => .error (.unexpected argument)

/-- Reads a command line. -/
def ofArguments (arguments : List String) : Except UsageError Options :=
  readInto {} arguments

end Options
end Lldp
