/-
# The program

`lldpd [-c FILE] [-l LEVEL]` loads a configuration, starts the service on links
that are held in memory, and closes it down when its standard input ends.  It
exits with 0 if all went well, with 1 if it could not start, with 2 if its
command line cannot be understood and with 101 if it broke down.
-/

import Lldp.CommandLine
import Lldp.Daemon

namespace Lldp

/-- What is found under a name. -/
def readSource (path : String) : IO ConfigSource := do
  match ← (IO.FS.readBinFile path).toBaseIO with
  | .ok bytes => return .ofOctets bytes.toList
  | .error (.noFileOrDirectory ..) => return .missing
  | .error e => return .unreadable (toString e)

/-- Writes a message if it is grave enough. -/
def log (options : Options) (level : LogLevel) (text : String) : IO Unit := do
  if level.isWritten options.logLevel then
    IO.eprintln s!"lldpd: {text}"

/-- Starts the service, waits for the end of the input, and closes the service
down. -/
def runDaemon (options : Options) : IO UInt32 := do
  log options .info "Starting LLDP daemon"
  match Plan.ofSource (← readSource options.configPath) with
  | .error e =>
    log options .error s!"Daemon exiting with error: {e.message options.configPath}"
    return 1
  | .ok plan =>
    log options .info s!"Configuration loaded {plan.summary.line}"
    match Daemon.boot? plan with
    | none =>
      IO.eprintln "The mailboxes cannot be made"
      return 101
    | some daemon =>
      if let some e := daemon.failure? then
        log options .error s!"Daemon exiting with error: {e.message}"
        return 1
      let _ ← (← IO.getStdin).readToEnd
      if daemon.closeDown.hasEnded then
        log options .info "Graceful shutdown complete"
        return 0
      else
        return 1

end Lldp

def main (arguments : List String) : IO UInt32 :=
  match Lldp.Options.ofArguments arguments with
  | .error e => do
    IO.eprintln s!"error: {e.message}"
    return 2
  | .ok options => Lldp.runDaemon options
