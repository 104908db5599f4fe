import TieredAdmission.CommandLine.Help
import TieredAdmission.Config.Load
import TieredAdmission.Config.Check
import TieredAdmission.Config.Listing
import TieredAdmission.Simulation.Options
import TieredAdmission.Simulation.Run
import TieredAdmission.Record.Report
import TieredAdmission.Record.Text

/-!
# The command line

What the program prints and with which code it exits, for its arguments, the environment, the file
system and what chance draws for a simulation. Results go to the standard output; help, warnings and
errors go to the standard error stream.
-/

namespace TieredAdmission.CommandLine

/-- What a run of the program leaves. -/
structure Output where
  code : Nat := 0
  stdout : String := ""
  stderr : String := ""
deriving DecidableEq, Repr

/-- The surroundings of a run. -/
structure World where
  environment : Environment
  files : FileSystem
  /-- What chance decides about so many requests of a simulation. -/
  draws : SimulatorConfig → Nat → Array Draw

def success : Nat := 0

def failure : Nat := 1

def configError : Nat := 2

def loadFailure (e : ConfigError) : Output :=
  { code := configError, stderr := "ERROR: " ++ e.message ++ "\n" }

def runShow (w : World) : Output :=
  match GatewayConfig.load w.environment w.files with
  | .error e => loadFailure e
  | .ok c => { stdout := c.effective.listing }

def runDefaults : Output := { stdout := ({} : GatewayConfig).effective.listing }

def runValidate (w : World) : Output :=
  match GatewayConfig.load w.environment w.files with
  | .error e => loadFailure e
  | .ok c =>
    match c.warnings with
    | [] => { stdout := "Configuration is valid.\n" }
    | ws =>
      { code := failure
        stderr := String.join (ws.map fun x => "WARNING: " ++ x.message ++ "\n") }

def padRight (width : Nat) (s : String) : String :=
  s ++ String.ofList (List.replicate (width - s.length) ' ')

def padLeft (width : Nat) (s : String) : String :=
  String.ofList (List.replicate (width - s.length) ' ') ++ s

/-- A line of the table of tiers. -/
def tableLine (name completed allocation : String) : String :=
  padRight 12 name ++ " " ++ padLeft 10 completed ++ " " ++ padLeft 12 allocation

def summary (s : DetailedStats) : String :=
  let c := s.counters
  lines
    (["Scheduler:        " ++ s.scheduler.title,
      "Breaker:          " ++ s.breaker.state.name,
      "Requests:         " ++ Decimal.text c.total ++ " total, " ++ Decimal.text c.succeeded ++
        " succeeded, " ++ Decimal.text c.failed ++ " failed, " ++ Decimal.text c.rejected ++
        " rejected",
      "Max concurrent:   " ++ Decimal.text s.budget.maxConcurrent,
      "Avg wait:         " ++ Decimal.fixed 1 s.avgWaitTimeMs ++ " ms",
      "Avg processing:   " ++ Decimal.fixed 1 s.avgProcessingTimeMs ++ " ms",
      "Rate:             " ++ Decimal.fixed 1 s.processingRatePerMinute ++ " /min",
      "",
      tableLine "TIER" "COMPLETED" "ALLOCATION"] ++
    Tier.all.map fun t =>
      tableLine t.name (Decimal.text (s.completedByTier.get t)) (Decimal.text (s.allocation.get t)))

def runSimulate (w : World) (o : SimulateOptions) : Output :=
  match GatewayConfig.load w.environment w.files with
  | .error e => loadFailure e
  | .ok c =>
    let simulator :=
      { c.execution.simulator with
        failureRate := o.failureRate.getD c.execution.simulator.failureRate }
    let c := { c with execution := { c.execution with simulator } }
    let stats := simulate c (w.draws simulator o.requests)
    { stdout := if o.json then stats.toDatum.toJsonText ++ "\n" else summary stats
      stderr :=
        match c.logging.error? w.files with
        | none => ""
        | some e => "WARNING: logging disabled: " ++ e.message ++ "\n" }

def runConfig (w : World) (command : String) : Output :=
  match command with
  | "show" => runShow w
  | "defaults" => runDefaults
  | "validate" => runValidate w
  | _ =>
    { code := failure
      stderr := "Unknown config subcommand: " ++ command ++ "\n" ++ commandHelp "config" }

def run (w : World) (args : List String) : Output :=
  match args.headD "help" with
  | "simulate" | "sim" =>
    match SimulateOptions.parse (args.drop 1) with
    | .error e =>
      { code := configError, stderr := e.message ++ "\n" ++ commandHelp "simulate" }
    | .ok o => runSimulate w o
  | "config" => runConfig w ((args.drop 1).headD "show")
  | "help" | "--help" | "-h" =>
    match args.drop 1 with
    | [] => { stderr := usage }
    | command :: _ => { stderr := commandHelp command }
  | "version" | "--version" | "-V" => { stdout := "tiergate " ++ version ++ "\n" }
  | command => { code := failure, stderr := "Unknown command: " ++ command ++ "\n" ++ usage }

end TieredAdmission.CommandLine
