/-!
# Help texts

The version line and the help texts of the command line.
-/

namespace TieredAdmission.CommandLine

def version : String := "0.3.0"

/-- Lines, each ended. -/
def lines (ls : List String) : String := String.join (ls.map (· ++ "\n"))

def usage : String := lines
  ["tiergate - tiered admission and priority scheduling v" ++ version,
    "",
    "USAGE:",
    "    tiergate-cli [COMMAND] [OPTIONS]",
    "",
    "COMMANDS:",
    "    simulate     Run synthetic mixed-tier load through the simulated backend",
    "    config       Inspect configuration (show, defaults, validate)",
    "    version      Show version information",
    "    help         Show this help message",
    "",
    "EXAMPLES:",
    "    tiergate-cli simulate --requests 500",
    "    tiergate-cli simulate --failure-rate 0.2 --json",
    "    tiergate-cli config validate",
    "",
    "ENVIRONMENT:",
    "    TIERGATE_CONFIG      Path to a TOML configuration file",
    "    TIERGATE_*           Per-setting overrides (see `tiergate-cli config show`)",
    "    TIERGATE_LOG_LEVEL   Tracing filter (debug, info, warn, error)",
    "",
    "EXIT CODES:",
    "    0  Success",
    "    1  Failure / validation warnings",
    "    2  Configuration or argument error",
    ""]

def simulateHelp : String := lines
  ["tiergate-cli simulate - Run synthetic load",
    "",
    "USAGE:",
    "    tiergate-cli simulate [OPTIONS]",
    "",
    "OPTIONS:",
    "    -n, --requests N      Number of requests to submit (default: 100)",
    "    --failure-rate P      Simulated backend failure probability, 0..=1",
    "    --json                Print detailed stats as JSON",
    "",
    "DESCRIPTION:",
    "    Submits N requests with a 20/30/50 enterprise/premium/free mix",
    "    concurrently, waits for them to drain, and prints per-tier results.",
    ""]

def configHelp : String := lines
  ["tiergate-cli config - Inspect configuration",
    "",
    "USAGE:",
    "    tiergate-cli config [show|defaults|validate]",
    "",
    "SUBCOMMANDS:",
    "    show       Print effective values after file and environment overrides",
    "    defaults   Print built-in defaults",
    "    validate   Check for policy misconfigurations (exit 1 on warnings)",
    ""]

def commandHelp (command : String) : String :=
  if command = "simulate" ∨ command = "sim" then simulateHelp
  else if command = "config" then configHelp
  else "No help available for '" ++ command ++ "'\n" ++ usage

end TieredAdmission.CommandLine
