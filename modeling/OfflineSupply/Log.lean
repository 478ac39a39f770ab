/-!
# The log

An entry of the log has a severity and names the part of the program that it comes from.
-/

namespace OfflineSupply

/-- How much an entry matters. -/
inductive Severity where
  | debug
  | info
  | warning
  | error
  | critical
  deriving DecidableEq, Repr

namespace Severity

/-- The name of a severity, which also chooses it. -/
def name : Severity → String
  | debug => "DEBUG"
  | info => "INFO"
  | warning => "WARNING"
  | error => "ERROR"
  | critical => "CRITICAL"

/-- All severities, from the least to the greatest. -/
def all : List Severity :=
  [debug, info, warning, error, critical]

/-- The place of a severity, the least one first. -/
def rank : Severity → Nat
  | debug => 0
  | info => 1
  | warning => 2
  | error => 3
  | critical => 4

end Severity

/-- The parts of the program that write to the log. -/
inductive Topic where
  | commands
  | stages
  | requirements
  | manifests
  | charts
  | releases
  | discovery
  | pull
  | push
  deriving DecidableEq, Repr

/-- The name of a part as the log gives it. -/
def Topic.name : Topic → String
  | commands => "kw_airgap.command"
  | stages => "kw_airgap.context"
  | requirements => "kw_airgap.transport"
  | manifests => "kw_airgap.manifest"
  | charts => "kw_airgap.helm"
  | releases => "kw_airgap.releases"
  | discovery => "kw_airgap.builder"
  | pull => "kw_airgap.pull"
  | push => "kw_airgap.push"

/-- An entry of the log. -/
structure LogEntry where
  severity : Severity
  topic : Topic
  message : String
  deriving DecidableEq, Repr

/-- An entry as a line for the terminal. -/
def LogEntry.line (e : LogEntry) : String :=
  e.severity.name ++ ":" ++ e.topic.name ++ ":" ++ e.message

end OfflineSupply
