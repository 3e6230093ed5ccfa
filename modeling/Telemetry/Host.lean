import Telemetry.Json.Basic
import Telemetry.Json.Fields

/-! The application, the machine and the agent that records are written for. -/
namespace Telemetry

/-- The name under which records are written. -/
def appName : String := "bench-telemetry"

def appVersion : String := "0.1.0"

structure Host where
  machineName : String
  architecture : String
  platform : String
  osVersion : String
  osDescription : String
  timezone : String
deriving DecidableEq, Repr

structure Agent where
  id : String
  experiment : String
deriving DecidableEq, Repr

def Host.toJson (h : Host) : Json :=
  .obj [("machine_name", .str h.machineName), ("platform_architecture", .str h.architecture),
    ("platform", .str h.platform), ("os_version", .str h.osVersion),
    ("os_description", .str h.osDescription), ("timezone", .str h.timezone)]

/-- Reads what is known of a machine; every field has to be there. -/
def Host.ofDocument? (d : Json.Document) : Option Host := do
  let f ← Json.Fields.ofDocument? ["machine_name", "platform_architecture", "platform",
    "os_version", "os_description", "timezone"] d
  some {
    machineName := ← f.require "machine_name" Json.Document.text?
    architecture := ← f.require "platform_architecture" Json.Document.text?
    platform := ← f.require "platform" Json.Document.text?
    osVersion := ← f.require "os_version" Json.Document.text?
    osDescription := ← f.require "os_description" Json.Document.text?
    timezone := ← f.require "timezone" Json.Document.text? }

def Agent.toJson (a : Agent) : Json :=
  .obj [("agent_id", .str a.id), ("experiment_id", .str a.experiment)]

/-- Reads an agent; both fields have to be there. -/
def Agent.ofDocument? (d : Json.Document) : Option Agent := do
  let f ← Json.Fields.ofDocument? ["agent_id", "experiment_id"] d
  some {
    id := ← f.require "agent_id" Json.Document.text?
    experiment := ← f.require "experiment_id" Json.Document.text? }

end Telemetry
