import TraceWatch.Config.Basic
import TraceWatch.Json.Record
import TraceWatch.Yaml.Fields
import TraceWatch.Yaml.Printer

/-!
# Configurations as documents

A configuration is read from a YAML document, in which every section may be left out, and written
as one. `ServiceConfig.toJson` is the same document as a JSON value.
-/

namespace TraceWatch

open Yaml (Block Fields Node)

namespace DatabaseConfig

/-- Reads the section. -/
def ofFields? (fields : Fields) : Option DatabaseConfig := do
  let base := ServiceConfig.fallback.database
  return {
    url := ← fields.withDefault "url" base.url Node.text?
    maxConnections := ← fields.withDefault "max_connections" base.maxConnections
      (Node.natural? (Nat.pow 2 32 - 1)) }

/-- The section as a part of a document. -/
def toBlock (config : DatabaseConfig) : Block :=
  .mapping [("url", .text config.url), ("max_connections", .word (Nat.repr config.maxConnections))]

/-- The section as a JSON value. -/
def toJson (config : DatabaseConfig) : Json :=
  .object [("url", .string config.url), ("max_connections", .whole config.maxConnections)]

end DatabaseConfig

namespace SchedulerConfig

/-- Reads the section. -/
def ofFields? (fields : Fields) : Option SchedulerConfig := do
  let base := ServiceConfig.fallback.scheduler
  return {
    enabled := ← fields.withDefault "enabled" base.enabled Node.bool?
    pollIntervalSeconds := ← fields.withDefault "poll_interval_seconds" base.pollIntervalSeconds
      (Node.natural? (Nat.pow 2 64 - 1))
    lockKey := ← fields.withDefault "lock_key" base.lockKey
      (Node.integer? (-0x8000000000000000) 0x7FFFFFFFFFFFFFFF) }

/-- The word of a truth value. -/
def boolWord (value : Bool) : String := if value then "true" else "false"

/-- The section as a part of a document. -/
def toBlock (config : SchedulerConfig) : Block :=
  .mapping [("enabled", .word (boolWord config.enabled)),
    ("poll_interval_seconds", .word (Nat.repr config.pollIntervalSeconds)),
    ("lock_key", .word (toString config.lockKey))]

/-- The section as a JSON value. -/
def toJson (config : SchedulerConfig) : Json :=
  .object [("enabled", .bool config.enabled),
    ("poll_interval_seconds", .whole config.pollIntervalSeconds),
    ("lock_key", .whole config.lockKey)]

end SchedulerConfig

namespace PlaneConfig

/-- Reads the section. -/
def ofFields? (fields : Fields) : Option PlaneConfig := do
  let base := ServiceConfig.fallback.plane
  return {
    baseUrl := ← fields.withDefault "base_url" base.baseUrl Node.text?
    workflowTemplate :=
      ← fields.withDefault "workflow_template" base.workflowTemplate Node.text?
    apiToken := ← fields.optional "api_token" Node.text?
    requestTimeoutSeconds := ← fields.withDefault "request_timeout_seconds"
      base.requestTimeoutSeconds (Node.natural? (Nat.pow 2 64 - 1)) }

/-- Reads the section from a JSON value. -/
def ofJson? (document : Json) : Option PlaneConfig := do
  let base := ServiceConfig.fallback.plane
  let record ← Record.ofJson?
    ["base_url", "workflow_template", "api_token", "request_timeout_seconds"] document
  return {
    baseUrl := ← record.withDefault "base_url" Json.string? base.baseUrl
    workflowTemplate :=
      ← record.withDefault "workflow_template" Json.string? base.workflowTemplate
    apiToken := ← record.optional "api_token" Json.string?
    requestTimeoutSeconds := ← record.withDefault "request_timeout_seconds"
      (Json.natural? (Nat.pow 2 64 - 1)) base.requestTimeoutSeconds }

/-- The section as a part of a document. -/
def toBlock (config : PlaneConfig) : Block :=
  .mapping ([("base_url", .text config.baseUrl),
      ("workflow_template", .text config.workflowTemplate)]
    ++ (config.apiToken.map fun token => ("api_token", Block.text token)).toList
    ++ [("request_timeout_seconds", .word (Nat.repr config.requestTimeoutSeconds))])

/-- The section as a JSON value. -/
def toJson (config : PlaneConfig) : Json :=
  .object ([("base_url", .string config.baseUrl),
      ("workflow_template", .string config.workflowTemplate)]
    ++ (config.apiToken.map fun token => ("api_token", Json.string token)).toList
    ++ [("request_timeout_seconds", .whole config.requestTimeoutSeconds)])

end PlaneConfig

namespace ObservabilityConfig

/-- Reads the section. -/
def ofFields? (fields : Fields) : Option ObservabilityConfig := do
  let base := ServiceConfig.fallback.observability
  return {
    logLevel := ← fields.withDefault "log_level" base.logLevel Node.text?
    logFormat := ← fields.withDefault "log_format" base.logFormat Node.text?
    metricsPort := ← fields.optional "metrics_port" (Node.natural? 65535) }

/-- The section as a part of a document. -/
def toBlock (config : ObservabilityConfig) : Block :=
  .mapping ([("log_level", .text config.logLevel), ("log_format", .text config.logFormat)]
    ++ (config.metricsPort.map fun port => ("metrics_port", Block.word (Nat.repr port))).toList)

/-- The section as a JSON value. -/
def toJson (config : ObservabilityConfig) : Json :=
  .object ([("log_level", .string config.logLevel), ("log_format", .string config.logFormat)]
    ++ (config.metricsPort.map fun port => ("metrics_port", Json.whole port)).toList)

end ObservabilityConfig

namespace ServerConfig

/-- Reads the section. -/
def ofFields? (fields : Fields) : Option ServerConfig := do
  let base := ServiceConfig.fallback.server
  return {
    bindAddress := ← fields.withDefault "bind_address" base.bindAddress Node.text?
    port := ← fields.withDefault "port" base.port (Node.natural? 65535) }

/-- The section as a part of a document. -/
def toBlock (config : ServerConfig) : Block :=
  .mapping [("bind_address", .text config.bindAddress), ("port", .word (Nat.repr config.port))]

/-- The section as a JSON value. -/
def toJson (config : ServerConfig) : Json :=
  .object [("bind_address", .string config.bindAddress), ("port", .whole config.port)]

end ServerConfig

namespace ServiceConfig

/-- Reads a section of a document. One that is left out has no fields. -/
def section? {α : Type} (document : Yaml.Document) (fields : Fields) (name : String)
    (names : List String) (read : Fields → Option α) : Option α :=
  match fields.value? name with
  | none => read []
  | some node => (document.fields? names node).bind read

/-- Reads a configuration from a document. -/
def ofDocument? (document : Yaml.Document) : Option ServiceConfig := do
  let top ← document.fields? ["apiVersion", "kind", "metadata", "spec"] document.root
  let apiVersion ← top.required "apiVersion" Node.text?
  let kind ← top.required "kind" Node.text?
  let described ← top.required "metadata" (document.fields? ["name", "version"])
  let spec ← top.required "spec" (document.fields?
    ["database", "scheduler", "workflow_plane", "observability", "server"])
  return {
    apiVersion := apiVersion
    kind := kind
    name := ← described.required "name" Node.text?
    version := ← described.optional "version" Node.text?
    database :=
      ← section? document spec "database" ["url", "max_connections"] DatabaseConfig.ofFields?
    scheduler := ← section? document spec "scheduler"
      ["enabled", "poll_interval_seconds", "lock_key"] SchedulerConfig.ofFields?
    plane := ← section? document spec "workflow_plane"
      ["base_url", "workflow_template", "api_token", "request_timeout_seconds"]
      PlaneConfig.ofFields?
    observability := ← section? document spec "observability"
      ["log_level", "log_format", "metrics_port"] ObservabilityConfig.ofFields?
    server := ← section? document spec "server" ["bind_address", "port"] ServerConfig.ofFields? }

/-- Reads the text of a configuration. -/
def parse? (text : String) : Option ServiceConfig := (Yaml.Document.parse? text).bind ofDocument?

/-- The entries of the document of a configuration. What is not set is left out. -/
def entries (config : ServiceConfig) : List (String × Block) :=
  [("apiVersion", .text config.apiVersion), ("kind", .text config.kind),
    ("metadata", .mapping (("name", .text config.name)
      :: (config.version.map fun version => ("version", Block.text version)).toList)),
    ("spec", .mapping [("database", config.database.toBlock),
      ("scheduler", config.scheduler.toBlock), ("workflow_plane", config.plane.toBlock),
      ("observability", config.observability.toBlock), ("server", config.server.toBlock)])]

/-- The text of a configuration. -/
def render (config : ServiceConfig) : String := Block.render config.entries

/-- A configuration as a JSON value. -/
def toJson (config : ServiceConfig) : Json :=
  .object [("apiVersion", .string config.apiVersion), ("kind", .string config.kind),
    ("metadata", .object (("name", .string config.name)
      :: (config.version.map fun version => ("version", Json.string version)).toList)),
    ("spec", .object [("database", config.database.toJson),
      ("scheduler", config.scheduler.toJson), ("workflow_plane", config.plane.toJson),
      ("observability", config.observability.toJson), ("server", config.server.toJson)])]

end ServiceConfig

end TraceWatch
