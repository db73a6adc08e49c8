import MeshShell.Config.Environment
import MeshShell.Config.Error
import MeshShell.Text.Decimal
import MeshShell.Toml.Printer

/-! # Settings of the session layer

Each setting comes from its environment variable, else from the file, else it
has its default. A file that is not there gives nothing; one that cannot be
read or understood is an error.
-/
namespace MeshShell

structure Timeouts where
  resolveSecs : Nat
  linkSecs : Nat
  pollIntervalMs : Nat
  probeMillis : Nat
  deriving DecidableEq, Repr

structure ShellSettings where
  term : String
  defaultRows : UInt16
  defaultCols : UInt16
  deriving DecidableEq, Repr

structure BridgeConfig where
  timeouts : Timeouts
  shell : ShellSettings
  /-- Endpoints that are not announced again for so long are dropped. Zero keeps them. -/
  maxAgeSecs : Nat
  deriving DecidableEq, Repr

namespace Timeouts

/-- Spans in milliseconds. -/
def resolve (t : Timeouts) : Nat := 1000 * t.resolveSecs
def link (t : Timeouts) : Nat := 1000 * t.linkSecs
def poll (t : Timeouts) : Nat := max t.pollIntervalMs 1
def probe (t : Timeouts) : Nat := t.probeMillis

end Timeouts

namespace Toml

/-- A setting that may be missing. -/
def optional? {α : Type} (group : Section) (name : String) (place : Nat) (read : Toml → Option α)
    (default : α) : Option α :=
  match group name place with
  | none => some default
  | some v => read v

/-- A setting that must be there. -/
def required? {α : Type} (group : Section) (name : String) (place : Nat) (read : Toml → Option α) :
    Option α :=
  (group name place).bind read

def word64? : Toml → Option Nat := natural? (Nat.pow 2 64 - 1)

end Toml

namespace BridgeConfig

def maxAge? (c : BridgeConfig) : Option Nat :=
  if 0 < c.maxAgeSecs then some (1000 * c.maxAgeSecs) else none

def default (env : Environment) : BridgeConfig :=
  { timeouts := { resolveSecs := 15, linkSecs := 30, pollIntervalMs := 100, probeMillis := 2000 }
    shell :=
      { term := (env.get? "TERM").getD "xterm-256color", defaultRows := 24, defaultCols := 80 }
    maxAgeSecs := 0 }

def timeouts? (d : Timeouts) (v : Toml) : Option Timeouts := do
  let group ← v.section?
  return {
    resolveSecs := ← Toml.optional? group "resolve_secs" 0 Toml.word64? d.resolveSecs
    linkSecs := ← Toml.optional? group "link_secs" 1 Toml.word64? d.linkSecs
    pollIntervalMs := ← Toml.optional? group "poll_interval_ms" 2 Toml.word64? d.pollIntervalMs
    probeMillis := ← Toml.optional? group "probe_millis" 3 Toml.word64? d.probeMillis }

def shell? (d : ShellSettings) (v : Toml) : Option ShellSettings := do
  let group ← v.section?
  return {
    term := ← Toml.optional? group "term" 0 Toml.string? d.term
    defaultRows := ← Toml.optional? group "default_rows" 1 Toml.word16? d.defaultRows
    defaultCols := ← Toml.optional? group "default_cols" 2 Toml.word16? d.defaultCols }

def maxAgeSecs? (d : Nat) (v : Toml) : Option Nat := do
  let group ← v.section?
  Toml.optional? group "max_age_secs" 0 Toml.word64? d

/-- The settings of a document, with those of `d` where it has none. -/
def ofToml? (d : BridgeConfig) (v : Toml) : Option BridgeConfig := do
  let group ← v.section?
  return {
    timeouts := ← Toml.optional? group "timeouts" 0 (timeouts? d.timeouts) d.timeouts
    shell := ← Toml.optional? group "shell" 1 (shell? d.shell) d.shell
    maxAgeSecs := ← Toml.optional? group "discovery" 2 (maxAgeSecs? d.maxAgeSecs) d.maxAgeSecs }

open Toml.Printer in
def groups (c : BridgeConfig) : List Group :=
  [{ name := "timeouts", isRow := false
     settings :=
      [("resolve_secs", .natural c.timeouts.resolveSecs),
        ("link_secs", .natural c.timeouts.linkSecs),
        ("poll_interval_ms", .natural c.timeouts.pollIntervalMs),
        ("probe_millis", .natural c.timeouts.probeMillis)] },
    { name := "shell", isRow := false
      settings :=
      [("term", .text c.shell.term), ("default_rows", .natural c.shell.defaultRows.toNat),
        ("default_cols", .natural c.shell.defaultCols.toNat)] },
    { name := "discovery", isRow := false
      settings := [("max_age_secs", .natural c.maxAgeSecs)] }]

def text (c : BridgeConfig) : String := String.ofList (Toml.Printer.document c.groups)

/-- The number in a variable. One that is no number counts as not set. -/
def number? (env : Environment) (name : String) : Option Nat :=
  (env.get? name).bind fun s => Decimal.word64? s.toList

def withEnvironment (env : Environment) (c : BridgeConfig) : BridgeConfig :=
  { timeouts :=
      { c.timeouts with
        resolveSecs := (number? env "HAVEN_TIMEOUTS__RESOLVE_SECS").getD c.timeouts.resolveSecs
        linkSecs := (number? env "HAVEN_TIMEOUTS__LINK_SECS").getD c.timeouts.linkSecs }
    shell := { c.shell with term := (env.get? "HAVEN_SHELL__TERM").getD c.shell.term }
    maxAgeSecs := (number? env "HAVEN_DISCOVERY__MAX_AGE_SECS").getD c.maxAgeSecs }

/-- Where the file is. -/
def filePath (env : Environment) : String :=
  let home := fun _ : Unit => Path.join ((env.get? "HOME").getD "/tmp") ".config"
  let directory := fun _ : Unit => Path.join ((env.get? "XDG_CONFIG_HOME").getD (home ())) "haven"
  (env.get? "HAVEN_CONFIG").getD (Path.join (directory ()) "bridge.toml")

/-- What the file gives, before the environment is looked at. -/
def fromFile (env : Environment) (files : Files) (path : String) :
    Except ConfigError BridgeConfig :=
  if files.hasEntry path then
    match files.readText path with
    | .error cause => .error (.readFailed path cause)
    | .ok text =>
      match (Toml.parse? text).bind (ofToml? (default env)) with
      | none => .error (.parseFailed path)
      | some c => .ok c
  else .ok (default env)

def loadFrom (env : Environment) (files : Files) (path : String) :
    Except ConfigError BridgeConfig :=
  (fromFile env files path).map (withEnvironment env)

def load (env : Environment) (files : Files) : Except ConfigError BridgeConfig :=
  loadFrom env files (filePath env)

/-- The mode of a file that everyone may read. -/
def sharedMode : Nat := 0o644

/-- Writes the defaults unless there is something at the path already. -/
def writeDefaultIfMissing (env : Environment) : ConfigAction String := do
  let path := filePath env
  let files ← get
  if files.hasEntry path then return path
  let failed := ConfigError.writeFailed path
  match Path.parent? path with
  | some parent => (Files.ensureDirectories parent).adaptExcept failed
  | none => pure ()
  let content := Utf8.encode (default env).text
  (Files.writeFile path content sharedMode).adaptExcept failed
  return path

end BridgeConfig

end MeshShell
