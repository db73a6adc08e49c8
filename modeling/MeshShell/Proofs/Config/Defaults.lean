import MeshShell.Proofs.Config.Tunables
import MeshShell.Proofs.Files.Writing
import MeshShell.Proofs.Toml.Tables

/-! # Writing the defaults changes nothing

The file with the defaults of an environment is read as these defaults, whatever
text the environment has in them. What the environment says beyond them is in no
file, and is looked up whenever the file is read.
-/
namespace MeshShell

open Toml Toml.Printer

/-- The settings of a section in the order in which they are written. -/
def Division.tunables : Division → List Tunable
  | .timeouts => [.resolveSecs, .linkSecs, .pollIntervalMs, .probeMillis]
  | .shell => [.term, .defaultRows, .defaultCols]
  | .discovery => [.maxAgeSecs]

theorem Tunable.bare_key (t : Tunable) : Bare t.key.1 := by
  cases t <;> decide

theorem Tunable.admits_of_fits {c : BridgeConfig} {t : Tunable} (h : (t.of c).Fits) :
    t.Admits (t.of c) := by
  cases t with
  | term => trivial
  | defaultRows => exact c.shell.defaultRows.toNat_lt
  | defaultCols => exact c.shell.defaultCols.toNat_lt
  | _ => exact Nat.lt_trans h (by decide)

namespace Division

theorem bare_key (division : Division) : Bare division.key.1 := by
  cases division <;> decide

/-- What is written of a section. -/
def group (c : BridgeConfig) (division : Division) : Group :=
  { name := division.key.1, isRow := false,
    settings := division.tunables.map fun t => (t.key.1, t.of c) }

theorem nodup_group (c : BridgeConfig) (division : Division) :
    ((division.group c).settings.map (·.1)).Nodup := by
  have hkeys : (division.tunables.map (·.key.1)).Nodup := by
    cases division <;> decide
  simpa [group, Function.comp_def] using hkeys

theorem lookup_group (c : BridgeConfig) (t : Tunable) :
    (entriesOf (t.division.group c).settings).lookup t.key.1 = some (t.of c).value := by
  cases t <;> rfl

end Division

namespace BridgeConfig

variable {c : BridgeConfig}

theorem groups_eq (c : BridgeConfig) :
    c.groups = [Division.timeouts, .shell, .discovery].map (Division.group c) := rfl

theorem wellFormed_groups (h : ∀ t : Tunable, (t.of c).Fits) : ∀ g ∈ c.groups, WellFormed g := by
  intro g hg
  rw [groups_eq] at hg
  obtain ⟨division, -, rfl⟩ := List.mem_map.mp hg
  refine ⟨division.bare_key, fun p hp => ?_⟩
  obtain ⟨t, -, rfl⟩ := List.mem_map.mp hp
  exact ⟨t.bare_key, h t⟩

/-- The document that is read from the text of a configuration. -/
def document (c : BridgeConfig) : Toml :=
  .table .header (c.groups.map fun g => (g.name, .table .header (entriesOf g.settings)))

theorem parse?_text (h : ∀ t : Tunable, (t.of c).Fits) : Toml.parse? c.text = some c.document := by
  have hgroups : ∀ g ∈ c.groups, g.isRow = false ∧ (g.settings.map (·.1)).Nodup := by
    intro g hg
    rw [groups_eq] at hg
    obtain ⟨division, -, rfl⟩ := List.mem_map.mp hg
    exact ⟨rfl, division.nodup_group c⟩
  have hnames : c.groups.Pairwise (·.name ≠ ·.name) := by
    have hkeys : [Division.timeouts, .shell, .discovery].Pairwise (·.key.1 ≠ ·.key.1) := by decide
    rw [groups_eq, List.pairwise_map]
    exact hkeys
  obtain ⟨last, hlast⟩ := foldlM_tables hgroups hnames (fun _ _ => List.lookup_nil) []
  rw [Toml.parse?, text, String.toList_ofList, document_groups (wellFormed_groups h), Option.bind_eq_bind,
    Option.bind_some, ofStatements?, Building.empty, hlast]
  rfl

theorem ofToml?_document (d : BridgeConfig) (h : ∀ t : Tunable, (t.of c).Fits) :
    ofToml? d c.document = some c := by
  refine ofToml?_eq_some_iff.mpr fun t => ⟨some (t.of c).value, ?_, .value (Tunable.admits_of_fits (h t))⟩
  refine ⟨_, fun name _ => (entriesOf (t.division.group c).settings).lookup name, rfl, ?_,
    Division.lookup_group c t⟩
  cases t <;> rfl

variable {env : Environment} {f g : Files} {path : String}

theorem fits_default (env : Environment) (t : Tunable) : (t.of (default env)).Fits := by
  cases t <;> simp [Setting.Fits, Tunable.of, default]

theorem writeDefaultIfMissing_there (h : f.hasEntry (filePath env) = true) :
    (writeDefaultIfMissing env).run f = .ok (filePath env) f := by
  -- Reading the file system comes first, so that the run is a conditional over `f`.
  exact congrFun (if_pos h) f

/-- Where nothing is, writing goes through only if the defaults were written as a whole. -/
theorem write_of_writeDefaultIfMissing (hmissing : f.hasEntry (filePath env) = false)
    (h : (writeDefaultIfMissing env).run f = .ok path g) : path = filePath env ∧ ∃ above : Files,
      above.write path (Utf8.encode (default env).text) sharedMode = .ok g := by
  obtain ⟨_, _, hget, h⟩ := Files.action_bind_ok h
  cases hget
  let content := Utf8.encode (default env).text
  let finish : ConfigAction String := do
    (Files.writeFile (filePath env) content sharedMode).adaptExcept (.writeFailed (filePath env))
    return filePath env
  have hfinish : ∀ above : Files, finish above = .ok path g →
      path = filePath env ∧ above.write path content sharedMode = .ok g := by
    intro above h
    obtain ⟨⟨⟩, after, hwrite, h⟩ := Files.action_bind_ok h
    cases h
    exact ⟨rfl, Files.writeFile_ok (Files.action_adaptExcept_ok hwrite)⟩
  rw [hmissing, if_neg Bool.false_ne_true] at h
  cases hparent : Path.parent? (filePath env) with
  | some parent =>
    rw [hparent] at h
    obtain ⟨⟨⟩, above, -, h⟩ := Files.action_bind_ok h
    exact ⟨(hfinish above h).1, above, (hfinish above h).2⟩
  | none =>
    rw [hparent] at h
    exact ⟨(hfinish f h).1, f, (hfinish f h).2⟩

theorem loadFrom_missing (h : f.hasEntry path = false) :
    loadFrom env f path = .ok ((default env).withEnvironment env) := by
  rw [loadFrom, fromFile, h]
  rfl

theorem loadFrom_text (hthere : f.hasEntry path = true) (hread : f.readText path = .ok c.text)
    (h : ∀ t : Tunable, (t.of c).Fits) : loadFrom env f path = .ok (c.withEnvironment env) := by
  rw [loadFrom, fromFile, if_pos hthere, hread]
  dsimp only
  rw [parse?_text h, Option.bind_some, ofToml?_document _ h]
  rfl

/-- What writing the defaults of `env` has changed: the tree was `f` and is `g`. -/
structure Unobtrusive (env : Environment) (f g : Files) (path : String) : Prop where
  returned : path = filePath env
  written : g.read path = .ok (Utf8.encode (default env).text)
  /-- What is loaded is what was loaded when there was no file. -/
  loaded : ∃ c, load env f = .ok c ∧ loadFrom env g path = .ok c
  /-- The file has nothing of what the environment decides beyond the defaults. -/
  elsewhere : ∀ env' : Environment, loadFrom env' g path = .ok ((default env).withEnvironment env')
  again : ∀ env' : Environment, filePath env' = path → (writeDefaultIfMissing env').run g = .ok path g

theorem unobtrusive (env : Environment) (f g : Files) (path : String)
    (hmissing : f.hasEntry (filePath env) = false)
    (h : (writeDefaultIfMissing env).run f = .ok path g) : Unobtrusive env f g path := by
  obtain ⟨hpath, above, hwrite⟩ := write_of_writeDefaultIfMissing hmissing h
  have hread : g.read path = .ok (Utf8.encode (default env).text) := Files.read_write hwrite
  have hthere : g.hasEntry path = true := Files.hasEntry_of_read hread
  have hload : ∀ env' : Environment, loadFrom env' g path = .ok ((default env).withEnvironment env') :=
    fun env' => loadFrom_text hthere (Files.readText_write hwrite) (fits_default env)
  refine ⟨hpath, hread, ⟨_, loadFrom_missing hmissing, hload env⟩, hload, fun env' hsame => ?_⟩
  rw [← hsame] at hthere ⊢
  exact writeDefaultIfMissing_there hthere

/-- An environment with quotes of both kinds, a backslash, line ends and a control character in its
terminal, and a variable that decides a setting. -/
def awkward : Environment :=
  [("TERM", "\"\"\"'''\\\n\x0d\t\x01"), ("XDG_CONFIG_HOME", "cfg"),
    ("HAVEN_TIMEOUTS__LINK_SECS", "7")]

theorem unobtrusive_awkward : ∃ path g, (writeDefaultIfMissing awkward).run Files.empty = .ok path g ∧
    Unobtrusive awkward Files.empty g path := by
  have hmissing : Files.empty.hasEntry (filePath awkward) = false := by decide +kernel
  have hdone : Files.isDone ((writeDefaultIfMissing awkward).run Files.empty) = true := by decide +kernel
  cases hrun : (writeDefaultIfMissing awkward).run Files.empty with
  | ok path g => exact ⟨path, g, rfl, unobtrusive awkward Files.empty g path hmissing hrun⟩
  | error cause g =>
    rw [hrun] at hdone
    cases hdone

end BridgeConfig

end MeshShell
