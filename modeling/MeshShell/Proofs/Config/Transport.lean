import MeshShell.Config.Transport
import MeshShell.Proofs.Files.Writing
import MeshShell.Proofs.Toml.Tables

/-! # The configuration of the transport is read back

Whatever host a configuration names, it is read back from its text, and from
the file that it was written to.
-/
namespace MeshShell.TransportConfig

open Toml Toml.Printer

variable (c : TransportConfig)

theorem bare_names : Bare "transport" ∧ Bare "interfaces" := by decide

/-- The table of the transport itself. -/
def settings : List (String × Setting) :=
  [("mode", .text c.mode.name), ("enable_transport", .boolean c.enableTransport),
    ("share_instance", .boolean c.shareInstance),
    ("shared_instance_port", .natural c.sharedInstancePort.toNat),
    ("instance_control_port", .natural c.instanceControlPort.toNat)]

theorem groups_eq :
    c.groups = ⟨"transport", false, c.settings⟩ :: c.interfaces.map interfaceGroup := rfl

theorem wellFormed_groups : ∀ g ∈ c.groups, WellFormed g := by
  have hnames : ∀ name ∈ ["mode", "enable_transport", "share_instance", "shared_instance_port",
      "instance_control_port", "name", "kind", "enabled", "target_host", "target_port"], Bare name := by
    decide
  intro g hg
  rw [groups_eq] at hg
  rcases List.mem_cons.mp hg with rfl | hg
  · refine ⟨bare_names.1, ?_⟩
    simp [settings, hnames]
  · obtain ⟨i, -, rfl⟩ := List.mem_map.mp hg
    refine ⟨bare_names.2, ?_⟩
    simp [interfaceGroup, hnames]

/-- The entries of the document. The array of interfaces is there if there are any. -/
def entries : Entries :=
  ("transport", .table .header (entriesOf c.settings)) ::
    match c.interfaces with
    | [] => []
    | is => [("interfaces", .tables (is.map fun i => entriesOf (interfaceGroup i).settings))]

theorem ofStatements?_groups : ofStatements? (c.groups.flatMap statementsOf) = some c.entries := by
  let transport : String × Toml := ("transport", .table .header (entriesOf c.settings))
  have hfirst : (statementsOf ⟨"transport", false, c.settings⟩).foldlM Building.add ⟨[], []⟩ =
      some ⟨[transport], ["transport"]⟩ := @foldlM_table [] ⟨"transport", false, c.settings⟩ rfl rfl (by simp [settings]) []
  have hnew : List.lookup "interfaces" [transport] = none := rfl
  have hdistinct : ∀ i : Interface, ((interfaceGroup i).settings.map (·.1)).Nodup := fun i => by
    simp [interfaceGroup]
  rw [ofStatements?, groups_eq, List.flatMap_cons, List.foldlM_append, Building.empty, hfirst,
    Option.bind_eq_bind, Option.bind_some, entries]
  cases c.interfaces with
  | nil => rfl
  | cons i is =>
    have hrow : (statementsOf (interfaceGroup i)).foldlM Building.add ⟨[transport], ["transport"]⟩ =
        some ⟨[transport] ++ [("interfaces", .tables [entriesOf (interfaceGroup i).settings])],
          ["interfaces"]⟩ := foldlM_firstRow rfl hnew (hdistinct i) _
    have hgroups : ∀ g ∈ is.map interfaceGroup,
        g.isRow = true ∧ g.name = "interfaces" ∧ (g.settings.map (·.1)).Nodup := by
      intro g hg
      obtain ⟨j, -, rfl⟩ := List.mem_map.mp hg
      exact ⟨rfl, rfl, hdistinct j⟩
    obtain ⟨last, hrows⟩ := foldlM_rows hnew hgroups [entriesOf (interfaceGroup i).settings] ["interfaces"]
    rw [List.map_cons, List.flatMap_cons, List.foldlM_append, hrow, Option.bind_eq_bind,
      Option.bind_some, hrows]
    simp [transport, Function.comp_def]

theorem word16?_natural (n : UInt16) : Toml.word16? (Setting.natural n.toNat).value = some n := by
  have hn := n.toNat_lt
  have hrange : 0 ≤ (n.toNat : Int) ∧ (n.toNat : Int) ≤ (65535 : Nat) := by omega
  simp only [Setting.value, Toml.word16?, Toml.natural?, if_pos hrange]
  simp

theorem interface?_entriesOf (i : Interface) :
    interface? (.table .header (entriesOf (interfaceGroup i).settings)) = some i := by
  obtain ⟨name, ⟨⟩, enabled, host, port⟩ := i
  have hport := word16?_natural port
  simp [interface?, Toml.section?, entriesOf, interfaceGroup, Toml.required?, List.lookup_cons, Setting.value,
    Toml.string?, kind?, Toml.choice?, InterfaceKind.name, InterfaceKind.ofName?, Toml.bool?] at hport ⊢
  simp [hport]

theorem interfaces?_rows (is : List Interface) :
    interfaces? (.tables (is.map fun i => entriesOf (interfaceGroup i).settings)) = some is := by
  have hrows := mapM_map interface?_entriesOf is
  simpa only [interfaces?, Toml.rows?, List.map_map, Function.comp_def, Option.bind_eq_bind,
    Option.bind_some] using hrows

theorem ofToml?_entries : ofToml? (.table .header c.entries) = some c := by
  obtain ⟨mode, enable, share, port, control, interfaces⟩ := c
  have hport := word16?_natural port
  have hcontrol := word16?_natural control
  have hinterfaces : Toml.optional? (fun name _ => List.lookup name
      (entries ⟨mode, enable, share, port, control, interfaces⟩)) "interfaces" 1 interfaces? [] =
        some interfaces := by
    cases interfaces with
    | nil => rfl
    | cons i is => exact interfaces?_rows (i :: is)
  have hgroup : List.lookup "transport" (entries ⟨mode, enable, share, port, control, interfaces⟩) =
      some (.table .header (entriesOf (settings ⟨mode, enable, share, port, control, interfaces⟩))) := rfl
  simp only [ofToml?, Toml.section?, Option.bind_eq_bind, Option.bind_some, hgroup, hinterfaces]
  have hmode : mode? (Setting.text mode.name).value = some mode := InstanceMode.ofName?_name mode
  have hboolean : ∀ b, (Setting.boolean b).value.bool? = some b := fun _ => rfl
  simp [Toml.required?, entriesOf, settings, List.lookup_cons, hport, hcontrol, hmode, hboolean]

theorem parse?_text : parse? c.text = some c := by
  rw [parse?, text, Toml.parse?, String.toList_ofList, document_groups c.wellFormed_groups]
  simp [ofStatements?_groups, ofToml?_entries]

theorem write_of_writeTo {directory path : String} {f g : Files}
    (h : (c.writeTo directory).run f = .ok path g) :
    ∃ above : Files, above.write (pathIn directory) (Utf8.encode c.text) BridgeConfig.sharedMode = .ok g := by
  obtain ⟨⟨⟩, above, -, h⟩ := Files.action_bind_ok h
  obtain ⟨⟨⟩, after, hwrite, h⟩ := Files.action_bind_ok h
  obtain rfl : after = g := by
    cases h
    rfl
  exact ⟨above, Files.writeFile_ok (Files.action_adaptExcept_ok hwrite)⟩

theorem readFrom_writeTo {directory path : String} {f g : Files}
    (h : (c.writeTo directory).run f = .ok path g) : readFrom g directory = .ok c := by
  obtain ⟨above, hwrite⟩ := c.write_of_writeTo h
  rw [readFrom, Files.readText_write hwrite]
  dsimp only
  rw [c.parse?_text]

/-- The configuration for a target is read back from the directory that it was written to, whatever
was there before. -/
theorem forTarget_read_back (mode : InstanceMode) (host : String) (port : UInt16)
    (directory path : String) (f g : Files)
    (h : ((forTarget mode host port).writeTo directory).run f = .ok path g) :
    readFrom g directory = .ok (forTarget mode host port) :=
  readFrom_writeTo _ h

/-- A host with quotes of both kinds, a backslash, line ends and a control character. -/
def awkwardHost : String := "\"\"\"'''\\\n\x0d\t\x01"

/-- A directory in which something else is the configuration. -/
def occupied : Files :=
  { entries := [(["config", "cfg", "work", "tmp"], .file [1, 2, 3] 0o600),
      (["cfg", "work", "tmp"], .directory), (["work", "tmp"], .directory), (["tmp"], .directory)]
    current := ["work", "tmp"] }

theorem forTarget_read_back_known :
    ∃ path g, ((forTarget .directGateway awkwardHost 4242).writeTo "cfg").run occupied = .ok path g ∧
      readFrom g "cfg" = .ok (forTarget .directGateway awkwardHost 4242) := by
  have hok : (match ((forTarget .directGateway awkwardHost 4242).writeTo "cfg").run occupied with
      | .ok _ _ => true
      | .error _ _ => false) = true := by decide +kernel
  cases hrun : ((forTarget .directGateway awkwardHost 4242).writeTo "cfg").run occupied with
  | ok path g =>
    exact ⟨path, g, rfl, forTarget_read_back .directGateway awkwardHost 4242 "cfg" path occupied g hrun⟩
  | error cause g =>
    rw [hrun] at hok
    cases hok

end MeshShell.TransportConfig
