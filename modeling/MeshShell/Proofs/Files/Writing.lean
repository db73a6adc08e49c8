import MeshShell.Proofs.Files.Frame

/-! # What is written can be read

A file that was written is found again under its path, since the walk to its
directory passes by nothing that has changed.
-/
namespace MeshShell.Files

variable {f g : Files} {place : Place}

/-- The directories of one tree are directories of the other. -/
def KeepsDirectories (f g : Files) : Prop :=
  ∀ place, f.get? place = some .directory → g.get? place = some .directory

theorem enter_ok (h : f.enter place = .ok ()) : f.get? place = some .directory := by
  unfold enter at h
  split at h
  · assumption
  · cases h
  · cases h

theorem directory_of_step {name : String} {next : Place} (h : f.step place name = .ok next) :
    f.get? place = some .directory := by
  obtain ⟨⟨⟩, henter, -⟩ := bind_ok h
  exact enter_ok henter

theorem step_of_directory (hd : g.get? place = some .directory) {name : String} {next : Place}
    (h : f.step place name = .ok next) : g.step place name = .ok next := by
  obtain ⟨⟨⟩, -, hrest⟩ := bind_ok h
  rw [Files.step, Files.enter, hd]
  exact hrest

theorem KeepsDirectories.step (hk : KeepsDirectories f g) {name : String} {next : Place}
    (h : f.step place name = .ok next) : g.step place name = .ok next :=
  step_of_directory (hk place (directory_of_step h)) h

theorem KeepsDirectories.walk (hk : KeepsDirectories f g) {names : List String} {next : Place}
    (h : names.foldlM f.step place = .ok next) : names.foldlM g.step place = .ok next := by
  induction names generalizing place with
  | nil => exact h
  | cons name names ih =>
    rw [List.foldlM_cons] at h ⊢
    obtain ⟨above, hstep, hrest⟩ := bind_ok h
    rw [hk.step hstep]
    exact ih hrest

theorem keepsDirectories_set {entry : FileEntry} (h : f.get? place ≠ some .directory) :
    KeepsDirectories f (f.set place entry) := by
  intro other hother
  have hne : other ≠ place := by
    rintro rfl
    exact h hother
  rw [get?_set_ne hne, hother]

theorem resolve_eq {path name : String} {directory : Place} (hd : f.directoryOf path = .ok directory)
    (hlast : (Path.names path).getLast? = some name) : f.resolve path = f.step directory name := by
  obtain ⟨before, hnames⟩ := List.getLast?_eq_some_iff.mp hlast
  obtain ⟨start, hstart, hrest⟩ := bind_ok hd
  obtain ⟨above, hwalk, hrest⟩ := bind_ok hrest
  obtain ⟨⟨⟩, -, hdone⟩ := bind_ok hrest
  obtain rfl := Except.ok.inj hdone
  rw [hnames, List.dropLast_concat] at hwalk
  rw [Files.resolve, hstart, hnames]
  show (before ++ [name]).foldlM f.step start = _
  rw [List.foldlM_append, hwalk]
  show [name].foldlM f.step above = _
  rw [List.foldlM_cons]
  cases f.step above name <;> rfl

/-- A path that ends in a name for something new leads into a directory. -/
theorem directoryOf_of_resolve {path name : String} (hn : newName? path = some name)
    (hr : f.resolve path = .ok place) : ∃ directory, f.directoryOf path = .ok directory ∧
      place = name :: directory ∧ f.step directory name = .ok place := by
  obtain ⟨before, hnames⟩ := List.getLast?_eq_some_iff.mp (newName?_eq_some_iff.mp hn).1
  obtain ⟨start, hstart, hwalk⟩ := bind_ok hr
  rw [hnames, List.foldlM_append] at hwalk
  obtain ⟨directory, habove, hlast⟩ := bind_ok hwalk
  rw [List.foldlM_cons] at hlast
  obtain ⟨next, hstep, hdone⟩ := bind_ok hlast
  obtain rfl := Except.ok.inj hdone
  refine ⟨directory, ?_, step_new hn hstep, hstep⟩
  rw [directoryOf, hstart, hnames, List.dropLast_concat]
  show (before.foldlM f.step start >>= fun place => f.enter place >>= fun _ => pure place) = _
  rw [habove]
  show (f.enter directory >>= fun _ => pure directory) = _
  rw [Files.enter, directory_of_step hstep]
  rfl

theorem directory_above {path : String} (hn : (newName? path).isSome = true)
    (hr : f.resolve path = .ok place) :
    ∃ name above, place = name :: above ∧ f.get? above = some .directory := by
  obtain ⟨name, hn⟩ := Option.isSome_iff_exists.mp hn
  obtain ⟨above, -, hplace, hstep⟩ := directoryOf_of_resolve hn hr
  exact ⟨name, above, hplace, directory_of_step hstep⟩

/-- How a write goes that succeeds. -/
theorem write_ok {path : String} {content : Bytes} {mode : Nat} (h : f.write path content mode = .ok g) :
    ∃ place kept, (newName? path).isSome = true ∧ f.resolve path = .ok place ∧ place ≠ [] ∧
      Path.hasTrailingSlash path = false ∧
      (f.get? place = none ∧ kept = mode ∨ ∃ old, f.get? place = some (.file old kept)) ∧
      g = f.set place (.file content kept) := by
  obtain ⟨directory, hdirectory, h⟩ := bind_ok h
  cases hn : newName? path with
  | none =>
    rw [hn] at h
    cases h
  | some name =>
    rw [hn] at h
    dsimp only at h
    split at h
    · cases h
    · rename_i hslash
      obtain ⟨place, hstep, h⟩ := bind_ok h
      have hplace : f.resolve path = .ok place :=
        (resolve_eq hdirectory (newName?_eq_some_iff.mp hn).1).trans hstep
      have hbare : Path.hasTrailingSlash path = false := by simpa using hslash
      have hne : place ≠ [] := by simp [step_new hn hstep]
      split at h
      · cases h
      · rename_i old kept hentry
        split at h
        · exact ⟨place, kept, rfl, hplace, hne, hbare, .inr ⟨old, hentry⟩, (Except.ok.inj h).symm⟩
        · cases h
      · rename_i hentry
        exact ⟨place, mode, rfl, hplace, hne, hbare, .inl ⟨hentry, rfl⟩, (Except.ok.inj h).symm⟩

theorem device_write {path : String} {content : Bytes} {mode : Nat}
    (h : f.write path content mode = .ok g) : g.device = f.device := by
  obtain ⟨_, _, -, -, -, -, -, rfl⟩ := write_ok h
  rfl

theorem not_directory {kept : Nat} {P : Prop}
    (h : f.get? place = none ∧ P ∨ ∃ old, f.get? place = some (.file old kept)) :
    f.get? place ≠ some .directory := by
  rcases h with ⟨h, -⟩ | ⟨old, h⟩ <;> simp [h]

theorem KeepsDirectories.resolve (hk : KeepsDirectories f g) (hcurrent : g.current = f.current)
    {path : String} (h : f.resolve path = .ok place) : g.resolve path = .ok place := by
  obtain ⟨start, hstart, hwalk⟩ := bind_ok h
  have hstart' : g.start path = .ok start := by
    rw [← hstart, Files.start, Files.start, hcurrent]
  rw [Files.resolve, hstart']
  exact hk.walk hwalk

theorem stat_ok_iff {path : String} {entry : FileEntry} : f.stat path = .ok (place, entry) ↔
    f.resolve path = .ok place ∧ f.get? place = some entry ∧
      (entry = .directory ∨ Path.hasTrailingSlash path = false) := by
  unfold stat
  cases f.resolve path with
  | error e => simp [bind, Except.bind]
  | ok found =>
    simp only [bind, Except.bind, pure, Except.pure, throw, throwThe, MonadExceptOf.throw]
    cases hentry : f.get? found with
    | none => grind
    | some other => cases other <;> grind

theorem read_of_stat {path : String} {content : Bytes} {mode : Nat}
    (h : f.stat path = .ok (place, .file content mode)) : f.read path = .ok content := by
  rw [read, h]
  rfl

theorem readPermitted_of_stat {path : String} {content : Bytes} {mode : Nat}
    (h : f.stat path = .ok (place, .file content mode)) :
    f.readPermitted path = if mayRead mode then .ok content else .error .notPermitted := by
  rw [readPermitted, h]
  rfl

theorem read_write {path : String} {content : Bytes} {mode : Nat} (h : f.write path content mode = .ok g) :
    g.read path = .ok content := by
  obtain ⟨place, kept, -, hplace, hne, hslash, hentry, rfl⟩ := write_ok h
  have hk : KeepsDirectories f (f.set place (.file content kept)) :=
    keepsDirectories_set (not_directory hentry)
  exact read_of_stat (stat_ok_iff.mpr ⟨hk.resolve rfl hplace, get?_set_self hne, .inr hslash⟩)

theorem readText_write {path s : String} {mode : Nat} (h : f.write path (Utf8.encode s) mode = .ok g) :
    g.readText path = .ok s := by
  rw [readText, read_write h]
  simp [Utf8.decode?_encode, bind, Except.bind, pure, Except.pure]

theorem hasEntry_of_read {path : String} {content : Bytes} (h : f.read path = .ok content) :
    f.hasEntry path = true := by
  obtain ⟨found, hfound, -⟩ := bind_ok h
  rw [hasEntry, hfound]
  rfl

section Actions

variable {ε ε' α β : Type} {x : EStateM ε Files α}

theorem action_bind_ok {k : α → EStateM ε Files β} {b : β} (h : (x >>= k) f = .ok b g) :
    ∃ a between, x f = .ok a between ∧ k a between = .ok b g := by
  change EStateM.bind x k f = .ok b g at h
  unfold EStateM.bind at h
  split at h
  · rename_i a between hx
    exact ⟨a, between, hx, h⟩
  · cases h

theorem action_adaptExcept_ok {cause : ε → ε'} {a : α} (h : x.adaptExcept cause f = .ok a g) :
    x f = .ok a g := by
  unfold EStateM.adaptExcept at h
  split at h
  · cases h
  · rename_i hx
    rw [hx]
    cases h
    rfl

/-- Whether an operation went through. -/
def isDone (r : EStateM.Result ε Files α) : Bool :=
  match r with
  | .ok .. => true
  | .error .. => false

theorem eq_ok_after {r : EStateM.Result ε Files Unit} (h : isDone r = true) : r = .ok () (after r) := by
  cases r with
  | ok _ g => rfl
  | error e g => cases h

/-- Why an operation failed. -/
def failure? (r : EStateM.Result ε Files α) : Option ε :=
  match r with
  | .ok .. => none
  | .error e _ => some e

theorem eq_error_after {r : EStateM.Result ε Files α} {e : ε} (h : failure? r = some e) :
    r = .error e (after r) := by
  cases r with
  | ok => cases h
  | error cause g =>
    obtain rfl := Option.some.inj h
    rfl

theorem taken_eq {d : Device} {content : Bytes} (h : d.takesAll content = true) :
    d.taken content = content := by
  obtain ⟨room, keeps⟩ := d
  cases room with
  | none => rfl
  | some n => exact List.take_of_length_le (of_decide_eq_true h)

theorem writeFile_ok {path : String} {content : Bytes} {mode : Nat}
    (h : writeFile path content mode f = .ok () g) : f.write path content mode = .ok g := by
  unfold writeFile at h
  split at h
  · cases h
  · rename_i hwrite
    split at h
    · rename_i htaken
      cases h
      rwa [taken_eq htaken] at hwrite
    · cases h

end Actions

end MeshShell.Files
