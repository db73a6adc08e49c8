import MeshShell.Proofs.Files.Parents
import MeshShell.Proofs.Files.Writing

/-! # Making directories

Whoever makes a directory with those above it changes nothing that is there, and
what comes into being are directories of the paths above. So nothing new is at a
path that goes further down than all of these.
-/
namespace MeshShell.Files

variable {f g h : Files} {place : Place} {path : String} {allowed : Place → Prop}

/-- Whatever there is is in a directory. -/
def Rooted (f : Files) : Prop :=
  ∀ name place entry, f.get? (name :: place) = some entry → f.get? place = some .directory

theorem rooted_empty : Files.empty.Rooted := by
  intro name place entry he
  by_cases hwork : name :: place = ["work", "tmp"]
  · obtain ⟨-, rfl⟩ := List.cons.inj hwork
    rfl
  · by_cases htmp : name :: place = ["tmp"]
    · obtain ⟨-, rfl⟩ := List.cons.inj htmp
      rfl
    · have hnone : Files.empty.get? (name :: place) = none :=
        List.lookup_eq_none_iff.mpr (by simp [Files.empty, htmp, hwork])
      simp [hnone] at he

theorem Rooted.change (hf : f.Rooted) (hk : KeepsDirectories f g)
    (hnew : ∀ name place entry, g.get? (name :: place) = some entry → f.get? (name :: place) = none →
      f.get? place = some .directory) : g.Rooted := by
  intro name place entry he
  cases hold : f.get? (name :: place) with
  | none => exact hk place (hnew name place entry he hold)
  | some old => exact hk place (hf name place old hold)

theorem Rooted.set (hf : f.Rooted) {above : Place} {name : String} {entry : FileEntry}
    (hdirectory : f.get? above = some .directory) (hfile : f.get? (name :: above) ≠ some .directory) :
    (f.set (name :: above) entry).Rooted := by
  refine hf.change (keepsDirectories_set hfile) fun new place found he hfree => ?_
  by_cases hnew : new :: place = name :: above
  · obtain ⟨-, rfl⟩ := List.cons.inj hnew
    exact hdirectory
  · simp [get?_set_ne hnew, hfree] at he

theorem Rooted.write (hf : f.Rooted) {content : Bytes} {mode : Nat}
    (hw : f.write path content mode = .ok g) : g.Rooted := by
  obtain ⟨place, kept, hname, hplace, -, -, hentry, rfl⟩ := write_ok hw
  obtain ⟨name, above, rfl, hdirectory⟩ := directory_above hname hplace
  exact hf.set hdirectory (not_directory hentry)

/-- New directories, at places that are allowed, are the only thing that changes. -/
structure Grows (allowed : Place → Prop) (f g : Files) : Prop where
  current : g.current = f.current
  device : g.device = f.device
  kept : ∀ place entry, f.get? place = some entry → g.get? place = some entry
  made : ∀ place entry, g.get? place = some entry →
    f.get? place = some entry ∨ f.get? place = none ∧ entry = .directory ∧ allowed place
  rooted : f.Rooted → g.Rooted

theorem Grows.refl (allowed : Place → Prop) (f : Files) : Grows allowed f f :=
  ⟨rfl, rfl, fun _ _ h => h, fun _ _ h => .inl h, id⟩

theorem Grows.trans (hf : Grows allowed f g) (hg : Grows allowed g h) : Grows allowed f h where
  current := hg.current.trans hf.current
  device := hg.device.trans hf.device
  kept := fun place entry he => hg.kept place entry (hf.kept place entry he)
  made := by
    intro place entry he
    rcases hg.made place entry he with he | ⟨hfree, hdirectory, hallowed⟩
    · exact hf.made place entry he
    · refine .inr ⟨?_, hdirectory, hallowed⟩
      cases hold : f.get? place with
      | none => rfl
      | some old => simp [hf.kept place old hold] at hfree
  rooted := fun h => hg.rooted (hf.rooted h)

theorem Grows.keepsDirectories (hg : Grows allowed f g) : KeepsDirectories f g :=
  fun place => hg.kept place .directory

theorem Grows.file_iff (hg : Grows allowed f g) {content : Bytes} {mode : Nat} :
    g.get? place = some (.file content mode) ↔ f.get? place = some (.file content mode) := by
  refine ⟨fun he => ?_, hg.kept place _⟩
  rcases hg.made place _ he with he | ⟨-, hdirectory, -⟩
  · exact he
  · cases hdirectory

theorem grows_set {above : Place} {name : String} (hdirectory : f.get? above = some .directory)
    (hfree : f.get? (name :: above) = none) (hallowed : allowed (name :: above)) :
    Grows allowed f (f.set (name :: above) .directory) := by
  have hother : ∀ place entry, f.get? place = some entry → place ≠ name :: above := by
    rintro place entry he rfl
    simp [hfree] at he
  refine ⟨rfl, rfl, ?_, ?_, fun hf => hf.set hdirectory (by simp [hfree])⟩
  · intro place entry he
    rwa [get?_set_ne (hother place entry he)]
  · intro place entry he
    by_cases hne : place = name :: above
    · subst hne
      rw [get?_set_self (List.cons_ne_nil name above)] at he
      exact .inr ⟨hfree, (Option.some.inj he).symm, hallowed⟩
    · exact .inl (by rwa [get?_set_ne hne] at he)

theorem makeDirectory_ok (hm : f.makeDirectory path = .ok g) :
    ∃ place, (newName? path).isSome = true ∧ f.resolve path = .ok place ∧ f.get? place = none ∧
      g = f.set place .directory := by
  obtain ⟨directory, hdirectory, hm⟩ := bind_ok hm
  cases hn : newName? path with
  | none =>
    rw [hn] at hm
    cases hm
  | some name =>
    rw [hn] at hm
    obtain ⟨place, hstep, hm⟩ := bind_ok hm
    split at hm
    · cases hm
    · rename_i hfree
      refine ⟨place, rfl, ?_, by simpa using hfree, (Except.ok.inj hm).symm⟩
      rw [resolve_eq hdirectory (newName?_eq_some_iff.mp hn).1, hstep]

/-- A kind of paths to which the paths above belong, and the places to which they may lead. -/
structure Chain (kind : String → Prop) (start : Place) (allowed : Place → Prop) : Prop where
  above : ∀ path above : String, kind path → Path.parent? path = some above → kind above
  places : ∀ (path : String) (f : Files) (place : Place), kind path → f.current = start →
    f.resolve path = .ok place → allowed place

section Actions

variable {ε ε' α β : Type} {x : EStateM ε Files α} {kind : String → Prop} {start : Place}

/-- An operation that makes directories at allowed places and changes nothing else. -/
def Adds (start : Place) (allowed : Place → Prop) (x : EStateM ε Files α) : Prop :=
  ∀ f : Files, f.current = start → Grows allowed f (after (x f))

theorem adds_pure (a : α) : Adds start allowed (pure a : EStateM ε Files α) :=
  fun f _ => .refl allowed f

theorem Adds.bind (hx : Adds start allowed x) {k : α → EStateM ε Files β}
    (hk : ∀ a, Adds start allowed (k a)) : Adds start allowed (x >>= k) := by
  intro f hcurrent
  have hfirst := hx f hcurrent
  show Grows allowed f (after (EStateM.bind x k f))
  unfold EStateM.bind
  cases hr : x f <;> rw [hr] at hfirst
  · exact hfirst.trans (hk _ _ (hfirst.current.trans hcurrent))
  · exact hfirst

theorem Chain.makeDirectory (hc : Chain kind start allowed) (hkind : kind path)
    (hcurrent : f.current = start) (hm : f.makeDirectory path = .ok g) : Grows allowed f g := by
  obtain ⟨place, hname, hplace, hfree, rfl⟩ := makeDirectory_ok hm
  obtain ⟨name, above, rfl, hdirectory⟩ := directory_above hname hplace
  exact grows_set hdirectory hfree (hc.places path f _ hkind hcurrent hplace)

theorem Chain.ensureDirectory (hc : Chain kind start allowed) (hkind : kind path) :
    Adds start allowed (ensureDirectory path) := by
  intro f hcurrent
  unfold Files.ensureDirectory
  cases hm : f.makeDirectory path with
  | ok g => exact hc.makeDirectory hkind hcurrent hm
  | error e =>
    dsimp only
    split <;> exact .refl allowed f

theorem Chain.ensureAbove (hc : Chain kind start allowed) (n : Nat) (hkind : kind path) :
    Adds start allowed (ensureAbove n path) := by
  -- The fuel is spent on the directories above, from which the operation comes back to this one.
  induction n generalizing path with
  | zero => exact hc.ensureDirectory hkind
  | succ n ih =>
    intro f hcurrent
    by_cases hhere : ((Path.parts path).isEmpty && !Path.isAbsolute path) = true
    · have hdone : Files.ensureAbove (n + 1) path = pure () := if_pos hhere
      rw [hdone]
      exact adds_pure () f hcurrent
    · have hnext : Files.ensureAbove (n + 1) path f = _ := congrFun (if_neg hhere) f
      rw [hnext]
      split
      · rename_i hm
        exact hc.makeDirectory hkind hcurrent hm
      · split
        · rename_i above hparent
          have hfirst := ih (hc.above path above hkind hparent)
          exact hfirst.bind (fun _ => hc.ensureDirectory hkind) f hcurrent
        · exact .refl allowed f
      · split <;> exact .refl allowed f

theorem Chain.ensureDirectories (hc : Chain kind start allowed) (hkind : kind path) :
    Adds start allowed (ensureDirectories path) := hc.ensureAbove _ hkind

end Actions

theorem chain_any (start : Place) : Chain (fun _ => True) start fun _ => True :=
  ⟨fun _ _ _ _ => trivial, fun _ _ _ _ _ _ => trivial⟩

theorem start_eq {start : Place} (hs : f.start path = .ok start) :
    start = if Path.isAbsolute path then [] else f.current := by
  unfold Files.start at hs
  split at hs
  · cases hs
  · split at hs
    · cases hs
    · split at hs
      · cases hs
      · exact (Except.ok.inj hs).symm

theorem step_down {name : String} {next : Place} (hup : name ≠ "..") (hs : f.step place name = .ok next) :
    next = if name = "." then place else name :: place := by
  obtain ⟨⟨⟩, -, hs⟩ := bind_ok hs
  split at hs
  · rename_i hpoint
    rw [if_pos hpoint]
    exact (Except.ok.inj hs).symm
  · rename_i hpoint
    rw [if_neg hpoint]
    split at hs
    · cases hs
    · exact (Except.ok.inj hs).symm

theorem walk_down {names : List String} {next : Place} (hup : ".." ∉ names)
    (hw : names.foldlM f.step place = .ok next) : next = (Path.down names).reverse ++ place := by
  induction names generalizing place with
  | nil => exact (Except.ok.inj hw).symm
  | cons name names ih =>
    rw [List.foldlM_cons] at hw
    obtain ⟨above, hstep, hrest⟩ := bind_ok hw
    rw [ih (fun hm => hup (List.mem_cons_of_mem name hm)) hrest,
      step_down (fun hname => hup (by simp [hname])) hstep]
    by_cases hpoint : name = "." <;> simp [Path.down, hpoint]

theorem resolve_down (hup : ".." ∉ Path.names path) (hr : f.resolve path = .ok place) :
    place = (Path.down (Path.names path)).reverse ++
      if Path.isAbsolute path then [] else f.current := by
  obtain ⟨start, hstart, hwalk⟩ := bind_ok hr
  rw [walk_down hup hwalk, start_eq hstart]

theorem chain_above (path : String) (start : Place) :
    Chain
      (fun above => ".." ∉ Path.names above ∧ Path.isAbsolute above = Path.isAbsolute path ∧
        (Path.down (Path.names above)).length < (Path.down (Path.names path)).length)
      start
      (fun place => place.length < (Path.down (Path.names path)).length +
        (if Path.isAbsolute path then [] else start).length) where
  above := by
    rintro below above ⟨hbelow, habsolute, hlt⟩ hparent
    refine ⟨fun hm => hbelow (Path.names_above hparent hm), ?_, ?_⟩
    · exact (Path.parent?_eq_some hparent).2.trans habsolute
    · exact Nat.lt_of_le_of_lt (Path.down_above hparent) hlt
  places := by
    rintro above f place ⟨hup, habsolute, hlt⟩ rfl hplace
    rw [resolve_down hup hplace, List.length_append, List.length_reverse, habsolute]
    exact Nat.add_lt_add_right hlt _

theorem Rooted.directory (hf : f.Rooted) {names : List String} {entry : FileEntry} (hne : names ≠ [])
    (h : f.get? (names ++ place) = some entry) : f.get? place = some .directory := by
  induction names generalizing entry with
  | nil => exact absurd rfl hne
  | cons name names ih =>
    have habove := hf name (names ++ place) entry h
    by_cases hnames : names = []
    · rwa [hnames] at habove
    · exact ih hnames habove

/-- What is at a path. -/
def at? (f : Files) (path : String) : Option (Place × FileEntry) := (f.stat path).toOption

theorem at?_eq_some_iff {found : Place × FileEntry} :
    f.at? path = some found ↔ f.stat path = .ok found := by
  unfold at?
  cases f.stat path <;> simp [Except.toOption]

theorem at?_congr (h : ∀ place entry, g.stat path = .ok (place, entry) ↔ f.stat path = .ok (place, entry)) :
    g.at? path = f.at? path := by
  refine Option.ext fun ⟨place, entry⟩ => ?_
  rw [at?_eq_some_iff, at?_eq_some_iff, h]

theorem walk_back {names : List String} {next : Place} (hup : ".." ∉ names)
    (hdirectories : ∀ before above, next = before ++ above → g.get? above = some .directory →
      f.get? above = some .directory)
    (hw : names.foldlM g.step place = .ok next) : names.foldlM f.step place = .ok next := by
  induction names generalizing place with
  | nil => exact hw
  | cons name names ih =>
    have hend := walk_down hup hw
    rw [List.foldlM_cons] at hw ⊢
    obtain ⟨above, hstep, hrest⟩ := bind_ok hw
    have hplace : next = (Path.down (name :: names)).reverse ++ place := hend
    rw [step_of_directory (hdirectories _ _ hplace (directory_of_step hstep)) hstep]
    exact ih (fun hm => hup (List.mem_cons_of_mem name hm)) hrest

/-- New directories elsewhere change nothing at a path that does not go up. -/
theorem Grows.at?_eq (hg : Grows allowed f g) (hf : f.Rooted) (hup : ".." ∉ Path.names path)
    (hfar : ∀ place, g.resolve path = .ok place → ¬ allowed place) : g.at? path = f.at? path := by
  refine at?_congr fun place entry => ?_
  rw [stat_ok_iff, stat_ok_iff]
  constructor
  · rintro ⟨hplace, hentry, hslash⟩
    have hold : f.get? place = some entry := by
      rcases hg.made place entry hentry with hold | ⟨-, -, hallowed⟩
      · exact hold
      · exact absurd hallowed (hfar place hplace)
    refine ⟨?_, hold, hslash⟩
    obtain ⟨start, hstart, hwalk⟩ := bind_ok hplace
    have hstart' : f.start path = .ok start := by
      rw [← hstart, Files.start, Files.start, hg.current]
    rw [Files.resolve, hstart']
    refine walk_back hup (fun before above hplace hdirectory => ?_) hwalk
    subst hplace
    cases before with
    | nil =>
      rw [List.nil_append] at hentry hold
      rw [hold, ← hentry, hdirectory]
    | cons name before => exact hf.directory (List.cons_ne_nil name before) hold
  · rintro ⟨hplace, hentry, hslash⟩
    exact ⟨hg.keepsDirectories.resolve hg.current hplace, hg.kept place entry hentry, hslash⟩

end MeshShell.Files
