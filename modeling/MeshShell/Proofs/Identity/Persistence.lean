import MeshShell.Proofs.Identity.Secrecy

/-! # An identity lasts

Whoever loads an identity gets the one that is in the file, and the file stays
as it is. Storing that fails leaves alone what was at the path, however far it
went and however the path is spelled, unless the file is written in place: then
it is lost with a device that fails, or under a path with a slash at its end.
What was stored is what is loaded from then on, if the file may be read.
-/
namespace MeshShell

namespace Path

theorem isAbsolute_of_names {path : String} (h : names path = []) (hne : path ≠ "") :
    isAbsolute path = true := by
  unfold isAbsolute
  cases hl : path.toList with
  | nil => exact absurd (String.toList_eq_nil_iff.mp hl) hne
  | cons c cs =>
    by_cases hc : c = '/'
    · simp [hc]
    · -- The first name begins with the first character.
      cases hs : split cs with
      | nil => exact absurd hs (split_ne_nil cs)
      | cons p ps => simp [names, hl, split, hc, hs] at h

end Path

namespace Files

variable {f g : Files} {path : String} {place : Place}

/-- A path that does not go up and leads to a file ends in the name of the file. -/
theorem newName?_of_file (hup : ".." ∉ Path.names path) (hr : f.resolve path = .ok place)
    (hne : place ≠ []) (hfile : f.get? place ≠ some .directory) : (newName? path).isSome = true := by
  obtain ⟨start, hstart, hwalk⟩ := bind_ok hr
  rcases List.eq_nil_or_concat (Path.names path) with hnames | ⟨before, last, hnames⟩
  · rw [hnames] at hwalk
    obtain rfl := Except.ok.inj hwalk
    have hempty : path ≠ "" := by
      rintro rfl
      simp [Files.start] at hstart
    rw [start_eq hstart, if_pos (Path.isAbsolute_of_names hnames hempty)] at hne
    exact absurd rfl hne
  · rw [List.concat_eq_append] at hnames
    rw [hnames, List.foldlM_append] at hwalk
    obtain ⟨above, -, hlast⟩ := bind_ok hwalk
    rw [List.foldlM_cons] at hlast
    obtain ⟨next, hstep, hdone⟩ := bind_ok hlast
    obtain rfl := Except.ok.inj hdone
    have hpoints : last ≠ ".." := fun hl => hup (by simp [hnames, hl])
    have hpoint : last ≠ "." := by
      rintro rfl
      have hstay := step_down (by decide) hstep
      rw [if_pos rfl] at hstay
      exact hfile (hstay ▸ directory_of_step hstep)
    have hlast' := List.getLast?_eq_some_iff.mpr ⟨before, hnames⟩
    rw [newName?_eq_some_iff.mpr ⟨hlast', hpoint, hpoints⟩]
    rfl

/-- A file that comes to a place changes nothing at a path that does not lead there. -/
theorem at?_set_file {content : Bytes} {mode : Nat} (hne : place ≠ [])
    (hold : f.get? place ≠ some .directory)
    (hnot : (f.set place (.file content mode)).resolve path = .ok place →
      Path.hasTrailingSlash path = true) : (f.set place (.file content mode)).at? path = f.at? path := by
  have hthere : (f.set place (.file content mode)).get? place = some (.file content mode) :=
    get?_set_self hne
  have hforth : KeepsDirectories f (f.set place (.file content mode)) := keepsDirectories_set hold
  have hback : KeepsDirectories (f.set place (.file content mode)) f := by
    intro other hother
    have hne' : other ≠ place := by
      rintro rfl
      simp [hthere] at hother
    rwa [get?_set_ne hne'] at hother
  refine at?_congr fun other entry => ?_
  rw [stat_ok_iff, stat_ok_iff]
  constructor
  · rintro ⟨hr, he, hslash⟩
    have hother : other ≠ place := by
      rintro rfl
      rw [hthere] at he
      obtain rfl := Option.some.inj he
      simp [hnot hr] at hslash
    rw [get?_set_ne hother] at he
    exact ⟨hback.resolve rfl hr, he, hslash⟩
  · rintro ⟨hr, he, hslash⟩
    have hr' := hforth.resolve rfl hr
    have hother : other ≠ place := by
      rintro rfl
      rcases hslash with rfl | hslash
      · exact hold he
      · simp [hnot hr'] at hslash
    exact ⟨hr', by rwa [get?_set_ne hother], hslash⟩

theorem at?_unmoved {beside : String} {content : Bytes} {mode : Nat} {e : FileError}
    (hup : ".." ∉ Path.names path) (hwrite : f.write beside content mode = .ok g)
    (hmove : g.moveFile beside path = .error e) : g.at? path = f.at? path := by
  obtain ⟨place, kept, hname, hplace, hne, hbare, hentry, rfl⟩ := write_ok hwrite
  have hold := not_directory hentry
  have hthere : (f.set place (.file content kept)).get? place = some (.file content kept) :=
    get?_set_self hne
  have hforth : KeepsDirectories f (f.set place (.file content kept)) := keepsDirectories_set hold
  refine at?_set_file hne hold fun hr => Bool.of_not_eq_false fun hslash => ?_
  -- If it were, it would be moved to where it is already.
  have hlast := newName?_of_file hup hr hne (by simp [hthere])
  rw [move_onto_itself hname hlast (hforth.resolve rfl hplace) hr hthere hbare hslash] at hmove
  cases hmove

end Files

namespace KeyPair

variable {k fresh : KeyPair} {path : String} {f g : Files} {place : Place}

theorem loadOrCreate_of_file {content : Bytes} {mode : Nat}
    (h : f.stat path = .ok (place, .file content mode)) (fresh : KeyPair) :
    loadOrCreate fresh path f =
      if mayRead mode then
        if h : content.length = 32 then .ok (⟨content, h⟩, false) f
        else .error (.malformed path content.length) f
      else .error (.read path .notPermitted) f := by
  have hfile : f.isFile path = true := by simp [Files.isFile, h]
  rw [loadOrCreate_eq, if_pos hfile, fromFile, Files.readPermitted_of_stat h]
  by_cases hmode : mayRead mode = true
  · by_cases hlength : content.length = 32 <;> simp [hmode, hlength]
  · simp [hmode]

theorem loadOrCreate_again {mode : Nat} (h : f.stat path = .ok (place, .file k.secret mode))
    (hmode : mayRead mode = true) (fresh : KeyPair) :
    loadOrCreate fresh path f = .ok (k, false) f := by
  rw [loadOrCreate_of_file h, if_pos hmode, dif_pos k.length_eq]

theorem at?_write_beside {other : String} {content : Bytes} {mode : Nat}
    (hup : ".." ∉ Path.names path) (hown : ¬ OwnTemporary path) (hlike : Path.Alike other path)
    (hwrite : f.write (besidePath path) content mode = .ok g) : g.at? other = f.at? other := by
  obtain ⟨beside, kept, hname, hbeside, hne, -, hentry, rfl⟩ := Files.write_ok hwrite
  refine Files.at?_set_file hne (Files.not_directory hentry) fun hr => ?_
  exact absurd rfl (ne_of_resolve hup hown hlike hname hbeside hr)

/-- Storing that fails changes nothing at the path, unless this is where the secret is written to.
Then it changes nothing if the device does not fail and the path is spelled as it was given. -/
theorem at?_of_failed {other : String} {e : FileError} (hf : f.Rooted) (hup : ".." ∉ Path.names path)
    (hlike : Path.Alike other path)
    (hsafe : f.device = .sound ∧ other = path ∨ ¬ OwnTemporary path)
    (h : Storing k path f (.error e g)) : g.at? other = f.at? other := by
  have hmade := at?_makeRoom hf hup hlike
  cases h with
  | noRoom hroom => simpa [hroom, Files.after] using hmade
  | unopened hroom => simpa [hroom, Files.after] using hmade
  | @unkept _ room _ hroom hdevice hwrite =>
    have hsame : room.device = f.device := by
      simpa [hroom, Files.after] using (adds_makeRoom_any path f.current f rfl).device
    have hown := hsafe.resolve_left fun hsound => hdevice (hsame.trans hsound.1)
    rw [at?_write_beside hup hown hlike hwrite]
    simpa [hroom, Files.after] using hmade
  | @unmoved _ room _ hroom hwrite hmove =>
    have hwritten : g.at? other = room.at? other := by
      rcases hsafe with ⟨-, rfl⟩ | hown
      · exact Files.at?_unmoved hup hwrite hmove
      · exact at?_write_beside hup hown hlike hwrite
    rw [hwritten]
    simpa [hroom, Files.after] using hmade

/-- A failure comes from storing, or nothing was done. -/
theorem failed_cases {e : IdentityError}
    (h : k.toFile path f = .error e g ∨ loadOrCreate k path f = .error e g) :
    (∃ cause, Storing k path f (.error cause g)) ∨ g = f := by
  rcases h with h | h
  · obtain ⟨cause, -, hfailed⟩ := toFile_error h
    exact .inl ⟨cause, hfailed⟩
  · cases hfile : f.isFile path with
    | true =>
      rw [loadOrCreate_eq, if_pos hfile] at h
      split at h <;> cases h
      exact .inr rfl
    | false =>
      rw [loadOrCreate_created hfile] at h
      split at h
      · cases h
      · rename_i hstored
        cases h
        obtain ⟨cause, -, hfailed⟩ := toFile_error hstored
        exact .inl ⟨cause, hfailed⟩

/-- What an earlier attempt may have left at the temporary path can be read. -/
def LegibleLeftover (f : Files) (path : String) : Prop :=
  ∀ place content mode, f.at? (besidePath path) = some (place, .file content mode) →
    mayRead mode = true

theorem legible_of_storing (hf : f.Rooted) (hup : ".." ∉ Path.names path)
    (hleft : LegibleLeftover f path) (h : Storing k path f (.ok () g)) :
    ∃ place mode, g.stat path = .ok (place, .file k.secret mode) ∧ mayRead mode = true := by
  cases h with
  | @stored room written _ hroom hwrite hmove =>
    obtain ⟨beside, place, mode, hmoved, hbeside, hbare, hentry, rfl⟩ := Files.move_written hwrite hmove
    have harrives := (hmoved.keepsDirectories (by simp)).resolve hmoved.current hmoved.arrives
    refine ⟨place, mode, Files.stat_ok_iff.mpr ⟨harrives, hmoved.there, .inr hmoved.bare⟩, ?_⟩
    rcases hentry with ⟨-, rfl⟩ | ⟨old, hold⟩
    · decide
    · obtain ⟨hother, habsolute, hle⟩ := besidePath_beside hup
      have hsame := at?_makeRoom_of_le hf hup hother habsolute hle
      rw [hroom] at hsame
      have hfound : room.at? (besidePath path) = some (beside, .file old mode) :=
        Files.at?_eq_some_iff.mpr (Files.stat_ok_iff.mpr ⟨hbeside, hold, .inr hbare⟩)
      exact hleft beside old mode (hsame.symm.trans hfound)

/-- The file from which an identity was loaded, or to which it was stored. -/
theorem file_of_loadOrCreate {created : Bool} (hf : f.Rooted) (hup : ".." ∉ Path.names path)
    (hleft : created = true → LegibleLeftover f path)
    (h : loadOrCreate fresh path f = .ok (k, created) g) :
    ∃ place mode, g.stat path = .ok (place, .file k.secret mode) ∧ mayRead mode = true := by
  cases hfile : f.isFile path with
  | false =>
    rw [loadOrCreate_created hfile] at h
    split at h
    · rename_i hstored
      cases h
      exact legible_of_storing hf hup (hleft rfl) (stored_of_toFile hstored)
    · cases h
  | true =>
    unfold Files.isFile at hfile
    split at hfile
    · rename_i place content mode hstat
      rw [loadOrCreate_of_file hstat] at h
      split at h
      · rename_i hmode
        split at h
        · cases h
          exact ⟨place, mode, hstat, hmode⟩
        · cases h
      · cases h
    · cases hfile

/-- What whoever keeps an identity at a path can rely on. -/
structure Persistent (f : Files) (path : String) : Prop where
  /-- A file that may be read is loaded if it is as long as a secret. Every file stays what it is. -/
  loaded : ∀ place content mode, f.stat path = .ok (place, .file content mode) → ∀ fresh,
    loadOrCreate fresh path f =
      if mayRead mode then
        if h : content.length = 32 then .ok (⟨content, h⟩, false) f
        else .error (.malformed path content.length) f
      else .error (.read path .notPermitted) f
  /-- A failure changes nothing at the path. -/
  unharmed : f.device = .sound ∨ ¬ OwnTemporary path → ∀ (k : KeyPair) e g,
    k.toFile path f = .error e g ∨ loadOrCreate k path f = .error e g → g.at? path = f.at? path
  /-- Nor does it at the path in any other spelling. -/
  respelled : ¬ OwnTemporary path → ∀ (k : KeyPair) e g,
    k.toFile path f = .error e g ∨ loadOrCreate k path f = .error e g →
      ∀ other, Path.Alike other path → g.at? other = f.at? other
  /-- What was stored is what is read. -/
  restored : LegibleLeftover f path → ∀ (k : KeyPair) g, k.toFile path f = .ok () g →
    ∃ l, fromFile g path = .ok l ∧ l.secret = k.secret ∧ l.publicKey = k.publicKey ∧ l.hash = k.hash
  /-- Once an identity was loaded or created, it is loaded ever after. -/
  stable : ∀ (fresh k : KeyPair) created g, (created = true → LegibleLeftover f path) →
    loadOrCreate fresh path f = .ok (k, created) g →
    ∀ others : List KeyPair, (others.mapM fun other => loadOrCreate other path) g =
      .ok (others.map fun _ => (k, false)) g

theorem identity_persistent (hf : f.Rooted) (hup : ".." ∉ Path.names path) : Persistent f path where
  loaded := fun _ _ _ h => loadOrCreate_of_file h
  unharmed := by
    intro hsafe k e g h
    rcases failed_cases h with ⟨_, hfailed⟩ | rfl
    · exact at?_of_failed hf hup ⟨rfl, rfl⟩ (hsafe.imp_left fun hsound => ⟨hsound, rfl⟩) hfailed
    · rfl
  respelled := by
    intro hown k e g h other hlike
    rcases failed_cases h with ⟨_, hfailed⟩ | rfl
    · exact at?_of_failed hf hup hlike (.inr hown) hfailed
    · rfl
  restored := by
    intro hleft k g h
    obtain ⟨place, mode, hstat, hmode⟩ := legible_of_storing hf hup hleft (stored_of_toFile h)
    refine ⟨k, ?_, rfl, rfl, rfl⟩
    rw [fromFile, Files.readPermitted_of_stat hstat, if_pos hmode]
    exact dif_pos k.length_eq
  stable := by
    intro fresh k created g hleft h others
    obtain ⟨place, mode, hstat, hmode⟩ := file_of_loadOrCreate hf hup hleft h
    induction others with
    | nil => rfl
    | cons other others ih =>
      rw [List.mapM_cons]
      show EStateM.bind (loadOrCreate other path) _ g = _
      unfold EStateM.bind
      rw [loadOrCreate_again hstat hmode]
      show EStateM.bind _ _ g = _
      unfold EStateM.bind
      rw [ih]
      rfl

theorem rooted_interrupted (mode : Nat) : (interrupted mode).Rooted :=
  (Files.rooted_empty.set rfl (by decide)).set rfl (by decide)

/-- What was stored outlasts a device that has no more room. -/
theorem persistent_where_stored : ∃ g, sample.toFile "keys/node.key" (interrupted 0o644) = .ok () g ∧
    g.at? "keys/node.key" =
      some (["node.key", "keys", "work", "tmp"], .file sample.secret privateMode) ∧
    Persistent { g with device := ⟨some 5, true⟩ } "keys/node.key" ∧
    Files.failure? (sample.toFile "keys/node.key" { g with device := ⟨some 5, true⟩ }) =
      some (.write "keys/node.key" .noSpace) ∧ ¬ OwnTemporary "keys/node.key" := by
  have hdone : sample.toFile "keys/node.key" (interrupted 0o644) = .ok () _ :=
    Files.eq_ok_after (by decide +kernel)
  have hrooted := rooted_toFile (rooted_interrupted 0o644) sample "keys/node.key"
  have hown : ¬ OwnTemporary "keys/node.key" := by
    rintro ⟨name, hname, hsame⟩
    obtain rfl : "node.key" = name := Option.some.inj ((by decide +kernel : _ = _).symm.trans hname)
    revert hsame
    decide
  exact ⟨_, hdone, by decide +kernel, identity_persistent hrooted (by decide), by decide +kernel, hown⟩

/-- A secret in a file that is not to be read, or that is written in place, on a device. -/
def exposed (name : String) (mode : Nat) (device : Device) : Files :=
  { Files.empty.set [name, "work", "tmp"] (.file sample.secret mode) with device }

/-- A file that is written in place is lost if the device fails, or if its path is spelled with a
slash at the end. A file that may not be read is not loaded, and one that was left at the temporary
path passes this on to the file that is stored. -/
theorem lost_or_illegible :
    (∃ g, sample.toFile "node.tmp" (exposed "node.tmp" privateMode ⟨some 0, true⟩) =
        .error (.write "node.tmp" .noSpace) g ∧
      (exposed "node.tmp" privateMode ⟨some 0, true⟩).at? "node.tmp" =
        some (["node.tmp", "work", "tmp"], .file sample.secret privateMode) ∧
      g.at? "node.tmp" = some (["node.tmp", "work", "tmp"], .file [] privateMode)) ∧
    (∃ g, toFile ⟨List.replicate 32 0x2a, rfl⟩ "node.tmp/" (exposed "node.tmp" privateMode .sound) =
        .error (.write "node.tmp/" .notDirectory) g ∧ Path.Alike "node.tmp" "node.tmp/" ∧
      (exposed "node.tmp" privateMode .sound).at? "node.tmp" =
        some (["node.tmp", "work", "tmp"], .file sample.secret privateMode) ∧
      g.at? "node.tmp" =
        some (["node.tmp", "work", "tmp"], .file (List.replicate 32 0x2a) privateMode)) ∧
    (∃ g, loadOrCreate sample "node.key" (exposed "node.key" 0o200 .sound) =
        .error (.read "node.key" .notPermitted) g ∧
      (exposed "node.key" 0o200 .sound).isFile "node.key" = true) ∧
    ∃ g, sample.toFile "node.key" (exposed "node.tmp" 0o200 .sound) = .ok () g ∧
      fromFile g "node.key" = .error (.read "node.key" .notPermitted) := by
  have hdone : sample.toFile "node.key" (exposed "node.tmp" 0o200 .sound) = .ok () _ :=
    Files.eq_ok_after (by decide +kernel)
  have hstored : (Files.after (sample.toFile "node.key" (exposed "node.tmp" 0o200 .sound))).at? "node.key" =
      some (["node.key", "work", "tmp"], .file sample.secret 0o200) := by decide +kernel
  refine ⟨⟨_, Files.eq_error_after (by decide +kernel), by decide +kernel, by decide +kernel⟩,
    ⟨_, Files.eq_error_after (by decide +kernel), ⟨by decide +kernel, by decide +kernel⟩,
      by decide +kernel, by decide +kernel⟩,
    ⟨_, Files.eq_error_after (by decide +kernel), by decide +kernel⟩, _, hdone, ?_⟩
  rw [fromFile, Files.readPermitted_of_stat (Files.at?_eq_some_iff.mp hstored), if_neg (by decide)]

end KeyPair

end MeshShell
