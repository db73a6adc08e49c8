import MeshShell.Proofs.Config.Tunables
import MeshShell.Proofs.Rows

/-! # Every setting is decided on its own

A setting is what its environment variable says, else what the file says, else
its default, whatever becomes of the other settings. What the environment says
does not decide whether the file is understood.
-/
namespace MeshShell

open Toml.Printer (Setting)

/-- A text of a number of 64 bits: digits, with a plus sign before them or without one. -/
def Decimal.Spells64 (cs : List Char) (n : Nat) : Prop :=
  n < 2 ^ 64 ∧ ∃ ds, (cs = ds ∨ cs = '+' :: ds) ∧ ds ≠ [] ∧ (∀ c ∈ ds, isDigit c = true) ∧ value ds = n

theorem Decimal.word64?_eq_some_iff {cs : List Char} {n : Nat} :
    word64? cs = some n ↔ Spells64 cs n := by
  have hnatural : ∀ ds m, natural? ds = some m ↔
      ds ≠ [] ∧ (∀ c ∈ ds, isDigit c = true) ∧ value ds = m := by
    intro ds m
    simp [natural?, and_assoc]
  have hpower : Nat.pow 2 64 = 2 ^ 64 := rfl
  simp only [word64?, Option.bind_eq_bind, Option.bind_eq_some_iff, hpower,
    Option.ite_none_right_eq_some, Option.some.injEq, hnatural]
  constructor
  · rintro ⟨m, hds, hm, rfl⟩
    refine ⟨hm, _, ?_, hds⟩
    split
    · exact .inr rfl
    · exact .inl rfl
  · rintro ⟨hn, ds, rfl | rfl, hds⟩
    · refine ⟨n, ?_, hn, rfl⟩
      split
      · -- A plus sign is no digit.
        exact absurd (hds.2.1 '+' List.mem_cons_self) (by decide)
      · exact hds
    · exact ⟨n, hds, hn, rfl⟩

theorem Environment.get?_unset (env : Environment) (name other : String) :
    (env.unset name).get? other = if other = name then none else env.get? other := by
  unfold Environment.unset Environment.get?
  split
  · rename_i h
    subst h
    refine List.lookup_eq_none_iff.mpr fun p hp => ?_
    simpa using Ne.symm (of_decide_eq_true (List.mem_filter.mp hp).2)
  · rename_i h
    exact lookup_filter_ne h env

namespace Tunable

variable {env : Environment} {t : Tunable} {x : Setting}

/-- What the environment says of a setting. -/
inductive Overrides (env : Environment) : Tunable → Setting → Prop
  | number {t : Tunable} {name s : String} {n : Nat} : t.numberName? = some name →
      env.get? name = some s → Decimal.Spells64 s.toList n → Overrides env t (.natural n)
  | term {s : String} : env.get? "HAVEN_SHELL__TERM" = some s → Overrides env .term (.text s)

def override? (env : Environment) : Tunable → Option Setting
  | .term => (env.get? "HAVEN_SHELL__TERM").map .text
  | t => (t.numberName?.bind (BridgeConfig.number? env)).map .natural

theorem override?_of_ne_term (ht : t ≠ .term) :
    t.override? env = (t.numberName?.bind (BridgeConfig.number? env)).map .natural := by
  cases t <;> first | rfl | exact absurd rfl ht

theorem override?_eq_some_iff : t.override? env = some x ↔ t.Overrides env x := by
  by_cases ht : t = .term
  · subst ht
    refine Option.map_eq_some_iff.trans ⟨?_, ?_⟩
    · rintro ⟨s, hs, rfl⟩
      exact .term hs
    · rintro (⟨hname, -, -⟩ | hs)
      · cases hname
      · exact ⟨_, hs, rfl⟩
  · simp only [override?_of_ne_term ht, Option.map_eq_some_iff, Option.bind_eq_some_iff, BridgeConfig.number?,
      Decimal.word64?_eq_some_iff]
    constructor
    · rintro ⟨n, ⟨name, hname, s, hs, hn⟩, rfl⟩
      exact .number hname hs hn
    · rintro (⟨hname, hs, hn⟩ | hs)
      · exact ⟨_, ⟨_, hname, _, hs, hn⟩, rfl⟩
      · exact absurd rfl ht

theorem of_withEnvironment (env : Environment) (c : BridgeConfig) (t : Tunable) :
    t.of (c.withEnvironment env) = (t.override? env).getD (t.of c) := by
  have hmap : ∀ {α : Type} (wrap : α → Setting) (given : Option α) (d : α),
      wrap (given.getD d) = (given.map wrap).getD (wrap d) := by
    intro α wrap given d
    cases given <;> rfl
  cases t <;> first | exact hmap _ _ _ | rfl

end Tunable

namespace Tunable

theorem value_injective {x y : Setting} (h : x.value = y.value) : x = y := by
  cases x <;> cases y <;> grind [Setting.value]

theorem Finds.unique {t : Tunable} {doc : Toml} {found found' : Option Toml} (h : t.Finds doc found)
    (h' : t.Finds doc found') : found = found' := by
  obtain ⟨root, g, hroot, hg, rfl⟩ := h
  obtain ⟨root', g', hroot', hg', rfl⟩ := h'
  obtain rfl := Option.some.inj (hroot.symm.trans hroot')
  rw [Option.some.inj (hg.symm.trans hg')]

/-- The file gives a setting. -/
def GivenBy (content : Option Toml) (t : Tunable) (x : Setting) : Prop :=
  ∃ doc, content = some doc ∧ t.Finds doc (some x.value)

/-- What the file has in the place of a setting. -/
inductive Lies (t : Tunable) : Option Toml → Option Toml → Prop
  | missing : t.Lies none none
  | document {doc : Toml} {found : Option Toml} : t.Finds doc found → t.Lies (some doc) found

theorem Lies.givenBy_iff {t : Tunable} {content found : Option Toml} (h : t.Lies content found)
    (x : Setting) : t.GivenBy content x ↔ found = some x.value := by
  cases h with
  | missing => simp [GivenBy]
  | document hfound =>
    constructor
    · rintro ⟨doc, hdoc, hx⟩
      obtain rfl := Option.some.inj hdoc
      exact hfound.unique hx
    · rintro rfl
      exact ⟨_, rfl, hfound⟩

/-- A setting is what its variable says, else what the file gives, else its default. -/
structure Decided (env : Environment) (content : Option Toml) (t : Tunable) (x : Setting) : Prop where
  environment : ∀ y, t.Overrides env y → x = y
  file : (¬ ∃ y, t.Overrides env y) → ∀ y, t.GivenBy content y → x = y
  fallback : (¬ ∃ y, t.Overrides env y) → (¬ ∃ y, t.GivenBy content y) → x = t.fallback env

theorem decided {env : Environment} {t : Tunable} {content found : Option Toml} {x : Setting}
    (hfound : t.Lies content found) (ht : t.Takes (t.fallback env) found x) :
    t.Decided env content ((t.override? env).getD x) := by
  have hover : (¬ ∃ y, t.Overrides env y) → t.override? env = none := by
    intro hno
    simpa [Option.eq_none_iff_forall_ne_some, override?_eq_some_iff] using hno
  refine ⟨fun y hy => ?_, fun hno y hy => ?_, fun hno hnone => ?_⟩
  · rw [override?_eq_some_iff.mpr hy, Option.getD_some]
  · rw [hfound.givenBy_iff] at hy
    subst hy
    rw [hover hno, Option.getD_none]
    generalize hv : some y.value = v at ht
    cases ht with
    | default => cases hv
    | value => exact (value_injective (Option.some.inj hv)).symm
  · rw [hover hno, Option.getD_none]
    cases ht with
    | default => rfl
    | value => exact absurd ⟨x, (hfound.givenBy_iff x).mpr rfl⟩ hnone

end Tunable

namespace BridgeConfig

open Tunable

variable {env : Environment} {files : Files} {path : String} {c : BridgeConfig}

/-- What there is to read at the path of the file: nothing, or a document that is understood. -/
inductive Holds (files : Files) (path : String) : Option Toml → Prop
  | missing : files.hasEntry path = false → Holds files path none
  | document {s : String} {doc : Toml} : files.hasEntry path = true → files.readText path = .ok s →
      Toml.parse? s = some doc → Understood doc → Holds files path (some doc)

/-- A file that is there fails, with the given error. -/
inductive Fails (files : Files) (path : String) : ConfigError → Prop
  | unreadable {cause : FileError} : files.hasEntry path = true → files.readText path = .error cause →
      Fails files path (.readFailed path cause)
  | notUnderstood {s : String} : files.hasEntry path = true → files.readText path = .ok s →
      (∀ doc, Toml.parse? s = some doc → ¬ Understood doc) → Fails files path (.parseFailed path)

theorem admits_default (env : Environment) (t : Tunable) : t.Admits (t.of (default env)) := by
  cases t <;> simp [Admits, of, default]

theorem fromFile_error_iff {e : ConfigError} :
    fromFile env files path = .error e ↔ Fails files path e := by
  have hunderstood : ∀ s, (Toml.parse? s).bind (ofToml? (default env)) = none ↔
      ∀ doc, Toml.parse? s = some doc → ¬ Understood doc := by
    intro s
    simp only [understood_iff (admits_default env), not_exists, Option.bind_eq_none_iff,
      Option.eq_none_iff_forall_ne_some (o := ofToml? _ _), ne_eq]
  constructor
  · intro h
    unfold fromFile at h
    split at h
    · rename_i hthere
      split at h
      · rename_i cause hread
        cases h
        exact .unreadable hthere hread
      · rename_i s hread
        split at h
        · rename_i hparse
          cases h
          exact .notUnderstood hthere hread ((hunderstood s).mp hparse)
        · cases h
    · cases h
  · intro h
    cases h with
    | unreadable hthere hread => simp [fromFile, hthere, hread]
    | notUnderstood hthere hread hnot => simp [fromFile, hthere, hread, (hunderstood _).mpr hnot]

/-- What the file leaves of the defaults. -/
theorem fromFile_ok (h : fromFile env files path = .ok c) : ∃ content, Holds files path content ∧
    ∀ t : Tunable, ∃ found, t.Lies content found ∧ t.Takes (t.fallback env) found (t.of c) := by
  unfold fromFile at h
  split at h
  · rename_i hthere
    split at h
    · cases h
    · rename_i s hread
      split at h
      · cases h
      · rename_i c' hparse
        obtain rfl := Except.ok.inj h
        obtain ⟨doc, hdoc, hc⟩ := Option.bind_eq_some_iff.mp hparse
        have hunderstood : Understood doc := (understood_iff (admits_default env)).mpr ⟨c', hc⟩
        refine ⟨some doc, .document hthere hread hdoc hunderstood, fun t => ?_⟩
        obtain ⟨found, hfound, htakes⟩ := ofToml?_eq_some_iff.mp hc t
        exact ⟨found, .document hfound, of_default env t ▸ htakes⟩
  · rename_i hthere
    obtain rfl := Except.ok.inj h
    refine ⟨none, .missing (by simpa using hthere), fun t => ⟨none, .missing, ?_⟩⟩
    rw [of_default]
    exact .default

/-- What loading gives. -/
structure Layered (env : Environment) (files : Files) (path : String) : Prop where
  /-- Loading fails for what is in the file only, whatever the environment is. -/
  failing : ∀ e, loadFrom env files path = .error e ↔ Fails files path e
  deciding : ∀ c, loadFrom env files path = .ok c →
    ∃ content, Holds files path content ∧ ∀ t : Tunable, t.Decided env content (t.of c)
  /-- A variable that has no number is as good as one that is not set. -/
  unparsed : ∀ (t : Tunable) name, t.numberName? = some name →
    (∀ s n, env.get? name = some s → ¬ Decimal.Spells64 s.toList n) →
      loadFrom (env.unset name) files path = loadFrom env files path

theorem layered (env : Environment) (files : Files) (path : String) : Layered env files path where
  failing e := by
    have hfile : fromFile env files path = .error e ↔ Fails files path e := fromFile_error_iff
    rw [← hfile, loadFrom]
    cases fromFile env files path <;> simp [Except.map]
  deciding c h := by
    obtain ⟨c', hc', rfl⟩ : ∃ c', fromFile env files path = .ok c' ∧ c'.withEnvironment env = c := by
      cases hfile : fromFile env files path with
      | error e => simp [loadFrom, hfile, Except.map] at h
      | ok c' => exact ⟨c', rfl, by simpa [loadFrom, hfile, Except.map] using h⟩
    obtain ⟨content, hcontent, htakes⟩ := fromFile_ok hc'
    refine ⟨content, hcontent, fun t => ?_⟩
    obtain ⟨found, hfound, ht⟩ := htakes t
    rw [of_withEnvironment]
    exact decided hfound ht
  unparsed t name hname hnone := by
    have hnumber : ∀ other, number? (env.unset name) other = number? env other := by
      intro other
      unfold number?
      rw [Environment.get?_unset]
      split
      · rename_i hother
        subst hother
        refine (Option.bind_eq_none_iff.mpr fun s hs => ?_).symm
        refine Option.eq_none_iff_forall_ne_some.mpr fun n hn => ?_
        exact hnone s n hs (Decimal.word64?_eq_some_iff.mp hn)
      · rfl
    have hother : "TERM" ≠ name ∧ "HAVEN_SHELL__TERM" ≠ name := by
      cases t <;> simp only [numberName?, reduceCtorEq, Option.some.injEq] at hname <;> subst hname <;> decide
    have hdefault : default (env.unset name) = default env := by
      rw [default, Environment.get?_unset, if_neg hother.1]
      rfl
    have hover : withEnvironment (env.unset name) = withEnvironment env := by
      funext c
      simp only [withEnvironment, hnumber, Environment.get?_unset, if_neg hother.2]
    rw [loadFrom, loadFrom, hover, fromFile, fromFile, hdefault]

end BridgeConfig

end MeshShell
