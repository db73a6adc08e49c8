import MeshShell.Config.Bridge
import MeshShell.Proofs.Toml.Documents

/-! # Settings

The settings of the session layer, and how a document is read setting by
setting: one that it does not have is the default's, and one that it has must be
of the right kind.
-/
namespace MeshShell

open Toml.Printer (Setting)

/-- The sections that settings are in. -/
inductive Division
  | timeouts
  | shell
  | discovery
  deriving DecidableEq, Repr

/-- The name and the place of a section in a document. -/
def Division.key : Division → String × Nat
  | .timeouts => ("timeouts", 0)
  | .shell => ("shell", 1)
  | .discovery => ("discovery", 2)

/-- The settings of the session layer. -/
inductive Tunable
  | resolveSecs
  | linkSecs
  | pollIntervalMs
  | probeMillis
  | term
  | defaultRows
  | defaultCols
  | maxAgeSecs
  deriving DecidableEq, Repr

namespace Tunable

/-- What a setting is in a configuration. -/
def of (c : BridgeConfig) : Tunable → Setting
  | .resolveSecs => .natural c.timeouts.resolveSecs
  | .linkSecs => .natural c.timeouts.linkSecs
  | .pollIntervalMs => .natural c.timeouts.pollIntervalMs
  | .probeMillis => .natural c.timeouts.probeMillis
  | .term => .text c.shell.term
  | .defaultRows => .natural c.shell.defaultRows.toNat
  | .defaultCols => .natural c.shell.defaultCols.toNat
  | .maxAgeSecs => .natural c.maxAgeSecs

def division : Tunable → Division
  | .resolveSecs | .linkSecs | .pollIntervalMs | .probeMillis => .timeouts
  | .term | .defaultRows | .defaultCols => .shell
  | .maxAgeSecs => .discovery

/-- The name and the place of a setting in its section. -/
def key : Tunable → String × Nat
  | .resolveSecs => ("resolve_secs", 0)
  | .linkSecs => ("link_secs", 1)
  | .pollIntervalMs => ("poll_interval_ms", 2)
  | .probeMillis => ("probe_millis", 3)
  | .term => ("term", 0)
  | .defaultRows => ("default_rows", 1)
  | .defaultCols => ("default_cols", 2)
  | .maxAgeSecs => ("max_age_secs", 0)

/-- What a setting may be. -/
def Admits : Tunable → Setting → Prop
  | .term, .text _ => True
  | .defaultRows, .natural n | .defaultCols, .natural n => n < 2 ^ 16
  | .resolveSecs, .natural n | .linkSecs, .natural n | .pollIntervalMs, .natural n
  | .probeMillis, .natural n | .maxAgeSecs, .natural n => n < 2 ^ 64
  | _, _ => False

/-- The variable in which the environment may have the number of a setting. -/
def numberName? : Tunable → Option String
  | .resolveSecs => some "HAVEN_TIMEOUTS__RESOLVE_SECS"
  | .linkSecs => some "HAVEN_TIMEOUTS__LINK_SECS"
  | .maxAgeSecs => some "HAVEN_DISCOVERY__MAX_AGE_SECS"
  | _ => none

/-- What a setting is if neither the environment nor the file says anything. -/
def fallback (env : Environment) : Tunable → Setting
  | .resolveSecs => .natural 15
  | .linkSecs => .natural 30
  | .pollIntervalMs => .natural 100
  | .probeMillis => .natural 2000
  | .term => .text ((env.get? "TERM").getD "xterm-256color")
  | .defaultRows => .natural 24
  | .defaultCols => .natural 80
  | .maxAgeSecs => .natural 0

theorem Admits.natural {t : Tunable} {x : Setting} (h : t.Admits x) (ht : t ≠ .term) :
    ∃ n, x = .natural n := by
  cases x with
  | natural n => exact ⟨n, rfl⟩
  | _ => cases t <;> first | exact absurd rfl ht | exact h.elim

theorem Admits.word {t : Tunable} {x : Setting} (h : t.Admits x)
    (ht : t = .defaultRows ∨ t = .defaultCols) : ∃ n : UInt16, x = .natural n.toNat := by
  obtain ⟨n, rfl⟩ := h.natural (by rcases ht with rfl | rfl <;> nofun)
  have hn : n < 2 ^ 16 := by rcases ht with rfl | rfl <;> exact h
  exact ⟨.ofNat n, by rw [UInt16.toNat_ofNat_of_lt' hn]⟩

theorem Admits.text {x : Setting} (h : Tunable.term.Admits x) : ∃ s, x = .text s := by
  cases x with
  | text s => exact ⟨s, rfl⟩
  | _ => exact h.elim

theorem of_default (env : Environment) (t : Tunable) : t.of (.default env) = t.fallback env := by
  cases t <;> rfl

end Tunable

namespace Toml

variable {α : Type} {group : Section} {name : String} {place : Nat} {read : Toml → Option α}
variable {default x : α}

/-- The section under a key. One that is not there has no settings. -/
def Section.under? (group : Section) (key : String × Nat) : Option Section :=
  match group key.1 key.2 with
  | none => some fun _ _ => none
  | some v => v.section?

theorem optional?_section {read : Section → Option α} (h : read (fun _ _ => none) = some default) :
    optional? group name place (fun v => v.section?.bind read) default =
      (group.under? (name, place)).bind read := by
  unfold optional? Section.under?
  cases group name place with
  | none => exact h.symm
  | some v => rfl

theorem word64?_eq_some_iff {v : Toml} {n : Nat} :
    word64? v = some n ↔ n < 2 ^ 64 ∧ (Setting.natural n).value = v := by
  cases v <;> simp [word64?, natural?, Setting.value]
  omega

theorem word16?_eq_some_iff {v : Toml} {n : UInt16} :
    word16? v = some n ↔ n.toNat < 2 ^ 16 ∧ (Setting.natural n.toNat).value = v := by
  have hn := n.toNat_lt
  cases v <;> simp [word16?, natural?, Setting.value, ← UInt16.toNat_inj]
  omega

theorem string?_eq_some_iff {v : Toml} {s : String} :
    string? v = some s ↔ (Setting.text s).value = v := by
  cases v <;> simp [string?, Setting.value, eq_comm]

end Toml

namespace Tunable

/-- What a setting is by the file that has `found` in its place, with `d` as its default. -/
inductive Takes (t : Tunable) (d : Setting) : Option Toml → Setting → Prop
  | default : t.Takes d none d
  | value {x : Setting} : t.Admits x → t.Takes d (some x.value) x

/-- What a document has in the place of a setting. -/
def Finds (t : Tunable) (doc : Toml) (found : Option Toml) : Prop :=
  ∃ root section_, doc.section? = some root ∧ root.under? t.division.key = some section_ ∧
    section_ t.key.1 t.key.2 = found

/-- A document in which every setting that is there is one that may be there. -/
def Understood (doc : Toml) : Prop :=
  ∀ t : Tunable, ∃ found, t.Finds doc found ∧ ∀ v ∈ found, ∃ x, t.Admits x ∧ x.value = v

theorem Takes.understood {t : Tunable} {d x : Setting} {found : Option Toml} (h : t.Takes d found x) :
    ∀ v ∈ found, ∃ x, t.Admits x ∧ x.value = v := by
  cases h with
  | default => nofun
  | value hx => exact fun v hv => ⟨x, hx, Option.some.inj hv⟩

theorem takes_iff {α : Type} {t : Tunable} {read : Toml → Option α} {wrap : α → Setting}
    (hwrap : Function.Injective wrap)
    (hread : ∀ v x, read v = some x ↔ t.Admits (wrap x) ∧ (wrap x).value = v)
    (g : Toml.Section) (d x : α) :
    Toml.optional? g t.key.1 t.key.2 read d = some x ↔
      t.Takes (wrap d) (g t.key.1 t.key.2) (wrap x) := by
  unfold Toml.optional?
  cases g t.key.1 t.key.2 with
  | none =>
    refine ⟨fun h => ?_, fun h => ?_⟩
    · obtain rfl := Option.some.inj h
      exact .default
    · generalize hx : wrap x = w at h
      cases h
      exact congrArg some (hwrap hx).symm
  | some v =>
    refine (hread v x).trans ⟨fun ⟨hx, hv⟩ => hv ▸ .value hx, fun h => ?_⟩
    generalize hw : wrap x = w at h
    generalize hfound : some v = found at h
    cases h with
    | default => cases hfound
    | value hx => exact ⟨hx, (Option.some.inj hfound).symm⟩

theorem takes_word64 {t : Tunable} (ht : ∀ n, t.Admits (.natural n) ↔ n < 2 ^ 64) (g : Toml.Section)
    (d x : Nat) : Toml.optional? g t.key.1 t.key.2 Toml.word64? d = some x ↔
      t.Takes (.natural d) (g t.key.1 t.key.2) (.natural x) :=
  takes_iff (fun _ _ => Setting.natural.inj) (fun _ _ => by rw [Toml.word64?_eq_some_iff, ht]) g d x

theorem takes_word16 {t : Tunable} (ht : ∀ n, t.Admits (.natural n) ↔ n < 2 ^ 16) (g : Toml.Section)
    (d x : UInt16) : Toml.optional? g t.key.1 t.key.2 Toml.word16? d = some x ↔
      t.Takes (.natural d.toNat) (g t.key.1 t.key.2) (.natural x.toNat) := by
  have hwrap : Function.Injective fun n : UInt16 => Setting.natural n.toNat :=
    fun _ _ h => UInt16.toNat_inj.mp (Setting.natural.inj h)
  exact takes_iff hwrap (fun _ _ => by rw [Toml.word16?_eq_some_iff, ht]) g d x

theorem takes_text {t : Tunable} (ht : ∀ s, t.Admits (.text s)) (g : Toml.Section) (d x : String) :
    Toml.optional? g t.key.1 t.key.2 Toml.string? d = some x ↔
      t.Takes (.text d) (g t.key.1 t.key.2) (.text x) :=
  takes_iff (fun _ _ => Setting.text.inj) (fun _ x => by simp [Toml.string?_eq_some_iff, ht x]) g d x

end Tunable

namespace BridgeConfig

open Toml Tunable

variable {d c : BridgeConfig} {doc : Toml}

def timeoutsIn? (d : Timeouts) (group : Section) : Option Timeouts := do
  return {
    resolveSecs := ← optional? group "resolve_secs" 0 word64? d.resolveSecs
    linkSecs := ← optional? group "link_secs" 1 word64? d.linkSecs
    pollIntervalMs := ← optional? group "poll_interval_ms" 2 word64? d.pollIntervalMs
    probeMillis := ← optional? group "probe_millis" 3 word64? d.probeMillis }

def shellIn? (d : ShellSettings) (group : Section) : Option ShellSettings := do
  return {
    term := ← optional? group "term" 0 string? d.term
    defaultRows := ← optional? group "default_rows" 1 word16? d.defaultRows
    defaultCols := ← optional? group "default_cols" 2 word16? d.defaultCols }

def maxAgeIn? (d : Nat) (group : Section) : Option Nat := optional? group "max_age_secs" 0 word64? d

theorem ofToml?_eq : ofToml? d doc = doc.section?.bind fun root =>
    ((root.under? Division.timeouts.key).bind (timeoutsIn? d.timeouts)).bind fun timeouts =>
    ((root.under? Division.shell.key).bind (shellIn? d.shell)).bind fun shell =>
    ((root.under? Division.discovery.key).bind (maxAgeIn? d.maxAgeSecs)).bind fun maxAgeSecs =>
    some { timeouts, shell, maxAgeSecs } := by
  have htimeouts : ∀ root : Section, optional? root "timeouts" 0 (timeouts? d.timeouts) d.timeouts =
      (root.under? Division.timeouts.key).bind (timeoutsIn? d.timeouts) := fun root => optional?_section rfl
  have hshell : ∀ root : Section, optional? root "shell" 1 (shell? d.shell) d.shell =
      (root.under? Division.shell.key).bind (shellIn? d.shell) := fun root => optional?_section rfl
  have hage : ∀ root : Section, optional? root "discovery" 2 (maxAgeSecs? d.maxAgeSecs) d.maxAgeSecs =
      (root.under? Division.discovery.key).bind (maxAgeIn? d.maxAgeSecs) := fun root => optional?_section rfl
  simp only [← htimeouts, ← hshell, ← hage]
  rfl

/-- What a configuration has of a section, by the file and by another configuration. -/
def Takes (group : Section) (d c : BridgeConfig) (division : Division) : Prop :=
  ∀ t : Tunable, t.division = division → t.Takes (t.of d) (group t.key.1 t.key.2) (t.of c)

variable {group : Section}

theorem timeoutsIn?_eq_some_iff :
    timeoutsIn? d.timeouts group = some c.timeouts ↔ Takes group d c .timeouts := by
  obtain ⟨⟨a, b, p, q⟩, shell, age⟩ := c
  have hresolve := takes_word64 (t := .resolveSecs) (fun _ => .rfl) group d.timeouts.resolveSecs a
  have hlink := takes_word64 (t := .linkSecs) (fun _ => .rfl) group d.timeouts.linkSecs b
  have hpoll := takes_word64 (t := .pollIntervalMs) (fun _ => .rfl) group d.timeouts.pollIntervalMs p
  have hprobe := takes_word64 (t := .probeMillis) (fun _ => .rfl) group d.timeouts.probeMillis q
  simp only [timeoutsIn?, Option.bind_eq_bind, Option.bind_eq_some_iff, Option.pure_def, Option.some.injEq,
    Timeouts.mk.injEq]
  constructor
  · rintro ⟨_, h1, _, h2, _, h3, _, h4, rfl, rfl, rfl, rfl⟩ t ht
    cases t with
    | resolveSecs => exact hresolve.mp h1
    | linkSecs => exact hlink.mp h2
    | pollIntervalMs => exact hpoll.mp h3
    | probeMillis => exact hprobe.mp h4
    | _ => cases ht
  · intro h
    exact ⟨a, hresolve.mpr (h .resolveSecs rfl), b, hlink.mpr (h .linkSecs rfl), p,
      hpoll.mpr (h .pollIntervalMs rfl), q, hprobe.mpr (h .probeMillis rfl), rfl, rfl, rfl, rfl⟩

theorem shellIn?_eq_some_iff : shellIn? d.shell group = some c.shell ↔ Takes group d c .shell := by
  obtain ⟨timeouts, ⟨s, rows, cols⟩, age⟩ := c
  have hterm := takes_text (t := .term) (fun _ => trivial) group d.shell.term s
  have hrows := takes_word16 (t := .defaultRows) (fun _ => .rfl) group d.shell.defaultRows rows
  have hcols := takes_word16 (t := .defaultCols) (fun _ => .rfl) group d.shell.defaultCols cols
  simp only [shellIn?, Option.bind_eq_bind, Option.bind_eq_some_iff, Option.pure_def, Option.some.injEq,
    ShellSettings.mk.injEq]
  constructor
  · rintro ⟨_, h1, _, h2, _, h3, rfl, rfl, rfl⟩ t ht
    cases t with
    | term => exact hterm.mp h1
    | defaultRows => exact hrows.mp h2
    | defaultCols => exact hcols.mp h3
    | _ => cases ht
  · intro h
    exact ⟨s, hterm.mpr (h .term rfl), rows, hrows.mpr (h .defaultRows rfl), cols,
      hcols.mpr (h .defaultCols rfl), rfl, rfl, rfl⟩

theorem maxAgeIn?_eq_some_iff :
    maxAgeIn? d.maxAgeSecs group = some c.maxAgeSecs ↔ Takes group d c .discovery := by
  have hage := takes_word64 (t := .maxAgeSecs) (fun _ => .rfl) group d.maxAgeSecs c.maxAgeSecs
  refine hage.trans ⟨fun h t ht => ?_, fun h => h .maxAgeSecs rfl⟩
  cases t with
  | maxAgeSecs => exact h
  | _ => cases ht

theorem ofToml?_sections : ofToml? d doc = some c ↔ ∃ root, doc.section? = some root ∧
    ∀ division : Division, ∃ group, root.under? division.key = some group ∧ Takes group d c division := by
  simp only [ofToml?_eq, Option.bind_eq_some_iff, Option.some.injEq]
  constructor
  · rintro ⟨root, hroot, _, ⟨g, hg, ht⟩, _, ⟨g', hg', hs⟩, _, ⟨g'', hg'', ha⟩, rfl⟩
    refine ⟨root, hroot, fun division => ?_⟩
    cases division with
    | timeouts => exact ⟨g, hg, timeoutsIn?_eq_some_iff.mp ht⟩
    | shell => exact ⟨g', hg', shellIn?_eq_some_iff.mp hs⟩
    | discovery => exact ⟨g'', hg'', maxAgeIn?_eq_some_iff.mp ha⟩
  · rintro ⟨root, hroot, h⟩
    obtain ⟨g, hg, ht⟩ := h .timeouts
    obtain ⟨g', hg', hs⟩ := h .shell
    obtain ⟨g'', hg'', ha⟩ := h .discovery
    exact ⟨root, hroot, _, ⟨g, hg, timeoutsIn?_eq_some_iff.mpr ht⟩, _,
      ⟨g', hg', shellIn?_eq_some_iff.mpr hs⟩, _, ⟨g'', hg'', maxAgeIn?_eq_some_iff.mpr ha⟩, rfl⟩

/-- A document is read setting by setting. -/
theorem ofToml?_eq_some_iff : ofToml? d doc = some c ↔
    ∀ t : Tunable, ∃ found, t.Finds doc found ∧ t.Takes (t.of d) found (t.of c) := by
  rw [ofToml?_sections]
  constructor
  · rintro ⟨root, hroot, h⟩ t
    obtain ⟨g, hg, ht⟩ := h t.division
    exact ⟨_, ⟨root, g, hroot, hg, rfl⟩, ht t rfl⟩
  · intro h
    obtain ⟨_, ⟨root, _, hroot, -, -⟩, -⟩ := h .term
    have hfound : ∀ t : Tunable, ∃ g, root.under? t.division.key = some g ∧
        t.Takes (t.of d) (g t.key.1 t.key.2) (t.of c) := by
      intro t
      obtain ⟨_, ⟨root', g, hroot', hg, rfl⟩, ht⟩ := h t
      obtain rfl := Option.some.inj (hroot.symm.trans hroot')
      exact ⟨g, hg, ht⟩
    refine ⟨root, hroot, fun division => ?_⟩
    obtain ⟨t, rfl⟩ : ∃ t : Tunable, t.division = division := by
      cases division with
      | timeouts => exact ⟨.resolveSecs, rfl⟩
      | shell => exact ⟨.term, rfl⟩
      | discovery => exact ⟨.maxAgeSecs, rfl⟩
    obtain ⟨g, hg, -⟩ := hfound t
    refine ⟨g, hg, fun t' hdivision => ?_⟩
    obtain ⟨g', hg', ht'⟩ := hfound t'
    rw [hdivision, hg] at hg'
    rwa [Option.some.inj hg']

theorem exists_of {settings : Tunable → Setting} (h : ∀ t : Tunable, t.Admits (settings t)) :
    ∃ c : BridgeConfig, ∀ t : Tunable, t.of c = settings t := by
  obtain ⟨resolve, hresolve⟩ := (h .resolveSecs).natural nofun
  obtain ⟨link, hlink⟩ := (h .linkSecs).natural nofun
  obtain ⟨poll, hpoll⟩ := (h .pollIntervalMs).natural nofun
  obtain ⟨probe, hprobe⟩ := (h .probeMillis).natural nofun
  obtain ⟨term, hterm⟩ := (h .term).text
  obtain ⟨rows, hrows⟩ := (h .defaultRows).word (.inl rfl)
  obtain ⟨cols, hcols⟩ := (h .defaultCols).word (.inr rfl)
  obtain ⟨age, hage⟩ := (h .maxAgeSecs).natural nofun
  refine ⟨⟨⟨resolve, link, poll, probe⟩, ⟨term, rows, cols⟩, age⟩, fun t => ?_⟩
  cases t <;> simp only [of, *]

/-- Whether a document is understood does not depend on the defaults. -/
theorem understood_iff (hd : ∀ t : Tunable, t.Admits (t.of d)) :
    Understood doc ↔ ∃ c, ofToml? d doc = some c := by
  simp only [ofToml?_eq_some_iff]
  constructor
  · intro h
    have hchoice : ∀ t : Tunable, ∃ x, t.Admits x ∧
        ∃ found, t.Finds doc found ∧ t.Takes (t.of d) found x := by
      intro t
      obtain ⟨found, hfound, hkind⟩ := h t
      cases found with
      | none => exact ⟨t.of d, hd t, none, hfound, .default⟩
      | some v =>
        obtain ⟨x, hx, rfl⟩ := hkind v rfl
        exact ⟨x, hx, _, hfound, .value hx⟩
    choose settings hadmits htakes using hchoice
    obtain ⟨c, hc⟩ := exists_of hadmits
    exact ⟨c, fun t => hc t ▸ htakes t⟩
  · rintro ⟨c, hc⟩ t
    obtain ⟨found, hfound, htakes⟩ := hc t
    exact ⟨found, hfound, htakes.understood⟩

end BridgeConfig

end MeshShell
