import MeshShell.Proofs.Bridge.Calls

/-! # One start in the life of a bridge

Bootstraps come one after another, for any hosts and directories, while the
files and the mesh change. The first start of the transport that works is the
last one. What was fixed by it stays, and an identity that was given out once is
given out by every later bootstrap.
-/
namespace MeshShell.Bridge

open Simulation

/-- No transport has been started, and nobody listens. -/
def Unstarted (b : Bridge) : Prop := b.running = none ∧ b.site.network.listeners = []

/-- A transport runs that was started in a directory for a host. It is listened on once. -/
def Runs (directory host : String) (b : Bridge) : Prop :=
  ∃ i, b.running = some i ∧ i.mode = .forHost host ∧ i.directory = directory ∧
    b.site.network.listeners = [⟨i.listener, shellAspect⟩]

/-- What a bootstrap comes to while a transport runs: nothing but the gateways and the network they
are attached to becomes another, and the identity is loaded unless it has been. -/
structure Resumed (b : Bridge) (i : Instance) (fresh : KeyPair) (gateways : Gateways) (n : Network)
    (r : Except BridgeError String) (b' : Bridge) : Prop where
  running : ∃ identity, b'.running = some { i with gateways, identity }
  board : b'.site.board = b.site.board.disturb fun _ => n
  files : b.site.files.Spares KeyPair.fileNames b'.site.files
  /-- The configuration of the transport is not written again. -/
  config : ∀ place, b.site.files.resolve (TransportConfig.pathIn i.directory) = .ok place →
    ∀ content mode, b'.site.files.get? place = some (.file content mode) ↔
      b.site.files.get? place = some (.file content mode)
  known : ∀ k, i.identity = some k → r = .ok k.hashText ∧ b'.site.files = b.site.files
  unknown : i.identity = none → r = loading fresh i.directory b.site.files

section Boot

variable {b b' : Bridge} {i : Instance} {fresh : KeyPair} {thread : Option String}
variable {directory host : String} {port : UInt16} {out : Except BridgeError String × Bridge}
variable {hash : String}

theorem runs_identify (hmode : i.mode = .forHost host) (hdirectory : i.directory = directory)
    (hl : b.site.network.listeners = [⟨i.listener, shellAspect⟩]) :
    Runs directory host (b.identify fresh i).2 := by
  obtain ⟨-, identity, hi⟩ := (identified i fresh b.site.files).spares
  refine ⟨{ i with identity }, congrArg some hi, hmode, hdirectory, ?_⟩
  rwa [network_identify]

theorem Boot.of_running (hb : Boot b fresh thread directory host port out)
    (hr : b.running = some i) :
    out = (b.addGateway i host port).2.identify fresh (b.addGateway i host port).1 := by
  cases hb with
  | unwritten cause files hnone => simp [hr] at hnone
  | refused cause site s hnone => simp [hr] at hnone
  | started j site s hnone => simp [hr] at hnone
  | resumed j hj => rw [Option.some.inj (hj.symm.trans hr)]

theorem Boot.unstarted (hb : Boot b fresh thread directory host port out) (h : b.Unstarted)
    (hl : launch? b (.bootstrap fresh thread directory host port) ≠ some (.ok ())) :
    out.2.Unstarted ∧ ∃ cause, out.1 = .error cause := by
  cases hb with
  | unwritten cause files => exact ⟨h, _, rfl⟩
  | refused cause site s hr _ hrecord =>
    obtain ⟨-, hlisteners⟩ := Prod.mk.inj hrecord
    exact ⟨⟨h.1, hlisteners.trans h.2⟩, _, rfl⟩
  | started i site s _ hstarted => exact absurd hstarted hl
  | resumed i hr => exact absurd (hr.symm.trans h.1) (by simp)

theorem Boot.runs_of_launch (hb : Boot b fresh thread directory host port out)
    (h : b.site.network.listeners = [])
    (hl : launch? b (.bootstrap fresh thread directory host port) = some (.ok ())) :
    Runs directory host out.2 := by
  cases hb with
  | unwritten cause files _ hnone => simp [hnone] at hl
  | refused cause site s _ hrefused => simp [hrefused] at hl
  | resumed i _ hnone => simp [hnone] at hl
  | started i site s _ _ hrecord hmode hdirectory =>
    obtain ⟨-, hlisteners⟩ := Prod.mk.inj hrecord
    rw [h] at hlisteners
    exact runs_identify hmode hdirectory hlisteners

theorem Boot.runs {directory' host' : String} (hb : Boot b fresh thread directory' host' port out)
    (h : Runs directory host b) : Runs directory host out.2 := by
  obtain ⟨i, hr, hmode, hdirectory, hlisteners⟩ := h
  rw [hb.of_running hr]
  refine runs_identify hmode hdirectory ?_
  rwa [(record_addGateway b i host' port).2]

theorem Boot.again (hb : Boot b fresh thread directory host port out)
    (h : b.identityHash = some hash) : out.1 = .ok hash ∧ out.2.identityHash = some hash := by
  obtain ⟨i, hr, hi⟩ := Option.bind_eq_some_iff.mp h
  obtain ⟨k, hk, rfl⟩ := Option.map_eq_some_iff.mp hi
  have hattached : (b.addGateway i host port).1.identity = some k := hk
  have hok := congrArg Prod.fst (identify_known (b.addGateway i host port).2 fresh hattached)
  rw [hb.of_running hr]
  exact ⟨hok, identify_ok hok⟩

theorem Boot.given (hb : Boot b fresh thread directory host port out) (h : out.1 = .ok hash) :
    out.2.identityHash = some hash := by
  cases hb with
  | unwritten => cases h
  | refused => cases h
  | started => exact identify_ok h
  | resumed => exact identify_ok h

theorem Boot.kept (hb : Boot b fresh thread directory host port out) {cause : IdentityError}
    (h : out.1 = .error (.identity cause)) : ∃ i, out.2.running = some i ∧ i.identity = none := by
  cases hb with
  | unwritten => cases h
  | refused => cases h
  | started => exact identify_error h
  | resumed => exact identify_error h

theorem resumed_identify {c : Bridge} {j : Instance} {gateways : Gateways} {n : Network}
    (hj : j = { i with gateways }) (hfiles : c.site.files = b.site.files)
    (hboard : c.site.board = b.site.board.disturb fun _ => n) :
    Resumed b i fresh gateways n (c.identify fresh j).1 (c.identify fresh j).2 := by
  have hdirectory : j.directory = i.directory := by rw [hj]
  have hidentity : j.identity = i.identity := by rw [hj]
  obtain ⟨hspares, identity, hrunning⟩ := (identified j fresh c.site.files).spares
  rw [← files_identify, hfiles] at hspares
  refine
    { running := ⟨identity, ?_⟩
      board := (board_identify c fresh j).trans hboard
      files := hspares
      config := ?_
      known := ?_
      unknown := ?_ }
  · rw [running_identify, hrunning, hj]
  · intro place hplace
    have hplain : Path.Plain "config" := ⟨by decide, by decide⟩
    have hhead := Files.head?_resolve (Path.names_join i.directory hplain) (by decide) (by decide)
      hplace
    have hother : ∀ name ∈ KeyPair.fileNames, place.head? ≠ some name := by
      rw [hhead]
      decide
    exact hspares place hother
  · intro k hk
    rw [identify_known c fresh (hidentity.trans hk)]
    exact ⟨rfl, hfiles⟩
  · intro hnone
    rw [identify_unknown c fresh (hidentity.trans hnone), hdirectory, hfiles]

theorem resumed (hr : b.running = some i) : Resumed b i fresh
    (i.gateways.ensure host port b.site.network).2.1 (i.gateways.ensure host port b.site.network).2.2
    (b.bootstrap fresh thread directory host port).1
    (b.bootstrap fresh thread directory host port).2 := by
  rw [bootstrap_running hr, addGateway_eq]
  generalize i.gateways.ensure host port b.site.network = attached
  apply resumed_identify
  · dsimp only
  · dsimp only [Site.mapNetwork]
  · dsimp only [Site.mapNetwork]

end Boot

/-- A change of the mesh adds nothing to the record, and of the instance it changes what is
discovered. -/
theorem happen_mesh (b : Bridge) (change : Change) :
    (happen (.mesh change) b).site.network.record = b.site.network.record ∧
      (b.running = none → (happen (.mesh change) b).running = none) ∧
      ∀ i, b.running = some i →
        ∃ discovery, (happen (.mesh change) b).running = some { i with discovery } := by
  have hrecord := record_mapNetwork b.site change.apply
  rw [change.record_apply] at hrecord
  let c : Bridge := { b with site := b.site.mapNetwork change.apply }
  have hc : happen (.mesh change) b = c.refresh := rfl
  have hrunning : c.running = b.running := rfl
  rw [hc]
  cases hr : b.running with
  | none =>
    rw [refresh_none (hrunning.trans hr)]
    exact ⟨hrecord, fun _ => hrunning.trans hr, by simp⟩
  | some i =>
    obtain ⟨discovery, hi, hrefresh⟩ := refresh_some (hrunning.trans hr)
    refine ⟨hrefresh.trans hrecord, by simp, ?_⟩
    intro j hj
    obtain rfl := Option.some.inj hj
    exact ⟨discovery, hi⟩

section Runs

variable {b b' : Bridge} {e : Event} {directory host hash : String} {hist : List (Bridge × Event)}

theorem Unstarted.happen (h : b.Unstarted) (hl : launch? b e ≠ some (.ok ())) :
    (happen e b).Unstarted ∧ ∀ r, answer? b e = some r → ∃ cause, r = .error cause := by
  cases e with
  | bootstrap fresh thread directory host port =>
    obtain ⟨hun, hfailed⟩ := (boot b fresh thread directory host port).unstarted h hl
    refine ⟨hun, fun r hr => ?_⟩
    rwa [← Option.some.inj hr]
  | files change => exact ⟨h, by simp [answer?]⟩
  | mesh change =>
    refine ⟨?_, by simp [answer?]⟩
    obtain ⟨hrecord, hnone, -⟩ := happen_mesh b change
    exact ⟨hnone h.1, (congrArg Prod.snd hrecord).trans h.2⟩

theorem Runs.happen (h : Runs directory host b) (e : Event) :
    Runs directory host (happen e b) ∧ launch? b e = none := by
  obtain ⟨i, hr, hmode, hdirectory, hlisteners⟩ := id h
  cases e with
  | bootstrap fresh thread directory' host' port =>
    exact ⟨(boot b fresh thread directory' host' port).runs h, by simp [launch?, hr]⟩
  | files change => exact ⟨h, rfl⟩
  | mesh change =>
    refine ⟨?_, rfl⟩
    obtain ⟨hrecord, -, hsome⟩ := happen_mesh b change
    obtain ⟨discovery, hi⟩ := hsome i hr
    exact ⟨_, hi, hmode, hdirectory, (congrArg Prod.snd hrecord).trans hlisteners⟩

def OneOrNone (b : Bridge) : Prop := b.Unstarted ∨ ∃ directory host, Runs directory host b

theorem OneOrNone.happen (h : b.OneOrNone) (e : Event) : (happen e b).OneOrNone := by
  rcases h with h | ⟨directory, host, h⟩
  · by_cases hl : launch? b e = some (.ok ())
    · cases e with
      | bootstrap fresh thread directory host port =>
        exact .inr ⟨directory, host,
          (boot b fresh thread directory host port).runs_of_launch h.2 hl⟩
      | files => simp [launch?] at hl
      | mesh => simp [launch?] at hl
    · exact .inl (h.happen hl).1
  · exact .inr ⟨directory, host, (h.happen e).1⟩

theorem listeners_of_launch (h : b.OneOrNone) (hl : launch? b e = some (.ok ())) :
    b.site.network.listeners = [] := by
  rcases h with h | ⟨directory, host, h⟩
  · exact h.2
  · simp [(h.happen e).2] at hl

theorem known_happen (h : b.identityHash = some hash) (e : Event) :
    (happen e b).identityHash = some hash ∧ ∀ r, answer? b e = some r → r = .ok hash := by
  cases e with
  | bootstrap fresh thread directory host port =>
    obtain ⟨hok, hknown⟩ := (boot b fresh thread directory host port).again h
    refine ⟨hknown, fun r hr => ?_⟩
    rwa [← Option.some.inj hr]
  | files change => exact ⟨h, by simp [answer?]⟩
  | mesh change =>
    refine ⟨?_, by simp [answer?]⟩
    obtain ⟨i, hr, hi⟩ := Option.bind_eq_some_iff.mp h
    obtain ⟨-, -, hsome⟩ := happen_mesh b change
    obtain ⟨discovery, hrunning⟩ := hsome i hr
    exact Option.bind_eq_some_iff.mpr ⟨_, hrunning, hi⟩

theorem unstarted_of_run (hr : Run happen b hist b') (h : b.Unstarted)
    (hl : ∀ u e, (u, e) ∈ hist → launch? u e ≠ some (.ok ())) :
    b'.Unstarted ∧ ∀ u e r, (u, e) ∈ hist → answer? u e = some r → ∃ cause, r = .error cause := by
  induction hr with
  | nil => exact ⟨h, by simp⟩
  | @snoc hist u e _ ih =>
    obtain ⟨hu, hbefore⟩ := ih fun u' e' hm => hl u' e' (List.mem_append_left _ hm)
    obtain ⟨hnext, hnow⟩ := hu.happen (hl u e (by simp))
    refine ⟨hnext, fun u' e' r hm ha => ?_⟩
    rcases List.mem_append.mp hm with hm | hm
    · exact hbefore u' e' r hm ha
    · obtain ⟨rfl, rfl⟩ := Prod.mk.inj (List.mem_singleton.mp hm)
      exact hnow r ha

end Runs

/-- What can be relied on however often a bridge is bootstrapped. -/
structure Startup.OneTime (x : Startup) : Prop where
  /-- Every start of the transport is on record. -/
  recorded : ∀ b e, (b, e) ∈ x.history →
    (happen e b).site.network.starts.length =
      b.site.network.starts.length + (launch? b e).toList.length
  refused : ∀ b e cause, (b, e) ∈ x.history →
    (answer? b e = some (.error (.transport cause)) ↔ launch? b e = some (.error cause))
  /-- Until a start works the bridge is uninitialized, and every bootstrap fails. -/
  idle : (∀ b e, (b, e) ∈ x.history → launch? b e ≠ some (.ok ())) →
    Unstarted x.outcome ∧ x.outcome.status = .uninitialized ∧ x.outcome.identityHash = none ∧
      ∀ b e r, (b, e) ∈ x.history → answer? b e = some r → ∃ cause, r = .error cause
  /-- No start follows one that works, and its host and directory are kept. -/
  locked : ∀ earlier b fresh thread directory host port later,
    x.history = earlier ++ (b, .bootstrap fresh thread directory host port) :: later →
    launch? b (.bootstrap fresh thread directory host port) = some (.ok ()) →
      Runs directory host x.outcome ∧
        ∀ b' e, (b', e) ∈ later → launch? b' e = none ∧ Runs directory host b'
  resumed : ∀ b fresh thread directory host port i,
    (b, .bootstrap fresh thread directory host port) ∈ x.history → b.running = some i →
      Resumed b i fresh (i.gateways.ensure host port b.site.network).2.1
        (i.gateways.ensure host port b.site.network).2.2
        (b.bootstrap fresh thread directory host port).1
        (b.bootstrap fresh thread directory host port).2
  /-- A failure to load the identity leaves the transport running. -/
  kept : ∀ b e cause, (b, e) ∈ x.history → answer? b e = some (.error (.identity cause)) →
    ∃ i, (happen e b).running = some i ∧ i.identity = none
  /-- The first identity that is given out is the only one. -/
  settled : ∀ earlier b e later hash, x.history = earlier ++ (b, e) :: later →
    answer? b e = some (.ok hash) → x.outcome.identityHash = some hash ∧
      ∀ b' e' r, (b', e') ∈ later → answer? b' e' = some r → r = .ok hash

theorem unstarted_new (config : BridgeConfig) (files : Files) : (new config files).Unstarted :=
  ⟨rfl, rfl⟩

/-- However often a bridge is bootstrapped, one start of the transport works at the most. -/
theorem bootstrap_once (x : Startup) : x.OneTime := by
  have hnew := unstarted_new x.config x.files
  exact
    { recorded := by
        intro b e _
        cases e with
        | bootstrap fresh thread directory host port =>
          exact (boot b fresh thread directory host port).starts
        | files => rfl
        | mesh change => exact congrArg (·.1.length) (happen_mesh b change).1
      refused := by
        intro b e cause _
        cases e with
        | bootstrap fresh thread directory host port =>
          simpa [answer?] using (boot b fresh thread directory host port).transport_iff cause
        | files => simp [answer?, launch?]
        | mesh => simp [answer?, launch?]
      idle := by
        intro hl
        obtain ⟨hun, hfailed⟩ := unstarted_of_run x.run hnew hl
        exact ⟨hun, by simp [status, hun.1], by simp [identityHash, hun.1], hfailed⟩
      locked := by
        intro earlier b fresh thread directory host port later hhist hl
        obtain ⟨hbefore, hafter⟩ := (hhist ▸ x.run).split
        -- Before the first start nobody listens, so its listener is the only one.
        have hstate := hbefore.invariant (P := OneOrNone) (.inl hnew) fun e u hu => hu.happen e
        have hruns := (boot b fresh thread directory host port).runs_of_launch
          (listeners_of_launch hstate hl) hl
        have hkeep : ∀ e u, Runs directory host u → Runs directory host (happen e u) :=
          fun e u hu => (hu.happen e).1
        refine ⟨hafter.invariant hruns hkeep, fun b' e hm => ?_⟩
        have hb' := hafter.always hruns hkeep hm
        exact ⟨(hb'.happen e).2, hb'⟩
      resumed := fun b fresh thread directory host port i _ hr => resumed hr
      kept := by
        intro b e cause _ ha
        cases e with
        | bootstrap fresh thread directory host port =>
          exact (boot b fresh thread directory host port).kept (Option.some.inj ha)
        | files => simp [answer?] at ha
        | mesh => simp [answer?] at ha
      settled := by
        intro earlier b e later hash hhist ha
        obtain ⟨-, hafter⟩ := (hhist ▸ x.run).split
        have hgiven : (happen e b).identityHash = some hash := by
          cases e with
          | bootstrap fresh thread directory host port =>
            exact (boot b fresh thread directory host port).given (Option.some.inj ha)
          | files => simp [answer?] at ha
          | mesh => simp [answer?] at ha
        have hkeep : ∀ e u, identityHash u = some hash → (happen e u).identityHash = some hash :=
          fun e u hu => (known_happen hu e).1
        refine ⟨hafter.invariant hgiven hkeep, fun b' e' r hm hr => ?_⟩
        exact (known_happen (hafter.always hgiven hkeep hm) e').2 r hr }

/-- A bridge whose first start fails, and which is bootstrapped twice more. -/
def retried : Startup :=
  let failing (fails : Bool) : Change :=
    { apply := fun n => { n with failStart := fails }, record_apply := fun _ => rfl }
  let boot (directory host : String) : Event :=
    .bootstrap ⟨List.replicate 32 0, rfl⟩ none directory host 4242
  { config := .default []
    files := .empty
    events := [.mesh (failing true), boot "cfg" "10.0.0.5", .mesh (failing false),
      boot "cfg" "10.0.0.5", boot "other" "127.0.0.1"] }

example : retried.history.map (fun p => (launch? p.1 p.2).map (·.isOk)) =
    [none, some false, none, some true, none] := by decide +kernel

end MeshShell.Bridge
