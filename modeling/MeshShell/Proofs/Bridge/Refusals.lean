import MeshShell.Proofs.Bridge.Bootstrap
import MeshShell.Proofs.Bridge.Status
import MeshShell.Proofs.Gateway.Entries
import MeshShell.Proofs.Gateway.Lasting

/-! # Hosts that are refused

A bridge in direct-gateway mode has no use for hosts that name this machine. A
probe of such a host is refused, as a gateway it is rejected, and as the host of
a first bootstrap it asks for the shared instance. All three look at the host in
a way of their own and come to the same.
-/
namespace MeshShell.Bridge

open Simulation

/-- What every instance has that was started, and what nothing takes from it later. -/
structure Inborn (P : Instance → Prop) : Prop where
  start : ∀ config thread directory host port site i site',
    Instance.start config thread directory host port site = (.ok i, site') → P i
  discovery : ∀ i discovery, P i → P { i with discovery }
  identity : ∀ i identity, P i → P { i with identity }
  ensure : ∀ i host port (n : Network), P i →
    P { i with gateways := (i.gateways.ensure host port n).2.1 }

/-- If an instance runs it has a property. -/
def Has (P : Instance → Prop) (b : Bridge) : Prop := ∀ i, b.running = some i → P i

section Inborn

variable {P : Instance → Prop} {b : Bridge}

theorem Has.of_none (h : b.running = none) : Has P b := fun _ hi => nomatch h.symm.trans hi

theorem Has.of_some {i : Instance} (h : b.running = some i) (hi : P i) : Has P b := by
  intro j hj
  obtain rfl := Option.some.inj (h.symm.trans hj)
  exact hi

theorem Inborn.refresh (hp : Inborn P) (hb : Has P b) : Has P b.refresh := by
  cases hr : b.running with
  | none => exact .of_none (by rw [refresh_none hr, hr])
  | some i =>
    obtain ⟨discovery, hi, -⟩ := refresh_some hr
    exact .of_some hi (hp.discovery i discovery (hb i hr))

theorem Inborn.identify {i : Instance} (hp : Inborn P) (hi : P i) (b : Bridge) (fresh : KeyPair) :
    Has P (b.identify fresh i).2 := by
  obtain ⟨-, identity, he⟩ := (identified i fresh b.site.files).spares
  refine .of_some (running_identify b fresh i) ?_
  rw [he]
  exact hp.identity i identity hi

theorem Inborn.bootstrap (hp : Inborn P) (hb : Has P b) (fresh : KeyPair) (thread : Option String)
    (directory host : String) (port : UInt16) :
    Has P (b.bootstrap fresh thread directory host port).2 := by
  cases hr : b.running with
  | none =>
    cases hs : Instance.start b.config thread directory host port b.site with
    | mk result site =>
      cases result with
      | error e =>
        rw [bootstrap_error hr hs]
        exact .of_none hr
      | ok i =>
        rw [bootstrap_ok hr hs]
        exact hp.identify (hp.start _ _ _ _ _ _ i site hs) _ fresh
  | some i =>
    rw [bootstrap_running hr, addGateway_eq]
    exact hp.identify (hp.ensure i host port _ (hb i hr)) _ fresh

theorem Inborn.act {b' : Bridge} (hp : Inborn P) (hb : Has P b) (h : Act b b') : Has P b' := by
  cases h with
  | bootstrap fresh thread directory host port => exact hp.bootstrap hb fresh thread directory host port
  | files change => exact hb
  | mesh change => exact hp.refresh (b := { b with site := b.site.mapNetwork change }) hb
  | quiet => exact hp.refresh (b := { b with site := b.site.quiet }) hb
  | board f hf =>
    exact hp.refresh (b := { b with site := { b.site with board := (f b.site.board).2 } }) hb

theorem Inborn.outcome (hp : Inborn P) (x : Service) : Has P x.outcome :=
  x.run.invariant (.of_none rfl) fun r b hb =>
    (acts_serve r b).keep hb fun _ _ hact hc => hp.act hc hact

end Inborn

/-- The gateways of an instance are kept in the mode of the instance. -/
theorem inborn_mode : Inborn fun i => i.gateways.mode = i.mode where
  start := by
    intro config thread directory host port site i site' h
    obtain ⟨hgateways, -⟩ := Gateways.launch_ok ⟨config, thread, directory, host, port, site, []⟩ h
    rcases instance_start config thread directory host port site with
      ⟨_, _, -, he⟩ | ⟨_, _, -, ⟨_, _, -, he, -⟩ | ⟨j, _, -, he, -, hmode, -⟩⟩
    · simp [he] at h
    · simp [he] at h
    · obtain rfl := Except.ok.inj (Prod.mk.inj (he.symm.trans h)).1
      rw [hgateways, Gateways.mode_start, hmode]
  discovery := fun _ _ h => h
  identity := fun _ _ h => h
  ensure := by
    intro i host port n h
    have hens := Gateways.ensured i.gateways host port n
    dsimp only
    generalize i.gateways.ensure host port n = out at hens ⊢
    cases hens <;> exact h

/-- The probe is refused: nobody is asked whether they answer. -/
def Refuses (b : Bridge) (host : String) : Prop := ∀ answers, b.probe answers host = false

/-- Every bridge that is bootstrapped for a host first gets into a mode. -/
def Chooses (host : String) (mode : InstanceMode) : Prop :=
  ∀ (b : Bridge) fresh thread directory port i, b.running = none →
    (b.bootstrap fresh thread directory host port).2.running = some i → i.mode = mode

theorem refuses_iff {b : Bridge} {i : Instance} (hr : b.running = some i) (host : String) :
    b.Refuses host ↔ i.mode = .directGateway ∧ Host.isLoopback host = true := by
  unfold Refuses probe
  rw [hr]
  dsimp only
  constructor
  · intro h
    simpa using h fun _ => true
  · intro h answers
    simp [h]

theorem mode_of_first {b : Bridge} {fresh : KeyPair} {thread : Option String}
    {directory host : String} {port : UInt16} {i : Instance} (hr : b.running = none)
    (hi : (b.bootstrap fresh thread directory host port).2.running = some i) :
    i.mode = .forHost host := by
  have hb := boot b fresh thread directory host port
  generalize b.bootstrap fresh thread directory host port = out at hb hi
  cases hb with
  | unwritten => exact nomatch hr.symm.trans hi
  | refused => exact nomatch hr.symm.trans hi
  | started j site s _ _ _ hmode =>
    obtain ⟨-, identity, he⟩ := (identified j fresh site.files).spares
    have hj : some { j with identity } = some i := (congrArg some he.symm).trans hi
    rw [← Option.some.inj hj]
    exact hmode
  | resumed j hj => exact nomatch hr.symm.trans hj

theorem exists_first (host : String) : ∃ (b : Bridge) (fresh : KeyPair) (i : Instance),
    b.running = none ∧ (b.bootstrap fresh none "cfg" host 4242).2.running = some i := by
  let b := new (.default []) .empty
  let fresh : KeyPair := ⟨List.replicate 32 0, rfl⟩
  have hl : launch? b (.bootstrap fresh none "cfg" host 4242) = some (.ok ()) := rfl
  obtain ⟨i, hi, -⟩ := (boot b fresh none "cfg" host 4242).runs_of_launch rfl hl
  exact ⟨b, fresh, i, rfl, hi⟩

theorem chooses_iff (host : String) (mode : InstanceMode) :
    Chooses host mode ↔ InstanceMode.forHost host = mode := by
  constructor
  · intro h
    obtain ⟨b, fresh, i, hr, hi⟩ := exists_first host
    rw [← mode_of_first hr hi, h b fresh none "cfg" 4242 i hr hi]
  · rintro rfl b fresh thread directory port i hr hi
    exact mode_of_first hr hi

theorem chooses_shared_iff (host : String) :
    Chooses host .sharedInstance ↔ Host.isLoopback host = true := by
  rw [chooses_iff, InstanceMode.forHost]
  split <;> simp_all

/-- Whether a host names this machine does not depend on how it is written, so in direct-gateway mode
a host is refused, rejected, and held to ask for the shared instance together. -/
theorem classified_alike :
    (∀ host pairs other, Host.Spelling host pairs other →
      Host.isLoopback other = Host.isLoopback host) ∧
    (∀ host port, Host.isLoopback (Endpoint.of host port).host = Host.isLoopback host) ∧
    ∀ (x : Service) i, x.outcome.running = some i → i.mode = .directGateway →
      ∀ host port (n : Network), i.gateways.contains host port = false →
        (x.outcome.Refuses host ↔ (i.gateways.ensure host port n).1 = .rejected (.of host port)) ∧
        ((i.gateways.ensure host port n).1 = .rejected (.of host port) ↔
          Chooses host .sharedInstance) := by
  refine ⟨fun _ _ _ h => h.isLoopback, fun host _ => Host.isLoopback_normal host, ?_⟩
  intro x i hr hdirect host port n hnew
  have hmode : i.gateways.mode = .directGateway := (inborn_mode.outcome x i hr).trans hdirect
  have hbars : i.gateways.Bars (.of host port) ↔ Host.isLoopback host = true := by
    rw [Gateways.Bars, hmode, ← Host.isLoopback_normal host]
    exact and_iff_right rfl
  rw [Gateways.rejected_iff hnew, hbars, refuses_iff hr, chooses_shared_iff, hdirect]
  exact ⟨and_iff_right rfl, Iff.rfl⟩

/-- A bridge that was started for a gateway. -/
def faraway : Service :=
  { config := .default []
    files := .empty
    requests := [.bootstrap ⟨List.replicate 32 1, rfl⟩ none "cfg" "10.0.0.5" 4242] }

theorem classified_alike_localhost : ∃ i, faraway.outcome.running = some i ∧
    faraway.outcome.Refuses " LocalHost " ∧
    (i.gateways.ensure " LocalHost " 1 Network.empty).1 = .rejected (.of " LocalHost " 1) ∧
    Chooses " LocalHost " .sharedInstance := by
  have hruns : faraway.outcome.running.isSome = true := by decide +kernel
  obtain ⟨i, hi⟩ := Option.isSome_iff_exists.mp hruns
  have hstart : faraway.outcome.running.map (fun j => (j.mode, j.gateways.contains " LocalHost " 1)) =
      some (.directGateway, false) := by decide +kernel
  rw [hi] at hstart
  obtain ⟨hdirect, hnew⟩ := Prod.mk.inj (Option.some.inj hstart)
  obtain ⟨hspelled, -, halike⟩ := classified_alike
  obtain ⟨hrefused, hrejected⟩ := halike faraway i hi hdirect " LocalHost " 1 .empty hnew
  have hblank : Text.Blank " ".toList := by decide
  have hlower : Text.lower "LocalHost".toList = Text.lower "localhost".toList := by decide
  have hspelling : Host.Spelling "localhost" 0 " LocalHost " :=
    .padded " " " " (.recased "LocalHost" .same hlower) hblank hblank
  have hlocal : Host.isLoopback " LocalHost " = true :=
    (hspelled "localhost" 0 _ hspelling).trans (by decide +kernel)
  have hchosen : Chooses " LocalHost " .sharedInstance := (chooses_shared_iff _).mpr hlocal
  exact ⟨i, hi, hrefused.mpr (hrejected.mpr hchosen), hrejected.mpr hchosen, hchosen⟩

end MeshShell.Bridge
