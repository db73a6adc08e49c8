import MeshShell.Bridge.Basic
import MeshShell.Proofs.Identity.Saving
import MeshShell.Proofs.Run
import MeshShell.Proofs.Simulation.Record

/-! # How a bootstrap goes

A bootstrap starts the transport or finds it running, and then sees to the
identity. Between bootstraps the files and the mesh change as they like.
-/
namespace MeshShell.Bridge

open Simulation

/-- A change of the mesh in which no transport is started and nobody new listens. -/
structure Change where
  apply : Network → Network
  record_apply : ∀ n, (apply n).record = n.record

inductive Event
  | bootstrap (fresh : KeyPair) (thread : Option String) (directory host : String) (port : UInt16)
  | files (change : Files → Files)
  | mesh (change : Change)

def happen : Event → Bridge → Bridge
  | .bootstrap fresh thread directory host port, b => (b.bootstrap fresh thread directory host port).2
  | .files change, b => { b with site := { b.site with files := change b.site.files } }
  | .mesh change, b => b.mapNetwork change.apply

def answer? (b : Bridge) : Event → Option (Except BridgeError String)
  | .bootstrap fresh thread directory host port =>
    some (b.bootstrap fresh thread directory host port).1
  | _ => none

/-- What the start of the transport comes to, if it is tried. -/
def launch? (b : Bridge) : Event → Option (Except TransportError Unit)
  | .bootstrap _ thread directory host port =>
    match b.running with
    | some _ => none
    | none =>
      let written := TransportConfig.forTarget (.forHost host) host port
      match (written.writeTo directory).run b.site.files with
      | .error _ _ => none
      | .ok _ _ => some (b.site.network.start thread ⟨.ofThread thread, written, directory⟩).1
  | _ => none

/-- A new bridge and what happens to it. -/
structure Startup where
  config : BridgeConfig
  files : Files
  events : List Event

namespace Startup

def history (x : Startup) : List (Bridge × Event) :=
  trail happen (.new x.config x.files) x.events

def outcome (x : Startup) : Bridge := reach happen (.new x.config x.files) x.events

theorem run (x : Startup) : Run happen (.new x.config x.files) x.history x.outcome :=
  .of_actions happen _ x.events

end Startup

theorem expire_frame (i : Instance) (now : Millis) :
    ∃ discovery, i.expire now = { i with discovery } := by
  unfold Instance.expire
  split <;> exact ⟨_, rfl⟩

theorem listen_frame (i : Instance) (s : Site) : ∃ discovery,
    (i.listen s).1 = { i with discovery } ∧ (i.listen s).2.network.record = s.network.record := by
  obtain ⟨discovery, he⟩ := expire_frame (i.hear s.network.takeNotices.1) s.board.now
  exact ⟨discovery, he, rfl⟩

theorem refresh_none {b : Bridge} (h : b.running = none) : b.refresh = b := by
  unfold refresh
  rw [h]

theorem refresh_some {b : Bridge} {i : Instance} (h : b.running = some i) : ∃ discovery,
    b.refresh.running = some { i with discovery } ∧
      b.refresh.site.network.record = b.site.network.record := by
  obtain ⟨discovery, hi, hr⟩ := listen_frame i b.site
  refine ⟨discovery, ?_, ?_⟩ <;> unfold refresh <;> rw [h]
  · exact congrArg some hi
  · exact hr

theorem record_mapNetwork (s : Site) (f : Network → Network) :
    (s.mapNetwork f).network.record = (f s.network).record :=
  Network.unaffected_record.disturb s.board f

/-- How an instance comes out of the loading of its identity. -/
inductive Identified (i : Instance) (f : Files) :
    Except BridgeError String × Instance × Files → Prop
  | known (k : KeyPair) : i.identity = some k → Identified i f (.ok k.hashText, i, f)
  | failed (cause : IdentityError) (g : Files) : i.identity = none → f.Spares KeyPair.fileNames g →
      Identified i f (.error (.identity cause), i, g)
  | loaded (k : KeyPair) (g : Files) : i.identity = none → f.Spares KeyPair.fileNames g →
      Identified i f (.ok k.hashText, { i with identity := some k }, g)

theorem identified (i : Instance) (fresh : KeyPair) (f : Files) :
    Identified i f (i.ensureIdentity fresh f) := by
  unfold Instance.ensureIdentity
  cases hi : i.identity with
  | some k => exact .known k hi
  | none =>
    have hspares := KeyPair.spares_loadOrCreate fresh i.directory f
    dsimp only
    unfold EStateM.run
    cases hl : KeyPair.loadOrCreate fresh (Path.join i.directory "haven_identity") f with
    | error cause g =>
      rw [hl] at hspares
      exact .failed cause g hi hspares
    | ok p g =>
      rw [hl] at hspares
      exact .loaded p.1 g hi hspares

/-- The end of a bootstrap, in which the identity is seen to. -/
def identify (b : Bridge) (fresh : KeyPair) (i : Instance) : Except BridgeError String × Bridge :=
  let (result, i, files) := i.ensureIdentity fresh b.site.files
  (result, { b with site := { b.site with files }, running := some i })

inductive Boot (b : Bridge) (fresh : KeyPair) (thread : Option String) (directory host : String)
    (port : UInt16) : Except BridgeError String × Bridge → Prop
  | unwritten (cause : ConfigError) (files : Files) : b.running = none →
      launch? b (.bootstrap fresh thread directory host port) = none →
      Boot b fresh thread directory host port
        (.error (.config cause), { b with site := { b.site with files } })
  | refused (cause : TransportError) (site : Site) (s : Start) : b.running = none →
      launch? b (.bootstrap fresh thread directory host port) = some (.error cause) →
      site.network.record = (b.site.network.starts ++ [s], b.site.network.listeners) →
      Boot b fresh thread directory host port (.error (.transport cause), { b with site })
  | started (i : Instance) (site : Site) (s : Start) : b.running = none →
      launch? b (.bootstrap fresh thread directory host port) = some (.ok ()) →
      site.network.record = (b.site.network.starts ++ [s],
        b.site.network.listeners ++ [⟨i.listener, shellAspect⟩]) →
      i.mode = .forHost host → i.directory = directory → i.identity = none →
      Boot b fresh thread directory host port ({ b with site, running := some i }.identify fresh i)
  | resumed (i : Instance) : b.running = some i →
      launch? b (.bootstrap fresh thread directory host port) = none →
      Boot b fresh thread directory host port
        ((b.addGateway i host port).2.identify fresh (b.addGateway i host port).1)

theorem instance_start (config : BridgeConfig) (thread : Option String) (directory host : String)
    (port : UInt16) (site : Site) :
    let written := TransportConfig.forTarget (.forHost host) host port
    let s : Start := ⟨.ofThread thread, written, directory⟩
    (∃ cause files, (written.writeTo directory).run site.files = .error cause files ∧
      Instance.start config thread directory host port site =
        (.error (.config cause), { site with files })) ∨
    ∃ path files, (written.writeTo directory).run site.files = .ok path files ∧
      ((∃ cause site', (site.network.start thread s).1 = .error cause ∧
          Instance.start config thread directory host port site = (.error (.transport cause), site') ∧
          site'.network.record = (site.network.starts ++ [s], site.network.listeners)) ∨
        ∃ i site', (site.network.start thread s).1 = .ok () ∧
          Instance.start config thread directory host port site = (.ok i, site') ∧
          site'.network.record = (site.network.starts ++ [s],
            site.network.listeners ++ [⟨i.listener, shellAspect⟩]) ∧
          i.mode = .forHost host ∧ i.directory = directory ∧ i.identity = none) := by
  intro written s
  cases hw : (written.writeTo directory).run site.files with
  | error cause files =>
    refine .inl ⟨cause, files, rfl, ?_⟩
    unfold Instance.start
    dsimp only
    rw [hw]
  | ok path files =>
    refine .inr ⟨path, files, rfl, ?_⟩
    have hstart := Network.snd_start thread s site.network
    unfold Instance.start
    dsimp only
    rw [hw]
    dsimp only
    have hnetwork : Site.network { site with files } = site.network := rfl
    rw [hnetwork]
    cases hs : site.network.start thread s with
    | mk result n =>
      rw [hs] at hstart
      obtain rfl : n = _ := hstart
      cases result with
      | error cause =>
        exact .inl ⟨cause, _, rfl, rfl, record_mapNetwork _ _⟩
      | ok =>
        refine .inr ⟨_, _, rfl, rfl, record_mapNetwork _ _, ?_, rfl, rfl⟩
        dsimp only

section Instance

variable {b : Bridge} {thread : Option String} {directory host : String} {port : UInt16} {site : Site}

theorem bootstrap_error {e : BridgeError} (hr : b.running = none)
    (hs : Instance.start b.config thread directory host port b.site = (.error e, site))
    {fresh : KeyPair} : b.bootstrap fresh thread directory host port = (.error e, { b with site }) := by
  simp [bootstrap, instanceFor, hr, hs]

theorem bootstrap_ok {i : Instance} (hr : b.running = none)
    (hs : Instance.start b.config thread directory host port b.site = (.ok i, site))
    {fresh : KeyPair} : b.bootstrap fresh thread directory host port =
      { b with site, running := some i }.identify fresh i := by
  simp [bootstrap, instanceFor, hr, hs, identify]

theorem bootstrap_running {i : Instance} (hr : b.running = some i) {fresh : KeyPair} :
    b.bootstrap fresh thread directory host port =
      (b.addGateway i host port).2.identify fresh (b.addGateway i host port).1 := by
  simp [bootstrap, instanceFor, hr, identify]

end Instance

theorem boot (b : Bridge) (fresh : KeyPair) (thread : Option String) (directory host : String)
    (port : UInt16) :
    Boot b fresh thread directory host port (b.bootstrap fresh thread directory host port) := by
  cases hr : b.running with
  | some i =>
    rw [bootstrap_running hr]
    exact .resumed i hr (by simp [launch?, hr])
  | none =>
    rcases instance_start b.config thread directory host port b.site with
      ⟨cause, files, hw, hs⟩ | ⟨path, files, hw, ⟨cause, site, hn, hs, hrecord⟩ |
        ⟨i, site, hn, hs, hrecord, hmode, hdirectory, hidentity⟩⟩
    · rw [bootstrap_error hr hs]
      exact .unwritten cause files hr (by simp [launch?, hr, hw])
    · rw [bootstrap_error hr hs]
      exact .refused cause site _ hr (by simp [launch?, hr, hw, hn]) hrecord
    · rw [bootstrap_ok hr hs]
      exact .started i site _ hr (by simp [launch?, hr, hw, hn]) hrecord hmode hdirectory hidentity

section Identify

variable {b : Bridge} {i : Instance} {fresh : KeyPair} {thread : Option String}
variable {directory host hash : String} {port : UInt16} {out : Except BridgeError String × Bridge}

theorem Identified.spares {f : Files} {p : Except BridgeError String × Instance × Files}
    (h : Identified i f p) :
    f.Spares KeyPair.fileNames p.2.2 ∧ ∃ identity, p.2.1 = { i with identity } := by
  cases h with
  | known => exact ⟨.refl _ f, _, rfl⟩
  | failed _ _ _ hs => exact ⟨hs, _, rfl⟩
  | loaded _ _ _ hs => exact ⟨hs, _, rfl⟩

theorem running_identify (b : Bridge) (fresh : KeyPair) (i : Instance) :
    (b.identify fresh i).2.running = some (i.ensureIdentity fresh b.site.files).2.1 := rfl

theorem files_identify (b : Bridge) (fresh : KeyPair) (i : Instance) :
    (b.identify fresh i).2.site.files = (i.ensureIdentity fresh b.site.files).2.2 := rfl

theorem board_identify (b : Bridge) (fresh : KeyPair) (i : Instance) :
    (b.identify fresh i).2.site.board = b.site.board := rfl

theorem network_identify (b : Bridge) (fresh : KeyPair) (i : Instance) :
    (b.identify fresh i).2.site.network = b.site.network := rfl

theorem addGateway_eq (b : Bridge) (i : Instance) (host : String) (port : UInt16) :
    b.addGateway i host port =
      ({ i with gateways := (i.gateways.ensure host port b.site.network).2.1 },
        { b with
          site := b.site.mapNetwork fun _ => (i.gateways.ensure host port b.site.network).2.2
          running := some { i with gateways := (i.gateways.ensure host port b.site.network).2.1 } }) := by
  unfold addGateway
  generalize i.gateways.ensure host port b.site.network = attached
  rfl

theorem identify_known {k : KeyPair} (b : Bridge) (fresh : KeyPair) (hk : i.identity = some k) :
    b.identify fresh i = (.ok k.hashText, { b with running := some i }) := by
  unfold identify Instance.ensureIdentity
  rw [hk]

/-- What the caller gets when the identity is loaded from a directory. -/
def loading (fresh : KeyPair) (directory : String) (files : Files) : Except BridgeError String :=
  match (KeyPair.loadOrCreate fresh (Path.join directory "haven_identity")).run files with
  | .ok (k, _) _ => .ok k.hashText
  | .error cause _ => .error (.identity cause)

theorem identify_unknown (b : Bridge) (fresh : KeyPair) (hi : i.identity = none) :
    (b.identify fresh i).1 = loading fresh i.directory b.site.files := by
  unfold identify Instance.ensureIdentity loading
  rw [hi]
  dsimp only
  cases (KeyPair.loadOrCreate fresh (Path.join i.directory "haven_identity")).run b.site.files <;> rfl

theorem identify_ok (h : (b.identify fresh i).1 = .ok hash) :
    (b.identify fresh i).2.identityHash = some hash := by
  have hi := identified i fresh b.site.files
  unfold identify at h ⊢
  unfold Bridge.identityHash
  generalize i.ensureIdentity fresh b.site.files = p at hi h ⊢
  cases hi with
  | known k hk =>
    obtain rfl := Except.ok.inj h
    simp [Instance.identityHash, hk]
  | failed => cases h
  | loaded k g =>
    obtain rfl := Except.ok.inj h
    simp [Instance.identityHash]

theorem identify_error {cause : IdentityError} (h : (b.identify fresh i).1 = .error (.identity cause)) :
    ∃ i', (b.identify fresh i).2.running = some i' ∧ i'.identity = none := by
  have hi := identified i fresh b.site.files
  unfold identify at h ⊢
  generalize i.ensureIdentity fresh b.site.files = p at hi h ⊢
  cases hi with
  | known => cases h
  | failed cause' g hnone => exact ⟨i, rfl, hnone⟩
  | loaded => cases h

theorem identify_ne_transport (b : Bridge) (fresh : KeyPair) (i : Instance) (cause : TransportError) :
    (b.identify fresh i).1 ≠ .error (.transport cause) := by
  have hi := identified i fresh b.site.files
  unfold identify
  generalize i.ensureIdentity fresh b.site.files = p at hi
  cases hi <;> simp

theorem record_addGateway (b : Bridge) (i : Instance) (host : String) (port : UInt16) :
    (b.addGateway i host port).2.site.network.starts = b.site.network.starts ∧
      (b.addGateway i host port).2.site.network.listeners = b.site.network.listeners := by
  have hrecord : (b.addGateway i host port).2.site.network.record = b.site.network.record :=
    (record_mapNetwork b.site _).trans (Network.record_ensure i.gateways host port b.site.network)
  exact Prod.mk.inj hrecord

theorem Boot.starts (hb : Boot b fresh thread directory host port out) :
    out.2.site.network.starts.length = b.site.network.starts.length +
      (launch? b (.bootstrap fresh thread directory host port)).toList.length := by
  cases hb with
  | unwritten cause files hr hl =>
    rw [hl]
    rfl
  | refused cause site s hr hl hrecord =>
    obtain ⟨hstarts, -⟩ := Prod.mk.inj hrecord
    simp [hl, hstarts]
  | started i site s hr hl hrecord =>
    obtain ⟨hstarts, -⟩ := Prod.mk.inj hrecord
    rw [hl, network_identify]
    simp [hstarts]
  | resumed i hr hl =>
    rw [hl, network_identify, (record_addGateway b i host port).1]
    rfl

theorem Boot.transport_iff (hb : Boot b fresh thread directory host port out) (cause : TransportError) :
    out.1 = .error (.transport cause) ↔
      launch? b (.bootstrap fresh thread directory host port) = some (.error cause) := by
  cases hb with
  | unwritten _ _ _ hl => simp [hl]
  | refused _ _ _ _ hl => simp [hl]
  | started i site _ _ hl => simp [hl, identify_ne_transport]
  | resumed i _ hl => simp [hl, identify_ne_transport]

end Identify

end MeshShell.Bridge
