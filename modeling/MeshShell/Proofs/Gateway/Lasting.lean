import MeshShell.Bridge.Instance
import MeshShell.Proofs.Gateway.Attempts
import MeshShell.Proofs.Run
import MeshShell.Proofs.Simulation.Record

/-! # Gateways last

From the start of an instance on the table of gateways only grows. Over any run
of calls the transport is asked once for each new endpoint, never for the first
one, and it holds the interfaces of exactly those for which it said yes.
-/
namespace MeshShell.Gateways

open Simulation

/-- A change of the mesh in which no interface comes or goes. -/
structure Change where
  apply : Network → Network
  interfaces_apply : ∀ n, (apply n).interfaces = n.interfaces

inductive Event
  | ensure (host : String) (port : UInt16)
  | mesh (change : Change)

/-- The gateways of an instance and the mesh that they are attached to. -/
structure Attachment where
  gateways : Gateways
  transport : Attempted Network

namespace Attachment

def attempts (u : Attachment) : List (Interface × Except TransportError Unit) := u.transport.attempts

def interfaces (u : Attachment) : List Interface := u.transport.inner.interfaces

end Attachment

def happen : Event → Attachment → Attachment
  | .ensure host port, u =>
    let (_, gateways, transport) := u.gateways.ensure host port u.transport
    { gateways, transport }
  | .mesh change, u => { u with transport := u.transport.pass (change.apply u.transport.inner) }

def outcome? (u : Attachment) : Event → Option GatewayOutcome
  | .ensure host port => some (u.gateways.ensure host port u.transport).1
  | .mesh _ => none

/-- The row that comes into the table with an outcome. -/
def rowOf (e : Endpoint) : GatewayOutcome → Option (Endpoint × GatewayState)
  | .attached => some (e, .online)
  | .attachedInert => some (e, .inert)
  | _ => none

def added? (u : Attachment) : Event → Option (Endpoint × GatewayState)
  | .ensure host port => rowOf (.of host port) (u.gateways.ensure host port u.transport).1
  | .mesh _ => none

/-- What was added in a history, in the order in which it was. -/
def added (hist : List (Attachment × Event)) : List (Endpoint × GatewayState) :=
  hist.filterMap fun (u, e) => added? u e

/-- The endpoints that are attached to the transport. -/
def onlineOf (rows : List (Endpoint × GatewayState)) : List Endpoint :=
  (rows.filter (·.2 = .online)).map (·.1)

/-- What is known of gateways that started with one endpoint and to which rows were added since. -/
structure Good (mode : InstanceMode) (first : Endpoint) (before : List Interface)
    (rows : List (Endpoint × GatewayState)) (u : Attachment) : Prop where
  mode : u.gateways.mode = mode
  table : u.gateways.table.Perm ((first, .online) :: rows)
  distinct : (first :: rows.map (·.1)).Nodup
  allowed : ∀ e ∈ first :: rows.map (·.1), ¬ u.gateways.Bars e
  attempts : u.attempts.map (fun a => (a.1, stateAfter a.2)) = rows.map fun r => (interface r.1, r.2)
  interfaces : u.interfaces = before ++ (onlineOf rows).map interface

section Step

variable {mode : InstanceMode} {first : Endpoint} {before : List Interface}
variable {rows : List (Endpoint × GatewayState)} {u : Attachment} {e : Event}

theorem Good.mem_iff (hu : Good mode first before rows u) (f : Endpoint) :
    f ∈ u.gateways.table.map (·.1) ↔ f ∈ first :: rows.map (·.1) := by
  exact (hu.table.map (·.1)).mem_iff

theorem interfaces_attach (i : Interface) (r : Attempted Network) {result : Except TransportError Unit}
    {r' : Attempted Network} (h : Transport.attach i r = (result, r')) :
    r'.inner.interfaces = r.inner.interfaces ++ if stateAfter result = .online then [i] else [] := by
  have hattach : Transport.attach i r = ((r.inner.attach i).1,
      ⟨(r.inner.attach i).2, r.attempts ++ [(i, (r.inner.attach i).1)]⟩) := rfl
  rw [hattach] at h
  obtain ⟨rfl, rfl⟩ := Prod.mk.inj h
  unfold Network.attach
  dsimp only
  split
  · simp [stateAfter]
  · rfl

theorem rowOf_outcomeAfter (e : Endpoint) (result : Except TransportError Unit) :
    rowOf e (outcomeAfter result) = some (e, stateAfter result) := by
  cases result <;> rfl

theorem onlineOf_append (rows more : List (Endpoint × GatewayState)) :
    onlineOf (rows ++ more) = onlineOf rows ++ onlineOf more := by
  simp [onlineOf]

theorem Good.add (hu : Good mode first before rows u) {f : Endpoint} {result : Except TransportError Unit}
    {r : Attempted Network} (hnew : f ∉ u.gateways.table.map (·.1)) (hbars : ¬ u.gateways.Bars f)
    (ha : Transport.attach (interface f) u.transport = (result, r)) :
    Good mode first before (rows ++ [(f, stateAfter result)])
      ⟨{ u.gateways with table := put f (stateAfter result) u.gateways.table }, r⟩ := by
  have hattempts := attempts_attach ha
  have hinterfaces := interfaces_attach _ _ ha
  have hfresh : f ∉ first :: rows.map (·.1) := fun hm => hnew ((hu.mem_iff f).mpr hm)
  have hkeys : (first :: (rows ++ [(f, stateAfter result)]).map (·.1)).Perm
      (f :: first :: rows.map (·.1)) := by
    rw [List.map_append]
    exact List.perm_append_singleton f (first :: rows.map (·.1))
  refine
    { mode := hu.mode
      table := ?_
      distinct := hkeys.nodup_iff.mpr (List.nodup_cons.mpr ⟨hfresh, hu.distinct⟩)
      allowed := ?_
      attempts := ?_
      interfaces := ?_ }
  · refine (put_perm (lookup_eq_none_iff.mpr hnew) _).trans ((hu.table.cons _).trans ?_)
    exact (List.perm_append_singleton (f, stateAfter result) ((first, .online) :: rows)).symm
  · intro e he
    rcases List.mem_cons.mp (hkeys.mem_iff.mp he) with rfl | he
    · exact hbars
    · exact hu.allowed e he
  · have hbefore := hu.attempts
    unfold Attachment.attempts at hbefore ⊢
    simp [hattempts, hbefore]
  · have hbefore := hu.interfaces
    unfold Attachment.interfaces at hbefore ⊢
    rw [hinterfaces, hbefore, onlineOf_append, List.map_append, List.append_assoc]
    cases result <;> rfl

theorem Good.happen (hu : Good mode first before rows u) (e : Event) :
    Good mode first before (rows ++ (added? u e).toList) (happen e u) := by
  cases e with
  | mesh change =>
    have hinterfaces := change.interfaces_apply u.transport.inner
    rw [added?, Option.toList_none, List.append_nil]
    exact { hu with interfaces := hinterfaces.trans hu.interfaces }
  | ensure host port =>
    have hens := ensured u.gateways host port u.transport
    unfold Gateways.happen added?
    dsimp only
    generalize u.gateways.ensure host port u.transport = out at hens ⊢
    cases hens with
    | present => simpa [rowOf] using hu
    | barred => simpa [rowOf] using hu
    | tried result r hnew hbars ha =>
      rw [rowOf_outcomeAfter, Option.toList_some]
      exact hu.add hnew hbars ha

theorem Good.of_run {u' : Attachment} {hist : List (Attachment × Event)}
    (hr : Run Gateways.happen u hist u') (hu : Good mode first before rows u) :
    Good mode first before (rows ++ added hist) u' := by
  induction hr with
  | nil => simpa [added] using hu
  | @snoc hist v e _ ih =>
    have hadded : added (hist ++ [(v, e)]) = added hist ++ (added? v e).toList := by
      cases h : added? v e <;> simp [added, h]
    rw [hadded, ← List.append_assoc]
    exact ih.happen e

@[simp] theorem target_interface (f : Endpoint) : (interface f).target = f := rfl

theorem Good.targets (hu : Good mode first before rows u) :
    u.attempts.map (·.1.target) = rows.map (·.1) := by
  have h := congrArg (List.map fun a => a.1.target) hu.attempts
  simpa only [List.map_map, Function.comp_def, target_interface] using h

theorem mem_onlineOf {f : Endpoint} : f ∈ onlineOf rows ↔ (f, .online) ∈ rows := by
  simp [onlineOf]

theorem Good.mem_online_iff (hu : Good mode first before rows u) (f : Endpoint) :
    f ∈ onlineOf rows ↔ (f, .online) ∈ u.gateways.table ∧ f ≠ first := by
  rw [mem_onlineOf, hu.table.mem_iff]
  constructor
  · intro hf
    refine ⟨List.mem_cons_of_mem _ hf, ?_⟩
    rintro rfl
    exact (List.nodup_cons.mp hu.distinct).1 (List.mem_map_of_mem hf)
  · rintro ⟨hf, hne⟩
    rcases List.mem_cons.mp hf with heq | hf
    · exact absurd (Prod.mk.inj heq).1 hne
    · exact hf

theorem happen_of_idle (h : outcome? u e = some .alreadyAttached ∨
    ∃ f, outcome? u e = some (.rejected f)) : happen e u = u := by
  cases e with
  | mesh change => simp [outcome?] at h
  | ensure host port =>
    have hens := ensured u.gateways host port u.transport
    unfold happen
    unfold outcome? at h
    dsimp only at h ⊢
    generalize u.gateways.ensure host port u.transport = out at hens h ⊢
    cases hens with
    | present => rfl
    | barred => rfl
    | tried result => cases result <;> simp [outcomeAfter] at h

theorem bars_of_rejected {f : Endpoint} (h : outcome? u e = some (.rejected f)) :
    u.gateways.Bars f := by
  cases e with
  | mesh change => cases h
  | ensure host port =>
    have hens := ensured u.gateways host port u.transport
    unfold outcome? at h
    dsimp only at h
    generalize u.gateways.ensure host port u.transport = out at hens h
    cases hens with
    | present => cases h
    | barred _ hbars =>
      obtain rfl := GatewayOutcome.rejected.inj (Option.some.inj h)
      exact hbars
    | tried result => cases result <;> simp [outcomeAfter] at h

end Step

/-- An instance that is started for a host, and what happens to its gateways from then on. -/
structure Service where
  config : BridgeConfig
  thread : Option String
  directory : String
  host : String
  port : UInt16
  site : Site
  events : List Event

namespace Service

def launch (x : Service) : Except BridgeError Instance × Site :=
  Instance.start x.config x.thread x.directory x.host x.port x.site

/-- The endpoint that the instance was started for. -/
def first (x : Service) : Endpoint := .of x.host x.port

/-- The gateways right after the start. -/
def start? (x : Service) : Option Attachment :=
  match x.launch with
  | (.ok i, s) => some ⟨i.gateways, .blank s.network⟩
  | (.error _, _) => none

def history (x : Service) (u : Attachment) : List (Attachment × Event) := trail happen u x.events

def outcome (x : Service) (u : Attachment) : Attachment := reach happen u x.events

/-- The endpoints that were attached since the start, in the order in which they were. -/
def attached (x : Service) (u : Attachment) : List Endpoint := onlineOf (added (x.history u))

theorem run (x : Service) (u : Attachment) : Run happen u (x.history u) (x.outcome u) :=
  .of_actions happen u x.events

end Service

/-- What a mesh tells of the attaching of interfaces: those it holds, and how often it was asked. -/
def holdings (n : Network) : List Interface × Nat := (n.interfaces, n.attachAttempts)

theorem holdings_mapNetwork (s : Site) (f : Network → Network) :
    holdings (s.mapNetwork f).network = holdings (f s.network) :=
  (Network.unaffected_of_frame (q := holdings) fun _ _ _ _ => rfl).disturb s.board f

theorem launch_ok (x : Service) {i : Instance} {s : Site} (h : x.launch = (.ok i, s)) :
    i.gateways = (Gateways.new (.forHost x.host)).recordInitial x.host x.port ∧
      holdings s.network = holdings x.site.network := by
  unfold Service.launch Instance.start at h
  dsimp only at h
  cases hw : ((TransportConfig.forTarget (.forHost x.host) x.host x.port).writeTo x.directory).run
      x.site.files with
  | error cause files =>
    rw [hw] at h
    cases (Prod.mk.inj h).1
  | ok path files =>
    rw [hw] at h
    dsimp only at h
    have hn := Network.snd_start x.thread
      ⟨.ofThread x.thread, .forTarget (.forHost x.host) x.host x.port, x.directory⟩
      (Site.network { x.site with files })
    cases hs : (Site.network { x.site with files }).start x.thread
        ⟨.ofThread x.thread, .forTarget (.forHost x.host) x.host x.port, x.directory⟩ with
    | mk result n =>
      rw [hs] at h hn
      cases result with
      | error cause => cases (Prod.mk.inj h).1
      | ok =>
        obtain ⟨hi, rfl⟩ := Prod.mk.inj h
        obtain rfl := Except.ok.inj hi
        refine ⟨rfl, (holdings_mapNetwork _ _).trans ?_⟩
        have hsame : n = _ := hn
        rw [hsame]
        rfl

theorem start_attaches_nothing (x : Service) {u : Attachment} (h : x.start? = some u) :
    u.gateways = (Gateways.new (.forHost x.host)).recordInitial x.host x.port ∧ u.attempts = [] ∧
      holdings u.transport.inner = holdings x.site.network := by
  unfold Service.start? at h
  cases hl : x.launch with
  | mk result s =>
    rw [hl] at h
    cases result with
    | error cause => cases h
    | ok i =>
      obtain rfl := Option.some.inj h
      obtain ⟨hgateways, hsame⟩ := launch_ok x hl
      exact ⟨hgateways, rfl, hsame⟩

/-- What can be relied on of the gateways of an instance. -/
structure Service.Lasting (x : Service) (u : Attachment) : Prop where
  mode : (x.outcome u).gateways.mode = .forHost x.host
  first : (x.first, .online) ∈ (x.outcome u).gateways.table
  /-- What is in the table stays there as it is. -/
  kept : ∀ v e, (v, e) ∈ x.history u → ∀ row ∈ v.gateways.table, row ∈ (x.outcome u).gateways.table
  single : ((x.outcome u).gateways.table.map (·.1)).Nodup
  elsewhere : InstanceMode.forHost x.host = .directGateway →
    ∀ row ∈ (x.outcome u).gateways.table, Host.isLoopback row.1.host = false
  /-- The start asks the transport for nothing. -/
  unasked : u.attempts = [] ∧ holdings u.transport.inner = holdings x.site.network
  once : ((x.outcome u).attempts.map (·.1.target)).Nodup
  notFirst : x.first ∉ (x.outcome u).attempts.map (·.1.target)
  notRejected : ∀ v e f, (v, e) ∈ x.history u → outcome? v e = some (.rejected f) →
    f ∉ (x.outcome u).attempts.map (·.1.target)
  /-- The transport holds one interface for each endpoint that was attached, in this order. -/
  interfaces : (x.outcome u).interfaces =
    x.site.network.interfaces ++ (x.attached u).map interface
  targets : ((x.attached u).map interface).map Interface.target = x.attached u
  online : (x.attached u).Nodup ∧
    ∀ f, f ∈ x.attached u ↔ (f, .online) ∈ (x.outcome u).gateways.table ∧ f ≠ x.first
  idle : ∀ v e, (v, e) ∈ x.history u →
    (outcome? v e = some .alreadyAttached ∨ ∃ f, outcome? v e = some (.rejected f)) →
      happen e v = v
  /-- The list of attempts makes no difference. -/
  plain : ∀ v host port, (v, .ensure host port) ∈ x.history u →
    (outcome? v (.ensure host port), (happen (.ensure host port) v).gateways,
        (happen (.ensure host port) v).transport.inner) =
      (some (v.gateways.ensure host port v.transport.inner).1,
        (v.gateways.ensure host port v.transport.inner).2)

theorem Service.good_start (x : Service) {u : Attachment} (h : x.start? = some u) :
    Good (.forHost x.host) x.first x.site.network.interfaces [] u := by
  obtain ⟨hgateways, hattempts, hsame⟩ := start_attaches_nothing x h
  refine
    { mode := by rw [hgateways, mode_start]
      table := by rw [hgateways]; exact .refl _
      distinct := List.nodup_singleton _
      allowed := ?_
      attempts := by rw [hattempts]; rfl
      interfaces := ?_ }
  · intro e he
    obtain rfl : e = x.first := List.mem_singleton.mp he
    intro hbars
    have hdirect : InstanceMode.forHost x.host = .directGateway := by
      rw [← hbars.1, hgateways, mode_start]
    exact not_bars_of_forHost hdirect hbars
  · exact (congrArg Prod.fst hsame).trans (List.append_nil _).symm

/-- Over every run of calls the gateways that are there last, and the transport holds those it
took. -/
theorem gateways_last (x : Service) (u : Attachment) (h : x.start? = some u) : x.Lasting u := by
  have hstart := x.good_start h
  have hend := hstart.of_run (x.run u)
  rw [List.nil_append] at hend
  have hkeys : ((x.outcome u).gateways.table.map (·.1)).Nodup :=
    (hend.table.map Prod.fst).nodup_iff.mpr hend.distinct
  have hdistinct := List.nodup_cons.mp hend.distinct
  obtain ⟨-, hattempts, hsame⟩ := start_attaches_nothing x h
  have hgood : ∀ v e, (v, e) ∈ x.history u →
      ∃ rows more, Good (.forHost x.host) x.first x.site.network.interfaces rows v ∧
        Good (.forHost x.host) x.first x.site.network.interfaces (rows ++ more) (x.outcome u) := by
    intro v e hm
    obtain ⟨earlier, later, -, hbefore, hafter⟩ := (x.run u).cut hm
    have hv := hstart.of_run hbefore
    exact ⟨_, _, hv, hv.of_run ((Run.single e v).append hafter)⟩
  exact
    { mode := hend.mode
      first := hend.table.mem_iff.mpr List.mem_cons_self
      kept := by
        intro v e hm row hrow
        obtain ⟨rows, more, hv, hv'⟩ := hgood v e hm
        rw [hv'.table.mem_iff, ← List.cons_append]
        exact List.mem_append_left _ (hv.table.mem_iff.mp hrow)
      single := hkeys
      elsewhere := by
        intro hdirect row hrow
        have hkey := (hend.mem_iff row.1).mp (List.mem_map_of_mem hrow)
        have hallowed := hend.allowed row.1 hkey
        simpa [Bars, hend.mode, hdirect] using hallowed
      unasked := ⟨hattempts, hsame⟩
      once := by rw [hend.targets]; exact hdistinct.2
      notFirst := by rw [hend.targets]; exact hdistinct.1
      notRejected := by
        intro v e f hm hrejected hf
        obtain ⟨rows, more, hv, hv'⟩ := hgood v e hm
        have hbars := bars_of_rejected hrejected
        rw [hend.targets] at hf
        apply hend.allowed f (List.mem_cons_of_mem _ hf)
        rwa [Bars, hend.mode, ← hv.mode]
      interfaces := hend.interfaces
      targets := by simp [Function.comp_def]
      online := by
        refine ⟨?_, hend.mem_online_iff⟩
        exact hdistinct.2.sublist (List.filter_sublist.map _)
      idle := fun v e _ hidle => happen_of_idle hidle
      plain := by
        intro v host port _
        rw [ensure_attempted v.gateways host port v.transport]
        rfl }

/-- A direct gateway whose host is written with spaces and large letters, and what is asked of it. -/
def known : Service :=
  let failing (fails : Bool) : Change :=
    { apply := fun n => { n with failAttach := fails }, interfaces_apply := fun _ => rfl }
  { config := .default []
    thread := none
    directory := "cfg"
    host := " Mesh.Example "
    port := 4242
    site := .new .empty (.default [])
    events := [.ensure "10.0.0.5" 4242, .ensure " LocalHost" 1, .mesh (failing true),
      .ensure "10.0.0.6" 1, .mesh (failing false), .ensure "10.0.0.6" 1,
      .ensure "mesh.example" 4242] }

theorem gateways_last_known :
    ∃ u, known.start? = some u ∧ known.Lasting u ∧
      (known.outcome u).gateways.table.map (fun row => (row.1.text, row.2)) =
        [("10.0.0.5:4242", .online), ("10.0.0.6:1", .inert), ("mesh.example:4242", .online)] ∧
      (known.attached u).map Endpoint.text = ["10.0.0.5:4242"] := by
  have h : known.start?.isSome = true := by decide +kernel
  refine ⟨known.start?.get h, (Option.some_get h).symm, ?_, ?_, ?_⟩
  · exact gateways_last known _ (Option.some_get h).symm
  · decide +revert +kernel
  · decide +revert +kernel

end MeshShell.Gateways
