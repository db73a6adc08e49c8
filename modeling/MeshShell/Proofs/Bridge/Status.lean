import MeshShell.Proofs.Bridge.Calls
import MeshShell.Proofs.Gateway.Order
import MeshShell.Proofs.Switchboard.Titles

/-! # The status of a bridge

Whatever is asked of a bridge, and whatever happens on the mesh meanwhile, its
status says what the single questions are answered with. Sessions come in the
order of their ids and gateways in the order of their endpoints.
-/
namespace MeshShell.Bridge

open Simulation Switchboard

inductive Request
  | bootstrap (fresh : KeyPair) (thread : Option String) (directory host : String) (port : UInt16)
  | files (change : Files → Files)
  | mesh (change : Network → Network)
  | quiet
  | resolve (hash : String)
  | requestPath (hash : String)
  | createSession (hash id : String) (rows cols : UInt16)
  | read (id : String) (span : Millis)
  | readWhile (id : String) (span pause : Millis) (meanwhile : Request)
  | sendInput (id : String) (data : Bytes)
  | resize (id : String) (size : Geometry)
  | closeSession (id : String)
  | closeAll
  /-- One step of somebody who is at work on the sessions. -/
  | call (c : Call Network)

def serve : Request → Bridge → Bridge
  | .bootstrap fresh thread directory host port, b => (b.bootstrap fresh thread directory host port).2
  | .files change, b => { b with site := { b.site with files := change b.site.files } }
  | .mesh change, b => b.mapNetwork change
  | .quiet, b => b.quiet
  | .resolve hash, b => (b.resolve hash).2
  | .requestPath hash, b => (b.requestPath hash).2
  | .createSession hash id rows cols, b => (b.createSession hash id rows cols).2
  | .read id span, b => (b.read id span).2
  | .readWhile id span pause meanwhile, b => (b.readWhile id span pause (serve meanwhile)).2
  | .sendInput id data, b => (b.sendInput id data).2
  | .resize id size, b => b.resize id size
  | .closeSession id, b => b.closeSession id
  | .closeAll, b => b.closeAll.2
  | .call c, b => (b.onBoard fun w => ((), w.take c)).2

/-- What a bridge does at once. Whatever it does on a steady board leaves the board steady. -/
inductive Act (b : Bridge) : Bridge → Prop
  | bootstrap (fresh : KeyPair) (thread : Option String) (directory host : String) (port : UInt16) :
      Act b (b.bootstrap fresh thread directory host port).2
  | files (change : Files → Files) :
      Act b { b with site := { b.site with files := change b.site.files } }
  | mesh (change : Network → Network) : Act b (b.mapNetwork change)
  | quiet : Act b b.quiet
  | board {α : Type} (f : Switchboard Network → α × Switchboard Network)
      (hf : ∀ w : Switchboard Network, w.Steady → (f w).2.Steady) : Act b (b.onBoard f).2

/-- Any number of acts, one after the other. -/
abbrev Acts : Bridge → Bridge → Prop := Relation.ReflTransGen Act

/-- A request is served in acts. -/
theorem acts_serve (r : Request) (b : Bridge) : Acts b (serve r b) := by
  induction r generalizing b with
  | bootstrap fresh thread directory host port =>
    exact .single (.bootstrap fresh thread directory host port)
  | files change => exact .single (.files change)
  | mesh change => exact .single (.mesh change)
  | quiet => exact .single .quiet
  | resolve hash =>
    unfold Bridge.serve Bridge.resolve
    cases b.target hash with
    | error e => exact .refl
    | ok d => exact .single (.board _ fun w hw => (hw.take (.resolve d _)).await _)
  | requestPath hash =>
    unfold Bridge.serve Bridge.requestPath
    cases b.target hash with
    | error e => exact .refl
    | ok d => exact .single (.board _ fun w hw => hw.take (.requestPath d))
  | createSession hash id rows cols =>
    unfold Bridge.serve Bridge.createSession
    cases b.target hash with
    | error e => exact .refl
    | ok d => exact .single (.board _ fun w hw => (hw.take (.create id d _ _)).await _)
  | read id span =>
    unfold Bridge.serve Bridge.read
    cases b.session? id with
    | none => exact .refl
    | some h => exact .single (.board _ fun w hw => (hw.take (.read h span)).await _)
  | readWhile id span pause meanwhile ih =>
    unfold Bridge.serve Bridge.readWhile
    cases b.session? id with
    | none => exact ih b
    | some h =>
      have hfirst : Act b _ := .board (α := Ticket) (fun w =>
        ((w.read h span).1, (((w.read h span).2.sleep pause).2.await ((w.read h span).2.sleep pause).1).2))
        fun w hw => ((hw.take (.read h span)).take (.sleep pause)).await _
      exact (Relation.ReflTransGen.head hfirst (ih _)).tail (.board _ fun w hw => hw.await _)
  | sendInput id data =>
    unfold Bridge.serve Bridge.sendInput
    cases b.session? id with
    | none => exact .refl
    | some h => exact .single (.board _ fun w hw => hw.take (.sendInput h data))
  | resize id size =>
    unfold Bridge.serve Bridge.resize
    cases b.session? id with
    | none => exact .refl
    | some h =>
      refine .single (.board _ fun w hw => ?_)
      dsimp only
      exact hw.take (.resize h size)
  | closeSession id =>
    unfold Bridge.serve Bridge.closeSession
    cases b.running with
    | none => exact .refl
    | some i =>
      refine .single (.board _ fun w hw => ?_)
      dsimp only
      exact hw.take (.closeId id)
  | closeAll =>
    unfold Bridge.serve Bridge.closeAll
    cases b.running with
    | none => exact .refl
    | some i =>
      refine .single (.board _ fun w hw => ?_)
      dsimp only [Switchboard.closeAll]
      exact hw.take .closeAll
  | call c =>
    refine .single (.board _ fun w hw => ?_)
    dsimp only
    exact hw.take c

theorem Acts.keep {P : Bridge → Prop} {b b' : Bridge} (h : Acts b b') (hb : P b)
    (hP : ∀ c c', Act c c' → P c → P c') : P b' := by
  induction h with
  | refl => exact hb
  | tail _ hact ih => exact hP _ _ hact ih

structure Sane (b : Bridge) : Prop where
  board : b.site.board.Steady
  gateways : ∀ i, b.running = some i → Gateways.Ascending i.gateways.table

variable {b : Bridge}

theorem Sane.refresh (hb : b.Sane) : b.refresh.Sane := by
  cases hr : b.running with
  | none => rwa [refresh_none hr]
  | some i =>
    obtain ⟨discovery, hi, -⟩ := refresh_some hr
    refine ⟨?_, fun j hj => ?_⟩
    · have hboard : b.refresh.site.board =
          b.site.board.take (.alter fun n => n.takeNotices.2) := by
        unfold Bridge.refresh
        rw [hr]
        rfl
      rw [hboard]
      exact hb.board.take _
    · obtain rfl := Option.some.inj (hi.symm.trans hj)
      exact hb.gateways i hr

theorem Sane.onBoard {α : Type} (hb : b.Sane) {f : Switchboard Network → α × Switchboard Network}
    (hf : (f b.site.board).2.Steady) : (b.onBoard f).2.Sane :=
  Sane.refresh (b := { b with site := { b.site with board := (f b.site.board).2 } })
    ⟨hf, hb.gateways⟩

theorem Sane.quiet (hb : b.Sane) : b.quiet.Sane :=
  Sane.refresh (b := { b with site := b.site.quiet }) ⟨hb.board.settleTransport _, hb.gateways⟩

theorem steady_mapNetwork {s : Site} (hs : s.board.Steady) (f : Network → Network) :
    (s.mapNetwork f).board.Steady := hs.take (.disturb f)

theorem Sane.mapNetwork (hb : b.Sane) (f : Network → Network) : (b.mapNetwork f).Sane :=
  Sane.refresh (b := { b with site := b.site.mapNetwork f })
    ⟨steady_mapNetwork hb.board f, hb.gateways⟩

theorem Sane.identify {i : Instance} (hb : b.Sane) (hi : Gateways.Ascending i.gateways.table)
    (fresh : KeyPair) : (b.identify fresh i).2.Sane := by
  obtain ⟨-, identity, he⟩ := (identified i fresh b.site.files).spares
  refine ⟨hb.board, fun j hj => ?_⟩
  rw [running_identify, he] at hj
  obtain rfl := Option.some.inj hj
  exact hi

theorem steady_start (config : BridgeConfig) (thread : Option String) (directory host : String)
    (port : UInt16) {site : Site} (hs : site.board.Steady) :
    (Instance.start config thread directory host port site).2.board.Steady ∧
      ∀ i, (Instance.start config thread directory host port site).1 = .ok i →
        Gateways.Ascending i.gateways.table := by
  have hmesh : ∀ files f, (Site.mapNetwork { site with files } f).board.Steady :=
    fun files f => steady_mapNetwork (s := { site with files }) hs f
  unfold Instance.start
  dsimp only
  split
  · exact ⟨hs, nofun⟩
  · split <;> dsimp only
    · exact ⟨hmesh _ _, nofun⟩
    · refine ⟨hmesh _ _, ?_⟩
      intro i hi
      rw [← Except.ok.inj hi]
      have hempty : Gateways.Ascending [] := .nil
      exact hempty.put _ _

theorem Sane.bootstrap (hb : b.Sane) (fresh : KeyPair) (thread : Option String)
    (directory host : String) (port : UInt16) :
    (b.bootstrap fresh thread directory host port).2.Sane := by
  cases hr : b.running with
  | none =>
    obtain ⟨hsteady, hgateways⟩ := steady_start b.config thread directory host port hb.board
    cases hs : Instance.start b.config thread directory host port b.site with
    | mk result site =>
      rw [hs] at hsteady hgateways
      cases result with
      | error e =>
        rw [bootstrap_error hr hs]
        exact ⟨hsteady, hb.gateways⟩
      | ok i =>
        rw [bootstrap_ok hr hs]
        have hi := hgateways i rfl
        refine Sane.identify ⟨hsteady, fun j hj => ?_⟩ hi fresh
        obtain rfl := Option.some.inj hj
        exact hi
  | some i =>
    have hi := Gateways.ascending_ensure (hb.gateways i hr) host port b.site.network
    rw [bootstrap_running hr, addGateway_eq]
    generalize i.gateways.ensure host port b.site.network = attached at hi ⊢
    have hboard := steady_mapNetwork hb.board fun _ => attached.2.2
    dsimp only
    refine Sane.identify ⟨?_, ?_⟩ hi fresh
    · exact hboard
    · intro j hj
      obtain rfl := Option.some.inj hj
      exact hi

theorem Sane.act {b' : Bridge} (hb : b.Sane) (h : Act b b') : b'.Sane := by
  cases h with
  | bootstrap fresh thread directory host port => exact hb.bootstrap fresh thread directory host port
  | files change => exact ⟨hb.board, hb.gateways⟩
  | mesh change => exact hb.mapNetwork change
  | quiet => exact hb.quiet
  | board f hf => exact hb.onBoard (hf _ hb.board)

theorem sessions_eq (hw : b.site.board.Titled) :
    b.sessions.map (·.id) = b.site.board.table.map (·.1) := by
  unfold Bridge.sessions
  rw [List.map_filterMap]
  have hrow : ∀ row ∈ b.site.board.table,
      ((b.site.board.sessions[(row.2 : Nat)]?).map (·.id)) = some row.1 := by
    intro row hrow
    obtain ⟨s, hs, hid⟩ := hw.rows row hrow
    rw [hs, ← hid]
    rfl
  rw [List.filterMap_congr (g := fun row => some row.1) hrow]
  exact List.filterMap_eq_map_iff_forall_eq_some.mpr fun _ _ => rfl

theorem mem_sessions (hw : b.site.board.Titled) {s : Session} (hs : s ∈ b.sessions) :
    ∃ h, b.site.board.registered? s.id = some h ∧ b.site.board.sessions[(h : Nat)]? = some s := by
  obtain ⟨row, hrow, hget⟩ := List.mem_filterMap.mp hs
  obtain ⟨s', hs', hid⟩ := hw.rows row hrow
  obtain rfl : s' = s := Option.some.inj (hs'.symm.trans hget)
  refine ⟨row.2, ?_, hget⟩
  rw [hid]
  exact hw.sorted.mem_iff.mp hrow

theorem mem_ids (hw : b.site.board.Titled) (id : String) :
    id ∈ b.site.board.table.map (·.1) ↔ (b.site.board.registered? id).isSome := by
  rw [List.mem_map, Option.isSome_iff_exists]
  constructor
  · rintro ⟨row, hrow, rfl⟩
    exact ⟨row.2, hw.sorted.mem_iff.mp hrow⟩
  · rintro ⟨h, hh⟩
    exact ⟨(id, h), hw.sorted.mem_iff.mpr hh, rfl⟩

/-- The status of a bridge agrees with what is answered to single questions. -/
structure Candid (b : Bridge) : Prop where
  initialized : b.status.initialized = b.running.isSome
  count : b.status.activeSessions = b.status.sessions.length
  ascending : (b.status.sessions.map (·.sessionId)).Pairwise (· < ·)
  listed : ∀ id, id ∈ b.status.sessions.map (·.sessionId) ↔ (b.session? id).isSome
  /-- What is listed is the session that the id leads to. -/
  shown : ∀ info ∈ b.status.sessions, ∃ h s, b.session? info.sessionId = some h ∧
    b.site.board.sessions[(h : Nat)]? = some s ∧ info = .of s
  connected : ∀ info ∈ b.status.sessions, info.connected = b.isConnected info.sessionId
  /-- To an id that is not listed nobody is connected, and there is nothing to read. -/
  unlisted : ∀ id, id ∉ b.status.sessions.map (·.sessionId) →
    b.isConnected id = false ∧ ∀ span, b.read id span = (.disconnected, b)
  identity : b.status.identity = b.identityHash
  /-- Every gateway of the table is listed, in the order of hosts and ports. -/
  gateways : ∀ i, b.running = some i → Gateways.Ascending i.gateways.table ∧
    b.status.gateways = i.gateways.table.map fun (e, state) => .of e state
  texts : (b.status.gateways.map (·.endpoint)).Nodup
  discovered : b.status.discovered = b.listDiscovered
  /-- Before the transport runs there is nothing to tell. -/
  uninitialized : b.running = none → b.status = .uninitialized ∧ b.identityHash = none ∧
    b.listDiscovered = [] ∧ ∀ id, b.session? id = none

theorem status_none (hr : b.running = none) : b.status = .uninitialized := by
  unfold status
  rw [hr]

theorem session?_none (hr : b.running = none) (id : String) : b.session? id = none := by
  rw [session?, hr, Option.bind_none]

theorem session?_some {i : Instance} (hr : b.running = some i) (id : String) :
    b.session? id = b.site.board.registered? id := by
  rw [session?, hr, Option.bind_some]

theorem unlisted_of_none {id : String} (h : b.session? id = none) :
    b.isConnected id = false ∧ ∀ span, b.read id span = (.disconnected, b) := by
  refine ⟨by simp [isConnected, h], fun span => ?_⟩
  unfold Bridge.read
  rw [h]

theorem candid_none (hr : b.running = none) : b.Candid := by
  have hstatus := status_none hr
  have hsession := session?_none hr
  exact
    { initialized := by rw [hstatus, hr]; rfl
      count := by rw [hstatus]; rfl
      ascending := by rw [hstatus]; exact .nil
      listed := by simp [hstatus, BridgeStatus.uninitialized, hsession]
      shown := by simp [hstatus, BridgeStatus.uninitialized]
      connected := by simp [hstatus, BridgeStatus.uninitialized]
      unlisted := fun id _ => unlisted_of_none (hsession id)
      identity := by rw [hstatus, identityHash, hr]; rfl
      gateways := by simp [hr]
      texts := by simp [hstatus, BridgeStatus.uninitialized]
      discovered := by rw [hstatus, listDiscovered, hr]; rfl
      uninitialized := fun _ => ⟨hstatus, by rw [identityHash, hr]; rfl,
        by rw [listDiscovered, hr], hsession⟩ }

theorem Sane.candid_some (hb : b.Sane) {i : Instance} (hr : b.running = some i) : b.Candid := by
  have htitled := hb.board.titled
  have hascending := hb.gateways i hr
  have hsession := session?_some hr
  have hsessions : b.status.sessions = b.sessions.map .of := by rw [status, hr]
  have hgateways : b.status.gateways = i.gateways.table.map fun (e, state) => .of e state := by
    rw [status, hr]
  have hids : b.status.sessions.map (·.sessionId) = b.site.board.table.map (·.1) := by
    rw [hsessions, List.map_map, ← sessions_eq htitled]
    rfl
  have hlisted : ∀ id, id ∈ b.status.sessions.map (·.sessionId) ↔ (b.session? id).isSome := by
    intro id
    rw [hids, hsession, mem_ids htitled]
  have hshown : ∀ info ∈ b.status.sessions, ∃ h s, b.session? info.sessionId = some h ∧
      b.site.board.sessions[(h : Nat)]? = some s ∧ info = .of s := by
    intro info hinfo
    rw [hsessions] at hinfo
    obtain ⟨s, hs, rfl⟩ := List.mem_map.mp hinfo
    obtain ⟨h, hregistered, hget⟩ := mem_sessions htitled hs
    exact ⟨h, s, (hsession s.id).trans hregistered, hget, rfl⟩
  exact
    { initialized := by rw [status, hr]; rfl
      count := by
        rw [hsessions, status, hr]
        exact (List.length_map ..).symm
      ascending := hids ▸ htitled.sorted
      listed := hlisted
      shown := hshown
      connected := by
        intro info hinfo
        obtain ⟨h, s, hfound, hget, rfl⟩ := hshown info hinfo
        rw [isConnected, hfound, Option.bind_some, hget]
        rfl
      unlisted := by
        intro id hid
        rw [hlisted, Option.not_isSome_iff_eq_none] at hid
        exact unlisted_of_none hid
      identity := by rw [status, identityHash, hr]; rfl
      gateways := by
        intro j hj
        obtain rfl := Option.some.inj (hr.symm.trans hj)
        exact ⟨hascending, hgateways⟩
      texts := by
        rw [hgateways, List.map_map]
        exact hascending.nodup_texts
      discovered := by rw [status, hr]
      uninitialized := fun hnone => nomatch hnone.symm.trans hr }

theorem Sane.candid (hb : b.Sane) : b.Candid := by
  cases hr : b.running with
  | none => exact candid_none hr
  | some i => exact hb.candid_some hr

/-- A bridge and everything that is asked of it. -/
structure Service where
  config : BridgeConfig
  files : Files
  requests : List Request

def Service.outcome (x : Service) : Bridge :=
  reach Bridge.serve (.new x.config x.files) x.requests

theorem Service.run (x : Service) : Run Bridge.serve (.new x.config x.files)
    (trail Bridge.serve (.new x.config x.files) x.requests) x.outcome :=
  .of_actions Bridge.serve _ x.requests

theorem sane_new (config : BridgeConfig) (files : Files) : (new config files).Sane where
  board := steady_new _ _
  gateways := nofun

theorem status_candid (x : Service) : x.outcome.Candid :=
  Sane.candid (x.run.invariant (sane_new x.config x.files) fun r b hb =>
    (acts_serve r b).keep hb fun _ _ hact hc => hc.act hact)

end MeshShell.Bridge
