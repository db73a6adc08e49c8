import MeshShell.Config.Transport
import MeshShell.Proofs.Gateway.Attempts
import MeshShell.Proofs.Net.Endpoints
import MeshShell.Proofs.Net.Spellings
import MeshShell.Simulation.Network

/-! # One entry for each gateway

A gateway is known by its endpoint. So it is found again under every spelling of
its host that leads to the same endpoint, and a pair of brackets leads to
another one. The entry that a bootstrap writes has the host as it was given, and
a later one has it as it is in the endpoint.
-/
namespace MeshShell

namespace Endpoint

variable {host : String} {port : UInt16}

/-- What the loopback test and the probe take for the address: the host without brackets. -/
def address (e : Endpoint) : String := String.ofList (Host.unbracket e.host.toList)

/-- The text has the address in one pair of brackets. -/
def BracketedOnce (e : Endpoint) : Prop :=
  e.text = "[" ++ e.address ++ "]:" ++ Decimal.text e.port.toNat

theorem unbracket_normal_eq_iff : Host.unbracket (normal host).toList = (normal host).toList ↔
    (Text.trim host.toList).head? ≠ some '[' ∧ (Text.trim host.toList).getLast? ≠ some ']' := by
  have hopen := Address.head?_lower (m := '[') (by decide)
  have hclose := Address.head?_lower (m := ']') (by decide)
  have hreverse : (Text.lower (Text.trim host.toList)).reverse =
      Text.lower (Text.trim host.toList).reverse := (List.map_reverse ..).symm
  rw [toList_normal, Host.unbracket_eq_self_iff, ne_eq, hopen, List.getLast?_eq_head?_reverse, hreverse,
    ne_eq, hclose, List.getLast?_eq_head?_reverse]

theorem bracketedOnce_iff (h : ':' ∈ host.toList) : (of host port).BracketedOnce ↔
    (Text.trim host.toList).head? ≠ some '[' ∧ (Text.trim host.toList).getLast? ≠ some ']' := by
  have hcolon : (normal host).toList.contains ':' = true :=
    List.contains_iff_mem.mpr (colon_mem_normal.mpr h)
  have htext : (of host port).text = "[" ++ normal host ++ "]:" ++ Decimal.text port.toNat := if_pos hcolon
  rw [← unbracket_normal_eq_iff, BracketedOnce, htext, ← String.toList_inj]
  simp [address, of, eq_comm]

end Endpoint

/-- A host as it stands in an endpoint, and without colons. -/
structure Host.Plain (host : String) : Prop where
  trimmed : Text.trim host.toList = host.toList
  small : ∀ c ∈ host.toList, c.isUpper = false
  noColon : ':' ∉ host.toList

namespace Gateways

variable {σ : Type} [Transport σ] {g : Gateways} {host other : String} {port : UInt16} {t : σ}

theorem contains_iff : g.contains host port = true ↔ .of host port ∈ g.table.map (·.1) := by
  rw [← not_iff_not, ← lookup_eq_none_iff, contains, state?, Bool.not_eq_true,
    Option.isSome_eq_false_iff, Option.isNone_iff_eq_none]

theorem not_mem_of_contains (h : g.contains host port = false) : .of host port ∉ g.table.map (·.1) := by
  rw [← contains_iff, h]
  exact Bool.false_ne_true

theorem ensure_of_contains (h : g.contains host port = true) :
    g.ensure host port t = (.alreadyAttached, g, t) := by
  have hens := ensured g host port t
  have hmem := contains_iff.mp h
  generalize g.ensure host port t = out at hens ⊢
  cases hens with
  | present => rfl
  | barred hno => exact absurd hmem hno
  | tried _ _ hno => exact absurd hmem hno

theorem contains_of_alreadyAttached (h : (g.ensure host port t).1 = .alreadyAttached) :
    g.contains host port = true := by
  have hens := ensured g host port t
  generalize g.ensure host port t = out at hens h
  cases hens with
  | present hmem => exact contains_iff.mpr hmem
  | barred => cases h
  | tried result => cases result <;> cases h

theorem rejected_iff (hnew : g.contains host port = false) :
    (g.ensure host port t).1 = .rejected (.of host port) ↔ g.Bars (.of host port) := by
  have hens := ensured g host port t
  generalize g.ensure host port t = out at hens ⊢
  cases hens with
  | present hmem => exact absurd hmem (not_mem_of_contains hnew)
  | barred _ hbars => exact iff_of_true rfl hbars
  | tried result _ _ hbars => cases result <;> simp [outcomeAfter, hbars]

theorem contains_ensure (h : ∀ e, (g.ensure host port t).1 ≠ .rejected e) :
    (g.ensure host port t).2.1.contains other port = true ↔
      Endpoint.normal other = Endpoint.normal host ∨ g.contains other port = true := by
  have hsame : Endpoint.normal other = Endpoint.normal host ↔ Endpoint.of other port = .of host port :=
    ⟨congrArg (Endpoint.mk · port), congrArg Endpoint.host⟩
  have hens := ensured g host port t
  rw [hsame, contains_iff, contains_iff]
  generalize g.ensure host port t = out at hens h ⊢
  cases hens with
  | present hmem => exact ⟨.inr, fun hor => hor.elim (fun heq => heq ▸ hmem) id⟩
  | barred => exact absurd rfl (h _)
  | tried result t' hno hbars ha =>
    have hperm := put_perm (lookup_eq_none_iff.mpr hno) (stateAfter result)
    rw [(hperm.map (·.1)).mem_iff]
    exact List.mem_cons

/-- After a gateway was accepted or found, it is found again under each spelling of its host that has
no more brackets, and under one with more of them exactly if that one was in the table before. If
the host has colons, the text has one pair of brackets exactly if the host is written with none. -/
theorem attached_again_iff (g : Gateways) (host : String) (port : UInt16) (t : σ)
    (h : ∀ e, (g.ensure host port t).1 ≠ .rejected e) :
    (∀ pairs other, Host.Spelling host pairs other →
      ((g.ensure host port t).2.1.ensure other port (g.ensure host port t).2.2 =
          (.alreadyAttached, (g.ensure host port t).2) ↔
        pairs = 0 ∨ g.contains other port = true)) ∧
    (':' ∈ host.toList → ((Endpoint.of host port).BracketedOnce ↔
      (Text.trim host.toList).head? ≠ some '[' ∧ (Text.trim host.toList).getLast? ≠ some ']')) := by
  refine ⟨fun pairs other hs => ?_, Endpoint.bracketedOnce_iff⟩
  rw [← hs.normal_eq_iff, ← contains_ensure h]
  exact ⟨fun heq => contains_of_alreadyAttached (congrArg Prod.fst heq), ensure_of_contains⟩

/-- A gateway whose host is an address with colons. -/
def colons : Gateways × Simulation.Network :=
  ((new .directGateway).ensure "2001:db8::1" 4242 Simulation.Network.empty).2

theorem attached_again_spaced :
    ((new .directGateway).ensure "2001:db8::1" 4242 Simulation.Network.empty).1 = .attached ∧
      colons.1.ensure " 2001:DB8::1 " 4242 colons.2 = (.alreadyAttached, colons) ∧
      (Endpoint.of "2001:db8::1" 4242).BracketedOnce := by
  have hattached : ((new .directGateway).ensure "2001:db8::1" 4242 Simulation.Network.empty).1 =
      .attached := by decide +kernel
  have hblank : Text.Blank " ".toList := by decide
  have hlower : Text.lower "2001:DB8::1".toList = Text.lower "2001:db8::1".toList := by decide
  have hspelling : Host.Spelling "2001:db8::1" 0 " 2001:DB8::1 " :=
    .padded " " " " (.recased "2001:DB8::1" .same hlower) hblank hblank
  obtain ⟨hagain, htext⟩ := attached_again_iff (new .directGateway) "2001:db8::1" 4242
    Simulation.Network.empty (by simp [hattached])
  exact ⟨hattached, (hagain 0 _ hspelling).mpr (.inl rfl), (htext (by decide)).mpr (by decide)⟩

/-- In brackets the same gateway is attached a second time. -/
theorem attached_twice_in_brackets :
    Host.Spelling "2001:db8::1" 1 "[2001:db8::1]" ∧
      (colons.1.ensure "[2001:db8::1]" 4242 colons.2).1 = .attached ∧
      ((colons.1.ensure "[2001:db8::1]" 4242 colons.2).2.2.interfaces.map (·.targetHost)) =
        ["2001:db8::1", "[2001:db8::1]"] ∧
      ¬ (Endpoint.of "[2001:db8::1]" 4242).BracketedOnce := by
  have hbrackets : String.ofList (Host.inBrackets (Text.trim "2001:db8::1".toList)) =
      "[2001:db8::1]" := by decide +kernel
  have hspelling : Host.Spelling "2001:db8::1" 1 "[2001:db8::1]" := hbrackets ▸ .bracketed .same
  refine ⟨hspelling, by decide +kernel, by decide +kernel, ?_⟩
  exact fun h => absurd ((Endpoint.bracketedOnce_iff (by decide)).mp h) (by decide)

/-- What the transport is asked to attach when a gateway is ensured. -/
def handed (g : Gateways) (host : String) (port : UInt16) (t : σ) : List Interface :=
  (g.ensure host port (Attempted.blank t)).2.2.attempts.map (·.1)

theorem handed_eq (hnew : g.contains host port = false) (hbars : ¬ g.Bars (.of host port)) :
    g.handed host port t = [interface (.of host port)] := by
  have hens := ensured g host port (Attempted.blank t)
  unfold handed
  generalize g.ensure host port (Attempted.blank t) = out at hens ⊢
  cases hens with
  | present hmem => exact absurd hmem (not_mem_of_contains hnew)
  | barred _ hb => exact absurd hb hbars
  | tried result t' _ _ ha =>
    rw [attempts_attach ha]
    rfl

/-- How the entry that is written first compares with the one that is handed over later. -/
structure Compared (host : String) (port : UInt16) (written offered : Interface) : Prop where
  sameKind : written.kind = offered.kind
  bothEnabled : written.enabled = true ∧ offered.enabled = true
  samePort : written.targetPort = port ∧ offered.targetPort = port
  sameHost : written.targetHost = offered.targetHost ↔
    Text.trim host.toList = host.toList ∧ ∀ c ∈ host.toList, c.isUpper = false
  sameName : written.name = offered.name ↔ Host.Plain host
  same : written = offered ↔ Host.Plain host

/-- A text that is in brackets has no white space around it, so it is longer than a host in the
brackets that its endpoint puts around it. -/
theorem front_eq_iff : (Endpoint.of host port).front = host.toList ↔ Host.Plain host := by
  have hcolon : ':' ∈ (Endpoint.normal host).toList ↔ ':' ∈ host.toList := Endpoint.colon_mem_normal
  have hfront : (Endpoint.of host port).front = if ':' ∈ host.toList
      then Host.inBrackets (Endpoint.normal host).toList else (Endpoint.normal host).toList := by
    simp only [Endpoint.front, Endpoint.of, List.contains_iff_mem, hcolon, Host.inBrackets]
  rw [hfront]
  split
  · rename_i hm
    refine iff_of_false (fun h => ?_) fun h => h.noColon hm
    have htrim : Text.trim host.toList = host.toList := by rw [← h, Host.trim_inBrackets]
    have hlength := congrArg List.length h
    rw [Host.length_inBrackets, Endpoint.toList_normal, htrim] at hlength
    simp [Text.lower] at hlength
  · rename_i hm
    rw [String.toList_inj, Endpoint.normal_eq_self_iff]
    exact ⟨fun h => ⟨h.1, h.2, hm⟩, fun h => ⟨h.trimmed, h.small⟩⟩

theorem compared (host : String) (port : UInt16) :
    Compared host port
      (.tcpClient (TransportConfig.interfaceName .directGateway host port) host port)
      (interface (.of host port)) := by
  have hname : TransportConfig.interfaceName .directGateway host port =
      "Gateway " ++ (Endpoint.of host port).text ↔ Host.Plain host := by
    have hfront : (Endpoint.of host port).front = host.toList ↔ Host.Plain host := front_eq_iff
    rw [← hfront, ← String.toList_inj, TransportConfig.interfaceName,
      String.toList_append (t := (Endpoint.of host port).text), Endpoint.toList_text]
    simp [Endpoint.of, Decimal.text, eq_comm]
  have hhost : host = Endpoint.normal host ↔
      Text.trim host.toList = host.toList ∧ ∀ c ∈ host.toList, c.isUpper = false :=
    eq_comm.trans Endpoint.normal_eq_self_iff
  have hlater : interface (.of host port) =
      .tcpClient ("Gateway " ++ (Endpoint.of host port).text) (Endpoint.normal host) port := rfl
  -- How the names come about does not matter from here on.
  rw [hlater]
  generalize TransportConfig.interfaceName .directGateway host port = first at hname ⊢
  generalize "Gateway " ++ (Endpoint.of host port).text = later at hname ⊢
  generalize Endpoint.normal host = normal at hhost ⊢
  exact
    { sameKind := rfl
      bothEnabled := ⟨rfl, rfl⟩
      samePort := ⟨rfl, rfl⟩
      sameHost := hhost
      sameName := hname
      same := by
        refine ⟨fun h => hname.mp (congrArg Interface.name h), fun h => ?_⟩
        rw [hname.mpr h, ← hhost.mpr ⟨h.trimmed, h.small⟩] }

/-- The entry that the first bootstrap writes for a gateway is the one that is handed over later for
the same gateway exactly if the host is written as it stands in an endpoint, and without colons. -/
theorem first_as_later_iff (g : Gateways) (host : String) (port : UInt16) (t : σ)
    (hdirect : InstanceMode.forHost host = .directGateway) (hnew : g.contains host port = false) :
    ∃ written offered,
      (TransportConfig.forTarget (.forHost host) host port).interfaces = [written] ∧
      g.handed host port t = [offered] ∧ Compared host port written offered := by
  refine ⟨_, _, ?_, handed_eq hnew (not_bars_of_forHost hdirect), compared host port⟩
  rw [hdirect]
  rfl

theorem first_as_later_plain : InstanceMode.forHost "mesh.example" = .directGateway ∧
    (new .directGateway).contains "mesh.example" 4242 = false ∧
    (new .directGateway).handed "mesh.example" 4242 Simulation.Network.empty =
      (TransportConfig.forTarget .directGateway "mesh.example" 4242).interfaces := by
  have hdirect : InstanceMode.forHost "mesh.example" = .directGateway := by decide +kernel
  have hsmall : ("mesh.example".toList.all fun c => c.isUpper == false) = true := by decide
  have hplain : Host.Plain "mesh.example" :=
    ⟨by decide, fun c hc => beq_iff_eq.mp (List.all_eq_true.mp hsmall c hc), by decide⟩
  obtain ⟨written, offered, hwritten, hoffered, hcompared⟩ :=
    first_as_later_iff (new .directGateway) "mesh.example" 4242 Simulation.Network.empty hdirect rfl
  rw [hdirect] at hwritten
  exact ⟨hdirect, rfl, by rw [hwritten, hoffered, hcompared.same.mpr hplain]⟩

theorem first_not_as_later :
    InstanceMode.forHost " Mesh.Example " = .directGateway ∧
      (new .directGateway).handed " Mesh.Example " 4242 Simulation.Network.empty ≠
        (TransportConfig.forTarget .directGateway " Mesh.Example " 4242).interfaces ∧
      InstanceMode.forHost "2001:db8::1" = .directGateway ∧
      (new .directGateway).handed "2001:db8::1" 4242 Simulation.Network.empty ≠
        (TransportConfig.forTarget .directGateway "2001:db8::1" 4242).interfaces := by
  decide +kernel

end Gateways

end MeshShell
