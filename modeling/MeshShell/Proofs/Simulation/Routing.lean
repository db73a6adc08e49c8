import MeshShell.Proofs.Session.Dialing
import MeshShell.Proofs.Simulation.Events
import MeshShell.Proofs.Simulation.Wire
import MeshShell.Proofs.Switchboard.Resolved

/-! # Routing on the simulated mesh

Whatever happens on the mesh, a path is known exactly if there is an identity to
call, and a link to this identity leads to the remote shell that is registered
for the destination. There are few ways for a path to become known or unknown.
-/
namespace MeshShell.Simulation.Network

open Switchboard (Search)

variable {n u : Network} {hist : List (Network × Event)} {d : Destination} {a : Event}

theorem hasPath_iff : hasPath d n = true ↔ ∃ s, n.station? d = some s ∧ s.known = true := by
  rw [hasPath, known?, Option.isSome_iff_exists]
  simp only [Option.filter_eq_some_iff]

theorem recallIdentity_eq_some_iff {identity : RemoteIdentity} :
    recallIdentity d n = some identity ↔ hasPath d n = true ∧ identity = .doubled d := by
  rw [recallIdentity, hasPath, Option.map_eq_some_iff, Option.isSome_iff_exists]
  constructor
  · rintro ⟨s, hs, rfl⟩
    exact ⟨⟨s, hs⟩, rfl⟩
  · rintro ⟨⟨s, hs⟩, rfl⟩
    exact ⟨s, hs, rfl⟩

theorem recallIdentity_isSome (d : Destination) (n : Network) :
    (recallIdentity d n).isSome = hasPath d n := by
  simp [recallIdentity, hasPath]

/-- The destination gets an open or a hidden endpoint. -/
def Event.Registers (a : Event) (d : Destination) (known : Bool) : Prop :=
  ∃ name hops, a = .register d name hops known

theorem registered?_eq_some_iff {s : Station} :
    a.registered? d = some s ↔ a = .register d s.remote s.hops s.known := by
  cases a with
  | register e name hops known =>
    constructor
    · intro h
      by_cases hd : d = e
      · simp [Event.registered?, hd] at h
        subst h hd
        rfl
      · simp [Event.registered?, hd] at h
    · rintro ⟨⟩
      simp [Event.registered?]
  | _ => simp [Event.registered?]

theorem not_registers (h : a.registered? d = none) (known : Bool) : ¬ a.Registers d known := by
  rintro ⟨name, hops, rfl⟩
  simp [Event.registered?] at h

/-- After an event a path is known if the endpoint is registered openly, or if it is not registered
as hidden and the path was known before or there is an announce or an answer for the endpoint. -/
theorem hasPath_apply : hasPath d (apply a n) = true ↔ a.Registers d true ∨
    ¬ a.Registers d false ∧
      (hasPath d n = true ∨ (n.station? d).isSome ∧ d ∈ (a.heard n).map (·.2)) := by
  simp only [hasPath_iff, station?_apply]
  cases hr : a.registered? d with
  | some s =>
    obtain rfl := registered?_eq_some_iff.mp hr
    have hregisters : ∀ known,
        (Event.register d s.remote s.hops s.known).Registers d known ↔ s.known = known := by
      intro known
      constructor
      · rintro ⟨name, hops, heq⟩
        cases heq
        rfl
      · rintro rfl
        exact ⟨s.remote, s.hops, rfl⟩
    rw [hregisters, hregisters]
    cases hknown : s.known <;> simp [hknown]
  | none =>
    simp only [not_registers hr, Option.none_or, false_or, not_false_eq_true, true_and]
    cases n.station? d with
    | none => simp
    | some s => by_cases hm : d ∈ (a.heard n).map (·.2) <;> simp [hm, reveal]

theorem lost_of_apply (h : hasPath d n = true) (h' : hasPath d (apply a n) = false) : a.Registers d false := by
  by_contra hhidden
  rw [hasPath_apply.mpr (.inr ⟨hhidden, .inl h⟩)] at h'
  cases h'

/-- A new link leads to a remote shell, and nothing happens to any other link or remote shell. -/
structure Leads (n : Network) (name : String) (r : Except TransportError LinkId × Network) : Prop where
  opened : r.1 = .ok n.links.length
  link : ∃ link, r.2.links = n.links ++ [link] ∧ link.remote = name
  /-- Unless it refuses, the remote shell talks on the link. -/
  attached : (n.remote name).behavior ≠ .refuse → (r.2.remote name).link = some n.links.length
  others : ∀ other, other ≠ name → r.2.remote other = n.remote other

theorem remote_detach_ne (n : Network) (l : LinkId) {name other : String} (h : other ≠ name) :
    (n.detach l name).remote other = n.remote other := by
  unfold detach modifyRemote
  split
  · rw [remote_setRemote, if_neg h]
  · rfl

theorem remote_shutLink_ne {l : LinkId} {other : String} (h : ∀ k ∈ n.links[l]?, other ≠ k.remote)
    (here : Bool) : (n.shutLink l here).remote other = n.remote other := by
  unfold shutLink
  cases hk : n.links[l]? with
  | none => rfl
  | some k =>
    dsimp only
    split
    · rfl
    · exact remote_detach_ne { n with teardowns := if here then n.teardowns + 1 else n.teardowns } l (h k hk)

theorem leads_of_attached {n' : Network} {name : String}
    (hlink : ∃ link, n'.links = n.links ++ [link] ∧ link.remote = name)
    (hremote : ∀ other, n'.remote other =
      (n.modifyRemote name fun r => { r with link := some n.links.length }).remote other) :
    n.Leads name (.ok n.links.length, n') where
  opened := rfl
  link := hlink
  attached _ := by rw [hremote, modifyRemote, remote_setRemote, if_pos rfl]
  others other hother := by rw [hremote, modifyRemote, remote_setRemote, if_neg hother]

theorem leads_answerLink (n : Network) (name : String) :
    n.Leads name (.ok n.links.length, (n.dialed name).answerLink n.links.length name) := by
  have hbehavior : ((n.dialed name).remote name).behavior = (n.remote name).behavior := rfl
  unfold answerLink
  rw [hbehavior]
  split
  · exact leads_of_attached ⟨_, modify_append_last n.links _ _, rfl⟩ fun _ => rfl
  · exact leads_of_attached ⟨_, rfl, rfl⟩ fun _ => rfl
  · rename_i hrefuse
    refine ⟨rfl, ⟨(Link.new name).close, ?_, rfl⟩, fun h => absurd hrefuse h, fun other hother => ?_⟩
    · exact (links_shutLink (n.dialed name) n.links.length false).trans (modify_append_last n.links _ _)
    · refine remote_shutLink_ne (n := n.dialed name) (fun k hk => ?_) false
      obtain rfl : Link.new name = k := by simpa [dialed] using hk
      exact hother

/-- The station that an identity belongs to is found in whatever order the table is searched. -/
theorem owner?_doubled (h : n.Distinct) {s : Station} (hs : n.station? d = some s)
    {table : List (Destination × Station)} (htable : table.Perm n.stations) :
    { n with stations := table }.owner? (.doubled d) = some s := by
  obtain ⟨before, after, hstations, -⟩ := List.lookup_eq_some_iff.mp hs
  have hm : (d, s) ∈ n.stations := hstations ▸ List.mem_append_right _ List.mem_cons_self
  have honly : ∀ p ∈ table, RemoteIdentity.doubled p.1 = .doubled d → p = (d, s) := by
    intro p hp hd
    exact List.inj_on_of_nodup_map h (htable.mem_iff.mp hp) hm (RemoteIdentity.doubled_injective hd)
  show (table.find? fun p => RemoteIdentity.doubled p.1 = .doubled d).map (·.2) = some s
  cases hfind : table.find? fun p => RemoteIdentity.doubled p.1 = .doubled d with
  | none =>
    have hno := List.find?_eq_none.mp hfind (d, s) (htable.mem_iff.mpr hm)
    simp at hno
  | some p =>
    have hd := List.find?_some hfind
    rw [honly p (List.mem_of_find?_eq_some hfind) (by simpa using hd)]
    rfl

theorem leads_openLink (h : n.Distinct) {s : Station} (hs : n.station? d = some s)
    {table : List (Destination × Station)} (htable : table.Perm n.stations) :
    n.Leads s.remote ({ n with stations := table }.openLink (.doubled d) shellAspect) := by
  have howner := owner?_doubled h hs htable
  have hopen : { n with stations := table }.openLink (.doubled d) shellAspect = (.ok n.links.length,
      ({ n with stations := table }.dialed s.remote).answerLink n.links.length s.remote) := by
    rw [openLink, if_neg (fun h => h rfl), howner]
    rfl
  rw [hopen]
  obtain ⟨hopened, hlink, hattached, hothers⟩ := leads_answerLink { n with stations := table } s.remote
  exact ⟨hopened, hlink, hattached, hothers⟩

/-- The request that an answer belongs to, made while the endpoint was hidden. -/
def Requested (hist : List (Network × Event)) (answer : Millis × Destination) : Prop :=
  ∃ v now, (v, .request now answer.2) ∈ hist ∧ v.WillAnswer now answer

theorem requested_of_run (h : Run apply .empty hist u) : ∀ answer ∈ u.answers, Requested hist answer := by
  induction h with
  | nil => nofun
  | @snoc hist u a _ ih =>
    intro answer hanswer
    rcases answer_of_apply hanswer with hbefore | ⟨now, rfl, hwill⟩
    · obtain ⟨v, now, hm, hwill⟩ := ih answer hbefore
      exact ⟨v, now, List.mem_append_left _ hm, hwill⟩
    · exact ⟨u, now, List.mem_append_right _ List.mem_cons_self, hwill⟩

theorem distinct_of_run (h : Run apply .empty hist u) : u.Distinct :=
  h.invariant List.nodup_nil fun a _ => distinct_apply a

theorem hidden_of_run {v : Network} (h : Run apply v hist u) (hv : hasPath d v = true)
    (hu : hasPath d u = false) : ∃ w a, (w, a) ∈ hist ∧ a.Registers d false := by
  induction h with
  | nil => cases hv.symm.trans hu
  | @snoc hist u a _ ih =>
    cases hbefore : hasPath d u with
    | false =>
      obtain ⟨w, b, hm, hb⟩ := ih hbefore
      exact ⟨w, b, List.mem_append_left _ hm, hb⟩
    | true =>
      refine ⟨u, a, List.mem_append_right _ List.mem_cons_self, ?_⟩
      exact lost_of_apply hbefore hu

/-- The remote shell that was registered last for a destination. -/
def Latest (hist : List (Network × Event)) (d : Destination) (name : String) : Prop :=
  ∃ before w hops known after, hist = before ++ (w, .register d name hops known) :: after ∧
    ∀ v b, (v, b) ∈ after → ∀ known, ¬ b.Registers d known

theorem latest_of_run (h : Run apply .empty hist u) {s : Station} (hs : u.station? d = some s) :
    Latest hist d s.remote := by
  induction h generalizing s with
  | nil => cases hs
  | @snoc hist u a _ ih =>
    rw [station?_apply] at hs
    cases hr : a.registered? d with
    | some new =>
      rw [hr, Option.some_or] at hs
      obtain rfl := Option.some.inj hs
      obtain rfl := registered?_eq_some_iff.mp hr
      exact ⟨hist, u, new.hops, new.known, [], rfl, fun v b hm => absurd hm List.not_mem_nil⟩
    | none =>
      rw [hr, Option.none_or] at hs
      obtain ⟨old, hold, rfl⟩ := Option.map_eq_some_iff.mp hs
      have hremote : (if d ∈ (a.heard u).map (·.2) then reveal old else old).remote = old.remote := by
        split <;> rfl
      obtain ⟨before, w, hops, known, after, rfl, hafter⟩ := ih hold
      rw [hremote]
      refine ⟨before, w, hops, known, after ++ [(u, a)], by simp, fun v b hm known => ?_⟩
      rcases List.mem_append.mp hm with hm | hm
      · exact hafter v b hm known
      · obtain ⟨rfl, rfl⟩ := Prod.mk.inj (List.mem_singleton.mp hm)
        exact not_registers hr known

theorem hasPath_of_answer {x : Search Network} {time : Millis}
    (h : x.outcome.answer? x.ticket = some ⟨x.ticket, time, .resolved true⟩) :
    ∃ w, (w = x.board ∨ w ∈ x.checks) ∧ w.now = time ∧ hasPath x.destination w.transport = true := by
  have hverdict := x.verdict_of_answer h
  generalize hanswer : Answered.mk x.ticket time (.resolved true) = a at hverdict
  cases hverdict with
  | known hknown _ =>
    cases hanswer
    exact ⟨x.board, .inl rfl, x.tick_zero.symm, hknown⟩
  | @found past w _ hchecks _ _ hnow hknown =>
    cases hanswer
    exact ⟨w, .inr (hchecks ▸ List.mem_append_right _ List.mem_cons_self), hnow, hknown⟩
  | missed => cases hanswer

theorem hasPath_of_unresolved {s : Session} {now : Millis} {rows cols : UInt16}
    (h : (s.start now rows cols n).1 = .error (.identityUnresolved s.destination)) :
    hasPath s.destination n = false := by
  have hnone : recallIdentity s.destination n = none := by
    rcases s.refusal_cases now rows cols n with ⟨hi, -⟩ | ⟨_, -, ⟨-, -, hagain⟩ | ⟨-, -, hcause⟩⟩
    · exact hi
    · rw [hagain] at h
      cases h
    · obtain ⟨_, hno⟩ := hcause _ h
      cases hno
  rw [← recallIdentity_isSome, hnone]
  rfl

/-- The ways for a path to become known. -/
inductive Reveals (hist : List (Network × Event)) (u : Network) (d : Destination) : Event → Prop
  | registered (name : String) (hops : HopCount) : Reveals hist u d (.register d name hops true)
  | announced (now : Millis) : Reveals hist u d (.announce now d)
  /-- A request is answered that was made while the endpoint was hidden. -/
  | answered {a : Event} {time : Millis} : (time, d) ∈ u.answers → (time, d) ∈ a.heard u →
    Requested hist (time, d) → Reveals hist u d a

theorem heard_cases {answer : Millis × Destination} (h : answer ∈ a.heard n) :
    a = .announce answer.1 answer.2 ∨ answer ∈ n.answers := by
  cases a with
  | announce now e =>
    obtain rfl := List.mem_singleton.mp h
    exact .inl rfl
  | answer i => exact .inr (List.mem_of_getElem? (Option.mem_toList.mp h))
  | wake now => exact .inr (List.mem_filter.mp h).1
  | settle => exact .inr h
  | _ => cases h

/-- Where the paths, the identities and the links of a mesh lead. -/
structure Routed (hist : List (Network × Event)) (u : Network) : Prop where
  /-- A path is known exactly if there is an identity to call. -/
  recalled : ∀ d, hasPath d u = true ↔ (recallIdentity d u).isSome
  identity : ∀ d identity, recallIdentity d u = some identity → identity = .doubled d
  distinct : ∀ d e : Destination, d ≠ e → RemoteIdentity.doubled d ≠ .doubled e
  /-- A link goes to the remote shell that was registered last and to no other, in whatever order
  the endpoints are searched. -/
  reached : ∀ d identity, recallIdentity d u = some identity → ∃ name, Latest hist d name ∧
    ∀ table, table.Perm u.stations →
      u.Leads name ({ u with stations := table }.openLink identity shellAspect)
  gained : ∀ d a, hasPath d u = false → hasPath d (apply a u) = true → Reveals hist u d a
  lost : ∀ d a, hasPath d u = true → hasPath d (apply a u) = false → a.Registers d false
  /-- A caller is told that there is a path at a moment after which a session has an identity to
  call, unless the endpoint is registered as hidden meanwhile. -/
  resolved : ∀ (x : Search Network) time,
    x.outcome.answer? x.ticket = some ⟨x.ticket, time, .resolved true⟩ →
      ∃ w, (w = x.board ∨ w ∈ x.checks) ∧ w.now = time ∧
        ∀ later, Run apply w.transport later u → ∀ (s : Session) now rows cols,
          s.destination = x.destination →
            (s.start now rows cols u).1 = .error (.identityUnresolved x.destination) →
              ∃ v b, (v, b) ∈ later ∧ b.Registers x.destination false

theorem routed (hist : List (Network × Event)) (u : Network) (h : Run apply .empty hist u) :
    Routed hist u where
  recalled d := by rw [recallIdentity_isSome]
  identity d identity hi := (recallIdentity_eq_some_iff.mp hi).2
  distinct d e hne heq := hne (RemoteIdentity.doubled_injective heq)
  reached d identity hi := by
    obtain ⟨hpath, rfl⟩ := recallIdentity_eq_some_iff.mp hi
    obtain ⟨s, hs, -⟩ := hasPath_iff.mp hpath
    exact ⟨s.remote, latest_of_run h hs, fun table htable => leads_openLink (distinct_of_run h) hs htable⟩
  gained d a hno hyes := by
    rcases hasPath_apply.mp hyes with ⟨name, hops, rfl⟩ | ⟨-, hold | ⟨-, hm⟩⟩
    · exact .registered name hops
    · cases hno.symm.trans hold
    · obtain ⟨⟨time, e⟩, hheard, rfl⟩ := List.mem_map.mp hm
      rcases heard_cases hheard with rfl | hanswer
      · exact .announced time
      · exact .answered hanswer hheard (requested_of_run h _ hanswer)
  lost d a hyes hno := lost_of_apply hyes hno
  resolved x time hans := by
    obtain ⟨w, hw, hnow, hpath⟩ := hasPath_of_answer hans
    refine ⟨w, hw, hnow, fun later hrun s now rows cols hd hstart => ?_⟩
    rw [← hd] at hstart hpath ⊢
    exact hidden_of_run hrun hpath (hasPath_of_unresolved hstart)

/-- An endpoint is replaced while the answer to a request for its path is on its way. -/
def replaced (d : Destination) : List Event :=
  [.register d "first" .unknown false, .answerAfter (some 20), .request 0 d,
    .register d "second" (.known 3) false, .settle]

theorem routed_replaced : ∃ d, hasPath d (reach apply .empty (replaced d)) = true ∧
    Routed (trail apply .empty (replaced d)) (reach apply .empty (replaced d)) :=
  ⟨⟨List.replicate 16 5, rfl⟩, by decide +kernel, routed _ _ (Run.of_actions apply .empty _)⟩

end MeshShell.Simulation.Network
