import MeshShell.Proofs.Discovery.Order
import MeshShell.Proofs.Run
import MeshShell.Simulation.Announce
import Mathlib.Data.List.Induction

/-! # What a table of discovered endpoints remembers

Over any run of announces, path requests, registrations and evictions the table
holds the endpoints that were not too old at any eviction since they were last
heard of, with the distance and the time of that announce.
-/
namespace MeshShell.Discovery

open Simulation

inductive Happening
  /-- An endpoint is announced, and the transport knows this distance to it. -/
  | heard (time : Millis) (d : Destination) (hops : HopCount)
  | evicted (time age : Millis)

def Happening.time : Happening → Millis
  | .heard time _ _ => time
  | .evicted time _ => time

/-- Takes in what happened. -/
def note (c : Discovery) : Happening → Discovery
  | .heard time d hops => c.upsert time d hops
  | .evicted time age => (c.evict time age).2

def ofLog (log : List Happening) : Discovery := log.foldl note empty

/-- The endpoint of an entry was last heard of as the entry says, and it was not too old at any
eviction since then. -/
def Standing (log : List Happening) (e : Discovered) : Prop :=
  ∃ earlier later, log = earlier ++ .heard e.lastSeen e.destination e.hops :: later ∧
    (∀ time hops, .heard time e.destination hops ∉ later) ∧
    ∀ time age, .evicted time age ∈ later → ¬ age ≤ time - e.lastSeen

/-- An entry is not replaced and not dropped. -/
def Happening.Spares : Happening → Discovered → Prop
  | .heard _ d _, e => d ≠ e.destination
  | .evicted time age, e => ¬ age ≤ time - e.lastSeen

theorem standing_snoc (log : List Happening) (h : Happening) (e : Discovered) :
    Standing (log ++ [h]) e ↔
      h = .heard e.lastSeen e.destination e.hops ∨ Standing log e ∧ h.Spares e := by
  constructor
  · rintro ⟨earlier, later, hlog, hheard, hevicted⟩
    rcases List.eq_nil_or_concat later with rfl | ⟨first, last, rfl⟩
    · exact .inl (List.singleton_inj.mp (List.append_inj' hlog rfl).2)
    · rw [List.concat_eq_append, ← List.cons_append, ← List.append_assoc] at hlog
      obtain ⟨rfl, hlast⟩ := List.append_inj' hlog rfl
      obtain rfl : h = last := List.singleton_inj.mp hlast
      refine .inr ⟨⟨earlier, first, rfl, ?_, ?_⟩, ?_⟩
      · exact fun time hops hm => hheard time hops (by simp [hm])
      · exact fun time age hm => hevicted time age (by simp [hm])
      · cases h with
        | heard time d hops =>
          rintro rfl
          exact hheard time hops (by simp)
        | evicted time age => exact hevicted time age (by simp)
  · rintro (rfl | ⟨⟨earlier, later, rfl, hheard, hevicted⟩, hspares⟩)
    · exact ⟨log, [], rfl, by simp, by simp⟩
    · refine ⟨earlier, later ++ [h], by simp, ?_, ?_⟩
      · intro time hops hm
        rcases List.mem_append.mp hm with hm | hm
        · exact hheard time hops hm
        · obtain rfl := List.mem_singleton.mp hm
          exact hspares rfl
      · intro time age hm
        rcases List.mem_append.mp hm with hm | hm
        · exact hevicted time age hm
        · obtain rfl := List.mem_singleton.mp hm
          exact hspares

theorem mem_note (c : Discovery) (h : Happening) (e : Discovered) :
    e ∈ (c.note h).entries ↔
      h = .heard e.lastSeen e.destination e.hops ∨ e ∈ c.entries ∧ h.Spares e := by
  obtain ⟨d', hops', seen⟩ := e
  cases h with
  | heard time d hops =>
    simp only [note, upsert, List.mem_cons, List.mem_filter, Happening.Spares, Happening.heard.injEq,
      Discovered.mk.injEq, decide_eq_true_eq, ne_eq]
    tauto
  | evicted time age => simp [note, evict, Happening.Spares]

theorem distinct_note {c : Discovery} (hc : c.Distinct) (h : Happening) : (c.note h).Distinct := by
  cases h with
  | heard time d hops =>
    refine List.nodup_cons.mpr ⟨?_, hc.sublist (List.filter_sublist.map _)⟩
    simp
  | evicted time age => exact hc.sublist (List.filter_sublist.map _)

theorem ofLog_snoc (log : List Happening) (h : Happening) :
    ofLog (log ++ [h]) = (ofLog log).note h := by
  simp [ofLog]

theorem mem_ofLog (log : List Happening) (e : Discovered) :
    e ∈ (ofLog log).entries ↔ Standing log e := by
  induction log using List.reverseRecOn with
  | nil =>
    refine iff_of_false (by simp [ofLog, empty]) ?_
    rintro ⟨earlier, later, hlog, -⟩
    simp at hlog
  | append_singleton log h ih => rw [ofLog_snoc, mem_note, standing_snoc, ih]

theorem distinct_ofLog (log : List Happening) : (ofLog log).Distinct := by
  induction log using List.reverseRecOn with
  | nil => exact List.nodup_nil
  | append_singleton log h ih =>
    rw [ofLog_snoc]
    exact distinct_note ih h

theorem snapshot_evict {c : Discovery} (hc : c.Distinct) (now age : Millis) :
    (c.evict now age).2.snapshot = c.snapshot.filter fun e => now - e.lastSeen < age := by
  have hperm : (c.snapshot.filter fun e => now - e.lastSeen < age).Perm (c.evict now age).2.entries :=
    c.snapshot_perm.filter _
  have hc' : (c.evict now age).2.Distinct := distinct_note hc (.evicted now age)
  have hsorted : (c.snapshot.filter fun e => now - e.lastSeen < age).Pairwise Discovered.Precedes :=
    (snapshot_ascending hc).filter _
  exact (eq_snapshot hc' hperm hsorted).symm

theorem evict_count {c : Discovery} (hc : c.Distinct) (now age : Millis) :
    (c.evict now age).1 =
      (c.snapshot.filter fun e => e ∉ (c.evict now age).2.snapshot).length := by
  have hdropped : (c.snapshot.filter fun e => e ∉ (c.evict now age).2.snapshot) =
      c.snapshot.filter fun e => !decide (now - e.lastSeen < age) := by
    refine List.filter_congr fun e he => ?_
    have hmem : e ∈ (c.evict now age).2.snapshot ↔ now - e.lastSeen < age := by
      simp [snapshot_evict hc, he]
    rw [decide_not, decide_eq_decide.mpr hmem]
  have hall := List.length_eq_length_filter_add (l := c.snapshot) fun e => now - e.lastSeen < age
  have hkept : (c.evict now age).2.entries.length =
      (c.snapshot.filter fun e => now - e.lastSeen < age).length := by
    rw [← snapshot_evict hc, (snapshot_perm _).length_eq]
  have hcount : (c.evict now age).1 = c.entries.length - (c.evict now age).2.entries.length := rfl
  rw [hdropped, hcount, hkept, ← c.snapshot_perm.length_eq]
  omega

section Mesh

variable {listener : String} {n : Network}

/-- What a listener has been told and has not taken in yet. -/
def news (listener : String) (n : Network) : List Happening :=
  (n.notices.filter (·.listener = listener)).map fun m => .heard m.time m.destination m.hops

/-- Somebody listens for the announces of remote shells, and nobody else has the name. -/
def Attuned (listener : String) (n : Network) : Prop :=
  n.listeners.filter (·.name = listener) = [⟨listener, shellAspect⟩]

/-- What an announce of an endpoint brings, if the endpoint is registered. -/
def announced (time : Millis) (d : Destination) (n : Network) : List Happening :=
  if (n.station? d).isSome then [.heard time d ((n.announce time d).hopsTo d)] else []

/-- What the answers to path requests bring, one after the other. -/
def answered : List (Millis × Destination) → Network → List Happening
  | [], _ => []
  | (time, d) :: rest, n => announced time d n ++ answered rest (n.announce time d)

theorem hearAll_eq (c : Discovery) (listener : String) (n : Network) :
    c.hearAll listener n.notices = (news listener n).foldl note c := by
  unfold hearAll news
  rw [List.foldl_map]
  rfl

theorem news_fanOut (h : Attuned listener n) (time : Millis) (d : Destination) (aspect : String) :
    news listener (n.fanOut time d aspect) = news listener n ++
      if aspect = shellAspect then [.heard time d (n.hopsTo d)] else [] := by
  have htold : ((n.listeners.filter (·.aspect = aspect)).filter (·.name = listener)) =
      if aspect = shellAspect then [⟨listener, shellAspect⟩] else [] := by
    rw [List.filter_comm, h]
    by_cases ha : aspect = shellAspect
    · simp [ha]
    · simp [ha, Ne.symm ha]
  unfold news Network.fanOut
  dsimp only
  rw [List.filter_append, List.map_append, List.filter_map]
  simp only [Function.comp_def]
  rw [htold]
  split <;> rfl

theorem news_announce (h : Attuned listener n) (time : Millis) (d : Destination) :
    news listener (n.announce time d) = news listener n ++ announced time d n := by
  unfold announced
  cases hs : n.station? d with
  | none => simp [Network.announce, hs]
  | some s =>
    have hannounce : n.announce time d =
        (n.setStation d { s with known := true }).fanOut time d shellAspect := by
      simp [Network.announce, hs]
    rw [hannounce, news_fanOut (n := n.setStation d { s with known := true }) h]
    rfl

theorem announce_frame (time : Millis) (d : Destination) (n : Network) : ∃ stations notices,
    n.announce time d = { n with stations, notices } := by
  unfold Network.announce
  cases n.station? d <;> exact ⟨_, _, rfl⟩

theorem answerAll_frame (due : List (Millis × Destination)) (n : Network) : ∃ stations notices,
    due.foldl (fun n (time, d) => n.announce time d) n = { n with stations, notices } := by
  induction due generalizing n with
  | nil => exact ⟨_, _, rfl⟩
  | cons a rest ih =>
    obtain ⟨time, d⟩ := a
    obtain ⟨stations, notices, hfirst⟩ := announce_frame time d n
    obtain ⟨stations', notices', hrest⟩ := ih (n.announce time d)
    refine ⟨stations', notices', ?_⟩
    rw [List.foldl_cons, hrest, hfirst]

theorem news_answerAll (h : Attuned listener n) (due : List (Millis × Destination)) :
    news listener (due.foldl (fun n (time, d) => n.announce time d) n) =
      news listener n ++ answered due n := by
  induction due generalizing n with
  | nil => simp [answered]
  | cons a rest ih =>
    obtain ⟨time, d⟩ := a
    obtain ⟨stations, notices, hfirst⟩ := announce_frame time d n
    have hnext : Attuned listener (n.announce time d) := by rwa [hfirst]
    rw [List.foldl_cons, ih hnext, news_announce h, List.append_assoc]
    rfl

theorem time_of_mem_announced {time : Millis} {d : Destination} {h : Happening}
    (hm : h ∈ announced time d n) : h.time = time := by
  unfold announced at hm
  split at hm
  · rw [List.mem_singleton.mp hm]
    rfl
  · simp at hm

theorem time_of_mem_answered {time : Millis} {due : List (Millis × Destination)} {h : Happening}
    (hdue : ∀ a ∈ due, a.1 = time) (hm : h ∈ answered due n) : h.time = time := by
  induction due generalizing n with
  | nil => simp [answered] at hm
  | cons a rest ih =>
    rcases List.mem_append.mp hm with hm | hm
    · exact (time_of_mem_announced hm).trans (hdue a (by simp))
    · exact ih (fun b hb => hdue b (List.mem_cons_of_mem a hb)) hm

end Mesh

/-- A change of the mesh in which nobody is told anything, and all that listen under a name stay as
they are. -/
structure Change (listener : String) where
  apply : Network → Network
  notices_apply : ∀ n, (apply n).notices = n.notices
  answers_apply : ∀ n, (apply n).answers = n.answers
  listeners_apply : ∀ n, (apply n).listeners.filter (·.name = listener) =
    n.listeners.filter (·.name = listener)

inductive Event (listener : String)
  /-- An announce of an endpoint. Without an endpoint nothing is announced. -/
  | announce (d : Destination)
  /-- An announce of some destination under some aspect. -/
  | foreign (d : Destination) (aspect : String)
  | register (d : Destination) (remote : String) (hops : HopCount) (known : Bool)
  | request (d : Destination)
  /-- Time goes on, to the next answer to a path request at the most. -/
  | pass (time : Millis)
  | evict (age : Millis)
  | mesh (change : Change listener)

/-- A table of discovered endpoints, and the mesh on which it listens. -/
structure Lookout where
  now : Millis
  network : Network
  cache : Discovery

namespace Lookout

/-- Takes in what the listener has been told. -/
def hear (listener : String) (n : Network) (u : Lookout) : Lookout :=
  let (notices, n) := n.takeNotices
  { u with network := n, cache := u.cache.hearAll listener notices }

/-- The moment to which time goes on. -/
def moment (u : Lookout) (time : Millis) : Millis :=
  max u.now ((((u.network.answers.map (·.1)).min?).map (min time)).getD time)

/-- What an event brings. -/
def happenings {listener : String} (u : Lookout) : Event listener → List Happening
  | .announce d => announced u.now d u.network
  | .foreign d aspect => if aspect = shellAspect then [.heard u.now d (u.network.hopsTo d)] else []
  | .pass time =>
    let (due, later) := u.network.answers.partition (·.1 ≤ u.moment time)
    answered due { u.network with answers := later }
  | .evict age => [.evicted u.now age]
  | _ => []

/-- The listener is there and has taken in all notices, and no answer is overdue. -/
structure Ready (listener : String) (u : Lookout) : Prop where
  attuned : Attuned listener u.network
  quiet : u.network.notices = []
  pending : ∀ a ∈ u.network.answers, u.now ≤ a.1

end Lookout

def happen {listener : String} : Event listener → Lookout → Lookout
  | .announce d, u => u.hear listener (u.network.announce u.now d)
  | .foreign d aspect, u => u.hear listener (u.network.fanOut u.now d aspect)
  | .register d remote hops known, u =>
    { u with network := u.network.addStation d remote hops known }
  | .request d, u => { u with network := u.network.requestPath u.now d }
  | .pass time, u =>
    Lookout.hear listener (u.network.wake (u.moment time)) { u with now := u.moment time }
  | .evict age, u => { u with cache := (u.cache.evict u.now age).2 }
  | .mesh change, u => { u with network := change.apply u.network }

variable {listener : String} {u : Lookout}

/-- What an event leaves behind: the clock does not go back, the table takes in what happened at
the present moment, and the listener is ready for the next event. -/
structure Kept (u : Lookout) (e : Event listener) : Prop where
  ready : (happen e u).Ready listener
  clock : u.now ≤ (happen e u).now
  stamped : ∀ h ∈ u.happenings e, h.time = (happen e u).now
  cache : (happen e u).cache = (u.happenings e).foldl note u.cache

theorem hear_cache (listener : String) (u : Lookout) (n : Network) :
    (u.hear listener n).cache = (news listener n).foldl note u.cache := hearAll_eq u.cache listener n

theorem kept_hear {n : Network} (hu : u.Ready listener) {e : Event listener}
    (he : happen e u = u.hear listener n) (hl : Attuned listener n)
    (ha : n.answers = u.network.answers)
    (hnews : news listener n = news listener u.network ++ u.happenings e)
    (ht : ∀ h ∈ u.happenings e, h.time = u.now) : Kept u e := by
  have hnow : (happen e u).now = u.now := by rw [he]; rfl
  refine ⟨?_, hnow.ge, fun h hm => (ht h hm).trans hnow.symm, ?_⟩
  · rw [he]
    exact ⟨hl, rfl, fun a hm => hu.pending a (ha ▸ hm)⟩
  · rw [he, hear_cache, hnews]
    simp [news, hu.quiet]

theorem kept_request (hu : u.Ready listener) (d : Destination) :
    Kept u (.request d : Event listener) := by
  obtain ⟨requests, answers, hrequest, hpending⟩ : ∃ requests answers,
      u.network.requestPath u.now d = { u.network with requests, answers } ∧
        ∀ a ∈ answers, u.now ≤ a.1 := by
    unfold Network.requestPath
    dsimp only
    split
    · refine ⟨_, _, rfl, fun a hm => ?_⟩
      rcases List.mem_append.mp hm with hm | hm
      · exact hu.pending a hm
      · rw [List.mem_singleton.mp hm]
        exact Nat.le_add_right _ _
    · exact ⟨_, u.network.answers, rfl, hu.pending⟩
  have he : happen (.request d : Event listener) u =
      { u with network := { u.network with requests, answers } } := by rw [← hrequest]; rfl
  refine ⟨?_, ?_, by simp [Lookout.happenings], ?_⟩ <;> rw [he]
  · exact ⟨hu.attuned, hu.quiet, hpending⟩
  · rfl

theorem le_moment (hu : u.Ready listener) (time : Millis) :
    u.now ≤ u.moment time ∧ ∀ a ∈ u.network.answers, u.moment time ≤ a.1 := by
  refine ⟨Nat.le_max_left _ _, fun a ha => Nat.max_le.mpr ⟨hu.pending a ha, ?_⟩⟩
  cases hdue : (u.network.answers.map (·.1)).min? with
  | none =>
    rw [List.min?_eq_none_iff, List.map_eq_nil_iff] at hdue
    simp [hdue] at ha
  | some due =>
    have hmin : due ≤ a.1 := (List.min?_eq_some_iff.mp hdue).2 a.1 (List.mem_map_of_mem ha)
    exact (Nat.min_le_right time due).trans hmin

theorem kept_pass (hu : u.Ready listener) (time : Millis) : Kept u (.pass time : Event listener) := by
  obtain ⟨hnow, hnext⟩ := le_moment hu time
  let due := u.network.answers.filter (·.1 ≤ u.moment time)
  let later := u.network.answers.filter fun a => !decide (a.1 ≤ u.moment time)
  let start : Network := { u.network with answers := later }
  have hwake : u.network.wake (u.moment time) =
      due.foldl (fun n (time, d) => n.announce time d) start := by
    simp [Network.wake, List.partition_eq_filter_filter, due, later, start, Function.comp_def]
  have hhappen : u.happenings (.pass time : Event listener) = answered due start := by
    simp [Lookout.happenings, List.partition_eq_filter_filter, due, later, start, Function.comp_def]
  have hattuned : Attuned listener start := hu.attuned
  have hnews := news_answerAll hattuned due
  obtain ⟨stations, notices, hframe⟩ := answerAll_frame due start
  refine ⟨?_, hnow, ?_, ?_⟩
  · refine ⟨?_, rfl, ?_⟩
    · show Attuned listener (u.network.wake (u.moment time))
      rw [hwake, hframe]
      exact hattuned
    · intro a ha
      have hm : a ∈ later := by
        have ha' : a ∈ (u.network.wake (u.moment time)).answers := ha
        rwa [hwake, hframe] at ha'
      exact hnext a (List.mem_filter.mp hm).1
  · rw [hhappen]
    intro h hm
    refine time_of_mem_answered (fun a ha => ?_) hm
    obtain ⟨ha, hle⟩ := List.mem_filter.mp ha
    exact Nat.le_antisymm (of_decide_eq_true hle) (hnext a ha)
  · have hcache := hear_cache listener { u with now := u.moment time }
      (u.network.wake (u.moment time))
    refine hcache.trans ?_
    rw [hwake, hnews, hhappen]
    simp [news, start, hu.quiet]

theorem kept (hu : u.Ready listener) (e : Event listener) : Kept u e := by
  cases e with
  | announce d =>
    obtain ⟨stations, notices, hframe⟩ := announce_frame u.now d u.network
    refine kept_hear hu rfl ?_ ?_ (news_announce hu.attuned u.now d) fun h hm =>
      time_of_mem_announced hm
    · rw [hframe]
      exact hu.attuned
    · rw [hframe]
  | foreign d aspect =>
    refine kept_hear hu rfl hu.attuned rfl (news_fanOut hu.attuned u.now d aspect) fun h hm => ?_
    simp only [Lookout.happenings] at hm
    split at hm
    · rw [List.mem_singleton.mp hm]
      rfl
    · simp at hm
  | register d remote hops known =>
    exact ⟨⟨hu.attuned, hu.quiet, hu.pending⟩, le_rfl, by simp [Lookout.happenings], rfl⟩
  | request d => exact kept_request hu d
  | pass time => exact kept_pass hu time
  | evict age =>
    refine ⟨⟨hu.attuned, hu.quiet, hu.pending⟩, le_rfl, fun h hm => ?_, rfl⟩
    rw [List.mem_singleton.mp hm]
    rfl
  | mesh change =>
    refine ⟨⟨?_, ?_, ?_⟩, le_rfl, by simp [Lookout.happenings], rfl⟩
    · exact (change.listeners_apply u.network).trans hu.attuned
    · exact (change.notices_apply u.network).trans hu.quiet
    · intro a ha
      have ha' : a ∈ (change.apply u.network).answers := ha
      rw [change.answers_apply] at ha'
      exact hu.pending a ha'

/-- Everything that happened in a history, in order. -/
def logOf (hist : List (Lookout × Event listener)) : List Happening :=
  hist.flatMap fun (u, e) => u.happenings e

theorem logOf_snoc (hist : List (Lookout × Event listener)) (u : Lookout) (e : Event listener) :
    logOf (hist ++ [(u, e)]) = logOf hist ++ u.happenings e := by
  simp [logOf]

/-- The table holds what the log says, and the log is in the order of time. -/
structure Lookout.Recalls (listener : String) (log : List Happening) (u : Lookout) : Prop where
  ready : u.Ready listener
  cache : u.cache = ofLog log
  ordered : (log.map (·.time)).Pairwise (· ≤ ·)
  past : ∀ h ∈ log, h.time ≤ u.now

theorem Lookout.Recalls.happen {log : List Happening} (hu : u.Recalls listener log)
    (e : Event listener) : (happen e u).Recalls listener (log ++ u.happenings e) := by
  have hk := kept hu.ready e
  refine ⟨hk.ready, ?_, ?_, ?_⟩
  · rw [hk.cache, hu.cache, ofLog, ofLog, List.foldl_append]
  · rw [List.map_append]
    refine List.pairwise_append.mpr ⟨hu.ordered, ?_, ?_⟩
    · refine List.pairwise_map.mpr (List.pairwise_of_forall_mem_list fun a ha b hb => ?_)
      exact ((hk.stamped a ha).trans (hk.stamped b hb).symm).le
    · intro s hs t ht
      obtain ⟨a, ha, rfl⟩ := List.mem_map.mp hs
      obtain ⟨b, hb, rfl⟩ := List.mem_map.mp ht
      exact ((hu.past a ha).trans hk.clock).trans (hk.stamped b hb).ge
  · intro h hm
    rcases List.mem_append.mp hm with hm | hm
    · exact (hu.past h hm).trans hk.clock
    · exact (hk.stamped h hm).le

theorem recalls_of_run {start : Lookout} {hist : List (Lookout × Event listener)}
    (hr : Run happen start hist u) (hstart : start.Recalls listener []) :
    u.Recalls listener (logOf hist) := by
  induction hr with
  | nil => exact hstart
  | snoc e _ ih =>
    rw [logOf_snoc]
    exact ih.happen e

/-- A table that begins to listen on an empty mesh, and what happens from then on. -/
structure Vigil where
  listener : String
  now : Millis
  events : List (Event listener)

namespace Vigil

def start (x : Vigil) : Lookout := ⟨x.now, Network.empty.listen x.listener shellAspect, empty⟩

def history (x : Vigil) : List (Lookout × Event x.listener) := trail happen x.start x.events

def outcome (x : Vigil) : Lookout := reach happen x.start x.events

theorem run (x : Vigil) : Run happen x.start x.history x.outcome := .of_actions happen x.start x.events

def log (x : Vigil) : List Happening := logOf x.history

theorem recalls_start (x : Vigil) : x.start.Recalls x.listener [] where
  ready := ⟨by simp [Attuned, start, Network.listen, Network.empty], rfl, by simp [start,
    Network.listen, Network.empty]⟩
  cache := rfl
  ordered := .nil
  past := by simp

/-- What can be relied on in a table of discovered endpoints, whatever happened. -/
structure Faithful (x : Vigil) : Prop where
  entries : ∀ e, e ∈ x.outcome.cache.snapshot ↔ Standing x.log e
  distinct : (x.outcome.cache.snapshot.map (·.destination)).Nodup
  ascending : x.outcome.cache.snapshot.Pairwise Discovered.Precedes
  /-- Destinations come in the order in which their texts do. -/
  texts : ∀ a ∈ x.outcome.cache.snapshot, ∀ b ∈ x.outcome.cache.snapshot,
    (a.destination < b.destination ↔ a.destination.text < b.destination.text)
  /-- An eviction drops the entries that are too old, counts them, and keeps all others. -/
  evicted : ∀ u age, (u, .evict age) ∈ x.history →
    (happen (.evict age : Event x.listener) u).cache.snapshot =
        u.cache.snapshot.filter (fun e => u.now - e.lastSeen < age) ∧
      (u.cache.evict u.now age).1 = (u.cache.snapshot.filter fun e =>
        e ∉ (happen (.evict age : Event x.listener) u).cache.snapshot).length
  /-- What happens bears the time at which it happens, and the clock does not go back. -/
  stamped : ∀ u e, (u, e) ∈ x.history → ∀ h ∈ u.happenings e, h.time = (happen e u).now
  ordered : (x.log.map (·.time)).Pairwise (· ≤ ·) ∧ ∀ h ∈ x.log, h.time ≤ x.outcome.now

end Vigil

/-- A table of discovered endpoints holds what its history says. -/
theorem faithful_to_history (x : Vigil) : x.Faithful := by
  have hx := recalls_of_run x.run x.recalls_start
  have hready : ∀ {v e}, (v, e) ∈ x.history → ∃ log, v.Recalls x.listener log := by
    intro v e hm
    obtain ⟨before, after, -, hv, -⟩ := x.run.cut hm
    exact ⟨_, recalls_of_run hv x.recalls_start⟩
  have hdistinct : x.outcome.cache.Distinct := hx.cache ▸ distinct_ofLog x.log
  exact
    { entries := by
        intro e
        rw [mem_snapshot, hx.cache]
        exact mem_ofLog x.log e
      distinct := nodup_snapshot hdistinct
      ascending := snapshot_ascending hdistinct
      texts := fun a _ b _ => (Destination.text_lt_text_iff a.destination b.destination).symm
      evicted := by
        intro v age hm
        obtain ⟨log, hv⟩ := hready hm
        have hcache : v.cache.Distinct := hv.cache ▸ distinct_ofLog log
        exact ⟨snapshot_evict hcache v.now age, evict_count hcache v.now age⟩
      stamped := by
        intro v e hm h hh
        obtain ⟨log, hv⟩ := hready hm
        exact (kept hv.ready e).stamped h hh
      ordered := ⟨hx.ordered, hx.past⟩ }

end MeshShell.Discovery
