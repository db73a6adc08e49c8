import MeshShell.Proofs.Rows
import MeshShell.Proofs.Run
import MeshShell.Proofs.Simulation.Record

/-! # What becomes of the endpoints of a mesh

Registrations put an endpoint in the place of another one, announces and answers
make endpoints known, and nothing else that happens on a mesh has to do with
them.
-/
namespace MeshShell.Simulation.Network

/-- What can happen on a mesh. -/
inductive Event
  | register (d : Destination) (remote : String) (hops : HopCount) (known : Bool)
  | announce (now : Millis) (d : Destination)
  | foreign (now : Millis) (d : Destination) (aspect : String)
  | listen (name aspect : String)
  | takeNotices
  /-- From now on requests are answered after a while, or not at all. -/
  | answerAfter (later : Option Millis)
  | request (now : Millis) (d : Destination)
  /-- One of the answers arrives that are on their way. -/
  | answer (i : Nat)
  | wake (now : Millis)
  | settle
  | openLink (identity : RemoteIdentity) (aspect : String)
  | shutLink (l : LinkId) (here : Bool)
  | handleBy (name : String) (l : LinkId)
  | send (l : LinkId) (m : Message)
  | emit (name : String) (m : Message)
  | dropLink (name : String)
  | deliver
  /-- Something happens to a link alone. -/
  | link (l : LinkId) (change : Link → Link)
  /-- Something happens to a remote shell alone. -/
  | remote (name : String) (change : Remote → Remote)
  | attach (i : Interface)
  | failAttach (fail : Bool)
  | start (thread : Option String) (s : Start)
  | failStart (fail : Bool)

/-- Answers that arrive one after another. -/
def announceAll (n : Network) (answers : List (Millis × Destination)) : Network :=
  answers.foldl (fun n (time, d) => n.announce time d) n

def apply : Event → Network → Network
  | .register d remote hops known, n => n.addStation d remote hops known
  | .announce now d, n => n.announce now d
  | .foreign now d aspect, n => n.fanOut now d aspect
  | .listen name aspect, n => n.listen name aspect
  | .takeNotices, n => n.takeNotices.2
  | .answerAfter later, n => { n with answerAfter := later }
  | .request now d, n => n.requestPath now d
  | .answer i, n => { n with answers := n.answers.eraseIdx i }.announceAll (n.answers[i]?).toList
  | .wake now, n => n.wake now
  | .settle, n => n.settle
  | .openLink identity aspect, n => (n.openLink identity aspect).2
  | .shutLink l here, n => n.shutLink l here
  | .handleBy name l, n => n.handleBy name l
  | .send l m, n => (n.send l m).2
  | .emit name m, n => n.emit name m
  | .dropLink name, n => n.dropLink name
  | .deliver, n => n.deliver.2
  | .link l change, n => n.modifyLink l change
  | .remote name change, n => n.modifyRemote name change
  | .attach i, n => (n.attach i).2
  | .failAttach fail, n => { n with failAttach := fail }
  | .start thread s, n => (n.start thread s).2
  | .failStart fail, n => { n with failStart := fail }

/-- The announces and the answers that come with an event. -/
def Event.heard (n : Network) : Event → List (Millis × Destination)
  | .announce now d => [(now, d)]
  | .answer i => (n.answers[i]?).toList
  | .wake now => n.answers.filter (·.1 ≤ now)
  | .settle => n.answers
  | _ => []

/-- The station that an event registers for a destination. -/
def Event.registered? (d : Destination) : Event → Option Station
  | .register e name hops known => if d = e then some ⟨name, hops, known⟩ else none
  | _ => none

variable {n u : Network} {hist : List (Network × Event)} {d : Destination}

/-- Nothing of what paths are found by is different. -/
def SameRoutes (n n' : Network) : Prop := n'.stations = n.stations ∧ n'.answers = n.answers

theorem sameRoutes_shutLink (n : Network) (l : LinkId) (here : Bool) : n.SameRoutes (n.shutLink l here) := by
  obtain ⟨remotes, links, teardowns, hshut⟩ := n.shutLink_frame l here
  rw [hshut]
  exact ⟨rfl, rfl⟩

theorem sameRoutes_answerLink (n : Network) (l : LinkId) (name : String) :
    n.SameRoutes (n.answerLink l name) := by
  unfold answerLink
  split
  · exact ⟨rfl, rfl⟩
  · exact ⟨rfl, rfl⟩
  · exact n.sameRoutes_shutLink l false

/-- There is one more link, of which the remote shell does not know yet. -/
def dialed (n : Network) (name : String) : Network := { n with links := n.links ++ [Link.new name] }

theorem sameRoutes_openLink (identity : RemoteIdentity) (aspect : String) (n : Network) :
    n.SameRoutes (n.openLink identity aspect).2 := by
  unfold openLink
  split
  · exact ⟨rfl, rfl⟩
  · split
    · exact ⟨rfl, rfl⟩
    · rename_i s _
      exact (n.dialed s.remote).sameRoutes_answerLink n.links.length s.remote

theorem sameRoutes_dropLink (n : Network) (name : String) : n.SameRoutes (n.dropLink name) := by
  unfold dropLink
  split
  · exact ⟨rfl, rfl⟩
  · rename_i l _
    exact sameRoutes_shutLink (n.modifyRemote name fun r => { r with link := none }) l false

theorem sameRoutes_emit (n : Network) (name : String) (m : Message) : n.SameRoutes (n.emit name m) := by
  unfold emit
  split <;> exact ⟨rfl, rfl⟩

theorem sameRoutes_send (l : LinkId) (m : Message) (n : Network) : n.SameRoutes (n.send l m).2 := by
  unfold send
  split <;> exact ⟨rfl, rfl⟩

theorem sameRoutes_attach (i : Interface) (n : Network) : n.SameRoutes (n.attach i).2 := by
  unfold attach
  dsimp only
  split <;> exact ⟨rfl, rfl⟩

theorem sameRoutes_start (thread : Option String) (s : Start) (n : Network) :
    n.SameRoutes (n.start thread s).2 := by
  unfold start
  dsimp only
  split
  · exact ⟨rfl, rfl⟩
  · split <;> exact ⟨rfl, rfl⟩

/-- Whether an event has to do with paths. -/
def Event.isRouting : Event → Bool
  | .register .. | .announce .. | .request .. | .answer .. | .wake .. | .settle => true
  | _ => false

theorem sameRoutes_apply {a : Event} (ha : a.isRouting = false) (n : Network) : n.SameRoutes (apply a n) := by
  cases a with
  | openLink identity aspect => exact n.sameRoutes_openLink identity aspect
  | shutLink l here => exact n.sameRoutes_shutLink l here
  | send l m => exact n.sameRoutes_send l m
  | emit name m => exact n.sameRoutes_emit name m
  | dropLink name => exact n.sameRoutes_dropLink name
  | attach i => exact n.sameRoutes_attach i
  | start thread s => exact n.sameRoutes_start thread s
  | register | announce | request | answer | wake | settle => cases ha
  | _ => exact ⟨rfl, rfl⟩

theorem registered?_of_local {a : Event} (ha : a.isRouting = false) (d : Destination) :
    a.registered? d = none := by
  cases a <;> first | rfl | cases ha

theorem heard_of_local {a : Event} (ha : a.isRouting = false) (n : Network) : a.heard n = [] := by
  cases a <;> first | rfl | cases ha

/-- A station once there was an announce of it. -/
def reveal (s : Station) : Station := { s with known := true }

theorem station?_announce (now : Millis) (e d : Destination) (n : Network) :
    (n.announce now e).station? d = (n.station? d).map fun s => if d = e then reveal s else s := by
  unfold announce
  cases he : n.station? e with
  | none =>
    by_cases hd : d = e
    · simp [hd, he]
    · simp [hd]
  | some s =>
    have hset : (n.setStation e (reveal s)).station? d = if d = e then some (reveal s) else n.station? d :=
      lookup_replaced d e (reveal s) n.stations
    show (n.setStation e (reveal s)).station? d = _
    rw [hset]
    by_cases hd : d = e
    · simp [hd, he]
    · simp [hd]

theorem station?_announceAll (answers : List (Millis × Destination)) (n : Network) (d : Destination) :
    (n.announceAll answers).station? d =
      (n.station? d).map fun s => if d ∈ answers.map (·.2) then reveal s else s := by
  induction answers generalizing n with
  | nil => simp [announceAll]
  | cons a answers ih =>
    obtain ⟨now, e⟩ := a
    have hfirst : n.announceAll ((now, e) :: answers) = (n.announce now e).announceAll answers := rfl
    rw [hfirst, ih, station?_announce, Option.map_map]
    congr 1
    funext s
    by_cases hd : d = e <;> by_cases hmore : d ∈ answers.map (·.2) <;> simp_all [reveal]

theorem wake_eq (now : Millis) (n : Network) : n.wake now =
    { n with answers := n.answers.filter fun a => !decide (a.1 ≤ now) }.announceAll
      (n.answers.filter (·.1 ≤ now)) := by
  rw [wake, List.partition_eq_filter_filter]
  rfl

theorem stations_requestPath (now : Millis) (e : Destination) (n : Network) :
    (n.requestPath now e).stations = n.stations := by
  unfold requestPath
  dsimp only
  split <;> rfl

/-- What there is for a destination after an event. -/
theorem station?_apply (a : Event) (n : Network) (d : Destination) : (apply a n).station? d =
    ((a.registered? d).or ((n.station? d).map fun s =>
      if d ∈ (a.heard n).map (·.2) then reveal s else s)) := by
  have hall : ∀ answers (n' : Network), n'.stations = n.stations → (n'.announceAll answers).station? d =
      (n.station? d).map fun s => if d ∈ answers.map (·.2) then reveal s else s := by
    intro answers n' hstations
    rw [station?_announceAll, station?, hstations, ← station?]
  cases ha : a.isRouting with
  | false =>
    rw [station?, (sameRoutes_apply ha n).1, ← station?, registered?_of_local ha, heard_of_local ha]
    simp
  | true =>
    cases a with
    | register e name hops known =>
      have hset : (apply (.register e name hops known) n).station? d =
          if d = e then some ⟨name, hops, known⟩ else n.station? d := lookup_replaced ..
      rw [hset]
      by_cases hd : d = e <;> simp [hd, Event.registered?, Event.heard]
    | announce now e => exact hall [(now, e)] n rfl
    | request now e =>
      rw [station?, apply, stations_requestPath, ← station?]
      simp [Event.registered?, Event.heard]
    | answer i => exact hall _ _ rfl
    | wake now =>
      rw [apply, wake_eq]
      exact hall _ _ rfl
    | settle => exact hall _ _ rfl
    | _ => cases ha

/-- There is one station for each destination. -/
def Distinct (n : Network) : Prop := (n.stations.map (·.1)).Nodup

theorem distinct_setStation (h : n.Distinct) (d : Destination) (s : Station) : (n.setStation d s).Distinct := by
  refine List.nodup_cons.mpr ⟨?_, h.sublist (List.filter_sublist.map _)⟩
  simp

theorem distinct_announce (h : n.Distinct) (now : Millis) (d : Destination) : (n.announce now d).Distinct := by
  unfold announce
  split
  · exact h
  · exact distinct_setStation h d _

theorem distinct_announceAll (h : n.Distinct) (answers : List (Millis × Destination)) :
    (n.announceAll answers).Distinct := by
  induction answers generalizing n with
  | nil => exact h
  | cons a answers ih => exact ih (distinct_announce h a.1 a.2)

theorem distinct_apply (a : Event) (h : n.Distinct) : (apply a n).Distinct := by
  have hsame : ∀ {n' : Network}, n'.stations = n.stations → n'.Distinct := by
    intro n' hn
    rwa [Distinct, hn]
  cases ha : a.isRouting with
  | false => exact hsame (sameRoutes_apply ha n).1
  | true =>
    cases a with
    | register e name hops known => exact distinct_setStation h e _
    | announce now e => exact distinct_announce h now e
    | request now e => exact hsame (stations_requestPath now e n)
    | answer i =>
      refine distinct_announceAll ?_ _
      exact hsame rfl
    | wake now =>
      rw [apply, wake_eq]
      refine distinct_announceAll ?_ _
      exact hsame rfl
    | settle =>
      refine distinct_announceAll ?_ _
      exact hsame rfl
    | _ => cases ha

theorem answers_announce (now : Millis) (d : Destination) (n : Network) :
    (n.announce now d).answers = n.answers := by
  unfold announce
  split <;> rfl

theorem answers_announceAll (answers : List (Millis × Destination)) (n : Network) :
    (n.announceAll answers).answers = n.answers := by
  induction answers generalizing n with
  | nil => rfl
  | cons a answers ih => exact (ih (n.announce a.1 a.2)).trans (answers_announce a.1 a.2 n)

/-- A request is answered if the endpoint is there and hidden at that moment. -/
def WillAnswer (n : Network) (now : Millis) (answer : Millis × Destination) : Prop :=
  ∃ s later, n.station? answer.2 = some s ∧ s.known = false ∧ n.answerAfter = some later ∧
    answer.1 = now + later

theorem answer_of_requestPath {now : Millis} {e : Destination} {answer : Millis × Destination}
    (h : answer ∈ (n.requestPath now e).answers) :
    answer ∈ n.answers ∨ answer.2 = e ∧ n.WillAnswer now answer := by
  unfold requestPath at h
  dsimp only at h
  split at h
  · rename_i later s hlater hhidden
    refine (List.mem_append.mp h).imp_right fun h => ?_
    obtain rfl := List.mem_singleton.mp h
    obtain ⟨hs, hknown⟩ := Option.filter_eq_some_iff.mp hhidden
    exact ⟨rfl, s, later, hs, by simpa using hknown, hlater, rfl⟩
  · exact .inl h

/-- Whatever answer is on its way after an event, it was on its way before, or the event is the
request that it answers. -/
theorem answer_of_apply {a : Event} {answer : Millis × Destination} (h : answer ∈ (apply a n).answers) :
    answer ∈ n.answers ∨ ∃ now, a = .request now answer.2 ∧ n.WillAnswer now answer := by
  cases ha : a.isRouting with
  | false =>
    rw [(sameRoutes_apply ha n).2] at h
    exact .inl h
  | true =>
    cases a with
    | register e name hops known => exact .inl h
    | announce now e =>
      rw [apply, answers_announce] at h
      exact .inl h
    | request now e =>
      refine (answer_of_requestPath h).imp_right ?_
      rintro ⟨rfl, hanswers⟩
      exact ⟨now, rfl, hanswers⟩
    | answer i =>
      rw [apply, answers_announceAll] at h
      exact .inl (List.mem_of_mem_eraseIdx h)
    | wake now =>
      rw [apply, wake_eq, answers_announceAll] at h
      exact .inl (List.mem_filter.mp h).1
    | settle =>
      have hnone : (apply .settle n).answers = [] := answers_announceAll n.answers { n with answers := [] }
      rw [hnone] at h
      cases h
    | _ => cases ha

end MeshShell.Simulation.Network
