import MeshShell.Proofs.Rows
import MeshShell.Proofs.Simulation.Course
import MeshShell.Simulation.Network
import Mathlib.Data.List.Basic

/-! # What happens to a link

Whatever happens on a mesh moves a link in one of a few ways, and a remote shell
leaves the link it talks on for one reason only.
-/
namespace MeshShell.Simulation

/-- What can happen to a link, with the messages that are put on it and the reports of it. -/
inductive Link.Moves : Link → List Message → List Callback → Link → Prop
  | rest (k : Link) : k.Moves [] [] k
  | said (k : Link) (m : Message) : k.Moves (if k.shut then [] else [m]) [] (k.push (.message m))
  | shut (k : Link) : k.Moves [] [] (if k.shut then k else k.close)
  | handled (k : Link) (name : String) :
      k.established = true → k.Moves [] [] { k with handler := some name }
  | told (k : Link) : k.Moves [] k.deliver.1.toList k.deliver.2
  | more {k k' k'' : Link} {reports reports' : List Callback} :
      k.Moves [] reports k' → k'.Moves [] reports' k'' → k.Moves [] (reports ++ reports') k''

variable {k k' : Link} {said : List Message} {reports : List Callback}

theorem moves_deliverAll (k : Link) : k.Moves [] k.deliverAll.1 k.deliverAll.2 := by
  -- Every delivery takes one out of the queue.
  generalize hlength : k.queue.length = length
  induction length generalizing k with
  | zero =>
    rw [deliverAll_nil (List.eq_nil_of_length_eq_zero hlength)]
    exact .rest k
  | succ length ih =>
    obtain ⟨d, rest, hq⟩ := List.exists_cons_of_length_eq_add_one hlength
    have hshorter : k.deliver.2.queue.length = length := by
      rw [deliver_cons hq, report_queue]
      simpa [hq] using hlength
    rw [deliverAll_cons hq]
    exact (Link.Moves.told k).more (ih k.deliver.2 hshorter)

theorem report_lasting (k : Link) (d : Delivery) :
    (k.report d).2.shut = k.shut ∧ (k.established = true → (k.report d).2.established = true) := by
  cases d with
  | established => by_cases hshut : k.shut = true <;> simp [Link.report, hshut]
  | message m => exact ⟨rfl, id⟩
  | closed => exact ⟨rfl, id⟩

theorem deliver_lasting (k : Link) :
    k.deliver.2.shut = k.shut ∧ (k.established = true → k.deliver.2.established = true) := by
  cases hq : k.queue with
  | nil => simp [Link.deliver, hq]
  | cons d rest =>
    rw [deliver_cons hq]
    exact report_lasting { k with queue := rest } d

namespace Link.Moves

theorem shut_of_shut (h : k.Moves said reports k') (hshut : k.shut = true) : k'.shut = true := by
  induction h with
  | rest k => exact hshut
  | said k m => simp [Link.push, hshut]
  | shut k => simp [hshut]
  | handled k name => exact hshut
  | told k => exact (deliver_lasting k).1.trans hshut
  | more _ _ hfirst hsecond => exact hsecond (hfirst hshut)

theorem established_of_established (h : k.Moves said reports k') (hup : k.established = true) :
    k'.established = true := by
  induction h with
  | rest k => exact hup
  | said k m =>
    unfold Link.push
    split <;> exact hup
  | shut k =>
    by_cases hshut : k.shut = true <;> simp [Link.close, Link.push, hshut, hup]
  | handled k name => exact hup
  | told k => exact (deliver_lasting k).2 hup
  | more _ _ hfirst hsecond => exact hsecond (hfirst hup)

theorem silent (h : k.Moves said reports k') (hshut : k.shut = true) : said = [] := by
  cases h with
  | said k m => simp [hshut]
  | _ => rfl

theorem not_established (h : k.Moves said reports k') (hshut : k.shut = true) :
    Callback.established ∉ reports := by
  induction h with
  | told k =>
    cases hq : k.queue with
    | nil => simp [Link.deliver, hq]
    | cons d rest =>
      rw [deliver_cons hq]
      cases d with
      | established => simp [Link.report, hshut]
      | message m => by_cases hsome : k.handler.isSome = true <;> simp [Link.report, hsome]
      | closed => simp [Link.report]
  | more hk _ hfirst hsecond => simp [hfirst hshut, hsecond (hk.shut_of_shut hshut)]
  | _ => simp

end Link.Moves

/-- The course of a link goes on with what happens to the link. -/
theorem Course.moves {early late : List Message} {told untold : Tale}
    (h : Course k early late told untold) (hm : k.Moves said reports k') : ∃ told' untold',
    Course k' (early ++ if k.handler = none then said else [])
        (late ++ if k.handler = none then [] else said) told' untold' ∧
      told'.callbacks = told.callbacks ++ reports := by
  induction hm generalizing early late told untold with
  | rest k => exact ⟨told, untold, by simpa using h, by simp⟩
  | said k m =>
    by_cases hshut : k.shut = true
    · exact ⟨told, untold, by simpa [Link.push, hshut] using h, by simp⟩
    · have hopen : k.shut = false := Bool.eq_false_iff.mpr hshut
      exact ⟨told, _, by simpa [hshut] using h.push hopen m, by simp⟩
  | shut k =>
    by_cases hshut : k.shut = true
    · exact ⟨told, untold, by simpa [hshut] using h, by simp⟩
    · exact ⟨told, _, by simpa [hshut] using h.close (Bool.eq_false_iff.mpr hshut), by simp⟩
  | handled k name hup => exact ⟨told, untold, by simpa using h.handle hup name, by simp⟩
  | told k =>
    obtain ⟨told', untold', hnext, hcallbacks⟩ := h.tells
    exact ⟨told', untold', by simpa using hnext, hcallbacks⟩
  | more _ _ hfirst hsecond =>
    obtain ⟨told', untold', hnext, hcallbacks⟩ := hfirst h
    obtain ⟨told'', untold'', hlast, hcallbacks'⟩ := hsecond hnext
    refine ⟨told'', untold'', by simpa using hlast, ?_⟩
    rw [hcallbacks', hcallbacks, List.append_assoc]

namespace Network

variable {n : Network}

/-- The link that a remote shell talks on. -/
def slot (n : Network) (name : String) : Option LinkId := (n.remote name).link

theorem remote_setRemote (n : Network) (name other : String) (r : Remote) :
    (n.setRemote name r).remote other = if other = name then r else n.remote other := by
  unfold remote setRemote
  rw [lookup_replaced]
  split <;> rfl

theorem slot_modifyRemote (n : Network) (name other : String) (f : Remote → Remote) :
    (n.modifyRemote name f).slot other =
      if other = name then (f (n.remote name)).link else n.slot other := by
  unfold slot modifyRemote
  rw [remote_setRemote]
  split <;> rfl

theorem links_detach (n : Network) (l : LinkId) (name : String) :
    (n.detach l name).links = n.links := by
  unfold detach
  split <;> rfl

theorem slot_detach (n : Network) (l : LinkId) (name other : String) :
    (n.detach l name).slot other = n.slot other ∨
      n.slot other = some l ∧ (n.detach l name).slot other = none := by
  unfold detach
  split
  · rename_i hl
    rw [slot_modifyRemote]
    by_cases hother : other = name
    · subst hother
      exact .inr ⟨hl, if_pos rfl⟩
    · exact .inl (if_neg hother)
  · exact .inl rfl

theorem links_shutLink (n : Network) (l : LinkId) (here : Bool) :
    (n.shutLink l here).links = n.links.modify l fun k => if k.shut then k else k.close := by
  apply List.ext_getElem?
  intro i
  unfold shutLink
  rw [List.getElem?_modify]
  cases hl : n.links[l]? with
  | none =>
    by_cases hi : l = i
    · subst hi
      simp [hl]
    · simp [hi]
  | some k =>
    by_cases hi : l = i
    · subst hi
      by_cases hshut : k.shut = true
      · simp [hshut, hl]
      · simp [hshut, modifyLink, links_detach, hl]
    · by_cases hshut : k.shut = true
      · simp [hshut, hi]
      · simp [hshut, modifyLink, links_detach, hi]

theorem slot_shutLink (n : Network) (l : LinkId) (here : Bool) (name : String) :
    (n.shutLink l here).slot name = n.slot name ∨
      n.slot name = some l ∧ (n.shutLink l here).slot name = none := by
  unfold shutLink
  split
  · exact .inl rfl
  · dsimp only
    split
    · exact .inl rfl
    · exact slot_detach { n with teardowns := if here then n.teardowns + 1 else n.teardowns } l _ name

theorem teardowns_shutLink (n : Network) (l : LinkId) (here : Bool) :
    (n.shutLink l here).teardowns =
      n.teardowns + if here ∧ (n.links[l]?).any (!·.shut) then 1 else 0 := by
  unfold shutLink
  have hdetach : ∀ (n : Network) l name, (n.detach l name).teardowns = n.teardowns := by
    intro n l name
    unfold detach
    split <;> rfl
  cases hl : n.links[l]? with
  | none => simp
  | some k =>
    by_cases hshut : k.shut = true
    · simp [hshut]
    · cases here <;> simp [hshut, modifyLink, hdetach]

theorem modify_append_last {α : Type} (as : List α) (a : α) (f : α → α) :
    (as ++ [a]).modify as.length f = as ++ [f a] := by
  induction as with
  | nil => rfl
  | cons b as ih => simp [ih]

theorem deliverFrom_links (o : LinkId) (links : List Link) (l : LinkId) :
    (deliverFrom o links).2[l]? = (links[l]?).map (·.deliverAll.2) := by
  induction links generalizing o l with
  | nil => rfl
  | cons k rest ih =>
    cases l with
    | zero => rfl
    | succ l => exact ih (o + 1) l

theorem deliverFrom_length (o : LinkId) (links : List Link) :
    (deliverFrom o links).2.length = links.length := by
  induction links generalizing o with
  | nil => rfl
  | cons k rest ih => exact congrArg (· + 1) (ih (o + 1))

theorem le_of_mem_deliverFrom {o : LinkId} {links : List Link} {p : LinkId × Callback}
    (hp : p ∈ (deliverFrom o links).1) : o ≤ p.1 := by
  induction links generalizing o with
  | nil => simp [deliverFrom] at hp
  | cons k rest ih =>
    rcases List.mem_append.mp hp with hp | hp
    · obtain ⟨c, _, rfl⟩ := List.mem_map.mp hp
      exact Nat.le_refl o
    · exact Nat.le_of_succ_le (ih hp)

theorem deliverFrom_reports (o : LinkId) (links : List Link) (l : LinkId) :
    ((deliverFrom o links).1.filter (·.1 = o + l)).map (·.2) =
      ((links[l]?).map (·.deliverAll.1)).getD [] := by
  induction links generalizing o l with
  | nil => rfl
  | cons k rest ih =>
    have hsplit : (deliverFrom o (k :: rest)).1 =
        k.deliverAll.1.map (o, ·) ++ (deliverFrom (o + 1) rest).1 := rfl
    rw [hsplit, List.filter_append, List.map_append]
    cases l with
    | zero =>
      have hfirst : ((k.deliverAll.1.map (o, ·)).filter (·.1 = o + 0)).map (·.2) =
          k.deliverAll.1 := by
        simp [List.filter_map, Function.comp_def]
      have hrest : (deliverFrom (o + 1) rest).1.filter (·.1 = o + 0) = [] := by
        refine List.filter_eq_nil_iff.mpr fun p hp => ?_
        simpa using Nat.ne_of_gt (le_of_mem_deliverFrom hp)
      rw [hfirst, hrest]
      simp
    | succ l =>
      have hfirst : (k.deliverAll.1.map (o, ·)).filter (·.1 = o + (l + 1)) = [] := by
        simp [List.filter_map, Function.comp_def]
      have hshift : o + (l + 1) = o + 1 + l := Nat.add_right_comm o l 1
      rw [hfirst, hshift, ih]
      simp

end Network

end MeshShell.Simulation
