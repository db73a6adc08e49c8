import MeshShell.Proofs.Session.Steps
import Mathlib.Data.Option.Basic
import Mathlib.Data.List.Forall2

/-! # Sessions that differ in their numbers

Links, callers and sessions have numbers, and nothing that a session does depends
on which numbers they are. Two sessions that are alike but for their numbers, on
transports that do alike things to their links, stay alike whatever they do.
-/
namespace MeshShell

/-- Which numbers belong together, and to sessions of which ids. -/
structure Kin where
  id : String → Prop
  session : Handle → Handle → Prop
  ticket : Ticket → Ticket → Prop
  link : LinkId → LinkId → Prop

namespace Kin

variable {σ : Type} {k k' : Kin}

inductive Event (k : Kin) : LinkEvent → LinkEvent → Prop
  | established {l l' : LinkId} : k.link l l' → Event k (.established l) (.established l')
  | closed : Event k .closed .closed
  | message (m : Message) : Event k (.message m) (.message m)
  | shutdown : Event k .shutdown .shutdown

inductive Alike (k : Kin) : Session → Session → Prop
  | intro {s : Session} {link channel opened : Option LinkId} {inbox : List LinkEvent}
      {readers : List Ticket} : k.id s.id → Option.Rel k.link s.link link →
      Option.Rel k.link s.channel channel → Option.Rel k.link s.opened opened →
      List.Forall₂ k.Event s.inbox inbox → List.Forall₂ k.ticket s.readers readers →
      Alike k s { s with link, channel, opened, inbox, readers }

/-- Both sessions with their transports. -/
def Both (k : Kin) (rel : σ → σ → Prop) (p p' : Session × σ) : Prop :=
  k.Alike p.1 p'.1 ∧ rel p.2 p'.2

/-- Transports that do alike things to links that belong together. Why a channel cannot be had may
be told with the number of the link. -/
structure Couples [Transport σ] (link : LinkId → LinkId → Prop) (rel : σ → σ → Prop) : Prop where
  channel : ∀ {l l' t t'}, link l l' → rel t t' →
    (Transport.channel l' t').isOk = (Transport.channel l t).isOk
  setHandler : ∀ {l l' t t'}, link l l' → rel t t' →
    rel (Transport.setHandler l t) (Transport.setHandler l' t')
  send : ∀ {l l' m t t'}, link l l' → rel t t' →
    (Transport.send l' m t').1 = (Transport.send l m t).1 ∧
      rel (Transport.send l m t).2 (Transport.send l' m t').2
  teardown : ∀ {l l' t t'}, link l l' → rel t t' →
    rel (Transport.teardown l t) (Transport.teardown l' t')

structure Le (k k' : Kin) : Prop where
  id : ∀ {i}, k.id i → k'.id i
  session : ∀ {x y}, k.session x y → k'.session x y
  ticket : ∀ {x y}, k.ticket x y → k'.ticket x y
  link : ∀ {x y}, k.link x y → k'.link x y

theorem rel_mono {α β : Type} {r r' : α → β → Prop} (h : ∀ a b, r a b → r' a b) {a : Option α}
    {b : Option β} (hab : Option.Rel r a b) : Option.Rel r' a b := by
  cases hab with
  | none => exact .none
  | some hab => exact .some (h _ _ hab)

theorem rel_cases {α β : Type} {r : α → β → Prop} {a : Option α} {b : Option β}
    (h : Option.Rel r a b) : a = none ∧ b = none ∨ ∃ x y, a = some x ∧ b = some y ∧ r x y := by
  cases h with
  | none => exact .inl ⟨rfl, rfl⟩
  | some hab => exact .inr ⟨_, _, rfl, rfl, hab⟩

theorem Event.mono (h : k.Le k') {e e' : LinkEvent} (he : k.Event e e') : k'.Event e e' := by
  cases he with
  | established hl => exact .established (h.link hl)
  | closed => exact .closed
  | message m => exact .message m
  | shutdown => exact .shutdown

/-- Nothing belongs to anything but itself. -/
structure Own (k : Kin) : Prop where
  session : ∀ {x y}, k.session x y → y = x
  ticket : ∀ {x y}, k.ticket x y → y = x
  link : ∀ {x y}, k.link x y → y = x

theorem rel_eq {α : Type} {r : α → α → Prop} (h : ∀ a b, r a b → b = a) {a b : Option α}
    (hab : Option.Rel r a b) : b = a := by
  cases hab with
  | none => rfl
  | some hab => rw [h _ _ hab]

theorem forall₂_eq {α : Type} {r : α → α → Prop} (h : ∀ a b, r a b → b = a) {as bs : List α}
    (hab : List.Forall₂ r as bs) : bs = as :=
  (List.forall₂_eq_eq_eq ▸ hab.imp fun a b hr => (h a b hr).symm : as = bs).symm

theorem Event.eq_of_own (h : k.Own) {e e' : LinkEvent} (he : k.Event e e') : e' = e := by
  cases he with
  | established hl => rw [h.link hl]
  | _ => rfl

namespace Alike

variable {s s' : Session}

theorem eq_of_own (h : k.Own) (hs : k.Alike s s') : s' = s := by
  cases hs with
  | intro _ hl hc ho hi hr =>
    rw [rel_eq (fun _ _ => h.link) hl, rel_eq (fun _ _ => h.link) hc,
      rel_eq (fun _ _ => h.link) ho, forall₂_eq (fun _ _ => Event.eq_of_own h) hi,
      forall₂_eq (fun _ _ => h.ticket) hr]

theorem mono (h : k.Le k') (hs : k.Alike s s') : k'.Alike s s' := by
  cases hs with
  | intro hid hl hc ho hi hr =>
    exact .intro (h.id hid) (rel_mono (fun _ _ => h.link) hl) (rel_mono (fun _ _ => h.link) hc)
      (rel_mono (fun _ _ => h.link) ho) (hi.imp fun _ _ => .mono h) (hr.imp fun _ _ => h.ticket)

theorem known (hs : k.Alike s s') : k.id s.id := by
  cases hs with
  | intro hid => exact hid

theorem id_eq (hs : k.Alike s s') : s'.id = s.id := by cases hs; rfl

theorem destination (hs : k.Alike s s') : s'.destination = s.destination := by cases hs; rfl

theorem settings (hs : k.Alike s s') : s'.settings = s.settings := by cases hs; rfl

theorem driver (hs : k.Alike s s') : s'.driver = s.driver := by cases hs; rfl

theorem progress (hs : k.Alike s s') : s'.progress = s.progress := by cases hs; rfl

theorem idle (hs : k.Alike s s') : s'.idle = s.idle := by cases hs; rfl

theorem opened (hs : k.Alike s s') : Option.Rel k.link s.opened s'.opened := by
  cases hs with
  | intro _ _ _ ho => exact ho

theorem readers (hs : k.Alike s s') : List.Forall₂ k.ticket s.readers s'.readers := by
  cases hs with
  | intro _ _ _ _ _ hr => exact hr

theorem new {id : String} (hid : k.id id) (d : Destination) (settings : SessionSettings) :
    k.Alike (.new id d settings) (.new id d settings) :=
  .intro hid .none .none .none .nil .nil

theorem shut (hs : k.Alike s s') : k.Alike s.shut s'.shut := by
  cases hs with
  | intro hid hl hc ho hi hr =>
    unfold Session.shut
    dsimp only
    split
    · exact .intro hid hl hc ho hi hr
    · exact .intro hid .none .none ho hi hr

theorem endDriver (hs : k.Alike s s') : k.Alike s.endDriver s'.endDriver := by
  cases hs with
  | intro hid hl hc ho _ hr => exact .intro hid hl hc ho .nil hr

theorem push (hs : k.Alike s s') {e e' : LinkEvent} (he : k.Event e e') :
    k.Alike (s.push e) (s'.push e') := by
  cases hs with
  | intro hid hl hc ho hi hr =>
    unfold Session.push
    dsimp only
    split
    · exact .intro hid hl hc ho hi hr
    · exact .intro hid hl hc ho (List.rel_append hi (.cons he .nil)) hr

theorem enqueue (hs : k.Alike s s') (data : Bytes) : k.Alike (s.enqueue data) (s'.enqueue data) := by
  cases hs with
  | intro hid hl hc ho hi hr =>
    unfold Session.enqueue
    dsimp only
    split
    · exact .intro hid hl hc ho hi hr
    · exact .intro hid hl hc ho hi hr

end Alike

variable [Transport σ] {rel : σ → σ → Prop} {s s' : Session} {t t' : σ}

theorem finish (hk : Couples k.link rel) (hs : k.Alike s s') (ht : rel t t') :
    k.Both rel (s.finish t) (s'.finish t') := by
  refine ⟨by simpa using hs.shut, ?_⟩
  cases hs with
  | intro _ hl =>
    unfold Session.finish
    dsimp only
    split
    · exact ht
    · rcases rel_cases hl with ⟨hnone, rfl⟩ | ⟨l, l', hsome, rfl, hlink⟩
      · rw [hnone]
        exact ht
      · rw [hsome]
        exact hk.teardown hlink ht

theorem giveUp (hk : Couples k.link rel) (hs : k.Alike s s') (ht : rel t t') :
    k.Both rel (s.giveUp t) (s'.giveUp t') :=
  ⟨(finish hk hs ht).1.push .shutdown, (finish hk hs ht).2⟩

theorem close (hk : Couples k.link rel) (hs : k.Alike s s') (ht : rel t t') :
    k.Both rel (s.close t) (s'.close t') := by
  have hfin := giveUp hk hs ht
  unfold Session.giveUp at hfin
  have hc : s'.closed = s.closed := by cases hs; rfl
  unfold Session.close
  rw [hc]
  split
  · exact ⟨hs, ht⟩
  · exact hfin

theorem greet (hk : Couples k.link rel) (hs : k.Alike s s') (ht : rel t t') {l l' : LinkId}
    (hl : k.link l l') : (s'.greet l' t').1 = (s.greet l t).1 ∧ rel (s.greet l t).2 (s'.greet l' t').2 := by
  obtain ⟨hsame, hrel⟩ := hk.send (m := .hello) hl ht
  have hterm : s'.settings = s.settings := hs.settings
  have hsize : s'.geometry = s.geometry := by cases hs; rfl
  unfold Session.greet
  rw [hterm, hsize]
  cases h : Transport.send l .hello t with
  | mk result u =>
    cases h' : Transport.send l' .hello t' with
    | mk result' u' =>
      rw [h, h'] at hsame hrel
      obtain rfl : result' = result := hsame
      cases result' with
      | error e => exact ⟨rfl, hrel⟩
      | ok => exact hk.send hl hrel

theorem handshake (hk : Couples k.link rel) (hs : k.Alike s s') (ht : rel t t') {l l' : LinkId}
    (hl : k.link l l') : (s'.handshake l' t').1.isOk = (s.handshake l t).1.isOk ∧
      k.Both rel (s.handshake l t).2 (s'.handshake l' t').2 := by
  have hshake : k.Alike { s with phase := .handshaking } { s' with phase := .handshaking } := by
    cases hs with
    | intro hid hl hc ho hi hr => exact .intro hid hl hc ho hi hr
  have hchannel := hk.channel hl ht
  unfold Session.handshake
  cases hc : Transport.channel l t with
  | error e =>
    cases hc' : Transport.channel l' t' with
    | error e' => exact ⟨rfl, hshake, ht⟩
    | ok => simp [hc, hc', Except.isOk, Except.toBool] at hchannel
  | ok =>
    cases hc' : Transport.channel l' t' with
    | error e' => simp [hc, hc', Except.isOk, Except.toBool] at hchannel
    | ok =>
      obtain ⟨hsame, hrel⟩ := greet hk hshake (hk.setHandler hl ht) hl
      dsimp only
      cases h : Session.greet { s with phase := .handshaking } l (Transport.setHandler l t) with
      | mk result u =>
        cases h' : Session.greet { s' with phase := .handshaking } l' (Transport.setHandler l' t') with
        | mk result' u' =>
          rw [h, h'] at hsame hrel
          obtain rfl : result' = result := hsame
          cases result' with
          | error e => exact ⟨rfl, hshake, hrel⟩
          | ok =>
            refine ⟨rfl, ?_, hrel⟩
            cases hs with
            | intro hid hl' _ ho hi hr => exact .intro hid hl' (.some hl) ho hi hr

theorem dispatch (hk : Couples k.link rel) (m : Message) (hs : k.Alike s s') (ht : rel t t') :
    k.Both rel (s.dispatch m t) (s'.dispatch m t') := by
  have hclosed : s'.closed = s.closed := by cases hs; rfl
  unfold Session.dispatch
  rw [hclosed]
  split
  · exact ⟨hs, ht⟩
  · split
    · refine ⟨?_, ht⟩
      split
      · exact hs
      · exact hs.enqueue _
    · exact finish hk hs ht
    · exact finish hk hs ht
    · refine ⟨?_, ht⟩
      cases hs with
      | intro hid hl hc ho hi hr => exact .intro hid hl hc ho hi hr
    · exact ⟨hs, ht⟩

theorem handle (hk : Couples k.link rel) {e e' : LinkEvent} (he : k.Event e e')
    (hs : k.Alike s s') (ht : rel t t') : k.Both rel (s.handle e t) (s'.handle e' t') := by
  have hc : s'.closed = s.closed := by cases hs; rfl
  cases he with
  | @established l l' hl =>
    obtain ⟨hsame, hboth⟩ := handshake hk hs ht hl
    unfold Session.handle
    dsimp only
    rw [hc]
    split
    · exact ⟨hs, hk.teardown hl ht⟩
    · cases h : s.handshake l t with
      | mk result p =>
        cases h' : s'.handshake l' t' with
        | mk result' p' =>
          rw [h, h'] at hsame hboth
          cases result with
          | ok =>
            cases result' with
            | ok => exact hboth
            | error e => simp [Except.isOk, Except.toBool] at hsame
          | error e =>
            cases result' with
            | ok => simp [Except.isOk, Except.toBool] at hsame
            | error e' => exact finish hk hboth.1 hboth.2
  | closed => exact ⟨(finish hk hs ht).1.endDriver, (finish hk hs ht).2⟩
  | message m => exact dispatch hk m hs ht
  | shutdown => exact ⟨hs.endDriver, ht⟩

theorem handleAll (hk : Couples k.link rel) {events events' : List LinkEvent}
    (he : List.Forall₂ k.Event events events') (hs : k.Alike s s') (ht : rel t t') :
    k.Both rel (s.handleAll t events) (s'.handleAll t' events') := by
  induction he generalizing s s' t t' with
  | nil => exact ⟨hs, ht⟩
  | @cons e e' rest rest' he _ ih =>
    unfold Session.handleAll
    rw [hs.driver]
    split
    · obtain ⟨hs', ht'⟩ := handle hk he hs ht
      exact ih hs' ht'
    · exact ⟨hs, ht⟩

theorem drive (hk : Couples k.link rel) (hs : k.Alike s s') (ht : rel t t') :
    k.Both rel (s.drive t) (s'.drive t') := by
  unfold Session.drive
  rw [hs.driver]
  split
  · cases hs with
    | intro hid hl hc ho hi hr => exact handleAll hk hi (.intro hid hl hc ho .nil hr) ht
  · exact ⟨hs, ht⟩

theorem sendInput (hk : Couples k.link rel) (data : Bytes) (hs : k.Alike s s') (ht : rel t t') :
    (s'.sendInput data t').1 = (s.sendInput data t).1 ∧
      rel (s.sendInput data t).2 (s'.sendInput data t').2 := by
  cases hs with
  | intro hid hl hc =>
    unfold Session.sendInput
    dsimp only
    rcases rel_cases hc with ⟨hnone, rfl⟩ | ⟨l, l', hsome, rfl, hlink⟩
    · rw [hnone]
      exact ⟨rfl, ht⟩
    · rw [hsome]
      dsimp only
      split
      · exact ⟨rfl, ht⟩
      · obtain ⟨hsame, hrel⟩ := hk.send (m := .stdin data) hlink ht
        cases h : Transport.send l (.stdin data) t with
        | mk result u =>
          cases h' : Transport.send l' (.stdin data) t' with
          | mk result' u' =>
            rw [h, h'] at hsame hrel
            obtain rfl : result' = result := hsame
            cases result' <;> exact ⟨rfl, hrel⟩

theorem resize (hk : Couples k.link rel) (size : Geometry) (hs : k.Alike s s') (ht : rel t t') :
    k.Both rel (s.resize size t) (s'.resize size t') := by
  have hsame := hs
  cases hs with
  | intro hid hl hc ho hi hr =>
    unfold Session.resize
    dsimp only
    rcases rel_cases hc with ⟨hnone, rfl⟩ | ⟨l, l', hsome, rfl, hlink⟩
    · rw [hnone]
      exact ⟨hsame, ht⟩
    · rw [hsome]
      dsimp only
      split
      · exact ⟨hsame, ht⟩
      · exact ⟨.intro hid hl (.some hlink) ho hi hr, (hk.send (m := .resized size) hlink ht).2⟩

/-- No two callers are the same for the ones and different for the others. -/
def Distinct (k : Kin) : Prop :=
  ∀ {x y x' y'}, k.ticket x y → k.ticket x' y' → (x = x' ↔ y = y')

/-- A caller with what it got. -/
def Served (k : Kin) (a a' : Ticket × ReadOutcome) : Prop := k.ticket a.1 a'.1 ∧ a'.2 = a.2

omit [Transport σ] in
theorem Alike.queue (hs : k.Alike s s') (queue : List Output) :
    k.Alike { s with output := queue } { s' with output := queue } := by
  cases hs with
  | intro hid hl hc ho hi hr => exact .intro hid hl hc ho hi hr

omit [Transport σ] in
theorem take (hs : k.Alike s s') : s'.take.1 = s.take.1 ∧ k.Alike s.take.2 s'.take.2 := by
  have hout : s'.output = s.output := by cases hs; rfl
  have hopen : s'.outputOpen = s.outputOpen := by cases hs; rfl
  have hclosed : s'.closed = s.closed := by cases hs; rfl
  rcases s.take_cases with ⟨data, rest, ho, h⟩ | ⟨rest, ho, h⟩ | ⟨ho, hwhy, h⟩ | ⟨ho, hy, hn, h⟩
  · have h' : s'.take = (some (.data data), { s' with output := rest }) := by
      simp [Session.take, hout, ho]
    rw [h, h']
    exact ⟨rfl, hs.queue rest⟩
  · have h' : s'.take = (some .disconnected, { s' with output := rest }) := by
      simp [Session.take, hout, ho]
    rw [h, h']
    exact ⟨rfl, hs.queue rest⟩
  · have h' : s'.take = (some .disconnected, s') := by
      rcases hwhy with hwhy | hwhy <;> simp [Session.take, hout, hopen, hclosed, ho, hwhy]
    rw [h, h']
    exact ⟨rfl, hs⟩
  · have h' : s'.take = (none, s') := by simp [Session.take, hout, hopen, hclosed, ho, hy, hn]
    rw [h, h']
    exact ⟨rfl, hs⟩

omit [Transport σ] in
theorem Alike.line (hs : k.Alike s s') {line line' : List Ticket}
    (hl : List.Forall₂ k.ticket line line') :
    k.Alike { s with readers := line } { s' with readers := line' } := by
  cases hs with
  | intro hid hl' hc ho hi _ => exact .intro hid hl' hc ho hi hl

omit [Transport σ] in
theorem serveLine {line line' : List Ticket} (hl : List.Forall₂ k.ticket line line')
    (hs : k.Alike s s') : List.Forall₂ k.Served (s.serveLine line).1 (s'.serveLine line').1 ∧
      k.Alike (s.serveLine line).2 (s'.serveLine line').2 := by
  induction hl generalizing s s' with
  | nil => exact ⟨.nil, hs.line .nil⟩
  | @cons r r' rest rest' hr hrest ih =>
    obtain ⟨hsame, hnext⟩ := take hs
    unfold Session.serveLine
    cases h : s.take with
    | mk outcome u =>
      cases h' : s'.take with
      | mk outcome' u' =>
        rw [h, h'] at hsame hnext
        obtain rfl : outcome' = outcome := hsame
        cases outcome' with
        | some outcome => exact ⟨.cons ⟨hr, rfl⟩ (ih hnext).1, (ih hnext).2⟩
        | none => exact ⟨.nil, hnext.line (.cons hr hrest)⟩

omit [Transport σ] in
theorem join {ticket ticket' : Ticket} (hticket : k.ticket ticket ticket') (patient : Bool)
    (hs : k.Alike s s') : (s'.join ticket' patient).1 = (s.join ticket patient).1 ∧
      k.Alike (s.join ticket patient).2 (s'.join ticket' patient).2 := by
  unfold Session.join
  cases hr : s.readers with
  | nil =>
    have hr' : s'.readers = [] := by simpa [hr] using hs.readers
    obtain ⟨hsame, hnext⟩ := take hs
    rw [hr']
    dsimp only
    cases h : s.take with
    | mk outcome u =>
      cases h' : s'.take with
      | mk outcome' u' =>
        rw [h, h'] at hsame hnext
        obtain rfl : outcome' = outcome := hsame
        cases outcome' with
        | some outcome => exact ⟨rfl, hnext⟩
        | none =>
          cases patient with
          | true => exact ⟨rfl, hnext.line (.cons hticket .nil)⟩
          | false => exact ⟨congrArg some hnext.idle, hnext⟩
  | cons r rest =>
    obtain ⟨r', rest', hhead, hrest, hr'⟩ := List.forall₂_cons_left_iff.mp (hr ▸ hs.readers)
    rw [hr']
    cases patient with
    | true => exact ⟨rfl, hs.line (List.rel_append (.cons hhead hrest) (.cons hticket .nil))⟩
    | false => exact ⟨congrArg some hs.idle, hs⟩

omit [Transport σ] in
theorem first (hd : k.Distinct) (hs : k.Alike s s') {ticket ticket' : Ticket}
    (hticket : k.ticket ticket ticket') :
    s'.readers.head? = some ticket' ↔ s.readers.head? = some ticket := by
  cases hr : s.readers with
  | nil =>
    have hr' : s'.readers = [] := by simpa [hr] using hs.readers
    simp [hr']
  | cons r rest =>
    obtain ⟨r', rest', hhead, -, hr'⟩ := List.forall₂_cons_left_iff.mp (hr ▸ hs.readers)
    simp [hr', hd hhead hticket]

omit [Transport σ] in
theorem leave (hd : k.Distinct) (hs : k.Alike s s') {ticket ticket' : Ticket}
    (hticket : k.ticket ticket ticket') : (s'.leave ticket').1 = (s.leave ticket).1 ∧
      k.Alike (s.leave ticket).2 (s'.leave ticket').2 := by
  refine ⟨hs.idle, hs.line (List.rel_filter ?_ hs.readers)⟩
  intro r r' hr
  simp [hd hr hticket]

end Kin

end MeshShell
