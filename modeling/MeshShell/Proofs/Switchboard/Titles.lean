import MeshShell.Proofs.Switchboard.Removal

/-! # Sessions under their ids

Over all runs of a switchboard the table is in the order of its ids, and an id
leads to a session that was made with it.
-/
namespace MeshShell.Switchboard

variable {σ : Type} [Transport σ] {w w' : Switchboard σ}

structure Titled (w : Switchboard σ) : Prop where
  sorted : Sorted w.table
  rows : ∀ row ∈ w.table, w.At row.2 (·.id = row.1)

theorem Titled.fewer (hw : w.Titled) (ha : Along w w') (hs : Sorted w'.table)
    (hsub : w'.table ⊆ w.table) : w'.Titled where
  sorted := hs
  rows := fun row hrow => (hw.rows row (hsub hrow)).along (lasting_id row.1) ha

theorem Titled.same (hw : w.Titled) (ha : Along w w') (ht : w'.table = w.table) : w'.Titled :=
  hw.fewer ha (ht ▸ hw.sorted) (ht ▸ List.Subset.refl _)

/-- At most the id of one session leads somewhere else, and it leads to this session. -/
def Binds (w w' : Switchboard σ) (h : Nat) : Prop :=
  w'.table = w.table ∨ ∃ s, w.sessions[h]? = some s ∧ w'.table = bind s.id h w.table

theorem Titled.binds (hw : w.Titled) (ha : Along w w') {h : Nat} (hb : Binds w w' h) :
    w'.Titled := by
  rcases hb with ht | ⟨s, hs, ht⟩
  · exact hw.same ha ht
  · refine ⟨ht ▸ hw.sorted.bind s.id h, fun row hrow => ?_⟩
    rw [ht] at hrow
    rcases mem_bind hrow with rfl | hrow
    · exact At.along ⟨s, hs, rfl⟩ (lasting_id s.id) ha
    · exact (hw.rows row hrow).along (lasting_id row.1) ha

theorem Titled.settle (hw : w.Titled) : w.settle.Titled := by
  obtain ⟨_, _, _, _, hf⟩ := settle_frame w
  exact hw.same (steps_settle w).along (by rw [hf])

theorem binds_register (w : Switchboard σ) (h : Handle) : Binds w (w.register h) h := by
  cases hs : w.sessions[(h : Nat)]? with
  | none =>
    refine .inl ?_
    unfold register
    rw [hs]
  | some s =>
    refine .inr ⟨s, hs, ?_⟩
    rcases register_cases hs with ⟨-, he⟩ | ⟨p, -, he⟩ <;> rw [he]
    obtain ⟨_, _, hf⟩ := closeSession_frame { w with table := bind s.id h w.table } p
    rw [hf]

theorem binds_conclude (w : Switchboard σ) (ticket : Ticket) (h : Handle) (register : Bool)
    (result : Except SessionError Unit) : Binds w (w.conclude ticket h register result) h := by
  unfold conclude
  cases register with
  | false => exact .inl rfl
  | true =>
    cases result with
    | error e => exact .inl rfl
    | ok => exact binds_register w h

theorem binds_look (w : Switchboard σ) (ticket : Ticket) (h : Handle) (deadline : Millis)
    (register : Bool) : Binds w (w.look ticket h deadline register) h := by
  unfold look
  cases w.sessions[(h : Nat)]? with
  | none => exact .inl rfl
  | some s =>
    dsimp only
    cases s.progress with
    | some result => exact binds_conclude w ticket h register result
    | none =>
      dsimp only
      split
      · obtain ⟨_, _, hf⟩ := updateSession_frame w h (Session.giveUp (σ := σ))
        refine .inl ?_
        rw [hf]
        cases register <;> rfl
      · exact .inl rfl

theorem titled_connect (hw : w.Titled) (hb : w.Booked) (h : Handle) (rows cols : UInt16)
    (register : Bool) : (w.connect h rows cols register).2.Titled := by
  rcases connect_cases w h rows cols register with
    ⟨-, he⟩ | ⟨s, p, -, hput, ⟨e, -, he⟩ | ⟨-, he⟩⟩ <;> rw [he]
  · exact hw.same (Steps.along (.single .draw)) rfl
  · have hi : (w.draw.2.put h p).Idle w.nextTicket := hb.idle_draw.of_same rfl rfl
    have hbegun : (w.draw.2.put h p).Titled := hw.same hput.along rfl
    have hend := hbegun.binds (steps_conclude hi h register (.error e)).along
      (binds_conclude _ _ h register (.error e))
    exact hend.settle
  · have hi : (w.draw.2.put h p).collect.Idle w.nextTicket := hb.idle_draw.of_same rfl rfl
    have hbegun : (w.draw.2.put h p).collect.Titled :=
      hw.same (Steps.along (hput.trans (steps_collect _))) rfl
    have hend := hbegun.binds (steps_look hi h (w.now + p.1.settings.linkTimeout) register).along
      (binds_look _ _ h _ register)
    exact hend.settle

theorem titled_expire (hw : w.Titled) (hb : w.Booked) (hset : w.Settled) {p : Pending}
    (hp : p ∈ w.waits) (hwake : p.wake ≤ w.now) (hreg : p.wait.registers = true) :
    (w.expire p).Titled := by
  have hal : Along w (w.expire p) := (steps_expire hb hp hwake hset).along
  unfold expire at hal ⊢
  cases hwait : p.wait with
  | connecting h deadline register =>
    rw [hwait] at hal
    exact hw.binds hal (binds_look w p.ticket h deadline register)
  | _ => simp [hwait, Wait.registers] at hreg

/-- Every call leaves the sessions under their ids. -/
theorem titled_take {readings : List Reading} (hw : w.Titled) (hx : Sound readings w)
    (hset : w.Settled) (c : Call σ) : (w.take c).Titled := by
  by_cases hun : c.Unrelated
  · exact hw.same (along_take hx.booked hset c) (aside_take hx hset hun).table
  · cases c with
    | connect h rows cols register => exact titled_connect hw hx.booked h rows cols register
    | create id d rows cols =>
      have hmade : (w.makeSession id d w.settings).2.Titled :=
        hw.same (Steps.along (.single (.made id d w.settings))) rfl
      exact titled_connect hmade hx.booked _ rows cols true
    | register h =>
      exact (hw.binds (steps_register w h).along (binds_register w h)).settle
    | remove id =>
      exact hw.fewer (steps_remove w id).along (hw.sorted.filter _)
        List.filter_sublist.subset
    | closeId id =>
      obtain ⟨_, _, hf⟩ := closeId_frame w id
      have hclosed : (w.closeId id).2.Titled := by
        refine hw.fewer (steps_closeId w id).along ?_ ?_ <;> rw [hf]
        · exact hw.sorted.filter _
        · exact List.filter_sublist.subset
      exact hclosed.settle
    | closeAll =>
      obtain ⟨_, _, hf⟩ := closeAll_frame w
      have hclosed : w.closeAll.2.Titled := by
        refine hw.fewer (steps_closeAll w).along ?_ ?_ <;> rw [hf]
        · exact .nil
        · exact List.nil_subset _
      exact hclosed.settle
    | expire p =>
      have hreg : p.wait.registers = true := by simpa [Call.Unrelated] using hun
      dsimp only [take]
      split
      · rename_i hdue
        exact (titled_expire hw hx.booked hset hdue.1 hdue.2 hreg).settle
      · exact hw
    | _ => exact absurd trivial hun

/-- What all calls keep. -/
structure Steady (w : Switchboard σ) : Prop where
  watched : ∃ readings, Watched.Good ⟨w, readings⟩
  titled : w.Titled

theorem Steady.take (hw : w.Steady) (c : Call σ) : (w.take c).Steady := by
  obtain ⟨readings, hgood⟩ := hw.watched
  exact ⟨⟨_, hgood.watch c⟩, titled_take hw.titled hgood.sound hgood.settled c⟩

theorem Steady.reach (hw : w.Steady) (calls : List (Call σ)) : (reach Switchboard.take w calls).Steady := by
  induction calls generalizing w with
  | nil => exact hw
  | cons c rest ih => exact ih (hw.take c)

theorem Steady.await (hw : w.Steady) (ticket : Ticket) : (w.await ticket).2.Steady := by
  obtain ⟨readings, hgood⟩ := hw.watched
  obtain ⟨calls, hawait⟩ : ∃ calls, (w.await ticket).2 = MeshShell.reach Switchboard.take w calls :=
    exists_calls_awaitWithin _ ticket w hgood.sound.booked hgood.settled
  rw [hawait]
  exact hw.reach calls

theorem Steady.settleTransport (hw : w.Steady) (n : Nat) : (w.settleTransport n).Steady := by
  obtain ⟨readings, hgood⟩ := hw.watched
  obtain ⟨calls, hcalls⟩ := exists_calls_settleTransport n w hgood.sound.booked hgood.settled
  rw [hcalls]
  exact hw.reach calls

theorem steady_new (t : σ) (settings : SessionSettings) : (new t settings).Steady where
  watched := ⟨[], Traffic.good_start ⟨t, settings, []⟩⟩
  titled := ⟨.nil, by simp [new]⟩

end MeshShell.Switchboard
