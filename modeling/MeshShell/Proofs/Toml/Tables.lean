import MeshShell.Proofs.Toml.Documents

/-! # The tables of a document

Each group of settings becomes an entry at the end of the document: a group of
its own a table, and the rows of one name an array of tables.
-/
namespace MeshShell.Toml

open Printer

section Last

variable {es : Entries} {name : String} {v w : Toml}

theorem Entries.put_append (h : es.lookup name = none) (more : Entries) :
    Entries.put name w (es ++ more) = es ++ Entries.put name w more := by
  induction es with
  | nil => rfl
  | cons e es ih =>
    obtain ⟨k, u⟩ := e
    rw [List.lookup_eq_none_iff] at h
    have hne : k ≠ name := by
      rintro rfl
      simpa using h (k, u) List.mem_cons_self
    have hrest := ih (List.lookup_eq_none_iff.mpr fun p hp => h p (List.mem_cons_of_mem _ hp))
    rw [List.cons_append, Entries.put, if_neg hne, hrest]
    rfl

theorem Entries.put_new (h : es.lookup name = none) : Entries.put name v es = es ++ [(name, v)] := by
  simpa [Entries.put] using Entries.put_append h []

theorem Entries.put_last (h : es.lookup name = none) :
    Entries.put name w (es ++ [(name, v)]) = es ++ [(name, w)] := by
  simp [Entries.put_append h, Entries.put]

theorem Entries.lookup_last (h : es.lookup name = none) : (es ++ [(name, v)]).lookup name = some v := by
  simp [List.lookup_append, h]

theorem Entries.onLast_append (edit : Entries → Option Entries) (rows : List Entries) (row : Entries) :
    Entries.onLast edit (rows ++ [row]) = (fun row => rows ++ [row]) <$> edit row := by
  induction rows with
  | nil => cases h : edit row <;> simp [Entries.onLast, h]
  | cons r rows ih =>
    obtain ⟨r', rest, hrest⟩ := List.exists_cons_of_ne_nil (l := rows ++ [row]) (by simp)
    rw [List.cons_append, hrest, Entries.onLast, ← hrest, ih]
    cases edit row <;> rfl

/-- A value that holds the entries of the table that is being filled. -/
def Holds (place : Entries → Toml) : Prop :=
  place = .table .header ∨ ∃ rows, place = fun entries => .tables (rows ++ [entries])

theorem Entries.within_last {place : Entries → Toml} (hplace : Holds place) (h : es.lookup name = none)
    {edit : Entries → Option Entries} {before after : Entries} (hedit : edit before = some after) :
    Entries.within edit [name] (es ++ [(name, place before)]) = some (es ++ [(name, place after)]) := by
  rcases hplace with rfl | ⟨rows, rfl⟩
  · simp [Entries.within, Entries.lookup_last h, hedit, Entries.put_last h]
  · simp [Entries.within, Entries.lookup_last h, Entries.onLast_append, hedit, Entries.put_last h]

end Last

/-- The entries of some settings. -/
def entriesOf (settings : List (String × Setting)) : Entries := settings.map fun (name, s) => (name, s.value)

theorem lookup_entriesOf_none {settings : List (String × Setting)} {name : String}
    (h : name ∉ settings.map (·.1)) : (entriesOf settings).lookup name = none := by
  rw [List.lookup_eq_none_iff]
  intro p hp
  obtain ⟨q, hq, rfl⟩ := List.mem_map.mp hp
  rw [bne_iff_ne]
  rintro rfl
  exact h (List.mem_map_of_mem hq)

section Fill

variable {es : Entries} {name : String} {place : Entries → Toml}

/-- Settings with different names go into the table that is being filled, one after the other. -/
theorem foldlM_settings (hplace : Holds place) (h : es.lookup name = none)
    (before settings : List (String × Setting)) (hdistinct : ((before ++ settings).map (·.1)).Nodup) :
    (settings.map fun (key, s) => Statement.assign [key] s.value).foldlM Building.add
        ⟨es ++ [(name, place (entriesOf before))], [name]⟩ =
      some ⟨es ++ [(name, place (entriesOf (before ++ settings)))], [name]⟩ := by
  induction settings generalizing before with
  | nil => simp
  | cons p settings ih =>
    obtain ⟨key, s⟩ := p
    have hnew : key ∉ before.map (·.1) := by
      rw [List.map_append, List.map_cons] at hdistinct
      exact fun hm => (List.nodup_append.mp hdistinct).2.2 key hm key List.mem_cons_self rfl
    have hkey := lookup_entriesOf_none hnew
    have happend : entriesOf (before ++ [(key, s)]) = entriesOf before ++ [(key, s.value)] := by
      simp [entriesOf]
    have hedit : Entries.assign s.value true [key] (entriesOf before) =
        some (entriesOf (before ++ [(key, s)])) := by
      rw [happend, ← Entries.put_new hkey]
      simp [Entries.assign, hkey]
    have hadd : Building.add ⟨es ++ [(name, place (entriesOf before))], [name]⟩ (.assign [key] s.value) =
        some ⟨es ++ [(name, place (entriesOf (before ++ [(key, s)])))], [name]⟩ := by
      simp [Building.add, Entries.within_last hplace h hedit]
    have hmore := ih (before ++ [(key, s)]) (by simpa using hdistinct)
    rw [List.map_cons, List.foldlM_cons, hadd]
    simpa using hmore

theorem foldlM_table {g : Group} (hrow : g.isRow = false) (h : es.lookup g.name = none)
    (hdistinct : (g.settings.map (·.1)).Nodup) (cursor : List String) :
    (statementsOf g).foldlM Building.add ⟨es, cursor⟩ =
      some ⟨es ++ [(g.name, .table .header (entriesOf g.settings))], [g.name]⟩ := by
  have hadd : Building.add ⟨es, cursor⟩ (headerOf g) =
      some ⟨es ++ [(g.name, .table .header [])], [g.name]⟩ := by
    simp [headerOf, hrow, Building.add, Building.atLast, Entries.within, Entries.openTable, h,
      Entries.put_new h]
  rw [statementsOf, List.foldlM_cons, hadd]
  exact foldlM_settings (.inl rfl) h [] g.settings hdistinct

/-- Groups of their own with different names become a table each. -/
theorem foldlM_tables {gs : List Group} (hgs : ∀ g ∈ gs, g.isRow = false ∧ (g.settings.map (·.1)).Nodup)
    (hnames : gs.Pairwise (·.name ≠ ·.name)) (hnew : ∀ g ∈ gs, es.lookup g.name = none) (cursor : List String) :
    ∃ last, (gs.flatMap statementsOf).foldlM Building.add ⟨es, cursor⟩ =
      some ⟨es ++ gs.map fun g => (g.name, .table .header (entriesOf g.settings)), last⟩ := by
  induction gs generalizing es cursor with
  | nil => exact ⟨cursor, by simp⟩
  | cons g gs ih =>
    obtain ⟨hrow, hdistinct⟩ := hgs g List.mem_cons_self
    obtain ⟨hname, hnames⟩ := List.pairwise_cons.mp hnames
    have hfirst := foldlM_table hrow (hnew g List.mem_cons_self) hdistinct cursor
    have hlater : ∀ g' ∈ gs,
        (es ++ [(g.name, Toml.table .header (entriesOf g.settings))]).lookup g'.name = none := by
      intro g' hg'
      have hne : (g'.name == g.name) = false := beq_false_of_ne (hname g' hg').symm
      simp [List.lookup_append, hnew g' (List.mem_cons_of_mem g hg'), List.lookup_cons, hne]
    obtain ⟨last, hlast⟩ := ih (fun g' hg' => hgs g' (List.mem_cons_of_mem g hg')) hnames hlater [g.name]
    refine ⟨last, ?_⟩
    rw [List.flatMap_cons, List.foldlM_append, hfirst, Option.bind_eq_bind, Option.bind_some, hlast]
    simp

theorem foldlM_firstRow {g : Group} (hrow : g.isRow = true) (h : es.lookup g.name = none)
    (hdistinct : (g.settings.map (·.1)).Nodup) (cursor : List String) :
    (statementsOf g).foldlM Building.add ⟨es, cursor⟩ =
      some ⟨es ++ [(g.name, .tables [entriesOf g.settings])], [g.name]⟩ := by
  have hadd : Building.add ⟨es, cursor⟩ (headerOf g) = some ⟨es ++ [(g.name, .tables [[]])], [g.name]⟩ := by
    simp [headerOf, hrow, Building.add, Building.atLast, Entries.within, Entries.openRow, h,
      Entries.put_new h]
  rw [statementsOf, List.foldlM_cons, hadd]
  have hplace : Holds fun entries => .tables ([] ++ [entries]) := .inr ⟨[], rfl⟩
  exact foldlM_settings hplace h [] g.settings hdistinct

theorem foldlM_row {g : Group} (hrow : g.isRow = true) (h : es.lookup g.name = none)
    (hdistinct : (g.settings.map (·.1)).Nodup) (rows : List Entries) (cursor : List String) :
    (statementsOf g).foldlM Building.add ⟨es ++ [(g.name, .tables rows)], cursor⟩ =
      some ⟨es ++ [(g.name, .tables (rows ++ [entriesOf g.settings]))], [g.name]⟩ := by
  have hadd : Building.add ⟨es ++ [(g.name, .tables rows)], cursor⟩ (headerOf g) =
      some ⟨es ++ [(g.name, .tables (rows ++ [[]]))], [g.name]⟩ := by
    simp [headerOf, hrow, Building.add, Building.atLast, Entries.within, Entries.openRow,
      Entries.lookup_last h, Entries.put_last h]
  rw [statementsOf, List.foldlM_cons, hadd]
  have hplace : Holds fun entries => .tables (rows ++ [entries]) := .inr ⟨rows, rfl⟩
  exact foldlM_settings hplace h [] g.settings hdistinct

theorem foldlM_rows {gs : List Group} (h : es.lookup name = none)
    (hgs : ∀ g ∈ gs, g.isRow = true ∧ g.name = name ∧ (g.settings.map (·.1)).Nodup) (rows : List Entries)
    (cursor : List String) :
    ∃ last, (gs.flatMap statementsOf).foldlM Building.add ⟨es ++ [(name, .tables rows)], cursor⟩ =
      some ⟨es ++ [(name, .tables (rows ++ gs.map fun g => entriesOf g.settings))], last⟩ := by
  induction gs generalizing rows cursor with
  | nil => exact ⟨cursor, by simp⟩
  | cons g gs ih =>
    obtain ⟨hrow, rfl, hdistinct⟩ := hgs g List.mem_cons_self
    obtain ⟨last, hlast⟩ := ih (fun g' hg => hgs g' (List.mem_cons_of_mem g hg))
      (rows ++ [entriesOf g.settings]) [g.name]
    refine ⟨last, ?_⟩
    rw [List.flatMap_cons, List.foldlM_append, foldlM_row hrow h hdistinct]
    simpa using hlast

end Fill

end MeshShell.Toml
