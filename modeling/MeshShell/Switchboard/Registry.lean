import MeshShell.Switchboard.Basic

/-! # Registered sessions

A table from ids to sessions. Registering a session closes the one that had
its id before. Every change of the table comes before the closing.
-/
namespace MeshShell.Switchboard

variable {σ : Type} [Transport σ]

/-- Binds an id in a table that is sorted by id. -/
def bind (id : String) (h : Handle) : List (String × Handle) → List (String × Handle)
  | [] => [(id, h)]
  | (k, g) :: rest =>
    if id = k then (id, h) :: rest
    else if id < k then (id, h) :: (k, g) :: rest
    else (k, g) :: bind id h rest

def registered? (w : Switchboard σ) (id : String) : Option Handle := w.table.lookup id

def closeSession (w : Switchboard σ) (h : Handle) : Switchboard σ := w.updateSession h Session.close

/-- Registers a session under its id. -/
def register (w : Switchboard σ) (h : Handle) : Switchboard σ :=
  match w.sessions[h]? with
  | none => w
  | some s =>
    let previous := w.registered? s.id
    let w := { w with table := bind s.id h w.table }
    match previous with
    | some p => w.closeSession p
    | none => w

/-- Takes a session out of the table and leaves it open. -/
def remove (w : Switchboard σ) (id : String) : Option Handle × Switchboard σ :=
  (w.registered? id, { w with table := w.table.filter (·.1 ≠ id) })

/-- Takes a session out of the table and closes it. Tells whether there was one. -/
def closeId (w : Switchboard σ) (id : String) : Bool × Switchboard σ :=
  match w.remove id with
  | (some h, w) => (true, w.closeSession h)
  | (none, w) => (false, w)

/-- Empties the table, then closes what was in it. -/
def closeAll (w : Switchboard σ) : Nat × Switchboard σ :=
  let drained := w.table.map (·.2)
  (drained.length, drained.foldl closeSession { w with table := [] })

end MeshShell.Switchboard
