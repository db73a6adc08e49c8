import MeshShell.Proofs.Session.Steps
import MeshShell.Proofs.Transport.Asked

/-! # What a session asks of the transport

A session asks for nothing but a link, and only when it is told to open one. All
that it does is the same whether its requests are noted or not.
-/
namespace MeshShell.Session

variable {σ : Type}

def Action.asked : Action σ → Action (Asked σ)
  | .connect now rows cols => .connect now rows cols
  | .giveUp => .giveUp
  | .report c => .report c
  | .drive => .drive
  | .sendInput data => .sendInput data
  | .resize size => .resize size
  | .close => .close
  | .read ticket patient => .read ticket patient
  | .serve => .serve
  | .expire ticket => .expire ticket
  | .elsewhere f => .elsewhere fun r => ⟨f r.inner, r.asks⟩

/-- A session and the transport with notes on it. -/
def withAsks (asks : List Ask) (p : Session × σ) : Session × Asked σ := (p.1, ⟨p.2, asks⟩)

variable [Transport σ] (s : Session) (t : σ) (asks : List Ask)

theorem finish_asked : s.finish (⟨t, asks⟩ : Asked σ) = withAsks asks (s.finish t) := by
  unfold finish
  split
  · rfl
  · cases s.link <;> rfl

theorem greet_asked (l : LinkId) : s.greet l (⟨t, asks⟩ : Asked σ) =
    ((s.greet l t).1, ⟨(s.greet l t).2, asks⟩) := by
  unfold greet
  rw [Asked.send_mk]
  rcases Transport.send l .hello t with ⟨_ | _, t'⟩ <;> rfl

theorem handshake_asked (l : LinkId) : s.handshake l (⟨t, asks⟩ : Asked σ) =
    ((s.handshake l t).1, withAsks asks (s.handshake l t).2) := by
  unfold handshake
  rw [Asked.channel_mk, Asked.setHandler_mk]
  cases Transport.channel l t with
  | error e => rfl
  | ok =>
    dsimp only
    rw [greet_asked]
    rcases greet _ l (Transport.setHandler l t) with ⟨_ | _, t'⟩ <;> rfl

theorem dispatch_asked (m : Message) :
    s.dispatch m (⟨t, asks⟩ : Asked σ) = withAsks asks (s.dispatch m t) := by
  unfold dispatch
  split
  · rfl
  · cases m with
    | commandExited code => exact finish_asked s t asks
    | error text fatal =>
      cases fatal with
      | true => exact finish_asked s t asks
      | false => rfl
    | _ => rfl

theorem handle_asked (e : LinkEvent) :
    s.handle e (⟨t, asks⟩ : Asked σ) = withAsks asks (s.handle e t) := by
  unfold handle
  cases e with
  | established l =>
    dsimp only
    split
    · rfl
    · rw [handshake_asked]
      rcases s.handshake l t with ⟨_ | _, s', t'⟩
      · exact finish_asked s' t' asks
      · rfl
  | message m => exact dispatch_asked s t asks m
  | closed =>
    dsimp only
    rw [finish_asked]
    rfl
  | shutdown => rfl

theorem handleAll_asked (es : List LinkEvent) :
    handleAll s (⟨t, asks⟩ : Asked σ) es = withAsks asks (handleAll s t es) := by
  induction es generalizing s t with
  | nil => rfl
  | cons e es ih =>
    unfold handleAll
    split
    · rw [handle_asked]
      exact ih _ _
    · rfl

theorem drive_asked : s.drive (⟨t, asks⟩ : Asked σ) = withAsks asks (s.drive t) := by
  unfold drive
  split
  · exact handleAll_asked _ t asks s.inbox
  · rfl

theorem giveUp_asked : s.giveUp (⟨t, asks⟩ : Asked σ) = withAsks asks (s.giveUp t) := by
  unfold giveUp
  rw [finish_asked]
  rfl

theorem close_asked : s.close (⟨t, asks⟩ : Asked σ) = withAsks asks (s.close t) := by
  unfold close
  split
  · rfl
  · rw [finish_asked]
    rfl

theorem sendInput_asked (data : Bytes) : s.sendInput data (⟨t, asks⟩ : Asked σ) =
    ((s.sendInput data t).1, ⟨(s.sendInput data t).2, asks⟩) := by
  unfold sendInput
  cases s.channel with
  | none => rfl
  | some l =>
    dsimp only
    split
    · rfl
    · rw [Asked.send_mk]
      rcases Transport.send l (.stdin data) t with ⟨_ | _, t'⟩ <;> rfl

theorem resize_asked (size : Geometry) :
    s.resize size (⟨t, asks⟩ : Asked σ) = withAsks asks (s.resize size t) := by
  unfold resize
  cases s.channel with
  | none => rfl
  | some l =>
    dsimp only
    split <;> rfl

/-- What a session asks for that is told to open its link. -/
def seeks (s : Session) (t : σ) : List Ask :=
  match Transport.recallIdentity s.destination t with
  | none => []
  | some identity => if s.driver = .notStarted then [.link identity shellAspect] else []

/-- Opening the link is asked for exactly once, and not at all if it is refused. -/
theorem start_asked (now : Millis) (rows cols : UInt16) :
    s.start now rows cols (⟨t, asks⟩ : Asked σ) =
      ((s.start now rows cols t).1, withAsks (asks ++ s.seeks t) (s.start now rows cols t).2) := by
  unfold start seeks
  rw [Asked.recallIdentity_mk]
  cases Transport.recallIdentity s.destination t with
  | none => simp [withAsks]
  | some identity =>
    dsimp only
    by_cases hd : s.driver = .notStarted
    · rw [if_neg (not_not_intro hd), if_neg (not_not_intro hd), if_pos hd, Asked.openLink_mk]
      rcases Transport.openLink now identity shellAspect t with ⟨_ | _, t'⟩
      · dsimp only
        rw [finish_asked]
        rfl
      · rfl
    · rw [if_pos hd, if_pos hd, if_neg hd, List.append_nil]
      rfl

theorem timeOut_asked : s.timeOut (⟨t, asks⟩ : Asked σ) = withAsks asks (s.timeOut t) := by
  unfold timeOut
  cases s.progress with
  | some _ => rfl
  | none => exact giveUp_asked s t asks

theorem driveOne_asked : s.driveOne (⟨t, asks⟩ : Asked σ) = withAsks asks (s.driveOne t) := by
  unfold driveOne
  cases s.inbox with
  | nil => rfl
  | cons e rest =>
    dsimp only
    split
    · exact handle_asked _ t asks e
    · rfl

/-- What is asked for with an action. -/
def asksOf (p : Session × σ) : Action σ → List Ask
  | .connect _ _ _ => p.1.seeks p.2
  | _ => []

theorem next_asked (a : Action σ) (p : Session × σ) :
    next a.asked (withAsks asks p) = withAsks (asks ++ asksOf p a) (next a p) := by
  obtain ⟨s, t⟩ := p
  cases a
  case connect now rows cols => exact congrArg Prod.snd (start_asked s t asks now rows cols)
  all_goals simp only [asksOf, List.append_nil]
  case giveUp => exact timeOut_asked s t asks
  case drive => exact driveOne_asked s t asks
  case sendInput data => exact congrArg (fun r => (s, r.2)) (sendInput_asked s t asks data)
  case resize size => exact resize_asked s t asks size
  case close => exact close_asked s t asks
  all_goals rfl

/-- Everything that was asked for. -/
def everAsked (hist : History σ) : List Ask := hist.flatMap fun (p, a) => asksOf p a

theorem reach_asked (as : List (Action σ)) (p : Session × σ) :
    reach next (withAsks asks p) (as.map Action.asked) =
      withAsks (asks ++ everAsked (trail next p as)) (reach next p as) := by
  induction as generalizing p asks with
  | nil => exact congrArg (withAsks · p) (List.append_nil asks).symm
  | cons a as ih =>
    show reach next (next a.asked (withAsks asks p)) (as.map Action.asked) = _
    rw [next_asked, ih, List.append_assoc]
    rfl

/-- A life with notes of what is asked for. -/
def Life.asked (l : Life σ) : Life (Asked σ) :=
  { l with transport := ⟨l.transport, []⟩, actions := l.actions.map Action.asked }

theorem Life.outcome_asked (l : Life σ) :
    l.asked.outcome = withAsks (everAsked l.history) l.outcome := reach_asked [] l.actions l.start

end MeshShell.Session
