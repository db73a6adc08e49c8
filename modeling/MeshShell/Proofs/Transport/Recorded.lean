import MeshShell.Transport.Basic

/-! # A transport that keeps a log

The log holds what a session does on the transport: the links that it opens,
the messages that their channels take, and the links that it tears down. Apart
from the log everything is as it is without it.
-/
namespace MeshShell

inductive Deed
  | opened (link : LinkId)
  | sent (link : LinkId) (m : Message)
  | tornDown (link : LinkId)
  deriving DecidableEq, Repr

def Deed.message? : Deed → Option (LinkId × Message)
  | .sent l m => some (l, m)
  | _ => none

structure Recorded (σ : Type) where
  inner : σ
  deeds : List Deed

namespace Recorded

variable {σ : Type}

/-- Nothing has happened yet. -/
def blank (t : σ) : Recorded σ := ⟨t, []⟩

/-- The transport goes on to another state with nothing to note. -/
def pass (r : Recorded σ) (t : σ) : Recorded σ := { r with inner := t }

def note (r : Recorded σ) (d : Deed) (t : σ) : Recorded σ := ⟨t, r.deeds ++ [d]⟩

/-- The messages that were taken, with their links. -/
def sent (r : Recorded σ) : List (LinkId × Message) := r.deeds.filterMap Deed.message?

@[simp] theorem inner_pass (r : Recorded σ) (t : σ) : (r.pass t).inner = t := rfl

@[simp] theorem inner_note (r : Recorded σ) (d : Deed) (t : σ) : (r.note d t).inner = t := rfl

@[simp] theorem sent_pass (r : Recorded σ) (t : σ) : (r.pass t).sent = r.sent := rfl

theorem sent_note (r : Recorded σ) (d : Deed) (t : σ) :
    (r.note d t).sent = r.sent ++ d.message?.toList := by
  cases d <;> simp [note, sent, Deed.message?]

variable [Transport σ]

instance : Transport (Recorded σ) where
  hasPath d r := Transport.hasPath d r.inner
  requestPath now d r := r.pass (Transport.requestPath now d r.inner)
  recallIdentity d r := Transport.recallIdentity d r.inner
  hopsTo d r := Transport.hopsTo d r.inner
  openLink now identity aspect r :=
    match Transport.openLink now identity aspect r.inner with
    | (.error e, t) => (.error e, r.pass t)
    | (.ok l, t) => (.ok l, r.note (.opened l) t)
  channel l r := Transport.channel l r.inner
  setHandler l r := r.pass (Transport.setHandler l r.inner)
  send l m r :=
    match Transport.send l m r.inner with
    | (.error e, t) => (.error e, r.pass t)
    | (.ok (), t) => (.ok (), r.note (.sent l m) t)
  teardown l r := r.note (.tornDown l) (Transport.teardown l r.inner)
  attach i r :=
    match Transport.attach i r.inner with
    | (result, t) => (result, r.pass t)
  deliver r :=
    match Transport.deliver r.inner with
    | (callbacks, t) => (callbacks, r.pass t)
  due? r := Transport.due? r.inner
  wake now r := r.pass (Transport.wake now r.inner)

theorem send_cases (l : LinkId) (m : Message) (r : Recorded σ) :
    (∃ e t, Transport.send l m r.inner = (.error e, t) ∧
      Transport.send l m r = (.error e, r.pass t)) ∨
    ∃ t, Transport.send l m r.inner = (.ok (), t) ∧
      Transport.send l m r = (.ok (), r.note (.sent l m) t) := by
  cases h : Transport.send l m r.inner with
  | mk result t =>
    cases result with
    | error e => exact .inl ⟨e, t, rfl, by simp [Transport.send, h]⟩
    | ok => exact .inr ⟨t, rfl, by simp [Transport.send, h]⟩

theorem openLink_cases (now : Millis) (identity : RemoteIdentity) (aspect : String)
    (r : Recorded σ) :
    (∃ e t, Transport.openLink now identity aspect r.inner = (.error e, t) ∧
      Transport.openLink now identity aspect r = (.error e, r.pass t)) ∨
    ∃ l t, Transport.openLink now identity aspect r.inner = (.ok l, t) ∧
      Transport.openLink now identity aspect r = (.ok l, r.note (.opened l) t) := by
  cases h : Transport.openLink now identity aspect r.inner with
  | mk result t =>
    cases result with
    | error e => exact .inl ⟨e, t, rfl, by simp [Transport.openLink, h]⟩
    | ok l => exact .inr ⟨l, t, rfl, by simp [Transport.openLink, h]⟩

end Recorded

end MeshShell
