import MeshShell.Transport.Basic

/-! # A transport that counts what it is asked for

Paths have to be asked for, and links have to be opened. Every such request is
noted, whether it succeeds or not. Apart from the notes everything is as it is
without them.
-/
namespace MeshShell

inductive Ask
  | path (d : Destination)
  | link (identity : RemoteIdentity) (aspect : String)
  deriving DecidableEq, Repr

structure Asked (σ : Type) where
  inner : σ
  asks : List Ask

namespace Asked

variable {σ : Type} [Transport σ]

instance : Transport (Asked σ) where
  hasPath d r := Transport.hasPath d r.inner
  requestPath now d r := ⟨Transport.requestPath now d r.inner, r.asks ++ [.path d]⟩
  recallIdentity d r := Transport.recallIdentity d r.inner
  hopsTo d r := Transport.hopsTo d r.inner
  openLink now identity aspect r :=
    ((Transport.openLink now identity aspect r.inner).1,
      ⟨(Transport.openLink now identity aspect r.inner).2, r.asks ++ [.link identity aspect]⟩)
  channel l r := Transport.channel l r.inner
  setHandler l r := ⟨Transport.setHandler l r.inner, r.asks⟩
  send l m r := ((Transport.send l m r.inner).1, ⟨(Transport.send l m r.inner).2, r.asks⟩)
  teardown l r := ⟨Transport.teardown l r.inner, r.asks⟩
  attach i r := ((Transport.attach i r.inner).1, ⟨(Transport.attach i r.inner).2, r.asks⟩)
  deliver r := ((Transport.deliver r.inner).1, ⟨(Transport.deliver r.inner).2, r.asks⟩)
  due? r := Transport.due? r.inner
  wake now r := ⟨Transport.wake now r.inner, r.asks⟩

variable (t : σ) (asks : List Ask)

@[simp] theorem hasPath_mk (d : Destination) :
    Transport.hasPath d (⟨t, asks⟩ : Asked σ) = Transport.hasPath d t := rfl

@[simp] theorem recallIdentity_mk (d : Destination) :
    Transport.recallIdentity d (⟨t, asks⟩ : Asked σ) = Transport.recallIdentity d t := rfl

@[simp] theorem channel_mk (l : LinkId) :
    Transport.channel l (⟨t, asks⟩ : Asked σ) = Transport.channel l t := rfl

@[simp] theorem setHandler_mk (l : LinkId) :
    Transport.setHandler l (⟨t, asks⟩ : Asked σ) = ⟨Transport.setHandler l t, asks⟩ := rfl

@[simp] theorem send_mk (l : LinkId) (m : Message) : Transport.send l m (⟨t, asks⟩ : Asked σ) =
    ((Transport.send l m t).1, ⟨(Transport.send l m t).2, asks⟩) := rfl

@[simp] theorem openLink_mk (now : Millis) (identity : RemoteIdentity) (aspect : String) :
    Transport.openLink now identity aspect (⟨t, asks⟩ : Asked σ) =
      ((Transport.openLink now identity aspect t).1,
        ⟨(Transport.openLink now identity aspect t).2, asks ++ [.link identity aspect]⟩) := rfl

end Asked

end MeshShell
