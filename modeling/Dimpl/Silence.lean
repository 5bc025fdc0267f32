import Dimpl.Dtls12.Silence
import Dimpl.Dtls13.Silence

/-!
# Silence behind a close

A client or server that is closed during its handshake has nothing more to say, whatever it
is called with, and over a whole run a close of the peer is told once.
-/

namespace Dimpl

open Nom Program

/-- A client or server as the application sees it. -/
structure Closable (σ Call : Type) where
  exec : σ → Call → σ
  output : σ → Call → Option Output
  close : Call
  sendApplicationData : Bytes → EStateM Fault σ Unit
  start : σ → Prop
  inHandshake : σ → Bool

namespace Closable

variable {σ Call : Type} {x : Closable σ Call}

/-- Behind a close during the handshake no call hands out a datagram or application data,
and sending is refused. -/
def SilentAfterAbort (x : Closable σ Call) : Prop :=
  ∀ start before after, x.start start → x.inHandshake (run x.exec start before) = true →
    let closed := x.exec (run x.exec start before) x.close
    (∀ output ∈ outputs x.exec x.output closed after, output.carries = false) ∧
      ∀ data, x.sendApplicationData data (run x.exec closed after) =
        .error (.fatal .connectionClosed) (run x.exec closed after)

/-- A close of the peer is told at most once. -/
def ClosesOnce (x : Closable σ Call) : Prop :=
  ∀ start calls, x.start start →
    (outputs x.exec x.output start calls).countP (fun output => output = .closeNotify) ≤ 1

/-- What aborting leaves behind, every call keeps it, and it has nothing to say. -/
theorem silentAfterAbort_of {Aborted : σ → Prop}
    (closes : ∀ start before, x.start start → x.inHandshake (run x.exec start before) = true →
      Aborted (x.exec (run x.exec start before) x.close))
    (kept : ∀ s call, Aborted s → Aborted (x.exec s call))
    (told : ∀ s call output, Aborted s → x.output s call = some output → output.carries = false)
    (refused : ∀ s data, Aborted s →
      x.sendApplicationData data s = .error (.fatal .connectionClosed) s) : x.SilentAfterAbort := by
  intro start before after isStart under
  have aborted := closes start before isStart under
  refine ⟨forall_mem_outputs kept told aborted, fun data => ?_⟩
  have last : Aborted (run x.exec _ after) :=
    run_invariant (fun s call isAborted _ => kept s call isAborted) aborted (Meets.of_all fun _ _ => trivial)
  exact refused _ data last

/-- A close that is told leaves a mark. -/
theorem closesOnce_of (reported : σ → Bool)
    (kept : ∀ s call, reported s = true → reported (x.exec s call) = true)
    (told : ∀ s call, x.output s call = some .closeNotify →
      reported s = false ∧ reported (x.exec s call) = true) : x.ClosesOnce := by
  intro start calls _
  refine countP_outputs_le_one kept fun s call output isOutput isClose => ?_
  simp only [decide_eq_true_eq] at isClose
  obtain ⟨before, after⟩ := told s call (isClose ▸ isOutput)
  exact ⟨by simp [before], after⟩

end Closable

/-- A DTLS 1.2 client. -/
def Dtls12.Client.closable : Closable Dtls12.Client Dtls12.Client.Call where
  exec := Dtls12.Client.exec
  output := Dtls12.Client.output
  close := .close
  sendApplicationData := Dtls12.Client.sendApplicationData
  start := Dtls12.Client.Start
  inHandshake := fun c => c.state.inHandshake

/-- A DTLS 1.2 server. -/
def Dtls12.Server.closable : Closable Dtls12.Server Dtls12.Server.Call where
  exec := Dtls12.Server.exec
  output := Dtls12.Server.output
  close := .close
  sendApplicationData := Dtls12.Server.sendApplicationData
  start := Dtls12.Server.Start
  inHandshake := fun s => s.state.inHandshake

/-- A DTLS 1.3 client. -/
def Dtls13.Client.closable : Closable Dtls13.Client Dtls13.Client.Call where
  exec := Dtls13.Client.exec
  output := Dtls13.Client.output
  close := .close
  sendApplicationData := Dtls13.Client.sendApplicationData
  start := Dtls13.Client.Start
  inHandshake := fun c => c.state.inHandshake

/-- A DTLS 1.3 server. -/
def Dtls13.Server.closable : Closable Dtls13.Server Dtls13.Server.Call where
  exec := Dtls13.Server.exec
  output := Dtls13.Server.output
  close := .close
  sendApplicationData := Dtls13.Server.sendApplicationData
  start := Dtls13.Server.Start
  inHandshake := fun s => s.state.inHandshake

/-- Clients and servers of both versions are silent behind an abort, and tell a close of
the peer once. -/
theorem silent_after_abort :
    (Dtls12.Client.closable.SilentAfterAbort ∧ Dtls12.Client.closable.ClosesOnce) ∧
      (Dtls12.Server.closable.SilentAfterAbort ∧ Dtls12.Server.closable.ClosesOnce) ∧
      (Dtls13.Client.closable.SilentAfterAbort ∧ Dtls13.Client.closable.ClosesOnce) ∧
      (Dtls13.Server.closable.SilentAfterAbort ∧ Dtls13.Server.closable.ClosesOnce) := by
  refine ⟨⟨?_, ?_⟩, ⟨?_, ?_⟩, ⟨?_, ?_⟩, ⟨?_, ?_⟩⟩
  · exact Closable.silentAfterAbort_of
      (fun start before isStart under => Dtls12.Client.close_aborted ⟨start, before, isStart, rfl⟩ under)
      (fun _ call aborted => Dtls12.Client.exec_aborted aborted call)
      (fun _ _ _ aborted told => Dtls12.Client.output_aborted aborted told)
      fun _ data aborted => Dtls12.Client.sendApplicationData_aborted aborted data
  · exact Closable.closesOnce_of (fun c => c.engine.closeNotifyReported)
      (fun _ _ => Dtls12.Client.exec_reports)
      fun _ _ told => Dtls12.Client.output_closeNotify told
  · exact Closable.silentAfterAbort_of
      (fun start before isStart under => Dtls12.Server.close_aborted ⟨start, before, isStart, rfl⟩ under)
      (fun _ call aborted => Dtls12.Server.exec_aborted aborted call)
      (fun _ _ _ aborted told => Dtls12.Server.output_aborted aborted told)
      fun _ data aborted => Dtls12.Server.sendApplicationData_aborted aborted data
  · exact Closable.closesOnce_of (fun s => s.engine.closeNotifyReported)
      (fun _ _ => Dtls12.Server.exec_reports)
      fun _ _ told => Dtls12.Server.output_closeNotify told
  · exact Closable.silentAfterAbort_of
      (fun start before isStart under => Dtls13.Client.close_aborted ⟨start, before, isStart, rfl⟩ under)
      (fun _ call aborted => Dtls13.Client.exec_aborted aborted call)
      (fun _ _ _ aborted told => Dtls13.Client.output_aborted aborted told)
      fun _ data aborted => Dtls13.Client.sendApplicationData_aborted aborted data
  · exact Closable.closesOnce_of (fun c => c.engine.closeNotifyReported)
      (fun _ _ => Dtls13.Client.exec_reports)
      fun _ _ told => Dtls13.Client.output_closeNotify told
  · exact Closable.silentAfterAbort_of
      (fun start before isStart under => Dtls13.Server.close_aborted ⟨start, before, isStart, rfl⟩ under)
      (fun _ call aborted => Dtls13.Server.exec_aborted aborted call)
      (fun _ _ _ aborted told => Dtls13.Server.output_aborted aborted told)
      fun _ data aborted => Dtls13.Server.sendApplicationData_aborted aborted data
  · exact Closable.closesOnce_of (fun s => s.engine.closeNotifyReported)
      (fun _ _ => Dtls13.Server.exec_reports)
      fun _ _ told => Dtls13.Server.output_closeNotify told

end Dimpl
