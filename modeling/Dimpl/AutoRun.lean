import Dimpl.AutoInstance
import Dimpl.Dtls12.ClientInv
import Dimpl.Dtls12.ServerInv
import Dimpl.Dtls13.ClientRun
import Dimpl.Dtls13.ServerRun

/-!
# Runs of an auto-sensing instance

The calls of an application on an instance, and what they are for the endpoint inside once
there is one.
-/

namespace Dimpl

open Nom Program

/-- A call on an auto-sensing instance. A packet comes with the generators of an engine that
may be built. -/
inductive Auto.Call where
  | handlePacket (rng entropy : SeededRng) (packet : Bytes)
  | handleTimeout (now : Instant)
  | pollOutput (bufLen : Nat)
  | sendApplicationData (data : Bytes)
  | close

namespace Auto.Call

/-- When a call is a timeout call. -/
def tick : Call → Option Instant
  | .handleTimeout now => some now
  | _ => none

/-- The call on a client of DTLS 1.2. -/
def onClient12 : Call → Dtls12.Client.Call
  | .handlePacket _ _ packet => .handlePacket packet
  | .handleTimeout now => .handleTimeout now
  | .pollOutput bufLen => .pollOutput bufLen
  | .sendApplicationData data => .sendApplicationData data
  | .close => .close

/-- The call on a client of DTLS 1.3. -/
def onClient13 : Call → Dtls13.Client.Call
  | .handlePacket _ _ packet => .handlePacket packet
  | .handleTimeout now => .handleTimeout now
  | .pollOutput bufLen => .pollOutput bufLen
  | .sendApplicationData data => .sendApplicationData data
  | .close => .close

/-- The call on a server of DTLS 1.2. -/
def onServer12 : Call → Dtls12.Server.Call
  | .handlePacket _ _ packet => .handlePacket packet
  | .handleTimeout now => .handleTimeout now
  | .pollOutput bufLen => .pollOutput bufLen
  | .sendApplicationData data => .sendApplicationData data
  | .close => .close

/-- The call on a server of DTLS 1.3. -/
def onServer13 : Call → Dtls13.Server.Call
  | .handlePacket _ _ packet => .handlePacket packet
  | .handleTimeout now => .handleTimeout now
  | .pollOutput bufLen => .pollOutput bufLen
  | .sendApplicationData data => .sendApplicationData data
  | .close => .close

theorem tick_client12 {call : Call} : call.onClient12.tick = call.tick := by cases call <;> rfl

theorem tick_client13 {call : Call} : call.onClient13.tick = call.tick := by cases call <;> rfl

theorem tick_server12 {call : Call} : call.onServer12.tick = call.tick := by cases call <;> rfl

theorem tick_server13 {call : Call} : call.onServer13.tick = call.tick := by cases call <;> rfl

end Auto.Call

section Through

variable {σ τ α β : Type} {wrap : σ → τ} {program : EStateM Fault σ α} {part : σ} {whole : τ}

theorem finalState_through (whole : τ) :
    finalState (through wrap program part) whole = wrap (finalState program part) := by
  unfold finalState through
  cases program part <;> rfl

theorem post_through {Q : α → τ → Prop} {E : Fault → τ → Prop} :
    Post (through wrap program part) whole Q E ↔
      Post program part (fun value part' => Q value (wrap part'))
        fun fault part' => E fault (wrap part') := by
  unfold Post through
  cases program part <;> rfl

theorem error_through (whole : τ) : error? (through wrap program part) whole = error? program part := by
  unfold error? through
  cases program part <;> rfl

end Through

namespace Dtls

/-- The program of a call on a client. -/
def program : Auto.Call → DtlsM Unit
  | .handlePacket rng entropy packet => handlePacket rng entropy packet
  | .handleTimeout now => handleTimeout now
  | .pollOutput bufLen => do
    let _ ← pollOutput bufLen
  | .sendApplicationData data => sendApplicationData data
  | .close => close

/-- The instance after a call, whether it succeeded or not. -/
def exec (d : Dtls) (call : Auto.Call) : Dtls := finalState (program call) d

/-- `Dtls::new_auto` and `set_active(true)`: a client that waits for the server, or one of
DTLS 1.2 when only PSK suites are configured. -/
inductive Start : Dtls → Prop where
  | pending (hybrid : HybridClientHello) (wirePacket : Bytes) (config : Config)
      (certificate : DtlsCertificate) (now : Instant) :
      Start (holding (.clientPending (.new hybrid wirePacket config certificate now)))
  | psk (config : Config) (rng rng' entropy : SeededRng) (now : Instant) :
      Start (holding (.client12 (.newWithEngine
        { Dtls12.Engine.new config .psk rng entropy with rng := rng' } now)))

section Calls

variable {call : Auto.Call} {c : Dtls12.Client} {c' : Dtls13.Client}

/-- A call on a client of DTLS 1.2. -/
theorem exec_client12 : (holding (.client12 c)).exec call = holding (.client12 (c.exec call.onClient12)) := by
  cases call with
  | pollOutput bufLen =>
      show finalState (program (.pollOutput bufLen)) _ = holding (.client12 (finalState _ c))
      unfold finalState
      simp only [program, pollOutput, holding, through, Auto.Call.onClient12,
        Dtls12.Client.Call.program, bind, EStateM.bind, run_get,
        Function.comp]
      cases Dtls12.Client.pollOutput bufLen c <;> rfl
  | _ => exact finalState_through (holding (.client12 c))

/-- A call on a client of DTLS 1.3. -/
theorem exec_client13 : (holding (.client13 c')).exec call = holding (.client13 (c'.exec call.onClient13)) := by
  cases call with
  | pollOutput bufLen =>
      show finalState (program (.pollOutput bufLen)) _ = holding (.client13 (finalState _ c'))
      unfold finalState
      simp only [program, pollOutput, holding, through, Auto.Call.onClient13,
        Dtls13.Client.Call.program, bind, EStateM.bind, run_get,
        Function.comp]
      cases Dtls13.Client.pollOutput bufLen c' <;> rfl
  | _ => exact finalState_through (holding (.client13 c'))

/-- Nothing happens to an instance that was lost. -/
theorem exec_lost {d : Dtls} (lost : d.inner = none) : d.exec call = d := by
  obtain ⟨inner⟩ := d
  cases lost
  cases call <;> rfl

end Calls

end Dtls

namespace DtlsServer

/-- The program of a call on a server. -/
def program : Auto.Call → DtlsServerM Unit
  | .handlePacket rng entropy packet => handlePacket rng entropy packet
  | .handleTimeout now => handleTimeout now
  | .pollOutput bufLen => do
    let _ ← pollOutput bufLen
  | .sendApplicationData data => sendApplicationData data
  | .close => close

/-- The instance after a call, whether it succeeded or not. -/
def exec (d : DtlsServer) (call : Auto.Call) : DtlsServer := finalState (program call) d

/-- `Dtls::new_auto`: a server of DTLS 1.3 in auto mode, or one of DTLS 1.2 when only PSK
suites are configured. -/
inductive Start : DtlsServer → Prop where
  | sensing (config : Config) (certificate : DtlsCertificate) (rng entropy : SeededRng)
      (now : Instant) :
      Start (holding (.server13 (.newWithEngine (.new config certificate rng) entropy now true)))
  | psk (config : Config) (rng entropy : SeededRng) (now : Instant) :
      Start (holding (.server12 (.newWithEngine (.new config .psk rng entropy) now)))

section Calls

variable {call : Auto.Call} {s : Dtls12.Server} {s' : Dtls13.Server}

/-- A call on a server of DTLS 1.2. -/
theorem exec_server12 : (holding (.server12 s)).exec call = holding (.server12 (s.exec call.onServer12)) := by
  cases call with
  | pollOutput bufLen =>
      show finalState (program (.pollOutput bufLen)) _ = holding (.server12 (finalState _ s))
      unfold finalState
      simp only [program, pollOutput, holding, through, Auto.Call.onServer12,
        Dtls12.Server.Call.program, bind, EStateM.bind, run_get,
        Function.comp]
      cases Dtls12.Server.pollOutput bufLen s <;> rfl
  | _ => exact finalState_through (holding (.server12 s))

/-- Nothing happens to an instance that was lost. -/
theorem exec_lost {d : DtlsServer} (lost : d.inner = none) : d.exec call = d := by
  obtain ⟨inner⟩ := d
  cases lost
  cases call <;> rfl

end Calls

end DtlsServer

end Dimpl
