import Dimpl.Dtls12.Engine.Drain
import Dimpl.Dtls13.Engine.Drain
import Dimpl.Dtls13.Exchange
import Dimpl.EndpointDrain

/-!
# Room in the receive queue

Once the handshake is over, application data passes through the receive queue. What the
caller has taken leaves the queue at the front only, so a record in front of it that nobody
will ever handle keeps it there.
-/

namespace Dimpl

open Nom Program

/-- Data is released, nothing holds it up, and there is room behind what else there is. -/
def Dtls13.Engine.Roomy (e : Dtls13.Engine) : Prop :=
  e.releaseAppData = true ∧ e.Unclogged ∧ e.leftover.length < e.config.maxQueueRx

def Dtls12.Engine.Roomy (e : Dtls12.Engine) : Prop :=
  e.releaseAppData = true ∧ e.Unclogged ∧ e.leftover.length < e.config.maxQueueRx

section Rounds

variable {bufLen : Nat}

/-- After a drain from a state with room there is no data left and the next datagram finds
room. -/
theorem Dtls13.drained_accepts {e e' : Dtls13.Engine} {now t : Instant} (roomy : e.Roomy)
    (drained : Drained (Dtls13.Engine.pollOutput bufLen now) e t e') :
    e'.NoData ∧ ∀ datagram e'', Dtls13.receivePacket datagram e' ≠
      .error (.fatal .receiveQueueFull) e'' := by
  obtain ⟨released, unclogged, room⟩ := roomy
  refine ⟨(drained_noData_iff drained released).mpr unclogged, fun datagram e'' full => ?_⟩
  have outcome := @receivePacket_full e' datagram
  rw [Post, full] at outcome
  have tooLong := outcome.resolve_left id
  rw [drained_length drained released, (drained_backlog drained released).1.config] at tooLong
  exact absurd room (Nat.not_lt.mpr tooLong)

theorem Dtls12.drained_accepts {e e' : Dtls12.Engine} {now t : Instant} (roomy : e.Roomy)
    (drained : Drained (Dtls12.Engine.pollOutput bufLen now) e t e') :
    e'.NoData ∧ ∀ datagram e'', Dtls12.receivePacket datagram e' ≠
      .error (.fatal .receiveQueueFull) e'' := by
  obtain ⟨released, unclogged, room⟩ := roomy
  refine ⟨(drained_noData_iff drained released).mpr unclogged, fun datagram e'' full => ?_⟩
  have outcome := @receivePacket_full e' datagram
  rw [Post, full] at outcome
  have tooLong := outcome.resolve_left id
  rw [drained_length drained released, (drained_backlog drained released).1.config] at tooLong
  exact absurd room (Nat.not_lt.mpr tooLong)

end Rounds

/-- Once data is released, a drain leaves no application data in the receive queue exactly
when there is none behind or beside a record of another kind that waits to be handled. In
rounds of one datagram and one drain that all start so, and with fewer datagrams held up
than the queue has room for, every datagram finds room. -/
theorem drained_unclogged (bufLen : Nat) (t : Instant) :
    (∀ c c' : Dtls13.Client, c.engine.releaseAppData = true →
      Drained (Dtls13.Client.pollOutput bufLen) c t c' → (c'.engine.NoData ↔ c.engine.Unclogged)) ∧
    (∀ s s' : Dtls13.Server, s.engine.releaseAppData = true →
      Drained (Dtls13.Server.pollOutput bufLen) s t s' → (s'.engine.NoData ↔ s.engine.Unclogged)) ∧
    (∀ c c' : Dtls12.Client, c.engine.releaseAppData = true →
      Drained (Dtls12.Client.pollOutput bufLen) c t c' → (c'.engine.NoData ↔ c.engine.Unclogged)) ∧
    (∀ s s' : Dtls12.Server, s.engine.releaseAppData = true →
      Drained (Dtls12.Server.pollOutput bufLen) s t s' → (s'.engine.NoData ↔ s.engine.Unclogged)) ∧
    (∀ e e', Rounds Dtls13.receivePacket (Dtls13.Engine.pollOutput bufLen) Dtls13.Engine.Roomy e e' →
      e'.NoData ∧ ∀ datagram e'', Dtls13.receivePacket datagram e' ≠
        .error (.fatal .receiveQueueFull) e'') ∧
    (∀ e e', Rounds Dtls12.receivePacket (Dtls12.Engine.pollOutput bufLen) Dtls12.Engine.Roomy e e' →
      e'.NoData ∧ ∀ datagram e'', Dtls12.receivePacket datagram e' ≠
        .error (.fatal .receiveQueueFull) e'') := by
  refine ⟨fun c c' released drained => ?_, fun s s' released drained => ?_,
    fun c c' released drained => ?_, fun s s' released drained => ?_,
    fun e e' rounds => ?_, fun e e' rounds => ?_⟩
  · exact Dtls13.drained_noData_iff (Dtls13.Client.drained_engine drained) released
  · exact Dtls13.drained_noData_iff (Dtls13.Server.drained_engine drained) released
  · exact Dtls12.drained_noData_iff (Dtls12.Client.drained_engine drained) released
  · exact Dtls12.drained_noData_iff (Dtls12.Server.drained_engine drained) released
  · cases rounds with
    | drain ready drained => exact Dtls13.drained_accepts ready drained
    | round _ ready drained => exact Dtls13.drained_accepts ready drained
  · cases rounds with
    | drain ready drained => exact Dtls12.drained_accepts ready drained
    | round _ ready drained => exact Dtls12.drained_accepts ready drained

namespace Dtls13

/-- A plaintext fragment of a hello with message number 9, from nobody in particular. -/
def forgedFragment : Bytes :=
  [22, 254, 253, 0, 0, 0, 0, 0, 0, 0, 99, 0, 13, 1, 0, 0, 1, 0, 9, 0, 0, 0, 0, 0, 1, 0]

/-- Two endpoints that connect, and the server says "hi". -/
def Exchange.greeted : Exchange :=
  run Exchange.exec (Exchange.sample { Sample.config with mtu := 150 } Sample.certificate)
    (Exchange.flights ++ (List.range 4).map .toServer ++
      [.server (.sendApplicationData [104, 105])] ++ List.replicate 6 (.server (.pollOutput 2000)))

/-- A client with its hello sent that gets the fragment, then all that the server sends, and
takes what there is for it. -/
def Client.clogged : Client :=
  run Client.exec (Exchange.sample { Sample.config with mtu := 150 } Sample.certificate).client
    ([.handleTimeout 0, .pollOutput 2000, .handlePacket forgedFragment] ++
      Exchange.greeted.fromServer.map .handlePacket ++ List.replicate 6 (.pollOutput 2000))

end Dtls13

/-- The data that client has taken stays in its queue. -/
theorem not_drained_unclogged :
    ∃ (c c' : Dtls13.Client) (t : Instant), c.Reached ∧ c.engine.releaseAppData = true ∧
      Drained (Dtls13.Client.pollOutput 2000) c t c' ∧ ¬c'.engine.NoData := by
  have timeout : value? (Dtls13.Client.pollOutput 2000) Dtls13.Client.clogged = some (.timeout 40000000000) := by
    decide +kernel
  have facts : Dtls13.Client.clogged.engine.releaseAppData = true ∧
      ((finalState (Dtls13.Client.pollOutput 2000) Dtls13.Client.clogged).engine.queueRx.any
        fun item => item.records.any Dtls13.Record.isData) = true := by
    decide +kernel
  refine ⟨_, _, _, ⟨_, _, .fresh .., rfl⟩, facts.1, .last (ok_of_value timeout), fun noData => ?_⟩
  obtain ⟨item, inQueue, hasData⟩ := List.any_eq_true.mp facts.2
  obtain ⟨r, inItem, isData⟩ := List.any_eq_true.mp hasData
  rw [noData item inQueue r inItem] at isData
  cases isData

end Dimpl
