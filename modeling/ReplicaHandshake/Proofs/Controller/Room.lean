import ReplicaHandshake.Proofs.Controller.Meeting
import ReplicaHandshake.Proofs.Handler.Room

/-!
# Full buffers yield

Frame buffers of valid settings have room for the header of a frame, and so whoever is polled in the
handshake does not get stuck for want of room: where a buffer is full, before or after it was read
into, the poll gives an event or an error (`full_buffers_yield`).
-/

namespace ReplicaHandshake

open Handler

variable {settings : Settings}

theorem Settings.headerLength_le (hvalid : settings.validate = .ok ()) :
    headerLength ≤ settings.frameBuffer := by
  unfold validate at hvalid
  split at hvalid
  · cases hvalid
  split at hvalid
  · cases hvalid
  next h => exact Nat.le_trans (by decide) (Nat.le_of_not_lt h)

namespace Connection

theorem poll_of_full {c : Connection} (hreads : c.Reads)
    (hleast : headerLength ≤ c.inbound.capacity)
    (hfull : c.inbound.buffered.length = c.inbound.capacity) :
    Task.Always poll c (fun _ polled _ => polled.event.isSome) (fun _ _ _ => True) := by
  have hroomy : c.IsRoomy := ⟨Nat.le_of_eq hfull, fun hidle => absurd hreads hidle⟩
  refine (poll_room hleast hroomy).mono ?_ fun _ _ _ _ => trivial
  rintro hs polled c' ⟨hevent, -⟩
  apply hevent
  rw [(InboundBuffer.room_eq_zero_iff hroomy.le).2 hfull]
  exact Nat.zero_le _

end Connection

namespace Controller

open InboundBuffer

variable {past entries : List Entry} {c : Controller}

/-- Whenever a handler is polled that is at work, its connections have room. -/
theorem Run.roomy {now : Instant} {h : Handler} (hrun : Run settings past c)
    (hvisits : c.Visits now entries h) (hwork : h.AtWork) :
    ∀ conn ∈ h.connections, conn.inbound.capacity = settings.frameBuffer ∧ conn.IsRoomy := by
  have hpos : 0 < settings.frameBuffer :=
    Nat.lt_of_lt_of_le (by decide) (Settings.headerLength_le hrun.valid)
  have hvisited := hrun.visited
    (P := fun table hs h => Life table hs h ∧ h.HasBuffers settings.frameBuffer ∧ h.IsRoomy)
      hvisits ?_ ?_
  · obtain ⟨table, -, hbuffers, hroomy⟩ := hvisited
    exact fun conn hconn => ⟨congrArg Prod.fst (hbuffers hwork conn hconn), hroomy hwork conn hconn⟩
  · intro peer table timeout now hs h hvalid hbegins
    exact ⟨.begins hvalid hbegins, hbegins.hasBuffers, hbegins.isRoomy hpos⟩
  · rintro table past hs h h' ⟨hlife, hbuffers, hroomy⟩ hturn
    exact ⟨hlife.turns hturn, hturn.hasBuffers hlife.sound hbuffers,
      hturn.isRoomy hlife.sound hbuffers hpos hroomy⟩

/-- However an inbound buffer is dealt with that can hold a header, there are not more bytes in it
than fit, it is said to be full exactly if there are as many, and then it has a frame or an error.
So with valid settings a connection that reads, and whose buffer is full, gives an event or an error
when it is polled.  Wherever a handler is polled in its handshake, its connections are in order: if
one has all bytes that fit, before it reads or after that, its poll gives an event or an error, and
in no case does it wait without room for more. -/
theorem full_buffers_yield :
    (∀ capacity ds, headerLength ≤ capacity → (∀ d ∈ ds, Dealing.IsModest d) →
      (dealings capacity ds).buffered.length ≤ capacity ∧
      (∀ feeder, ((dealings capacity ds).feed feeder).1 = .ok .full ↔
        (dealings capacity ds).buffered.length = capacity) ∧
      ((dealings capacity ds).buffered.length = capacity →
        (dealings capacity ds).nextFrame.1 ≠ .ok none)) ∧
    (∀ settings : Settings, settings.validate = .ok () → ∀ conn : Connection, conn.Reads →
      conn.inbound.capacity = settings.frameBuffer →
        conn.inbound.buffered.length = settings.frameBuffer →
        Task.Always Connection.poll conn (fun _ polled _ => polled.event.isSome)
          (fun _ _ _ => True)) ∧
    ∀ settings past c, Run settings past c → ∀ now entries h, c.Visits now entries h →
      h.phase.isHandshaking →
      ∀ conn ∈ h.connections, conn.inbound.capacity = settings.frameBuffer ∧
        conn.inbound.buffered.length ≤ settings.frameBuffer ∧
        Task.Always Connection.poll conn (fun hs polled conn' =>
          (conn.inbound.room ≤ (deliveredBytes hs).length → polled.event.isSome) ∧
            0 < conn'.inbound.room)
          (fun _ _ _ => True) := by
  refine ⟨fun capacity ds => dealings_never_stuck,
    fun settings hvalid conn hreads hcapacity hfull => ?_,
    fun settings past c hrun now entries h hvisits hphase conn hconn => ?_⟩
  · refine Connection.poll_of_full hreads ?_ (hfull.trans hcapacity.symm)
    rw [hcapacity]
    exact Settings.headerLength_le hvalid
  · obtain ⟨hlive, hunstopped⟩ := isLive_of_isHandshaking hphase
    obtain ⟨hcapacity, hroomy⟩ := hrun.roomy hvisits (atWork_of_live hlive hunstopped) conn hconn
    refine ⟨hcapacity, hcapacity ▸ hroomy.le, Connection.poll_room ?_ hroomy⟩
    rw [hcapacity]
    exact Settings.headerLength_le hrun.valid

section Rehearsal

open Rehearsal

/-- Small settings, with frame buffers of the least size. -/
def tightSettings : Settings :=
  { Settings.small with frameBuffer := leastFrameBuffer }

/-- A master that sends more at once than fits. -/
def floodingWorld : World where
  network :=
    { masters :=
        [(1, { inbound :=
          [.segment (Frame.bytes (.tableInfo (rehearsedInfo 5)) ++ List.replicate 64 7)] })] }

def floodedOpening : Performance World :=
  (Performance.start? world 0 tightSettings floodingWorld).get (by decide +kernel)

/-- A table of this master is added. -/
def beforeFlood : Performance World :=
  floodedOpening.goOn world (submit (.add ⟨"t", [⟨"127.0.0.1", 1⟩]⟩))

/-- The tick has come to where it polls the handlers. -/
def flooded : Performance World :=
  (beforeFlood.goOn world (drainInstructions 0)).goOn world drainDisconnections

/-- What comes of polling a connection now. -/
def floodedPoll (conn : Connection) :
    (Except Failure ConnectionPoll × Connection) × World × List Entry :=
  (Connection.poll.run.run conn).perform world flooded.outside

/-- A connection that has read as much as fits. -/
def fullConnection : Connection :=
  { Connection.new 0 .first "t" leastFrameBuffer ⟨"127.0.0.1", 1⟩ with
    state := .awaitingTableInfo
    socket := some ⟨1⟩
    inbound :=
      { capacity := leastFrameBuffer
        buffered := (Frame.bytes (.tableInfo (rehearsedInfo 5)) ++ List.replicate 64 7).take
            leastFrameBuffer } }

/-- A buffer of five bytes that is full with the header of a larger frame has an error.  A
connection that has read as much as fits hears what its master says, and so does one that reads as
much in the poll in which it comes to be connected. -/
theorem yield_rehearsed :
    ((dealings 5 [.feed fun most => (List.replicate most 2, .ok most)]).buffered.length = 5 ∧
      (dealings 5 [.feed fun most => (List.replicate most 2, .ok most)]).nextFrame.1 ≠ .ok none) ∧
    (∃ polled, (floodedPoll fullConnection).1.1 = .ok polled ∧ polled.event.isSome) ∧
    ∃ entries h conn polled, beforeFlood.controller.Visits 0 entries h ∧ h.connections = [conn] ∧
      (deliveredBytes (happenings (floodedPoll conn).2.2)).length = leastFrameBuffer ∧
      (floodedPoll conn).1.1 = .ok polled ∧ polled.event.isSome := by
  have hpolled : ∀ conn : Connection, (floodedPoll conn).1.1.isOk →
      ∃ polled, (floodedPoll conn).1.1 = .ok polled := by
    intro conn hok
    cases hresult : (floodedPoll conn).1.1 with
    | ok polled => exact ⟨polled, rfl⟩
    | error f => simp [hresult, Except.isOk, Except.toBool] at hok
  have hruns : ∀ conn : Connection, (Connection.poll.run.run conn).Runs (floodedPoll conn).2.2
      (floodedPoll conn).1 :=
    fun conn => Dialogue.perform_runs world (Connection.poll.run.run conn) flooded.outside
  refine ⟨?_, ?_, ?_⟩
  · have hdealt :
        (dealings 5 [.feed fun most => (List.replicate most 2, .ok most)]).buffered.length = 5 := by
      decide +kernel
    refine ⟨hdealt, (full_buffers_yield.1 5 _ (by decide) ?_).2.2 hdealt⟩
    simp [Dealing.IsModest]
  · obtain ⟨polled, hok⟩ := hpolled fullConnection (by decide +kernel)
    have hyields :=
      full_buffers_yield.2.1 tightSettings (by decide +kernel) fullConnection ⟨.inl rfl, rfl⟩ rfl
      (by decide +kernel) _ _ (hruns fullConnection)
    simp only [hok] at hyields
    exact ⟨polled, hok, hyields⟩
  · have hseen : flooded.controller.registry.live.map
        (fun h => (h.phase, h.connections.map fun conn =>
        (conn.inbound.room, (deliveredBytes (happenings (floodedPoll conn).2.2)).length,
          (floodedPoll conn).1.1.isOk))) =
        [(.initializing, [(leastFrameBuffer, leastFrameBuffer, true)])] := by
      decide +kernel
    obtain ⟨h, after, hlive, hh, -⟩ := List.map_eq_cons_iff.1 hseen
    obtain ⟨hphase, hconnections⟩ := Prod.mk.inj hh
    obtain ⟨conn, rest, hconnections, hconn, hrest⟩ := List.map_eq_cons_iff.1 hconnections
    obtain ⟨hroom, hconn⟩ := Prod.mk.inj hconn
    obtain ⟨hdelivered, hok⟩ := Prod.mk.inj hconn
    obtain rfl := List.map_eq_nil_iff.1 hrest
    obtain ⟨polled, hok⟩ := hpolled conn hok
    have hopening : Performance.start? world 0 tightSettings floodingWorld = some floodedOpening :=
      (Option.some_get _).symm
    have hrun : Run tightSettings beforeFlood.past beforeFlood.controller :=
      Performance.run_submit (Performance.of_start? hopening) _
    obtain ⟨entries, -, hvisits⟩ := Performance.visits_first hlive
    have hyields := full_buffers_yield.2.2 _ _ _ hrun 0 entries h hvisits (by rw [hphase]; rfl) conn
      (by rw [hconnections]; exact List.mem_singleton_self conn)
    have hpoll := hyields.2.2 _ _ (hruns conn)
    simp only [hok] at hpoll
    exact ⟨entries, h, conn, polled, hvisits, hconnections, hdelivered, hok,
      hpoll.1 (by rw [hroom, hdelivered])⟩

end Rehearsal

end Controller

end ReplicaHandshake
