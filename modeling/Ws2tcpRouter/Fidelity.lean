import Ws2tcpRouter.Lib.Run
import Ws2tcpRouter.Relay

/-!
# The relay loses nothing

While a loop goes on, what it wrote to the upstream is what the client's
messages carried, and the frames it sent are what it read from the upstream, in
order and once each. Only a failed write or the end of one side ends the loop.
The event that does adds a `Close`, a shutdown or nothing to what went out, and
carries nothing itself unless its write failed.
-/

namespace Ws2tcpRouter

-- ---------------------------------------------------------------------------
-- What comes in, and what goes out
-- ---------------------------------------------------------------------------

/-- What a message carries for the upstream. -/
def WsRead.payload : WsRead → Option Bytes
  | .message (.binary bytes) => some bytes
  | .message (.text text) => some (Text.utf8 text)
  | _ => none

/-- A write that fails ends the loop, with an error. -/
def writeEnds (done : Bool) : Option Bool := if done then none else some false

/-- Whether what the client sent ends the loop, and if so whether well; a client
that closes ends it as `closed` says. -/
def WsRead.ends (closed done : Bool) : WsRead → Option Bool
  | .message (.binary _) | .message (.text _) | .message (.ping _) => writeEnds done
  | .message (.pong _) | .message (.frame _) => none
  | .message (.close _) | .ended => some closed
  | .error => some false

/-- What the events of a loop stand for: what each carries to the upstream and
to the client, whether it ends the loop (and if so whether well), given that its
write goes through or not, and what it then puts out. -/
structure Meaning (ε : Type) where
  payload : ε → Option Bytes
  received : ε → Option Bytes
  ends : ε → Bool → Option Bool
  ending : ε → List Output

namespace TcpEvent

def payload : TcpEvent size → Option Bytes
  | .websocket read => read.payload
  | .tcp _ => none

/-- A read of no bytes is the end of the upstream's. -/
def received : TcpEvent size → Option Bytes
  | .tcp (some read) => if read.val = [] then none else some read.val
  | _ => none

/-- Where the client closes, the upstream is shut down. -/
def ends : TcpEvent size → Bool → Option Bool
  | .websocket read, done => read.ends done done
  | .tcp none, _ => some false
  | .tcp (some read), done => if read.val = [] then some true else writeEnds done

def ending : TcpEvent size → List Output
  | .websocket (.message (.close _)) | .websocket .ended => [.shutdown]
  | .tcp (some read) => if read.val = [] then [.client (.close none)] else []
  | _ => []

def meaning : Meaning (TcpEvent size) := ⟨payload, received, ends, ending⟩

end TcpEvent

namespace UdpEvent

def payload : UdpEvent → Option Bytes
  | .websocket read => read.payload
  | _ => none

def received : UdpEvent → Option Bytes
  | .udp (some datagram) => some datagram.val
  | _ => none

def ends : UdpEvent → Bool → Option Bool
  | .elapsed, _ => some true
  | .websocket read, done => read.ends true done
  | .udp none, _ => some false
  | .udp (some _), done => writeEnds done

def ending : UdpEvent → List Output
  | .elapsed => [.client (.close none)]
  | _ => []

def meaning : Meaning UdpEvent := ⟨payload, received, ends, ending⟩

end UdpEvent

def written (outputs : List Output) : List Bytes :=
  outputs.filterMap fun
    | .upstream bytes => some bytes
    | _ => none

def frames (outputs : List Output) : List Bytes :=
  outputs.filterMap fun
    | .client (.binary bytes) => some bytes
    | _ => none

@[simp] theorem written_append : written (xs ++ ys) = written xs ++ written ys :=
  List.filterMap_append

@[simp] theorem frames_append : frames (xs ++ ys) = frames xs ++ frames ys :=
  List.filterMap_append

def Output.inside : Output → Bool
  | .shutdown | .client (.close _) => false
  | _ => true

-- ---------------------------------------------------------------------------
-- One task
-- ---------------------------------------------------------------------------

namespace Task

def outputs : Task → List Output
  | .upstream bytes _ => [.upstream bytes]
  | .client message _ => [.client message]
  | .shutdown _ => [.shutdown]
  | .farewell => [.client (.close none)]
  | .next | .stop | .fail _ => []

def continues : Task → Bool
  | .upstream .. | .client .. | .next => true
  | .shutdown _ | .farewell | .stop | .fail _ => false

/-- Whether the task ends the loop, and if so whether well. -/
def ends : Task → Bool → Option Bool
  | .upstream .., done | .client .., done => writeEnds done
  | .next, _ => none
  | .shutdown _, done => some done
  | .farewell, _ | .stop, _ => some true
  | .fail _, _ => some false

/-- The task is right for an event that carries `payload` to the upstream and
`received` to the client, ends the loop as `ends` says, and puts out `ending`
where it does. -/
structure Meets (task : Task) (payload received : Option Bytes) (ends : Bool → Option Bool)
    (ending : List Output) : Prop where
  written : written task.outputs = payload.toList
  frames : frames task.outputs = received.toList
  ends : ∀ done, task.ends done = ends done
  inside : task.continues → ending = [] ∧ ∀ output ∈ task.outputs, output.inside
  ending : ¬ task.continues → task.outputs = ending

namespace Meets

theorem upstream : (Task.upstream bytes context).Meets (some bytes) none writeEnds [] := by
  constructor <;> simp [outputs, Task.ends, continues, Output.inside, Ws2tcpRouter.written,
    Ws2tcpRouter.frames]

theorem binary :
    (Task.client (.binary bytes) context).Meets none (some bytes) writeEnds [] := by
  constructor <;> simp [outputs, Task.ends, continues, Output.inside, Ws2tcpRouter.written,
    Ws2tcpRouter.frames]

theorem pong : (Task.client (.pong payload) context).Meets none none writeEnds [] := by
  constructor <;> simp [outputs, Task.ends, continues, Output.inside, Ws2tcpRouter.written,
    Ws2tcpRouter.frames]

theorem next : Task.next.Meets none none (fun _ => none) [] := by
  constructor <;> simp [outputs, Task.ends, continues, Ws2tcpRouter.written,
    Ws2tcpRouter.frames]

theorem shutdown : (Task.shutdown context).Meets none none some [.shutdown] := by
  constructor <;> simp [outputs, Task.ends, continues, Ws2tcpRouter.written,
    Ws2tcpRouter.frames]

theorem farewell :
    Task.farewell.Meets none none (fun _ => some true) [.client (.close none)] := by
  constructor <;> simp [outputs, Task.ends, continues, Ws2tcpRouter.written,
    Ws2tcpRouter.frames]

theorem stop : Task.stop.Meets none none (fun _ => some true) [] := by
  constructor <;> simp [outputs, Task.ends, continues, Ws2tcpRouter.written,
    Ws2tcpRouter.frames]

theorem fail : (Task.fail context).Meets none none (fun _ => some false) [] := by
  constructor <;> simp [outputs, Task.ends, continues, Ws2tcpRouter.written,
    Ws2tcpRouter.frames]

/-- An event that ends the loop though its write goes through carries nothing. -/
theorem carries_nothing {task : Task} {ends : Bool → Option Bool} {ending : List Output}
    (h : task.Meets payload received ends ending) (ended : ends true ≠ none) :
    payload = none ∧ received = none := by
  have written := h.written
  have frames := h.frames
  rw [← h.ends] at ended
  cases task with
  | upstream | client | next => exact absurd rfl ended
  | shutdown | farewell | stop | fail =>
    exact ⟨Option.toList_eq_nil_iff.mp written.symm, Option.toList_eq_nil_iff.mp frames.symm⟩

end Meets

end Task

namespace Relay

theorem perform_result {σ : Relay} (running : σ.result = none) :
    (σ.perform done task).result.map Except.isOk = task.ends done := by
  cases task <;> cases done <;>
    simp [running, perform, put, finish, Task.ends, writeEnds, Except.isOk, Except.toBool]

theorem perform_goes {σ : Relay} (h : (σ.perform done task).result = none) :
    task.continues ∧ (σ.perform done task).outputs = σ.outputs ++ task.outputs := by
  cases task <;> cases done <;>
    simp_all [perform, put, finish, Task.continues, Task.outputs]

theorem perform_ends {σ : Relay} (running : σ.result = none)
    (h : (σ.perform done task).result ≠ none) :
    (σ.perform done task).outputs =
      σ.outputs ++ if done ∧ ¬ task.continues then task.outputs else [] := by
  cases task <;> cases done <;>
    simp_all [perform, put, finish, Task.continues, Task.outputs]

end Relay

-- ---------------------------------------------------------------------------
-- A whole run
-- ---------------------------------------------------------------------------

namespace RelayLoop

/-- `handled` is all of `events`, none of which ends the loop, or what comes
before the one that does. That event decides how the loop ends, puts out its
`ending` when its write goes through, and then carries nothing itself. -/
structure Course (loop : RelayLoop ε) (meaning : Meaning ε)
    (events handled : List (ε × Bool)) : Prop where
  running : (loop.run handled).result = none
  inside : ∀ output ∈ (loop.run handled).outputs, output.inside
  goes : ∀ event ∈ handled, meaning.ends event.1 event.2 = none
  rest : events = handled ∨ ∃ event done more ok, events = handled ++ (event, done) :: more ∧
    meaning.ends event done = some ok ∧
    (loop.run events).result.map Except.isOk = some ok ∧
    (done → meaning.payload event = none ∧ meaning.received event = none) ∧
    (loop.run events).outputs =
      (loop.run handled).outputs ++ if done then meaning.ending event else []

/-- What a loop does with an event does not depend on the buffer. -/
def Relays (loop : RelayLoop ε) (meaning : Meaning ε) : Prop :=
  ∀ buffer event, (loop.task buffer event).2.Meets (meaning.payload event)
    (meaning.received event) (meaning.ends event) (meaning.ending event)

variable {loop : RelayLoop ε}

theorem step_ended (h : σ.result ≠ none) : loop.step σ event = σ := by
  unfold step
  rw [if_pos (Option.isSome_iff_ne_none.mpr h)]

theorem run_append_singleton :
    loop.run (events ++ [event]) = loop.step (loop.run events) event := by
  unfold run
  rw [List.foldl_append]
  rfl

theorem step_goes (h : (loop.step σ event).result = none) :
    σ.result = none ∧ (loop.task σ.buffer event.1).2.continues ∧
      (loop.step σ event).outputs = σ.outputs ++ (loop.task σ.buffer event.1).2.outputs := by
  have running : σ.result = none := by
    by_contra ended
    rw [step_ended ended] at h
    exact ended h
  unfold step at h ⊢
  simp only [running, Option.isSome_none, Bool.false_eq_true, if_false] at h ⊢
  exact ⟨trivial, Relay.perform_goes h⟩

theorem step_ends (running : σ.result = none) (h : (loop.step σ event).result ≠ none) :
    (loop.step σ event).outputs = σ.outputs ++
      if event.2 ∧ ¬ (loop.task σ.buffer event.1).2.continues
      then (loop.task σ.buffer event.1).2.outputs else [] := by
  unfold step at h ⊢
  simp only [running, Option.isSome_none, Bool.false_eq_true, if_false] at h ⊢
  exact Relay.perform_ends rfl h

theorem step_result (running : σ.result = none) :
    (loop.step σ event).result.map Except.isOk =
      (loop.task σ.buffer event.1).2.ends event.2 := by
  unfold step
  simp only [running, Option.isSome_none, Bool.false_eq_true, if_false]
  exact Relay.perform_result rfl

variable {meaning : Meaning ε}

namespace Relays

variable (h : loop.Relays meaning)
include h

theorem step_result (event : ε × Bool) (running : σ.result = none) :
    (loop.step σ event).result.map Except.isOk = meaning.ends event.1 event.2 :=
  (RelayLoop.step_result running).trans ((h _ _).ends _)

/-- While the loop goes on: by induction on the events, the last one first. -/
theorem goes (running : (loop.run events).result = none) :
    Ws2tcpRouter.written (loop.run events).outputs = events.filterMap (meaning.payload ·.1) ∧
      Ws2tcpRouter.frames (loop.run events).outputs = events.filterMap (meaning.received ·.1) ∧
      (∀ output ∈ (loop.run events).outputs, output.inside) ∧
      ∀ event ∈ events, meaning.ends event.1 event.2 = none := by
  induction events using List.reverseRecOn with
  | nil => exact ⟨rfl, rfl, nofun, nofun⟩
  | append_singleton events event ih =>
    rw [run_append_singleton] at running ⊢
    obtain ⟨before, continues, outputs⟩ := step_goes running
    obtain ⟨ih_written, ih_frames, ih_inside, ih_goes⟩ := ih before
    have goes := h.step_result event before
    rw [running] at goes
    rw [outputs]
    refine ⟨?_, ?_, ?_, ?_⟩
    · rw [written_append, ih_written, (h _ _).written, List.filterMap_append]
      cases last : meaning.payload event.1 <;> simp [last]
    · rw [frames_append, ih_frames, (h _ _).frames, List.filterMap_append]
      cases last : meaning.received event.1 <;> simp [last]
    · intro output mem
      rcases List.mem_append.mp mem with mem | mem
      · exact ih_inside output mem
      · exact ((h _ _).inside continues).2 output mem
    · intro earlier mem
      rcases List.mem_append.mp mem with mem | mem
      · exact ih_goes earlier mem
      · rw [List.mem_singleton.mp mem]
        exact goes.symm

/-- The step that ends a loop. -/
theorem step_ends (running : σ.result = none)
    (ended : (loop.step σ (event, done)).result ≠ none) :
    (∃ ok, meaning.ends event done = some ok ∧
      (loop.step σ (event, done)).result.map Except.isOk = some ok) ∧
    (done → meaning.payload event = none ∧ meaning.received event = none) ∧
    (loop.step σ (event, done)).outputs =
      σ.outputs ++ if done then meaning.ending event else [] := by
  have result := h.step_result (event, done) running
  obtain ⟨value, some_value⟩ := Option.ne_none_iff_exists'.mp ended
  rw [some_value] at result
  refine ⟨⟨_, result.symm, by rw [some_value]; rfl⟩, ?_, ?_⟩
  · rintro rfl
    apply (h σ.buffer event).carries_nothing
    rw [← result]
    exact Option.some_ne_none _
  · rw [RelayLoop.step_ends running ended]
    congr 1
    by_cases continues : (loop.task σ.buffer event).2.continues
    · simp [continues, ((h _ _).inside continues).1]
    · simp [continues, (h _ _).ending continues]

theorem course (events : List (ε × Bool)) :
    ∃ handled, loop.Course meaning events handled ∧
      Ws2tcpRouter.written (loop.run handled).outputs =
        handled.filterMap (meaning.payload ·.1) ∧
      Ws2tcpRouter.frames (loop.run handled).outputs =
        handled.filterMap (meaning.received ·.1) := by
  obtain ⟨handled, rest, rfl, running, tail⟩ :=
    @Lib.foldl_split _ _ loop.init loop.step (·.result ≠ none) (fun _ _ => step_ended)
      (fun ended => ended rfl) events
  have running : (loop.run handled).result = none := not_not.mp running
  obtain ⟨all_written, all_frames, inside, goes⟩ := h.goes running
  refine ⟨handled, ⟨running, inside, goes, ?_⟩, all_written, all_frames⟩
  rcases tail with rfl | ⟨⟨event, done⟩, more, rfl, ended, last⟩
  · exact .inl (List.append_nil handled)
  · have last : loop.run (handled ++ (event, done) :: more) =
        loop.step (loop.run handled) (event, done) := last
    obtain ⟨⟨ok, ends, result⟩, carries, outputs⟩ := h.step_ends running ended
    rw [last]
    exact .inr ⟨event, done, more, ok, rfl, ends, result, carries, outputs⟩

end Relays

end RelayLoop

-- ---------------------------------------------------------------------------
-- The two loops
-- ---------------------------------------------------------------------------

@[simp] theorem fill_take (buffer bytes : Bytes) :
    (fill buffer bytes).take bytes.length = bytes :=
  List.take_left

theorem proxyTcp_relays (size : Nat) : (proxyTcp size).Relays TcpEvent.meaning := by
  intro buffer event
  cases event with
  | websocket read =>
    cases read with
    | message message =>
      cases message with
      | binary | text => exact .upstream
      | ping => exact .pong
      | pong | frame => exact .next
      | close => exact .shutdown
    | error => exact .fail
    | ended => exact .shutdown
  | tcp read =>
    cases read with
    | none => exact .fail
    | some read =>
      by_cases empty : read.val = []
      · have ends : TcpEvent.ends (.tcp (some read)) = fun _ => some true :=
          funext fun _ => if_pos empty
        simp [proxyTcp, empty, TcpEvent.meaning, TcpEvent.payload, TcpEvent.received, ends,
          TcpEvent.ending, Task.Meets.farewell]
      · have ends : TcpEvent.ends (.tcp (some read)) = writeEnds :=
          funext fun _ => if_neg empty
        simp [proxyTcp, empty, TcpEvent.meaning, TcpEvent.payload, TcpEvent.received, ends,
          TcpEvent.ending, Task.Meets.binary]

theorem Datagram.take_all (datagram : Datagram) :
    datagram.val.take udpDatagramBuffer = datagram.val := by
  apply List.take_of_length_le
  have := datagram.property
  unfold udpDatagramBuffer
  omega

theorem proxyUdp_relays : proxyUdp.Relays UdpEvent.meaning := by
  intro buffer event
  cases event with
  | elapsed => exact .farewell
  | websocket read =>
    cases read with
    | message message =>
      cases message with
      | binary | text => exact .upstream
      | ping => exact .pong
      | pong | frame => exact .next
      | close => exact .stop
    | error => exact .fail
    | ended => exact .stop
  | udp read =>
    cases read with
    | none => exact .fail
    | some datagram =>
      simp only [proxyUdp, datagram.take_all, fill_take]
      exact .binary

theorem relay_fidelity :
    (∀ (size : Nat) (events : List (TcpEvent size × Bool)),
      ∃ handled, (proxyTcp size).Course TcpEvent.meaning events handled ∧
        (written ((proxyTcp size).run handled).outputs).flatten =
          (handled.filterMap (·.1.payload)).flatten ∧
        (frames ((proxyTcp size).run handled).outputs).flatten =
          (handled.filterMap (·.1.received)).flatten) ∧
    ∀ events : List (UdpEvent × Bool),
      ∃ handled, proxyUdp.Course UdpEvent.meaning events handled ∧
        written (proxyUdp.run handled).outputs = handled.filterMap (·.1.payload) ∧
        frames (proxyUdp.run handled).outputs = handled.filterMap (·.1.received) := by
  refine ⟨?_, ?_⟩
  · intro size events
    obtain ⟨handled, course, all_written, all_frames⟩ := (proxyTcp_relays size).course events
    exact ⟨handled, course, congrArg List.flatten all_written, congrArg List.flatten all_frames⟩
  · intro events
    exact proxyUdp_relays.course events

end Ws2tcpRouter
