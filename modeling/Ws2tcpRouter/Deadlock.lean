import Ws2tcpRouter.Lib.Pipe
import Ws2tcpRouter.Lib.Run
import Ws2tcpRouter.Fidelity

/-!
# Client, router and upstream

`proxy_tcp` between two peers, with bounded pipes in both directions. A branch
of the `select!` awaits its write before the next turn of the loop: while a
payload waits for room toward the upstream, nothing is read from it.
-/

namespace Ws2tcpRouter

open Lib (Pipe runFrom Reaches)

structure Limits where
  buffer : Nat
  fromClient : Nat
  toClient : Nat
  toUpstream : Nat
  fromUpstream : Nat

inductive Phase
  | selecting
  /-- `write_all`, with what it has left to write. -/
  | writing (rest : Bytes)
  | sending (message : Message)
  | left
  deriving DecidableEq, Repr

def Task.phase : Task → Phase
  | .upstream bytes _ => .writing bytes
  | .client message _ => .sending message
  | .next => .selecting
  | .shutdown _ | .farewell | .stop | .fail _ => .left

structure Session (limits : Limits) where
  fromClient : Pipe WsRead limits.fromClient
  toClient : Pipe Message limits.toClient
  toUpstream : Pipe UInt8 limits.toUpstream
  fromUpstream : Pipe UInt8 limits.fromUpstream
  buffer : Bytes
  phase : Phase
  /-- What the upstream has yet to write. -/
  pending : Bytes
  clientClosed : Bool
  upstreamClosed : Bool
  deriving DecidableEq, Repr

/-- Whether an upstream that has `pending` to write reads `read`, and answers
it with `reply`. -/
abbrev Upstream := (pending read reply : Bytes) → Bool

/-- It writes what it has read before it reads again. -/
def echo : Upstream := fun pending read reply => pending = [] && reply = read

inductive RelayAction
  | takeMessage
  | takeBytes
  | write
  | send
  | clientSends (read : WsRead)
  | clientReceives
  | upstreamReads (count : Nat) (reply : Bytes)
  | upstreamWrites
  | upstreamCloses
  deriving DecidableEq, Repr

def RelayAction.router : List RelayAction := [.takeMessage, .takeBytes, .write, .send]

def WsRead.closes : WsRead → Bool
  | .message (.close _) | .error | .ended => true
  | .message _ => false

theorem Task.payload_of_writing {read : WsRead}
    (h : ((proxyTcp size).task buffer (.websocket read)).2.phase = .writing rest) :
    read.payload = some rest := by
  cases read with
  | message message => cases message <;> cases h <;> rfl
  | error => cases h
  | ended => cases h

theorem Task.closes_of_left {read : WsRead}
    (h : ((proxyTcp size).task buffer (.websocket read)).2.phase = .left) :
    read.closes := by
  cases read with
  | message message =>
    cases message with
    | close => rfl
    | _ => cases h
  | error => rfl
  | ended => rfl

theorem Task.phase_read {read : { bytes : Bytes // bytes.length ≤ size }} :
    ((proxyTcp size).task buffer (.tcp (some read))).2.phase =
      if read.val = [] then .left else .sending (.binary read.val) := by
  by_cases empty : read.val = []
  · simp [proxyTcp, empty, Task.phase]
  · simp [proxyTcp, empty, Task.phase]

theorem Task.writing_of_payload {read : WsRead} (h : read.payload = some bytes) :
    ((proxyTcp size).task buffer (.websocket read)).2.phase = .writing bytes := by
  cases read with
  | message message => cases message <;> cases h <;> rfl
  | error => cases h
  | ended => cases h

namespace Session

variable {limits : Limits}

def init (limits : Limits) : Session limits where
  fromClient := .empty
  toClient := .empty
  toUpstream := .empty
  fromUpstream := .empty
  buffer := List.replicate limits.buffer 0
  phase := .selecting
  pending := []
  clientClosed := false
  upstreamClosed := false

def take (σ : Session limits) (event : TcpEvent limits.buffer) : Session limits :=
  let (buffer, task) := (proxyTcp limits.buffer).task σ.buffer event
  { σ with buffer, phase := task.phase }

def takeMessage (σ : Session limits) : Option (Session limits) :=
  match σ.phase, σ.fromClient.read 1 with
  | .selecting, ([read], fromClient) => some ({ σ with fromClient }.take (.websocket read))
  | _, _ => none

/-- A read waits for a byte or for the end of the upstream's. -/
def takeBytes (σ : Session limits) : Option (Session limits) :=
  if σ.phase = .selecting ∧ (σ.fromUpstream.content ≠ [] ∨ σ.upstreamClosed) then
    let read := σ.fromUpstream.read limits.buffer
    some ({ σ with fromUpstream := read.2 }.take
      (.tcp (some ⟨read.1, List.length_take_le _ _⟩)))
  else none

/-- `write_all` is over once nothing is left. -/
def write (σ : Session limits) : Option (Session limits) :=
  match σ.phase with
  | .writing rest =>
    if rest = [] then some { σ with phase := .selecting }
    else if σ.toUpstream.room = 0 then none
    else
      let (toUpstream, rest) := σ.toUpstream.write rest
      some { σ with toUpstream, phase := .writing rest }
  | _ => none

def send (σ : Session limits) : Option (Session limits) :=
  match σ.phase with
  | .sending message =>
    if σ.toClient.room = 0 then none
    else some { σ with toClient := (σ.toClient.write [message]).1, phase := .selecting }
  | _ => none

def step (upstream : Upstream) (σ : Session limits) : RelayAction → Option (Session limits)
  | .takeMessage => σ.takeMessage
  | .takeBytes => σ.takeBytes
  | .write => σ.write
  | .send => σ.send
  | .clientSends read =>
    if σ.clientClosed ∨ σ.fromClient.room = 0 then none
    else
      some { σ with
        fromClient := (σ.fromClient.write [read]).1
        clientClosed := read.closes }
  | .clientReceives =>
    if σ.toClient.content = [] then none
    else some { σ with toClient := (σ.toClient.read 1).2 }
  | .upstreamReads count reply =>
    let (read, toUpstream) := σ.toUpstream.read count
    if upstream σ.pending read reply then
      some { σ with toUpstream, pending := σ.pending ++ reply }
    else none
  | .upstreamWrites =>
    if σ.upstreamClosed ∨ σ.fromUpstream.room = 0 then none
    else
      let (fromUpstream, pending) := σ.fromUpstream.write σ.pending
      some { σ with fromUpstream, pending }
  | .upstreamCloses =>
    if σ.upstreamClosed ∨ σ.pending ≠ [] then none else some { σ with upstreamClosed := true }

end Session

namespace Session

-- ---------------------------------------------------------------------------
-- Progress
-- ---------------------------------------------------------------------------

variable {limits : Limits}

def enabled (σ : Session limits) : Bool :=
  σ.takeMessage.isSome || σ.takeBytes.isSome || σ.write.isSome || σ.send.isSome

/-- There are bytes to read, and a frame can be sent. -/
structure Waiting (σ : Session limits) : Prop where
  clientOpen : ¬ σ.clientClosed
  upstreamOpen : ¬ σ.upstreamClosed
  bytes : σ.fromUpstream.content ≠ []
  ready : 0 < σ.toClient.room

/-- The router waits for the upstream to read. -/
structure Stalled (σ : Session limits) : Prop where
  writing : ∃ rest, σ.phase = .writing rest ∧ rest ≠ []
  full : σ.toUpstream.room = 0

/-- And the upstream waits for the router to read. -/
structure MutualWait (σ : Session limits) : Prop extends σ.Stalled where
  pending : σ.pending ≠ []
  fromUpstream : σ.fromUpstream.room = 0

/-- A message is taken up only when its payload fits the room toward the
upstream. -/
def fits (σ : Session limits) : RelayAction → Bool
  | .takeMessage =>
    (σ.fromClient.content.head?.bind WsRead.payload).all
      fun payload => payload.length ≤ σ.toUpstream.room
  | _ => true

/-- What holds while the payloads taken up fit. -/
structure Served (σ : Session limits) : Prop where
  fits : ∀ rest, σ.phase = .writing rest → rest.length ≤ σ.toUpstream.room
  left : σ.phase = .left → σ.clientClosed ∨ σ.upstreamClosed
  closes : ∀ read ∈ σ.fromClient.content, read.closes → σ.clientClosed

theorem served_init : (init limits).Served :=
  ⟨nofun, nofun, nofun⟩

theorem takeMessage_eq {σ τ : Session limits} (h : σ.takeMessage = some τ) :
    ∃ read fromClient, σ.phase = .selecting ∧ σ.fromClient.content = read :: fromClient.content ∧
      τ = { σ with fromClient }.take (.websocket read) := by
  unfold takeMessage at h
  split at h
  next selecting front =>
    rename_i read fromClient
    refine ⟨read, fromClient, selecting, ?_, (Option.some.inj h).symm⟩
    have content : (σ.fromClient.read 1).1 ++ (σ.fromClient.read 1).2.content =
        σ.fromClient.content := Pipe.read_content
    rw [front] at content
    exact content.symm
  next => cases h

theorem takeBytes_eq {σ τ : Session limits} (h : σ.takeBytes = some τ) :
    σ.phase = .selecting ∧ (σ.fromUpstream.content ≠ [] ∨ σ.upstreamClosed) ∧
      τ = { σ with fromUpstream := (σ.fromUpstream.read limits.buffer).2 }.take
        (.tcp (some ⟨(σ.fromUpstream.read limits.buffer).1, List.length_take_le _ _⟩)) := by
  unfold takeBytes at h
  split at h
  next ready => exact ⟨ready.1, ready.2, (Option.some.inj h).symm⟩
  next => cases h

theorem write_eq {σ τ : Session limits} (h : σ.write = some τ) :
    ∃ rest, σ.phase = .writing rest ∧
      (rest = [] ∧ τ = { σ with phase := .selecting } ∨
        rest ≠ [] ∧ σ.toUpstream.room ≠ 0 ∧
          τ = { σ with
            toUpstream := (σ.toUpstream.write rest).1
            phase := .writing (σ.toUpstream.write rest).2 }) := by
  unfold write at h
  split at h
  next rest writing =>
    split at h
    next empty => exact ⟨rest, writing, .inl ⟨empty, (Option.some.inj h).symm⟩⟩
    next some_left =>
      split at h
      next => cases h
      next space => exact ⟨rest, writing, .inr ⟨some_left, space, (Option.some.inj h).symm⟩⟩
  next => cases h

theorem send_eq {σ τ : Session limits} (h : σ.send = some τ) :
    ∃ message, σ.phase = .sending message ∧ σ.toClient.room ≠ 0 ∧
      τ = { σ with toClient := (σ.toClient.write [message]).1, phase := .selecting } := by
  unfold send at h
  split at h
  next message sending =>
    split at h
    next => cases h
    next space => exact ⟨message, sending, space, (Option.some.inj h).symm⟩
  next => cases h

theorem fits_takeMessage {σ : Session limits} {read : WsRead}
    (front : σ.fromClient.content = read :: rest) :
    σ.fits .takeMessage ↔
      ∀ payload, read.payload = some payload → payload.length ≤ σ.toUpstream.room := by
  simp only [fits, front, List.head?_cons, Option.bind_some]
  cases read.payload <;> simp

theorem Served.takeMessage {σ τ : Session limits} (h : σ.Served) (fits : σ.fits .takeMessage)
    (taken : σ.takeMessage = some τ) : τ.Served := by
  obtain ⟨read, fromClient, -, content, rfl⟩ := takeMessage_eq taken
  refine ⟨?_, ?_, ?_⟩
  · intro rest writing
    exact (fits_takeMessage content).mp fits rest (Task.payload_of_writing writing)
  · intro left
    exact .inl (h.closes read (content ▸ List.mem_cons_self) (Task.closes_of_left left))
  · intro other mem
    exact h.closes other (content ▸ List.mem_cons_of_mem _ mem)

/-- A buffer of no bytes would take every read for the end. -/
theorem Served.takeBytes (size : 0 < limits.buffer) {σ τ : Session limits} (h : σ.Served)
    (taken : σ.takeBytes = some τ) : τ.Served := by
  obtain ⟨-, available, rfl⟩ := takeBytes_eq taken
  have phase := @Task.phase_read limits.buffer σ.buffer
    ⟨(σ.fromUpstream.read limits.buffer).1, List.length_take_le _ _⟩
  refine ⟨?_, ?_, h.closes⟩
  · intro rest writing
    have writing := phase.symm.trans writing
    split at writing <;> cases writing
  · intro left
    have left := phase.symm.trans left
    split at left
    next empty =>
      rcases available with some_bytes | closed
      · rcases List.take_eq_nil_iff.mp empty with zero | none_left
        · omega
        · exact absurd none_left some_bytes
      · exact .inr closed
    next => cases left

theorem Served.write {σ τ : Session limits} (h : σ.Served) (taken : σ.write = some τ) :
    τ.Served := by
  obtain ⟨rest, writing, ⟨-, rfl⟩ | ⟨-, -, rfl⟩⟩ := write_eq taken
  · exact ⟨nofun, nofun, h.closes⟩
  · refine ⟨?_, nofun, h.closes⟩
    rintro _ ⟨⟩
    rw [Pipe.write_rest (h.fits rest writing)]
    exact Nat.zero_le _

/-- What a step of the client or the upstream leaves alone. -/
structure Beside (σ τ : Session limits) : Prop where
  phase : τ.phase = σ.phase
  room : σ.toUpstream.room ≤ τ.toUpstream.room
  client : σ.clientClosed → τ.clientClosed
  upstream : σ.upstreamClosed → τ.upstreamClosed
  closes : ∀ read ∈ τ.fromClient.content, read.closes →
    read ∈ σ.fromClient.content ∨ τ.clientClosed

theorem Served.beside {σ τ : Session limits} (h : σ.Served) (same : Beside σ τ) : τ.Served where
  fits rest writing := (h.fits rest (same.phase ▸ writing)).trans same.room
  left left := (h.left (same.phase ▸ left)).imp same.client same.upstream
  closes read mem closes := by
    rcases same.closes read mem closes with earlier | closed
    · exact same.client (h.closes read earlier closes)
    · exact closed

theorem peers_beside {σ τ : Session limits} (peers : action ∉ RelayAction.router)
    (taken : σ.step upstream action = some τ) : Beside σ τ := by
  cases action with
  | takeMessage | takeBytes | write | send => simp [RelayAction.router] at peers
  | clientSends read =>
    simp only [step] at taken
    split at taken
    next => cases taken
    next space =>
      cases taken
      refine ⟨rfl, Nat.le_refl _, fun closed => absurd (.inl closed) space, id, ?_⟩
      intro other mem closes
      rcases List.mem_append.mp mem with mem | mem
      · exact .inl mem
      · cases List.mem_singleton.mp (List.mem_of_mem_take mem)
        exact .inr closes
  | clientReceives =>
    simp only [step] at taken
    split at taken
    next => cases taken
    next =>
      cases taken
      exact ⟨rfl, Nat.le_refl _, id, id, fun _ mem _ => .inl mem⟩
  | upstreamReads count reply =>
    simp only [step] at taken
    split at taken
    next =>
      cases taken
      exact ⟨rfl, Pipe.room_le_room_read, id, id, fun _ mem _ => .inl mem⟩
    next => cases taken
  | upstreamWrites =>
    simp only [step] at taken
    split at taken
    next => cases taken
    next =>
      cases taken
      exact ⟨rfl, Nat.le_refl _, id, id, fun _ mem _ => .inl mem⟩
  | upstreamCloses =>
    simp only [step] at taken
    split at taken
    next => cases taken
    next =>
      cases taken
      exact ⟨rfl, Nat.le_refl _, id, fun _ => rfl, fun _ mem _ => .inl mem⟩

theorem served_step (size : 0 < limits.buffer) {σ τ : Session limits} (fits : σ.fits action)
    (taken : σ.step upstream action = some τ) (h : σ.Served) : τ.Served := by
  cases action with
  | takeMessage => exact h.takeMessage fits taken
  | takeBytes => exact h.takeBytes size taken
  | write => exact h.write taken
  | send =>
    obtain ⟨message, -, -, rfl⟩ := send_eq taken
    exact ⟨nofun, nofun, h.closes⟩
  | clientSends | clientReceives | upstreamReads | upstreamWrites | upstreamCloses =>
    exact h.beside (peers_beside (by simp [RelayAction.router]) taken)

theorem Served.enabled {σ : Session limits} (h : σ.Served) (waiting : σ.Waiting) :
    σ.enabled := by
  unfold Session.enabled
  cases at_phase : σ.phase with
  | selecting =>
    have : σ.takeBytes.isSome := by
      unfold Session.takeBytes
      rw [if_pos ⟨at_phase, .inl waiting.bytes⟩]
      rfl
    simp [this]
  | writing rest =>
    have : σ.write.isSome := by
      unfold Session.write
      have fits := h.fits rest at_phase
      simp only [at_phase]
      split
      next => rfl
      next some_left =>
        have := List.length_pos_of_ne_nil some_left
        rw [if_neg (by omega)]
        rfl
    simp [this]
  | sending message =>
    have : σ.send.isSome := by
      unfold Session.send
      have := waiting.ready
      simp only [at_phase]
      rw [if_neg (by omega)]
      rfl
    simp [this]
  | left =>
    rcases h.left at_phase with closed | closed
    · exact absurd closed waiting.clientOpen
    · exact absurd closed waiting.upstreamOpen

theorem Served.not_mutualWait {σ : Session limits} (h : σ.Served) : ¬ σ.MutualWait := by
  rintro ⟨⟨⟨rest, writing, some_left⟩, full⟩, -, -⟩
  have := h.fits rest writing
  have := List.length_pos_of_ne_nil some_left
  omega

theorem served_reaches (size : 0 < limits.buffer) {σ : Session limits}
    (h : Reaches (step upstream) (fun σ action => σ.fits action) (init limits) σ) : σ.Served :=
  h.invariant Served (fun _ _ _ fits taken => served_step size fits taken) served_init

-- ---------------------------------------------------------------------------
-- Stalling
-- ---------------------------------------------------------------------------

theorem Stalled.not_enabled {σ : Session limits} (h : σ.Stalled) : ¬ σ.enabled := by
  obtain ⟨⟨rest, writing, some_left⟩, full⟩ := h
  simp [enabled, takeMessage, takeBytes, write, send, writing, some_left, full]

theorem stalls_of_writing {σ : Session limits} (writing : σ.phase = .writing rest)
    (long : σ.toUpstream.room < rest.length) :
    ∃ τ, Reaches (step upstream) (fun _ action => action = .write) σ τ ∧ τ.Stalled := by
  have some_left : rest ≠ [] := by
    rintro rfl
    cases long
  by_cases full : σ.toUpstream.room = 0
  · exact ⟨σ, .refl, ⟨rest, writing, some_left⟩, full⟩
  · obtain ⟨rest_left, filled⟩ := Pipe.write_over long
    have taken : σ.write = some { σ with
        toUpstream := (σ.toUpstream.write rest).1
        phase := .writing (σ.toUpstream.write rest).2 } := by
      simp [write, writing, some_left, full]
    exact ⟨_, Reaches.refl.tail rfl taken, ⟨_, rfl, rest_left⟩, filled⟩

/-- A payload that does not fit stalls the router, if nobody else moves. -/
theorem stalls_of_takeMessage {σ τ : Session limits} (taken : σ.takeMessage = some τ)
    (long : ¬ σ.fits .takeMessage) :
    ∃ υ, Reaches (step upstream) (fun _ action => action = .write) τ υ ∧ υ.Stalled := by
  obtain ⟨read, fromClient, -, content, rfl⟩ := takeMessage_eq taken
  rw [fits_takeMessage content] at long
  push Not at long
  obtain ⟨payload, carried, long⟩ := long
  exact stalls_of_writing (Task.writing_of_payload carried) long

theorem waiting_write {σ τ : Session limits} (h : σ.Waiting) (taken : σ.write = some τ) :
    τ.Waiting := by
  obtain ⟨rest, -, ⟨-, rfl⟩ | ⟨-, -, rfl⟩⟩ := write_eq taken
  · exact ⟨h.clientOpen, h.upstreamOpen, h.bytes, h.ready⟩
  · exact ⟨h.clientOpen, h.upstreamOpen, h.bytes, h.ready⟩

/-- The upstream reads nothing while it has something to write. -/
def Blocking (upstream : Upstream) : Prop :=
  ∀ pending read reply, pending ≠ [] → upstream pending read reply = false

theorem echo_blocking : Blocking echo := by
  intro pending read reply some_left
  simp [echo, some_left]

/-- Nobody gets out of a mutual wait. -/
theorem mutualWait_step (blocking : Blocking upstream) {σ τ : Session limits}
    (taken : σ.step upstream action = some τ) (h : σ.MutualWait) : τ.MutualWait := by
  have := h.not_enabled
  simp only [enabled, Bool.or_eq_true, not_or, Bool.not_eq_true, Option.isSome_eq_false_iff,
    Option.isNone_iff_eq_none] at this
  obtain ⟨⟨⟨no_message, no_bytes⟩, no_write⟩, no_send⟩ := this
  cases action with
  | takeMessage => cases no_message.symm.trans taken
  | takeBytes => cases no_bytes.symm.trans taken
  | write => cases no_write.symm.trans taken
  | send => cases no_send.symm.trans taken
  | clientSends read =>
    simp only [step] at taken
    split at taken
    next => cases taken
    next =>
      cases taken
      exact ⟨⟨h.writing, h.full⟩, h.pending, h.fromUpstream⟩
  | clientReceives =>
    simp only [step] at taken
    split at taken
    next => cases taken
    next =>
      cases taken
      exact ⟨⟨h.writing, h.full⟩, h.pending, h.fromUpstream⟩
  | upstreamReads count reply => simp [step, blocking _ _ _ h.pending] at taken
  | upstreamWrites => simp [step, h.fromUpstream] at taken
  | upstreamCloses => simp [step, h.pending] at taken

end Session

open Session

-- ---------------------------------------------------------------------------
-- The relay between its peers
-- ---------------------------------------------------------------------------

/-- Router and upstream wait for each other forever, once a message is longer
than what the pipes and the upstream hold. -/
theorem echo_deadlock :
    ∃ σ : Session ⟨4, 1, 1, 2, 2⟩,
      Reaches (step echo) (fun _ _ => True) (init _) σ ∧ σ.Waiting ∧ ¬ σ.enabled ∧
      ∀ τ, Reaches (step echo) (fun _ _ => True) σ τ → τ.MutualWait ∧ ¬ τ.enabled := by
  have run : ∃ σ, runFrom (fun σ action => if True then step echo σ action else none)
      (init ⟨4, 1, 1, 2, 2⟩)
      [.clientSends (.message (.binary [1, 2, 3, 4, 5, 6, 7, 8])), .takeMessage, .write,
        .upstreamReads 2 [1, 2], .upstreamWrites, .write, .upstreamReads 2 [3, 4], .write] =
      some σ ∧ σ.Waiting ∧ σ.MutualWait :=
    ⟨_, rfl, ⟨nofun, nofun, nofun, Nat.zero_lt_one⟩, ⟨⟨_, rfl, nofun⟩, rfl⟩, nofun, rfl⟩
  obtain ⟨σ, run, waiting, wait⟩ := run
  refine ⟨σ, Reaches.refl.of_runFrom run, waiting, wait.not_enabled, ?_⟩
  intro τ reached
  have wait := reached.invariant MutualWait
    (fun _ _ _ _ taken h => mutualWait_step echo_blocking taken h) wait
  exact ⟨wait, wait.not_enabled⟩

/-- While every payload taken up fits, the router serves the upstream. And the
condition is exact: where it held so far, taking up one more message keeps the
router going if and only if that message fits. -/
theorem serves_while_fits (size : 0 < limits.buffer) {σ : Session limits}
    (h : Reaches (step upstream) (fun σ action => σ.fits action) (init limits) σ) :
    (σ.Waiting → σ.enabled) ∧ ¬ σ.MutualWait ∧
      ∀ τ, σ.Waiting → σ.takeMessage = some τ →
        (σ.fits .takeMessage ↔
          ∀ υ, Reaches (step upstream) (fun _ action => action = .write) τ υ → υ.enabled) := by
  have served := served_reaches size h
  refine ⟨served.enabled, served.not_mutualWait, ?_⟩
  intro τ waiting taken
  have taken : σ.step upstream .takeMessage = some τ := taken
  refine ⟨?_, ?_⟩
  · intro fits υ reached
    have start : τ.Served ∧ τ.Waiting := by
      refine ⟨served_step size fits taken served, ?_⟩
      obtain ⟨read, fromClient, -, -, rfl⟩ := takeMessage_eq taken
      exact ⟨waiting.clientOpen, waiting.upstreamOpen, waiting.bytes, waiting.ready⟩
    have keeps : ∀ (σ : Session limits) action τ, action = .write →
        σ.step upstream action = some τ → σ.Served ∧ σ.Waiting → τ.Served ∧ τ.Waiting := by
      rintro σ _ τ rfl taken ⟨served, waiting⟩
      exact ⟨served_step size rfl taken served, waiting_write waiting taken⟩
    obtain ⟨served, waiting⟩ := reached.invariant (fun σ => σ.Served ∧ σ.Waiting) keeps start
    exact served.enabled waiting
  · intro goes
    by_contra long
    obtain ⟨υ, reached, stalled⟩ := stalls_of_takeMessage taken long
    exact stalled.not_enabled (goes υ reached)

theorem serves_while_fits_echo :
    ∃ σ : Session ⟨4, 1, 1, 2, 2⟩, σ.Waiting ∧ σ.enabled ∧ ¬ σ.MutualWait := by
  have run : ∃ σ, runFrom (fun σ action => if σ.fits action then step echo σ action else none)
      (init ⟨4, 1, 1, 2, 2⟩)
      [.clientSends (.message (.binary [1, 2])), .takeMessage, .write, .write,
        .upstreamReads 2 [1, 2], .upstreamWrites] = some σ ∧ σ.Waiting :=
    ⟨_, rfl, nofun, nofun, nofun, Nat.zero_lt_one⟩
  obtain ⟨σ, run, waiting⟩ := run
  obtain ⟨enabled, no_wait, -⟩ :=
    serves_while_fits (Nat.zero_lt_succ 3) (Reaches.refl.of_runFrom run)
  exact ⟨σ, waiting, enabled waiting, no_wait⟩

end Ws2tcpRouter
