import Ws2tcpRouter.Atomicity
import Ws2tcpRouter.Fidelity

/-!
# What a connection carries

Every connection of a server, with any others next to it, ends in one of a few
ways. While its tunnel is open, what it sent to its upstream and to its client
is what the relay makes of the events it took; and no slot of the handshake is
ever found empty.
-/

namespace Ws2tcpRouter

open Sessions (State Call outputs)
open Timed (Run)

def Act.output? : Act → Option Output
  | .output o => some o
  | _ => none

/-- What goes to the client and to the upstream. -/
def traffic (acts : List Act) : List Output := acts.filterMap Act.output?

@[simp] theorem traffic_append (acts acts' : List Act) :
    traffic (acts ++ acts') = traffic acts ++ traffic acts' := List.filterMap_append

@[simp] theorem traffic_output (outputs : List Output) :
    traffic (outputs.map .output) = outputs := by
  induction outputs with
  | nil => rfl
  | cons o outputs ih => exact congrArg (o :: ·) ih

def Input.tcpEvent? : Input bufferSize → Option (TcpEvent bufferSize × Bool)
  | .tcp event done => some (event, done)
  | _ => none

def Input.udpEvent? : Input bufferSize → Option (UdpEvent × Bool)
  | .udp event done => some (event, done)
  | _ => none

/-- The events a relay was given, oldest first. -/
def given (event? : Input bufferSize → Option ε) : List (Moment bufferSize) → List ε
  | [] => []
  | m :: own => given event? own ++ (event? m.input).toList

abbrev tcpEvents (own : List (Moment bufferSize)) := given Input.tcpEvent? own

abbrev udpEvents (own : List (Moment bufferSize)) := given Input.udpEvent? own

-- ---------------------------------------------------------------------------
-- One step of a relay
-- ---------------------------------------------------------------------------

theorem Relay.perform_outputs (σ : Relay) (done : Bool) (task : Task) :
    ∃ more, (σ.perform done task).outputs = σ.outputs ++ more := by
  cases task <;> cases done <;> simp [perform, put, finish]

theorem RelayLoop.step_outputs (loop : RelayLoop ε) (σ : Relay) (event : ε × Bool) :
    ∃ more, (loop.step σ event).outputs = σ.outputs ++ more := by
  unfold step
  split
  next => exact ⟨[], (List.append_nil _).symm⟩
  next => exact Relay.perform_outputs _ _ _

theorem traffic_relayed (h : after.outputs = before.outputs ++ more)
    (again : Relay → ConnPhase) : traffic (relayed before after again).2 = more := by
  simp [relayed, h]

/-- The context of the error a task can end the loop with. -/
def Task.context? : Task → Option Str
  | .upstream _ context | .client _ context | .shutdown context | .fail context => some context
  | .next | .farewell | .stop => none

theorem Relay.perform_error {σ : Relay} (running : σ.result = none)
    (h : (σ.perform done task).result = some (.error context)) : task.context? = some context := by
  cases task <;> cases done <;> simp_all [perform, put, finish, Task.context?]

theorem RelayLoop.run_error {loop : RelayLoop ε}
    (h : (loop.run events).result = some (.error context)) :
    ∃ buffer event, (loop.task buffer event).2.context? = some context := by
  induction events using List.reverseRecOn with
  | nil => cases h
  | append_singleton events event ih =>
    rw [run_append_singleton] at h
    by_cases running : (loop.run events).result = none
    · unfold step at h
      simp only [running, Option.isSome_none, Bool.false_eq_true, if_false] at h
      exact ⟨_, _, Relay.perform_error rfl h⟩
    · rw [step_ended running] at h
      exact ih h

-- ---------------------------------------------------------------------------
-- What a phase says
-- ---------------------------------------------------------------------------

/-- The ways a connection ends, by what it did, what it sent and its result,
given the events its relay took. -/
inductive Ends (tcp : List (TcpEvent size × Bool)) (udp : List (UdpEvent × Bool)) :
    List Effect → List Output → Except (List Str) Unit → Prop
  | noTls : Ends tcp udp [] [] (.error ["tls handshake failed".toList])
  | unread : Ends tcp udp [] [] (.error [ConnectionError.readFailed.context])
  /-- The request was none, or the answer to it was not taken. -/
  | noHandshake : Ends tcp udp [] [] (.error [ConnectionError.handshakeFailed.context])
  | answered : Ends tcp udp [.respond response includeBody] [] (.ok ())
  | refused : Ends tcp udp [.refuse response] [] (.error [ConnectionError.handshakeFailed.context])
  | healthCheck : Ends tcp udp [.healthCheck] (healthCheckMessages.map .client) (.ok ())
  | noUpstream : tcp = [] → udp = [] → effect.upstream = some (protocol, addr) →
      (∀ context ∈ contexts, "failed to ".toList <+: context ∨ "udp target ".toList <+: context) →
      Ends tcp udp [effect] [] (.error (upstreamContext addr :: contexts))
  | tcp : ((proxyTcp size).run tcp).result = some result →
      Ends tcp udp [.connectTcp addr] ((proxyTcp size).run tcp).outputs
        (result.mapError fun context => [context])
  | udp : (proxyUdp.run udp).result = some result →
      Ends tcp udp [.connectUdp addr] (proxyUdp.run udp).outputs
        (result.mapError fun context => [context])

variable {env : Setup}

/-- Nothing has been done yet. -/
structure Quiet (own : List (Moment bufferSize)) (acts : List Act) : Prop where
  done : effects acts = []
  sent : traffic acts = []
  tcp : tcpEvents own = []
  udp : udpEvents own = []

/-- An upstream is being dialled, and nothing has been relayed. -/
structure Dialling (own : List (Moment bufferSize)) (acts : List Act) (effect : Effect) :
    Prop where
  done : effects acts = [effect]
  sent : traffic acts = []
  tcp : tcpEvents own = []
  udp : udpEvents own = []

/-- The relay is where its events have brought it, and has put this out. -/
structure Open (loop : RelayLoop ε) (events : List (ε × Bool)) (relay : Relay)
    (acts : List Act) : Prop where
  reached : relay = loop.run events
  running : relay.result = none
  sent : traffic acts = relay.outputs

def Carries (env : Setup) (own : List (Moment env.bufferSize)) (acts : List Act) :
    ConnPhase → Prop
  | .acceptingTls | .readingHead _ | .upgrading _ => Quiet own acts
  | .answering slots =>
    Quiet own acts ∧ slots.requestedTarget.isSome = true ∧ slots.authenticatedUser.isSome = true
  | .connectingTcp addr => Dialling own acts (.connectTcp addr)
  | .resolving addr | .binding addr _ | .connectingUdp addr =>
    Dialling own acts (.connectUdp addr)
  | .tcp relay => (∃ addr, effects acts = [.connectTcp addr]) ∧
    Open (proxyTcp env.bufferSize) (tcpEvents own) relay acts
  | .udp relay => (∃ addr, effects acts = [.connectUdp addr]) ∧
    Open proxyUdp (udpEvents own) relay acts
  | .closed result => Ends (tcpEvents own) (udpEvents own) (effects acts) (traffic acts) result

-- ---------------------------------------------------------------------------
-- One step
-- ---------------------------------------------------------------------------

theorem given_other {event? : Input bufferSize → Option ε} {m : Moment bufferSize}
    (h : event? m.input = none) (own : List (Moment bufferSize)) :
    given event? (m :: own) = given event? own := by
  simp [given, h]

theorem given_event {event? : Input bufferSize → Option ε} {m : Moment bufferSize}
    (h : event? m.input = some event) (own : List (Moment bufferSize)) :
    given event? (m :: own) = given event? own ++ [event] := by
  simp [given, h]

section
variable {own : List (Moment env.bufferSize)} {m : Moment env.bufferSize}

/-- The input is none of a relay's. -/
def Input.Aside (input : Input bufferSize) : Prop :=
  input.tcpEvent? = none ∧ input.udpEvent? = none

def ConnPhase.relaying : ConnPhase → Bool
  | .tcp _ | .udp _ => true
  | _ => false

theorem aside_awaited {phase : ConnPhase} {input : Input bufferSize} (h : phase.relaying = false)
    (hawaits : phase.awaits input = true) : input.Aside := by
  cases input with
  | tcp event done => cases phase <;> simp_all [ConnPhase.awaits, ConnPhase.relaying]
  | udp event done => cases phase <;> simp_all [ConnPhase.awaits, ConnPhase.relaying]
  | _ => exact ⟨rfl, rfl⟩

namespace Quiet

theorem ends (h : Quiet own acts) {acts' : List Act}
    (hends : ∀ tcp udp, @Ends env.bufferSize tcp udp (effects acts') (traffic acts') result) :
    Carries env (m :: own) (acts ++ acts') (.closed result) := by
  rw [Carries, effects_append, traffic_append, h.done, h.sent]
  exact hends _ _

variable (h : Quiet own acts) (haside : m.input.Aside)
include h haside

theorem still : Quiet (m :: own) (acts ++ []) := by
  rw [List.append_nil]
  exact ⟨h.done, h.sent, (given_other haside.1 _).trans h.tcp,
    (given_other haside.2 _).trans h.udp⟩

theorem dials {acts' : List Act} (hdone : effects acts' = [effect]) (hsent : traffic acts' = []) :
    Dialling (m :: own) (acts ++ acts') effect :=
  ⟨by simp [h.done, hdone], by simp [h.sent, hsent],
    (given_other haside.1 _).trans h.tcp, (given_other haside.2 _).trans h.udp⟩

theorem upgrade (auth : Option AuthConfig) (s : Token.State) (now : Instant) (bytes : Bytes) :
    Carries env (m :: own) (acts ++ (env.upgrade auth s now bytes).acts)
      (env.upgrade auth s now bytes).phase := by
  unfold Setup.upgrade
  split
  next =>
    split
    next => exact h.ends fun _ _ => .noHandshake
    next => exact h.still haside
  next request _ =>
    rcases hupgrade : onUpgrade env.platform auth s now request ⟨none, none⟩ with
      ⟨slots, response | ⟨⟩⟩
    · exact h.ends fun _ _ => .refused
    · obtain ⟨user, route, -, rfl, -⟩ := onUpgrade_ok hupgrade
      exact ⟨h.still haside, rfl, rfl⟩

theorem onHead (auth : Option AuthConfig) (s : Token.State) (now : Instant) (draws : Draws)
    (head : Bytes) :
    Carries env (m :: own) (acts ++ (env.onHead auth s now draws head).acts)
      (env.onHead auth s now draws head).phase := by
  unfold Setup.onHead
  split
  next => exact h.ends fun _ _ => .answered
  next => exact h.upgrade haside auth s now head

theorem serve {slots : Slots} (hroute : slots.requestedTarget.isSome = true)
    (huser : slots.authenticatedUser.isSome = true) :
    Carries env (m :: own) (acts ++ slots.serve.2) slots.serve.1 := by
  obtain ⟨route | _, user | _⟩ := slots
  · cases hroute
  · cases hroute
  · cases huser
  · next route user =>
    cases route with
    | healthCheck => exact h.ends fun _ _ => .healthCheck
    | proxy target =>
      simp only [Slots.serve]
      cases target.protocol with
      | tcp => exact h.dials haside rfl rfl
      | udp => exact h.dials haside rfl rfl

end Quiet

namespace Dialling

variable (h : Dialling own acts effect)
include h

theorem still (haside : m.input.Aside) {acts' : List Act} (hdone : effects acts' = [])
    (hsent : traffic acts' = []) : Dialling (m :: own) (acts ++ acts') effect :=
  ⟨by simp [h.done, hdone], by simp [h.sent, hsent],
    (given_other haside.1 _).trans h.tcp, (given_other haside.2 _).trans h.udp⟩

theorem fails (haside : m.input.Aside) (heffect : effect.upstream = some (protocol, addr))
    (hcontexts : ∀ context ∈ contexts,
      "failed to ".toList <+: context ∨ "udp target ".toList <+: context) :
    Carries env (m :: own) (acts ++ []) (.fail (upstreamContext addr :: contexts)) := by
  rw [ConnPhase.fail, Carries, List.append_nil, h.done, h.sent]
  exact .noUpstream ((given_other haside.1 _).trans h.tcp) ((given_other haside.2 _).trans h.udp)
    heffect hcontexts

theorem opens (loop : RelayLoop ε) (hnone : events = []) :
    effects (acts ++ []) = [effect] ∧ Open loop events loop.init (acts ++ []) := by
  rw [hnone, List.append_nil]
  exact ⟨h.done, rfl, rfl, h.sent⟩

end Dialling

/-- The relay with one more event: where it is, and what is out. -/
theorem Open.event {loop : RelayLoop ε} {event : ε × Bool}
    {event? : Input env.bufferSize → Option (ε × Bool)}
    (h : Open loop (given event? own) relay acts) (hevent : event? m.input = some event)
    (again : Relay → ConnPhase) :
    loop.step relay event = loop.run (given event? (m :: own)) ∧
      traffic (acts ++ (relayed relay (loop.step relay event) again).2) =
        (loop.run (given event? (m :: own))).outputs ∧
      effects (relayed relay (loop.step relay event) again).2 = [] := by
  have hrun : loop.step relay event = loop.run (given event? (m :: own)) := by
    rw [given_event hevent, RelayLoop.run_append_singleton, h.reached]
  obtain ⟨more, hmore⟩ := loop.step_outputs relay event
  refine ⟨hrun, ?_, effects_output _ _⟩
  rw [traffic_append, h.sent, traffic_relayed hmore, ← hmore, hrun]

variable {auth : Option AuthConfig} {s : Token.State} {now : Instant}

theorem carries_readingHead (h : Quiet own acts) (haside : m.input.Aside)
    (hinput : m.input = .read chunk draws) :
    Carries env (m :: own) (acts ++ (env.turn auth s now (.readingHead head) m.input).acts)
      (env.turn auth s now (.readingHead head) m.input).phase := by
  rw [hinput]
  cases chunk with
  | none => exact h.ends fun _ _ => .unread
  | some chunk =>
    simp only [Setup.turn]
    split
    next => exact h.onHead haside auth s now draws head
    next =>
      split
      next => exact h.onHead haside auth s now draws (head ++ chunk)
      next => exact h.still haside

theorem carries_upgrading (h : Quiet own acts) (haside : m.input.Aside)
    (hinput : m.input = .read chunk draws) :
    Carries env (m :: own) (acts ++ (env.turn auth s now (.upgrading bytes) m.input).acts)
      (env.turn auth s now (.upgrading bytes) m.input).phase := by
  rw [hinput]
  cases chunk with
  | none => exact h.ends fun _ _ => .noHandshake
  | some chunk =>
    simp only [Setup.turn]
    split
    next => exact h.ends fun _ _ => .noHandshake
    next => exact h.upgrade haside auth s now (bytes ++ chunk)

theorem carries_resolving (h : Dialling own acts (.connectUdp addr)) (haside : m.input.Aside)
    (addrs : Option (List SocketAddr)) :
    Carries env (m :: own) (acts ++ (bindFor addr addrs).2) (bindFor addr addrs).1 := by
  cases addrs with
  | none => exact h.fails haside rfl (by simp)
  | some addrs =>
    cases addrs with
    | nil => exact h.fails haside rfl (by simp)
    | cons resolved more => exact h.still haside rfl rfl

/-- An event of an open relay, which goes on or ends with it. -/
theorem Open.carries {loop : RelayLoop ε} {event : ε × Bool}
    {event? : Input env.bufferSize → Option (ε × Bool)}
    (h : Open loop (given event? own) relay acts) (hevent : event? m.input = some event)
    (again : Relay → ConnPhase)
    (hagain : ∀ relay' acts', effects acts' = effects acts →
      Open loop (given event? (m :: own)) relay' acts' →
        Carries env (m :: own) acts' (again relay'))
    (hends : ∀ result, (loop.run (given event? (m :: own))).result = some result →
      Ends (tcpEvents (m :: own)) (udpEvents (m :: own)) (effects acts)
        (loop.run (given event? (m :: own))).outputs
        (result.mapError fun context => [context])) :
    Carries env (m :: own) (acts ++ (relayed relay (loop.step relay event) again).2)
      (relayed relay (loop.step relay event) again).1 := by
  obtain ⟨hrun, hsent, hquiet⟩ := h.event hevent again
  have hsame : effects (acts ++ (relayed relay (loop.step relay event) again).2) =
      effects acts := by rw [effects_append, hquiet, List.append_nil]
  cases hresult : (loop.step relay event).result with
  | none =>
    have hphase : (relayed relay (loop.step relay event) again).1 =
        again (loop.step relay event) := by simp [relayed, hresult]
    rw [hphase]
    exact hagain _ _ hsame ⟨hrun, hresult, by rw [hsent, hrun]⟩
  | some result =>
    have hphase : (relayed relay (loop.step relay event) again).1 =
        .closed (result.mapError fun context => [context]) := by simp [relayed, hresult]
    rw [hphase, Carries, hsame, hsent]
    exact hends result (by rw [← hrun, hresult])

/-- The step lemma: every phase has its case. -/
theorem carries_turn (h : Carries env own acts phase) (hawaits : phase.awaits m.input = true) :
    Carries env (m :: own) (acts ++ (env.turn auth s now phase m.input).acts)
      (env.turn auth s now phase m.input).phase := by
  cases phase with
  | acceptingTls =>
    cases hinput : m.input with
    | tls done =>
      cases done with
      | true => exact Quiet.still h (aside_awaited rfl hawaits)
      | false => exact Quiet.ends h fun _ _ => .noTls
    | _ => simp [hinput, ConnPhase.awaits] at hawaits
  | readingHead head =>
    cases hinput : m.input with
    | read chunk draws => exact hinput ▸ carries_readingHead h (aside_awaited rfl hawaits) hinput
    | _ => simp [hinput, ConnPhase.awaits] at hawaits
  | upgrading bytes =>
    cases hinput : m.input with
    | read chunk draws => exact hinput ▸ carries_upgrading h (aside_awaited rfl hawaits) hinput
    | _ => simp [hinput, ConnPhase.awaits] at hawaits
  | answering slots =>
    cases hinput : m.input with
    | answered done =>
      obtain ⟨hquiet, hroute, huser⟩ := h
      cases done with
      | true => exact hquiet.serve (aside_awaited rfl hawaits) hroute huser
      | false => exact hquiet.ends fun _ _ => .noHandshake
    | _ => simp [hinput, ConnPhase.awaits] at hawaits
  | connectingTcp addr =>
    cases hinput : m.input with
    | connected done =>
      cases done with
      | true =>
        obtain ⟨hdone, hopen⟩ := Dialling.opens h (proxyTcp env.bufferSize)
          ((given_other (aside_awaited rfl hawaits).1 _).trans (Dialling.tcp h))
        exact ⟨⟨addr, hdone⟩, hopen⟩
      | false => exact Dialling.fails h (aside_awaited rfl hawaits) rfl (by simp)
    | _ => simp [hinput, ConnPhase.awaits] at hawaits
  | resolving addr =>
    cases hinput : m.input with
    | resolved addrs => exact carries_resolving h (aside_awaited rfl hawaits) addrs
    | _ => simp [hinput, ConnPhase.awaits] at hawaits
  | binding addr resolved =>
    cases hinput : m.input with
    | bound done =>
      cases done with
      | true => exact Dialling.still h (aside_awaited rfl hawaits) rfl rfl
      | false => exact Dialling.fails h (aside_awaited rfl hawaits) rfl (by simp)
    | _ => simp [hinput, ConnPhase.awaits] at hawaits
  | connectingUdp addr =>
    cases hinput : m.input with
    | connected done =>
      cases done with
      | true =>
        obtain ⟨hdone, hopen⟩ := Dialling.opens h proxyUdp
          ((given_other (aside_awaited rfl hawaits).2 _).trans (Dialling.udp h))
        exact ⟨⟨addr, hdone⟩, hopen⟩
      | false => exact Dialling.fails h (aside_awaited rfl hawaits) rfl (by simp)
    | _ => simp [hinput, ConnPhase.awaits] at hawaits
  | tcp relay =>
    cases hinput : m.input with
    | tcp event done =>
      obtain ⟨⟨addr, hdone⟩, hopen⟩ := h
      refine hopen.carries (by rw [hinput]; rfl) .tcp ?_ ?_
      · intro relay' acts' hsame hopen'
        exact ⟨⟨addr, hsame.trans hdone⟩, hopen'⟩
      · intro result hresult
        rw [hdone]
        exact .tcp hresult
    | _ => simp [hinput, ConnPhase.awaits] at hawaits
  | udp relay =>
    cases hinput : m.input with
    | udp event done =>
      obtain ⟨⟨addr, hdone⟩, hopen⟩ := h
      refine hopen.carries (by rw [hinput]; rfl) .udp ?_ ?_
      · intro relay' acts' hsame hopen'
        exact ⟨⟨addr, hsame.trans hdone⟩, hopen'⟩
      · intro result hresult
        rw [hdone]
        exact .udp hresult
    | _ => simp [hinput, ConnPhase.awaits] at hawaits
  | closed result => cases hinput : m.input <;> simp [ConnPhase.awaits] at hawaits

end

-- ---------------------------------------------------------------------------
-- Whole runs
-- ---------------------------------------------------------------------------

variable {auth : Option AuthConfig} {mode : ServiceMode}

theorem local_carries (h : (env.server auth mode).Local k₀ own phase acts)
    (h₀ : k₀ = .acceptingTls ∨ k₀ = .readingHead []) : Carries env own acts phase := by
  induction h with
  | start => rcases h₀ with rfl | rfl <;> exact ⟨rfl, rfl, rfl, rfl⟩
  | input m _ hawaits ih => exact carries_turn ih hawaits

theorem run_carries (h : Run (env.server auth mode).machine log σ t)
    (hk : σ.sessions[n]? = some phase) :
    Carries env ((env.server auth mode).own n log) (outputs n log) phase := by
  obtain ⟨k₀, hopened, hlocal⟩ := Sessions.session h hk
  exact local_carries hlocal (opened_phase hopened)

/-- What went out is what the loop makes of `events`: what the handled ones
carried, once each and in order, and then the ending of the one that ended it. -/
def Faithful (loop : RelayLoop ε) (meaning : Meaning ε) (events : List (ε × Bool))
    (out : List Output) (still : Prop) : Prop :=
  ∃ handled, loop.Course meaning events handled ∧ out = (loop.run events).outputs ∧
    written out = handled.filterMap (meaning.payload ·.1) ∧
    frames out = handled.filterMap (meaning.received ·.1) ∧ (still → handled = events)

theorem RelayLoop.Relays.faithful {loop : RelayLoop ε} {meaning : Meaning ε}
    (h : loop.Relays meaning)
    (hending : ∀ event, written (meaning.ending event) = [] ∧ frames (meaning.ending event) = [])
    (events : List (ε × Bool)) (hstill : still → (loop.run events).result = none) :
    Faithful loop meaning events (loop.run events).outputs still := by
  obtain ⟨handled, hcourse, hwritten, hframes⟩ := h.course events
  refine ⟨handled, hcourse, rfl, ?_⟩
  obtain rfl | ⟨event, done, more, ok, hevents, -, hresult, -, hout⟩ := hcourse.rest
  · exact ⟨hwritten, hframes, fun _ => rfl⟩
  · obtain ⟨hnone, hnone'⟩ := hending event
    refine ⟨?_, ?_, ?_⟩
    · cases done <;> simp [hout, hwritten, hnone]
    · cases done <;> simp [hout, hframes, hnone']
    · intro hopen
      rw [hstill hopen] at hresult
      cases hresult

theorem TcpEvent.ending_carries (event : TcpEvent size) :
    written event.ending = [] ∧ frames event.ending = [] := by
  unfold ending
  split
  next => exact ⟨rfl, rfl⟩
  next => exact ⟨rfl, rfl⟩
  next => split <;> exact ⟨rfl, rfl⟩
  next => exact ⟨rfl, rfl⟩

theorem UdpEvent.ending_carries (event : UdpEvent) :
    written event.ending = [] ∧ frames event.ending = [] := by
  cases event <;> exact ⟨rfl, rfl⟩

theorem carries_dialledTcp {own : List (Moment env.bufferSize)}
    (h : Carries env own acts phase) (hdial : .connectTcp addr ∈ effects acts) :
    traffic acts = ((proxyTcp env.bufferSize).run (tcpEvents own)).outputs ∧
      ((∀ result, phase ≠ .closed result) →
        ((proxyTcp env.bufferSize).run (tcpEvents own)).result = none) := by
  cases phase with
  | acceptingTls | readingHead | upgrading => simp [Quiet.done h] at hdial
  | answering => simp [h.1.done] at hdial
  | connectingTcp => simp [Dialling.sent h, Dialling.tcp h, RelayLoop.run, RelayLoop.init]
  | resolving | binding | connectingUdp => simp [Dialling.done h] at hdial
  | tcp relay =>
    obtain ⟨-, rfl, hrunning, hsent⟩ := h
    exact ⟨hsent, fun _ => hrunning⟩
  | udp relay =>
    obtain ⟨⟨addr', hdone⟩, -⟩ := h
    simp [hdone] at hdial
  | closed result =>
    refine ⟨?_, fun hopen => absurd rfl (hopen result)⟩
    have hends : Ends (tcpEvents own) (udpEvents own) (effects acts) (traffic acts) result := h
    generalize hdone : effects acts = done at hends hdial
    generalize hsent : traffic acts = sent at hends
    cases hends with
    | noUpstream htcp hudp => simp [htcp, RelayLoop.run, RelayLoop.init]
    | tcp => rfl
    | _ => simp at hdial

theorem carries_dialledUdp {own : List (Moment env.bufferSize)}
    (h : Carries env own acts phase) (hdial : .connectUdp addr ∈ effects acts) :
    traffic acts = (proxyUdp.run (udpEvents own)).outputs ∧
      ((∀ result, phase ≠ .closed result) → (proxyUdp.run (udpEvents own)).result = none) := by
  cases phase with
  | acceptingTls | readingHead | upgrading => simp [Quiet.done h] at hdial
  | answering => simp [h.1.done] at hdial
  | connectingTcp => simp [Dialling.done h] at hdial
  | resolving | binding | connectingUdp =>
    simp [Dialling.sent h, Dialling.udp h, RelayLoop.run, RelayLoop.init]
  | tcp relay =>
    obtain ⟨⟨addr', hdone⟩, -⟩ := h
    simp [hdone] at hdial
  | udp relay =>
    obtain ⟨-, rfl, hrunning, hsent⟩ := h
    exact ⟨hsent, fun _ => hrunning⟩
  | closed result =>
    refine ⟨?_, fun hopen => absurd rfl (hopen result)⟩
    have hends : Ends (tcpEvents own) (udpEvents own) (effects acts) (traffic acts) result := h
    generalize hdone : effects acts = done at hends hdial
    generalize hsent : traffic acts = sent at hends
    cases hends with
    | noUpstream htcp hudp => simp [hudp, RelayLoop.run, RelayLoop.init]
    | udp => rfl
    | _ => simp at hdial

/-- However the connections of a server are interleaved, each tunnel relays its
own events: its upstream was sent what its client's messages carried and its
client what its upstream sent, and while it is open that is all of it. -/
theorem tunnels_faithful (h : Run (env.server auth mode).machine log σ t)
    (hk : σ.sessions[n]? = some phase) :
    (∀ addr, .connectTcp addr ∈ effects (outputs n log) →
      Faithful (proxyTcp env.bufferSize) TcpEvent.meaning
        (tcpEvents ((env.server auth mode).own n log)) (traffic (outputs n log))
        (∀ result, phase ≠ .closed result)) ∧
    ∀ addr, .connectUdp addr ∈ effects (outputs n log) →
      Faithful proxyUdp UdpEvent.meaning
        (udpEvents ((env.server auth mode).own n log)) (traffic (outputs n log))
        (∀ result, phase ≠ .closed result) := by
  have hcarries := run_carries h hk
  refine ⟨?_, ?_⟩
  · intro addr hdial
    obtain ⟨hsent, hstill⟩ := carries_dialledTcp hcarries hdial
    rw [hsent]
    exact (proxyTcp_relays env.bufferSize).faithful TcpEvent.ending_carries _ hstill
  · intro addr hdial
    obtain ⟨hsent, hstill⟩ := carries_dialledUdp hcarries hdial
    rw [hsent]
    exact proxyUdp_relays.faithful UdpEvent.ending_carries _ hstill

/-- Newest first: a tunnel that takes a message, next to one that begins. -/
def twoTunnels : List (Instant × Call Occurrence (Input 4)) :=
  [(6, .input 1 (.read (some aliceTunnel.head) ⟨none, none⟩)),
    (5, .input 0 (.tcp (.websocket (.message (.binary [1, 2]))) true)),
    (4, .input 0 (.connected true)),
    (3, .world (.accept 0 true)),
    (2, .input 0 (.answered true)),
    (1, .input 0 (.read (some aliceTunnel.head) ⟨none, none⟩)),
    (0, .world (.accept 0 true))]

def ConnPhase.isClosed : ConnPhase → Bool
  | .closed _ => true
  | _ => false

theorem tunnels_faithful_message :
    written (traffic
      (outputs 0 (aliceServer.machine.exec (serverStart aliceOnly) twoTunnels).1)) = [[1, 2]] := by
  have hrun : Run aliceServer.machine
      (aliceServer.machine.exec (serverStart aliceOnly) twoTunnels).1
      (aliceServer.machine.exec (serverStart aliceOnly) twoTunnels).2 6 :=
    .exec ⟨rfl, rfl⟩ (by decide)
  obtain ⟨hdial, hevents, hopen⟩ :
      .connectTcp "db:5432".toList ∈
        effects (outputs 0 (aliceServer.machine.exec (serverStart aliceOnly) twoTunnels).1) ∧
      (tcpEvents (aliceServer.own 0
        (aliceServer.machine.exec (serverStart aliceOnly) twoTunnels).1)).filterMap
          (·.1.payload) = [[1, 2]] ∧
      (aliceServer.machine.exec (serverStart aliceOnly) twoTunnels).2.sessions[0]?.map
        ConnPhase.isClosed = some false := by decide +kernel
  obtain ⟨phase, hphase, hopen⟩ := Option.map_eq_some_iff.mp hopen
  obtain ⟨handled, -, -, hwritten, -, hall⟩ := (tunnels_faithful hrun hphase).1 _ hdial
  refine hwritten.trans ?_
  rw [hall (by rintro result rfl; cases hopen)]
  exact hevents

/-- The context of a slot the handshake had to fill. -/
def slotContexts : List Str :=
  [ConnectionError.targetNotCaptured.context, ConnectionError.userNotCaptured.context]

theorem proxyTcp_context (h : ((proxyTcp size).task buffer event).2.context? = some context) :
    context ∉ slotContexts := by
  simp only [proxyTcp] at h
  (repeat' split at h) <;> cases h <;> decide

theorem proxyUdp_context (h : (proxyUdp.task buffer event).2.context? = some context) :
    context ∉ slotContexts := by
  simp only [proxyUdp] at h
  split at h <;> cases h <;> decide

theorem slotContexts_head : ∀ context ∈ slotContexts, context.head? = some 'w' := by decide

theorem mapError_context {result : Except Str Unit}
    (h : result.mapError (fun context => [context]) = .error contexts) :
    ∃ context, result = .error context ∧ contexts = [context] := by
  cases result with
  | ok => cases h
  | error context =>
    cases h
    exact ⟨context, rfl, rfl⟩

theorem Ends.slots (h : Ends events events' done sent (.error contexts)) :
    ∀ context ∈ contexts, context ∉ slotContexts := by
  generalize hresult : (Except.error contexts : Except (List Str) Unit) = result at h
  cases h with
  | noTls | unread | noHandshake | refused =>
    rw [Except.error.inj hresult]
    simp only [List.forall_mem_singleton]
    decide
  | answered | healthCheck => cases hresult
  | noUpstream _ _ _ hcontexts =>
    intro context hmem
    rw [Except.error.inj hresult] at hmem
    obtain rfl | hmem := List.mem_cons.mp hmem
    · exact fun hslot => nomatch slotContexts_head _ hslot
    · obtain ⟨rest, rfl⟩ | ⟨rest, rfl⟩ := hcontexts context hmem
      · exact fun hslot => nomatch slotContexts_head _ hslot
      · exact fun hslot => nomatch slotContexts_head _ hslot
  | tcp hended =>
    obtain ⟨context, rfl, rfl⟩ := mapError_context hresult.symm
    obtain ⟨buffer, event, hcontext⟩ := RelayLoop.run_error hended
    simpa using proxyTcp_context hcontext
  | udp hended =>
    obtain ⟨context, rfl, rfl⟩ := mapError_context hresult.symm
    obtain ⟨buffer, event, hcontext⟩ := RelayLoop.run_error hended
    simpa using proxyUdp_context hcontext

/-- Every closed connection ended in one of the ways it can end, and none for
want of a slot the handshake had to fill. -/
theorem connections_end (h : Run (env.server auth mode).machine log σ t)
    (hk : σ.sessions[n]? = some (.closed result)) :
    Ends (tcpEvents ((env.server auth mode).own n log))
      (udpEvents ((env.server auth mode).own n log))
      (effects (outputs n log)) (traffic (outputs n log)) result ∧
    ∀ contexts, result = .error contexts → ∀ context ∈ contexts, context ∉ slotContexts := by
  have hends : Ends (tcpEvents ((env.server auth mode).own n log))
      (udpEvents ((env.server auth mode).own n log))
      (effects (outputs n log)) (traffic (outputs n log)) result := run_carries h hk
  refine ⟨hends, ?_⟩
  rintro contexts rfl
  exact hends.slots

def changedLog : List (ServerEvent (setupFor [aliceTunnel])) :=
  (aliceServer.machine.exec (serverStart aliceOnly) changedMeanwhile).1

theorem connections_end_refused :
    ∃ result,
      (aliceServer.machine.exec (serverStart aliceOnly) changedMeanwhile).2.sessions[0]? =
        some (.closed result) ∧
      @Ends 4 [] [] [.refuse (unauthorizedResponse true none)] [] result := by
  have hrun : Run ((setupFor [aliceTunnel]).server (some aliceOnly) .wsOnly).machine changedLog
      (aliceServer.machine.exec (serverStart aliceOnly) changedMeanwhile).2 5 :=
    .exec ⟨rfl, rfl⟩ (by decide)
  obtain ⟨hclosed, heffects, htraffic, htcp, hudp⟩ :
      (aliceServer.machine.exec (serverStart aliceOnly) changedMeanwhile).2.sessions[0]?.map
        ConnPhase.isClosed = some true ∧
      effects (outputs 0 changedLog) = [.refuse (unauthorizedResponse true none)] ∧
      traffic (outputs 0 changedLog) = [] ∧
      (tcpEvents (((setupFor [aliceTunnel]).server (some aliceOnly) .wsOnly).own 0
        changedLog)).isEmpty ∧
      (udpEvents (((setupFor [aliceTunnel]).server (some aliceOnly) .wsOnly).own 0
        changedLog)).isEmpty := by decide +kernel
  obtain ⟨phase, hphase, hclosed⟩ := Option.map_eq_some_iff.mp hclosed
  cases phase with
  | closed result =>
    obtain ⟨hends, -⟩ := connections_end hrun hphase
    rw [heffects, htraffic, List.isEmpty_iff.mp htcp, List.isEmpty_iff.mp hudp] at hends
    exact ⟨result, hphase, hends⟩
  | _ => cases hclosed

end Ws2tcpRouter
