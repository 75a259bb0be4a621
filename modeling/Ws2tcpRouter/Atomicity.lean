import Ws2tcpRouter.Mediation
import Ws2tcpRouter.Server

/-!
# A connection decides at one moment

Interleaved with all others, a connection comes to what `handleConnection`
comes to when it runs at once: on the chunks the connection has read, in the
shared state its last read found.
-/

namespace Ws2tcpRouter

open Sessions (State Call outputs)
open Timed (Run)

def Act.effect? : Act → Option Effect
  | .effect e => some e
  | _ => none

def effects (acts : List Act) : List Effect := acts.filterMap Act.effect?

@[simp] theorem effects_append (acts acts' : List Act) :
    effects (acts ++ acts') = effects acts ++ effects acts' := List.filterMap_append

@[simp] theorem effects_nil : effects [] = [] := rfl

@[simp] theorem effects_output (l : List α) (f : α → Output) :
    effects (l.map fun x => .output (f x)) = [] := by
  induction l with
  | nil => rfl
  | cons x l ih => exact ih

def Input.chunk : Input bufferSize → Option Bytes
  | .read chunk _ => chunk
  | _ => none

def Input.answers : Input bufferSize → Bool
  | .answered done => done
  | _ => false

abbrev Moment (bufferSize : Nat) := Sessions.Moment Instant Shared (Input bufferSize)

/-- The chunks read, oldest first. -/
def reads : List (Moment bufferSize) → List Bytes
  | [] => []
  | m :: own => reads own ++ m.input.chunk.toList

def lastRead : List (Moment bufferSize) → Option (Moment bufferSize × Draws)
  | [] => none
  | m :: own =>
    match m.input with
    | .read _ draws => some (m, draws)
    | _ => lastRead own

def answered (own : List (Moment bufferSize)) : Bool := own.any fun m => m.input.answers

namespace Setup

variable (env : Setup)

/-- `handle_connection` run at once, on what has been read. -/
def batchAt (own : List (Moment env.bufferSize)) (m : Moment env.bufferSize) (draws : Draws) :
    Outcome :=
  handleConnection env.platform env.parsers m.shared.auth m.shared.tokens m.time draws
    ⟨reads own, true⟩ (answered own)

/-- The same, in the state the last read found. -/
def batch (own : List (Moment env.bufferSize)) : Option Outcome :=
  (lastRead own).map fun r => env.batchAt own r.1 r.2

/-- The token store after a moment, from the connection run at once. -/
def tokensAfter (m : Moment env.bufferSize) (own : List (Moment env.bufferSize)) : Token.State :=
  match m.input with
  | .read _ draws => (env.batchAt (m :: own) m draws).state
  | _ => m.shared.tokens

end Setup

-- ---------------------------------------------------------------------------
-- Running at once
-- ---------------------------------------------------------------------------

section
variable {p : Platform} {parsers : Parsers} {auth : Option AuthConfig} {s : Token.State}
  {now : Instant} {draws : Draws} {stream : Stream}

theorem handleConnection_error (h : receive parsers stream = .error e) (answered : Bool) :
    handleConnection p parsers auth s now draws stream answered = ⟨s, [], .error e⟩ := by
  simp only [handleConnection, h]

theorem handleConnection_refused (h : receive parsers stream = .ok (.upgrade request))
    (hupgrade : onUpgrade p auth s now request ⟨none, none⟩ = (slots, .error response))
    (answered : Bool) :
    handleConnection p parsers auth s now draws stream answered =
      ⟨s, [.refuse response], .error .handshakeFailed⟩ := by
  simp only [handleConnection, h, hupgrade]

theorem handleConnection_upgraded (h : receive parsers stream = .ok (.upgrade request))
    (hupgrade : onUpgrade p auth s now request ⟨none, none⟩ = (slots, .ok ())) (answered : Bool) :
    handleConnection p parsers auth s now draws stream answered =
      if answered then serveRoute s slots else ⟨s, [], .error .handshakeFailed⟩ := by
  simp only [handleConnection, h, hupgrade]

end

theorem handleConnection_plain {env : Setup}
    (h : receive env.parsers stream = .ok (.plain request)) (answered : Bool) :
    handleConnection env.platform env.parsers auth s now draws stream answered =
      ⟨(env.answerPlain auth s now draws request).1,
        [.respond (env.answerPlain auth s now draws request).2 (request.method ≠ "HEAD".toList)],
        .ok ()⟩ := by
  simp only [handleConnection, h]
  rfl

theorem receive_failed (h : readRequestHead stream.fails [] stream.reads = none) :
    receive parsers stream = .error .readFailed := by
  simp only [receive, h]

theorem receive_plain (h : readRequestHead stream.fails [] stream.reads = some (head, rest))
    (hplain : parsePlainRequest parsers head = some request) :
    receive parsers stream = .ok (.plain request) := by
  simp only [receive, h, hplain]

theorem receive_upgrade (h : readRequestHead stream.fails [] stream.reads = some (head, rest))
    (hplain : parsePlainRequest parsers head = none) :
    receive parsers stream = match parsers.handshake (head ++ rest.flatten) with
      | none => .error .handshakeFailed
      | some request => .ok (.upgrade request) := by
  cases hshake : parsers.handshake (head ++ rest.flatten) <;>
    simp only [receive, h, hplain, hshake]

-- ---------------------------------------------------------------------------
-- Where a connection stands
-- ---------------------------------------------------------------------------

variable {env : Setup}

/-- The reading of the head returns this, and the reads left over. -/
def HeadRead (own : List (Moment bufferSize)) (head : Bytes) (rest : List Bytes) : Prop :=
  ∀ fails more, readRequestHead fails [] (reads own ++ more) = some (head, rest ++ more)

/-- The reading of the head has come to this, and goes on. -/
def Reading (own : List (Moment bufferSize)) (head : Bytes) : Prop :=
  stops head = false ∧
    ∀ fails more, readRequestHead fails [] (reads own ++ more) = readRequestHead fails head more

structure Upgrading (env : Setup) (own : List (Moment bufferSize)) (head : Bytes)
    (rest : List Bytes) : Prop where
  read : HeadRead own head rest
  notPlain : parsePlainRequest env.parsers head = none

def Dialled (acts : List Act) : Prop := ∃ e ∈ effects acts, e.upstream ≠ none

def Ending (result : Except ConnectionError Unit) : Except (List Str) Unit :=
  result.mapError fun e => [e.context]

/-- What a phase says of the reads so far and of what was done. -/
def Stage (env : Setup) (own : List (Moment env.bufferSize)) (acts : List Act) : ConnPhase → Prop
  | .acceptingTls => lastRead own = none ∧ reads own = [] ∧ answered own = false ∧ effects acts = []
  | .readingHead head => Reading own head ∧ answered own = false ∧ effects acts = []
  | .upgrading bytes =>
    (∃ head rest, Upgrading env own head rest ∧ bytes = head ++ rest.flatten) ∧
      env.parsers.handshake bytes = none ∧ answered own = false ∧ effects acts = []
  | .answering slots =>
    (∃ m draws request, lastRead own = some (m, draws) ∧
      receive env.parsers ⟨reads own, true⟩ = .ok (.upgrade request) ∧
      onUpgrade env.platform m.shared.auth m.shared.tokens m.time request ⟨none, none⟩ =
        (slots, .ok ())) ∧ answered own = false ∧ effects acts = []
  | .closed result =>
    effects acts = (env.batch own).elim [] Outcome.effects ∧
      (Dialled acts ∨ ∀ outcome, env.batch own = some outcome → result = Ending outcome.result)
  | _ => effects acts = (env.batch own).elim [] Outcome.effects ∧ Dialled acts

/-- The step kept what the phases say, and the token store. -/
def Kept (env : Setup) (own : List (Moment env.bufferSize)) (acts : List Act)
    (m : Moment env.bufferSize) (turn : Turn) : Prop :=
  Stage env (m :: own) (acts ++ turn.acts) turn.phase ∧ turn.tokens = env.tokensAfter m own

theorem Reading.receive (h : Reading own head) :
    receive parsers ⟨reads own, true⟩ = .error .readFailed := by
  obtain ⟨hstops, hread⟩ := h
  have hnone : readRequestHead true head [] = none :=
    (if_neg (Bool.eq_false_iff.mp hstops)).trans (if_pos rfl)
  refine receive_failed ?_
  rw [← hnone, ← hread true [], List.append_nil]

theorem Reading.stop (h : Reading own head) (hread : m.input = .read (some chunk) draws)
    (hne : chunk ≠ []) (hstops : stops (head ++ chunk) = true) :
    HeadRead (m :: own) (head ++ chunk) [] := by
  intro fails more
  rw [reads, hread, Input.chunk, Option.toList_some, List.append_assoc, h.2, List.singleton_append,
    readRequestHead_read h.1 hne, readRequestHead_stop hstops]
  rfl

theorem Reading.more (h : Reading own head) (hread : m.input = .read (some chunk) draws)
    (hne : chunk ≠ []) (hstops : stops (head ++ chunk) = false) :
    Reading (m :: own) (head ++ chunk) := by
  refine ⟨hstops, ?_⟩
  intro fails more
  rw [reads, hread, Input.chunk, Option.toList_some, List.append_assoc, h.2, List.singleton_append,
    readRequestHead_read h.1 hne]

theorem Reading.ended (h : Reading own head) (hread : m.input = .read (some []) draws) :
    HeadRead (m :: own) head [] := by
  intro fails more
  rw [reads, hread, Input.chunk, Option.toList_some, List.append_assoc, h.2]
  exact (if_neg (Bool.eq_false_iff.mp h.1)).trans (if_pos rfl)

theorem HeadRead.receive (h : HeadRead own head rest) :
    readRequestHead true [] (reads own) = some (head, rest) := by
  have hread := h true []
  rwa [List.append_nil, List.append_nil] at hread

theorem HeadRead.cons {own : List (Moment bufferSize)} (h : HeadRead own head rest)
    (m : Moment bufferSize) :
    HeadRead (m :: own) head (rest ++ m.input.chunk.toList) := by
  intro fails more
  rw [reads, List.append_assoc, h, List.append_assoc]

theorem Upgrading.receive (h : Upgrading env own head rest) :
    receive env.parsers ⟨reads own, true⟩ =
      match env.parsers.handshake (head ++ rest.flatten) with
      | none => .error .handshakeFailed
      | some request => .ok (.upgrade request) := receive_upgrade h.read.receive h.notPlain

-- ---------------------------------------------------------------------------
-- One step
-- ---------------------------------------------------------------------------

section
variable {own : List (Moment env.bufferSize)} {m : Moment env.bufferSize}

theorem batch_read (hread : m.input = .read chunk draws) :
    env.batch (m :: own) = some (env.batchAt (m :: own) m draws) := by
  rw [Setup.batch, lastRead, hread]
  rfl

theorem tokensAfter_read (hread : m.input = .read chunk draws) :
    env.tokensAfter m own = (env.batchAt (m :: own) m draws).state := by
  rw [Setup.tokensAfter, hread]

theorem answered_read (hread : m.input = .read chunk draws) :
    answered (m :: own) = answered own := by
  rw [answered, List.any_cons, hread]
  rfl

/-- A read after which the connection is closed, as it is run at once. -/
theorem kept_closed {turn : Turn} (hread : m.input = .read chunk draws) (hacts : effects acts = [])
    (houtcome : env.batchAt (m :: own) m draws = ⟨turn.tokens, effects turn.acts, result⟩)
    (hphase : turn.phase = .closed (Ending result)) : Kept env own acts m turn := by
  refine ⟨?_, ?_⟩
  · rw [hphase]
    refine ⟨?_, .inr ?_⟩
    · rw [effects_append, hacts, batch_read hread, houtcome]
      rfl
    · intro outcome hbatch
      rw [batch_read hread, houtcome] at hbatch
      cases hbatch
      rfl
  · rw [tokensAfter_read hread, houtcome]

theorem kept_upgrade (h : Upgrading env (m :: own) head rest) (hread : m.input = .read chunk draws)
    (hanswered : answered own = false) (hacts : effects acts = []) :
    Kept env own acts m
      (env.upgrade m.shared.auth m.shared.tokens m.time (head ++ rest.flatten)) := by
  have hreceive := h.receive
  have hnone : answered (m :: own) = false := (answered_read hread).trans hanswered
  unfold Setup.upgrade
  cases hhandshake : env.parsers.handshake (head ++ rest.flatten) with
  | none =>
    rw [hhandshake] at hreceive
    have houtcome : env.batchAt (m :: own) m draws =
        ⟨m.shared.tokens, [], .error .handshakeFailed⟩ := handleConnection_error hreceive _
    dsimp only
    split
    next => exact kept_closed hread hacts houtcome rfl
    next =>
      refine ⟨⟨⟨head, rest, h, rfl⟩, hhandshake, hnone, by simp [hacts]⟩, ?_⟩
      rw [tokensAfter_read hread]
      exact (congrArg Outcome.state houtcome).symm
  | some request =>
    rw [hhandshake] at hreceive
    dsimp only
    rcases hupgrade : onUpgrade env.platform m.shared.auth m.shared.tokens m.time request
      ⟨none, none⟩ with ⟨slots, response | ⟨⟩⟩
    · exact kept_closed hread hacts (handleConnection_refused hreceive hupgrade _) rfl
    · refine ⟨⟨⟨m, draws, request, ?_, hreceive, hupgrade⟩, hnone, by simp [hacts]⟩, ?_⟩
      · rw [lastRead, hread]
      · rw [tokensAfter_read hread, Setup.batchAt, hnone,
          handleConnection_upgraded hreceive hupgrade]
        rfl

theorem kept_onHead (h : HeadRead (m :: own) head []) (hread : m.input = .read chunk draws)
    (hanswered : answered own = false) (hacts : effects acts = []) :
    Kept env own acts m (env.onHead m.shared.auth m.shared.tokens m.time draws head) := by
  unfold Setup.onHead
  cases hplain : parsePlainRequest env.parsers head with
  | none =>
    have hkept := kept_upgrade ⟨h, hplain⟩ hread hanswered hacts
    rwa [List.flatten_nil, List.append_nil] at hkept
  | some request =>
    have hreceive : receive env.parsers ⟨reads (m :: own), true⟩ = .ok (.plain request) :=
      receive_plain h.receive hplain
    exact kept_closed hread hacts (handleConnection_plain hreceive _) rfl

theorem kept_readingHead (hstage : Stage env own acts (.readingHead head))
    (hawaits : (ConnPhase.readingHead head).awaits m.input = true) :
    Kept env own acts m
      (env.turn m.shared.auth m.shared.tokens m.time (.readingHead head) m.input) := by
  obtain ⟨hreading, hanswered, hacts⟩ := hstage
  cases hinput : m.input with
  | read chunk draws =>
    cases chunk with
    | none =>
      have hreads : reads (m :: own) = reads own := by
        rw [reads, hinput]
        exact List.append_nil _
      have hreceive : receive env.parsers ⟨reads (m :: own), true⟩ = .error .readFailed := by
        rw [hreads]
        exact hreading.receive
      exact kept_closed hinput hacts (handleConnection_error hreceive _) rfl
    | some chunk =>
      rw [Setup.turn]
      split
      next hempty =>
        subst hempty
        exact kept_onHead (hreading.ended hinput) hinput hanswered hacts
      next hne =>
        split
        next hstops => exact kept_onHead (hreading.stop hinput hne hstops) hinput hanswered hacts
        next hmore =>
          have hmore := hreading.more hinput hne (Bool.eq_false_iff.mpr hmore)
          refine ⟨⟨hmore, (answered_read hinput).trans hanswered, by simp [hacts]⟩, ?_⟩
          have houtcome : env.batchAt (m :: own) m draws =
              ⟨m.shared.tokens, [], .error .readFailed⟩ :=
            handleConnection_error hmore.receive _
          rw [tokensAfter_read hinput, houtcome]
  | _ =>
    rw [hinput] at hawaits
    cases hawaits

theorem kept_upgrading (hstage : Stage env own acts (.upgrading bytes))
    (hawaits : (ConnPhase.upgrading bytes).awaits m.input = true) :
    Kept env own acts m
      (env.turn m.shared.auth m.shared.tokens m.time (.upgrading bytes) m.input) := by
  obtain ⟨⟨head, rest, hupgrading, rfl⟩, hnone, hanswered, hacts⟩ := hstage
  cases hinput : m.input with
  | read chunk draws =>
    have hcons : Upgrading env (m :: own) head (rest ++ chunk.toList) := by
      have hread := hupgrading.read.cons m
      rw [hinput] at hread
      exact ⟨hread, hupgrading.notPlain⟩
    have hreceive := hcons.receive
    cases chunk with
    | none =>
      rw [Option.toList_none, List.append_nil, hnone] at hreceive
      exact kept_closed hinput hacts (handleConnection_error hreceive _) rfl
    | some chunk =>
      rw [Setup.turn]
      split
      next hempty =>
        rw [hempty, Option.toList_some, List.flatten_append, List.flatten_singleton,
          List.append_nil, hnone] at hreceive
        exact kept_closed hinput hacts (handleConnection_error hreceive _) rfl
      next =>
        have hkept := kept_upgrade hcons hinput hanswered hacts
        rwa [Option.toList_some, List.flatten_append, List.flatten_singleton,
          ← List.append_assoc] at hkept
  | _ =>
    rw [hinput] at hawaits
    cases hawaits

/-- What is served, as it is when the connection is run at once. -/
theorem serve_serveRoute (s : Token.State) (slots : Slots) :
    (serveRoute s slots).state = s ∧ effects slots.serve.2 = (serveRoute s slots).effects ∧
      (slots.serve.1 = .closed (Ending (serveRoute s slots).result) ∨
        Dialled slots.serve.2 ∧
          ((∃ addr, slots.serve.1 = .connectingTcp addr) ∨
            ∃ addr, slots.serve.1 = .resolving addr)) := by
  obtain ⟨route, user⟩ := slots
  cases route with
  | none => exact ⟨rfl, rfl, .inl rfl⟩
  | some route =>
    cases user with
    | none => cases route <;> exact ⟨rfl, rfl, .inl rfl⟩
    | some user =>
      cases route with
      | healthCheck => exact ⟨rfl, rfl, .inl rfl⟩
      | proxy target =>
        have hdialled : ∀ e : Effect, e.upstream ≠ none → Dialled [.effect e] :=
          fun e he => ⟨e, List.mem_singleton_self _, he⟩
        simp only [serveRoute, Slots.serve]
        cases target.protocol with
        | tcp => exact ⟨rfl, rfl, .inr ⟨hdialled _ (by simp [Effect.upstream]), .inl ⟨_, rfl⟩⟩⟩
        | udp => exact ⟨rfl, rfl, .inr ⟨hdialled _ (by simp [Effect.upstream]), .inr ⟨_, rfl⟩⟩⟩

theorem Dialled.append (h : Dialled acts') : Dialled (acts ++ acts') := by
  obtain ⟨e, he, hupstream⟩ := h
  refine ⟨e, ?_, hupstream⟩
  rw [effects_append]
  exact List.mem_append_right _ he

theorem kept_answering (hstage : Stage env own acts (.answering slots))
    (hawaits : (ConnPhase.answering slots).awaits m.input = true) :
    Kept env own acts m
      (env.turn m.shared.auth m.shared.tokens m.time (.answering slots) m.input) := by
  obtain ⟨⟨m₀, draws, request, hlast, hreceive, hupgrade⟩, hanswered, hacts⟩ := hstage
  cases hinput : m.input with
  | answered done =>
    have hreads : reads (m :: own) = reads own := by
      rw [reads, hinput]
      exact List.append_nil _
    have hdone : answered (m :: own) = done := by
      rw [answered, List.any_cons, hinput]
      exact (congrArg (done || ·) hanswered).trans (Bool.or_false done)
    have hbatch : env.batch (m :: own) = some
        (if done then serveRoute m₀.shared.tokens slots
          else ⟨m₀.shared.tokens, [], .error .handshakeFailed⟩) := by
      rw [Setup.batch, lastRead, hinput]
      dsimp only
      rw [hlast, Option.map_some, Setup.batchAt, hdone, hreads,
        handleConnection_upgraded hreceive hupgrade]
    have htokens : env.tokensAfter m own = m.shared.tokens := by rw [Setup.tokensAfter, hinput]
    refine ⟨?_, htokens.symm⟩
    cases done with
    | false =>
      refine ⟨?_, .inr ?_⟩
      · rw [hbatch]
        exact (effects_append acts []).trans (by rw [hacts]; rfl)
      · intro outcome h
        rw [hbatch] at h
        cases h
        rfl
    | true =>
      obtain ⟨-, heffects, hend⟩ := serve_serveRoute m₀.shared.tokens slots
      have hall : effects (acts ++ slots.serve.2) =
          (env.batch (m :: own)).elim [] Outcome.effects := by
        rw [effects_append, hacts, hbatch, heffects]
        rfl
      change Stage env (m :: own) (acts ++ slots.serve.2) slots.serve.1
      obtain hclosed | ⟨hdialled, ⟨addr, hphase⟩ | ⟨addr, hphase⟩⟩ := hend
      · rw [hclosed]
        refine ⟨hall, .inr ?_⟩
        intro outcome h
        rw [hbatch] at h
        cases h
        rfl
      · rw [hphase]
        exact ⟨hall, hdialled.append⟩
      · rw [hphase]
        exact ⟨hall, hdialled.append⟩
  | _ =>
    rw [hinput] at hawaits
    cases hawaits

theorem kept_acceptingTls (hstage : Stage env own acts .acceptingTls)
    (hawaits : ConnPhase.acceptingTls.awaits m.input = true) :
    Kept env own acts m
      (env.turn m.shared.auth m.shared.tokens m.time .acceptingTls m.input) := by
  obtain ⟨hlast, hreads, hanswered, hacts⟩ := hstage
  cases hinput : m.input with
  | tls done =>
    have hread : reads (m :: own) = [] := by
      rw [reads, hinput, hreads]
      rfl
    have hlast' : lastRead (m :: own) = none := by
      rw [lastRead, hinput]
      exact hlast
    have hanswered' : answered (m :: own) = false := by
      rw [answered, List.any_cons, hinput]
      exact hanswered
    have htokens : env.tokensAfter m own = m.shared.tokens := by rw [Setup.tokensAfter, hinput]
    refine ⟨?_, htokens.symm⟩
    have hacts' : effects (acts ++ []) = [] := by rw [List.append_nil, hacts]
    cases done with
    | true =>
      refine ⟨⟨by decide +kernel, ?_⟩, hanswered', hacts'⟩
      intro fails more
      rw [hread]
      rfl
    | false =>
      have hbatch : env.batch (m :: own) = none := by
        rw [Setup.batch, hlast']
        rfl
      refine ⟨?_, .inr ?_⟩
      · rw [hbatch]
        exact hacts'
      · intro outcome h
        rw [hbatch] at h
        cases h
  | _ =>
    rw [hinput] at hawaits
    cases hawaits

end

-- ---------------------------------------------------------------------------
-- After the decision
-- ---------------------------------------------------------------------------

/-- An upstream is being connected, or was. -/
def ConnPhase.outward : ConnPhase → Bool
  | .connectingTcp _ | .resolving _ | .binding _ _ | .connectingUdp _ | .tcp _ | .udp _ => true
  | _ => false

theorem relayed_outward (before after : Relay) {again : Relay → ConnPhase}
    (hagain : ∀ relay, (again relay).outward = true) :
    effects (relayed before after again).2 = [] ∧
      ((relayed before after again).1.outward = true ∨
        ∃ result, (relayed before after again).1 = .closed result) := by
  refine ⟨effects_output _ _, ?_⟩
  unfold relayed
  split
  next => exact .inl (hagain after)
  next => exact .inr ⟨_, rfl⟩

theorem bindFor_outward (addr : Str) (addrs : Option (List SocketAddr)) :
    effects (bindFor addr addrs).2 = [] ∧
      ((bindFor addr addrs).1.outward = true ∨
        ∃ result, (bindFor addr addrs).1 = .closed result) := by
  unfold bindFor
  split
  next => exact ⟨rfl, .inr ⟨_, rfl⟩⟩
  next => exact ⟨rfl, .inr ⟨_, rfl⟩⟩
  next => exact ⟨rfl, .inl rfl⟩

/-- From there on a connection looks at nothing it shares, dials no other
upstream and gives no other answer. -/
theorem turn_outward (h : phase.outward = true) (input : Input env.bufferSize) :
    (∀ auth s now, env.turn auth s now phase input =
      ⟨s, (env.advance phase input).1, (env.advance phase input).2⟩) ∧
    effects (env.advance phase input).2 = [] ∧
    ((env.advance phase input).1.outward = true ∨
      ∃ result, (env.advance phase input).1 = .closed result) := by
  cases phase with
  | connectingTcp addr =>
    refine ⟨fun _ _ _ => rfl, ?_⟩
    cases input with
    | connected done =>
      cases done with
      | true => exact ⟨rfl, .inl rfl⟩
      | false => exact ⟨rfl, .inr ⟨_, rfl⟩⟩
    | _ => exact ⟨rfl, .inl rfl⟩
  | resolving addr =>
    refine ⟨fun _ _ _ => rfl, ?_⟩
    cases input with
    | resolved addrs => exact bindFor_outward addr addrs
    | _ => exact ⟨rfl, .inl rfl⟩
  | binding addr resolved =>
    refine ⟨fun _ _ _ => rfl, ?_⟩
    cases input with
    | bound done =>
      cases done with
      | true => exact ⟨rfl, .inl rfl⟩
      | false => exact ⟨rfl, .inr ⟨_, rfl⟩⟩
    | _ => exact ⟨rfl, .inl rfl⟩
  | connectingUdp addr =>
    refine ⟨fun _ _ _ => rfl, ?_⟩
    cases input with
    | connected done =>
      cases done with
      | true => exact ⟨rfl, .inl rfl⟩
      | false => exact ⟨rfl, .inr ⟨_, rfl⟩⟩
    | _ => exact ⟨rfl, .inl rfl⟩
  | tcp relay =>
    refine ⟨fun _ _ _ => rfl, ?_⟩
    cases input with
    | tcp event done => exact relayed_outward _ _ fun _ => rfl
    | _ => exact ⟨rfl, .inl rfl⟩
  | udp relay =>
    refine ⟨fun _ _ _ => rfl, ?_⟩
    cases input with
    | udp event done => exact relayed_outward _ _ fun _ => rfl
    | _ => exact ⟨rfl, .inl rfl⟩
  | _ => cases h

section
variable {own : List (Moment env.bufferSize)} {m : Moment env.bufferSize}

theorem stage_outward (h : phase.outward = true) : Stage env own acts phase ↔
    effects acts = (env.batch own).elim [] Outcome.effects ∧ Dialled acts := by
  cases phase <;> first | exact Iff.rfl | cases h

/-- An input that no read of the request ends with. -/
theorem batch_other (own : List (Moment env.bufferSize))
    (hread : ∀ chunk draws, m.input ≠ .read chunk draws) (hanswers : m.input.answers = false) :
    env.batch (m :: own) = env.batch own ∧ env.tokensAfter m own = m.shared.tokens := by
  cases hinput : m.input with
  | read chunk draws => exact absurd hinput (hread chunk draws)
  | _ =>
    rw [hinput] at hanswers
    refine ⟨?_, by rw [Setup.tokensAfter, hinput]⟩
    have hreads : reads (m :: own) = reads own := by
      rw [reads, hinput]
      exact List.append_nil _
    have hanswered : answered (m :: own) = answered own := by
      rw [answered, List.any_cons, hinput, hanswers]
      rfl
    unfold Setup.batch Setup.batchAt
    rw [lastRead, hinput, hreads, hanswered]

theorem outward_awaits {phase : ConnPhase} (h : phase.outward = true)
    (hawaits : phase.awaits m.input = true) :
    (∀ chunk draws, m.input ≠ .read chunk draws) ∧ m.input.answers = false := by
  have hnot : ∀ input : Input env.bufferSize, (phase.outward && phase.awaits input) = false →
      m.input ≠ input := by
    rintro input hfalse rfl
    rw [h, hawaits] at hfalse
    cases hfalse
  refine ⟨fun chunk draws => hnot _ (by cases phase <;> rfl), ?_⟩
  cases hinput : m.input with
  | answered done => exact absurd hinput (hnot _ (by cases phase <;> rfl))
  | _ => rfl

theorem kept_outward (hstage : Stage env own acts phase) (h : phase.outward = true)
    (hawaits : phase.awaits m.input = true) :
    Kept env own acts m (env.turn m.shared.auth m.shared.tokens m.time phase m.input) := by
  obtain ⟨heffects, hdialled⟩ := (stage_outward h).mp hstage
  obtain ⟨hread, hanswers⟩ := outward_awaits h hawaits
  obtain ⟨hbatch, htokens⟩ := batch_other own hread hanswers
  obtain ⟨hturn, hquiet, hend⟩ := turn_outward h m.input
  rw [hturn]
  refine ⟨?_, htokens.symm⟩
  have hsame : effects (acts ++ (env.advance phase m.input).2) = effects acts := by
    rw [effects_append, hquiet, List.append_nil]
  have hdialled' : Dialled (acts ++ (env.advance phase m.input).2) := by
    obtain ⟨e, he, hupstream⟩ := hdialled
    exact ⟨e, by rwa [hsame], hupstream⟩
  have hall : effects (acts ++ (env.advance phase m.input).2) =
      (env.batch (m :: own)).elim [] Outcome.effects := by rw [hsame, heffects, hbatch]
  obtain hout | ⟨result, hclosed⟩ := hend
  · exact (stage_outward hout).mpr ⟨hall, hdialled'⟩
  · dsimp only
    rw [hclosed]
    exact ⟨hall, .inl hdialled'⟩

/-- The step lemma: every phase has its case. -/
theorem kept_turn (hstage : Stage env own acts phase) (hawaits : phase.awaits m.input = true) :
    Kept env own acts m (env.turn m.shared.auth m.shared.tokens m.time phase m.input) := by
  cases phase with
  | acceptingTls => exact kept_acceptingTls hstage hawaits
  | readingHead head => exact kept_readingHead hstage hawaits
  | upgrading bytes => exact kept_upgrading hstage hawaits
  | answering slots => exact kept_answering hstage hawaits
  | closed result =>
    cases hinput : m.input <;> rw [hinput] at hawaits <;> cases hawaits
  | _ => exact kept_outward hstage rfl hawaits

end

theorem stage_effects {own : List (Moment env.bufferSize)} (h : Stage env own acts phase) :
    effects acts = (env.batch own).elim [] Outcome.effects := by
  have herror : ∀ e, receive env.parsers ⟨reads own, true⟩ = .error e → effects acts = [] →
      effects acts = (env.batch own).elim [] Outcome.effects := by
    intro e hreceive hacts
    rw [hacts, Setup.batch]
    cases lastRead own with
    | none => rfl
    | some r =>
      rw [Option.map_some, Setup.batchAt, handleConnection_error hreceive]
      rfl
  cases phase with
  | acceptingTls =>
    obtain ⟨hlast, -, -, hacts⟩ := h
    rw [hacts, Setup.batch, hlast]
    rfl
  | readingHead head =>
    obtain ⟨hreading, -, hacts⟩ := h
    exact herror _ hreading.receive hacts
  | upgrading bytes =>
    obtain ⟨⟨head, rest, hupgrading, rfl⟩, hnone, -, hacts⟩ := h
    have hreceive := hupgrading.receive
    rw [hnone] at hreceive
    exact herror _ hreceive hacts
  | answering slots =>
    obtain ⟨⟨m, draws, request, hlast, hreceive, hupgrade⟩, hanswered, hacts⟩ := h
    rw [hacts, Setup.batch, hlast, Option.map_some, Setup.batchAt, hanswered,
      handleConnection_upgraded hreceive hupgrade]
    rfl
  | _ => exact h.1

variable {env : Setup} {auth : Option AuthConfig} {mode : ServiceMode}

theorem local_stage (h : (env.server auth mode).Local k₀ own phase acts)
    (h₀ : k₀ = .acceptingTls ∨ k₀ = .readingHead []) : Stage env own acts phase := by
  induction h with
  | start =>
    rcases h₀ with rfl | rfl
    · exact ⟨rfl, rfl, rfl, rfl⟩
    · exact ⟨⟨by decide +kernel, fun _ _ => rfl⟩, rfl, rfl⟩
  | input m _ hawaits ih => exact (kept_turn ih hawaits).1

abbrev ServerEvent (env : Setup) :=
  Sessions.Event Instant Shared ConnPhase Occurrence (Input env.bufferSize) Act

theorem opened_phase {log : List (ServerEvent env)}
    (h : Sessions.Opened (env.server auth mode) log phase) :
    phase = .acceptingTls ∨ phase = .readingHead [] := by
  obtain ⟨e, -, occurrence, -, hopens⟩ := h
  exact Shared.occur_opens hopens

theorem run_stage (h : Run (env.server auth mode).machine log s t)
    (hk : s.sessions[n]? = some phase) :
    Stage env ((env.server auth mode).own n log) (outputs n log) phase := by
  obtain ⟨k₀, hopened, hlocal⟩ := Sessions.session h hk
  exact local_stage hlocal (opened_phase hopened)

/-- However the connections of a server are interleaved, with each other and
with reloads, each does what `handle_connection` does when it runs at once, on
what the connection has read and in the state its last read found; and what it
does to the token store it does in that read. -/
theorem connections_serializable (h : Run (env.server auth mode).machine log s t)
    (hk : s.sessions[n]? = some phase) :
    effects (outputs n log) =
      (env.batch ((env.server auth mode).own n log)).elim [] Outcome.effects ∧
    (∀ result, phase = .closed result → Dialled (outputs n log) ∨
      ∀ outcome, env.batch ((env.server auth mode).own n log) = some outcome →
        result = Ending outcome.result) ∧
    ∀ now input, phase.awaits input = true →
      ((env.server auth mode).step now s (.input n input)).1.shared =
        { s.shared with tokens :=
          env.tokensAfter ⟨now, s.shared, input⟩ ((env.server auth mode).own n log) } := by
  have hstage := run_stage h hk
  refine ⟨stage_effects hstage, ?_, ?_⟩
  · rintro result rfl
    exact hstage.2
  · intro now input hawaits
    rw [Sessions.step_taken hk hawaits]
    have hkept : Kept env _ _ ⟨now, s.shared, input⟩ _ := kept_turn hstage hawaits
    exact congrArg (fun tokens => { s.shared with tokens }) hkept.2

/-- A request as it is sent. -/
def Request.head (request : Request) : Bytes :=
  Text.utf8 (request.method ++ ' ' :: request.path ++ " HTTP/1.1\r\n".toList) ++
    request.headers.flatMap (fun header =>
      Text.utf8 (header.1 ++ ": ".toList) ++ header.2 ++ [13, 10]) ++ [13, 10]

/-- The parsers on these requests. -/
def parsersFor (requests : List Request) : Parsers where
  parse _ head := (requests.find? fun request => request.head = head).map fun request =>
    ⟨request.method, request.path, request.headers⟩
  method := some
  headerValue := some
  build method path headers := some ⟨method, path, headers⟩
  handshake bytes := requests.find? fun request => request.head = bytes

def setupFor (requests : List Request) : Setup :=
  ⟨.crates 0, parsersFor requests, fun _ => false, 4⟩

def tunnelRequest (credential : Str) : Request :=
  ⟨"GET".toList, "/tcp:db:5432".toList,
    (authorization, Text.utf8 credential) ::
      [("connection", "Upgrade"), ("upgrade", "websocket"), ("sec-websocket-version", "13"),
        ("sec-websocket-key", "dGhlIHNhbXBsZSBub25jZQ==")].map fun (name, value) =>
          (name.toList, Text.utf8 value.toList)⟩

def serverStart (config : AuthConfig) : State Shared ConnPhase :=
  ⟨⟨some config, .new 0, ServiceMode.wsOnly.listeners⟩, []⟩

def aliceTunnel : Request := tunnelRequest "Basic YWxpY2U6c2VjcmV0".toList

def aliceServer : Sessions.Program Instant Shared ConnPhase Occurrence (Input 4) Act :=
  (setupFor [aliceTunnel]).server (some aliceOnly) .wsOnly

/-- Newest first: the file is changed while the head of one of two is read. -/
def changedMeanwhile : List (Instant × Call Occurrence (Input 4)) :=
  [(5, .input 0 (.answered true)),
    (4, .input 1 (.read none ⟨none, none⟩)),
    (3, .input 0 (.read (some (aliceTunnel.head.drop 7)) ⟨none, none⟩)),
    (2, .world (.reloadAuthFile (some "alice:other".toList))),
    (1, .input 0 (.read (some (aliceTunnel.head.take 7)) ⟨none, none⟩)),
    (0, .world (.accept 0 true)),
    (0, .world (.accept 0 true))]

/-- The old password is refused, though its request began before the reload. -/
theorem connections_serializable_changed :
    effects (outputs 0 (aliceServer.machine.exec (serverStart aliceOnly) changedMeanwhile).1) =
      [.refuse (unauthorizedResponse true none)] := by
  have hrun : Run aliceServer.machine
      (aliceServer.machine.exec (serverStart aliceOnly) changedMeanwhile).1
      (aliceServer.machine.exec (serverStart aliceOnly) changedMeanwhile).2 5 :=
    .exec ⟨rfl, rfl⟩ (by decide)
  obtain ⟨phase, hphase⟩ := Option.isSome_iff_exists.mp (show
    ((aliceServer.machine.exec (serverStart aliceOnly) changedMeanwhile).2.sessions[0]?).isSome from
      by decide +kernel)
  exact (connections_serializable hrun hphase).1.trans (by decide +kernel)

end Ws2tcpRouter
