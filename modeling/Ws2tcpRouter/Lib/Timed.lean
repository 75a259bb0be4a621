import Mathlib.Order.Basic

/-!
# Runs of a timed machine

A machine answers calls that arrive at non-decreasing times. A run is the log
of the calls it answered, newest first, with the state and the time it has
reached. The rules here are what a proof about every run needs: the invariant
rule, what holds from one event on, and the comparison of two machines that
answer the same calls.
-/

namespace Timed

/-- One answered call: when, the state it found, what was asked and what
was answered. -/
structure Event (τ σ ι ο : Type*) where
  time : τ
  before : σ
  call : ι
  reply : ο

/-- The states a machine may start in at a time, and what a call at a time
does to a state and answers. -/
structure Machine (τ σ ι ο : Type*) where
  start : τ → σ → Prop
  step : τ → σ → ι → σ × ο

variable {τ σ σ' ι ο ο' : Type*} [Preorder τ]

/-- The runs of `m`: the log, the state reached and the time of the last
call. -/
inductive Run (m : Machine τ σ ι ο) : List (Event τ σ ι ο) → σ → τ → Prop
  | start {t s} : m.start t s → Run m [] s t
  | call {log s last now} (i : ι) : Run m log s last → last ≤ now →
      Run m (⟨now, s, i, (m.step now s i).2⟩ :: log) (m.step now s i).1 now

namespace Run

variable {m : Machine τ σ ι ο}

/-- What every start establishes and every call keeps holds of every run. -/
theorem invariant (I : List (Event τ σ ι ο) → σ → τ → Prop)
    (start : ∀ t s, m.start t s → I [] s t)
    (call : ∀ log s last now i, Run m log s last → I log s last → last ≤ now →
      I (⟨now, s, i, (m.step now s i).2⟩ :: log) (m.step now s i).1 now)
    (h : Run m log s t) : I log s t := by
  induction h with
  | start hs => exact start _ _ hs
  | call i hr hle ih => exact call _ _ _ _ i hr ih hle

/-- The newest event of a run was the machine's step from a run of the rest. -/
theorem cons_inv (h : Run m (e :: log) s t) :
    ∃ last, Run m log e.before last ∧ last ≤ e.time ∧ t = e.time ∧
      e.reply = (m.step e.time e.before e.call).2 ∧ s = (m.step e.time e.before e.call).1 := by
  cases h with
  | call i hr hle => exact ⟨_, hr, hle, rfl, rfl, rfl⟩

/-- Every run extends a run of its older events. -/
theorem older (h : Run m (later ++ log) s t) : ∃ s₀ t₀, Run m log s₀ t₀ ∧ t₀ ≤ t := by
  induction later generalizing s t with
  | nil => exact ⟨s, t, h, le_refl t⟩
  | cons e later ih =>
    obtain ⟨last, hr, hle, rfl, -, -⟩ := cons_inv h
    obtain ⟨s₀, t₀, h₀, hle₀⟩ := ih hr
    exact ⟨s₀, t₀, h₀, hle₀.trans hle⟩

theorem time_le (h : Run m log s t) : ∀ e ∈ log, e.time ≤ t := by
  induction h with
  | start _ => simp
  | call i _ hle ih =>
    intro e he
    rcases List.mem_cons.mp he with rfl | he
    · exact le_refl _
    · exact (ih e he).trans hle

theorem event (h : Run m log s t) (he : e ∈ log) :
    ∃ earlier last, Run m earlier e.before last ∧ last ≤ e.time ∧
      e.reply = (m.step e.time e.before e.call).2 := by
  induction h with
  | start _ => simp at he
  | @call log s last now i hr hle ih =>
    rcases List.mem_cons.mp he with rfl | he
    · exact ⟨log, last, hr, hle, rfl⟩
    · exact ih he

/-- Where an event stands in its run. -/
theorem split (h : Run m (later ++ log) s t) (he : e ∈ later) :
    ∃ newer older last, later = newer ++ e :: older ∧ Run m (older ++ log) e.before last ∧
      last ≤ e.time ∧ e.reply = (m.step e.time e.before e.call).2 := by
  obtain ⟨newer, older, rfl⟩ := List.append_of_mem he
  rw [List.append_assoc] at h
  obtain ⟨s₀, t₀, h₀, -⟩ := h.older
  obtain ⟨last, hr, hle, -, hreply, -⟩ := cons_inv h₀
  exact ⟨newer, older, last, rfl, hr, hle, hreply⟩

/-- A state a run has gone through was reached by its older events. -/
theorem reached (h : Run m log s t) (hs : s' ∈ s :: log.map Event.before) :
    ∃ older t', older <:+ log ∧ Run m older s' t' := by
  obtain rfl | hs := List.mem_cons.mp hs
  · exact ⟨log, t, List.suffix_rfl, h⟩
  · obtain ⟨e, he, rfl⟩ := List.mem_map.mp hs
    obtain ⟨newer, older, rfl⟩ := List.append_of_mem he
    obtain ⟨s₀, t₀, h₀, -⟩ := h.older
    obtain ⟨last, hr, -⟩ := cons_inv h₀
    exact ⟨older, last, (List.suffix_cons e older).trans (List.suffix_append _ _), hr⟩

/-- After its older events a run was in one of the states it has gone through. -/
theorem suffix (h : Run m log s t) (hsuffix : earlier <:+ log) :
    ∃ s' ∈ s :: log.map Event.before, ∃ t', Run m earlier s' t' := by
  induction h with
  | start hs =>
    obtain rfl := List.suffix_nil.mp hsuffix
    exact ⟨_, List.mem_cons_self, _, .start hs⟩
  | call i hr hle ih =>
    obtain rfl | hsuffix := List.suffix_cons_iff.mp hsuffix
    · exact ⟨_, List.mem_cons_self, _, .call i hr hle⟩
    · obtain ⟨s', hs', t', hrun⟩ := ih hsuffix
      exact ⟨s', List.mem_cons_of_mem _ hs', t', hrun⟩

/-- From one event on: what holds after `earlier` and is kept by every call
of `later` is what each of them finds, and what holds at the end. -/
theorem after (Q : σ → τ → Prop) (Ok : Event τ σ ι ο → Prop)
    (keep : ∀ log last e, Run m log e.before last → Q e.before last → last ≤ e.time → Ok e →
      e.reply = (m.step e.time e.before e.call).2 → Q (m.step e.time e.before e.call).1 e.time)
    (h : Run m (later ++ earlier) s t) (h₀ : ∀ s₀ t₀, Run m earlier s₀ t₀ → Q s₀ t₀)
    (hok : ∀ e ∈ later, Ok e) :
    Q s t ∧ ∀ e ∈ later, ∃ last, last ≤ e.time ∧ Q e.before last ∧
      e.reply = (m.step e.time e.before e.call).2 := by
  induction later generalizing s t with
  | nil => exact ⟨h₀ s t h, by simp⟩
  | cons e later ih =>
    obtain ⟨last, hr, hle, rfl, hreply, rfl⟩ := cons_inv h
    obtain ⟨hq, hlater⟩ := ih hr fun e' he' => hok e' (List.mem_cons_of_mem _ he')
    refine ⟨keep _ _ e hr hq hle (hok e List.mem_cons_self) hreply, ?_⟩
    intro e' he'
    rcases List.mem_cons.mp he' with rfl | he'
    · exact ⟨last, hle, hq, hreply⟩
    · exact hlater e' he'

end Run

-- ---------------------------------------------------------------------------
-- A machine inside another
-- ---------------------------------------------------------------------------

/-- What `m'` did in an event of a machine that holds its state and may call it. -/
def Event.within (m' : Machine τ σ' ι' ο') (view : σ → σ') (call : σ → ι → Option ι')
    (e : Event τ σ ι ο) : Option (Event τ σ' ι' ο') :=
  (call e.before e.call).map fun i =>
    ⟨e.time, view e.before, i, (m'.step e.time (view e.before) i).2⟩

/-- The inner machine's run inside a run. Only states that are reached count. -/
theorem Run.within_run {m : Machine τ σ ι ο} {m' : Machine τ σ' ι' ο'} {view : σ → σ'}
    {call : σ → ι → Option ι'} (hstart : ∀ t s, m.start t s → m'.start t (view s))
    (hstep : ∀ log s last, Run m log s last → ∀ now i, view (m.step now s i).1 =
      (call s i).elim (view s) fun i' => (m'.step now (view s) i').1)
    (h : Run m log s t) :
    ∃ t', t' ≤ t ∧ Run m' (log.filterMap (Event.within m' view call)) (view s) t' := by
  induction h with
  | start hs => exact ⟨_, le_refl _, .start (hstart _ _ hs)⟩
  | @call log s last now i hr hle ih =>
    obtain ⟨t', ht', hrun⟩ := ih
    rw [hstep log s last hr]
    cases hcall : call s i with
    | none =>
      rw [List.filterMap_cons_none (by simp [Event.within, hcall])]
      exact ⟨t', ht'.trans hle, hrun⟩
    | some i' =>
      rw [List.filterMap_cons_some (by simp only [Event.within, hcall, Option.map_some]; rfl)]
      exact ⟨now, le_refl _, .call i' hrun (ht'.trans hle)⟩

theorem Run.within {m : Machine τ σ ι ο} {m' : Machine τ σ' ι' ο'} {view : σ → σ'}
    {call : σ → ι → Option ι'} (hstart : ∀ t s, m.start t s → m'.start t (view s))
    (hstep : ∀ now s i, view (m.step now s i).1 =
      (call s i).elim (view s) fun i' => (m'.step now (view s) i').1)
    (h : Run m log s t) :
    ∃ t', t' ≤ t ∧ Run m' (log.filterMap (Event.within m' view call)) (view s) t' := by
  refine h.within_run hstart ?_
  intro _ s _ _ now i
  exact hstep now s i

-- ---------------------------------------------------------------------------
-- Running a list of calls
-- ---------------------------------------------------------------------------

/-- The log and the state after calls at given times, newest first. -/
def Machine.exec (m : Machine τ σ ι ο) (s : σ) : List (τ × ι) → List (Event τ σ ι ο) × σ
  | [] => ([], s)
  | (now, i) :: calls =>
    let run := m.exec s calls
    (⟨now, run.2, i, (m.step now run.2 i).2⟩ :: run.1, (m.step now run.2 i).1)

omit [Preorder τ] in
theorem Machine.exec_call (m : Machine τ σ ι ο) (s : σ) (calls : List (τ × ι)) :
    (m.exec s calls).1.map Event.call = calls.map Prod.snd := by
  induction calls with
  | nil => rfl
  | cons c calls ih => exact congrArg (List.cons c.2) ih

/-- Calls in the order of their times make a run. -/
theorem Run.exec {m : Machine τ σ ι ο} {calls : List (τ × ι)} (hs : m.start t s)
    (hsorted : (calls.map Prod.fst ++ [t]).Pairwise (· ≥ ·)) :
    Run m (m.exec s calls).1 (m.exec s calls).2 ((calls.map Prod.fst).headD t) := by
  induction calls with
  | nil => exact .start hs
  | cons c calls ih =>
    obtain ⟨hfirst, hrest⟩ := List.pairwise_cons.mp hsorted
    refine .call c.2 (ih hrest) (hfirst _ ?_)
    cases calls with
    | nil => exact List.mem_singleton_self _
    | cons c' calls => exact List.mem_cons_self

-- ---------------------------------------------------------------------------
-- Two machines on the same calls
-- ---------------------------------------------------------------------------

def Machine.both (m : Machine τ σ ι ο) (m' : Machine τ σ' ι ο') :
    Machine τ (σ × σ') ι (ο × ο') where
  start t s := m.start t s.1 ∧ m'.start t s.2
  step t s i := (((m.step t s.1 i).1, (m'.step t s.2 i).1), ((m.step t s.1 i).2, (m'.step t s.2 i).2))

def Event.left (e : Event τ (σ × σ') ι (ο × ο')) : Event τ σ ι ο :=
  ⟨e.time, e.before.1, e.call, e.reply.1⟩

theorem Run.left {m : Machine τ σ ι ο} {m' : Machine τ σ' ι ο'} (h : Run (m.both m') log s t) :
    Run m (log.map Event.left) s.1 t := by
  induction h with
  | start hs => exact .start hs.1
  | call i _ hle ih => exact .call i ih hle

/-- Two machines whose states stay related answer every call alike. The step
may use what the run so far says of the first machine. -/
theorem Run.agree {m : Machine τ σ ι ο} {m' : Machine τ σ' ι ο} (R : τ → σ → σ' → Prop)
    (Ok : List (Event τ σ ι ο) → Prop) (ok_tail : ∀ e log, Ok (e :: log) → Ok log)
    (start : ∀ t s s', m.start t s → m'.start t s' → R t s s')
    (step : ∀ log s s' last now i, Run m log s last → R last s s' → last ≤ now →
      Ok (⟨now, s, i, (m.step now s i).2⟩ :: log) →
      (m.step now s i).2 = (m'.step now s' i).2 ∧ R now (m.step now s i).1 (m'.step now s' i).1)
    (h : Run (m.both m') log s t) (hok : Ok (log.map Event.left)) :
    R t s.1 s.2 ∧ ∀ e ∈ log, e.reply.1 = e.reply.2 := by
  induction h with
  | start hs => exact ⟨start _ _ _ hs.1 hs.2, by simp⟩
  | call i hr hle ih =>
    obtain ⟨hR, hall⟩ := ih (ok_tail _ _ hok)
    obtain ⟨heq, hR'⟩ := step _ _ _ _ _ i hr.left hR hle hok
    refine ⟨hR', ?_⟩
    intro e he
    rcases List.mem_cons.mp he with rfl | he
    · exact heq
    · exact hall e he

end Timed
