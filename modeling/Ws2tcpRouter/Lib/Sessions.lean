import Ws2tcpRouter.Lib.Timed

/-!
# Sessions over a shared state

A server holds many sessions. Each has a state of its own and takes, one at a
time, the inputs it awaits; what it does with one may read and change the state
they all share. The inputs of the sessions come in any order, between actions
of the outside on the shared state. The rules here take one session out of a
run: it went through its own inputs, each in the shared state it found.
-/

namespace Sessions

open Timed (Run)

structure Program (τ σ κ α ι ο : Type*) where
  start : τ → σ → Prop
  /-- An action of the outside, and the session it opens, if any. -/
  world : τ → σ → α → σ × Option κ
  awaits : κ → ι → Bool
  input : τ → σ → κ → ι → σ × κ × List ο

structure State (σ κ : Type*) where
  shared : σ
  sessions : List κ

inductive Call (α ι : Type*)
  | world (action : α)
  | input (n : Nat) (input : ι)

/-- An input of a session, with the time and the shared state it found. -/
structure Moment (τ σ ι : Type*) where
  time : τ
  shared : σ
  input : ι

abbrev Event (τ σ κ α ι ο : Type*) := Timed.Event τ (State σ κ) (Call α ι) (List ο)

variable {τ σ κ α ι ο : Type*}

namespace Program

variable (P : Program τ σ κ α ι ο)

def step (now : τ) (s : State σ κ) : Call α ι → State σ κ × List ο
  | .world action =>
    let r := P.world now s.shared action
    (⟨r.1, s.sessions ++ r.2.toList⟩, [])
  | .input n input =>
    match s.sessions[n]? with
    | none => (s, [])
    | some k =>
      if P.awaits k input then
        let r := P.input now s.shared k input
        (⟨r.1, s.sessions.set n r.2.1⟩, r.2.2)
      else (s, [])

def machine : Timed.Machine τ (State σ κ) (Call α ι) (List ο) where
  start t s := P.start t s.shared ∧ s.sessions = []
  step := P.step

/-- What one session goes through on its own, newest first. -/
inductive Local (k₀ : κ) : List (Moment τ σ ι) → κ → List ο → Prop
  | start : Local k₀ [] k₀ []
  | input {own k out} (m : Moment τ σ ι) : Local k₀ own k out → P.awaits k m.input = true →
      Local k₀ (m :: own) (P.input m.time m.shared k m.input).2.1
        (out ++ (P.input m.time m.shared k m.input).2.2)

/-- The moment an event is for a session, where it takes the input. -/
def moment (n : Nat) (e : Event τ σ κ α ι ο) : Option (Moment τ σ ι) :=
  match e.call with
  | .world _ => none
  | .input n' input =>
    if n' = n ∧ (e.before.sessions[n']?).any (P.awaits · input) then
      some ⟨e.time, e.before.shared, input⟩
    else none

def own (n : Nat) (log : List (Event τ σ κ α ι ο)) : List (Moment τ σ ι) :=
  log.filterMap (P.moment n)

end Program

/-- What a session put out, oldest first. -/
def outputs (n : Nat) : List (Event τ σ κ α ι ο) → List ο
  | [] => []
  | e :: log =>
    outputs n log ++ match e.call with
      | .world _ => []
      | .input n' _ => if n' = n then e.reply else []

variable {P : Program τ σ κ α ι ο}

-- ---------------------------------------------------------------------------
-- What a step does
-- ---------------------------------------------------------------------------

theorem step_taken {s : State σ κ} (hk : s.sessions[n]? = some k)
    (hawaits : P.awaits k i = true) :
    P.step now s (.input n i) =
      (⟨(P.input now s.shared k i).1, s.sessions.set n (P.input now s.shared k i).2.1⟩,
        (P.input now s.shared k i).2.2) := by
  simp only [Program.step, hk, hawaits, if_true]

/-- An input is taken by its session, or nothing happens. -/
theorem step_input (P : Program τ σ κ α ι ο) (now : τ) (s : State σ κ) (n : Nat) (i : ι) :
    (∃ k, s.sessions[n]? = some k ∧ P.awaits k i = true) ∨
      ((s.sessions[n]?).any (P.awaits · i) = false ∧
        P.step now s (.input n i) = (s, [])) := by
  cases hk : s.sessions[n]? with
  | none => exact .inr ⟨rfl, by simp only [Program.step, hk]⟩
  | some k =>
    cases hawaits : P.awaits k i with
    | true => exact .inl ⟨k, rfl, hawaits⟩
    | false =>
      refine .inr ⟨hawaits, ?_⟩
      simp [Program.step, hk, hawaits]

theorem moment_taken {e : Event τ σ κ α ι ο} (hcall : e.call = .input n i)
    (hk : e.before.sessions[n]? = some k) (hawaits : P.awaits k i = true) :
    P.moment n e = some ⟨e.time, e.before.shared, i⟩ := by
  simp [Program.moment, hcall, hk, hawaits]

theorem moment_eq_some {e : Event τ σ κ α ι ο} (h : P.moment n e = some m) :
    ∃ k, e.call = .input n m.input ∧ e.before.sessions[n]? = some k ∧
      P.awaits k m.input = true ∧ m = ⟨e.time, e.before.shared, m.input⟩ := by
  unfold Program.moment at h
  split at h
  next => cases h
  next n' i hcall =>
    obtain ⟨⟨rfl, hany⟩, heq⟩ := Option.ite_none_right_eq_some.mp h
    cases heq
    cases hk : e.before.sessions[n']? with
    | none =>
      rw [hk] at hany
      cases hany
    | some k =>
      rw [hk] at hany
      exact ⟨k, hcall, rfl, hany, rfl⟩

-- ---------------------------------------------------------------------------
-- One session of a run
-- ---------------------------------------------------------------------------

/-- A session stands where its own inputs of the log have brought it. -/
def Stands (P : Program τ σ κ α ι ο) (k₀ : κ) (log : List (Event τ σ κ α ι ο)) (s : State σ κ)
    (n : Nat) : Prop :=
  ∃ k, s.sessions[n]? = some k ∧ P.Local k₀ (P.own n log) k (outputs n log)

/-- An event that is none of a session's leaves it where it stands. -/
theorem Stands.other {s s' : State σ κ} (h : Stands P k₀ log s n) {e : Event τ σ κ α ι ο}
    (hmoment : P.moment n e = none) (hout : outputs n (e :: log) = outputs n log)
    (hsame : s'.sessions[n]? = s.sessions[n]?) : Stands P k₀ (e :: log) s' n := by
  obtain ⟨k, hk, hlocal⟩ := h
  refine ⟨k, hsame.trans hk, ?_⟩
  have hown : P.own n (e :: log) = P.own n log := List.filterMap_cons_none hmoment
  rwa [hown, hout]

theorem Stands.taken {s : State σ κ} (h : Stands P k₀ log s n) (now : τ)
    (hk : s.sessions[n]? = some k) (hawaits : P.awaits k i = true) :
    Stands P k₀ (⟨now, s, .input n i, (P.step now s (.input n i)).2⟩ :: log)
      (P.step now s (.input n i)).1 n := by
  obtain ⟨k', hk', hlocal⟩ := h
  obtain rfl : k' = k := Option.some.inj (hk'.symm.trans hk)
  have hlt := (List.getElem?_eq_some_iff.mp hk).1
  refine ⟨(P.input now s.shared k' i).2.1, ?_, ?_⟩
  · rw [step_taken hk hawaits]
    exact List.getElem?_set_self hlt
  · have hown : P.own n (⟨now, s, .input n i, (P.step now s (.input n i)).2⟩ :: log) =
        ⟨now, s.shared, i⟩ :: P.own n log :=
      List.filterMap_cons_some (moment_taken rfl hk hawaits)
    have hout : outputs n (⟨now, s, .input n i, (P.step now s (.input n i)).2⟩ :: log) =
        outputs n log ++ (P.input now s.shared k' i).2.2 := by
      simp only [outputs, if_true, step_taken hk hawaits]
    rw [hown, hout]
    exact .input ⟨now, s.shared, i⟩ hlocal hawaits

theorem Stands.step {s : State σ κ} (h : Stands P k₀ log s n) (now : τ) (c : Call α ι) :
    Stands P k₀ (⟨now, s, c, (P.step now s c).2⟩ :: log) (P.step now s c).1 n := by
  cases c with
  | world action =>
    have hlt : n < s.sessions.length := by
      obtain ⟨k, hk, -⟩ := h
      exact (List.getElem?_eq_some_iff.mp hk).1
    exact h.other rfl (List.append_nil _) (List.getElem?_append_left hlt)
  | input n' i =>
    obtain ⟨k, hk, hawaits⟩ | ⟨hnot, hstep⟩ := step_input P now s n' i
    · by_cases hn : n' = n
      · subst hn
        exact h.taken now hk hawaits
      · refine h.other (by simp [Program.moment, hn]) (by simp [outputs, hn]) ?_
        rw [step_taken hk hawaits]
        exact List.getElem?_set_ne hn
    · refine h.other (by simp [Program.moment, hnot]) (by simp [outputs, hstep]) ?_
      rw [hstep]

/-- From any state on, a session goes through its own inputs, whatever happens
between them. -/
theorem exec_stands (P : Program τ σ κ α ι ο) {s : State σ κ} (hk : s.sessions[n]? = some k)
    (calls : List (τ × Call α ι)) :
    Stands P k (P.machine.exec s calls).1 (P.machine.exec s calls).2 n := by
  induction calls with
  | nil => exact ⟨k, hk, .start⟩
  | cons c calls ih => exact ih.step c.1 c.2

/-- The session was opened with this state by an action of the log. -/
def Opened (P : Program τ σ κ α ι ο) (log : List (Event τ σ κ α ι ο)) (k₀ : κ) : Prop :=
  ∃ e ∈ log, ∃ action, e.call = .world action ∧
    (P.world e.time e.before.shared action).2 = some k₀

theorem Opened.cons (h : Opened P log k₀) (e : Event τ σ κ α ι ο) : Opened P (e :: log) k₀ := by
  obtain ⟨e', he', hopened⟩ := h
  exact ⟨e', List.mem_cons_of_mem _ he', hopened⟩

/-- The session is not there yet. -/
def Absent (P : Program τ σ κ α ι ο) (log : List (Event τ σ κ α ι ο)) (s : State σ κ) (n : Nat) :
    Prop :=
  s.sessions[n]? = none ∧ P.own n log = [] ∧ outputs n log = []

theorem Absent.other {s s' : State σ κ} (h : Absent P log s n) {e : Event τ σ κ α ι ο}
    (hmoment : P.moment n e = none) (hout : outputs n (e :: log) = outputs n log)
    (hsame : s'.sessions[n]? = none) : Absent P (e :: log) s' n :=
  ⟨hsame, (List.filterMap_cons_none hmoment).trans h.2.1, hout.trans h.2.2⟩

theorem Absent.step {s : State σ κ} (h : Absent P log s n) (now : τ) (c : Call α ι) :
    Absent P (⟨now, s, c, (P.step now s c).2⟩ :: log) (P.step now s c).1 n ∨
      ∃ k, Opened P (⟨now, s, c, (P.step now s c).2⟩ :: log) k ∧
        Stands P k (⟨now, s, c, (P.step now s c).2⟩ :: log) (P.step now s c).1 n := by
  cases c with
  | world action =>
    cases hnew : (P.step now s (.world action)).1.sessions[n]? with
    | none => exact .inl (h.other rfl (List.append_nil _) hnew)
    | some k =>
      have hright : (P.step now s (.world action)).1.sessions[n]? =
          (P.world now s.shared action).2.toList[n - s.sessions.length]? :=
        List.getElem?_append_right (List.getElem?_eq_none_iff.mp h.1)
      have hopens := Option.mem_toList.mp (List.mem_of_getElem? (hright.symm.trans hnew))
      refine .inr ⟨k, ⟨_, List.mem_cons_self, action, rfl, hopens⟩, k, hnew, ?_⟩
      obtain ⟨-, hown, hout⟩ := h
      rw [Program.own, List.filterMap_cons_none rfl]
      rw [Program.own] at hown
      rw [hown, outputs, hout]
      exact .start
  | input n' i =>
    obtain ⟨k, hk, hawaits⟩ | ⟨hnot, hstep⟩ := step_input P now s n' i
    · have hn : n' ≠ n := by
        rintro rfl
        cases h.1.symm.trans hk
      refine .inl (h.other (by simp [Program.moment, hn]) (by simp [outputs, hn]) ?_)
      rw [step_taken hk hawaits]
      exact (List.getElem?_set_ne hn).trans h.1
    · refine .inl (h.other (by simp [Program.moment, hnot]) (by simp [outputs, hstep]) ?_)
      rw [hstep]
      exact h.1

section
variable [Preorder τ]

/-- In every run a session stands where its own inputs have brought it, each in
the shared state it found. -/
theorem session (h : Run P.machine log s t) (hk : s.sessions[n]? = some k) :
    ∃ k₀, Opened P log k₀ ∧ P.Local k₀ (P.own n log) k (outputs n log) := by
  have hall : Absent P log s n ∨ ∃ k₀, Opened P log k₀ ∧ Stands P k₀ log s n := by
    clear hk
    induction h with
    | start hs =>
      refine .inl ⟨?_, rfl, rfl⟩
      rw [hs.2]
      rfl
    | call c _ _ ih =>
      obtain habsent | ⟨k₀, hopened, hstands⟩ := ih
      · exact habsent.step _ c
      · exact .inr ⟨k₀, hopened.cons _, hstands.step _ c⟩
  obtain ⟨hnone, -⟩ | ⟨k₀, hopened, k', hk', hlocal⟩ := hall
  · cases hk.symm.trans hnone
  · obtain rfl : k' = k := Option.some.inj (hk'.symm.trans hk)
    exact ⟨k₀, hopened, hlocal⟩

end

-- ---------------------------------------------------------------------------
-- Sessions that no longer look at the shared state
-- ---------------------------------------------------------------------------

/-- From a state on in which a session neither reads nor changes the shared
state, only its own inputs count. -/
theorem Program.Local.apart (Apart : κ → Prop)
    (apart : ∀ k i, Apart k → P.awaits k i = true → ∀ t σ t' σ',
      (P.input t σ k i).1 = σ ∧ (P.input t σ k i).2 = (P.input t' σ' k i).2 ∧
        Apart (P.input t σ k i).2.1)
    (h : P.Local k₀ l k out) (h₀ : Apart k₀) :
    Apart k ∧ ∀ l', l'.map Moment.input = l.map Moment.input → P.Local k₀ l' k out := by
  induction h with
  | start =>
    refine ⟨h₀, ?_⟩
    intro l' hsame
    rw [List.map_eq_nil_iff.mp hsame]
    exact .start
  | @input l k out m _ hawaits ih =>
    obtain ⟨hk, hother⟩ := ih
    refine ⟨(apart k m.input hk hawaits m.time m.shared m.time m.shared).2.2, ?_⟩
    intro l' hsame
    cases l' with
    | nil => cases hsame
    | cons m' l' =>
      obtain ⟨hinput, hrest⟩ := List.cons.inj hsame
      have hawaits' : P.awaits k m'.input = true := by rwa [hinput]
      have hstep := (apart k m'.input hk hawaits' m.time m.shared m'.time m'.shared).2.1
      rw [← hinput, hstep]
      exact .input m' (hother l' hrest) hawaits'

end Sessions
