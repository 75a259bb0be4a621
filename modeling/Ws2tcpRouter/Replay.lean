import Ws2tcpRouter.HttpProbe

/-!
# Replaying the request head

`ReplayStream` of `http_probe.rs`: what was read ahead is read again first,
into buffers of any size, and then the rest of the stream. The bytes come out
as they went in.
-/

namespace Ws2tcpRouter

/-- The size of the buffer `read_request_head` reads into. -/
def chunkSize : Nat := 2048

/-- One read into a buffer of that size. Nothing is read at the end of the
stream; what does not fit is left for the next read. -/
def Stream.read (stream : Stream) (size : Nat) : Option Bytes × Stream :=
  match stream.reads with
  | [] => (if stream.fails then none else some [], stream)
  | chunk :: rest =>
    (some (chunk.take size),
      { stream with reads := if chunk.drop size = [] then rest else chunk.drop size :: rest })

structure ReplayStream where
  prefixBytes : Bytes
  position : Nat
  inner : Stream

namespace ReplayStream

def new (prefixBytes : Bytes) (inner : Stream) : ReplayStream := ⟨prefixBytes, 0, inner⟩

/-- `poll_read` into a buffer with that many bytes remaining, once it is ready. -/
def pollRead (s : ReplayStream) (remaining : Nat) : Option Bytes × ReplayStream :=
  if s.position < s.prefixBytes.length then
    let n := min remaining (s.prefixBytes.length - s.position)
    (some ((s.prefixBytes.drop s.position).take n), { s with position := s.position + n })
  else
    let r := s.inner.read remaining
    (r.1, { s with inner := r.2 })

/-- Reads into buffers of these sizes, one after the other. -/
def readAll (s : ReplayStream) : List Nat → List (Option Bytes) × ReplayStream
  | [] => ([], s)
  | size :: sizes =>
    let r := s.pollRead size
    let rest := readAll r.2 sizes
    (r.1 :: rest.1, rest.2)

def left (s : ReplayStream) : Bytes := s.prefixBytes.drop s.position ++ s.inner.reads.flatten

end ReplayStream

-- ---------------------------------------------------------------------------
-- Reading ahead
-- ---------------------------------------------------------------------------

/-- Nothing more is read after this. -/
def stops (head : Bytes) : Bool := headComplete head || maxRequestHead ≤ head.length

theorem readRequestHead_stop (h : stops head = true) :
    readRequestHead fails head reads = some (head, reads) := by
  cases reads <;> exact if_pos h

theorem readRequestHead_read (h : stops head = false) (hne : chunk ≠ []) :
    readRequestHead fails head (chunk :: rest) = readRequestHead fails (head ++ chunk) rest :=
  (if_neg (Bool.eq_false_iff.mp h)).trans (if_neg hne)

/-- The loop rule: what every read keeps holds of the head that is returned. The
loop ends where the reading stops, or at the end of a stream that does not fail. -/
theorem readRequestHead_rule (I : Bytes → List Bytes → Prop)
    (keep : ∀ head chunk rest, stops head = false → chunk ≠ [] → I head (chunk :: rest) →
      I (head ++ chunk) rest)
    (h₀ : I head reads) (h : readRequestHead fails head reads = some (head', rest)) :
    (stops head' = true ∧ I head' rest) ∨
      (stops head' = false ∧ (fails = false ∧ rest = [] ∧ I head' [] ∨ I head' ([] :: rest))) := by
  induction reads generalizing head with
  | nil =>
    unfold readRequestHead at h
    split at h
    next hstops =>
      cases h
      exact .inl ⟨hstops, h₀⟩
    next hmore =>
      split at h
      next => cases h
      next hfails =>
        cases h
        exact .inr ⟨Bool.eq_false_iff.mpr hmore, .inl ⟨Bool.eq_false_iff.mpr hfails, rfl, h₀⟩⟩
  | cons chunk reads ih =>
    unfold readRequestHead at h
    split at h
    next hstops =>
      cases h
      exact .inl ⟨hstops, h₀⟩
    next hmore =>
      split at h
      next hempty =>
        cases h
        rw [hempty] at h₀
        exact .inr ⟨Bool.eq_false_iff.mpr hmore, .inr h₀⟩
      next hne => exact ih (keep head chunk reads (Bool.eq_false_iff.mpr hmore) hne h₀) h

theorem readRequestHead_append (h : readRequestHead fails head reads = some (head', rest)) :
    head' ++ rest.flatten = head ++ reads.flatten := by
  have hall := readRequestHead_rule (fun head' rest => head' ++ rest.flatten = head ++ reads.flatten)
    (fun _ _ _ _ _ heq => by rw [← heq, List.flatten_cons, List.append_assoc]) rfl h
  rcases hall with ⟨-, heq⟩ | ⟨-, ⟨-, rfl, heq⟩ | heq⟩ <;> exact heq

theorem readRequestHead_suffix (h : readRequestHead fails head reads = some (head', rest)) :
    rest <:+ reads := by
  have hall := readRequestHead_rule (fun _ rest => rest <:+ reads)
    (fun _ chunk rest _ _ hs => (List.suffix_cons chunk rest).trans hs) List.suffix_rfl h
  rcases hall with ⟨-, hs⟩ | ⟨-, ⟨-, rfl, hs⟩ | hs⟩
  · exact hs
  · exact hs
  · exact (List.suffix_cons _ _).trans hs

/-- The last chunk was read at less than the limit. Only the chunks that make up
the head count. -/
theorem readRequestHead_length (hhead : head.length < maxRequestHead + chunkSize)
    (hchunks : ∀ ahead, reads = ahead ++ rest → ∀ chunk ∈ ahead, chunk.length ≤ chunkSize)
    (h : readRequestHead fails head reads = some (head', rest)) :
    head'.length < maxRequestHead + chunkSize := by
  have hall := readRequestHead_rule
    (fun head left => left <:+ reads ∧
      (rest <:+ left → head.length < maxRequestHead + chunkSize)) ?_
    ⟨List.suffix_rfl, fun _ => hhead⟩ h
  · rcases hall with ⟨-, -, hlength⟩ | ⟨-, ⟨-, rfl, -, hlength⟩ | ⟨-, hlength⟩⟩
    · exact hlength List.suffix_rfl
    · exact hlength List.suffix_rfl
    · exact hlength (List.suffix_cons _ _)
  rintro head chunk left hmore - ⟨hs, -⟩
  refine ⟨(List.suffix_cons chunk left).trans hs, ?_⟩
  rintro ⟨between, rfl⟩
  obtain ⟨before, rfl⟩ := hs
  have hchunk := hchunks (before ++ chunk :: between) (by simp) chunk (by simp)
  have hlt := of_decide_eq_false (Bool.or_eq_false_iff.mp hmore).2
  rw [List.length_append]
  omega

-- ---------------------------------------------------------------------------
-- Replaying
-- ---------------------------------------------------------------------------

section
variable {stream : Stream}

theorem Stream.read_append (stream : Stream) (size : Nat) :
    (stream.read size).1.getD [] ++ (stream.read size).2.reads.flatten = stream.reads.flatten := by
  obtain ⟨reads, fails⟩ := stream
  cases reads with
  | nil => cases fails <;> rfl
  | cons chunk rest =>
    simp only [Stream.read]
    split
    next hempty =>
      have hall := List.take_append_drop size chunk
      rw [hempty, List.append_nil] at hall
      rw [Option.getD_some, hall, List.flatten_cons]
    next => rw [Option.getD_some, List.flatten_cons, ← List.append_assoc, List.take_append_drop,
        List.flatten_cons]

def Stream.Nonempty (stream : Stream) : Prop := ∀ chunk ∈ stream.reads, chunk ≠ []

theorem Stream.Nonempty.read (h : stream.Nonempty) (size : Nat) :
    (stream.read size).2.Nonempty := by
  obtain ⟨reads, fails⟩ := stream
  cases reads with
  | nil => exact h
  | cons chunk rest =>
    obtain ⟨-, hrest⟩ := List.forall_mem_cons.mp h
    simp only [Stream.read]
    split
    next => exact hrest
    next hne => exact List.forall_mem_cons.mpr ⟨hne, hrest⟩

@[simp] theorem Stream.read_fails (stream : Stream) (size : Nat) :
    (stream.read size).2.fails = stream.fails := by
  unfold Stream.read
  split <;> rfl

/-- A read fails at the end of a stream that does, and nowhere else. -/
theorem Stream.read_none (h : (stream.read size).1 = none) :
    stream.fails = true ∧ stream.reads = [] := by
  obtain ⟨reads, fails⟩ := stream
  cases reads with
  | nil =>
    cases fails
    · cases h
    · exact ⟨rfl, rfl⟩
  | cons => cases h

theorem Stream.Nonempty.read_nil (h : stream.Nonempty) (hsize : 0 < size)
    (hread : (stream.read size).1 = some []) : stream.reads = [] := by
  obtain ⟨reads, fails⟩ := stream
  cases reads with
  | nil => rfl
  | cons chunk rest =>
    have htake : chunk.take size = [] := Option.some.inj hread
    rcases List.take_eq_nil_iff.mp htake with hzero | hempty
    · exact absurd hzero hsize.ne'
    · exact absurd hempty (h chunk List.mem_cons_self)

end

namespace ReplayStream

variable {s : ReplayStream}

theorem pollRead_append (s : ReplayStream) (size : Nat) :
    (s.pollRead size).1.getD [] ++ (s.pollRead size).2.left = s.left := by
  unfold pollRead left
  split
  next =>
    rw [Option.getD_some, ← List.append_assoc, ← List.drop_drop, List.take_append_drop]
  next hge =>
    have hdrop : s.prefixBytes.drop s.position = [] := List.drop_eq_nil_of_le (Nat.le_of_not_lt hge)
    simp only [hdrop, List.nil_append]
    exact s.inner.read_append size

theorem pollRead_position (h : s.position ≤ s.prefixBytes.length) (size : Nat) :
    (s.pollRead size).2.prefixBytes = s.prefixBytes ∧
      (s.pollRead size).2.position ≤ s.prefixBytes.length := by
  unfold pollRead
  split
  next => exact ⟨rfl, by dsimp only; omega⟩
  next => exact ⟨rfl, h⟩

@[simp] theorem pollRead_fails (s : ReplayStream) (size : Nat) :
    (s.pollRead size).2.inner.fails = s.inner.fails := by
  unfold pollRead
  split
  next => rfl
  next => exact s.inner.read_fails size

theorem pollRead_nonempty (h : s.inner.Nonempty) (size : Nat) :
    (s.pollRead size).2.inner.Nonempty := by
  unfold pollRead
  split
  next => exact h
  next => exact h.read size

theorem pollRead_nil (h : s.inner.Nonempty) (hsize : 0 < size)
    (hread : (s.pollRead size).1 = some []) : s.left = [] := by
  unfold pollRead at hread
  unfold left
  split at hread
  next hlt =>
    have hlength := congrArg List.length (Option.some.inj hread)
    rw [List.length_take, List.length_drop, List.length_nil] at hlength
    omega
  next hge =>
    rw [List.drop_eq_nil_of_le (Nat.le_of_not_lt hge), h.read_nil hsize hread]
    rfl

theorem pollRead_none (h : (s.pollRead size).1 = none) :
    s.inner.fails = true ∧ s.left = [] := by
  unfold pollRead at h
  unfold left
  split at h
  next => cases h
  next hge =>
    obtain ⟨hfails, hreads⟩ := Stream.read_none h
    rw [List.drop_eq_nil_of_le (Nat.le_of_not_lt hge), hreads]
    exact ⟨hfails, rfl⟩

theorem readAll_append (s : ReplayStream) (sizes : List Nat) :
    ((s.readAll sizes).1.map fun bytes => bytes.getD []).flatten ++ (s.readAll sizes).2.left =
      s.left := by
  induction sizes generalizing s with
  | nil => rfl
  | cons size sizes ih =>
    rw [readAll, List.map_cons, List.flatten_cons, List.append_assoc, ih]
    exact s.pollRead_append size

theorem readAll_position (h : s.position ≤ s.prefixBytes.length) (sizes : List Nat) :
    (s.readAll sizes).2.prefixBytes = s.prefixBytes ∧
      (s.readAll sizes).2.position ≤ s.prefixBytes.length := by
  induction sizes generalizing s with
  | nil => exact ⟨rfl, h⟩
  | cons size sizes ih =>
    obtain ⟨hstart, hposition⟩ := pollRead_position h size
    rw [← hstart] at hposition ⊢
    exact ih hposition

theorem readAll_fails (s : ReplayStream) (sizes : List Nat) :
    (s.readAll sizes).2.inner.fails = s.inner.fails := by
  induction sizes generalizing s with
  | nil => rfl
  | cons size sizes ih => exact (ih _).trans (s.pollRead_fails size)

theorem readAll_nonempty (h : s.inner.Nonempty) (sizes : List Nat) :
    (s.readAll sizes).2.inner.Nonempty := by
  induction sizes generalizing s with
  | nil => exact h
  | cons size sizes ih => exact ih (pollRead_nonempty h size)

end ReplayStream

/-- What was read ahead and is replayed is the stream: after reads into any
buffers, what came out and what is left make up the stream. A read fails only at
the end of a stream that does, and finds an end only there, so that all of it has
come out. No slice leaves the head, and the head is less than one chunk over the
limit. -/
theorem replay_lossless {stream : Stream}
    (hread : readRequestHead stream.fails [] stream.reads = some (head, rest))
    (sizes : List Nat) :
    let replayed := (ReplayStream.new head ⟨rest, stream.fails⟩).readAll sizes
    (replayed.1.map fun bytes => bytes.getD []).flatten ++ replayed.2.left =
      stream.reads.flatten ∧
    (∀ size, (replayed.2.pollRead size).1 = none → stream.fails = true ∧ replayed.2.left = []) ∧
    (stream.Nonempty → ∀ size, 0 < size → (replayed.2.pollRead size).1 = some [] →
      replayed.2.left = [] ∧
      (replayed.1.map fun bytes => bytes.getD []).flatten = stream.reads.flatten) ∧
    replayed.2.prefixBytes = head ∧ replayed.2.position ≤ head.length ∧
    ((∀ ahead, stream.reads = ahead ++ rest → ∀ chunk ∈ ahead, chunk.length ≤ chunkSize) →
      head.length < maxRequestHead + chunkSize) := by
  intro replayed
  have happend : (replayed.1.map fun bytes => bytes.getD []).flatten ++ replayed.2.left =
      stream.reads.flatten :=
    (ReplayStream.readAll_append _ sizes).trans (readRequestHead_append hread)
  obtain ⟨hstart, hposition⟩ :=
    @ReplayStream.readAll_position (.new head ⟨rest, stream.fails⟩) (Nat.zero_le _) sizes
  refine ⟨happend, ?_, ?_, hstart, hposition,
    fun hchunks => readRequestHead_length (by decide) hchunks hread⟩
  · intro size hfailed
    obtain ⟨hfails, hleft⟩ := ReplayStream.pollRead_none hfailed
    exact ⟨(ReplayStream.readAll_fails _ sizes).symm.trans hfails, hleft⟩
  · intro hnonempty size hsize hend
    have hrest : (⟨rest, stream.fails⟩ : Stream).Nonempty :=
      fun chunk hc => hnonempty chunk ((readRequestHead_suffix hread).subset hc)
    have hleft := ReplayStream.pollRead_nil (ReplayStream.readAll_nonempty hrest sizes) hsize hend
    rw [hleft, List.append_nil] at happend
    exact ⟨hleft, happend⟩

/-- A head in two reads, and a frame that came with its end. -/
theorem replay_lossless_frame :
    let head := Text.utf8 "GET / HTTP/1.1\r\n\r\n!".toList
    ((((ReplayStream.new head ⟨[], false⟩).readAll [0, 7, 0, 100]).1.map
      fun bytes => bytes.getD []).flatten) = head := by
  intro head
  have hread : readRequestHead false [] [head.take 5, head.drop 5] = some (head, []) := by
    decide +kernel
  obtain ⟨-, -, hend, -⟩ :=
    @replay_lossless _ _ ⟨[head.take 5, head.drop 5], false⟩ hread [0, 7, 0, 100]
  exact (hend (by unfold Stream.Nonempty; decide +kernel) 1 Nat.one_pos (by decide +kernel)).2

end Ws2tcpRouter
