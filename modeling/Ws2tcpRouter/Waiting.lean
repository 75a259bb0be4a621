import Ws2tcpRouter.Segmentation

/-!
# Waiting for the end of a head

The reading of a head looks for CRLF CRLF, the parser after it for an empty
line. A head that ends in a bare LF is complete for the one and not for the
other, which reads on where nothing more is sent.
-/

namespace Ws2tcpRouter

variable {parsers : Parsers} {bytes head : Bytes} {reads received : List Bytes}

-- ---------------------------------------------------------------------------
-- Returning without a further read
-- ---------------------------------------------------------------------------

/-- The reading returns with these reads, whatever would have followed. -/
def Returns (received : List Bytes) : Prop :=
  ∃ head rest, ∀ fails more,
    readRequestHead fails [] (received ++ more) = some (head, rest ++ more)

theorem readRequestHead_returns (hne : ∀ chunk ∈ received, chunk ≠ [])
    (h : stops (head ++ received.flatten) = true) :
    ∃ head' rest, ∀ fails more,
      readRequestHead fails head (received ++ more) = some (head', rest ++ more) := by
  induction received generalizing head with
  | nil =>
    rw [List.flatten_nil, List.append_nil] at h
    exact ⟨head, [], fun _ _ => readRequestHead_stop h⟩
  | cons chunk received ih =>
    obtain ⟨hchunk, hreceived⟩ := List.forall_mem_cons.mp hne
    rw [List.flatten_cons, ← List.append_assoc] at h
    cases hstops : stops head with
    | true => exact ⟨head, chunk :: received, fun _ _ => readRequestHead_stop hstops⟩
    | false =>
      obtain ⟨head', rest, hrest⟩ := ih hreceived h
      refine ⟨head', rest, ?_⟩
      intro fails more
      rw [List.cons_append, readRequestHead_read hstops hchunk, hrest]

/-- How the bytes were cut makes no difference to that. -/
theorem Cuts.returns_iff (hc : Cuts bytes received) : Returns received ↔ stops bytes = true := by
  constructor
  · rintro ⟨head, rest, hreturns⟩
    by_contra hmore
    have hnone := hc.none_iff.mpr ⟨rfl, Bool.eq_false_iff.mpr hmore⟩
    have hsome := hreturns true []
    rw [List.append_nil, hnone] at hsome
    cases hsome
  · intro h
    exact readRequestHead_returns hc.nonempty (by rwa [List.nil_append, hc.flatten])

theorem Cuts.take (hc : Cuts bytes reads) (h : received <+: reads) :
    Cuts (bytes.take received.flatten.length) received := by
  obtain ⟨later, rfl⟩ := h
  refine ⟨?_, ?_, ?_⟩
  · rw [← hc.flatten, List.flatten_append, List.take_left]
  · exact fun chunk hchunk => hc.nonempty chunk (List.mem_append_left _ hchunk)
  · exact fun chunk hchunk => hc.fits chunk (List.mem_append_left _ hchunk)

-- ---------------------------------------------------------------------------
-- Where CRLF CRLF stands
-- ---------------------------------------------------------------------------

/-- The number of bytes in the empty lines that come first. -/
def emptyLines : Bytes → Nat
  | 10 :: rest => emptyLines rest + 1
  | 13 :: 10 :: rest => emptyLines rest + 2
  | _ => 0

theorem headEndFrom_pos (h : headEndFrom begun line bytes = some e) : 0 < e := by
  rw [Nat.pos_iff_ne_zero]
  rintro rfl
  have htake := headEndFrom_take begun line bytes 0
  rw [h, List.take_zero] at htake
  cases htake

theorem headEndFrom_endOfHead (hline : begun = true ∨ line = .inside) (rest : Bytes) :
    ∃ e ≤ 4, headEndFrom begun line (endOfHead ++ rest) = some e := by
  cases line with
  | start =>
    cases hline.resolve_right (by rintro ⟨⟩)
    exact ⟨2, by decide, rfl⟩
  | cr =>
    cases hline.resolve_right (by rintro ⟨⟩)
    exact ⟨4, by decide, rfl⟩
  | inside => exact ⟨4, by decide, rfl⟩

/-- Behind the first byte of a line that is not empty, CRLF CRLF is the end. -/
theorem endOfHead_suffix (hline : begun = true ∨ line = .inside)
    (h : headEndFrom begun line bytes = some e) (hin : endOfHead <:+: bytes.take e) :
    endOfHead <:+ bytes.take e := by
  induction bytes generalizing begun line e with
  | nil => cases h
  | cons b rest ih =>
    obtain ⟨e, rfl⟩ := Nat.exists_eq_succ_of_ne_zero (headEndFrom_pos h).ne'
    rw [List.take_succ_cons, List.infix_cons_iff, ← List.take_succ_cons] at hin
    rcases hin with hpre | hin
    · obtain ⟨more, hmore⟩ := hpre.trans (List.take_prefix _ _)
      have hlength := hpre.length_le
      obtain ⟨e', hle, he'⟩ := headEndFrom_endOfHead hline more
      rw [hmore, h] at he'
      cases he'
      rw [List.length_take, show endOfHead.length = 4 from rfl] at hlength
      rw [← hmore, show e.succ = endOfHead.length by rw [show endOfHead.length = 4 from rfl]; omega,
        List.take_left]
    · rw [List.take_succ_cons]
      refine .trans ?_ (List.suffix_cons b _)
      unfold headEndFrom at h
      split at h
      next =>
        split at h
        next =>
          obtain ⟨e', he', heq⟩ := Option.map_eq_some_iff.mp h
          cases heq
          exact ih (.inl rfl) he' hin
        next hempty =>
          rw [if_pos (hline.resolve_right hempty)] at h
          cases h
          exact absurd hin (by simp [endOfHead])
      next =>
        obtain ⟨e', he', heq⟩ := Option.map_eq_some_iff.mp h
        cases heq
        refine ih ?_ he' hin
        refine hline.imp_right ?_
        rintro rfl
        exact if_neg (by simp)

theorem headEndFrom_cr (h : c ≠ 10) :
    headEndFrom begun .cr (c :: rest) = headEndFrom begun .inside (c :: rest) := by
  unfold headEndFrom
  simp [h]

/-- CRLF CRLF in a head is its end, or stands in the empty lines before it. -/
theorem endOfHead_cases (h : headEnd bytes = some e) (hin : endOfHead <:+: bytes.take e) :
    endOfHead <:+ bytes.take e ∨ endOfHead <:+: bytes.take (emptyLines bytes) := by
  induction bytes using emptyLines.induct generalizing e with
  | case1 rest ih =>
    obtain ⟨e', he', rfl⟩ := Option.map_eq_some_iff.mp h
    rw [List.take_succ_cons, List.infix_cons_iff] at hin
    have hin := hin.resolve_left (by rintro ⟨t, ⟨⟩⟩)
    rw [List.take_succ_cons, emptyLines, List.take_succ_cons]
    exact (ih he' hin).imp (·.trans (List.suffix_cons _ _)) (·.trans (List.suffix_cons _ _).isInfix)
  | case2 rest ih =>
    obtain ⟨_, hcr, rfl⟩ := Option.map_eq_some_iff.mp h
    obtain ⟨e', he', rfl⟩ := Option.map_eq_some_iff.mp hcr
    rw [List.take_succ_cons, List.take_succ_cons, List.infix_cons_iff, List.infix_cons_iff] at hin
    rw [emptyLines, List.take_succ_cons, List.take_succ_cons, List.take_succ_cons,
      List.take_succ_cons]
    rcases hin with hpre | hpre | hin
    · -- a second empty line
      obtain ⟨more, hmore⟩ :=
        hpre.trans (List.prefix_append (13 :: 10 :: rest.take e') (rest.drop e'))
      rw [List.cons_append, List.cons_append, List.take_append_drop] at hmore
      cases hmore
      exact .inr (List.IsPrefix.isInfix ⟨more.take (emptyLines more), rfl⟩)
    · obtain ⟨t, ⟨⟩⟩ := hpre
    · have hsuffix := fun l : Bytes => (List.suffix_cons 10 l).trans (List.suffix_cons 13 _)
      exact (ih he' hin).imp (·.trans (hsuffix _)) (·.trans (hsuffix _).isInfix)
  | case3 bytes hlf hcrlf =>
    left
    cases bytes with
    | nil => cases h
    | cons b rest =>
      have hb : b ≠ 10 := by
        rintro rfl
        exact hlf rest rfl
      rw [headEnd, headEndFrom, if_neg hb] at h
      obtain ⟨e', he', rfl⟩ := Option.map_eq_some_iff.mp h
      have hinside : headEndFrom false .inside rest = some e' := by
        split at he'
        next hcr =>
          cases rest with
          | nil => cases he'
          | cons c rest =>
            rwa [headEndFrom_cr] at he'
            rintro rfl
            exact hcrlf rest (by rw [hcr.1])
        next => exact he'
      have hnot : ¬endOfHead <+: b :: rest.take e' := by
        intro hpre
        obtain ⟨more, hmore⟩ := hpre.trans (List.take_prefix (e' + 1) (b :: rest))
        exact hcrlf (13 :: 10 :: more) hmore.symm
      rw [List.take_succ_cons, List.infix_cons_iff] at hin
      rw [List.take_succ_cons]
      have hsuffix := endOfHead_suffix (.inr rfl) hinside (hin.resolve_left hnot)
      exact hsuffix.trans (List.suffix_cons b _)

theorem emptyLines_le (h : headEnd bytes = some e) : emptyLines bytes ≤ e := by
  induction bytes using emptyLines.induct generalizing e with
  | case1 rest ih =>
    obtain ⟨e', he', rfl⟩ := Option.map_eq_some_iff.mp h
    exact Nat.succ_le_succ (ih he')
  | case2 rest ih =>
    obtain ⟨_, hcr, rfl⟩ := Option.map_eq_some_iff.mp h
    obtain ⟨e', he', rfl⟩ := Option.map_eq_some_iff.mp hcr
    exact Nat.succ_le_succ (Nat.succ_le_succ (ih he'))
  | case3 bytes hlf hcrlf =>
    rw [emptyLines]
    · exact Nat.zero_le e
    · exact hlf
    · exact hcrlf

/-- The head ends in CRLF CRLF, or there is one in the empty lines before it, or
it is as long as the limit. -/
def Recognised (bytes : Bytes) (e : Nat) : Prop :=
  endOfHead <:+ bytes.take e ∨ endOfHead <:+: bytes.take (emptyLines bytes) ∨ maxRequestHead ≤ e

theorem stops_head (h : headEnd bytes = some e) :
    stops (bytes.take e) = true ↔ Recognised bytes e := by
  rw [stops, Bool.or_eq_true, headComplete_iff, decide_eq_true_eq, List.length_take,
    Nat.min_eq_left (headEnd_le h), Recognised, ← or_assoc]
  refine or_congr_left ?_
  constructor
  · exact endOfHead_cases h
  · rintro (hsuffix | hempty)
    · exact hsuffix.isInfix
    · exact hempty.trans (List.take_prefix_take_left (emptyLines_le h)).isInfix

-- ---------------------------------------------------------------------------
-- The wait
-- ---------------------------------------------------------------------------

/-- The bytes are a complete head for the parser. -/
def Parsers.Accepts (parsers : Parsers) (slots : Nat) (bytes : Bytes) : Prop :=
  (parsers.parse slots bytes).isSome = true

instance : Decidable (Parsers.Accepts parsers slots bytes) := inferInstanceAs (Decidable (_ = true))

theorem Parsers.EndsHead.accepts_take (hp : parsers.EndsHead) :
    parsers.Accepts slots (bytes.take k) ↔
      ∃ e ≤ k, headEnd bytes = some e ∧ parsers.Accepts slots (bytes.take e) := by
  have hend : headEnd (bytes.take k) = (headEnd bytes).filter (· ≤ k) :=
    headEndFrom_take false .start bytes k
  rw [Accepts, hp, hend]
  cases he : headEnd bytes with
  | none => simp
  | some e =>
    by_cases hk : e ≤ k
    · simp [Option.filter, hk, List.take_take, Accepts]
    · simp [Option.filter, hk]

/-- A stream has the reading return on every complete head, however it arrives,
if and only if its head is one the reading recognises. -/
theorem neverWaits_iff (hp : parsers.EndsHead) (slots : Nat) (bytes : Bytes) :
    (∀ reads, Cuts bytes reads → ∀ received, received <+: reads →
      parsers.Accepts slots received.flatten → Returns received) ↔
    ∀ e, headEnd bytes = some e → parsers.Accepts slots (bytes.take e) → Recognised bytes e := by
  constructor
  · intro hreturns e he haccepts
    have hfirst : singles (bytes.take e) <+: singles bytes := (List.take_prefix e bytes).map _
    have hreturn := hreturns _ (singles_cuts bytes) _ hfirst (by rwa [flatten_singles])
    exact (stops_head he).mp ((singles_cuts _).returns_iff.mp hreturn)
  · intro hrecognised reads hc received hfirst haccepts
    have hreceived := hc.take hfirst
    rw [hreceived.flatten] at haccepts
    obtain ⟨e, hle, he, haccepts⟩ := hp.accepts_take.mp haccepts
    have hstops := (stops_head he).mpr (hrecognised e he haccepts)
    exact hreceived.returns_iff.mpr (stops_take hstops hle)

/-- A request with lines that end in LF. -/
def lfProbe : Bytes := Text.utf8 "GET / HTTP/1.1\n\n".toList

theorem neverWaits_iff_probe : ∃ received, received = [probe.take 10, probe.drop 10] ∧
    (probeParsers probe).Accepts maxHeaders received.flatten ∧ Returns received := by
  have haccepts : (probeParsers probe).Accepts maxHeaders probe := by decide +kernel
  refine ⟨_, rfl, haccepts, ?_⟩
  refine (neverWaits_iff (onlyHead_endsHead _ _) maxHeaders probe).mpr ?_ _
    (by decide) _ List.prefix_rfl haccepts
  intro e he _
  have hend : headEnd probe = some 18 := by decide +kernel
  cases hend.symm.trans he
  exact .inl (by decide +kernel)

/-- The health check has arrived, and the reading would go on to read. -/
theorem lf_probe_waits :
    (probeParsers lfProbe).EndsHead ∧ Cuts lfProbe [lfProbe] ∧
      (probeParsers lfProbe).Accepts maxHeaders [lfProbe].flatten ∧
      ¬Returns [lfProbe] := by
  have hcuts : Cuts lfProbe [lfProbe] := by decide
  refine ⟨onlyHead_endsHead _ _, hcuts, by decide +kernel, ?_⟩
  rw [hcuts.returns_iff]
  decide +kernel

end Ws2tcpRouter
