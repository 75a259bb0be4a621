import Mathlib.Data.List.Infix
import Ws2tcpRouter.ClientAddr
import Ws2tcpRouter.Replay

/-!
# Segmentation

How much is read ahead depends on the reads a stream arrives in. What is made
of it depends on them too, but only where the head ends in the bytes that some
ways of arriving bring along and others leave: behind empty lines that look
like its end, or across the limit.
-/

namespace Ws2tcpRouter

variable {bytes head : Bytes} {reads rest : List Bytes}

-- ---------------------------------------------------------------------------
-- Where a head ends
-- ---------------------------------------------------------------------------

/-- How far a line has been read: nothing of it, a CR, or more. -/
inductive LineState
  | start
  | cr
  | inside
  deriving DecidableEq

/-- The number of bytes up to the end of the first empty line behind one that is
not empty; `begun` says whether there was one. A line ends in LF or CRLF. -/
def headEndFrom (begun : Bool) (line : LineState) : Bytes → Option Nat
  | [] => none
  | b :: rest =>
    if b = 10 then
      if line = .inside then (headEndFrom true .start rest).map (· + 1)
      else if begun then some 1
      else (headEndFrom false .start rest).map (· + 1)
    else
      (headEndFrom begun (if b = 13 ∧ line = .start then .cr else .inside) rest).map (· + 1)

/-- Empty lines before the request line are skipped. -/
def headEnd (bytes : Bytes) : Option Nat := headEndFrom false .start bytes

theorem filter_map_succ (e : Option Nat) (k : Nat) :
    (e.map (· + 1)).filter (· ≤ k + 1) = (e.filter (· ≤ k)).map (· + 1) := by
  cases e with
  | none => rfl
  | some e => by_cases h : e ≤ k <;> simp [Option.filter, h]

theorem headEndFrom_take (begun : Bool) (line : LineState) (bytes : Bytes) (k : Nat) :
    headEndFrom begun line (bytes.take k) = (headEndFrom begun line bytes).filter (· ≤ k) := by
  induction bytes generalizing begun line k with
  | nil => rw [List.take_nil, headEndFrom, Option.filter_none]
  | cons b rest ih =>
    cases k with
    | zero =>
      have hpos : ∀ e, headEndFrom begun line (b :: rest) = some e → ¬e ≤ 0 := by
        intro e he
        unfold headEndFrom at he
        split at he
        next =>
          split at he
          next => obtain ⟨e', -, rfl⟩ := Option.map_eq_some_iff.mp he; omega
          next =>
            split at he
            next => cases he; omega
            next => obtain ⟨e', -, rfl⟩ := Option.map_eq_some_iff.mp he; omega
        next => obtain ⟨e', -, rfl⟩ := Option.map_eq_some_iff.mp he; omega
      refine (Option.filter_eq_none_iff.mpr ?_).symm
      intro e he
      simpa using hpos e he
    | succ k =>
      rw [List.take_succ_cons]
      unfold headEndFrom
      split
      next =>
        split
        next => rw [filter_map_succ, ih]
        next =>
          split
          next => simp [Option.filter]
          next => rw [filter_map_succ, ih]
      next => rw [filter_map_succ, ih]

theorem headEnd_le (h : headEnd bytes = some e) : e ≤ bytes.length := by
  have htake := headEndFrom_take false .start bytes bytes.length
  rw [List.take_length, show headEndFrom false .start bytes = some e from h] at htake
  simpa [Option.filter] using htake

/-- What is assumed of `httparse`: a head is complete where it ends, and what
follows is ignored. -/
def Parsers.EndsHead (parsers : Parsers) : Prop :=
  ∀ n bytes, parsers.parse n bytes = (headEnd bytes).bind fun e => parsers.parse n (bytes.take e)

-- ---------------------------------------------------------------------------
-- Where the reading may stop
-- ---------------------------------------------------------------------------

theorem headComplete_iff : headComplete head = true ↔ endOfHead <:+: head := by
  simp only [headComplete, List.any_eq_true, List.mem_tails, List.isPrefixOf_iff_prefix,
    List.infix_iff_prefix_suffix, and_comm]

theorem stops_append (h : stops head = true) (more : Bytes) : stops (head ++ more) = true := by
  rw [stops, Bool.or_eq_true, headComplete_iff, decide_eq_true_eq] at h ⊢
  rcases h with h | h
  · exact .inl (h.trans (List.prefix_append head more).isInfix)
  · exact .inr (h.trans (by simp))

theorem stops_take {j k : Nat} (h : stops (bytes.take j) = true) (hle : j ≤ k) :
    stops (bytes.take k) = true := by
  obtain ⟨d, rfl⟩ := Nat.exists_eq_add_of_le hle
  rw [List.take_add]
  exact stops_append h _

/-- The fewest bytes the reading stops after; all of them, if it does not stop. -/
def firstStop (bytes : Bytes) : Nat :=
  ((List.range bytes.length).find? fun k => stops (bytes.take k)).getD bytes.length

theorem firstStop_le (bytes : Bytes) : firstStop bytes ≤ bytes.length := by
  unfold firstStop
  cases h : (List.range bytes.length).find? fun k => stops (bytes.take k) with
  | none => exact Nat.le_refl _
  | some k => exact Nat.le_of_lt (List.mem_range.mp (List.mem_of_find?_eq_some h))

theorem not_stops_of_lt (h : k < firstStop bytes) : stops (bytes.take k) = false := by
  unfold firstStop at h
  cases hfind : (List.range bytes.length).find? fun k => stops (bytes.take k) with
  | none =>
    rw [hfind, Option.getD_none] at h
    simpa using List.find?_eq_none.mp hfind k (List.mem_range.mpr h)
  | some j =>
    rw [hfind, Option.getD_some] at h
    simpa using (List.find?_range_eq_some.mp hfind).2.2 k h

theorem stops_firstStop (h : firstStop bytes < bytes.length) :
    stops (bytes.take (firstStop bytes)) = true := by
  unfold firstStop at h ⊢
  cases hfind : (List.range bytes.length).find? fun k => stops (bytes.take k) with
  | none =>
    rw [hfind, Option.getD_none] at h
    exact absurd h (Nat.lt_irrefl _)
  | some j => exact (List.find?_range_eq_some.mp hfind).1

theorem firstStop_pos (h : bytes ≠ []) : 0 < firstStop bytes := by
  rw [Nat.pos_iff_ne_zero]
  intro hzero
  have hlt : firstStop bytes < bytes.length := hzero ▸ List.length_pos_iff.mpr h
  have hstops := stops_firstStop hlt
  rw [hzero, List.take_zero] at hstops
  exact absurd hstops (by decide)

-- ---------------------------------------------------------------------------
-- Ways of arriving
-- ---------------------------------------------------------------------------

/-- Reads that bring the bytes: none is empty, and each fits the buffer. -/
structure Cuts (bytes : Bytes) (reads : List Bytes) : Prop where
  flatten : reads.flatten = bytes
  nonempty : ∀ chunk ∈ reads, chunk ≠ []
  fits : ∀ chunk ∈ reads, chunk.length ≤ chunkSize

instance : Decidable (Cuts bytes reads) :=
  decidable_of_iff (reads.flatten = bytes ∧ (∀ chunk ∈ reads, chunk ≠ []) ∧
    ∀ chunk ∈ reads, chunk.length ≤ chunkSize)
    ⟨fun h => ⟨h.1, h.2.1, h.2.2⟩, fun h => ⟨h.1, h.2, h.3⟩⟩

theorem Cuts.single (hne : chunk ≠ []) (hfits : chunk.length ≤ chunkSize) : Cuts chunk [chunk] where
  flatten := List.flatten_singleton
  nonempty := List.forall_mem_singleton.mpr hne
  fits := List.forall_mem_singleton.mpr hfits

theorem Cuts.append (h : Cuts bytes reads) (h' : Cuts bytes' reads') :
    Cuts (bytes ++ bytes') (reads ++ reads') where
  flatten := by rw [List.flatten_append, h.flatten, h'.flatten]
  nonempty chunk hc := (List.mem_append.mp hc).elim (h.nonempty chunk) (h'.nonempty chunk)
  fits chunk hc := (List.mem_append.mp hc).elim (h.fits chunk) (h'.fits chunk)

theorem eq_take_of_append {a b c : Bytes} (h : a ++ b = c) : a = c.take a.length := by
  rw [← h, List.take_left]

/-- The reading ends within one chunk of the first stop. -/
theorem Cuts.bounds (hc : Cuts bytes reads)
    (h : readRequestHead fails [] reads = some (head, rest)) :
    head = bytes.take head.length ∧ head.length ≤ bytes.length ∧
      firstStop bytes ≤ head.length ∧ head.length < firstStop bytes + chunkSize := by
  have hall := readRequestHead_rule
    (fun head rest => head ++ rest.flatten = bytes ∧ head.length < firstStop bytes + chunkSize ∧
      rest <:+ reads) ?_ ⟨hc.flatten, Nat.lt_of_lt_of_le (by decide) (Nat.le_add_left _ _),
        List.suffix_rfl⟩ h
  · rcases hall with ⟨hstops, heq, hlt, -⟩ | ⟨-, ⟨-, rfl, heq, hlt, -⟩ | ⟨-, -, hsuffix⟩⟩
    · have hle := congrArg List.length heq
      rw [List.length_append] at hle
      refine ⟨eq_take_of_append heq, by omega, ?_, hlt⟩
      by_contra hbefore
      have hnot := not_stops_of_lt (Nat.lt_of_not_le hbefore)
      rw [← eq_take_of_append heq, hstops] at hnot
      cases hnot
    · rw [List.flatten_nil, List.append_nil] at heq
      subst heq
      exact ⟨(List.take_length).symm, Nat.le_refl _, firstStop_le _, hlt⟩
    · exact absurd rfl (hc.nonempty [] (hsuffix.subset List.mem_cons_self))
  rintro head chunk rest hmore hne ⟨heq, -, hsuffix⟩
  -- what has been read does not reach the first stop, or there would be no more to read
  have hbefore : head.length < firstStop bytes := by
    by_contra hreached
    have hlength := congrArg List.length heq
    rw [List.length_append, List.flatten_cons, List.length_append] at hlength
    have hchunk := List.length_pos_iff.mpr hne
    have hstops := stops_take (stops_firstStop (by omega)) (Nat.le_of_not_lt hreached)
    rw [← eq_take_of_append heq, hmore] at hstops
    cases hstops
  have hfits := hc.fits chunk (hsuffix.subset List.mem_cons_self)
  refine ⟨?_, ?_, (List.suffix_cons chunk rest).trans hsuffix⟩
  · rw [← heq, List.flatten_cons, List.append_assoc]
  · rw [List.length_append]
    omega

/-- Nothing is returned for a stream that fails before the reading stops. -/
theorem readRequestHead_eq_none (h : readRequestHead fails head reads = none) :
    fails = true ∧ stops (head ++ reads.flatten) = false := by
  induction reads generalizing head with
  | nil =>
    unfold readRequestHead at h
    split at h
    next => cases h
    next hmore =>
      split at h
      next hfails =>
        rw [List.flatten_nil, List.append_nil]
        exact ⟨hfails, Bool.eq_false_iff.mpr hmore⟩
      next => cases h
  | cons chunk reads ih =>
    unfold readRequestHead at h
    split at h
    next => cases h
    next =>
      split at h
      next => cases h
      next =>
        rw [List.flatten_cons, ← List.append_assoc]
        exact ih h

theorem Cuts.none_iff (hc : Cuts bytes reads) :
    readRequestHead fails [] reads = none ↔ fails = true ∧ stops bytes = false := by
  constructor
  · intro h
    have hnone := readRequestHead_eq_none h
    rwa [List.nil_append, hc.flatten] at hnone
  · rintro ⟨rfl, hstops⟩
    cases h : readRequestHead true [] reads with
    | none => rfl
    | some r =>
      obtain ⟨head, rest⟩ := r
      have hall := readRequestHead_rule (fun head rest => head ++ rest.flatten = bytes ∧ rest <:+ reads)
        (fun _ chunk rest _ _ ⟨heq, hs⟩ => ⟨by rw [← heq, List.flatten_cons, List.append_assoc],
          (List.suffix_cons chunk rest).trans hs⟩) ⟨hc.flatten, List.suffix_rfl⟩ h
      rcases hall with ⟨hstopped, heq, -⟩ | ⟨-, ⟨hfails, -⟩ | ⟨-, hsuffix⟩⟩
      · rw [← heq, stops_append hstopped] at hstops
        cases hstops
      · cases hfails
      · exact absurd rfl (hc.nonempty [] (hsuffix.subset List.mem_cons_self))

-- ---------------------------------------------------------------------------
-- Every length is some way's
-- ---------------------------------------------------------------------------

def singles (bytes : Bytes) : List Bytes := bytes.map fun b => [b]

theorem flatten_singles (bytes : Bytes) : (singles bytes).flatten = bytes := by
  induction bytes with
  | nil => rfl
  | cons b bytes ih =>
    rw [singles, List.map_cons, List.flatten_cons, ← singles, ih]
    rfl

theorem singles_cuts (bytes : Bytes) : Cuts bytes (singles bytes) := by
  refine ⟨flatten_singles bytes, ?_, ?_⟩
  · intro chunk hchunk
    obtain ⟨b, -, rfl⟩ := List.mem_map.mp hchunk
    exact List.cons_ne_nil _ _
  · intro chunk hchunk
    obtain ⟨b, -, rfl⟩ := List.mem_map.mp hchunk
    exact show 1 ≤ chunkSize by decide

theorem read_singles (before : Bytes) (reads : List Bytes)
    (h : ∀ k < before.length, stops (head ++ before.take k) = false) :
    readRequestHead fails head (singles before ++ reads) =
      readRequestHead fails (head ++ before) reads := by
  induction before generalizing head with
  | nil => rw [List.append_nil]; rfl
  | cons b before ih =>
    have hfirst : stops head = false := by simpa using h 0 (by simp)
    rw [singles, List.map_cons, List.cons_append,
      readRequestHead_read hfirst (List.cons_ne_nil _ _), ← singles, ih]
    · rw [List.append_assoc]
      rfl
    · intro k hk
      rw [List.append_assoc]
      exact h (k + 1) (Nat.succ_lt_succ hk)

/-- The reads up to one byte before the first stop, one that goes on to `k`, and
the rest. -/
def cutAt (bytes : Bytes) (k : Nat) : List Bytes :=
  singles (bytes.take (firstStop bytes - 1)) ++
    (bytes.take k).drop (firstStop bytes - 1) :: singles (bytes.drop k)

theorem cutAt_cuts (hlow : firstStop bytes ≤ k) (hhigh : k < firstStop bytes + chunkSize)
    (hk : k ≤ bytes.length) (hpos : 0 < firstStop bytes) : Cuts bytes (cutAt bytes k) := by
  have hlength : ((bytes.take k).drop (firstStop bytes - 1)).length = k - (firstStop bytes - 1) := by
    rw [List.length_drop, List.length_take, Nat.min_eq_left hk]
  have hmiddle : Cuts _ [(bytes.take k).drop (firstStop bytes - 1)] :=
    .single (List.ne_nil_of_length_pos (by omega)) (by omega)
  have htake : bytes.take (firstStop bytes - 1) = (bytes.take k).take (firstStop bytes - 1) := by
    rw [List.take_take, Nat.min_eq_left (by omega)]
  have hall := (singles_cuts (bytes.take (firstStop bytes - 1))).append
    (hmiddle.append (singles_cuts (bytes.drop k)))
  rwa [← List.append_assoc, htake, List.take_append_drop, List.take_append_drop, ← htake] at hall

theorem read_cutAt (hlow : firstStop bytes ≤ k) (hk : k ≤ bytes.length)
    (hpos : 0 < firstStop bytes) (hstop : firstStop bytes < bytes.length) :
    readRequestHead fails [] (cutAt bytes k) = some (bytes.take k, singles (bytes.drop k)) := by
  have hlast : stops (bytes.take (firstStop bytes - 1)) = false := not_stops_of_lt (by omega)
  have hmiddle : (bytes.take k).drop (firstStop bytes - 1) ≠ [] := by
    refine List.ne_nil_of_length_pos ?_
    rw [List.length_drop, List.length_take, Nat.min_eq_left hk]
    omega
  have htake : bytes.take (firstStop bytes - 1) = (bytes.take k).take (firstStop bytes - 1) := by
    rw [List.take_take, Nat.min_eq_left (by omega)]
  have hstops : stops (bytes.take k) = true := stops_take (stops_firstStop hstop) hlow
  rw [cutAt, read_singles]
  · rw [List.nil_append, readRequestHead_read hlast hmiddle, htake, List.take_append_drop]
    exact readRequestHead_stop hstops
  · intro j hj
    rw [List.length_take] at hj
    rw [List.nil_append, List.take_take, Nat.min_eq_left (by omega)]
    exact not_stops_of_lt (by omega)

-- ---------------------------------------------------------------------------
-- What is made of the head
-- ---------------------------------------------------------------------------

section
variable (parsers : Parsers) (proxies : TrustedProxies) (peer : SocketAddr)

/-- The plain request a head is, if it is one, and the address reported with it. -/
def routed (head : Bytes) : Option Request × ClientAddr :=
  (parsePlainRequest parsers head, proxies.clientAddr parsers peer head)

def routing (fails : Bool) (reads : List Bytes) : Option (Option Request × ClientAddr) :=
  (readRequestHead fails [] reads).map fun (head, _) => routed parsers proxies peer head

/-- What a head leads to that is not complete: the handshake, and the peer. -/
def unread : Option Request × ClientAddr := (none, ⟨peer, none⟩)

end

variable {parsers : Parsers} {proxies : TrustedProxies} {peer : SocketAddr}

theorem routed_congr (h : parsers.parse maxHeaders head = parsers.parse maxHeaders head') :
    routed parsers proxies peer head = routed parsers proxies peer head' := by
  have hforwarded : parsers.parse maxForwardedHeaders head =
      parsers.parse maxForwardedHeaders head' := h
  unfold routed parsePlainRequest TrustedProxies.clientAddr TrustedProxies.forwardedClient
  rw [h, hforwarded]

theorem routed_unread (h : parsers.parse maxHeaders head = none) :
    routed parsers proxies peer head = unread peer := by
  have hforwarded : parsers.parse maxForwardedHeaders head = none := h
  unfold routed parsePlainRequest TrustedProxies.clientAddr TrustedProxies.forwardedClient
  rw [h, hforwarded]
  simp only [ite_self]
  rfl

/-- What is made of the first bytes of a stream is what is made of the head in
them, if it ends there. -/
theorem routed_take (hp : parsers.EndsHead) (bytes : Bytes) (k : Nat) :
    routed parsers proxies peer (bytes.take k) =
      match (headEnd bytes).filter (· ≤ k) with
      | none => unread peer
      | some e => routed parsers proxies peer (bytes.take e) := by
  have hend : headEnd (bytes.take k) = (headEnd bytes).filter (· ≤ k) :=
    headEndFrom_take false .start bytes k
  have hparse := hp maxHeaders (bytes.take k)
  rw [hend] at hparse
  cases he : (headEnd bytes).filter (· ≤ k) with
  | none =>
    rw [he] at hparse
    exact routed_unread hparse
  | some e =>
    rw [he, Option.bind_some, List.take_take] at hparse
    obtain ⟨-, hle⟩ := Option.filter_eq_some_iff.mp he
    rw [Nat.min_eq_left (of_decide_eq_true hle)] at hparse
    exact routed_congr hparse

/-- The request in these bytes is none that is answered without a handshake, and
no address was forwarded with it. -/
def Inert (parsers : Parsers) (proxies : TrustedProxies) (peer : SocketAddr) (head : Bytes) : Prop :=
  parsePlainRequest parsers head = none ∧ (proxies.clientAddr parsers peer head).forwarded = none

theorem inert_iff : Inert parsers proxies peer head ↔
    routed parsers proxies peer head = unread peer := by
  simp only [Inert, routed, unread, TrustedProxies.clientAddr, Prod.mk.injEq, ClientAddr.mk.injEq,
    true_and]

/-- The head of the stream ends where the reading stops or before, or too far
behind it to be read, or is of no consequence. -/
def Settled (parsers : Parsers) (proxies : TrustedProxies) (peer : SocketAddr) (bytes : Bytes) :
    Prop :=
  ∀ e, headEnd bytes = some e → e ≤ firstStop bytes ∨ firstStop bytes + chunkSize ≤ e ∨
    Inert parsers proxies peer (bytes.take e)

theorem routed_settled (hp : parsers.EndsHead) (h : Settled parsers proxies peer bytes)
    (hlow : firstStop bytes ≤ k) (hhigh : k < firstStop bytes + chunkSize) :
    routed parsers proxies peer (bytes.take k) =
      routed parsers proxies peer (bytes.take (firstStop bytes)) := by
  rw [routed_take hp bytes k, routed_take hp bytes (firstStop bytes)]
  cases he : headEnd bytes with
  | none => rfl
  | some e =>
    obtain hearly | hlate | hinert := h e he
    · simp only [Option.filter, hearly, hearly.trans hlow, decide_true, if_true]
    · have hk : ¬e ≤ k := by omega
      have hstop : ¬e ≤ firstStop bytes := by omega
      simp only [Option.filter, hk, hstop, decide_false, Bool.false_eq_true, if_false]
    · have hunread : ∀ k, (match (some e).filter (· ≤ k) with
          | none => unread peer
          | some e => routed parsers proxies peer (bytes.take e)) = unread peer := by
        intro k
        by_cases hk : e ≤ k
        · simpa only [Option.filter, hk, decide_true, if_true] using inert_iff.mp hinert
        · simp only [Option.filter, hk, decide_false, Bool.false_eq_true, if_false]
      exact (hunread k).trans (hunread _).symm

/-- A stream leads to the same in whatever reads it arrives, if and only if it is
settled. -/
theorem segmentation_iff (hp : parsers.EndsHead) (proxies : TrustedProxies) (peer : SocketAddr)
    (fails : Bool) (bytes : Bytes) :
    (∀ reads reads', Cuts bytes reads → Cuts bytes reads' →
      routing parsers proxies peer fails reads = routing parsers proxies peer fails reads') ↔
    Settled parsers proxies peer bytes := by
  constructor
  · intro hsame e he
    by_contra hbad
    simp only [not_or, Nat.not_le] at hbad
    obtain ⟨hlate, hsoon, hinert⟩ := hbad
    have hlength := headEnd_le he
    have hpos : 0 < firstStop bytes := firstStop_pos (by rintro rfl; cases he)
    have hstop : firstStop bytes < bytes.length := hlate.trans_le hlength
    -- one way of arriving leaves the end of the head out, another takes it in
    have hread : ∀ k, firstStop bytes ≤ k → k ≤ e →
        routing parsers proxies peer fails (cutAt bytes k) =
          some (routed parsers proxies peer (bytes.take k)) := by
      intro k hlow hk
      rw [routing, read_cutAt hlow (hk.trans hlength) hpos hstop]
      rfl
    have hcuts : ∀ k, firstStop bytes ≤ k → k ≤ e → Cuts bytes (cutAt bytes k) :=
      fun k hlow hk => cutAt_cuts hlow (hk.trans_lt hsoon) (hk.trans hlength) hpos
    have heq := hsame _ _ (hcuts _ (Nat.le_refl _) hlate.le) (hcuts e hlate.le (Nat.le_refl _))
    rw [hread _ (Nat.le_refl _) hlate.le, hread e hlate.le (Nat.le_refl _),
      routed_take hp bytes (firstStop bytes), he] at heq
    simp only [Option.filter, Nat.not_le.mpr hlate, decide_false, Bool.false_eq_true, if_false,
      Option.some.injEq] at heq
    exact hinert (inert_iff.mpr heq.symm)
  · intro hends reads reads' hc hc'
    unfold routing
    cases h : readRequestHead fails [] reads with
    | none => rw [hc'.none_iff.mpr (hc.none_iff.mp h)]
    | some r =>
      cases h' : readRequestHead fails [] reads' with
      | none => rw [hc.none_iff.mpr (hc'.none_iff.mp h')] at h; cases h
      | some r' =>
        obtain ⟨heq, -, hlow, hhigh⟩ := hc.bounds h
        obtain ⟨heq', -, hlow', hhigh'⟩ := hc'.bounds h'
        have hsettled := routed_settled hp hends hlow hhigh
        have hsettled' := routed_settled hp hends hlow' hhigh'
        rw [← heq] at hsettled
        rw [← heq'] at hsettled'
        exact congrArg some (hsettled.trans hsettled'.symm)

def onlyHead (head : Bytes) (parsed : Parsed) : Parsers where
  parse _ bytes := (headEnd bytes).bind fun e => if bytes.take e = head then some parsed else none
  method := some
  headerValue := some
  build method path headers := some ⟨method, path, headers⟩
  handshake _ := none

theorem onlyHead_endsHead (head : Bytes) (parsed : Parsed) : (onlyHead head parsed).EndsHead := by
  intro n bytes
  cases he : headEnd bytes with
  | none => simp only [onlyHead, he, Option.bind_none]
  | some e =>
    have hend : headEnd (bytes.take e) = some e := by
      rw [headEnd, headEndFrom_take, ← headEnd, he]
      simp [Option.filter]
    simp only [onlyHead, he, hend, Option.bind_some, List.take_take, Nat.min_self]

def probe : Bytes := Text.utf8 "GET / HTTP/1.1\r\n\r\n".toList

def lateProbe : Bytes := endOfHead ++ probe

def probeParsers (head : Bytes) : Parsers := onlyHead head ⟨"GET".toList, "/".toList, []⟩

def probePeer : SocketAddr := ⟨.v4 0x7f000001, 5555⟩

theorem segmentation_iff_probe :
    routing (probeParsers probe) ⟨[]⟩ probePeer false [probe] =
      routing (probeParsers probe) ⟨[]⟩ probePeer false (singles probe) := by
  refine (segmentation_iff (onlyHead_endsHead _ _) ⟨[]⟩ probePeer false probe).mpr ?_ _ _
    (by decide) (singles_cuts probe)
  intro e he
  have hend : headEnd probe = some 18 := by decide +kernel
  cases hend.symm.trans he
  exact .inl (by decide +kernel)

/-- Behind two empty lines a health check is one when it arrives whole, and is
left to the handshake when they arrive alone. -/
theorem late_probe_cut :
    Cuts lateProbe [lateProbe] ∧ Cuts lateProbe [endOfHead, probe] ∧
      routing (probeParsers lateProbe) ⟨[]⟩ probePeer false [lateProbe] =
        some (some ⟨"GET".toList, "/".toList, []⟩, ⟨probePeer, none⟩) ∧
      routing (probeParsers lateProbe) ⟨[]⟩ probePeer false [endOfHead, probe] =
        some (none, ⟨probePeer, none⟩) := by
  refine ⟨by decide, by decide, ?_, ?_⟩ <;> decide +kernel

end Ws2tcpRouter
