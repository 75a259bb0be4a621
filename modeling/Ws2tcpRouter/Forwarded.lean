import Ws2tcpRouter.ClientAddr

/-!
# Forwarded addresses

The scan of `X-Forwarded-For` against what it is for: the rightmost entry that
is no trusted proxy is the client, whatever stands to the left of it. That
holds on the lines that are text, in heads with no more headers than there are
slots for.
-/

namespace Ws2tcpRouter

variable {proxies : TrustedProxies} {ip : IpAddr} {entries : List Str}

namespace TrustedProxies

-- ---------------------------------------------------------------------------
-- The scan
-- ---------------------------------------------------------------------------

/-- The entry is the address of a trusted proxy. -/
def Trusts (proxies : TrustedProxies) (entry : Str) : Prop :=
  ∃ ip, parseForwardedAddress entry = some ip ∧ proxies.contains ip = true

/-- The address is that of the rightmost entry that is no trusted proxy. -/
def LastUntrusted (proxies : TrustedProxies) (entries : List Str) (ip : IpAddr) : Prop :=
  ∃ left entry right, entries = left ++ entry :: right ∧
    parseForwardedAddress entry = some ip ∧ proxies.contains ip = false ∧
    ∀ e ∈ right, proxies.Trusts e

theorem not_trusts (hparse : parseForwardedAddress entry = some ip)
    (huntrusted : proxies.contains ip = false) : ¬proxies.Trusts entry := by
  rintro ⟨ip', hparse', htrusted⟩
  cases hparse.symm.trans hparse'
  rw [huntrusted] at htrusted
  cases htrusted

theorem scan_found : proxies.scan entries = some (some ip) ↔
    ∃ before entry after, entries = before ++ entry :: after ∧
      parseForwardedAddress entry = some ip ∧ proxies.contains ip = false ∧
      ∀ e ∈ before, proxies.Trusts e := by
  induction entries with
  | nil => simp [scan]
  | cons entry entries ih =>
    constructor
    · intro h
      obtain ⟨ip', hparse, h⟩ := Option.bind_eq_some_iff.mp h
      split at h
      next huntrusted =>
        cases h
        exact ⟨[], entry, entries, rfl, hparse, by simpa using huntrusted, by simp⟩
      next htrusted =>
        obtain ⟨before, entry', after, rfl, hrest⟩ := ih.mp h
        refine ⟨entry :: before, entry', after, rfl, hrest.1, hrest.2.1, ?_⟩
        exact List.forall_mem_cons.mpr ⟨⟨ip', hparse, by simpa using htrusted⟩, hrest.2.2⟩
    · rintro ⟨before, entry', after, heq, hparse, huntrusted, hbefore⟩
      cases before with
      | nil =>
        cases heq
        simp [scan, hparse, huntrusted]
      | cons e before =>
        cases heq
        obtain ⟨⟨ip', hparse', htrusted⟩, hbefore⟩ := List.forall_mem_cons.mp hbefore
        rw [scan, hparse', Option.bind_eq_bind, Option.bind_some, if_neg (by simp [htrusted])]
        exact ih.mpr ⟨before, entry', after, rfl, hparse, huntrusted, hbefore⟩

theorem scan_exhausted : proxies.scan entries = some none ↔ ∀ e ∈ entries, proxies.Trusts e := by
  induction entries with
  | nil => simp [scan]
  | cons entry entries ih =>
    rw [List.forall_mem_cons, ← ih, scan, Trusts]
    cases parseForwardedAddress entry with
    | none => simp
    | some ip' => cases h : proxies.contains ip' <;> simp [h]

theorem selectClient_eq_some : proxies.selectClient entries = some ip ↔
    proxies.LastUntrusted entries ip ∨
      ((∀ e ∈ entries, proxies.Trusts e) ∧ entries.head?.bind parseForwardedAddress = some ip) := by
  have hfound :
      proxies.scan entries.reverse = some (some ip) ↔ proxies.LastUntrusted entries ip := by
    rw [scan_found, LastUntrusted]
    constructor
    · rintro ⟨before, entry, after, heq, hrest⟩
      refine ⟨after.reverse, entry, before.reverse, ?_, hrest.1, hrest.2.1,
        by simpa using hrest.2.2⟩
      rw [← entries.reverse_reverse, heq]
      simp
    · rintro ⟨left, entry, right, rfl, hrest⟩
      exact ⟨right.reverse, entry, left.reverse, by simp, hrest.1, hrest.2.1,
        by simpa using hrest.2.2⟩
  have hexhausted : proxies.scan entries.reverse = some none ↔ ∀ e ∈ entries, proxies.Trusts e := by
    rw [scan_exhausted]
    simp
  rw [selectClient, ← hfound, ← hexhausted]
  cases proxies.scan entries.reverse with
  | none => simp
  | some r => cases r <;> simp

theorem parseForwardedAddress_canonical (h : parseForwardedAddress entry = some ip) :
    ip.toCanonical = ip := by
  obtain ⟨ip', -, rfl⟩ := Option.map_eq_some_iff.mp h
  exact ip'.toCanonical_toCanonical

/-- There are entries, all of trusted proxies, and the address is that of the
first one. -/
def FirstTrusted (proxies : TrustedProxies) (entries : List Str) (ip : IpAddr) : Prop :=
  (∀ e ∈ entries, proxies.Trusts e) ∧
    ∃ first rest, entries = first :: rest ∧ parseForwardedAddress first = some ip

theorem selectClient_spec (proxies : TrustedProxies) (entries : List Str) :
    (∀ ip, proxies.selectClient entries = some ip ↔
      proxies.LastUntrusted entries ip ∨ proxies.FirstTrusted entries ip) ∧
    ((¬∃ ip, proxies.LastUntrusted entries ip ∨ proxies.FirstTrusted entries ip) →
      proxies.selectClient entries = none) ∧
    ∀ ip, proxies.selectClient entries = some ip → ip.toCanonical = ip := by
  have hiff : ∀ ip, proxies.selectClient entries = some ip ↔
      proxies.LastUntrusted entries ip ∨ proxies.FirstTrusted entries ip := by
    intro ip
    rw [selectClient_eq_some, FirstTrusted]
    cases entries <;> simp
  refine ⟨hiff, ?_, ?_⟩
  · intro hnone
    cases hselect : proxies.selectClient entries with
    | none => rfl
    | some ip => exact (hnone ⟨ip, (hiff ip).mp hselect⟩).elim
  · intro ip hselect
    rcases (hiff ip).mp hselect with ⟨_, _, _, _, hparse, _⟩ | ⟨_, _, _, _, hparse⟩
    · exact parseForwardedAddress_canonical hparse
    · exact parseForwardedAddress_canonical hparse

/-- An address that is not trusted is found as the rightmost one only. -/
theorem selectClient_untrusted (h : proxies.contains ip = false) :
    proxies.selectClient entries = some ip ↔ proxies.LastUntrusted entries ip := by
  rw [selectClient_eq_some]
  refine or_iff_left ?_
  rintro ⟨hall, hfirst⟩
  cases entries with
  | nil => cases hfirst
  | cons entry entries =>
    exact not_trusts hfirst h (hall entry List.mem_cons_self)

/-- Trusted proxies at the end of the list make no difference. -/
theorem lastUntrusted_append (h : ∀ e ∈ after, proxies.Trusts e) :
    proxies.LastUntrusted (entries ++ after) ip ↔ proxies.LastUntrusted entries ip := by
  constructor
  · rintro ⟨left, entry, right, heq, hparse, huntrusted, hright⟩
    have hnot : entry ∉ after := fun hm => not_trusts hparse huntrusted (h entry hm)
    obtain ⟨mid, rfl, hmid⟩ | ⟨mid, rfl, hmid⟩ := List.append_eq_append_iff.mp heq
    · rw [hmid] at hnot
      exact (hnot (List.mem_append_right _ List.mem_cons_self)).elim
    · cases mid with
      | nil =>
        rw [← show entry :: right = after from hmid] at hnot
        exact (hnot List.mem_cons_self).elim
      | cons e mid =>
        cases hmid
        exact ⟨left, entry, mid, rfl, hparse, huntrusted,
          fun e he => hright e (List.mem_append_left _ he)⟩
  · rintro ⟨left, entry, right, rfl, hparse, huntrusted, hright⟩
    refine ⟨left, entry, right ++ after, by simp, hparse, huntrusted, ?_⟩
    exact List.forall_mem_append.mpr ⟨hright, h⟩

end TrustedProxies

-- ---------------------------------------------------------------------------
-- The list in the header lines
-- ---------------------------------------------------------------------------

def forwardedLines (headers : List (Str × Bytes)) : List Bytes :=
  (headers.filter fun header => Text.eqIgnoreAsciiCase header.1 forwardedFor).map Prod.snd

def comma : UInt8 := 44

/-- The lines as one comma-separated list of byte strings. -/
def forwardedItems (lines : List Bytes) : List Bytes := lines.flatMap fun line => line.splitOn comma

/-- The address an item parses to. -/
def readItem (item : Bytes) : Option IpAddr :=
  (Text.fromUtf8 item).bind fun entry => parseForwardedAddress (Text.trim entry)

def textEntries (text : Str) : List Str := ((text.splitOn ',').map Text.trim).filter (· ≠ [])

def legibleEntries (lines : List Bytes) : List Str :=
  (lines.filterMap Text.fromUtf8).flatMap textEntries

theorem forwardedEntries_eq (headers : List (Str × Bytes)) :
    TrustedProxies.forwardedEntries headers = legibleEntries (forwardedLines headers) := by
  simp only [TrustedProxies.forwardedEntries, legibleEntries, forwardedLines,
    List.filterMap_map, List.map_flatMap, List.filter_flatMap]
  rfl

theorem legibleEntries_append (a b : List Bytes) :
    legibleEntries (a ++ b) = legibleEntries a ++ legibleEntries b := by
  simp [legibleEntries]

theorem legibleEntries_cons (line : Bytes) (lines : List Bytes) :
    legibleEntries (line :: lines) =
      (Text.fromUtf8 line).elim [] textEntries ++ legibleEntries lines := by
  cases h : Text.fromUtf8 line <;> simp [legibleEntries, h]

/-- The items of a line that is text are those of the text. -/
theorem splitOn_comma (text : Str) :
    (Text.utf8 text).splitOn comma = (text.splitOn ',').map Text.utf8 :=
  @Text.utf8_splitOn ',' (by decide) text

theorem readItem_utf8 (text : Str) :
    readItem (Text.utf8 text) = parseForwardedAddress (Text.trim text) := by
  rw [readItem, Text.fromUtf8_utf8]
  rfl

theorem forwardedItems_eq_append {lines left right : List Bytes} {item : Bytes}
    (h : forwardedItems lines = left ++ item :: right) :
    ∃ before line after l r, lines = before ++ line :: after ∧
      line.splitOn comma = l ++ item :: r ∧ left = forwardedItems before ++ l ∧
      right = r ++ forwardedItems after := by
  induction lines generalizing left with
  | nil => exact absurd h.symm (by simp [forwardedItems])
  | cons line lines ih =>
    rw [forwardedItems, List.flatMap_cons, ← forwardedItems] at h
    obtain ⟨mid, rfl, hmid⟩ | ⟨mid, hline, hmid⟩ := List.append_eq_append_iff.mp h
    · obtain ⟨before, line', after, l, r, rfl, hsplit, rfl, rfl⟩ := ih hmid
      exact ⟨line :: before, line', after, l, r, rfl, hsplit, by simp [forwardedItems], rfl⟩
    · cases mid with
      | nil =>
        obtain ⟨before, line', after, l, r, rfl, hsplit, hl, rfl⟩ := @ih [] hmid.symm
        refine ⟨line :: before, line', after, l, r, rfl, hsplit, ?_, rfl⟩
        rw [forwardedItems, List.flatMap_cons, ← forwardedItems, List.append_assoc, ← hl, hline]
        simp
      | cons first r =>
        cases hmid
        exact ⟨[], line, lines, left, r, rfl, hline, rfl, rfl⟩

/-- The item is the address of a trusted proxy. -/
def TrustedItem (proxies : TrustedProxies) (item : Bytes) : Prop :=
  ∃ ip, readItem item = some ip ∧ proxies.contains ip = true

theorem exists_text {items : List Bytes} (h : ∀ item ∈ items, TrustedItem proxies item) :
    ∃ texts : List Str, items = texts.map Text.utf8 := by
  induction items with
  | nil => exact ⟨[], rfl⟩
  | cons item items ih =>
    obtain ⟨⟨ip, hread, -⟩, hitems⟩ := List.forall_mem_cons.mp h
    obtain ⟨text, htext, -⟩ := Option.bind_eq_some_iff.mp hread
    obtain ⟨texts, rfl⟩ := ih hitems
    exact ⟨text :: texts, by rw [Text.fromUtf8_eq_some.mp htext]; rfl⟩

/-- A line of trusted proxies is text, and its entries are trusted proxies. -/
theorem trusted_line (h : ∀ item ∈ line.splitOn comma, TrustedItem proxies item) :
    ∃ text, line = Text.utf8 text ∧ ∀ e ∈ textEntries text, proxies.Trusts e := by
  obtain ⟨texts, htexts⟩ := exists_text h
  have hline : line = Text.utf8 ([','].intercalate texts) := by
    rw [Text.utf8_intercalate, ← htexts]
    exact (List.intercalate_splitOn comma).symm
  refine ⟨_, hline, ?_⟩
  intro e he
  obtain ⟨he, -⟩ := List.mem_filter.mp he
  obtain ⟨text, htext, rfl⟩ := List.mem_map.mp he
  rw [hline, splitOn_comma] at h
  obtain ⟨ip, hread, htrusted⟩ := h _ (List.mem_map_of_mem htext)
  rw [readItem_utf8] at hread
  exact ⟨ip, hread, htrusted⟩

theorem trusted_lines (h : ∀ item ∈ forwardedItems lines, TrustedItem proxies item) :
    ∀ e ∈ legibleEntries lines, proxies.Trusts e := by
  induction lines with
  | nil => simp [legibleEntries]
  | cons line lines ih =>
    rw [forwardedItems, List.flatMap_cons, List.forall_mem_append, ← forwardedItems] at h
    obtain ⟨text, rfl, hentries⟩ := trusted_line h.1
    rw [legibleEntries_cons, Text.fromUtf8_utf8]
    exact List.forall_mem_append.mpr ⟨hentries, ih h.2⟩

-- ---------------------------------------------------------------------------
-- The client's address
-- ---------------------------------------------------------------------------

theorem textEntries_split {text : Str} {l r : List Str} {t : Str}
    (h : text.splitOn ',' = l ++ t :: r) (hne : Text.trim t ≠ []) :
    textEntries text = (l.map Text.trim).filter (· ≠ []) ++ Text.trim t ::
      (r.map Text.trim).filter (· ≠ []) := by
  rw [textEntries, h]
  simp [hne]

/-- An untrusted item with trusted ones behind it is found if its line is text,
and else if the lines before it would have it found. -/
theorem select_item {lines before after l r : List Bytes} {line item : Bytes}
    (hlines : lines = before ++ line :: after) (hsplit : line.splitOn comma = l ++ item :: r)
    (hread : readItem item = some ip) (huntrusted : proxies.contains ip = false)
    (hright : ∀ i ∈ r ++ forwardedItems after, TrustedItem proxies i) :
    proxies.selectClient (legibleEntries lines) = some ip ↔
      (Text.fromUtf8 line).isSome = true ∨ proxies.LastUntrusted (legibleEntries before) ip := by
  obtain ⟨hr, hafter⟩ := List.forall_mem_append.mp hright
  have hafter := trusted_lines hafter
  rw [TrustedProxies.selectClient_untrusted huntrusted, hlines, legibleEntries_append,
    legibleEntries_cons]
  cases htext : Text.fromUtf8 line with
  | none => simpa using TrustedProxies.lastUntrusted_append hafter
  | some text =>
    refine iff_of_true ?_ (.inl rfl)
    rw [Text.fromUtf8_eq_some.mp htext, splitOn_comma] at hsplit
    obtain ⟨l', rest, hsplit', -, hrest⟩ := List.map_eq_append_iff.mp hsplit
    obtain ⟨t, r', rfl, rfl, rfl⟩ := List.map_eq_cons_iff.mp hrest
    rw [readItem_utf8] at hread
    have hne : Text.trim t ≠ [] := by
      intro hempty
      rw [hempty] at hread
      exact absurd hread (by rw [show parseForwardedAddress [] = none by decide]; exact nofun)
    refine ⟨legibleEntries before ++ (l'.map Text.trim).filter (· ≠ []), Text.trim t,
      (r'.map Text.trim).filter (· ≠ []) ++ legibleEntries after, ?_, hread, huntrusted, ?_⟩
    · rw [Option.elim_some, textEntries_split hsplit' hne]
      simp
    · refine List.forall_mem_append.mpr ⟨?_, hafter⟩
      intro e he
      obtain ⟨he, -⟩ := List.mem_filter.mp he
      obtain ⟨t', ht', rfl⟩ := List.mem_map.mp he
      obtain ⟨ip', hread', htrusted⟩ := hr _ (List.mem_map_of_mem ht')
      rw [readItem_utf8] at hread'
      exact ⟨ip', hread', htrusted⟩

/-- The head is a complete request, given slots enough for its headers. -/
def Parsers.Complete (parsers : Parsers) (head : Bytes) (parsed : Parsed) : Prop :=
  ∃ n, parsers.parse n head = some parsed

/-- What is assumed of `httparse`: it fails on more headers than it is given
slots, and on no other account does their number matter. -/
def Parsers.LimitsHeaders (parsers : Parsers) : Prop :=
  ∀ n m head parsed, parsers.parse n head = some parsed →
    parsers.parse m head = if parsed.headers.length ≤ m then some parsed else none

/-- The items of the head, of which this one is the last that is no trusted proxy. -/
structure Names (proxies : TrustedProxies) (parsed : Parsed) (left : List Bytes) (item : Bytes)
    (right : List Bytes) (ip : IpAddr) : Prop where
  items : forwardedItems (forwardedLines parsed.headers) = left ++ item :: right
  read : readItem item = some ip
  untrusted : proxies.contains ip = false
  trusted : ∀ i ∈ right, TrustedItem proxies i

/-- The item is in a line that is text, or the rightmost entry in the lines of
text before it that is no trusted proxy is the same address. -/
def Legible (proxies : TrustedProxies) (parsed : Parsed) (left : List Bytes) (item : Bytes)
    (right : List Bytes) (ip : IpAddr) : Prop :=
  ∃ before line after l r, forwardedLines parsed.headers = before ++ line :: after ∧
    line.splitOn comma = l ++ item :: r ∧ left = forwardedItems before ++ l ∧
    right = r ++ forwardedItems after ∧
    ((Text.fromUtf8 line).isSome = true ∨ proxies.LastUntrusted (legibleEntries before) ip)

theorem clientAddr_iff {parsers : Parsers} (hl : parsers.LimitsHeaders)
    (hpeer : proxies.contains peer.ip = true) (hc : parsers.Complete head parsed)
    (hn : Names proxies parsed left item right ip) :
    proxies.clientAddr parsers peer head = ⟨peer, some ip⟩ ↔
      parsed.headers.length ≤ maxForwardedHeaders ∧ Legible proxies parsed left item right ip := by
  obtain ⟨n, hparse⟩ := hc
  have hlimit := hl n maxForwardedHeaders head parsed hparse
  simp only [TrustedProxies.clientAddr, hpeer, if_true, ClientAddr.mk.injEq, true_and,
    TrustedProxies.forwardedClient, hlimit]
  by_cases hslots : parsed.headers.length ≤ maxForwardedHeaders
  · simp only [hslots, if_true, true_and, forwardedEntries_eq]
    constructor
    · intro hselect
      obtain ⟨before, line, after, l, r, hlines, hsplit, hleft, hright⟩ :=
        forwardedItems_eq_append hn.items
      refine ⟨before, line, after, l, r, hlines, hsplit, hleft, hright, ?_⟩
      exact (select_item hlines hsplit hn.read hn.untrusted (hright ▸ hn.trusted)).mp hselect
    · rintro ⟨before, line, after, l, r, hlines, hsplit, -, hright, hlegible⟩
      exact (select_item hlines hsplit hn.read hn.untrusted (hright ▸ hn.trusted)).mpr hlegible
  · simp [hslots]

/-- Two heads whose last items that are no trusted proxies are one address are
reported under it, if and only if their headers fit the slots and the item can
be read in both. -/
theorem forwarded_iff {parsers : Parsers} (hl : parsers.LimitsHeaders)
    (hpeer : proxies.contains peer.ip = true)
    (hc : parsers.Complete head parsed) (hn : Names proxies parsed left item right ip)
    (hc' : parsers.Complete head' parsed') (hn' : Names proxies parsed' left' item' right' ip) :
    (proxies.clientAddr parsers peer head = ⟨peer, some ip⟩ ∧
      proxies.clientAddr parsers peer head' = ⟨peer, some ip⟩) ↔
    (parsed.headers.length ≤ maxForwardedHeaders ∧ Legible proxies parsed left item right ip) ∧
      (parsed'.headers.length ≤ maxForwardedHeaders ∧
        Legible proxies parsed' left' item' right' ip) := by
  rw [clientAddr_iff hl hpeer hc hn, clientAddr_iff hl hpeer hc' hn']

/-- Parsers that know some heads. -/
def tableParsers (table : List (Bytes × Parsed)) : Parsers where
  parse n head := (table.lookup head).filter fun parsed => parsed.headers.length ≤ n
  method := some
  headerValue := some
  build method path headers := some ⟨method, path, headers⟩
  handshake _ := none

theorem tableParsers_limitsHeaders (table : List (Bytes × Parsed)) :
    (tableParsers table).LimitsHeaders := by
  intro n m head parsed h
  obtain ⟨hlookup, -⟩ := Option.filter_eq_some_iff.mp h
  simp only [tableParsers, hlookup, Option.filter, decide_eq_true_eq]

/-- Requests through a proxy that saw 203.0.113.7, with these values of the
header; the parser takes the space before a value off. -/
def proxiedHead (values : List Bytes) : Bytes :=
  Text.utf8 "GET / HTTP/1.1\r\n".toList ++
    values.flatMap (fun value => Text.utf8 "X-Forwarded-For: ".toList ++ value ++ [13, 10]) ++ [13, 10]

def proxiedParsed (values : List Bytes) : Parsed :=
  ⟨"GET".toList, "/".toList, values.map fun value => ("X-Forwarded-For".toList, value)⟩

def seenByProxy : Bytes := Text.utf8 "203.0.113.7".toList

/-- The entry where it follows another one. -/
def appendedByProxy : Bytes := Text.utf8 " ".toList ++ seenByProxy

/-- The proxy has appended to what the client claimed. -/
def claimedValues : List Bytes := [Text.utf8 "10.0.0.1,".toList ++ appendedByProxy]

/-- The client sent a line of its own. -/
def separateValues : List Bytes := [[0xff], seenByProxy]

/-- The proxy has appended to a byte that is no text. -/
def garbledValues : List Bytes := [[0xff] ++ Text.utf8 ",".toList ++ appendedByProxy]

def proxiedParsers : Parsers :=
  tableParsers <| [claimedValues, separateValues, garbledValues].map fun values =>
    (proxiedHead values, proxiedParsed values)

def loopback : TrustedProxies := ⟨[⟨.v4 0x7f000000, 8, by decide⟩]⟩

def localPeer : SocketAddr := ⟨.v4 0x7f000001, 5555⟩

def seenAddr : IpAddr := .v4 0xcb007107

theorem claimed_names : Names loopback (proxiedParsed claimedValues)
    [Text.utf8 "10.0.0.1".toList] appendedByProxy [] seenAddr :=
  ⟨by decide +kernel, by decide +kernel, by decide +kernel, nofun⟩

theorem forwarded_iff_claimed :
    loopback.clientAddr proxiedParsers localPeer (proxiedHead claimedValues) =
        ⟨localPeer, some seenAddr⟩ ∧
      loopback.clientAddr proxiedParsers localPeer (proxiedHead separateValues) =
        ⟨localPeer, some seenAddr⟩ := by
  have hseparate : Names loopback (proxiedParsed separateValues) [[0xff]] seenByProxy [] seenAddr :=
    ⟨by decide +kernel, by decide +kernel, by decide +kernel, nofun⟩
  refine (forwarded_iff (tableParsers_limitsHeaders _) (by decide +kernel) ⟨64, by decide +kernel⟩
    claimed_names ⟨64, by decide +kernel⟩ hseparate).mpr ⟨⟨by decide, ?_⟩, by decide, ?_⟩
  · exact ⟨[], _, [], [Text.utf8 "10.0.0.1".toList], [], rfl, by decide +kernel, by decide +kernel,
      rfl, .inl (by decide +kernel)⟩
  · exact ⟨[[0xff]], _, [], [], [], rfl, by decide +kernel, by decide +kernel, rfl,
      .inl (by decide +kernel)⟩

/-- A byte that is no text, sent by the client, hides the address that the proxy
appended to it. -/
theorem garbled_line_hides :
    Names loopback (proxiedParsed garbledValues) [[0xff]] appendedByProxy [] seenAddr ∧
      (proxiedParsed garbledValues).headers.length ≤ maxForwardedHeaders ∧
      loopback.clientAddr proxiedParsers localPeer (proxiedHead claimedValues) =
        ⟨localPeer, some seenAddr⟩ ∧
      loopback.clientAddr proxiedParsers localPeer (proxiedHead garbledValues) =
        ⟨localPeer, none⟩ := by
  refine ⟨⟨?_, ?_, ?_, nofun⟩, ?_, ?_, ?_⟩ <;> decide +kernel

end Ws2tcpRouter
