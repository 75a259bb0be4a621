import Ws2tcpRouter.Lib.Except
import Ws2tcpRouter.Target

/-!
# The grammar of targets

The target parser against its grammar: it accepts what the grammar derives, and
the address it renders is derived again.
-/

namespace Ws2tcpRouter

def Protocol.scheme : Protocol → Str
  | .tcp => "/tcp:".toList
  | .udp => "/udp:".toList

/-- The host and the port a text stands for. The brackets belong to the host. -/
inductive HostPort : Str → Str → Nat → Prop
  | plain : host ≠ [] → ':' ∉ host → host.head? ≠ some '[' → Text.Decimal port n → n ≤ maxPort →
      HostPort (host ++ ':' :: port) host n
  | bracketed : host ≠ [] → ¬"]:".toList <:+: host → Text.Decimal port n → n ≤ maxPort →
      HostPort ('[' :: host ++ ']' :: ':' :: port) ('[' :: host ++ [']']) n

/-- The target a path stands for. -/
def Denotes (path : Str) (target : Target) : Prop :=
  ∃ rest, path = target.protocol.scheme ++ rest ∧ HostPort rest target.host target.port

theorem colon_notMem_decimal (h : Text.Decimal s n) : ':' ∉ s := by
  obtain ⟨digits, hs, -, hall, -⟩ := h
  have hdigits : ':' ∉ digits := fun hm => absurd (hall ':' hm) (by decide)
  rcases hs with rfl | rfl
  · exact hdigits
  · simpa using hdigits

/-- The text splits behind the first `]:` or at its last colon, as it begins. -/
theorem splitHostPort_eq_ok : splitHostPort s = .ok (host, port) ↔
    (∃ name, s = '[' :: name ++ ']' :: ':' :: port ∧ host = '[' :: name ++ [']'] ∧ name ≠ [] ∧
      ¬"]:".toList <:+: name) ∨
    (s.head? ≠ some '[' ∧ s = host ++ ':' :: port ∧ ':' ∉ host ∧ ':' ∉ port) := by
  have hsplit : ∀ {t a b}, Text.splitOnceStr "]:".toList t = some (a, b) ↔
      ¬"]:".toList <:+: a ∧ t = a ++ ']' :: ':' :: b := Text.splitOnceStr_eq_some (by decide)
  unfold splitHostPort
  split
  next rest hpre =>
    cases Text.isPrefixOf?_eq_some.mp hpre
    rw [or_iff_left (fun h => h.1 rfl)]
    constructor
    · intro h
      split at h
      next => cases h
      next name port' hname =>
        split at h <;> cases h
        next hne =>
          obtain ⟨hfree, rfl⟩ := hsplit.mp hname
          exact ⟨name, rfl, rfl, hne, hfree⟩
    · rintro ⟨name, hs, rfl, hne, hfree⟩
      have hname : Text.splitOnceStr "]:".toList rest = some (name, port) :=
        hsplit.mpr ⟨hfree, (List.cons.inj hs).2⟩
      rw [hname]
      dsimp only
      rw [if_neg hne]
  next hpre =>
    have hhead : s.head? ≠ some '[' := by
      intro hs
      obtain ⟨rest, rfl⟩ := List.head?_eq_some_iff.mp hs
      cases (Text.isPrefixOf?_eq_some.mpr (rfl : '[' :: rest = "[".toList ++ rest)).symm.trans hpre
    rw [or_iff_right]
    · constructor
      · intro h
        split at h
        next => cases h
        next host' port' hlast =>
          split at h <;> cases h
          next hhost =>
            obtain ⟨hport, rfl⟩ := Text.rsplitOnce_eq_some.mp hlast
            exact ⟨hhead, rfl, hhost, hport⟩
      · rintro ⟨-, rfl, hhost, hport⟩
        simp only [Text.rsplitOnce_append hport, if_neg hhost]
    · rintro ⟨name, rfl, -⟩
      exact hhead rfl

theorem parseHostPort_split : parseHostPort s = .ok (host, n) ↔
    ∃ port, splitHostPort s = .ok (host, port) ∧ host ≠ [] ∧ Text.Decimal port n ∧ n ≤ maxPort := by
  unfold parseHostPort
  constructor
  · intro h
    obtain ⟨⟨host', port⟩, hsplit, h⟩ := Except.bind_eq_ok.mp h
    dsimp only at h
    split at h
    next => cases h
    next hne =>
      split at h
      next n' hport =>
        cases h
        exact ⟨port, hsplit, hne, Text.parseUnsigned_eq_some.mp hport⟩
      next => cases h
  · rintro ⟨port, hsplit, hne, hport⟩
    refine Except.bind_eq_ok.mpr ⟨(host, port), hsplit, ?_⟩
    simp only [if_neg hne, Text.parseUnsigned_eq_some.mpr hport]

theorem parseHostPort_eq_ok : parseHostPort s = .ok (host, n) ↔ HostPort s host n := by
  rw [parseHostPort_split]
  constructor
  · rintro ⟨port, hsplit, hne, hport, hn⟩
    rcases splitHostPort_eq_ok.mp hsplit with
      ⟨name, rfl, rfl, hname, hfree⟩ | ⟨hhead, rfl, hhost, -⟩
    · exact .bracketed hname hfree hport hn
    · rw [List.head?_append_of_ne_nil _ hne] at hhead
      exact .plain hne hhost hhead hport hn
  · rintro (⟨hne, hhost, hhead, hport, hn⟩ | ⟨hname, hfree, hport, hn⟩)
    · rw [← List.head?_append_of_ne_nil _ hne] at hhead
      exact ⟨_, splitHostPort_eq_ok.mpr (.inr ⟨hhead, rfl, hhost, colon_notMem_decimal hport⟩), hne,
        hport, hn⟩
    · exact ⟨_, splitHostPort_eq_ok.mpr (.inl ⟨_, rfl, rfl, hname, hfree⟩),
        List.cons_ne_nil _ _, hport, hn⟩

theorem parseTarget_eq_ok : parseTarget path = .ok target ↔ Denotes path target := by
  unfold parseTarget Denotes
  constructor
  · intro h
    split at h
    next rest htcp =>
      obtain ⟨_, hproto, h⟩ := Except.bind_eq_ok.mp h
      cases hproto
      obtain ⟨⟨host, port⟩, hrest, h⟩ := Except.bind_eq_ok.mp h
      cases h
      exact ⟨rest, Text.isPrefixOf?_eq_some.mp htcp, parseHostPort_eq_ok.mp hrest⟩
    next rest _ hudp =>
      obtain ⟨_, hproto, h⟩ := Except.bind_eq_ok.mp h
      cases hproto
      obtain ⟨⟨host, port⟩, hrest, h⟩ := Except.bind_eq_ok.mp h
      cases h
      exact ⟨rest, Text.isPrefixOf?_eq_some.mp hudp, parseHostPort_eq_ok.mp hrest⟩
    next => cases h
  · rintro ⟨rest, rfl, hrest⟩
    have hok := parseHostPort_eq_ok.mpr hrest
    obtain ⟨protocol, host, port⟩ := target
    cases protocol with
    | tcp => simp [Protocol.scheme, List.isPrefixOf?, bind, Except.bind, hok]
    | udp => simp [Protocol.scheme, List.isPrefixOf?, bind, Except.bind, hok]

/-- What is rendered is read again as it was. -/
theorem HostPort.render (h : HostPort s host n) :
    HostPort (host ++ ':' :: (Nat.repr n).toList) host n := by
  cases h with
  | plain hne hhost hhead hport hn => exact .plain hne hhost hhead (Text.decimal_repr n) hn
  | bracketed hname hfree hport hn =>
    rw [List.append_assoc]
    exact .bracketed hname hfree (Text.decimal_repr n) hn

/-- The parser accepts the paths of the grammar, as what they stand for, and
the address of what it accepts parses to the same host and port. -/
theorem parseTarget_iff (path : Str) :
    (∀ target, parseTarget path = .ok target ↔ Denotes path target) ∧
    ∀ target, parseTarget path = .ok target →
      ∃ t, parseTargetAddr target.addr = .ok t ∧ t.host = target.host ∧ t.port = target.port := by
  refine ⟨fun target => parseTarget_eq_ok, ?_⟩
  intro target h
  obtain ⟨rest, -, hrest⟩ := parseTarget_eq_ok.mp h
  refine ⟨⟨.tcp, target.host, target.port⟩, ?_, rfl, rfl⟩
  exact Except.bind_eq_ok.mpr ⟨_, parseHostPort_eq_ok.mpr hrest.render, rfl⟩

/-- The host ends at the first `]:`, not at the first bracket. -/
example : parseTarget "/tcp:[a]b]]:443".toList = .ok ⟨.tcp, "[a]b]]".toList, 443⟩ := by
  decide +kernel

end Ws2tcpRouter
