import Ws2tcpRouter.Mediation

/-!
# The anonymous targets

The allowlist is a list of rendered addresses, and a request path is let
through if its target renders to one of them. Rendering loses nothing, so
this is the same as parsing to the same host and port.
-/

namespace Ws2tcpRouter

variable {p : Platform} {auth : AuthConfig}

-- ---------------------------------------------------------------------------
-- Rendering
-- ---------------------------------------------------------------------------

theorem colon_notMem_repr (n : Nat) : ':' ∉ (Nat.repr n).toList := by
  rw [Nat.toList_repr]
  intro h
  exact absurd (Nat.isDigit_of_mem_toDigits (by decide) (by decide) h) (by decide)

theorem repr_toList_inj (h : (Nat.repr m).toList = (Nat.repr n).toList) : m = n := by
  rw [Nat.toList_repr, Nat.toList_repr] at h
  rw [← @Nat.ofDigitChars_toDigits 10 m (by decide) (Nat.le_refl 10), h,
    Nat.ofDigitChars_toDigits (by decide) (Nat.le_refl 10)]

/-- Whatever the host, the port is what follows the last colon. -/
theorem addr_inj {t t' : Target} : t.addr = t'.addr ↔ t.host = t'.host ∧ t.port = t'.port := by
  constructor
  · intro h
    have hsplit := Text.rsplitOnce_append (colon_notMem_repr t.port) t.host
    have hsplit' := Text.rsplitOnce_append (colon_notMem_repr t'.port) t'.host
    unfold Target.addr at h
    rw [h, hsplit'] at hsplit
    obtain ⟨hhost, hport⟩ := Prod.mk.inj (Option.some.inj hsplit)
    exact ⟨hhost.symm, (repr_toList_inj hport).symm⟩
  · rintro ⟨hhost, hport⟩
    rw [Target.addr, hhost, hport, Target.addr]

-- ---------------------------------------------------------------------------
-- Loading
-- ---------------------------------------------------------------------------

/-- The entries of a file, if one is given and could be read. -/
def entriesOf (file : Option (Option Str)) : List Str :=
  (file.bind id).elim [] fun text => (fileEntries text).map Prod.snd

def allowlistEntries (configured : List Str) (file : Option (Option Str)) : List Str :=
  configured ++ entriesOf file

/-- The addresses are those of the entries, in their order. -/
def Rendered (entries targets : List Str) : Prop :=
  List.Forall₂ (fun entry addr => ∃ t, parseTargetAddr entry = .ok t ∧ t.addr = addr) entries
    targets

theorem map_addr_ok {r : Except TargetError Target} :
    (r.map Target.addr).mapError f = .ok addr ↔ ∃ t, r = .ok t ∧ t.addr = addr := by
  rw [Except.mapError_eq_ok, Except.map_eq_ok]

theorem normalizeAnonymousTargets_ok (h : normalizeAnonymousTargets configured = .ok targets) :
    Rendered configured targets :=
  (Except.mapM_eq_ok.mp h).imp fun _ _ => map_addr_ok.mp

theorem loadAnonymousTargetFile_ok (h : loadAnonymousTargetFile (some text) = .ok targets) :
    Rendered ((fileEntries text).map Prod.snd) targets := by
  rw [Rendered, List.forall₂_map_left_iff]
  exact (Except.mapM_eq_ok.mp h).imp fun _ _ => map_addr_ok.mp

theorem fromFile_ok (h : fromFile loadAnonymousTargetFile file = .ok targets) :
    Rendered (entriesOf file) targets := by
  cases file with
  | none =>
    cases h
    exact .nil
  | some file =>
    have h := Except.mapError_eq_ok.mp h
    cases file with
    | none => cases h
    | some text => exact loadAnonymousTargetFile_ok h

theorem Rendered.of_files (hconfigured : normalizeAnonymousTargets configured = .ok fixed)
    (hfile : fromFile loadAnonymousTargetFile file = .ok loaded) :
    Rendered (allowlistEntries configured file) (fixed ++ loaded) :=
  List.rel_append (normalizeAnonymousTargets_ok hconfigured) (fromFile_ok hfile)

theorem Rendered.mem_iff (h : Rendered entries targets) :
    addr ∈ targets ↔ ∃ entry ∈ entries, ∃ t, parseTargetAddr entry = .ok t ∧ t.addr = addr := by
  induction h with
  | nil => simp
  | cons h _ ih =>
    obtain ⟨t, ht, rfl⟩ := h
    rw [List.mem_cons, ih, List.exists_mem_cons_iff]
    refine or_congr_left ?_
    constructor
    · rintro rfl
      exact ⟨t, ht, rfl⟩
    · rintro ⟨t', ht', rfl⟩
      cases ht.symm.trans ht'
      rfl

theorem Rendered.allows_iff (h : Rendered entries auth.anonymousTargets) :
    auth.allowsAnonymousTarget path = true ↔
      ∃ target, parseTarget path = .ok target ∧ ∃ entry ∈ entries, ∃ t,
        parseTargetAddr entry = .ok t ∧ t.host = target.host ∧ t.port = target.port := by
  rw [allowsAnonymousTarget_eq_true]
  simp only [AuthConfig.AnonymousTo, h.mem_iff, addr_inj]

-- ---------------------------------------------------------------------------
-- The allowlist decides
-- ---------------------------------------------------------------------------

/-- A path passes the allowlist exactly if some entry parses to its host and
port. A request for it then needs no credentials, one without credentials
passes in no other way, and what is connected is the address of the entry. -/
theorem allowlist_exact (hconfigured : normalizeAnonymousTargets configured = .ok fixed)
    (hfile : fromFile loadAnonymousTargetFile file = .ok loaded)
    (hauth : auth.anonymousTargets = fixed ++ loaded) (request : Request) :
    (auth.allowsAnonymousTarget request.path = true ↔
      ∃ target, parseTarget request.path = .ok target ∧
        ∃ entry ∈ allowlistEntries configured file, ∃ t,
          parseTargetAddr entry = .ok t ∧ t.host = target.host ∧ t.port = target.port) ∧
    (auth.allowsAnonymousTarget request.path = true →
      authorizeRequest p (some auth) s now request = .ok anonymousAuthUser) ∧
    (request.get authorization = none →
      authorizeRequest p (some auth) s now request = .ok user →
        auth.allowsAnonymousTarget request.path = true) ∧
    ∀ parsers stream draws answered, receive parsers stream = .ok (.upgrade request) →
      ∀ target t entry, parseTarget request.path = .ok target →
        entry ∈ allowlistEntries configured file → parseTargetAddr entry = .ok t →
        t.host = target.host → t.port = target.port →
        ∀ e ∈ (handleConnection p parsers (some auth) s now draws stream answered).effects,
          ∀ protocol addr, e.upstream = some (protocol, addr) →
            protocol = target.protocol ∧ addr = t.addr := by
  have hrendered : Rendered (allowlistEntries configured file) auth.anonymousTargets := by
    rw [hauth]
    exact .of_files hconfigured hfile
  refine ⟨hrendered.allows_iff, ?_, ?_, ?_⟩
  · intro hallows
    simp only [authorizeRequest, hallows, if_true]
  · intro hnone huser
    by_contra hallows
    simp [authorizeRequest, hallows, Request.getStr, hnone] at huser
  · intro parsers stream draws answered hreceive target t entry htarget _ _ hhost hport e he
      protocol addr hupstream
    have hguarded : e.Guarded := by
      cases e with
      | connectTcp => trivial
      | connectUdp => trivial
      | _ => cases hupstream
    obtain ⟨r, user, hr, -, hconnects⟩ := upgrade_mediated hreceive he hguarded
    cases hreceive.symm.trans hr
    obtain ⟨target', htarget', hprotocol, haddr⟩ := hconnects protocol addr hupstream
    cases htarget.symm.trans htarget'
    exact ⟨hprotocol.symm, haddr ▸ (addr_inj.mpr ⟨hhost.symm, hport.symm⟩)⟩

/-- The port is compared as a number, whatever way it is written. -/
theorem allowlist_exact_port :
    (AuthConfig.allowsAnonymousTarget
        { aliceOnly with anonymousTargets := ["db:80".toList, "[::1]:443".toList] }
        "/udp:db:+80".toList = true) := by
  have hallows := (@allowlist_exact (.crates 0)
    { aliceOnly with anonymousTargets := ["db:80".toList, "[::1]:443".toList] } ["db:080".toList]
    ["db:80".toList] (some (some "# local\n [::1]:443 ".toList)) ["[::1]:443".toList] (.new 0) 0 []
    (by decide +kernel) (by decide +kernel) rfl ⟨[], "/udp:db:+80".toList, []⟩).1
  refine hallows.mpr ⟨⟨.udp, "db".toList, 80⟩, by decide +kernel, "db:080".toList, ?_⟩
  exact ⟨by decide +kernel, ⟨.tcp, "db".toList, 80⟩, by decide +kernel, rfl, rfl⟩

end Ws2tcpRouter
