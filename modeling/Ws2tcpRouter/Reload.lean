import Ws2tcpRouter.Allowlist

/-!
# Reloading

A reload that is accepted leaves the configuration a restart with the same
options and the new file would build; one that is not leaves it alone. So
after any attempts the lists are those of the files accepted last.
-/

namespace Ws2tcpRouter

variable {p : Platform} {auth auth' : AuthConfig} {args : AuthArgs}

-- ---------------------------------------------------------------------------
-- What a configuration is built from
-- ---------------------------------------------------------------------------

/-- A configuration and the options and file entries it was built from. -/
structure Built (p : Platform) (args : AuthArgs) (auth : AuthConfig)
    (fileAuthorizations fileTargets : List Str) : Prop where
  enabled : (!args.basicAuth.isEmpty || args.basicAuthFile.isSome) = true
  fixed : encodeCredentials p args.basicAuth = .ok auth.fixedAuthorizations
  file : fromFile (loadAuthFile p) args.basicAuthFile = .ok fileAuthorizations
  nonempty : auth.fixedAuthorizations ++ fileAuthorizations ≠ []
  fixedTargets : normalizeAnonymousTargets args.anonymousTarget = .ok auth.fixedAnonymousTargets
  targets : fromFile loadAnonymousTargetFile args.anonymousTargetFile = .ok fileTargets
  tokens : args.tokens = auth.tokens
  service : auth.tokens.isSome = true
  expected : auth.expectedAuthorizations = auth.fixedAuthorizations ++ fileAuthorizations
  anonymous : auth.anonymousTargets = auth.fixedAnonymousTargets ++ fileTargets

theorem buildAuthConfig_ok : buildAuthConfig p args = .ok (some auth) ↔
    ∃ fileAuthorizations fileTargets, Built p args auth fileAuthorizations fileTargets := by
  unfold buildAuthConfig
  dsimp only
  constructor
  · intro h
    split at h
    next => cases h
    next henabled =>
      rw [Bool.not_eq_true, Bool.not_eq_false'] at henabled
      obtain ⟨fixed, hfixed, h⟩ := Except.bind_eq_ok.mp h
      obtain ⟨file, hfile, h⟩ := Except.bind_eq_ok.mp h
      split at h
      next => cases h
      next hnonempty =>
        obtain ⟨fixedTargets, hfixedTargets, h⟩ := Except.bind_eq_ok.mp h
        obtain ⟨fileTargets, hfileTargets, h⟩ := Except.bind_eq_ok.mp h
        split at h
        next => cases h
        next tokens htokens =>
          cases h
          exact ⟨file, fileTargets, henabled, Except.mapError_eq_ok.mp hfixed, hfile,
            hnonempty, Except.mapError_eq_ok.mp hfixedTargets, hfileTargets, htokens, rfl, rfl, rfl⟩
  · rintro ⟨file, fileTargets, h⟩
    obtain ⟨tokens, htokens⟩ := Option.isSome_iff_exists.mp h.service
    rw [if_neg (by simp [h.enabled]), Except.bind_eq_ok]
    refine ⟨_, Except.mapError_eq_ok.mpr h.fixed, Except.bind_eq_ok.mpr ⟨file, h.file, ?_⟩⟩
    rw [if_neg h.nonempty, Except.bind_eq_ok]
    refine ⟨_, Except.mapError_eq_ok.mpr h.fixedTargets,
      Except.bind_eq_ok.mpr ⟨fileTargets, h.targets, ?_⟩⟩
    simp only [h.tokens, htokens]
    rw [← h.expected, ← h.anonymous, ← htokens]

-- ---------------------------------------------------------------------------
-- Attempts
-- ---------------------------------------------------------------------------

/-- An attempt to reload a file, by the content found, if it could be read. -/
inductive Attempt
  | authFile (file : Option Str)
  | anonymousTargetFile (file : Option Str)

def attempt (p : Platform) (auth : AuthConfig) : Attempt → AuthConfig × Except AuthFileError Bool
  | .authFile file => auth.reloadAuthFile p file
  | .anonymousTargetFile file => auth.reloadAnonymousTargetFile file

def attempts (p : Platform) (auth : AuthConfig) (l : List Attempt) : AuthConfig :=
  l.foldl (fun auth a => (attempt p auth a).1) auth

/-- The options with the file of an attempt in the place of the old one. -/
def AuthArgs.withFile (args : AuthArgs) : Attempt → AuthArgs
  | .authFile file => { args with basicAuthFile := some file }
  | .anonymousTargetFile file => { args with anonymousTargetFile := some file }

/-- The options with the files that were accepted last. -/
def lastAccepted (p : Platform) (auth : AuthConfig) (args : AuthArgs) : List Attempt → AuthArgs
  | [] => args
  | a :: l =>
    match (attempt p auth a).2 with
    | .ok _ => lastAccepted p (attempt p auth a).1 (args.withFile a) l
    | .error _ => lastAccepted p (attempt p auth a).1 args l

theorem attempt_error (a : Attempt) (h : (attempt p auth a).2 = .error e) :
    (attempt p auth a).1 = auth := by
  cases a with
  | authFile file =>
    obtain ⟨e, heq⟩ | ⟨entries, changed, -, -, heq⟩ := reloadAuthFile_cases p auth file
    · rw [attempt, heq]
    · rw [attempt, heq] at h
      cases h
  | anonymousTargetFile file =>
    obtain ⟨e, heq⟩ | ⟨targets, changed, -, heq⟩ := reloadAnonymousTargetFile_cases auth file
    · rw [attempt, heq]
    · rw [attempt, heq] at h
      cases h

/-- An accepted attempt ends where a restart with its file would begin. -/
theorem attempt_ok (hb : buildAuthConfig p args = .ok (some auth)) (a : Attempt)
    (h : (attempt p auth a).2 = .ok changed) :
    buildAuthConfig p (args.withFile a) = .ok (some (attempt p auth a).1) := by
  obtain ⟨fileAuthorizations, fileTargets, hb⟩ := buildAuthConfig_ok.mp hb
  rw [buildAuthConfig_ok]
  cases a with
  | authFile file =>
    obtain ⟨e, heq⟩ | ⟨entries, changed, hload, hne, heq⟩ := reloadAuthFile_cases p auth file
    · rw [attempt, heq] at h
      cases h
    · rw [attempt, heq]
      have hfile : fromFile (loadAuthFile p) (some file) = .ok entries :=
        Except.mapError_eq_ok.mpr hload
      exact ⟨entries, fileTargets,
        { hb with
          enabled := by simp [AuthArgs.withFile]
          file := hfile
          nonempty := hne
          expected := rfl }⟩
  | anonymousTargetFile file =>
    obtain ⟨e, heq⟩ | ⟨targets, changed, hload, heq⟩ := reloadAnonymousTargetFile_cases auth file
    · rw [attempt, heq] at h
      cases h
    · rw [attempt, heq]
      have hfile : fromFile loadAnonymousTargetFile (some file) = .ok targets :=
        Except.mapError_eq_ok.mpr hload
      exact ⟨fileAuthorizations, targets, { hb with targets := hfile, anonymous := rfl }⟩

theorem attempts_build (hb : buildAuthConfig p args = .ok (some auth)) (l : List Attempt) :
    buildAuthConfig p (lastAccepted p auth args l) = .ok (some (attempts p auth l)) := by
  induction l generalizing auth args with
  | nil => exact hb
  | cons a l ih =>
    rw [lastAccepted]
    split
    next changed hok => exact ih (attempt_ok hb a hok)
    next e herror =>
      have hsame := attempt_error a herror
      rw [attempts, List.foldl_cons]
      rw [hsame]
      exact ih hb

-- ---------------------------------------------------------------------------
-- The credentials
-- ---------------------------------------------------------------------------

def AuthArgs.credentials (args : AuthArgs) : List Str :=
  args.basicAuth ++ entriesOf args.basicAuthFile

/-- The user name is not empty and ends at the first colon, and a password follows. -/
def Credential (credential username : Str) : Prop :=
  ∃ password, Text.splitOnce ':' credential = some (username, password) ∧ username ≠ [] ∧
    password ≠ []

theorem validateBasicAuthCredential_ok :
    validateBasicAuthCredential credential = .ok () ↔ ∃ username, Credential credential username := by
  unfold validateBasicAuthCredential Credential
  cases Text.splitOnce ':' credential with
  | none => simp
  | some parts =>
    obtain ⟨username, password⟩ := parts
    dsimp only
    split
    next hempty => simp [hempty]
    next hne =>
      split
      next hempty => simp [hempty]
      next hne' => simp [hne, hne']

theorem basicAuthUsername_encodeCredential (hl : p.standard.Lawful)
    (h : Credential credential username) :
    basicAuthUsername p (encodeCredential p credential) = some username := by
  obtain ⟨password, hsplit, hne, -⟩ := h
  have hstart : "Basic ".toList.isPrefixOf? (encodeCredential p credential) =
      some (p.standard.encode (Text.utf8 credential)) := Text.isPrefixOf?_eq_some.mpr rfl
  rw [basicAuthUsername, hstart]
  simp only [Option.bind_eq_bind, Option.bind_some, hl.decode_encode, Text.fromUtf8_utf8, hsplit]
  rw [if_neg hne]

/-- The authorizations are those of valid credentials, in their order. -/
def Encoded (p : Platform) (credentials authorizations : List Str) : Prop :=
  authorizations = credentials.map (encodeCredential p) ∧
    ∀ credential ∈ credentials, ∃ username, Credential credential username

theorem Encoded.of_forall₂ (h : List.Forall₂ (fun credential authorization =>
      (∃ username, Credential credential username) ∧
        encodeCredential p credential = authorization) credentials authorizations) :
    Encoded p credentials authorizations := by
  induction h with
  | nil => exact ⟨rfl, by simp⟩
  | cons hfirst _ ih =>
    obtain ⟨hvalid, rfl⟩ := hfirst
    exact ⟨congrArg (List.cons _) ih.1, List.forall_mem_cons.mpr ⟨hvalid, ih.2⟩⟩

theorem encodeCredentials_ok (h : encodeCredentials p credentials = .ok authorizations) :
    Encoded p credentials authorizations := by
  refine .of_forall₂ ((Except.mapM_eq_ok.mp h).imp ?_)
  intro credential authorization h
  obtain ⟨⟨⟩, hvalid, hencoded⟩ := Except.bind_eq_ok.mp h
  exact ⟨validateBasicAuthCredential_ok.mp hvalid, Except.ok.inj hencoded⟩

theorem loadAuthFile_ok (h : loadAuthFile p (some text) = .ok authorizations) :
    Encoded p ((fileEntries text).map Prod.snd) authorizations := by
  refine .of_forall₂ ?_
  rw [List.forall₂_map_left_iff]
  refine (Except.mapM_eq_ok.mp h).imp ?_
  intro entry authorization h
  obtain ⟨⟨⟩, hvalid, hencoded⟩ := Except.bind_eq_ok.mp h
  have hvalid := Except.mapError_eq_ok.mp hvalid
  exact ⟨validateBasicAuthCredential_ok.mp hvalid, Except.ok.inj hencoded⟩

theorem fromFile_loadAuthFile_ok (h : fromFile (loadAuthFile p) file = .ok authorizations) :
    Encoded p (entriesOf file) authorizations := by
  cases file with
  | none =>
    cases h
    exact ⟨rfl, by simp [entriesOf]⟩
  | some file =>
    have h := Except.mapError_eq_ok.mp h
    cases file with
    | none => cases h
    | some text => exact loadAuthFile_ok h

theorem Encoded.append (h : Encoded p a b) (h' : Encoded p a' b') :
    Encoded p (a ++ a') (b ++ b') := by
  refine ⟨by rw [h.1, h'.1, List.map_append], ?_⟩
  intro credential hc
  rcases List.mem_append.mp hc with hc | hc
  · exact h.2 credential hc
  · exact h'.2 credential hc

-- ---------------------------------------------------------------------------
-- Reloading equals restarting
-- ---------------------------------------------------------------------------

theorem reload_equals_restart (hl : p.standard.Lawful)
    (hb : buildAuthConfig p args = .ok (some auth)) (l : List Attempt) :
    buildAuthConfig p (lastAccepted p auth args l) = .ok (some (attempts p auth l)) ∧
    (attempts p auth l).expectedAuthorizations =
      (lastAccepted p auth args l).credentials.map (encodeCredential p) ∧
    Rendered (allowlistEntries (lastAccepted p auth args l).anonymousTarget
      (lastAccepted p auth args l).anonymousTargetFile) (attempts p auth l).anonymousTargets ∧
    (attempts p auth l).expectedAuthorizations ≠ [] ∧
    (∀ credential ∈ (lastAccepted p auth args l).credentials, ∃ username,
      Credential credential username ∧
        basicAuthUsername p (encodeCredential p credential) = some username) ∧
    ∀ a e, (attempt p (attempts p auth l) a).2 = .error e →
      (attempt p (attempts p auth l) a).1 = attempts p auth l := by
  have hbuild := attempts_build hb l
  obtain ⟨fileAuthorizations, fileTargets, h⟩ := buildAuthConfig_ok.mp hbuild
  obtain ⟨hencoded, hvalid⟩ :=
    (encodeCredentials_ok h.fixed).append (fromFile_loadAuthFile_ok h.file)
  refine ⟨hbuild, h.expected.trans hencoded, ?_, ?_, ?_, fun a e herror => attempt_error a herror⟩
  · rw [h.anonymous]
    exact .of_files h.fixedTargets h.targets
  · rw [h.expected]
    exact h.nonempty
  · intro credential hc
    obtain ⟨username, hcredential⟩ := hvalid credential hc
    exact ⟨username, hcredential, basicAuthUsername_encodeCredential hl hcredential⟩

def fixedAlice : AuthArgs where
  basicAuth := ["alice:secret".toList]
  basicAuthFile := some (some "bob:hunter2\n".toList)
  anonymousTarget := []
  anonymousTargetFile := none
  tokens := some ⟨[], 0, 0⟩

/-- A new file is taken over; an unreadable one and one with a bad line are not. -/
theorem reload_equals_restart_carol :
    let attempted : List Attempt := [.authFile (some "# staff\ncarol:x:y\n".toList), .authFile none,
      .authFile (some "dave".toList)]
    ∃ auth, buildAuthConfig (.crates 0) fixedAlice = .ok (some auth) ∧
      (attempts (.crates 0) auth attempted).expectedAuthorizations =
        ["alice:secret", "carol:x:y"].map fun s => encodeCredential (.crates 0) s.toList := by
  intro attempted
  have hb : buildAuthConfig (.crates 0) fixedAlice = .ok (some
      { expectedAuthorizations :=
          ["alice:secret", "bob:hunter2"].map fun s => encodeCredential (.crates 0) s.toList
        fixedAuthorizations := [encodeCredential (.crates 0) "alice:secret".toList]
        anonymousTargets := [], fixedAnonymousTargets := []
        tokens := some ⟨[], 0, 0⟩ }) := by decide +kernel
  refine ⟨_, hb, ?_⟩
  rw [(reload_equals_restart (Platform.crates_standard 0) hb attempted).2.1]
  decide +kernel

end Ws2tcpRouter
