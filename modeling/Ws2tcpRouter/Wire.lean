import Ws2tcpRouter.Lib.Fields
import Ws2tcpRouter.Lib.Json
import Ws2tcpRouter.Serving
import Ws2tcpRouter.Tunnel

/-!
# Answers on the wire

`write_response` of `http_probe.rs`, and a client that reads what it wrote: the
bytes of an answer are that answer and nothing else, and the tokens in it are
those that were issued. The reason phrases are the `http` crate's.
-/

namespace Ws2tcpRouter

open Sessions (State Call outputs)
open Timed (Run)
open Token (TokenService IssuedTokens)
open Lib (Marks)

/-- `reason` is `StatusCode::canonical_reason`, empty where there is none. -/
def writeResponse (reason : Nat → Str) (response : Response) (includeBody : Bool) : Bytes :=
  let body := response.body.getD []
  let out := "HTTP/1.1 ".toList ++ (Nat.repr response.status).toList ++
    ' ' :: reason response.status ++ "\r\n".toList
  let out := out ++ response.headers.flatMap fun (name, value) =>
    name ++ ": ".toList ++ value ++ "\r\n".toList
  -- a 204 has no body, and must not say how long it is
  let out := out ++ if response.status ≠ 204 then
    "content-length: ".toList ++ (Nat.repr (Text.utf8 body).length).toList ++ "\r\n".toList else []
  let out := out ++ "connection: close\r\n\r\n".toList
  Text.utf8 (if includeBody then out ++ body else out)

-- ---------------------------------------------------------------------------
-- A client
-- ---------------------------------------------------------------------------

def httpMarks : Marks UInt8 := ⟨13, 10, 58, 32, by decide, by decide⟩

/-- An answer as a client reads it. -/
structure HttpAnswer where
  status : Nat
  reason : Str
  headers : List (Bytes × Bytes)
  body : Bytes
  deriving DecidableEq, Repr

def readStatusLine (line : Bytes) : Option (Nat × Str) := do
  let line ← Text.fromUtf8 line
  let rest ← "HTTP/1.1 ".toList.isPrefixOf? line
  let (status, reason) ← Text.splitOnce ' ' rest
  let status ← Text.parseUnsigned 999 status
  some (status, reason)

def contentLength (headers : List (Bytes × Bytes)) (greatest : Nat) : Option Nat := do
  let value ← headers.lookup (Text.utf8 "content-length".toList)
  let text ← Text.fromUtf8 value
  Text.parseUnsigned greatest text

/-- What is read from a connection up to its end, by a client that asked for a
body or for none. Bytes too few or too many are no answer. -/
def readAnswer (asksBody : Bool) (bytes : Bytes) : Option HttpAnswer := do
  let (line, headers, rest) ← httpMarks.read bytes
  let (status, reason) ← readStatusLine line
  let length ← if asksBody && status ≠ 204 then contentLength headers rest.length else some 0
  if rest.length = length then some ⟨status, reason, headers, rest⟩ else none

/-- The tokens in the body of an answer. -/
def readTokens (body : Bytes) : Option IssuedTokens := do
  let text ← Text.fromUtf8 body
  let members ← Lib.Json.read text
  let .string accessToken ← members.lookup "access_token".toList | none
  let .number accessExpiresIn ← members.lookup "expires_in".toList | none
  let .string refreshToken ← members.lookup "refresh_token".toList | none
  let .number refreshExpiresIn ← members.lookup "refresh_expires_in".toList | none
  some ⟨accessToken, accessExpiresIn, refreshToken, refreshExpiresIn⟩

-- ---------------------------------------------------------------------------
-- What was written is read back
-- ---------------------------------------------------------------------------

def bytesOf (header : Str × Str) : Bytes × Bytes := (Text.utf8 header.1, Text.utf8 header.2)

def statusLine (reason : Nat → Str) (response : Response) : Str :=
  "HTTP/1.1 ".toList ++ (Nat.repr response.status).toList ++ ' ' :: reason response.status

/-- The fields `write_response` adds. -/
def framing (response : Response) : List (Str × Str) :=
  (if response.status ≠ 204 then
    [("content-length".toList, (Nat.repr (Text.utf8 (response.body.getD [])).length).toList)]
    else []) ++ [("connection".toList, "close".toList)]

def bodyOf (response : Response) (includeBody : Bool) : Bytes :=
  if includeBody then Text.utf8 (response.body.getD []) else []

theorem utf8_fields (headers : List (Str × Str)) :
    Text.utf8 (headers.flatMap fun (name, value) =>
      name ++ ": ".toList ++ value ++ "\r\n".toList) =
      (headers.map bytesOf).flatMap fun field => httpMarks.line (httpMarks.fieldLine field) := by
  induction headers with
  | nil => rfl
  | cons header headers ih =>
    rw [List.flatMap_cons, Text.utf8_append, ih]
    simp [bytesOf, httpMarks, Marks.line, Marks.fieldLine, String.utf8EncodeChar]

theorem writeResponse_eq (reason : Nat → Str) (response : Response) (includeBody : Bool) :
    writeResponse reason response includeBody =
      httpMarks.write (Text.utf8 (statusLine reason response))
        ((response.headers ++ framing response).map bytesOf) ++ bodyOf response includeBody := by
  have hcrlf : httpMarks.line [] = Text.utf8 "\r\n".toList := by decide
  have hline : httpMarks.line (Text.utf8 (statusLine reason response)) =
      Text.utf8 (statusLine reason response) ++ Text.utf8 "\r\n".toList := rfl
  have hhead : httpMarks.write (Text.utf8 (statusLine reason response))
      ((response.headers ++ framing response).map bytesOf) =
        Text.utf8 (statusLine reason response ++ "\r\n".toList ++
          ((response.headers ++ framing response).flatMap fun (name, value) =>
            name ++ ": ".toList ++ value ++ "\r\n".toList) ++ "\r\n".toList) := by
    simp only [Marks.write, hline, hcrlf, ← utf8_fields, Text.utf8_append]
  rw [hhead]
  unfold writeResponse framing statusLine bodyOf
  split <;> cases includeBody <;> simp

-- ---------------------------------------------------------------------------
-- What was written is read back
-- ---------------------------------------------------------------------------

/-- A header that may stand in an answer. -/
def HeaderClean (header : Str × Str) : Prop :=
  httpMarks.Clean (bytesOf header) ∧ header.1 ≠ "content-length".toList

/-- An answer that keeps its shape on the wire. -/
structure Response.Clean (response : Response) : Prop where
  status : response.status ≤ 999
  noBody : response.status = 204 → response.body.getD [] = []
  headers : ∀ header ∈ response.headers, HeaderClean header

theorem notMem_utf8 {c : Char} (hc : c.toNat < 128) {s : Str} (h : c ∉ s) :
    UInt8.ofNat c.toNat ∉ Text.utf8 s := fun hm => h (Text.mem_utf8_ascii hc hm)

theorem notMem_repr {c : Char} (hc : c.isDigit = false) (n : Nat) : c ∉ (Nat.repr n).toList := by
  intro hm
  rw [Lib.Json.isDigit_repr n c hm] at hc
  cases hc

theorem contentLength_clean (n : Nat) :
    httpMarks.Clean (bytesOf ("content-length".toList, (Nat.repr n).toList)) := by
  have hname : httpMarks.cr ∉ Text.utf8 "content-length".toList ∧
      httpMarks.colon ∉ Text.utf8 "content-length".toList := by decide
  have hcr : httpMarks.cr ∉ Text.utf8 (Nat.repr n).toList :=
    @notMem_utf8 '\r' (by decide) _ (notMem_repr (by decide) n)
  have hspace : httpMarks.space ∉ Text.utf8 (Nat.repr n).toList :=
    @notMem_utf8 ' ' (by decide) _ (notMem_repr (by decide) n)
  exact ⟨hname.1, hname.2, hcr, fun h => hspace (List.mem_of_head? h),
    fun h => hspace (List.mem_of_getLast? h)⟩

theorem framing_clean (response : Response) :
    ∀ header ∈ framing response, httpMarks.Clean (bytesOf header) := by
  have hclose : httpMarks.Clean (bytesOf ("connection".toList, "close".toList)) :=
    ⟨by decide, by decide, by decide, by decide, by decide⟩
  intro header hmem
  obtain hmem | hmem := List.mem_append.mp hmem
  · split at hmem
    next =>
      rw [List.mem_singleton.mp hmem]
      exact contentLength_clean _
    next => cases hmem
  · rw [List.mem_singleton.mp hmem]
    exact hclose

theorem readStatusLine_statusLine (h : response.status ≤ 999) :
    readStatusLine (Text.utf8 (statusLine reason response)) =
      some (response.status, reason response.status) := by
  have hprefix : "HTTP/1.1 ".toList.isPrefixOf? (statusLine reason response) =
      some ((Nat.repr response.status).toList ++ ' ' :: reason response.status) :=
    Text.isPrefixOf?_eq_some.mpr (List.append_assoc _ _ _)
  have hsplit := Text.splitOnce_append (@notMem_repr ' ' (by decide) response.status)
    (reason response.status)
  have hstatus : Text.parseUnsigned 999 (Nat.repr response.status).toList =
      some response.status := Text.parseUnsigned_eq_some.mpr ⟨Text.decimal_repr _, h⟩
  simp only [readStatusLine, Text.fromUtf8_utf8, hprefix, hsplit, hstatus, Option.bind_eq_bind,
    Option.bind_some]

theorem contentLength_framing (h : response.Clean) (hstatus : response.status ≠ 204)
    (hle : (Text.utf8 (response.body.getD [])).length ≤ greatest) :
    contentLength ((response.headers ++ framing response).map bytesOf) greatest =
      some (Text.utf8 (response.body.getD [])).length := by
  have hother : (response.headers.map bytesOf).lookup (Text.utf8 "content-length".toList) =
      none := by
    refine List.lookup_eq_none_iff.mpr ?_
    intro field hfield
    obtain ⟨header, hheader, rfl⟩ := List.mem_map.mp hfield
    refine bne_iff_ne.mpr ?_
    intro heq
    exact (h.headers header hheader).2 (Text.utf8_inj heq).symm
  have hparse := Text.parseUnsigned_eq_some.mpr
    ⟨Text.decimal_repr (Text.utf8 (response.body.getD [])).length, hle⟩
  have hframing : (framing response).map bytesOf =
      (Text.utf8 "content-length".toList,
        Text.utf8 (Nat.repr (Text.utf8 (response.body.getD [])).length).toList) ::
          [bytesOf ("connection".toList, "close".toList)] := by
    rw [framing, if_pos hstatus]
    rfl
  rw [contentLength, List.map_append, List.lookup_append, hother, hframing, List.lookup_cons_self]
  simp only [Option.none_or, Option.bind_eq_bind, Option.bind_some, Text.fromUtf8_utf8, hparse]

theorem statusLine_cr (hreason : ∀ status, '\r' ∉ reason status) (response : Response) :
    '\r' ∉ statusLine reason response := by
  have hversion : '\r' ∉ "HTTP/1.1 ".toList := by decide
  have hnumber := @notMem_repr '\r' (by decide) response.status
  intro hmem
  obtain hmem | hmem := List.mem_append.mp hmem
  · exact (List.mem_append.mp hmem).elim hversion hnumber
  · obtain heq | hmem := List.mem_cons.mp hmem
    · cases heq
    · exact hreason _ hmem

/-- Whatever answer keeps its shape, a client reads back: its status, its
fields and those that frame it, and its body, with nothing left over. -/
theorem readAnswer_writeResponse (hreason : ∀ status, '\r' ∉ reason status) (h : response.Clean)
    (includeBody : Bool) :
    readAnswer includeBody (writeResponse reason response includeBody) =
      some ⟨response.status, reason response.status,
        (response.headers ++ framing response).map bytesOf, bodyOf response includeBody⟩ := by
  have hstart : httpMarks.cr ∉ Text.utf8 (statusLine reason response) :=
    @notMem_utf8 '\r' (by decide) _ (statusLine_cr hreason response)
  have hne : Text.utf8 (statusLine reason response) ≠ [] := by
    intro hnil
    have hread : readStatusLine (Text.utf8 (statusLine reason response)) =
        some (response.status, reason response.status) := readStatusLine_statusLine h.status
    rw [hnil] at hread
    cases hread
  have hfields : ∀ field ∈ (response.headers ++ framing response).map bytesOf,
      httpMarks.Clean field := by
    intro field hfield
    obtain ⟨header, hheader, rfl⟩ := List.mem_map.mp hfield
    obtain hmem | hmem := List.mem_append.mp hheader
    · exact (h.headers header hmem).1
    · exact framing_clean response header hmem
  rw [writeResponse_eq, readAnswer, Marks.read_write hstart hne hfields]
  simp only [Option.bind_eq_bind, Option.bind_some, readStatusLine_statusLine h.status]
  cases includeBody with
  | false => rfl
  | true =>
    by_cases hstatus : response.status = 204
    · have hbody : bodyOf response true = [] := by
        simp [bodyOf, h.noBody hstatus]
      simp [hstatus, hbody]
    · have hlength : contentLength ((response.headers ++ framing response).map bytesOf)
          (bodyOf response true).length = some (bodyOf response true).length :=
        contentLength_framing h hstatus (Nat.le_refl _)
      rw [if_pos (by simp [hstatus]), hlength, Option.bind_some, if_pos rfl]

-- ---------------------------------------------------------------------------
-- The answers of the router
-- ---------------------------------------------------------------------------

/-- What the router answers a plain request with. -/
inductive PlainAnswer : Response → Prop
  | healthCheck : PlainAnswer (healthCheckResponse healthCheckMessage)
  | challenge (basic : Bool) (bearer : Option Str) : (basic || bearer.isSome) = true →
      (∀ challenge, bearer = some challenge →
        challenge = bearerChallenge ∨ challenge = bearerInvalidChallenge) →
      PlainAnswer (unauthorizedResponse basic bearer)
  | notFound : PlainAnswer (textResponse 404 "not found".toList)
  | notPost :
      PlainAnswer ((textResponse 405 "use POST".toList).insert "allow".toList "POST".toList)
  | hasBody : PlainAnswer (textResponse 400 "request must not have a body".toList)
  | tokens (issued : IssuedTokens) : PlainAnswer (tokensResponse issued)
  | revoked : PlainAnswer (noStore (textResponse 204 []))
  | full : PlainAnswer (textResponse 503 "too many active logins".toList)
  | failed : PlainAnswer (textResponse 500 "failed to issue tokens".toList)

variable {env : Setup} {auth : Option AuthConfig} {s : Token.State} {now : Instant}

theorem authorizeRequest_challenges
    (h : authorizeRequest p auth s now request = .error response) : PlainAnswer response := by
  unfold authorizeRequest at h
  split at h
  next => cases h
  next config =>
    split at h
    next => cases h
    next =>
      dsimp only at h
      split at h
      next => cases h
      next =>
        obtain rfl := Except.error.inj h
        refine .challenge true _ rfl ?_
        intro challenge hchallenge
        obtain ⟨svc, -, rfl⟩ := Option.map_eq_some_iff.mp hchallenge
        exact (ite_eq_or_eq _ _ _).symm

theorem tokenErrorResponse_answers (e : Token.TokenError) :
    PlainAnswer (tokenErrorResponse e) := by
  cases e with
  | full => exact .full
  | _ => exact .failed

theorem handleAuthRequest_answers (p : Platform) (auth : Option AuthConfig) (s : Token.State)
    (now : Instant) (draws : Draws) (request : Request) :
    PlainAnswer (handleAuthRequest p auth s now draws request).2 := by
  have hbearer : PlainAnswer (unauthorizedResponse false (some bearerChallenge)) :=
    .challenge false _ rfl (by rintro challenge ⟨⟩; exact .inl rfl)
  have hinvalid : PlainAnswer (unauthorizedResponse false (some bearerInvalidChallenge)) :=
    .challenge false _ rfl (by rintro challenge ⟨⟩; exact .inr rfl)
  unfold handleAuthRequest
  split
  next => exact .notFound
  next config svc _ =>
    split
    next => exact .notFound
    next endpoint _ =>
      split
      next => exact .notPost
      next =>
        split
        next => exact .hasBody
        next =>
          cases endpoint with
          | login =>
            dsimp only
            split
            next => exact .challenge true none rfl (by rintro challenge ⟨⟩)
            next =>
              split
              next => exact .tokens _
              next => exact tokenErrorResponse_answers _
          | refresh =>
            dsimp only
            split
            next => exact hbearer
            next =>
              split
              next => exact .tokens _
              next => exact hinvalid
              next => exact hinvalid
              next => exact tokenErrorResponse_answers _
          | revoke =>
            dsimp only
            split
            next => exact hbearer
            next => exact .revoked

theorem answerPlain_answers (draws : Draws) (request : Request) :
    PlainAnswer (env.answerPlain auth s now draws request).2 := by
  unfold Setup.answerPlain
  split
  next =>
    split
    next => exact .healthCheck
    next hrefused => exact authorizeRequest_challenges hrefused
  next => exact handleAuthRequest_answers _ _ _ _ _ _

-- ---------------------------------------------------------------------------
-- Their shape
-- ---------------------------------------------------------------------------

theorem textType_clean : HeaderClean (contentType, "text/plain; charset=utf-8".toList) :=
  ⟨⟨by decide, by decide, by decide, by decide, by decide⟩, by decide⟩

theorem noStore_clean : ∀ header ∈ [("cache-control".toList, "no-store".toList),
    ("pragma".toList, "no-cache".toList)], HeaderClean header := by
  have hcache : HeaderClean ("cache-control".toList, "no-store".toList) :=
    ⟨⟨by decide, by decide, by decide, by decide, by decide⟩, by decide⟩
  have hpragma : HeaderClean ("pragma".toList, "no-cache".toList) :=
    ⟨⟨by decide, by decide, by decide, by decide, by decide⟩, by decide⟩
  exact List.forall_mem_cons.mpr ⟨hcache, List.forall_mem_singleton.mpr hpragma⟩

theorem challenge_clean (h : challenge = basicChallenge ∨ challenge = bearerChallenge ∨
    challenge = bearerInvalidChallenge) :
    HeaderClean ("www-authenticate".toList, challenge) := by
  obtain rfl | rfl | rfl := h
  · exact ⟨⟨by decide, by decide, by decide, by decide, by decide⟩, by decide⟩
  · exact ⟨⟨by decide, by decide, by decide, by decide, by decide⟩, by decide⟩
  · exact ⟨⟨by decide, by decide, by decide, by decide, by decide⟩, by decide⟩

theorem unauthorizedResponse_headers (basic : Bool) (bearer : Option Str) :
    (unauthorizedResponse basic bearer).headers =
      ((if basic then [basicChallenge] else []) ++ bearer.toList).map
        fun challenge => ("www-authenticate".toList, challenge) := by
  cases basic <;> cases bearer <;> rfl

theorem PlainAnswer.clean (h : PlainAnswer response) : response.Clean := by
  have htext := List.forall_mem_singleton.mpr textType_clean
  cases h with
  | healthCheck => exact ⟨by decide, by decide, htext⟩
  | challenge basic bearer _ hbearer =>
    have hstatus : (unauthorizedResponse basic bearer).status = 401 :=
      unauthorizedResponse_status basic bearer
    refine ⟨by rw [hstatus]; decide, fun h => absurd (hstatus.symm.trans h) (by decide), ?_⟩
    rw [unauthorizedResponse_headers]
    intro header hheader
    obtain ⟨challenge, hchallenge, rfl⟩ := List.mem_map.mp hheader
    apply challenge_clean
    obtain hbasic | hmem := List.mem_append.mp hchallenge
    · cases basic <;> simp at hbasic
      exact .inl hbasic
    · exact .inr (hbearer challenge (Option.mem_toList.mp hmem))
  | notFound | hasBody | full | failed => exact ⟨by decide, by decide, htext⟩
  | notPost =>
    refine ⟨by decide, by decide, List.forall_mem_cons.mpr ⟨textType_clean, ?_⟩⟩
    exact List.forall_mem_singleton.mpr
      ⟨⟨by decide, by decide, by decide, by decide, by decide⟩, by decide⟩
  | tokens issued =>
    have hjson : HeaderClean (contentType, "application/json".toList) :=
      ⟨⟨by decide, by decide, by decide, by decide, by decide⟩, by decide⟩
    exact ⟨show 200 ≤ 999 by decide, fun h => absurd (show 200 = 204 from h) (by decide),
      List.forall_mem_cons.mpr ⟨hjson, noStore_clean⟩⟩
  | revoked =>
    exact ⟨by decide, fun _ => rfl, List.forall_mem_cons.mpr ⟨textType_clean, noStore_clean⟩⟩

-- ---------------------------------------------------------------------------
-- Every answer of a server
-- ---------------------------------------------------------------------------

variable {config : AuthConfig} {mode : ServiceMode} {svc : TokenService}

/-- Tokens are only handed to a `POST`. -/
theorem answerPlain_tokens
    (h : (env.answerPlain auth s now draws request).2.carriesTokens = true) :
    request.method = "POST".toList := by
  unfold Setup.answerPlain at h
  split at h
  next =>
    split at h
    next =>
      rw [healthCheck_not_carriesTokens] at h
      cases h
    next hrefused =>
      rw [not_carriesTokens (by rw [authorizeRequest_error hrefused]; decide)] at h
      cases h
  next =>
    obtain ⟨response, hstatus, heq⟩ | ⟨config, svc, action, -, -, hasks, -⟩ :=
      Router.handleAuthRequest_cases env.platform auth s now draws request
    · rw [heq, not_carriesTokens hstatus] at h
      cases h
    · obtain ⟨endpoint, -, hmethod, -⟩ := Router.asks_eq_some.mp hasks
      exact hmethod

theorem serveRoute_responds (slots : Slots) :
    .respond response includeBody ∉ (serveRoute s slots).effects := by
  unfold serveRoute
  split
  next => simp
  next => simp
  next => simp
  next => split <;> simp

theorem handleConnection_responds {answered : Bool}
    (h : .respond response includeBody ∈ (handleConnection env.platform env.parsers auth s now draws
      stream answered).effects) :
    ∃ request, receive env.parsers stream = .ok (.plain request) ∧
      response = (env.answerPlain auth s now draws request).2 ∧
      includeBody = (request.method ≠ "HEAD".toList : Bool) := by
  cases hreceive : receive env.parsers stream with
  | error e =>
    rw [handleConnection_error hreceive] at h
    cases h
  | ok received =>
    cases received with
    | plain request =>
      rw [handleConnection_plain hreceive] at h
      cases List.mem_singleton.mp h
      exact ⟨request, rfl, rfl, rfl⟩
    | upgrade request =>
      rcases hupgrade : onUpgrade env.platform auth s now request ⟨none, none⟩ with
        ⟨slots, refusal | ⟨⟩⟩
      · rw [handleConnection_refused hreceive hupgrade] at h
        cases List.mem_singleton.mp h
      · rw [handleConnection_upgraded hreceive hupgrade] at h
        cases answered with
        | true => exact absurd h (serveRoute_responds slots)
        | false => cases h

/-- What a connection answers itself, it answers to a plain request. -/
theorem run_responds (h : Run (env.server auth mode).machine log σ t)
    (hk : σ.sessions[n]? = some phase)
    (hres : .respond response includeBody ∈ effects (outputs n log)) :
    ∃ request, receive env.parsers ⟨reads ((env.server auth mode).own n log), true⟩ =
        .ok (.plain request) ∧ includeBody = (request.method ≠ "HEAD".toList : Bool) ∧
      PlainAnswer response ∧
      (response.carriesTokens = true → includeBody = true) := by
  rw [stage_effects (run_stage h hk), Setup.batch] at hres
  cases hlast : lastRead ((env.server auth mode).own n log) with
  | none =>
    rw [hlast] at hres
    cases hres
  | some r =>
    rw [hlast] at hres
    obtain ⟨request, hreceive, rfl, hbody⟩ := handleConnection_responds hres
    refine ⟨request, hreceive, hbody, answerPlain_answers _ _, ?_⟩
    intro hcarries
    rw [hbody, answerPlain_tokens hcarries]
    rfl

/-- Whatever connections a server holds, the bytes of each answer it writes are
read by a client as that answer: nothing a client sends or a file holds adds a
field to it, or another answer behind it. -/
theorem answers_read_back (hreason : ∀ status, '\r' ∉ reason status)
    (h : Run (env.server auth mode).machine log σ t) (hk : σ.sessions[n]? = some phase)
    (hres : .respond response includeBody ∈ effects (outputs n log)) :
    ∃ request, receive env.parsers ⟨reads ((env.server auth mode).own n log), true⟩ =
        .ok (.plain request) ∧ PlainAnswer response ∧
      readAnswer (request.method ≠ "HEAD".toList) (writeResponse reason response includeBody) =
        some ⟨response.status, reason response.status,
          (response.headers ++ framing response).map bytesOf, bodyOf response includeBody⟩ := by
  obtain ⟨request, hreceive, hbody, hplain, -⟩ := run_responds h hk hres
  refine ⟨request, hreceive, hplain, ?_⟩
  rw [← hbody]
  exact readAnswer_writeResponse hreason hplain.clean includeBody

/-- The phrases of the answers above. -/
def reasonPhrase : Nat → Str
  | 200 => "OK".toList
  | 204 => "No Content".toList
  | 400 => "Bad Request".toList
  | 401 => "Unauthorized".toList
  | 404 => "Not Found".toList
  | 405 => "Method Not Allowed".toList
  | 500 => "Internal Server Error".toList
  | 503 => "Service Unavailable".toList
  | _ => []

theorem reasonPhrase_cr (status : Nat) : '\r' ∉ reasonPhrase status := by
  unfold reasonPhrase
  split <;> decide

def probeRequest : Request := ⟨"HEAD".toList, "/".toList, []⟩

def probeServed : List (Instant × Call Occurrence (Input 4)) :=
  [(1, .input 0 (.read (some probeRequest.head) ⟨none, none⟩)), (0, .world (.accept 0 true))]

def probeLog : List (ServerEvent (setupFor [probeRequest])) :=
  (((setupFor [probeRequest]).server (some aliceOnly) .wsOnly).machine.exec
    (serverStart aliceOnly) probeServed).1

theorem answers_read_back_head :
    ∃ request, PlainAnswer (unauthorizedResponse true none) ∧
      (readAnswer (Request.method request ≠ "HEAD".toList)
        (writeResponse reasonPhrase (unauthorizedResponse true none) false)).map
          HttpAnswer.body = some [] := by
  have hrun : Run ((setupFor [probeRequest]).server (some aliceOnly) .wsOnly).machine probeLog
      (((setupFor [probeRequest]).server (some aliceOnly) .wsOnly).machine.exec
        (serverStart aliceOnly) probeServed).2 1 :=
    .exec ⟨rfl, rfl⟩ (by decide)
  obtain ⟨hres, hsome⟩ :
      .respond (unauthorizedResponse true none) false ∈ effects (outputs 0 probeLog) ∧
      ((((setupFor [probeRequest]).server (some aliceOnly) .wsOnly).machine.exec
        (serverStart aliceOnly) probeServed).2.sessions[0]?).isSome := by decide +kernel
  obtain ⟨phase, hphase⟩ := Option.isSome_iff_exists.mp hsome
  obtain ⟨request, -, hplain, hread⟩ := answers_read_back reasonPhrase_cr hrun hphase hres
  exact ⟨request, hplain, by rw [hread]; rfl⟩

-- ---------------------------------------------------------------------------
-- The tokens in an answer
-- ---------------------------------------------------------------------------

def tokenMembers (issued : IssuedTokens) : List (Str × Lib.Json.Value) :=
  [("token_type".toList, .string "Bearer".toList),
    ("access_token".toList, .string issued.accessToken),
    ("expires_in".toList, .number issued.accessExpiresIn),
    ("refresh_token".toList, .string issued.refreshToken),
    ("refresh_expires_in".toList, .number issued.refreshExpiresIn)]

open Lib.Json in
theorem tokensBody_write (issued : IssuedTokens) :
    tokensBody issued = write (tokenMembers issued) := by
  have h₀ : "\x7b\"token_type\":\"Bearer\",\"access_token\":\"".toList =
      '{' :: (writeString "token_type".toList ++ ':' :: writeString "Bearer".toList ++
        ',' :: writeString "access_token".toList ++ [':', '"']) := by decide
  have h₁ : "\",\"expires_in\":".toList =
      '"' :: ',' :: writeString "expires_in".toList ++ [':'] := by decide
  have h₂ : ",\"refresh_token\":\"".toList =
      ',' :: writeString "refresh_token".toList ++ [':', '"'] := by decide
  have h₃ : "\",\"refresh_expires_in\":".toList =
      '"' :: ',' :: writeString "refresh_expires_in".toList ++ [':'] := by decide
  have h₄ : "\x7d".toList = ['}'] := by decide
  unfold tokensBody tokenMembers
  rw [h₀, h₁, h₂, h₃, h₄]
  -- the names count no further
  generalize "token_type".toList = type
  generalize "Bearer".toList = bearer
  generalize "access_token".toList = access
  generalize "expires_in".toList = expires
  generalize "refresh_token".toList = refresh
  generalize "refresh_expires_in".toList = refreshExpires
  simp only [write, writeMember, writeRest, writeValue, writeString, List.append_assoc,
    List.cons_append, List.nil_append]

theorem readTokens_tokensBody (haccess : ∀ c ∈ issued.accessToken, Lib.Json.plain c = true)
    (hrefresh : ∀ c ∈ issued.refreshToken, Lib.Json.plain c = true) :
    readTokens (Text.utf8 (tokensBody issued)) = some issued := by
  have hread : Lib.Json.read (tokensBody issued) = some (tokenMembers issued) := by
    rw [tokensBody_write]
    refine Lib.Json.read_write ?_
    have hnames : ∀ name ∈ ["token_type", "access_token", "expires_in", "refresh_token",
        "refresh_expires_in"].map String.toList, name.all Lib.Json.plain = true :=
      List.all_eq_true.mp (by decide)
    have hbearer : ∀ c ∈ "Bearer".toList, Lib.Json.plain c = true :=
      List.all_eq_true.mp (by decide)
    have hvalues : ∀ value ∈ (tokenMembers issued).map Prod.snd, value.Plain :=
      List.forall_mem_cons.mpr ⟨hbearer, List.forall_mem_cons.mpr ⟨haccess,
        List.forall_mem_cons.mpr ⟨trivial, List.forall_mem_cons.mpr ⟨hrefresh,
          List.forall_mem_singleton.mpr trivial⟩⟩⟩⟩
    intro member hmember
    exact ⟨List.all_eq_true.mp (hnames member.1 (List.mem_map_of_mem hmember)),
      hvalues member.2 (List.mem_map_of_mem hmember)⟩
  simp only [readTokens, Text.fromUtf8_utf8, hread, Option.bind_eq_bind, Option.bind_some]
  rfl

theorem plain_of_tokenChar {c : Char} (h : tokenChar c = true) : Lib.Json.plain c = true := by
  obtain ⟨hlow, -⟩ := tokenChar_visible h
  have hquote : c ≠ '"' := by
    rintro rfl
    cases h
  have hslash : c ≠ '\\' := by
    rintro rfl
    cases h
  simp [Lib.Json.plain, hquote, hslash, hlow.le]

/-- The tokens of a pair need no escape. -/
theorem pair_plain (hl : p.urlSafe.Lawful)
    (h : Token.Transition p svc now s call s' reply) (hp : reply.pair = some pair) :
    (∀ c ∈ pair.accessToken, Lib.Json.plain c = true) ∧
      ∀ c ∈ pair.refreshToken, Lib.Json.plain c = true := by
  obtain ⟨family, user, deadline, bytes, rfl, -⟩ := h.issues hp
  refine ⟨?_, ?_⟩
  · intro c hc
    exact plain_of_tokenChar (mem_signed hl hc)
  · intro c hc
    exact plain_of_tokenChar (Bool.or_eq_true _ _ ▸ .inl (hl.encode_alphabet _ c hc))

/-- A pair the router issues is one the token service issues. -/
theorem router_issues (h : (Router.step p svc now σ action).2.pair = some pair) :
    ∃ call, (Token.step p svc now σ.tokens call).2.pair = some pair := by
  cases hcall : Router.tokenCall p σ action with
  | some call =>
    rw [Router.step_token hcall] at h
    exact ⟨call, h⟩
  | none =>
    cases action with
    | login authorization familyDraw draw =>
      simp only [Router.step, Option.map_eq_none_iff.mp hcall] at h
      cases h
    | refresh | revoke => cases hcall
    | _ => cases h

theorem mem_outputs {log : List (ServerEvent env)} (h : act ∈ outputs n log) :
    ∃ e ∈ log, act ∈ e.reply := by
  induction log with
  | nil => cases h
  | cons e log ih =>
    obtain h | h := List.mem_append.mp h
    · obtain ⟨e', he', hact⟩ := ih h
      exact ⟨e', List.mem_cons_of_mem _ he', hact⟩
    · refine ⟨e, List.mem_cons_self, ?_⟩
      split at h
      next => cases h
      next =>
        split at h
        next => exact h
        next => cases h

/-- Whatever connections a server holds, the tokens a client reads in an answer
are a pair that the router issued, as it was issued. -/
theorem tokens_read_back (hl : env.platform.urlSafe.Lawful)
    (hreason : ∀ status, '\r' ∉ reason status) (htokens : config.tokens = some svc)
    (h : Run (env.server (some config) mode).machine log σ t) (hk : σ.sessions[n]? = some phase)
    (hres : .respond response includeBody ∈ effects (outputs n log))
    (hcarries : response.carriesTokens = true) :
    ∃ e ∈ routerLog env svc config log, ∃ issued, e.reply.pair = some issued ∧
      (readAnswer true (writeResponse reason response includeBody)).bind
        (fun answer => readTokens answer.body) = some issued := by
  obtain ⟨-, -, -, hplain, hbody⟩ := run_responds h hk hres
  obtain rfl := hbody hcarries
  obtain ⟨act, hact, heffect⟩ := List.mem_filterMap.mp hres
  obtain ⟨e, he, hact⟩ := mem_outputs hact
  have hdone : .respond response true ∈ effects e.reply :=
    List.mem_filterMap.mpr ⟨act, hact, heffect⟩
  have hanswer : response ∈ tokenAnswers e.reply :=
    List.mem_filter.mpr ⟨List.mem_filterMap.mpr ⟨.respond response true, hdone, rfl⟩, hcarries⟩
  have hall : response ∈ log.flatMap fun e => tokenAnswers e.reply :=
    List.mem_flatMap.mpr ⟨e, he, hanswer⟩
  rw [run_answers htokens h] at hall
  obtain ⟨issued, hissued, rfl⟩ := List.mem_map.mp hall
  obtain ⟨r, hr, hpair⟩ := List.mem_filterMap.mp hissued
  obtain ⟨t', -, hrun⟩ := run_router htokens h
  obtain ⟨earlier, last, -, -, hreply⟩ := hrun.event hr
  have hstep : (Router.step env.platform svc r.time r.before r.call).2.pair = some issued := by
    rw [← hpair, hreply]
    rfl
  obtain ⟨call, hcall⟩ := router_issues hstep
  obtain ⟨haccess, hrefresh⟩ := pair_plain hl (Token.step_transition _ _ _ _ call) hcall
  refine ⟨r, hr, issued, hpair, ?_⟩
  rw [readAnswer_writeResponse hreason hplain.clean, Option.bind_some]
  exact readTokens_tokensBody haccess hrefresh

theorem tokens_read_back_login :
    ∃ issued, (readAnswer true (writeResponse reasonPhrase (tokensResponse
      (Token.service.pairOf (.crates 0) 1 1 "alice".toList Token.maxFamilyLifetime
        (Token.nthDraw 1))) true)).bind (fun answer => readTokens answer.body) = some issued := by
  have hrun : Run ((setupFor [loginRequest]).server (some aliceTokens) .wsOnly).machine loginLog
      (((setupFor [loginRequest]).server (some aliceTokens) .wsOnly).machine.exec
        (serverStart aliceTokens) loginServed).2 1 :=
    .exec ⟨rfl, rfl⟩ (by decide)
  obtain ⟨hres, hsome⟩ :
      .respond (tokensResponse (Token.service.pairOf (.crates 0) 1 1 "alice".toList
        Token.maxFamilyLifetime (Token.nthDraw 1))) true ∈ effects (outputs 0 loginLog) ∧
      ((((setupFor [loginRequest]).server (some aliceTokens) .wsOnly).machine.exec
        (serverStart aliceTokens) loginServed).2.sessions[0]?).isSome := by decide +kernel
  obtain ⟨phase, hphase⟩ := Option.isSome_iff_exists.mp hsome
  obtain ⟨e, -, issued, -, hread⟩ := @tokens_read_back (setupFor [loginRequest]) aliceTokens
    .wsOnly Token.service reasonPhrase _ _ _ _ _ _ _ (Platform.crates_urlSafe 0) reasonPhrase_cr
    rfl hrun hphase hres rfl
  exact ⟨issued, hread⟩

end Ws2tcpRouter
