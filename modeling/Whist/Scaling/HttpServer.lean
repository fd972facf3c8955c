import Whist.Scaling.Replies

/-! # The HTTP server of the scaling service

The handler of `/mandelbox/assign` with its middleware, from `httpserver.go` and
`httputils/httputils.go`.  A handler writes statuses with texts; the client sees the first
status, or 200 if none was written.
-/
namespace Whist.Scaling.Http

structure Request where
  method : String
  /-- The `Authorization` header, empty if there is none. -/
  authorization : String
  body : Except String String

structure Claims where
  subject : String

/-- What the handler calls of Go packages: decoding and encoding of JSON, and the parsing
and verification of a token. -/
structure Packages where
  unmarshalRaw : String → Except String Unit
  unmarshalAssign : String → Except String AssignRequest
  parseToken : String → Except String Claims
  verify : Claims → Except String Unit
  marshalResult : AssignResult → String

structure ResponseWriter where
  writes : List (ℕ × String)

namespace ResponseWriter

def new : ResponseWriter := ⟨[]⟩

/-- Both `http.Error` and a header followed by a text. -/
def write (w : ResponseWriter) (text : String) (status : ℕ) : ResponseWriter :=
  ⟨w.writes ++ [(status,text)]⟩

def status (w : ResponseWriter) : ℕ := (w.writes.head?.map Prod.fst).getD 200

def responses (w : ResponseWriter) : ℕ := max 1 w.writes.length

end ResponseWriter

/-- The parts of a text between the occurrences of a separator; `skip` characters of one are
still to be passed. -/
def splitFrom (sep : List Char) : ℕ → List Char → List Char → List (List Char)
  | _, part, [] => [part.reverse]
  | skip + 1, part, _ :: cs => splitFrom sep skip part cs
  | 0, part, c :: cs =>
    if sep.isPrefixOf (c :: cs) then part.reverse :: splitFrom sep (sep.length - 1) [] cs
    else splitFrom sep 0 (c :: part) cs

def stringsSplit (s sep : String) : List String :=
  (splitFrom sep.toList 0 [] s.toList).map String.ofList

def getAccessToken (cfg : Settings) (r : Request) : Except String String :=
  if cfg.isLocalEnv && !cfg.runningInCI then .ok ""
  else
    match stringsSplit r.authorization "Bearer " with
    | _ :: token :: _ =>
      if token = "" ∨ token = "undefined" then
        .error "couldn't find access token in Authorization header"
      else .ok token
    | _ => .error "couldn't find access token in Authorization header"

def parseRequest (p : Packages) (w : ResponseWriter) (r : Request) :
    ResponseWriter × Except String AssignRequest :=
  match r.body with
  | .error e => (w.write "Malformed body" 400,.error s!"error getting body from request: {e}")
  | .ok body =>
    match p.unmarshalRaw body with
    | .error e => (w.write "Malformed body" 400,.error s!"error raw-unmarshalling JSON body: {e}")
    | .ok _ =>
      match p.unmarshalAssign body with
      | .error e =>
        (w.write "Malformed body" 400,.error s!"could not fully unmarshal the body of a request: {e}")
      | .ok req => (w,.ok req)

/-- The claims are those of a token that was verified; a local environment verifies none. -/
def authenticateRequest (cfg : Settings) (p : Packages) (w : ResponseWriter) (r : Request) :
    ResponseWriter × Except String (Option Claims × AssignRequest) :=
  match getAccessToken cfg r with
  | .error e => (w,.error e)
  | .ok accessToken =>
    match parseRequest p w r with
    | (w,.error e) => (w,.error s!"couldn't parse request: {e}")
    | (w,.ok req) =>
      if cfg.isLocalEnv then (w,.ok (none,req))
      else
        match p.parseToken accessToken with
        | .error e => (w.write "Unauthorized" 401,.error s!"received an unpermissioned backend request: {e}")
        | .ok claims =>
          match p.verify claims with
          | .error e =>
            (w.write "Unauthorized" 401,.error s!"received an unpermissioned backend request: {e}")
          | .ok _ => (w,.ok (some claims,req))

abbrev Handler := ResponseWriter → Request → ResponseWriter × List (Option Claims × AssignRequest)

def verifyRequestType (w : ResponseWriter) (r : Request) (method : String) :
    ResponseWriter × Except String Unit :=
  if r.method ≠ method then
    (w.write s!"Bad request type. Expected {method}, got {r.method}" 400,
      .error s!"received a request of type {r.method}, but it should have been type {method}")
  else (w,.ok ())

def withUserID (cfg : Settings) (claims : Option Claims) (req : AssignRequest) : AssignRequest :=
  if cfg.isLocalEnv then req else { req with userID := (claims.map Claims.subject).getD "" }

def resultStatus : AssignResult → ℕ
  | .assigned _ _ => 200
  | .failed _ => 503

def mandelboxAssignHandler (cfg : Settings) (p : Packages) (answer : AssignRequest → AssignResult) :
    Handler := fun w r =>
  match verifyRequestType w r "POST" with
  | (w,.error _) => (w.write "Bad Request" 400,[])
  | (w,.ok _) =>
    match authenticateRequest cfg p w r with
    | (w,.error _) => (w,[])
    | (w,.ok (claims,req)) =>
      let req := withUserID cfg claims req
      let assignResult := answer req
      (w.write (p.marshalResult assignResult) (resultStatus assignResult),[(claims,req)])

def enableCORS (f : Handler) : Handler := fun w r =>
  if r.method = "OPTIONS" then (w.write "No Content" 204,[]) else f w r

def throttleMiddleware (admitted : Bool) (f : Handler) : Handler := fun w r =>
  f (if !admitted then w.write "Too Many Requests" 429 else w) r

/-- A request with the time it arrives at and the answer that the action would give it. -/
structure Arrival where
  request : Request
  time : ℕ
  answer : AssignRequest → AssignResult

structure Exchange where
  request : Request
  admitted : Bool
  writer : ResponseWriter
  sent : List (Option Claims × AssignRequest)

structure Server (L : Type) where
  limiter : L
  events : List AssignRequest
  log : List Exchange

variable {L : Type}

def serve (cfg : Settings) (p : Packages) (allow : L → ℕ → Bool × L) (s : Server L) (a : Arrival) :
    Server L :=
  let (admitted,limiter) := allow s.limiter a.time
  let handler := throttleMiddleware admitted (enableCORS (mandelboxAssignHandler cfg p a.answer))
  let (writer,sent) := handler .new a.request
  { limiter := limiter
    events := s.events ++ sent.map Prod.snd
    log := s.log ++ [{ request := a.request, admitted := admitted, writer := writer, sent := sent }] }

def serveAll (cfg : Settings) (p : Packages) (allow : L → ℕ → Bool × L) (limiter : L)
    (arrivals : List Arrival) : Server L :=
  arrivals.foldl (serve cfg p allow) { limiter := limiter, events := [], log := [] }

def VerifiedAs (cfg : Settings) (p : Packages) (r : Request) (claims : Option Claims) : Prop :=
  ∃ c token, claims = some c ∧ getAccessToken cfg r = .ok token ∧ p.parseToken token = .ok c ∧
    p.verify c = .ok ()

/-- An event is sent only for a request that was admitted and whose token was verified, there
is one response, and without an event it is an error. -/
structure WellAnswered (cfg : Settings) (p : Packages) (x : Exchange) : Prop where
  admitted : x.sent ≠ [] → x.admitted = true
  verified : ∀ e ∈ x.sent, VerifiedAs cfg p x.request e.1
  once : x.writer.responses = 1
  refused : x.sent = [] → 400 ≤ x.writer.status

def Decodes (p : Packages) (r : Request) : Prop :=
  ∃ body req, r.body = .ok body ∧ p.unmarshalRaw body = .ok () ∧ p.unmarshalAssign body = .ok req

/-- The method is POST; and a request that is admitted has a token, which is looked at if
the body is decoded, or one that is not admitted has no token. -/
def Guarded (cfg : Settings) (p : Packages) (r : Request) (admitted : Bool) : Prop :=
  r.method = "POST" ∧
    ((admitted = true ∧ (∃ token, getAccessToken cfg r = .ok token) ∧
        (cfg.isLocalEnv = true → ¬ Decodes p r)) ∨
      (admitted = false ∧ ∃ e, getAccessToken cfg r = .error e))

section
variable {cfg : Settings} {p : Packages} {w : ResponseWriter} {r : Request}

theorem parseRequest_cases (p : Packages) (w : ResponseWriter) (r : Request) :
    (¬ Decodes p r ∧ ∃ e, parseRequest p w r = (w.write "Malformed body" 400,.error e)) ∨
      (Decodes p r ∧ ∃ req, parseRequest p w r = (w,.ok req)) := by
  unfold parseRequest Decodes
  cases hbody : r.body with
  | error e =>
    refine Or.inl ⟨?_,_,rfl⟩
    rintro ⟨_,_,⟨⟩,_⟩
  | ok body =>
    cases hraw : p.unmarshalRaw body with
    | error e =>
      simp only [hraw]
      refine Or.inl ⟨?_,_,rfl⟩
      rintro ⟨_,_,⟨⟩,h,_⟩
      rw [hraw] at h
      cases h
    | ok u =>
      cases hreq : p.unmarshalAssign body with
      | error e =>
        simp only [hraw, hreq]
        refine Or.inl ⟨?_,_,rfl⟩
        rintro ⟨_,_,⟨⟩,_,h⟩
        rw [hreq] at h
        cases h
      | ok req =>
        simp only [hraw, hreq]
        exact Or.inr ⟨⟨body,req,rfl,hraw,hreq⟩,req,rfl⟩

inductive Authenticated (cfg : Settings) (p : Packages) (w : ResponseWriter) (r : Request) :
    ResponseWriter × Except String (Option Claims × AssignRequest) → Prop where
  | refused {text e : String} {status : ℕ} (hstatus : 400 ≤ status)
      (hlocal : cfg.isLocalEnv = true → ¬ Decodes p r) :
      Authenticated cfg p w r (w.write text status,.error e)
  | unchecked {req : AssignRequest} (hlocal : cfg.isLocalEnv = true) (h : Decodes p r) :
      Authenticated cfg p w r (w,.ok (none,req))
  | verified {c : Claims} {req : AssignRequest} (hlocal : cfg.isLocalEnv = false)
      (h : VerifiedAs cfg p r (some c)) : Authenticated cfg p w r (w,.ok (some c,req))

theorem authenticateRequest_cases (p : Packages) (w : ResponseWriter) {token : String}
    (h : getAccessToken cfg r = .ok token) : Authenticated cfg p w r (authenticateRequest cfg p w r) := by
  unfold authenticateRequest
  rw [h]
  dsimp only
  obtain ⟨hnot,e,heq⟩ | ⟨hdecodes,req,heq⟩ := parseRequest_cases p w r
  · rw [heq]
    exact .refused (by decide) fun _ => hnot
  · rw [heq]
    dsimp only
    by_cases hlocal : cfg.isLocalEnv = true
    · rw [if_pos hlocal]
      exact .unchecked hlocal hdecodes
    · rw [if_neg hlocal]
      cases htoken : p.parseToken token with
      | error e => exact .refused (by decide) fun h => absurd h hlocal
      | ok c =>
        cases hverify : p.verify c with
        | error e => simpa only [hverify] using .refused (by decide) fun h => absurd h hlocal
        | ok u =>
          simp only [hverify]
          exact .verified (eq_false_of_ne_true hlocal) ⟨c,token,rfl,h,htoken,hverify⟩

def exchange (cfg : Settings) (p : Packages) (answer : AssignRequest → AssignResult) (r : Request)
    (admitted : Bool) : Exchange :=
  let out := throttleMiddleware admitted (enableCORS (mandelboxAssignHandler cfg p answer)) .new r
  { request := r, admitted := admitted, writer := out.1, sent := out.2 }

def throttled (admitted : Bool) : ResponseWriter :=
  if admitted then .new else ResponseWriter.new.write "Too Many Requests" 429

inductive Exchanged (cfg : Settings) (p : Packages) (r : Request) (admitted : Bool) :
    ResponseWriter → List (Option Claims × AssignRequest) → Prop where
  | preflight (h : r.method = "OPTIONS") :
      Exchanged cfg p r admitted ((throttled admitted).write "No Content" 204) []
  | wrongType {text : String} (hpost : r.method ≠ "POST") (h : r.method ≠ "OPTIONS") :
      Exchanged cfg p r admitted (((throttled admitted).write text 400).write "Bad Request" 400) []
  | noToken {e : String} (hpost : r.method = "POST") (h : getAccessToken cfg r = .error e) :
      Exchanged cfg p r admitted (throttled admitted) []
  | refused {token text : String} {status : ℕ} (hpost : r.method = "POST")
      (h : getAccessToken cfg r = .ok token) (hstatus : 400 ≤ status)
      (hlocal : cfg.isLocalEnv = true → ¬ Decodes p r) :
      Exchanged cfg p r admitted ((throttled admitted).write text status) []
  | unchecked {token text : String} {status : ℕ} {req : AssignRequest} (hpost : r.method = "POST")
      (h : getAccessToken cfg r = .ok token) (hlocal : cfg.isLocalEnv = true) (hdecodes : Decodes p r) :
      Exchanged cfg p r admitted ((throttled admitted).write text status) [(none,req)]
  | verified {text : String} {status : ℕ} {c : Claims} {req : AssignRequest} (hpost : r.method = "POST")
      (hlocal : cfg.isLocalEnv = false) (h : VerifiedAs cfg p r (some c)) :
      Exchanged cfg p r admitted ((throttled admitted).write text status) [(some c,req)]

theorem exchanged (cfg : Settings) (p : Packages) (answer : AssignRequest → AssignResult) (r : Request)
    (admitted : Bool) : Exchanged cfg p r admitted (exchange cfg p answer r admitted).writer
      (exchange cfg p answer r admitted).sent := by
  have hthrottle : ∀ f : Handler, throttleMiddleware admitted f .new r = f (throttled admitted) r := by
    intro f
    cases admitted <;> rfl
  rw [exchange, hthrottle]
  by_cases hoptions : r.method = "OPTIONS"
  · rw [enableCORS, if_pos hoptions]
    exact .preflight hoptions
  rw [enableCORS, if_neg hoptions]
  by_cases hpost : r.method = "POST"
  case neg =>
    rw [mandelboxAssignHandler, verifyRequestType, if_pos hpost]
    exact .wrongType hpost hoptions
  rw [mandelboxAssignHandler, verifyRequestType, if_neg (not_not.mpr hpost)]
  dsimp only
  cases htoken : getAccessToken cfg r with
  | error e =>
    have hauth : authenticateRequest cfg p (throttled admitted) r = (throttled admitted,.error e) := by
      rw [authenticateRequest, htoken]
    rw [hauth]
    exact .noToken hpost htoken
  | ok token =>
    have hcases := authenticateRequest_cases p (throttled admitted) htoken
    generalize authenticateRequest cfg p (throttled admitted) r = out at hcases
    cases hcases with
    | refused hstatus hlocal => exact .refused hpost htoken hstatus hlocal
    | unchecked hlocal hdecodes => exact .unchecked hpost htoken hlocal hdecodes
    | verified hlocal h => exact .verified hpost hlocal h

theorem responses_write (admitted : Bool) (text : String) (status : ℕ) :
    ((throttled admitted).write text status).responses = 1 ↔ admitted = true := by
  cases admitted <;> simp [throttled, ResponseWriter.write, ResponseWriter.responses, ResponseWriter.new]

theorem responses_write_write (w : ResponseWriter) (text text' : String) (status status' : ℕ) :
    ((w.write text status).write text' status').responses ≠ 1 := by
  simp only [ResponseWriter.write, ResponseWriter.responses, List.length_append, List.length_singleton]
  omega

theorem status_write (admitted : Bool) (text : String) (status : ℕ) :
    ((throttled admitted).write text status).status = if admitted then status else 429 := by
  cases admitted <;> rfl

theorem guarded_of_token {token : String} {admitted : Bool} (hpost : r.method = "POST")
    (htoken : getAccessToken cfg r = .ok token) :
    Guarded cfg p r admitted ↔ admitted = true ∧ (cfg.isLocalEnv = true → ¬ Decodes p r) := by
  constructor
  · rintro ⟨-,⟨hadmitted,-,hlocal⟩ | ⟨-,e,h⟩⟩
    · exact ⟨hadmitted,hlocal⟩
    · rw [htoken] at h
      cases h
  · rintro ⟨hadmitted,hlocal⟩
    exact ⟨hpost,Or.inl ⟨hadmitted,⟨token,htoken⟩,hlocal⟩⟩

/-- A request is answered well just when it is guarded. -/
theorem exchange_iff (cfg : Settings) (p : Packages) (answer : AssignRequest → AssignResult) (r : Request)
    (admitted : Bool) :
    WellAnswered cfg p (exchange cfg p answer r admitted) ↔ Guarded cfg p r admitted := by
  have hcases := exchanged cfg p answer r admitted
  have hfields : (exchange cfg p answer r admitted).request = r ∧
      (exchange cfg p answer r admitted).admitted = admitted := ⟨rfl,rfl⟩
  generalize exchange cfg p answer r admitted = x at hcases hfields
  obtain ⟨request,admitted',writer,sent⟩ := x
  obtain ⟨rfl,rfl⟩ := hfields
  dsimp only at hcases
  cases hcases with
  | preflight h =>
    constructor
    · rintro ⟨-,-,honce,hrefused⟩
      obtain rfl := (responses_write admitted' _ _).mp honce
      have hstatus := hrefused rfl
      rw [status_write, if_pos rfl] at hstatus
      omega
    · rintro ⟨hpost,-⟩
      exact absurd (h.symm.trans hpost) (by decide)
  | wrongType hpost h => exact ⟨fun h => absurd h.once (responses_write_write _ _ _ _ _),fun h => absurd h.1 hpost⟩
  | @noToken e hpost h =>
    cases admitted' with
    | true =>
      -- nothing is written, and the response says 200
      constructor
      · intro hwell
        have hstatus : 400 ≤ (throttled true).status := hwell.refused rfl
        exact absurd hstatus (by decide)
      · rintro ⟨-,⟨-,⟨token,h'⟩,-⟩ | ⟨h',-⟩⟩
        · rw [h] at h'
          cases h'
        · cases h'
    | false =>
      refine ⟨fun _ => ⟨hpost,Or.inr ⟨rfl,e,h⟩⟩,fun _ => ?_⟩
      have honce : (throttled false).responses = 1 := by decide
      have hstatus : 400 ≤ (throttled false).status := by decide
      exact ⟨fun h => absurd rfl h,nofun,honce,fun _ => hstatus⟩
  | refused hpost htoken hstatus hlocal =>
    rw [guarded_of_token hpost htoken]
    constructor
    · intro h
      exact ⟨(responses_write admitted' _ _).mp h.once,hlocal⟩
    · rintro ⟨rfl,-⟩
      exact ⟨fun h => absurd rfl h,nofun,(responses_write true _ _).mpr rfl,fun _ => hstatus⟩
  | unchecked hpost htoken hlocal hdecodes =>
    rw [guarded_of_token hpost htoken]
    constructor
    · intro h
      obtain ⟨c,_,hnone,-⟩ := h.verified _ List.mem_cons_self
      cases hnone
    · rintro ⟨-,h⟩
      exact absurd hdecodes (h hlocal)
  | verified hpost hlocal hverified =>
    have ⟨c,token,_,htoken,_⟩ := hverified
    rw [guarded_of_token hpost htoken]
    constructor
    · intro h
      refine ⟨h.admitted (List.cons_ne_nil _ _),fun htrue => ?_⟩
      rw [hlocal] at htrue
      cases htrue
    · rintro ⟨rfl,-⟩
      refine ⟨fun _ => rfl,fun e he => ?_,(responses_write true _ _).mpr rfl,fun h => ?_⟩
      · rw [List.mem_singleton.mp he]
        exact hverified
      · exact absurd h (List.cons_ne_nil _ _)

end

theorem serve_eq (cfg : Settings) (p : Packages) (allow : L → ℕ → Bool × L) (s : Server L) (a : Arrival) :
    serve cfg p allow s a =
      { limiter := (allow s.limiter a.time).2
        events := s.events ++
          (exchange cfg p a.answer a.request (allow s.limiter a.time).1).sent.map Prod.snd
        log := s.log ++ [exchange cfg p a.answer a.request (allow s.limiter a.time).1] } := rfl

theorem serveAll_log (cfg : Settings) (p : Packages) (allow : L → ℕ → Bool × L) (limiter : L)
    (arrivals : List Arrival) :
    (serveAll cfg p allow limiter arrivals).events =
        (serveAll cfg p allow limiter arrivals).log.flatMap (fun x => x.sent.map Prod.snd) ∧
      ∀ x ∈ (serveAll cfg p allow limiter arrivals).log, ∃ a ∈ arrivals, ∃ admitted,
        x = exchange cfg p a.answer a.request admitted := by
  induction arrivals using List.reverseRecOn with
  | nil => exact ⟨rfl,nofun⟩
  | append_singleton arrivals a ih =>
    obtain ⟨hevents,hlog⟩ := ih
    rw [serveAll, List.foldl_append, List.foldl_cons, List.foldl_nil, ← serveAll, serve_eq]
    dsimp only
    refine ⟨?_,fun x hx => ?_⟩
    · rw [List.flatMap_append, hevents]
      simp
    · rcases List.mem_append.mp hx with hold | hnew
      · obtain ⟨b,hb,admitted,heq⟩ := hlog x hold
        exact ⟨b,List.mem_append_left _ hb,admitted,heq⟩
      · exact ⟨a,by simp,_,List.mem_singleton.mp hnew⟩

/-- In every run, whatever the limiter, the requests that are guarded are the ones answered
well: one that is not admitted goes on to the handler, and one without a token is answered
with 200. -/
theorem requests_answered_iff (cfg : Settings) (p : Packages) (allow : L → ℕ → Bool × L) (limiter : L)
    (arrivals : List Arrival) :
    ∀ x ∈ (serveAll cfg p allow limiter arrivals).log,
      (WellAnswered cfg p x ↔ Guarded cfg p x.request x.admitted) := by
  intro x hx
  obtain ⟨a,-,admitted,rfl⟩ := (serveAll_log cfg p allow limiter arrivals).2 x hx
  exact exchange_iff cfg p a.answer a.request admitted

def onePackages : Packages where
  unmarshalRaw := fun _ => .ok ()
  unmarshalAssign := fun _ => .ok (oneRequest "")
  parseToken := fun _ => .ok ⟨"user"⟩
  verify := fun _ => .ok ()
  marshalResult := fun _ => "\x7b\x7d"

def oneArrival : Arrival where
  request := { method := "POST", authorization := "Bearer token", body := .ok "\x7b\x7d" }
  time := 0
  answer := fun _ => .assigned "10.0.0.1" "mandelbox-1"

theorem requests_answered_one :
    WellAnswered oneRegion onePackages
      (exchange oneRegion onePackages oneArrival.answer oneArrival.request true) := by
  have hguarded : Guarded oneRegion onePackages oneArrival.request true :=
    ⟨rfl,Or.inl ⟨rfl,⟨_,rfl⟩,fun hlocal => absurd hlocal (by decide)⟩⟩
  exact (requests_answered_iff oneRegion onePackages (fun _ _ => (true,())) () [oneArrival] _
    List.mem_cons_self).mpr hguarded

/-- A limiter that admits nothing does not keep an event from the scaling algorithm. -/
theorem requests_answered_fails :
    ¬ ∀ (cfg : Settings) (p : Packages) (allow : Unit → ℕ → Bool × Unit) (arrivals : List Arrival),
      ∀ x ∈ (serveAll cfg p allow () arrivals).log, WellAnswered cfg p x := by
  intro h
  have hsent : (exchange oneRegion onePackages oneArrival.answer oneArrival.request false).sent ≠ [] := by
    decide +kernel
  have hwell := h oneRegion onePackages (fun _ _ => (false,())) [oneArrival] _ List.mem_cons_self
  exact absurd (hwell.admitted hsent) (by decide)

end Whist.Scaling.Http
