import Mocop.Service.Hostnames

/-!
# `Mocop.Web.Trust`: which requests the web server trusts

A `TrustedWebPolicy` holds the names under which the server may be addressed and the suffixes of
the HTTPS origins that may write. The guards of a request read its header fields: one Host of a
trusted name (`hasTrustedHost`), no cross-site mark of the browser (`isTrustedRequest`), the mark
of the dashboard (`isDashboardRead`), and for a write an Origin that is a bare authority
(`isDashboardWrite`). `authenticationError` is the check before the routes that are not public.
-/

set_option autoImplicit false

namespace Mocop.Web

open Hostnames

/-! ### Header fields -/

/-- The fields of a request, in the order in which they came. -/
structure Headers where
  fields : List (String × String)

/-- A text in lower case, as names of fields are compared. -/
def asciiLower (text : String) : List Char := text.toList.map Char.toLower

/-- `headers.get_all(name) or []` -/
def Headers.getAll (headers : Headers) (name : String) : List String :=
  (headers.fields.filter fun field => asciiLower field.1 = asciiLower name).map (·.2)

/-- `headers.get(name)` -/
def Headers.get (headers : Headers) (name : String) : Option String :=
  (headers.getAll name).head?

/-! ### The policy -/

/-- The names of a browser that reached the server over the loopback interface. -/
def loopbackHostnames : List String := ["localhost", "127.0.0.1", "::1"]

/-- The exact names, and the suffixes of the HTTPS origins. -/
structure TrustedWebPolicy where
  hostnames : List String
  originSuffixes : List String := []

section
variable (rules : UrlRules)

/-! ### The guards -/

/-- What `Sec-Fetch-Site` says about a request that no other site caused. -/
def sameOriginFetchSites : List String := ["", "same-origin", "none"]

/-- `has_trusted_host` -/
def hasTrustedHost (headers : Headers) (trustedHostnames : List String) : Bool :=
  match headers.getAll "Host" with
  | [value] => (normalizeWebHostname rules value true).any (trustedHostnames.contains ·)
  | _ => false

/-- `is_trusted_request` -/
def isTrustedRequest (headers : Headers) (trustedHostnames : List String) : Bool :=
  let fetchSite := String.ofList
    (rules.lower (pyStrip ((headers.get "Sec-Fetch-Site").getD "")).toList)
  hasTrustedHost rules headers trustedHostnames && sameOriginFetchSites.contains fetchSite

/-- `is_dashboard_read` -/
def isDashboardRead (headers : Headers) (trustedHostnames : List String) : Bool :=
  isTrustedRequest rules headers trustedHostnames
    && headers.get "X-Monitor-Request" == some "dashboard"

/-- A URL as it is split: its scheme in lower case, and the parts after it. -/
structure SplitUrl where
  scheme : List Char
  parts : SplitResult

/-- A control character of ASCII or a blank. -/
def isControlOrSpace (c : Char) : Bool := c.toNat ≤ 32

/-- A character of a scheme. -/
def isSchemeChar (c : Char) : Bool := c.isAlphanum || c == '+' || c == '-' || c == '.'

/-- The text without its leading control characters, its tabs and its line ends. -/
def cleanUrl (url : List Char) : List Char :=
  (url.dropWhile isControlOrSpace).filter fun c => c ≠ '\t' && c ≠ '\n' && c ≠ '\r'

/-- The scheme and the text after its colon. -/
def splitScheme (url : List Char) : List Char × List Char :=
  let scheme := url.takeWhile (· ≠ ':')
  if scheme.length < url.length ∧ scheme.head?.any Char.isAlpha ∧ scheme.all isSchemeChar then
    (scheme.map Char.toLower, url.drop (scheme.length + 1))
  else ([], url)

/-- `urlsplit(url)` -/
def splitUrl (url : List Char) : Option SplitUrl :=
  let split := splitScheme (cleanUrl url)
  if ['/', '/'].isPrefixOf split.2 then
    (urlsplit rules (split.2.drop 2)).map fun parts => ⟨split.1, parts⟩
  else
    let fragment := cutAt '#' split.2
    let query := cutAt '?' fragment.1
    some ⟨split.1, ⟨[], query.1, query.2, fragment.2⟩⟩

/-- `_has_trusted_origin` -/
def hasTrustedOrigin (origin : SplitUrl) (policy : TrustedWebPolicy) : Bool :=
  match (hostname rules origin.parts.netloc).bind
      fun name => normalizeWebHostname rules (String.ofList name) false with
  | none => false
  | some hostname =>
    policy.hostnames.contains hostname
      || (origin.scheme == "https".toList
        && policy.originSuffixes.any fun suffix =>
          ('.' :: suffix.toList).isSuffixOf hostname.toList)

/-- `is_dashboard_write` -/
def isDashboardWrite (headers : Headers) (policy : TrustedWebPolicy) : Bool :=
  isDashboardRead rules headers policy.hostnames
    && match headers.get "Origin" with
      | none => false
      | some origin =>
        match splitUrl rules origin.toList with
        | none => false
        | some parsed =>
          origin ≠ "" && (port parsed.parts.netloc).isSome
            && (parsed.scheme == "http".toList || parsed.scheme == "https".toList)
            && hasTrustedOrigin rules parsed policy
            && '@' ∉ parsed.parts.netloc
            && (parsed.parts.path == [] || parsed.parts.path == ['/'])
            && parsed.parts.query == [] && parsed.parts.fragment == []

end

/-! ### Authentication -/

/-- How the server is told who may read. -/
inductive AuthenticationMode where
  | bearer
  | none
  deriving DecidableEq

/-- `hmac.compare_digest` of two texts: an error unless both are ASCII. -/
def compareDigest (first second : String) : Option Bool :=
  if first.toList.all (·.toNat < 128) && second.toList.all (·.toNat < 128) then
    some (first == second)
  else Option.none

/-- Why a request is not let through. -/
inductive Refusal where
  | untrustedOrigin
  | authenticationRequired
  deriving DecidableEq

/-- Whether a request has the one valid credential. -/
def hasCredential (headers : Headers) (token : String) : Bool :=
  match headers.getAll "Authorization" with
  | [value] =>
    token ≠ "" && "Bearer ".toList.isPrefixOf value.toList
      && compareDigest (String.ofList (value.toList.drop 7)) token == some true
  | _ => false

/-- `authentication_error` -/
def authenticationError (rules : UrlRules) (headers : Headers) (mode : AuthenticationMode)
    (token : String) (trustedHosts : List String) : Option Refusal :=
  match mode with
  | .none =>
    if isTrustedRequest rules headers trustedHosts then Option.none else some .untrustedOrigin
  | .bearer => if hasCredential headers token then Option.none else some .authenticationRequired

end Mocop.Web
