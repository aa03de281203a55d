import Muld.Url

/-! `FetchFileInfo`, which asks a server about a file, and the two loops that follow its
redirects.
-/

namespace Muld

/-- `what()`. -/
def Exception.what : Exception → String
  | .systemError what => what
  | .other what => what

-----------------------------------------------------------------------------------------
-- Functions of the standard library
-----------------------------------------------------------------------------------------

/-- `std::isspace`. -/
def isSpace (character : Char) : Bool :=
  character = ' ' || (9 ≤ character.toNat && character.toNat ≤ 13)

/-- The number that some digits write. -/
def decimal (digits : Text) : Nat :=
  digits.foldl (fun value digit => value * 10 + (digit.toNat - '0'.toNat)) 0

/-- The sign in front of a number, minus if it is true, and what follows it. -/
def splitSign : Text → Bool × Text
  | '-' :: rest => (true, rest)
  | '+' :: rest => (false, rest)
  | text => (false, text)

/-- `std::stoull`: what follows the number does not matter, and a minus negates modulo 2^64.
-/
def stoull (text : Text) : Except Exception Nat :=
  let (negative, rest) := splitSign (text.dropWhile isSpace)
  let digits := rest.takeWhile Char.isDigit
  if digits = [] ∨ sizeModulus ≤ decimal digits then .error (.other "stoull")
  else .ok (if negative then wrapSub 0 (decimal digits) else decimal digits)

-----------------------------------------------------------------------------------------
-- One request
-----------------------------------------------------------------------------------------

structure FetchError where
  errorCode : ErrorCode
  httpsStatusCode : Nat
  message : String
deriving DecidableEq, Repr

inductive FetchResult
  | failed (error : FetchError)
  | redirect (newUrl : Text)
  | successful (info : FileInfo)
deriving DecidableEq, Repr

/-- The head of a response, with the header fields that are looked at. -/
structure ResponseHead where
  status : Nat
  reason : String := ""
  acceptRanges : Option Text := none
  contentLength : Option Text := none
  etag : Option Text := none
  lastModified : Option Text := none
  location : Option Text := none
deriving DecidableEq, Repr

/-- An exception while the network is used, of the network library or of any other. -/
structure NetworkFailure where
  beast : Bool
  what : String
deriving DecidableEq, Repr

/-- What comes of the request on an open connection. -/
inductive Exchange
  /-- Sending the request or reading the response throws. -/
  | interrupted (failure : NetworkFailure)
  /-- A response arrives; closing the connection may fail after it. -/
  | response (head : ResponseHead) (shutdownError : Option String)
deriving DecidableEq, Repr

/-- What the network makes of one request. -/
inductive Answer
  /-- Resolving the host, connecting or the handshake throws. -/
  | unreachable (failure : NetworkFailure)
  | connected (exchange : Exchange)
deriving DecidableEq, Repr

def NetworkFailure.errorCode (failure : NetworkFailure) : ErrorCode :=
  if failure.beast then .networkError else .systemError

/-- What the inner handlers make of an exception. -/
def NetworkFailure.duringFetch (failure : NetworkFailure) : FetchError where
  errorCode := failure.errorCode
  httpsStatusCode := 0
  message :=
    (if failure.beast then "Network failure during fetch: "
      else "System error during fetch: ") ++ failure.what

/-- `createFileInfo`; a field that is missing reads as the empty string. -/
def createFileInfo (head : ResponseHead) : Except Exception FileInfo := do
  let totalSize ← stoull (head.contentLength.getD [])
  return {
    totalSize
    supportsRange := head.acceptRanges == some "bytes".toList
    etag := head.etag.getD []
    lastModified := head.lastModified.getD []
  }

/-- The statuses after which `Location` is looked at. -/
def redirectStatuses : List Nat := [301, 302, 303, 307, 308]

/-- The result that is made of a response. -/
def ResponseHead.result (head : ResponseHead) : Except Exception FetchResult :=
  if head.status = 200 then (createFileInfo head).map .successful
  else if head.status ∈ redirectStatuses then
    match head.location with
    | some newUrl => .ok (.redirect newUrl)
    | none =>
        .ok (.failed {
          errorCode := .httpError
          httpsStatusCode := head.status
          message := "Redirect response missing Location header"
        })
  else
    .ok (.failed {
      errorCode := .httpError
      httpsStatusCode := head.status
      message := "HTTP Error: " ++ head.reason
    })

/-- `FetchFileInfoImpl`. -/
def fetchFileInfoImpl : Exchange → FetchResult
  | .interrupted failure => .failed failure.duringFetch
  | .response head shutdownError =>
      match head.result, shutdownError with
      | .error exception, _ => .failed (NetworkFailure.duringFetch ⟨false, exception.what⟩)
      -- an error of the shutdown replaces what the server has said
      | .ok _, some what => .failed (NetworkFailure.duringFetch ⟨true, what⟩)
      | .ok result, none => result

/-- `FetchFileInfo`. All its exceptions become results. -/
def fetchFileInfo (answer : Answer) (url : Url) : FetchResult :=
  match answer with
  | .unreachable failure =>
      .failed {
        errorCode := failure.errorCode
        httpsStatusCode := 0
        message := failure.what
      }
  | .connected exchange =>
      if url.scheme = "http".toList ∨ url.scheme = "https".toList then
        fetchFileInfoImpl exchange
      else
        .failed {
          errorCode := .notSupported
          httpsStatusCode := 0
          message := "scheme " ++ String.ofList url.scheme ++ " is not supported!"
        }

-----------------------------------------------------------------------------------------
-- Redirects
-----------------------------------------------------------------------------------------

/-- `MAX_REDIRECT_ALLOW`. -/
def maxRedirectAllow : Nat := 3

/-- `ResolveValidatedFileInfo` with `left` requests left, the next of them the one of this
number: the information and the URL it is about.
-/
def resolveValidatedFileInfo (answers : Nat → Answer)
    : (left request : Nat) → Url → Except Exception (Option (FileInfo × Url))
  | 0, _, _ => .ok none
  | left + 1, request, url =>
      match fetchFileInfo (answers request) url with
      | .successful info => .ok (some (info, url))
      | .failed _ => .ok none
      | .redirect newUrl =>
          match parseUrl newUrl with
          | .error exception => .error exception
          | .ok url => resolveValidatedFileInfo answers left (request + 1) url

/-- Where the loop over the redirects of a `Download` stops. -/
inductive Fetched
  | unsupportedScheme (url : Url)
  | answered (url : Url) (result : FetchResult)
deriving DecidableEq, Repr

/-- The loop over the redirects of a `Download` with `left` more requests after the next
one: the hosts it logs, and where it stops.
-/
def followRedirects (answers : Nat → Answer)
    : (left request : Nat) → Url → List Text × Except Exception Fetched
  | left, request, url =>
      if url.scheme = "http".toList ∨ url.scheme = "https".toList then
        match fetchFileInfo (answers request) url with
        | .redirect newUrl =>
            -- the URL is parsed after the last request too
            match parseUrl newUrl, left with
            | .error exception, _ => ([url.host], .error exception)
            | .ok url', 0 => ([url.host], .ok (.answered url' (.redirect newUrl)))
            | .ok url', left + 1 =>
                let (hosts, fetched) := followRedirects answers left (request + 1) url'
                (url.host :: hosts, fetched)
        | result => ([url.host], .ok (.answered url result))
      else ([url.host], .ok (.unsupportedScheme url))

-----------------------------------------------------------------------------------------
-- What the loops end with
-----------------------------------------------------------------------------------------

/-- The URL that the server knows has a path, by induction on the requests. -/
theorem resolveValidatedFileInfo_path {answers : Nat → Answer} {left number : Nat}
    {url corrected : Url} {info : FileInfo} (path : url.path ≠ [])
    (resolved
      : resolveValidatedFileInfo answers left number url = .ok (some (info, corrected)))
    : corrected.path ≠ [] := by
  induction left generalizing number url with
  | zero => cases resolved
  | succ left ih =>
      rw [resolveValidatedFileInfo] at resolved
      split at resolved
      · cases resolved
        exact path
      · cases resolved
      · split at resolved
        · cases resolved
        · rename_i next parsed
          exact ih (parseUrl_path parsed) resolved

/-- A redirect to the empty string is followed, with `left` more requests after this one. -/
inductive FollowsEmpty (answers : Nat → Answer) : (left number : Nat) → Url → Prop
  | here {left number : Nat} {url : Url}
      (supported : url.scheme = "http".toList ∨ url.scheme = "https".toList)
      (redirected : fetchFileInfo (answers number) url = .redirect [])
    : FollowsEmpty answers left number url
  | later {left number : Nat} {url next : Url} {newUrl : Text}
      (supported : url.scheme = "http".toList ∨ url.scheme = "https".toList)
      (redirected : fetchFileInfo (answers number) url = .redirect newUrl)
      (parsed : parseUrl newUrl = .ok next)
      (follows : FollowsEmpty answers left (number + 1) next)
    : FollowsEmpty answers (left + 1) number url

/-- A request throws if its redirect is empty or a later request throws. -/
theorem followRedirects_error {answers : Nat → Answer} {left number : Nat} {url : Url}
    {exception : Exception}
    (thrown : (followRedirects answers left number url).2 = .error exception)
    : (url.scheme = "http".toList ∨ url.scheme = "https".toList)
      ∧ ∃ newUrl, fetchFileInfo (answers number) url = .redirect newUrl
        ∧ (newUrl = []
          ∨ ∃ next after, left = after + 1 ∧ parseUrl newUrl = .ok next
              ∧ (followRedirects answers after (number + 1) next).2 = .error exception) := by
  rw [followRedirects] at thrown
  split at thrown
  · rename_i supported
    split at thrown
    · rename_i newUrl redirected
      split at thrown
      · rename_i parsed
        exact ⟨supported, newUrl, redirected, .inl (parseUrl_eq_error parsed)⟩
      · cases thrown
      · rename_i next after parsed
        exact ⟨supported, newUrl, redirected, .inr ⟨next, after, rfl, parsed, thrown⟩⟩
    · cases thrown
  · cases thrown

/-- The loop over the redirects throws on an empty redirect only, by induction on the
requests.
-/
theorem followRedirects_throws {answers : Nat → Answer} {left number : Nat} {url : Url}
    : (∃ exception, (followRedirects answers left number url).2 = .error exception)
      ↔ FollowsEmpty answers left number url := by
  constructor
  · rintro ⟨exception, thrown⟩
    induction left generalizing number url with
    | zero =>
        obtain ⟨supported, _, redirected, rfl | ⟨_, _, last, _⟩⟩ := followRedirects_error thrown
        · exact .here supported redirected
        · cases last
    | succ left ih =>
        obtain ⟨supported, _, redirected, rfl | ⟨next, _, same, parsed, later⟩⟩ :=
          followRedirects_error thrown
        · exact .here supported redirected
        · obtain rfl := Nat.succ.inj same
          exact .later supported redirected parsed (ih later)
  · intro follows
    induction follows with
    | here supported redirected =>
        rw [followRedirects, if_pos supported, redirected]
        exact ⟨_, rfl⟩
    | later supported redirected parsed follows ih =>
        obtain ⟨exception, thrown⟩ := ih
        rw [followRedirects, if_pos supported, redirected]
        simp only [parsed]
        exact ⟨exception, thrown⟩

end Muld
