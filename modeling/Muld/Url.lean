import Muld.ChunkLayout

/-! `ParseUrl` and `GetUrlString`. -/

namespace Muld

/-- A `std::string`, character by character. -/
abbrev Text := List Char

namespace Text

/-- `std::string::find` of a character, from a position on. -/
def findChar (character : Char) (text : Text) (position : Nat) : Option Nat :=
  ((text.drop position).findIdx? (· == character)).map (position + ·)

/-- `std::string::find` of a non-empty string, from the start on. -/
def findText (pattern : Text) : Text → Option Nat
  | [] => none
  | first :: rest =>
      if pattern.isPrefixOf (first :: rest) then some 0
      else (findText pattern rest).map (· + 1)

end Text

structure Url where
  scheme : Text := []
  host : Text := []
  port : Text := []
  path : Text := []
deriving DecidableEq, Repr

/-- The smaller of two positions, where `npos` is none. -/
def earlier : Option Nat → Option Nat → Option Nat
  | some left, some right => some (min left right)
  | some left, none => some left
  | none, right => right

/-- The scheme, `http` when it is left out, and the position behind it. -/
def splitScheme (text : Text) : Text × Nat :=
  match Text.findText "://".toList text with
  | some schemeEnd => (text.take schemeEnd, schemeEnd + 3)
  | none => ("http".toList, 0)

/-- Where the host and port end: at the first path, query or fragment. -/
def hostEnd (text : Text) (position : Nat) : Option Nat :=
  earlier
    (earlier (Text.findChar '/' text position) (Text.findChar '?' text position))
    (Text.findChar '#' text position)

/-- The host with its port, and the path. -/
def splitPath (text : Text) (position : Nat) : Text × Text :=
  match hostEnd text position with
  | some hostEnd =>
      if position < hostEnd then
        ((text.drop position).take (hostEnd - position),
          if text[hostEnd]? = some '/' then text.drop hostEnd else '/' :: text.drop hostEnd)
      else
        -- without a host the rest is taken for one
        (text.drop position, "/".toList)
  | none => (text.drop position, "/".toList)

/-- The host and the port, which the scheme decides when it is left out. -/
def splitPort (scheme hostPort : Text) : Text × Text :=
  match Text.findChar ':' hostPort 0 with
  | some portStart => (hostPort.take portStart, hostPort.drop (portStart + 1))
  | none => (hostPort, if scheme = "https".toList then "443".toList else "80".toList)

/-- `ParseUrl`. -/
def parseUrl (text : Text) : Except Exception Url :=
  if text = [] then .error (.other "URL cannot be empty")
  else
    let (scheme, position) := splitScheme text
    let (hostPort, path) := splitPath text position
    let (host, port) := splitPort scheme hostPort
    .ok { scheme, host, port, path }

/-- The port does not show in the URL string. -/
def defaultPort (url : Url) : Bool :=
  url.scheme == "http".toList && url.port == "80".toList
    || url.scheme == "https".toList && url.port == "443".toList

/-- `GetUrlString`. -/
def getUrlString (url : Url) : Text :=
  (if url.scheme = [] then [] else url.scheme ++ "://".toList)
    ++ url.host
    ++ (if url.port = [] ∨ defaultPort url = true then [] else ':' :: url.port)
    ++ (if url.path = [] then []
      else if url.path.head? = some '/' then url.path
      else '/' :: url.path)

/-- Only the empty string is refused. -/
theorem parseUrl_isOk {text : Text} (nonempty : text ≠ [])
    : ∃ url, parseUrl text = .ok url := by
  rw [parseUrl, if_neg nonempty]
  exact ⟨_, rfl⟩

theorem parseUrl_eq_error {text : Text} {exception : Exception}
    (refused : parseUrl text = .error exception)
    : text = [] := by
  by_contra nonempty
  obtain ⟨url, parsed⟩ := parseUrl_isOk nonempty
  rw [parsed] at refused
  cases refused

/-- The path begins with a slash. -/
theorem splitPath_path (text : Text) (position : Nat) : (splitPath text position).2 ≠ [] := by
  rw [splitPath]
  split
  · rename_i hostEnd at_end
    split
    · change ite _ _ _ ≠ []
      split
      · rename_i found
        obtain ⟨bound, _⟩ := List.getElem?_eq_some_iff.mp found
        rw [ne_eq, List.drop_eq_nil_iff]
        omega
      · exact List.cons_ne_nil _ _
    · exact List.cons_ne_nil _ _
  · exact List.cons_ne_nil _ _

/-- A parsed URL has a path. -/
theorem parseUrl_path {text : Text} {url : Url} (parsed : parseUrl text = .ok url)
    : url.path ≠ [] := by
  rw [parseUrl] at parsed
  split at parsed
  · cases parsed
  · obtain rfl := Except.ok.inj parsed
    exact splitPath_path _ _

/-- A URL with a path has a string. -/
theorem getUrlString_ne_nil {url : Url} (path : url.path ≠ []) : getUrlString url ≠ [] := by
  rw [getUrlString, if_neg path]
  refine List.append_ne_nil_of_right_ne_nil _ ?_
  split
  · exact path
  · exact List.cons_ne_nil _ _

example
    : parseUrl "https://host:8443/a?b".toList
        = .ok {
          scheme := "https".toList
          host := "host".toList
          port := "8443".toList
          path := "/a?b".toList
        } := by
  decide +kernel

end Muld
