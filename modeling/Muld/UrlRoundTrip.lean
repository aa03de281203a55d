import Muld.UrlGrammar

/-! Formatting an address and parsing it again. -/

namespace Muld
open Occurrences

-----------------------------------------------------------------------------------------
-- The string of an address
-----------------------------------------------------------------------------------------

/-- The port as the string has it. -/
def shownPort (url : Url) : Text :=
  if url.port = [] ∨ defaultPort url = true then [] else ':' :: url.port

/-- The authority of the string. -/
def shownAuthority (url : Url) : Text := url.host ++ shownPort url

section Strings
variable {url : Url}

theorem ne_nil_of_slash {path : Text} (slash : path.head? = some '/') : path ≠ [] := by
  rintro rfl
  cases slash

theorem getUrlString_of_scheme (scheme : url.scheme ≠ []) (slash : url.path.head? = some '/')
    : getUrlString url = url.scheme ++ separator ++ (shownAuthority url ++ url.path) := by
  have path := ne_nil_of_slash slash
  rw [getUrlString, if_neg scheme, if_neg path, if_pos slash, List.append_assoc,
    List.append_assoc, ← List.append_assoc url.host]
  rfl

theorem getUrlString_of_no_scheme (scheme : url.scheme = [])
    (slash : url.path.head? = some '/')
    : getUrlString url = shownAuthority url ++ url.path := by
  have path := ne_nil_of_slash slash
  rw [getUrlString, if_pos scheme, if_neg path, if_pos slash, List.nil_append]
  rfl

theorem shownPort_cases (url : Url)
    : shownPort url = [] ∧ (url.port = [] ∨ defaultPort url = true)
      ∨ shownPort url = ':' :: url.port ∧ url.port ≠ [] := by
  by_cases hidden : url.port = [] ∨ defaultPort url = true
  · exact .inl ⟨if_pos hidden, hidden⟩
  · exact .inr ⟨if_neg hidden, (not_or.mp hidden).1⟩

/-- A port that is left out is the one that the parser puts back. -/
theorem standardPort_of_defaultPort (default : defaultPort url = true)
    : standardPort url.scheme = url.port := by
  simp only [defaultPort, Bool.or_eq_true, Bool.and_eq_true, beq_iff_eq] at default
  rcases default with ⟨scheme, port⟩ | ⟨scheme, port⟩
  · rw [scheme, port]
    rfl
  · rw [scheme, port]
    rfl

theorem hostOf_shownAuthority (colon : ':' ∉ url.host)
    : hostOf (shownAuthority url) = url.host := by
  rw [shownAuthority]
  rcases shownPort_cases url with ⟨hidden, _⟩ | ⟨shown, _⟩
  · rw [hidden, List.append_nil]
    exact hostOf_of_notMem colon
  · rw [shown]
    exact hostOf_append colon url.port

theorem portOf_shownAuthority (colon : ':' ∉ url.host) (port : url.port ≠ [])
    : portOf url.scheme (shownAuthority url) = url.port := by
  rw [shownAuthority]
  rcases shownPort_cases url with ⟨hidden, reason⟩ | ⟨shown, _⟩
  · rw [hidden, List.append_nil, portOf_of_notMem url.scheme colon]
    exact standardPort_of_defaultPort (reason.resolve_left port)
  · rw [shown]
    exact portOf_append url.scheme colon url.port

/-- An address without a scheme is read from a text that begins with a separator. -/
theorem separator_prefix_of_parsed {text : Text} (parsed : parseUrl text = .ok url)
    (scheme : url.scheme = [])
    : separator <+: text := by
  obtain ⟨prefix_scheme, remainder, behind⟩ := exists_behind text
  have empty := (behind.scheme_eq parsed).symm.trans scheme
  cases behind with
  | separated found =>
      refine ⟨remainder, ?_⟩
      rw [found.split, empty]
      rfl
  | plain _ => cases empty

end Strings

-----------------------------------------------------------------------------------------
-- Addresses with an authority
-----------------------------------------------------------------------------------------

/-- What the parser gives where there is an authority. -/
structure Formed (url : Url) : Prop where
  first : ∀ other, First separator (url.scheme ++ separator ++ other) url.scheme other
  colon : ':' ∉ url.host
  host : Undelimited url.host
  port : Undelimited url.port
  path : url.path.head? = some '/'

/-- The string shows the scheme, the port or a standard one, and some authority. -/
structure Readable (url : Url) : Prop where
  scheme : url.scheme ≠ []
  port : url.port ≠ []
  authority : shownAuthority url ≠ []

theorem Parts.formed {text scheme authority rest : Text}
    (parts : Parts text scheme authority rest)
    : Formed (addressOf scheme authority rest) := {
  first := parts.behind.first
  colon := notMem_hostOf authority
  host := parts.authority.hostOf
  port := parts.authority.portOf scheme
  path := pathOf_head? rest
}

section Formed
variable {url : Url}

theorem Formed.shown_undelimited (formed : Formed url) : Undelimited (shownAuthority url) := by
  refine formed.host.append ?_
  rcases shownPort_cases url with ⟨hidden, _⟩ | ⟨shown, _⟩
  · rw [hidden]
    nofun
  · rw [shown]
    intro character member
    rcases List.mem_cons.mp member with rfl | member
    · rfl
    · exact formed.port character member

theorem Formed.path_delimited (formed : Formed url) : Delimited url.path := by
  intro character head
  rw [formed.path] at head
  obtain rfl := Option.some.inj head
  rfl

/-- Without a scheme the string does not begin with a separator. -/
theorem Formed.no_separator_first (formed : Formed url)
    : ¬ separator <+: shownAuthority url ++ url.path := by
  rintro ⟨later, split⟩
  rw [shownAuthority] at split
  cases host : url.host with
  | nil =>
      rw [host, List.nil_append] at split
      rcases shownPort_cases url with ⟨hidden, _⟩ | ⟨shown, some_port⟩
      · rw [hidden, List.nil_append] at split
        have slash := formed.path
        rw [← split] at slash
        have colon : some ':' = some '/' := slash
        exact absurd colon (by decide)
      · obtain ⟨head, tail, port⟩ := List.exists_cons_of_ne_nil some_port
        rw [shown, port] at split
        obtain ⟨_, behind_colon⟩ := List.cons.inj split
        obtain ⟨rfl, _⟩ := List.cons.inj behind_colon
        have kept := formed.port '/' (by rw [port]; exact List.mem_cons_self)
        exact absurd kept (by decide)
  | cons head tail =>
      rw [host] at split
      obtain ⟨rfl, _⟩ := List.cons.inj split
      exact formed.colon (by rw [host]; exact List.mem_cons_self)

/-- The parts of the string. -/
theorem Formed.string_parts (formed : Formed url) (scheme : url.scheme ≠ [])
    : Parts (getUrlString url) url.scheme (shownAuthority url) url.path := by
  refine ⟨?_, formed.shown_undelimited, formed.path_delimited⟩
  rw [getUrlString_of_scheme scheme formed.path]
  exact .separated (formed.first _)

theorem Formed.string_nonempty (formed : Formed url) : getUrlString url ≠ [] :=
  getUrlString_ne_nil (ne_nil_of_slash formed.path)

/-- Such an address comes back from its string. -/
theorem Formed.restored (formed : Formed url) (readable : Readable url)
    : parseUrl (getUrlString url) = .ok url := by
  rw [(formed.string_parts readable.scheme).parsed formed.string_nonempty
    (.inl readable.authority)]
  rw [addressOf, hostOf_shownAuthority formed.colon,
    portOf_shownAuthority formed.colon readable.port, pathOf_of_head? formed.path]

/-- No other one does. -/
theorem Formed.readable (formed : Formed url) (again : parseUrl (getUrlString url) = .ok url)
    : Readable url := by
  have scheme : url.scheme ≠ [] := by
    intro empty
    have begins := separator_prefix_of_parsed again empty
    rw [getUrlString_of_no_scheme empty formed.path] at begins
    exact formed.no_separator_first begins
  have parts := formed.string_parts scheme
  have authority : shownAuthority url ≠ [] := by
    intro empty
    have behind := parts.behind
    rw [empty] at behind
    rw [behind.parsed formed.string_nonempty formed.path_delimited] at again
    have host : hostOf url.path = url.host := congrArg Url.host (Except.ok.inj again)
    refine hostOf_not_undelimited (ne_nil_of_slash formed.path) formed.path_delimited ?_
    rw [host]
    exact formed.host
  refine ⟨scheme, ?_, authority⟩
  intro empty
  rw [parts.parsed formed.string_nonempty (.inl authority)] at again
  have port : portOf url.scheme (shownAuthority url) = url.port :=
    congrArg Url.port (Except.ok.inj again)
  have hidden : shownPort url = [] := if_pos (.inl empty)
  rw [shownAuthority, hidden, List.append_nil, portOf_of_notMem url.scheme formed.colon] at port
  exact standardPort_ne_nil url.scheme (port.trans empty)

end Formed

/-- Formatting a well-formed address and parsing it again gives the address. -/
theorem parse_format (url : Url)
    (scheme_some : url.scheme ≠ [])
    (scheme_end : ':' ∉ url.scheme ∧ '/' ∉ url.scheme)
    (host_some : url.host ≠ [])
    (host : Undelimited url.host ∧ ':' ∉ url.host)
    (port_some : url.port ≠ [])
    (port : Undelimited url.port ∧ ':' ∉ url.port)
    (path : url.path.head? = some '/')
    : parseUrl (getUrlString url) = .ok url := by
  have formed : Formed url := {
    first := fun other => first_of_notMem scheme_end.1 other
    colon := host.2
    host := host.1
    port := port.1
    path := path
  }
  have readable : Readable url := {
    scheme := scheme_some
    port := port_some
    authority := List.append_ne_nil_of_left_ne_nil host_some _
  }
  exact formed.restored readable

/-- Port 80 of another scheme than `http` is shown, and the path may have an address in it. -/
theorem parse_format_ftp
    : parseUrl "ftp://h:80/a?u=https://x:1#".toList
        = .ok {
          scheme := "ftp".toList
          host := "h".toList
          port := "80".toList
          path := "/a?u=https://x:1#".toList
        } :=
  parse_format
    {
      scheme := "ftp".toList
      host := "h".toList
      port := "80".toList
      path := "/a?u=https://x:1#".toList
    }
    (by decide) (by decide) (by decide) (by decide) (by decide) (by decide) (by decide)

-----------------------------------------------------------------------------------------
-- Texts whose address is stable
-----------------------------------------------------------------------------------------

section Stable
variable {text scheme authority rest : Text}

/-- A slash behind the authority of a string changes the host or the port. -/
theorem slash_changes {url : Url} (scheme : Text) (colon : ':' ∉ url.host)
    : hostOf (shownAuthority url ++ "/".toList) ≠ url.host
        ∨ portOf scheme (shownAuthority url ++ "/".toList) ≠ url.port := by
  rw [shownAuthority]
  rcases shownPort_cases url with ⟨hidden, _⟩ | ⟨shown, _⟩
  · refine .inl ?_
    have absent : ':' ∉ url.host ++ "/".toList := by
      intro member
      exact (List.mem_append.mp member).elim colon (by decide)
    rw [hidden, List.append_nil, hostOf_of_notMem absent]
    intro longer
    simpa using congrArg List.length longer
  · refine .inr ?_
    rw [shown, List.append_assoc, List.cons_append, portOf_append scheme colon]
    intro longer
    simpa using congrArg List.length longer

/-- A text whose host begins with a delimiter is not read back from its string: the slash of
the path becomes a part of the host or of the port.
-/
theorem unrestored (behind : Behind text scheme rest) (some_rest : rest ≠ [])
    (delimited : Delimited rest)
    : parseUrl (getUrlString (addressOf scheme rest [])) ≠ .ok (addressOf scheme rest []) := by
  intro again
  obtain ⟨head, tail, host, found⟩ := hostOf_delimited some_rest delimited
  have begins : shownAuthority (addressOf scheme rest [])
      = head :: (tail ++ shownPort (addressOf scheme rest [])) := by
    change hostOf rest ++ _ = _
    rw [host]
    rfl
  have some_scheme : scheme ≠ [] := by
    intro empty
    obtain ⟨later, split⟩ := separator_prefix_of_parsed again empty
    rw [getUrlString_of_no_scheme empty rfl, begins] at split
    obtain ⟨rfl, _⟩ := List.cons.inj split
    exact absurd found (by decide)
  have colon : ':' ∉ hostOf rest := notMem_hostOf rest
  rw [getUrlString_of_scheme some_scheme rfl] at again
  have delimited_again : Delimited
      (shownAuthority (addressOf scheme rest []) ++ (addressOf scheme rest []).path) := by
    rw [begins]
    intro character first
    obtain rfl := Option.some.inj first
    exact found
  have behind_again := Behind.separated (behind.first
    (shownAuthority (addressOf scheme rest []) ++ (addressOf scheme rest []).path))
  rw [show (addressOf scheme rest []).scheme = scheme from rfl,
    behind_again.parsed (by simp [separator]) delimited_again] at again
  have same := Except.ok.inj again
  exact (slash_changes scheme colon).elim (fun host => host (congrArg Url.host same))
    (fun port => port (congrArg Url.port same))

/-- The parts of a text from which its address can be restored: the authority does not end
with its first colon, and the string shows some authority.
-/
structure Restorable (scheme authority rest : Text) : Prop where
  some_scheme : scheme ≠ []
  present : authority ≠ [] ∨ rest = []
  port : authority.dropWhile (· != ':') ≠ [':']
  http : scheme = "http".toList → authority ≠ [] ∧ authority ≠ ":80".toList
  https : scheme = "https".toList → authority ≠ [] ∧ authority ≠ ":443".toList

/-- These are the parts of readable addresses. -/
theorem restorable_iff
    : Restorable scheme authority rest
        ↔ (authority ≠ [] ∨ rest = []) ∧ Readable (addressOf scheme authority rest) := by
  constructor
  · intro restorable
    have port : portOf scheme authority ≠ [] :=
      mt (portOf_eq_nil_iff scheme authority).mp restorable.port
    refine ⟨restorable.present, restorable.some_scheme, port, ?_⟩
    intro nothing
    obtain ⟨no_host, hidden⟩ := List.append_eq_nil_iff.mp nothing
    rcases shownPort_cases (addressOf scheme authority rest) with ⟨_, reason⟩ | ⟨shown, _⟩
    · have default := reason.resolve_left port
      simp only [defaultPort, Bool.or_eq_true, Bool.and_eq_true, beq_iff_eq] at default
      rcases default with ⟨http, standard⟩ | ⟨https, standard⟩
      · obtain ⟨some_authority, other⟩ := restorable.http http
        have bare := (authority_of_no_host scheme no_host).resolve_left some_authority
        exact other (bare.trans (congrArg (':' :: ·) standard))
      · obtain ⟨some_authority, other⟩ := restorable.https https
        have bare := (authority_of_no_host scheme no_host).resolve_left some_authority
        exact other (bare.trans (congrArg (':' :: ·) standard))
    · rw [shown] at hidden
      cases hidden
  · rintro ⟨present, readable⟩
    refine ⟨readable.scheme, present, mt (portOf_eq_nil_iff scheme authority).mpr readable.port,
      ?_, ?_⟩
    · rintro rfl
      constructor
      · rintro rfl
        exact readable.authority rfl
      · rintro rfl
        exact readable.authority rfl
    · rintro rfl
      constructor
      · rintro rfl
        exact readable.authority rfl
      · rintro rfl
        exact readable.authority rfl

/-- The address of a text comes back from its string exactly where it can be restored. -/
theorem Parts.stable_iff (parts : Parts text scheme authority rest) (nonempty : text ≠ [])
    : (∃ url, parseUrl text = .ok url ∧ parseUrl (getUrlString url) = .ok url)
        ↔ Restorable scheme authority rest := by
  rw [restorable_iff]
  constructor
  · rintro ⟨url, parsed, again⟩
    have present : authority ≠ [] ∨ rest = [] := by
      by_contra missing
      obtain ⟨none, some_rest⟩ := not_or.mp missing
      obtain rfl := not_not.mp none
      rw [parts.behind.parsed nonempty parts.rest] at parsed
      obtain rfl := Except.ok.inj parsed
      exact unrestored parts.behind some_rest parts.rest again
    rw [parts.parsed nonempty present] at parsed
    obtain rfl := Except.ok.inj parsed
    exact ⟨present, parts.formed.readable again⟩
  · rintro ⟨present, readable⟩
    exact ⟨_, parts.parsed nonempty present, parts.formed.restored readable⟩

/-- Which texts have a stable address. -/
theorem url_stable (text : Text) (nonempty : text ≠ [])
    : (∃ url, parseUrl text = .ok url ∧ parseUrl (getUrlString url) = .ok url)
        ↔ ∃ scheme authority rest,
            Parts text scheme authority rest ∧ Restorable scheme authority rest := by
  constructor
  · intro stable
    obtain ⟨scheme, remainder, behind⟩ := exists_behind text
    exact ⟨scheme, _, _, behind.parts, (behind.parts.stable_iff nonempty).mp stable⟩
  · rintro ⟨scheme, authority, rest, parts, restorable⟩
    exact (parts.stable_iff nonempty).mpr restorable

/-- The standard port may be there, and a path without its slash. -/
theorem url_stable_https
    : ∃ url, parseUrl "https://h:443?f".toList = .ok url
        ∧ parseUrl (getUrlString url) = .ok url := by
  have split : First separator ("https".toList ++ separator ++ "h:443?f".toList)
      "https".toList "h:443?f".toList :=
    first_of_notMem (by decide) _
  have parts : Parts "https://h:443?f".toList "https".toList "h:443".toList "?f".toList :=
    ⟨.separated split, by decide, by decide⟩
  have restorable : Restorable "https".toList "h:443".toList "?f".toList :=
    ⟨by decide, by decide, by decide, by decide, by decide⟩
  exact (url_stable _ (by decide)).mpr ⟨_, _, _, parts, restorable⟩

/-- An empty port is read, left out of the string, and not read again. -/
theorem url_unstable
    : ¬ ∀ text : Text,
        text ≠ []
        → ∃ url, parseUrl text = .ok url ∧ parseUrl (getUrlString url) = .ok url := by
  intro stable
  obtain ⟨url, parsed, again⟩ := stable "http://h:/f".toList (by decide)
  have read : parseUrl "http://h:/f".toList
      = .ok { scheme := "http".toList, host := "h".toList, port := [], path := "/f".toList } := by
    decide +kernel
  obtain rfl := Except.ok.inj (parsed.symm.trans read)
  exact absurd again (by decide +kernel)

end Stable

end Muld
