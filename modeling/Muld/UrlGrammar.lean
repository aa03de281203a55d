import Muld.Url
import Muld.Library.Occurrences
import Mathlib.Data.List.TakeWhile

/-! The grammar of URLs, and what the parser makes of the texts it describes. -/

namespace Muld
open Occurrences

-----------------------------------------------------------------------------------------
-- The grammar
-----------------------------------------------------------------------------------------

/-- What ends a scheme. -/
def separator : Text := [':', '/', '/']

/-- What ends an authority. -/
def isDelimiter (character : Char) : Bool :=
  character == '/' || character == '?' || character == '#'

def Undelimited (text : Text) : Prop := ∀ character ∈ text, isDelimiter character = false

instance (text : Text) : Decidable (Undelimited text) :=
  List.decidableBAll (isDelimiter · = false) text

/-- Empty, or a path, a query or a fragment. -/
def Delimited (text : Text) : Prop := ∀ character ∈ text.head?, isDelimiter character = true

instance (text : Text) : Decidable (Delimited text) :=
  Option.decidableForallMem text.head?

/-- A text consists of its scheme and a remainder. Without a separator all of it is
remainder, and the scheme is `http`.
-/
inductive Behind : Text → Text → Text → Prop
  | separated {text scheme remainder} (found : First separator text scheme remainder)
    : Behind text scheme remainder
  | plain {text} (absent : ¬ separator <:+: text) : Behind text "http".toList text

/-- The remainder consists of the authority and the rest. -/
structure Parts (text scheme authority rest : Text) : Prop where
  behind : Behind text scheme (authority ++ rest)
  authority : Undelimited authority
  rest : Delimited rest

def hostOf (authority : Text) : Text := authority.takeWhile (· != ':')

def standardPort (scheme : Text) : Text :=
  if scheme = "https".toList then "443".toList else "80".toList

def portOf (scheme authority : Text) : Text :=
  match authority.dropWhile (· != ':') with
  | [] => standardPort scheme
  | _ :: port => port

def pathOf (rest : Text) : Text := if rest.head? = some '/' then rest else '/' :: rest

/-- The address that the grammar gives to the parts of a text. -/
def addressOf (scheme authority rest : Text) : Url :=
  { scheme, host := hostOf authority, port := portOf scheme authority, path := pathOf rest }

/-- Every text has a scheme, at its first separator or left out. -/
theorem exists_behind (text : Text) : ∃ scheme remainder, Behind text scheme remainder := by
  by_cases occurs : separator <:+: text
  · obtain ⟨scheme, remainder, found⟩ := exists_first occurs
    exact ⟨scheme, remainder, .separated found⟩
  · exact ⟨_, _, .plain occurs⟩

theorem undelimited_takeWhile (text : Text)
    : Undelimited (text.takeWhile (! isDelimiter ·)) := by
  intro character member
  simpa using List.mem_takeWhile_imp member

theorem delimited_dropWhile (text : Text) : Delimited (text.dropWhile (! isDelimiter ·)) := by
  intro character head
  have refused := List.head?_dropWhile_not (! isDelimiter ·) text
  rw [Option.mem_def.mp head] at refused
  simpa using refused

/-- The remainder ends its authority at its first delimiter. -/
theorem Behind.parts {text scheme remainder : Text} (behind : Behind text scheme remainder)
    : Parts text scheme (remainder.takeWhile (! isDelimiter ·))
        (remainder.dropWhile (! isDelimiter ·)) := by
  refine ⟨?_, undelimited_takeWhile remainder, delimited_dropWhile remainder⟩
  rwa [List.takeWhile_append_dropWhile]

/-- A scheme stays the scheme in front of another remainder. -/
theorem Behind.first {text scheme remainder : Text} (behind : Behind text scheme remainder)
    (other : Text)
    : First separator (scheme ++ separator ++ other) scheme other := by
  cases behind with
  | separated found => exact found.replace other
  | plain _ => exact first_of_notMem (by decide) other

-----------------------------------------------------------------------------------------
-- The host and the port of an authority
-----------------------------------------------------------------------------------------

section Authority
variable {host port : Text}

/-- An authority is a host, or a host and a port. -/
theorem authority_cases (authority : Text)
    : ':' ∉ authority ∨ ∃ host port, authority = host ++ ':' :: port ∧ ':' ∉ host := by
  by_cases member : ':' ∈ authority
  · exact .inr (List.eq_append_cons_of_mem member)
  · exact .inl member

theorem kept_of_notMem (absent : ':' ∉ host)
    : ∀ character ∈ host, (character != ':') = true := by
  intro character member
  rw [bne_iff_ne]
  rintro rfl
  exact absent member

theorem hostOf_of_notMem (absent : ':' ∉ host) : hostOf host = host :=
  List.takeWhile_eq_self_iff.mpr (kept_of_notMem absent)

theorem portOf_of_notMem (scheme : Text) (absent : ':' ∉ host)
    : portOf scheme host = standardPort scheme := by
  rw [portOf, List.dropWhile_eq_nil_iff.mpr (kept_of_notMem absent)]

theorem hostOf_append (absent : ':' ∉ host) (port : Text)
    : hostOf (host ++ ':' :: port) = host := by
  rw [hostOf, List.takeWhile_append_of_pos (kept_of_notMem absent)]
  simp

theorem portOf_append (scheme : Text) (absent : ':' ∉ host) (port : Text)
    : portOf scheme (host ++ ':' :: port) = port := by
  rw [portOf, List.dropWhile_append_of_pos (kept_of_notMem absent)]
  simp

/-- The host has no colon. -/
theorem notMem_hostOf (authority : Text) : ':' ∉ hostOf authority := by
  intro member
  simpa using List.mem_takeWhile_imp member

theorem standardPort_ne_nil (scheme : Text) : standardPort scheme ≠ [] := by
  rw [standardPort]
  split <;> decide

/-- An authority has no port exactly when it ends with its first colon. -/
theorem portOf_eq_nil_iff (scheme authority : Text)
    : portOf scheme authority = [] ↔ authority.dropWhile (· != ':') = [':'] := by
  have stopped := List.head?_dropWhile_not (· != ':') authority
  rw [portOf]
  cases behind : authority.dropWhile (· != ':') with
  | nil => exact iff_of_false (standardPort_ne_nil scheme) (List.cons_ne_nil ':' []).symm
  | cons head port =>
      rw [behind] at stopped
      obtain rfl : head = ':' := by simpa using stopped
      exact (List.cons_inj_right ':').symm

/-- Without a host the authority is empty or a port. -/
theorem authority_of_no_host {authority : Text} (scheme : Text) (no_host : hostOf authority = [])
    : authority = [] ∨ authority = ':' :: portOf scheme authority := by
  rcases authority_cases authority with absent | ⟨host, port, rfl, absent⟩
  · rw [hostOf_of_notMem absent] at no_host
    exact .inl no_host
  · rw [hostOf_append absent] at no_host
    rw [portOf_append scheme absent, no_host]
    exact .inr rfl

end Authority

theorem Undelimited.append {left right : Text} (before : Undelimited left)
    (after : Undelimited right)
    : Undelimited (left ++ right) := by
  intro character member
  exact (List.mem_append.mp member).elim (before character) (after character)

theorem Undelimited.hostOf {authority : Text} (undelimited : Undelimited authority)
    : Undelimited (hostOf authority) :=
  fun character member => undelimited character (List.takeWhile_subset _ member)

theorem Undelimited.portOf {authority : Text} (undelimited : Undelimited authority)
    (scheme : Text)
    : Undelimited (portOf scheme authority) := by
  rcases authority_cases authority with absent | ⟨host, port, rfl, absent⟩
  · rw [portOf_of_notMem scheme absent, standardPort]
    split <;> exact by decide
  · rw [portOf_append scheme absent]
    intro character member
    exact undelimited character (List.mem_append_right _ (List.mem_cons_of_mem _ member))

theorem pathOf_head? (rest : Text) : (pathOf rest).head? = some '/' := by
  rw [pathOf]
  split
  · assumption
  · rfl

theorem pathOf_of_head? {path : Text} (slash : path.head? = some '/') : pathOf path = path :=
  if_pos slash

-----------------------------------------------------------------------------------------
-- The parser finds the parts
-----------------------------------------------------------------------------------------

section Searches
variable {text scheme remainder authority rest : Text} {position found : Nat}

/-- The search for a text finds its first occurrence, by induction on the text searched. -/
theorem first_of_findText {pattern : Text} (found_at : Text.findText pattern text = some found)
    : First pattern text (text.take found) (text.drop (found + pattern.length)) := by
  induction text generalizing found with
  | nil => cases found_at
  | cons head rest ih =>
      rw [Text.findText] at found_at
      by_cases here : pattern <+: head :: rest
      · rw [if_pos (List.isPrefixOf_iff_prefix.mpr here)] at found_at
        obtain rfl := Option.some.inj found_at
        obtain ⟨later, split⟩ := here
        rw [← split, Nat.zero_add, List.drop_left]
        exact first_nil pattern later
      · rw [if_neg (mt List.isPrefixOf_iff_prefix.mp here)] at found_at
        obtain ⟨found, found_in_rest, rfl⟩ := Option.map_eq_some_iff.mp found_at
        rw [Nat.succ_add_eq_add_succ, Nat.add_succ]
        exact (ih found_in_rest).cons here

theorem notInfix_of_findText {pattern : Text} (nonempty : pattern ≠ [])
    (nowhere : Text.findText pattern text = none)
    : ¬ pattern <:+: text := by
  induction text with
  | nil => exact fun occurs => nonempty (List.infix_nil.mp occurs)
  | cons head rest ih =>
      rw [Text.findText] at nowhere
      split at nowhere
      · cases nowhere
      · rename_i elsewhere
        intro occurs
        rcases List.infix_cons_iff.mp occurs with here | later
        · exact elsewhere (List.isPrefixOf_iff_prefix.mpr here)
        · exact ih (Option.map_eq_none_iff.mp nowhere) later

/-- The parser splits a text where the grammar does. -/
theorem splitScheme_behind (behind : Behind text scheme remainder)
    : (splitScheme text).1 = scheme ∧ text.drop (splitScheme text).2 = remainder := by
  rw [splitScheme]
  split
  · rename_i found found_at
    have here := first_of_findText found_at
    cases behind with
    | separated first =>
        obtain ⟨same_scheme, same_remainder⟩ := here.unique first
        exact ⟨same_scheme, same_remainder⟩
    | plain absent => exact absurd here.infix absent
  · rename_i nowhere
    cases behind with
    | separated first => exact absurd first.infix (notInfix_of_findText (by decide) nowhere)
    | plain _ => exact ⟨rfl, rfl⟩

theorem earlier_map {move : Nat → Nat} (monotone : Monotone move) (left right : Option Nat)
    : earlier (left.map move) (right.map move) = (earlier left right).map move := by
  cases left with
  | none => cases right <;> rfl
  | some left =>
      cases right with
      | none => rfl
      | some right => exact congrArg some (monotone.map_min).symm

theorem earlier_zero_left (right : Option Nat) : earlier (some 0) right = some 0 := by
  cases right with
  | none => rfl
  | some right => exact congrArg some (Nat.zero_min right)

theorem earlier_zero_right (left : Option Nat) : earlier left (some 0) = some 0 := by
  cases left with
  | none => rfl
  | some left => exact congrArg some (Nat.min_zero left)

/-- The earlier one of two characters is what a search for either finds. -/
theorem earlier_findIdx? (p q : Char → Bool) (text : Text)
    : earlier (text.findIdx? p) (text.findIdx? q)
        = text.findIdx? (fun character => p character || q character) := by
  induction text with
  | nil => rfl
  | cons head rest ih =>
      simp only [List.findIdx?_cons]
      cases p head with
      | true => exact earlier_zero_left _
      | false =>
          cases q head with
          | true => exact earlier_zero_right _
          | false =>
              have step := earlier_map (fun _ _ => Nat.succ_le_succ)
                (rest.findIdx? p) (rest.findIdx? q)
              rw [ih] at step
              exact step

/-- The host and port end at the first delimiter. -/
theorem hostEnd_eq (text : Text) (position : Nat)
    : hostEnd text position
        = ((text.drop position).findIdx? isDelimiter).map (position + ·) := by
  have monotone : Monotone (position + ·) := fun _ _ order => Nat.add_le_add_left order position
  rw [hostEnd, Text.findChar, Text.findChar, Text.findChar, earlier_map monotone,
    earlier_map monotone, earlier_findIdx?, earlier_findIdx?]
  rfl

/-- An authority ends where the rest begins. -/
theorem findIdx?_authority {head : Char} {tail : Text} (undelimited : Undelimited authority)
    (delimited : Delimited (head :: tail))
    : (authority ++ head :: tail).findIdx? isDelimiter = some authority.length := by
  rw [List.findIdx?_append, List.findIdx?_eq_none_iff.mpr undelimited, List.findIdx?_cons,
    if_pos (delimited head rfl)]
  exact congrArg some (Nat.zero_add _)

/-- A remainder with an authority is split behind it. -/
theorem splitPath_authority (split : text.drop position = authority ++ rest)
    (undelimited : Undelimited authority) (delimited : Delimited rest)
    (present : authority ≠ [] ∨ rest = [])
    : splitPath text position = (authority, pathOf rest) := by
  rw [splitPath, hostEnd_eq, split]
  cases rest with
  | nil =>
      rw [List.append_nil, List.findIdx?_eq_none_iff.mpr undelimited]
      rfl
  | cons head tail =>
      have behind_position : position < position + authority.length := by
        have some_authority := present.resolve_right (List.cons_ne_nil head tail)
        have := List.length_pos_of_ne_nil some_authority
        omega
      have path : text.drop (position + authority.length) = head :: tail := by
        rw [← List.drop_drop, split, List.drop_left]
      have first : text[position + authority.length]? = (head :: tail).head? := by
        rw [← path, List.head?_drop]
      rw [findIdx?_authority undelimited delimited]
      simp only [Option.map_some, if_pos behind_position, Nat.add_sub_cancel_left,
        List.take_left, path, first]
      rfl

/-- A remainder that begins with a delimiter is not split. -/
theorem splitPath_rest (split : text.drop position = rest) (delimited : Delimited rest)
    : splitPath text position = (rest, "/".toList) := by
  rw [splitPath, hostEnd_eq, split]
  cases rest with
  | nil => rfl
  | cons head tail =>
      rw [List.findIdx?_cons, if_pos (delimited head rfl)]
      exact if_neg (Nat.lt_irrefl position)

theorem findIdx?_colon {host : Text} (absent : ':' ∉ host)
    : host.findIdx? (· == ':') = none := by
  refine List.findIdx?_eq_none_iff.mpr ?_
  intro character member
  simpa using kept_of_notMem absent character member

/-- The host ends at the first colon. -/
theorem splitPort_eq (scheme authority : Text)
    : splitPort scheme authority = (hostOf authority, portOf scheme authority) := by
  rw [splitPort, Text.findChar, List.drop_zero]
  rcases authority_cases authority with absent | ⟨host, port, rfl, absent⟩
  · rw [findIdx?_colon absent, hostOf_of_notMem absent, portOf_of_notMem scheme absent]
    rfl
  · have first : (host ++ ':' :: port).findIdx? (· == ':') = some host.length := by
      rw [List.findIdx?_append, findIdx?_colon absent]
      exact congrArg some (Nat.zero_add _)
    rw [first, hostOf_append absent, portOf_append scheme absent]
    simp

end Searches

/-- What the parser reads, where there is an authority. -/
theorem Parts.parsed {text scheme authority rest : Text} (parts : Parts text scheme authority rest)
    (nonempty : text ≠ []) (present : authority ≠ [] ∨ rest = [])
    : parseUrl text = .ok (addressOf scheme authority rest) := by
  obtain ⟨scheme_eq, split⟩ := splitScheme_behind parts.behind
  rw [parseUrl, if_neg nonempty]
  simp only [splitPath_authority split parts.authority parts.rest present, splitPort_eq,
    scheme_eq]
  rfl

/-- Without an authority the rest is read as one. -/
theorem Behind.parsed {text scheme rest : Text} (behind : Behind text scheme rest)
    (nonempty : text ≠ []) (delimited : Delimited rest)
    : parseUrl text = .ok (addressOf scheme rest []) := by
  obtain ⟨scheme_eq, split⟩ := splitScheme_behind behind
  rw [parseUrl, if_neg nonempty]
  simp only [splitPath_rest split delimited, splitPort_eq, scheme_eq]
  rfl

theorem Behind.scheme_eq {text scheme remainder : Text} {url : Url}
    (behind : Behind text scheme remainder) (parsed : parseUrl text = .ok url)
    : url.scheme = scheme := by
  rw [parseUrl] at parsed
  split at parsed
  · cases parsed
  · obtain rfl := Except.ok.inj parsed
    exact (splitScheme_behind behind).1

-----------------------------------------------------------------------------------------
-- Where the parser follows the grammar
-----------------------------------------------------------------------------------------

section Grammar
variable {text scheme remainder authority rest : Text} {url : Url}

/-- A rest that is read as an authority gives a host with a delimiter. -/
theorem hostOf_delimited (some_rest : rest ≠ []) (delimited : Delimited rest)
    : ∃ head tail, hostOf rest = head :: tail ∧ isDelimiter head = true := by
  obtain ⟨head, tail, rfl⟩ := List.exists_cons_of_ne_nil some_rest
  have found : isDelimiter head = true := delimited head rfl
  have kept : (head != ':') = true := by
    rw [bne_iff_ne]
    rintro rfl
    exact absurd found (by decide)
  exact ⟨head, _, List.takeWhile_cons_of_pos kept, found⟩

theorem hostOf_not_undelimited (some_rest : rest ≠ []) (delimited : Delimited rest)
    : ¬ Undelimited (hostOf rest) := by
  intro undelimited
  obtain ⟨head, tail, host, found⟩ := hostOf_delimited some_rest delimited
  rw [host] at undelimited
  have kept := undelimited head List.mem_cons_self
  rw [found] at kept
  cases kept

/-- So it is read as another address than the grammar gives. -/
theorem addressOf_rest_ne (some_rest : rest ≠ []) (delimited : Delimited rest)
    : addressOf scheme rest [] ≠ addressOf scheme [] rest := by
  intro same
  have no_host : hostOf rest = [] := congrArg Url.host same
  refine hostOf_not_undelimited some_rest delimited ?_
  rw [no_host]
  nofun

/-- With a scheme the parser follows the grammar where there is an authority. -/
theorem parsed_with_scheme_iff (scheme_end : ':' ∉ scheme) (undelimited : Undelimited authority)
    (delimited : Delimited rest)
    : parseUrl (scheme ++ separator ++ (authority ++ rest)) = .ok (addressOf scheme authority rest)
        ↔ authority ≠ [] ∨ rest = [] := by
  have behind : Behind (scheme ++ separator ++ (authority ++ rest)) scheme (authority ++ rest) :=
    .separated (first_of_notMem scheme_end _)
  have nonempty : scheme ++ separator ++ (authority ++ rest) ≠ [] := by simp [separator]
  constructor
  · intro parsed
    by_contra missing
    obtain ⟨none, some_rest⟩ := not_or.mp missing
    obtain rfl := not_not.mp none
    rw [behind.parsed nonempty delimited] at parsed
    exact addressOf_rest_ne some_rest delimited (Except.ok.inj parsed)
  · exact Parts.parsed ⟨behind, undelimited, delimited⟩ nonempty

/-- No separator begins in an authority that does not end with a colon. -/
theorem no_separator_first {head : Char} (undelimited : Undelimited (head :: authority))
    (last : (head :: authority).getLast? ≠ some ':') (rest : Text)
    : ¬ separator <+: head :: (authority ++ rest) := by
  rintro ⟨later, split⟩
  obtain ⟨rfl, slashes⟩ := List.cons.inj split
  cases authority with
  | nil => exact last rfl
  | cons second others =>
      obtain ⟨rfl, _⟩ := List.cons.inj slashes
      exact absurd (undelimited '/' (by simp)) (by decide)

theorem Undelimited.tail {head : Char} (undelimited : Undelimited (head :: authority))
    : Undelimited authority :=
  fun character member => undelimited character (List.mem_cons_of_mem _ member)

theorem getLast?_tail {head : Char} (last : (head :: authority).getLast? ≠ some ':')
    : authority.getLast? ≠ some ':' := by
  cases authority with
  | nil => nofun
  | cons second others => rwa [List.getLast?_cons_cons] at last

/-- A separator behind such an authority is one of the rest, by induction on the authority. -/
theorem no_separator_inside (undelimited : Undelimited authority)
    (last : authority.getLast? ≠ some ':') (absent : ¬ separator <:+: rest)
    : ¬ separator <:+: authority ++ rest := by
  induction authority with
  | nil => exact absent
  | cons head authority ih =>
      intro occurs
      rcases List.infix_cons_iff.mp occurs with here | later
      · exact no_separator_first undelimited last rest here
      · exact ih undelimited.tail (getLast?_tail last) later

theorem first_separator {before after : Text} (undelimited : Undelimited authority)
    (last : authority.getLast? ≠ some ':') (found : First separator rest before after)
    : First separator (authority ++ rest) (authority ++ before) after := by
  induction authority with
  | nil => exact found
  | cons head authority ih =>
      exact (ih undelimited.tail (getLast?_tail last)).cons
        (no_separator_first undelimited last rest)

/-- The text in front of a separator of the rest is not `http`: it has the delimiter with
which the rest begins.
-/
theorem scheme_ne_http {before after : Text} (delimited : Delimited rest)
    (found : First separator rest before after) (authority : Text)
    : authority ++ before ≠ "http".toList := by
  intro same
  have undelimited : Undelimited (authority ++ before) := by
    rw [same]
    decide
  cases before with
  | nil =>
      rw [found.split] at delimited
      exact absurd (delimited ':' rfl) (by decide)
  | cons head others =>
      rw [found.split] at delimited
      have member : head ∈ authority ++ head :: others := by simp
      have refused := undelimited head member
      rw [delimited head rfl] at refused
      cases refused

/-- Without a scheme the parser follows the grammar where there is an authority, and no
separator in the rest.
-/
theorem parsed_without_scheme_iff (undelimited : Undelimited authority)
    (last : authority.getLast? ≠ some ':') (delimited : Delimited rest)
    : parseUrl (authority ++ rest) = .ok (addressOf "http".toList authority rest)
        ↔ authority ≠ [] ∧ ¬ separator <:+: rest := by
  constructor
  · intro parsed
    have absent : ¬ separator <:+: rest := by
      intro occurs
      obtain ⟨before, after, found⟩ := exists_first occurs
      have behind := Behind.separated (first_separator undelimited last found)
      exact scheme_ne_http delimited found authority (behind.scheme_eq parsed).symm
    refine ⟨?_, absent⟩
    rintro rfl
    rw [List.nil_append] at parsed
    by_cases some_rest : rest = []
    · rw [some_rest] at parsed
      cases parsed
    · rw [(Behind.plain absent).parsed some_rest delimited] at parsed
      exact addressOf_rest_ne some_rest delimited (Except.ok.inj parsed)
  · rintro ⟨some_authority, absent⟩
    have behind := Behind.plain (no_separator_inside undelimited last absent)
    exact Parts.parsed ⟨behind, undelimited, delimited⟩
      (List.append_ne_nil_of_left_ne_nil some_authority rest) (.inl some_authority)

/-- The host has no delimiter unless the remainder begins with one. -/
theorem Behind.host_undelimited_iff (behind : Behind text scheme remainder)
    (parsed : parseUrl text = .ok url)
    : Undelimited url.host ↔ ∀ character ∈ remainder.head?, isDelimiter character = false := by
  have nonempty : text ≠ [] := by
    rintro rfl
    cases parsed
  constructor
  · intro undelimited character head
    by_contra found
    have delimited : Delimited remainder := by
      intro other other_head
      rw [Option.mem_unique other_head head]
      exact Bool.eq_true_of_not_eq_false found
    have some_rest : remainder ≠ [] := by
      rintro rfl
      cases head
    rw [behind.parsed nonempty delimited] at parsed
    obtain rfl := Except.ok.inj parsed
    exact hostOf_not_undelimited some_rest delimited undelimited
  · intro begins
    have present : remainder.takeWhile (! isDelimiter ·) ≠ []
        ∨ remainder.dropWhile (! isDelimiter ·) = [] := by
      cases remainder with
      | nil => exact .inr rfl
      | cons head tail =>
          refine .inl ?_
          rw [List.takeWhile_cons, begins head rfl]
          exact List.cons_ne_nil _ _
    rw [behind.parts.parsed nonempty present] at parsed
    obtain rfl := Except.ok.inj parsed
    exact behind.parts.authority.hostOf

/-- What the grammar promises of a text with a scheme, of a text without one, and of the host
of any text, holds exactly where there is an authority and, without a scheme, no separator
in the rest.
-/
theorem grammar_followed (scheme authority rest text before remainder : Text) (url : Url)
    : (':' ∉ scheme
        → Undelimited authority
        → Delimited rest
        → (parseUrl (scheme ++ separator ++ (authority ++ rest))
              = .ok (addressOf scheme authority rest)
            ↔ authority ≠ [] ∨ rest = []))
      ∧ (Undelimited authority
        → authority.getLast? ≠ some ':'
        → Delimited rest
        → (parseUrl (authority ++ rest) = .ok (addressOf "http".toList authority rest)
            ↔ authority ≠ [] ∧ ¬ separator <:+: rest))
      ∧ (parseUrl text = .ok url
        → Behind text before remainder
        → (Undelimited url.host
            ↔ ∀ character ∈ remainder.head?, isDelimiter character = false)) := by
  refine ⟨?_, ?_, ?_⟩
  · intro scheme_end undelimited delimited
    exact parsed_with_scheme_iff scheme_end undelimited delimited
  · intro undelimited last delimited
    exact parsed_without_scheme_iff undelimited last delimited
  · intro parsed behind
    exact behind.host_undelimited_iff parsed

/-- A query with another URL in it, behind a scheme. -/
theorem grammar_followed_query
    : parseUrl "https://h:8443?u=http://x".toList
        = .ok {
          scheme := "https".toList
          host := "h".toList
          port := "8443".toList
          path := "/?u=http://x".toList
        } :=
  ((grammar_followed "https".toList "h:8443".toList "?u=http://x".toList [] [] [] {}).1 (by decide)
    (by decide) (by decide)).mpr (.inl (by decide))

/-- The same without a scheme: what stands in front of the separator of the query is taken
for one. And a host with delimiters, where the authority is empty.
-/
theorem grammar_left
    : ¬ (∀ authority rest,
        authority ≠ []
        → Undelimited authority
        → authority.getLast? ≠ some ':'
        → Delimited rest
        → parseUrl (authority ++ rest) = .ok (addressOf "http".toList authority rest))
      ∧ ¬ ∀ text url, parseUrl text = .ok url → Undelimited url.host := by
  constructor
  · intro follows
    have parsed := follows "h".toList "/?u=http://x".toList (by decide) (by decide) (by decide)
      (by decide)
    have scheme : parseUrl "h/?u=http://x".toList
        = .ok {
          scheme := "h/?u=http".toList
          host := "x".toList
          port := "80".toList
          path := "/".toList
        } := by
      decide +kernel
    have same := congrArg Url.scheme (Except.ok.inj (parsed.symm.trans scheme))
    exact absurd same (by decide)
  · intro follows
    have undelimited := follows "http:///f".toList
      { scheme := "http".toList, host := "/f".toList, port := "80".toList, path := "/".toList }
      (by decide +kernel)
    exact absurd undelimited (by decide)

end Grammar

end Muld
