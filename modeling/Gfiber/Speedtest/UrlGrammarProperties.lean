import Gfiber.Speedtest.UrlProperties

/-! The language of the parser beside the grammar of RFC 3986. The sets differ in
four characters, and these alone decide which texts of the one are refused or
which texts outside of it are accepted. -/

set_option autoImplicit false

namespace Gfiber.Speedtest

open Lib

section CharacterSets

def rfcUnreserved (ch : Byte) : Bool :=
  isalnum ch || (bytesOf "-._~").contains ch

def rfcSubDelim (ch : Byte) : Bool :=
  (bytesOf "!$&'()*+,;=").contains ch

/-- Without percent-encoding. -/
def rfcPchar (ch : Byte) : Bool :=
  rfcUnreserved ch || rfcSubDelim ch || ch = ascii ':' || ch = ascii '@'

def rfcQuery (ch : Byte) : Bool :=
  rfcPchar ch || ch = ascii '/' || ch = ascii '?'

/-- The characters that the parser leaves out of its sets. -/
def missed : List Byte :=
  bytesOf "_~'"

def backtick : Byte :=
  ascii (Char.ofNat 96)

theorem isPchar_iff {ch : Byte} :
    isPchar ch ↔ rfcPchar ch ∧ ch ∉ missed ∨ ch = backtick := by
  revert ch
  decide +kernel

theorem isQuery_iff {ch : Byte} :
    isQuery ch ↔ rfcQuery ch ∧ ch ∉ missed ∨ ch = backtick := by
  have slash : ch = ascii '/' → ch ∉ missed := by
    rintro rfl
    decide
  have question : ch = ascii '?' → ch ∉ missed := by
    rintro rfl
    decide
  simp only [isQuery, rfcQuery, Bool.or_eq_true, decide_eq_true_eq, isPchar_iff]
  tauto

end CharacterSets

section Composing

/-- Segments that are not empty, each after a slash, and perhaps a slash at the end. -/
inductive Slashed (inside : Byte → Bool) : List Byte → Prop where
  | empty : Slashed inside []
  | slash : Slashed inside [ascii '/']
  | segment {text rest : List Byte} (some_char : text ≠ []) (all : ∀ ch ∈ text, inside ch)
      (after : Slashed inside rest) : Slashed inside (ascii '/' :: (text ++ rest))

/-- The parts that an absolute URL is composed of. -/
structure Components where
  scheme : List Byte
  host : List Byte
  port : Option Int
  path : List Byte
  query : Option (List Byte)
  fragment : Option (List Byte)

inductive HostName : List Byte → Prop where
  | name {text : List Byte} (some_char : text ≠ []) (all : ∀ ch ∈ text, rfcUnreserved ch) :
      HostName text
  | address {text : List Byte} (all : ∀ ch ∈ text, addressChar ch) :
      HostName (ascii '[' :: (text ++ [ascii ']']))

structure Components.Valid (parts : Components) : Prop where
  scheme : SchemeText parts.scheme
  host : HostName parts.host
  port : ∀ portnum ∈ parts.port, 1 ≤ portnum ∧ portnum ≤ 65535
  path : Slashed rfcPchar parts.path
  query : ∀ ch ∈ parts.query.getD [], rfcQuery ch
  fragment : ∀ ch ∈ parts.fragment.getD [], rfcQuery ch

/-- The composed text. -/
def Components.text (parts : Components) : List Byte :=
  parts.scheme ++ bytesOf "://" ++ parts.host ++ written ':' (parts.port.map printInt) ++
    parts.path ++ written '?' parts.query ++ written '#' parts.fragment

/-- The components with the default port and the default path filled in. -/
def Components.url (parts : Components) : Url where
  absolute := true
  scheme := parts.scheme
  host := parts.host
  port := parts.port.getD (defaultPort parts.scheme)
  path := if parts.path = [] then bytesOf "/" else parts.path
  queryString := parts.query.getD []
  fragment := parts.fragment.getD []

/-- No character of the path, the query or the fragment is left out by the parser. -/
def Components.Plain (parts : Components) : Prop :=
  (∀ ch ∈ parts.path, ch ∉ missed) ∧ (∀ ch ∈ parts.query.getD [], ch ∉ missed) ∧
    ∀ ch ∈ parts.fragment.getD [], ch ∉ missed

theorem pathText_segment {text rest : List Byte} (all : ∀ ch ∈ text, isPchar ch)
    (after : PathText .leadingSlash rest) : PathText .pchar (text ++ rest) := by
  induction text with
  | nil =>
      cases rest with
      | nil => trivial
      | cons ch rest => exact .inl after
  | cons ch text ih =>
      obtain ⟨here, later⟩ := List.forall_mem_cons.mp all
      have other : ch ≠ ascii '/' := by
        intro same
        rw [same] at here
        exact absurd here (by decide)
      exact .inr ⟨other, here, ih later⟩

theorem Slashed.pathText {path : List Byte} (slashed : Slashed rfcPchar path)
    (plain : ∀ ch ∈ path, ch ∉ missed) : PathText .leadingSlash path := by
  induction slashed with
  | empty => exact .empty .leadingSlash
  | slash => exact ⟨rfl, .empty .slash⟩
  | @segment text rest some_char all after ih =>
      have inside : ∀ ch ∈ text, isPchar ch := fun ch member =>
        isPchar_iff.mpr (.inl ⟨all ch member, plain ch (by simp [member])⟩)
      obtain ⟨first, others, rfl⟩ := List.exists_cons_of_ne_nil some_char
      obtain ⟨here, later⟩ := List.forall_mem_cons.mp inside
      exact ⟨rfl, here, pathText_segment later (ih fun ch member => plain ch (by simp [member]))⟩

theorem PathText.inside {state : PathState} {text : List Byte} (valid : PathText state text) :
    ∀ ch ∈ text, isPchar ch ∨ ch = ascii '/' := by
  induction text generalizing state with
  | nil => simp
  | cons ch text ih =>
      rw [List.forall_mem_cons]
      cases state with
      | leadingSlash => exact ⟨.inr valid.1, ih valid.2⟩
      | slash => exact ⟨.inl valid.1, ih valid.2⟩
      | pchar =>
          rcases valid with ⟨slash, later⟩ | ⟨_, here, later⟩
          · exact ⟨.inr slash, ih later⟩
          · exact ⟨.inl here, ih later⟩

theorem HostName.hostText {host : List Byte} (valid : HostName host) : HostText host := by
  cases valid with
  | name some_char all =>
      exact .name some_char fun ch member => not_isReserved (by decide) (all ch member)
  | address all => exact .ipv6 all

/-- The front and the rest of the composed text. -/
def Components.front (parts : Components) : Front :=
  ⟨some parts.scheme, parts.host, parts.port.map printInt⟩

def Components.rest (parts : Components) : Rest :=
  ⟨parts.path, parts.query, parts.fragment⟩

theorem Components.text_eq (parts : Components) :
    parts.text = parts.front.text ++ parts.rest.text := by
  simp only [Components.text, Front.text, Front.schemeText, Components.front, Rest.text,
    Components.rest, List.append_assoc]

theorem Components.Valid.front_valid {parts : Components} (valid : parts.Valid) :
    parts.front.Valid where
  scheme := by
    rintro text ⟨⟩
    exact valid.scheme
  host := valid.host.hostText
  port := by
    intro digits member
    obtain ⟨portnum, found, rfl⟩ := Option.mem_map.mp member
    exact (portDigits_printInt (valid.port portnum found)).1

theorem Components.Valid.url_eq {parts : Components} (valid : parts.Valid) :
    parts.url = parts.rest.fill parts.front.url := by
  have port : parts.front.url.port = parts.port.getD (defaultPort parts.scheme) := by
    cases given : parts.port with
    | none => simp [Front.url, Components.front, given]
    | some portnum =>
        have number := (portDigits_printInt (valid.port portnum given)).2
        simp only [Front.url, Components.front, given, Option.map_some, Option.getD_some, number]
  simp only [Components.url, Rest.fill, port, Components.rest]
  simp [Front.url, Components.front]

theorem parse_inside {text : List Byte} {url : Url} (read : parse text = some url) :
    (∀ ch ∈ url.path, isPchar ch ∨ ch = ascii '/') ∧ (∀ ch ∈ url.queryString, isQuery ch) ∧
      ∀ ch ∈ url.fragment, isQuery ch := by
  have filled : ∀ (rest : Rest) (authority : Url), rest.Valid →
      (∀ ch ∈ (rest.fill authority).path, isPchar ch ∨ ch = ascii '/') ∧
        (∀ ch ∈ (rest.fill authority).queryString, isQuery ch) ∧
        ∀ ch ∈ (rest.fill authority).fragment, isQuery ch := by
    intro rest authority valid
    refine ⟨?_, valid.query, valid.fragment⟩
    rw [Rest.fill]
    dsimp only
    split
    case isTrue => decide
    case isFalse => exact valid.path.inside
  rcases parse_iff.mp read with ⟨rest, valid, _, rfl⟩ | ⟨front, rest, _, valid, _, rfl⟩
  · exact filled rest relative valid
  · exact filled rest front.url valid

theorem not_missed_of_isPchar {ch : Byte} (inside : isPchar ch ∨ ch = ascii '/') :
    ch ∉ missed := by
  cases inside with
  | inl pchar =>
      rcases isPchar_iff.mp pchar with ⟨_, outside⟩ | rfl
      · exact outside
      · decide
  | inr slash =>
      rw [slash]
      decide

theorem not_missed_of_isQuery {ch : Byte} (inside : isQuery ch) : ch ∉ missed := by
  rcases isQuery_iff.mp inside with ⟨_, outside⟩ | rfl
  · exact outside
  · decide

/-- The composed text is parsed to its components exactly when it is plain. -/
theorem parse_text_iff {parts : Components} (valid : parts.Valid) :
    parse parts.text = some parts.url ↔ parts.Plain := by
  constructor
  · intro read
    obtain ⟨path, query, mark⟩ := parse_inside read
    refine ⟨fun ch member => ?_, fun ch member => not_missed_of_isQuery (query ch member),
      fun ch member => not_missed_of_isQuery (mark ch member)⟩
    have rooted : parts.url.path = parts.path := by
      rw [Components.url]
      exact if_neg (List.ne_nil_of_mem member)
    rw [rooted] at path
    exact not_missed_of_isPchar (path ch member)
  · rintro ⟨path, query, mark⟩
    have restValid : parts.rest.Valid := by
      refine ⟨valid.path.pathText path, fun ch member => ?_, fun ch member => ?_⟩
      · exact isQuery_iff.mpr (.inl ⟨valid.query ch member, query ch member⟩)
      · exact isQuery_iff.mpr (.inl ⟨valid.fragment ch member, mark ch member⟩)
    rw [parts.text_eq, valid.url_eq]
    exact parse_front valid.front_valid restValid

end Composing

section Splitting

/-- What comes after a scheme, if there is one. -/
def beyondScheme (text : List Byte) : List Byte :=
  let rest := text.dropWhile schemeChar
  if text.head?.any isalpha && (bytesOf "://").isPrefixOf rest then rest.drop 3 else text

/-- What comes after the scheme and the authority. -/
def beyondAuthority (text : List Byte) : List Byte :=
  (beyondScheme text).dropWhile fun ch => !(bytesOf "/?#").contains ch

/-- The path, the query and the fragment of any text. -/
def restOf (text : List Byte) : Rest :=
  let rest := beyondAuthority text
  let marked := rest.dropWhile fun ch => !(bytesOf "?#").contains ch
  { path := rest.takeWhile fun ch => !(bytesOf "?#").contains ch
    query :=
      if marked.head? = some (ascii '?') then some (marked.tail.takeWhile fun ch => ch ≠ ascii '#')
      else none
    fragment :=
      match marked.dropWhile fun ch => ch ≠ ascii '#' with
      | [] => none
      | _ :: text => some text }

/-- Some character of the path, the query or the fragment is outside of the sets. -/
def Outside (text : List Byte) : Prop :=
  (∃ ch ∈ (restOf text).path, (rfcPchar ch || ch = ascii '/') = false) ∨
    (∃ ch ∈ (restOf text).query.getD [], rfcQuery ch = false) ∨
    ∃ ch ∈ (restOf text).fragment.getD [], rfcQuery ch = false

def Rest.HasBacktick (rest : Rest) : Prop :=
  backtick ∈ rest.path ∨ backtick ∈ rest.query.getD [] ∨ backtick ∈ rest.fragment.getD []

/-- A URL with a backtick after its authority that is well formed but for that. -/
def Backticked (text : List Byte) : Prop :=
  (∃ rest : Rest, rest.Valid ∧ rest.HasBacktick ∧ text = rest.text) ∨
    ∃ (front : Front) (rest : Rest), front.Valid ∧ rest.Valid ∧ rest.HasBacktick ∧
      text = front.text ++ rest.text

theorem beyondScheme_schemed {scheme : List Byte} (valid : SchemeText scheme) (rest : List Byte) :
    beyondScheme (scheme ++ (bytesOf "://" ++ rest)) = rest := by
  obtain ⟨first, others, rfl, alpha, all⟩ := valid.alpha
  have inside : ∀ ch ∈ first :: others, schemeChar ch := by
    refine List.forall_mem_cons.mpr ⟨?_, all⟩
    simp only [schemeChar, isalnum, alpha, Bool.true_or]
  have colon : Stops schemeChar (bytesOf "://" ++ rest) := by
    intro ch first
    cases first
    decide
  rw [beyondScheme, (colon.split inside).2]
  simp only [List.cons_append, List.head?_cons, Option.any_some, alpha, Bool.true_and]
  rw [if_pos (by simp)]
  rfl

theorem beyondScheme_plain {text : List Byte}
    (other : ∀ scheme, SchemeText scheme → ∀ after, text ≠ scheme ++ (bytesOf "://" ++ after)) :
    beyondScheme text = text := by
  rw [beyondScheme]
  refine if_neg fun schemed => ?_
  rw [Bool.and_eq_true] at schemed
  obtain ⟨alpha, colon⟩ := schemed
  obtain ⟨after, rest⟩ := List.isPrefixOf_iff_prefix.mp colon
  cases text with
  | nil => cases alpha
  | cons first others =>
      rw [List.head?_cons, Option.any_some] at alpha
      have start : schemeChar first := by
        simp only [schemeChar, isalnum, alpha, Bool.true_or]
      have scheme : SchemeText ((first :: others).takeWhile schemeChar) := by
        refine ⟨first, others.takeWhile schemeChar, ?_, alpha, fun ch member => ?_⟩
        · rw [List.takeWhile_cons_of_pos start]
        · exact List.mem_takeWhile_imp member
      refine other _ scheme after ?_
      rw [rest, List.takeWhile_append_dropWhile]

/-- The rest of a text is found behind the authority, whatever it holds. -/
theorem restOf_eq {text authority : List Byte} {rest : Rest}
    (scheme : beyondScheme text = authority ++ rest.text)
    (plain : ∀ ch ∈ authority, ch ∉ bytesOf "/?#")
    (valid : rest.Valid) : restOf text = rest := by
  have slash : Stops (fun ch => !(bytesOf "/?#").contains ch) rest.text := valid.stops (by decide)
  have beyond : beyondAuthority text = rest.text := by
    rw [beyondAuthority, scheme]
    refine (slash.split fun ch member => ?_).2
    simpa using plain ch member
  have question : Stops (fun ch => !(bytesOf "?#").contains ch)
      (written '?' rest.query ++ written '#' rest.fragment) :=
    (written_stops (by decide) _).append (written_stops (by decide) _)
  have inside : ∀ ch ∈ rest.path, !(bytesOf "?#").contains ch := by
    have marks : ∀ ch ∈ bytesOf "?#", ¬(isPchar ch ∨ ch = ascii '/') := by decide
    intro ch member
    have other : ch ∉ bytesOf "?#" := fun mark => marks ch mark (valid.path.inside ch member)
    simpa using other
  have hash : Stops (fun ch => ch ≠ ascii '#') (written '#' rest.fragment) :=
    written_stops (by decide) _
  have unmarked : ∀ ch ∈ rest.query.getD [], (decide (ch ≠ ascii '#')) = true := by
    have query : ∀ ch : Byte, isQuery ch → (decide (ch ≠ ascii '#')) = true := by
      rintro ch inside
      refine decide_eq_true ?_
      rintro rfl
      exact absurd inside (by decide)
    exact fun ch member => query ch (valid.query ch member)
  rw [Rest.text] at beyond
  rw [restOf, beyond, (question.split inside).1, (question.split inside).2]
  obtain ⟨path, query, mark⟩ := rest
  cases query with
  | none =>
      cases mark with
      | none => rfl
      | some text =>
          have other : ascii '#' ≠ ascii '?' := by decide
          simp [written, other]
  | some query =>
      have marked : written '?' (some query) = ascii '?' :: query := rfl
      have other : (decide (ascii '?' ≠ ascii '#')) = true := by decide
      obtain ⟨taken, dropped⟩ := hash.split unmarked
      simp only [Option.getD_some] at taken dropped
      simp only [marked, List.cons_append, List.head?_cons, if_true, List.tail_cons, taken,
        List.dropWhile_cons, other, dropped]
      cases mark with
      | none => rfl
      | some text => rfl

theorem Front.Valid.plain {front : Front} (valid : front.Valid) :
    ∀ ch ∈ front.host ++ written ':' front.port, ch ∉ bytesOf "/?#" := by
  intro ch member
  rcases List.mem_append.mp member with host | port
  · have marks : ∀ ch ∈ bytesOf "/?#", ¬(addressChar ch ∨ ch = ascii '[' ∨ ch = ascii ']' ∨
        isReserved ch = false) := by decide
    have inside : ∀ ch : Byte, addressChar ch ∨ ch = ascii '[' ∨ ch = ascii ']' ∨
        isReserved ch = false → ch ∉ bytesOf "/?#" := fun ch inside mark => marks ch mark inside
    have hostValid := valid.host
    generalize front.host = text at hostValid host
    cases hostValid with
    | ipv6 address =>
        rcases List.mem_cons.mp host with bracket | host
        · exact inside ch (.inr (.inl bracket))
        · rcases List.mem_append.mp host with member | bracket
          · exact inside ch (.inl (address ch member))
          · exact inside ch (.inr (.inr (.inl (List.mem_singleton.mp bracket))))
    | name some_char plain => exact inside ch (.inr (.inr (.inr (plain ch host))))
  · cases given : front.port with
    | none => simp [given, written] at port
    | some digits =>
        have marks : ∀ ch ∈ bytesOf "/?#", ¬(isdigit ch ∨ ch = ascii ':') := by decide
        have digit : ∀ ch : Byte, isdigit ch ∨ ch = ascii ':' → ch ∉ bytesOf "/?#" :=
          fun ch inside mark => marks ch mark inside
        rw [given] at port
        rcases List.mem_cons.mp port with colon | inside
        · exact digit ch (.inr colon)
        · exact digit ch (.inl ((valid.port digits given).all_digits ch inside))

theorem restOf_text {rest : Rest} (valid : rest.Valid) : restOf rest.text = rest := by
  have plain : beyondScheme rest.text = [] ++ rest.text := beyondScheme_plain ?_
  · exact restOf_eq plain (by simp) valid
  rintro scheme ⟨first, others, rfl, alpha, _⟩ after whole
  have letter : Stops isalpha rest.text := valid.stops (by decide)
  rw [whole] at letter
  rw [letter first rfl] at alpha
  cases alpha

theorem restOf_front {front : Front} (valid : front.Valid) {rest : Rest} (restValid : rest.Valid) :
    restOf (front.text ++ rest.text) = rest := by
  refine restOf_eq ?_ valid.plain restValid
  rw [Front.text, Front.schemeText, List.append_assoc, List.append_assoc]
  cases given : front.scheme with
  | none =>
      refine beyondScheme_plain fun scheme schemeValid after => ?_
      exact valid.ne_scheme restValid schemeValid after
  | some scheme =>
      rw [List.append_assoc]
      exact beyondScheme_schemed (valid.scheme scheme given) _

theorem backtick_of_outside {text : List Byte} (outside : Outside text)
    (valid : (restOf text).Valid) : (restOf text).HasBacktick := by
  have slipped : ∀ ch : Byte, isPchar ch ∨ ch = ascii '/' →
      (rfcPchar ch || ch = ascii '/') = false → ch = backtick := by
    intro ch inside bad
    rw [Bool.or_eq_false_iff, decide_eq_false_iff_not] at bad
    rcases isPchar_iff.mp (inside.resolve_right bad.2) with ⟨pchar, _⟩ | slip
    · exact absurd pchar (by simp [bad.1])
    · exact slip
  have query : ∀ ch : Byte, isQuery ch → rfcQuery ch = false → ch = backtick := by
    intro ch inside bad
    rcases isQuery_iff.mp inside with ⟨query, _⟩ | slip
    · exact absurd query (by simp [bad])
    · exact slip
  rcases outside with ⟨ch, member, bad⟩ | ⟨ch, member, bad⟩ | ⟨ch, member, bad⟩
  · exact .inl (slipped ch (valid.path.inside ch member) bad ▸ member)
  · exact .inr (.inl (query ch (valid.query ch member) bad ▸ member))
  · exact .inr (.inr (query ch (valid.fragment ch member) bad ▸ member))

theorem outside_of_backtick {text : List Byte} (slip : (restOf text).HasBacktick) :
    Outside text := by
  rcases slip with path | query | mark
  · exact .inl ⟨backtick, path, by decide⟩
  · exact .inr (.inl ⟨backtick, query, by decide⟩)
  · exact .inr (.inr ⟨backtick, mark, by decide⟩)

/-- A text with a character outside of the sets is refused exactly when it is no
URL that only a backtick spoils. -/
theorem refused_iff {text : List Byte} :
    (Outside text → parse text = none) ↔ ¬ Backticked text := by
  constructor
  · intro refused backticked
    have accepted : ∃ url, parse text = some url ∧ (restOf text).HasBacktick := by
      rcases backticked with ⟨rest, valid, slip, rfl⟩ | ⟨front, rest, valid, restValid, slip, rfl⟩
      · exact ⟨_, parse_rest valid, by rwa [restOf_text valid]⟩
      · exact ⟨_, parse_front valid restValid, by rwa [restOf_front valid restValid]⟩
    obtain ⟨url, read, slip⟩ := accepted
    rw [refused (outside_of_backtick slip)] at read
    cases read
  · intro clean outside
    cases read : parse text with
    | none => rfl
    | some url =>
        refine absurd ?_ clean
        rcases parse_iff.mp read with ⟨rest, valid, rfl, _⟩ | ⟨front, rest, valid, restValid, rfl, _⟩
        · have same := restOf_text valid
          have slip := backtick_of_outside outside (same.symm ▸ valid)
          exact .inl ⟨rest, valid, same ▸ slip, rfl⟩
        · have same := restOf_front valid restValid
          have slip := backtick_of_outside outside (same.symm ▸ restValid)
          exact .inr ⟨front, rest, valid, restValid, same ▸ slip, rfl⟩

end Splitting

section Grammar

/-- What is composed of the parts that the grammar asks for is parsed to them
unless one of the missed characters is in it, and a character outside of the sets
is refused unless it is a backtick in an otherwise proper URL. -/
theorem parse_grammar_iff (parts : Components) (text : List Byte) :
    (parts.Valid → (parse parts.text = some parts.url ↔ parts.Plain)) ∧
    ((Outside text → parse text = none) ↔ ¬ Backticked text) :=
  ⟨fun valid => parse_text_iff valid, refused_iff⟩

/-- A path with an underscore, which the sets of the parser miss. -/
def underscored : Components :=
  ⟨bytesOf "http", bytesOf "gfiber.com", none, bytesOf "/speed_test", none, none⟩

theorem underscored_valid : underscored.Valid where
  scheme := ⟨ascii 'h', bytesOf "ttp", by decide, by decide, by decide⟩
  host := .name (by decide) (by decide)
  port := by simp [underscored]
  path := @Slashed.segment _ (bytesOf "speed_test") [] (by decide) (by decide) .empty
  query := by simp [underscored]
  fragment := by simp [underscored]

/-- A proper URL is refused, and a text with a character outside of the sets is accepted. -/
theorem grammar_slips :
    underscored.Valid ∧ parse underscored.text = none ∧
      Outside (bytesOf "http://gfiber.com/`") ∧ (parse (bytesOf "http://gfiber.com/`")).isSome :=
  ⟨underscored_valid, by decide, .inl ⟨backtick, by decide, by decide⟩, by decide⟩

/-- A scheme with a default port, an address, an empty path and a query. -/
theorem parse_grammar_address :
    let parts : Components :=
      ⟨bytesOf "https", bytesOf "[::1]", none, [], some (bytesOf "a=b"), none⟩
    parse (bytesOf "https://[::1]?a=b") = some parts.url := by
  intro parts
  have valid : parts.Valid := by
    refine ⟨⟨ascii 'h', bytesOf "ttps", by decide, by decide, by decide⟩, ?_, by simp [parts],
      .empty, by decide, by decide⟩
    exact @HostName.address (bytesOf "::1") (by decide)
  exact ((parse_grammar_iff parts []).1 valid).mpr ⟨by simp [parts], by decide, by decide⟩

end Grammar

end Gfiber.Speedtest
