import Gfiber.Speedtest.UrlPartsProperties

/-! The texts that are parsed are those of a grammar, and what a parsed URL
prints is such a text. -/

set_option autoImplicit false

namespace Gfiber.Speedtest

open Lib

section Rests

/-- What stands after the authority. -/
structure Rest where
  path : List Byte
  query : Option (List Byte)
  fragment : Option (List Byte)

structure Rest.Valid (rest : Rest) : Prop where
  path : PathText .leadingSlash rest.path
  query : ∀ ch ∈ rest.query.getD [], isQuery ch
  fragment : ∀ ch ∈ rest.fragment.getD [], isFragment ch

def Rest.text (rest : Rest) : List Byte :=
  rest.path ++ (written '?' rest.query ++ written '#' rest.fragment)

/-- The URL with the parts after its authority. -/
def Rest.fill (rest : Rest) (authority : Url) : Url :=
  { authority with
    path := if authority.absolute ∧ rest.path = [] then bytesOf "/" else rest.path
    queryString := rest.query.getD []
    fragment := rest.fragment.getD [] }

theorem Rest.Valid.stops {rest : Rest} (valid : rest.Valid) {inside : Byte → Bool}
    (outside : ∀ ch ∈ bytesOf "/?#", inside ch = false) : Stops inside rest.text := by
  have slash : Stops inside rest.path := by
    have path := valid.path
    intro ch first
    cases text : rest.path with
    | nil => simp [text] at first
    | cons other others =>
        rw [text] at path first
        cases first
        rw [path.1]
        exact outside (ascii '/') (by decide)
  have question := written_stops (outside (ascii '?') (by decide)) rest.query
  have hash := written_stops (outside (ascii '#') (by decide)) rest.fragment
  exact slash.append (question.append hash)

theorem parseRest_complete {rest : Rest} (valid : rest.Valid) (authority : Url) :
    parseRest authority rest.text = some (rest.fill authority) := by
  have question : Stops (fun ch => isPchar ch || ch = ascii '/')
      (written '?' rest.query ++ written '#' rest.fragment) :=
    (written_stops (by decide) _).append (written_stops (by decide) _)
  have hash : Stops (fun ch => isQuery ch || ch = ascii '?') (written '#' rest.fragment) :=
    written_stops (by decide) _
  have last : Stops (fun ch => isFragment ch || ch = ascii '#') [] := by simp [Stops]
  have pathPart := absolutePath_complete valid.path question
  have queryPart := written_complete valid.query hash
  have fragmentPart := written_complete valid.fragment last
  rw [List.append_nil] at fragmentPart
  rw [parseRest, Rest.text, pathPart]
  dsimp only
  rw [queryString, queryPart]
  dsimp only
  rw [fragment, fragmentPart]
  dsimp only
  rw [if_neg (by simp)]
  rfl

theorem parseRest_sound {authority url : Url} {current : List Byte}
    (read : parseRest authority current = some url) :
    ∃ rest : Rest, rest.Valid ∧ current = rest.text ∧ url = rest.fill authority := by
  rw [parseRest] at read
  dsimp only at read
  obtain ⟨path, pathWhole⟩ := absolutePath_sound current
  generalize orElse (absolutePath current) [] current = pathPart at read path pathWhole
  obtain ⟨query, queryPart, inQuery, queryWhole⟩ := marked_sound '?' isQuery pathPart.2
  rw [← queryString] at queryPart queryWhole
  generalize orElse (queryString pathPart.2) [] pathPart.2 = queryRead
    at read queryPart queryWhole
  obtain ⟨mark, fragmentPart, inFragment, fragmentWhole⟩ := marked_sound '#' isFragment queryRead.2
  rw [← fragment] at fragmentPart fragmentWhole
  generalize orElse (fragment queryRead.2) [] queryRead.2 = fragmentRead
    at read fragmentPart fragmentWhole
  split at read
  case isTrue => cases read
  case isFalse ended =>
    cases read
    refine ⟨⟨pathPart.1, query, mark⟩, ⟨path, inQuery, inFragment⟩, ?_, ?_⟩
    · rw [pathWhole, queryWhole, fragmentWhole, Decidable.not_not.mp ended, List.append_nil]
      rfl
    · rw [Rest.fill, queryPart, fragmentPart]

end Rests

section Urls

/-- The scheme, the host and the port, as they stand in the text. -/
structure Front where
  scheme : Option (List Byte)
  host : List Byte
  port : Option (List Byte)

structure Front.Valid (front : Front) : Prop where
  scheme : ∀ text ∈ front.scheme, SchemeText text
  host : HostText front.host
  port : ∀ digits ∈ front.port, PortDigits digits

def Front.schemeText (front : Front) : List Byte :=
  match front.scheme with
  | none => []
  | some text => text ++ bytesOf "://"

def Front.text (front : Front) : List Byte :=
  front.schemeText ++ (front.host ++ written ':' front.port)

def Front.url (front : Front) : Url :=
  let scheme := front.scheme.getD kDefaultScheme
  ⟨true, scheme, front.host, (front.port.map fun digits => (decimal digits : Int)).getD
    (defaultPort scheme), [], [], []⟩

def relative : Url :=
  ⟨false, [], [], 0, [], [], []⟩

theorem schemeText_default : SchemeText kDefaultScheme :=
  ⟨ascii 'h', bytesOf "ttp", by decide, by decide, by decide⟩

/-- The port is read up to what stands after it, also when it is not there. -/
theorem orElse_port {part : Option (List Byte)} (valid : ∀ digits ∈ part, PortDigits digits)
    {rest : List Byte} (digit : Stops isdigit rest) (colon : Stops (fun ch => ch = ascii ':') rest)
    (default : Int) :
    orElse (port (written ':' part ++ rest)) default (written ':' part ++ rest) =
      ((part.map fun digits => (decimal digits : Int)).getD default, rest) := by
  cases part with
  | none =>
      have unread : port rest = none := by
        cases rest with
        | nil => rfl
        | cons ch rest => exact port_of_ne (by simpa using colon ch rfl) rest
      rw [written, List.nil_append, unread]
      rfl
  | some digits =>
      rw [written, List.cons_append, port_complete (valid digits rfl) digit]
      rfl

theorem not_isReserved {inside : Byte → Bool}
    (other : ∀ ch ∈ bytesOf ":/?#[]@" ++ bytesOf "!$&`()*+,;=", inside ch = false) {ch : Byte}
    (member : inside ch) : isReserved ch = false := by
  cases reserved : isReserved ch with
  | false => rfl
  | true =>
      have found : ch ∈ bytesOf ":/?#[]@" ++ bytesOf "!$&`()*+,;=" := by
        simpa [isReserved, isGenDelim, isSubDelim] using reserved
      rw [other ch found] at member
      cases member

/-- A host without a scheme before it is not taken for a scheme. -/
theorem host_ne_scheme {host : List Byte} (valid : HostText host) {rest : List Byte}
    (stops : Stops (fun ch => !isReserved ch) rest)
    (other : ∀ after, rest ≠ bytesOf "://" ++ after) {text : List Byte} (scheme : SchemeText text)
    (after : List Byte) : host ++ rest ≠ text ++ (bytesOf "://" ++ after) := by
  intro whole
  obtain ⟨first, others, rfl, alpha, all⟩ := scheme
  have plain : ∀ ch ∈ first :: others, !isReserved ch := by
    have unreserved : ∀ ch, schemeChar ch → !isReserved ch := by
      intro ch inside
      rw [not_isReserved (by decide) inside]
      rfl
    have alphanumeric : schemeChar first := by simp [schemeChar, isalnum, alpha]
    exact List.forall_mem_cons.mpr ⟨unreserved first alphanumeric,
      fun ch member => unreserved ch (all ch member)⟩
  cases valid with
  | ipv6 inside =>
      have bracket : ascii '[' = first := (List.cons.inj whole).1
      rw [← bracket] at alpha
      exact absurd alpha (by decide)
  | name some_char outside =>
      have name : ∀ ch ∈ host, !isReserved ch := fun ch member => by
        rw [outside ch member]
        rfl
      have colon : Stops (fun ch => !isReserved ch) (bytesOf "://" ++ after) := by
        intro ch first
        cases first
        decide
      have dropped := (stops.split name).2
      rw [whole, (colon.split plain).2] at dropped
      exact other after dropped.symm

theorem Rest.Valid.portStops {rest : Rest} (valid : rest.Valid) (port : Option (List Byte)) :
    Stops (fun ch => !isReserved ch) (written ':' port ++ rest.text) :=
  (written_stops (by decide) port).append (valid.stops (by decide))

theorem Front.Valid.ne_scheme {front : Front} (valid : front.Valid) {rest : Rest}
    (restValid : rest.Valid) {text : List Byte} (scheme : SchemeText text) (after : List Byte) :
    front.host ++ (written ':' front.port ++ rest.text) ≠ text ++ (bytesOf "://" ++ after) := by
  refine host_ne_scheme valid.host (restValid.portStops front.port) (fun after same => ?_)
    scheme after
  cases port : front.port with
  | none =>
      have colon : Stops (fun ch => ch = ascii ':') rest.text := restValid.stops (by decide)
      rw [port, written, List.nil_append] at same
      rw [same] at colon
      exact absurd (colon (ascii ':') rfl) (by decide)
  | some digits =>
      obtain ⟨some_digit, all, _⟩ := valid.port digits port
      obtain ⟨first, others, rfl⟩ := List.exists_cons_of_ne_nil some_digit
      rw [port] at same
      have slash : first = ascii '/' := (List.cons.inj (List.cons.inj same).2).1
      have digit := all first List.mem_cons_self
      rw [slash] at digit
      exact absurd digit (by decide)

theorem Front.Valid.scheme_none {front : Front} (valid : front.Valid) {rest : Rest}
    (restValid : rest.Valid) :
    Speedtest.scheme (front.host ++ (written ':' front.port ++ rest.text)) = none := by
  cases read : Speedtest.scheme (front.host ++ (written ':' front.port ++ rest.text)) with
  | none => rfl
  | some part =>
      obtain ⟨scheme, whole⟩ := scheme_sound read
      exact absurd whole (valid.ne_scheme restValid scheme part.2)

theorem parse_front {front : Front} (valid : front.Valid) {rest : Rest} (restValid : rest.Valid) :
    parse (front.text ++ rest.text) = some (rest.fill front.url) := by
  have hostRead := authority_complete valid.host (restValid.portStops front.port)
  have portRead := orElse_port valid.port (restValid.stops (by decide))
    (restValid.stops (by decide))
  have authority := parseRest_complete restValid front.url
  rw [Front.text, Front.schemeText, parse]
  cases text : front.scheme with
  | none =>
      have unread := valid.scheme_none restValid
      simp only [List.nil_append, List.append_assoc, unread, Option.map_none, Option.getD_none,
        hostRead, portRead]
      simpa only [Front.url, text, Option.getD_none] using authority
  | some scheme =>
      have some_char := List.append_ne_nil_of_left_ne_nil valid.host.ne_nil
        (written ':' front.port ++ rest.text)
      have schemeRead := scheme_complete (valid.scheme scheme text) some_char
      simp only [List.append_assoc, schemeRead, Option.map_some, Option.getD_some, hostRead,
        portRead]
      simpa only [Front.url, text, Option.getD_some] using authority

theorem parse_rest {rest : Rest} (valid : rest.Valid) :
    parse rest.text = some (rest.fill relative) := by
  have letter : Stops isalpha rest.text := valid.stops (by decide)
  have square : Stops (fun ch => ch = ascii '[') rest.text := valid.stops (by decide)
  have name : Stops (fun ch => !isReserved ch) rest.text := valid.stops (by decide)
  have unread : scheme rest.text = none ∧ ipv6 rest.text = none ∧ host rest.text = none := by
    cases text : rest.text with
    | nil => exact ⟨rfl, rfl, rfl⟩
    | cons ch others =>
        rw [text] at letter square name
        have outside : isalpha ch = false := letter ch rfl
        have reserved : isReserved ch = true := by simpa using name ch rfl
        refine ⟨?_, ipv6_of_ne (by simpa using square ch rfl) others, ?_⟩
        · simp [scheme, schemeFrom, outside]
        · simp [host, reserved]
  rw [parse, unread.1, Option.map_none, Option.getD_none, unread.2.1, unread.2.2]
  exact parseRest_complete valid relative

theorem orElse_port_sound (current : List Byte) (default : Int) :
    ∃ part : Option (List Byte), (∀ digits ∈ part, PortDigits digits) ∧
      current = written ':' part ++ (orElse (port current) default current).2 ∧
      (orElse (port current) default current).1 =
        (part.map fun digits => (decimal digits : Int)).getD default := by
  cases read : port current with
  | none => exact ⟨none, by simp, rfl, rfl⟩
  | some part =>
      obtain ⟨digits, valid, number, whole⟩ := port_sound read
      exact ⟨some digits, by simpa using valid, whole, number⟩

/-- The texts that are parsed, and what is read from them. -/
theorem parse_iff {text : List Byte} {url : Url} :
    parse text = some url ↔
      (∃ rest : Rest, rest.Valid ∧ text = rest.text ∧ url = rest.fill relative) ∨
      ∃ (front : Front) (rest : Rest), front.Valid ∧ rest.Valid ∧
        text = front.text ++ rest.text ∧ url = rest.fill front.url := by
  constructor
  · intro read
    have schemeWhole : ∃ part : Option (List Byte), (∀ text ∈ part, SchemeText text) ∧
        (scheme text).map Prod.fst = part ∧
        text = (Front.schemeText ⟨part, [], none⟩) ++ ((scheme text).map Prod.snd).getD text := by
      cases found : scheme text with
      | none => exact ⟨none, by simp, rfl, rfl⟩
      | some part =>
          obtain ⟨valid, whole⟩ := scheme_sound found
          refine ⟨some part.1, by simpa using valid, rfl, ?_⟩
          rw [whole]
          simp [Front.schemeText]
    obtain ⟨schemePart, schemeValid, schemeRead, schemeWhole⟩ := schemeWhole
    rw [parse] at read
    dsimp only at read
    generalize ((scheme text).map Prod.snd).getD text = current at read schemeWhole
    split at read
    case h_1 =>
      split at read
      case isTrue => cases read
      case isFalse missing =>
        have unread : schemePart = none := by
          rw [← schemeRead]
          simpa using missing
        obtain ⟨rest, valid, whole, filled⟩ := parseRest_sound read
        refine .inl ⟨rest, valid, ?_, filled⟩
        rw [schemeWhole, unread, whole]
        rfl
    case h_2 hostPart after hostRead =>
      have host : HostText hostPart ∧ current = hostPart ++ after := by
        rcases Option.or_eq_some_iff.mp hostRead with address | ⟨_, name⟩
        · exact ipv6_sound address
        · exact host_sound name
      rw [schemeRead] at read
      obtain ⟨portPart, portValid, portWhole, portRead⟩ :=
        orElse_port_sound after (defaultPort (schemePart.getD kDefaultScheme))
      obtain ⟨rest, valid, whole, filled⟩ := parseRest_sound read
      refine .inr ⟨⟨schemePart, hostPart, portPart⟩, rest, ⟨schemeValid, host.1, portValid⟩, valid,
        ?_, ?_⟩
      · rw [schemeWhole, host.2, portWhole, whole]
        simp [Front.text, Front.schemeText]
      · rw [filled, portRead]
        rfl
  · rintro (⟨rest, valid, rfl, rfl⟩ | ⟨front, rest, valid, restValid, rfl, rfl⟩)
    · exact parse_rest valid
    · exact parse_front valid restValid

end Urls

section Printing

/-- A part is printed unless it is empty. -/
def shown (text : List Byte) : Option (List Byte) :=
  if text = [] then none else some text

@[simp] theorem getD_shown (text : List Byte) : (shown text).getD [] = text := by
  cases text <;> rfl

/-- What `Url.url` writes after the authority. -/
def Url.rest (url : Url) : Rest :=
  ⟨url.path, shown url.queryString, shown url.fragment⟩

/-- What `Url.url` writes before the path. -/
def Url.front (url : Url) : Front :=
  ⟨some url.scheme, url.host, if url.isDefaultPort then none else some (printInt url.port)⟩

theorem written_shown (mark : Char) (text : List Byte) :
    written mark (shown text) = if text = [] then [] else ascii mark :: text := by
  cases text <;> rfl

theorem Url.url_eq (url : Url) :
    url.url = (if url.absolute then url.front.text else []) ++ url.rest.text := by
  have port : written ':' url.front.port =
      if url.isDefaultPort then [] else bytesOf ":" ++ printInt url.port := by
    rw [Url.front]
    split <;> rfl
  have authority : url.front.text = url.authority := by
    rw [Front.text, port, Url.authority]
    simp only [Front.schemeText, Url.front, List.append_assoc]
  rw [Url.url, authority, Rest.text]
  simp only [Url.rest, written_shown, List.append_assoc]
  rfl

theorem Rest.Valid.refilled {rest : Rest} (valid : rest.Valid) (authority : Url) :
    (rest.fill authority).rest.Valid := by
  refine ⟨?_, ?_, ?_⟩
  · simp only [Url.rest, Rest.fill]
    split
    case isTrue => exact ⟨rfl, .empty .slash⟩
    case isFalse => exact valid.path
  · simpa [Url.rest, Rest.fill] using valid.query
  · simpa [Url.rest, Rest.fill] using valid.fragment

/-- What is printed after the authority is read back as it was. -/
theorem Rest.fill_refilled (rest : Rest) (authority : Url) :
    (rest.fill authority).rest.fill authority = rest.fill authority := by
  have rooted : ∀ path : List Byte, (if authority.absolute ∧
      (if authority.absolute ∧ path = [] then bytesOf "/" else path) = [] then bytesOf "/"
      else if authority.absolute ∧ path = [] then bytesOf "/" else path) =
      if authority.absolute ∧ path = [] then bytesOf "/" else path := by
    intro path
    have slash : bytesOf "/" ≠ [] := List.cons_ne_nil _ _
    by_cases missing : authority.absolute ∧ path = []
    · simp [missing, slash]
    · simp only [missing, if_false]
  simp only [Url.rest, Rest.fill, getD_shown]
  exact congrArg (fun path : List Byte => ({ authority with
    path := path, queryString := rest.query.getD [], fragment := rest.fragment.getD [] } : Url))
    (rooted rest.path)

theorem isDefaultPort_iff {url : Url}
    (range : 1 ≤ url.port ∧ url.port ≤ 65535 ∨ url.port = defaultPort url.scheme) :
    url.isDefaultPort ↔ url.port = defaultPort url.scheme := by
  have differ : kSchemeHttps ≠ kSchemeHttp := by decide
  have http_port : kDefaultHttpPort = 80 := rfl
  have https_port : kDefaultHttpsPort = 443 := rfl
  simp only [Url.isDefaultPort, Bool.or_eq_true, Bool.and_eq_true, decide_eq_true_eq,
    defaultPort] at range ⊢
  by_cases http : url.scheme = kSchemeHttp
  · simp only [http, differ.symm, if_true, true_and, false_and, or_false] at range ⊢
    omega
  · by_cases https : url.scheme = kSchemeHttps
    · simp only [https, differ, if_true, if_false, true_and, false_and, or_false] at range ⊢
      omega
    · simp only [http, https, if_false, false_and, or_false] at range ⊢

theorem Front.Valid.port_range {front : Front} (valid : front.Valid) :
    1 ≤ front.url.port ∧ front.url.port ≤ 65535 ∨
      front.url.port = defaultPort front.url.scheme := by
  cases port : front.port with
  | none =>
      right
      simp [Front.url, port]
  | some digits =>
      left
      have range := (valid.port digits port).range
      simp only [Front.url, port, Option.map_some, Option.getD_some]
      omega

theorem Front.Valid.refronted {front : Front} (valid : front.Valid) (rest : Rest) :
    (rest.fill front.url).front.Valid ∧ (rest.fill front.url).front.url = front.url := by
  have range := valid.port_range
  have printed : (rest.fill front.url).isDefaultPort ↔
      (rest.fill front.url).port = defaultPort (rest.fill front.url).scheme :=
    isDefaultPort_iff range
  have scheme : SchemeText front.url.scheme := by
    cases text : front.scheme with
    | none => simpa [Front.url, text] using schemeText_default
    | some scheme => simpa [Front.url, text] using valid.scheme scheme text
  by_cases default : (rest.fill front.url).isDefaultPort
  · refine ⟨⟨?_, valid.host, ?_⟩, ?_⟩
    · simpa [Url.front, Rest.fill] using scheme
    · simp [Url.front, default]
    · have same := printed.mp default
      rw [Front.url, Url.front, if_pos default]
      simp only [Option.getD_some, Option.map_none, Option.getD_none, ← same]
      rfl
  · have explicit := range.resolve_right fun same => default (printed.mpr same)
    obtain ⟨digits, number⟩ := portDigits_printInt explicit
    refine ⟨⟨?_, valid.host, ?_⟩, ?_⟩
    · simpa [Url.front, Rest.fill] using scheme
    · intro text member
      rw [Url.front, if_neg default] at member
      cases member
      exact digits
    · rw [Front.url, Url.front, if_neg default]
      simp only [Option.getD_some, Option.map_some]
      rw [show (rest.fill front.url).port = front.url.port from rfl, number]
      rfl

theorem parse_url {text : List Byte} {url : Url} (read : parse text = some url) :
    parse url.url = some url := by
  rw [Url.url_eq]
  rcases parse_iff.mp read with ⟨rest, valid, rfl, rfl⟩ | ⟨front, rest, valid, restValid, rfl, rfl⟩
  · have again := parse_rest (valid.refilled relative)
    rwa [rest.fill_refilled] at again
  · obtain ⟨refronted, same⟩ := valid.refronted rest
    have again := parse_front refronted (restValid.refilled front.url)
    rwa [same, rest.fill_refilled] at again

/-- What a parsed URL prints is parsed to the same URL, so that printing it again
changes nothing. -/
theorem url_stable {text : List Byte} {url : Url} (read : parse text = some url) :
    parse url.url = some url ∧ (parse url.url).map Url.url = some url.url := by
  have again := parse_url read
  exact ⟨again, congrArg (Option.map Url.url) again⟩

/-- The scheme and the path are filled in, the default port and the empty fragment dropped. -/
theorem url_stable_defaults :
    let url : Url :=
      ⟨true, bytesOf "http", bytesOf "gfiber.com", 80, bytesOf "/", bytesOf "x=1", []⟩
    parse (bytesOf "gfiber.com:0080?x=1#") = some url ∧
      url.url = bytesOf "http://gfiber.com/?x=1" ∧ parse url.url = some url := by
  intro url
  have read : parse (bytesOf "gfiber.com:0080?x=1#") = some url := by decide
  exact ⟨read, by decide, (url_stable read).1⟩

end Printing

end Gfiber.Speedtest
