import Gfiber.Speedtest.UrlObject

/-! What an earlier call leaves in an object is seen after a later one exactly
where the text does not assign a field, or an object that is not ok is assigned. -/

set_option autoImplicit false

namespace Gfiber.Speedtest

open Lib

section Passes

/-- What the parser reads after the authority, part by part. -/
structure RestPass where
  path : Option (List Byte)
  queryString : Option (List Byte)
  fragment : Option (List Byte)
  unread : List Byte

def restPass (current : List Byte) : RestPass :=
  let afterPath := ((absolutePath current).map Prod.snd).getD current
  let afterQuery := ((queryString afterPath).map Prod.snd).getD afterPath
  { path := (absolutePath current).map Prod.fst
    queryString := UrlParser.markedPart '?' isQuery afterPath
    fragment := UrlParser.markedPart '#' isFragment afterQuery
    unread := ((fragment afterQuery).map Prod.snd).getD afterQuery }

/-- What the parser reads in a text. -/
structure Pass extends RestPass where
  scheme : Option (List Byte)
  host : Option (List Byte)
  port : Option Int

def portPass (schemeText : Option (List Byte)) (hostText current : List Byte) : Pass :=
  match port current with
  | none => ⟨restPass current, schemeText, some hostText, none⟩
  | some (portnum, rest) => ⟨restPass rest, schemeText, some hostText, some portnum⟩

def authorityPass (schemeText : Option (List Byte)) (current : List Byte) : Pass :=
  match (ipv6 current).or (host current) with
  | none => ⟨restPass current, schemeText, none, none⟩
  | some (text, rest) => portPass schemeText text rest

def pass (url : List Byte) : Pass :=
  match scheme url with
  | none => authorityPass none url
  | some (text, rest) => authorityPass (some text) rest

/-- The text is read to its end, and a scheme has a host after it. -/
def Pass.Complete (pass : Pass) : Prop :=
  ¬ (pass.scheme.isSome ∧ pass.host.isNone) ∧ pass.unread = []

instance (pass : Pass) : Decidable pass.Complete :=
  inferInstanceAs (Decidable (_ ∧ _))

def Pass.schemeText (pass : Pass) : List Byte :=
  pass.scheme.getD kDefaultScheme

/-- The object that a complete pass leaves. -/
def Pass.assigned (pass : Pass) (object : UrlObject) : UrlObject :=
  UrlObject.complete pass.port.isSome
    { object with
      absolute := pass.host.isSome
      scheme := if pass.host.isSome then pass.schemeText else object.scheme
      host := pass.host.getD object.host
      port := pass.port.getD object.port
      path := pass.path.getD object.path
      queryString := pass.queryString.getD object.queryString
      fragment := pass.fragment.getD object.fragment }

theorem UrlParser.absolutePath_eq (parser : UrlParser) : parser.absolutePath =
    ⟨{ parser.object with
        path := ((Speedtest.absolutePath parser.current).map Prod.fst).getD parser.object.path },
      ((Speedtest.absolutePath parser.current).map Prod.snd).getD parser.current⟩ := by
  rw [absolutePath]
  cases Speedtest.absolutePath parser.current <;> rfl

theorem UrlParser.rest_eq (parser : UrlParser) :
    parser.absolutePath.queryString.fragment =
      ⟨{ parser.object with
          path := (restPass parser.current).path.getD parser.object.path
          queryString := (restPass parser.current).queryString.getD parser.object.queryString
          fragment := (restPass parser.current).fragment.getD parser.object.fragment },
        (restPass parser.current).unread⟩ := by
  rw [absolutePath_eq]
  rfl

/-- A text that is read to its end assigns its parts, and any other leaves the
object as valid as it was. -/
structure UrlObject.Parsed (object : UrlObject) (pass : Pass) (result : Bool × UrlObject) :
    Prop where
  returned : result.1 = decide pass.Complete
  complete : pass.Complete → result.2 = pass.assigned object
  incomplete : ¬ pass.Complete → result.2.parsed = object.parsed

theorem UrlParser.finish_parsed {object after : UrlObject} {current : List Byte} {result : Pass}
    (rest : result.toRestPass = restPass current)
    (started : ¬ (result.scheme.isSome ∧ result.host.isNone))
    (before : after =
      { object with
        absolute := result.host.isSome
        scheme := if result.host.isSome then result.schemeText else object.scheme
        host := result.host.getD object.host
        port := result.port.getD object.port }) :
    object.Parsed result ((UrlParser.mk after current).finish result.port.isSome) := by
  rw [finish, rest_eq]
  dsimp only
  rw [← rest, before]
  by_cases ended : result.unread = []
  · rw [if_neg (not_not_intro ended)]
    have complete : result.Complete := ⟨started, ended⟩
    exact ⟨(decide_eq_true complete).symm, fun _ => rfl, fun incomplete => absurd complete incomplete⟩
  · rw [if_pos ended]
    have incomplete : ¬ result.Complete := fun complete => ended complete.2
    exact ⟨(decide_eq_false incomplete).symm, fun complete => absurd complete incomplete,
      fun _ => rfl⟩

theorem UrlParser.authority_parsed {object after : UrlObject} {schemeText : Option (List Byte)}
    {current : List Byte}
    (before : after = { object with scheme := schemeText.getD object.scheme }) :
    object.Parsed (authorityPass schemeText current)
      ((UrlParser.mk after current).authority schemeText.isSome) := by
  rw [authority, UrlParser.host, authorityPass]
  cases read : (ipv6 current).or (Speedtest.host current) with
  | none =>
      cases schemeText with
      | none =>
          simp only
          apply finish_parsed rfl (by simp)
          rw [before]
          rfl
      | some text =>
          have incomplete : ¬ Pass.Complete ⟨restPass current, some text, none, none⟩ := by
            simp [Pass.Complete]
          rw [before]
          exact ⟨(decide_eq_false incomplete).symm, fun complete => absurd complete incomplete,
            fun _ => rfl⟩
  | some part =>
      simp only [Bool.not_true, Bool.and_false, Bool.false_eq_true, if_false, if_true,
        Bool.and_true]
      rw [UrlParser.port, portPass]
      cases portRead : Speedtest.port part.2 with
      | none =>
          apply finish_parsed rfl (by simp)
          rw [before]
          cases schemeText <;> rfl
      | some portPart =>
          apply finish_parsed rfl (by simp)
          rw [before]
          cases schemeText <;> rfl

theorem parse_object (object : UrlObject) (url : List Byte) :
    object.Parsed (pass url) (object.parse url) := by
  rw [UrlObject.parse, UrlParser.scheme, pass]
  cases scheme url with
  | none => exact UrlParser.authority_parsed rfl
  | some part => exact UrlParser.authority_parsed rfl

theorem markedEnd_body (mark : Char) (inside : Byte → Bool) (current : List Byte) :
    UrlParser.markedEnd mark inside .body current = .body := by
  induction current with
  | nil => rfl
  | cons ch current ih =>
      rw [UrlParser.markedEnd]
      split
      case isTrue => rfl
      case isFalse => exact ih

/-- A part that is not assigned is read as an empty one. -/
theorem markedPart_getD (mark : Char) (inside : Byte → Bool) (current : List Byte) :
    (UrlParser.markedPart mark inside current).getD [] =
      (orElse (markedFrom mark inside .mark [] current) [] current).1 := by
  rw [UrlParser.markedPart]
  split
  case isTrue => cases markedFrom mark inside .mark [] current <;> rfl
  case isFalse unassigned =>
    match current with
    | [] => rfl
    | [ch] =>
        rw [markedFrom]
        split
        case isTrue => rfl
        case isFalse => rfl
    | ch :: next :: rest =>
        rw [UrlParser.markedEnd] at unassigned
        rw [markedFrom]
        split
        case isTrue => rfl
        case isFalse here =>
          rw [if_neg here, UrlParser.markedEnd, markedEnd_body, ite_self] at unassigned
          exact absurd rfl unassigned

theorem orElse_eq {Value : Type} (part : Option (Value × List Byte)) (value : Value)
    (current : List Byte) :
    orElse part value current = ((part.map Prod.fst).getD value, (part.map Prod.snd).getD current) := by
  cases part <;> rfl

theorem parseRest_eq (authority : Url) (current : List Byte) :
    parseRest authority current =
      if (restPass current).unread ≠ [] then none
      else some
        { authority with
          path :=
            if authority.absolute ∧ (restPass current).path.getD [] = [] then bytesOf "/"
            else (restPass current).path.getD []
          queryString := (restPass current).queryString.getD []
          fragment := (restPass current).fragment.getD [] } := by
  have query : ∀ current, (orElse (queryString current) [] current).1 =
      (UrlParser.markedPart '?' isQuery current).getD [] := fun current =>
    (markedPart_getD '?' isQuery current).symm
  have mark : ∀ current, (orElse (fragment current) [] current).1 =
      (UrlParser.markedPart '#' isFragment current).getD [] := fun current =>
    (markedPart_getD '#' isFragment current).symm
  rw [parseRest]
  simp only [query, mark]
  simp only [orElse_eq]
  rfl

/-- What is seen of the object that a pass leaves. -/
theorem observe_assigned (pass : Pass) (object : UrlObject) :
    (pass.assigned object).observe = some
      { absolute := pass.host.isSome
        scheme := if pass.host.isSome then pass.schemeText else object.scheme
        host := pass.host.getD object.host
        port := pass.port.getD
          (if pass.host.isSome ∧ pass.schemeText = kSchemeHttp then kDefaultHttpPort
          else if pass.host.isSome ∧ pass.schemeText = kSchemeHttps then kDefaultHttpsPort
          else object.port)
        path :=
          if pass.host.isSome ∧ pass.path.getD object.path = [] then bytesOf "/"
          else pass.path.getD object.path
        queryString := pass.queryString.getD object.queryString
        fragment := pass.fragment.getD object.fragment } := by
  rw [Pass.assigned, UrlObject.complete]
  cases pass.host with
  | none => simp [UrlObject.observe]
  | some text =>
      by_cases empty : pass.path.getD object.path = []
      · cases pass.port with
        | some portnum => simp [UrlObject.observe, empty]
        | none =>
            simp only [UrlObject.observe, Option.isSome_some, Option.isSome_none, if_true,
              Bool.false_eq_true, if_false, true_and, Option.getD_none]
            split
            case isTrue => simp
            case isFalse => split <;> simp
      · cases pass.port with
        | some portnum => simp [UrlObject.observe, empty]
        | none =>
            simp only [UrlObject.observe, Option.isSome_some, Option.isSome_none, if_true,
              Bool.false_eq_true, if_false, true_and, Option.getD_none]
            split
            case isTrue => simp
            case isFalse => split <;> simp

theorem parseRest_pass {authority : Url} {result : Pass} {current : List Byte}
    (same : result.toRestPass = restPass current)
    (started : ¬ (result.scheme.isSome ∧ result.host.isNone))
    (observed : (result.assigned .new).observe = some
      { authority with
        path :=
          if authority.absolute ∧ result.path.getD [] = [] then bytesOf "/"
          else result.path.getD []
        queryString := result.queryString.getD []
        fragment := result.fragment.getD [] }) :
    parseRest authority current =
      if result.Complete then (result.assigned .new).observe else none := by
  rw [parseRest_eq, ← same]
  by_cases ended : result.unread = []
  · have complete : result.Complete := ⟨started, ended⟩
    rw [if_neg (not_not_intro ended), if_pos complete, observed]
  · rw [if_pos ended, if_neg fun complete => ended complete.2]

/-- The parser on a value, once the scheme is read or found missing. -/
def parseAuthority (schemeText : Option (List Byte)) (current : List Byte) : Option Url :=
  match (ipv6 current).or (host current) with
  | none =>
      if schemeText.isSome then none
      else parseRest ⟨false, [], [], 0, [], [], []⟩ current
  | some (hostPart, current) =>
      let scheme := schemeText.getD kDefaultScheme
      let (portnum, current) := orElse (port current) (defaultPort scheme) current
      parseRest ⟨true, scheme, hostPart, portnum, [], [], []⟩ current

theorem parseAuthority_eq (schemeText : Option (List Byte)) (current : List Byte) :
    parseAuthority schemeText current =
      if (authorityPass schemeText current).Complete then
        ((authorityPass schemeText current).assigned .new).observe else none := by
  rw [parseAuthority, authorityPass]
  cases (ipv6 current).or (host current) with
  | none =>
      cases schemeText with
      | some text => exact (if_neg fun complete => complete.1 ⟨rfl, rfl⟩).symm
      | none =>
          apply parseRest_pass rfl (by simp)
          rw [observe_assigned]
          simp [UrlObject.new]
  | some part =>
      obtain ⟨text, rest⟩ := part
      cases read : port rest with
      | none =>
          have shape : portPass schemeText text rest =
              ⟨restPass rest, schemeText, some text, none⟩ := by
            rw [portPass, read]
          simp only [shape, read]
          apply parseRest_pass rfl (by simp)
          rw [observe_assigned]
          simp [UrlObject.new, defaultPort, Pass.schemeText, orElse_eq]
      | some portPart =>
          have shape : portPass schemeText text rest =
              ⟨restPass portPart.2, schemeText, some text, some portPart.1⟩ := by
            rw [portPass, read]
          simp only [shape, read]
          apply parseRest_pass rfl (by simp)
          rw [observe_assigned]
          simp [UrlObject.new, Pass.schemeText, orElse_eq]

/-- The parser on a value reads what the object shows that was new before it. -/
theorem parse_eq_observe (url : List Byte) :
    Speedtest.parse url =
      if (pass url).Complete then ((pass url).assigned .new).observe else none := by
  rw [Speedtest.parse, pass]
  cases scheme url with
  | none => exact parseAuthority_eq none url
  | some part => exact parseAuthority_eq (some part.1) part.2

/-- The fields that a pass does not assign are as in a new object. -/
structure Pass.Unaffected (pass : Pass) (object : UrlObject) : Prop where
  scheme : pass.host = none → object.scheme = []
  host : pass.host = none → object.host = []
  port : pass.port = none →
    ¬ (pass.host.isSome ∧ (pass.schemeText = kSchemeHttp ∨ pass.schemeText = kSchemeHttps)) →
    object.port = 0
  path : pass.path = none →
    object.path = [] ∨ pass.host.isSome ∧ object.path = bytesOf "/"
  queryString : pass.queryString = none → object.queryString = []
  fragment : pass.fragment = none → object.fragment = []

instance (pass : Pass) (object : UrlObject) : Decidable (pass.Unaffected object) :=
  decidable_of_iff
    ((pass.host = none → object.scheme = []) ∧ (pass.host = none → object.host = []) ∧
      (pass.port = none →
        ¬ (pass.host.isSome ∧ (pass.schemeText = kSchemeHttp ∨ pass.schemeText = kSchemeHttps)) →
        object.port = 0) ∧
      (pass.path = none → object.path = [] ∨ pass.host.isSome ∧ object.path = bytesOf "/") ∧
      (pass.queryString = none → object.queryString = []) ∧
      (pass.fragment = none → object.fragment = []))
    ⟨fun ⟨scheme, host, port, path, queryString, fragment⟩ =>
      ⟨scheme, host, port, path, queryString, fragment⟩,
    fun same => ⟨same.scheme, same.host, same.port, same.path, same.queryString, same.fragment⟩⟩

theorem getD_eq_iff {Value : Type} (part : Option Value) (left right : Value) :
    part.getD left = part.getD right ↔ (part = none → left = right) := by
  cases part <;> simp

theorem scheme_eq_iff (host : Option (List Byte)) (text left : List Byte) :
    (if host.isSome then text else left) = (if host.isSome then text else []) ↔
      (host = none → left = []) := by
  cases host <;> simp

theorem path_eq_iff (absolute : Prop) [Decidable absolute] (part : Option (List Byte))
    (left : List Byte) :
    (if absolute ∧ part.getD left = [] then bytesOf "/" else part.getD left) =
        (if absolute ∧ part.getD [] = [] then bytesOf "/" else part.getD []) ↔
      (part = none → left = [] ∨ absolute ∧ left = bytesOf "/") := by
  cases part with
  | some text => simp
  | none =>
      by_cases rooted : absolute
      · by_cases empty : left = []
        · simp [rooted, empty]
        · simp [rooted, empty]
      · simp [rooted]

/-- Two objects show the same after a pass exactly when the fields do that it leaves. -/
theorem observe_eq_iff (pass : Pass) (object : UrlObject) :
    (pass.assigned object).observe = (pass.assigned .new).observe ↔ pass.Unaffected object := by
  have port : ∀ default : Int,
      (if pass.host.isSome ∧ pass.schemeText = kSchemeHttp then kDefaultHttpPort
        else if pass.host.isSome ∧ pass.schemeText = kSchemeHttps then kDefaultHttpsPort
        else object.port) =
      (if pass.host.isSome ∧ pass.schemeText = kSchemeHttp then kDefaultHttpPort
        else if pass.host.isSome ∧ pass.schemeText = kSchemeHttps then kDefaultHttpsPort
        else default) ↔
      (¬ (pass.host.isSome ∧ (pass.schemeText = kSchemeHttp ∨ pass.schemeText = kSchemeHttps)) →
        object.port = default) := by
    intro default
    by_cases http : pass.host.isSome ∧ pass.schemeText = kSchemeHttp
    · simp [http]
    · by_cases https : pass.host.isSome ∧ pass.schemeText = kSchemeHttps
      · simp [https]
      · have other : ¬ (pass.host.isSome ∧
            (pass.schemeText = kSchemeHttp ∨ pass.schemeText = kSchemeHttps)) := by
          rintro ⟨host, same | same⟩
          · exact http ⟨host, same⟩
          · exact https ⟨host, same⟩
        simp only [if_neg http, if_neg https, other, not_false_eq_true, true_implies]
  simp only [observe_assigned, Option.some.injEq, Url.mk.injEq, true_and, UrlObject.new,
    getD_eq_iff, scheme_eq_iff, path_eq_iff, port]
  constructor
  · rintro ⟨scheme, host, port, path, query, mark⟩
    exact ⟨scheme, host, port, path, query, mark⟩
  · intro unaffected
    exact ⟨unaffected.scheme, unaffected.host, unaffected.port, unaffected.path,
      unaffected.queryString, unaffected.fragment⟩

/-- What a text that is no URL leaves is not ok, and one that is assigns every field
that an earlier call has changed. -/
def Forgotten (object : UrlObject) (url : List Byte) : Prop :=
  if (Speedtest.parse url).isSome then (pass url).Unaffected object else object.parsed = false

instance (object : UrlObject) (url : List Byte) : Decidable (Forgotten object url) :=
  inferInstanceAs (Decidable (ite _ _ _))

theorem isSome_parse (url : List Byte) :
    (Speedtest.parse url).isSome ↔ (pass url).Complete := by
  rw [parse_eq_observe]
  split
  case isTrue complete =>
    rw [observe_assigned]
    simp [complete]
  case isFalse incomplete => simp [incomplete]

theorem observe_parse_iff (object : UrlObject) (url : List Byte) :
    (object.parse url).2.observe = Speedtest.parse url ↔ Forgotten object url := by
  obtain ⟨_, complete, incomplete⟩ := parse_object object url
  have parsed := isSome_parse url
  rw [Forgotten]
  by_cases whole : (pass url).Complete
  · rw [if_pos (parsed.mpr whole), parse_eq_observe, if_pos whole, complete whole]
    exact observe_eq_iff (pass url) object
  · rw [if_neg fun some => whole (parsed.mp some), parse_eq_observe, if_neg whole,
      ← incomplete whole, UrlObject.observe]
    simp

theorem observe_construct (url : List Byte) :
    (UrlObject.new.parse url).2.observe = Speedtest.parse url := by
  rw [observe_parse_iff, Forgotten]
  split
  case isTrue => exact ⟨fun _ => rfl, fun _ => rfl, fun _ _ => rfl, fun _ => .inl rfl, fun _ => rfl,
    fun _ => rfl⟩
  case isFalse => rfl

theorem observe_copy (other : UrlObject) (absolute : Bool) (port : Int) :
    (other.copy absolute port).observe = other.observe := by
  rw [UrlObject.copy]
  cases parsed : other.parsed with
  | false => simp [UrlObject.observe, parsed, UrlObject.new]
  | true => simp

theorem observe_assign_iff (object other : UrlObject) :
    (object.assign other).observe = other.observe ↔ other.parsed = true := by
  cases parsed : other.parsed with
  | false => simp [UrlObject.assign, UrlObject.observe, parsed]
  | true => simp [UrlObject.assign, UrlObject.observe, parsed]

end Passes

section Histories

theorem UrlHistory.run_after (calls : List UrlCall)
    (held : ∀ entry ∈ traceOf UrlHistory.after .start calls,
      (entry.1.store.call entry.2).isSome) :
    Run UrlHistory.Step .start (traceOf UrlHistory.after .start calls)
      (calls.foldl UrlHistory.after .start) := by
  apply Run.of_trace
  intro entry member
  obtain ⟨store, called⟩ := Option.isSome_iff_exists.mp (held entry member)
  refine ⟨?_, rfl⟩
  rw [called, UrlHistory.after, called]
  rfl

/-- The object and the source of a call do not carry over what they held before. -/
def Independent (history : UrlHistory) : UrlCall → Prop
  | .parse name url => ∀ object, history.store name = some object → Forgotten object url
  | .assign _ source => ∀ other, history.store source = some other → other.parsed = true
  | _ => True

theorem shown_update {store : UrlStore} {values : UrlValues} {name : Nat} {object : UrlObject}
    {value : Option Url} (shown : UrlHistory.Shown ⟨store, values⟩) :
    UrlHistory.Shown ⟨store.set name object, Function.update values name value⟩ ↔
      object.observe = value := by
  constructor
  · intro after
    simpa [UrlStore.set] using after name object (by simp [UrlStore.set])
  · intro same other found held
    by_cases here : other = name
    · subst here
      simp only [UrlStore.set, Function.update_self, Option.some.injEq] at held ⊢
      rw [← held, same]
    · simp only [UrlStore.set, Function.update_of_ne here] at held ⊢
      exact shown other found held

/-- One call keeps the objects as they are meant to be exactly when it is independent. -/
theorem shown_step_iff {history next : UrlHistory} {call : UrlCall} (shown : history.Shown)
    (step : history.Step call next) : next.Shown ↔ Independent history call := by
  obtain ⟨store, values⟩ := history
  obtain ⟨called, valued⟩ := step
  obtain ⟨after, afterValues⟩ := next
  dsimp only at called valued
  subst valued
  cases call with
  | create name =>
      cases called
      exact (shown_update shown).trans (iff_of_true rfl trivial)
  | construct name url =>
      cases called
      exact (shown_update shown).trans (iff_of_true rfl trivial)
  | parse name url =>
      obtain ⟨object, held, set⟩ := Option.bind_eq_some_iff.mp called
      cases set
      refine (shown_update shown).trans ?_
      rw [observe_construct, observe_parse_iff]
      constructor
      · intro forgotten other found
        cases held.symm.trans found
        exact forgotten
      · exact fun forgotten => forgotten object held
  | copy name source absolute port =>
      obtain ⟨other, held, set⟩ := Option.bind_eq_some_iff.mp called
      cases set
      refine (shown_update shown).trans (iff_of_true ?_ trivial)
      rw [observe_copy]
      exact shown source other held
  | assign name source =>
      obtain ⟨object, _, set⟩ := Option.bind_eq_some_iff.mp called
      obtain ⟨other, held, set⟩ := Option.bind_eq_some_iff.mp set
      cases set
      have value : values source = other.observe := (shown source other held).symm
      refine (shown_update shown).trans ?_
      rw [value, observe_assign_iff]
      constructor
      · intro parsed found same
        cases held.symm.trans same
        exact parsed
      · exact fun parsed => parsed other held

/-- In a run of calls the objects show what their last text or source says, in every
state, exactly when every call is independent of what was there before. -/
theorem history_independent_iff {trace : List (UrlHistory × UrlCall)} {finish : UrlHistory}
    (run : Run UrlHistory.Step .start trace finish) :
    Throughout UrlHistory.Shown trace finish ↔ StepsMeet Independent trace := by
  have initial : UrlHistory.Shown .start := by
    intro name object held
    cases held
  refine run.throughout_iff_met initial (fun shown => shown) ?_ ?_
  · exact fun shown independent step => (shown_step_iff shown step).mpr independent
  · exact fun shown step after => (shown_step_iff shown step).mp after

/-- Two parses that assign the same fields, and a copy of the result. -/
def repeatedCalls : List UrlCall :=
  [.create 0, .parse 0 (bytesOf "http://a/?x=1"), .parse 0 (bytesOf "http://b/c?y=2"),
    .copy 1 0 true 80]

theorem history_independent_repeated :
    StepsMeet Independent (traceOf UrlHistory.after .start repeatedCalls) ∧
      Throughout UrlHistory.Shown (traceOf UrlHistory.after .start repeatedCalls)
        (repeatedCalls.foldl UrlHistory.after .start) := by
  have independent : StepsMeet Independent (traceOf UrlHistory.after .start repeatedCalls) := by
    intro entry member
    simp only [repeatedCalls, traceOf, List.mem_cons, List.not_mem_nil, or_false] at member
    rcases member with rfl | rfl | rfl | rfl
    · trivial
    · intro object held
      have first : UrlObject.new = object := Option.some.inj held
      subst first
      decide +kernel
    · intro object held
      have second : (UrlObject.new.parse (bytesOf "http://a/?x=1")).2 = object :=
        Option.some.inj held
      subst second
      decide +kernel
    · trivial
  have run := UrlHistory.run_after repeatedCalls (by decide +kernel)
  exact ⟨independent, (history_independent_iff run).mpr independent⟩

theorem left_over {calls : List UrlCall} {object : UrlObject} {value : Option Url}
    (held : ∀ entry ∈ traceOf UrlHistory.after .start calls,
      (entry.1.store.call entry.2).isSome)
    (stored : (calls.foldl UrlHistory.after .start).store 0 = some object)
    (valued : (calls.foldl UrlHistory.after .start).values 0 = value)
    (differs : object.observe ≠ value) :
    ∃ trace finish, Run UrlHistory.Step .start trace finish ∧ trace.map Prod.snd = calls ∧
      finish.store 0 = some object ∧ finish.values 0 = value ∧ ¬ finish.Shown := by
  refine ⟨_, _, UrlHistory.run_after calls held, ?_, stored, valued, ?_⟩
  · exact labels_traceOf _ _ _
  · exact fun shown => differs ((shown 0 object stored).trans valued)

/-- A query of an earlier text, a URL before a text that is none, and the assignment of
an object that was never parsed. -/
theorem histories_left_over :
    (∃ trace finish, Run UrlHistory.Step .start trace finish ∧
      trace.map Prod.snd = [.create 0, .parse 0 (bytesOf "http://a/?x=1"),
        .parse 0 (bytesOf "http://b/")] ∧
      finish.store 0 = some
        ⟨true, true, bytesOf "http", bytesOf "b", 80, bytesOf "/", bytesOf "x=1", []⟩ ∧
      finish.values 0 = some ⟨true, bytesOf "http", bytesOf "b", 80, bytesOf "/", [], []⟩ ∧
      ¬ finish.Shown) ∧
    (∃ trace finish, Run UrlHistory.Step .start trace finish ∧
      trace.map Prod.snd = [.create 0, .parse 0 (bytesOf "http://a/"),
        .parse 0 (bytesOf "http://a/[")] ∧
      finish.store 0 = some
        ⟨true, true, bytesOf "http", bytesOf "a", 80, bytesOf "/", [], []⟩ ∧
      finish.values 0 = none ∧ ¬ finish.Shown) ∧
    (∃ trace finish, Run UrlHistory.Step .start trace finish ∧
      trace.map Prod.snd = [.create 0, .create 1, .assign 0 1] ∧
      finish.store 0 = some ⟨true, false, [], [], 0, [], [], []⟩ ∧
      finish.values 0 = none ∧ ¬ finish.Shown) := by
  refine ⟨left_over ?_ ?_ ?_ ?_, left_over ?_ ?_ ?_ ?_, left_over ?_ ?_ ?_ ?_⟩
  all_goals decide +kernel

end Histories

end Gfiber.Speedtest
