import Gfiber.Speedtest.Region

/-! The list of regions does not depend on how its body was handed out only when the body came in
one piece. What is parsed without an error has URLs. -/

set_option autoImplicit false

namespace Gfiber.Speedtest

open Lib

section Chunks

variable {chunks : List (List Byte)}

theorem foldl_assign (chunks : List (List Byte)) (text : List Byte) :
    chunks.foldl assign text = chunks.getLast?.getD text := by
  induction chunks generalizing text with
  | nil => rfl
  | cons chunk chunks ih =>
      rw [List.foldl_cons, ih]
      cases chunks with
      | nil => rfl
      | cons next rest => simp [assign, List.getLast?_cons]

/-- All of the body came with the last piece. -/
def InOnePiece (chunks : List (List Byte)) : Prop :=
  ∀ chunk ∈ chunks.dropLast, chunk = []

theorem last_eq_flatten_iff : chunks.getLast?.getD [] = chunks.flatten ↔ InOnePiece chunks := by
  cases chunks using List.reverseRecOn with
  | nil => simp [InOnePiece]
  | append_singleton front last =>
      have before : (front ++ [last]).flatten = front.flatten ++ last := by simp
      rw [List.getLast?_concat, Option.getD_some, before, InOnePiece, List.dropLast_concat]
      constructor
      · intro same
        have empty : front.flatten = [] := by simpa using same
        exact List.flatten_eq_nil_iff.mp empty
      · intro empty
        rw [List.flatten_eq_nil_iff.mpr empty, List.nil_append]

end Chunks

section Loading

/-- The same answer with its body in one piece. -/
def Response.whole (response : Response) : Response :=
  { response with chunks := [response.chunks.flatten] }

def RegionOptions.whole (options : RegionOptions) : RegionOptions :=
  { options with
    requestFactory := options.requestFactory.map fun factory url => (factory url).whole }

/-- What is made of a text that was downloaded. -/
def regionsOf (json : JsonLibrary) (around : Surroundings) (text : List Byte) : Option RegionResult :=
  (parseRegions json text (some [])).map fun parsed => .of around parsed.1 (parsed.2.getD [])

/-- A library in which one text is an object without members. -/
def JsonLibrary.reading (text : List Byte) : JsonLibrary where
  Value := Unit
  parse := fun other => if other = text then some () else none
  isMember := fun _ _ => some false
  member := fun _ _ => ()
  isString := fun _ => false
  asString := fun _ => []
  isArray := fun _ => false
  elements := fun _ => []

theorem regionsOf_reading (around : Surroundings) {text other : List Byte} (different : other ≠ text) :
    regionsOf (.reading text) around other ≠ regionsOf (.reading text) around text := by
  have missed : parseRegions (.reading text) other (some []) =
      some (.invalid "Failed to parse regions JSON", some []) := by
    simp [parseRegions, JsonLibrary.reading, different]
  have read : parseRegions (.reading text) text (some []) =
      some (.invalid "no regions element found", some []) := by
    simp [parseRegions, JsonLibrary.reading]
  intro same
  rw [regionsOf, regionsOf, missed, read] at same
  have texts : bytesOf "Failed to parse regions JSON" ≠ bytesOf "no regions element found" := by
    decide
  simp only [Option.map_some, Option.some.injEq, RegionResult.of, RegionResult.mk.injEq,
    Status.invalid, Status.mk.injEq] at same
  exact texts same.2.2.1.2

theorem loadRegions_global (json : JsonLibrary) (around : Surroundings) {options : RegionOptions}
    {factory : UrlObject → Response} (global : options.global = true)
    (set : options.requestFactory = some factory) :
    loadRegions json around options =
      if (factory (configUrl around options)).code ≠ curleOk then
        some (.of around
          ⟨.internal, around.errorString (factory (configUrl around options)).code⟩ [])
      else regionsOf json around ((factory (configUrl around options)).chunks.getLast?.getD []) := by
  unfold loadRegions
  simp only [set, global, Bool.not_true, Bool.false_eq_true, if_false, foldl_assign]
  split
  · rfl
  · unfold regionsOf
    cases parseRegions json _ (some []) <;> rfl

/-- In global mode the regions do not depend on the pieces, for any library, just when the request
fails or the whole body comes in one piece. -/
theorem loadRegions_whole_iff (around : Surroundings) {options : RegionOptions}
    (global : options.global = true) :
    (∀ json, loadRegions json around options = loadRegions json around options.whole) ↔
      ∀ factory ∈ options.requestFactory, (factory (configUrl around options)).code = curleOk →
        InOnePiece (factory (configUrl around options)).chunks := by
  cases set : options.requestFactory with
  | none =>
      have both (json : JsonLibrary) :
          loadRegions json around options = loadRegions json around options.whole := by
        simp [loadRegions, RegionOptions.whole, set]
      simp [both]
  | some factory =>
      have joined : options.whole.requestFactory = some fun url => (factory url).whole := by
        simp [RegionOptions.whole, set]
      have global_too : options.whole.global = true := global
      have same_url : configUrl around options.whole = configUrl around options := rfl
      have both (json : JsonLibrary) :
          loadRegions json around options = loadRegions json around options.whole ↔
            ((factory (configUrl around options)).code = curleOk →
              regionsOf json around ((factory (configUrl around options)).chunks.getLast?.getD []) =
                regionsOf json around (factory (configUrl around options)).chunks.flatten) := by
        rw [loadRegions_global _ _ global set, loadRegions_global _ _ global_too joined, same_url]
        unfold Response.whole
        split
        case isTrue failed => simp [failed]
        case isFalse success => simp [not_not.mp success]
      simp only [both, Option.mem_def, Option.some.injEq, forall_eq']
      constructor
      · intro same success
        by_contra pieces
        have different := mt last_eq_flatten_iff.mp pieces
        exact regionsOf_reading around different (same _ success)
      · intro pieces json success
        rw [last_eq_flatten_iff.mpr (pieces success)]

def listText : List Byte :=
  bytesOf "\x7b\"regions\":[]\x7d"

/-- A library that reads one text, an object with an empty list of regions. -/
def listLibrary : JsonLibrary where
  Value := Bool
  parse := fun text => if text = listText then some true else none
  isMember := fun root key => if root then some (key = bytesOf "regions") else none
  member := fun _ _ => false
  isString := fun _ => false
  asString := fun _ => []
  isArray := fun value => !value
  elements := fun _ => []

def plainSurroundings : Surroundings :=
  ⟨0, 0, fun _ => [], false, 0⟩

def splitOptions : RegionOptions :=
  ⟨some fun _ => ⟨curleOk, [listText.take 11, listText.drop 11]⟩, true, .new, []⟩

/-- Two pieces are a list that cannot be parsed. -/
theorem loadRegions_split :
    ¬∀ (json : JsonLibrary) (around : Surroundings) (options : RegionOptions),
      options.global = true →
      loadRegions json around options = loadRegions json around options.whole := by
  intro wholeIsSame
  have same := wholeIsSame listLibrary plainSurroundings splitOptions rfl
  have split : (loadRegions listLibrary plainSurroundings splitOptions).map RegionResult.status =
      some (.invalid "Failed to parse regions JSON") := by decide +kernel
  have joined : (loadRegions listLibrary plainSurroundings splitOptions.whole).map
      RegionResult.status = some .okay := by decide +kernel
  rw [same, joined] at split
  exact absurd split (by decide)

/-- The list in one piece, with an empty one before it. -/
def wholeOptions : RegionOptions :=
  ⟨some fun _ => ⟨curleOk, [[], listText]⟩, true, .new, []⟩

theorem loadRegions_whole_once :
    (loadRegions listLibrary plainSurroundings wholeOptions).map RegionResult.status =
        some .okay ∧
      ∀ json, loadRegions json plainSurroundings wholeOptions =
        loadRegions json plainSurroundings wholeOptions.whole := by
  refine ⟨by decide +kernel, (@loadRegions_whole_iff plainSurroundings wholeOptions rfl).mpr ?_⟩
  intro factory given _
  cases given
  intro chunk member
  exact List.mem_singleton.mp member

end Loading

section Parsing

variable {json : JsonLibrary}

/-- A region that can be asked for its URLs. -/
structure Region.Usable (region : Region) : Prop where
  some_url : region.urls ≠ []
  parsed : ∀ url ∈ region.urls, url.parsed = true

theorem addUrl_parsed {urlJson : json.Value} {urls after : List UrlObject}
    (added : addUrl json urlJson urls = (true, after)) :
    ∃ url, url.parsed = true ∧ after = urls ++ [url] := by
  unfold addUrl at added
  split at added
  case isTrue => cases added
  case isFalse =>
    dsimp only at added
    split at added
    case isTrue => cases added
    case isFalse parsed =>
      cases added
      exact ⟨_, by simpa using parsed, rfl⟩

theorem addUrls_parsed {list : List json.Value} {urls after : List UrlObject}
    (before : ∀ url ∈ urls, url.parsed = true) (added : addUrls json list urls = (true, after)) :
    ∀ url ∈ after, url.parsed = true := by
  induction list generalizing urls with
  | nil =>
      cases added
      exact before
  | cons urlIt rest ih =>
      unfold addUrls at added
      cases first : addUrl json urlIt urls with
      | mk ok middle =>
          rw [first] at added
          cases ok with
          | false => cases added
          | true =>
              obtain ⟨url, parsed, same⟩ := addUrl_parsed first
              refine ih (fun other member => ?_) added
              rw [same] at member
              cases List.mem_append.mp member with
              | inl old => exact before other old
              | inr new => rw [List.mem_singleton.mp new, parsed]

theorem parseUrls_parsed {it : json.Value} {urls : List UrlObject}
    (read : parseUrls json it = some (.ok urls)) : urls ≠ [] ∧ ∀ url ∈ urls, url.parsed = true := by
  unfold parseUrls at read
  obtain ⟨there, -, read⟩ := Option.bind_eq_some_iff.mp read
  split at read
  case isTrue => cases read
  case isFalse =>
    dsimp only at read
    split at read
    case isTrue =>
      cases added : addUrl json (json.member it (bytesOf "url")) [] with
      | mk ok after =>
          rw [added] at read
          cases ok with
          | false => cases read
          | true =>
              cases read
              obtain ⟨url, parsed, same⟩ := addUrl_parsed added
              simp [same, parsed]
    case isFalse =>
      split at read
      case isFalse => cases read
      case isTrue =>
        cases added : addUrls json (json.elements (json.member it (bytesOf "url"))) [] with
        | mk ok after =>
            rw [added] at read
            cases ok with
            | false => cases read
            | true =>
                dsimp only at read
                split at read
                case isTrue => cases read
                case isFalse some_url =>
                  cases read
                  exact ⟨some_url, addUrls_parsed (by simp) added⟩

theorem parseRegion_usable {it : json.Value} {region : Region}
    (read : parseRegion json it = some (.ok region)) : region.Usable := by
  unfold parseRegion at read
  obtain ⟨there, -, read⟩ := Option.bind_eq_some_iff.mp read
  split at read
  case isTrue => cases read
  case isFalse =>
    dsimp only at read
    split at read
    case isTrue => cases read
    case isFalse =>
      obtain ⟨name, -, read⟩ := Option.bind_eq_some_iff.mp read
      cases name with
      | error status => cases read
      | ok name =>
          obtain ⟨urls, found, read⟩ := Option.bind_eq_some_iff.mp read
          cases urls with
          | error status => cases read
          | ok urls =>
              cases read
              obtain ⟨some_url, parsed⟩ := parseUrls_parsed found
              exact ⟨some_url, parsed⟩

theorem parseRegionsFrom_usable {list : List json.Value} {regions after : List Region}
    {status : Status} (before : ∀ region ∈ regions, region.Usable)
    (read : parseRegionsFrom json list regions = some (status, after)) :
    ∀ region ∈ after, region.Usable := by
  induction list generalizing regions with
  | nil =>
      cases read
      exact before
  | cons it rest ih =>
      unfold parseRegionsFrom at read
      obtain ⟨first, found, read⟩ := Option.bind_eq_some_iff.mp read
      cases first with
      | error failed =>
          cases read
          exact before
      | ok region =>
          refine ih (fun other member => ?_) read
          cases List.mem_append.mp member with
          | inl old => exact before other old
          | inr new =>
              rw [List.mem_singleton.mp new]
              exact parseRegion_usable found

theorem parseRegions_usable {text : List Byte} {status : Status} {after : Option (List Region)}
    (read : parseRegions json text (some []) = some (status, after)) :
    ∀ region ∈ after.getD [], region.Usable := by
  have none_yet : ∀ region ∈ ([] : List Region), region.Usable := by simp
  unfold parseRegions at read
  dsimp only at read
  cases parsed : json.parse text with
  | none =>
      rw [parsed] at read
      cases read
      exact none_yet
  | some root =>
      rw [parsed] at read
      obtain ⟨there, -, read⟩ := Option.bind_eq_some_iff.mp read
      split at read
      case isTrue =>
        cases read
        exact none_yet
      case isFalse =>
        split at read
        case isTrue =>
          cases read
          exact none_yet
        case isFalse =>
          obtain ⟨filled, found, read⟩ := Option.bind_eq_some_iff.mp read
          cases read
          exact parseRegionsFrom_usable none_yet found

/-- Whatever the status is, the regions that a download leaves have URLs, all of them parsed. -/
theorem loadRegions_usable {around : Surroundings} {options : RegionOptions} {result : RegionResult}
    (global : options.global = true) (loaded : loadRegions json around options = some result) :
    ∀ region ∈ result.regions, region.Usable := by
  cases set : options.requestFactory with
  | none =>
      simp only [loadRegions, set, Option.some.injEq] at loaded
      simp [← loaded, RegionResult.of]
  | some factory =>
      rw [loadRegions_global json around global set] at loaded
      split at loaded
      case isTrue =>
        cases loaded
        simp [RegionResult.of]
      case isFalse =>
        obtain ⟨parsed, found, same⟩ := Option.map_eq_some_iff.mp loaded
        rw [← same]
        exact parseRegions_usable found

end Parsing

end Gfiber.Speedtest
