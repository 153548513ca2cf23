import Gfiber.Ssdptax.AddressProperties
import Gfiber.Ssdptax.Report

/-! Which descriptions leave every line with the device that it is about. -/

set_option autoImplicit false

namespace Gfiber.Ssdptax

open Lib

section Plain

def semicolon : Byte :=
  ascii ';'

/-- A text that neither ends a line nor a field. -/
def Plain (text : List Byte) : Prop :=
  lineEnd ∉ text ∧ semicolon ∉ text

instance (text : List Byte) : Decidable (Plain text) :=
  inferInstanceAs (Decidable (_ ∧ _))

theorem Plain.nil : Plain [] :=
  ⟨List.not_mem_nil, List.not_mem_nil⟩

theorem plain_append {left right : List Byte} : Plain (left ++ right) ↔ Plain left ∧ Plain right := by
  simp only [Plain, List.mem_append, not_or]
  tauto

theorem Plain.subset {text other : List Byte} (plain : Plain text) (fewer : other ⊆ text) :
    Plain other :=
  ⟨fun member => plain.1 (fewer member), fun member => plain.2 (fewer member)⟩

theorem limitByte_plain (byte : Byte) : limitByte byte ≠ lineEnd ∧ limitByte byte ≠ semicolon := by
  revert byte
  decide +kernel

theorem strncpyLimited_plain (dstlen : Nat) (src : List Byte) : Plain (strncpyLimited dstlen src) := by
  constructor
  · intro member
    obtain ⟨byte, -, same⟩ := List.mem_map.mp member
    exact (limitByte_plain byte).1 same
  · intro member
    obtain ⟨byte, -, same⟩ := List.mem_map.mp member
    exact (limitByte_plain byte).2 same

theorem trim_subset (s : List Byte) : trim s ⊆ s := by
  rw [trim]
  split
  · exact List.Subset.refl s
  · intro byte member
    rw [List.mem_reverse] at member
    have inside := List.mem_reverse.mp (List.dropWhile_subset _ member)
    exact List.dropWhile_subset _ inside

end Plain

section Announcements

/-- What is known of a device before its description has been fetched. -/
structure Announcement (info : SsdpInfo) : Prop where
  fields : info = { url := info.url, srvType := info.srvType }
  plain : Plain info.srvType

theorem announcement_new : Announcement {} :=
  ⟨rfl, Plain.nil⟩

theorem Placed.copied_plain (response : Placed) (code : Placed.Code) : Plain (response.copied code) := by
  constructor
  · intro member
    obtain ⟨byte, -, same⟩ := List.mem_map.mp member
    exact (limitByte_plain byte).1 same
  · intro member
    obtain ⟨byte, -, same⟩ := List.mem_map.mp member
    exact (limitByte_plain byte).2 same

theorem announcement_parseMinissdpdResponse {response : Placed} {left : List Byte}
    {info : SsdpInfo} (parsed : response.parseMinissdpdResponse = .ok (left, info)) :
    Announcement info := by
  have contained := response.inside_iff.mp fun outside => by cases parsed.symm.trans outside
  by_cases accepted : response.Accepted
  · cases (contained.parse_eq.1 accepted).symm.trans parsed
    exact ⟨rfl, response.copied_plain _⟩
  · cases (contained.parse_eq.2 accepted).symm.trans parsed

/-- The responses that the loop parses from some pass on. -/
def heldResponses (heap : Heap) (pass : Nat) : Nat → List Byte → List Placed
  | 0, _ => []
  | num + 1, buffer =>
      if buffer = [] then []
      else
        heap.place pass buffer ::
          match (heap.place pass buffer).parseMinissdpdResponse with
          | .error .outside => []
          | .error .refused => heldResponses heap (pass + 1) num buffer
          | .ok (left, _) => heldResponses heap (pass + 1) num left

theorem minissdpdRecords_spec (heap : Heap) (pass num : Nat) (buffer : List Byte) :
    ((minissdpdRecords heap pass num buffer).isSome ↔
      ∀ response ∈ heldResponses heap pass num buffer, response.Contained) ∧
    ∀ infos ∈ minissdpdRecords heap pass num buffer, ∀ info ∈ infos, Announcement info := by
  fun_induction minissdpdRecords heap pass num buffer with
  | case1 => simp [heldResponses]
  | case2 => simp [heldResponses]
  | case3 pass num buffer some_bytes outside =>
      have away : ¬(heap.place pass buffer).Contained := fun contained =>
        (heap.place pass buffer).inside_iff.mpr contained outside
      simp [heldResponses, some_bytes, outside, away]
  | case4 pass num buffer some_bytes refused ih =>
      have contained := (heap.place pass buffer).inside_iff.mp (by simp [refused])
      refine ⟨by simp [heldResponses, some_bytes, refused, contained, ih.1], ?_⟩
      intro infos records
      obtain ⟨rest, later, rfl⟩ := Option.map_eq_some_iff.mp records
      exact List.forall_mem_cons.mpr ⟨announcement_new, ih.2 rest later⟩
  | case5 pass num buffer some_bytes left info taken ih =>
      have contained := (heap.place pass buffer).inside_iff.mp (by simp [taken])
      refine ⟨by simp [heldResponses, some_bytes, taken, contained, ih.1], ?_⟩
      intro infos records
      obtain ⟨rest, later, rfl⟩ := Option.map_eq_some_iff.mp records
      exact List.forall_mem_cons.mpr ⟨announcement_parseMinissdpdResponse taken, ih.2 rest later⟩

theorem announcement_parseLine {info : SsdpInfo} (before : Announcement info) (p : List Byte) :
    Announcement (parseLine info p) := by
  rw [parseLine]
  split
  · refine ⟨?_, before.plain⟩
    rw [before.fields]
  · split
    · refine ⟨?_, (strncpyLimited_plain _ _).subset (trim_subset _)⟩
      rw [before.fields]
    · exact before

theorem announcement_parseSsdpResponse (packet : List Byte) :
    Announcement (parseSsdpResponse packet) := by
  rw [parseSsdpResponse]
  exact List.foldlRecOn _ _ announcement_new fun _ before p _ => announcement_parseLine before p

/-- The responses that are parsed of the answer. -/
def Network.held (network : Network) : List Placed :=
  match network.answer.take answerSize with
  | [] => []
  | first :: buffer =>
      let num : Int := if network.signedChar then first.toInt else first.toNat
      heldResponses network.heap 0 num.toNat buffer

theorem minissdpdAnnounced_spec (network : Network) :
    ((minissdpdAnnounced network.signedChar network.heap network.answer).isSome ↔
      ∀ response ∈ network.held, response.Contained) ∧
    ∀ infos ∈ minissdpdAnnounced network.signedChar network.heap network.answer,
      ∀ info ∈ infos, Announcement info := by
  unfold minissdpdAnnounced Network.held
  cases network.answer.take answerSize with
  | nil => simp
  | cons first buffer => exact minissdpdRecords_spec network.heap 0 _ buffer

theorem announced_isSome_iff (network : Network) :
    network.announced.isSome ↔ ∀ response ∈ network.held, response.Contained := by
  rw [Network.announced, Option.isSome_map]
  exact (minissdpdAnnounced_spec network).1

theorem announcement_announced {network : Network} {announced : List SsdpInfo}
    (found : network.announced = some announced) : ∀ info ∈ announced, Announcement info := by
  obtain ⟨recorded, records, rfl⟩ := Option.map_eq_some_iff.mp found
  intro info member
  rcases List.mem_append.mp member with record | received
  · exact (minissdpdAnnounced_spec network).2 recorded records info record
  · obtain ⟨packet, -, rfl⟩ := List.mem_map.mp received
    exact announcement_parseSsdpResponse packet

end Announcements

section Lines

/-- The name is shown as the description has it only if no e-mail address is in it. -/
def Tidy (friendlyName manufacturer model : List Byte) : Prop :=
  containsEmailAddress friendlyName = true ∨ friendlyName = [] ∨
    Plain friendlyName ∧ Plain manufacturer ∧ Plain model

instance (friendlyName manufacturer model : List Byte) :
    Decidable (Tidy friendlyName manufacturer model) :=
  inferInstanceAs (Decidable (_ ∨ _))

/-- A line of one device: its address, a name and the rest. -/
def Isolated (mac line : List Byte) : Prop :=
  ∃ name rest, line = bytesOf "ssdp " ++ mac ++ bytesOf " " ++ name ++ bytesOf ";" ++ rest ∧
    Plain name ∧ Plain rest

theorem plain_unfriendlyName {manufacturer model : List Byte} :
    Plain (unfriendlyName manufacturer model) ↔ Plain manufacturer ∧ Plain model := by
  rw [unfriendlyName]
  split
  case isTrue found =>
    obtain ⟨place, inside⟩ := Option.isSome_iff_exists.mp found
    constructor
    · intro plain
      refine ⟨⟨fun member => ?_, fun member => ?_⟩, plain⟩
      · exact plain.1 (mem_of_strcasestr inside (by decide) member)
      · exact plain.2 (mem_of_strcasestr inside (by decide) member)
    · exact And.right
  case isFalse =>
    have space : Plain [ascii ' '] := ⟨by decide, by decide⟩
    rw [plain_append, plain_append]
    tauto

theorem isolated_iff {mac front back : List Byte} :
    Isolated mac (bytesOf "ssdp " ++ mac ++ bytesOf " " ++ front ++ bytesOf ";" ++ back) ↔
      Plain front ∧ Plain back := by
  constructor
  · rintro ⟨name, rest, same, plainName, plainRest⟩
    have inner : name ++ semicolon :: rest = front ++ semicolon :: back := by
      simpa [bytesOf, semicolon] using same.symm
    obtain ⟨rfl, -, rfl⟩ := (List.append_cons_inj_of_notMem plainName.2 plainRest.2).mp inner
    exact ⟨plainName, plainRest⟩
  · rintro ⟨plainFront, plainBack⟩
    exact ⟨front, back, rfl, plainFront, plainBack⟩

theorem isolated_formatResponse_iff {info : SsdpInfo} (plain : Plain info.srvType)
    (mac : List Byte) :
    Isolated mac (formatResponse info mac) ↔
      Tidy info.friendlyName info.manufacturer info.model := by
  rw [formatResponse, Tidy]
  split
  case isTrue email =>
    refine iff_of_true ?_ (Or.inl email)
    exact ⟨bytesOf "REDACTED", info.srvType, by simp [bytesOf], ⟨by decide, by decide⟩, plain⟩
  case isFalse other =>
    split
    case isTrue named =>
      rw [isolated_iff, plain_unfriendlyName, or_iff_right other,
        or_iff_right (List.length_pos_iff.mp named)]
    case isFalse unnamed =>
      have empty : info.friendlyName = [] := List.length_eq_zero_iff.mp (by omega)
      refine iff_of_true ?_ (Or.inr (Or.inl empty))
      exact ⟨bytesOf "Unknown", info.srvType, by simp [bytesOf], ⟨by decide, by decide⟩, plain⟩

end Lines

section Descriptions

/-- A label that is closed is opened somewhere. -/
def Opened (ptr : List Byte) (label : String) : Prop :=
  (strcasestr (closeLabel label) ptr).isSome → (strcasestr (openLabel label) ptr).isSome

/-- The text of a field, or none. -/
def xmlField (ptr : List Byte) (label : String) : List Byte :=
  ((findXmlField ptr label).getD none).getD []

/-- The name of a device, in the place of which its description may stand. -/
def describedName (ptr : List Byte) : List Byte :=
  ((findName ptr).getD none).getD []

/-- Each label that is looked for is opened if it is closed. -/
structure Readable (ptr : List Byte) : Prop where
  name : Opened ptr "friendlyName"
  description : findXmlField ptr "friendlyName" = some none → Opened ptr "modelDescription"
  manufacturer : Opened ptr "manufacturer"
  model : Opened ptr "modelName"

/-- What a description is to be, if the device has been reached. -/
def Safe : Fetched → Prop
  | .performed true body _ =>
      Readable (cStr body) ∧ Tidy (describedName (cStr body)) (xmlField (cStr body) "manufacturer")
        (xmlField (cStr body) "modelName")
  | _ => True

theorem opened_iff {ptr : List Byte} {label : String} :
    Opened ptr label ↔ ∃ field, findXmlField ptr label = some field := by
  rw [Opened, findXmlField]
  cases strcasestr (openLabel label) ptr with
  | none => cases strcasestr (closeLabel label) ptr <;> simp
  | some opened =>
      cases strcasestr (closeLabel label) ptr with
      | none => simp
      | some close =>
          refine iff_of_true (fun _ => rfl) ?_
          dsimp only
          split
          · exact ⟨_, rfl⟩
          · exact ⟨_, rfl⟩

theorem findName_iff {ptr : List Byte} :
    (Opened ptr "friendlyName" ∧
      (findXmlField ptr "friendlyName" = some none → Opened ptr "modelDescription")) ↔
      ∃ name, findName ptr = some name := by
  rw [opened_iff, opened_iff, findName]
  cases findXmlField ptr "friendlyName" with
  | none => simp
  | some name => cases name <;> simp

theorem readable_iff {ptr : List Byte} :
    Readable ptr ↔ (∃ name, findName ptr = some name) ∧
      (∃ manufacturer, findXmlField ptr "manufacturer" = some manufacturer) ∧
      ∃ model, findXmlField ptr "modelName" = some model := by
  rw [← findName_iff, ← opened_iff, ← opened_iff]
  exact ⟨fun readable => ⟨⟨readable.1, readable.2⟩, readable.3, readable.4⟩,
    fun all => ⟨all.1.1, all.1.2, all.2.1, all.2.2⟩⟩

/-- What is read from a description. -/
theorem extractFields_iff {info extracted : SsdpInfo} (announcement : Announcement info)
    {body : List Byte} :
    extractFieldsFromBuffer { info with buffer := body } = some extracted ↔
      Readable (cStr body) ∧ extracted =
        { info with
          friendlyName := describedName (cStr body)
          manufacturer := xmlField (cStr body) "manufacturer"
          model := xmlField (cStr body) "modelName"
          buffer := body } := by
  rw [readable_iff, announcement.fields, describedName, xmlField, xmlField]
  simp only [extractFieldsFromBuffer]
  cases findName (cStr body) with
  | none => simp
  | some name =>
      cases findXmlField (cStr body) "manufacturer" with
      | none => simp
      | some manufacturer =>
          cases findXmlField (cStr body) "modelName" with
          | none => simp
          | some model => simp [eq_comm]

theorem fetchDeviceInfo_spec {curl : Curl} {info fetched : SsdpInfo}
    (announcement : Announcement info) {url : List Byte}
    (done : fetchDeviceInfo curl url info = some fetched) :
    fetched.srvType = info.srvType ∧
      ((fetched.failed = false →
        Tidy fetched.friendlyName fetched.manufacturer fetched.model) ↔ Safe (curl url)) := by
  have nameless : info.friendlyName = [] := by rw [announcement.fields]
  have empty : info.buffer = [] := by rw [announcement.fields]
  rw [fetchDeviceInfo] at done
  cases answer : curl url with
  | notStarted =>
      rw [answer] at done
      cases done
      exact ⟨rfl, iff_of_true (fun _ => Or.inr (Or.inl nameless)) trivial⟩
  | performed ok body ip =>
      rw [answer] at done
      obtain ⟨extracted, read, rfl⟩ := Option.map_eq_some_iff.mp done
      rw [empty, List.nil_append] at read
      cases ok with
      | false =>
          cases read
          exact ⟨rfl, iff_of_true (fun unfailed => by cases unfailed) trivial⟩
      | true =>
          obtain ⟨readable, rfl⟩ := (extractFields_iff announcement).mp read
          have reached : info.failed = false := by rw [announcement.fields]
          refine ⟨rfl, ?_⟩
          exact ⟨fun tidy => ⟨readable, tidy reached⟩, fun safe _ => safe.2⟩

theorem fetchDeviceInfo_of_safe {curl : Curl} {info : SsdpInfo} (announcement : Announcement info)
    {url : List Byte} (safe : Safe (curl url)) :
    ∃ fetched, fetchDeviceInfo curl url info = some fetched := by
  have empty : info.buffer = [] := by rw [announcement.fields]
  rw [fetchDeviceInfo]
  cases answer : curl url with
  | notStarted => exact ⟨info, rfl⟩
  | performed ok body ip =>
      rw [answer] at safe
      rw [empty]
      cases ok with
      | false => exact ⟨_, rfl⟩
      | true =>
          have read := (extractFields_iff announcement).mpr ⟨safe.1, rfl⟩
          exact ⟨_, Option.map_eq_some_iff.mpr ⟨_, read, rfl⟩⟩

end Descriptions

section Gathering

/-- Every announced device has been fetched, and nothing else. -/
structure Gathered (curl : Curl) (announced : List SsdpInfo) (responses : ResponsesMap) : Prop where
  source : ∀ {url : List Byte} {fetched : SsdpInfo}, responses.lookup url = some fetched →
    ∃ info ∈ announced, info.url = url ∧ url ≠ [] ∧ fetchDeviceInfo curl url info = some fetched
  all : ∀ info ∈ announced, info.url ≠ [] → info.url ∈ responses

theorem gathered_addResponse {curl : Curl} {announced : List SsdpInfo}
    {responses after : ResponsesMap} {info : SsdpInfo} (gathered : Gathered curl announced responses)
    (added : addResponse curl responses info = some after) :
    Gathered curl (announced ++ [info]) after := by
  rw [addResponse] at added
  split at added
  case isTrue new =>
    obtain ⟨fetched, done, rfl⟩ := Option.map_eq_some_iff.mp added
    constructor
    · intro url found lookup
      by_cases same : url = info.url
      · subst same
        rw [AList.lookup_insert] at lookup
        cases lookup
        exact ⟨info, by simp, rfl, new.1, done⟩
      · rw [AList.lookup_insert_ne same] at lookup
        obtain ⟨source, member, named, before⟩ := gathered.source lookup
        exact ⟨source, List.mem_append_left _ member, named, before⟩
    · intro other member some_url
      rw [AList.mem_insert]
      cases List.mem_append.mp member with
      | inl earlier => exact Or.inr (gathered.all other earlier some_url)
      | inr last =>
          rw [List.mem_singleton.mp last]
          exact Or.inl rfl
  case isFalse known =>
    cases added
    constructor
    · intro url found lookup
      obtain ⟨source, member, named, before⟩ := gathered.source lookup
      exact ⟨source, List.mem_append_left _ member, named, before⟩
    · intro other member some_url
      cases List.mem_append.mp member with
      | inl earlier => exact gathered.all other earlier some_url
      | inr last =>
          rw [List.mem_singleton.mp last] at some_url ⊢
          by_contra missing
          exact known ⟨some_url, missing⟩

theorem gathered_foldlM {curl : Curl} {announced before : List SsdpInfo}
    {responses after : ResponsesMap} (gathered : Gathered curl before responses)
    (added : announced.foldlM (addResponse curl) responses = some after) :
    Gathered curl (before ++ announced) after := by
  induction announced generalizing before responses with
  | nil =>
      cases added
      rw [List.append_nil]
      exact gathered
  | cons info announced ih =>
      rw [List.foldlM_cons] at added
      obtain ⟨middle, first, rest⟩ := Option.bind_eq_some_iff.mp added
      have later := ih (gathered_addResponse gathered first) rest
      rw [List.append_assoc] at later
      exact later

theorem gathered_responses {network : Network} {announced : List SsdpInfo}
    (found : network.announced = some announced) {responses : ResponsesMap}
    (done : network.responses = some responses) : Gathered network.curl announced responses := by
  rw [Network.responses, found] at done
  refine @gathered_foldlM _ _ [] _ _ ?_ done
  constructor
  · intro url fetched lookup
    cases lookup
  · intro info member
    cases member

/-- Safe descriptions are all read. -/
theorem responses_of_safe {network : Network} {announced : List SsdpInfo}
    (found : network.announced = some announced)
    (safe : ∀ info ∈ announced, info.url ≠ [] → Safe (network.curl info.url)) :
    ∃ responses, network.responses = some responses := by
  have announcements := announcement_announced found
  rw [Network.responses, found, Option.bind_some]
  clear found
  generalize (∅ : ResponsesMap) = responses
  induction announced generalizing responses with
  | nil => exact ⟨responses, rfl⟩
  | cons info announced ih =>
      have rest := ih (fun other member => safe other (List.mem_cons_of_mem _ member))
        fun other member => announcements other (List.mem_cons_of_mem _ member)
      rw [List.foldlM_cons, addResponse]
      split
      case isTrue new =>
        have first := safe info List.mem_cons_self new.1
        obtain ⟨fetched, done⟩ :=
          fetchDeviceInfo_of_safe (announcements info List.mem_cons_self) first
        rw [done]
        exact rest _
      case isFalse => exact rest _

end Gathering

section Reports

variable {kernel : Nat → Neighbours}

/-- The address of a neighbour, or the one that stands for none. -/
def LinkAddress (kernel : Nat → Neighbours) (ipaddr mac : List Byte) : Prop :=
  (∃ reads hwaddr, (ipaddr, hwaddr) ∈ kernel reads ∧ mac = printMac hwaddr) ∨
    (∃ reads, ∀ hwaddr, (ipaddr, hwaddr) ∉ kernel reads) ∧ mac = unknownMac

/-- The map has what has been read. -/
def Cached (kernel : Nat → Neighbours) (l2map : L2Map) : Prop :=
  ∀ ipaddr mac, l2map ipaddr = some mac →
    ∃ reads hwaddr, (ipaddr, hwaddr) ∈ kernel reads ∧ mac = printMac hwaddr

theorem cached_getL2Map {l2map : L2Map} (cached : Cached kernel l2map) (reads : Nat) :
    Cached kernel (getL2Map (kernel reads) l2map) := by
  rw [getL2Map]
  refine List.foldlRecOn _ _ cached fun before held entry member => ?_
  intro ipaddr mac found
  by_cases same : ipaddr = entry.1
  · subst same
    rw [Function.update_self] at found
    cases found
    exact ⟨reads, entry.2, member, rfl⟩
  · rw [Function.update_of_ne same] at found
    exact held ipaddr mac found

/-- An address that is not in the map is not that of a neighbour. -/
theorem not_mem_of_getL2Map {neighbours : Neighbours} {l2map : L2Map} {ipaddr : List Byte}
    (missing : getL2Map neighbours l2map ipaddr = none) :
    l2map ipaddr = none ∧ ∀ hwaddr, (ipaddr, hwaddr) ∉ neighbours := by
  induction neighbours generalizing l2map with
  | nil => exact ⟨missing, fun _ => List.not_mem_nil⟩
  | cons entry neighbours ih =>
      obtain ⟨before, rest⟩ := ih missing
      have other : ipaddr ≠ entry.1 := by
        rintro rfl
        dsimp only at before
        rw [Function.update_self] at before
        cases before
      dsimp only at before
      rw [Function.update_of_ne other] at before
      refine ⟨before, fun hwaddr member => ?_⟩
      cases member with
      | head => exact other rfl
      | tail _ later => exact rest hwaddr later

theorem getL2addrForIp_spec {cache : L2Cache} (cached : Cached kernel cache.l2map)
    (ipaddr : List Byte) :
    LinkAddress kernel ipaddr (getL2addrForIp kernel ipaddr cache).1 ∧
      Cached kernel (getL2addrForIp kernel ipaddr cache).2.l2map := by
  rw [getL2addrForIp]
  cases known : cache.l2map ipaddr with
  | some mac => exact ⟨Or.inl (cached ipaddr mac known), cached⟩
  | none =>
      have after := cached_getL2Map cached cache.reads
      refine ⟨?_, after⟩
      cases found : getL2Map (kernel cache.reads) cache.l2map ipaddr with
      | some mac => exact Or.inl (by simpa [found] using after ipaddr mac found)
      | none =>
          exact Or.inr ⟨⟨cache.reads, (not_mem_of_getL2Map found).2⟩, by simp [found]⟩

/-- What a report says of its device. -/
structure Reported (kernel : Nat → Neighbours) (infos : List SsdpInfo) (report : Report) : Prop where
  member : report.info ∈ infos
  reached : report.info.failed = false
  own : LinkAddress kernel report.info.ipaddr report.mac
  line : report.line = formatResponse report.info report.mac

theorem reported_formatResponses {cache : L2Cache} (cached : Cached kernel cache.l2map)
    (infos : List SsdpInfo) :
    ∀ report ∈ formatResponses kernel cache infos, Reported kernel infos report := by
  induction infos generalizing cache with
  | nil =>
      intro report member
      cases member
  | cons info infos ih =>
      intro report member
      rw [formatResponses] at member
      split at member
      case isTrue =>
        have later := ih cached report member
        exact ⟨List.mem_cons_of_mem _ later.member, later.reached, later.own, later.line⟩
      case isFalse reached =>
        obtain ⟨own, next⟩ := getL2addrForIp_spec cached info.ipaddr
        cases member with
        | head =>
            exact ⟨List.mem_cons_self, Bool.eq_false_iff.mpr reached, own, rfl⟩
        | tail _ member =>
            have later := ih next report member
            exact ⟨List.mem_cons_of_mem _ later.member, later.reached, later.own, later.line⟩

theorem exists_report {cache : L2Cache} {infos : List SsdpInfo} {info : SsdpInfo}
    (member : info ∈ infos) (reached : info.failed = false) :
    ∃ report ∈ formatResponses kernel cache infos, report.info = info := by
  induction infos generalizing cache with
  | nil => cases member
  | cons first infos ih =>
      rw [formatResponses]
      cases member with
      | head =>
          rw [if_neg (by simp [reached])]
          exact ⟨_, List.mem_cons_self, rfl⟩
      | tail _ member =>
          split
          case isTrue => exact ih member
          case isFalse =>
            obtain ⟨report, later, same⟩ := ih member
            exact ⟨report, List.mem_cons_of_mem _ later, same⟩

end Reports

section Output

theorem not_mem_intercalate {byte : Byte} {pieces : List (List Byte)} (other : byte ≠ ascii ':')
    (outside : ∀ piece ∈ pieces, byte ∉ piece) : byte ∉ [ascii ':'].intercalate pieces := by
  induction pieces with
  | nil => exact List.not_mem_nil
  | cons piece pieces ih =>
      have first := outside piece List.mem_cons_self
      have rest := ih fun piece member => outside piece (List.mem_cons_of_mem _ member)
      cases pieces with
      | nil =>
          rw [List.intercalate_singleton]
          exact first
      | cons next pieces =>
          rw [List.intercalate_cons_cons]
          simp only [List.mem_append, List.mem_singleton, not_or]
          exact ⟨⟨first, other⟩, rest⟩

theorem isxdigit_lineEnd : isxdigit lineEnd = false := by decide

theorem LinkAddress.lineEnd {kernel : Nat → Neighbours} {ipaddr mac : List Byte}
    (own : LinkAddress kernel ipaddr mac) : Lib.lineEnd ∉ mac := by
  cases own with
  | inl known =>
      obtain ⟨reads, hwaddr, -, rfl⟩ := known
      apply not_mem_intercalate (by decide)
      intro piece member inside
      obtain ⟨byte, -, rfl⟩ := List.mem_map.mp member
      have digit := xdigit_printHexByte byte Lib.lineEnd inside
      rw [isxdigit_lineEnd] at digit
      cases digit
  | inr unknown =>
      rw [unknown.2]
      decide

theorem Isolated.lineEnd {mac line : List Byte} (isolated : Isolated mac line)
    (plain : Lib.lineEnd ∉ mac) : Lib.lineEnd ∉ line := by
  obtain ⟨name, rest, rfl, plainName, plainRest⟩ := isolated
  simp only [List.mem_append, not_or]
  exact ⟨⟨⟨⟨⟨by decide, plain⟩, by decide⟩, plainName.1⟩, by decide⟩, plainRest.1⟩

/-- Whole lines are read back. -/
theorem linesOf_flatMap {lines : List (List Byte)} (whole : ∀ line ∈ lines, lineEnd ∉ line) :
    linesOf (lines.flatMap fun line => line ++ [lineEnd]) = lines ++ [[]] := by
  induction lines with
  | nil => rfl
  | cons line lines ih =>
      have first : linesOf line = [line] := List.splitOn_eq_singleton (whole line List.mem_cons_self)
      have rest := ih fun other member => whole other (List.mem_cons_of_mem _ member)
      rw [List.flatMap_cons, List.append_assoc, List.singleton_append, linesOf_append, first, rest]
      rfl

theorem resultsSet_perm (results : List (List Byte)) : (resultsSet results).Perm results.dedup :=
  List.perm_insertionSort _ _

end Output

section Main

namespace Network

/-- One line is printed for each result that is different from the others, and it names the address
of its device. -/
structure Isolates (network : Network) (reports : List Report) (output : List Byte) : Prop where
  reported : network.reports = some reports
  printed : network.main = some output
  lines : ∃ lines : List (List Byte), linesOf output = lines ++ [[]] ∧ lines.Nodup ∧
    ∀ line, line ∈ lines ↔ ∃ report ∈ reports, report.line = line
  own : ∀ report ∈ reports, LinkAddress network.kernel report.info.ipaddr report.mac
  isolated : ∀ report ∈ reports, Isolated report.mac report.line

end Network

/-- The devices that are reported are those that have been fetched. -/
theorem mem_infos_iff {network : Network} {responses : ResponsesMap} {info : SsdpInfo} :
    info ∈ network.order.arrange (responses.entries.map Sigma.snd) ↔
      ∃ url, responses.lookup url = some info := by
  rw [IterationOrder.mem_arrange, List.mem_map]
  constructor
  · rintro ⟨entry, member, rfl⟩
    exact ⟨entry.1, AList.mem_lookup_iff.mpr member⟩
  · rintro ⟨url, found⟩
    exact ⟨⟨url, info⟩, AList.mem_lookup_iff.mp found, rfl⟩

theorem cached_start (kernel : Nat → Neighbours) : Cached kernel L2Cache.empty.l2map := by
  intro ipaddr mac found
  cases found

theorem isolated_reports_iff {network : Network} {reports : List Report}
    (done : network.reports = some reports) {announced : List SsdpInfo}
    (received : network.announced = some announced) :
    (∀ report ∈ reports, Isolated report.mac report.line) ↔
      ∀ info ∈ announced, info.url ≠ [] → Safe (network.curl info.url) := by
  have announcements := announcement_announced received
  obtain ⟨responses, found, rfl⟩ := Option.map_eq_some_iff.mp done
  have gathered := gathered_responses received found
  have reported := reported_formatResponses (cached_start network.kernel)
    (network.order.arrange (responses.entries.map Sigma.snd))
  constructor
  · intro isolated info announced some_url
    obtain ⟨fetched, known⟩ :=
      Option.isSome_iff_exists.mp (AList.lookup_isSome.mpr (gathered.all info announced some_url))
    obtain ⟨source, member, same, -, got⟩ := gathered.source known
    obtain ⟨srvType, safe⟩ := fetchDeviceInfo_spec (announcements source member) got
    refine safe.mp fun reached => ?_
    obtain ⟨report, inside, rfl⟩ :=
      exists_report (mem_infos_iff.mpr ⟨info.url, known⟩) reached
    have plain : Plain report.info.srvType := srvType ▸ (announcements source member).plain
    rw [← isolated_formatResponse_iff plain report.mac, ← (reported report inside).line]
    exact isolated report inside
  · intro safe report inside
    have shown := reported report inside
    obtain ⟨url, known⟩ := mem_infos_iff.mp shown.member
    obtain ⟨source, member, rfl, some_url, got⟩ := gathered.source known
    obtain ⟨srvType, tidy⟩ := fetchDeviceInfo_spec (announcements source member) got
    have plain : Plain report.info.srvType := srvType ▸ (announcements source member).plain
    rw [shown.line, isolated_formatResponse_iff plain]
    exact tidy.mpr (safe source member some_url) shown.reached

theorem announced_of_reports {network : Network} {reports : List Report}
    (done : network.reports = some reports) : ∃ announced, network.announced = some announced := by
  obtain ⟨responses, found, -⟩ := Option.map_eq_some_iff.mp done
  obtain ⟨announced, received, -⟩ := Option.bind_eq_some_iff.mp found
  exact ⟨announced, received⟩

/-- The output is made of such lines exactly if no length that wraps around leads out of the answer,
and every description that has been fetched opens the labels that it closes, and has neither line
ends nor semicolons in the texts that are shown. -/
theorem main_isolates_iff (network : Network) :
    (∃ reports output, network.Isolates reports output) ↔
      (∀ response ∈ network.held, response.Contained) ∧
      ∀ announced ∈ network.announced, ∀ info ∈ announced, info.url ≠ [] →
        Safe (network.curl info.url) := by
  constructor
  · rintro ⟨reports, output, isolates⟩
    obtain ⟨announced, received⟩ := announced_of_reports isolates.reported
    refine ⟨(announced_isSome_iff network).mp (by simp [received]), fun other again => ?_⟩
    cases received.symm.trans again
    exact (isolated_reports_iff isolates.reported received).mp isolates.isolated
  · rintro ⟨contained, safe⟩
    obtain ⟨announced, received⟩ :=
      Option.isSome_iff_exists.mp ((announced_isSome_iff network).mpr contained)
    have safe := safe announced received
    obtain ⟨responses, found⟩ := responses_of_safe received safe
    have done : network.reports = some _ := congrArg (Option.map _) found
    have isolated := (isolated_reports_iff done received).mpr safe
    have reported := reported_formatResponses (cached_start network.kernel)
      (network.order.arrange (responses.entries.map Sigma.snd))
    have perm := resultsSet_perm ((formatResponses network.kernel .empty
      (network.order.arrange (responses.entries.map Sigma.snd))).map Report.line)
    refine ⟨_, _, done, congrArg (Option.map _) done, ⟨_, linesOf_flatMap ?_, ?_, ?_⟩, ?_, isolated⟩
    · intro line member
      obtain ⟨report, inside, rfl⟩ :=
        List.mem_map.mp (List.mem_dedup.mp (perm.mem_iff.mp member))
      exact (isolated report inside).lineEnd (reported report inside).own.lineEnd
    · exact perm.nodup_iff.mpr (List.nodup_dedup _)
    · intro line
      rw [perm.mem_iff, List.mem_dedup, List.mem_map]
    · intro report inside
      exact (reported report inside).own

/-- A device whose name has a line of another one. -/
def spoof : Network where
  signedChar := true
  heap := ⟨fun _ => 0x7f0000001000, fun _ => by decide, fun _ => by decide⟩
  answer := [1, 1, ascii 'u', 1, ascii 's', 0]
  packets := []
  curl _ := .performed true
    (bytesOf "<friendlyName>a;b\nssdp 00:11:22:33:44:55 c</friendlyName>") none
  kernel _ := []
  order := .inserted

theorem not_isolates_spoof :
    spoof.main = some (bytesOf "ssdp 00:00:00:00:00:00 a;b\nssdp 00:11:22:33:44:55 c;\n") ∧
      ¬ ∃ reports output, spoof.Isolates reports output := by
  constructor
  · decide +kernel
  · rintro ⟨reports, output, isolates⟩
    have received : spoof.announced = some [{ url := [ascii 'u'], srvType := [ascii 's'] }] := by
      decide +kernel
    have safe := (isolated_reports_iff isolates.reported received).mp isolates.isolated
    have tidy := (safe { url := [ascii 'u'], srvType := [ascii 's'] } (by decide) (by decide)).2
    revert tidy
    decide +kernel

end Main

end Gfiber.Ssdptax
