import Gfiber.Ssdptax.Addresses
import Gfiber.Ssdptax.AddressProperties
import Gfiber.Ssdptax.OutputProperties

/-! Which fields of a description lie in it, and the loop over the records. -/

set_option autoImplicit false

namespace Gfiber.Ssdptax

open Lib

namespace Placed

section Fields

variable (string : Placed) {label : String} {place : Nat}

/-- A field that is found is a part of the string. -/
def FieldInside (field : Option (BitVec 64 × BitVec 64)) : Prop :=
  ∀ start len, field = some (start, len) → string.address ≤ start ∧
    start.toNat + len.toNat ≤ string.address.toNat + string.bytes.length

theorem cStr_length : (cStr string.bytes).length ≤ string.bytes.length :=
  (List.takeWhile_prefix _).length_le

theorem strcasestr_some {needle : List Byte}
    (found : Lib.strcasestr needle (cStr string.bytes) = some place) :
    string.strcasestr needle = string.pointer place := by
  rw [strcasestr, found]
  rfl

theorem strcasestr_none {needle : List Byte}
    (missing : Lib.strcasestr needle (cStr string.bytes) = none) :
    string.strcasestr needle = 0#64 := by
  rw [strcasestr, missing]
  rfl

theorem pointer_inside (inside : place ≤ string.bytes.length) :
    (string.pointer place).toNat = string.address.toNat + place := by
  have fits := string.fits
  rw [pointer_toNat, Nat.mod_eq_of_lt (by omega)]

/-- A label that is opened is looked up as in the list of the bytes. -/
theorem findXmlField_opened {opened : Nat}
    (found : Lib.strcasestr (openLabel label) (cStr string.bytes) = some opened) :
    string.findXmlField label =
      match Lib.strcasestr (closeLabel label) (cStr string.bytes) with
      | none => none
      | some close =>
          if opened + (openLabel label).length < close then
            some (string.pointer (opened + (openLabel label).length),
              BitVec.ofNat 64 (close - (opened + (openLabel label).length)))
          else none := by
  have fits := string.fits
  have shorter := string.cStr_length
  have bound := length_of_strcasestr found
  have start : string.strcasestr (openLabel label) + BitVec.ofNat 64 (openLabel label).length =
      string.pointer (opened + (openLabel label).length) := by
    rw [string.strcasestr_some found, pointer_add, BitVec.toNat_ofNat, Nat.mod_eq_of_lt (by omega)]
  rw [findXmlField, start]
  cases closed : Lib.strcasestr (closeLabel label) (cStr string.bytes) with
  | none =>
      rw [string.strcasestr_none closed, if_neg BitVec.not_lt_zero]
  | some close =>
      have ends := length_of_strcasestr closed
      have first := string.pointer_inside (show opened + (openLabel label).length ≤ _ by omega)
      have last := string.pointer_inside (show close ≤ _ by omega)
      rw [string.strcasestr_some closed]
      dsimp only
      by_cases before : opened + (openLabel label).length < close
      · rw [if_pos before, if_pos (by rw [BitVec.lt_def]; omega)]
        have length : string.pointer close - string.pointer (opened + (openLabel label).length) =
            BitVec.ofNat 64 (close - (opened + (openLabel label).length)) := by
          apply BitVec.eq_of_toNat_eq
          rw [BitVec.toNat_sub_of_le (by rw [BitVec.le_def]; omega), BitVec.toNat_ofNat,
            Nat.mod_eq_of_lt (by omega)]
          omega
        rw [length]
      · rw [if_neg before, if_neg (by rw [BitVec.lt_def]; omega)]

/-- A label that is not opened is taken to be opened behind the null pointer. -/
theorem findXmlField_unopened
    (missing : Lib.strcasestr (openLabel label) (cStr string.bytes) = none)
    (short : (openLabel label).length < 4096) :
    (Lib.strcasestr (closeLabel label) (cStr string.bytes) = none →
      string.findXmlField label = none) ∧
    ∀ close, Lib.strcasestr (closeLabel label) (cStr string.bytes) = some close →
      ∃ len, string.findXmlField label =
        some (BitVec.ofNat 64 (openLabel label).length, len) := by
  have shorter := string.cStr_length
  have page := string.page
  rw [findXmlField, string.strcasestr_none missing, BitVec.zero_add]
  refine ⟨fun unclosed => ?_, fun close closed => ?_⟩
  · rw [string.strcasestr_none unclosed, if_neg BitVec.not_lt_zero]
  · have ends := length_of_strcasestr closed
    have last := string.pointer_inside (show close ≤ _ by omega)
    rw [string.strcasestr_some closed, if_pos (by rw [BitVec.lt_def, BitVec.toNat_ofNat, last]; omega)]
    exact ⟨_, rfl⟩

theorem fieldInside_iff (short : (openLabel label).length < 4096) :
    string.FieldInside (string.findXmlField label) ↔ Opened (cStr string.bytes) label := by
  have shorter := string.cStr_length
  have page := string.page
  have fits := string.fits
  rw [Opened]
  cases opened : Lib.strcasestr (openLabel label) (cStr string.bytes) with
  | none =>
      obtain ⟨unclosed, small⟩ := string.findXmlField_unopened opened short
      cases closed : Lib.strcasestr (closeLabel label) (cStr string.bytes) with
      | none =>
          rw [unclosed closed]
          refine iff_of_true (fun _ _ found => ?_) fun some_close => ?_
          · cases found
          · cases some_close
      | some close =>
          obtain ⟨len, found⟩ := small close closed
          refine iff_of_false (fun inside => ?_) fun all => ?_
          · have least := (inside _ _ found).1
            rw [BitVec.le_def, BitVec.toNat_ofNat] at least
            omega
          · cases all rfl
  | some place =>
      refine iff_of_true (fun start len found => ?_) fun _ => rfl
      rw [string.findXmlField_opened opened] at found
      cases closed : Lib.strcasestr (closeLabel label) (cStr string.bytes) with
      | none =>
          rw [closed] at found
          cases found
      | some close =>
          rw [closed] at found
          dsimp only at found
          have ends := length_of_strcasestr closed
          split at found
          case isFalse => cases found
          case isTrue before =>
            cases found
            have first := string.pointer_inside
              (show place + (openLabel label).length ≤ _ by omega)
            rw [BitVec.le_def, first, BitVec.toNat_ofNat, Nat.mod_eq_of_lt (by omega)]
            omega

end Fields

section Extraction

variable (string : Placed)

/-- A field in the string is read without leaving it. -/
theorem readField_inside {field : Option (BitVec 64 × BitVec 64)} (inside : string.FieldInside field)
    (before : List Byte) : ∃ text, string.readField field before = .ok text := by
  have fits := string.fits
  cases field with
  | none => exact ⟨before, rfl⟩
  | some found =>
      obtain ⟨start, len⟩ := found
      obtain ⟨least, most⟩ := inside start len rfl
      rw [BitVec.le_def] at least
      have length : ((string.memory start).take len.toNat).length = len.toNat := by
        rw [List.length_take, memory, List.length_drop, List.length_append, List.length_singleton,
          BitVec.toNat_sub_of_le (BitVec.le_def.mpr least)]
        omega
      rw [readField]
      split
      case isTrue => exact ⟨_, if_pos length⟩
      case isFalse => exact ⟨before, rfl⟩

/-- Each field that is looked for is in the description, and no other byte is read. -/
structure FieldsInside (buffer : Placed) (info : SsdpInfo) : Prop where
  name : buffer.FieldInside (buffer.findXmlField "friendlyName")
  description : buffer.findXmlField "friendlyName" = none →
    buffer.FieldInside (buffer.findXmlField "modelDescription")
  manufacturer : buffer.FieldInside (buffer.findXmlField "manufacturer")
  model : buffer.FieldInside (buffer.findXmlField "modelName")
  reads : buffer.extractFieldsFromBuffer info ≠ .error .outside

theorem extractFields_inside {info : SsdpInfo} (name : string.FieldInside string.findName)
    (manufacturer : string.FieldInside (string.findXmlField "manufacturer"))
    (model : string.FieldInside (string.findXmlField "modelName")) :
    string.extractFieldsFromBuffer info ≠ .error .outside := by
  obtain ⟨first, readFirst⟩ := string.readField_inside name info.friendlyName
  obtain ⟨second, readSecond⟩ := string.readField_inside manufacturer info.manufacturer
  obtain ⟨third, readThird⟩ := string.readField_inside model info.model
  rw [extractFieldsFromBuffer, readFirst, readSecond, readThird]
  exact fun same => by cases same

/-- A label that is opened if it is closed is found in memory just if it is found in the list. -/
theorem findXmlField_none_iff {label : String} (opened : Opened (cStr string.bytes) label)
    (short : (openLabel label).length < 4096) :
    string.findXmlField label = none ↔
      Ssdptax.findXmlField (cStr string.bytes) label = some none := by
  rw [Ssdptax.findXmlField]
  cases place : Lib.strcasestr (openLabel label) (cStr string.bytes) with
  | none =>
      cases closed : Lib.strcasestr (closeLabel label) (cStr string.bytes) with
      | none => exact iff_of_true ((string.findXmlField_unopened place short).1 closed) rfl
      | some close =>
          rw [Opened, place, closed] at opened
          cases opened rfl
  | some start =>
      rw [string.findXmlField_opened place]
      cases closed : Lib.strcasestr (closeLabel label) (cStr string.bytes) with
      | none => exact iff_of_true rfl rfl
      | some close =>
          dsimp only
          split
          case isTrue => exact iff_of_false (fun found => by cases found) fun found => by cases found
          case isFalse => exact iff_of_true rfl rfl

theorem fieldsInside_iff (info : SsdpInfo) :
    string.FieldsInside info ↔ Readable (cStr string.bytes) := by
  have name := string.fieldInside_iff (show (openLabel "friendlyName").length < 4096 by decide)
  have description :=
    string.fieldInside_iff (show (openLabel "modelDescription").length < 4096 by decide)
  have manufacturer :=
    string.fieldInside_iff (show (openLabel "manufacturer").length < 4096 by decide)
  have model := string.fieldInside_iff (show (openLabel "modelName").length < 4096 by decide)
  constructor
  · intro inside
    have opened := name.mp inside.name
    have nameless := string.findXmlField_none_iff opened (by decide)
    exact ⟨opened, fun missing => description.mp (inside.description (nameless.mpr missing)),
      manufacturer.mp inside.manufacturer, model.mp inside.model⟩
  · intro readable
    have nameless := string.findXmlField_none_iff readable.name (by decide)
    have second : string.findXmlField "friendlyName" = none →
        string.FieldInside (string.findXmlField "modelDescription") := fun missing =>
      description.mpr (readable.description (nameless.mp missing))
    have named : string.FieldInside string.findName := by
      have first := name.mpr readable.name
      rw [findName]
      cases found : string.findXmlField "friendlyName" with
      | none => exact second found
      | some field =>
          rw [found] at first
          exact first
    exact ⟨name.mpr readable.name, second, manufacturer.mpr readable.manufacturer,
      model.mpr readable.model,
      string.extractFields_inside named (manufacturer.mpr readable.manufacturer)
        (model.mpr readable.model)⟩

end Extraction

end Placed

section Loop

/-- Each pass takes one from the number. -/
theorem num_run {start finish : Records} {trace : List (Records × Placed)}
    (run : Run Records.Step start trace finish) :
    finish.num + trace.length = start.num ∧ (trace ≠ [] → 0 ≤ finish.num) := by
  induction run with
  | nil => exact ⟨Int.add_zero _, fun some_pass => absurd rfl some_pass⟩
  | snoc _ step ih =>
      cases step with
      | record more _ _ =>
          have before := ih.1
          rw [List.length_append, List.length_singleton]
          simp only [Records.after]
          exact ⟨by omega, fun _ => by omega⟩

/-- The loop ends. The records are read without leaving the response just if the lengths that wrap
around are harmless, and a description just if each label that is closed is opened. -/
theorem stays_inside_iff (num : Int) (answer : List Byte) (body : Placed) (info : SsdpInfo) :
    (∀ trace finish, Run Records.Step ⟨num, answer⟩ trace finish →
      trace.length ≤ num.toNat ∧
        (StepsMeet (fun _ response => response.Sound) trace ↔
          StepsMeet (fun _ response => response.Harmless) trace)) ∧
    (body.FieldsInside info ↔ Readable (cStr body.bytes)) := by
  refine ⟨fun trace finish run => ⟨?_, ?_⟩, body.fieldsInside_iff info⟩
  · obtain ⟨total, natural⟩ := num_run run
    dsimp only at total
    by_cases some_pass : trace = []
    · rw [some_pass]
      exact Nat.zero_le _
    · have left := natural some_pass
      omega
  · exact ⟨fun sound entry member => entry.2.sound_iff.mp (sound entry member),
      fun harmless entry member => entry.2.sound_iff.mpr (harmless entry member)⟩

/-- A length of 2^64 - 16, alone. -/
def wrappedResponse : Placed where
  address := 0x7f0000001000
  bytes := 0x81 :: List.replicate 8 0xff ++ [0x70]
  page := by decide
  fits := by decide

set_option maxRecDepth 4000 in
/-- An empty URL, and a type of 2^64 - 11 bytes, which ends where the response starts. -/
def rewoundResponse : Placed where
  address := 0x7f0000001000
  bytes := 0 :: 0x81 :: List.replicate 8 0xff ++ 0x75 :: List.replicate 253 (ascii 'a')
  page := by decide
  fits := by decide

def closedBody : Placed where
  address := 0x7f0000001000
  bytes := bytesOf "</friendlyName>"
  page := by decide
  fits := by decide

set_option maxRecDepth 8000 in
/-- Bytes behind the first response are read, only one byte of the second is removed, and the field
of the description starts at the address 14. -/
theorem leaves_responses :
    wrappedResponse.parseMinissdpdResponse = .error .outside ∧
      rewoundResponse.parseMinissdpdResponse.map (fun parsed => parsed.1.length) = .ok 263 ∧
      rewoundResponse.bytes.length = 264 ∧
      (closedBody.findXmlField "friendlyName").map Prod.fst = some 14 ∧
      ¬wrappedResponse.Sound ∧ ¬rewoundResponse.Sound ∧ ¬closedBody.FieldsInside {} := by
  have outside : wrappedResponse.parseMinissdpdResponse = .error .outside := by decide
  have rewound : rewoundResponse.parseMinissdpdResponse.map (fun parsed => parsed.1.length) =
      .ok 263 := by decide
  have wild : (closedBody.findXmlField "friendlyName").map Prod.fst = some 14 := by decide
  refine ⟨outside, rewound, rfl, wild, fun sound => sound.inside outside, fun sound => ?_,
    fun inside => ?_⟩
  · cases parsed : rewoundResponse.parseMinissdpdResponse with
    | error stop =>
        rw [parsed] at rewound
        cases rewound
    | ok result =>
        rw [parsed] at rewound
        have removed := sound.removes result.1 result.2 parsed
        have left : result.1.length = 263 := Except.ok.inj rewound
        have whole : rewoundResponse.bytes.length = 264 := rfl
        omega
  · obtain ⟨field, found, start⟩ := Option.map_eq_some_iff.mp wild
    have least := (inside.name field.1 field.2 found).1
    rw [start] at least
    exact absurd least (by decide)

end Loop

end Gfiber.Ssdptax
