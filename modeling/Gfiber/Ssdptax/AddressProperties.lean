import Gfiber.Ssdptax.Responses

/-! Which records are read without leaving them. -/

set_option autoImplicit false

namespace Gfiber.Ssdptax

open Lib

/-- `DECODELENGTH`, with the zero byte behind the string. -/
def decodeLength (n : Nat) : List Byte → Nat × List Byte
  | [] => (n, [])
  | byte :: p =>
      let n := (n <<< 7 ||| (byte &&& 0x7f).toNat) % 2 ^ 64
      if byte &&& 0x80 = 0 then (n, p) else decodeLength n p

namespace Placed

section Pointers

variable (string : Placed) {offset slen : Nat}

/-- The pointer to an offset. -/
def pointer (offset : Nat) : BitVec 64 :=
  string.address + BitVec.ofNat 64 offset

theorem pointer_zero : string.pointer 0 = string.address :=
  BitVec.add_zero _

theorem pointer_toNat : (string.pointer offset).toNat = (string.address.toNat + offset) % 2 ^ 64 := by
  rw [pointer, BitVec.toNat_add, BitVec.toNat_ofNat, Nat.add_mod_mod]

theorem pointer_add (n : BitVec 64) :
    string.pointer offset + n = string.pointer (offset + n.toNat) := by
  apply BitVec.eq_of_toNat_eq
  rw [BitVec.toNat_add, pointer_toNat, pointer_toNat, Nat.mod_add_mod, Nat.add_assoc]

theorem pointer_mod : string.pointer (offset % 2 ^ 64) = string.pointer offset := by
  apply BitVec.eq_of_toNat_eq
  rw [pointer_toNat, pointer_toNat, Nat.add_mod_mod]

theorem pointer_sub : (string.pointer offset - string.address).toNat = offset % 2 ^ 64 := by
  rw [pointer, BitVec.add_comm, BitVec.add_sub_cancel, BitVec.toNat_ofNat]

/-- No byte in front of the string belongs to it, and none behind its zero byte. -/
theorem memory_pointer :
    string.memory (string.pointer offset) = (string.bytes ++ [0]).drop (offset % 2 ^ 64) := by
  rw [memory, pointer_sub]

theorem finish_toNat : string.finish.toNat = string.address.toNat + string.bytes.length := by
  have fits := string.fits
  change (string.pointer string.bytes.length).toNat = _
  rw [pointer_toNat, Nat.mod_eq_of_lt (by omega)]

end Pointers

section Codes

/-- A length, and the offset behind its code. -/
structure Code where
  length : Nat
  behind : Nat

/-- The code at an offset. -/
def codeAt (string : Placed) (offset : Nat) : Code :=
  let (slen, rest) := Ssdptax.decodeLength 0 ((string.bytes ++ [0]).drop offset)
  ⟨slen, string.bytes.length + 1 - rest.length⟩

/-- Where the text of a code ends, as an offset of 64 bits. -/
def Code.next (code : Code) : Nat :=
  (code.behind + code.length) % 2 ^ 64

/-- The pointer to the end of the text wraps around. -/
def Wraps (string : Placed) (code : Code) : Prop :=
  2 ^ 64 ≤ string.address.toNat + code.behind + code.length

/-- The length is not refused. -/
def Passes (string : Placed) (code : Code) : Prop :=
  string.Wraps code ∨ code.behind + code.length ≤ string.bytes.length

/-- A pointer that wraps around comes back to the string, and what is copied is there. -/
def Lands (string : Placed) (code : Code) : Prop :=
  2 ^ 64 ≤ code.behind + code.length ∧ code.behind + 253 ≤ string.bytes.length

theorem shifted_toNat (n : BitVec 64) (byte : Byte) :
    (n <<< 7 ||| (byte &&& 0x7f).setWidth 64).toNat =
      (n.toNat <<< 7 ||| (byte &&& 0x7f).toNat) % 2 ^ 64 := by
  have small : (byte &&& 0x7f).toNat < 2 ^ 64 :=
    Nat.lt_of_lt_of_le (byte &&& 0x7f).isLt (by decide)
  rw [BitVec.toNat_or, BitVec.toNat_shiftLeft, BitVec.toNat_setWidth, Nat.or_mod_two_pow]

/-- The zero byte ends each code. -/
theorem decodeLength_eq (n : BitVec 64) (text : List Byte) :
    ∃ slen read, decodeLength n (text ++ [0]) = some (slen, read) ∧ 1 ≤ read ∧
      read ≤ text.length + 1 ∧
      Ssdptax.decodeLength n.toNat (text ++ [0]) = (slen.toNat, (text ++ [0]).drop read) := by
  induction text generalizing n with
  | nil =>
      refine ⟨n <<< 7 ||| (0 &&& 0x7f : Byte).setWidth 64, 1, rfl, Nat.le_refl 1, Nat.le_refl 1, ?_⟩
      rw [shifted_toNat]
      rfl
  | cons byte text ih =>
      rw [List.cons_append, decodeLength, Ssdptax.decodeLength, ← shifted_toNat]
      by_cases last : byte &&& 0x80 = 0
      · rw [if_pos last, if_pos last]
        exact ⟨_, 1, rfl, Nat.le_refl 1, Nat.le_add_left 1 _, rfl⟩
      · obtain ⟨slen, read, decoded, some_byte, few, same⟩ :=
          ih (n <<< 7 ||| (byte &&& 0x7f).setWidth 64)
        rw [if_neg last, if_neg last, decoded, same]
        exact ⟨slen, read + 1, rfl, Nat.le_add_left 1 _, Nat.succ_le_succ few, rfl⟩

variable (string : Placed) {offset : Nat}

/-- What is read at a pointer into the string. -/
theorem codeAt_spec (inside : offset ≤ string.bytes.length) :
    ∃ slen read, decodeLength 0 (string.memory (string.pointer offset)) = some (slen, read) ∧
      string.codeAt offset = ⟨slen.toNat, offset + read⟩ ∧ 1 ≤ read ∧
      offset + read ≤ string.bytes.length + 1 ∧
      Ssdptax.decodeLength 0 ((string.bytes ++ [0]).drop offset) =
        (slen.toNat, (string.bytes ++ [0]).drop (offset + read)) := by
  have fits := string.fits
  have here : (string.bytes ++ [0]).drop offset = string.bytes.drop offset ++ [0] :=
    List.drop_append_of_le_length inside
  obtain ⟨slen, read, decoded, some_byte, few, same⟩ :=
    decodeLength_eq 0 (string.bytes.drop offset)
  rw [List.length_drop] at few
  have zero : (0 : BitVec 64).toNat = 0 := rfl
  rw [zero] at same
  refine ⟨slen, read, ?_, ?_, some_byte, by omega, ?_⟩
  · rw [memory_pointer, Nat.mod_eq_of_lt (by omega), here, decoded]
  · rw [codeAt, here, same]
    have left : ((string.bytes.drop offset ++ [0]).drop read).length =
        string.bytes.length - offset + 1 - read := by
      rw [List.length_drop, List.length_append, List.length_drop, List.length_singleton]
    dsimp only
    rw [left]
    congr 1
    omega
  · rw [← List.drop_drop, here, same]

/-- A length that is taken leads to the offset behind its code. -/
theorem takeLength_eq (inside : offset ≤ string.bytes.length) :
    ∃ slen, slen.toNat = (string.codeAt offset).length ∧
      string.takeLength (string.pointer offset) =
        if string.finish < string.pointer (string.codeAt offset).behind + slen then
          .error .refused
        else .ok (slen, string.pointer (string.codeAt offset).behind) := by
  have fits := string.fits
  obtain ⟨slen, read, decoded, code, _, few, _⟩ := string.codeAt_spec inside
  refine ⟨slen, by rw [code], ?_⟩
  have moved : string.pointer offset + BitVec.ofNat 64 read = string.pointer (offset + read) := by
    rw [pointer_add, BitVec.toNat_ofNat, Nat.mod_eq_of_lt (by omega)]
  rw [takeLength, decoded, code]
  dsimp only
  rw [moved]

theorem takeLength_outside (before : string.bytes.length < offset) (small : offset < 2 ^ 64) :
    string.takeLength (string.pointer offset) = .error .outside := by
  have none_left : string.memory (string.pointer offset) = [] := by
    rw [memory_pointer, Nat.mod_eq_of_lt small, List.drop_eq_nil_iff, List.length_append]
    exact before
  rw [takeLength, none_left]
  rfl

theorem codeAt_bounds (inside : offset ≤ string.bytes.length) :
    offset < (string.codeAt offset).behind ∧
      (string.codeAt offset).behind ≤ string.bytes.length + 1 ∧
      (string.codeAt offset).length < 2 ^ 64 := by
  obtain ⟨slen, read, _, code, some_byte, few, _⟩ := string.codeAt_spec inside
  rw [code]
  exact ⟨Nat.lt_add_of_pos_right some_byte, few, slen.isLt⟩

/-- The check is passed just by what wraps around and by what ends in the string. -/
theorem refused_iff {code : Code} (behind : code.behind ≤ string.bytes.length + 1) {slen : BitVec 64}
    (length : slen.toNat = code.length) :
    string.finish < string.pointer code.behind + slen ↔ ¬string.Passes code := by
  have fits := string.fits
  have bound := slen.isLt
  rw [pointer_add, BitVec.lt_def, finish_toNat, pointer_toNat, length, Passes, Wraps]
  rw [length] at bound
  by_cases wraps : 2 ^ 64 ≤ string.address.toNat + code.behind + code.length
  · have turned : (string.address.toNat + (code.behind + code.length)) % 2 ^ 64 =
        string.address.toNat + code.behind + code.length - 2 ^ 64 := by
      rw [← Nat.add_assoc, Nat.mod_eq_sub_mod wraps, Nat.mod_eq_of_lt (by omega)]
    rw [turned]
    omega
  · rw [Nat.mod_eq_of_lt (by omega)]
    omega

end Codes

section Records

variable (string : Placed) {offset : Nat}

/-- How many bytes are copied. -/
def limit (length : Nat) : Nat :=
  if 255 ≤ length then 254 else length

theorem strncpyLimited_eq {code : Code} (behind : code.behind ≤ string.bytes.length + 1)
    {slen : BitVec 64} (length : slen.toNat = code.length) :
    string.strncpyLimited 256 (string.pointer code.behind) slen =
      if code.behind + limit code.length ≤ string.bytes.length + 1 then
        .ok ((((string.bytes ++ [0]).drop code.behind).take (limit code.length)).map limitByte)
      else .error .outside := by
  have fits := string.fits
  rw [strncpyLimited, memory_pointer, Nat.mod_eq_of_lt (show code.behind < 2 ^ 64 by omega), length]
  change (if (((string.bytes ++ [0]).drop code.behind).take (limit code.length)).length =
    limit code.length then _ else _) = _
  rw [List.length_take, List.length_drop, List.length_append, List.length_singleton]
  by_cases fit : code.behind + limit code.length ≤ string.bytes.length + 1
  · rw [if_pos fit, if_pos (by omega)]
    rfl
  · rw [if_neg fit, if_neg (by omega)]

theorem next_pointer {code : Code} {slen : BitVec 64} (length : slen.toNat = code.length) :
    string.pointer code.behind + slen = string.pointer code.next := by
  rw [pointer_add, length, Code.next, pointer_mod]

/-- Where a text ends that has been taken. -/
theorem next_inside {code : Code} (bounds : code.behind ≤ string.bytes.length + 1)
    (length : code.length < 2 ^ 64) (passes : string.Passes code)
    (lands : string.Wraps code → string.Lands code) : code.next ≤ string.bytes.length := by
  have fits := string.fits
  rw [Code.next]
  by_cases wraps : string.Wraps code
  · have back := (lands wraps).1
    rw [Nat.mod_eq_sub_mod back, Nat.mod_eq_of_lt (by omega)]
    omega
  · have ends := passes.resolve_left wraps
    rw [Nat.mod_eq_of_lt (by omega)]
    exact ends

theorem next_outside {code : Code} (wraps : string.Wraps code)
    (away : code.behind + code.length < 2 ^ 64) : string.bytes.length < code.next := by
  have fits := string.fits
  rw [Wraps] at wraps
  rw [Code.next, Nat.mod_eq_of_lt away]
  omega

/-- What becomes of a text that is copied, before the rest of the record. -/
theorem text_spec {Value : Type} (rest : List Byte → BitVec 64 → Except Stop Value)
    (leaves : ∀ text offset, string.bytes.length < offset → offset < 2 ^ 64 →
      rest text (string.pointer offset) = .error .outside)
    {code : Code} (here : string.codeAt offset = code) (inside : offset ≤ string.bytes.length) :
    let result := string.takeLength (string.pointer offset) >>= fun taken =>
      string.strncpyLimited 256 taken.2 taken.1 >>= fun text => rest text (taken.2 + taken.1)
    (¬string.Passes code → result = .error .refused) ∧
      (string.Wraps code → ¬string.Lands code → result = .error .outside) ∧
      (string.Passes code → (string.Wraps code → string.Lands code) →
        result = rest
          ((((string.bytes ++ [0]).drop code.behind).take (limit code.length)).map limitByte)
          (string.pointer code.next)) := by
  have fits := string.fits
  have page := string.page
  obtain ⟨slen, length, taken⟩ := string.takeLength_eq inside
  obtain ⟨_, behind, small⟩ := string.codeAt_bounds inside
  rw [here] at length taken behind small
  have refused := string.refused_iff behind length
  have copied := string.strncpyLimited_eq behind length
  have next := string.next_pointer length
  dsimp only
  refine ⟨fun fails => ?_, fun wraps away => ?_, fun passes lands => ?_⟩
  · rw [taken, if_pos (refused.mpr fails)]
    rfl
  · have accepted : ¬string.finish < string.pointer code.behind + slen := fun stopped =>
      refused.mp stopped (.inl wraps)
    rw [taken, if_neg accepted]
    change (string.strncpyLimited 256 (string.pointer code.behind) slen >>= fun text =>
      rest text (string.pointer code.behind + slen)) = _
    rw [copied, next]
    split
    case isTrue fit =>
      refine leaves _ _ (string.next_outside wraps ?_) (Nat.mod_lt _ (by decide))
      by_contra back
      refine away ⟨by omega, ?_⟩
      rw [limit, if_pos (by omega)] at fit
      omega
    case isFalse => rfl
  · have accepted : ¬string.finish < string.pointer code.behind + slen := fun stopped =>
      refused.mp stopped passes
    have fit : code.behind + limit code.length ≤ string.bytes.length + 1 := by
      rw [limit]
      by_cases wraps : string.Wraps code
      · have room := (lands wraps).2
        have back := (lands wraps).1
        rw [if_pos (by omega)]
        omega
      · have ends := passes.resolve_left wraps
        split
        case isTrue => omega
        case isFalse => omega
    rw [taken, if_neg accepted]
    change (string.strncpyLimited 256 (string.pointer code.behind) slen >>= fun text =>
      rest text (string.pointer code.behind + slen)) = _
    rw [copied, next, if_pos fit]
    rfl

/-- The record from its UUID on, and from its type on. -/
def afterSrvType (response : Placed) (url srvType : List Byte) (p : BitVec 64) :
    Except Stop (List Byte × SsdpInfo) :=
  response.takeLength p >>= fun taken =>
    .ok (response.bytes.drop (taken.2 + taken.1 - response.address).toNat,
      { url := url, srvType := srvType })

def afterUrl (response : Placed) (url : List Byte) (p : BitVec 64) :
    Except Stop (List Byte × SsdpInfo) :=
  response.takeLength p >>= fun taken =>
    response.strncpyLimited 256 taken.2 taken.1 >>= fun srvType =>
      response.afterSrvType url srvType (taken.2 + taken.1)

theorem parseMinissdpdResponse_eq (response : Placed) :
    response.parseMinissdpdResponse =
      response.takeLength (response.pointer 0) >>= fun taken =>
        response.strncpyLimited 256 taken.2 taken.1 >>= fun url =>
          response.afterUrl url (taken.2 + taken.1) := by
  rw [pointer_zero]
  rfl

theorem afterSrvType_outside (url srvType : List Byte) (before : string.bytes.length < offset)
    (small : offset < 2 ^ 64) :
    string.afterSrvType url srvType (string.pointer offset) = .error .outside := by
  rw [afterSrvType, string.takeLength_outside before small]
  rfl

theorem afterUrl_outside (url : List Byte) (before : string.bytes.length < offset)
    (small : offset < 2 ^ 64) :
    string.afterUrl url (string.pointer offset) = .error .outside := by
  rw [afterUrl, string.takeLength_outside before small]
  rfl

theorem afterSrvType_eq (url srvType : List Byte) (inside : offset ≤ string.bytes.length) :
    (¬string.Passes (string.codeAt offset) →
      string.afterSrvType url srvType (string.pointer offset) = .error .refused) ∧
    (string.Passes (string.codeAt offset) →
      string.afterSrvType url srvType (string.pointer offset) =
        .ok (string.bytes.drop (string.codeAt offset).next,
          { url := url, srvType := srvType })) := by
  obtain ⟨slen, length, taken⟩ := string.takeLength_eq inside
  obtain ⟨_, behind, _⟩ := string.codeAt_bounds inside
  have refused := string.refused_iff behind length
  refine ⟨fun fails => ?_, fun passes => ?_⟩
  · rw [afterSrvType, taken, if_pos (refused.mpr fails)]
    rfl
  · have accepted : ¬string.finish < string.pointer (string.codeAt offset).behind + slen :=
      fun stopped => refused.mp stopped passes
    have next : (string.pointer (string.codeAt offset).behind + slen - string.address).toNat =
        (string.codeAt offset).next := by
      rw [pointer_add, pointer_sub, length]
      rfl
    rw [afterSrvType, taken, if_neg accepted]
    change Except.ok (string.bytes.drop (string.pointer (string.codeAt offset).behind + slen -
      string.address).toNat, _) = _
    rw [next]

end Records

section Soundness

variable (response : Placed)

/-- A record is read without leaving the response, and one that is taken is of three bytes at
least. -/
structure Sound (response : Placed) : Prop where
  inside : response.parseMinissdpdResponse ≠ .error .outside
  removes : ∀ left info, response.parseMinissdpdResponse = .ok (left, info) →
    left.length + 3 ≤ response.bytes.length

def urlCode : Code := response.codeAt 0

def srvTypeCode : Code := response.codeAt response.urlCode.next

def uuidCode : Code := response.codeAt response.srvTypeCode.next

/-- A text whose end wraps around comes back to the response, with enough bytes behind its code; and
where one wraps around, the UUID does not end in the first three bytes. -/
structure Harmless (response : Placed) : Prop where
  url : response.Wraps response.urlCode → response.Lands response.urlCode
  srvType : response.Passes response.urlCode → response.Wraps response.srvTypeCode →
    response.Lands response.srvTypeCode
  uuid : response.Passes response.urlCode → response.Passes response.srvTypeCode →
    response.Passes response.uuidCode →
    (response.Wraps response.urlCode ∨ response.Wraps response.srvTypeCode ∨
      response.Wraps response.uuidCode) → 3 ≤ response.uuidCode.next

/-- A text that is copied and whose end wraps around comes back to the response, with enough bytes
behind its code. -/
structure Contained (response : Placed) : Prop where
  url : response.Wraps response.urlCode → response.Lands response.urlCode
  srvType : response.Passes response.urlCode → response.Wraps response.srvTypeCode →
    response.Lands response.srvTypeCode

/-- Behind the last byte there is the zero byte only. -/
theorem codeAt_end : response.codeAt response.bytes.length = ⟨0, response.bytes.length + 1⟩ := by
  rw [codeAt, List.drop_left]
  rfl

/-- What has been copied of the text of a code. -/
def copied (code : Code) : List Byte :=
  (((response.bytes ++ [0]).drop code.behind).take (limit code.length)).map limitByte

theorem first_spec :
    (¬response.Passes response.urlCode → response.parseMinissdpdResponse = .error .refused) ∧
      (response.Wraps response.urlCode → ¬response.Lands response.urlCode →
        response.parseMinissdpdResponse = .error .outside) ∧
      (response.Passes response.urlCode →
        (response.Wraps response.urlCode → response.Lands response.urlCode) →
        response.parseMinissdpdResponse = response.afterUrl (response.copied response.urlCode)
          (response.pointer response.urlCode.next)) := by
  rw [parseMinissdpdResponse_eq]
  exact response.text_spec _ (fun text _ before small => response.afterUrl_outside text before small)
    rfl (Nat.zero_le _)

theorem second_spec (url : List Byte) (inside : response.urlCode.next ≤ response.bytes.length) :
    (¬response.Passes response.srvTypeCode →
      response.afterUrl url (response.pointer response.urlCode.next) = .error .refused) ∧
      (response.Wraps response.srvTypeCode → ¬response.Lands response.srvTypeCode →
        response.afterUrl url (response.pointer response.urlCode.next) = .error .outside) ∧
      (response.Passes response.srvTypeCode →
        (response.Wraps response.srvTypeCode → response.Lands response.srvTypeCode) →
        response.afterUrl url (response.pointer response.urlCode.next) =
          response.afterSrvType url (response.copied response.srvTypeCode)
            (response.pointer response.srvTypeCode.next)) :=
  response.text_spec _
    (fun text _ before small => response.afterSrvType_outside url text before small) rfl inside

/-- A text that does not wrap around ends in the response. -/
theorem next_plain {code : Code} (passes : response.Passes code) (plain : ¬response.Wraps code) :
    code.next = code.behind + code.length ∧ code.next ≤ response.bytes.length := by
  have fits := response.fits
  have ends := passes.resolve_left plain
  have same : code.next = code.behind + code.length := Nat.mod_eq_of_lt (by omega)
  exact ⟨same, same ▸ ends⟩

/-- A record that is taken ends behind its first three bytes, if no text wraps around. -/
theorem uuid_plain (passesUrl : response.Passes response.urlCode)
    (passesSrvType : response.Passes response.srvTypeCode)
    (passesUuid : response.Passes response.uuidCode)
    (plain : ¬(response.Wraps response.urlCode ∨ response.Wraps response.srvTypeCode ∨
      response.Wraps response.uuidCode)) :
    3 ≤ response.uuidCode.next ∧ response.uuidCode.next ≤ response.bytes.length := by
  obtain ⟨plainUrl, plain⟩ := not_or.mp plain
  obtain ⟨plainSrvType, plainUuid⟩ := not_or.mp plain
  have first : 0 < response.urlCode.behind := (response.codeAt_bounds (Nat.zero_le _)).1
  obtain ⟨url, inside⟩ := response.next_plain passesUrl plainUrl
  have second : response.urlCode.next < response.srvTypeCode.behind :=
    (response.codeAt_bounds inside).1
  obtain ⟨srvType, inside⟩ := response.next_plain passesSrvType plainSrvType
  have third : response.srvTypeCode.next < response.uuidCode.behind :=
    (response.codeAt_bounds inside).1
  obtain ⟨uuid, inside⟩ := response.next_plain passesUuid plainUuid
  exact ⟨by omega, inside⟩

/-- A response with a length that wraps around has three bytes. -/
theorem three_bytes (harmless : response.Wraps response.urlCode → response.Lands response.urlCode)
    (also : response.Wraps response.srvTypeCode → response.Lands response.srvTypeCode)
    (passesUrl : response.Passes response.urlCode)
    (passesSrvType : response.Passes response.srvTypeCode)
    (wraps : response.Wraps response.urlCode ∨ response.Wraps response.srvTypeCode ∨
      response.Wraps response.uuidCode) : 3 ≤ response.bytes.length := by
  have fits := response.fits
  by_cases wrapsUrl : response.Wraps response.urlCode
  · have room := (harmless wrapsUrl).2
    omega
  by_cases wrapsSrvType : response.Wraps response.srvTypeCode
  · have room := (also wrapsSrvType).2
    omega
  have wrapsUuid := (wraps.resolve_left wrapsUrl).resolve_left wrapsSrvType
  have first : 0 < response.urlCode.behind := (response.codeAt_bounds (Nat.zero_le _)).1
  obtain ⟨url, inside⟩ := response.next_plain passesUrl wrapsUrl
  have second : response.urlCode.next < response.srvTypeCode.behind :=
    (response.codeAt_bounds inside).1
  obtain ⟨srvType, inside⟩ := response.next_plain passesSrvType wrapsSrvType
  by_contra short
  have last : response.srvTypeCode.next = response.bytes.length := by omega
  have empty : response.uuidCode = ⟨0, response.bytes.length + 1⟩ := by
    rw [uuidCode, last, codeAt_end]
  rw [Wraps, empty] at wrapsUuid
  dsimp only at wrapsUuid
  omega

/-- No length is refused. -/
def Accepted (response : Placed) : Prop :=
  response.Passes response.urlCode ∧ response.Passes response.srvTypeCode ∧
    response.Passes response.uuidCode

namespace Contained

variable {response} (contained : response.Contained)

include contained

theorem url_inside (passesUrl : response.Passes response.urlCode) :
    response.urlCode.next ≤ response.bytes.length := by
  obtain ⟨_, behind, small⟩ := response.codeAt_bounds (Nat.zero_le response.bytes.length)
  exact response.next_inside behind small passesUrl contained.url

theorem srvType_inside (passesUrl : response.Passes response.urlCode)
    (passesSrvType : response.Passes response.srvTypeCode) :
    response.srvTypeCode.next ≤ response.bytes.length := by
  obtain ⟨_, behind, small⟩ := response.codeAt_bounds (contained.url_inside passesUrl)
  exact response.next_inside behind small passesSrvType (contained.srvType passesUrl)

/-- A record is taken or refused. -/
theorem parse_eq :
    (response.Accepted → response.parseMinissdpdResponse =
      .ok (response.bytes.drop response.uuidCode.next,
        { url := response.copied response.urlCode
          srvType := response.copied response.srvTypeCode })) ∧
    (¬response.Accepted → response.parseMinissdpdResponse = .error .refused) := by
  obtain ⟨refusedUrl, _, takenUrl⟩ := response.first_spec
  by_cases passesUrl : response.Passes response.urlCode
  case neg =>
    exact ⟨fun accepted => absurd accepted.1 passesUrl, fun _ => refusedUrl passesUrl⟩
  obtain ⟨refusedSrvType, _, takenSrvType⟩ :=
    response.second_spec (response.copied response.urlCode) (contained.url_inside passesUrl)
  rw [← takenUrl passesUrl contained.url] at refusedSrvType takenSrvType
  by_cases passesSrvType : response.Passes response.srvTypeCode
  case neg =>
    exact ⟨fun accepted => absurd accepted.2.1 passesSrvType, fun _ => refusedSrvType passesSrvType⟩
  obtain ⟨refusedUuid, takenUuid⟩ := response.afterSrvType_eq (response.copied response.urlCode)
    (response.copied response.srvTypeCode) (contained.srvType_inside passesUrl passesSrvType)
  rw [← takenSrvType passesSrvType (contained.srvType passesUrl)] at refusedUuid takenUuid
  exact ⟨fun accepted => takenUuid accepted.2.2,
    fun refused => refusedUuid fun passesUuid => refused ⟨passesUrl, passesSrvType, passesUuid⟩⟩

end Contained

/-- A record is read without leaving the response just if what is copied lies in it. -/
theorem inside_iff : response.parseMinissdpdResponse ≠ .error .outside ↔ response.Contained := by
  constructor
  · intro inside
    obtain ⟨_, outsideUrl, takenUrl⟩ := response.first_spec
    have url : response.Wraps response.urlCode → response.Lands response.urlCode := by
      intro wraps
      by_contra away
      exact inside (outsideUrl wraps away)
    refine ⟨url, fun passesUrl wraps => ?_⟩
    by_contra away
    obtain ⟨_, behind, small⟩ := response.codeAt_bounds (Nat.zero_le response.bytes.length)
    obtain ⟨_, outsideSrvType, _⟩ := response.second_spec (response.copied response.urlCode)
      (response.next_inside behind small passesUrl url)
    exact inside ((takenUrl passesUrl url).trans (outsideSrvType wraps away))
  · intro contained outside
    by_cases accepted : response.Accepted
    · cases (contained.parse_eq.1 accepted).symm.trans outside
    · cases (contained.parse_eq.2 accepted).symm.trans outside

/-- A record is sound just if the lengths that wrap around are harmless. -/
theorem sound_iff : Sound response ↔ Harmless response := by
  constructor
  · intro sound
    have contained := response.inside_iff.mp sound.inside
    refine ⟨contained.url, contained.srvType, fun passesUrl passesSrvType passesUuid _ => ?_⟩
    have removed := sound.removes _ _
      (contained.parse_eq.1 ⟨passesUrl, passesSrvType, passesUuid⟩)
    rw [List.length_drop] at removed
    omega
  · intro harmless
    have contained : response.Contained := ⟨harmless.url, harmless.srvType⟩
    refine ⟨response.inside_iff.mpr contained, fun left info taken => ?_⟩
    by_cases accepted : response.Accepted
    case neg => cases (contained.parse_eq.2 accepted).symm.trans taken
    cases (contained.parse_eq.1 accepted).symm.trans taken
    obtain ⟨passesUrl, passesSrvType, passesUuid⟩ := accepted
    rw [List.length_drop]
    by_cases wraps : response.Wraps response.urlCode ∨ response.Wraps response.srvTypeCode ∨
        response.Wraps response.uuidCode
    · have behind := harmless.uuid passesUrl passesSrvType passesUuid wraps
      have some_bytes := response.three_bytes contained.url (contained.srvType passesUrl) passesUrl
        passesSrvType wraps
      omega
    · obtain ⟨behind, inside⟩ :=
        response.uuid_plain passesUrl passesSrvType passesUuid wraps
      omega

end Soundness

end Placed

end Gfiber.Ssdptax
