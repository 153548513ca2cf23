import Gfiber.Lib.Scanf
import Gfiber.Lib.Utf8

/-! What utils.py does with the SSID, the BSSID and the passphrase that are given. -/

set_option autoImplicit false

namespace Gfiber.Wifi

open Lib

/-- What the Unicode database of Python says about a character. An interpreter whose
strings hold a large character as two surrogates is one to which it is of category C. -/
structure UnicodeDatabase where
  /-- The category begins with C. -/
  isOther : Nat → Bool
  ascii_other : ∀ point, point < 0x80 → (isOther point ↔ point < 0x20 ∨ point = 0x7f)

/-- The controls, the surrogates, and no other character. -/
def UnicodeDatabase.controls : UnicodeDatabase where
  isOther point :=
    point < 0x20 || 0x7f ≤ point && point < 0xa0 || 0xd800 ≤ point && point < 0xe000
  ascii_other point small := by
    simp only [Bool.or_eq_true, Bool.and_eq_true, decide_eq_true_eq]
    omega

/-- `BinWifiException` and `ValueError`. -/
inductive WifiError where
  | notABssid (bssid : List Byte)
  | pskNotHex (psk : List Byte)
  | pskNotAscii (psk : List Byte)
  | pskLength (length : Nat)
  | invalidCrypto (encryption : List Byte)
  | noHt40 (channel : List Byte)
  | noVht80 (channel : List Byte)
  | noMacAddress
deriving DecidableEq, Repr

def sanitizeSsid (unicode : UnicodeDatabase) (ssid : List Byte) : List Byte :=
  encodeUtf8 ((decodeUtf8 ssid).filter fun point => !unicode.isOther point)

/-- `bssid.lower()`. -/
def lower (text : List Byte) : List Byte :=
  text.map fun byte => if isupper byte then byte + 32 else byte

/-- `re.match('[0-9a-f]{2}', octet)`, which does not look at what follows. -/
def matchesOctet : List Byte → Bool
  | first :: second :: _ =>
      let inside (byte : Byte) : Bool := isdigit byte || between 'a' 'f' byte
      inside first && inside second
  | _ => false

def validateAndSanitizeBssid (bssid : List Byte) : Except WifiError (List Byte) :=
  let maybeOctets := (lower bssid).splitOn (ascii ':')
  if maybeOctets.length = 6 ∧ maybeOctets.all matchesOctet then
    .ok ([ascii ':'].intercalate maybeOctets)
  else .error (.notABssid bssid)

def validateAndSanitizePsk (psk : List Byte) : Except WifiError (List Byte) :=
  if psk.length = 64 then
    if psk.all isxdigit then .ok psk else .error (.pskNotHex psk)
  else if 8 ≤ psk.length ∧ psk.length ≤ 63 then
    if psk.all (fun c => c.toNat < 0x80) then
      let psk := psk.filter fun c => 32 ≤ c.toNat
      if psk.length < 8 then .error (.pskLength psk.length) else .ok psk
    else .error (.pskNotAscii psk)
  else .error (.pskLength psk.length)

section Characters

/-- Nothing that breaks a line is left in an SSID. -/
theorem sanitizeSsid_controls (unicode : UnicodeDatabase) (ssid : List Byte) {byte : Byte}
    (member : byte ∈ sanitizeSsid unicode ssid) : 0x20 ≤ byte.toNat ∧ byte.toNat ≠ 0x7f := by
  obtain ⟨point, kept, inside⟩ := List.mem_flatMap.mp member
  obtain ⟨decoded, printed⟩ := List.mem_filter.mp kept
  by_cases small : byte.toNat < 0x80
  · have same := mem_encodeUtf8Char (decodeUtf8_lt ssid point decoded) small inside
    have other := unicode.ascii_other point (by omega)
    rw [Bool.not_eq_true'] at printed
    rw [printed] at other
    simp only [Bool.false_eq_true, false_iff, not_or] at other
    omega
  · omega

/-- A passphrase that is accepted is a key of 64 digits as it is, or a shorter text. -/
theorem validateAndSanitizePsk_cases {psk clean : List Byte}
    (valid : validateAndSanitizePsk psk = .ok clean) :
    (psk.length = 64 ∧ clean.length = 64 ∧ ∀ byte ∈ clean, isxdigit byte) ∨
      (psk.length ≤ 63 ∧ clean.length ≤ 63 ∧ ∀ byte ∈ clean, 0x20 ≤ byte.toNat) := by
  rw [validateAndSanitizePsk] at valid
  split at valid
  case isTrue long =>
    split at valid
    case isTrue digits =>
      cases valid
      exact .inl ⟨long, long, List.all_eq_true.mp digits⟩
    case isFalse => cases valid
  case isFalse =>
    split at valid
    case isTrue range =>
      split at valid
      case isTrue =>
        dsimp only at valid
        split at valid
        case isTrue => cases valid
        case isFalse =>
          cases valid
          have fewer := List.length_filter_le (fun c : Byte => decide (32 ≤ c.toNat)) psk
          refine .inr ⟨range.2, by omega, ?_⟩
          exact fun byte member => of_decide_eq_true (List.mem_filter.mp member).2
      case isFalse => cases valid
    case isFalse => cases valid

theorem validateAndSanitizePsk_controls {psk clean : List Byte}
    (valid : validateAndSanitizePsk psk = .ok clean) :
    ∀ byte ∈ clean, 0x20 ≤ byte.toNat := by
  have plain : ∀ byte : Byte, isxdigit byte → 0x20 ≤ byte.toNat := by decide +kernel
  rcases validateAndSanitizePsk_cases valid with ⟨_, _, digits⟩ | ⟨_, _, printable⟩
  · exact fun byte member => plain byte (digits byte member)
  · exact printable

theorem validateAndSanitizePsk_length {psk clean : List Byte}
    (valid : validateAndSanitizePsk psk = .ok clean) : clean.length = 64 ↔ psk.length = 64 := by
  rcases validateAndSanitizePsk_cases valid with ⟨long, same, _⟩ | ⟨short, shorter, _⟩
  · exact iff_of_true same long
  · exact iff_of_false (by omega) (by omega)

/-- What is accepted is the BSSID in lower case. -/
theorem validateAndSanitizeBssid_eq {bssid clean : List Byte}
    (valid : validateAndSanitizeBssid bssid = .ok clean) : clean = lower bssid := by
  rw [validateAndSanitizeBssid] at valid
  split at valid
  case isTrue =>
    cases valid
    exact List.intercalate_splitOn _
  case isFalse => cases valid

theorem lineEnd_lower (text : List Byte) : ascii '\n' ∈ lower text ↔ ascii '\n' ∈ text := by
  have same : ∀ byte : Byte,
      (if isupper byte then byte + 32 else byte) = ascii '\n' ↔ byte = ascii '\n' := by
    decide +kernel
  simp only [lower, List.mem_map, same, exists_eq_right]

end Characters

end Gfiber.Wifi
