import Gfiber.Lib.Numeral
import Gfiber.Conman.Cycler

/-! How conman reads the text of a scan, line by line. -/

set_option autoImplicit false

namespace Gfiber.Conman

open Lib

section Expressions

/-- `text.splitlines()`. -/
def splitlines : Text → List Text
  | [] => []
  | [char] => if char = '\n' ∨ char = '\r' then [[]] else [[char]]
  | char :: next :: rest =>
      if char = '\n' then [] :: splitlines (next :: rest)
      else if char = '\r' then
        if next = '\n' then [] :: splitlines rest else [] :: splitlines (next :: rest)
      else
        match splitlines (next :: rest) with
        | [] => [[char]]
        | line :: lines => (char :: line) :: lines

/-- The class `[0-9a-f]`. -/
def isHexDigit (char : Char) : Bool :=
  Text.isDigit char || ('a' ≤ char && char ≤ 'f')

def hexDigitValue (char : Char) : Nat :=
  if Text.isDigit char then char.toNat - 48 else char.toNat - 87

/-- `([0-9a-f]{2}:?){n}`: the text that matches, and what follows it. -/
def matchOctets : Nat → Text → Option (Text × Text)
  | 0, text => some ([], text)
  | count + 1, first :: second :: rest =>
      if isHexDigit first && isHexDigit second then
        match rest with
        | ':' :: rest => (matchOctets count rest).map fun (octets, rest) =>
            (first :: second :: ':' :: octets, rest)
        | rest => (matchOctets count rest).map fun (octets, rest) =>
            (first :: second :: octets, rest)
      else none
  | _ + 1, _ => none

/-- What is in front of the last place where the literal stands. -/
def beforeLast (literal : Text) : Text → Option Text
  | [] => none
  | char :: rest =>
      match beforeLast literal rest with
      | some front => some (char :: front)
      | none => if (Text.afterLiteral literal (char :: rest)).isSome then some [] else none

/-- `( [0-9a-f]{2})+`, as octets. -/
def matchData : Text → List Byte
  | ' ' :: first :: second :: rest =>
      if isHexDigit first && isHexDigit second then
        BitVec.ofNat 8 (16 * hexDigitValue first + hexDigitValue second) :: matchData rest
      else []
  | _ => []

/-- `_BSSID_RE`. -/
def matchBssid (line : Text) : Option Text := do
  let rest ← Text.afterLiteral "BSS ".toList line
  let (bssid, rest) ← matchOctets 6 rest
  let rest ← Text.afterLiteral "(on ".toList rest
  if ')' ∈ rest then some bssid else none

/-- `_SSID_RE`. -/
def matchSsid (line : Text) : Option Text :=
  Text.afterLiteral "SSID: ".toList line

/-- `_RSSI_RE`. -/
def matchRssi (line : Text) : Option Text := do
  let rest ← Text.afterLiteral "signal: ".toList line
  beforeLast " dBm".toList rest

/-- `_FREQ_RE`. -/
def matchFreq (line : Text) : Option Text :=
  Text.matchGroup "freq: ".toList Text.isDigit line

/-- `_VENDOR_IE_RE`. -/
def matchVendorIe (line : Text) : Option VendorIe := do
  let rest ← Text.afterLiteral "Vendor specific: OUI ".toList line
  let (oui, rest) ← matchOctets 3 rest
  let rest ← Text.afterLiteral ", data:".toList rest
  match matchData rest with
  | [] => none
  | first :: others => some ⟨oui, first, others⟩

end Expressions

section Parsing

def BssInfo.new (bssid : Text) : BssInfo :=
  ⟨bssid, [], 0, none, [], []⟩

/-- The infos that are complete, and the one that the lines belong to. -/
structure ScanParser where
  result : List BssInfo
  bssInfo : Option BssInfo

def ScanParser.start : ScanParser :=
  ⟨[], none⟩

/-- A line that comes before the first BSS raises an exception. -/
def ScanParser.modify (parser : ScanParser) (update : BssInfo → BssInfo) : Option ScanParser :=
  parser.bssInfo.map fun info => { parser with bssInfo := some (update info) }

def ScanParser.finish (parser : ScanParser) : List BssInfo :=
  parser.result ++ parser.bssInfo.toList

def freqBand (freq : Text) : Band :=
  if freq.head? = some '2' then .ghz24 else .ghz5

def ScanParser.parseSecurity (parser : ScanParser) (line : Text) : Option ScanParser :=
  if "RSN:".toList.isPrefixOf line then
    parser.modify fun info => { info with security := info.security ++ [.wpa2] }
  else if "WPA:".toList.isPrefixOf line then
    parser.modify fun info => { info with security := info.security ++ [.wpa] }
  else if "Privacy:".toList.isPrefixOf line then
    parser.modify fun info => { info with security := info.security ++ [.wep] }
  else some parser

def ScanParser.parseLine (parser : ScanParser) (line : Text) : Option ScanParser :=
  let line := Text.strip line
  match matchBssid line with
  | some bssid => some ⟨parser.finish, some (.new bssid)⟩
  | none =>
    match matchSsid line with
    | some ssid => parser.modify fun info => { info with ssid := ssid }
    | none =>
      match matchRssi line with
      | some text => do
          let rssi ← parseFloat text
          parser.modify fun info => { info with rssi := rssi.value }
      | none =>
        match matchFreq line with
        | some freq => parser.modify fun info => { info with band := some (freqBand freq) }
        | none =>
          match matchVendorIe line with
          | some ie => parser.modify fun info => { info with vendorIes := info.vendorIes ++ [ie] }
          | none => parser.parseSecurity line

/-- The infos in a scan, unless an exception is raised. -/
def scanParsed (scan : Text) : Option (List BssInfo) :=
  ((splitlines scan).foldlM ScanParser.parseLine .start).map ScanParser.finish

end Parsing

section Lines

/-- There is no line end in a text. -/
def Unbroken (text : Text) : Prop :=
  '\n' ∉ text ∧ '\r' ∉ text

instance (text : Text) : Decidable (Unbroken text) :=
  inferInstanceAs (Decidable (_ ∧ _))

theorem Unbroken.append {front back : Text} (first : Unbroken front) (second : Unbroken back) :
    Unbroken (front ++ back) :=
  ⟨List.not_mem_append first.1 second.1, List.not_mem_append first.2 second.2⟩

theorem unbroken_of_solid {text : Text} (solid : ∀ char ∈ text, Text.isSpace char = false) :
    Unbroken text :=
  ⟨fun member => absurd (solid _ member) (by decide),
    fun member => absurd (solid _ member) (by decide)⟩

/-- A line ends at the first line end. -/
theorem splitlines_line {line : Text} (rest : Text) (unbroken : Unbroken line) :
    splitlines (line ++ '\n' :: rest) = line :: splitlines rest := by
  obtain ⟨feed, ret⟩ := unbroken
  induction line with
  | nil =>
      cases rest with
      | nil => rfl
      | cons next rest => rw [List.nil_append, splitlines, if_pos rfl]
  | cons char line ih =>
      simp only [List.mem_cons, not_or] at feed ret
      have later := ih feed.2 ret.2
      have some_text : ∃ next text, line ++ '\n' :: rest = next :: text := by
        cases line with
        | nil => exact ⟨_, _, rfl⟩
        | cons next line => exact ⟨_, _, rfl⟩
      obtain ⟨next, text, shape⟩ := some_text
      rw [List.cons_append, shape, splitlines, if_neg (Ne.symm feed.1), if_neg (Ne.symm ret.1),
        ← shape, later]

theorem splitlines_lines {lines : List Text} (unbroken : ∀ line ∈ lines, Unbroken line) :
    splitlines (lines.flatMap (· ++ ['\n'])) = lines := by
  induction lines with
  | nil => rfl
  | cons line lines ih =>
      have later := ih fun other member => unbroken other (List.mem_cons_of_mem _ member)
      rw [List.flatMap_cons, List.append_assoc, List.singleton_append,
        splitlines_line _ (unbroken line List.mem_cons_self), later]

end Lines

end Gfiber.Conman
