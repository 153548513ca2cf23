import Mathlib.Tactic.Positivity
import Mathlib.Tactic.Ring
import Mathlib.Tactic.Zify
import Gfiber.Lib.Word

/-! Packed records in network byte order, after Python's `struct` module with
formats that begin with `!`: fields of fixed width without padding between
them. -/

set_option autoImplicit false

namespace Gfiber.Lib

/-- A computation goes on with what the part before it has returned. -/
@[simp] theorem ok_bind {Error Value Result : Type} (value : Value)
    (next : Value → Except Error Result) : (Except.ok value >>= next) = next value :=
  rfl

/-- The low `size` bytes of a number, the most significant one first. -/
def bigEndian : Nat → Nat → List Byte
  | 0, _ => []
  | size + 1, value => bigEndian size (value / 256) ++ [BitVec.ofNat 8 value]

def ofBigEndian (bytes : List Byte) : Nat :=
  bytes.foldl (fun value byte => value * 256 + byte.toNat) 0

@[simp] theorem length_bigEndian (size value : Nat) : (bigEndian size value).length = size := by
  induction size generalizing value with
  | zero => rfl
  | succ size ih => simp [bigEndian, ih]

theorem ofBigEndian_bigEndian {size value : Nat} (bound : value < 256 ^ size) :
    ofBigEndian (bigEndian size value) = value := by
  induction size generalizing value with
  | zero =>
      have zero : value = 0 := by simpa using bound
      simp [bigEndian, ofBigEndian, zero]
  | succ size ih =>
      have shorter : value / 256 < 256 ^ size := by
        rw [Nat.div_lt_iff_lt_mul (by decide), ← Nat.pow_succ]
        exact bound
      have before := ih shorter
      rw [ofBigEndian] at before
      rw [bigEndian, ofBigEndian, List.foldl_append, before]
      simp only [List.foldl_cons, List.foldl_nil, BitVec.toNat_ofNat]
      omega

theorem foldl_digits (bytes : List Byte) (value : Nat) :
    bytes.foldl (fun value byte => value * 256 + byte.toNat) value =
      value * 256 ^ bytes.length + ofBigEndian bytes := by
  induction bytes generalizing value with
  | nil => simp [ofBigEndian]
  | cons byte bytes ih =>
      unfold ofBigEndian
      rw [List.foldl_cons, List.foldl_cons, ih, ih, List.length_cons]
      ring

theorem ofBigEndian_cons (byte : Byte) (bytes : List Byte) :
    ofBigEndian (byte :: bytes) = byte.toNat * 256 ^ bytes.length + ofBigEndian bytes := by
  have digits := foldl_digits bytes byte.toNat
  unfold ofBigEndian at digits ⊢
  rw [List.foldl_cons, Nat.zero_mul, Nat.zero_add, digits]

theorem ofBigEndian_lt (bytes : List Byte) : ofBigEndian bytes < 256 ^ bytes.length := by
  induction bytes with
  | nil => decide
  | cons byte bytes ih =>
      have digit : byte.toNat + 1 ≤ 256 := byte.isLt
      rw [ofBigEndian_cons, List.length_cons, Nat.pow_succ']
      calc byte.toNat * 256 ^ bytes.length + ofBigEndian bytes
          < (byte.toNat + 1) * 256 ^ bytes.length := by rw [Nat.succ_mul]; omega
        _ ≤ 256 * 256 ^ bytes.length := Nat.mul_le_mul_right _ digit

/-- The first byte that differs decides between two numbers of one width. -/
theorem ofBigEndian_lt_of_head {left right : Byte} {lefts rights : List Byte}
    (width : lefts.length = rights.length) (head : left.toNat < right.toNat) :
    ofBigEndian (left :: lefts) < ofBigEndian (right :: rights) := by
  rw [ofBigEndian_cons, ofBigEndian_cons]
  calc left.toNat * 256 ^ lefts.length + ofBigEndian lefts
      < (left.toNat + 1) * 256 ^ lefts.length := by
        have rest := ofBigEndian_lt lefts
        rw [Nat.succ_mul]
        omega
    _ ≤ right.toNat * 256 ^ rights.length := by
        rw [width]
        exact Nat.mul_le_mul_right _ head
    _ ≤ right.toNat * 256 ^ rights.length + ofBigEndian rights := Nat.le_add_right _ _

theorem ofBigEndian_inj {left right : List Byte} (width : left.length = right.length)
    (same : ofBigEndian left = ofBigEndian right) : left = right := by
  induction left generalizing right with
  | nil => exact (List.length_eq_zero_iff.mp width.symm).symm
  | cons first lefts ih =>
      cases right with
      | nil => cases width
      | cons second rights =>
          have widths : lefts.length = rights.length := Nat.succ.inj width
          have heads : first = second := by
            apply BitVec.eq_of_toNat_eq
            rcases Nat.lt_trichotomy first.toNat second.toNat with low | equal | high
            · exact absurd same (ofBigEndian_lt_of_head widths low).ne
            · exact equal
            · exact absurd same (ofBigEndian_lt_of_head widths.symm high).ne'
          subst heads
          rw [ofBigEndian_cons, ofBigEndian_cons, widths] at same
          rw [ih widths (Nat.add_left_cancel same)]

/-- A value of the interpreter: integers, with `True` and `False` as 1 and 0,
and byte strings. -/
inductive Value where
  | int (value : Int)
  | text (bytes : List Byte)
deriving DecidableEq, Repr

/-- `B`, `H`, `I` and `Q` are unsigned, `b` is signed, `?` is `bool` and `Ns` is `text N`. -/
inductive Field where
  | unsigned (size : Nat)
  | signed (size : Nat)
  | bool
  | text (size : Nat)
deriving DecidableEq, Repr

namespace Field

def size : Field → Nat
  | unsigned size => size
  | signed size => size
  | bool => 1
  | text size => size

/-- A value out of range or of another type is `struct.error`. Texts are cut
and padded with zero bytes. -/
def pack : Field → Value → Option (List Byte)
  | unsigned size, .int value =>
      if 0 ≤ value ∧ value < 256 ^ size then some (bigEndian size value.toNat) else none
  | signed size, .int value =>
      if -(256 ^ size) ≤ 2 * value ∧ 2 * value < 256 ^ size then
        some (bigEndian size (value % 256 ^ size).toNat)
      else none
  | bool, .int value => some [if value = 0 then 0 else 1]
  | bool, .text bytes => some [if bytes = [] then 0 else 1]
  | text size, .text bytes => some (bytes.take size ++ List.replicate (size - bytes.length) 0)
  | _, _ => none

def unpack : Field → List Byte → Value
  | unsigned _, bytes => .int (ofBigEndian bytes)
  | signed size, bytes =>
      let value : Int := ofBigEndian bytes
      .int (if 2 * value < 256 ^ size then value else value - 256 ^ size)
  | bool, bytes => .int (if bytes = [0] then 0 else 1)
  | text _, bytes => .text bytes

/-- The values that come back as they are. -/
def InRange : Field → Value → Prop
  | unsigned size, .int value => 0 ≤ value ∧ value < 256 ^ size
  | signed size, .int value => -(256 ^ size) ≤ 2 * value ∧ 2 * value < 256 ^ size
  | bool, .int value => value = 0 ∨ value = 1
  | text size, .text bytes => bytes.length = size
  | _, _ => False

theorem signed_range {size : Nat} {value : Int} (low : -(256 ^ size) ≤ 2 * value)
    (high : 2 * value < 256 ^ size) (positive : (0 : Int) < 256 ^ size) :
    (if 2 * (value % 256 ^ size) < 256 ^ size then value % 256 ^ size
      else value % 256 ^ size - 256 ^ size) = value := by
  rcases lt_or_ge value 0 with negative | natural
  · have wrapped : value % 256 ^ size = value + 256 ^ size := by
      rw [← Int.add_emod_right, Int.emod_eq_of_lt (by omega) (by omega)]
    rw [wrapped, if_neg (by omega)]
    omega
  · rw [Int.emod_eq_of_lt natural (by omega), if_pos high]

/-- A value in range is packed into the bytes of the field, and they are
unpacked into the value. -/
theorem unpack_pack {field : Field} {value : Value} (range : field.InRange value) :
    ∃ bytes, field.pack value = some bytes ∧ bytes.length = field.size ∧
      field.unpack bytes = value := by
  cases field with
  | unsigned size =>
      cases value with
      | text => exact range.elim
      | int value =>
          have bound : value.toNat < 256 ^ size := by
            have upper := range.2
            zify
            rwa [Int.toNat_of_nonneg range.1]
          refine ⟨_, if_pos range, length_bigEndian _ _, ?_⟩
          rw [unpack, ofBigEndian_bigEndian bound, Int.toNat_of_nonneg range.1]
  | signed size =>
      cases value with
      | text => exact range.elim
      | int value =>
          have positive : (0 : Int) < 256 ^ size := by positivity
          have natural : 0 ≤ value % 256 ^ size := Int.emod_nonneg _ positive.ne'
          have bound : (value % 256 ^ size).toNat < 256 ^ size := by
            zify
            rw [Int.toNat_of_nonneg natural]
            exact Int.emod_lt_of_pos _ positive
          refine ⟨_, if_pos range, length_bigEndian _ _, ?_⟩
          rw [unpack, ofBigEndian_bigEndian bound, Int.toNat_of_nonneg natural,
            signed_range range.1 range.2 positive]
  | bool =>
      cases value with
      | text => exact range.elim
      | int value =>
          rcases range with rfl | rfl
          · exact ⟨_, rfl, rfl, rfl⟩
          · exact ⟨_, rfl, rfl, rfl⟩
  | text size =>
      cases value with
      | int => exact range.elim
      | text bytes =>
          have whole : bytes.length = size := range
          refine ⟨bytes, ?_, whole, rfl⟩
          simp [pack, ← whole]

theorem unsigned_of_pack {size : Nat} {value : Int}
    (packed : ((unsigned size).pack (.int value)).isSome) : 0 ≤ value ∧ value < 256 ^ size := by
  by_contra out
  rw [pack, if_neg out] at packed
  cases packed

end Field

namespace Struct

def calcsize (fmt : List Field) : Nat :=
  (fmt.map Field.size).sum

def pack : List Field → List Value → Option (List Byte)
  | [], [] => some []
  | field :: fmt, value :: values => do
      let bytes ← field.pack value
      let rest ← pack fmt values
      return bytes ++ rest
  | _, _ => none

def split : List Field → List Byte → List Value
  | [], _ => []
  | field :: fmt, bytes =>
      field.unpack (bytes.take field.size) :: split fmt (bytes.drop field.size)

/-- Bytes of another length than the format's are `struct.error`. -/
def unpack (fmt : List Field) (bytes : List Byte) : Option (List Value) :=
  if bytes.length = calcsize fmt then some (split fmt bytes) else none

def InRange : List Field → List Value → Prop :=
  List.Forall₂ Field.InRange

@[simp] theorem calcsize_cons (field : Field) (fmt : List Field) :
    calcsize (field :: fmt) = field.size + calcsize fmt := by
  simp [calcsize]

theorem split_pack {fmt : List Field} {values : List Value} (range : InRange fmt values) :
    ∃ bytes, pack fmt values = some bytes ∧ bytes.length = calcsize fmt ∧
      split fmt bytes = values := by
  induction range with
  | nil => exact ⟨[], rfl, rfl, rfl⟩
  | @cons field value fmt values first _ ih =>
      obtain ⟨bytes, packed, size, back⟩ := Field.unpack_pack first
      obtain ⟨rest, more, length, others⟩ := ih
      refine ⟨bytes ++ rest, by simp [pack, packed, more], by simp [size, length], ?_⟩
      rw [split, List.take_left' size, List.drop_left' size, back, others]

theorem pack_some {fmt : List Field} {values : List Value} {bytes : List Byte}
    (packed : pack fmt values = some bytes) :
    List.Forall₂ (fun field value => (field.pack value).isSome) fmt values := by
  induction fmt generalizing values bytes with
  | nil =>
      cases values with
      | nil => exact .nil
      | cons => cases packed
  | cons field fmt ih =>
      cases values with
      | nil => cases packed
      | cons value values =>
          obtain ⟨first, head, rest⟩ := Option.bind_eq_some_iff.mp packed
          obtain ⟨others, tail, -⟩ := Option.bind_eq_some_iff.mp rest
          exact .cons (by simp [head]) (ih tail)

end Struct

end Gfiber.Lib
