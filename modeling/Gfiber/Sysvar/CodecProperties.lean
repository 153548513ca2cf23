import Gfiber.Sysvar.Buffer

/-! What a saved block holds and what loading it gives back. -/

set_option autoImplicit false

namespace Gfiber.Sysvar

open Lib

def SysvarList.record (var : SysvarList) : List Byte :=
  copyToBuf var.name nameSize ++
    [BitVec.ofNat 8 (var.value.strlen >>> 8), BitVec.ofNat 8 var.value.strlen] ++ var.value.bytes

def bodyOf (vars : List SysvarList) : List Byte :=
  vars.flatMap SysvarList.record ++ List.replicate (totalLen - recordsLen vars) 0xff

structure SysvarList.Storable (var : SysvarList) : Prop where
  named : var.name.bytes ≠ []
  name_clean : (0xff : Byte) ∉ var.name.bytes
  value_clean : (0xff : Byte) ∉ var.value.bytes

/-- Variables a block can hold: names that are not empty, no byte that means
the end of a text, and room for every record. -/
structure Storable (vars : List SysvarList) : Prop where
  each : ∀ var ∈ vars, var.Storable
  fits : recordsLen vars ≤ totalLen

theorem bodyOf_nil : bodyOf [] = List.replicate totalLen 0xff := rfl

theorem storable_nil : Storable [] := ⟨by simp, Nat.zero_le _⟩

theorem length_copyToBuf {text : CString} {len : Nat} (fits : text.strlen ≤ len) :
    (copyToBuf text len).length = len := by
  simp only [copyToBuf, CString.strlen, List.length_append, List.length_take,
    List.length_replicate] at fits ⊢
  omega

theorem copyToBuf_strlen (text : CString) : copyToBuf text text.strlen = text.bytes := by
  simp [copyToBuf, CString.strlen]

@[simp] theorem length_record (var : SysvarList) : var.record.length = var.len := by
  simp only [SysvarList.record, List.length_append, length_copyToBuf var.name_fits,
    List.length_cons, List.length_nil, SysvarList.len, CString.strlen]

section Clearing

theorem deleteVar_head {buf : SysvarBuf} {var : SysvarList} {rest : List SysvarList}
    (same : buf.list = var :: rest) : ∃ removed : SysvarBuf,
      buf.deleteVar 0 = (removed, .success) ∧ removed.list = rest ∧ removed.data = buf.data ∧
        removed.failed = buf.failed := by
  unfold SysvarBuf.deleteVar
  split
  case h_1 missing => simp [same] at missing
  case h_2 => exact ⟨_, rfl, by simp [same], rfl, rfl⟩

theorem clearLoop_success (vars : List SysvarList) (buf : SysvarBuf) (same : buf.list = vars) :
    ∃ cleared : SysvarBuf, SysvarBuf.clearLoop vars buf = (cleared, .success) ∧
      cleared.list = [] ∧ cleared.data = buf.data ∧ cleared.failed = buf.failed := by
  induction vars generalizing buf with
  | nil => exact ⟨buf, rfl, same, rfl, rfl⟩
  | cons var rest ih =>
      obtain ⟨removed, deleted, left, data, failed⟩ := deleteVar_head same
      obtain ⟨cleared, loop, empty, kept, flags⟩ := ih removed left
      refine ⟨cleared, ?_, empty, kept.trans data, flags.trans failed⟩
      rw [SysvarBuf.clearLoop, deleted]
      exact loop

theorem usedLen_of_empty {buf : SysvarBuf} (empty : buf.list = []) : buf.usedLen = 0 := by
  have bound := buf.accounted
  rw [empty, recordsLen_nil] at bound
  omega

end Clearing

section Loading

variable {data : Block} {offset : Nat}

theorem fetch_of_drop {byte : Byte} {rest : List Byte}
    (found : data.bytes.drop offset = byte :: rest) : data.fetch offset = .ok byte := by
  have head : data.bytes[offset]? = some byte := by
    have first := congrArg (·[0]?) found
    simpa using first
  rw [Block.fetch, head]

theorem ofBytes_bytes (text : CString) : CString.ofBytes text.bytes = text := by
  obtain ⟨bytes, terminated⟩ := text
  have whole : bytes.takeWhile (· ≠ 0) = bytes :=
    List.takeWhile_eq_self_iff.mpr fun byte member => by
      simpa using fun zero : byte = 0 => terminated (zero ▸ member)
  simp only [CString.ofBytes, whole]

theorem takeWhile_copyToBuf {text : CString} {len : Nat} (fits : text.strlen ≤ len)
    (clean : (0xff : Byte) ∉ text.bytes) :
    (copyToBuf text len).takeWhile (· ≠ 0xff) = text.bytes := by
  have kept : ∀ byte ∈ text.bytes, decide (byte ≠ 0xff) = true := fun byte member => by
    simpa using fun mark : byte = 0xff => clean (mark ▸ member)
  have padding (count : Nat) : (List.replicate count (0xff : Byte)).takeWhile (· ≠ 0xff) = [] := by
    cases count with
    | zero => rfl
    | succ count => simp [List.replicate_succ]
  rw [copyToBuf, List.take_of_length_le fits, List.takeWhile_append_of_pos kept, padding,
    List.append_nil]

theorem copyToStr_copyToBuf {text : CString} {len : Nat} {rest : List Byte}
    (found : data.bytes.drop offset = copyToBuf text len ++ rest) (fits : text.strlen ≤ len)
    (clean : (0xff : Byte) ∉ text.bytes) : data.copyToStr offset len = .ok text := by
  have taken : (data.bytes.drop offset).take len = copyToBuf text len := by
    rw [found, List.take_left' (length_copyToBuf fits)]
  have room : text.strlen = len ∨ offset + text.strlen < blockSize := by
    have size := congrArg List.length found
    rw [List.length_drop, data.length_bytes, List.length_append, length_copyToBuf fits] at size
    omega
  rw [Block.copyToStr, taken, takeWhile_copyToBuf fits clean, ofBytes_bytes]
  exact if_pos room

theorem length_bytes_value (len : Nat) (bound : len < 65536) :
    ((BitVec.ofNat 8 (len >>> 8)).toNat <<< 8) + (BitVec.ofNat 8 len).toNat = len := by
  rw [BitVec.toNat_ofNat, BitVec.toNat_ofNat, Nat.shiftRight_eq_div_pow, Nat.shiftLeft_eq]
  omega

theorem setVar_short (buf : SysvarBuf) {name : CString} (value : CString)
    (short : name.strlen ≤ nameSize) : ∃ added : SysvarBuf,
      buf.setVar name value = (added, .success) ∧ added.list = buf.list ++ [⟨name, value, short⟩] ∧
        added.usedLen = sysvarLen buf.usedLen (nameSize + 2 + value.strlen) ∧
          added.data = buf.data := by
  rw [SysvarBuf.setVar, dif_pos short]
  refine ⟨_, rfl, rfl, ?_, rfl⟩
  simp only [SysvarList.len, Nat.cast_add, Nat.cast_ofNat]

theorem setVar_fitting (buf : SysvarBuf) (var : SysvarList)
    (room : buf.usedLen + var.len ≤ totalLen) : ∃ added : SysvarBuf,
      buf.setVar var.name var.value = (added, .success) ∧ added.list = buf.list ++ [var] ∧
        added.usedLen = buf.usedLen + var.len ∧ added.data = buf.data ∧
          added.failed = buf.failed := by
  unfold SysvarBuf.setVar
  rw [dif_pos var.name_fits]
  refine ⟨_, rfl, rfl, ?_, rfl, rfl⟩
  simp only [sysvarLen, SysvarList.len] at room ⊢
  omega

theorem record_texts (var : SysvarList) (rest : List Byte) :
    var.record ++ rest = copyToBuf var.name nameSize ++
      (BitVec.ofNat 8 (var.value.strlen >>> 8) :: BitVec.ofNat 8 var.value.strlen ::
        (copyToBuf var.value var.value.strlen ++ rest)) := by
  rw [SysvarList.record, copyToBuf_strlen]
  simp

theorem loadLoop_record {var : SysvarList} {rest : List Byte} {buf : SysvarBuf}
    (inside : offset < totalLen) (found : data.bytes.drop offset = var.record ++ rest)
    (storable : var.Storable) (room : buf.usedLen + var.len ≤ totalLen) :
    ∃ added : SysvarBuf, SysvarBuf.loadLoop data offset buf =
        SysvarBuf.loadLoop data (offset + var.len) added ∧
      added.list = buf.list ++ [var] ∧ added.usedLen = buf.usedLen + var.len ∧
        added.data = buf.data ∧ added.failed = buf.failed := by
  obtain ⟨added, result, list, used, kept, flags⟩ := setVar_fitting buf var room
  refine ⟨added, ?_, list, used, kept, flags⟩
  obtain ⟨first, name, named⟩ := List.exists_cons_of_ne_nil storable.named
  have unmarked : first ≠ 0xff := fun mark => storable.name_clean (by simp [named, mark])
  rw [record_texts] at found
  have start : data.bytes.drop offset = first :: (data.bytes.drop offset).tail := by
    rw [found, copyToBuf, List.take_of_length_le var.name_fits, named]
    rfl
  have afterName : data.bytes.drop (offset + nameSize) =
      BitVec.ofNat 8 (var.value.strlen >>> 8) :: BitVec.ofNat 8 var.value.strlen ::
        (copyToBuf var.value var.value.strlen ++ rest) := by
    rw [← List.drop_drop, found, List.drop_left' (length_copyToBuf var.name_fits)]
  have afterHigh : data.bytes.drop (offset + nameSize + 1) = BitVec.ofNat 8 var.value.strlen ::
      (copyToBuf var.value var.value.strlen ++ rest) := by
    rw [← List.drop_drop, afterName, List.drop_one, List.tail_cons]
  have afterLength : data.bytes.drop (offset + nameSize + 2) =
      copyToBuf var.value var.value.strlen ++ rest := by
    rw [← List.drop_drop, afterName, List.drop_succ_cons, List.drop_one, List.tail_cons]
  have length := length_bytes_value var.value.strlen (by
    simp only [SysvarList.len, totalLen, blockSize] at room
    omega)
  have enough : ¬buf.freeLen < var.value.strlen := by
    simp only [SysvarBuf.freeLen, SysvarList.len] at room ⊢
    omega
  rw [SysvarBuf.loadLoop, if_pos inside, fetch_of_drop start]
  simp only [bind, Except.bind, if_neg unmarked]
  rw [copyToStr_copyToBuf found var.name_fits storable.name_clean, fetch_of_drop afterName,
    fetch_of_drop afterHigh]
  simp only [length, if_neg enough]
  rw [copyToStr_copyToBuf afterLength le_rfl storable.value_clean]
  simp only [result, SysvarList.len]
  rw [Nat.add_assoc, Nat.add_assoc, Nat.add_assoc]

theorem loadLoop_records {vars : List SysvarList} {rest : List Byte} {buf : SysvarBuf}
    (found : data.bytes.drop offset = vars.flatMap SysvarList.record ++ rest)
    (ended : offset + recordsLen vars < totalLen → rest.head? = some 0xff)
    (storable : ∀ var ∈ vars, var.Storable) (inside : offset + recordsLen vars ≤ totalLen)
    (room : buf.usedLen + recordsLen vars ≤ totalLen) :
    ∃ loaded : SysvarBuf, SysvarBuf.loadLoop data offset buf = .ok (loaded, .success) ∧
      loaded.list = buf.list ++ vars ∧ loaded.usedLen = buf.usedLen + recordsLen vars ∧
        loaded.data = buf.data ∧ loaded.failed = buf.failed := by
  induction vars generalizing offset buf with
  | nil =>
      refine ⟨buf, ?_, by simp, by simp, rfl, rfl⟩
      rw [SysvarBuf.loadLoop]
      by_cases more : offset < totalLen
      · obtain ⟨tail, marked⟩ := List.head?_eq_some_iff.mp (ended more)
        have mark : data.fetch offset = .ok 0xff := fetch_of_drop (by rw [found, marked]; rfl)
        rw [if_pos more, mark]
        rfl
      · rw [if_neg more]
  | cons var others ih =>
      rw [recordsLen_cons] at ended inside room
      rw [List.flatMap_cons, List.append_assoc] at found
      have positive : 0 < var.len := by
        simp only [SysvarList.len]
        omega
      obtain ⟨added, step, list, used, kept, flags⟩ :=
        loadLoop_record (by omega) found (storable var List.mem_cons_self)
          (by omega : buf.usedLen + var.len ≤ totalLen)
      have remaining : data.bytes.drop (offset + var.len) =
          others.flatMap SysvarList.record ++ rest := by
        rw [← List.drop_drop, found, List.drop_left' (length_record var)]
      obtain ⟨loaded, loop, listed, counted, same, unchanged⟩ := ih remaining
        (fun more => ended (by omega))
        (fun other member => storable other (List.mem_cons_of_mem _ member)) (by omega)
        (by omega : added.usedLen + _ ≤ totalLen)
      refine ⟨loaded, step.trans loop, ?_, ?_, same.trans kept, unchanged.trans flags⟩
      · rw [listed, list, List.append_assoc, List.singleton_append]
      · rw [counted, used, recordsLen_cons, Nat.add_assoc]

theorem bytes_eq_body (block : Block) : block.bytes = block.body ++ block.bytes.drop totalLen :=
  (List.take_append_drop totalLen block.bytes).symm

/-- Loading a block that holds storable variables gives exactly these. -/
theorem loadVar_bodyOf {buf : SysvarBuf} {vars : List SysvarList} (storable : Storable vars)
    (holds : buf.data.body = bodyOf vars) : ∃ loaded : SysvarBuf,
      buf.loadVar = .ok (loaded, .success) ∧ loaded.list = vars ∧
        loaded.usedLen = recordsLen vars ∧ loaded.data = buf.data ∧
          loaded.failed = buf.failed := by
  obtain ⟨cleared, clearing, empty, data, failed⟩ := clearLoop_success buf.list buf rfl
  have unused := usedLen_of_empty empty
  have found : cleared.data.bytes.drop 0 = vars.flatMap SysvarList.record ++
      (List.replicate (totalLen - recordsLen vars) 0xff ++ buf.data.bytes.drop totalLen) := by
    rw [List.drop_zero, data, ← List.append_assoc]
    exact (bytes_eq_body buf.data).trans (by rw [holds, bodyOf])
  have ended : 0 + recordsLen vars < totalLen →
      (List.replicate (totalLen - recordsLen vars) (0xff : Byte) ++
        buf.data.bytes.drop totalLen).head? = some 0xff := by
    intro more
    obtain ⟨count, padding⟩ := Nat.exists_eq_add_of_lt more
    have some : totalLen - recordsLen vars = count + 1 := by omega
    rw [some]
    rfl
  have fits := storable.fits
  obtain ⟨loaded, loop, listed, counted, same, unchanged⟩ := loadLoop_records found ended
    storable.each (by omega) (by omega : cleared.usedLen + _ ≤ totalLen)
  refine ⟨loaded, ?_, ?_, by omega, same.trans data, unchanged.trans failed⟩
  · rw [SysvarBuf.loadVar, SysvarBuf.clearVar, clearing]
    exact loop
  · rw [listed, empty, List.nil_append]

end Loading

section Saving

theorem store_fitting (data : Block) (offset : Nat) {size : Nat} {stretch : List Byte}
    (length : stretch.length = size) (fits : offset + size ≤ blockSize) : ∃ stored : Block,
      data.store offset stretch = .ok stored ∧
        stored.bytes.take (offset + size) = data.bytes.take offset ++ stretch ∧
          ∀ count, offset + size ≤ count → stored.bytes.drop count = data.bytes.drop count := by
  subst length
  have sized := data.length_bytes ▸ fits
  exact ⟨data.put offset stretch fits, dif_pos fits, take_writeAt_stretch sized,
    fun _ after => drop_writeAt sized after⟩

theorem length_lengthBytes (len : Nat) :
    [BitVec.ofNat 8 (len >>> 8), BitVec.ofNat 8 len].length = 2 := rfl

theorem store_record (data : Block) (offset : Nat) (var : SysvarList)
    (fits : offset + var.len ≤ blockSize) : ∃ named counted valued : Block,
      data.store offset (copyToBuf var.name nameSize) = .ok named ∧
      named.store (offset + nameSize) [BitVec.ofNat 8 (var.value.strlen >>> 8),
        BitVec.ofNat 8 var.value.strlen] = .ok counted ∧
      counted.store (offset + nameSize + 2) (copyToBuf var.value var.value.strlen) = .ok valued ∧
      valued.bytes.take (offset + var.len) = data.bytes.take offset ++ var.record ∧
      valued.bytes.drop (offset + var.len) = data.bytes.drop (offset + var.len) := by
  have parts : offset + var.len = offset + nameSize + 2 + var.value.strlen := by
    simp only [SysvarList.len]
    omega
  obtain ⟨named, storedName, takenName, droppedName⟩ :=
    store_fitting data offset (length_copyToBuf var.name_fits) (by omega)
  obtain ⟨counted, storedLength, takenLength, droppedLength⟩ :=
    store_fitting named (offset + nameSize) (length_lengthBytes var.value.strlen) (by omega)
  obtain ⟨valued, storedValue, takenValue, droppedValue⟩ :=
    store_fitting counted (offset + nameSize + 2) (length_copyToBuf (le_refl var.value.strlen))
      (by omega)
  refine ⟨named, counted, valued, storedName, storedLength, storedValue, ?_, ?_⟩
  · rw [parts, takenValue, takenLength, takenName, SysvarList.record, copyToBuf_strlen]
    simp only [List.append_assoc]
  · rw [droppedValue _ (by omega), droppedLength _ (by omega), droppedName _ (by omega)]

/-- The loop lays the records down one after the other and leaves the rest
erased; it gives up on a value longer than the counter says is in use. -/
theorem saveLoop_records (usedLen offset : Nat) {vars : List SysvarList} {data : Block}
    (erased : data.bytes.drop offset = List.replicate (blockSize - offset) 0xff)
    (inside : offset + recordsLen vars ≤ totalLen) : ∃ (image : Block) (code : ErrorCode),
      SysvarBuf.saveLoop usedLen vars offset data = .ok (image, code) ∧
      ((∀ var ∈ vars, var.value.strlen ≤ usedLen) → code = .success) ∧
      (code = .success → image.body = data.bytes.take offset ++ vars.flatMap SysvarList.record ++
        List.replicate (totalLen - offset - recordsLen vars) 0xff) := by
  have size : totalLen ≤ blockSize := by decide
  induction vars generalizing offset data with
  | nil =>
      refine ⟨data.setCrc32, .success, rfl, fun _ => rfl, fun _ => ?_⟩
      have split := List.take_append_drop offset data.bytes
      have taken : (data.bytes.take offset).length = offset := by
        rw [List.length_take, data.length_bytes]
        omega
      rw [Block.body_setCrc32, Block.body, ← split, erased, List.take_append, taken,
        List.take_replicate, List.take_of_length_le (by omega), List.flatMap_nil, List.append_nil,
        recordsLen_nil, List.take_left' taken]
      congr 2
      omega
  | cons var others ih =>
      rw [recordsLen_cons] at inside
      have positive : 0 < var.len := by
        simp only [SysvarList.len]
        omega
      obtain ⟨named, counted, valued, storedName, storedLength, storedValue, taken, dropped⟩ :=
        store_record data offset var (by omega)
      have cleared : valued.bytes.drop (offset + var.len) =
          List.replicate (blockSize - (offset + var.len)) 0xff := by
        rw [dropped, ← List.drop_drop, erased, List.drop_replicate]
        congr 1
        omega
      obtain ⟨image, code, loop, succeeds, body⟩ := ih (offset + var.len) cleared (by omega)
      by_cases long : usedLen < var.value.strlen
      · refine ⟨named, .paramErr, ?_, fun short => ?_, fun success => ?_⟩
        · rw [SysvarBuf.saveLoop, if_pos (by omega), storedName]
          simp only [bind, Except.bind, if_pos long]
        · exact absurd (short var List.mem_cons_self) (by omega)
        · cases success
      · refine ⟨image, code, ?_, fun short => succeeds fun other member =>
          short other (List.mem_cons_of_mem _ member), fun success => ?_⟩
        · rw [SysvarBuf.saveLoop, if_pos (by omega), storedName]
          simp only [bind, Except.bind, if_neg long, storedLength, storedValue]
          rw [← loop, SysvarList.len]
          congr 1
          omega
        · rw [body success, taken, List.flatMap_cons, recordsLen_cons]
          simp only [List.append_assoc]
          congr 4
          omega

theorem saveVar_storable {buf : SysvarBuf} (storable : Storable buf.list) :
    ∃ (saved : SysvarBuf) (code : ErrorCode), buf.saveVar = .ok (saved, code) ∧
      ((∀ var ∈ buf.list, var.value.strlen ≤ buf.usedLen) → code = .success) ∧
      (code = .success → saved.data.body = bodyOf buf.list) := by
  obtain ⟨image, code, loop, succeeds, body⟩ := saveLoop_records buf.usedLen 0
    (rfl : Block.erased.bytes.drop 0 = _) (by simpa using storable.fits)
  refine ⟨{ buf with data := image }, code, ?_, succeeds, fun success => ?_⟩
  · rw [SysvarBuf.saveVar, loop]
    rfl
  · exact (body success).trans (by simp [bodyOf])

theorem bind_eq_ok {Error Value Result : Type} {first : Except Error Value}
    {next : Value → Except Error Result} {result : Result} (whole : first >>= next = .ok result) :
    ∃ value, first = .ok value ∧ next value = .ok result := by
  cases first with
  | error => cases whole
  | ok value => exact ⟨value, rfl, whole⟩

theorem saveLoop_passes {usedLen offset : Nat} {vars : List SysvarList} {data image : Block}
    (saved : SysvarBuf.saveLoop usedLen vars offset data = .ok (image, .success)) :
    image.Passes := by
  have finished {last : Block} (ended : Except.ok (checkVar last .set) =
      (.ok (image, .success) : Except Fault (Block × ErrorCode))) : image.Passes := by
    simp only [checkVar, Except.ok.injEq, Prod.mk.injEq, and_true] at ended
    exact ended ▸ Block.passes_setCrc32 last
  induction vars generalizing offset data with
  | nil => exact finished saved
  | cons var others ih =>
      rw [SysvarBuf.saveLoop] at saved
      split at saved
      case isFalse => exact finished saved
      case isTrue =>
        obtain ⟨named, _, saved⟩ := bind_eq_ok saved
        dsimp only at saved
        split at saved
        case isTrue => simp at saved
        case isFalse =>
          obtain ⟨counted, _, saved⟩ := bind_eq_ok saved
          obtain ⟨valued, _, saved⟩ := bind_eq_ok saved
          exact ih saved

theorem saveVar_result {buf saved : SysvarBuf} {code : ErrorCode}
    (result : buf.saveVar = .ok (saved, code)) :
    saved = { buf with data := saved.data } ∧ (code = .success → saved.data.Passes) := by
  obtain ⟨⟨image, ended⟩, loop, rest⟩ := bind_eq_ok result
  simp only [pure, Except.pure, Except.ok.injEq, Prod.mk.injEq] at rest
  obtain ⟨rfl, rfl⟩ := rest
  exact ⟨rfl, fun success => saveLoop_passes (success ▸ loop)⟩

end Saving

end Gfiber.Sysvar
