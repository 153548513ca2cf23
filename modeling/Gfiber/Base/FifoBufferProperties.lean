import Gfiber.Base.Pipe

/-! The circular buffer is the pipe: turned to the read position, its block is
the queue and then the room. -/

set_option autoImplicit false

namespace Gfiber.Base

open Lib

namespace FifoBuffer

/-- The block from the read position on. -/
def turned (fifo : FifoBuffer) : List Byte :=
  fifo.buffer.rotate fifo.readPosition

def view (fifo : FifoBuffer) : Pipe where
  contents := fifo.turned.take fifo.dataLength
  spare := fifo.turned.drop fifo.dataLength
  closed := fifo.state = .closed

structure Valid (fifo : FifoBuffer) : Prop where
  fits : fifo.dataLength ≤ fifo.bufferLength
  inside : fifo.readPosition = 0 ∨ fifo.readPosition < fifo.bufferLength
  addressable : fifo.bufferLength < 2 ^ 63

/-- A caller that stores through a pointer has asked for the room before, none
gives an offset that wraps around, and a block lies in memory. -/
structure Proper (fifo : FifoBuffer) (exchange : FifoExchange) : Prop where
  room : ∀ data, exchange.call = .getWriteBuffer data → data.length ≤ fifo.getWriteRemaining
  offset : ∀ data offset, exchange.call = .writeOffset data offset →
    fifo.dataLength + offset < 2 ^ 64
  block : ∀ block, exchange.call = .setCapacity block → block.length < 2 ^ 63

section Views

variable {fifo after : FifoBuffer}

theorem valid_new {block : List Byte} (addressable : block.length < 2 ^ 63) : (new block).Valid :=
  ⟨Nat.zero_le _, .inl rfl, addressable⟩

theorem view_new (block : List Byte) : (new block).view = ⟨[], block, false⟩ := by
  simp [view, new, turned]

@[simp] theorem length_turned : fifo.turned.length = fifo.bufferLength :=
  List.length_rotate _ _

theorem Valid.position_le (valid : fifo.Valid) : fifo.readPosition ≤ fifo.bufferLength := by
  have inside := valid.inside
  omega

theorem Valid.length_contents (valid : fifo.Valid) :
    fifo.view.contents.length = fifo.dataLength := by
  have fits := valid.fits
  simp only [view, List.length_take, length_turned]
  omega

theorem length_spare :
    fifo.view.spare.length = fifo.bufferLength - fifo.dataLength := by
  simp only [view, List.length_drop, length_turned]

theorem Valid.contents_eq_nil (valid : fifo.Valid) :
    fifo.view.contents = [] ↔ fifo.dataLength = 0 := by
  rw [← List.length_eq_zero_iff, valid.length_contents]

theorem spare_eq_nil : fifo.view.spare = [] ↔ fifo.bufferLength ≤ fifo.dataLength := by
  rw [← List.length_eq_zero_iff, length_spare]
  omega

theorem waits_eq : fifo.view.waits = if fifo.state ≠ .closed then .block else .eos := by
  by_cases closed : fifo.state = .closed <;> simp [Pipe.waits, view, closed]

/-- The event for room, and for bytes, as the two branches of the code post them. -/
theorem signals_consume {size : Nat} (valid : fifo.Valid) (stored : size ≤ fifo.dataLength) :
    fifo.view.signals (fifo.view.consume size) =
      if ¬fifo.dataLength < fifo.bufferLength ∧ size > 0 then [.write] else [] := by
  have shrinks : ¬(fifo.view.contents = [] ∧ (fifo.view.consume size).contents ≠ []) := by
    rintro ⟨none, some⟩
    simp [Pipe.consume, none] at some
  have room : fifo.view.spare = [] ∧ (fifo.view.consume size).spare ≠ [] ↔
      ¬fifo.dataLength < fifo.bufferLength ∧ size > 0 := by
    rw [spare_eq_nil, not_lt]
    refine and_congr_right fun full => ?_
    have none := spare_eq_nil.mpr full
    have length := valid.length_contents
    rw [Pipe.consume, none, List.nil_append, ← List.length_pos_iff, List.length_take]
    omega
  rw [Pipe.signals, if_neg shrinks, List.nil_append, if_congr room rfl rfl]

theorem signals_append {data : List Byte} (valid : fifo.Valid) :
    fifo.view.signals (fifo.view.append data) =
      if ¬fifo.dataLength > 0 ∧ data.length > 0 then [.read] else [] := by
  have shrinks : ¬(fifo.view.spare = [] ∧ (fifo.view.append data).spare ≠ []) := by
    rintro ⟨none, some⟩
    simp [Pipe.append, none] at some
  have stored : fifo.view.contents = [] ∧ (fifo.view.append data).contents ≠ [] ↔
      ¬fifo.dataLength > 0 ∧ data.length > 0 := by
    rw [valid.contents_eq_nil, not_lt, Nat.le_zero]
    refine and_congr_right fun empty => ?_
    have none := valid.contents_eq_nil.mpr empty
    rw [Pipe.append, none, List.nil_append, ← List.length_pos_iff]
  rw [Pipe.signals, if_neg shrinks, List.append_nil, if_congr stored rfl rfl]

end Views

section Updates

variable {fifo : FifoBuffer} {size offset bytes : Nat} {data : List Byte}

theorem Valid.consumed (valid : fifo.Valid) (stored : size ≤ fifo.dataLength) :
    Valid { fifo with
      readPosition := (fifo.readPosition + size) % fifo.bufferLength
      dataLength := fifo.dataLength - size } := by
  have fits := valid.fits
  refine ⟨(Nat.sub_le _ _).trans fits, ?_, valid.addressable⟩
  by_cases none : fifo.bufferLength = 0
  · have start : fifo.readPosition = 0 := by
      have inside := valid.inside
      omega
    left
    simp only [start, none]
    omega
  · exact .inr (Nat.mod_lt _ (Nat.pos_of_ne_zero none))

/-- A longer turn brings the bytes that were consumed to the end. -/
theorem view_consumed (valid : fifo.Valid) (stored : size ≤ fifo.dataLength) :
    view { fifo with
      readPosition := (fifo.readPosition + size) % fifo.bufferLength
      dataLength := fifo.dataLength - size } = fifo.view.consume size := by
  have fits := valid.fits
  have turn : turned { fifo with
      readPosition := (fifo.readPosition + size) % fifo.bufferLength
      dataLength := fifo.dataLength - size } = fifo.turned.drop size ++ fifo.turned.take size := by
    unfold turned bufferLength
    rw [List.rotate_mod, ← List.rotate_rotate, List.rotate_eq_drop_append_take]
    exact (List.length_rotate _ _).symm ▸ stored.trans fits
  have front : fifo.dataLength - size ≤ (fifo.turned.drop size).length := by
    rw [List.length_drop, length_turned]
    omega
  unfold view Pipe.consume
  rw [turn]
  simp only [List.take_append_of_le_length front, List.drop_append_of_le_length front,
    List.drop_drop, List.drop_take, List.take_take, Nat.add_sub_cancel' stored,
    Nat.min_eq_left stored]

theorem Valid.extended (valid : fifo.Valid) (room : size ≤ fifo.bufferLength - fifo.dataLength) :
    Valid { fifo with dataLength := fifo.dataLength + size } := by
  have fits := valid.fits
  refine ⟨?_, valid.inside, valid.addressable⟩
  change fifo.dataLength + size ≤ fifo.bufferLength
  omega

theorem view_extended (room : size ≤ fifo.view.spare.length) :
    view { fifo with dataLength := fifo.dataLength + size } =
      fifo.view.append (fifo.view.spare.take size) := by
  unfold Pipe.append
  rw [List.length_take, Nat.min_eq_left room]
  unfold view
  rw [List.drop_drop, ← List.take_add]
  rfl

theorem Valid.copied (valid : fifo.Valid)
    (fits : fifo.dataLength + offset + data.length ≤ fifo.bufferLength) :
    Valid { fifo with
      buffer := Ring.copyIn fifo.buffer
        ((fifo.readPosition + fifo.dataLength + offset) % fifo.bufferLength) data } := by
  have size : (Ring.copyIn fifo.buffer
      ((fifo.readPosition + fifo.dataLength + offset) % fifo.bufferLength) data).length =
      fifo.buffer.length := by
    by_cases none : data = []
    · rw [none, Ring.copyIn_nil]
    · have length := List.length_pos_iff.mpr none
      have positive : 0 < fifo.bufferLength := by omega
      exact Ring.length_copyIn (Nat.mod_lt _ positive).le (by unfold bufferLength at fits; omega)
  refine ⟨?_, ?_, ?_⟩
  · change fifo.dataLength ≤ List.length _
    rw [size]
    exact valid.fits
  · change fifo.readPosition = 0 ∨ fifo.readPosition < List.length _
    rw [size]
    exact valid.inside
  · change List.length _ < 2 ^ 63
    rw [size]
    exact valid.addressable

/-- A copy behind the queue lands in the room, the queue being as it was. -/
theorem view_copied (fits : fifo.dataLength + offset + data.length ≤ fifo.bufferLength) :
    view { fifo with
      buffer := Ring.copyIn fifo.buffer
        ((fifo.readPosition + fifo.dataLength + offset) % fifo.bufferLength) data } =
      { fifo.view with spare := writeAt fifo.view.spare offset data } := by
  have turn : turned { fifo with
      buffer := Ring.copyIn fifo.buffer
        ((fifo.readPosition + fifo.dataLength + offset) % fifo.bufferLength) data } =
      writeAt fifo.turned (fifo.dataLength + offset) data := by
    unfold turned
    rw [Nat.add_assoc]
    exact Ring.rotate_copyIn_add fits
  have inside : fifo.dataLength + offset + data.length ≤ fifo.turned.length := by
    rwa [length_turned]
  have behind : fifo.dataLength ≤ fifo.turned.length := by omega
  unfold view
  rw [turn]
  dsimp only
  rw [take_writeAt inside (Nat.le_add_right _ _), drop_writeAt_add behind]

end Updates

section Calls

variable {fifo : FifoBuffer} {size offset bytes : Nat} {data : List Byte}

theorem readOffset_view (valid : fifo.Valid) : fifo.readOffsetLocked bytes offset =
    if fifo.view.contents.length ≤ offset then (fifo.view.waits, [])
    else (.success, (fifo.view.contents.drop offset).take bytes) := by
  unfold readOffsetLocked
  rw [valid.length_contents, waits_eq]
  refine ite_congr rfl (fun _ => rfl) fun stored => ?_
  have fits := valid.fits
  have positive : 0 < fifo.bufferLength := by omega
  have place := (Nat.mod_lt (fifo.readPosition + offset) positive).le
  have turn : fifo.buffer.rotate ((fifo.readPosition + offset) % fifo.bufferLength) =
      fifo.turned.drop offset ++ fifo.turned.take offset := by
    unfold turned bufferLength
    rw [List.rotate_mod, ← List.rotate_rotate, List.rotate_eq_drop_append_take]
    rw [List.length_rotate]
    unfold bufferLength at fits
    omega
  have front : min bytes (fifo.dataLength - offset) ≤ (fifo.turned.drop offset).length := by
    rw [List.length_drop, length_turned]
    omega
  dsimp only
  rw [Ring.copyOut_eq place (by unfold bufferLength at fits; omega), turn,
    List.take_append_of_le_length front]
  unfold view
  rw [List.drop_take, List.take_take]

theorem writeOffset_closed (closed : fifo.state = .closed) :
    fifo.writeOffsetLocked data offset = (.eos, 0, fifo) :=
  if_pos closed

theorem sizeT_of_lt {value : Nat} (small : value < 2 ^ 64) : sizeT value = value := by
  unfold sizeT
  omega

theorem writeOffset_full (opened : fifo.state ≠ .closed)
    (unwrapped : fifo.dataLength + offset < 2 ^ 64) (full : fifo.view.spare.length ≤ offset) :
    fifo.writeOffsetLocked data offset = (.block, 0, fifo) := by
  rw [length_spare] at full
  have sum := sizeT_of_lt unwrapped
  rw [Nat.cast_add] at sum
  unfold writeOffsetLocked
  rw [if_neg opened, sum, if_pos (by omega)]

/-- An offset that wraps around reaches into the queue. -/
example : writeOffsetLocked ⟨.opened, [1, 2, 3, 0], 3, 0⟩ [9] (2 ^ 64 - 3) =
    (.success, 1, ⟨.opened, [9, 2, 3, 0], 3, 0⟩) := by decide

/-- What a write stores at an offset of the room. -/
theorem writeOffset_stored (data : List Byte) (valid : fifo.Valid) (opened : fifo.state ≠ .closed)
    (room : offset < fifo.view.spare.length) : ∃ after : FifoBuffer,
    fifo.writeOffsetLocked data offset =
        (.success, (data.take (fifo.view.spare.length - offset)).length, after) ∧
      after.Valid ∧ after.dataLength = fifo.dataLength ∧
      after.view = { fifo.view with
        spare := writeAt fifo.view.spare offset
          (data.take (fifo.view.spare.length - offset)) } := by
  rw [length_spare] at room ⊢
  have copied : (data.take (fifo.bufferLength - fifo.dataLength - offset)).length =
      min data.length (fifo.bufferLength - fifo.dataLength - offset) := by
    rw [List.length_take, Nat.min_comm]
  have same : data.take (min data.length (fifo.bufferLength - fifo.dataLength - offset)) =
      data.take (fifo.bufferLength - fifo.dataLength - offset) := by
    rw [Nat.min_comm, ← List.take_eq_take_min]
  have fits : fifo.dataLength + offset +
      (data.take (fifo.bufferLength - fifo.dataLength - offset)).length ≤ fifo.bufferLength := by
    rw [copied]
    omega
  have position := valid.position_le
  have addressable := valid.addressable
  have sum : sizeT (fifo.dataLength + offset) = fifo.dataLength + offset := by
    unfold sizeT
    omega
  have available : sizeT (fifo.bufferLength - fifo.dataLength - offset) =
      fifo.bufferLength - fifo.dataLength - offset := by
    unfold sizeT
    omega
  have place : sizeT (fifo.readPosition + fifo.dataLength + offset) =
      fifo.readPosition + fifo.dataLength + offset := by
    unfold sizeT
    omega
  refine ⟨_, ?_, valid.copied fits, rfl, view_copied fits⟩
  unfold writeOffsetLocked
  rw [if_neg opened, sum, if_neg (by omega)]
  dsimp only
  rw [available, place, copied, same]

end Calls

/-- One call of the buffer is the same exchange with the pipe. -/
structure Simulates (fifo : FifoBuffer) (exchange : FifoExchange) (after : FifoBuffer) : Prop where
  valid : after.Valid
  step : Pipe.Step fifo.view exchange after.view

section Steps

variable {fifo after : FifoBuffer} {events : List StreamEvent}

theorem setCapacity_simulates (valid : fifo.Valid) {block : List Byte}
    (addressable : block.length < 2 ^ 63) :
    fifo.Simulates ⟨.setCapacity block, .resized (fifo.setCapacity block).1, []⟩
      (fifo.setCapacity block).2 := by
  unfold setCapacity
  by_cases small : fifo.dataLength > block.length
  · rw [if_pos small]
    exact ⟨valid, .refuse (by rwa [valid.length_contents])⟩
  rw [if_neg small]
  by_cases other : block.length ≠ fifo.bufferLength
  · have copied : Ring.copyOut fifo.buffer fifo.readPosition fifo.dataLength =
        fifo.view.contents :=
      Ring.copyOut_eq valid.position_le valid.fits
    have fits : 0 + fifo.view.contents.length ≤ block.length := by
      rw [valid.length_contents]
      omega
    have size := length_writeAt fits
    have front := take_writeAt_stretch fits
    rw [Nat.zero_add, valid.length_contents, List.take_zero, List.nil_append] at front
    rw [if_pos other, copied]
    have seen : view { fifo with
        buffer := writeAt block 0 fifo.view.contents, readPosition := 0 } =
        { fifo.view with
          spare := (writeAt block 0 fifo.view.contents).drop fifo.dataLength } := by
      unfold view turned
      dsimp only
      rw [List.rotate_zero]
      exact congrArg (Pipe.mk · _ _) front
    refine ⟨⟨?_, .inl rfl, ?_⟩, ?_⟩
    · change fifo.dataLength ≤ List.length _
      rw [size]
      omega
    · change List.length _ < 2 ^ 63
      rwa [size]
    · dsimp only
      rw [seen]
      refine .resize (by simpa using fits) ?_
      rw [valid.length_contents, List.length_drop, size]
      omega
  · rw [if_neg other]
    refine ⟨valid, ?_⟩
    have length : block.length = fifo.bufferLength := not_not.mp other
    have contents := valid.length_contents
    have spare : fifo.view.spare.length = fifo.bufferLength - fifo.dataLength := length_spare
    have fits := valid.fits
    have whole : fifo.view.contents.length + fifo.view.spare.length = block.length := by omega
    exact .resize (by omega) whole

theorem readOffset_simulates (valid : fifo.Valid) (bytes offset : Nat) :
    fifo.Simulates ⟨.readOffset bytes offset, .got (fifo.readOffsetLocked bytes offset).1
      (fifo.readOffsetLocked bytes offset).2, []⟩ fifo := by
  rw [readOffset_view valid]
  by_cases missing : fifo.view.contents.length ≤ offset
  · rw [if_pos missing]
    exact ⟨valid, .peekNone missing⟩
  · rw [if_neg missing]
    exact ⟨valid, .peek (not_le.mp missing)⟩

theorem writeOffset_simulates (valid : fifo.Valid) (data : List Byte) {offset : Nat}
    (unwrapped : fifo.dataLength + offset < 2 ^ 64) :
    fifo.Simulates ⟨.writeOffset data offset, .stored (fifo.writeOffsetLocked data offset).1
      (fifo.writeOffsetLocked data offset).2.1, []⟩ (fifo.writeOffsetLocked data offset).2.2 := by
  by_cases closed : fifo.state = .closed
  · have eos : fifo.view.waits = .eos := by simp [waits_eq, closed]
    rw [writeOffset_closed closed, ← eos]
    exact ⟨valid, .placeNone (.inl (by simp [view, closed]))⟩
  by_cases full : fifo.view.spare.length ≤ offset
  · have block : fifo.view.waits = .block := by simp [waits_eq, closed]
    rw [writeOffset_full closed unwrapped full, ← block]
    exact ⟨valid, .placeNone (.inr full)⟩
  · obtain ⟨after, stored, valid_after, -, seen⟩ :=
      writeOffset_stored data valid closed (not_le.mp full)
    rw [stored]
    refine ⟨valid_after, ?_⟩
    rw [seen]
    exact .place (by simp [view, closed]) (not_le.mp full)

theorem read_simulates (valid : fifo.Valid) (bytes : Nat) :
    fifo.Simulates ⟨.read bytes, .got (fifo.read bytes).1 (fifo.read bytes).2.1,
      (fifo.read bytes).2.2.1⟩ (fifo.read bytes).2.2.2 := by
  have looked : fifo.readOffsetLocked bytes 0 = _ := readOffset_view valid
  unfold read
  by_cases missing : fifo.view.contents = []
  · rw [if_pos (by rw [missing]; exact Nat.zero_le 0)] at looked
    have waits : fifo.view.waits = .block ∨ fifo.view.waits = .eos := by
      rw [waits_eq]
      split
      · exact .inl rfl
      · exact .inr rfl
    have step : Pipe.Step fifo.view ⟨.read bytes, .got fifo.view.waits [], []⟩ fifo.view :=
      .takeNone missing
    rcases waits with block | eos
    · rw [block] at looked step
      rw [looked]
      exact ⟨valid, step⟩
    · rw [eos] at looked step
      rw [looked]
      exact ⟨valid, step⟩
  · have some := List.length_pos_iff.mpr missing
    rw [if_neg (by omega), List.drop_zero] at looked
    have stored : (fifo.view.contents.take bytes).length ≤ fifo.dataLength := by
      rw [List.length_take, valid.length_contents]
      omega
    have same : fifo.view.consume (fifo.view.contents.take bytes).length =
        fifo.view.consume bytes := by
      unfold Pipe.consume
      rw [List.length_take, ← List.take_eq_take_min, ← List.drop_eq_drop_min]
    rw [looked]
    refine ⟨valid.consumed stored, ?_⟩
    dsimp only
    rw [view_consumed valid stored, ← signals_consume valid stored, same]
    exact .take missing

theorem write_simulates (valid : fifo.Valid) (data : List Byte) :
    fifo.Simulates ⟨.write data, .stored (fifo.write data).1 (fifo.write data).2.1,
      (fifo.write data).2.2.1⟩ (fifo.write data).2.2.2 := by
  unfold write
  by_cases closed : fifo.state = .closed
  · have eos : fifo.view.waits = .eos := by simp [waits_eq, closed]
    have step : Pipe.Step fifo.view ⟨.write data, .stored fifo.view.waits 0, []⟩ fifo.view :=
      .putNone (.inl (by simp [view, closed]))
    rw [eos] at step
    rw [writeOffset_closed closed]
    exact ⟨valid, step⟩
  by_cases full : fifo.view.spare = []
  · have block : fifo.view.waits = .block := by simp [waits_eq, closed]
    have step : Pipe.Step fifo.view ⟨.write data, .stored fifo.view.waits 0, []⟩ fifo.view :=
      .putNone (.inr full)
    rw [block] at step
    have stored := valid.fits
    have addressable := valid.addressable
    rw [writeOffset_full closed (by omega) (by rw [full]; exact Nat.zero_le 0)]
    exact ⟨valid, step⟩
  · have room := List.length_pos_iff.mpr full
    obtain ⟨after, stored, valid_after, kept, seen⟩ :=
      writeOffset_stored data valid closed room
    rw [Nat.sub_zero] at stored seen
    have fits : (data.take fifo.view.spare.length).length ≤ fifo.view.spare.length :=
      List.length_take_le _ _
    have placed : after.view.spare.length = fifo.view.spare.length := by
      rw [seen]
      exact length_writeAt (by rwa [Nat.zero_add])
    have bounded : (data.take fifo.view.spare.length).length ≤ after.view.spare.length := by
      rwa [placed]
    have inside : 0 + (data.take fifo.view.spare.length).length ≤ fifo.view.spare.length := by
      rwa [Nat.zero_add]
    have front := take_writeAt_stretch inside
    have behind := drop_writeAt inside (le_of_eq (Nat.zero_add _))
    rw [Nat.zero_add, List.take_zero, List.nil_append] at front
    have put : after.view.append (after.view.spare.take (data.take fifo.view.spare.length).length) =
        fifo.view.append (data.take fifo.view.spare.length) := by
      rw [seen]
      unfold Pipe.append
      dsimp only
      rw [front, behind]
    rw [stored]
    refine ⟨valid_after.extended (by rw [← length_spare]; exact bounded), ?_⟩
    dsimp only
    rw [view_extended bounded, put, ← signals_append valid]
    exact .put (by simp [view, closed]) full

theorem look_simulates (valid : fifo.Valid) :
    fifo.Simulates ⟨.getReadData, .shown fifo.getReadData, []⟩ fifo := by
  have turn : fifo.turned =
      fifo.buffer.drop fifo.readPosition ++ fifo.buffer.take fifo.readPosition :=
    List.rotate_eq_drop_append_take valid.position_le
  have rest : (fifo.buffer.drop fifo.readPosition).length = fifo.bufferLength - fifo.readPosition :=
    List.length_drop
  have contents : fifo.view.contents =
      (fifo.buffer.drop fifo.readPosition).take fifo.dataLength ++
        (fifo.buffer.take fifo.readPosition).take
          (fifo.dataLength - (fifo.bufferLength - fifo.readPosition)) := by
    unfold view
    rw [turn, List.take_append, rest]
  have position := valid.position_le
  unfold getReadData
  by_cases straight : fifo.readPosition + fifo.dataLength ≤ fifo.bufferLength
  · rw [if_pos straight]
    rw [Nat.sub_eq_zero_of_le (by omega), List.take_zero, List.append_nil] at contents
    rw [← contents]
    exact ⟨valid, .look (List.prefix_refl _) id⟩
  · rw [if_neg straight, ← rest, List.take_length]
    rw [List.take_of_length_le (by omega)] at contents
    refine ⟨valid, .look ⟨_, contents.symm⟩ fun stored none => ?_⟩
    have length := rest
    have fits := valid.fits
    rw [none, List.length_nil] at length
    have inside := valid.inside
    omega

theorem discard_simulates {size : Nat} (valid : fifo.Valid)
    (discarded : fifo.consumeReadData size = some (events, after)) :
    fifo.Simulates ⟨.consumeReadData size, .done, events⟩ after := by
  unfold consumeReadData at discarded
  split at discarded
  case isTrue => cases discarded
  case isFalse defined =>
    cases discarded
    have stored : size ≤ fifo.dataLength := by omega
    refine ⟨valid.consumed stored, ?_⟩
    rw [view_consumed valid stored, ← signals_consume valid stored]
    exact .discard (by rwa [valid.length_contents])

theorem commit_simulates {size : Nat} (valid : fifo.Valid)
    (committed : fifo.consumeWriteBuffer size = some (events, after)) :
    fifo.Simulates ⟨.consumeWriteBuffer size, .done, events⟩ after := by
  unfold consumeWriteBuffer at committed
  split at committed
  case isTrue => cases committed
  case isFalse defined =>
    cases committed
    have room : size ≤ fifo.view.spare.length := by
      rw [length_spare]
      omega
    have length : (fifo.view.spare.take size).length = size := List.length_take_of_le room
    have posted := @signals_append fifo (fifo.view.spare.take size) valid
    rw [length] at posted
    refine ⟨valid.extended (by omega), ?_⟩
    rw [view_extended room]
    change Pipe.Step _ ⟨_, _, if _ then _ else _⟩ _
    rw [← posted]
    exact .commit room

/-- An empty buffer is turned to its start before it is lent. -/
def restarted (fifo : FifoBuffer) : FifoBuffer :=
  { fifo with readPosition := if fifo.dataLength = 0 then 0 else fifo.readPosition }

theorem restarted_valid (valid : fifo.Valid) : fifo.restarted.Valid := by
  refine ⟨valid.fits, ?_, valid.addressable⟩
  unfold restarted
  by_cases empty : fifo.dataLength = 0
  · exact .inl (if_pos empty)
  · dsimp only
    rw [if_neg empty]
    exact valid.inside

theorem restarted_view (valid : fifo.Valid) : ∃ spare,
    fifo.restarted.view = { fifo.view with spare } ∧
      (spare = fifo.view.spare ∨
        fifo.view.contents = [] ∧ ∃ count, spare = fifo.view.spare.rotate count) := by
  by_cases empty : fifo.dataLength = 0
  · have back : fifo.buffer = fifo.turned.rotate (fifo.bufferLength - fifo.readPosition) := by
      have position := valid.position_le
      unfold turned
      rw [List.rotate_rotate, Nat.add_sub_cancel' position]
      exact (List.rotate_length fifo.buffer).symm
    refine ⟨fifo.buffer, ?_, .inr ⟨valid.contents_eq_nil.mpr empty,
      fifo.bufferLength - fifo.readPosition, ?_⟩⟩
    · simp [restarted, view, turned, empty]
    · rw [back]
      simp [view, empty, ← back]
  · refine ⟨fifo.view.spare, ?_, .inl rfl⟩
    have same : fifo.restarted = fifo := by
      unfold restarted
      rw [if_neg empty]
    rw [same]

def lentPosition (fifo : FifoBuffer) : Nat :=
  (fifo.readPosition + fifo.dataLength) % fifo.bufferLength

def lentSize (fifo : FifoBuffer) : Nat :=
  if fifo.lentPosition ≥ fifo.readPosition then fifo.bufferLength - fifo.lentPosition
  else fifo.readPosition - fifo.lentPosition

theorem getWriteBuffer_eq (opened : fifo.state ≠ .closed) (block : fifo.bufferLength ≠ 0) :
    fifo.getWriteBuffer =
      some (some (fifo.restarted.lentPosition, fifo.restarted.lentSize), fifo.restarted) := by
  unfold getWriteBuffer
  rw [if_neg opened, if_neg block]
  rfl

/-- The block that is lent begins where the room does and ends with it or sooner,
unless there is no room. -/
theorem lentSize_room (valid : fifo.Valid) (block : fifo.bufferLength ≠ 0) :
    fifo.lentPosition + fifo.lentSize ≤ fifo.bufferLength ∧
      (fifo.dataLength < fifo.bufferLength → 0 < fifo.lentSize ∧
        fifo.lentSize ≤ fifo.bufferLength - fifo.dataLength) := by
  have fits := valid.fits
  have inside := valid.inside
  have below : fifo.lentPosition < fifo.bufferLength := Nat.mod_lt _ (Nat.pos_of_ne_zero block)
  have place : fifo.lentPosition = if fifo.readPosition + fifo.dataLength < fifo.bufferLength
      then fifo.readPosition + fifo.dataLength
      else fifo.readPosition + fifo.dataLength - fifo.bufferLength := by
    unfold lentPosition
    by_cases straight : fifo.readPosition + fifo.dataLength < fifo.bufferLength
    · rw [if_pos straight, Nat.mod_eq_of_lt straight]
    · have once : fifo.readPosition + fifo.dataLength - fifo.bufferLength <
          fifo.bufferLength := by omega
      rw [if_neg straight, Nat.mod_eq_sub_mod (not_lt.mp straight), Nat.mod_eq_of_lt once]
  unfold lentSize
  split at place <;> split <;> omega

/-- What is stored in the room from its start. -/
theorem view_filled {data : List Byte} (valid : fifo.Valid) (block : fifo.bufferLength ≠ 0)
    (fits : data.length ≤ fifo.lentSize) (room : data.length ≤ fifo.view.spare.length) :
    (fifo.fill fifo.lentPosition data).Valid ∧
      (fifo.fill fifo.lentPosition data).view =
        { fifo.view with spare := writeAt fifo.view.spare 0 data } := by
  obtain ⟨inside, -⟩ := lentSize_room valid block
  have stored := valid.fits
  rw [length_spare] at room
  have behind : fifo.dataLength + 0 + data.length ≤ fifo.bufferLength := by omega
  have straight : data.length ≤ fifo.buffer.length - fifo.lentPosition := by
    unfold bufferLength at inside
    omega
  have same : fifo.fill fifo.lentPosition data =
      { fifo with
        buffer := Ring.copyIn fifo.buffer
          ((fifo.readPosition + fifo.dataLength + 0) % fifo.bufferLength) data } := by
    unfold fill
    rw [Nat.add_zero, ← Ring.copyIn_of_le straight]
    rfl
  rw [same]
  exact ⟨valid.copied behind, view_copied behind⟩

theorem lend_simulates {data : List Byte} {reply : FifoReply} (valid : fifo.Valid)
    (room : data.length ≤ fifo.getWriteRemaining)
    (lent : fifo.lend data = some (reply, events, after)) :
    fifo.Simulates ⟨.getWriteBuffer data, reply, events⟩ after := by
  unfold lend at lent
  by_cases closed : fifo.state = .closed
  · have refused : fifo.getWriteBuffer = some (none, fifo) := if_pos closed
    rw [refused] at lent
    dsimp only at lent
    split at lent
    case isTrue none =>
      cases lent
      subst none
      exact ⟨valid, .lendNone (by simp [view, closed])⟩
    case isFalse => cases lent
  by_cases empty : fifo.bufferLength = 0
  · have undefined : fifo.getWriteBuffer = none := by
      unfold getWriteBuffer
      rw [if_neg closed, if_pos empty]
    rw [undefined] at lent
    cases lent
  rw [getWriteBuffer_eq closed empty] at lent
  dsimp only at lent
  split at lent
  case isFalse => cases lent
  case isTrue fits =>
    cases lent
    obtain ⟨spare, seen, turned⟩ := restarted_view valid
    have again := restarted_valid valid
    obtain ⟨-, lent_room⟩ := lentSize_room again empty
    have remaining : fifo.getWriteRemaining = fifo.view.spare.length := length_spare.symm
    have free : data.length ≤ fifo.restarted.view.spare.length := by
      rw [length_spare]
      exact room
    obtain ⟨filled, after_fill⟩ := view_filled again empty fits free
    refine ⟨filled, ?_⟩
    rw [after_fill, seen]
    refine .lend (by simp [view, closed]) fits (remaining ▸ room) (fun some => ?_) turned
    have open_room : fifo.dataLength < fifo.bufferLength := by
      by_contra full
      exact some (spare_eq_nil.mpr (not_lt.mp full))
    rw [length_spare]
    exact lent_room open_room

theorem step_simulates {exchange : FifoExchange} (valid : fifo.Valid)
    (proper : fifo.Proper exchange) (step : fifo.Step exchange after) :
    fifo.Simulates exchange after := by
  obtain ⟨call, reply, events⟩ := exchange
  unfold Step at step
  cases call with
  | setCapacity block =>
      cases step
      exact setCapacity_simulates valid (proper.block block rfl)
  | readOffset bytes offset =>
      cases step
      exact readOffset_simulates valid bytes offset
  | writeOffset data offset =>
      cases step
      exact writeOffset_simulates valid data (proper.offset data offset rfl)
  | read bytes =>
      cases step
      exact read_simulates valid bytes
  | write data =>
      cases step
      exact write_simulates valid data
  | close =>
      cases step
      exact ⟨⟨valid.fits, valid.inside, valid.addressable⟩, .close⟩
  | getReadData =>
      cases step
      exact look_simulates valid
  | consumeReadData size =>
      obtain ⟨result, consumed, same⟩ := Option.map_eq_some_iff.mp step
      cases same
      exact discard_simulates valid consumed
  | getWriteBuffer data => exact lend_simulates valid (proper.room data rfl) step
  | consumeWriteBuffer size =>
      obtain ⟨result, consumed, same⟩ := Option.map_eq_some_iff.mp step
      cases same
      exact commit_simulates valid consumed
  | getWriteRemaining =>
      cases step
      have remaining : fifo.view.spare.length = fifo.getWriteRemaining := length_spare
      exact ⟨valid, remaining ▸ .measure⟩

end Steps

section Runs

variable {block : List Byte} {trace : List (FifoBuffer × FifoExchange)} {finish : FifoBuffer}

/-- The run as the pipe has it. -/
def viewed (trace : List (FifoBuffer × FifoExchange)) : List (Pipe × FifoExchange) :=
  trace.map fun entry => (entry.1.view, entry.2)

theorem run_simulated (addressable : block.length < 2 ^ 63)
    (run : Run Step (new block) trace finish) (proper : StepsMeet Proper trace) :
    finish.Valid ∧ Run Pipe.Step ⟨[], block, false⟩ (viewed trace) finish.view := by
  have kept : ∀ {fifo : FifoBuffer} {exchange : FifoExchange} {after : FifoBuffer}, fifo.Valid →
      fifo.Proper exchange → Step fifo exchange after →
      after.Valid ∧ Pipe.Step fifo.view exchange after.view := by
    intro fifo exchange after valid proper step
    have simulates := step_simulates valid proper step
    exact ⟨simulates.valid, simulates.step⟩
  rw [← view_new block]
  exact @Run.simulated _ _ Step _ Pipe.Step view Valid Proper kept _ _ _ run
    (valid_new addressable) proper

theorem refines_pipe (addressable : block.length < 2 ^ 63)
    (run : Run Step (new block) trace finish) (proper : StepsMeet Proper trace) :
    Throughout Valid trace finish ∧
      Run Pipe.Step ⟨[], block, false⟩ (trace.map fun entry => (entry.1.view, entry.2))
        finish.view :=
  ⟨run.throughout (valid_new addressable)
    (fun valid proper step => (step_simulates valid proper step).valid) proper,
    (run_simulated addressable run proper).2⟩

/-- What has been taken out, and then what is stored, is what has been put in. -/
theorem conserves_bytes (addressable : block.length < 2 ^ 63)
    (run : Run Step (new block) trace finish) (proper : StepsMeet Proper trace) :
    trace.flatMap (fun entry => entry.1.view.taken entry.2) ++ finish.view.contents =
      trace.flatMap (fun entry => entry.1.view.added entry.2) := by
  have whole := Pipe.run_conserves (run_simulated addressable run proper).2
  simpa only [viewed, List.flatMap_map, List.nil_append] using whole.symm

theorem no_lost_wakeup (addressable : block.length < 2 ^ 63)
    (run : Run Step (new block) trace finish) (proper : StepsMeet Proper trace) :
    let waiting := (trace.map Prod.snd).foldl Waiting.after ⟨false, false⟩
    (waiting.reader = true → finish.dataLength = 0) ∧
      ((∀ entry ∈ trace, ∀ capacity, entry.2.call ≠ .setCapacity capacity) →
        waiting.writer = true → finish.dataLength = finish.bufferLength) := by
  intro waiting
  obtain ⟨valid, seen⟩ := run_simulated addressable run proper
  obtain ⟨reader, writer⟩ := Pipe.run_waits seen
  have same : Pipe.waitingAfter (viewed trace) = waiting := by
    unfold Pipe.waitingAfter viewed
    rw [List.map_map]
    rfl
  rw [same] at reader writer
  refine ⟨fun waits => valid.contents_eq_nil.mp (reader waits), fun fixed waits => ?_⟩
  have full := spare_eq_nil.mp (writer (fun entry member => ?_) waits)
  · exact le_antisymm valid.fits full
  · obtain ⟨old, present, rfl⟩ := List.mem_map.mp member
    rintro ⟨capacity, resized⟩
    exact fixed old present capacity resized

/-- A buffer of four bytes that has wrapped around and is full. -/
def wrapped : FifoBuffer :=
  ⟨.opened, [5, 6, 3, 4], 4, 2⟩

/-- The third call writes behind the queue, and the last finds no room. -/
def wrappedExchanges : List FifoExchange :=
  [⟨.write [1, 2, 3], .stored .success 3, [.read]⟩, ⟨.read 2, .got .success [1, 2], []⟩,
    ⟨.writeOffset [0, 9] 1, .stored .success 2, []⟩,
    ⟨.write [4, 5, 6, 7], .stored .success 3, []⟩, ⟨.write [7], .stored .block 0, []⟩]

theorem wrapped_run : ∃ trace, Run Step (new (List.replicate 4 0)) trace wrapped ∧
    StepsMeet Proper trace ∧ trace.map Prod.snd = wrappedExchanges := by
  have start : Run Step (new (List.replicate 4 0)) [] (new (List.replicate 4 0)) := .nil
  have first : Step (new (List.replicate 4 0)) ⟨.write [1, 2, 3], .stored .success 3, [.read]⟩
      ⟨.opened, [1, 2, 3, 0], 3, 0⟩ := rfl
  have second : Step ⟨.opened, [1, 2, 3, 0], 3, 0⟩ ⟨.read 2, .got .success [1, 2], []⟩
      ⟨.opened, [1, 2, 3, 0], 1, 2⟩ := rfl
  have placed : Step ⟨.opened, [1, 2, 3, 0], 1, 2⟩
      ⟨.writeOffset [0, 9] 1, .stored .success 2, []⟩ ⟨.opened, [0, 9, 3, 0], 1, 2⟩ := rfl
  have third : Step ⟨.opened, [0, 9, 3, 0], 1, 2⟩
      ⟨.write [4, 5, 6, 7], .stored .success 3, []⟩ wrapped := rfl
  have fourth : Step wrapped ⟨.write [7], .stored .block 0, []⟩ wrapped := rfl
  refine ⟨_, ((((start.snoc first).snoc second).snoc placed).snoc third).snoc fourth, ?_, rfl⟩
  intro entry member
  simp only [List.nil_append, List.cons_append, List.mem_cons, List.not_mem_nil, or_false] at member
  rcases member with rfl | rfl | rfl | rfl | rfl
  case inr.inr.inl =>
    refine ⟨nofun, fun data offset same => ?_, nofun⟩
    cases same
    decide
  all_goals exact ⟨nofun, nofun, nofun⟩

theorem refines_pipe_wrapped : ∃ trace : List (FifoBuffer × FifoExchange),
    trace.map Prod.snd = wrappedExchanges ∧ Throughout Valid trace wrapped ∧
      Run Pipe.Step ⟨[], List.replicate 4 0, false⟩
        (trace.map fun entry => (entry.1.view, entry.2)) ⟨[3, 4, 5, 6], [], false⟩ := by
  obtain ⟨trace, run, proper, same⟩ := wrapped_run
  exact ⟨trace, same, refines_pipe (by decide) run proper⟩

theorem conserves_bytes_wrapped : ∃ trace : List (FifoBuffer × FifoExchange),
    trace.map Prod.snd = wrappedExchanges ∧
      trace.flatMap (fun entry => entry.1.view.taken entry.2) ++ [3, 4, 5, 6] =
        trace.flatMap (fun entry => entry.1.view.added entry.2) := by
  obtain ⟨trace, run, proper, same⟩ := wrapped_run
  exact ⟨trace, same, conserves_bytes (by decide) run proper⟩

theorem no_lost_wakeup_wrapped : ∃ trace : List (FifoBuffer × FifoExchange),
    trace.map Prod.snd = wrappedExchanges ∧
      (trace.map Prod.snd).foldl Waiting.after ⟨false, false⟩ = ⟨false, true⟩ ∧
        wrapped.dataLength = wrapped.bufferLength := by
  obtain ⟨trace, run, proper, same⟩ := wrapped_run
  have woken := no_lost_wakeup (by decide) run proper
  have waiting : wrappedExchanges.foldl Waiting.after ⟨false, false⟩ = ⟨false, true⟩ := by decide
  rw [same] at woken
  refine ⟨trace, same, same ▸ waiting, woken.2 (fun entry member capacity resized => ?_) rfl⟩
  have listed : entry.2 ∈ wrappedExchanges := same ▸ List.mem_map_of_mem member
  simp only [wrappedExchanges, List.mem_cons, List.not_mem_nil, or_false] at listed
  rcases listed with label | label | label | label | label <;> rw [label] at resized <;>
    cases resized

end Runs

end FifoBuffer

end Gfiber.Base
