import Gfiber.Ginstall.Copy

/-! When a copy comes to its end, and what has been copied then. -/

set_option autoImplicit false

namespace Gfiber.Ginstall.Copy

open Lib

section Writing

/-- The buffers that are written for a file. -/
def Source.buffers (source : Source) : List Text :=
  source.pieces.map fun piece => pad piece bufsize

/-- What is written of a file when nothing fails. -/
def Source.written (source : Source) : Written :=
  ⟨source.content.length, source.content, source.buffers⟩

/-- No write fails, and neither does the flush at the end. -/
def Destination.TakesAll (destination : Destination) (buffers : List Text) : Prop :=
  (∀ count < buffers.length, destination.takes (buffers.take (count + 1))) ∧
    destination.flushes buffers

variable {destination : Destination}

theorem writePieces_eq (pieces : List Text) (written : Written)
    (taken : ∀ count < pieces.length, destination.takes
      (written.buffers ++ (pieces.map fun piece => pad piece bufsize).take (count + 1))) :
    writePieces destination pieces written =
      .ok ⟨written.total + pieces.flatten.length, written.hashed ++ pieces.flatten,
        written.buffers ++ pieces.map fun piece => pad piece bufsize⟩ := by
  induction pieces generalizing written with
  | nil => simp [writePieces]
  | cons piece pieces ih =>
      have first : destination.takes (written.buffers ++ [pad piece bufsize]) :=
        taken 0 (Nat.zero_lt_succ _)
      rw [writePieces]
      rw [if_pos first, ih]
      · simp [Nat.add_assoc]
      · intro count below
        have later := taken (count + 1) (Nat.succ_lt_succ below)
        simpa using later

theorem writePieces_refused (pieces : List Text) (written : Written) {count : Nat}
    (below : count < pieces.length)
    (refused : destination.takes
      (written.buffers ++ (pieces.map fun piece => pad piece bufsize).take (count + 1)) = false) :
    writePieces destination pieces written = .error .ioError := by
  induction pieces generalizing written count with
  | nil => cases below
  | cons piece pieces ih =>
      rw [writePieces]
      by_cases first : destination.takes (written.buffers ++ [pad piece bufsize])
      · rw [if_pos first]
        cases count with
        | zero =>
            have here : destination.takes (written.buffers ++ [pad piece bufsize]) = false := refused
            rw [here] at first
            cases first
        | succ count =>
            apply ih _ (Nat.lt_of_succ_lt_succ below)
            simpa using refused
      · rw [if_neg first]

theorem writePieces_start {source : Source}
    (taken : ∀ count < source.buffers.length, destination.takes (source.buffers.take (count + 1))) :
    writePieces destination source.pieces ⟨0, [], []⟩ = .ok source.written := by
  rw [writePieces_eq]
  · simp only [Nat.zero_add, List.nil_append]
    rfl
  · intro count below
    apply taken count
    rw [Source.buffers, List.length_map]
    exact below

theorem writeToFile_eq {source : Source} (taken : destination.TakesAll source.buffers) :
    writeToFile source destination = .ok source.written := by
  rw [writeToFile, writePieces_start taken.1]
  change (if destination.flushes source.buffers then _ else _) = _
  rw [if_pos taken.2]
  rfl

theorem writeToFile_refused {source : Source} (refused : ¬destination.TakesAll source.buffers) :
    writeToFile source destination = .error .ioError := by
  by_cases taken : ∀ count < source.buffers.length, destination.takes (source.buffers.take (count + 1))
  · have unflushed : ¬destination.flushes source.buffers = true := fun flushes =>
      refused ⟨taken, flushes⟩
    rw [writeToFile, writePieces_start taken]
    change (if destination.flushes source.buffers then _ else _) = _
    rw [if_neg unflushed]
    rfl
  · simp only [not_forall, Bool.not_eq_true] at taken
    obtain ⟨count, below, here⟩ := taken
    rw [Source.buffers, List.length_map] at below
    rw [writeToFile, writePieces_refused source.pieces ⟨0, [], []⟩ below here]
    rfl

end Writing

section Verification

variable {sha1 : Text → Text} {source : Source} {destination : Destination}

/-- What a destination has to be read after the file has been written to it. -/
def Destination.readBack (destination : Destination) (source : Source) : Text :=
  (destination.keeps source.buffers).content

/-- What becomes of the copy once everything has been written. -/
theorem copyAndVerify_written (fuel : Nat) (taken : destination.TakesAll source.buffers)
    (accepted : source.file.hashDiffers (sha1 source.content) = false) :
    copyAndVerify sha1 fuel source destination =
      ((destination.keeps source.buffers).gather bufsize fuel 0 source.content.length []).map fun
        | none => .error .ioError
        | some read => if sha1 read = sha1 source.content then .ok source.content.length
            else .error .readHash := by
  rw [copyAndVerify, writeToFile_eq taken]
  dsimp only [Source.written]
  rw [accepted, if_neg Bool.false_ne_true, matchesHash, Option.map_map]
  congr 1
  funext gathered
  cases gathered with
  | none => rfl
  | some read => simp

/-- A file comes to be read back unless something has gone wrong before. -/
def ReachesReading (sha1 : Text → Text) (source : Source) (destination : Destination) : Prop :=
  destination.TakesAll source.buffers ∧ source.file.hashDiffers (sha1 source.content) = false

theorem copyAndVerify_failed (fuel : Nat) (failed : ¬ReachesReading sha1 source destination) :
    ∃ error ∈ [InstallError.ioError, .writtenHash],
      copyAndVerify sha1 fuel source destination = some (.error error) := by
  by_cases taken : destination.TakesAll source.buffers
  · have differs : source.file.hashDiffers (sha1 source.content) = true := by
      rw [← Bool.not_eq_false]
      exact fun accepted => failed ⟨taken, accepted⟩
    refine ⟨.writtenHash, by simp, ?_⟩
    rw [copyAndVerify, writeToFile_eq taken]
    dsimp only [Source.written]
    rw [if_pos differs]
  · refine ⟨.ioError, by simp, ?_⟩
    rw [copyAndVerify, writeToFile_refused taken]

theorem copyAndVerify_long {fuel : Nat} (reaches : ReachesReading sha1 source destination)
    (long : source.content.length ≤ (destination.readBack source).length)
    (fueled : source.content.length ≤ fuel) :
    copyAndVerify sha1 fuel source destination =
      some (if sha1 ((destination.readBack source).take source.content.length) =
          sha1 source.content then .ok source.content.length
        else .error .readHash) := by
  rw [copyAndVerify_written fuel reaches.1 reaches.2,
    Reader.gather_eq (by decide) [] (by rw [Nat.zero_add]; exact long) fueled]
  rfl

theorem copyAndVerify_short (fuel : Nat) (reaches : ReachesReading sha1 source destination)
    (short : (destination.readBack source).length < source.content.length)
    (whole : (destination.keeps source.buffers).broken = false) :
    copyAndVerify sha1 fuel source destination = none := by
  rw [copyAndVerify_written fuel reaches.1 reaches.2,
    Reader.gather_short whole [] (by rw [Nat.zero_add]; exact short) (Nat.zero_le _)]
  rfl

theorem copyAndVerify_broken {fuel : Nat} (reaches : ReachesReading sha1 source destination)
    (short : (destination.readBack source).length < source.content.length)
    (broken : (destination.keeps source.buffers).broken = true)
    (fueled : source.content.length ≤ fuel) :
    copyAndVerify sha1 fuel source destination = some (.error .ioError) := by
  rw [copyAndVerify_written fuel reaches.1 reaches.2, Reader.gather_broken (by decide) broken []
    (by rw [Nat.zero_add]; exact short) (Nat.zero_le _) fueled]
  rfl

/-- All that has been written can be read back, or a read fails before the end of it. -/
def Destination.Answers (destination : Destination) (source : Source) : Prop :=
  source.content.length ≤ (destination.readBack source).length ∨
    (destination.keeps source.buffers).broken = true

theorem copyAndVerify_answers (reaches : ReachesReading sha1 source destination)
    (answers : destination.Answers source) :
    ∃ outcome, copyAndVerify sha1 source.content.length source destination = some outcome := by
  by_cases long : source.content.length ≤ (destination.readBack source).length
  · exact ⟨_, copyAndVerify_long reaches long (le_refl _)⟩
  · cases answers with
    | inl enough => exact absurd enough long
    | inr broken => exact ⟨_, copyAndVerify_broken reaches (Nat.lt_of_not_le long) broken (le_refl _)⟩

/-- The errors that are an `IOError`. -/
def ioErrors : List InstallError :=
  [.ioError, .writtenHash, .readHash]

/-- A normal return means that the destination has the bytes of the source, and those have the
hash that is given; all else is an `IOError`. -/
def Faithful (sha1 : Text → Text) (source : Source) (destination : Destination) :
    Except InstallError Nat → Prop
  | .ok size => size = source.content.length ∧
      (destination.readBack source).take size = source.content ∧
      ∀ hash, source.secureHash = some hash → hash.truthy → hash = .text (sha1 source.content)
  | .error error => error ∈ ioErrors

/-- With enough fuel the copy ends, and however much there is, its outcome is faithful. -/
def EndsFaithfully (sha1 : Text → Text) (source : Source) (destination : Destination) : Prop :=
  (∃ fuel outcome, copyAndVerify sha1 fuel source destination = some outcome) ∧
    ∀ fuel outcome, copyAndVerify sha1 fuel source destination = some outcome →
      Faithful sha1 source destination outcome

theorem hash_of_accepted (accepted : source.file.hashDiffers (sha1 source.content) = false)
    {hash : Value} (given : source.secureHash = some hash) (truthy : hash.truthy) :
    hash = .text (sha1 source.content) := by
  rw [Source.file, FileWithSecureHash.hashDiffers, given] at accepted
  simpa [truthy] using accepted

theorem faithful_gathered (injective : Function.Injective sha1)
    (reaches : ReachesReading sha1 source destination) {fuel : Nat}
    {outcome : Except InstallError Nat}
    (done : copyAndVerify sha1 fuel source destination = some outcome) :
    Faithful sha1 source destination outcome := by
  rw [copyAndVerify_written fuel reaches.1 reaches.2, Option.map_eq_some_iff] at done
  obtain ⟨gathered, ran, result⟩ := done
  cases gathered with
  | none =>
      cases result
      simp [Faithful, ioErrors]
  | some read =>
      have whole : read = (destination.readBack source).take source.content.length :=
        Reader.gather_some ran
      dsimp only at result
      split at result
      case isTrue same =>
        cases result
        refine ⟨rfl, ?_, fun hash given truthy => hash_of_accepted reaches.2 given truthy⟩
        rw [← whole]
        exact injective same
      case isFalse =>
        cases result
        simp [Faithful, ioErrors]

/-- A copy ends, and as it should, exactly when the destination can be read as far as the
source goes or fails before, unless the reading is not reached. -/
theorem copy_ends_iff (injective : Function.Injective sha1) (source : Source)
    (destination : Destination) :
    EndsFaithfully sha1 source destination ↔
      (ReachesReading sha1 source destination → destination.Answers source) := by
  constructor
  · intro ends reaches
    obtain ⟨⟨fuel, outcome, done⟩, _⟩ := ends
    by_contra silent
    rw [Destination.Answers, not_or, Nat.not_le, Bool.not_eq_true] at silent
    rw [copyAndVerify_short fuel reaches silent.1 silent.2] at done
    cases done
  · intro answers
    by_cases reaches : ReachesReading sha1 source destination
    · obtain ⟨outcome, done⟩ := copyAndVerify_answers reaches (answers reaches)
      exact ⟨⟨_, outcome, done⟩, fun fuel outcome => faithful_gathered injective reaches⟩
    · constructor
      · obtain ⟨error, _, failed⟩ := copyAndVerify_failed 0 reaches
        exact ⟨0, _, failed⟩
      · intro fuel outcome done
        obtain ⟨error, listed, failed⟩ := copyAndVerify_failed fuel reaches
        cases failed.symm.trans done
        have all : [InstallError.ioError, .writtenHash] ⊆ ioErrors := by simp [ioErrors]
        exact all listed

/-- A destination from which the buffers are read again, over what it held before. -/
def overwritten (old : Text) (share : Nat → Nat) : Destination where
  takes _ := true
  flushes _ := true
  keeps buffers := ⟨buffers.flatten ++ old.drop buffers.flatten.length, share, false⟩

theorem length_pad (data : Text) (size : Nat) : data.length ≤ (pad data size).length := by
  rw [pad, List.length_append]
  exact Nat.le_add_right _ _

theorem length_buffers (pieces : List Text) :
    pieces.flatten.length ≤ (pieces.map fun piece => pad piece bufsize).flatten.length := by
  induction pieces with
  | nil => exact Nat.le_refl 0
  | cons piece pieces ih =>
      rw [List.flatten_cons, List.map_cons, List.flatten_cons, List.length_append,
        List.length_append]
      exact Nat.add_le_add (length_pad piece bufsize) ih

theorem overwritten_long (source : Source) (old : Text) (share : Nat → Nat) :
    source.content.length ≤ ((overwritten old share).readBack source).length := by
  have buffers := length_buffers source.pieces
  rw [Destination.readBack, overwritten, List.length_append]
  exact Nat.le_add_right_of_le buffers

def kernelSource : Source :=
  ⟨["kernel".toList], some (.text "c65a0fb7e74ffd2c9fc3a0f9aacb0f6a24b0a68b".toList), by decide⟩

/-- An image that is read in two pieces. -/
def piecesSource : Source :=
  ⟨["ker".toList, "nel".toList],
    some (.text "c65a0fb7e74ffd2c9fc3a0f9aacb0f6a24b0a68b".toList), by decide⟩

theorem copy_ends_overwritten :
    EndsFaithfully exampleSha1 piecesSource (overwritten "old kernel".toList fun _ => 9) :=
  (copy_ends_iff exampleSha1_injective _ _).mpr fun _ => Or.inl (overwritten_long _ _ _)

/-- A destination that ends too soon. -/
def shortened (room : Nat) : Destination where
  takes _ := true
  flushes _ := true
  keeps buffers := ⟨buffers.flatten.take room, fun _ => 0, false⟩

theorem copy_never_ends :
    (∀ fuel, copyAndVerify exampleSha1 fuel kernelSource (shortened 3) = none) ∧
      ¬EndsFaithfully exampleSha1 kernelSource (shortened 3) := by
  have endless (fuel : Nat) : copyAndVerify exampleSha1 fuel kernelSource (shortened 3) = none := by
    apply copyAndVerify_short
    · refine ⟨⟨fun _ _ => rfl, rfl⟩, ?_⟩
      decide +kernel
    · decide +kernel
    · rfl
  refine ⟨endless, fun ends => ?_⟩
  obtain ⟨⟨fuel, outcome, done⟩, _⟩ := ends
  rw [endless fuel] at done
  cases done

end Verification

section Installer

variable {host : Host}

/-- A file whose pieces all fill the buffer, but for the last one. -/
def Source.Regular (source : Source) : Prop :=
  ∀ piece ∈ source.pieces.dropLast, piece.length = bufsize

theorem pad_full {data : Text} {size : Nat} (full : data.length = size) : pad data size = data := by
  rw [pad, full, Nat.sub_self]
  exact List.append_nil data

/-- Such a file is padded only at its end. -/
theorem buffers_regular {source : Source} (regular : source.Regular) :
    source.buffers.flatten = padded source.content := by
  rw [Source.Regular] at regular
  cases List.eq_nil_or_concat' source.pieces with
  | inl empty =>
      rw [Source.buffers, Source.content, empty]
      rfl
  | inr some_piece =>
      obtain ⟨front, last, split⟩ := some_piece
      obtain ⟨nonempty, short⟩ := source.sized last (by simp [split])
      rw [split, List.dropLast_concat] at regular
      have whole : (front.map fun piece => pad piece bufsize) = front := by
        calc front.map (fun piece => pad piece bufsize) = front.map id :=
              List.map_congr_left fun piece member => pad_full (regular piece member)
          _ = front := List.map_id front
      have blocks : front.flatten.length % bufsize = 0 := by
        rw [List.length_flatten]
        apply Nat.mod_eq_zero_of_dvd
        apply List.dvd_sum
        intro length member
        obtain ⟨piece, listed, rfl⟩ := List.mem_map.mp member
        rw [regular piece listed]
      have some_last := List.length_pos_iff.mpr nonempty
      have gap : (bufsize - (front.flatten ++ last).length % bufsize) % bufsize =
          bufsize - last.length := by
        rw [List.length_append, Nat.add_mod, blocks]
        rw [bufsize] at short ⊢
        omega
      rw [Source.buffers, Source.content, split, List.map_append, whole, List.flatten_append,
        List.flatten_append, List.map_singleton, List.flatten_singleton, List.flatten_singleton,
        padded, gap, pad, List.append_assoc]

theorem readBack_regular {source : Source} (regular : source.Regular) (old : Text)
    (share : Nat → Nat) : (overwritten old share).readBack source =
      padded source.content ++ old.drop (padded source.content).length := by
  rw [← buffers_regular regular]
  rfl

/-- What the installer's copy ends with, for what the copy in pieces ends with. -/
def ending : Option (Except InstallError Nat) → Ending InstallError Nat
  | none => .cut
  | some (.ok size) => .returned size
  | some (.error error) => .raised error

/-- The writing as one operation is that of all pieces. -/
theorem bind_writeToFile (data : Text) (store : Store) (device : Device) (writes : List Write)
    (next : Nat × Text → Installer Nat) :
    (Ginstall.writeToFile host data store >>= next) ⟨device, [], writes⟩ =
      next (data.length, host.sha1 data)
        (World.setContents ⟨device, [], writes ++ [⟨store, data⟩]⟩ store
          (padded data ++ (device.contents store).drop (padded data).length)) :=
  rfl

theorem bind_matchesHash (store : Store) (size : Nat) (hash : Text) {world : World}
    (quiet : world.fates = []) (next : Bool → Installer Nat) :
    ((Ginstall.matchesHash host store size hash >>= next) world).1 =
      if (world.device.contents store).length < size then .cut
      else (next (decide (host.sha1 ((world.device.contents store).take size) = hash)) world).1 := by
  cases world with
  | mk device fates writes =>
      cases quiet
      change (Exec.andThen (if (device.contents store).length < size then Exec.stop
        else Exec.ret (decide (host.sha1 ((device.contents store).take size) = hash))) next
          ⟨device, [], writes⟩).1 = _
      split
      · rfl
      · rfl

/-- In the installer, the copy to a store ends as the copy in pieces does over what the store
held before. -/
theorem copyAndVerify_store {source : Source} (regular : source.Regular) (store : Store)
    (device : Device) (writes : List Write) (share : Nat → Nat) {fuel : Nat}
    (fueled : source.content.length ≤ fuel) :
    (Ginstall.copyAndVerify host source.file store ⟨device, [], writes⟩).1 =
      ending (copyAndVerify host.sha1 fuel source
        (overwritten (device.contents store) share)) := by
  have taken : (overwritten (device.contents store) share).TakesAll source.buffers :=
    ⟨fun _ _ => rfl, rfl⟩
  have long := overwritten_long source (device.contents store) share
  have content : source.file.rest = source.content := rfl
  rw [Ginstall.copyAndVerify, bind_writeToFile, content]
  cases differs : source.file.hashDiffers (host.sha1 source.content) with
  | true =>
      rw [copyAndVerify, writeToFile_eq taken]
      dsimp only [Source.written]
      rw [differs]
      rfl
  | false =>
      rw [copyAndVerify_long ⟨taken, differs⟩ long fueled]
      dsimp only
      rw [differs, if_neg Bool.false_ne_true, bind_matchesHash _ _ _ rfl]
      rw [readBack_regular regular] at long ⊢
      have stored : (World.setContents ⟨device, [], writes ++ [⟨store, source.content⟩]⟩ store
          (padded source.content ++ (device.contents store).drop
            (padded source.content).length)).device.contents store =
          padded source.content ++ (device.contents store).drop (padded source.content).length :=
        if_pos rfl
      rw [stored, if_neg (Nat.not_lt.mpr long)]
      by_cases same : host.sha1 ((padded source.content ++ (device.contents store).drop
          (padded source.content).length).take source.content.length) = host.sha1 source.content
      · rw [if_pos same, if_pos (decide_eq_true same)]
        rfl
      · rw [if_neg same, if_neg (by simpa using same)]
        rfl

end Installer

end Gfiber.Ginstall.Copy
