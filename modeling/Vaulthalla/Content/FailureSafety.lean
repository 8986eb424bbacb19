import Vaulthalla.Content.CrashConsistency

namespace Vaulthalla
namespace Content
namespace Sidecar

open Foundation CrashProgram

/-!
# Replacements that throw

`createFile` and `seal` catch every exception between the creation of the
sidecar and the end of the row update, and remove the sidecar.  A row update
that throws may have taken effect all the same, and then the row describes
bytes that are nowhere.  `rotateLocalCopy` leaves the sidecar where it is in
that case, and recovery keeps whichever copy the row describes.

An exception before the row update is harmful too where the sidecar that was
removed at the start was the only copy that the row describes.
-/

/-- The event at each step of a replacement in which one of them throws. -/
def thrownAt (failure : Point × Bool) (point : Point) : Event :=
  if failure.1 = point then .thrown failure.2 else .done

/-- The backing file authenticates under the row. -/
def File.readable (file : File) : Bool :=
  authenticates file.backing file.row.state

variable {file : File}

/-! ## What a recovery makes of each outcome -/

theorem readable_recover_of_none (isNone : file.sidecar = none) : (recoverSidecars file).readable = file.readable := by
  simp [recoverSidecars, resolveSidecar, resolution, isNone]

/-- The sidecar is what the row describes. -/
theorem readable_recover_of_promoted {sidecar : Bytes} (isSidecar : file.sidecar = some sidecar)
    (encrypted : file.row.state.encrypted) (read : sidecar.authenticates file.row.state) :
    (recoverSidecars file).readable := by
  simp [recoverSidecars, resolveSidecar, resolution, isSidecar, encrypted, read, File.promote, File.readable,
    authenticates]

/-- The backing file is what the row describes. -/
theorem readable_recover_of_readable (encrypted : file.row.state.encrypted) (readable : file.readable) :
    (recoverSidecars file).readable := by
  cases isSidecar : file.sidecar with
  | none => rw [readable_recover_of_none isSidecar, readable]
  | some sidecar =>
    cases read : sidecar.authenticates file.row.state with
    | true => exact readable_recover_of_promoted isSidecar encrypted read
    | false =>
      have discarded : resolution file file.row.state = .discarded := by
        rw [File.readable] at readable
        simp [resolution, isSidecar, encrypted, read, readable]
      rw [recoverSidecars, resolveSidecar, discarded]
      exact readable

/-! ## Outcomes -/

theorem replaceContent_thrownAt (next : Replacement) (file : File) (failure : Point × Bool) :
    (replaceContent next (thrownAt failure) file).1 =
      match failure with
      | (.prepare, _) => file
      | (.create, _) | (.fill, _) | (.retain, _) | (.update, false) => file.removeSidecar
      | (.update, true) => file.removeSidecar.setRow next
      | (.bookkeeping, _) | (.rename, false) => (file.setSidecar next.bytes).setRow next
      | _ => ((file.setSidecar next.bytes).setRow next).promote := by
  rcases failure with ⟨point, applied⟩
  cases point <;> cases applied <;> rfl

variable (rotation : Rotation)

theorem rotateLocalCopy_thrownAt (file : File) (failure : Point × Bool) (reseals : rotation.reseals file.backing) :
    (rotateLocalCopy rotation (thrownAt failure) file).1 =
      match failure with
      | (.create, _) | (.fill, _) | (.publish, _) => file.removeSidecar
      | (.update, false) => if rotation.busyLater then file.removeSidecar else file.setSidecar (.sealed rotation.next)
      | (.update, true) | (.rename, false) =>
        if rotation.busyLater then file.removeSidecar
        else (file.setSidecar (.sealed rotation.next)).setRow (.sealed rotation.next)
      | _ =>
        if rotation.busyLater then file.removeSidecar
        else ((file.setSidecar (.sealed rotation.next)).setRow (.sealed rotation.next)).promote := by
  rw [rotateLocalCopy, branch_of_false (by simp [reseals])]
  rcases rotation with ⟨expected, current, busy, busyLater, next⟩
  rcases failure with ⟨point, applied⟩
  cases busyLater <;> cases point <;> cases applied <;> rfl

/-! ## Failed replacements -/

/-- The row update has taken effect and the rename has not. -/
theorem readable_recover_updated (next : Sealed) (file : File) :
    (recoverSidecars ((file.setSidecar (.sealed next)).setRow (.sealed next))).readable := by
  refine readable_recover_of_promoted rfl next.isEncrypted ?_
  simp [Bytes.authenticates, File.setRow, Replacement.row]

theorem readable_recover_promoted (next : Sealed) (file : File) :
    (recoverSidecars ((file.setSidecar (.sealed next)).setRow (.sealed next)).promote).readable := by
  rw [readable_recover_of_none rfl]
  simp [File.readable, File.promote, File.setRow, File.setSidecar, authenticates, Bytes.authenticates, Replacement.row]

/-- An exception of `createFile` or `seal` is harmful after a row update that took effect, and before it where the
removed sidecar was the copy that the row describes. -/
def harmless (file : File) : Point × Bool -> Bool
  | (.create, _) | (.fill, _) | (.retain, _) | (.update, false) => file.readable
  | (.update, true) => false
  | _ => true

theorem readable_replaceContent (file : File) (next : Sealed) (failure : Point × Bool)
    (readable : (recoverSidecars file).readable) (fresh : authenticates file.backing next.state = false) :
    (recoverSidecars (replaceContent (.sealed next) (thrownAt failure) file).1).readable = harmless file failure := by
  have removed : (recoverSidecars file.removeSidecar).readable = file.readable := readable_recover_of_none rfl
  have updated := readable_recover_updated next file
  have promoted := readable_recover_promoted next file
  rw [replaceContent_thrownAt]
  rcases failure with ⟨point, applied⟩
  cases point with
  | prepare => exact readable
  | create | fill | retain => exact removed
  | update =>
    cases applied with
    | false => exact removed
    | true =>
      -- the sidecar is gone, and the row describes it
      exact fresh
  | bookkeeping => exact updated
  | rename =>
    cases applied with
    | false => exact updated
    | true => exact promoted
  | _ => exact promoted

theorem readable_rotateLocalCopy (file : File) (failure : Point × Bool)
    (encrypted : file.row.state.encrypted) (readable : file.readable) :
    (recoverSidecars (rotateLocalCopy rotation (thrownAt failure) file).1).readable := by
  cases reseals : rotation.reseals file.backing with
  | false =>
    rw [rotateLocalCopy, branch_of_true (by simp [reseals])]
    exact readable_recover_of_readable encrypted readable
  | true =>
    have removed : (recoverSidecars file.removeSidecar).readable :=
      readable_recover_of_readable encrypted readable
    have staged : (recoverSidecars (file.setSidecar (.sealed rotation.next))).readable :=
      readable_recover_of_readable encrypted readable
    have updated := readable_recover_updated rotation.next file
    have promoted := readable_recover_promoted rotation.next file
    rw [rotateLocalCopy_thrownAt rotation file failure reseals]
    split
    · exact removed
    · exact removed
    · exact removed
    · split
      · exact removed
      · exact staged
    · split
      · exact removed
      · exact updated
    · split
      · exact removed
      · exact updated
    · split
      · exact removed
      · exact promoted

theorem readable_rotateFile (file : File) (failure : Point × Bool)
    (encrypted : file.row.state.encrypted) (readable : (recoverSidecars file).readable) :
    (recoverSidecars (rotateFile rotation (thrownAt failure) file).1).readable := by
  have encryptedAfter : (recoverSidecars file).row.state.encrypted := by
    rw [recoverSidecars, (row_resolveSidecar _ file).1]
    exact encrypted
  unfold rotateFile branch
  split
  · exact readable
  · split
    · exact readable
    · rename_i same
      have isRow : file.row.state = rotation.expected := by simpa using same
      split
      · exact readable
      · split
        · exact readable
        · rw [← isRow]
          cases thrownAt failure .resolve with
          | done => exact readable_rotateLocalCopy rotation _ failure encryptedAfter readable
          | thrown applied =>
            cases applied with
            | false => exact readable
            | true => exact readable_recover_of_readable encryptedAfter readable
          | killed applied =>
            cases applied with
            | false => exact readable
            | true => exact readable_recover_of_readable encryptedAfter readable

/-- The bytes that the writer seals, if its content is not empty. -/
def Writer.sealedNext : Writer -> Option Sealed
  | .createFile (.sealed next) | .sealCopy (.sealed next) => some next
  | .createFile .empty | .sealCopy .empty => none
  | .rotateFile rotation => some rotation.next

def Writer.harmless (file : File) (failure : Point × Bool) : Writer -> Bool
  | .createFile _ | .sealCopy _ => Sidecar.harmless file failure
  | .rotateFile _ => true

/-- A replacement in which one step throws, made or not, leaves a file that is readable after a recovery exactly if
the exception is harmless. -/
theorem failed_replacement_readable_iff (file : File) (writer : Writer) (next : Sealed) (failure : Point × Bool)
    (encrypted : file.row.state.encrypted = true) (readable : (recoverSidecars file).readable = true)
    (isSealed : writer.sealedNext = some next) (fresh : authenticates file.backing next.state = false) :
    (recoverSidecars (writer.program (thrownAt failure) file).1).readable = true ↔
      writer.harmless file failure = true := by
  cases writer with
  | createFile replacement =>
    cases replacement with
    | empty => cases isSealed
    | sealed bytes =>
      cases isSealed
      rw [Writer.program, createFile, readable_replaceContent file next failure readable fresh]
      exact Iff.rfl
  | sealCopy replacement =>
    cases replacement with
    | empty => cases isSealed
    | sealed bytes =>
      cases isSealed
      rw [Writer.program, sealCopy, readable_replaceContent file next failure readable fresh]
      exact Iff.rfl
  | rotateFile rotation =>
    exact iff_of_true (readable_rotateFile rotation file failure encrypted readable) rfl

/-- The rename of an overwrite throws. -/
theorem failed_replacement_readable_rename :
    (recoverSidecars ((Writer.createFile (.sealed (sealedBytes 1 [8]))).program (thrownAt (.rename, false))
      oneByte).1).readable = true :=
  (failed_replacement_readable_iff oneByte (.createFile (.sealed (sealedBytes 1 [8]))) (sealedBytes 1 [8])
    (.rename, false) (by decide +kernel) (by decide +kernel) rfl (by decide +kernel)).mpr rfl

/-- The row update of an overwrite or a seal throws and has taken effect: the row describes bytes that are nowhere.
The rotation of the same file is recovered. -/
theorem failed_update_unreadable :
    (recoverSidecars ((Writer.createFile (.sealed (sealedBytes 1 [8]))).program (thrownAt (.update, true))
      oneByte).1).readable = false ∧
    (recoverSidecars ((Writer.sealCopy (.sealed (sealedBytes 1 [8]))).program (thrownAt (.update, true))
      oneByte).1).readable = false ∧
    (recoverSidecars ((Writer.rotateFile
      { expected := oneByte.row.state, current := 2, busy := false, busyLater := false
        next := { state := { iv := [1], keyVersion := 2 }, content := [7], isEncrypted := rfl } }).program
      (thrownAt (.update, true)) oneByte).1).readable = true := by
  decide +kernel

end Sidecar
end Content
end Vaulthalla
